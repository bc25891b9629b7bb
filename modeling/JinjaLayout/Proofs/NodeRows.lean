import Mathlib
import JinjaLayout.Proofs.StatementWalks
import JinjaLayout.Tree.Node

/-!
The children of a node along its tokens. Main statement: the tokens that spell an expression or a
statement are those of its children, in the order of the source, and tokens of its own between them.
-/

namespace JinjaLayout

open List

namespace Spelling

def Argument.node : Argument → Node
  | .positional value | .star value | .doubleStar value => .expr value
  | .keyword argument => .keyword argument

end Spelling

namespace Node

def arguments : Node → Arguments Expr
  | expr (.filter _ _ arguments _) | expr (.test _ _ arguments _) | expr (.call _ arguments _) =>
      arguments
  | _ => {}

/-- The nodes are the children in the order of the source, where the starred argument may stand
before keywords. -/
inductive Lists (node : Node) : List Node → Prop where
  | children : Lists node node.children
  | arguments {front : List Node} {items : List Spelling.Argument}
      (h : node.children = front ++ ofArguments node.arguments)
      (hitems : Spelling.Arranged node.arguments items) :
      Lists node (front ++ items.map Spelling.Argument.node)

end Node

/-- The token that opens the parameters of a macro, or those of a call block if it has them. -/
def Stmt.signature? (ts : List Token) : Stmt → Option Token
  | .macroBlock .. => ts[3]?
  | .callBlock .. => ts[2]?
  | _ => none

namespace Spelling

open Grammar

/-- The opening parentheses among the tokens are those of the owner. -/
def Free (own : Token → Prop) (ts : List Token) : Prop :=
  ∀ token ∈ ts, token.isOperator "(" → own token

/-- Nodes one behind the other, and tokens of their owner between them. -/
inductive Row (part : Spelling Node) (own : Token → Prop) : Spelling (List Node) where
  | nil {us} : Row part own [] [] us
  | token {token nodes ts us} (htoken : token.isOperator "(" → own token)
      (h : Row part own nodes ts us) : Row part own nodes (token :: ts) us
  | node {node nodes ts ts' us} (hnode : part node ts (ts' ++ us)) (h : Row part own nodes ts' us) :
      Row part own (node :: nodes) (ts ++ ts') us

/-- A part of an expression and its tokens. An empty subscript stands at the bracket before it. -/
inductive ExprPart (spelled : Place → Spelling Expr) : Spelling Node where
  | expr {place expr ts us} (h : spelled place expr ts us) : ExprPart spelled (.expr expr) ts us
  | entry {entry ts us} (h : EntrySpelled True spelled entry ts us) :
      ExprPart spelled (.entry entry) ts us
  | keyword {argument ts us} (h : ArgumentSpelled True spelled (.keyword argument) ts us) :
      ExprPart spelled (.keyword argument) ts us
  | operand {operand ts us} (h : OperandSpelled True spelled operand ts us) :
      ExprPart spelled (.operand operand) ts us
  | empty {context layout opening us} (hopening : opening.isOperator "[")
      (hspan : layout.span = some (opening.index + 1, opening.index + 1)) :
      ExprPart spelled (.expr (.tuple [] context layout)) [opening] us

inductive StmtPart (table : List Token) (spelled : Spelling Stmt) : Spelling Node where
  | part {node ts us} (h : ExprPart (Spells True) node ts us) : StmtPart table spelled node ts us
  | text {text layout ts us} (h : NodeSpelled table True (.data text layout, none) ts us) :
      StmtPart table spelled (.expr (.data text layout)) ts us
  | option {option ts us} (h : Spells True .value option.value ts us)
      (hspan : option.layout.span = option.value.layout.span) :
      StmtPart table spelled (.keyword option) ts us
  | branch {branch pair ts us} (h : BranchSpelled table True spelled (branch, pair) ts us) :
      StmtPart table spelled (.branch branch) ts us
  | stmt {stmt ts us} (h : spelled stmt ts us) : StmtPart table spelled (.stmt stmt) ts us

variable {own : Token → Prop} {token : Token} {ts ts' us vs : List Token}

theorem Arranged.perm_ofArguments {arguments : Arguments Expr} {items : List Argument}
    (h : Arranged arguments items) : (items.map Argument.node).Perm (Node.ofArguments arguments) := by
  cases h with
  | plain => simp [Node.ofArguments, Argument.node, Function.comp_def]
  | starred =>
      simp only [Node.ofArguments, Argument.node, map_append, map_map, map_cons,
        Function.comp_def, Option.toList_some, map_nil, append_assoc]
      refine .append_left _ (.append_left _ ?_)
      simpa using perm_middle.symm

theorem Lists.perm {node : Node} {nodes : List Node} (h : node.Lists nodes) :
    nodes.Perm node.children := by
  cases h with
  | children => rfl
  | arguments hchildren hitems =>
      rw [hchildren]
      exact .append_left _ hitems.perm_ofArguments

/-! ### Opening parentheses -/

section Free

variable {goal : Prop}

theorem free_of_isKind {kind : TokenKind} (h : token.isKind kind) (hne : kind ≠ .operator)
    (hparen : token.isOperator "(") : goal :=
  absurd (isKind_unique h (isKind_of_isOperator hparen)) hne

theorem free_of_isName {word : Text} (h : token.isName word)
    (hparen : token.isOperator "(") : goal :=
  free_of_isKind (isKind_of_isName h) (by decide) hparen

theorem free_of_isOperator {symbol : Text} (h : token.isOperator symbol)
    (hne : symbol ≠ "(".toList) (hparen : token.isOperator "(") : goal :=
  absurd (isOperator_unique h hparen) hne

theorem free_of_isPlain (h : isPlain token) (hparen : token.isOperator "(") : goal := by
  have hnot := isBracket_of_isPlain h
  rw [isBracket, brackets, any_cons, hparen] at hnot
  cases hnot

theorem Free.nil : Free own [] := by
  simp [Free]

theorem Free.cons (htoken : token.isOperator "(" → own token) (h : Free own ts) :
    Free own (token :: ts) :=
  forall_mem_cons.mpr ⟨htoken, h⟩

theorem Free.append (h : Free own ts) (h' : Free own ts') : Free own (ts ++ ts') :=
  forall_mem_append.mpr ⟨h, h'⟩

theorem Dotted.free {words : List Text} (h : Dotted words ts) : Free own ts := by
  induction h with
  | last htoken => exact .cons (free_of_isName htoken) .nil
  | more htoken hpoint _ ih =>
      exact .cons (free_of_isName htoken) (.cons (free_of_isOperator hpoint (by decide)) ih)

theorem Compares.free {op : CompareOp} (h : Compares op ts) : Free own ts := by
  cases h with
  | mem htoken => exact .cons (free_of_isName htoken) .nil
  | notMem hfirst hsecond => exact .cons (free_of_isName hfirst) (.cons (free_of_isName hsecond) .nil)
  | symbol _ _ htoken => exact .cons (free_of_isOperator htoken (by cases op <;> decide)) .nil

theorem Words.free {words : List Text} (h : Words words ts us) : Free own ts := by
  induction h with
  | nil => exact .nil
  | cons htoken _ ih => exact .cons (free_of_isName htoken) ih

theorem Symbol.free {symbol : Text} (h : Symbol symbol ts us) (hne : symbol ≠ "(".toList) :
    Free own ts := by
  obtain ⟨token, rfl, htoken⟩ := h
  exact .cons (free_of_isOperator htoken hne) .nil

theorem Nothing.free (h : Nothing ts us) : Free own ts := by
  obtain rfl := h
  exact .nil

end Free

/-! ### Rows -/

section Row

variable {part : Spelling Node} {node : Node} {nodes nodes' : List Node}

theorem Row.one (h : part node ts us) : Row part own [node] ts us := by
  have hrow : Row part own [node] (ts ++ []) us := .node h .nil
  rwa [append_nil] at hrow

theorem Row.free (h : Free own ts) : Row part own [] ts us := by
  induction ts with
  | nil => exact .nil
  | cons token ts ih =>
      obtain ⟨htoken, hrest⟩ := forall_mem_cons.mp h
      exact .token htoken (ih hrest)

theorem Row.append (h : Row part own nodes ts vs) (h' : Row part own nodes' ts' us)
    (hvs : vs = ts' ++ us) : Row part own (nodes ++ nodes') (ts ++ ts') us := by
  induction h with
  | nil => exact h'
  | token htoken _ ih => exact .token htoken (ih hvs)
  | node hnode _ ih =>
      rw [hvs, ← append_assoc] at hnode
      rw [append_assoc]
      exact .node hnode (ih hvs)

theorem Row.before (h : Row part own nodes ts vs) (hback : Free own ts') (hvs : vs = ts' ++ us) :
    Row part own nodes (ts ++ ts') us := by
  simpa using h.append (.free hback) hvs

theorem Row.behind (h : Row part own nodes ts us) (hfront : Free own ts') :
    Row part own nodes (ts' ++ ts) us :=
  (Row.free hfront).append h rfl

theorem Row.bracketed {opening closing : Token} (h : Row part own nodes ts (closing :: us))
    (pair : Text × Text) (hpair : pair.1 ≠ "(".toList ∧ pair.2 ≠ "(".toList)
    (hopening : opening.isOperator pair.1) (hclosing : closing.isOperator pair.2) :
    Row part own nodes (opening :: (ts ++ [closing])) us :=
  .token (free_of_isOperator hopening hpair.1)
    (h.before (.cons (free_of_isOperator hclosing hpair.2) .nil) rfl)

theorem Row.mono {part' : Spelling Node} (h : Row part own nodes ts us)
    (himp : ∀ node ts us, part node ts us → part' node ts us) : Row part' own nodes ts us := by
  induction h with
  | nil => exact .nil
  | token htoken _ ih => exact .token htoken ih
  | node hnode _ ih => exact .node (himp _ _ _ hnode) ih

theorem Row.congr (h : Row part own nodes ts us) (heq : nodes = nodes') :
    Row part own nodes' ts us :=
  heq ▸ h

theorem Row.exists_of_mem (h : Row part own nodes ts us) (hnode : node ∈ nodes) :
    ∃ ts' us', part node ts' us' ∧ ts' ++ us' <:+ ts ++ us := by
  induction h with
  | nil => simp at hnode
  | token _ _ ih =>
      obtain ⟨ts', us', hpart, hsuffix⟩ := ih hnode
      exact ⟨ts', us', hpart, hsuffix.trans (suffix_cons ..)⟩
  | node hfirst _ ih =>
      rw [append_assoc]
      obtain rfl | hnode := mem_cons.mp hnode
      · exact ⟨_, _, hfirst, suffix_rfl⟩
      · obtain ⟨ts', us', hpart, hsuffix⟩ := ih hnode
        exact ⟨ts', us', hpart, hsuffix.trans (suffix_append ..)⟩

variable {α : Type} {spelled : Spelling α} {children : α → List Node} {values : List α}

theorem Listed.row (h : Listed spelled values ts us)
    (hrow : ∀ value ts us, spelled value ts us → Row part own (children value) ts us) :
    Row part own (values.flatMap children) ts us := by
  induction h with
  | nil => exact .nil
  | last hvalue _ => simpa using hrow _ _ _ hvalue
  | more hvalue hcomma _ ih =>
      rw [flatMap_cons]
      exact (hrow _ _ _ hvalue).append (.token (free_of_isOperator hcomma (by decide)) ih) rfl

theorem Chained.row (h : Chained spelled values ts us)
    (hrow : ∀ value ts us, spelled value ts us → Row part own (children value) ts us) :
    Row part own (values.flatMap children) ts us := by
  induction h with
  | nil => exact .nil
  | cons hvalue _ ih =>
      rw [flatMap_cons]
      exact (hrow _ _ _ hvalue).append ih rfl

theorem Tupled.row (h : Tupled spelled values ts us)
    (hrow : ∀ value ts us, spelled value ts us → Row part own (children value) ts us) :
    Row part own (values.flatMap children) ts us := by
  cases h with
  | mk hfirst hcomma hothers =>
      rw [flatMap_cons]
      exact (hrow _ _ _ hfirst).append
        (.token (free_of_isOperator hcomma (by decide)) (hothers.row hrow)) rfl

theorem Possibly.row {value : Option α} (h : Possibly spelled value ts us)
    (hrow : ∀ value ts us, spelled value ts us → Row part own (children value) ts us) :
    Row part own (value.toList.flatMap children) ts us := by
  cases h with
  | none => exact .nil
  | some hvalue => simpa using hrow _ _ _ hvalue

end Row

/-! ### Expressions -/

section Expressions

variable {marked : Prop} {spelled : Place → Spelling Expr} {expr : Expr} {arguments : Arguments Expr}
  {pairs : List TagPair} {place : Place}

section Parts

variable {part : Spelling Node}
  (hpart : ∀ place expr ts us, spelled place expr ts us → part (.expr expr) ts us)

include hpart

theorem Behind.row {front : Token → Bool} (h : Behind front (spelled .value) expr ts us)
    (hfront : ∀ token, front token → token.isOperator "(" → own token) :
    Row part own [.expr expr] ts us := by
  cases h with
  | mk htoken hexpr => exact .token (hfront _ htoken) (.one (hpart _ _ _ _ hexpr))

theorem EntrySpelled.row {entry : Entry Expr} (h : EntrySpelled marked spelled entry ts us) :
    Row part own (Node.entry entry).children ts us := by
  cases h with
  | mk hkey hcolon hvalue _ =>
      exact (Row.one (hpart _ _ _ _ hkey)).append
        (.token (free_of_isOperator hcolon (by decide)) (.one (hpart _ _ _ _ hvalue))) rfl

theorem OperandSpelled.row {operand : Operand Expr}
    (h : OperandSpelled marked spelled operand ts us) :
    Row part own (Node.operand operand).children ts us := by
  cases h with
  | mk hop hvalue _ => exact (Row.one (hpart _ _ _ _ hvalue)).behind hop.free

theorem ArgumentSpelled.row {argument : Keyword Expr}
    (h : ArgumentSpelled marked spelled (.keyword argument) ts us) :
    Row part own (Node.keyword argument).children ts us := by
  cases h with
  | keyword hname hequals hvalue _ =>
      exact .token (free_of_isName hname)
        (.token (free_of_isOperator hequals (by decide)) (.one (hpart _ _ _ _ hvalue)))

end Parts

theorem ArgumentSpelled.rowNode {argument : Argument}
    (h : ArgumentSpelled True spelled argument ts us) :
    Row (ExprPart spelled) own [argument.node] ts us := by
  cases h with
  | positional hvalue => exact .one (.expr hvalue)
  | keyword hname hequals hvalue hmarked =>
      exact .one (.keyword (.keyword hname hequals hvalue hmarked))
  | star hstar hvalue | doubleStar hstar hvalue =>
      exact .token (free_of_isOperator hstar (by decide)) (.one (.expr hvalue))

/-- The arguments stand along the tokens, in the order of the source. -/
def RowOfArguments (spelled : Place → Spelling Expr) (own : Token → Prop)
    (arguments : Arguments Expr) : Phrase :=
  fun ts us => ∃ items, Arranged arguments items ∧
    Row (ExprPart spelled) own (items.map Argument.node) ts us

theorem CallSpelled.row {pair : TagPair} (h : CallSpelled True spelled arguments pair ts us)
    (hown : own pair.opening) : RowOfArguments spelled own arguments ts us := by
  cases h with
  | mk hitems _ hlisted hclosing =>
      refine ⟨_, hitems, .token (fun _ => hown) ?_⟩
      rw [map_eq_flatMap]
      have hrow : Row (ExprPart spelled) own _ _ _ :=
        hlisted.row fun _ _ _ => ArgumentSpelled.rowNode
      exact hrow.before (.cons (free_of_isOperator hclosing (by decide)) .nil) rfl

theorem FilterArguments.row (h : FilterArguments True spelled arguments pairs ts us)
    (hown : ∀ pair ∈ pairs, own pair.opening) : RowOfArguments spelled own arguments ts us := by
  cases h with
  | none => exact ⟨_, .plain, .nil⟩
  | call hcall => exact hcall.row (hown _ mem_cons_self)

theorem TestArguments.row (h : TestArguments True spelled arguments pairs ts us)
    (hown : ∀ pair ∈ pairs, own pair.opening) : RowOfArguments spelled own arguments ts us := by
  cases h with
  | none => exact ⟨_, .plain, .nil⟩
  | bare hvalue => exact ⟨_, .plain, .one (.expr hvalue)⟩
  | call hcall => exact hcall.row (hown _ mem_cons_self)

theorem RowOfArguments.behind {front : List Node} {all : List Token}
    (h : RowOfArguments spelled own arguments ts' us)
    (hfront : Row (ExprPart spelled) own front ts vs) (hvs : vs = ts' ++ us) (hall : ts ++ ts' = all)
    (hchildren : Node.ofExpr expr = front ++ Node.ofArguments arguments)
    (harguments : (Node.expr expr).arguments = arguments) :
    ∃ nodes, (Node.expr expr).Lists nodes ∧ Row (ExprPart spelled) own nodes all us := by
  subst harguments hall
  obtain ⟨items, hitems, hrow⟩ := h
  exact ⟨_, .arguments hchildren hitems, hfront.append hrow hvs⟩

/-- The children of an expression stand along its tokens, and it has the parentheses of its
arguments. -/
theorem Core.row (h : Core True spelled place expr pairs ts us)
    (hown : ∀ pair ∈ pairs, own pair.opening) :
    ∃ nodes, (Node.expr expr).Lists nodes ∧ Row (ExprPart spelled) own nodes ts us := by
  have hkeep : Row (ExprPart spelled) own (Node.ofExpr expr) ts us →
      ∃ nodes, (Node.expr expr).Lists nodes ∧ Row (ExprPart spelled) own nodes ts us :=
    fun h => ⟨_, .children, h⟩
  have hone : ∀ place expr ts us, spelled place expr ts us →
      Row (ExprPart spelled) own [.expr expr] ts us := fun _ _ _ _ h => .one (.expr h)
  have hbehind : ∀ {front : Token → Bool} {expr ts us}, Behind front (spelled .value) expr ts us →
      (∀ token, front token → token.isOperator "(" → own token) →
        Row (ExprPart spelled) own [.expr expr] ts us := fun h => h.row fun _ _ _ _ => .expr
  cases h with
  | name _ _ htoken => exact hkeep (.free (.cons (free_of_isName htoken) .nil))
  | member hname hpoint hkey =>
      exact hkeep (.free (.cons (free_of_isName hname)
        (.cons (free_of_isOperator hpoint (by decide)) (.cons (free_of_isName hkey) .nil))))
  | @const value _ _ _ _ htoken =>
      exact hkeep (.free (.cons (free_of_isKind htoken (by cases value <;> simp [constantKind])) .nil))
  | string hfirst hothers _ =>
      exact hkeep (.free (.cons (free_of_isKind hfirst (by decide))
        fun token htoken => free_of_isKind (hothers token htoken) (by decide)))
  | emptyTuple => exact hkeep .nil
  | tuple _ hitems =>
      rw [Node.ofExpr, map_eq_flatMap] at hkeep
      exact hkeep (hitems.row (hone _))
  | indexTuple hitems =>
      rw [Node.ofExpr, map_eq_flatMap] at hkeep
      refine hkeep (hitems.row fun _ _ _ hitem => ?_)
      obtain ⟨_, _, hexpr⟩ := hitem
      exact hone _ _ _ _ hexpr
  | list hopening hitems hclosing =>
      rw [Node.ofExpr, map_eq_flatMap] at hkeep
      exact hkeep ((hitems.row (hone _)).bracketed ("[".toList, "]".toList) (by decide) hopening
        hclosing)
  | dict hopening hentries hclosing =>
      rw [Node.ofExpr, map_eq_flatMap] at hkeep
      exact hkeep ((hentries.row fun _ _ _ hentry => .one (.entry hentry)).bracketed (['{'], ['}'])
        (by decide) hopening hclosing)
  | conditional htrue hword htest hfalse =>
      rw [Node.ofExpr, map_eq_flatMap] at hkeep
      have helse := hfalse.row fun _ _ _ hvalue => hbehind hvalue fun _ => free_of_isName
      exact hkeep ((hone _ _ _ _ htrue).append
        (.token (free_of_isName hword) ((hone _ _ _ _ htest).append helse rfl)) (by simp))
  | binary hleft hop hright =>
      exact hkeep ((hone _ _ _ _ hleft).append
        (.token (free_of_isPlain (isPlain_of_binaryFits hop)) (hone _ _ _ _ hright)) rfl)
  | unary hop hoperand =>
      exact hkeep (.token (free_of_isPlain (isPlain_of_unaryFits hop)) (hone _ _ _ _ hoperand))
  | concat hfirst hothers =>
      rw [Node.ofExpr, map_cons, map_eq_flatMap] at hkeep
      exact hkeep ((hone _ _ _ _ hfirst).append (hothers.row fun _ _ _ hvalue =>
        hbehind hvalue fun _ htoken => free_of_isOperator htoken (by decide)) rfl)
  | compare hfirst hothers =>
      rw [Node.ofExpr, map_eq_flatMap] at hkeep
      exact hkeep ((hone _ _ _ _ hfirst).append
        (hothers.row fun _ _ _ hoperand => .one (.operand hoperand)) rfl)
  | attr hoperand hpoint hword =>
      exact hkeep ((hone _ _ _ _ hoperand).before
        (.cons (free_of_isOperator hpoint (by decide)) (.cons (free_of_isName hword) .nil)) rfl)
  | dotted hoperand hpoint hindex =>
      exact hkeep ((hone _ _ _ _ hoperand).append
        (.token (free_of_isOperator hpoint (by decide)) (hone _ _ _ _ hindex)) rfl)
  | item hoperand hopening hindex hclosing =>
      obtain ⟨_, _, hindex⟩ := hindex
      exact hkeep ((hone _ _ _ _ hoperand).append ((hone _ _ _ _ hindex).bracketed
        ("[".toList, "]".toList) (by decide) hopening hclosing) (by simp))
  | emptyItem hoperand hopening hclosing hmarked =>
      exact hkeep ((hone _ _ _ _ hoperand).append (.node (ExprPart.empty hopening (hmarked trivial))
        (.token (free_of_isOperator hclosing (by decide)) .nil)) rfl)
  | slice hstart hcolon hstop _ =>
      rw [Node.ofExpr, Option.toList_none, append_nil, map_eq_flatMap,
        flatMap_append] at hkeep
      exact hkeep ((hstart.row (hone _)).append
        (.token (free_of_isOperator hcolon (by decide)) (hstop.row (hone _))) rfl)
  | steppedSlice hstart hcolon hstop hsecond hstep =>
      rw [Node.ofExpr, append_assoc, map_eq_flatMap, flatMap_append,
        flatMap_append] at hkeep
      have hrest := (hstop.row (hone _)).append
        (.token (free_of_isOperator hsecond (by decide)) (hstep.row (hone _))) rfl
      exact hkeep ((hstart.row (hone _)).append
        (.token (free_of_isOperator hcolon (by decide)) hrest) (by simp))
  | filter _ hoperand hbar hname harguments =>
      exact (harguments.row hown).behind ((hone _ _ _ _ hoperand).before
        (.cons (free_of_isOperator hbar (by decide)) hname.free) (by simp)) rfl (by simp) rfl rfl
  | @blockFilter _ _ _ _ bars _ _ _ hbars hname harguments =>
      have hfree : Free own bars := by
        rcases hbars with rfl | ⟨bar, rfl, hbar⟩
        · exact .nil
        · exact .cons (free_of_isOperator hbar (by decide)) .nil
      exact (harguments.row hown).behind (.free (hfree.append hname.free)) rfl (by simp) rfl rfl
  | @test _ _ _ _ _ _ nots _ _ _ _ hoperand hword hnots hname harguments =>
      have hfree : Free own nots := by
        rcases hnots with ⟨rfl, -⟩ | ⟨token, rfl, htoken⟩
        · exact .nil
        · exact .cons (free_of_isName htoken) .nil
      exact (harguments.row hown).behind ((hone _ _ _ _ hoperand).before
        (.cons (free_of_isName hword) (hfree.append hname.free)) (by simp)) rfl (by simp) rfl rfl
  | call hoperand harguments =>
      exact (harguments.row (hown _ mem_cons_self)).behind (hone _ _ _ _ hoperand) rfl rfl rfl
        rfl

theorem Wraps.row {part : Spelling Node} {nodes : List Node} {groups : List (Token × Token)}
    (h : Wraps ts ts' groups) (hrow : Row part own nodes ts (groups.map Prod.snd ++ us))
    (hown : ∀ pair ∈ groups, own pair.1) : Row part own nodes ts' us := by
  induction h generalizing us with
  | bare => exact hrow
  | @paren _ groups opening closing _ _ hclosing ih =>
      obtain ⟨hinner, hopening⟩ := forall_mem_append.mp hown
      have hclosed : Row part own nodes _ (closing :: us) := ih (by simpa using hrow) hinner
      exact .token (fun _ => hopening _ mem_cons_self)
        (hclosed.before (.cons (free_of_isOperator hclosing (by decide)) .nil) rfl)

theorem Layer.row (h : Layer True spelled place expr ts us) :
    ∃ nodes, (Node.expr expr).Lists nodes ∧ Row (ExprPart spelled) (fun _ => True) nodes ts us := by
  cases h with
  | group hcore hwraps _ _ =>
      obtain ⟨nodes, hnodes, hrow⟩ : ∃ nodes, _ ∧ Row _ (fun _ => True) nodes _ _ :=
        hcore.row fun _ _ => trivial
      exact ⟨nodes, hnodes, hwraps.row hrow fun _ _ => trivial⟩
  | inline hoperand _ _ => exact ⟨_, .children, .one (.expr hoperand)⟩

theorem Layer.span_eq (h : Layer True spelled place expr ts us) :
    expr.layout.span = some (spanOf ts) := by
  cases h with
  | group _ _ _ hmarked | inline _ _ hmarked => exact (hmarked trivial).1

end Expressions

/-! ### Statements -/

section Statements

variable {table : List Token} {part : Spelling Node} {first second inside last : Phrase}
  {nodes nodes' : List Node} {keyword stop : Text} {spelled : Spelling Stmt} {stmts : List Stmt}
  {pairs : List TagPair}

theorem Then.row (h : Then first second ts us)
    (hfirst : ∀ ts us, first ts us → Row part own nodes ts us)
    (hsecond : ∀ ts us, second ts us → Row part own nodes' ts us) :
    Row part own (nodes ++ nodes') ts us := by
  obtain ⟨ts', ts'', rfl, hts', hts''⟩ := h
  exact (hfirst _ _ hts').append (hsecond _ _ hts'') rfl

theorem TagSpelled.row {marked : Prop} {pair : TagPair}
    (h : TagSpelled table marked keyword inside pair ts us)
    (hinside : ∀ inner us, inside inner us → inner <+: ts.drop 2 → Row part own nodes inner us) :
    Row part own nodes ts us := by
  cases h with
  | @mk opening word colons closing inner us hopening hword hphrase hcolons hclosing _ =>
      have hfree : Free own colons := by
        obtain rfl | ⟨colon, rfl, hcolon⟩ := hcolons
        · exact .nil
        · exact .cons (free_of_isOperator hcolon (by decide)) .nil
      exact .token (free_of_isKind hopening (by decide)) (.token (free_of_isName hword)
        ((hinside _ _ hphrase (prefix_append ..)).before
          (hfree.append (.cons (free_of_isKind hclosing (by decide)) .nil)) (by simp)))

theorem Chained.rowStmts (h : Chained spelled stmts ts us)
    (hpart : ∀ stmt ts us, spelled stmt ts us → part (.stmt stmt) ts us) :
    Row part own (stmts.map .stmt) ts us := by
  rw [map_eq_flatMap]
  exact h.row fun _ _ _ hstmt => .one (hpart _ _ _ hstmt)

theorem EnclosedSpelled.row
    (h : EnclosedSpelled table True spelled keyword stop inside last stmts pairs ts us)
    (hinside : ∀ inner us, inside inner us → inner <+: ts.drop 2 →
      Row (StmtPart table spelled) own nodes inner us)
    (hlast : ∀ ts us, last ts us → Free own ts) :
    Row (StmtPart table spelled) own (nodes ++ stmts.map .stmt) ts us := by
  cases h with
  | mk hfirst hstmts hsecond =>
      have htag := TagSpelled.row hfirst fun inner us hphrase hleads =>
        hinside inner us hphrase (hleads.trans (drop_append ▸ prefix_append ..))
      have hstop : Row (StmtPart table spelled) own [] _ _ :=
        TagSpelled.row hsecond fun _ _ hphrase _ => .free (hlast _ _ hphrase)
      simpa using htag.append ((hstmts.rowStmts fun _ _ _ => .stmt).append hstop rfl) (by simp)

section Expressions

variable (hpart : ∀ place expr ts us, Spells True place expr ts us → part (.expr expr) ts us)

include hpart

theorem Spells.row {place : Place} {expr : Expr} (h : Spells True place expr ts us) :
    Row part own [.expr expr] ts us :=
  .one (hpart _ _ _ _ h)

theorem SetTarget.row {target : Expr} (h : SetTarget True target ts us) :
    Row part own [.expr target] ts us := by
  obtain ⟨_, _, htarget⟩ := h
  exact htarget.row hpart

theorem Possibly.rowBehind {front : Token → Bool} {value : Option Expr}
    (h : Possibly (Behind front (Spells True .value)) value ts us)
    (hfront : ∀ token, front token → token.isOperator "(" → own token) :
    Row part own (value.toList.map .expr) ts us := by
  rw [map_eq_flatMap]
  exact h.row fun _ _ _ hbehind => hbehind.row hpart hfront

theorem BoundSpelled.row {node : Expr × Expr} (h : BoundSpelled True node ts us) :
    Row part own [.expr node.1, .expr node.2] ts us :=
  Then.row h (fun _ _ => Spells.row hpart) fun _ _ hrest =>
    Then.row hrest (fun _ _ hsymbol => .free (hsymbol.free (by decide))) fun _ _ => Spells.row hpart

theorem ParameterSpelled.row {node : Expr × Option Expr} (h : ParameterSpelled True node ts us) :
    Row part own (.expr node.1 :: node.2.toList.map .expr) ts us :=
  Then.row h (fun _ _ => Spells.row hpart) fun _ _ hvalue =>
    hvalue.rowBehind hpart fun _ htoken => free_of_isOperator htoken (by decide)

theorem SignatureSpelled.row {parameters defaults : List Expr}
    (h : SignatureSpelled True parameters defaults ts us) (hown : ∀ token ∈ ts.head?, own token) :
    Row part own (Node.ofSignature parameters defaults) ts us := by
  cases h with
  | @mk plain withs _ _ _ _ _ hnodes hclosing =>
      rw [Node.ofSignature, Alignment.withDefaults_eq]
      exact .token (fun _ => hown _ rfl) ((hnodes.row fun _ _ _ => ParameterSpelled.row hpart).before
        (.cons (free_of_isOperator hclosing (by decide)) .nil) rfl)

theorem row_signature {parameters defaults : List Expr}
    (h : SignatureSpelled True parameters defaults ts us ∨
      parameters = [] ∧ defaults = [] ∧ ts = [] ∧ NotNext (·.isOperator "(") us)
    (hown : ∀ token ∈ ts.head?, own token) :
    Row part own (Node.ofSignature parameters defaults) ts us := by
  rcases h with h | ⟨rfl, rfl, rfl, -⟩
  · exact h.row hpart hown
  · exact .nil

theorem BranchSpelled.row {other : Branch × TagPair}
    (h : BranchSpelled table True spelled other ts us)
    (hstmt : ∀ stmt ts us, spelled stmt ts us → part (.stmt stmt) ts us) :
    Row part own (Node.branch other.1).children ts us := by
  cases h with
  | mk htag hstmts _ =>
      exact (TagSpelled.row htag fun _ _ hexpr _ => hexpr.row hpart).append
        (hstmts.rowStmts hstmt) rfl

end Expressions

theorem NodeSpelled.row {node : Expr × Option TagPair} (h : NodeSpelled table True node ts us) :
    Row (StmtPart table spelled) own [.expr node.1] ts us := by
  cases h with
  | data htoken htext hmarked => exact .one (.text (.data htoken htext hmarked))
  | expr hopening hexpr hclosing _ =>
      exact .token (free_of_isKind hopening (by decide)) ((Row.one (.part (.expr hexpr))).before
        (.cons (free_of_isKind hclosing (by decide)) .nil) rfl)

theorem ElseSpelled.row (h : ElseSpelled table True spelled stmts pairs ts us) :
    Row (StmtPart table spelled) own (stmts.map .stmt) ts us := by
  cases h with
  | none => exact .nil
  | some htag hstmts =>
      exact (TagSpelled.row htag fun _ _ hphrase _ => .free hphrase.free).append
        (hstmts.rowStmts fun _ _ _ => .stmt) rfl

/-- The children of a statement stand along its tokens, and it has the parenthesis of its
parameters. -/
theorem StmtLayer.row {stmt : Stmt} (h : StmtLayer table True spelled stmt ts us)
    (hown : ∀ token ∈ stmt.signature? ts, own token) :
    Row (StmtPart table spelled) own (Node.ofStmt stmt) ts us := by
  have hpart : ∀ place expr ts us, Spells True place expr ts us →
      StmtPart table spelled (.expr expr) ts us := fun _ _ _ _ h => .part (.expr h)
  have hexpr : ∀ {place expr} ts us, Spells True place expr ts us →
      Row (StmtPart table spelled) own [.expr expr] ts us := fun _ _ h => h.row hpart
  have hends : ∀ {keyword pair ts us}, TagSpelled table True keyword Nothing pair ts us →
      Row (StmtPart table spelled) own [] ts us :=
    fun htag => TagSpelled.row htag fun _ _ h _ => .free h.free
  have hnext : ∀ (i : Nat) {inner : List Token} {token : Token}, inner <+: ts.drop 2 →
      inner[i]? = some token → ts[2 + i]? = some token := by
    rintro i inner token ⟨rest, hrest⟩ hinner
    rw [← getElem?_drop, ← hrest, getElem?_append_left, hinner]
    exact (List.getElem?_eq_some_iff.mp hinner).1
  cases h with
  | output _ hparts _ =>
      have hchildren : Row (StmtPart table spelled) own _ ts us :=
        hparts.row fun _ _ _ => NodeSpelled.row
      rw [← map_eq_flatMap] at hchildren
      simpa [Node.ofStmt, Function.comp_def] using hchildren
  | print htag _ =>
      rw [Node.ofStmt, map_eq_flatMap]
      exact TagSpelled.row htag fun _ _ hnodes _ => hnodes.row fun _ => hexpr
  | extend htag _ | perform htag _ => exact TagSpelled.row htag fun _ _ hphrase _ => hexpr _ _ hphrase
  | block henclosed _ =>
      exact henclosed.row (fun _ _ hwords _ => .free hwords.free) fun _ _ => Words.free
  | insert htag _ | importAs htag _ =>
      exact TagSpelled.row htag fun _ _ hphrase _ =>
        Then.row hphrase hexpr fun _ _ hwords => .free hwords.free
  | importNames htag _ =>
      have hchildren := TagSpelled.row htag fun _ _ hphrase _ =>
        Then.row hphrase hexpr fun _ _ hrest =>
          Then.row hrest (fun _ _ hwords => .free hwords.free) fun _ _ hrest =>
            Then.row hrest (fun _ _ hnames => hnames.row fun _ _ _ hname => .free (Words.free hname))
              fun _ _ hwords => .free hwords.free
      exact hchildren.congr (by simp [Node.ofStmt])
  | loop hfirst hstmts hothers hlast _ =>
      have htag := TagSpelled.row hfirst fun _ _ hphrase _ =>
        Then.row hphrase hexpr fun _ _ hrest =>
          Then.row hrest (fun _ _ hwords => .free hwords.free) fun _ _ hrest =>
            Then.row hrest hexpr fun _ _ hrest =>
              Then.row hrest (fun _ _ htest => htest.rowBehind hpart fun _ => free_of_isName)
                fun _ _ hwords => .free hwords.free
      refine (htag.append ((hstmts.rowStmts fun _ _ _ => .stmt).append
        (hothers.row.append (hends hlast) rfl) (by simp)) (by simp)).congr ?_
      simp [Node.ofStmt]
  | branch hfirst hstmts hbranches hothers hlast _ =>
      have hfurther : Row (StmtPart table spelled) own _ _ _ :=
        hbranches.row fun _ _ _ hbranch => .one (.branch hbranch)
      rw [← map_eq_flatMap] at hfurther
      refine ((TagSpelled.row hfirst fun _ _ hphrase _ => hexpr _ _ hphrase).append
        ((hstmts.rowStmts fun _ _ _ => .stmt).append
          (hfurther.append (hothers.row.append (hends hlast) rfl) (by simp)) (by simp))
        (by simp)).congr ?_
      simp [Node.ofStmt, Function.comp_def]
  | bind henclosed _ =>
      have hchildren : Row _ own _ ts us := henclosed.row (fun _ _ hbindings _ =>
        hbindings.row fun _ _ _ => BoundSpelled.row hpart) fun _ _ => Nothing.free
      simpa [Node.ofStmt, zip_map'] using hchildren
  | assign htag _ =>
      exact TagSpelled.row htag fun _ _ hphrase _ =>
        Then.row hphrase (fun _ _ => SetTarget.row hpart) fun _ _ hrest =>
          Then.row hrest (fun _ _ hsymbol => .free (hsymbol.free (by decide))) hexpr
  | capture henclosed _ =>
      have hchildren := henclosed.row (fun _ _ hphrase _ =>
        Then.row hphrase (fun _ _ => SetTarget.row hpart) fun _ _ hfilter =>
          hfilter.row fun _ => hexpr) fun _ _ => Nothing.free
      rwa [← map_eq_flatMap] at hchildren
  | filterBlock henclosed _ =>
      exact henclosed.row (fun _ _ hphrase _ => hexpr _ _ hphrase) fun _ _ => Nothing.free
  | macroBlock henclosed _ =>
      refine henclosed.row (fun inner _ hphrase hleads => ?_) fun _ _ => Nothing.free
      obtain ⟨names, rest, rfl, hname, hsignature⟩ := hphrase
      cases hname with
      | cons hname hnil =>
          cases hnil
          refine .token (free_of_isName hname)
            (hsignature.row hpart fun token htoken => hown token (hnext 1 hleads ?_))
          simpa [head?_eq_getElem?] using htoken
  | callBlock _ henclosed _ =>
      have hchildren := henclosed.row (fun inner _ hphrase hleads => by
        obtain ⟨signature, rest, rfl, hsignature, hcall⟩ := hphrase
        refine (row_signature hpart hsignature fun token htoken =>
          hown token (hnext 0 hleads ?_)).append (hexpr _ _ hcall) rfl
        rw [← head?_eq_getElem?, head?_append, htoken, Option.some_or])
        fun _ _ => Nothing.free
      simpa [Node.ofStmt] using hchildren
  | skip htag _ | leave htag _ => exact hends htag
  | scope hinner _ => exact .one (.stmt hinner)
  | autoescape henclosed hoption _ =>
      exact henclosed.row (fun _ _ hvalue _ => .one (.option hvalue (hoption trivial)))
        fun _ _ => Nothing.free

theorem StmtLayer.span_eq {stmt : Stmt} (h : StmtLayer table True spelled stmt ts us) :
    stmt.layout.span = some (reachOf table ts) := by
  cases h with
  | scope _ hmarked => exact hmarked trivial
  | output _ _ hsealed | print _ hsealed | extend _ hsealed | block _ hsealed | insert _ hsealed
  | importAs _ hsealed | importNames _ hsealed | loop _ _ _ _ hsealed | branch _ _ _ _ _ hsealed
  | bind _ hsealed | perform _ hsealed | assign _ hsealed | capture _ hsealed
  | filterBlock _ hsealed | macroBlock _ hsealed | callBlock _ _ hsealed | skip _ hsealed
  | leave _ hsealed | autoescape _ _ hsealed => exact (hsealed trivial).1

end Statements

end Spelling

end JinjaLayout
