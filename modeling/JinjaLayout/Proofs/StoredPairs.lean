import Mathlib
import JinjaLayout.Proofs.KeptText
import JinjaLayout.Proofs.Occurrences
import JinjaLayout.Proofs.Reannotation

/-!
The pairs that an annotated tree stores. Main statement: every pair is a pair of the token table, and
the pairs of a statement are those of the tags that it is written with, in their order.
-/

namespace JinjaLayout

open Spelling List

/-! ### Tags of the source -/

def tagStarts (keyword : Text) : List Token → List Nat
  | opening :: word :: ts =>
      if opening.isKind .blockBegin && word.isName keyword then
        opening.index :: tagStarts keyword (word :: ts)
      else tagStarts keyword (word :: ts)
  | _ => []

structure TagPair.Mirrors (table : List Token) (keyword : Text) (pair : TagPair) : Prop where
  isPaired : pair.IsPaired table
  keyword_eq : pair.keyword = keyword
  starts : pair.opening.index ∈ tagStarts keyword (significant table)

namespace Node

/-- Whether the source has a tag with the keyword in the node, but in none of its children. -/
def hasOwnTag (table : List Token) (keyword : Text) (node : Node) : Bool :=
  (tagStarts keyword (significant table)).any fun index =>
    node.covers index && node.children.all fun child => !child.covers index

end Node

/-- The keywords of the block tags that a statement is written with, in their order. -/
def Stmt.tagWords (table : List Token) : Stmt → List Text
  | .output .. | .scope .. => []
  | .print .. => ["print".toList]
  | .extend .. => ["extends".toList]
  | .block .. => ["block".toList, "endblock".toList]
  | .insert .. => ["include".toList]
  | .importAs .. => ["import".toList]
  | .importNames .. => ["from".toList]
  | .loop target iterable body orElse test nested layout =>
      let node := Node.stmt (.loop target iterable body orElse test nested layout)
      "for".toList :: wordIf (node.hasOwnTag table "else".toList) "else".toList ++ ["endfor".toList]
  | .branch (.mk test body others orElse layout) =>
      let node := Node.stmt (.branch (.mk test body others orElse layout))
      "if".toList :: others.map (fun _ => "elif".toList) ++
        wordIf (node.hasOwnTag table "else".toList) "else".toList ++ ["endif".toList]
  | .bind .. => ["with".toList, "endwith".toList]
  | .perform .. => ["do".toList]
  | .assign .. => ["set".toList]
  | .capture .. => ["set".toList, "endset".toList]
  | .filterBlock .. => ["filter".toList, "endfilter".toList]
  | .macroBlock .. => ["macro".toList, "endmacro".toList]
  | .callBlock .. => ["call".toList, "endcall".toList]
  | .skip .. => ["continue".toList]
  | .leave .. => ["break".toList]
  | .autoescape .. => ["autoescape".toList, "endautoescape".toList]

namespace Spelling

open Grammar

section Table

variable {table : List Token} {keyword : Text} {token : Token} {ts us : List Token}

def Begins (table : List Token) (keyword : Text) (token : Token) : Prop :=
  ∃ word us, token :: word :: us <:+ significant table ∧ token.isKind .blockBegin = true ∧
    word.isName keyword = true

theorem mem_tagStarts {index : Nat} :
    index ∈ tagStarts keyword (significant table) ↔
      ∃ token, Begins table keyword token ∧ token.index = index := by
  have hall : ∀ all : List Token, index ∈ tagStarts keyword all ↔
      ∃ token word us, token :: word :: us <:+ all ∧ token.isKind .blockBegin = true ∧
        word.isName keyword ∧ token.index = index := by
    intro all
    fun_induction tagStarts keyword all with
    | case1 opening word ts hstarts ih =>
        rw [Bool.and_eq_true] at hstarts
        simp only [mem_cons, ih, suffix_cons_iff (a := opening), cons.injEq]
        grind
    | case2 opening word ts hstarts ih =>
        rw [Bool.and_eq_true] at hstarts
        simp only [ih, suffix_cons_iff (a := opening), cons.injEq]
        grind
    | case3 all hshort =>
        constructor
        · simp
        · rintro ⟨token, word, us, hsuffix, -⟩
          rcases all with _ | ⟨first, _ | ⟨second, rest⟩⟩
          · simp at hsuffix
          · simp [suffix_cons_iff] at hsuffix
          · exact absurd rfl (hshort first second rest)
  rw [hall]
  simp only [Begins]
  grind

variable (htable : IsTable table)

include htable

theorem eq_of_suffix {rest rest' : List Token} (h : token :: rest <:+ significant table)
    (h' : token :: rest' <:+ significant table) : rest = rest' := by
  have hnot : ∀ {rest rest'}, token :: rest' <:+ significant table → ¬token :: rest <:+ rest' := by
    intro rest rest' hrest hsuffix
    have hpairwise := htable.pairwise_significant.sublist hrest.sublist
    have hlt := (pairwise_cons.mp hpairwise).1 token (hsuffix.subset mem_cons_self)
    exact lt_irrefl _ hlt
  rcases suffix_or_suffix_of_suffix h h' with hsuffix | hsuffix
  · rcases suffix_cons_iff.mp hsuffix with heq | hsuffix
    · exact (cons.inj heq).2
    · exact absurd hsuffix (hnot h')
  · rcases suffix_cons_iff.mp hsuffix with heq | hsuffix
    · exact (cons.inj heq).2.symm
    · exact absurd hsuffix (hnot h)

theorem rising_of_suffix (hsuffix : ts ++ us <:+ significant table) : Rising (wide table) (ts ++ us) :=
  (rising_wide htable).sublist hsuffix.sublist

variable {node : Node} {own : Token → Prop} {nodes : List Node} {stmts orElse : List Stmt}
  {layout : Layout}

theorem covers_of_reachOf (hspan : node.layout.span = some (reachOf table ts))
    (hsuffix : ts ++ us <:+ significant table) (htoken : token ∈ ts) :
    node.covers token.index = true :=
  covers_of_mem ((rising_of_suffix htable hsuffix).sublist (sublist_append_left ..)) hspan htoken

theorem hasOwnTag_iff (hspan : node.layout.span = some (reachOf table ts))
    (hsuffix : ts ++ us <:+ significant table) (hne : ts ≠ []) :
    node.hasOwnTag table keyword = true ↔
      ∃ token ∈ ts, Begins table keyword token ∧
        ∀ child ∈ node.children, child.covers token.index = false := by
  simp only [Node.hasOwnTag, any_eq_true, mem_tagStarts, Bool.and_eq_true, all_eq_true,
    Bool.not_eq_true']
  constructor
  · rintro ⟨_, ⟨token, hbegins, rfl⟩, hcovers, hchildren⟩
    obtain ⟨word, rest, htoken, -⟩ := id hbegins
    refine ⟨token, ?_, hbegins, hchildren⟩
    rw [← tokens_eq (rising_wide htable) hsuffix hne hspan]
    exact mem_filter.mpr ⟨htoken.subset mem_cons_self, hcovers⟩
  · rintro ⟨token, htoken, hbegins, hchildren⟩
    exact ⟨token.index, ⟨token, hbegins, rfl⟩, covers_of_reachOf htable hspan hsuffix htoken,
      hchildren⟩

/-! ### Parentheses -/

theorem isPaired_parentheses {opening closing : Token} (h : Matched ts)
    (hsuffix : opening :: (ts ++ closing :: us) <:+ significant table)
    (hopening : opening.isOperator "(") (hclosing : closing.isOperator ")") :
    (parenthesesOf (opening, closing)).IsPaired table := by
  have hmem : ∀ token ∈ opening :: (ts ++ closing :: us), token ∈ table :=
    fun token htoken => IsTable.mem_of_mem_significant (hsuffix.subset htoken)
  obtain ⟨before, hbefore⟩ := hsuffix
  obtain ⟨hfirst, hsecond⟩ := h.partners htable hbefore.symm ("(".toList, ")".toList) (by decide)
    hopening hclosing
  exact ⟨Alignment.getElem?_index htable (hmem opening (by simp)),
    Alignment.getElem?_index htable (hmem closing (by simp)), hfirst, hsecond⟩

theorem CallSpelled.isPaired {arguments : Arguments Expr} {pair : TagPair}
    (h : CallSpelled True (Spells True) arguments pair ts us)
    (hsuffix : ts ++ us <:+ significant table) : pair.IsPaired table := by
  cases h with
  | mk _ hopening hlisted hclosing =>
      have hmatched := hlisted.matched fun _ _ _ =>
        ArgumentSpelled.matched fun _ _ _ _ => Spells.matched
      exact isPaired_parentheses htable hmatched (by simpa using hsuffix) hopening hclosing

omit htable in
theorem Wraps.split {ts' : List Token} {groups : List (Token × Token)} {pair : Token × Token}
    (h : Wraps ts ts' groups) (hmatched : Matched ts) (hpair : pair ∈ groups) :
    pair.1.isOperator "(" ∧ pair.2.isOperator ")" = true ∧
      ∃ front inner back, ts' = front ++ pair.1 :: (inner ++ pair.2 :: back) ∧ Matched inner ∧
        (∀ token ∈ front, token.isOperator "(" = true) ∧
        ∀ token ∈ back, token.isOperator ")" := by
  induction h with
  | bare => simp at hpair
  | @paren ts' groups opening closing h hopening hclosing ih =>
      rcases mem_append.mp hpair with hpair | hpair
      · obtain ⟨hfirst, hsecond, front, inner, back, rfl, hinner, hfront, hback⟩ := ih hpair
        refine ⟨hfirst, hsecond, opening :: front, inner, back ++ [closing], by simp, hinner,
          forall_mem_cons.mpr ⟨hopening, hfront⟩, ?_⟩
        exact forall_mem_append.mpr ⟨hback, forall_mem_singleton.mpr hclosing⟩
      · obtain rfl := mem_singleton.mp hpair
        exact ⟨hopening, hclosing, [], ts', [], rfl, h.matched hmatched, by simp, by simp⟩

theorem Core.isPaired {place : Place} {expr : Expr} {pairs : List TagPair}
    (h : Core True (Spells True) place expr pairs ts us)
    (hsuffix : ts ++ us <:+ significant table) : ∀ pair ∈ pairs, pair.IsPaired table := by
  cases h with
  | @filter _ operand name arguments pairs layout bar ts ts' ts'' us _ _ _ _ harguments =>
      cases harguments with
      | none => simp
      | call hcall =>
          exact forall_mem_singleton.mpr (hcall.isPaired htable
            (suffix_of_append (ts ++ bar :: ts') (by simpa using hsuffix)))
  | @blockFilter name arguments pairs layout bars ts ts' us _ _ harguments =>
      cases harguments with
      | none => simp
      | call hcall =>
          exact forall_mem_singleton.mpr (hcall.isPaired htable
            (suffix_of_append (bars ++ ts) (by simpa using hsuffix)))
  | @test operand name arguments pairs layout word nots ts ts' ts'' us _ _ _ _ harguments =>
      cases harguments with
      | none | bare => simp
      | call hcall =>
          exact forall_mem_singleton.mpr (hcall.isPaired htable
            (suffix_of_append (ts ++ word :: (nots ++ ts')) (by simpa using hsuffix)))
  | @call operand arguments pair layout ts ts' us _ harguments =>
      exact forall_mem_singleton.mpr
        (harguments.isPaired htable (suffix_of_append ts (by simpa using hsuffix)))
  | _ => simp

theorem Spells.isPaired {place : Place} {expr : Expr} (h : Spells True place expr ts us)
    (hsuffix : ts ++ us <:+ significant table) :
    ∀ pair ∈ expr.layout.pairs, pair.IsPaired table := by
  cases h.unfold with
  | @group _ _ pairs groups ts ts' us hcore hwraps _ hmarked =>
      rw [(hmarked trivial).2]
      refine forall_mem_append.mpr ⟨hcore.isPaired htable ((hwraps.suffix us).trans hsuffix), ?_⟩
      intro pair hpair
      unfold ownPairs at hpair
      split at hpair
      · obtain ⟨group, hgroup, rfl⟩ := mem_map.mp hpair
        have hmatched := hcore.matched fun _ _ _ _ => Spells.matched
        obtain ⟨hopening, hclosing, front, inner, back, rfl, hinner, -⟩ :=
          hwraps.split hmatched (mem_of_mem_head? (Option.mem_toList.mp hgroup))
        exact isPaired_parentheses htable hinner
          (suffix_of_append front (by simpa using hsuffix)) hopening hclosing
      · simp at hpair
  | inline _ _ hmarked => simp [Expr.layout, (hmarked trivial).2]

/-! ### Tags -/

section Tags

variable {stop : Text} {inside last : Phrase} {pair : TagPair} {pairs : List TagPair}
  {stmts : List Stmt}

theorem TagSpelled.mirrors (h : TagSpelled table True keyword inside pair ts us)
    (hsuffix : ts ++ us <:+ significant table) (hinside : ∀ ts us, inside ts us → Matched ts) :
    pair.Mirrors table keyword := by
  obtain ⟨before, hbefore⟩ := id hsuffix
  refine ⟨(h.isTag hinside).isPaired htable hbefore.symm, h.keyword_eq, ?_⟩
  cases h with
  | mk hopening hword _ _ _ hmarked =>
      rw [hmarked trivial]
      exact mem_tagStarts.mpr ⟨_, ⟨_, _, hsuffix, hopening, hword⟩, rfl⟩

theorem EnclosedSpelled.mirrors
    (h : EnclosedSpelled table True (StmtSpells table True) keyword stop inside last stmts pairs ts us)
    (hsuffix : ts ++ us <:+ significant table) (hinside : ∀ ts us, inside ts us → Matched ts)
    (hlast : ∀ ts us, last ts us → Matched ts) :
    Forall₂ (fun word pair => pair.Mirrors table word) [keyword, stop] pairs := by
  cases h with
  | @mk first second ts ts' ts'' us hfirst _ hsecond =>
      refine .cons (hfirst.mirrors htable (by simpa using hsuffix) hinside) (.cons ?_ .nil)
      exact hsecond.mirrors htable (suffix_of_append (ts ++ ts') (by simpa using hsuffix)) hlast

omit htable in
theorem Matched.isKind_eq_false (h : Matched ts) (htoken : token ∈ ts) :
    token.isKind .blockBegin = false := by
  have hkinds : ∀ token ∈ ts, ∃ kind ∈ [TokenKind.name, .integer, .float, .string, .operator],
      token.isKind kind := by
    clear htoken
    induction h with
    | nil => simp
    | @plain token ts hplain _ ih =>
        refine forall_mem_cons.mpr ⟨?_, ih⟩
        simp only [isPlain, Bool.or_eq_true, Bool.and_eq_true] at hplain
        rcases hplain with (((hkind | hkind) | hkind) | hkind) | ⟨hkind, -⟩
        all_goals exact ⟨_, by simp, hkind⟩
    | pair _ hopening hclosing _ _ ihInner ih =>
        refine forall_mem_cons.mpr ⟨⟨_, by simp, isKind_of_isOperator hopening⟩, ?_⟩
        refine forall_mem_append.mpr ⟨ihInner, forall_mem_cons.mpr ⟨?_, ih⟩⟩
        exact ⟨_, by simp, isKind_of_isOperator hclosing⟩
  obtain ⟨kind, hmem, hkind⟩ := hkinds token htoken
  refine Bool.eq_false_iff.mpr fun hbegin => ?_
  rw [isKind_unique hkind hbegin] at hmem
  exact absurd hmem (by decide)

theorem TagSpelled.not_begins {other : Text} (h : TagSpelled table True keyword inside pair ts us)
    (hsuffix : ts ++ us <:+ significant table) (hinside : ∀ ts us, inside ts us → Matched ts)
    (hne : keyword ≠ other) (htoken : token ∈ ts) : ¬Begins table other token := by
  rintro ⟨word', rest, hrest, hbegin, hword'⟩
  cases h with
  | @mk opening word colons closing ts us hopening hword hphrase hcolons hclosing _ =>
      have hnotWord : ∀ {token : Token} {kind : TokenKind}, token.isKind kind = true →
          kind ≠ .blockBegin → token.isKind .blockBegin = false := fun hkind hne =>
        Bool.eq_false_iff.mpr fun hbegin => hne (isKind_unique hkind hbegin)
      simp only [mem_cons, mem_append, not_mem_nil, or_false] at htoken
      rcases htoken with rfl | rfl | htoken | htoken | rfl
      · have heq := eq_of_suffix htable hrest hsuffix
        obtain rfl : word' = word := (cons.inj heq).1
        exact hne (isName_unique hword hword')
      · simp [hnotWord (isKind_of_isName hword)] at hbegin
      · simp [(hinside _ _ hphrase).isKind_eq_false htoken] at hbegin
      · obtain rfl | ⟨colon, rfl, hcolon⟩ := hcolons
        · simp at htoken
        · obtain rfl := mem_singleton.mp htoken
          simp [hnotWord (isKind_of_isOperator hcolon)] at hbegin
      · simp [hnotWord hclosing] at hbegin

end Tags

/-! ### Statements -/

theorem Chained.exists_covers {α : Type} {spelled : Spelling α} {values : List α}
    (h : Chained spelled values ts us) (hsuffix : ts ++ us <:+ significant table) (node : α → Node)
    (hspan : ∀ value ts us, spelled value ts us →
      (node value).layout.span = some (reachOf table ts)) (htoken : token ∈ ts) :
    ∃ child ∈ values.map node, child.covers token.index := by
  induction h with
  | nil => simp at htoken
  | @cons value values ts ts' us hvalue _ ih =>
      rw [append_assoc] at hsuffix
      rcases mem_append.mp htoken with htoken | htoken
      · exact ⟨_, mem_cons_self, covers_of_reachOf htable (hspan _ _ _ hvalue) hsuffix htoken⟩
      · obtain ⟨child, hchild, hcovers⟩ := ih (suffix_of_append ts hsuffix) htoken
        exact ⟨child, mem_cons_of_mem _ hchild, hcovers⟩

/-! ### Branches and loops -/

theorem Laid.exists_between {child : Node} (h : Laid (wide table) own nodes ts)
    (hsuffix : ts ++ us <:+ significant table) (hchild : child ∈ nodes) :
    ∃ span, child.layout.span = some span ∧ ∃ first ∈ ts, ∃ last ∈ ts,
      enter table first ≤ span.1 ∧ span.2 ≤ leave table last := by
  have hrising := (rising_of_suffix htable hsuffix).sublist (sublist_append_left ts us)
  obtain ⟨items, hnodes, hitems, hsub, -⟩ := h hrising
  obtain ⟨item, hitem, rfl⟩ := mem_map.mp (hnodes ▸ hchild)
  obtain ⟨-, -, span, hspan, -, first, hfirst, last, hlast, hstart, hstop⟩ := hitems item hitem
  have hmem : ∀ token ∈ item.2, token ∈ ts := fun token htoken =>
    hsub.subset (mem_flatMap.mpr ⟨item, hitem, htoken⟩)
  exact ⟨span, hspan, first, hmem first (mem_of_mem_head? hfirst), last,
    hmem last (mem_of_getLast? hlast), hstart, hstop⟩

theorem covers_eq_false {nodes' : List Node} {child : Node} {front back : List Token}
    (hfront : Laid (wide table) own nodes front) (hback : Laid (wide table) own nodes' back)
    (hsuffix : front ++ token :: (back ++ us) <:+ significant table)
    (hchild : child ∈ nodes ++ nodes') : child.covers token.index = false := by
  have hrising := rising_of_suffix htable hsuffix
  obtain ⟨-, hrest, hbefore⟩ := pairwise_append.mp hrising.pairwise
  have hbehind := (pairwise_cons.mp hrest).1
  have hbetween := hrising.between token (by simp)
  simp only [wide] at hbefore hbehind hbetween
  rcases mem_append.mp hchild with hchild | hchild
  · obtain ⟨span, hspan, -, -, last, hlast, -, hstop⟩ := hfront.exists_between htable hsuffix hchild
    have hle := hbefore last hlast token mem_cons_self
    simp only [Node.covers, hspan, Option.any_some, Bool.and_eq_false_iff, decide_eq_false_iff_not]
    omega
  · have hsuffix' : back ++ us <:+ significant table :=
      suffix_of_append (front ++ [token]) (by simpa using hsuffix)
    obtain ⟨span, hspan, first, hfirst, -, -, hstart, -⟩ :=
      hback.exists_between htable hsuffix' hchild
    have hle := hbehind first (mem_append_left us hfirst)
    simp only [Node.covers, hspan, Option.any_some, Bool.and_eq_false_iff, decide_eq_false_iff_not]
    omega

omit htable in
theorem Chained.laidNodes (h : Chained (StmtSpells table True) stmts ts us) :
    Laid (wide table) own (stmts.map .stmt) ts :=
  Row.laidAs (h.rowStmts fun _ _ _ => StmtSpells.laid)

theorem ElseSpelled.mirrors {others : List TagPair} (node : Node) {front back : List Token}
    (h : ElseSpelled table True (StmtSpells table True) orElse others ts (back ++ us))
    (hsuffix : (front ++ (ts ++ back)) ++ us <:+ significant table)
    (hspan : node.layout.span = Option.some (reachOf table (front ++ (ts ++ back))))
    (hchildren : node.children = nodes ++ orElse.map .stmt)
    (hlaid : Laid (wide table) (fun _ => True) nodes front)
    (hfront : ∀ token ∈ front, Begins table "else".toList token →
      ∃ child ∈ nodes, child.covers token.index = true)
    (hback : ∀ token ∈ back, ¬Begins table "else".toList token) (hne : back ≠ []) :
    Forall₂ (fun word pair => pair.Mirrors table word)
      (wordIf (node.hasOwnTag table "else".toList) "else".toList) others := by
  have hiff : node.hasOwnTag table "else".toList = true ↔ _ :=
    hasOwnTag_iff htable hspan hsuffix (by simp [hne])
  cases h with
  | none =>
      have hfalse : node.hasOwnTag table "else".toList = false := by
        refine Bool.eq_false_iff.mpr fun hown => ?_
        obtain ⟨token, htoken, hbegins, hcovers⟩ := hiff.mp hown
        rcases mem_append.mp htoken with htoken | htoken
        · obtain ⟨child, hchild, hcover⟩ := hfront token htoken hbegins
          rw [hcovers child (hchildren ▸ mem_append_left _ hchild)] at hcover
          exact Bool.false_ne_true hcover
        · exact hback token htoken hbegins
      rw [hfalse]
      exact .nil
  | @some _ pair ts ts' us htag hstmts =>
      have hmirrors : pair.Mirrors table "else".toList := by
        refine htag.mirrors htable ?_ fun _ _ => Nothing.matched
        exact suffix_of_append front (by simpa using hsuffix)
      have htrue : node.hasOwnTag table "else".toList := by
        refine hiff.mpr ?_
        cases htag with
        | @mk opening word colons closing inner us hopening hword _ _ _ _ =>
            have hbegins : Begins table "else".toList opening :=
              ⟨word, inner ++ (colons ++ closing :: (ts' ++ (back ++ us))),
                suffix_of_append front (by simpa using hsuffix), hopening, hword⟩
            refine ⟨opening, by simp, hbegins, fun child hchild => ?_⟩
            rw [hchildren] at hchild
            have hinner : Laid (wide table) (fun _ => True) (orElse.map .stmt)
                (word :: (inner ++ (colons ++ [closing])) ++ ts') :=
              Laid.append (.nil fun _ _ _ => trivial) hstmts.laidNodes
            exact covers_eq_false htable hlaid hinner (by simpa using hsuffix) hchild
      rw [htrue]
      exact .cons hmirrors .nil

theorem forall₂_further {branches : List (Branch × TagPair)}
    (h : Chained (BranchSpelled table True (StmtSpells table True)) branches ts us)
    (hsuffix : ts ++ us <:+ significant table) :
    Forall₂ (fun word pair => pair.Mirrors table word)
      ((branches.map Prod.fst).map fun _ => "elif".toList) (branches.map Prod.snd) := by
  induction h with
  | nil => exact .nil
  | @cons part branches ts ts' us hpart _ ih =>
      rw [append_assoc] at hsuffix
      refine .cons ?_ (ih (suffix_of_append ts hsuffix))
      cases hpart with
      | mk htag _ _ => exact htag.mirrors htable (by simpa using hsuffix) fun _ _ => Spells.matched

omit htable in
theorem BranchSpelled.layout_eq {part : Branch × TagPair}
    (h : BranchSpelled table True (StmtSpells table True) part ts us) :
    part.1.layout.span = some (reachOf table ts) ∧ part.1.layout.pairs = [part.2] := by
  cases h with
  | mk _ _ hsealed => exact hsealed trivial

theorem StmtSpells.mirrors_loop {target iterable : Expr} {test : Option Expr} {nested : Bool}
    (h : StmtSpells table True (.loop target iterable stmts orElse test nested layout) ts us)
    (hsuffix : ts ++ us <:+ significant table) :
    Forall₂ (fun word pair => pair.Mirrors table word)
      ((Stmt.loop target iterable stmts orElse test nested layout).tagWords table) layout.pairs := by
  have hspan := h.span_eq
  cases h.unfold with
  | @loop _ _ _ _ _ _ _ first others last ts ts₁ ts₂ ts₃ us hfirst hstmts hothers hlast hsealed =>
      have hsuffix₁ : ts₁ ++ (ts₂ ++ (ts₃ ++ us)) <:+ significant table :=
        suffix_of_append ts (by simpa using hsuffix)
      have hsuffix₃ : ts₃ ++ us <:+ significant table :=
        suffix_of_append (ts₁ ++ ts₂) (by simpa using hsuffix₁)
      have htag : Laid (wide table) (fun _ => True)
          (.expr target :: .expr iterable :: test.toList.map .expr) ts := by
        have hexpr : ∀ place expr ts us, Spells True place expr ts us →
            LaidAs (wide table) (.expr expr) ts us := fun _ _ _ _ => Spells.laidWide
        have hrow := TagSpelled.row hfirst fun _ _ hphrase _ =>
          Then.row hphrase (fun _ _ => Spells.row hexpr) fun _ _ hrest =>
            Then.row hrest (fun _ _ hwords => .free hwords.free) fun _ _ hrest =>
              Then.row hrest (fun _ _ => Spells.row hexpr) fun _ _ hrest =>
                Then.row hrest (fun _ _ htest => htest.rowBehind hexpr fun _ _ _ => trivial)
                  fun _ _ hwords => .free hwords.free
        simpa using hrow.laidAs
      have hfront : ∀ token ∈ ts ++ ts₁, Begins table "else".toList token →
          ∃ child ∈ .expr target :: .expr iterable :: test.toList.map .expr ++ stmts.map Node.stmt,
            child.covers token.index := by
        intro token htoken hbegins
        rcases mem_append.mp htoken with htoken | htoken
        · exact absurd hbegins (hfirst.not_begins htable (by simpa using hsuffix)
            (fun _ _ => matched_loop) (by decide) htoken)
        · obtain ⟨child, hchild, hcovers⟩ := hstmts.exists_covers htable hsuffix₁ .stmt
            (fun _ _ _ => StmtSpells.span_eq) htoken
          exact ⟨child, mem_append_right _ hchild, hcovers⟩
      have helse := hothers.mirrors htable
        (.stmt (.loop target iterable stmts orElse test nested layout)) (by simpa using hsuffix)
        (by rw [append_assoc]; exact hspan) (by simp [Node.children, Node.ofStmt])
        (htag.append hstmts.laidNodes) hfront
        (fun token => hlast.not_begins htable hsuffix₃ (fun _ _ => Nothing.matched) (by decide))
        (Alignment.TagSpelled.ne_nil hlast)
      rw [(hsealed trivial).2]
      refine .cons (hfirst.mirrors htable (by simpa using hsuffix) fun _ _ => matched_loop) ?_
      exact rel_append helse
        (.cons (hlast.mirrors htable hsuffix₃ fun _ _ => Nothing.matched) .nil)

theorem StmtSpells.mirrors_branch {first : Branch}
    (h : StmtSpells table True (.branch first) ts us) (hsuffix : ts ++ us <:+ significant table) :
    Forall₂ (fun word pair => pair.Mirrors table word)
      ((Stmt.branch first).tagWords table) first.layout.pairs := by
  have hspan := h.span_eq
  cases h.unfold with
  | @branch test stmts orElse layout first others last ts ts₁ ts₂ ts₃ ts₄ us branches hfirst hstmts
      hbranches hothers hlast hsealed =>
      have hsuffix₁ : ts₁ ++ (ts₂ ++ (ts₃ ++ (ts₄ ++ us))) <:+ significant table :=
        suffix_of_append ts (by simpa using hsuffix)
      have hsuffix₂ : ts₂ ++ (ts₃ ++ (ts₄ ++ us)) <:+ significant table :=
        suffix_of_append ts₁ hsuffix₁
      have hsuffix₄ : ts₄ ++ us <:+ significant table :=
        suffix_of_append (ts₂ ++ ts₃) (by simpa using hsuffix₂)
      have hfurther : Laid (wide table) (fun _ => True)
          ((branches.map Prod.fst).map Node.branch) ts₂ := by
        rw [map_map, map_eq_flatMap]
        exact Row.laidAs (hbranches.row fun _ _ _ hpart =>
          .one ((StmtPart.branch hpart).laid fun _ _ _ => StmtSpells.laid))
      have hfront : ∀ token ∈ ts ++ (ts₁ ++ ts₂), Begins table "else".toList token →
          ∃ child ∈ [Node.expr test] ++ (stmts.map Node.stmt ++
            (branches.map Prod.fst).map Node.branch), child.covers token.index := by
        intro token htoken hbegins
        rw [mem_append, mem_append] at htoken
        rcases htoken with htoken | htoken | htoken
        · exact absurd hbegins (hfirst.not_begins htable (by simpa using hsuffix)
            (fun _ _ => Spells.matched) (by decide) htoken)
        · obtain ⟨child, hchild, hcovers⟩ := hstmts.exists_covers htable hsuffix₁ .stmt
            (fun _ _ _ => StmtSpells.span_eq) htoken
          exact ⟨child, mem_append_right _ (mem_append_left _ hchild), hcovers⟩
        · obtain ⟨child, hchild, hcovers⟩ := hbranches.exists_covers htable hsuffix₂
            (fun part => .branch part.1) (fun _ _ _ hpart => hpart.layout_eq.1) htoken
          refine ⟨child, mem_append_right _ (mem_append_right _ ?_), hcovers⟩
          simpa using hchild
      have helse := hothers.mirrors htable
        (.stmt (.branch (.mk test stmts (branches.map Prod.fst) orElse layout)))
        (by simpa using hsuffix) (by rw [append_assoc, append_assoc]; exact hspan)
        (by simp [Node.children, Node.ofStmt])
        ((TagSpelled.row hfirst fun _ _ hexpr _ => .one hexpr.laidWide).laidAs.append
          (hstmts.laidNodes.append hfurther)) hfront
        (fun token => hlast.not_begins htable hsuffix₄ (fun _ _ => Nothing.matched) (by decide))
        (Alignment.TagSpelled.ne_nil hlast)
      rw [Branch.layout, (hsealed trivial).2]
      refine .cons (hfirst.mirrors htable (by simpa using hsuffix) fun _ _ => Spells.matched) ?_
      refine rel_append (rel_append (forall₂_further htable hbranches hsuffix₂) helse) ?_
      exact .cons (hlast.mirrors htable hsuffix₄ fun _ _ => Nothing.matched) .nil

theorem StmtSpells.mirrors {stmt : Stmt} (h : StmtSpells table True stmt ts us)
    (hsuffix : ts ++ us <:+ significant table) (houtput : stmt.isOutput = false)
    (hscope : Node.StoresOwn (.stmt stmt)) :
    Forall₂ (fun word pair => pair.Mirrors table word) (stmt.tagWords table)
      stmt.layout.pairs := by
  have hspan := h.span_eq
  have hone : ∀ {keyword inside pair layout}, TagSpelled table True keyword inside pair ts us →
      Sealed table True layout [pair] ts → (∀ ts us, inside ts us → Matched ts) →
      Forall₂ (fun word pair => pair.Mirrors table word) [keyword] layout.pairs := by
    intro keyword inside pair layout htag hsealed hinside
    rw [(hsealed trivial).2]
    exact .cons (htag.mirrors htable hsuffix hinside) .nil
  have hboth : ∀ {keyword stop inside last stmts pairs layout},
      EnclosedSpelled table True (StmtSpells table True) keyword stop inside last stmts pairs ts us →
      Sealed table True layout pairs ts → (∀ ts us, inside ts us → Matched ts) →
      (∀ ts us, last ts us → Matched ts) →
      Forall₂ (fun word pair => pair.Mirrors table word) [keyword, stop] layout.pairs := by
    intro keyword stop inside last stmts pairs layout henclosed hsealed hinside hlast
    rw [(hsealed trivial).2]
    exact henclosed.mirrors htable hsuffix hinside hlast
  have hnothing : ∀ ts us, Nothing ts us → Matched ts := fun _ _ => Nothing.matched
  cases h.unfold with
  | output => simp [Stmt.isOutput] at houtput
  | print htag hsealed =>
      exact hone htag hsealed fun _ _ hnodes => hnodes.matched fun _ _ _ => Spells.matched
  | extend htag hsealed | perform htag hsealed => exact hone htag hsealed fun _ _ => Spells.matched
  | block henclosed hsealed =>
      exact hboth henclosed hsealed (fun _ _ => Words.matched) fun _ _ => Words.matched
  | insert htag hsealed | importAs htag hsealed =>
      exact hone htag hsealed fun _ _ hphrase =>
        hphrase.matched (fun _ _ => Spells.matched) fun _ _ => Words.matched
  | importNames htag hsealed =>
      refine hone htag hsealed fun _ _ hphrase =>
        hphrase.matched (fun _ _ => Spells.matched) fun _ _ hrest => ?_
      refine hrest.matched (fun _ _ => Words.matched) fun _ _ hrest => ?_
      exact hrest.matched (fun _ _ hnames => hnames.matched fun _ _ _ hname => Words.matched hname)
        fun _ _ => Words.matched
  | loop => exact h.mirrors_loop htable hsuffix
  | branch => exact h.mirrors_branch htable hsuffix
  | bind henclosed hsealed =>
      exact hboth henclosed hsealed
        (fun _ _ hbindings => hbindings.matched fun _ _ _ => BoundSpelled.matched) hnothing
  | assign htag hsealed =>
      refine hone htag hsealed fun _ _ hphrase =>
        hphrase.matched (fun _ _ => SetTarget.matched) fun _ _ hrest => ?_
      exact hrest.matched (fun _ _ hsymbol => hsymbol.matched (by decide)) fun _ _ => Spells.matched
  | capture henclosed hsealed =>
      refine hboth henclosed hsealed (fun _ _ hphrase =>
        hphrase.matched (fun _ _ => SetTarget.matched) fun _ _ hfilter => ?_) hnothing
      exact hfilter.matched fun _ _ _ => Spells.matched
  | filterBlock henclosed hsealed =>
      exact hboth henclosed hsealed (fun _ _ => Spells.matched) hnothing
  | macroBlock henclosed hsealed =>
      exact hboth henclosed hsealed (fun _ _ hphrase =>
        hphrase.matched (fun _ _ => Words.matched) fun _ _ => SignatureSpelled.matched) hnothing
  | callBlock _ henclosed hsealed =>
      exact hboth henclosed hsealed (fun _ _ hphrase =>
        hphrase.matched (fun _ _ => matched_signature) fun _ _ => Spells.matched) hnothing
  | skip htag hsealed | leave htag hsealed => exact hone htag hsealed hnothing
  | @scope options stmts innerLayout layout ts us _ _ =>
      have hpairs : layout.pairs = [] := hscope
      simp [Stmt.tagWords, Stmt.layout, hpairs]
  | autoescape henclosed _ hsealed =>
      exact hboth henclosed hsealed (fun _ _ => Spells.matched) hnothing

omit htable in
theorem StmtSpells.pairs_further {test : Expr} {others : List Branch}
    (h : StmtSpells table True (.branch (.mk test stmts others orElse layout)) ts us) {i : Nat}
    {other : Branch} (hother : others[i]? = some other) :
    ∃ pair, layout.pairs[i + 1]? = some pair ∧ other.layout.pairs = [pair] := by
  cases h.unfold with
  | @branch _ _ _ _ _ _ _ _ _ _ _ _ _ branches _ _ hbranches _ _ hsealed =>
      rw [getElem?_map] at hother
      obtain ⟨part, hpart, rfl⟩ := Option.map_eq_some_iff.mp hother
      refine ⟨part.2, ?_, ?_⟩
      · have hlt : i < (branches.map Prod.snd).length := by
          simpa using (List.getElem?_eq_some_iff.mp hpart).1
        rw [(hsealed trivial).2, cons_append, cons_append, getElem?_cons_succ,
          append_assoc, getElem?_append_left hlt, getElem?_map, hpart]
        rfl
      · exact hbranches.forall_mem (fun _ _ _ hbranch => hbranch.layout_eq.2) part
          (mem_of_getElem? hpart)

/-- The pair stands around the expression. -/
def Encloses (pair : TagPair) (expr : Expr) : Prop :=
  ∃ span, expr.layout.span = some span ∧ pair.opening.index < span.1 ∧ span.2 ≤ pair.closing.index

theorem forall₂_output {parts : List (Expr × Option TagPair)}
    (h : Chained (NodeSpelled table True) parts ts us) (hsuffix : ts ++ us <:+ significant table) :
    Forall₂ (fun node pair => pair.IsPaired table ∧ Encloses pair node)
      ((parts.map Prod.fst).filter fun node => !node.isData) (parts.filterMap Prod.snd) := by
  induction h with
  | nil => exact .nil
  | @cons part parts ts ts' us hpart _ ih =>
      rw [append_assoc] at hsuffix
      have hrest := ih (suffix_of_append ts hsuffix)
      cases hpart with
      | data _ _ _ => simpa [Expr.isData] using hrest
      | @expr expr pair opening closing ts us hopening hexpr hclosing hmarked =>
          rw [map_cons, filter_cons_of_pos (by simp [hexpr.isData_eq_false]),
            filterMap_cons_some (by rfl)]
          refine .cons ?_ hrest
          obtain ⟨before, hbefore⟩ := id hsuffix
          have htag : IsTag table pair (opening :: (ts ++ [closing])) := by
            rw [hmarked trivial]
            exact .mk hexpr.matched (.inr ⟨hopening, hclosing⟩)
          have hincreasing : Alignment.Increasing (opening :: (ts ++ [closing])) :=
            htable.pairwise_significant.sublist
              ((sublist_append_left ..).trans hsuffix.sublist)
          obtain ⟨start, stop, hspan, hstart, -, hstop⟩ := hexpr.between hincreasing
          refine ⟨htag.isPaired htable hbefore.symm, (start, stop), hspan, ?_⟩
          rw [hmarked trivial]
          exact ⟨hstart, hstop⟩

theorem StmtSpells.pairs_output {nodes : List Expr}
    (h : StmtSpells table True (.output nodes layout) ts us)
    (hsuffix : ts ++ us <:+ significant table) :
    Forall₂ (fun node pair => pair.IsPaired table ∧ Encloses pair node)
      (nodes.filter fun node => !node.isData) layout.pairs := by
  cases h.unfold with
  | output _ hparts hsealed =>
      rw [(hsealed trivial).2]
      exact forall₂_output htable hparts hsuffix

omit htable in
theorem forall_of_forall₂ {α β : Type} {related : α → β → Prop} {good : β → Prop} {values : List α}
    {others : List β} (h : Forall₂ related values others)
    (hgood : ∀ value other, related value other → good other) : ∀ other ∈ others, good other := by
  induction h with
  | nil => simp
  | cons hfirst _ ih => exact forall_mem_cons.mpr ⟨hgood _ _ hfirst, ih⟩

theorem Located.isPaired (h : Located table node) (hown : node.StoresOwn) :
    ∀ pair ∈ node.layout.pairs, pair.IsPaired table := by
  have hnone : node.layout.pairs = [] → ∀ pair ∈ node.layout.pairs, pair.IsPaired table := by
    intro hpairs
    simp [hpairs]
  cases h with
  | template => exact hnone hown
  | part hpart hsuffix =>
    cases hpart with
    | part hpart =>
        cases hpart with
        | expr hexpr => exact hexpr.isPaired htable hsuffix
        | entry | keyword | operand => exact hnone hown
        | empty _ hspan =>
            refine hnone ?_
            by_contra hne
            obtain ⟨span, hspan', hlt⟩ := hown hne
            obtain rfl := Option.some.inj (hspan.symm.trans hspan')
            exact lt_irrefl _ hlt
    | text | option => exact hnone hown
    | branch hbranch =>
        rw [Node.layout, hbranch.layout_eq.2, forall_mem_singleton]
        cases hbranch with
        | mk htag _ _ =>
            exact (htag.mirrors htable (by simpa using hsuffix) fun _ _ => Spells.matched).isPaired
    | @stmt node _ _ hstmt =>
        cases houtput : node.isOutput with
        | false =>
            exact forall_of_forall₂ (hstmt.mirrors htable hsuffix houtput hown)
              fun _ _ hmirrors => hmirrors.isPaired
        | true =>
            cases node with
            | output nodes layout =>
                exact forall_of_forall₂ (hstmt.pairs_output htable hsuffix) fun _ _ hboth => hboth.1
            | _ => simp [Stmt.isOutput] at houtput

end Table

end Spelling

namespace Template

theorem storesOwn_of_parseAnnotated {env : Environment} {name : Option String} {source : Text}
    {template : Template} {table : TokenTable}
    (h : parseAnnotated env name source = .ok (template, table)) :
    (Node.template template).Everywhere Node.StoresOwn := by
  unfold parseAnnotated at h
  cases htokens : tokens env name source with
  | error error => simp [htokens, bind, Except.bind] at h
  | ok read =>
      cases htree : ofLexemes name read.lexemes with
      | error error => simp [htokens, htree, bind, Except.bind] at h
      | ok tree =>
          have hnatural := TokenTable.isNatural_of_build (tokens_eq_ok_iff.mp htokens)
          have hformed := Grammar.isFormed_of_template hnatural (ofLexemes_eq_ok_iff.mp htree)
          cases hannotated : Alignment.annotate read.tokens tree with
          | error fault =>
              obtain ⟨error, herror⟩ := annotateWith_of_error read hannotated
              simp [htokens, htree, herror, bind, Except.bind] at h
          | ok result =>
              have hwith := annotateWith_of_ok read hannotated
              simp only [htokens, htree, hwith, bind, Except.bind, pure, Except.pure,
                Except.ok.injEq, Prod.mk.injEq] at h
              rw [← h.1]
              exact Alignment.everywhere_storesOwn_of_annotate hannotated hformed.storesNothing

/-- The pairs of an annotated tree mirror the tags of its source. Every pair is a pair of the token
table; a statement has one pair for each of its block tags, in their order, with an `else` exactly if
the source has the tag; a further branch stores the pair that the whole statement has for it; and an
output has one pair around each of its expressions. -/
theorem pairs_mirror_tags (env : Environment) (name : Option String) (source : Text)
    (template : Template) (table : TokenTable)
    (h : parseAnnotated env name source = .ok (template, table)) :
    ∀ item ∈ (Node.template template).preorder 0,
      (∀ pair ∈ item.2.layout.pairs, pair.IsPaired table.tokens) ∧
      (∀ stmt, item.2 = .stmt stmt → stmt.isOutput = false →
        List.Forall₂ (fun word pair => pair.Mirrors table.tokens word) (stmt.tagWords table.tokens)
          stmt.layout.pairs) ∧
      (∀ test body others orElse layout,
        item.2 = .stmt (.branch (.mk test body others orElse layout)) →
          ∀ i other, others[i]? = some other →
            ∃ pair, layout.pairs[i + 1]? = some pair ∧ other.layout.pairs = [pair]) ∧
      ∀ nodes layout, item.2 = .stmt (.output nodes layout) →
        List.Forall₂ (fun node pair => ∃ span, node.layout.span = some span ∧
            pair.opening.index < span.1 ∧ span.2 ≤ pair.closing.index)
          (nodes.filter fun node => !node.isData) layout.pairs := by
  obtain ⟨htable, ts, last, hspells⟩ := exists_spells_of_parseAnnotated h
  have hstores := storesOwn_of_parseAnnotated h
  rintro ⟨depth, node⟩ hitem
  have hlocated : Located table.tokens node := hspells.located.preorder hitem
  have hown : node.StoresOwn := hstores.of_mem_preorder hitem
  refine ⟨hlocated.isPaired htable hown, ?_, ?_, ?_⟩
  · rintro stmt rfl houtput
    obtain ⟨_, _, hstmt, hsuffix⟩ := hlocated.stmt
    exact hstmt.mirrors htable hsuffix houtput hown
  · rintro test body others orElse layout rfl i other hother
    obtain ⟨_, _, hstmt, -⟩ := hlocated.stmt
    exact hstmt.pairs_further hother
  · rintro nodes layout rfl
    obtain ⟨_, _, hstmt, hsuffix⟩ := hlocated.stmt
    exact (hstmt.pairs_output htable hsuffix).imp fun _ _ hboth => hboth.2

/-- A loop with an `else` inside a branch, and an empty `else`. -/
theorem pairs_mirror_tags_of_branches :
    ∃ template table, parseAnnotated {} none
        ("{% if a %}{% for x in (y) %}{% else %}{% endfor %}{{ f(1) }}{% elif b %}{% else %}" ++
          "{% endif %}").toList = .ok (template, table) ∧
      template.body.map (Stmt.tagWords table.tokens) =
        [["if".toList, "elif".toList, "else".toList, "endif".toList]] ∧
      ∀ item ∈ (Node.template template).preorder 0,
        (∀ pair ∈ item.2.layout.pairs, pair.IsPaired table.tokens) ∧
        ∀ stmt, item.2 = .stmt stmt → stmt.isOutput = false →
          List.Forall₂ (fun word pair => pair.Mirrors table.tokens word)
            (stmt.tagWords table.tokens) stmt.layout.pairs := by
  have hwords : ((parseAnnotated {} none
      ("{% if a %}{% for x in (y) %}{% else %}{% endfor %}{{ f(1) }}{% elif b %}{% else %}" ++
        "{% endif %}").toList).toOption.map fun annotated =>
          annotated.1.body.map (Stmt.tagWords annotated.2.tokens)) =
      some [["if".toList, "elif".toList, "else".toList, "endif".toList]] := by
    decide +kernel
  cases hparse : parseAnnotated {} none
      ("{% if a %}{% for x in (y) %}{% else %}{% endfor %}{{ f(1) }}{% elif b %}{% else %}" ++
        "{% endif %}").toList with
  | error error =>
      rw [hparse] at hwords
      cases hwords
  | ok annotated =>
      rw [hparse] at hwords
      refine ⟨annotated.1, annotated.2, rfl, Option.some.inj hwords, fun item hitem => ?_⟩
      obtain ⟨hpaired, hmirrors, -⟩ := pairs_mirror_tags {} none _ annotated.1 annotated.2 hparse
        item hitem
      exact ⟨hpaired, hmirrors⟩

end Template

end JinjaLayout
