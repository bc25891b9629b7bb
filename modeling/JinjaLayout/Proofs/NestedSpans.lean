import Mathlib
import JinjaLayout.Proofs.Reannotation

/-!
The spans of an annotated tree. Main statements: the span of every node holds the spans of its
children, and no two of these share a token; the children are listed in the order of the source
exactly if no keyword argument stands behind a starred one.
-/

namespace JinjaLayout

open List

namespace Node

def Apart (first second : Node) : Prop :=
  ∀ span span', first.layout.span = some span → second.layout.span = some span' →
    span.2 ≤ span'.1 ∨ span'.2 ≤ span.1

theorem Apart.symm {first second : Node} (h : Apart first second) : Apart second first :=
  fun span span' hspan hspan' => (h span' span hspan' hspan).symm

def Before (first second : Node) : Prop :=
  ∃ span span', first.layout.span = some span ∧ second.layout.span = some span' ∧ span.2 ≤ span'.1

theorem Before.apart {first second : Node} (h : Before first second) : Apart first second := by
  obtain ⟨span, span', hfirst, hsecond, hle⟩ := h
  rintro _ _ hspan hspan'
  obtain rfl := Option.some.inj (hfirst.symm.trans hspan)
  obtain rfl := Option.some.inj (hsecond.symm.trans hspan')
  exact .inl hle

def covers (node : Node) (index : Nat) : Bool :=
  node.layout.span.any fun span => decide (span.1 ≤ index) && decide (index < span.2)

def tokens (table : List Token) (node : Node) : List Token :=
  (significant table).filter fun token => node.covers token.index

/-- The node has a span that holds the spans of its children, which follow each other in the source,
and so on down the tree. -/
inductive IsNested : Node → Prop where
  | mk {node : Node} {span : Nat × Nat} {nodes : List Node} (hspan : node.layout.span = some span)
      (hle : span.1 ≤ span.2)
      (hinside : ∀ child ∈ node.children, ∀ inner, child.layout.span = some inner →
        span.1 ≤ inner.1 ∧ inner.2 ≤ span.2)
      (hnodes : node.Lists nodes) (hbefore : nodes.Pairwise Before)
      (h : ∀ child ∈ node.children, IsNested child) : IsNested node

end Node

namespace Spelling

open Grammar

/-! ### Nodes along tokens -/

/-- The first and the last place that belong to a token. -/
abbrev Ends := Token → Nat × Nat

def narrow : Ends :=
  fun token => (token.index, token.index + 1)

/-- A token with what is skipped before it, and taken away behind it. -/
def wide (table : List Token) : Ends :=
  fun token => (enter table token, leave table token)

/-- Each token lies between its ends, and behind the ones before it. -/
structure Rising (ends : Ends) (ts : List Token) : Prop where
  pairwise : ts.Pairwise fun first second => (ends first).2 ≤ (ends second).1
  between : ∀ token ∈ ts, (ends token).1 ≤ token.index ∧ token.index < (ends token).2

def Within (ends : Ends) (span : Nat × Nat) (ts : List Token) : Prop :=
  span.1 ≤ span.2 ∧ ∃ first ∈ ts.head?, ∃ last ∈ ts.getLast?,
    (ends first).1 ≤ span.1 ∧ span.2 ≤ (ends last).2

/-- The node is nested, its span lies between the ends of the tokens, and the opening parentheses
among them belong to it. -/
def Placed (ends : Ends) (node : Node) (ts : List Token) : Prop :=
  node.IsNested ∧ (∀ token ∈ ts, token.isOperator "(" → node.covers token.index = true) ∧
    ∃ span, node.layout.span = some span ∧ Within ends span ts

/-- Each of the nodes has some of the tokens for itself, and they follow each other. The opening
parentheses that no node has are those of the owner. -/
def Laid (ends : Ends) (own : Token → Prop) (nodes : List Node) (ts : List Token) : Prop :=
  Rising ends ts → ∃ items : List (Node × List Token), items.map Prod.fst = nodes ∧
    (∀ item ∈ items, Placed ends item.1 item.2) ∧ (items.flatMap Prod.snd).Sublist ts ∧
    Free (fun token => own token ∨ token ∈ items.flatMap Prod.snd) ts

section Laid

variable {ends : Ends} {own own' : Token → Prop} {node : Node} {nodes nodes' : List Node}
  {token : Token} {ts ts' : List Token} {span : Nat × Nat} {goal : Prop}

theorem Rising.sublist (h : Rising ends ts') (hsub : ts.Sublist ts') : Rising ends ts :=
  ⟨h.pairwise.sublist hsub, fun token htoken => h.between token (hsub.subset htoken)⟩

theorem Rising.head_le (h : Rising ends ts) {first : Token} (hfirst : first ∈ ts.head?)
    (htoken : token ∈ ts) : (ends first).1 ≤ (ends token).1 := by
  cases ts with
  | nil => simp at htoken
  | cons head ts =>
      obtain rfl : head = first := by simpa using hfirst
      rcases mem_cons.mp htoken with rfl | htoken
      · exact le_rfl
      · have hbetween := h.between head mem_cons_self
        have hbefore := (pairwise_cons.mp h.pairwise).1 token htoken
        omega

theorem Rising.le_last (h : Rising ends ts) {last : Token} (hlast : last ∈ ts.getLast?)
    (htoken : token ∈ ts) : (ends token).2 ≤ (ends last).2 := by
  obtain ⟨front, hts⟩ := getLast?_eq_some_iff.mp hlast
  subst hts
  rcases mem_append.mp htoken with htoken | htoken
  · have hbetween := h.between last (by simp)
    have hbefore := (pairwise_append.mp h.pairwise).2.2 token htoken last (by simp)
    omega
  · rw [mem_singleton.mp htoken]

theorem Rising.within (h : Rising ends ts') (hwithin : Within ends span ts)
    (hsub : ts.Sublist ts') : Within ends span ts' := by
  obtain ⟨hle, first, hfirst, last, hlast, hstart, hstop⟩ := hwithin
  have hfirst' := hsub.subset (mem_of_mem_head? hfirst)
  have hlast' := hsub.subset (mem_of_getLast? hlast)
  have hne : ts' ≠ [] := ne_nil_of_mem hfirst'
  refine ⟨hle, ts'.head hne, head?_eq_some_head hne, ts'.getLast hne,
    getLast?_eq_some_getLast hne, ?_, ?_⟩
  · exact (h.head_le (head?_eq_some_head hne) hfirst').trans hstart
  · exact hstop.trans (h.le_last (getLast?_eq_some_getLast hne) hlast')

theorem Laid.nil (h : Free own ts) : Laid ends own [] ts :=
  fun _ => ⟨[], by simpa using h⟩

theorem Laid.one (h : Rising ends ts → Placed ends node ts) : Laid ends own [node] ts :=
  fun hrising => ⟨[(node, ts)], by simpa [Free] using ⟨h hrising, fun _ htoken _ => .inr htoken⟩⟩

theorem Laid.append (h : Laid ends own nodes ts) (h' : Laid ends own nodes' ts') :
    Laid ends own (nodes ++ nodes') (ts ++ ts') := by
  intro hrising
  obtain ⟨items, hnodes, hitems, hsub, hown⟩ := h (hrising.sublist (sublist_append_left ts ts'))
  obtain ⟨items', hnodes', hitems', hsub', hown'⟩ :=
    h' (hrising.sublist (sublist_append_right ts ts'))
  refine ⟨items ++ items', ?_, ?_, ?_, .append ?_ ?_⟩
  · rw [map_append, hnodes, hnodes']
  · exact forall_mem_append.mpr ⟨hitems, hitems'⟩
  · simpa using hsub.append hsub'
  · intro token htoken hparen
    rw [flatMap_append]
    exact (hown token htoken hparen).imp_right (mem_append_left _)
  · intro token htoken hparen
    rw [flatMap_append]
    exact (hown' token htoken hparen).imp_right (mem_append_right _)

theorem Laid.own_or_covers (h : Laid ends own nodes ts) (hrising : Rising ends ts)
    (htoken : token ∈ ts) (hparen : token.isOperator "(") :
    own token ∨ ∃ node ∈ nodes, node.covers token.index := by
  obtain ⟨items, rfl, hitems, -, hown⟩ := h hrising
  refine (hown token htoken hparen).imp_right fun hmem => ?_
  obtain ⟨item, hitem, hmem⟩ := mem_flatMap.mp hmem
  exact ⟨item.1, mem_map_of_mem hitem, (hitems item hitem).2.1 token hmem hparen⟩

theorem Laid.isNested (h : Laid ends own nodes ts) (hlists : node.Lists nodes)
    (hrising : Rising ends ts) (hspan : node.layout.span = some span) (hle : span.1 ≤ span.2)
    (houter : ∀ inner, Within ends inner ts → span.1 ≤ inner.1 ∧ inner.2 ≤ span.2) :
    node.IsNested := by
  obtain ⟨items, hnodes, hitems, hsub, -⟩ := h hrising
  have hall : ∀ child ∈ node.children, ∃ item ∈ items, item.1 = child := by
    intro child hchild
    exact mem_map.mp (hnodes ▸ (Lists.perm hlists).symm.subset hchild)
  refine .mk hspan hle ?_ hlists ?_ ?_
  · intro child hchild inner hinner
    obtain ⟨item, hitem, rfl⟩ := hall child hchild
    obtain ⟨-, -, inner', hinner', hwithin⟩ := hitems item hitem
    obtain rfl : inner' = inner := Option.some.inj (hinner'.symm.trans hinner)
    have hpart : item.2.Sublist (items.flatMap Prod.snd) :=
      sublist_flatten_of_mem (mem_map_of_mem hitem)
    exact houter _ (hrising.within hwithin (hpart.trans hsub))
  · rw [← hnodes, pairwise_map]
    have hpairwise := (pairwise_flatMap.mp (hrising.pairwise.sublist hsub)).2
    refine hpairwise.imp_of_mem fun hfirst hsecond hbefore => ?_
    obtain ⟨-, -, inner, hinner, -, -, -, last, hlast, -, hstop⟩ := hitems _ hfirst
    obtain ⟨-, -, inner', hinner', -, first, hfirst, -, -, hstart, -⟩ := hitems _ hsecond
    have hlt := hbefore last (mem_of_getLast? hlast) first (mem_of_mem_head? hfirst)
    exact ⟨inner, inner', hinner, hinner', by omega⟩
  · intro child hchild
    obtain ⟨item, hitem, rfl⟩ := hall child hchild
    exact (hitems item hitem).1

def extentOf (ends : Ends) (ts : List Token) : Nat × Nat :=
  ((ts.head?.map fun token => (ends token).1).getD 0,
    (ts.getLast?.map fun token => (ends token).2).getD 0)

theorem within_extentOf (hrising : Rising ends ts) (hne : ts ≠ []) :
    Within ends (extentOf ends ts) ts := by
  have hfirst := head?_eq_some_head hne
  have hlast := getLast?_eq_some_getLast hne
  have hends : extentOf ends ts = ((ends (ts.head hne)).1, (ends (ts.getLast hne)).2) := by
    simp [extentOf, hfirst, hlast]
  rw [hends]
  refine ⟨?_, _, hfirst, _, hlast, le_rfl, le_rfl⟩
  have hle := hrising.le_last hlast (head_mem hne)
  have hbetween := hrising.between _ (head_mem hne)
  dsimp only
  omega

theorem covers_of_mem (hrising : Rising ends ts) (hspan : node.layout.span = some (extentOf ends ts))
    (htoken : token ∈ ts) : node.covers token.index := by
  have hne : ts ≠ [] := ne_nil_of_mem htoken
  have hfirst := head?_eq_some_head hne
  have hlast := getLast?_eq_some_getLast hne
  have hbetween := hrising.between token htoken
  have hstart := hrising.head_le hfirst htoken
  have hstop := hrising.le_last hlast htoken
  simp only [Node.covers, hspan, extentOf, hfirst, hlast, Option.map_some, Option.getD_some,
    Option.any_some, Bool.and_eq_true, decide_eq_true_eq]
  omega

theorem tokens_eq {table us : List Token} (hrising : Rising ends (significant table))
    (hsuffix : ts ++ us <:+ significant table) (hne : ts ≠ [])
    (hspan : node.layout.span = some (extentOf ends ts)) : node.tokens table = ts := by
  obtain ⟨before, hbefore⟩ := hsuffix
  rw [← hbefore] at hrising
  have hfirst := head?_eq_some_head hne
  have hlast := getLast?_eq_some_getLast hne
  obtain ⟨-, hinner, hfront⟩ := pairwise_append.mp hrising.pairwise
  obtain ⟨-, -, hback⟩ := pairwise_append.mp hinner
  have hsub : ts.Sublist (before ++ (ts ++ us)) :=
    (sublist_append_left ts us).trans (sublist_append_right ..)
  have hnot : ∀ token ∈ before ++ us, ¬node.covers token.index := by
    simp only [Node.covers, hspan, extentOf, hfirst, hlast, Option.map_some, Option.getD_some,
      Option.any_some, Bool.and_eq_true, decide_eq_true_eq]
    intro token htoken
    rcases mem_append.mp htoken with htoken | htoken
    · have hbetween := hrising.between token (mem_append_left _ htoken)
      have hle := hfront token htoken _ (mem_append_left us (head_mem hne))
      omega
    · have hbetween := hrising.between token (by simp [htoken])
      have hle := hback _ (getLast_mem hne) token htoken
      omega
  rw [forall_mem_append] at hnot
  rw [Node.tokens, ← hbefore, filter_append, filter_append,
    filter_eq_nil_iff.mpr hnot.1, filter_eq_nil_iff.mpr hnot.2,
    filter_eq_self.mpr fun token => covers_of_mem (hrising.sublist hsub) hspan]
  simp

theorem Laid.wholeOf (h : Laid ends own nodes ts) (hlists : node.Lists nodes) (hne : ts ≠ [])
    (hspan : node.layout.span = some (extentOf ends ts)) : Laid ends own' [node] ts := by
  refine .one fun hrising => ?_
  have hwithin := within_extentOf hrising hne
  refine ⟨h.isNested hlists hrising hspan hwithin.1 ?_,
    fun _ htoken _ => covers_of_mem hrising hspan htoken, _, hspan, hwithin⟩
  rintro inner ⟨-, first, hfirst, last, hlast, hstart, hstop⟩
  simpa [extentOf, Option.mem_def.mp hfirst, Option.mem_def.mp hlast] using ⟨hstart, hstop⟩

theorem Laid.whole (h : Laid ends own node.children ts) (hne : ts ≠ [])
    (hspan : node.layout.span = some (extentOf ends ts)) : Laid ends own' [node] ts :=
  h.wholeOf .children hne hspan

theorem Rising.narrow (h : Rising ends ts) : Rising narrow ts := by
  refine ⟨h.pairwise.imp_of_mem fun hfirst hsecond hle => ?_, fun token _ => ?_⟩
  · have hbefore := h.between _ hfirst
    have hafter := h.between _ hsecond
    simp only [Spelling.narrow]
    omega
  · simp [Spelling.narrow]

theorem Laid.widen (h : Laid narrow own nodes ts) : Laid ends own nodes ts := by
  intro hrising
  obtain ⟨items, hnodes, hitems, hsub, hown⟩ := h hrising.narrow
  refine ⟨items, hnodes, fun item hitem => ?_, hsub, hown⟩
  obtain ⟨hnested, hholds, span, hspan, hle, first, hfirst, last, hlast, hstart, hstop⟩ :=
    hitems item hitem
  have hpart : item.2.Sublist (items.flatMap Prod.snd) :=
    sublist_flatten_of_mem (mem_map_of_mem hitem)
  have hbetween := (hrising.sublist (hpart.trans hsub)).between
  have hbefore := hbetween first (mem_of_mem_head? hfirst)
  have hafter := hbetween last (mem_of_getLast? hlast)
  simp only [Spelling.narrow] at hstart hstop
  exact ⟨hnested, hholds, span, hspan, hle, first, hfirst, last, hlast, by omega, by omega⟩

end Laid

/-! ### Rows -/

section Rows

variable {table ts us : List Token} {own : Token → Prop} {node : Node}

theorem Row.laid {ends : Ends} {part : Spelling Node} {nodes : List Node}
    (h : Row part own nodes ts us)
    (hpart : ∀ node ts us, part node ts us → Laid ends own [node] ts) : Laid ends own nodes ts := by
  induction h with
  | nil => exact .nil .nil
  | token htoken _ ih => exact (Laid.nil (.cons htoken .nil)).append ih
  | node hnode _ ih => exact (hpart _ _ _ hnode).append ih

theorem laid_emptyIndex {context : Context} {layout : Layout} {opening : Token}
    (hopening : opening.isOperator "[")
    (hspan : layout.span = some (opening.index + 1, opening.index + 1)) :
    Laid narrow own [.expr (.tuple [] context layout)] [opening] := by
  refine .one fun hrising => ⟨?_, ?_, _, hspan, le_rfl, opening, rfl, opening, rfl, ?_, le_rfl⟩
  · exact .mk hspan le_rfl (by simp [Node.children, Node.ofExpr]) .children .nil
      (by simp [Node.children, Node.ofExpr])
  · exact forall_mem_singleton.mpr (free_of_isOperator hopening (by decide))
  · simp [narrow]

abbrev LaidAs (ends : Ends) : Spelling Node :=
  fun node ts _ => ∀ own, Laid ends own [node] ts

theorem Row.laidAs {ends : Ends} {nodes : List Node} (h : Row (LaidAs ends) own nodes ts us) :
    Laid ends own nodes ts :=
  h.laid fun _ _ _ hnode => hnode own

theorem ExprPart.laid {spelled : Place → Spelling Expr} (h : ExprPart spelled node ts us)
    (hspelled : ∀ place expr ts us, spelled place expr ts us →
      LaidAs narrow (.expr expr) ts us) : LaidAs narrow node ts us := by
  intro own
  cases h with
  | expr hexpr => exact hspelled _ _ _ _ hexpr own
  | entry hentry =>
      have hrow : Row _ own _ _ us := hentry.row hspelled
      cases hentry with
      | mk _ _ _ hmarked => exact hrow.laidAs.whole (by simp) (hmarked trivial)
  | keyword hargument =>
      have hrow : Row _ own _ _ us := hargument.row hspelled
      cases hargument with
      | keyword _ _ _ hmarked => exact hrow.laidAs.whole (by simp) (hmarked trivial)
  | operand hoperand =>
      have hrow : Row _ own _ _ us := hoperand.row hspelled
      cases hoperand with
      | mk hop _ hmarked =>
          refine hrow.laidAs.whole ?_ (hmarked trivial)
          cases hop <;> simp
  | empty hopening hspan => exact laid_emptyIndex hopening hspan

theorem Spells.span_eq {place : Place} {expr : Expr} (h : Spells True place expr ts us) :
    expr.layout.span = some (spanOf ts) :=
  h.unfold.span_eq

theorem Spells.laid {place : Place} {expr : Expr} (h : Spells True place expr ts us) :
    LaidAs narrow (.expr expr) ts us := by
  refine induct (motive := fun _ expr => LaidAs narrow (.expr expr)) ?_ h
  intro place expr ts us hlayer own
  obtain ⟨nodes, hnodes, hrow⟩ := hlayer.row
  have hlaid := hrow.laid fun _ _ _ hpart => hpart.laid (fun _ _ _ _ => And.right) _
  exact hlaid.wholeOf hnodes (fold (hlayer.mono fun _ _ _ _ => And.left)).ne_nil hlayer.span_eq

theorem Spells.laidWide {place : Place} {expr : Expr} (h : Spells True place expr ts us) :
    LaidAs (wide table) (.expr expr) ts us :=
  fun own => (h.laid own).widen

theorem StmtPart.laid {spelled : Spelling Stmt} (h : StmtPart table spelled node ts us)
    (hspelled : ∀ stmt ts us, spelled stmt ts us → LaidAs (wide table) (.stmt stmt) ts us) :
    LaidAs (wide table) node ts us := by
  intro own
  cases h with
  | part hpart => exact (hpart.laid (fun _ _ _ _ => Spells.laid) own).widen
  | text htext =>
      cases htext with
      | data htoken _ hmarked =>
          have hfree : Free own [_] := .cons (free_of_isKind htoken (by decide)) .nil
          exact (Laid.nil hfree).whole (by simp) (hmarked trivial).2
  | option hvalue hspan =>
      have hoption : Laid narrow own [.keyword _] ts :=
        (hvalue.laid own).whole hvalue.ne_nil (hspan.trans hvalue.span_eq)
      exact hoption.widen
  | branch hbranch =>
      have hrow : Row _ own _ _ us :=
        hbranch.row (fun _ _ _ _ => Spells.laidWide) hspelled
      cases hbranch with
      | mk htag _ hsealed =>
          exact hrow.laidAs.whole (by simp [Alignment.TagSpelled.ne_nil htag]) (hsealed trivial).1
  | stmt hstmt => exact hspelled _ _ _ hstmt own

variable {stmt : Stmt}

theorem StmtLayer.ne_nil {spelled : Spelling Stmt} (h : StmtLayer table True spelled stmt ts us)
    (hspelled : ∀ stmt ts us, spelled stmt ts us → ts ≠ []) : ts ≠ [] := by
  have hboth : ∀ {keyword stop inside last stmts pairs},
      EnclosedSpelled table True spelled keyword stop inside last stmts pairs ts us → ts ≠ [] := by
    rintro _ _ _ _ _ _ ⟨hfirst, -, -⟩
    simp [Alignment.TagSpelled.ne_nil hfirst]
  cases h with
  | output hne hparts _ =>
      cases hparts with
      | nil => exact absurd rfl hne
      | cons hnode _ => simp [Alignment.NodeSpelled.ne_nil hnode]
  | print htag _ | extend htag _ | insert htag _ | importAs htag _ | importNames htag _
  | perform htag _ | assign htag _ | skip htag _ | leave htag _ =>
      exact Alignment.TagSpelled.ne_nil htag
  | loop hfirst _ _ _ _ | branch hfirst _ _ _ _ _ => simp [Alignment.TagSpelled.ne_nil hfirst]
  | block h _ | bind h _ | capture h _ | filterBlock h _ | macroBlock h _ | callBlock _ h _
  | autoescape h _ _ => exact hboth h
  | scope hinner _ => exact hspelled _ _ _ hinner

theorem StmtSpells.ne_nil (h : StmtSpells table True stmt ts us) : ts ≠ [] := by
  refine induct (motive := fun _ ts _ => ts ≠ []) ?_ h
  intro stmt ts us hlayer
  exact hlayer.ne_nil fun _ _ _ hpart => hpart.2

theorem StmtSpells.laid (h : StmtSpells table True stmt ts us) :
    LaidAs (wide table) (.stmt stmt) ts us := by
  refine induct (motive := fun stmt => LaidAs (wide table) (.stmt stmt)) ?_ h
  intro stmt ts us hlayer own
  have hrow : Row _ (fun _ => True) _ _ _ := hlayer.row fun _ _ => trivial
  have hlaid := hrow.laid fun _ _ _ hpart => hpart.laid (fun _ _ _ => And.right) _
  exact Laid.whole hlaid (hlayer.ne_nil fun _ _ _ hpart => hpart.1.ne_nil) hlayer.span_eq

theorem StmtSpells.span_eq (h : StmtSpells table True stmt ts us) :
    stmt.layout.span = some (reachOf table ts) :=
  h.unfold.span_eq

end Rows

/-! ### Tables -/

section Tables

variable {table : List Token} (htable : IsTable table) {first second : Token}

include htable

theorem leave_le_index (hsecond : second ∈ significant table) (hlt : first.index < second.index) :
    leave table first ≤ second.index := by
  have hblanks : first.index + 1 + blanksAt table (first.index + 1) ≤ second.index := by
    by_contra hover
    obtain ⟨hmem, hread⟩ := mem_filter.mp hsecond
    obtain ⟨i, hi, rfl⟩ := getElem_of_mem hmem
    rw [htable.index_eq i hi] at hlt hover
    have hblank : table[i] ∈ (table.drop (first.index + 1)).takeWhile fun token =>
        !token.isSignificant && token.kind == .whitespace := by
      rw [mem_iff_getElem]
      refine ⟨i - (first.index + 1), ?_, ?_⟩
      · simp only [blanksAt] at hover
        omega
      · rw [IsPrefix.getElem (List.takeWhile_prefix _), getElem_drop]
        congr 1
        omega
    have hnot := mem_takeWhile_imp hblank
    simp [hread] at hnot
  unfold leave
  split <;> omega

theorem enter_eq (hsecond : second ∈ significant table) :
    ∃ before, (∀ token ∈ before, token ∈ significant table ∧ token.index < second.index) ∧
      (∀ token ∈ significant table, token.index < second.index → token ∈ before) ∧
      before.Pairwise (fun first second => first.index < second.index) ∧
      enter table second = behind table before := by
  obtain ⟨before, after, hsplit⟩ := append_of_mem hsecond
  have hpairwise := hsplit ▸ htable.pairwise_significant
  rw [pairwise_append, pairwise_cons] at hpairwise
  refine ⟨before, fun token htoken => ⟨?_, ?_⟩, fun token htoken hlt => ?_, hpairwise.1, ?_⟩
  · rw [hsplit]
    exact mem_append_left _ htoken
  · exact hpairwise.2.2 token htoken second mem_cons_self
  · rw [hsplit, mem_append, mem_cons] at htoken
    rcases htoken with htoken | rfl | htoken
    · exact htoken
    · exact absurd hlt (lt_irrefl _)
    · exact absurd (hpairwise.2.1.1 token htoken) (by omega)
  · rw [enter, Alignment.significant_take_index htable hsplit]

theorem enter_le_index (hsecond : second ∈ significant table) :
    enter table second ≤ second.index := by
  obtain ⟨before, hbefore, -, -, henter⟩ := enter_eq htable hsecond
  rw [henter]
  rcases eq_nil_or_concat' before with rfl | ⟨front, last, rfl⟩
  · obtain ⟨initial, middle, last, htokens, hinitial, -⟩ := htable.exists_significant
    obtain ⟨hmem, hread⟩ := mem_filter.mp hsecond
    obtain ⟨i, hi, rfl⟩ := getElem_of_mem hmem
    rw [htable.index_eq i hi]
    cases i with
    | zero => simp [htokens, hinitial] at hread
    | succ i => simp [behind]
  · rw [behind, getLast?_concat]
    exact leave_le_index htable hsecond (hbefore last (by simp)).2

theorem leave_le_enter (hfirst : first ∈ significant table) (hsecond : second ∈ significant table)
    (hlt : first.index < second.index) : leave table first ≤ enter table second := by
  obtain ⟨before, hbefore, hall, hpairwise, henter⟩ := enter_eq htable hsecond
  have hmem := hall first hfirst hlt
  rcases eq_nil_or_concat' before with rfl | ⟨front, last, rfl⟩
  · simp at hmem
  · rw [henter, behind, getLast?_concat]
    rw [pairwise_append] at hpairwise
    rcases mem_append.mp hmem with hfront | hlast
    · have hle := leave_le_index htable (hbefore last (by simp)).1
        (hpairwise.2.2 first hfront last (by simp))
      have hleave : last.index < leave table last := by
        unfold leave
        split <;> omega
      exact hle.trans hleave.le
    · rw [mem_singleton.mp hlast]
      exact le_rfl

theorem rising_wide : Rising (wide table) (significant table) := by
  refine ⟨htable.pairwise_significant.imp_of_mem fun hfirst hsecond hlt => ?_, fun token htoken => ?_⟩
  · exact leave_le_enter htable hfirst hsecond hlt
  · refine ⟨enter_le_index htable htoken, ?_⟩
    simp only [wide, leave]
    split <;> omega

theorem leave_le_length (hfirst : first ∈ table) : leave table first ≤ table.length := by
  obtain ⟨i, hi, rfl⟩ := getElem_of_mem hfirst
  have hblanks : blanksAt table (i + 1) ≤ table.length - (i + 1) := by
    rw [← length_drop]
    exact (List.takeWhile_prefix _).length_le
  unfold leave
  rw [htable.index_eq i hi]
  split <;> omega

end Tables

theorem TemplateSpells.isNested {table ts : List Token} {template : Template} {last : Token}
    (h : TemplateSpells table True template ts last) (htable : IsTable table) :
    (Node.template template).IsNested := by
  have hsub : ts.Sublist (significant table) := by
    rw [h.split]
    exact sublist_append_left ..
  have hlaid : Laid (wide table) (fun _ => True) (Node.template template).children ts :=
    Row.laidAs (h.body.rowStmts fun _ _ _ => StmtSpells.laid)
  refine hlaid.isNested .children ((rising_wide htable).sublist hsub) (h.layout trivial).1
    (Nat.zero_le _) ?_
  rintro inner ⟨-, -, -, token, htoken, -, hstop⟩
  refine ⟨Nat.zero_le _, hstop.trans (leave_le_length htable ?_)⟩
  exact IsTable.mem_of_mem_significant (hsub.subset (mem_of_getLast? htoken))

end Spelling

namespace Node

theorem IsNested.preorder {node : Node} (h : node.IsNested) {depth : Nat} {item : Nat × Node}
    (hitem : item ∈ node.preorder depth) :
    item.2.IsNested ∧ ∃ outer inner, node.layout.span = some outer ∧
      item.2.layout.span = some inner ∧ outer.1 ≤ inner.1 ∧ inner.2 ≤ outer.2 := by
  induction h generalizing depth with
  | @mk node span nodes hspan hle hinside hnodes hbefore hchildren ih =>
      rw [Node.preorder, mem_cons, mem_flatMap] at hitem
      rcases hitem with rfl | ⟨⟨child, hchild⟩, -, hitem⟩
      · exact ⟨.mk hspan hle hinside hnodes hbefore hchildren, span, span, hspan, hspan, le_rfl,
          le_rfl⟩
      · obtain ⟨hnested, outer, inner, houter, hinner, hstart, hstop⟩ := ih child hchild hitem
        have hwithin := hinside child hchild outer houter
        exact ⟨hnested, span, inner, hspan, hinner, hwithin.1.trans hstart, hstop.trans hwithin.2⟩

theorem mem_preorder_self (depth : Nat) (node : Node) : (depth, node) ∈ node.preorder depth := by
  rw [preorder]
  exact mem_cons_self

theorem mem_preorder_of_child {node child : Node} (hchild : child ∈ node.children) {depth : Nat}
    {item : Nat × Node} (hitem : item ∈ child.preorder (depth + 1)) : item ∈ node.preorder depth := by
  rw [preorder]
  exact mem_cons_of_mem _ (mem_flatMap.mpr ⟨⟨child, hchild⟩, mem_attach .., hitem⟩)

theorem IsNested.pairwise_apart {node : Node} (h : node.IsNested) :
    node.children.Pairwise Apart := by
  obtain ⟨-, -, -, hnodes, hbefore, -⟩ := h
  exact ((Spelling.Lists.perm hnodes).pairwise_iff fun h => h.symm).mp
    (hbefore.imp Before.apart)

theorem exists_children_eq (node : Node) :
    ∃ front, node.children = front ++ ofArguments node.arguments := by
  unfold arguments
  split
  · exact ⟨_, rfl⟩
  · exact ⟨[_], rfl⟩
  · exact ⟨[_], rfl⟩
  · exact ⟨node.children, by simp [ofArguments]⟩

/-- An element that moves behind others keeps the order if it may stand behind each of them. -/
theorem pairwise_of_moved {related : Node → Node → Prop} {front after back : List Node} {moved : Node}
    (h : (front ++ moved :: (after ++ back)).Pairwise related)
    (hafter : ∀ node ∈ after, related node moved) :
    (front ++ (after ++ moved :: back)).Pairwise related := by
  simp only [pairwise_append, pairwise_cons, mem_cons, mem_append] at h ⊢
  obtain ⟨hfront, ⟨hmoved, hpairs, hback, hcross⟩, hall⟩ := h
  refine ⟨hfront, ⟨hpairs, ⟨fun node hnode => hmoved node (.inr hnode), hback⟩, ?_⟩, ?_⟩
  · rintro node hnode other (rfl | hother)
    · exact hafter node hnode
    · exact hcross node hnode other hother
  · rintro node hnode other (hother | rfl | hother)
    · exact hall node hnode other (.inr (.inl hother))
    · exact hall node hnode other (.inl rfl)
    · exact hall node hnode other (.inr (.inr hother))

theorem Lists.pairwise_iff {node : Node} {nodes : List Node} (h : node.Lists nodes)
    (hbefore : nodes.Pairwise Before) :
    node.children.Pairwise Before ↔ ∀ argument ∈ node.arguments.keywords,
      ∀ star ∈ node.arguments.star, Before (keyword argument) (expr star) := by
  constructor
  · intro hchildren argument hargument star hstar
    obtain ⟨front, hfront⟩ := node.exists_children_eq
    rw [hfront, ofArguments, append_assoc, append_assoc] at hchildren
    have hkeywords := (pairwise_append.mp (pairwise_append.mp hchildren).2.1).2.1
    refine (pairwise_append.mp hkeywords).2.2 _ (mem_map_of_mem hargument) _ ?_
    exact mem_append_left _ (mem_map_of_mem (Option.mem_toList.mpr hstar))
  · intro hkeywords
    cases h with
    | children => exact hbefore
    | @arguments front _ hchildren hitems =>
        generalize node.arguments = arguments at hchildren hitems hkeywords
        rw [hchildren]
        cases hitems with
        | plain => simpa [ofArguments, Spelling.Argument.node, Function.comp_def] using hbefore
        | @starred positional before after star doubleStar =>
            have hordered : ((front ++ (positional.map expr ++ before.map keyword)) ++ expr star ::
                (after.map keyword ++ doubleStar.toList.map expr)).Pairwise Before := by
              simpa [Spelling.Argument.node, Function.comp_def] using hbefore
            have hmoved := pairwise_of_moved hordered (forall_mem_map.mpr
              fun argument hargument =>
                hkeywords argument (mem_append_right _ hargument) star rfl)
            simpa [ofArguments] using hmoved

end Node

namespace Template

variable {env : Environment} {name : Option String} {source : Text}

/-- What was annotated was parsed from the source, and the walk through it left no parenthesis open. -/
theorem exists_walk_of_parseAnnotated {template : Template} {table : TokenTable}
    (h : parseAnnotated env name source = .ok (template, table)) :
    ∃ tree walk, parse env name source = .ok tree ∧
      (Alignment.template tree).run { cursor := { tokens := table.tokens } } = .ok (template, walk) ∧
      walk.grouping = [] ∧ IsTable table.tokens ∧
      ∃ ts last, Spelling.TemplateSpells table.tokens True template ts last := by
  obtain ⟨tree, hparse⟩ := exists_parse_of_parseAnnotated h
  obtain ⟨read, htokens, htable, ts, last, hspells⟩ := exists_tokens_of_parse hparse
  rw [parseAnnotated_of_parse hparse htokens name] at h
  rcases Alignment.walks_template htable hspells with hdeep | ⟨result, walk, hrun, hresult, hwalk⟩
  · have hfault : Alignment.annotate read.tokens tree = .error .tooDeep := by
      rw [Alignment.annotate_eq, hdeep]
      rfl
    obtain ⟨error, herror⟩ := annotateWith_of_error { read with name } hfault
    rw [herror] at h
    cases h
  · have hok : Alignment.annotate read.tokens tree = .ok result := by
      rw [Alignment.annotate_eq, hrun]
      rfl
    rw [annotateWith_of_ok { read with name } hok] at h
    cases h
    exact ⟨tree, walk, hparse, hrun, hwalk.grouping_eq, htable, ts, last, hresult⟩

theorem exists_spells_of_parseAnnotated {template : Template} {table : TokenTable}
    (h : parseAnnotated env name source = .ok (template, table)) :
    IsTable table.tokens ∧ ∃ ts last, Spelling.TemplateSpells table.tokens True template ts last := by
  obtain ⟨_, _, -, -, -, hspells⟩ := exists_walk_of_parseAnnotated h
  exact hspells

/-- The spans of an annotated template are a tree of intervals: the root covers all the tokens, each
node has a span inside of the one above it, and the children of one node share no token. -/
theorem spans_nested (env : Environment) (name : Option String) (source : Text)
    (template : Template) (table : TokenTable)
    (h : parseAnnotated env name source = .ok (template, table)) :
    template.layout.span = some (0, table.tokens.length) ∧
      ∀ item ∈ (Node.template template).preorder 0, ∃ span, item.2.layout.span = some span ∧
        span.1 ≤ span.2 ∧ span.2 ≤ table.tokens.length ∧
        (∀ child ∈ item.2.children, ∃ inner, child.layout.span = some inner ∧
          span.1 ≤ inner.1 ∧ inner.2 ≤ span.2) ∧
        item.2.children.Pairwise fun first second => ∀ span span',
          first.layout.span = some span → second.layout.span = some span' →
            ∀ index, ¬((span.1 ≤ index ∧ index < span.2) ∧ span'.1 ≤ index ∧ index < span'.2) := by
  obtain ⟨htable, ts, last, hspells⟩ := exists_spells_of_parseAnnotated h
  have hroot := (hspells.layout trivial).1
  refine ⟨hroot, fun item hitem => ?_⟩
  obtain ⟨hnested, outer, span, houter, hspan, -, hstop⟩ := (hspells.isNested htable).preorder hitem
  obtain rfl : (0, table.tokens.length) = outer := Option.some.inj (hroot.symm.trans houter)
  have hapart := hnested.pairwise_apart
  cases hnested with
  | @mk _ span' _ hspan' hle hinside _ _ hchildren =>
      obtain rfl : span = span' := Option.some.inj (hspan.symm.trans hspan')
      refine ⟨span, hspan, hle, hstop, fun child hchild => ?_, hapart.imp ?_⟩
      · cases hchildren child hchild with
        | mk hinner _ _ _ _ _ => exact ⟨_, hinner, hinside child hchild _ hinner⟩
      · intro first second h span span' hfirst hsecond index
        have hbetween := h span span' hfirst hsecond
        omega

/-- A starred argument between keywords, an empty subscript and grouping parentheses. -/
theorem spans_nested_of_call :
    ∃ template table,
      parseAnnotated {} none "{% if (f(a=1, *(b), c=2))[] %}{# #}{% endif %}".toList =
        .ok (template, table) ∧
      template.layout.span = some (0, table.tokens.length) ∧
      ∀ item ∈ (Node.template template).preorder 0, ∃ span, item.2.layout.span = some span ∧
        span.1 ≤ span.2 ∧ span.2 ≤ table.tokens.length := by
  have hshallow : (parseAnnotated {} none
      "{% if (f(a=1, *(b), c=2))[] %}{# #}{% endif %}".toList).toBool = true := by
    decide +kernel
  cases hparse : parseAnnotated {} none "{% if (f(a=1, *(b), c=2))[] %}{# #}{% endif %}".toList with
  | error error =>
      rw [hparse] at hshallow
      exact absurd hshallow Bool.false_ne_true
  | ok annotated =>
      obtain ⟨hroot, hall⟩ := spans_nested {} none _ annotated.1 annotated.2 hparse
      refine ⟨annotated.1, annotated.2, rfl, hroot, fun item hitem => ?_⟩
      obtain ⟨span, hspan, hle, hstop, -⟩ := hall item hitem
      exact ⟨span, hspan, hle, hstop⟩

/-- The children of a node are listed in the order of the source exactly if all its keyword arguments
stand before its starred one. -/
theorem children_in_order_iff (env : Environment) (name : Option String) (source : Text)
    (template : Template) (table : TokenTable)
    (h : parseAnnotated env name source = .ok (template, table)) :
    ∀ item ∈ (Node.template template).preorder 0,
      item.2.children.Pairwise Node.Before ↔ ∀ keyword ∈ item.2.arguments.keywords,
        ∀ star ∈ item.2.arguments.star, Node.Before (.keyword keyword) (.expr star) := by
  obtain ⟨htable, ts, last, hspells⟩ := exists_spells_of_parseAnnotated h
  intro item hitem
  obtain ⟨⟨-, -, -, hnodes, hbefore, -⟩, -⟩ := (hspells.isNested htable).preorder hitem
  exact hnodes.pairwise_iff hbefore

/-- A starred argument between keywords, and one behind all of them. -/
theorem children_in_order_iff_of_calls :
    ∃ template table,
      parseAnnotated {} none "{{ f(a, b=1, *(c), d=2) }}{{ x | g(b=1, *c, **d) }}".toList =
        .ok (template, table) ∧
      ∀ item ∈ (Node.template template).preorder 0,
        item.2.children.Pairwise Node.Before ↔ ∀ keyword ∈ item.2.arguments.keywords,
          ∀ star ∈ item.2.arguments.star, Node.Before (.keyword keyword) (.expr star) := by
  have hshallow : (parseAnnotated {} none
      "{{ f(a, b=1, *(c), d=2) }}{{ x | g(b=1, *c, **d) }}".toList).toBool = true := by
    decide +kernel
  cases hparse : parseAnnotated {} none
      "{{ f(a, b=1, *(c), d=2) }}{{ x | g(b=1, *c, **d) }}".toList with
  | error error =>
      rw [hparse] at hshallow
      exact absurd hshallow Bool.false_ne_true
  | ok annotated =>
      exact ⟨annotated.1, annotated.2, rfl,
        children_in_order_iff {} none _ annotated.1 annotated.2 hparse⟩

/-- A keyword behind the starred argument is listed before it. -/
theorem children_out_of_order_at_star :
    ∃ template table, parseAnnotated {} none "{{ f(*a, b=1) }}".toList = .ok (template, table) ∧
      ∃ item ∈ (Node.template template).preorder 0, ¬item.2.children.Pairwise Node.Before := by
  have hspans : ((parseAnnotated {} none "{{ f(*a, b=1) }}".toList).toOption.map fun annotated =>
      annotated.1.body.map fun stmt => (Node.stmt stmt).children.map fun node =>
        node.children.map fun child => child.layout.span) =
      some [[[some (3, 4), some (9, 12), some (6, 7)]]] := by
    decide +kernel
  cases hparse : parseAnnotated {} none "{{ f(*a, b=1) }}".toList with
  | error error =>
      rw [hparse] at hspans
      cases hspans
  | ok annotated =>
      rw [hparse] at hspans
      obtain ⟨stmt, _, hbody, hstmt, -⟩ := List.map_eq_cons_iff.mp (Option.some.inj hspans)
      obtain ⟨node, _, hnodes, hnode, -⟩ := List.map_eq_cons_iff.mp hstmt
      have hitem : (2, node) ∈ (Node.template annotated.1).preorder 0 := by
        refine Node.mem_preorder_of_child (List.mem_map_of_mem (hbody ▸ List.mem_cons_self)) ?_
        exact Node.mem_preorder_of_child (hnodes ▸ List.mem_cons_self) (node.mem_preorder_self 2)
      refine ⟨annotated.1, annotated.2, rfl, _, hitem, fun hordered => ?_⟩
      have hordered' : (node.children.map fun child => child.layout.span).Pairwise
          fun first second => ∃ span span', first = some span ∧ second = some span' ∧
            span.2 ≤ span'.1 := List.pairwise_map.mpr hordered
      rw [hnode] at hordered'
      simp at hordered'

end Template

end JinjaLayout
