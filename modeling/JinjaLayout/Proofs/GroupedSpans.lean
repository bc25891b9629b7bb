import Mathlib
import JinjaLayout.Proofs.StoredPairs

/-!
Whose the parentheses of an annotated tree are. Main statement: an expression and its parts have each
bracket together with its partner, and every opening parenthesis of the source belongs to exactly one
node, which it groups or whose arguments or parameters it opens.
-/

namespace JinjaLayout

open List

namespace Node

/-- Whether the node is an expression other than text, or a part of one. -/
def isPhrase : Node → Bool
  | expr node => !node.isData
  | entry _ | keyword _ | operand _ => true
  | _ => false

/-- Whether the token at the index belongs to the node, and to none of its children. -/
def owns (node : Node) (index : Nat) : Bool :=
  node.covers index && node.children.all fun child => !child.covers index

/-- The parentheses that open the arguments or the parameters of the node. -/
def openings (table : List Token) : Node → List Token
  | expr node => if node.isTuple then [] else node.layout.pairs.map TagPair.opening
  | stmt node => (node.signature? ((stmt node).tokens table)).toList
  | _ => []

/-- Whether the parenthesis opens the arguments or the parameters of the node. -/
def passes (table : List Token) (opening : Token) (node : Node) : Bool :=
  node.owns opening.index && (node.openings table).contains opening

/-- Whether the parenthesis groups the node: only opening ones stand before it, and only closing ones
behind its partner. -/
def claims (table : List Token) (opening : Token) (node : Node) : Bool :=
  node.isPhrase && node.owns opening.index && opening.partner.any fun closing =>
    node.covers closing && (node.tokens table).all fun token =>
      (decide (opening.index < token.index) || token.isOperator "(") &&
        (decide (token.index < closing) || token.isOperator ")")

/-! ### The owner of a token -/

theorem Apart.covers_eq_false {first second : Node} {index : Nat} (h : Apart first second)
    (hfirst : first.covers index) : second.covers index = false := by
  refine Bool.eq_false_iff.mpr fun hsecond => ?_
  simp only [covers, Option.any_eq_true, Bool.and_eq_true, decide_eq_true_eq] at hfirst hsecond
  obtain ⟨span, hspan, hfirst⟩ := hfirst
  obtain ⟨span', hspan', hsecond⟩ := hsecond
  have hbetween := h span span' hspan hspan'
  omega

theorem sum_covers {nodes : List Node} (h : nodes.Pairwise Apart) (index : Nat) :
    (nodes.map fun node => (node.covers index).toNat).sum =
      (nodes.any fun node => node.covers index).toNat := by
  induction h with
  | nil => rfl
  | @cons node nodes hnode _ ih =>
      rw [map_cons, sum_cons, ih, any_cons]
      cases hcovers : node.covers index with
      | false => simp
      | true =>
          have hnone : (nodes.any fun other => other.covers index) = false :=
            any_eq_false.mpr fun other hother =>
              Bool.eq_false_iff.mp ((hnode other hother).covers_eq_false hcovers)
          simp [hnone]

theorem IsNested.countP_owns {node : Node} (h : node.IsNested) (index depth : Nat) :
    (node.preorder depth).countP (fun item => item.2.owns index) = (node.covers index).toNat := by
  induction h generalizing depth with
  | @mk node span nodes hspan hle hinside hnodes hbefore hchildren ih =>
      have hsum := sum_covers (IsNested.mk hspan hle hinside hnodes hbefore hchildren).pairwise_apart
        index
      have hcounts : node.children.attach.map (fun child =>
          (child.1.preorder (depth + 1)).countP fun item => item.2.owns index) =
          node.children.map fun child => (child.covers index).toNat := by
        rw [map_congr_left fun child _ => ih child.1 child.2 (depth + 1)]
        exact attach_map_val (f := fun child : Node => (child.covers index).toNat)
      have hany : (node.children.any fun child => child.covers index) = true →
          node.covers index := by
        simp only [any_eq_true, covers, Option.any_eq_true, Bool.and_eq_true, decide_eq_true_eq]
        rintro ⟨child, hchild, inner, hinner, hstart, hstop⟩
        have hwithin := hinside child hchild inner hinner
        exact ⟨span, hspan, by omega, by omega⟩
      rw [Node.preorder, countP_cons, countP_flatMap, Function.comp_def, hcounts, hsum,
        owns, all_eq_not_any_not]
      cases hchild : node.children.any fun child => child.covers index with
      | false => cases node.covers index <;> simp [hchild]
      | true => simp [hchild, hany hchild]

end Node

namespace Spelling

open Grammar

variable {table : List Token} {node : Node} {token opening : Token} {ts us : List Token}

theorem mem_significant_of_isOperator {symbol : Text} (h : token.isOperator symbol)
    (htoken : token ∈ table) : token ∈ significant table := by
  refine mem_filter.mpr ⟨htoken, ?_⟩
  unfold Token.isOperator Cursor.fits at h
  unfold Token.isSignificant
  split at h
  · simp [*]
  · simp at h

/-! ### Brackets and their partners -/

theorem Matched.exists_partner {before after : List Token} (h : Matched ts) (htable : IsTable table)
    (hsplit : significant table = before ++ (ts ++ after)) (htoken : token ∈ ts)
    (hbracket : isBracket token) :
    ∃ partner ∈ ts, token.partner = some partner.index := by
  induction h generalizing before after with
  | nil => simp at htoken
  | @plain first ts hplain _ ih =>
      rcases mem_cons.mp htoken with rfl | htoken
      · rw [isBracket_of_isPlain hplain] at hbracket
        cases hbracket
      · have hrest : significant table = (before ++ [first]) ++ (ts ++ after) := by simpa using hsplit
        obtain ⟨partner, hmem, hpartner⟩ := ih hrest htoken
        exact ⟨partner, mem_cons_of_mem _ hmem, hpartner⟩
  | @pair opening closing pair ts us hpair hopening hclosing hinner _ ihInner ih =>
      obtain ⟨hfirst, hsecond⟩ := hinner.partners htable (by simpa using hsplit) pair hpair hopening
        hclosing
      simp only [mem_cons, mem_append] at htoken ⊢
      rcases htoken with rfl | htoken | rfl | htoken
      · exact ⟨closing, by simp, hfirst⟩
      · have hrest : significant table =
            (before ++ [opening]) ++ (ts ++ closing :: (us ++ after)) := by
          simpa using hsplit
        obtain ⟨partner, hmem, hpartner⟩ := ihInner hrest htoken
        exact ⟨partner, by simp [hmem], hpartner⟩
      · exact ⟨opening, by simp, hsecond⟩
      · have hrest : significant table =
            (before ++ opening :: (ts ++ [closing])) ++ (us ++ after) := by
          simpa using hsplit
        obtain ⟨partner, hmem, hpartner⟩ := ih hrest htoken
        exact ⟨partner, by simp [hmem], hpartner⟩

theorem ExprPart.matched (h : ExprPart (Spells True) node ts us) :
    (ts ≠ [] ∧ node.layout.span = some (spanOf ts) ∧ Matched ts) ∨
      ∃ index, node.layout.span = some (index, index) := by
  cases h with
  | expr hexpr => exact .inl ⟨hexpr.ne_nil, hexpr.span_eq, hexpr.matched⟩
  | entry hentry =>
      have hmatched := hentry.matched fun _ _ _ _ => Spells.matched
      cases hentry with
      | mk _ _ _ hmarked => exact .inl ⟨by simp, hmarked trivial, hmatched⟩
  | keyword hargument =>
      have hmatched := hargument.matched fun _ _ _ _ => Spells.matched
      cases hargument with
      | keyword _ _ _ hmarked => exact .inl ⟨by simp, hmarked trivial, hmatched⟩
  | operand hoperand =>
      have hmatched := hoperand.matched fun _ _ _ _ => Spells.matched
      cases hoperand with
      | mk _ hvalue hmarked => exact .inl ⟨by simp [hvalue.ne_nil], hmarked trivial, hmatched⟩
  | empty _ hspan => exact .inr ⟨_, hspan⟩

theorem Located.matched (h : Located table node) (hphrase : node.isPhrase) :
    (∃ ts us, ts ++ us <:+ significant table ∧ ts ≠ [] ∧ node.layout.span = some (spanOf ts) ∧
      Matched ts) ∨ ∃ index, node.layout.span = some (index, index) := by
  cases h with
  | template => simp [Node.isPhrase] at hphrase
  | @part _ ts us hpart hsuffix =>
    cases hpart with
    | part hpart => exact hpart.matched.imp (fun hboth => ⟨ts, us, hsuffix, hboth⟩) id
    | option hvalue hspan =>
        exact .inl ⟨ts, us, hsuffix, hvalue.ne_nil, hspan.trans hvalue.span_eq, hvalue.matched⟩
    | text | branch | stmt => simp [Node.isPhrase, Expr.isData] at hphrase

theorem Located.covers_partner (h : Located table node) (htable : IsTable table)
    (hphrase : node.isPhrase) (htoken : token ∈ table) (hbracket : isBracket token)
    (hcovers : node.covers token.index) :
    ∃ partner, token.partner = some partner ∧ node.covers partner := by
  have hread : token ∈ significant table := by
    obtain ⟨pair, -, hpair⟩ := any_eq_true.mp hbracket
    rcases Bool.or_eq_true_iff.mp hpair with hpair | hpair
    · exact mem_significant_of_isOperator hpair htoken
    · exact mem_significant_of_isOperator hpair htoken
  obtain ⟨ts, us, hsuffix, hne, hspan, hmatched⟩ | ⟨index, hspan⟩ := h.matched hphrase
  · have htokens : node.tokens table = ts := tokens_eq (rising_wide htable).narrow hsuffix hne hspan
    obtain ⟨before, hbefore⟩ := hsuffix
    have hmem : token ∈ ts := htokens ▸ mem_filter.mpr ⟨hread, hcovers⟩
    obtain ⟨partner, hpartner, heq⟩ := hmatched.exists_partner htable hbefore.symm hmem hbracket
    rw [← htokens] at hpartner
    exact ⟨partner.index, heq, (mem_filter.mp hpartner).2⟩
  · simp only [Node.covers, hspan, Option.any_some, Bool.and_eq_true, decide_eq_true_eq] at hcovers
    omega

/-! ### Parentheses of a node -/

theorem covers_of_owns {child : Node} {index : Nat} (h : node.owns index)
    (hchild : child ∈ node.children) : child.covers index = false := by
  rw [Node.owns, Bool.and_eq_true, all_eq_true] at h
  simpa using h.2 child hchild

/-- An opening parenthesis that belongs to a node, but to none of its children, is its own. -/
theorem Laid.own_of_owns {ends : Ends} {own : Token → Prop} {nodes : List Node}
    (h : Laid ends own nodes ts) (hmem : opening ∈ significant table)
    (hparen : opening.isOperator "(") (howns : node.owns opening.index)
    (hnodes : node.Lists nodes) (hrising : Rising ends (significant table))
    (hsuffix : ts ++ us <:+ significant table) (hne : ts ≠ [])
    (hspan : node.layout.span = some (extentOf ends ts)) : own opening := by
  have hin : opening ∈ ts := by
    rw [← tokens_eq hrising hsuffix hne hspan]
    exact mem_filter.mpr ⟨hmem, (Bool.and_eq_true_iff.mp howns).1⟩
  have hsub := (sublist_append_left ts us).trans hsuffix.sublist
  refine (h.own_or_covers (hrising.sublist hsub) hin hparen).resolve_right ?_
  rintro ⟨child, hchild, hcovers⟩
  rw [covers_of_owns howns ((Lists.perm hnodes).subset hchild)] at hcovers
  cases hcovers

theorem Matched.exists_word (h : Matched ts) (hne : ts ≠ []) :
    ∃ word ∈ ts, word.isOperator "(" = false := by
  cases h with
  | nil => exact absurd rfl hne
  | plain hplain _ => exact ⟨_, mem_cons_self, Bool.eq_false_iff.mpr (free_of_isPlain hplain)⟩
  | @pair opening closing pair ts us hpair _ hclosing _ _ =>
      have hsymbols : ∀ pair ∈ brackets, pair.2 ≠ "(".toList := by decide
      exact ⟨closing, by simp,
        Bool.eq_false_iff.mpr (free_of_isOperator hclosing (hsymbols pair hpair))⟩

theorem CallSpelled.exists_cons {arguments : Arguments Expr} {pair : TagPair}
    (h : CallSpelled True (Spells True) arguments pair ts us) : ∃ back, ts = pair.opening :: back := by
  cases h
  exact ⟨_, rfl⟩

theorem Core.word_before {place : Place} {expr : Expr} {pairs : List TagPair} {pair : TagPair}
    (h : Core True (Spells True) place expr pairs ts us) (hpair : pair ∈ pairs) :
    expr.isTuple = false ∧ ∃ front back, ts = front ++ pair.opening :: back ∧
      ∃ word ∈ front, word.isOperator "(" = false := by
  cases h with
  | @filter _ operand name arguments pairs layout bar ts ts' ts'' us _ _ hbar _ harguments =>
      cases harguments with
      | none => simp at hpair
      | call hcall =>
          obtain rfl := mem_singleton.mp hpair
          obtain ⟨back, rfl⟩ := hcall.exists_cons
          exact ⟨rfl, ts ++ bar :: ts', back, by simp, bar, by simp,
            Bool.eq_false_iff.mpr (free_of_isOperator hbar (by decide))⟩
  | @blockFilter name arguments pairs layout bars ts ts' us _ hname harguments =>
      cases harguments with
      | none => simp at hpair
      | call hcall =>
          obtain rfl := mem_singleton.mp hpair
          obtain ⟨back, rfl⟩ := hcall.exists_cons
          obtain ⟨_, word, rest, rfl, hword⟩ := hname.exists_cons
          exact ⟨rfl, bars ++ word :: rest, back, by simp, word, by simp,
            Bool.eq_false_iff.mpr (free_of_isName hword)⟩
  | @test operand name arguments pairs layout word nots ts ts' ts'' us _ hword _ _ harguments =>
      cases harguments with
      | none | bare => simp at hpair
      | call hcall =>
          obtain rfl := mem_singleton.mp hpair
          obtain ⟨back, rfl⟩ := hcall.exists_cons
          exact ⟨rfl, ts ++ word :: (nots ++ ts'), back, by simp, word, by simp,
            Bool.eq_false_iff.mpr (free_of_isName hword)⟩
  | @call operand arguments pair layout ts ts' us hoperand harguments =>
      obtain rfl := mem_singleton.mp hpair
      obtain ⟨back, rfl⟩ := harguments.exists_cons
      exact ⟨rfl, ts, back, rfl, hoperand.matched.exists_word hoperand.ne_nil⟩
  | _ => simp at hpair

theorem claims_eq_false {word : Token} (hword : word ∈ node.tokens table)
    (hlt : word.index < opening.index) (hnot : word.isOperator "(" = false) :
    node.claims table opening = false := by
  refine Bool.eq_false_iff.mpr fun hclaims => ?_
  simp only [Node.claims, Bool.and_eq_true, Option.any_eq_true, all_eq_true, Bool.or_eq_true,
    decide_eq_true_eq] at hclaims
  obtain ⟨-, closing, -, -, hall⟩ := hclaims
  have hfirst := (hall word hword).1
  rw [hnot] at hfirst
  simp at hfirst
  omega

variable (htable : IsTable table)

include htable

theorem Wraps.claims {ts' : List Token} {groups : List (Token × Token)} {pair : Token × Token}
    (h : Wraps ts ts' groups) (hmatched : Matched ts) (hpair : pair ∈ groups)
    (hsuffix : ts' ++ us <:+ significant table) (htokens : node.tokens table = ts')
    (hphrase : node.isPhrase) (howns : node.owns pair.1.index) :
    node.claims table pair.1 := by
  obtain ⟨hopening, hclosing, front, inner, back, rfl, hinner, hfront, hback⟩ :=
    h.split hmatched hpair
  have hsorted := htable.pairwise_significant.sublist
    ((sublist_append_left _ us).trans hsuffix.sublist)
  obtain ⟨before, hbefore⟩ := hsuffix
  have hsplit : significant table =
      (before ++ front) ++ pair.1 :: (inner ++ pair.2 :: (back ++ us)) := by
    simpa using hbefore.symm
  have hpartner := (hinner.partners htable hsplit ("(".toList, ")".toList) (by decide) hopening
    hclosing).1
  have hcovers : node.covers pair.2.index := by
    have hmem : pair.2 ∈ node.tokens table := by simp [htokens]
    exact (mem_filter.mp hmem).2
  simp only [pairwise_append, pairwise_cons, mem_append, mem_cons] at hsorted
  obtain ⟨-, ⟨hopen, -, ⟨-, -⟩, hclose⟩, hbefore'⟩ := hsorted
  simp only [Node.claims, hphrase, howns, hpartner, Option.any_some, hcovers, htokens, Bool.true_and,
    all_eq_true, mem_append, mem_cons, Bool.and_eq_true, Bool.or_eq_true,
    decide_eq_true_eq]
  rintro token (htoken | rfl | htoken | rfl | htoken)
  · exact ⟨.inr (hfront token htoken), .inl (hbefore' token htoken _ (by simp))⟩
  · exact ⟨.inr hopening, .inl (hopen _ (by simp))⟩
  · exact ⟨.inl (hopen _ (by simp [htoken])), .inl (hclose token htoken _ (by simp))⟩
  · exact ⟨.inl (hopen _ (by simp)), .inr hclosing⟩
  · exact ⟨.inl (hopen _ (by simp [htoken])), .inr (hback token htoken)⟩

omit htable in
theorem Wraps.sublist {ts' : List Token} {groups : List (Token × Token)} (h : Wraps ts ts' groups) :
    ts.Sublist ts' := by
  induction h with
  | bare => exact .refl _
  | paren _ _ _ ih => exact (ih.trans (sublist_append_left ..)).cons _

theorem Spells.claims_eq {place : Place} {expr : Expr} (h : Spells True place expr ts us)
    (hsuffix : ts ++ us <:+ significant table) (hmem : opening ∈ significant table)
    (hparen : opening.isOperator "(") (howns : (Node.expr expr).owns opening.index) :
    (Node.expr expr).claims table opening = !((Node.expr expr).openings table).contains opening := by
  have hrising := (rising_wide htable).narrow
  have htokens : (Node.expr expr).tokens table = ts :=
    tokens_eq hrising hsuffix h.ne_nil h.span_eq
  cases h.unfold with
  | @group _ _ pairs groups inner _ _ hcore hwraps hne hmarked =>
      obtain ⟨nodes, hnodes, hrow⟩ : ∃ nodes, _ ∧ Row _ (fun token =>
          token ∈ pairs.map TagPair.opening ∨ token ∈ groups.map Prod.fst) nodes _ _ :=
        hcore.row fun pair hpair => .inl (mem_map_of_mem hpair)
      have hlaid := (hwraps.row hrow fun pair hpair => .inr (mem_map_of_mem hpair)).laid
        fun _ _ _ hpart => hpart.laid (fun _ _ _ _ => Spells.laid) _
      have hown := hlaid.own_of_owns hmem hparen howns hnodes hrising hsuffix hne (hmarked trivial).1
      have hopenings : (Node.expr expr).openings table = pairs.map TagPair.opening := by
        rw [Node.openings, (hmarked trivial).2, ownPairs]
        split
        · have hnone : pairs = [] := eq_nil_iff_forall_not_mem.mpr fun pair hpair => by
            simp_all [(hcore.word_before hpair).1]
          simp [hnone]
        · simp
      rw [hopenings]
      -- A word stands before the parentheses of arguments, so they group nothing.
      by_cases hpass : opening ∈ pairs.map TagPair.opening
      · obtain ⟨pair, hpair, rfl⟩ := mem_map.mp hpass
        obtain ⟨-, front, back, rfl, word, hword, hnot⟩ := hcore.word_before hpair
        have hsorted := htable.pairwise_significant.sublist
          ((hwraps.sublist.trans (sublist_append_left _ us)).trans hsuffix.sublist)
        have hlt := (pairwise_append.mp hsorted).2.2 word hword _ mem_cons_self
        rw [claims_eq_false (htokens ▸ hwraps.sublist.subset (mem_append_left _ hword)) hlt hnot]
        simpa using hpass
      · obtain ⟨pair, hpair, rfl⟩ := mem_map.mp (hown.resolve_left hpass)
        rw [hwraps.claims htable (hcore.matched fun _ _ _ _ => Spells.matched) hpair hsuffix htokens
          (by simp [Node.isPhrase, h.isData_eq_false]) howns]
        simpa using hpass
  | @inline operand layout _ _ hoperand _ hmarked =>
      exact ((hoperand.laid fun _ => False).own_of_owns hmem hparen howns .children hrising hsuffix
        hoperand.ne_nil (hmarked trivial).1).elim

/-- A parenthesis that belongs to a node, but to none of its children, groups it or opens its
arguments or parameters. -/
theorem Located.claims_eq (h : Located table node) (hmem : opening ∈ significant table)
    (hparen : opening.isOperator "(") (howns : node.owns opening.index) :
    node.claims table opening = !(node.openings table).contains opening := by
  have hwide := rising_wide htable
  -- Where the children take all the parentheses, the node has none of its own.
  have hnone : ∀ {ends ts us}, Row (LaidAs ends) (fun _ => False) node.children ts us →
      Rising ends (significant table) → ts ++ us <:+ significant table → ts ≠ [] →
      node.layout.span = some (extentOf ends ts) → False :=
    fun hrow => hrow.laidAs.own_of_owns hmem hparen howns .children
  cases h with
  | @template node ts last hspells =>
      have hlaid : Laid (wide table) (fun _ => False) (node.body.map .stmt) ts :=
        Chained.laidNodes hspells.body
      rw [hspells.split] at hmem hwide
      have hin : opening ∈ ts := (mem_append.mp hmem).resolve_right fun hlast =>
        free_of_isKind (mem_singleton.mp hlast ▸ hspells.ends) (by decide) hparen
      obtain hfalse | ⟨child, hchild, hcovers⟩ := hlaid.own_or_covers
        (hwide.sublist (sublist_append_left ..)) hin hparen
      · exact hfalse.elim
      · rw [covers_of_owns howns hchild] at hcovers
        cases hcovers
  | @part _ ts us hpart hsuffix =>
    cases hpart with
    | part hpart =>
        obtain ⟨hne, hspan, -⟩ | ⟨index, hspan⟩ := hpart.matched
        · cases hpart with
          | expr hexpr => exact hexpr.claims_eq htable hsuffix hmem hparen howns
          | entry hentry =>
              exact (hnone (hentry.row fun _ _ _ _ => Spells.laid) hwide.narrow hsuffix hne
                hspan).elim
          | keyword hargument =>
              exact (hnone (hargument.row fun _ _ _ _ => Spells.laid) hwide.narrow hsuffix hne
                hspan).elim
          | operand hoperand =>
              exact (hnone (hoperand.row fun _ _ _ _ => Spells.laid) hwide.narrow hsuffix hne
                hspan).elim
          | empty hopening _ =>
              exact (hnone (.token (free_of_isOperator hopening (by decide)) .nil) hwide.narrow
                hsuffix hne hspan).elim
        · have hcovers := (Bool.and_eq_true_iff.mp howns).1
          simp only [Node.covers, hspan, Option.any_some, Bool.and_eq_true,
            decide_eq_true_eq] at hcovers
          omega
    | text htext =>
        cases htext with
        | data htoken _ hmarked =>
            exact (hnone (.token (free_of_isKind htoken (by decide)) .nil) hwide hsuffix (by simp)
              (hmarked trivial).2).elim
    | option hvalue hspan =>
        exact (hnone (.one hvalue.laid) hwide.narrow hsuffix hvalue.ne_nil
          (hspan.trans hvalue.span_eq)).elim
    | branch hbranch =>
        have hrow : Row _ (fun _ => False) _ _ us :=
          hbranch.row (fun _ _ _ _ => Spells.laidWide) fun _ _ _ => StmtSpells.laid
        cases hbranch with
        | mk htag _ hsealed =>
            exact (hnone hrow hwide hsuffix (by simp [Alignment.TagSpelled.ne_nil htag])
              (hsealed trivial).1).elim
    | @stmt node _ _ hstmt =>
        have hrow : Row _ (· ∈ node.signature? ts) (Node.ofStmt node) ts us :=
          hstmt.unfold.row fun _ => id
        have hne := hstmt.ne_nil
        have hlaid := hrow.laid fun _ _ _ hpart => hpart.laid (fun _ _ _ => StmtSpells.laid) _
        have hown := hlaid.own_of_owns hmem hparen howns .children hwide hsuffix hne hstmt.span_eq
        have htokens : (Node.stmt node).tokens table = ts := tokens_eq hwide hsuffix hne hstmt.span_eq
        simp [Node.claims, Node.isPhrase, Node.openings, htokens, Option.mem_def.mp hown]

end Spelling

namespace Template

/-- Parentheses are attributed consistently. An expression and its parts have each bracket together
with its partner; the walk ends with every grouping parenthesis closed; and every opening parenthesis
of the source is claimed by exactly one node, unless it opens the arguments or parameters of one. -/
theorem parentheses_attributed (env : Environment) (name : Option String) (source : Text)
    (template : Template) (table : TokenTable)
    (h : parseAnnotated env name source = .ok (template, table)) :
    (∀ item ∈ (Node.template template).preorder 0, item.2.isPhrase = true →
      ∀ token ∈ table.tokens, Spelling.isBracket token = true → item.2.covers token.index = true →
        ∃ partner, token.partner = some partner ∧ item.2.covers partner = true) ∧
    (∃ tree walk, parse env name source = .ok tree ∧
      (Alignment.template tree).run { cursor := { tokens := table.tokens } } = .ok (template, walk) ∧
      walk.grouping = []) ∧
    ∀ opening ∈ table.tokens, opening.isOperator "(" = true →
      ((Node.template template).preorder 0).countP
          (fun item => item.2.claims table.tokens opening) +
        ((Node.template template).preorder 0).countP
          (fun item => item.2.passes table.tokens opening) = 1 := by
  obtain ⟨tree, walk, hparse, hrun, hgrouping, htable, ts, last, hspells⟩ :=
    exists_walk_of_parseAnnotated h
  have hlocated : ∀ item ∈ (Node.template template).preorder 0,
      Spelling.Located table.tokens item.2 := fun item => hspells.located.preorder
  refine ⟨fun item hitem hphrase token htoken hbracket => ?_, ⟨tree, walk, hparse, hrun, hgrouping⟩,
    fun opening hopening hparen => ?_⟩
  · exact (hlocated item hitem).covers_partner htable hphrase htoken hbracket
  · have hcovers : (Node.template template).covers opening.index = true := by
      obtain ⟨i, hi, rfl⟩ := List.getElem_of_mem hopening
      simpa [Node.covers, Node.layout, (hspells.layout trivial).1, htable.index_eq i hi] using hi
    have hread := Spelling.mem_significant_of_isOperator hparen hopening
    have hclaims : ((Node.template template).preorder 0).countP
        (fun item => item.2.claims table.tokens opening) =
        ((Node.template template).preorder 0).countP fun item =>
          item.2.owns opening.index && !(item.2.openings table.tokens).contains opening := by
      refine List.countP_congr fun item hitem => ?_
      cases howns : item.2.owns opening.index with
      | false => simp [Node.claims, howns]
      | true => simp [(hlocated item hitem).claims_eq htable hread hparen howns]
    have howner := (hspells.isNested htable).countP_owns opening.index 0
    rw [hcovers, List.countP_eq_countP_filter_add _ _
      fun item => (item.2.openings table.tokens).contains opening, List.countP_filter,
      List.countP_filter] at howner
    rw [hclaims, Nat.add_comm]
    exact howner

/-- Groups around a name, a tuple, a default and a test, among parentheses of arguments. -/
theorem parentheses_attributed_of_call :
    ∃ template table, parseAnnotated {} none
        ("{% call(a=(1)) f() %}{{ ((f)(x, (y)) | g((1, 2))) is not h(()) }}" ++
          "{% endcall %}").toList = .ok (template, table) ∧
      table.tokens.countP (·.isOperator "(") = 11 ∧
      ∀ opening ∈ table.tokens, opening.isOperator "(" = true →
        ((Node.template template).preorder 0).countP
            (fun item => item.2.claims table.tokens opening) +
          ((Node.template template).preorder 0).countP
            (fun item => item.2.passes table.tokens opening) = 1 := by
  have hcount : ((parseAnnotated {} none
      ("{% call(a=(1)) f() %}{{ ((f)(x, (y)) | g((1, 2))) is not h(()) }}" ++
        "{% endcall %}").toList).toOption.map fun annotated =>
          annotated.2.tokens.countP (·.isOperator "(")) = some 11 := by
    decide +kernel
  cases hparse : parseAnnotated {} none
      ("{% call(a=(1)) f() %}{{ ((f)(x, (y)) | g((1, 2))) is not h(()) }}" ++
        "{% endcall %}").toList with
  | error error =>
      rw [hparse] at hcount
      cases hcount
  | ok annotated =>
      rw [hparse] at hcount
      exact ⟨annotated.1, annotated.2, rfl, Option.some.inj hcount,
        (parentheses_attributed {} none _ annotated.1 annotated.2 hparse).2.2⟩

end Template

end JinjaLayout
