import Mathlib
import JinjaLayout.Proofs.ExpressionWalks

/-!
Parentheses around an expression. They are opened together with those of its first part, and closed
one by one: a closing parenthesis belongs to the expression whose first token stands right behind the
opening one.
-/

namespace JinjaLayout.Alignment

open Spelling Grammar List

/-! ### Tokens before a token -/

theorem significant_take_index {table before after : List Token} {token : Token}
    (htable : IsTable table) (hsplit : significant table = before ++ token :: after) :
    significant (table.take token.index) = before := by
  obtain ⟨front, rest, rfl, hfront, hrest⟩ := filter_eq_append_iff.mp hsplit
  obtain ⟨skipped, rest, rfl, hskipped, -, -⟩ := filter_eq_cons_iff.mp hrest
  have hindex : token.index = (front ++ skipped).length := by
    have hget := htable.index_eq (front ++ skipped).length (by simp)
    simpa using hget
  have hnone : significant skipped = [] := filter_eq_nil_iff.mpr hskipped
  rw [hindex, ← append_assoc, take_left' rfl, significant_append, hnone, append_nil]
  exact hfront

theorem significantBefore_eq (cursor : Cursor) (index : Nat) :
    cursor.significantBefore index = (significant (cursor.tokens.take index)).getLast? := by
  rw [Cursor.significantBefore, ← head?_filter, filter_reverse, head?_reverse]
  rfl

/-! ### The parenthesis that the next token closes -/

section Around

variable {table done ts us : List Token} {groups : List Nat} {walk : Walk} {extent : Extent}
  (htable : IsTable table)

include htable

theorem significantBefore_of_inside (hwalk : Inside table (done ++ ts) us groups walk)
    (hinner : extent.inner = ts.head?.map Token.index) {token : Token} (hnext : us.head? = some token) :
    walk.cursor.significantBefore (extent.inner.getD token.index) = done.getLast? := by
  rw [significantBefore_eq, hwalk.tokens_eq, hinner]
  obtain ⟨us, rfl⟩ : ∃ us', us = token :: us' := by
    cases us with
    | nil => simp at hnext
    | cons other us => exact ⟨us, by simpa using hnext⟩
  have hsplit := hwalk.split
  cases ts with
  | nil =>
      rw [append_nil] at hsplit
      exact congrArg getLast? (significant_take_index htable hsplit)
  | cons first ts =>
      rw [append_assoc, cons_append] at hsplit
      exact congrArg getLast? (significant_take_index htable hsplit)

theorem groupAround?_eq_some_iff (hwalk : Inside table (done ++ ts) us groups walk)
    (hinner : extent.inner = ts.head?.map Token.index) {group : Nat} :
    groupAround? walk extent = some group ↔ ∃ closing opening, us.head? = some closing ∧
      closing.isOperator ")" ∧ done.getLast? = some opening ∧
      closing.partner = some opening.index ∧ opening.index ∈ groups ∧ group = opening.index := by
  unfold groupAround?
  rw [hwalk.peek, hwalk.grouping_eq]
  constructor
  · intro h
    obtain ⟨closing, hclosing, h⟩ := Option.bind_eq_some_iff.mp h
    obtain ⟨opening, hpartner, h⟩ := Option.bind_eq_some_iff.mp h
    obtain ⟨_, hguard, h⟩ := Option.bind_eq_some_iff.mp h
    rw [significantBefore_of_inside htable hwalk hinner hclosing] at h
    obtain ⟨before, hbefore, h⟩ := Option.bind_eq_some_iff.mp h
    obtain ⟨_, hindex, h⟩ := Option.bind_eq_some_iff.mp h
    simp only [guard, Option.ite_none_right_eq_some, failure, Bool.and_eq_true,
      contains_iff_mem] at hguard
    simp only [guard, Option.ite_none_right_eq_some, failure, beq_iff_eq] at hindex
    obtain ⟨rfl, -⟩ := hindex
    exact ⟨closing, before, hclosing, hguard.1.1, hbefore, hpartner, hguard.1.2,
      (Option.some.inj h).symm⟩
  · rintro ⟨closing, opening, hnext, hclosing, hbefore, hpartner, hmem, rfl⟩
    have hfits : Cursor.fits closing .operator (some ")") := hclosing
    have hcontains : groups.contains opening.index := contains_iff_mem.mpr hmem
    simp only [hnext, hpartner, hfits, hcontains, bind, Option.bind_some,
      significantBefore_of_inside htable hwalk hinner hnext, hbefore]
    simp

theorem groupAround?_eq_none (hwalk : Inside table (done ++ ts) us groups walk)
    (hinner : extent.inner = ts.head?.map Token.index)
    (hstop : NotNext (·.isOperator ")") us ∨ Apart groups done) :
    groupAround? walk extent = none := by
  refine Option.eq_none_iff_forall_ne_some.mpr fun group hgroup => ?_
  obtain ⟨closing, opening, hnext, hclosing, hbefore, -, hmem, -⟩ :=
    (groupAround?_eq_some_iff htable hwalk hinner).mp hgroup
  rcases hstop with hnot | hapart
  · exact absurd hclosing (Bool.eq_false_iff.mp (hnot closing hnext))
  · have hlt := hapart opening.index hmem
    simp [spanOf, hbefore] at hlt

theorem groupAround?_of_pair {opening closing : Token} {us : List Token}
    (hwalk : Inside table (done ++ [opening] ++ ts) (closing :: us) (opening.index :: groups) walk)
    (hinner : extent.inner = ts.head?.map Token.index) (hmatched : Matched ts)
    (hopening : opening.isOperator "(") (hclosing : closing.isOperator ")") :
    groupAround? walk extent = some opening.index := by
  have hsplit : significant table = done ++ opening :: (ts ++ closing :: us) := by
    simpa using hwalk.split
  obtain ⟨-, hpartner⟩ := hmatched.partners htable hsplit ("(".toList, ")".toList)
    (by decide) hopening hclosing
  exact (groupAround?_eq_some_iff htable hwalk hinner).mpr
    ⟨closing, opening, rfl, hclosing, by simp, hpartner, mem_cons_self, rfl⟩

end Around

/-! ### The tokens taken -/

/-- Only tokens from the given ones have been taken. -/
structure Extent.Within (extent : Extent) (ts : List Token) : Prop where
  start_ge : ∀ index ∈ extent.start, (spanOf ts).1 ≤ index
  stop_le : extent.stop ≤ (spanOf ts).2

/-- All the given tokens have been taken. -/
structure Extent.Fills (extent : Extent) (ts : List Token) : Prop where
  start_eq : extent.start = some (spanOf ts).1
  stop_eq : extent.stop = (spanOf ts).2

namespace Extent

variable {extent : Extent} {ts : List Token}

theorem within_empty : ({} : Extent).Within ts :=
  ⟨by simp, Nat.zero_le _⟩

theorem spanOf_bounds (hincreasing : Increasing ts) {token : Token} (htoken : token ∈ ts) :
    (spanOf ts).1 ≤ token.index ∧ token.index + 1 ≤ (spanOf ts).2 := by
  obtain ⟨front, back, rfl⟩ := append_of_mem htoken
  constructor
  · cases front with
    | nil => simp [spanOf]
    | cons first front =>
        have hlt := (pairwise_cons.mp hincreasing).1 token (by simp)
        simpa [spanOf] using hlt.le
  · rcases eq_nil_or_concat back with rfl | ⟨back, last, rfl⟩
    · simp [spanOf]
    · have hlt := (pairwise_cons.mp (pairwise_append.mp hincreasing).2.1).1 last (by simp)
      simp only [spanOf, concat_eq_append, ← cons_append, ← append_assoc,
        getLast?_concat, Option.map_some, Option.getD_some]
      omega

theorem mem_earliest {before : Option Nat} {index bound : Nat}
    (hbefore : ∀ other ∈ before, bound ≤ other) (hindex : bound ≤ index) :
    ∀ other ∈ earliest before index, bound ≤ other := by
  intro other hother
  cases before with
  | none =>
      obtain rfl : index = other := by simpa [earliest] using hother
      exact hindex
  | some first =>
      have hfirst := hbefore first rfl
      simp only [earliest, Option.elim_some, Option.mem_def, Option.some.injEq] at hother
      omega

theorem earliest_eq {before : Option Nat} {index : Nat} (hbefore : ∀ other ∈ before, index ≤ other) :
    earliest before index = some index := by
  cases before with
  | none => rfl
  | some first =>
      have hfirst := hbefore first rfl
      simp [earliest, hfirst]

theorem Within.takeOuter (h : extent.Within ts) (hincreasing : Increasing ts) {token : Token}
    (htoken : token ∈ ts) : (extent.takeOuter token.index).Within ts := by
  obtain ⟨hge, hle⟩ := spanOf_bounds hincreasing htoken
  exact ⟨mem_earliest h.start_ge hge, max_le h.stop_le hle⟩

theorem Within.fills {opening closing : Token} {inner : Option Nat}
    (h : extent.Within (opening :: (ts ++ [closing])))
    (hincreasing : Increasing (opening :: (ts ++ [closing]))) :
    Fills { (extent.takeOuter opening.index).takeOuter closing.index with inner }
      (opening :: (ts ++ [closing])) := by
  have hspan : spanOf (opening :: (ts ++ [closing])) = (opening.index, closing.index + 1) := by
    rw [spanOf, ← cons_append, getLast?_concat]
    rfl
  have hlt : opening.index < closing.index := (pairwise_cons.mp hincreasing).1 closing (by simp)
  obtain ⟨hge, hle⟩ := h
  rw [hspan] at hge hle
  refine ⟨?_, ?_⟩
  · rw [hspan]
    change earliest (earliest extent.start opening.index) closing.index = some opening.index
    rw [earliest_eq hge]
    simp [earliest, hlt.le]
  · rw [hspan]
    change max (max extent.stop (opening.index + 1)) (closing.index + 1) = closing.index + 1
    dsimp only at hle
    omega

theorem Within.over_fills (h : extent.Within ts) (hne : ts ≠ []) : (extent.over ts).Fills ts := by
  rw [over_of_ne_nil hne]
  exact ⟨earliest_eq h.start_ge, max_eq_right h.stop_le⟩

end Extent

/-! ### Closing parentheses -/

theorem getElem?_index {table : List Token} (htable : IsTable table) {token : Token}
    (htoken : token ∈ table) : table[token.index]? = some token := by
  obtain ⟨index, hindex, rfl⟩ := getElem_of_mem htoken
  rw [htable.index_eq index hindex, getElem?_eq_getElem hindex]

/-- The tokens with the parentheses around them, the innermost ones first. -/
def wrapped (groups : List (Token × Token)) (ts : List Token) : List Token :=
  (groups.map Prod.fst).reverse ++ (ts ++ groups.map Prod.snd)

theorem wrapped_cons (pair : Token × Token) (groups : List (Token × Token)) (ts : List Token) :
    wrapped (pair :: groups) ts = wrapped groups (pair.1 :: (ts ++ [pair.2])) := by
  simp [wrapped]

theorem covers_closeGroups_none {extent : Extent} {walk : Walk} (bound : Nat)
    (hnone : groupAround? walk extent = none) :
    Covers (closeGroups bound) extent walk fun value extent' next =>
      value = none ∧ extent' = extent ∧ next = walk := by
  cases bound with
  | zero => exact .pure ⟨rfl, rfl, rfl⟩
  | succ bound =>
      refine .bind_getWalk (.bind_get ?_)
      rw [hnone]
      exact .pure ⟨rfl, rfl, rfl⟩

section Closing

variable {table done us : List Token} {outer : List Nat} (htable : IsTable table)

include htable

theorem covers_closeGroups {groups : List (Token × Token)} {ts : List Token} {extent : Extent}
    {walk : Walk} {bound : Nat} (hbound : groups.length ≤ bound)
    (hpairs : ∀ pair ∈ groups, pair.1.isOperator "(" ∧ pair.2.isOperator ")" = true)
    (hmatched : Matched ts) (hstop : NotNext (·.isOperator ")") us ∨ Apart outer done)
    (hwalk : Inside table (done ++ ((groups.map Prod.fst).reverse ++ ts))
      (groups.map Prod.snd ++ us) (groups.map (fun pair => pair.1.index) ++ outer) walk)
    (hinner : extent.inner = ts.head?.map Token.index) (hwithin : extent.Within (wrapped groups ts))
    (hfills : groups = [] → extent.Fills ts) :
    Covers (closeGroups bound) extent walk fun value extent' next =>
      value = groups.head? ∧ extent'.Fills (wrapped groups ts) ∧
        Inside table (done ++ wrapped groups ts) us outer next := by
  induction groups generalizing ts extent walk bound with
  | nil =>
      have hdone : Inside table (done ++ wrapped [] ts) us outer walk := by
        simpa [wrapped] using hwalk
      have hall : extent.Fills (wrapped [] ts) := by simpa [wrapped] using hfills rfl
      have hnone : groupAround? walk extent = none :=
        groupAround?_eq_none htable (by simpa using hwalk) hinner hstop
      refine (covers_closeGroups_none bound hnone).mono ?_
      rintro _ _ _ ⟨rfl, rfl, rfl⟩
      exact ⟨rfl, hall, hdone⟩
  | cons pair groups ih =>
      obtain ⟨opening, closing⟩ := pair
      obtain ⟨hopening, hclosing⟩ := hpairs _ mem_cons_self
      obtain ⟨bound, rfl⟩ : ∃ less, bound = less + 1 :=
        Nat.exists_eq_add_one.mpr (by simp at hbound; omega)
      have hhere : Inside table (done ++ (groups.map Prod.fst).reverse ++ [opening] ++ ts)
          (closing :: (groups.map Prod.snd ++ us))
          (opening.index :: (groups.map (fun pair => pair.1.index) ++ outer)) walk := by
        simpa using hwalk
      have hgroup : groupAround? walk extent = some opening.index :=
        groupAround?_of_pair htable hhere hinner hmatched hopening hclosing
      have hsplit := hhere.split
      have hopeningMem : opening ∈ table :=
        IsTable.mem_of_mem_significant (by rw [hsplit]; simp)
      have hincreasing : Increasing (wrapped ((opening, closing) :: groups) ts) := by
        have hall : Increasing (done ++ (wrapped ((opening, closing) :: groups) ts ++ us)) := by
          simpa [wrapped] using hhere.increasing htable
        exact (pairwise_append.mp (pairwise_append.mp hall).2.1).1
      rw [wrapped_cons] at hwithin hincreasing ⊢
      refine .bind_getWalk (.bind_get ?_)
      rw [hgroup]
      refine .bind_lift (walks_expect htable hhere hclosing fun next hnext => ?_)
      refine .bind_modifyWalk (.bind_modify (.bind ?_))
      have herase : (opening.index :: (groups.map (fun pair => pair.1.index) ++ outer)).erase
          opening.index = groups.map (fun pair => pair.1.index) ++ outer := by simp
      have hnext' := hnext.withGrouping (next.grouping.erase opening.index)
      rw [hnext.grouping_eq, herase] at hnext'
      rw [hnext.grouping_eq, herase]
      have hmem : opening ∈ wrapped groups (opening :: (ts ++ [closing])) ∧
          closing ∈ wrapped groups (opening :: (ts ++ [closing])) := by simp [wrapped]
      refine (ih (by simpa using hbound) (fun pair hpair => hpairs pair (mem_cons_of_mem _ hpair))
        (hmatched.bracketed ("(".toList, ")".toList) (by decide) hopening hclosing)
        (by simpa using hnext') (by rfl) ?_ ?_).mono ?_
      · have htaken := (hwithin.takeOuter hincreasing hmem.1).takeOuter hincreasing hmem.2
        exact ⟨htaken.start_ge, htaken.stop_le⟩
      · rintro rfl
        simp only [wrapped, map_nil, reverse_nil, nil_append, append_nil]
          at hwithin hincreasing
        exact hwithin.fills hincreasing
      · rintro _ extent' last ⟨-, hextent', hlast⟩
        refine .pure ⟨?_, hextent', hlast⟩
        rw [hwalk.tokens_eq, getElem?_index htable hopeningMem]
        rfl

end Closing

/-! ### Opening parentheses together -/

theorem Wraps.eq_wrapped {ts ts' : List Token} {groups : List (Token × Token)}
    (h : Wraps ts ts' groups) : ts' = wrapped groups ts ∧
      ∀ pair ∈ groups, pair.1.isOperator "(" ∧ pair.2.isOperator ")" := by
  induction h with
  | bare => simp [wrapped]
  | @paren ts' groups opening closing _ hopening hclosing ih =>
      obtain ⟨rfl, hpairs⟩ := ih
      refine ⟨by simp [wrapped], fun pair hpair => ?_⟩
      rcases mem_append.mp hpair with hpair | hpair
      · exact hpairs pair hpair
      · obtain rfl := mem_singleton.mp hpair
        exact ⟨hopening, hclosing⟩

theorem opens_wrapped {ts : List Token} {groups : List (Token × Token)}
    (hpairs : ∀ pair ∈ groups, pair.1.isOperator "(" ∧ pair.2.isOperator ")" = true)
    (hmatched : Matched ts) (hne : wrapped groups ts ≠ []) :
    opens (wrapped groups ts) = (groups.map Prod.fst).reverse ++ opens ts := by
  have hall : ∀ token ∈ (groups.map Prod.fst).reverse, token.isOperator "(" := by
    intro token htoken
    obtain ⟨pair, hpair, rfl⟩ := mem_map.mp (mem_reverse.mp htoken)
    exact (hpairs pair hpair).1
  unfold wrapped
  rw [opens, takeWhile_append_of_pos hall]
  refine congrArg _ ?_
  cases ts with
  | cons token ts => exact opens_append_of_matched hmatched (by simp)
  | nil =>
      cases groups with
      | nil => simp [wrapped] at hne
      | cons pair groups =>
          have hclosing : pair.2.isOperator "(" = false := by
            refine Bool.eq_false_iff.mpr fun hopening => ?_
            exact absurd (isOperator_unique (hpairs pair mem_cons_self).2 hopening) (by decide)
          exact opens_cons_of_not hclosing

section Opening

variable {table done ts us : List Token} {groups : List Nat} (htable : IsTable table)

include htable

theorem covers_openEach {others ls : List Token} {extent : Extent} {walk : Walk}
    (hlength : others.length = ls.length) (hopenings : ∀ token ∈ ls, token.isOperator "(" = true)
    (hmem : ∀ token ∈ ls, token ∈ ts) (hincreasing : Increasing ts)
    (hwalk : Inside table done (ls ++ us) groups walk) (hinner : extent.inner = none)
    (hwithin : extent.Within ts) :
    Covers (others.forM fun _ => do
        let token ← expect .operator (some "(")
        modifyThe Walk fun walk => { walk with grouping := token.index :: walk.grouping }
        modify fun extent => extent.takeOuter token.index) extent walk
      fun _ extent' next => extent'.inner = none ∧ extent'.Within ts ∧
        Inside table (done ++ ls) us ((ls.map Token.index).reverse ++ groups) next := by
  induction others generalizing ls extent walk done groups with
  | nil =>
      obtain rfl : ls = [] := length_eq_zero_iff.mp hlength.symm
      exact .pure ⟨hinner, hwithin, by simpa using hwalk⟩
  | cons other others ih =>
      obtain ⟨token, ls, rfl⟩ := exists_cons_of_length_eq_add_one hlength.symm
      have hwithin' := hwithin.takeOuter hincreasing (hmem token mem_cons_self)
      have hinner' : (extent.takeOuter token.index).inner = none := hinner
      refine .bind (.bind_lift (walks_expect htable hwalk
        (hopenings token mem_cons_self) fun next hnext => ?_))
      have hnext' := hnext.withGrouping (token.index :: next.grouping)
      refine .bind_modifyWalk (.modify_of ?_)
      rw [hnext.grouping_eq] at hnext' ⊢
      refine (ih (by simpa using hlength)
        (fun token htoken => hopenings token (mem_cons_of_mem _ htoken))
        (fun token htoken => hmem token (mem_cons_of_mem _ htoken)) hnext' hinner' hwithin').mono ?_
      rintro _ extent' last ⟨hinner', hwithin', hlast⟩
      exact ⟨hinner', hwithin', by simpa using hlast⟩

theorem covers_openGroups {loaded : List Token} {walk : Walk} (hmatched : Matched ts) (hne : ts ≠ [])
    (hloaded : loaded = [] ∨ loaded = opens ts)
    (hwalk : Loaded table loaded done ts us groups walk) :
    Covers openGroups {} walk fun _ extent next =>
      extent.inner = none ∧ extent.Within ts ∧ Loaded table (opens ts) done ts us groups next := by
  have hsplit : opens ts ++ ts.drop (opens ts).length = ts := by
    rw [← prefix_iff_eq_append]
    exact List.takeWhile_prefix _
  have hopenings : ∀ token ∈ opens ts, token.isOperator "(" := by
    intro token htoken
    exact mem_takeWhile_imp (p := (Token.isOperator · "(")) htoken
  have hrest : opens (ts.drop (opens ts).length ++ us) = [] := by
    have hall : opens (opens ts ++ (ts.drop (opens ts).length ++ us)) = opens ts := by
      rw [← append_assoc, hsplit]
      exact opens_append_of_matched hmatched hne
    rw [opens, takeWhile_append_of_pos hopenings] at hall
    exact append_right_eq_self.mp hall
  refine .bind_getWalk ?_
  rcases hloaded with rfl | rfl
  · have hinside := loaded_nil.mp hwalk
    have hleading : Cursor.leadingSignificant (fun token => Cursor.fits token .operator (some "("))
        walk.cursor.rest = opens ts := by
      rw [hinside.leading]
      exact opens_append_of_matched hmatched hne
    have hincreasing : Increasing ts :=
      (pairwise_append.mp (pairwise_append.mp (hinside.increasing htable)).2.1).1
    rw [hleading]
    refine covers_openEach htable rfl hopenings (fun token htoken => (List.takeWhile_prefix _).subset htoken)
      hincreasing ?_ rfl Extent.within_empty
    rwa [← append_assoc, hsplit]
  · have hleading : Cursor.leadingSignificant (fun token => Cursor.fits token .operator (some "("))
        walk.cursor.rest = [] := by
      rw [hwalk.leading]
      exact hrest
    rw [hleading]
    exact .pure ⟨rfl, Extent.within_empty, hwalk⟩

end Opening

/-! ### The parts between the parentheses -/

theorem Compares.exists_cons {op : CompareOp} {ts : List Token} (h : Compares op ts) :
    ∃ token rest, ts = token :: rest ∧ isPlain token := by
  cases h with
  | mem htoken => exact ⟨_, _, rfl, isPlain_of_isName htoken⟩
  | notMem hfirst _ => exact ⟨_, _, rfl, isPlain_of_isName hfirst⟩
  | symbol _ _ htoken => exact ⟨_, _, rfl, isPlain_of_isOperator htoken (by cases op <;> decide)⟩

section Content

variable {table : List Token} {visit : Visitor} (hguided : Guided table visit)
  (htable : IsTable table) {place : Place} {expr : Expr} {pairs : List TagPair}
  {ts us : List Token}

/-- The visitor finds its way through the left side of an operator. -/
def GuidedLeft (table : List Token) (visit : Visitor) : Prop :=
  ∀ left ts us, Spells False .value left ts us →
    VisitsFrom table (opens ts) (leftSide visit) .value left ts us

include hguided htable

theorem takes_operatorAndRight {op : BinaryOp} {right : Expr} {token : Token}
    (hop : binaryFits op token) (hright : Spells False .value right ts us) :
    Takes table (operatorAndRight visit op right) (token :: ts) us fun result =>
      Spells True .value result ts us := by
  have hlast : Takes table (part visit right) ts us fun result => Spells True .value result ts us :=
    (hguided.takes hright).mono fun _ hresult => hresult.1
  unfold operatorAndRight
  unfold binaryFits at hop
  split
  · rw [if_pos ‹_›] at hop
    exact .name_bind htable hop hlast
  · rw [if_neg ‹_›] at hop
    exact .operator_bind htable hop hlast

theorem takes_emptyIndex (context : Context) (layout : Layout) {opening : Token}
    (hopening : opening.isOperator "[") (hnot : NotNext (·.isOperator "(") us)
    (hnot' : NotNext (·.isOperator ")") us) :
    Takes table (do consumeOperator "["; part visit (.tuple [] context layout)) [opening] us
      fun result => ∃ layout', layout'.span = some (opening.index + 1, opening.index + 1) ∧
        result = .tuple [] context layout' := by
  intro done groups extent walk hwalk _
  refine .bind (.bind (.bind_lift (walks_expect htable hwalk hopening
    fun next hnext => ?_)))
  refine .bind_modify (.pure (.pure ?_))
  have hspan : (spanOf (done ++ [opening])).2 = opening.index + 1 := by simp [spanOf]
  refine .bind_lift ((hguided.empty context layout _ us groups next hnext hnot hnot').mono ?_)
  rintro _ last ⟨⟨layout', hlayout', rfl⟩, hlast⟩
  rw [hspan] at hlayout' ⊢
  refine .bind_modify (.pure ⟨⟨layout', hlayout', rfl⟩, ?_, hlast⟩)
  have hearliest : ∀ before : Option Nat, Extent.earliest (Extent.earliest before opening.index)
      (opening.index + 1) = Extent.earliest before opening.index := by
    intro before
    cases before with
    | none => simp [Extent.earliest]
    | some index => simp [Extent.earliest]
  rw [Extent.over_of_ne_nil (by simp)]
  simp [Extent.take, Extent.takeOuter, Extent.cover, hearliest, spanOf]

theorem Core.continues (hleft : GuidedLeft table visit)
    (h : Core False (Spells False) place expr pairs ts us) :
    Continues table (content visit expr) ts us (Parted place expr ts us) := by
  cases h with
  | name hplace hassigned htoken =>
      exact .name_bind htable htoken (.pure ⟨.name hplace hassigned htoken, rfl⟩)
  | member hname hpoint hkey =>
      refine .name_bind htable hname (.operator_bind htable hpoint
        (.name_bind htable hkey (.pure ⟨?_, rfl⟩)))
      exact .member hname hpoint hkey
  | const hvalue htoken =>
      exact .map ((continues_literal htable hvalue htoken).mono fun _ _ =>
        ⟨.const hvalue htoken, rfl⟩)
  | string hfirst hothers hnext =>
      exact .map ((continues_string htable hfirst hothers hnext).mono fun _ _ =>
        ⟨.string hfirst hothers hnext, rfl⟩)
  | emptyTuple hplace => exact .map (.pure ⟨.emptyTuple hplace, rfl⟩)
  | tuple hplace hitems =>
      have hall := Tupled.continues hguided htable
        (fun _ _ _ hitem => ⟨_, hitem, fun _ hitem' => hitem'⟩) hitems
      exact .map (hall.mono fun _ hitems' => ⟨.tuple hplace hitems', rfl⟩)
  | indexTuple hitems =>
      have hitem : ∀ expr ts us, InBrackets (Spells False) expr ts us →
          ∃ place, Spells False place expr ts us ∧ ∀ expr', Spells True place expr' ts us →
            InBrackets (Spells True) expr' ts us := by
        rintro expr ts us ⟨place, hplace, hexpr⟩
        exact ⟨place, hexpr, fun expr' hexpr' => ⟨place, hplace, hexpr'⟩⟩
      have hall := Tupled.continues hguided htable hitem hitems
      exact .map (hall.mono fun _ hitems' => ⟨.indexTuple hitems', rfl⟩)
  | list hopening hitems hclosing =>
      have hitems' : Separated false (Spells False .value) _ _ _ := hitems
      refine .operator_bind htable hopening (by decide) ?_
      refine .bind_of htable (takes_parts hguided htable hitems') fun items' hitems' => ?_
      exact .operator_bind htable hclosing (.pure ⟨.list hopening hitems' hclosing, rfl⟩)
  | dict hopening hentries hclosing =>
      have hentries' : Separated false (EntrySpelled False (Spells False)) _ _ _ := hentries
      refine .operator_bind htable hopening (by decide) ?_
      refine .bind_of htable (Separated.takes htable (takesItem_entry hguided htable) hentries')
        fun entries' hentries' => ?_
      exact .operator_bind htable hclosing
        (.pure ⟨.dict hopening hentries'.1 hclosing, rfl⟩)
  | @conditional test whenTrue whenFalse layout word ts ts' ts'' us htrue hword htest hfalse =>
      refine hguided.continues_bind htable (by simpa using htrue)
        (notNext_isOperator_of_isKind (isKind_of_isName hword) (by decide) _)
        fun true' htrue' => ?_
      refine .name_bind htable hword ?_
      refine hguided.takes_bind htable htest fun test' htest' => ?_
      have hend : Takes table (whenFalse.mapM fun expr => do
          consumeName "else"
          part visit expr) ts'' us fun result =>
            Possibly (Behind (·.isName "else") (Spells True .value)) result ts'' us := by
        cases hfalse with
        | none => exact .pure .none
        | some hbehind =>
            have hpart := Behind.takes hguided htable
              (fun token us htoken => .consumeName htable htoken) hbehind
            exact .map (hpart.mono fun _ hresult => .some hresult)
      exact .map (hend.mono fun false' hfalse' =>
        ⟨.conditional (by simpa using htrue') hword htest' hfalse', rfl⟩)
  | @binary op left right layout token ts ts' us hleft' hop hright =>
      have hfirst := continues_part (hleft left ts _ hleft') hleft'.ne_nil
        (notNext_of_isPlain (isPlain_of_binaryFits hop))
      refine .bind_of htable hleft'.matched hleft'.ne_nil hfirst ?_
      rintro left' ⟨hleft', -⟩
      exact .map ((takes_operatorAndRight hguided htable hop hright).mono fun right' hright' =>
        ⟨.binary hleft' hop hright', rfl⟩)
  | unary hop hoperand => exact continues_unary hguided htable hop hoperand
  | @concat first second others layout ts ts' us hfirst hothers =>
      have hnext : NotNext (·.isOperator ")") (ts' ++ us) := by
        cases hothers with
        | cons hsecond _ =>
            cases hsecond with
            | mk htoken _ => exact notNext_of_isOperator htoken (by decide) _
      have heq : content visit (.concat (first :: second :: others) layout) = (do
          let first ← part visit first
          let others ← (second :: others).mapM fun item => do
            consumeOperator "~"
            part visit item
          return (.concat (first :: others) layout, [])) := by
        simp [content, concatenated]
      rw [heq]
      refine hguided.continues_bind htable hfirst hnext fun first' hfirst' => ?_
      have hitem : ∀ value ts us, Behind (·.isOperator "~") (Spells False .value) value ts us →
          Takes table (do consumeOperator "~"; part visit value) ts us fun result =>
            Behind (·.isOperator "~") (Spells True .value) result ts us :=
        fun value ts us hvalue => Behind.takes hguided htable
          (fun token us htoken => .consumeOperator htable htoken) hvalue
      refine .map ((Chained.takes htable hitem hothers).mono ?_)
      rintro others' ⟨hothers', hlength⟩
      obtain ⟨second', others', rfl⟩ := exists_cons_of_length_eq_add_one hlength
      exact ⟨.concat hfirst' hothers', rfl⟩
  | @compare first second others layout ts ts' us hfirst hothers =>
      have hnext : NotNext (·.isOperator ")") (ts' ++ us) := by
        cases hothers with
        | cons hsecond _ =>
            cases hsecond with
            | mk hop _ _ =>
                obtain ⟨token, rest, rfl, htoken⟩ := Compares.exists_cons hop
                exact notNext_of_isPlain htoken
      refine hguided.continues_bind htable hfirst hnext fun first' hfirst' => ?_
      refine .map ((Chained.takes htable
        (fun _ _ _ hvalue => OperandSpelled.takes hguided htable hvalue) hothers).mono ?_)
      rintro others' ⟨hothers', hlength⟩
      obtain ⟨second', others', rfl⟩ := exists_cons_of_length_eq_add_one hlength
      exact ⟨.compare hfirst' hothers', rfl⟩
  | attr hoperand hpoint hword =>
      refine hguided.continues_bind htable (by simpa using hoperand)
        (notNext_of_isOperator hpoint (by decide) _) fun operand' hoperand' => ?_
      refine .operator_bind htable hpoint (.name_bind htable hword (.pure ⟨?_, rfl⟩))
      exact .attr (by simpa using hoperand') hpoint hword
  | dotted hoperand hpoint hindex =>
      refine hguided.continues_bind htable (by simpa using hoperand)
        (notNext_of_isOperator hpoint (by decide) _) fun operand' hoperand' => ?_
      refine .operator_bind htable hpoint (hguided.takes_map hindex fun index' hindex' => ?_)
      exact ⟨.dotted (by simpa using hoperand') hpoint hindex', rfl⟩
  | item hoperand hopening hindex hclosing =>
      obtain ⟨place, hplace, hindex⟩ := hindex
      refine hguided.continues_bind htable (by simpa using hoperand)
        (notNext_of_isOperator hopening (by decide) _) fun operand' hoperand' => ?_
      refine .operator_bind htable hopening ?_
      refine hguided.takes_bind htable hindex fun index' hindex' => ?_
      refine .operator_bind htable hclosing (.pure ⟨?_, rfl⟩)
      exact .item (by simpa using hoperand') hopening ⟨place, hplace, hindex'⟩ hclosing
  | @emptyItem operand layout context indexLayout opening closing ts us hoperand hopening hclosing _ =>
      refine hguided.continues_bind htable (by simpa using hoperand)
        (notNext_of_isOperator hopening (by decide) _) fun operand' hoperand' => ?_
      have hindex := takes_emptyIndex hguided htable context indexLayout hopening
        (notNext_of_isOperator hclosing (by decide) us)
        (notNext_of_isOperator hclosing (by decide) us)
      have hboth : Takes table (do
          let index ← (do consumeOperator "["; part visit (.tuple [] context indexLayout))
          consumeOperator "]"
          return (Expr.item operand' index false layout, [])) ([opening] ++ [closing]) us
          (Parted .value (.item operand (.tuple [] context indexLayout) false layout)
            (ts ++ [opening, closing]) us) := by
        refine .bind_of htable hindex ?_
        rintro _ ⟨layout', hlayout', rfl⟩
        refine .operator_bind htable hclosing (.pure ⟨?_, rfl⟩)
        exact .emptyItem hoperand' hopening hclosing fun _ => hlayout'
      rw [bind_assoc] at hboth
      exact hboth
  | slice hstart hcolon hstop hnext =>
      exact continues_slice hguided htable hstart hcolon hstop hnext
  | steppedSlice hstart hcolon hstop hsecond hstep =>
      exact continues_steppedSlice hguided htable hstart hcolon hstop hsecond hstep
  | filter hplace hoperand hbar hname harguments =>
      exact continues_filter hguided htable hplace hoperand hbar hname harguments
  | blockFilter hbars hname harguments =>
      exact continues_blockFilter hguided htable hbars hname harguments
  | test hoperand hword hnots hname harguments =>
      exact continues_test hguided htable hoperand hword hnots hname harguments
  | call hoperand harguments =>
      obtain ⟨opening, rest, rfl, hopening⟩ := CallSpelled.exists_cons harguments
      refine hguided.continues_bind htable hoperand (notNext_of_isOperator hopening (by decide) _)
        fun operand' hoperand' => ?_
      refine .bind_last htable (CallSpelled.takes hguided htable harguments) ?_
      rintro ⟨arguments', pair'⟩ harguments'
      exact .pure ⟨.call hoperand' harguments', rfl⟩

end Content

/-! ### Parentheses and parts together -/

theorem Core.withLayout {marked : Prop} {spelled : Place → Spelling Expr} {place : Place} {expr : Expr}
    {pairs : List TagPair} {ts us : List Token} (h : Core marked spelled place expr pairs ts us)
    (layout : Layout) : Core marked spelled place (expr.withLayout layout) pairs ts us := by
  cases h with
  | name hplace hassigned htoken => exact .name hplace hassigned htoken
  | member hname hpoint hkey => exact .member hname hpoint hkey
  | const hvalue htoken => exact .const hvalue htoken
  | string hfirst hothers hnext => exact .string hfirst hothers hnext
  | emptyTuple hplace => exact .emptyTuple hplace
  | tuple hplace hitems => exact .tuple hplace hitems
  | indexTuple hitems => exact .indexTuple hitems
  | list hopening hitems hclosing => exact .list hopening hitems hclosing
  | dict hopening hentries hclosing => exact .dict hopening hentries hclosing
  | conditional htrue hword htest hfalse => exact .conditional htrue hword htest hfalse
  | binary hleft hop hright => exact .binary hleft hop hright
  | unary hop hoperand => exact .unary hop hoperand
  | concat hfirst hothers => exact .concat hfirst hothers
  | compare hfirst hothers => exact .compare hfirst hothers
  | attr hoperand hpoint hword => exact .attr hoperand hpoint hword
  | dotted hoperand hpoint hindex => exact .dotted hoperand hpoint hindex
  | item hoperand hopening hindex hclosing => exact .item hoperand hopening hindex hclosing
  | emptyItem hoperand hopening hclosing hmarked => exact .emptyItem hoperand hopening hclosing hmarked
  | slice hstart hcolon hstop hnext => exact .slice hstart hcolon hstop hnext
  | steppedSlice hstart hcolon hstop hsecond hstep =>
      exact .steppedSlice hstart hcolon hstop hsecond hstep
  | filter hplace hoperand hbar hname harguments => exact .filter hplace hoperand hbar hname harguments
  | blockFilter hbars hname harguments => exact .blockFilter hbars hname harguments
  | test hoperand hword hnots hname harguments => exact .test hoperand hword hnots hname harguments
  | call hoperand harguments => exact .call hoperand harguments

section Layout

variable (expr : Expr) (layout : Layout)

@[simp]
theorem layout_withLayout : (expr.withLayout layout).layout = layout := by
  cases expr <;> rfl

@[simp]
theorem kind_withLayout : (expr.withLayout layout).kind = expr.kind := by
  cases expr <;> rfl

@[simp]
theorem isTuple_withLayout : (expr.withLayout layout).isTuple = expr.isTuple := by
  cases expr <;> rfl

end Layout

section Grouped

variable {table : List Token} {visit : Visitor} (htable : IsTable table) {place : Place}
  {expr : Expr} {ts us done : List Token} {groups : List (Token × Token)} {outer : List Nat}
  {extent : Extent} {walk : Walk}

theorem Extent.Within.over {whole : List Token} (h : extent.Within whole)
    (hincreasing : Increasing whole) (hmem : ∀ token ∈ ts, token ∈ whole) :
    (extent.over ts).Within whole := by
  by_cases hne : ts = []
  · rwa [hne, over_nil]
  rw [over_of_ne_nil hne]
  obtain ⟨first, rest, hcons⟩ := exists_cons_of_ne_nil hne
  have hfirst := spanOf_bounds hincreasing (hmem first (by simp [hcons]))
  have hlast := spanOf_bounds hincreasing (hmem (ts.getLast hne) (getLast_mem hne))
  have hspan : spanOf ts = (first.index, (ts.getLast hne).index + 1) := by
    rw [spanOf, getLast?_eq_some_getLast hne]
    simp [hcons]
  rw [hspan]
  exact ⟨mem_earliest h.start_ge hfirst.1, max_le h.stop_le hlast.2⟩

/-- Where the walk stands behind the opening parentheses of an expression and of its first part. -/
theorem Loaded.unwrap
    (hpairs : ∀ pair ∈ groups, pair.1.isOperator "(" ∧ pair.2.isOperator ")" = true)
    (hmatched : Matched ts) (hne : wrapped groups ts ≠ [])
    (h : Loaded table (opens (wrapped groups ts)) done (wrapped groups ts) us outer walk) :
    Loaded table (opens ts) (done ++ (groups.map Prod.fst).reverse) ts (groups.map Prod.snd ++ us)
      (groups.map (fun pair => pair.1.index) ++ outer) walk := by
  have hlength : (opens ts).length ≤ ts.length := (List.takeWhile_prefix _).length_le
  have hdrop : (groups.map Prod.fst).reverse.drop (groups.length + (opens ts).length) = [] :=
    drop_eq_nil_of_le (by simp)
  unfold Loaded at h ⊢
  rw [opens_wrapped hpairs hmatched hne] at h
  simpa [wrapped, drop_append, hdrop, Nat.sub_eq_zero_of_le hlength, Function.comp_def] using h

theorem past_openings (hpast : Past outer done)
    (hincreasing : Increasing (done ++ (groups.map Prod.fst).reverse)) :
    Past (groups.map (fun pair => pair.1.index) ++ outer)
      (done ++ (groups.map Prod.fst).reverse) := by
  intro group hgroup
  rcases mem_append.mp hgroup with hgroup | hgroup
  · obtain ⟨pair, hpair, rfl⟩ := mem_map.mp hgroup
    have hmem : pair.1 ∈ done ++ (groups.map Prod.fst).reverse := by
      simp only [mem_append, mem_reverse, mem_map]
      exact .inr ⟨pair, hpair, rfl⟩
    exact (Extent.spanOf_bounds hincreasing hmem).2
  · have hbefore := hpast group hgroup
    by_cases hnone : (groups.map Prod.fst).reverse = []
    · rwa [hnone, append_nil]
    · have hapart := hpast.apart hnone hincreasing group hgroup
      omega

variable {layout : Layout}

theorem covers_finish {pairs : List TagPair} (hfills : extent.Fills ts)
    (hle : (spanOf ts).1 ≤ (spanOf ts).2) :
    Covers (finish layout pairs) extent walk fun value _ next =>
      value = ({ layout with span := some (spanOf ts), pairs }, spanOf ts) ∧ next = walk := by
  refine .bind_get (.bind_lift (.inr ⟨walk.cursor.index, walk, rfl, .pure ?_⟩))
  rw [hfills.start_eq, hfills.stop_eq]
  simp [hle]

/-- What is known of an expression behind its last token. -/
abbrev Visited (place : Place) (expr : Expr) (ts us : List Token) (result : Expr × (Nat × Nat)) :
    Prop :=
  result.2 = spanOf ts ∧ Spells True place result.1 ts us ∧ result.1.kind = expr.kind

section Closing

variable
    (hpairs : ∀ pair ∈ groups, pair.1.isOperator "(" ∧ pair.2.isOperator ")" = true)
    (hmatched : Matched ts) (hne : wrapped groups ts ≠ [])
    (hstop : NotNext (·.isOperator ")") us ∨ Apart outer done)
    (hwalk : Inside table (done ++ (groups.map Prod.fst).reverse ++ ts) (groups.map Prod.snd ++ us)
      (groups.map (fun pair => pair.1.index) ++ outer) walk)
    (hinner : extent.inner = none) (hwithin : extent.Within (wrapped groups ts))

include htable hpairs hmatched hne hstop hwalk hinner hwithin

theorem covers_closeAllGroups :
    Covers closeAllGroups (extent.over ts) walk fun value extent' next =>
      value = groups.head? ∧ extent'.Fills (wrapped groups ts) ∧
        Inside table (done ++ wrapped groups ts) us outer next := by
  have hincreasing : Increasing (wrapped groups ts) := by
    have hall : Increasing (done ++ (wrapped groups ts ++ us)) := by
      simpa [wrapped] using hwalk.increasing htable
    exact (pairwise_append.mp (pairwise_append.mp hall).2.1).1
  have hinner' : (extent.over ts).inner = ts.head?.map Token.index := by
    cases ts with
    | nil => exact hinner
    | cons first ts =>
        rw [Extent.over_of_ne_nil (by simp)]
        simp [Extent.cover, hinner, Extent.earliest, spanOf]
  have hwithin' : (extent.over ts).Within (wrapped groups ts) :=
    hwithin.over hincreasing fun token htoken => by simp [wrapped, htoken]
  refine .bind_getWalk ?_
  refine covers_closeGroups htable ?_ hpairs hmatched hstop (by simpa using hwalk) hinner' hwithin' ?_
  · simp [hwalk.grouping_eq]
  · rintro rfl
    simp only [wrapped, map_nil, reverse_nil, nil_append, append_nil]
      at hwithin hne
    exact hwithin.over_fills hne

theorem covers_seal (layout : Layout) (pairsFor : Option (Token × Token) → List TagPair)
    (result : Layout → Expr) :
    Covers (do
      let innermost ← closeAllGroups
      let (layout, span) ← finish layout (pairsFor innermost)
      return (result layout, span)) (extent.over ts) walk fun value _ next =>
        value = (result { layout with
          span := some (spanOf (wrapped groups ts)), pairs := pairsFor groups.head? },
          spanOf (wrapped groups ts)) ∧
        Inside table (done ++ wrapped groups ts) us outer next := by
  refine .bind ((covers_closeAllGroups htable hpairs hmatched hne hstop hwalk hinner
    hwithin).mono ?_)
  rintro _ extent' last ⟨rfl, hfills, hlast⟩
  have hincreasing := (pairwise_append.mp (hlast.increasing htable)).1
  have hlt := spanOf_lt (pairwise_append.mp hincreasing).2.1 hne
  refine .bind ((covers_finish hfills hlt.le).mono ?_)
  rintro _ _ _ ⟨rfl, rfl⟩
  exact .pure ⟨rfl, hlast⟩

end Closing

include htable

theorem guidedLeft (hguided : Guided table visit) : GuidedLeft table visit := by
  intro left ts us h
  refine Spells.induct (motive := fun place expr ts us => place = .value →
    VisitsFrom table (opens ts) (leftSide visit) .value expr ts us) ?_ h rfl
  rintro _ expr ts us hlayer rfl
  have hspells : Spells False .value expr ts us :=
    Spells.fold (hlayer.mono fun _ _ _ _ hpart => hpart.1)
  cases expr with
  | binary op left right layout =>
      cases hlayer with
      | @group _ _ _ groups core ts _ hcore hwraps hne _ =>
          cases hcore with
          | @binary _ _ _ _ token leftTs rightTs _ hleft hop hright =>
              intro done outer walk hwalk hpast hstop
              have hmatched : Matched (leftTs ++ token :: rightTs) :=
                hleft.1.matched.append (.plain (isPlain_of_binaryFits hop) hright.1.matched)
              obtain ⟨rfl, hpairs⟩ := Wraps.eq_wrapped hwraps
              have hinside := Loaded.unwrap hpairs hmatched hne hwalk
              rw [loaded_append hleft.1.matched hleft.1.ne_nil] at hinside
              have hopened : Increasing (done ++ (groups.map Prod.fst).reverse) :=
                (pairwise_append.mp (pairwise_append.mp (hinside.increasing htable)).1).1
              have hpast' := past_openings hpast hopened
              refine .bind_of (hleft.2 rfl _ _ walk hinside hpast'
                (.inl (notNext_of_isPlain (isPlain_of_binaryFits hop)))) ?_
              rintro ⟨left', span⟩ next ⟨rfl, hleft', -, hnext⟩
              have hbehind := (pairwise_append.mp (hnext.increasing htable)).1
              have hcovers : Covers (do
                  modify fun extent => extent.cover (spanOf leftTs)
                  let right ← operatorAndRight visit op right
                  let _ ← closeAllGroups
                  let (layout, span) ← finish layout []
                  return (Expr.binary op left' right layout, span)) {} next fun value _ last =>
                    Visited .value (.binary op left right layout)
                      (wrapped groups (leftTs ++ token :: rightTs)) us value ∧
                    Inside table (done ++ wrapped groups (leftTs ++ token :: rightTs)) us outer last := by
                refine .bind_modify (.bind ((takes_operatorAndRight hguided htable hop
                  hright.1 _ _ _ next hnext (hpast'.apart hleft.1.ne_nil hbehind)).mono ?_))
                rintro right' _ last ⟨hright', rfl, hlast⟩
                have hall : Increasing (leftTs ++ token :: rightTs) := by
                  have hdone := (pairwise_append.mp (hlast.increasing htable)).1
                  rw [append_assoc] at hdone
                  exact (pairwise_append.mp hdone).2.1
                rw [← Extent.over_of_ne_nil hleft.1.ne_nil, Extent.over_append hall]
                refine (covers_seal htable hpairs hmatched hne hstop (by simpa using hlast) rfl
                  Extent.within_empty layout (fun _ => [])
                  (fun layout => .binary op left' right' layout)).mono ?_
                rintro _ _ _ ⟨rfl, hlast⟩
                have hcore (layout : Layout) : Core True (Spells True) .value
                    (.binary op left' right' layout) [] (leftTs ++ token :: rightTs)
                    (groups.map Prod.snd ++ us) := .binary hleft' hop hright'
                exact ⟨⟨rfl, Spells.fold (.group (hcore _) hwraps hne fun _ => ⟨rfl, rfl⟩), rfl⟩, hlast⟩
              refine .bind_of hcovers ?_
              rintro ⟨value, _⟩ last ⟨⟨hspan, hvalue, hkind⟩, hlast⟩
              exact .pure ⟨hspan, hvalue, hkind, hlast⟩
  | _ => exact hguided.visits _ .value _ ts us hspells (.inr rfl)

omit htable in
theorem walks_grouped {good : Expr × (Nat × Nat) → Walk → Prop}
    (h : Covers (do
      openGroups
      let (expr, pairs) ← content visit expr
      let innermost ← closeAllGroups
      let (layout, span) ← finish expr.layout (pairs ++
        if expr.isTuple then innermost.toList.map fun (opening, closing) =>
          parentheses opening closing
        else [])
      return (expr.withLayout layout, span)) {} walk fun value _ next => good value next) :
    Walks (grouped visit expr) walk good :=
  .bind_of h fun _ _ hgood => .pure hgood

omit htable in
theorem isTest_iff_kind (expr : Expr) : expr.isTest = true ↔ expr.kind = "Test" := by
  cases expr <;> simp [Expr.isTest, Expr.kind]

theorem walks_group {loaded ts' : List Token} {pairs : List TagPair} (hguided : Guided table visit)
    (hcore : Core False (Spells False) place expr pairs ts (groups.map Prod.snd ++ us))
    (hwraps : Wraps ts ts' groups) (hne : ts' ≠ []) (hloaded : loaded = [] ∨ loaded = opens ts') :
    VisitsFrom table loaded (grouped visit) place expr ts' us := by
  intro done outer walk hwalk hpast hstop
  have hmatched : Matched ts := hcore.matched fun _ _ _ _ hpart => hpart.matched
  have hmatched' := hwraps.matched hmatched
  obtain ⟨rfl, hpairs⟩ := Wraps.eq_wrapped hwraps
  refine walks_grouped (.bind ((covers_openGroups htable hmatched' hne hloaded hwalk).mono ?_))
  rintro _ extent next ⟨hinner, hwithin, hnext⟩
  have hinside := Loaded.unwrap hpairs hmatched hne hnext
  have hopened : Increasing (done ++ (groups.map Prod.fst).reverse) :=
    (pairwise_append.mp (pairwise_append.mp (hinside.increasing htable)).1).1
  refine .bind ((Core.continues hguided htable (guidedLeft htable hguided) hcore _ _ extent next
    hinside (past_openings hpast hopened)).mono ?_)
  rintro ⟨expr', pairs'⟩ _ last ⟨⟨hcore', hkind⟩, rfl, hlast⟩
  have hseal := covers_seal htable hpairs hmatched hne hstop hlast hinner hwithin expr'.layout
    (fun innermost => pairs' ++ if expr'.isTuple then innermost.toList.map fun (opening, closing) =>
      parentheses opening closing else []) expr'.withLayout
  refine hseal.mono ?_
  rintro _ _ _ ⟨rfl, hlast⟩
  refine ⟨rfl, Spells.fold (.group (Core.withLayout hcore' _) hwraps hne fun _ => ?_),
    by simpa using hkind, hlast⟩
  simp only [layout_withLayout, ownPairs, isTuple_withLayout, true_and]
  rfl

theorem walks_inline {loaded : List Token} {operand : Expr} (hguided : Guided table visit)
    (hoperand : Spells False .value operand ts us) (htest : operand.isTest)
    (hloaded : loaded = [] ∨ loaded = opens ts) :
    VisitsFrom table loaded (grouped visit) .value (.unary .not operand true layout) ts us := by
  intro done outer walk hwalk hpast hstop
  have hmatched := hoperand.matched
  have hne := hoperand.ne_nil
  have hwhole : wrapped [] ts = ts := by simp [wrapped]
  refine walks_grouped (.bind ((covers_openGroups htable hmatched hne hloaded hwalk).mono ?_))
  rintro _ extent next ⟨hinner, hwithin, hnext⟩
  have hpart := hguided.visits _ .value operand ts us hoperand (.inr rfl) done outer next hnext hpast
    hstop
  refine .bind (.bind (.pure (.bind (.bind_lift (hpart.mono ?_)))))
  rintro ⟨operand', span⟩ last ⟨rfl, hoperand', hkind, hlast⟩
  refine .bind_modify (.pure (.pure ?_))
  have hlast' : Inside table (done ++ (([] : List (Token × Token)).map Prod.fst).reverse ++ ts)
      (([] : List (Token × Token)).map Prod.snd ++ us)
      (([] : List (Token × Token)).map (fun pair => pair.1.index) ++ outer) last := by
    simpa using hlast
  rw [← Extent.over_of_ne_nil hne]
  refine (covers_seal htable (by simp) hmatched (hwhole.symm ▸ hne) hstop hlast' hinner
    (hwhole.symm ▸ hwithin) layout (fun _ => [])
    (fun layout => .unary .not operand' true layout)).mono ?_
  rw [hwhole]
  rintro _ _ _ ⟨rfl, hend⟩
  refine ⟨rfl, Spells.fold (.inline hoperand' ?_ fun _ => ⟨rfl, rfl⟩), rfl, hend⟩
  rw [isTest_iff_kind, hkind, ← isTest_iff_kind]
  exact htest

theorem walks_empty {context : Context} (hwalk : Inside table done us outer walk)
    (hopening : NotNext (·.isOperator "(") us) (hclosing : NotNext (·.isOperator ")") us) :
    Walks (grouped visit (.tuple [] context layout)) walk fun result next =>
      (∃ layout', layout'.span = some ((spanOf done).2, (spanOf done).2) ∧
        result = (.tuple [] context layout', ((spanOf done).2, (spanOf done).2))) ∧
        Inside table done us outer next := by
  have hleading : Cursor.leadingSignificant (fun token => Cursor.fits token .operator (some "("))
      walk.cursor.rest = [] := by
    rw [hwalk.leading]
    cases us with
    | nil => rfl
    | cons token us => exact opens_cons_of_not (hopening token rfl)
  have hwalk' : Inside table (done ++ []) us outer walk := by simpa using hwalk
  have hnone : groupAround? walk {} = none :=
    groupAround?_eq_none htable hwalk' rfl (.inl hclosing)
  refine walks_grouped (.bind (.bind_getWalk ?_))
  rw [hleading]
  refine .pure (.bind (.bind (.pure (.pure ?_))))
  refine .bind (.bind_getWalk ((covers_closeGroups_none _ hnone).mono ?_))
  rintro _ _ _ ⟨rfl, rfl, rfl⟩
  let layout' := { layout with span := some ((spanOf done).2, (spanOf done).2), pairs := [] }
  refine .bind (.bind_get (.bind_lift (.inr ⟨_, _, rfl, .pure
    (.pure ⟨⟨layout', rfl, ?_⟩, hwalk⟩)⟩)))
  rw [hwalk.index_eq]
  simp [layout', Expr.withLayout, Expr.layout, Expr.isTuple]

theorem guided_grouped (hguided : Guided table visit) : Guided table (grouped visit) := by
  constructor
  · intro loaded place expr ts us h hloaded
    cases h.unfold with
    | group hcore hwraps hne _ => exact walks_group htable hguided hcore hwraps hne hloaded
    | inline hoperand htest _ => exact walks_inline htable hguided hoperand htest hloaded
  · exact fun _ _ _ _ _ _ hwalk hopening hclosing => walks_empty htable hwalk hopening hclosing

theorem guided_expression (levels : Nat) : Guided table (expression levels) := by
  induction levels with
  | zero =>
      exact ⟨fun _ _ _ _ _ _ _ _ _ _ _ _ _ => .tooDeep,
        fun _ _ _ _ _ _ _ _ _ => .tooDeep⟩
  | succ levels ih => exact guided_grouped htable ih

end Grouped

end JinjaLayout.Alignment
