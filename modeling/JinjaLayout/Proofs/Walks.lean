import Mathlib
import JinjaLayout.Alignment.Statement
import JinjaLayout.Proofs.TablePairs
import JinjaLayout.Proofs.Spelling

/-!
How annotation walks through a token table. A part of the walk has a goal that it reaches unless the
tree is too deep; there is one rule for each of the steps that the walk is made of. Where the walk
stands is told by the significant tokens before and behind it.
-/

namespace JinjaLayout.Alignment

open Spelling

variable {α β : Type}

/-! ### Goals -/

/-- The part gets from the walk to where it should, unless it goes too deep. -/
def Walks (part : Walking α) (walk : Walk) (good : α → Walk → Prop) : Prop :=
  part walk = .error .tooDeep ∨ ∃ value next, part walk = .ok (value, next) ∧ good value next

/-- The same for a part that takes tokens for an expression. -/
def Covers (part : Covering α) (extent : Extent) (walk : Walk)
    (good : α → Extent → Walk → Prop) : Prop :=
  Walks (part extent) walk fun result next => good result.1 result.2 next

namespace Walks

variable {walk : Walk}

theorem mono {part : Walking α} {good good' : α → Walk → Prop} (h : Walks part walk good)
    (himp : ∀ value next, good value next → good' value next) : Walks part walk good' := by
  rcases h with h | ⟨value, next, h, hgood⟩
  · exact .inl h
  · exact .inr ⟨value, next, h, himp value next hgood⟩

protected theorem pure {value : α} {good : α → Walk → Prop} (h : good value walk) :
    Walks (Pure.pure value) walk good :=
  .inr ⟨value, walk, rfl, h⟩

theorem tooDeep {good : α → Walk → Prop} : Walks (throw .tooDeep : Walking α) walk good :=
  .inl rfl

theorem bind {first : Walking α} {second : α → Walking β} {good : β → Walk → Prop}
    (h : Walks first walk fun value next => Walks (second value) next good) :
    Walks (first >>= second) walk good := by
  have hrun : (first >>= second) walk = first walk >>= fun step => second step.1 step.2 := rfl
  unfold Walks
  rw [hrun]
  rcases h with h | ⟨value, next, h, hnext⟩
  · rw [h]
    exact .inl rfl
  · rw [h]
    exact hnext

theorem bind_of {first : Walking α} {second : α → Walking β} {middle : α → Walk → Prop}
    {good : β → Walk → Prop} (h : Walks first walk middle)
    (hsecond : ∀ value next, middle value next → Walks (second value) next good) :
    Walks (first >>= second) walk good :=
  bind (h.mono hsecond)

end Walks

namespace Covers

variable {extent : Extent} {walk : Walk}

theorem mono {part : Covering α} {good good' : α → Extent → Walk → Prop}
    (h : Covers part extent walk good)
    (himp : ∀ value extent' next, good value extent' next → good' value extent' next) :
    Covers part extent walk good' :=
  Walks.mono h fun result next => himp result.1 result.2 next

protected theorem pure {value : α} {good : α → Extent → Walk → Prop} (h : good value extent walk) :
    Covers (Pure.pure value) extent walk good :=
  Walks.pure h

theorem bind {first : Covering α} {second : α → Covering β} {good : β → Extent → Walk → Prop}
    (h : Covers first extent walk fun value extent' next =>
      Covers (second value) extent' next good) : Covers (first >>= second) extent walk good :=
  Walks.bind h

theorem lift {part : Walking α} {good : α → Extent → Walk → Prop}
    (h : Walks part walk fun value next => good value extent next) :
    Covers (liftM part) extent walk good := by
  change Walks (part >>= fun value => Pure.pure (value, extent)) walk _
  exact Walks.bind (h.mono fun _ _ hgood => Walks.pure hgood)

theorem bind_lift {first : Walking α} {second : α → Covering β} {good : β → Extent → Walk → Prop}
    (h : Walks first walk fun value next => Covers (second value) extent next good) :
    Covers (liftM first >>= second) extent walk good :=
  bind (lift h)

theorem bind_get {second : Extent → Covering β} {good : β → Extent → Walk → Prop}
    (h : Covers (second extent) extent walk good) : Covers (get >>= second) extent walk good :=
  h

theorem bind_modify {change : Extent → Extent} {second : Unit → Covering β}
    {good : β → Extent → Walk → Prop} (h : Covers (second ()) (change extent) walk good) :
    Covers (modify change >>= second) extent walk good :=
  h

theorem modify_of {change : Extent → Extent} {good : Unit → Extent → Walk → Prop}
    (h : good () (change extent) walk) : Covers (modify change) extent walk good :=
  Walks.pure h

theorem bind_getWalk {second : Walk → Covering β} {good : β → Extent → Walk → Prop}
    (h : Covers (second walk) extent walk good) :
    Covers (getThe Walk >>= second) extent walk good :=
  h

theorem bind_modifyWalk {change : Walk → Walk} {second : Unit → Covering β}
    {good : β → Extent → Walk → Prop} (h : Covers (second ()) extent (change walk) good) :
    Covers (modifyThe Walk change >>= second) extent walk good :=
  h

end Covers

/-! ### Reading the significant tokens -/

theorem nthSignificant_eq (n : Nat) (tokens : List Token) :
    Cursor.nthSignificant n tokens = (significant tokens)[n]? := by
  induction tokens generalizing n with
  | nil => simp [Cursor.nthSignificant, significant]
  | cons token tokens ih =>
      rw [Cursor.nthSignificant.eq_def]
      by_cases hsignificant : token.isSignificant = true
      · simp only [if_pos hsignificant, significant, List.filter_cons_of_pos hsignificant]
        cases n with
        | zero => rfl
        | succ n => exact ih n
      · simp only [if_neg hsignificant, significant, List.filter_cons_of_neg hsignificant]
        exact ih n

theorem leadingSignificant_eq (accept : Token → Bool) (tokens : List Token) :
    Cursor.leadingSignificant accept tokens = (significant tokens).takeWhile accept := by
  induction tokens with
  | nil => rfl
  | cons token tokens ih =>
      rw [Cursor.leadingSignificant]
      by_cases hsignificant : token.isSignificant = true
      · rw [if_pos hsignificant, significant, List.filter_cons_of_pos hsignificant,
          List.takeWhile_cons, ih]
        rfl
      · rw [if_neg hsignificant, significant, List.filter_cons_of_neg hsignificant]
        exact ih

section Stands

variable (table : List Token)

/-- The walk stands at the index, behind the significant tokens `done` and before `us`, with the
given parentheses open. -/
structure Stands (index : Nat) (done us : List Token) (groups : List Nat) (walk : Walk) : Prop where
  tokens_eq : walk.cursor.tokens = table
  index_eq : walk.cursor.index = index
  grouping_eq : walk.grouping = groups
  done_eq : significant (table.take index) = done
  rest_eq : significant (table.drop index) = us

/-- The walk stands right behind the last token that it has read. -/
abbrev Inside (done us : List Token) (groups : List Nat) (walk : Walk) : Prop :=
  Stands table (spanOf done).2 done us groups walk

variable {table} {index : Nat} {done us : List Token} {groups : List Nat} {walk : Walk}

namespace Stands

theorem split (h : Stands table index done us groups walk) : significant table = done ++ us := by
  rw [← h.done_eq, ← h.rest_eq, ← significant_append, List.take_append_drop]

theorem cursor_rest (h : Stands table index done us groups walk) :
    walk.cursor.rest = table.drop index := by
  rw [walk.cursor.rest_eq, h.tokens_eq, h.index_eq]

theorem peekNth (h : Stands table index done us groups walk) (n : Nat) :
    walk.cursor.peekNth n = us[n]? := by
  rw [Cursor.peekNth, nthSignificant_eq, h.cursor_rest, h.rest_eq]

theorem peek (h : Stands table index done us groups walk) : walk.cursor.peek = us.head? := by
  rw [Cursor.peek, ← List.head?_filter, h.cursor_rest]
  exact congrArg List.head? h.rest_eq

theorem leading (h : Stands table index done us groups walk) (accept : Token → Bool) :
    Cursor.leadingSignificant accept walk.cursor.rest = us.takeWhile accept := by
  rw [leadingSignificant_eq, h.cursor_rest, h.rest_eq]

theorem withGrouping (h : Stands table index done us groups walk) (groups' : List Nat) :
    Stands table index done us groups' { walk with grouping := groups' } :=
  ⟨h.tokens_eq, h.index_eq, rfl, h.done_eq, h.rest_eq⟩

theorem next_token {token : Token} (h : Stands table index done (token :: us) groups walk)
    (htable : IsTable table) :
    index ≤ token.index ∧
      table.drop index = (table.take token.index).drop index ++ token :: table.drop (token.index + 1) ∧
      (∀ other ∈ (table.take token.index).drop index, other.isSignificant = false) ∧
      significant (table.drop (token.index + 1)) = us ∧
      significant (table.take (token.index + 1)) = done ++ [token] := by
  obtain ⟨skipped, more, hdrop, hskipped, hsignificant, hmore⟩ :=
    List.filter_eq_cons_iff.mp h.rest_eq
  have hlength : index + skipped.length < table.length := by
    have hlengths := congrArg List.length hdrop
    simp only [List.length_drop, List.length_append, List.length_cons] at hlengths
    omega
  have htoken : table[index + skipped.length] = token := by
    have hget : (table.drop index)[skipped.length]? = some token := by simp [hdrop]
    rw [List.getElem?_drop, List.getElem?_eq_getElem hlength] at hget
    exact Option.some.inj hget
  have hindex : token.index = index + skipped.length := by
    rw [← htoken]
    exact htable.index_eq _ hlength
  have hbetween : (table.take token.index).drop index = skipped := by
    rw [hindex, List.drop_take, hdrop]
    simp
  have hrest : table.drop (token.index + 1) = more := by
    rw [hindex, Nat.add_assoc, ← List.drop_drop, hdrop]
    simp
  have hnone : significant skipped = [] := by
    simpa [significant, List.filter_eq_nil_iff] using hskipped
  have hdone : table.take (token.index + 1) = table.take index ++ (skipped ++ [token]) := by
    rw [hindex, Nat.add_assoc, List.take_add, hdrop, List.append_cons, List.take_left' (by simp)]
  refine ⟨by omega, ?_, ?_, ?_, ?_⟩
  · rw [hbetween, hrest, hdrop]
  · rw [hbetween]
    simpa using hskipped
  · rw [hrest]
    exact hmore
  · rw [hdone, significant_append, significant_append, hnone, h.done_eq]
    simp [significant, hsignificant]

theorem seekOne {token : Token} {kind : TokenKind} {value : Option Text}
    (h : Stands table index done (token :: us) groups walk) (htable : IsTable table)
    (hfits : Cursor.fits token kind value) :
    ∃ cursor, walk.cursor.seekOne kind value =
        (.ok ((table.take token.index).drop index, token), cursor) ∧
      Inside table (done ++ [token]) us groups { walk with cursor } := by
  obtain ⟨hle, hdrop, hskipped, hrest, hdone⟩ := h.next_token htable
  have hlength : ((table.take token.index).drop index).length = token.index - index := by
    have hlengths := congrArg List.length hdrop
    simp only [List.length_drop, List.length_append, List.length_cons, List.length_take] at hlengths ⊢
    omega
  have htake : (walk.cursor.rest.takeWhile fun other => !other.isSignificant) =
      (table.take token.index).drop index := by
    have hsignificant : token.isSignificant := by
      have hmem : token ∈ significant (table.drop index) := by simp [h.rest_eq]
      exact (List.mem_filter.mp hmem).2
    rw [h.cursor_rest, hdrop, List.takeWhile_append_of_pos (by simpa using hskipped)]
    simp [hsignificant]
  have hadvance : (walk.cursor.advanceBy (token.index - index)).rest =
      token :: table.drop (token.index + 1) := by
    change walk.cursor.rest.drop (token.index - index) = _
    rw [h.cursor_rest, hdrop, List.drop_append_of_le_length (by omega),
      List.drop_eq_nil_of_le (by omega), List.nil_append]
  refine ⟨{ (walk.cursor.advanceBy (token.index - index)).advanceBy 1 with
    lastMatched := some (walk.cursor.advanceBy (token.index - index)).index }, ?_, ?_⟩
  · unfold Cursor.seekOne Cursor.skipInsignificant
    simp only [htake, hlength, hadvance, hfits, if_true]
  · have hspan : (spanOf (done ++ [token])).2 = token.index + 1 := by simp [spanOf]
    refine ⟨h.tokens_eq, ?_, h.grouping_eq, ?_, ?_⟩
    · rw [hspan]
      simp only [Cursor.advanceBy, h.index_eq]
      omega
    · rw [hspan]
      exact hdone
    · rw [hspan]
      exact hrest

end Stands

/-! ### Steps -/

theorem walks_onCursor {act : Cursor → Except Divergence α × Cursor} {result : α} {cursor : Cursor}
    {good : α → Walk → Prop} (h : act walk.cursor = (.ok result, cursor))
    (hgood : good result { walk with cursor }) : Walks (onCursor act) walk good := by
  have hrun : onCursor act walk = .ok (result, { walk with cursor }) := by
    simp only [onCursor, bind, StateT.bind, get, getThe, MonadStateOf.get, StateT.get, pure,
      Except.pure, Except.bind, h]
    rfl
  exact .inr ⟨result, { walk with cursor }, hrun, hgood⟩

section Steps

variable (htable : IsTable table)

include htable

theorem walks_seek {token : Token} {kind : TokenKind} {good : List Token × Token → Walk → Prop}
    (h : Stands table index done (token :: us) groups walk) (hfits : token.isKind kind)
    (hgood : ∀ next, Inside table (done ++ [token]) us groups next →
      good ((table.take token.index).drop index, token) next) :
    Walks (seek kind) walk good := by
  obtain ⟨cursor, hseek, hnext⟩ := h.seekOne htable hfits
  exact walks_onCursor hseek (hgood _ hnext)

theorem walks_expect {token : Token} {kind : TokenKind} {value : Option Text}
    {good : Token → Walk → Prop} (h : Stands table index done (token :: us) groups walk)
    (hfits : Cursor.fits token kind value)
    (hgood : ∀ next, Inside table (done ++ [token]) us groups next → good token next) :
    Walks (expect kind value) walk good := by
  obtain ⟨cursor, hseek, hnext⟩ := h.seekOne htable hfits
  exact Walks.bind (walks_onCursor hseek (Walks.pure (hgood _ hnext)))

end Steps

theorem walks_nthFits {n : Nat} {kind : TokenKind} {value : Option Text} {good : Bool → Walk → Prop}
    (h : Stands table index done us groups walk)
    (hgood : good (us[n]?.any fun token => Cursor.fits token kind value) walk) :
    Walks (nthFits n kind value) walk good := by
  rw [← h.peekNth n] at hgood
  exact .inr ⟨_, walk, rfl, hgood⟩

theorem walks_nextIs {symbol : Text} {good : Bool → Walk → Prop}
    (h : Stands table index done us groups walk)
    (hgood : good (us.head?.any (·.isOperator symbol)) walk) : Walks (nextIs symbol) walk good := by
  refine walks_nthFits h ?_
  rwa [List.head?_eq_getElem?] at hgood

end Stands

/-! ### What an expression takes -/

/-- The tokens stand in the order of their indices. -/
abbrev Increasing (ts : List Token) : Prop :=
  ts.Pairwise fun first second => first.index < second.index

section Spans

variable {ts us : List Token}

theorem spanOf_append (hts : ts ≠ []) (hus : us ≠ []) :
    spanOf (ts ++ us) = ((spanOf ts).1, (spanOf us).2) := by
  obtain ⟨first, ts, rfl⟩ := List.exists_cons_of_ne_nil hts
  rw [spanOf, List.getLast?_append_of_ne_nil _ hus]
  rfl

theorem spanOf_lt (h : Increasing ts) (hts : ts ≠ []) : (spanOf ts).1 < (spanOf ts).2 := by
  rcases List.eq_nil_or_concat ts with rfl | ⟨ts, last, rfl⟩
  · exact absurd rfl hts
  cases ts with
  | nil => simp [spanOf]
  | cons first ts =>
      have hlt := (List.pairwise_cons.mp h).1 last (by simp)
      simp only [spanOf, List.concat_eq_append, List.head?_append, List.head?_cons, Option.some_or,
        Option.map_some, Option.getD_some, List.getLast?_append, List.getLast?_singleton]
      omega

theorem spanOf_le (h : Increasing (ts ++ us)) (hts : ts ≠ []) (hus : us ≠ []) :
    (spanOf ts).2 ≤ (spanOf us).1 := by
  rcases List.eq_nil_or_concat ts with rfl | ⟨ts, last, rfl⟩
  · exact absurd rfl hts
  obtain ⟨first, us, rfl⟩ := List.exists_cons_of_ne_nil hus
  have hlt := (List.pairwise_append.mp h).2.2 last (by simp) first (by simp)
  simpa [spanOf] using hlt

end Spans

def Extent.over (extent : Extent) (ts : List Token) : Extent :=
  if ts = [] then extent else extent.cover (spanOf ts)

namespace Extent

variable {extent : Extent} {ts us : List Token}

theorem over_nil : extent.over [] = extent := if_pos rfl

theorem over_of_ne_nil (h : ts ≠ []) : extent.over ts = extent.cover (spanOf ts) :=
  if_neg h

theorem over_append (h : Increasing (ts ++ us)) :
    (extent.over ts).over us = extent.over (ts ++ us) := by
  by_cases hts : ts = []
  · rw [hts, over_nil, List.nil_append]
  by_cases hus : us = []
  · rw [hus, over_nil, List.append_nil]
  have hincreasing := List.pairwise_append.mp h
  have hfirst := spanOf_lt hincreasing.1 hts
  have hsecond := spanOf_lt hincreasing.2.1 hus
  have hbetween := spanOf_le h hts hus
  have hearliest : ∀ before : Option Nat,
      earliest (earliest before (spanOf ts).1) (spanOf us).1 = earliest before (spanOf ts).1 := by
    intro before
    cases before with
    | none => exact congrArg some (min_eq_right (by simp; omega))
    | some index => exact congrArg some (min_eq_right (by simp; omega))
  rw [over_of_ne_nil hts, over_of_ne_nil hus, over_of_ne_nil (by simp [hts]), spanOf_append hts hus]
  simp only [cover, hearliest, Extent.mk.injEq, true_and]
  omega

end Extent

/-! ### Taking tokens -/

/-- No parenthesis is open right before the next token. -/
abbrev Apart (groups : List Nat) (done : List Token) : Prop :=
  ∀ group ∈ groups, group + 1 < (spanOf done).2

/-- The parentheses that are open have been read. -/
abbrev Past (groups : List Nat) (done : List Token) : Prop :=
  ∀ group ∈ groups, group < (spanOf done).2

variable {done : List Token} {groups : List Nat}

theorem Stands.increasing {table us : List Token} {index : Nat} {walk : Walk}
    (h : Stands table index done us groups walk) (htable : IsTable table) :
    Increasing (done ++ us) :=
  h.split ▸ htable.pairwise_significant

theorem Past.apart {ts : List Token} (h : Past groups done) (hts : ts ≠ [])
    (hincreasing : Increasing (done ++ ts)) : Apart groups (done ++ ts) := by
  intro group hgroup
  have hbefore := h group hgroup
  have hne : done ≠ [] := by
    rintro rfl
    simp [spanOf] at hbefore
  have hbetween := spanOf_le hincreasing hne hts
  have hlt := spanOf_lt (List.pairwise_append.mp hincreasing).2.1 hts
  rw [spanOf_append hne hts]
  dsimp only
  omega

theorem Apart.append {ts : List Token} (h : Apart groups done)
    (hincreasing : Increasing (done ++ ts)) : Apart groups (done ++ ts) := by
  by_cases hts : ts = []
  · simpa [hts] using h
  · refine Past.apart (fun group hgroup => ?_) hts hincreasing
    have hbefore := h group hgroup
    omega

section Takes

variable (table : List Token)

/-- The part takes the tokens for the expression, if no parenthesis is open right before them. -/
def Takes (part : Covering α) (ts us : List Token) (good : α → Prop) : Prop :=
  ∀ done groups extent walk, Inside table done (ts ++ us) groups walk → Apart groups done →
    Covers part extent walk fun value extent' next =>
      good value ∧ extent' = extent.over ts ∧ Inside table (done ++ ts) us groups next

variable {table}

theorem any_head?_of_notNext {those : Token → Bool} {us : List Token} (h : NotNext those us) :
    us.head?.any those = false := by
  cases us with
  | nil => rfl
  | cons token us => simpa [NotNext] using h

namespace Takes

variable {ts ts' us : List Token} {token : Token}

theorem mono {part : Covering α} {good good' : α → Prop} (h : Takes table part ts us good)
    (himp : ∀ value, good value → good' value) : Takes table part ts us good' := by
  intro done groups extent walk hwalk hgroups
  exact (h done groups extent walk hwalk hgroups).mono fun value _ _ hgood =>
    ⟨himp value hgood.1, hgood.2⟩

protected theorem pure {value : α} {good : α → Prop} (h : good value) :
    Takes table (Pure.pure value) [] us good := by
  intro done groups extent walk hwalk hgroups
  exact Covers.pure ⟨h, Extent.over_nil.symm, by simpa using hwalk⟩

theorem map {part : Covering α} {f : α → β} {good : β → Prop}
    (h : Takes table part ts us fun value => good (f value)) :
    Takes table (do return f (← part)) ts us good := by
  intro done groups extent walk hwalk hgroups
  exact Covers.bind ((h done groups extent walk hwalk hgroups).mono fun _ _ _ hgood =>
    Covers.pure hgood)

variable {kind : TokenKind} {value : Option Text}

theorem nextFits {second : Bool → Covering β} {good : β → Prop}
    (h : Takes table (second ((ts ++ us).head?.any fun token => Cursor.fits token kind value)) ts us
      good) :
    Takes table (liftM (Alignment.nextFits kind value) >>= second) ts us good := by
  intro done groups extent walk hwalk hgroups
  refine Covers.bind_lift (walks_nthFits hwalk ?_)
  rw [← List.head?_eq_getElem?]
  exact h done groups extent walk hwalk hgroups

theorem nextFits_of {second : Bool → Covering β} {good : β → Prop}
    (htoken : Cursor.fits token kind value)
    (h : Takes table (second true) (token :: ts) us good) :
    Takes table (liftM (Alignment.nextFits kind value) >>= second) (token :: ts) us good := by
  refine nextFits ?_
  have hhit : ((token :: ts ++ us).head?.any fun token => Cursor.fits token kind value) = true :=
    htoken
  rwa [hhit]

theorem nextFits_not {second : Bool → Covering β} {good : β → Prop}
    (hnext : NotNext (fun token => Cursor.fits token kind value) (ts ++ us))
    (h : Takes table (second false) ts us good) :
    Takes table (liftM (Alignment.nextFits kind value) >>= second) ts us good := by
  refine nextFits ?_
  rwa [any_head?_of_notNext hnext]

theorem nextIs_of {symbol : Text} {second : Bool → Covering β} {good : β → Prop}
    (htoken : token.isOperator symbol)
    (h : Takes table (second true) (token :: ts) us good) :
    Takes table (liftM (Alignment.nextIs symbol) >>= second) (token :: ts) us good :=
  nextFits_of htoken h

theorem nextIs_not {symbol : Text} {second : Bool → Covering β} {good : β → Prop}
    (hnext : NotNext (·.isOperator symbol) (ts ++ us))
    (h : Takes table (second false) ts us good) :
    Takes table (liftM (Alignment.nextIs symbol) >>= second) ts us good :=
  nextFits_not hnext h

section Table

variable (htable : IsTable table)

include htable

theorem bind {first : Covering α} {second : α → Covering β} {good : β → Prop}
    (h : Takes table first ts (ts' ++ us) fun value => Takes table (second value) ts' us good) :
    Takes table (first >>= second) (ts ++ ts') us good := by
  intro done groups extent walk hwalk hgroups
  rw [List.append_assoc] at hwalk
  have hincreasing := hwalk.increasing htable
  refine Covers.bind ((h done groups extent walk hwalk hgroups).mono ?_)
  rintro value _ next ⟨hvalue, rfl, hnext⟩
  have hdone : Increasing (done ++ ts) := by
    rw [← List.append_assoc] at hincreasing
    exact (List.pairwise_append.mp hincreasing).1
  refine (hvalue (done ++ ts) groups _ next hnext (hgroups.append hdone)).mono ?_
  rintro result _ last ⟨hresult, rfl, hlast⟩
  refine ⟨hresult, Extent.over_append ?_, by simpa using hlast⟩
  have htaken := (List.pairwise_append.mp hincreasing).2.1
  rw [← List.append_assoc] at htaken
  exact (List.pairwise_append.mp htaken).1

theorem bind_of {first : Covering α} {second : α → Covering β} {middle : α → Prop}
    {good : β → Prop} (h : Takes table first ts (ts' ++ us) middle)
    (hsecond : ∀ value, middle value → Takes table (second value) ts' us good) :
    Takes table (first >>= second) (ts ++ ts') us good :=
  bind htable (h.mono hsecond)

theorem bind_at {us' : List Token} {first : Covering α} {second : α → Covering β}
    {middle : α → Prop} {good : β → Prop} (h : Takes table first ts us' middle)
    (hus : us' = ts' ++ us)
    (hsecond : ∀ value, middle value → Takes table (second value) ts' us good) :
    Takes table (first >>= second) (ts ++ ts') us good :=
  bind_of htable (hus ▸ h) hsecond

theorem bind_last {first : Covering α} {second : α → Covering β} {middle : α → Prop}
    {good : β → Prop} (h : Takes table first ts us middle)
    (hsecond : ∀ value, middle value → Takes table (second value) [] us good) :
    Takes table (first >>= second) ts us good := by
  simpa using bind_at htable h (List.nil_append us).symm hsecond

theorem bind_nothing {first : Covering α} {second : α → Covering β} {middle : α → Prop}
    {good : β → Prop} (h : Takes table first [] (ts ++ us) middle)
    (hsecond : ∀ value, middle value → Takes table (second value) ts us good) :
    Takes table (first >>= second) ts us good :=
  bind_of htable h hsecond

theorem consume {kind : TokenKind} {value : Option Text}
    (hfits : Cursor.fits token kind value) :
    Takes table (Alignment.consume kind value) [token] us (· = token) := by
  intro done groups extent walk hwalk hgroups
  refine Covers.bind_lift (walks_expect htable hwalk hfits fun next hnext => ?_)
  exact Covers.bind_modify (Covers.pure ⟨rfl, rfl, hnext⟩)

theorem consume_bind {kind : TokenKind} {value : Option Text} {second : Token → Covering β}
    {good : β → Prop} (hfits : Cursor.fits token kind value)
    (h : Takes table (second token) ts us good) :
    Takes table (Alignment.consume kind value >>= second) (token :: ts) us good :=
  bind_of htable (consume htable hfits) fun _ hvalue => hvalue ▸ h

variable {symbol : Text}

theorem consumeOperator (htoken : token.isOperator symbol) :
    Takes table (Alignment.consumeOperator symbol) [token] us fun _ => True :=
  consume_bind htable htoken (Takes.pure trivial)

theorem consumeName {word : Text} (htoken : token.isName word) :
    Takes table (Alignment.consumeName word) [token] us fun _ => True :=
  consume_bind htable htoken (Takes.pure trivial)

theorem operator_bind {second : Unit → Covering β} {good : β → Prop}
    (htoken : token.isOperator symbol) (h : Takes table (second ()) ts us good) :
    Takes table (Alignment.consumeOperator symbol >>= second) (token :: ts) us good :=
  bind_of htable (consumeOperator htable htoken) fun _ _ => h

theorem name_bind {word : Text} {second : Unit → Covering β} {good : β → Prop}
    (htoken : token.isName word) (h : Takes table (second ()) ts us good) :
    Takes table (Alignment.consumeName word >>= second) (token :: ts) us good :=
  bind_of htable (consumeName htable htoken) fun _ _ => h

theorem consumeIfNext_of (htoken : token.isOperator symbol) :
    Takes table (consumeIfNext symbol) [token] us fun _ => True :=
  nextIs_of htoken (consumeOperator htable htoken)

omit htable in
theorem consumeIfNext_not (hnext : NotNext (·.isOperator symbol) us) :
    Takes table (consumeIfNext symbol) [] us fun _ => True :=
  nextIs_not hnext (Takes.pure trivial)

omit htable in
theorem covering {part : Covering α} {good : α → Prop} (h : Takes table part ts us good)
    (hts : ts ≠ []) :
    Takes table (Alignment.covering part) ts us fun result =>
      good result.1 ∧ result.2 = spanOf ts := by
  intro done groups extent walk hwalk hgroups
  refine Covers.bind_lift ?_
  refine Walks.mono (h done groups {} walk hwalk hgroups) ?_
  rintro ⟨value, own⟩ next ⟨hvalue, hown, hnext⟩
  have hspan : own.span = spanOf ts := by
    dsimp only at hown
    rw [hown, Extent.over_of_ne_nil hts]
    simp [Extent.cover, Extent.earliest, Extent.span]
  refine Covers.bind_modify (Covers.pure ⟨⟨hvalue, hspan⟩, ?_, hnext⟩)
  rw [hspan, Extent.over_of_ne_nil hts]

end Table

end Takes

end Takes

end JinjaLayout.Alignment
