import Mathlib
import JinjaLayout.Proofs.TablePairs
import JinjaLayout.Token.Cursor

/-!
The cursor of a token table. Main statement: whatever calls came before, a search reads the tokens
between the old place and the new one, and none but those, and stops in front of the first token that
it does not look for.
-/

namespace JinjaLayout.Cursor

open List

/-- A call that may move the cursor. -/
inductive Call where
  | seek (kind : TokenKind) (values : List Text)
  | advance
  | takeInsignificant (keep : Token → Bool)
  | moveTo (index : Nat)

def Call.run : Call → Cursor → Cursor
  | seek kind values, cursor => (cursor.seek kind values).2
  | advance, cursor => cursor.advance.2
  | takeInsignificant keep, cursor => (cursor.takeInsignificant keep).2
  | moveTo index, cursor => cursor.moveTo index

def afterCalls (cursor : Cursor) (calls : List Call) : Cursor :=
  calls.foldl (fun cursor call => call.run cursor) cursor

/-- The cursor stands in the table or right behind it, and has read significant tokens only. -/
structure StandsIn (tokens : List Token) (cursor : Cursor) : Prop where
  tokens_eq : cursor.tokens = tokens
  index_le : cursor.index ≤ tokens.length
  lastMatched : ∀ index ∈ cursor.lastMatched,
    ∃ token, tokens[index]? = some token ∧ token.isSignificant = true

/-- The tokens from the place of the first cursor up to that of the second. -/
def passed (cursor next : Cursor) : List Token :=
  (cursor.tokens.take next.index).drop cursor.index

def rounds : List Text → List (Option Text)
  | [] => [none]
  | values => values.map some

/-- The tokens from one place up to the other are those skipped, and significant ones for the
rounds, one after the other. -/
structure Reads (kind : TokenKind) (values : List (Option Text)) (skipped : List Token)
    (cursor next : Cursor) : Prop where
  tokens_eq : next.tokens = cursor.tokens
  index_le : cursor.index ≤ next.index
  skipped_eq : (passed cursor next).filter (fun token => !token.isSignificant) = skipped
  matched : ((passed cursor next).filter Token.isSignificant).Forall₂
    (fun token value => fits token kind value = true) values

/-- The token stands right before the cursor, which has read it last. -/
structure EndsWith (token : Token) (cursor : Cursor) : Prop where
  getElem?_eq : cursor.tokens[cursor.index - 1]? = some token
  lastMatched_eq : cursor.lastMatched = some (cursor.index - 1)

/-- The cursor stands on a significant token that does not fit, or behind the last token. -/
def StopsAt (kind : TokenKind) (value : Option Text) (cursor : Cursor) : Prop :=
  cursor.index = cursor.tokens.length ∨
    ∃ token, cursor.tokens[cursor.index]? = some token ∧ token.isSignificant = true ∧
      fits token kind value = false

/-- What a search in rounds comes to. Where it fails, the rounds before have read their tokens, and
the cursor stays in front of the first significant token that does not fit. -/
def Searches (kind : TokenKind) (values : List (Option Text)) (cursor : Cursor) :
    Except Divergence (List Token × Token) × Cursor → Prop
  | (.ok (skipped, token), next) => Reads kind values skipped cursor next ∧ EndsWith token next
  | (.error divergence, next) => ∃ before value after skipped, values = before ++ value :: after ∧
      Reads kind before skipped cursor next ∧ StopsAt kind value next ∧
      divergence = next.divergence kind value

structure LosesNothing (tokens : List Token) (cursor : Cursor) : Prop where
  standsIn : cursor.StandsIn tokens
  index_eq : ∀ i (h : i < tokens.length), tokens[i].index = i
  seek : ∀ kind values, Searches kind (rounds values) cursor (cursor.seek kind values)
  advance_iff : (∃ found, cursor.advance.1 = .ok found) ↔
    ∃ token ∈ tokens.drop cursor.index, token.isSignificant = true

section Passed

variable {cursor middle next : Cursor} {front after : List Token}

theorem passed_eq (htokens : next.tokens = cursor.tokens)
    (hindex : next.index = cursor.index + front.length) (hrest : cursor.rest = front ++ after) :
    passed cursor next = front ∧ next.rest = after := by
  rw [cursor.rest_eq] at hrest
  constructor
  · rw [passed, hindex, drop_take, Nat.add_sub_cancel_left, hrest, take_left]
  · rw [next.rest_eq, htokens, hindex, ← drop_drop, hrest, drop_left]

theorem passed_trans (htokens : middle.tokens = cursor.tokens) (hfirst : cursor.index ≤ middle.index)
    (hsecond : middle.index ≤ next.index) :
    passed cursor next = passed cursor middle ++ passed middle next := by
  obtain ⟨first, hfirst⟩ := Nat.exists_eq_add_of_le hfirst
  obtain ⟨second, hsecond⟩ := Nat.exists_eq_add_of_le hsecond
  simp only [passed, htokens, hsecond, hfirst, drop_take, Nat.add_sub_cancel_left]
  rw [Nat.add_assoc, Nat.add_sub_cancel_left, take_add, drop_drop]

end Passed

theorem rest_skipInsignificant (cursor : Cursor) :
    cursor.skipInsignificant.2.rest = cursor.rest.dropWhile fun token => !token.isSignificant := by
  have hsplit := takeWhile_append_dropWhile (p := fun token => !token.isSignificant)
    (l := cursor.rest)
  calc cursor.rest.drop (cursor.rest.takeWhile fun token => !token.isSignificant).length
      = (cursor.rest.takeWhile (fun token => !token.isSignificant) ++
          cursor.rest.dropWhile fun token => !token.isSignificant).drop
            (cursor.rest.takeWhile fun token => !token.isSignificant).length := by rw [hsplit]
    _ = cursor.rest.dropWhile fun token => !token.isSignificant := drop_left

/-- The next significant token is read if it fits; otherwise the cursor stops in front of it. -/
theorem seekOne_cases (cursor : Cursor) (kind : TokenKind) (value : Option Text) :
    ∃ skipped after next, cursor.rest = skipped ++ after ∧
      (∀ token ∈ skipped, token.isSignificant = false) ∧ next.tokens = cursor.tokens ∧
      ((∃ token more, after = token :: more ∧ token.isSignificant = true ∧
          fits token kind value ∧ next.index = cursor.index + (skipped.length + 1) ∧
          next.lastMatched = some (cursor.index + skipped.length) ∧
          cursor.seekOne kind value = (.ok (skipped, token), next)) ∨
        ((∀ token ∈ after.head?, token.isSignificant ∧ fits token kind value = false) ∧
          next.index = cursor.index + skipped.length ∧ next.lastMatched = cursor.lastMatched ∧
          cursor.seekOne kind value = (.error (next.divergence kind value), next))) := by
  have hsplit := takeWhile_append_dropWhile (p := fun token => !token.isSignificant)
    (l := cursor.rest)
  have hskipped : ∀ token ∈ cursor.rest.takeWhile (fun token => !token.isSignificant),
      token.isSignificant = false := by
    intro token htoken
    simpa using mem_takeWhile_imp htoken
  have hhead := head?_dropWhile_not (fun token => !token.isSignificant) cursor.rest
  have hrest := cursor.rest_skipInsignificant
  refine ⟨cursor.skipInsignificant.1, cursor.skipInsignificant.2.rest, ?_⟩
  cases hafter : cursor.rest.dropWhile fun token => !token.isSignificant with
  | nil =>
      rw [hafter] at hsplit hrest
      rw [hrest]
      refine ⟨cursor.skipInsignificant.2, hsplit.symm, hskipped, rfl, .inr ⟨by simp, rfl, rfl, ?_⟩⟩
      simp only [seekOne, hrest]
  | cons token more =>
      rw [hafter] at hsplit hrest hhead
      rw [hrest]
      have hsignificant : token.isSignificant := by simpa using hhead
      by_cases hfits : fits token kind value = true
      · refine ⟨{ cursor.skipInsignificant.2.advanceBy 1 with
          lastMatched := some cursor.skipInsignificant.2.index }, hsplit.symm, hskipped, rfl,
          .inl ⟨token, more, rfl, hsignificant, hfits, Nat.add_assoc .., rfl, ?_⟩⟩
        simp only [seekOne, hrest, hfits, if_true]
      · refine ⟨cursor.skipInsignificant.2, hsplit.symm, hskipped, rfl, .inr ⟨?_, rfl, rfl, ?_⟩⟩
        · simpa [hsignificant] using hfits
        · simp [seekOne, hrest, hfits]

section Rounds

variable {start cursor next : Cursor} {kind : TokenKind} {values : List (Option Text)}
  {value : Option Text} {skipped more : List Token} {token : Token} {divergence : Divergence}

theorem Reads.refl (cursor : Cursor) (kind : TokenKind) : Reads kind [] [] cursor cursor := by
  have hnone : passed cursor cursor = [] := by simp [passed]
  exact ⟨rfl, le_rfl, by simp [hnone], by simp [hnone]⟩

theorem Reads.seekOne_ok (h : Reads kind values skipped start cursor)
    (hseek : cursor.seekOne kind value = (.ok (more, token), next)) :
    Reads kind (values ++ [value]) (skipped ++ more) start next ∧ EndsWith token next := by
  obtain ⟨skipped', after, next', hrest, hskipped, htokens,
    ⟨token', rest, rfl, hsignificant, hfits, hindex, hlast, hok⟩ | ⟨-, -, -, herror⟩⟩ :=
    cursor.seekOne_cases kind value
  · obtain ⟨⟨rfl, rfl⟩, rfl⟩ : (skipped' = more ∧ token' = token) ∧ next' = next := by
      simpa using hok.symm.trans hseek
    have hpassed : passed cursor next' = skipped' ++ [token'] :=
      (passed_eq htokens (by simpa using hindex) (by simpa using hrest)).1
    have hnone : skipped'.filter Token.isSignificant = [] := by simpa using hskipped
    have hall : skipped'.filter (fun token => !token.isSignificant) = skipped' := by
      simpa using hskipped
    have hle : cursor.index ≤ next'.index := by omega
    have htrans := passed_trans h.tokens_eq h.index_le hle
    refine ⟨⟨htokens.trans h.tokens_eq, h.index_le.trans hle, ?_, ?_⟩, ?_, ?_⟩
    · rw [htrans, hpassed, filter_append, h.skipped_eq, filter_append, hall]
      simp [hsignificant]
    · rw [htrans, hpassed, filter_append, filter_append, hnone, nil_append]
      exact rel_append h.matched (by simp [hsignificant, hfits])
    · rw [htokens, hindex, ← Nat.add_assoc, Nat.add_sub_cancel, ← getElem?_drop,
        ← cursor.rest_eq, hrest]
      simp
    · rw [hlast, hindex, ← Nat.add_assoc, Nat.add_sub_cancel]
  · simp [herror] at hseek

theorem Reads.seekOne_error (h : Reads kind values skipped start cursor)
    (hle : cursor.index ≤ cursor.tokens.length)
    (hseek : cursor.seekOne kind value = (.error divergence, next)) :
    (∃ skipped, Reads kind values skipped start next) ∧ StopsAt kind value next ∧
      divergence = next.divergence kind value := by
  obtain ⟨skipped', after, next', hrest, hskipped, htokens,
    ⟨_, _, _, _, _, _, _, hok⟩ | ⟨hstop, hindex, -, herror⟩⟩ := cursor.seekOne_cases kind value
  · simp [hok] at hseek
  · obtain ⟨rfl, rfl⟩ : next'.divergence kind value = divergence ∧ next' = next := by
      simpa using herror.symm.trans hseek
    obtain ⟨hpassed, hafter⟩ := passed_eq htokens hindex hrest
    have hnone : skipped'.filter Token.isSignificant = [] := by simpa using hskipped
    refine ⟨⟨_, htokens.trans h.tokens_eq, h.index_le.trans (by omega), rfl, ?_⟩, ?_, rfl⟩
    · rw [passed_trans h.tokens_eq h.index_le (by omega), hpassed, filter_append, hnone,
        append_nil]
      exact h.matched
    · cases after with
      | nil =>
          have hlength := congrArg length hrest
          rw [cursor.rest_eq, length_drop, length_append, length_nil] at hlength
          refine .inl ?_
          rw [htokens]
          omega
      | cons token more =>
          refine .inr ⟨token, ?_, hstop token rfl⟩
          rw [← Nat.add_zero next'.index, ← getElem?_drop, ← next'.rest_eq, hafter]
          rfl

end Rounds

/-! ### What calls keep -/

section Calls

variable {tokens : List Token} {cursor : Cursor}

theorem StandsIn.seekOne (h : StandsIn tokens cursor) (kind : TokenKind) (value : Option Text) :
    StandsIn tokens (cursor.seekOne kind value).2 := by
  obtain ⟨skipped, after, next, hrest, -, htokens, hcases⟩ := cursor.seekOne_cases kind value
  have hlength := congrArg length hrest
  rw [cursor.rest_eq, h.tokens_eq, length_drop, length_append] at hlength
  have hle := h.index_le
  rcases hcases with ⟨token, more, rfl, hsignificant, -, hindex, hlast, hseek⟩ |
    ⟨-, hindex, hlast, hseek⟩
  · rw [hseek]
    refine ⟨htokens.trans h.tokens_eq, ?_, ?_⟩
    · rw [length_cons] at hlength
      dsimp only
      omega
    · rw [hlast]
      rintro _ ⟨⟩
      refine ⟨token, ?_, hsignificant⟩
      rw [← h.tokens_eq, ← getElem?_drop, ← cursor.rest_eq, hrest]
      simp
  · rw [hseek]
    refine ⟨htokens.trans h.tokens_eq, ?_, ?_⟩
    · dsimp only
      omega
    · rw [hlast]
      exact h.lastMatched

theorem StandsIn.seekValues (h : StandsIn tokens cursor) (kind : TokenKind) (skipped : List Token)
    (last : Token) (values : List Text) :
    StandsIn tokens (cursor.seekValues kind skipped last values).2 := by
  induction values generalizing cursor skipped last with
  | nil => exact h
  | cons value values ih =>
      have hnext := h.seekOne kind (some value)
      unfold Cursor.seekValues
      split
      · rename_i hseek
        rwa [hseek] at hnext
      · rename_i hseek
        rw [hseek] at hnext
        exact ih hnext _ _

theorem seek_cons (cursor : Cursor) (kind : TokenKind) (value : Text) (values : List Text) :
    cursor.seek kind (value :: values) = cursor.seekValues kind [] default (value :: values) := by
  simp only [Cursor.seek, Cursor.seekValues, nil_append]

theorem StandsIn.seek (h : StandsIn tokens cursor) (kind : TokenKind) (values : List Text) :
    StandsIn tokens (cursor.seek kind values).2 := by
  cases values with
  | nil => exact h.seekOne kind none
  | cons value values =>
      rw [seek_cons]
      exact h.seekValues kind _ _ _

theorem StandsIn.advanceBy (h : StandsIn tokens cursor) {front : List Token}
    (hfront : front <+: cursor.rest) : StandsIn tokens (cursor.advanceBy front.length) := by
  refine ⟨h.tokens_eq, ?_, h.lastMatched⟩
  have hlength := hfront.length_le
  rw [cursor.rest_eq, h.tokens_eq, length_drop] at hlength
  have hle := h.index_le
  change cursor.index + front.length ≤ _
  omega

theorem StandsIn.run (h : StandsIn tokens cursor) (call : Call) :
    StandsIn tokens (call.run cursor) := by
  cases call with
  | seek kind values => exact h.seek kind values
  | advance =>
      unfold Call.run Cursor.advance
      dsimp only
      split
      · exact h.seekOne _ none
      · exact h
  | takeInsignificant keep => exact h.advanceBy (List.takeWhile_prefix _)
  | moveTo index =>
      refine ⟨h.tokens_eq, ?_, h.lastMatched⟩
      rw [← h.tokens_eq]
      exact min_le_right _ _

theorem StandsIn.afterCalls (h : StandsIn tokens cursor) (calls : List Call) :
    StandsIn tokens (cursor.afterCalls calls) := by
  induction calls generalizing cursor with
  | nil => exact h
  | cons call calls ih => exact ih (h.run call)

/-! ### What a search comes to -/

section Searches

variable {start : Cursor} {kind : TokenKind} {done : List (Option Text)} {skipped : List Token}
  {last : Token}

theorem searches_seekValues (hstands : StandsIn tokens cursor)
    (h : Reads kind done skipped start cursor) (values : List Text)
    (hlast : values = [] → EndsWith last cursor) :
    Searches kind (done ++ values.map some) start (cursor.seekValues kind skipped last values) := by
  induction values generalizing cursor done skipped last with
  | nil =>
      rw [map_nil, append_nil]
      exact ⟨h, hlast rfl⟩
  | cons value values ih =>
      have hnext := hstands.seekOne kind (some value)
      unfold Cursor.seekValues
      split
      · rename_i divergence next hseek
        obtain ⟨⟨_, hreads⟩, hstops, hdivergence⟩ :=
          h.seekOne_error (hstands.tokens_eq ▸ hstands.index_le) hseek
        exact ⟨done, _, _, _, rfl, hreads, hstops, hdivergence⟩
      · rename_i more token next hseek
        rw [hseek] at hnext
        obtain ⟨hreads, hends⟩ := h.seekOne_ok hseek
        simpa using ih hnext hreads fun _ => hends

theorem searches_seek (h : StandsIn tokens cursor) (kind : TokenKind) (values : List Text) :
    Searches kind (rounds values) cursor (cursor.seek kind values) := by
  have hnone := Reads.refl cursor kind
  cases values with
  | nil =>
      change Searches kind [none] cursor (cursor.seekOne kind none)
      rcases hseek : cursor.seekOne kind none with ⟨divergence | ⟨skipped, token⟩, next⟩
      · obtain ⟨⟨_, hreads⟩, hstops, hdivergence⟩ :=
          hnone.seekOne_error (h.tokens_eq ▸ h.index_le) hseek
        exact ⟨[], _, _, _, rfl, hreads, hstops, hdivergence⟩
      · exact hnone.seekOne_ok hseek
  | cons value values =>
      rw [seek_cons]
      exact searches_seekValues h hnone _ (by simp)

end Searches

theorem advance_eq_ok_iff (cursor : Cursor) : (∃ found, cursor.advance.1 = .ok found) ↔
    ∃ token ∈ cursor.rest, token.isSignificant := by
  cases hpeek : cursor.peek with
  | none =>
      have hnone : ∀ token ∈ cursor.rest, ¬token.isSignificant = true := find?_eq_none.mp hpeek
      simpa [Cursor.advance, hpeek] using hnone
  | some token =>
      have hsignificant : token.isSignificant := find?_some hpeek
      obtain ⟨lexeme, hlexeme⟩ := Option.isSome_iff_exists.mp hsignificant
      refine iff_of_true ?_ ⟨token, mem_of_find?_eq_some hpeek, hsignificant⟩
      have hadvance : cursor.advance = cursor.seekOne lexeme.kind none := by
        simp [Cursor.advance, hpeek, hlexeme]
      obtain ⟨skipped, after, next, hrest, hskipped, -,
        ⟨found, _, _, _, _, _, _, hok⟩ | ⟨hstop, -⟩⟩ := cursor.seekOne_cases lexeme.kind none
      · exact ⟨_, by rw [hadvance, hok]⟩
      · have hnone : skipped.find? Token.isSignificant = none := by simpa using hskipped
        have hhead : after.find? Token.isSignificant = some token := by
          rw [← hpeek, Cursor.peek, hrest, find?_append, hnone, Option.none_or]
        cases after with
        | nil => simp at hhead
        | cons first more =>
            obtain ⟨hfirst, hfits⟩ := hstop first rfl
            obtain rfl : first = token := by simpa [hfirst] using hhead
            simp [fits, hlexeme] at hfits

end Calls

/-- Whatever is done with the cursor of a token table, no search loses a token. -/
theorem afterCalls_losesNothing (env : Environment) (name : Option String) (source : Text)
    (table : TokenTable) (h : TokenTable.build env name source = .ok table) (calls : List Call) :
    LosesNothing table.tokens (afterCalls { tokens := table.tokens } calls) := by
  have htable := isTable_of_build h
  have hstart : StandsIn table.tokens { tokens := table.tokens } := by
    obtain ⟨initial, middle, last, htokens, -⟩ := htable.exists_middle
    exact ⟨rfl, by simp [htokens], by simp⟩
  have hstands := hstart.afterCalls calls
  refine ⟨hstands, htable.index_eq, searches_seek hstands, ?_⟩
  rw [advance_eq_ok_iff, Cursor.rest_eq, hstands.tokens_eq]

/-- A search that fails in its second round, a jump behind the table and one back. -/
theorem losesNothing_of_calls :
    ∃ table, TokenTable.build {} none "{{ a not in b }}".toList = .ok table ∧
      LosesNothing table.tokens (afterCalls { tokens := table.tokens }
        [.seek .name ["a".toList], .advance, .seek .name ["a".toList, "in".toList], .moveTo 99,
          .moveTo 2, .takeInsignificant fun token => token.kind == .whitespace]) :=
  ⟨_, rfl, afterCalls_losesNothing {} none "{{ a not in b }}".toList _ rfl _⟩

end JinjaLayout.Cursor
