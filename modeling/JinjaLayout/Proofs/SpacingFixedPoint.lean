import Mathlib
import JinjaLayout.Proofs.SpacingTokens

/-!
A text with the preferred spacing has the preferred spacing. For its tokens this holds without a
condition; for its text the numbers must be read as themselves in it, as everything else is.
-/

namespace JinjaLayout.Spacing

open JinjaLayout.Scan JinjaLayout.Text Insertion List

/-! ### No new characters -/

/-- All characters of the tokens satisfy the predicate. -/
def AllChars (p : Char → Prop) (tokens : List Token) : Prop :=
  ∀ token ∈ tokens, ∀ c ∈ token.text, p c

variable {p : Char → Prop}

variable {tokens : List Token} {text : Text}

theorem AllChars.cons {token : Token} (htoken : ∀ c ∈ token.text, p c) (htokens : AllChars p tokens) :
    AllChars p (token :: tokens) := by
  rintro other hother
  rcases mem_cons.mp hother with rfl | hother
  · exact htoken
  · exact htokens other hother

theorem mem_of_mem_words {word : Text} (h : word ∈ words text) {c : Char} (hc : c ∈ word) :
    c ∈ text := by
  have hgo : ∀ (text front : Text), word ∈ words.go front text → c ∈ front ∨ c ∈ text := by
    intro text
    induction text with
    | nil =>
        intro front hmem
        simp only [words.go] at hmem
        split at hmem
        · simp at hmem
        · obtain rfl := mem_singleton.mp hmem
          exact .inl (by simpa using hc)
    | cons d text ih =>
        intro front hmem
        simp only [words.go] at hmem
        split at hmem
        · split at hmem
          · exact (ih [] hmem).imp (by simp) (mem_cons_of_mem d)
          · rcases mem_cons.mp hmem with rfl | hmem
            · exact .inl (by simpa using hc)
            · exact (ih [] hmem).imp (by simp) (mem_cons_of_mem d)
        · rcases ih (d :: front) hmem with hfront | htext
          · rcases mem_cons.mp hfront with rfl | hfront
            · exact .inr mem_cons_self
            · exact .inl hfront
          · exact .inr (mem_cons_of_mem d htext)
  exact (hgo text [] h).resolve_left (by simp)

theorem mem_paddedComment {c : Char} (h : c ∈ paddedComment text) :
    c = ' ' ∨ c ∈ text := by
  unfold paddedComment at h
  split at h
  · exact .inl (by simpa using h)
  · rw [mem_cons, mem_append, mem_singleton] at h
    rcases h with h | h | h
    · exact .inl h
    · rcases mem_joined h with h | ⟨word, hword, h⟩
      · exact .inl (by simpa using h)
      · exact .inr (mem_of_mem_words hword h)
    · exact .inl h

theorem AllChars.push (hblank : p ' ') {state : Insertion} (hstate : AllChars p state.written)
    {token : Token} (htoken : ∀ c ∈ token.text, p c) : AllChars p (state.push token).written := by
  have htidied : ∀ c ∈ (state.tidied token).text, p c := by
    intro c hc
    unfold tidied at hc
    split at hc
    · rw [mem_singleton.mp hc]
      exact hblank
    · split at hc
      · rcases mem_paddedComment hc with rfl | hc
        · exact hblank
        · exact htoken c hc
      · exact htoken c hc
  have hblanks : ∀ c ∈ Token.blank.text, p c := by
    intro c hc
    rw [mem_singleton.mp hc]
    exact hblank
  have hput : AllChars p (if state.needsBlank (state.tidied token) then Token.blank :: state.written
      else state.written) := by
    split
    · exact hstate.cons hblanks
    · exact hstate
  unfold Insertion.push
  dsimp only
  generalize (if state.needsBlank (state.tidied token) then Token.blank :: state.written
    else state.written) = put at hput ⊢
  split
  · split
    · refine .cons htidied ?_
      unfold blankBefore
      split
      · exact hput
      · exact hput.cons hblanks
    · exact hput.cons htidied
  · exact hput.cons htidied

theorem AllChars.withBlanks (hblank : p ' ') (h : AllChars p tokens) :
    AllChars p (withBlanks tokens) := by
  have hfold : ∀ (tokens : List Token) (state : Insertion), AllChars p tokens →
      AllChars p state.written → AllChars p (tokens.foldl Insertion.push state).written := by
    intro tokens
    induction tokens with
    | nil => exact fun _ _ hstate => hstate
    | cons token tokens ih =>
        intro state htokens hstate
        refine ih _ (fun other hother => htokens other (mem_cons_of_mem _ hother)) ?_
        exact hstate.push hblank (htokens token mem_cons_self)
  intro token htoken
  exact hfold tokens {} h (by simp [AllChars]) token (mem_reverse.mp htoken)

theorem AllChars.dropBlanks {kept : List Token} (hkept : AllChars p kept)
    (htokens : AllChars p tokens) : AllChars p (dropBlanks kept tokens) := by
  induction tokens generalizing kept with
  | nil =>
      intro token htoken
      exact hkept token (mem_reverse.mp htoken)
  | cons token tokens ih =>
      have hrest : AllChars p tokens := fun other hother => htokens other (mem_cons_of_mem _ hother)
      unfold Spacing.dropBlanks
      split
      · exact ih hkept hrest
      · exact ih (hkept.cons (htokens token mem_cons_self)) hrest

theorem AllChars.respaced (hblank : p ' ') (h : AllChars p tokens) :
    AllChars p (respaced tokens) :=
  AllChars.dropBlanks (by simp [AllChars]) (h.withBlanks hblank)

theorem not_mem_normalizeNewlines (text : Text) : '\r' ∉ normalizeNewlines text := by
  fun_induction normalizeNewlines text with
  | case1 => simp
  | case2 rest ih => simpa using ih
  | case3 c rest _ ih =>
      rw [mem_cons, not_or]
      refine ⟨?_, ih⟩
      split
      · decide
      · rename_i hne
        exact fun h => hne h.symm

theorem normalizeNewlines_eq_self (h : '\r' ∉ text) : normalizeNewlines text = text := by
  fun_induction normalizeNewlines text with
  | case1 => rfl
  | case2 rest ih => simp at h
  | case3 c rest _ ih =>
      rw [mem_cons, not_or] at h
      rw [if_neg fun hc => h.1 hc.symm, ih h.2]

theorem normalizeNewlines_reformatted (text : Text) :
    normalizeNewlines (check text).reformatted = (check text).reformatted := by
  apply normalizeNewlines_eq_self
  unfold check
  cases hscan : scan .spacingCheck (normalizeNewlines text) with
  | error error => simp [Report.reformatted]
  | ok pieces =>
      have htext : textOfCuts (pieces.map Piece.cut) = normalizeNewlines text :=
        ((scan_eq_ok_iff isStock_spacingCheck).mp ⟨pieces, hscan, rfl⟩).1
      have hchars : AllChars (· ≠ '\r') (pieces.map Token.ofPiece) := by
        rintro token htoken c hc rfl
        apply not_mem_normalizeNewlines text
        rw [← htext, ← flatMap_text_tokensOf, ← map_ofPiece]
        exact mem_flatMap.mpr ⟨token, htoken, hc⟩
      intro hmem
      obtain ⟨token, htoken, hc⟩ := mem_flatMap.mp hmem
      exact hchars.respaced (by decide) token htoken _ hc rfl

/-! ### A second run -/

/-- Both passes leave the tokens that they have written. -/
theorem respaced_respaced {source : Text} {pieces : List Piece}
    (hscan : scan .spacingCheck source = .ok pieces) :
    respaced (respaced (pieces.map Token.ofPiece)) = respaced (pieces.map Token.ofPiece) := by
  obtain ⟨thin, shown, hthin, hwhole⟩ := exists_respaced_pieces hscan
  rw [hthin]
  exact hwhole.steady.respaced_eq

/-- An empty comment, whose blank is not the inside of a comment for the second run, and numbers that
would not be read again. -/
theorem respaced_respaced_of_comments :
    ∃ pieces, scan .spacingCheck "{##}{{ x . 5e+3-( - y) }}{#a  b#}".toList = .ok pieces ∧
      respaced (pieces.map Token.ofPiece) ≠ pieces.map Token.ofPiece ∧
      respaced (respaced (pieces.map Token.ofPiece)) = respaced (pieces.map Token.ofPiece) := by
  obtain ⟨pieces, hscan, hchanged⟩ :
      ∃ pieces, scan .spacingCheck "{##}{{ x . 5e+3-( - y) }}{#a  b#}".toList = .ok pieces ∧
        respaced (pieces.map Token.ofPiece) ≠ pieces.map Token.ofPiece :=
    ⟨_, rfl, by decide +kernel⟩
  exact ⟨pieces, hscan, hchanged, respaced_respaced hscan⟩

def KeepsNumbers (text : Text) : Prop :=
  ∀ pieces, scan .spacingCheck (normalizeNewlines text) = .ok pieces →
    NumbersRead (respaced (pieces.map Token.ofPiece))

/-- A second run of the spacing check changes nothing, if the first one keeps the numbers. -/
theorem reformatted_reformatted_of_keepsNumbers {text : Text} (h : KeepsNumbers text) :
    (check (check text).reformatted).reformatted = (check text).reformatted := by
  cases hscan : scan .spacingCheck (normalizeNewlines text) with
  | error error =>
      have hempty : (check text).reformatted = [] := by simp [check, hscan, Report.reformatted]
      rw [hempty]
      rfl
  | ok pieces =>
      obtain ⟨thin, shown, hthin, hwhole⟩ := exists_respaced_pieces hscan
      have hreformatted : (check text).reformatted = textOfCuts shown := by
        rw [← textOfCuts_of_readsBack hwhole.readsBack, ← flatMap_text_tokensOf, ← hthin]
        simp [check, hscan, Report.reformatted]
      have hread : AllRead TokenKind.isNumber none shown [] := by
        rw [← allRead_isNumber_of_readsBack hwhole.readsBack, ← map_cut_tokensOf thin, ← hthin]
        exact h pieces hscan
      obtain ⟨pieces', hscan', hcuts⟩ : ∃ pieces', scan .spacingCheck (textOfCuts shown) =
          .ok pieces' ∧ pieces'.map Piece.cut = shown := (scan_eq_ok_iff isStock_spacingCheck).mpr
        ⟨rfl, hwhole.shaped none, allRead_isWord_iff.mpr ⟨hwhole.plain none, hread⟩⟩
      -- the text is cut into the pieces that were shown, and both passes leave these
      have hsettled : respaced (pieces'.map Token.ofPiece) = tokensOf shown := by
        rw [map_ofPiece, hcuts, hwhole.settled.respaced_eq]
      have hagain := normalizeNewlines_reformatted text
      rw [hreformatted] at hagain ⊢
      unfold check
      rw [hagain, hscan']
      simp [Report.reformatted, hsettled, flatMap_text_tokensOf]

theorem reformatted_reformatted_of_call :
    KeepsNumbers "{{f( 1,a . b )-2 if x[ 1: ]}}{#c#}\r\n".toList ∧
      (check (check "{{f( 1,a . b )-2 if x[ 1: ]}}{#c#}\r\n".toList).reformatted).reformatted =
        (check "{{f( 1,a . b )-2 if x[ 1: ]}}{#c#}\r\n".toList).reformatted := by
  have hkeeps : KeepsNumbers "{{f( 1,a . b )-2 if x[ 1: ]}}{#c#}\r\n".toList := by
    intro pieces hscan
    obtain rfl := Except.ok.inj (hscan.symm.trans rfl)
    decide +kernel
  exact ⟨hkeeps, reformatted_reformatted_of_keepsNumbers hkeeps⟩

/-- The signed exponent of a number that has moved to a dot is taken apart by the second run. -/
theorem reformatted_differs_at_exponent :
    (check (check "{{ x . 5e+3 }}".toList).reformatted).reformatted = "{{ x.5e + 3 }}".toList ∧
      (check "{{ x . 5e+3 }}".toList).reformatted = "{{ x.5e+3 }}".toList := by
  decide +kernel

end JinjaLayout.Spacing
