import Mathlib
import JinjaLayout.Proofs.SpacingOutline

/-!
What the spacing check does to the tokens of a template. Main statement: the text with the preferred
spacing has the same tokens exactly if every number in it is still read as that number.
-/

namespace JinjaLayout.Spacing

open JinjaLayout.Scan

/-- Every number is found at its place when the text of the tokens is read. -/
def NumbersRead (tokens : List Token) : Prop :=
  AllRead TokenKind.isNumber none (tokens.map Token.cut) []

instance allReadDecidable (kinds : TokenKind → Bool) (previous : Option Char) (cuts : List Cut)
    (after : Text) : Decidable (AllRead kinds previous cuts after) :=
  match cuts with
  | [] => .isTrue trivial
  | cut :: cuts =>
      have := allReadDecidable kinds (lastChar previous cut.2) cuts after
      have : Decidable (ReadsAs previous cut (textOfCuts cuts ++ after)) :=
        inferInstanceAs (Decidable (_ = _))
      inferInstanceAs (Decidable (_ ∧ _))

instance (tokens : List Token) : Decidable (NumbersRead tokens) :=
  inferInstanceAs (Decidable (AllRead ..))

theorem map_ofPiece (pieces : List Piece) :
    pieces.map Token.ofPiece = tokensOf (pieces.map Piece.cut) := by
  rw [tokensOf, List.map_map]
  rfl

theorem allRead_isWord_iff {previous : Option Char} {cuts : List Cut} {after : Text} :
    AllRead TokenKind.isWord previous cuts after ↔
      AllRead TokenKind.isPlain previous cuts after ∧
        AllRead TokenKind.isNumber previous cuts after := by
  induction cuts generalizing previous with
  | nil => simp
  | cons cut cuts ih =>
      have hkinds : cut.1.isWord = true ↔ cut.1.isPlain ∨ cut.1.isNumber := by
        cases cut.1 <;> simp [TokenKind.isWord, TokenKind.isPlain, TokenKind.isNumber]
      simp only [allRead_cons, ih, hkinds]
      tauto

theorem isStock_spacingCheck : Environment.spacingCheck.IsStock :=
  (Environment.isStock_iff _).mpr (by decide)

theorem exists_respaced_pieces {source : Text} {pieces : List Piece}
    (hscan : scan .spacingCheck source = .ok pieces) :
    ∃ thin shown, respaced (pieces.map Token.ofPiece) = tokensOf thin ∧
      IsRespacedWhole .spacingCheck (pieces.map Piece.cut) thin shown := by
  obtain ⟨-, hshaped, hread⟩ := (scan_eq_ok_iff isStock_spacingCheck).mp ⟨pieces, hscan, rfl⟩
  obtain ⟨thin, shown, hspaces, hwhole⟩ := exists_respaced isStock_spacingCheck rfl hshaped hread
  exact ⟨thin, shown, by rw [map_ofPiece, hspaces.respaced_eq], hwhole⟩

/-- The text with the preferred spacing can be cut into the same tokens, apart from whitespace and
comments, exactly if all its numbers are read as themselves. -/
theorem same_tokens_iff_numbersRead {text : Text} {pieces : List Piece}
    (hscan : scan .spacingCheck (Text.normalizeNewlines text) = .ok pieces) :
    (∃ pieces', scan .spacingCheck (check text).reformatted = .ok pieces' ∧
        contentOf (pieces'.map Piece.cut) = contentOf (pieces.map Piece.cut)) ↔
      NumbersRead (respaced (pieces.map Token.ofPiece)) := by
  obtain ⟨thin, shown, hthin, hwhole⟩ := exists_respaced_pieces hscan
  have hreformatted : (check text).reformatted = textOfCuts shown := by
    rw [← textOfCuts_of_readsBack hwhole.readsBack, ← flatMap_text_tokensOf, ← hthin]
    simp [check, hscan, Report.reformatted]
  have hnumbers : NumbersRead (respaced (pieces.map Token.ofPiece)) ↔
      AllRead TokenKind.isNumber none shown [] := by
    rw [NumbersRead, hthin, map_cut_tokensOf, allRead_isNumber_of_readsBack hwhole.readsBack]
  rw [hnumbers, hreformatted]
  constructor
  · rintro ⟨pieces', hscan', hcontent⟩
    obtain ⟨htext, hshaped, hread⟩ :=
      (scan_eq_ok_iff isStock_spacingCheck).mp ⟨pieces', hscan', rfl⟩
    have hsame := hshaped.unique isStock_spacingCheck (hwhole.shaped none) htext
      (hcontent.trans hwhole.content_eq.symm)
    rw [hsame] at hread
    exact (allRead_isWord_iff.mp hread).2
  · intro hread
    obtain ⟨pieces', hscan', hcuts⟩ := (scan_eq_ok_iff isStock_spacingCheck).mpr
      ⟨rfl, hwhole.shaped none, allRead_isWord_iff.mpr ⟨hwhole.plain none, hread⟩⟩
    exact ⟨pieces', hscan', by rw [hcuts, hwhole.content_eq]⟩

theorem same_tokens_of_call :
    ∃ pieces, scan .spacingCheck (Text.normalizeNewlines "{{f( 1,a . b )-2}}".toList) = .ok pieces ∧
      ∃ pieces', scan .spacingCheck (check "{{f( 1,a . b )-2}}".toList).reformatted = .ok pieces' ∧
        contentOf (pieces'.map Piece.cut) = contentOf (pieces.map Piece.cut) :=
  ⟨_, rfl, (same_tokens_iff_numbersRead rfl).mpr (by decide +kernel)⟩

/-- Two numbers around a dot become one. -/
theorem tokens_differ_at_dot :
    ∃ pieces pieces',
      scan .spacingCheck (Text.normalizeNewlines "{{ 1 . 5 }}".toList) = .ok pieces ∧
        scan .spacingCheck (check "{{ 1 . 5 }}".toList).reformatted = .ok pieces' ∧
        contentOf (pieces'.map Piece.cut) ≠ contentOf (pieces.map Piece.cut) :=
  ⟨_, _, rfl, rfl, by decide +kernel⟩

end JinjaLayout.Spacing
