import Mathlib
import JinjaLayout.Proofs.TablePairs
import JinjaLayout.Number.Integer

/-!
Integer literals stand for natural numbers: the scanner takes no sign into them. Main statement: no
integer of a token table has a negative value.
-/

namespace JinjaLayout

namespace Literal

theorem IsGrouped.not_mem {digit : Char → Bool} {digits : Text} (h : IsGrouped digit digits)
    (hminus : digit '-' = false) : '-' ∉ digits := by
  intro hmem
  simpa [hminus] using h.2 '-' hmem

theorem IsInteger.not_mem {text : Text} (h : IsInteger text) : '-' ∉ text := by
  cases h with
  | based hmark hdigits =>
      unfold baseDigit? at hmark
      split at hmark <;> cases hmark <;> simpa using hdigits.not_mem (by decide)
  | plain hdigits => exact hdigits.not_mem (by decide)

end Literal

namespace Number

theorem toLower_eq_minus {c : Char} (h : c.toLower = '-') : c = '-' := by
  unfold Char.toLower at h
  split at h
  · rename_i hupper
    have hval : c.val + ('a'.val - 'A'.val) = '-'.val := congrArg Char.val h
    have hlow : 65 ≤ c.val.toNat := hupper.1
    have hhigh : c.val.toNat ≤ 90 := hupper.2
    have hsum : (c.val.toNat + 32) % 2 ^ 32 = 45 :=
      (UInt32.toNat_add _ _).symm.trans (congrArg UInt32.toNat hval)
    omega
  · exact h

theorem nonneg_of_signed? {base : Nat} {text : Text} {value : Int} (hminus : '-' ∉ text)
    (h : signed? base text = some value) : 0 ≤ value := by
  unfold signed? at h
  split at h
  · simp at hminus
  · obtain ⟨n, -, rfl⟩ := Option.map_eq_some_iff.mp h
    exact Int.natCast_nonneg n
  · obtain ⟨n, -, rfl⟩ := Option.map_eq_some_iff.mp h
    exact Int.natCast_nonneg n

theorem basedDigits_suffix (text : Text) : (basedDigits text).1 <:+ text := by
  unfold basedDigits
  split
  · exact (List.suffix_cons _ _).trans (List.suffix_cons _ _)
  · exact (List.suffix_cons _ _).trans (List.suffix_cons _ _)
  · exact (List.suffix_cons _ _).trans (List.suffix_cons _ _)
  · exact List.suffix_rfl

theorem nonneg_of_integer? {literal : Text} {value : Int} (hminus : '-' ∉ literal)
    (h : integer? literal = some value) : 0 ≤ value := by
  obtain ⟨hvalue, -⟩ := Option.filter_eq_some_iff.mp h
  refine nonneg_of_signed? (fun hmem => hminus ?_) hvalue
  obtain ⟨c, hc, hlower⟩ := List.mem_map.mp ((basedDigits_suffix _).subset hmem)
  rwa [← toLower_eq_minus hlower]

end Number

def Lexeme.IsNatural (lexeme : Lexeme) : Prop :=
  lexeme.kind = .integer → ∀ value ∈ Number.integer? lexeme.value, 0 ≤ value

theorem Scan.IsRead.isInteger {piece : Piece} (h : IsRead piece) (hkind : piece.kind = .integer) :
    Literal.IsInteger piece.text := by
  obtain ⟨previous, rest, length, hany, htext⟩ := h
  rw [hkind] at hany
  rw [← htext]
  obtain hnumber | ⟨h, -⟩ | h | h := anyToken?_cases hany
  · unfold number? at hnumber
    split at hnumber
    · simp only [Option.orElse_eq_some, Option.map_eq_some_iff, Prod.mk.injEq] at hnumber
      obtain ⟨_, _, hkind, _⟩ | ⟨_, _, hlength, _, rfl⟩ := hnumber
      · cases hkind
      · exact (Literal.isInteger_of_integerLength? hlength).2
    · simp at hnumber
  · cases h
  · cases h
  · cases h

theorem Token.isNatural_of_isCut {token : Token} {piece : Piece} {lexeme : Lexeme}
    (hcut : token.IsCut piece) (hread : piece.kind.isWord → Scan.IsRead piece)
    (hlexeme : token.lexeme = some lexeme) : lexeme.IsNatural := by
  intro hkind value hvalue
  have hfaithful := Token.isFaithful_of_lexeme? hcut.kind_eq hcut.text_eq hcut.lexeme_eq
  have hpiece : piece.kind = .integer := by
    have hlexical := (hfaithful.kind_eq lexeme hlexeme).symm.trans hkind
    rw [hcut.kind_eq] at hlexical
    revert hlexical
    cases piece.kind <;> simp [TokenKind.lexical]
  have hminus := ((hread (by rw [hpiece]; rfl)).isInteger hpiece).not_mem
  have hvalueEq : piece.text.filter (· != '_') = lexeme.value := by
    have hfound := hcut.lexeme_eq
    simp only [Piece.lexeme?, hpiece, hlexeme, Except.ok.injEq, Option.some.injEq] at hfound
    exact congrArg Lexeme.value hfound
  refine Number.nonneg_of_integer? (fun hmem => hminus ?_) hvalue
  rw [← hvalueEq] at hmem
  exact List.mem_of_mem_filter hmem

theorem TokenTable.isNatural_of_build {env : Environment} {name : Option String} {source : Text}
    {table : TokenTable} (h : build env name source = .ok table) :
    ∀ lexeme ∈ table.lexemes, lexeme.IsNatural := by
  obtain ⟨error, herror⟩ | ⟨pieces, tokens, hscan, hlocate, hbuild, -⟩ :=
    build_cases env name source
  · simp [herror] at h
  · obtain rfl : ⟨name, _, withPartners (initialToken :: tokens)⟩ = table :=
      Except.ok.inj (hbuild.symm.trans h)
    obtain ⟨middle, last, rfl, hcuts, -, lastLexeme, hlast, hlastKind⟩ := locate_eq_ok hlocate
    have hread := isRead_of_scan hscan
    intro lexeme hmem
    have hmap : lexeme ∈ (initialToken :: (middle ++ [last])).filterMap Token.lexeme := by
      simpa [lexemes, withPartners, List.filterMap_map, Function.comp_def] using hmem
    obtain ⟨token, htoken, hlexeme⟩ := List.mem_filterMap.mp hmap
    rw [List.mem_cons, List.mem_append, List.mem_singleton] at htoken
    rcases htoken with rfl | htoken | rfl
    · simp [initialToken] at hlexeme
    · obtain ⟨piece, hpiece, hcut⟩ := exists_piece_of_isCut hcuts htoken
      exact token.isNatural_of_isCut hcut (hread piece hpiece) hlexeme
    · obtain rfl : lastLexeme = lexeme := Option.some.inj (hlast.symm.trans hlexeme)
      intro hkind
      simp [hlastKind] at hkind

end JinjaLayout
