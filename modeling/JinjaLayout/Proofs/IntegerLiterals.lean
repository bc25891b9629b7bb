import Mathlib
import JinjaLayout.Grammar.Expression
import JinjaLayout.Proofs.NaturalLiterals
import JinjaLayout.Proofs.StringLiterals

/-!
The values of integer literals. Main statement: an integer with ASCII digits is read as the constant
of its positional value, and refused if that value is not below `2 ^ 127`.
-/

namespace JinjaLayout

open Text List

theorem Literal.IsGrouped.filter {digit : Char → Bool} {digits : Text} (h : IsGrouped digit digits)
    (hunderscore : digit '_' = false) : digits.filter (· != '_') ≠ [] ∧
      ∀ c ∈ digits.filter (· != '_'), c ∈ digits ∧ digit c := by
  obtain ⟨⟨c, hc, hdigit⟩, hall⟩ := h
  constructor
  · refine ne_nil_of_mem (mem_filter.mpr ⟨hc, bne_iff_ne.mpr ?_⟩)
    rintro rfl
    simp [hunderscore] at hdigit
  · intro c hc
    obtain ⟨hc, hplain⟩ := mem_filter.mp hc
    exact ⟨hc, (hall c hc).resolve_left (bne_iff_ne.mp hplain)⟩

namespace Number

/-- The base that the mark at the start of a literal names, ten without a mark. -/
def baseOf (literal : Text) : Nat :=
  match (literal.take 2).map Char.toLower with
  | ['0', 'b'] => 2
  | ['0', 'o'] => 8
  | ['0', 'x'] => 16
  | _ => 10

def digitsOf (literal : Text) : Text :=
  if baseOf literal = 10 then literal else literal.drop 2

def digitRow : Text :=
  ['0', '1', '2', '3', '4', '5', '6', '7', '8', '9', 'a', 'b', 'c', 'd', 'e', 'f']

/-- What a digit counts. -/
def digitValue (c : Char) : Nat :=
  digitRow.idxOf c.toLower

/-- The value of a literal: each digit counts by its place from the end. -/
def positional (literal : Text) : Nat :=
  Nat.ofDigits (baseOf literal) ((digitsOf literal).map digitValue).reverse

/-- All the digits of the literal are digits of its base, and there is one. -/
def IsNumeral (literal : Text) : Prop :=
  digitsOf literal ≠ [] ∧ ∀ digit ∈ digitsOf literal, digitValue digit < baseOf literal

variable {c mark : Char} {literal : Text} {digit : Char → Bool}

theorem hexDigit?_toLower (h : digitValue c < 16) : hexDigit? c.toLower = some (digitValue c) := by
  unfold digitValue at h ⊢
  have hmem := idxOf_lt_length_iff.mp h
  generalize c.toLower = lower at hmem
  fin_cases hmem <;> rfl

theorem basedDigits_map_toLower (literal : Text) :
    basedDigits (literal.map Char.toLower) =
      ((digitsOf literal).map Char.toLower, baseOf literal) := by
  rw [digitsOf, apply_ite (map Char.toLower), map_drop, baseOf, map_take]
  generalize literal.map Char.toLower = lower
  unfold basedDigits
  split
  · rfl
  · rfl
  · rfl
  · rename_i hb ho hx
    have hsplit := take_append_drop 2 lower
    split
    · rename_i h
      exact absurd (h ▸ hsplit).symm (hb _)
    · rename_i h
      exact absurd (h ▸ hsplit).symm (ho _)
    · rename_i h
      exact absurd (h ▸ hsplit).symm (hx _)
    · rfl

theorem integer?_of_isNumeral (h : IsNumeral literal) :
    integer? literal =
      if positional literal < 2 ^ 127 then some (positional literal : Int) else none := by
  have hbase : baseOf literal ≤ 16 := by
    unfold baseOf
    split <;> decide
  have hdigits : digits? (baseOf literal) ((digitsOf literal).map Char.toLower) =
      some (positional literal) := by
    rw [digits?, if_neg (by simpa using h.1)]
    refine digitsFrom?_eq_some_iff.mpr ⟨(digitsOf literal).map digitValue, ?_, by simpa using h.2,
      by simp [positional]⟩
    rw [map_map, map_map]
    exact map_congr_left fun digit hdigit => hexDigit?_toLower ((h.2 digit hdigit).trans_le hbase)
  have hsigned : signed? (baseOf literal) ((digitsOf literal).map Char.toLower) =
      some (positional literal : Int) := by
    unfold signed?
    split
    · rename_i hminus
      simp [hminus, digits?, digitsFrom?, hexDigit?] at hdigits
    · rename_i hplus
      simp [hplus, digits?, digitsFrom?, hexDigit?] at hdigits
    · simp [hdigits]
  have hrange : InRange (positional literal) ↔ positional literal < 2 ^ 127 := by
    rw [InRange, show integerBound = 2 ^ 127 from rfl]
    generalize 2 ^ 127 = bound
    omega
  simp [integer?, basedDigits_map_toLower, hsigned, Option.filter, hrange]

theorem isNumeral_of_decimal (hne : literal ≠ []) (hdigits : ∀ c ∈ literal, digitValue c < 10) :
    IsNumeral literal := by
  have hlow : ∀ lower ∈ (literal.take 2).map Char.toLower, digitRow.idxOf lower < 10 := by
    intro lower hlower
    obtain ⟨c, hc, rfl⟩ := mem_map.mp hlower
    exact hdigits c (mem_of_mem_take hc)
  have hbase : baseOf literal = 10 := by
    unfold baseOf
    split
    · rename_i h
      exact absurd (hlow 'b' (by simp [h])) (by decide)
    · rename_i h
      exact absurd (hlow 'o' (by simp [h])) (by decide)
    · rename_i h
      exact absurd (hlow 'x' (by simp [h])) (by decide)
    · rfl
  rw [IsNumeral, digitsOf, if_pos hbase, hbase]
  exact ⟨hne, hdigits⟩

theorem base_of_mark (h : Literal.baseDigit? mark = some digit) :
    mark ≠ '_' ∧ digit '_' = false ∧ baseOf ['0', mark] ≠ 10 ∧
      ∀ c : Char, c.toNat < 128 → digit c → digitValue c < baseOf ['0', mark] := by
  unfold Literal.baseDigit? at h
  split at h <;> cases h <;>
    exact ⟨by decide, by decide, by decide, forall_ascii (by decide +kernel)⟩

theorem isNumeral_of_isInteger (h : Literal.IsInteger literal)
    (hascii : ∀ c ∈ literal, c.toNat < 128) : IsNumeral (literal.filter (· != '_')) := by
  cases h with
  | @based mark digit digits hmark hdigits =>
      obtain ⟨hne, hunderscore, hten, hvalue⟩ := base_of_mark hmark
      obtain ⟨hsome, hall⟩ := hdigits.filter hunderscore
      have hdigitsOf : digitsOf ('0' :: mark :: digits.filter (· != '_')) =
          digits.filter (· != '_') := if_neg hten
      simp only [filter_cons, show ('0' != '_') = true from rfl, bne_iff_ne.mpr hne, if_true]
      rw [IsNumeral, hdigitsOf]
      exact ⟨hsome, fun c hc => hvalue c (hascii c (by simp [(hall c hc).1])) (hall c hc).2⟩
  | plain hdigits =>
      have hvalue : ∀ c : Char, c.toNat < 128 → isDecimalDigit c → digitValue c < 10 :=
        forall_ascii (by decide +kernel)
      obtain ⟨hsome, hall⟩ := hdigits.filter (by decide)
      exact isNumeral_of_decimal hsome fun c hc => hvalue c (hascii c (hall c hc).1) (hall c hc).2

end Number

/-- What the lexeme of an integer gives where it is read: a constant, or an error on its line. -/
def Lexeme.meaning (lexeme : Lexeme) : Except SyntaxError Constant :=
  if Number.positional lexeme.value < 2 ^ 127 then .ok (.int (Number.positional lexeme.value))
  else .error ⟨lexeme.line, .integerOutOfRange⟩

open Grammar Number

/-- An integer with ASCII digits has digits of its base only, apart from underscores. Wherever it is
read, also behind a point, it gives the constant of its value if that is below `2 ^ 127` and is out of
range otherwise. -/
theorem Scan.integer_read (env : Environment) (source : Text) (pieces : List Piece) (piece : Piece)
    (hscan : JinjaLayout.scan env source = .ok pieces) (hpiece : piece ∈ pieces)
    (hkind : piece.kind = .integer) (hascii : ∀ c ∈ piece.text, c.toNat < 128) :
    let lexeme : Lexeme := ⟨piece.line, .integer, piece.text.filter (· != '_')⟩
    IsNumeral lexeme.value ∧ piece.lexeme? = .ok (some lexeme) ∧
      (∀ inner tail, primary inner ⟨lexeme, tail⟩ = lexeme.meaning.map fun value =>
        (.const value (.onLine piece.line), Stream.advance ⟨lexeme, tail⟩)) ∧
      (∀ operand line tail, member operand line ⟨lexeme, tail⟩ = lexeme.meaning.map fun value =>
        (.item operand (.const value (.onLine piece.line)) true (.onLine line),
          Stream.advance ⟨lexeme, tail⟩)) ∧
      SyntaxFault.message .integerOutOfRange = "integer literal out of range" := by
  intro lexeme
  have hinteger := (isRead_of_scan hscan piece hpiece (by rw [hkind]; rfl)).isInteger hkind
  have hnumeral := isNumeral_of_isInteger hinteger hascii
  have hconstant : integerConstant lexeme = fun stream => lexeme.meaning.map (·, stream) := by
    rw [integerConstant, integer?_of_isNumeral hnumeral, Lexeme.meaning]
    by_cases hrange : positional lexeme.value < 2 ^ 127
    · rw [if_pos hrange, if_pos hrange]
      rfl
    · rw [if_neg hrange, if_neg hrange]
      rfl
  have hread : ∀ (f : Constant → Expr) (stream : Stream),
      (integerConstant lexeme >>= fun value => pure (f value)) stream =
        lexeme.meaning.map fun value => (f value, stream) := by
    intro f stream
    rw [hconstant]
    cases lexeme.meaning <;> rfl
  refine ⟨hnumeral, by rw [Piece.lexeme?, hkind], fun inner tail => ?_,
    fun operand line tail => ?_, rfl⟩
  · exact hread (.const · (.onLine piece.line)) _
  · exact hread (fun value => .item operand (.const value (.onLine piece.line)) true (.onLine line)) _

theorem Scan.integer_read_of_mark :
    let piece : Piece := ⟨1, .integer, "0XfF_7".toList⟩
    ∃ pieces, JinjaLayout.scan {} "\x7b\x7b 0XfF_7 \x7d\x7d".toList = .ok pieces ∧
      piece ∈ pieces ∧ piece.kind = .integer ∧ (∀ c ∈ piece.text, c.toNat < 128) ∧
      ∀ inner tail, primary inner ⟨⟨1, .integer, "0XfF7".toList⟩, tail⟩ =
        .ok (.const (.int 4087) (.onLine 1),
          Stream.advance ⟨⟨1, .integer, "0XfF7".toList⟩, tail⟩) := by
  intro piece
  have hscan : JinjaLayout.scan {} "\x7b\x7b 0XfF_7 \x7d\x7d".toList = .ok
      [⟨1, .variableBegin, ['{', '{']⟩, ⟨1, .whitespace, [' ']⟩, piece, ⟨1, .whitespace, [' ']⟩,
        ⟨1, .variableEnd, ['}', '}']⟩] := by rfl
  have hascii : ∀ c ∈ piece.text, c.toNat < 128 := by simp [piece]
  have hvalue : Lexeme.meaning ⟨1, .integer, "0XfF7".toList⟩ = .ok (.int 4087) := by decide +kernel
  obtain ⟨-, -, hread, -⟩ := integer_read {} _ _ piece hscan (by simp) rfl hascii
  rw [show piece.text.filter (· != '_') = "0XfF7".toList by rfl, hvalue] at hread
  exact ⟨_, hscan, by simp, rfl, hascii, hread⟩

end JinjaLayout
