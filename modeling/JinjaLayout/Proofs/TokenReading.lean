import Mathlib
import JinjaLayout.Proofs.Cuts

/-!
What the scanner finds at one place inside a tag. Apart from numbers, a token is found where its
text stands unless the next character would belong to it.
-/

namespace JinjaLayout

open List

/-- Whether the category is one of the tokens of expressions. -/
def TokenKind.isWord : TokenKind → Bool
  | name | operator | string | integer | float => true
  | _ => false

/-- Whether a piece of the category is neither whitespace nor the inside of a comment. -/
def TokenKind.isContent : TokenKind → Bool
  | whitespace | comment => false
  | _ => true

namespace Text

variable {c : Char}

theorem forall_ascii {p : Char → Prop} (h : ∀ code < 128, p (Char.ofNat code)) :
    ∀ c : Char, c.toNat < 128 → p c := by
  intro c hc
  simpa using h c.toNat hc

theorem startsName_ascii (h : c.toNat < 128) :
    startsName c = (c.isAlpha || c == '_') := by
  have hsmall : c.val < 128 := UInt32.lt_iff_toNat_lt.mpr h
  simp [startsName, isLetter, hsmall]

theorem continuesName_ascii (h : c.toNat < 128) :
    continuesName c = (c.isAlpha || c.isDigit || c == '_') := by
  have hsmall : c.val < 128 := UInt32.lt_iff_toNat_lt.mpr h
  simp [continuesName, isLetter, isNumber, hsmall]

def blankCodes : List Nat :=
  [9, 10, 11, 12, 13, 0x20, 0x85, 0xA0, 0x1680, 0x2000, 0x2001, 0x2002, 0x2003, 0x2004, 0x2005,
    0x2006, 0x2007, 0x2008, 0x2009, 0x200A, 0x2028, 0x2029, 0x202F, 0x205F, 0x3000]

theorem mem_blankCodes (h : isBlank c) : c.toNat ∈ blankCodes := by
  simp only [isBlank, Bool.or_eq_true, Bool.and_eq_true, decide_eq_true_eq, beq_iff_eq] at h
  simp only [blankCodes, mem_cons, not_mem_nil, or_false]
  omega

theorem not_inRanges_of_blank (ranges : List (Nat × Nat)) (hc : isBlank c)
    (h : blankCodes.all fun code => ranges.all fun range => code < range.1 || range.2 < code) :
    inRanges ranges c = false := by
  have hcode := all_eq_true.mp h c.toNat (mem_blankCodes hc)
  simp only [inRanges, any_eq_false]
  intro range hrange
  have hout := all_eq_true.mp hcode range hrange
  simp only [Bool.or_eq_true, decide_eq_true_eq] at hout
  simp only [Bool.and_eq_true, decide_eq_true_eq]
  omega

theorem continuesName_of_isBlank (h : isBlank c) : continuesName c = false := by
  by_cases hsmall : c.toNat < 128
  · have hcode := mem_blankCodes h
    simp only [blankCodes, mem_cons, not_mem_nil, or_false] at hcode
    have hlow : c.toNat ≤ 32 := by omega
    rw [continuesName_ascii hsmall]
    simp only [Char.isAlpha, Char.isUpper, Char.isLower, Char.isDigit, Bool.or_eq_false_iff,
      Bool.and_eq_false_iff, decide_eq_false_iff_not, UInt32.le_iff_toNat_le, beq_eq_false_iff_ne,
      ne_eq]
    refine ⟨⟨⟨?_, .inl ?_⟩, .inl ?_⟩, ?_⟩
    · exact fun hle => absurd (show 65 ≤ c.toNat from hle.1) (by omega)
    · exact fun hle => absurd (show 97 ≤ c.toNat from hle) (by omega)
    · exact fun hle => absurd (show 48 ≤ c.toNat from hle) (by omega)
    · rintro rfl
      exact absurd hlow (by decide)
  · have hlarge : ¬ c.val < 128 := fun hlt => hsmall (UInt32.lt_iff_toNat_lt.mp hlt)
    have hunderscore : c ≠ '_' := by
      rintro rfl
      exact hsmall (by decide)
    simp [continuesName, isLetter, isNumber, hlarge, hunderscore,
      not_inRanges_of_blank letterRanges h (by decide +kernel),
      not_inRanges_of_blank numberRanges h (by decide +kernel)]

theorem continuesName_of_startsName (h : startsName c) : continuesName c := by
  simp only [startsName, Bool.or_eq_true] at h
  simp only [continuesName, Bool.or_eq_true]
  exact h.elim (fun hletter => .inl (.inl hletter)) .inr

theorem isBlank_of_startsName (h : startsName c) : isBlank c = false := by
  by_contra hblank
  have hcontinues := continuesName_of_startsName h
  rw [continuesName_of_isBlank (by simpa using hblank)] at hcontinues
  simp at hcontinues

end Text

namespace Literal

open JinjaLayout.Text

def isName : Text → Bool
  | c :: rest => startsName c && rest.all continuesName
  | [] => false

variable {text after : Text} {quote : Char} {length : Nat}

theorem takeWhile_length_append_eq {p : Char → Bool} :
    ((text ++ after).takeWhile p).length = text.length ↔
      text.all p ∧ after.head?.any p = false := by
  induction text with
  | nil =>
      cases after with
      | nil => simp
      | cons c after => cases hc : p c <;> simp [hc]
  | cons c text ih => cases hc : p c <;> simp [hc, ih]

theorem nameLength?_append_eq_length (h : text ≠ []) :
    nameLength? (text ++ after) = some text.length ↔
      isName text ∧ after.head?.any continuesName = false := by
  cases text with
  | nil => exact absurd rfl h
  | cons c text =>
      simp only [cons_append, nameLength?, isName]
      by_cases hc : startsName c
      · simp only [hc, if_true, Option.some.injEq, length_cons, Nat.add_right_cancel_iff,
          takeWhile_length_append_eq, Bool.true_and]
      · simp [hc]

theorem quotedLength?_cons {c : Char} (hc : c ≠ '\\') (rest : Text) :
    quotedLength? quote (c :: rest) =
      if c = quote then some 1 else (quotedLength? quote rest).map (· + 1) := by
  rw [quotedLength?.eq_3 quote c rest (by rintro d _ rfl; exact fun _ => hc rfl)]
  simp [hc]

theorem quotedLength?_pos (h : quotedLength? quote text = some length) : 0 < length := by
  fun_induction quotedLength? quote text generalizing length with
  | case1 => simp at h
  | case2 c rest ih =>
      obtain ⟨inner, -, rfl⟩ := Option.map_eq_some_iff.mp h
      omega
  | case3 rest =>
      obtain rfl : 1 = length := by simpa using h
      omega
  | case4 rest => simp at h
  | case5 c rest _ _ _ ih =>
      obtain ⟨inner, -, rfl⟩ := Option.map_eq_some_iff.mp h
      omega

theorem quotedLength?_append_eq_some_iff (hquote : quote ≠ '\\') (after : Text)
    (hlength : length ≤ text.length) :
    quotedLength? quote (text ++ after) = some length ↔ quotedLength? quote text = some length := by
  fun_induction quotedLength? quote text generalizing length with
  | case1 =>
      obtain rfl : length = 0 := by simpa using hlength
      simp only [nil_append, reduceCtorEq, iff_false]
      exact fun h => absurd (quotedLength?_pos h) (by simp)
  | case2 c rest ih =>
      simp only [cons_append, quotedLength?, Option.map_eq_some_iff]
      refine exists_congr fun inner => and_congr_left ?_
      rintro rfl
      exact ih (by simpa using hlength)
  | case3 rest => simp [quotedLength?_cons hquote]
  | case4 rest hshort hne =>
      -- a backslash at the end hides a character that the literal does not have
      obtain rfl : rest = [] := by
        cases rest with
        | nil => rfl
        | cons d rest => exact (hshort d rest rfl rfl).elim
      simp only [cons_append, nil_append, reduceCtorEq, iff_false]
      cases after with
      | nil => simp [quotedLength?, hne]
      | cons d after =>
          simp only [quotedLength?, Option.map_eq_some_iff, not_exists, not_and]
          intro inner _ hinner
          simp only [length_cons, length_nil] at hlength
          omega
  | case5 c rest _ hne hslash ih =>
      simp only [cons_append, quotedLength?_cons hslash, hne, if_false, Option.map_eq_some_iff]
      refine exists_congr fun inner => and_congr_left ?_
      rintro rfl
      exact ih (by simpa using hlength)

theorem quotedLength?_le (h : quotedLength? quote text = some length) : length ≤ text.length := by
  fun_induction quotedLength? quote text generalizing length with
  | case1 => simp at h
  | case2 c rest ih =>
      obtain ⟨inner, hinner, rfl⟩ := Option.map_eq_some_iff.mp h
      simpa using ih hinner
  | case3 rest =>
      obtain rfl : 1 = length := by simpa using h
      simp
  | case4 rest => simp at h
  | case5 c rest _ _ _ ih =>
      obtain ⟨inner, hinner, rfl⟩ := Option.map_eq_some_iff.mp h
      simpa using ih hinner

theorem stringLength?_bounds (h : stringLength? text = some length) :
    0 < length ∧ length ≤ text.length := by
  cases text with
  | nil => simp [stringLength?] at h
  | cons c text =>
      simp only [stringLength?, Option.ite_none_right_eq_some, Option.map_eq_some_iff] at h
      obtain ⟨-, inner, hinner, rfl⟩ := h
      simpa using quotedLength?_le hinner

theorem nameLength?_bounds (h : nameLength? text = some length) :
    0 < length ∧ length ≤ text.length := by
  cases text with
  | nil => simp [nameLength?] at h
  | cons c text =>
      simp only [nameLength?, Option.ite_none_right_eq_some, Option.some.injEq] at h
      obtain ⟨-, rfl⟩ := h
      simpa using (List.takeWhile_prefix (l := text) continuesName).length_le

theorem groupedLength_le (digit : Char → Bool) (text : Text) :
    groupedLength digit text ≤ text.length := by
  fun_induction groupedLength digit text <;> simp_all

theorem decimalLength?_bounds (h : decimalLength? text = some length) :
    0 < length ∧ length ≤ text.length := by
  cases text with
  | nil => simp [decimalLength?] at h
  | cons c text =>
      simp only [decimalLength?, Option.ite_none_right_eq_some, Option.some.injEq] at h
      obtain ⟨-, rfl⟩ := h
      simpa using groupedLength_le isDecimalDigit text

theorem fractionLength?_le (h : fractionLength? text = some length) :
    length ≤ text.length := by
  unfold fractionLength? at h
  split at h
  · obtain ⟨digits, hdigits, rfl⟩ := Option.map_eq_some_iff.mp h
    simpa using (decimalLength?_bounds hdigits).2
  · simp at h

theorem exponentLength?_le (h : exponentLength? text = some length) :
    length ≤ text.length := by
  cases text with
  | nil => simp [exponentLength?] at h
  | cons c text =>
      simp only [exponentLength?, Option.ite_none_right_eq_some, Option.map_eq_some_iff] at h
      obtain ⟨-, digits, hdigits, rfl⟩ := h
      have hle := (decimalLength?_bounds hdigits).2
      have hpos := (decimalLength?_bounds hdigits).1
      simp only [length_drop, length_cons] at hle ⊢
      omega

theorem floatLength?_bounds (h : floatLength? text = some length) :
    0 < length ∧ length ≤ text.length := by
  unfold floatLength? at h
  simp only [Option.bind_eq_bind, Option.bind_eq_some_iff] at h
  obtain ⟨whole, hwhole, h⟩ := h
  have hbounds := decimalLength?_bounds hwhole
  cases hfraction : fractionLength? (text.drop whole) with
  | some fraction =>
      simp only [hfraction] at h
      have hle := fractionLength?_le hfraction
      have hexponent : (exponentLength? ((text.drop whole).drop fraction)).getD 0 ≤
          ((text.drop whole).drop fraction).length := by
        cases hfound : exponentLength? ((text.drop whole).drop fraction) with
        | none => simp
        | some exponent => exact exponentLength?_le hfound
      obtain rfl := Option.some.inj h
      simp only [length_drop] at hle hexponent
      omega
  | none =>
      cases hexponent : exponentLength? (text.drop whole) with
      | some exponent =>
          simp only [hfraction, hexponent, Option.some.injEq] at h
          have hle := exponentLength?_le hexponent
          simp only [length_drop] at hle
          omega
      | none => simp [hfraction, hexponent] at h

/-- Digits of the class with underscores among them. -/
def IsGrouped (digit : Char → Bool) (text : Text) : Prop :=
  (∃ c ∈ text, digit c = true) ∧ ∀ c ∈ text, c = '_' ∨ digit c = true

/-- The texts of integers: digits of a base behind its mark, or decimal digits. -/
inductive IsInteger : Text → Prop
  | based {mark : Char} {digit : Char → Bool} {digits : Text} (hmark : baseDigit? mark = some digit)
      (hdigits : IsGrouped digit digits) : IsInteger ('0' :: mark :: digits)
  | plain {digits : Text} (hdigits : IsGrouped isDecimalDigit digits) : IsInteger digits

section Integers

variable {digit : Char → Bool}

theorem mem_take_groupedLength :
    ∀ c ∈ text.take (groupedLength digit text), c = '_' ∨ digit c := by
  fun_induction groupedLength digit text with
  | case1 d rest hd ih => simpa [hd] using ih
  | case2 => simp
  | case3 d rest _ hd ih => simpa [hd] using ih
  | case4 => simp
  | case5 => simp

theorem isGrouped_of_groupedLength (h : groupedLength digit text ≠ 0) :
    IsGrouped digit (text.take (groupedLength digit text)) := by
  refine ⟨?_, mem_take_groupedLength⟩
  fun_cases groupedLength digit text with
  | case1 c rest hc => exact ⟨c, by simp, hc⟩
  | case3 c rest _ hc => exact ⟨c, by simp, hc⟩
  | _ => simp_all [groupedLength]

theorem isInteger_of_integerLength? (h : integerLength? text = some length) :
    length ≤ text.length ∧ IsInteger (text.take length) := by
  unfold integerLength? at h
  rcases (Option.orElse_eq_some ..).mp h with hbased | ⟨-, hplain⟩
  · unfold basedLength? at hbased
    split at hbased
    · split at hbased
      · rename_i hmark
        simp only [Option.ite_none_left_eq_some, Option.some.injEq] at hbased
        obtain ⟨hsome, rfl⟩ := hbased
        exact ⟨by simpa using groupedLength_le _ _, .based hmark (isGrouped_of_groupedLength hsome)⟩
      · simp at hbased
    · simp at hbased
  · cases text with
    | nil => simp [plainLength?] at hplain
    | cons first rest =>
        have hgrouped : ∀ digit : Char → Bool, isDecimalDigit first = true →
            (∀ c, digit c → isDecimalDigit c = true) →
            groupedLength digit rest + 1 ≤ (first :: rest).length ∧
              IsInteger ((first :: rest).take (groupedLength digit rest + 1)) := by
          intro digit hfirst hdigit
          refine ⟨by simpa using groupedLength_le _ _, .plain ⟨⟨first, by simp, hfirst⟩, ?_⟩⟩
          simp only [take_succ_cons, mem_cons, forall_eq_or_imp]
          exact ⟨.inr hfirst, fun c hc => (mem_take_groupedLength c hc).imp_right (hdigit c)⟩
        simp only [plainLength?] at hplain
        split at hplain
        · rename_i hzero
          obtain rfl := Option.some.inj hplain
          exact hgrouped _ (hzero ▸ by decide) fun c hc => beq_iff_eq.mp hc ▸ by decide
        · simp only [Option.ite_none_right_eq_some, Option.some.injEq] at hplain
          obtain ⟨hfirst, rfl⟩ := hplain
          have hdigit : ∀ c : Char, c.toNat < 128 → '1' ≤ c ∧ c ≤ '9' → isDecimalDigit c = true :=
            forall_ascii (by decide +kernel)
          have hsmall : first.toNat ≤ 57 := hfirst.2
          exact hgrouped _ (hdigit first (by omega) hfirst) fun _ => id

theorem integerLength?_bounds (h : integerLength? text = some length) :
    0 < length ∧ length ≤ text.length := by
  obtain ⟨hle, hinteger⟩ := isInteger_of_integerLength? h
  refine ⟨Nat.pos_of_ne_zero ?_, hle⟩
  rintro rfl
  cases hinteger with
  | plain hdigits => simp [IsGrouped] at hdigits

end Integers

theorem stringLength?_append_eq_length (h : text ≠ []) :
    stringLength? (text ++ after) = some text.length ↔ stringLength? text = some text.length := by
  cases text with
  | nil => exact absurd rfl h
  | cons c text =>
      simp only [cons_append, stringLength?]
      by_cases hc : c = '\'' ∨ c = '"'
      · have hquote : c ≠ '\\' := by rintro rfl; simp at hc
        simp only [Bool.or_eq_true, decide_eq_true_eq, hc, if_true, length_cons,
          Option.map_eq_some_iff, Nat.add_right_cancel_iff, exists_eq_right]
        exact quotedLength?_append_eq_some_iff hquote after le_rfl
      · simp [hc]

end Literal

namespace Scan

open JinjaLayout.Text JinjaLayout.Literal

def shortOperator? : Text → Option (TokenKind × Nat)
  | c :: _ => if shortOperators.contains c then some (.operator, 1) else none
  | [] => none

/-- The token at the start of a text inside a tag, whatever brackets are open. -/
def anyToken? (previous : Option Char) (rest : Text) : Option (TokenKind × Nat) :=
  plainToken? previous rest <|> shortOperator? rest

/-- The scanner finds the piece at its place, between the character before it and the text behind
it. -/
def ReadsAs (previous : Option Char) (cut : Cut) (after : Text) : Prop :=
  anyToken? previous (cut.2 ++ after) = some (cut.1, cut.2.length)

variable {previous : Option Char} {c : Char} {rest text after : Text} {kind : TokenKind}
  {length : Nat}

theorem number?_eq_none_of_not_digit (rest : Text) (h : c.isDigit = false) :
    number? previous (c :: rest) = none := by
  simp [number?, h]

theorem startsName_of_isDigit (h : c.isDigit) : startsName c = false := by
  simp only [Char.isDigit, Bool.and_eq_true, decide_eq_true_eq, UInt32.le_iff_toNat_le] at h
  have hlow : 48 ≤ c.toNat := h.1
  have hhigh : c.toNat ≤ 57 := h.2
  rw [startsName_ascii (by omega)]
  simp only [Char.isAlpha, Char.isUpper, Char.isLower, Bool.or_eq_false_iff, Bool.and_eq_false_iff,
    decide_eq_false_iff_not, UInt32.le_iff_toNat_le, beq_eq_false_iff_ne, ne_eq]
  refine ⟨⟨?_, .inl ?_⟩, ?_⟩
  · exact fun hle => absurd (show 65 ≤ c.toNat from hle.1) (by omega)
  · exact fun hle => absurd (show 97 ≤ c.toNat from hle) (by omega)
  · rintro rfl
    exact absurd hhigh (by decide)

theorem not_starts_of_mem_shortOperators (h : c ∈ '!' :: shortOperators) :
    c.isDigit = false ∧ startsName c = false ∧ c ≠ '\'' ∧ c ≠ '"' ∧ isBlank c = false := by
  have hascii : c.toNat < 128 ∧ (c.isAlpha || c == '_') = false ∧ c.isDigit = false ∧
      c ≠ '\'' ∧ c ≠ '"' ∧ isBlank c = false := by
    fin_cases h <;> decide
  obtain ⟨hsmall, hname, hdigit, hsingle, hdouble, hblank⟩ := hascii
  exact ⟨hdigit, startsName_ascii hsmall ▸ hname, hsingle, hdouble, hblank⟩

theorem continuesName_of_mem_shortOperators (h : c ∈ '!' :: shortOperators) :
    continuesName c = false := by
  have hascii : c.toNat < 128 ∧ (c.isAlpha || c.isDigit || c == '_') = false := by
    fin_cases h <;> decide
  rw [continuesName_ascii hascii.1]
  exact hascii.2

theorem number?_eq_some (h : number? previous rest = some (kind, length)) :
    (kind = .integer ∨ kind = .float) ∧ ∃ c more, rest = c :: more ∧ c.isDigit := by
  unfold number? at h
  split at h
  · rename_i hdigit
    refine ⟨?_, ?_⟩
    · simp only [Option.orElse_eq_some, Option.map_eq_some_iff, Prod.mk.injEq] at h
      obtain ⟨_, _, rfl, _⟩ | ⟨_, _, _, rfl, _⟩ := h
      · exact .inr rfl
      · exact .inl rfl
    · cases rest with
      | nil => simp at hdigit
      | cons c more => exact ⟨c, more, rfl, by simpa using hdigit⟩
  · simp at h

theorem starts_of_mem_longOperators {operator : Text} (h : operator ∈ longOperators) :
    ∃ c d, operator = [c, d] ∧ c ∈ '!' :: shortOperators ∧ d ∈ ['/', '*', '='] := by
  fin_cases h <;> exact ⟨_, _, rfl, by decide, by decide⟩

theorem number?_bounds (h : number? previous rest = some (kind, length)) :
    0 < length ∧ length ≤ rest.length := by
  unfold number? at h
  split at h
  · simp only [Option.orElse_eq_some, Option.map_eq_some_iff, Prod.mk.injEq] at h
    obtain ⟨found, hfloat, -, rfl⟩ | ⟨-, found, hinteger, -, rfl⟩ := h
    · split at hfloat
      · simp at hfloat
      · exact floatLength?_bounds hfloat
    · exact integerLength?_bounds hinteger
  · simp at h

theorem anyToken?_eq_some_iff :
    anyToken? previous rest = some (kind, length) ↔
      number? previous rest = some (kind, length) ∨
      number? previous rest = none ∧
        (kind = .name ∧ nameLength? rest = some length ∨
        nameLength? rest = none ∧
          (kind = .string ∧ stringLength? rest = some length ∨
          stringLength? rest = none ∧ kind = .operator ∧
            ((∃ operator ∈ longOperators, operator <+: rest ∧ length = operator.length) ∨
            (∀ operator ∈ longOperators, ¬ operator <+: rest) ∧
              (∃ c more, rest = c :: more ∧ c ∈ shortOperators) ∧ length = 1))) := by
  have hshort : shortOperator? rest = some (kind, length) ↔
      kind = .operator ∧ (∃ c more, rest = c :: more ∧ c ∈ shortOperators) ∧ length = 1 := by
    cases rest with
    | nil => simp [shortOperator?]
    | cons c rest => simp only [shortOperator?]; grind
  unfold anyToken? plainToken?
  cases number? previous rest with
  | some found => simp [eq_comm]
  | none =>
      cases nameLength? rest with
      | some found => simp [eq_comm]
      | none =>
          cases stringLength? rest with
          | some found => simp [eq_comm]
          | none =>
              cases hfind : longOperators.find? fun operator => operator.isPrefixOf rest with
              | none =>
                  have hnone : ∀ operator ∈ longOperators, ¬ operator <+: rest := by
                    simpa using hfind
                  have hlong : ¬ ∃ operator ∈ longOperators,
                      operator <+: rest ∧ length = operator.length := by
                    rintro ⟨operator, hmem, hfront, -⟩
                    exact hnone operator hmem hfront
                  simpa [hlong, eq_true hnone] using hshort
              | some operator =>
                  have hmem := mem_of_find?_eq_some hfind
                  have hfront : operator <+: rest := by simpa using find?_some hfind
                  have hlength : ∀ other ∈ longOperators, other.length = operator.length := by
                    intro other hother
                    obtain ⟨_, _, rfl, -⟩ := starts_of_mem_longOperators hother
                    obtain ⟨_, _, rfl, -⟩ := starts_of_mem_longOperators hmem
                    rfl
                  simp only [reduceCtorEq, and_false, false_or, true_and]
                  constructor
                  · intro h
                    obtain ⟨rfl, rfl⟩ : TokenKind.operator = kind ∧ operator.length = length := by
                      simpa using h
                    exact ⟨rfl, .inl ⟨operator, hmem, hfront, rfl⟩⟩
                  · rintro ⟨rfl, ⟨other, hother, -, rfl⟩ | ⟨hnone, -⟩⟩
                    · simp [hlength other hother]
                    · exact absurd hfront (hnone operator hmem)

theorem readsAs_name_iff :
    ReadsAs previous (.name, text) after ↔
      isName text ∧ after.head?.any continuesName = false := by
  rw [ReadsAs, anyToken?_eq_some_iff]
  constructor
  · rintro (h | ⟨-, ⟨-, h⟩ | ⟨-, ⟨h, -⟩ | ⟨-, h, -⟩⟩⟩)
    · simpa using (number?_eq_some h).1
    · cases text with
      | nil => cases after <;> simp [nameLength?] at h
      | cons c text => exact (nameLength?_append_eq_length (cons_ne_nil c text)).mp h
    · simp at h
    · simp at h
  · rintro ⟨hname, hafter⟩
    cases text with
    | nil => simp [isName] at hname
    | cons c text =>
        have hdigit : c.isDigit = false := by
          by_contra hdigit
          simp only [isName, startsName_of_isDigit (by simpa using hdigit)] at hname
          simp at hname
        refine .inr ⟨number?_eq_none_of_not_digit _ hdigit, .inl ⟨rfl, ?_⟩⟩
        exact (nameLength?_append_eq_length (cons_ne_nil c text)).mpr ⟨hname, hafter⟩

theorem readsAs_string_iff :
    ReadsAs previous (.string, text) after ↔ stringLength? text = some text.length := by
  rw [ReadsAs, anyToken?_eq_some_iff]
  constructor
  · rintro (h | ⟨-, ⟨h, -⟩ | ⟨-, ⟨-, h⟩ | ⟨-, h, -⟩⟩⟩)
    · simpa using (number?_eq_some h).1
    · simp at h
    · cases text with
      | nil =>
          cases after with
          | nil => simp [stringLength?] at h
          | cons c after =>
              simp only [nil_append, length_nil, stringLength?] at h
              split at h <;> simp at h
      | cons c text => exact (stringLength?_append_eq_length (cons_ne_nil c text)).mp h
    · simp at h
  · intro h
    cases text with
    | nil => simp [stringLength?] at h
    | cons c text =>
        have hquote : c = '\'' ∨ c = '"' := by
          by_contra hquote
          simp [stringLength?, hquote] at h
        have hother : c.isDigit = false ∧ startsName c = false := by
          rcases hquote with rfl | rfl
          · exact ⟨by decide, by rw [startsName_ascii (by decide)]; decide⟩
          · exact ⟨by decide, by rw [startsName_ascii (by decide)]; decide⟩
        refine .inr ⟨number?_eq_none_of_not_digit _ hother.1, .inr ⟨?_, .inl ⟨rfl, ?_⟩⟩⟩
        · simp [nameLength?, hother.2]
        · exact (stringLength?_append_eq_length (cons_ne_nil c text)).mpr h

theorem readsAs_operator_iff :
    ReadsAs previous (.operator, text) after ↔
      text ∈ longOperators ∨ ∃ c ∈ shortOperators, text = [c] ∧
        ∀ operator ∈ longOperators, ¬ operator <+: c :: after := by
  rw [ReadsAs, anyToken?_eq_some_iff]
  constructor
  · rintro (h | ⟨-, ⟨h, -⟩ | ⟨-, ⟨h, -⟩ | ⟨-, -, ⟨operator, hmem, hfront, hlength⟩ |
      ⟨hnone, ⟨c, more, hrest, hc⟩, hlength⟩⟩⟩⟩)
    · simpa using (number?_eq_some h).1
    · simp at h
    · simp at h
    · refine .inl ?_
      have hsame : text <+: operator :=
        prefix_of_prefix_length_le (prefix_append text after) hfront hlength.le
      exact hsame.eq_of_length hlength ▸ hmem
    · obtain ⟨d, rfl⟩ := length_eq_one_iff.mp hlength
      obtain ⟨rfl, rfl⟩ : d = c ∧ after = more := by simpa using hrest
      exact .inr ⟨d, hc, rfl, hnone⟩
  · intro h
    have hstarts : ∃ c more, text = c :: more ∧ c ∈ '!' :: shortOperators := by
      rcases h with hlong | ⟨c, hc, rfl, -⟩
      · obtain ⟨c, d, rfl, hc, -⟩ := starts_of_mem_longOperators hlong
        exact ⟨c, [d], rfl, hc⟩
      · exact ⟨c, [], rfl, mem_cons_of_mem _ hc⟩
    obtain ⟨c, more, rfl, hc⟩ := hstarts
    obtain ⟨hdigit, hname, hsingle, hdouble, -⟩ := not_starts_of_mem_shortOperators hc
    refine .inr ⟨number?_eq_none_of_not_digit _ hdigit, .inr ⟨by simp [nameLength?, hname],
      .inr ⟨by simp [stringLength?, hsingle, hdouble], rfl, ?_⟩⟩⟩
    rcases h with hlong | ⟨d, hd, htext, hnone⟩
    · exact .inl ⟨_, hlong, prefix_append _ _, rfl⟩
    · obtain ⟨rfl, rfl⟩ : c = d ∧ more = [] := by simpa using htext
      exact .inr ⟨hnone, ⟨c, after, rfl, hd⟩, rfl⟩

theorem anyToken?_bounds (h : anyToken? previous rest = some (kind, length)) :
    0 < length ∧ length ≤ rest.length := by
  rw [anyToken?_eq_some_iff] at h
  obtain hnumber | ⟨-, ⟨-, hname⟩ | ⟨-, ⟨-, hstring⟩ | ⟨-, -, ⟨operator, hmem, hfront, rfl⟩ |
    ⟨-, ⟨c, more, rfl, -⟩, rfl⟩⟩⟩⟩ := h
  · exact number?_bounds hnumber
  · exact nameLength?_bounds hname
  · exact stringLength?_bounds hstring
  · obtain ⟨_, _, rfl, -⟩ := starts_of_mem_longOperators hmem
    exact ⟨by simp, hfront.length_le⟩
  · simp

theorem isWord_of_readsAs {cut : Cut} (h : ReadsAs previous cut after) : cut.1.isWord := by
  rw [ReadsAs, anyToken?_eq_some_iff] at h
  obtain ⟨kind, text⟩ := cut
  obtain h | ⟨-, ⟨h, -⟩ | ⟨-, ⟨h, -⟩ | ⟨-, h, -⟩⟩⟩ := h
  · rcases (number?_eq_some h).1 with rfl | rfl <;> rfl
  all_goals (subst h; rfl)

end Scan

end JinjaLayout
