import Mathlib
import JinjaLayout.Proofs.TablePairs

/-!
String literals. Main statements: the literal of a text is scanned as one token, whatever stands
behind it, and stands for the text; and a string token is read exactly if each numeric escape in it
has all its digits, a plus sign counting as the first of them.
-/

namespace JinjaLayout

open List

namespace Text

/-! ### Digits -/

variable {c quote : Char} {value text digits inside rest : Text}

theorem range_of_hexDigit? {digit : Nat} (h : hexDigit? c = some digit) :
    digit < 16 ∧ 48 ≤ c.toNat ∧ c.toNat ≤ 102 ∧ c.toNat ≠ 92 := by
  unfold hexDigit? at h
  simp only [Char.le_def, UInt32.le_iff_toNat_le] at h
  change (if 48 ≤ c.toNat ∧ c.toNat ≤ 57 then some (c.toNat - 48)
    else if 97 ≤ c.toNat ∧ c.toNat ≤ 102 then some (c.toNat - 97 + 10)
    else if 65 ≤ c.toNat ∧ c.toNat ≤ 70 then some (c.toNat - 65 + 10) else none) = some digit at h
  split_ifs at h <;> simp only [Option.some.injEq] at h <;> omega

theorem digitsFrom?_eq_some_iff {base value result : Nat} :
    digitsFrom? base value text = some result ↔
      ∃ digits : List Nat, text.map hexDigit? = digits.map some ∧ (∀ digit ∈ digits, digit < base) ∧
        value * base ^ digits.length + Nat.ofDigits base digits.reverse = result := by
  induction text generalizing value with
  | nil => simp [digitsFrom?]
  | cons c text ih =>
      have hshift : ∀ (digit : Nat) (digits : List Nat),
          (value * base + digit) * base ^ digits.length + Nat.ofDigits base digits.reverse =
            value * base ^ (digits.length + 1) + Nat.ofDigits base (digit :: digits).reverse := by
        intro digit digits
        rw [reverse_cons, Nat.ofDigits_append, Nat.ofDigits_singleton, length_reverse]
        ring
      cases hc : hexDigit? c with
      | none =>
          simp only [digitsFrom?, hc, reduceCtorEq, map_cons, false_iff]
          rintro ⟨_ | ⟨digit, digits⟩, hdigits, -⟩
          · simp at hdigits
          · simp at hdigits
      | some digit =>
          simp only [digitsFrom?, hc, Option.ite_none_right_eq_some, ih]
          constructor
          · rintro ⟨hdigit, digits, hdigits, hall, rfl⟩
            refine ⟨digit :: digits, by simp [hc, hdigits], by simpa using ⟨hdigit, hall⟩, ?_⟩
            exact (hshift digit digits).symm
          · rintro ⟨_ | ⟨first, digits⟩, hdigits, hall, rfl⟩
            · simp at hdigits
            · obtain ⟨rfl, htext⟩ : digit = first ∧ text.map hexDigit? = digits.map some := by
                simpa [hc] using hdigits
              rw [forall_mem_cons] at hall
              exact ⟨hall.1, digits, htext, hall.2, hshift digit digits⟩

/-- The hexadecimal digits name the character by its code point. -/
def Names (digits : Text) (c : Char) : Prop :=
  digits ≠ [] ∧ ∃ values : List Nat, digits.map hexDigit? = values.map some ∧
    Nat.ofDigits 16 values.reverse = c.toNat

theorem range_of_names (h : Names digits c) :
    ∀ digit ∈ digits, 48 ≤ digit.toNat ∧ digit.toNat ≤ 102 ∧ digit.toNat ≠ 92 := by
  obtain ⟨-, values, hvalues, -⟩ := h
  intro digit hdigit
  have hmem : hexDigit? digit ∈ values.map some := hvalues ▸ mem_map_of_mem hdigit
  obtain ⟨value, -, hvalue⟩ := mem_map.mp hmem
  exact (range_of_hexDigit? hvalue.symm).2

theorem scalar?_eq_some_iff {code : Nat} : scalar? code = some c ↔ code = c.toNat := by
  unfold scalar?
  split
  · rw [Option.some.injEq]
    constructor
    · rintro rfl
      rfl
    · rintro rfl
      rfl
  · rename_i hinvalid
    simp only [reduceCtorEq, false_iff]
    rintro rfl
    exact hinvalid c.valid

theorem digits?_bind_scalar? :
    (digits? 16 digits).bind scalar? = some c ↔ Names digits c := by
  unfold digits? Names
  split
  · rename_i hempty
    simp [isEmpty_iff.mp hempty]
  · rename_i hempty
    simp only [Option.bind_eq_some_iff, digitsFrom?_eq_some_iff, scalar?_eq_some_iff, Nat.zero_mul,
      Nat.zero_add]
    constructor
    · rintro ⟨_, ⟨values, hvalues, -, rfl⟩, hcode⟩
      exact ⟨by simpa using hempty, values, hvalues, hcode⟩
    · rintro ⟨-, values, hvalues, hcode⟩
      refine ⟨_, ⟨values, hvalues, fun value hvalue => ?_, rfl⟩, hcode⟩
      have hmem : some value ∈ digits.map hexDigit? := hvalues ▸ mem_map_of_mem hvalue
      obtain ⟨digit, -, hdigit⟩ := mem_map.mp hmem
      exact (range_of_hexDigit? hdigit).1

/-- What stands behind the letter of a numeric escape: digits that name the character, with a plus
sign in front of them if signs are read. -/
def Escapes (signed : Prop) (digits : Text) (c : Char) : Prop :=
  Names digits c ∨ signed ∧ ∃ rest, digits = '+' :: rest ∧ Names rest c

theorem unsigned?_bind_scalar? :
    (unsigned? 16 digits).bind scalar? = some c ↔ Escapes True digits c := by
  unfold unsigned? Escapes
  split
  · rename_i rest
    have hplus : ¬Names ('+' :: rest) c := by
      intro h
      exact absurd (range_of_names h '+' mem_cons_self).1 (by decide)
    simp [digits?_bind_scalar?, hplus]
  · rename_i hsign
    rw [digits?_bind_scalar?]
    simp only [true_and, iff_self_or, forall_exists_index, and_imp]
    intro rest hdigits
    exact absurd hdigits (hsign rest)

theorem range_of_escapes (h : Escapes True digits c) :
    ∀ digit ∈ digits, 43 ≤ digit.toNat ∧ digit.toNat ≤ 102 ∧ digit.toNat ≠ 92 := by
  rcases h with h | ⟨-, rest, rfl, h⟩
  · intro digit hdigit
    have := range_of_names h digit hdigit
    omega
  · refine forall_mem_cons.mpr ⟨by decide, fun digit hdigit => ?_⟩
    have := range_of_names h digit hdigit
    omega

theorem byteLength_of_ascii (h : ∀ c ∈ text, c.toNat ≤ 127) :
    byteLength text = text.length := by
  induction text with
  | nil => rfl
  | cons c text ih =>
      rw [forall_mem_cons] at h
      have hsize : c.utf8Size = 1 := Char.utf8Size_eq_one_iff.mpr (UInt32.le_iff_toNat_le.mpr h.1)
      have hrest : byteLength text = text.length := ih h.2
      simp only [byteLength, foldr_cons, hsize, length_cons] at hrest ⊢
      omega

theorem escapedScalar?_eq_some_iff {width : Nat} :
    escapedScalar? width digits = some c ↔ digits.length = width ∧ Escapes True digits c := by
  have hbytes : Escapes True digits c → byteLength digits = digits.length := by
    intro h
    refine byteLength_of_ascii fun digit hdigit => ?_
    have := range_of_escapes h digit hdigit
    omega
  rw [escapedScalar?, Option.ite_none_right_eq_some, unsigned?_bind_scalar?]
  constructor
  · rintro ⟨hwidth, h⟩
    exact ⟨(hbytes h).symm.trans hwidth, h⟩
  · rintro ⟨hwidth, h⟩
    exact ⟨(hbytes h).trans hwidth, h⟩

/-! ### The inside of a literal -/

/-- The inside of a string literal stands for a text: plain characters for themselves, escapes for
what they name. Signs are read in numeric escapes or not. -/
inductive Unescapes (signed : Prop) : Text → Text → Prop where
  | nil : Unescapes signed [] []
  | plain {c : Char} {rest value : Text} (hc : c ≠ '\\') (h : Unescapes signed rest value) :
      Unescapes signed (c :: rest) (c :: value)
  | simple {letter : Char} {rest value : Text} (hletter : escapeWidth? letter = none)
      (h : Unescapes signed rest value) :
      Unescapes signed ('\\' :: letter :: rest) (simpleEscape letter ++ value)
  | numeric {letter c : Char} {digits rest value : Text}
      (hletter : escapeWidth? letter = some digits.length) (hdigits : Escapes signed digits c)
      (h : Unescapes signed rest value) :
      Unescapes signed ('\\' :: letter :: (digits ++ rest)) (c :: value)

theorem unescapes_of_not_mem (h : Unescapes True inside value) (hplus : '+' ∉ inside) :
    Unescapes False inside value := by
  induction h with
  | nil => exact .nil
  | plain hc _ ih => exact .plain hc (ih fun hmem => hplus (mem_cons_of_mem _ hmem))
  | simple hletter _ ih => exact .simple hletter (ih fun hmem => hplus (by simp [hmem]))
  | numeric hletter hdigits _ ih =>
      refine .numeric hletter (.inl ?_) (ih fun hmem => hplus (by simp [hmem]))
      rcases hdigits with hdigits | ⟨-, rest, rfl, -⟩
      · exact hdigits
      · simp at hplus

theorem Unescapes.signed (h : Unescapes False inside value) :
    Unescapes True inside value := by
  induction h with
  | nil => exact .nil
  | plain hc _ ih => exact .plain hc ih
  | simple hletter _ ih => exact .simple hletter ih
  | numeric hletter hdigits _ ih => exact .numeric hletter (hdigits.imp_right fun h => h.1.elim) ih

def IsInside (quote : Char) (inside : Text) : Prop :=
  Literal.quotedLength? quote (inside ++ [quote]) = some (inside.length + 1)

theorem isInside_cons (hc : c ≠ '\\') :
    IsInside quote (c :: rest) ↔ c ≠ quote ∧ IsInside quote rest := by
  unfold IsInside
  rw [cons_append, Literal.quotedLength?_cons hc]
  split <;> simp_all

theorem isInside_escape {letter : Char} :
    IsInside quote ('\\' :: letter :: rest) ↔ IsInside quote rest := by
  simp [IsInside, Literal.quotedLength?]

theorem isInside_of_append (hdigits : ∀ digit ∈ digits, digit.toNat ≠ 92)
    (h : IsInside quote (digits ++ rest)) :
    IsInside quote rest := by
  induction digits with
  | nil => exact h
  | cons digit digits ih =>
      rw [forall_mem_cons] at hdigits
      have hdigit : digit ≠ '\\' := by
        rintro rfl
        exact hdigits.1 rfl
      exact ih hdigits.2 ((isInside_cons hdigit).mp h).2

theorem unescapeFrom_eq_ok_iff {used : Nat} (h : IsInside quote (text.drop used)) :
    unescapeFrom used text = .ok value ↔ Unescapes True (text.drop used) value := by
  fun_induction unescapeFrom used text generalizing value with
  | case1 used =>
      rw [drop_nil]
      constructor
      · rintro ⟨⟩
        exact .nil
      · rintro ⟨⟩
        rfl
  | case2 used c rest ih => exact ih h
  | case3 =>
      rw [drop_zero, IsInside, cons_append, nil_append, Literal.quotedLength?] at h
      simp [Literal.quotedLength?] at h
  | case4 letter rest width hwidth c hscalar ih =>
      obtain ⟨hlength, hdigits⟩ := escapedScalar?_eq_some_iff.mp hscalar
      have hrest : IsInside quote (rest.drop width) := by
        rw [drop_zero, isInside_escape, ← take_append_drop width rest] at h
        exact isInside_of_append (fun digit hdigit => (range_of_escapes hdigits digit hdigit).2.2) h
      rw [map_eq_ok_iff, drop_zero]
      constructor
      · rintro ⟨inner, hinner, rfl⟩
        have hnumeric := Unescapes.numeric (hwidth.trans (congrArg some hlength.symm)) hdigits
          ((ih hrest).mp hinner)
        rwa [take_append_drop] at hnumeric
      · intro hall
        cases hall with
        | plain hc _ => exact absurd rfl hc
        | simple hletter _ => simp [hwidth] at hletter
        | @numeric _ d digits rest value hletter hdigits' hrest' =>
            obtain rfl : width = digits.length := Option.some.inj (hwidth.symm.trans hletter)
            rw [take_left] at hscalar
            rw [drop_left] at ih hrest
            have hsame := escapedScalar?_eq_some_iff.mpr ⟨rfl, hdigits'⟩
            exact ⟨value, (ih hrest).mpr hrest', by rw [Option.some.inj (hscalar.symm.trans hsame)]⟩
  | case5 letter rest width hwidth hscalar =>
      simp only [reduceCtorEq, drop_zero, false_iff]
      intro hall
      cases hall with
      | plain hc _ => exact absurd rfl hc
      | simple hletter _ => simp [hwidth] at hletter
      | @numeric _ d digits rest value hletter hdigits _ =>
          obtain rfl : width = digits.length := Option.some.inj (hwidth.symm.trans hletter)
          rw [take_left] at hscalar
          simp [escapedScalar?_eq_some_iff.mpr ⟨rfl, hdigits⟩] at hscalar
  | case6 letter rest hwidth ih =>
      rw [drop_zero, isInside_escape] at h
      rw [map_eq_ok_iff, drop_zero]
      constructor
      · rintro ⟨inner, hinner, rfl⟩
        exact .simple hwidth ((ih h).mp hinner)
      · intro hall
        cases hall with
        | plain hc _ => exact absurd rfl hc
        | simple _ hrest => exact ⟨_, (ih h).mpr hrest, rfl⟩
        | numeric hletter _ _ => simp [hwidth] at hletter
  | case7 c rest hone hmore ih =>
      have hc : c ≠ '\\' := by
        rintro rfl
        cases rest with
        | nil => exact hone rfl rfl
        | cons letter rest => exact hmore letter rest rfl rfl
      rw [drop_zero, isInside_cons hc] at h
      rw [map_eq_ok_iff, drop_zero]
      constructor
      · rintro ⟨inner, hinner, rfl⟩
        exact .plain hc ((ih h.2).mp hinner)
      · intro hall
        cases hall with
        | plain _ hrest => exact ⟨_, (ih h.2).mpr hrest, rfl⟩
        | simple | numeric => exact absurd rfl hc

/-! ### Literals that were written -/

theorem hexDigit?_digitChar {n : Nat} (h : n < 16) : hexDigit? (Nat.digitChar n) = some n := by
  interval_cases n <;> rfl

theorem names_of_isControl (h : isControl c) :
    Names [Nat.digitChar (c.toNat / 16), Nat.digitChar (c.toNat % 16)] c := by
  have hlow : c.toNat < 160 := by
    simp only [isControl, Bool.or_eq_true, Bool.and_eq_true, decide_eq_true_eq] at h
    omega
  refine ⟨by simp, [c.toNat / 16, c.toNat % 16], ?_, ?_⟩
  · simp [hexDigit?_digitChar (show c.toNat / 16 < 16 by omega),
      hexDigit?_digitChar (show c.toNat % 16 < 16 by omega)]
  · simp only [reverse_cons, reverse_nil, nil_append, cons_append,
      Nat.ofDigits_cons, Nat.ofDigits_nil]
    omega

theorem escapedChar_inside (hquote : quote = '\'' ∨ quote = '"') (c : Char)
    (hrest : IsInside quote rest) (h : Unescapes False rest value) :
    IsInside quote (escapedChar quote c ++ rest) ∧
      Unescapes False (escapedChar quote c ++ rest) (c :: value) := by
  have hsimple : ∀ letter, escapeWidth? letter = none → simpleEscape letter = [c] →
      IsInside quote ('\\' :: letter :: rest) ∧
        Unescapes False ('\\' :: letter :: rest) (c :: value) := by
    intro letter hletter hvalue
    have hsimple := Unescapes.simple hletter h
    rw [hvalue] at hsimple
    exact ⟨isInside_escape.mpr hrest, hsimple⟩
  unfold escapedChar
  split_ifs with hslash hnewline hreturn htab hc hcontrol
  · exact hsimple '\\' rfl (by rw [hslash]; rfl)
  · exact hsimple 'n' rfl (by rw [hnewline]; rfl)
  · exact hsimple 'r' rfl (by rw [hreturn]; rfl)
  · exact hsimple 't' rfl (by rw [htab]; rfl)
  · rw [hc] at hsimple ⊢
    rcases hquote with rfl | rfl
    · exact hsimple '\'' rfl rfl
    · exact hsimple '"' rfl rfl
  · have hnames := names_of_isControl hcontrol
    have hplain : ∀ digit ∈ [Nat.digitChar (c.toNat / 16), Nat.digitChar (c.toNat % 16)],
        digit ≠ '\\' ∧ digit ≠ quote := by
      intro digit hdigit
      have hrange := range_of_names hnames digit hdigit
      rcases hquote with rfl | rfl <;> constructor <;> rintro rfl <;> simp at hrange
    rw [forall_mem_cons, forall_mem_singleton] at hplain
    refine ⟨?_, .numeric rfl (.inl hnames) h⟩
    rw [cons_append, cons_append, isInside_escape]
    exact (isInside_cons hplain.1.1).mpr ⟨hplain.1.2, (isInside_cons hplain.2.1).mpr ⟨hplain.2.2, hrest⟩⟩
  · exact ⟨(isInside_cons hslash).mpr ⟨hc, hrest⟩, .plain hslash h⟩

theorem literalQuote_cases (text : Text) : literalQuote text = '\'' ∨ literalQuote text = '"' := by
  unfold literalQuote
  split
  · exact .inr rfl
  · exact .inl rfl

theorem inside_of_literal (hquote : quote = '\'' ∨ quote = '"') (value : Text) :
    IsInside quote (value.flatMap (escapedChar quote)) ∧
      Unescapes False (value.flatMap (escapedChar quote)) value := by
  induction value with
  | nil => exact ⟨by rcases hquote with rfl | rfl <;> rfl, .nil⟩
  | cons c value ih =>
      rw [flatMap_cons]
      exact escapedChar_inside hquote c ih.1 ih.2

theorem exists_inside_of_quotedLength? (h : Literal.quotedLength? quote text = some text.length) :
    ∃ inside, text = inside ++ [quote] ∧ IsInside quote inside := by
  suffices hclosed : ∃ inside, text = inside ++ [quote] by
    obtain ⟨inside, rfl⟩ := hclosed
    exact ⟨inside, rfl, by simpa [IsInside] using h⟩
  fun_induction Literal.quotedLength? quote text with
  | case1 => simp at h
  | case2 c rest ih =>
      obtain ⟨inside, rfl⟩ := ih (by simpa using h)
      exact ⟨'\\' :: c :: inside, rfl⟩
  | case3 rest =>
      obtain rfl : rest = [] := by simpa using h
      exact ⟨[], rfl⟩
  | case4 => simp at h
  | case5 c rest _ _ _ ih =>
      obtain ⟨inside, rfl⟩ := ih (by simpa using h)
      exact ⟨c :: inside, rfl⟩

theorem stringLength?_eq_length_iff :
    Literal.stringLength? text = some text.length ↔
      ∃ quote inside, (quote = '\'' ∨ quote = '"') ∧ text = quote :: (inside ++ [quote]) ∧
        IsInside quote inside := by
  constructor
  · intro h
    cases text with
    | nil => simp [Literal.stringLength?] at h
    | cons quote rest =>
        simp only [Literal.stringLength?, Bool.or_eq_true, decide_eq_true_eq,
          Option.ite_none_right_eq_some, Option.map_eq_some_iff, length_cons,
          Nat.add_right_cancel_iff, exists_eq_right] at h
        obtain ⟨inside, rfl, hinside⟩ := exists_inside_of_quotedLength? h.2
        exact ⟨quote, inside, h.1, rfl, hinside⟩
  · rintro ⟨quote, inside, hquote, rfl, hinside⟩
    simp [Literal.stringLength?, hquote, show Literal.quotedLength? _ _ = _ from hinside]

theorem unescape_eq_ok_iff (h : IsInside quote inside) :
    unescape (quote :: (inside ++ [quote])) = .ok value ↔ Unescapes True inside value := by
  rw [unescape, drop_succ_cons, drop_zero, dropLast_concat]
  exact @unescapeFrom_eq_ok_iff quote value inside 0 h

end Text

theorem Piece.lexeme?_string_eq_ok_iff {piece : Piece} (hkind : piece.kind = .string)
    {result : Option Lexeme} :
    piece.lexeme? = .ok result ↔
      ∃ value, Text.unescape piece.text = .ok value ∧ result = some ⟨piece.line, .string, value⟩ := by
  unfold Piece.lexeme?
  rw [hkind]
  cases hvalue : Text.unescape piece.text <;> simp [eq_comm]

namespace Scan

open Text

/-- A written literal is read as one token, and the token stands for the text. -/
theorem readTag_literal (env : Environment) (tagEnd : TagEnd) (bound : Nat) (due value after : Text)
    (scan : Scan) (hrest : scan.rest = literal value ++ after)
    (hinside : due = [] → tagEnd.delimiter? env scan.rest = none) :
    let next := scan.push .string (literal value).length
    readTag env tagEnd (bound + 1) due scan = readTag env tagEnd bound due next ∧
      next.pieces = ⟨scan.line, .string, literal value⟩ :: scan.pieces ∧ next.rest = after ∧
      Piece.lexeme? ⟨scan.line, .string, literal value⟩ =
        .ok (some ⟨scan.line, .string, value⟩) := by
  have hquote := literalQuote_cases value
  obtain ⟨hclosed, hvalue⟩ := inside_of_literal hquote value
  have htoken : scan.tagToken due = .ok (.string, (literal value).length, due) := by
    rw [tagToken_eq_ok_iff, hrest]
    refine ⟨readsAs_string_iff.mpr ?_, rfl⟩
    exact stringLength?_eq_length_iff.mpr ⟨_, _, hquote, rfl, hclosed⟩
  have hgap : startsGap tagEnd due scan.rest = false := by
    rw [hrest, literal, List.cons_append, startsGap, List.head?_cons, Option.any_some, isGap]
    rcases hquote with hquote | hquote <;> rw [hquote] <;> rfl
  have hending : (if due = [] then ending? env tagEnd scan.rest else none) = none := by
    split
    · rename_i hdue
      rw [hrest, literal, List.cons_append] at hinside ⊢
      cases tagEnd with
      | line => rcases hquote with hquote | hquote <;> rw [hquote] <;> rfl
      | _ => exact hinside hdue
    · rfl
  refine ⟨?_, ?_, ?_, ?_⟩
  · rw [readTag_succ, hgap, hending, htoken]
    rfl
  · simp [push, hrest]
  · simp [push, hrest]
  · rw [Piece.lexeme?_string_eq_ok_iff rfl]
    exact ⟨value, (unescape_eq_ok_iff hclosed).mpr hvalue.signed, rfl⟩

/-- A text with both quotes, a line end and a backslash at its end. -/
theorem readTag_literal_of_quotes :
    let value : Text := ['\'', '"', '\n', '\\']
    let scan : Scan := { rest := literal value ++ [' ', '}', '}'] }
    TagEnd.delimiter? {} scan.rest .variable = none ∧
      readTag {} .variable 3 [] scan =
        readTag {} .variable 2 [] (scan.push .string (literal value).length) :=
  ⟨rfl, (readTag_literal {} .variable 2 [] _ _ _ rfl fun _ => rfl).1⟩

/-- A string token is read exactly if its inside is made up of characters and escapes. Numeric
escapes have all their digits, and a plus sign counts as the first one. -/
theorem string_read_iff (env : Environment) (source : Text) (pieces : List Piece) (piece : Piece)
    (hscan : JinjaLayout.scan env source = .ok pieces) (hpiece : piece ∈ pieces)
    (hkind : piece.kind = .string) :
    ∃ quote inside, piece.text = quote :: (inside ++ [quote]) ∧
      (∀ result, piece.lexeme? = .ok result ↔
        ∃ value, Unescapes True inside value ∧ result = some ⟨piece.line, .string, value⟩) ∧
      ('+' ∉ inside → ∀ result, piece.lexeme? = .ok result ↔
        ∃ value, Unescapes False inside value ∧ result = some ⟨piece.line, .string, value⟩) := by
  obtain ⟨previous, rest, length, hany, htext⟩ := isRead_of_scan hscan piece hpiece (by rw [hkind]; rfl)
  have hlength : piece.text.length = length := by
    rw [← htext]
    simp [(anyToken?_bounds hany).2]
  have hread : ReadsAs previous (.string, piece.text) (rest.drop length) := by
    rw [ReadsAs, hlength, ← htext, List.take_append_drop, ← hkind]
    exact hany
  obtain ⟨quote, inside, -, hinside, hclosed⟩ :=
    stringLength?_eq_length_iff.mp (readsAs_string_iff.mp hread)
  have hall : ∀ result, piece.lexeme? = .ok result ↔
      ∃ value, Unescapes True inside value ∧ result = some ⟨piece.line, .string, value⟩ := by
    intro result
    rw [Piece.lexeme?_string_eq_ok_iff hkind, hinside]
    exact exists_congr fun value => and_congr_left' (unescape_eq_ok_iff hclosed)
  refine ⟨quote, inside, hinside, hall, fun hplus result => (hall result).trans ?_⟩
  refine exists_congr fun value => and_congr_left' ?_
  exact ⟨fun h => unescapes_of_not_mem h hplus, Unescapes.signed⟩

/-- An escape between characters. -/
theorem string_read_iff_of_escape :
    ∃ pieces piece, JinjaLayout.scan {} "\x7b\x7b 'a\\x41' \x7d\x7d".toList = .ok pieces ∧
      piece ∈ pieces ∧ piece.kind = .string ∧
      ∃ quote inside, piece.text = quote :: (inside ++ [quote]) ∧
        ∀ result, piece.lexeme? = .ok result ↔
          ∃ value, Unescapes True inside value ∧ result = some ⟨piece.line, .string, value⟩ := by
  have hscan : JinjaLayout.scan {} "\x7b\x7b 'a\\x41' \x7d\x7d".toList = .ok
      [⟨1, .variableBegin, ['{', '{']⟩, ⟨1, .whitespace, [' ']⟩, ⟨1, .string, "'a\\x41'".toList⟩,
        ⟨1, .whitespace, [' ']⟩, ⟨1, .variableEnd, ['}', '}']⟩] := by rfl
  obtain ⟨quote, inside, htext, hread, -⟩ :=
    string_read_iff {} _ _ ⟨1, .string, "'a\\x41'".toList⟩ hscan (by decide) rfl
  exact ⟨_, _, hscan, by decide, rfl, quote, inside, htext, hread⟩

theorem plus_read_as_digit :
    (∃ pieces, JinjaLayout.scan {} "\x7b\x7b '\\x+1' \x7d\x7d".toList = .ok pieces ∧
      ⟨1, .string, "'\\x+1'".toList⟩ ∈ pieces) ∧
      Piece.lexeme? ⟨1, .string, "'\\x+1'".toList⟩ = .ok (some ⟨1, .string, ['\x01']⟩) ∧
      ∀ value, ¬Unescapes False "\\x+1".toList value := by
  refine ⟨⟨_, rfl, by decide⟩, rfl, fun value h => ?_⟩
  change Unescapes False ['\\', 'x', '+', '1'] value at h
  generalize hinside : ['\\', 'x', '+', '1'] = inside at h
  cases h with
  | nil => simp at hinside
  | plain hc _ => exact hc (List.cons.inj hinside).1.symm
  | simple hletter _ =>
      rw [← (List.cons.inj (List.cons.inj hinside).2).1] at hletter
      simp [escapeWidth?] at hletter
  | @numeric _ _ digits _ _ hletter hdigits _ =>
      obtain ⟨rfl, hrest⟩ := List.cons.inj (List.cons.inj hinside).2
      cases digits with
      | nil => simp [escapeWidth?] at hletter
      | cons digit digits =>
          obtain ⟨rfl, -⟩ := List.cons.inj hrest
          rcases hdigits with hdigits | ⟨hsigned, -⟩
          · exact absurd (range_of_names hdigits '+' List.mem_cons_self).1 (by decide)
          · exact hsigned

end Scan

end JinjaLayout
