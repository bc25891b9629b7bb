import JinjaLayout.Text.Letter

/-!
The literals and names of expressions. Each function gives the number of characters of the longest
literal of its kind at the start of a text.
-/

namespace JinjaLayout.Literal

open JinjaLayout.Text

/-- The length of a run of items, each an optional underscore and a character of the class. -/
def groupedLength (digit : Char → Bool) : Text → Nat
  | '_' :: c :: rest => if digit c then groupedLength digit rest + 2 else 0
  | c :: rest => if digit c then groupedLength digit rest + 1 else 0
  | [] => 0

def decimalLength? : Text → Option Nat
  | c :: rest => if isDecimalDigit c then some (groupedLength isDecimalDigit rest + 1) else none
  | [] => none

def fractionLength? : Text → Option Nat
  | '.' :: rest => (decimalLength? rest).map (· + 1)
  | _ => none

def signLength : Text → Nat
  | '+' :: _ | '-' :: _ => 1
  | _ => 0

def exponentLength? : Text → Option Nat
  | c :: rest =>
      if c = 'e' || c = 'E' then
        let sign := signLength rest
        (decimalLength? (rest.drop sign)).map (· + sign + 1)
      else none
  | [] => none

/-- The length of a decimal number with a fraction, an exponent or both. -/
def floatLength? (text : Text) : Option Nat := do
  let whole ← decimalLength? text
  let rest := text.drop whole
  match fractionLength? rest, exponentLength? rest with
  | some fraction, _ =>
      some (whole + fraction + (exponentLength? (rest.drop fraction)).getD 0)
  | none, some exponent => some (whole + exponent)
  | none, none => none

def baseDigit? : Char → Option (Char → Bool)
  | 'b' | 'B' => some fun c => c == '0' || c == '1'
  | 'o' | 'O' => some fun c => '0' ≤ c && c ≤ '7'
  | 'x' | 'X' => some fun c =>
      isDecimalDigit c || ('a' ≤ c && c ≤ 'f') || ('A' ≤ c && c ≤ 'F')
  | _ => none

def basedLength? : Text → Option Nat
  | '0' :: mark :: rest =>
      match baseDigit? mark with
      | some digit =>
          let digits := groupedLength digit rest
          if digits = 0 then none else some (digits + 2)
      | none => none
  | _ => none

/-- The length of a number without a mark: it starts with a nonzero digit or has zeros only. -/
def plainLength? : Text → Option Nat
  | c :: rest =>
      if c = '0' then some (groupedLength (· == '0') rest + 1)
      else if '1' ≤ c ∧ c ≤ '9' then some (groupedLength isDecimalDigit rest + 1)
      else none
  | [] => none

def integerLength? (text : Text) : Option Nat :=
  basedLength? text <|> plainLength? text

def nameLength? : Text → Option Nat
  | c :: rest =>
      if startsName c then some ((rest.takeWhile continuesName).length + 1) else none
  | [] => none

/-- The number of characters up to and with the closing quote, a backslash hiding the one after
it. -/
def quotedLength? (quote : Char) : Text → Option Nat
  | [] => none
  | '\\' :: _ :: rest => (quotedLength? quote rest).map (· + 2)
  | c :: rest =>
      if c = quote then some 1
      else if c = '\\' then none
      else (quotedLength? quote rest).map (· + 1)

def stringLength? : Text → Option Nat
  | c :: rest => if c = '\'' || c = '"' then (quotedLength? c rest).map (· + 1) else none
  | [] => none

end JinjaLayout.Literal
