import JinjaLayout.Number.Double

/-!
The literals in the expressions that are rendered. A string may name characters by code units of
sixteen bits, two of which make up one character, and by bytes; a backslash before any other
character stands for itself.
-/

namespace JinjaLayout.Rendering

inductive Escaped where
  | text (text : Text)
  | unit (code : Nat)

/-- The value of as many hexadecimal digits as the width says. -/
def hexadecimal? (width : Nat) (text : Text) : Option Nat :=
  if (text.take width).length = width then Text.unsigned? 16 (text.take width) else none

def isOctalDigit (c : Char) : Bool :=
  '0' ≤ c && c ≤ '7'

/-- The byte that up to three octal digits stand for, and how many of them follow the first one. -/
def octal? (first : Char) (rest : Text) : Option (Char × Nat) := do
  let others := (rest.take 2).takeWhile isOctalDigit
  let code ← Text.digits? 8 (first :: others)
  if code < 256 then some (Char.ofNat code, others.length) else none

/-- What a letter after a backslash stands for when nothing that follows belongs to it. -/
def simpleEscape : Char → Text
  | '"' => ['"']
  | '\'' => ['\'']
  | '\\' => ['\\']
  | '/' => ['/']
  | 'b' => ['\x08']
  | 'f' => ['\x0c']
  | 'n' => ['\n']
  | 'r' => ['\r']
  | 't' => ['\t']
  | letter => ['\\', letter]

/-- What an escape stands for, and how many characters after its letter belong to it. -/
def escape? (letter : Char) (rest : Text) : Option (Escaped × Nat) :=
  if letter = 'u' then (hexadecimal? 4 rest).map fun code => (.unit code, 4)
  else if letter = 'x' then (hexadecimal? 2 rest).map fun code => (.text [Char.ofNat code], 2)
  else if isOctalDigit letter then (octal? letter rest).map fun (c, used) => (.text [c], used)
  else some (.text (simpleEscape letter), 0)

def isHalf (code : Nat) : Bool :=
  0xD800 ≤ code && code ≤ 0xDFFF

/-- The character that two halves make up. -/
def paired? (high low : Nat) : Option Char :=
  if high < 0xDC00 ∧ 0xDC00 ≤ low then
    some (Char.ofNat (0x10000 + (high - 0xD800) * 0x400 + (low - 0xDC00)))
  else none

/-- The text that the inside of a string stands for. The first argument counts characters that an
escape before them has used up, the second is a half that waits for the other one. -/
def unescapeFrom : Nat → Option Nat → Text → Option Text
  | _, half, [] => if half.isNone then some [] else none
  | used + 1, half, _ :: rest => unescapeFrom used half rest
  | 0, half, '\\' :: letter :: rest =>
      match escape? letter rest, half with
      | some (.text text, used), none => (unescapeFrom used none rest).map (text ++ ·)
      | some (.unit code, used), none =>
          if isHalf code then unescapeFrom used (some code) rest
          else (unescapeFrom used none rest).map (Char.ofNat code :: ·)
      | some (.unit code, used), some high => do
          let c ← if isHalf code then paired? high code else none
          return c :: (← unescapeFrom used none rest)
      | _, _ => none
  | 0, half, c :: rest => if half.isNone then (unescapeFrom 0 none rest).map (c :: ·) else none

def unescape (inside : Text) : Option Text :=
  unescapeFrom 0 none inside

def stringInside? (quote : Char) : Text → Option Text
  | [] | ['\\'] => none
  | '\\' :: c :: rest => (stringInside? quote rest).map fun inside => '\\' :: c :: inside
  | c :: rest => if c = quote then some [] else (stringInside? quote rest).map (c :: ·)

/-- The part of a number that its next character belongs to. -/
inductive NumberPart where
  | based
  | whole
  | fraction
  | exponent
  | power
deriving DecidableEq

def nextPart? (base : Nat) (part : NumberPart) (c : Char) : Option NumberPart :=
  if c.isDigit then some (if part = .exponent then .power else part)
  else if c = '_' then some part
  else match part with
    | .based => if base = 16 ∧ (Text.hexDigit? c).isSome then some .based else none
    | .whole =>
        if c = '.' then some .fraction else if c = 'e' ∨ c = 'E' then some .exponent else none
    | .fraction => if c = 'e' ∨ c = 'E' then some .exponent else none
    | .exponent => if c = '+' ∨ c = '-' then some .power else none
    | .power => none

def spanNumber (base : Nat) : NumberPart → Text → Text × NumberPart
  | part, [] => ([], part)
  | part, c :: rest =>
      match nextPart? base part c with
      | some part =>
          let (number, final) := spanNumber base part rest
          (c :: number, final)
      | none => ([], part)

/-- The base of a number and how many characters name it. -/
def numberBase : Text → Nat × Nat
  | '0' :: 'b' :: _ | '0' :: 'B' :: _ => (2, 2)
  | '0' :: 'o' :: _ | '0' :: 'O' :: _ => (8, 2)
  | '0' :: 'x' :: _ | '0' :: 'X' :: _ => (16, 2)
  | _ => (10, 0)

/-- A number: an integer or a float. -/
inductive Numeral where
  | int (value : Nat)
  | float (value : Double)

def numeral (text : Text) : Except String Numeral × Nat :=
  let (base, mark) := numberBase text
  let start : NumberPart := if mark = 0 then .whole else .based
  let (number, part) := spanNumber base start (text.drop mark)
  let digits := number.filter (· != '_')
  let value : Except String Numeral :=
    if number.getLast? = some '_' then .error "'_' may not occur at end of number"
    else if part = .whole ∨ part = .based then
      match Text.digits? base digits with
      | some value =>
          if value < Nat.pow 2 128 then .ok (.int value) else .error "invalid integer"
      | none => .error "invalid integer"
    else match Double.read? digits with
      | some value => .ok (.float value)
      | none => .error "invalid float"
  (value, mark + number.length)

end JinjaLayout.Rendering
