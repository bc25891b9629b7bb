import JinjaLayout.Fault

namespace JinjaLayout.Text

def hexDigit? (c : Char) : Option Nat :=
  if '0' ≤ c ∧ c ≤ '9' then some (c.toNat - '0'.toNat)
  else if 'a' ≤ c ∧ c ≤ 'f' then some (c.toNat - 'a'.toNat + 10)
  else if 'A' ≤ c ∧ c ≤ 'F' then some (c.toNat - 'A'.toNat + 10)
  else none

/-- The value of a sequence of digits in a base, most significant first, on top of the value read
so far. -/
def digitsFrom? (base : Nat) (value : Nat) : Text → Option Nat
  | [] => some value
  | c :: rest =>
      match hexDigit? c with
      | some digit => if digit < base then digitsFrom? base (value * base + digit) rest else none
      | none => none

/-- The value of a nonempty sequence of digits in a base. -/
def digits? (base : Nat) (text : Text) : Option Nat :=
  if text.isEmpty then none else digitsFrom? base 0 text

/-- The value of a nonempty sequence of digits that may follow a plus sign. -/
def unsigned? (base : Nat) : Text → Option Nat
  | '+' :: rest => digits? base rest
  | text => digits? base text

/-- The character at a code point, which must not be a surrogate. -/
def scalar? (code : Nat) : Option Char :=
  if h : code.isValidChar then some (Char.ofNatAux code h) else none

/-- The character that the digits of a numeric escape name. All the digits are ASCII, a plus sign
counts as one of them. -/
def escapedScalar? (width : Nat) (digits : Text) : Option Char :=
  if byteLength digits = width then (unsigned? 16 digits).bind scalar? else none

/-- The number of digits after the letter of a numeric escape. -/
def escapeWidth? : Char → Option Nat
  | 'x' => some 2
  | 'u' => some 4
  | 'U' => some 8
  | _ => none

/-- What a backslash and a letter stand for; nothing for a line continued after a backslash, both
characters for a letter without a meaning. -/
def simpleEscape : Char → Text
  | 'n' => ['\n']
  | 't' => ['\t']
  | 'r' => ['\r']
  | 'a' => ['\x07']
  | 'b' => ['\x08']
  | 'f' => ['\x0c']
  | 'v' => ['\x0b']
  | '0' => ['\x00']
  | '\\' => ['\\']
  | '\'' => ['\'']
  | '"' => ['"']
  | '\n' => []
  | letter => ['\\', letter]

/-- The text that the inside of a string literal stands for. The first argument counts characters
that an escape before them has used up. -/
def unescapeFrom : Nat → Text → Except SyntaxFault Text
  | _, [] => .ok []
  | used + 1, _ :: rest => unescapeFrom used rest
  | 0, ['\\'] => .ok ['\\']
  | 0, '\\' :: letter :: rest =>
      match escapeWidth? letter with
      | some width =>
          match escapedScalar? width (rest.take width) with
          | some c => (unescapeFrom width rest).map (c :: ·)
          | none => .error (.invalidEscape letter (rest.take width))
      | none => (unescapeFrom 0 rest).map (simpleEscape letter ++ ·)
  | 0, c :: rest => (unescapeFrom 0 rest).map (c :: ·)

def unescape (literal : Text) : Except SyntaxFault Text :=
  unescapeFrom 0 (literal.drop 1).dropLast

/-- A control character of category Cc. -/
def isControl (c : Char) : Bool :=
  c.toNat < 32 || (127 ≤ c.toNat && c.toNat < 160)

def escapedChar (quote c : Char) : Text :=
  if c = '\\' then ['\\', '\\']
  else if c = '\n' then ['\\', 'n']
  else if c = '\r' then ['\\', 'r']
  else if c = '\t' then ['\\', 't']
  else if c = quote then ['\\', c]
  else if isControl c then
    ['\\', 'x', Nat.digitChar (c.toNat / 16), Nat.digitChar (c.toNat % 16)]
  else [c]

/-- The quote of a string literal: a single one unless the text holds single and no double ones. -/
def literalQuote (text : Text) : Char :=
  if text.contains '\'' && !text.contains '"' then '"' else '\''

def literal (text : Text) : Text :=
  let quote := literalQuote text
  quote :: (text.flatMap (escapedChar quote) ++ [quote])

end JinjaLayout.Text
