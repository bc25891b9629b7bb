import JinjaLayout.Number.Integer
import JinjaLayout.Number.Double

/-!
Texts as YAML scalars: plain where a plain scalar is read as the same text, a literal block where
there are lines, in single quotes where a plain one would be read otherwise, and in double quotes
where a character has to be escaped.
-/

namespace JinjaLayout.Finding

/-- A character that ends a line in YAML. -/
def isBreak (c : Char) : Bool :=
  c == '\n' || c == '\r' || c == '\x85' || c == '\u2028' || c == '\u2029'

/-- A character that may stand in a scalar as it is. -/
def isPrintable (c : Char) : Bool :=
  let code := c.toNat
  c == '\n' || (0x20 ≤ code && code ≤ 0x7E) ||
    (0xA0 ≤ code && code ≤ 0xFFFD && code != 0xFEFF)

/-- A blank, a tab, the end of a line or of the text. -/
def isGap : Option Char → Bool
  | some c => c == ' ' || c == '\t' || c == '\x00' || isBreak c
  | none => true

/-- Whether two characters that fit follow each other. -/
def hasAdjacent (first second : Char → Bool) : Text → Bool
  | a :: b :: rest => (first a && second b) || hasAdjacent first second (b :: rest)
  | _ => false

/-- Whether a character further on has a meaning in a block: a colon before a gap, a comment after
one. -/
def hasIndicator : Text → Bool
  | a :: b :: rest =>
      (b == ':' && isGap rest.head?) || (b == '#' && isGap (some a)) || hasIndicator (b :: rest)
  | _ => false

/-- Whether the first character has a meaning in a block. -/
def startsWithIndicator : Text → Bool
  | c :: rest =>
      "#,[]&*!|>'\"%@".toList.contains c || c == '{' || c == '}' || c == '\x60' ||
        ((c == '?' || c == ':' || c == '-') && isGap rest.head?)
  | [] => false

/-- Whether the text holds what only double quotes can write. -/
def needsEscapes (text : Text) : Bool :=
  text.any (fun c => !isPrintable c) || hasAdjacent (· == ' ') isBreak text

def mayBePlain (text : Text) : Bool :=
  let edge (c : Option Char) : Bool := c.any fun c => c == ' ' || isBreak c
  !(needsEscapes text || text.any isBreak || edge text.head? || edge text.getLast? ||
    startsWithIndicator text || hasIndicator text ||
    "---".toList.isPrefixOf text || "...".toList.isPrefixOf text)

def isZeroPadded (text : Text) : Bool :=
  let digits := match text with
    | '-' :: rest | '+' :: rest => rest
    | rest => rest
  1 < digits.length && digits.head? == some '0' && digits.all Char.isDigit

/-- Whether a text is read as an integer: a sign, the mark of a base and digits. -/
def isInteger (text : Text) : Bool :=
  let (negative, unsigned) := match text with
    | '-' :: rest => (true, rest)
    | '+' :: rest => (false, rest)
    | rest => (false, rest)
  let fits (value : Nat) : Bool := if negative then value ≤ Nat.pow 2 127 else value < Nat.pow 2 128
  let based := match unsigned with
    | '0' :: 'x' :: digits => Text.digits? 16 digits
    | '0' :: 'o' :: digits => Text.digits? 8 digits
    | '0' :: 'b' :: digits => Text.digits? 2 digits
    | digits => if isZeroPadded text then none else Text.digits? 10 digits
  based.any fits

def isFloat (text : Text) : Bool :=
  let unsigned := match text with
    | '+' :: '+' :: _ | '+' :: '-' :: _ => none
    | '+' :: rest => some rest
    | rest => some rest
  unsigned.any fun unsigned =>
    [".inf".toList, ".Inf".toList, ".INF".toList].contains unsigned ||
      ["-.inf".toList, "-.Inf".toList, "-.INF".toList, ".nan".toList, ".NaN".toList,
        ".NAN".toList].contains text ||
      (Double.read? unsigned).any fun value => !value.isNaN && !value.isInfinite

/-- Whether a plain scalar with the text is read as something else than a text. -/
def hasOtherType (text : Text) : Bool :=
  ["".toList, "null".toList, "Null".toList, "NULL".toList, "~".toList, "true".toList,
    "True".toList, "TRUE".toList, "false".toList, "False".toList, "FALSE".toList].contains text ||
    isZeroPadded text || isInteger text || isFloat text

/-- Writes a line break as it is; the next line starts with the indentation. -/
def indentLines (indent : Text) : Bool → Text → Text
  | _, [] => []
  | atStart, c :: rest =>
      if isBreak c then c :: indentLines indent true rest
      else if atStart then indent ++ c :: indentLines indent false rest
      else c :: indentLines indent false rest

/-- The mark for the line breaks at the end of a literal block: none for one break. -/
def chompMark (text : Text) : Text :=
  match text.reverse with
  | [] => ['-']
  | last :: before =>
      if !isBreak last then ['-'] else if before.head?.all isBreak then ['+'] else []

/-- A literal block. Its indentation is given when it cannot be seen from the first line. -/
def literalBlock (indent : Text) (text : Text) : Text :=
  let hint : Text := if text.head?.any (fun c => c == ' ' || isBreak c) then ['2'] else []
  let lines := indentLines indent true text
  let stop : Text := if text.getLast?.any isBreak then [] else ['\n']
  '|' :: (hint ++ chompMark text ++ '\n' :: (lines ++ stop))

def singleQuoted (indent : Text) (text : Text) : Text :=
  let doubled := text.flatMap fun c => if c = '\'' then ['\'', '\''] else [c]
  let stop : Text := if text.getLast?.any isBreak then indent else []
  '\'' :: (indentLines indent false doubled ++ stop ++ ['\''])

/-- The digits of a number in capital hexadecimal digits. -/
def hexDigits (width value : Nat) : Text :=
  let digits := (Nat.toDigits 16 value).map Char.toUpper
  List.replicate (width - digits.length) '0' ++ digits

def doubleQuotedChar (c : Char) : Text :=
  let code := c.toNat
  if c = '"' then ['\\', '"']
  else if c = '\\' then ['\\', '\\']
  else if isPrintable c && !isBreak c then [c]
  else match [(0x00, '0'), (0x07, 'a'), (0x08, 'b'), (0x09, 't'), (0x0A, 'n'), (0x0B, 'v'),
      (0x0C, 'f'), (0x0D, 'r'), (0x1B, 'e'), (0x85, 'N'), (0x2028, 'L'), (0x2029, 'P')].lookup code
    with
    | some letter => ['\\', letter]
    | none =>
        if code ≤ 0xFF then '\\' :: 'x' :: hexDigits 2 code
        else if code ≤ 0xFFFF then '\\' :: 'u' :: hexDigits 4 code
        else '\\' :: 'U' :: hexDigits 8 code

def doubleQuoted (text : Text) : Text :=
  '"' :: (text.flatMap doubleQuotedChar ++ ['"'])

def scalar (indent : Text) (text : Text) : Text :=
  if text.contains '\n' then
    if needsEscapes text || text.getLast? == some ' ' then doubleQuoted text ++ ['\n']
    else literalBlock indent text
  else if !hasOtherType text && mayBePlain text then text ++ ['\n']
  else if needsEscapes text || hasAdjacent isBreak (· == ' ') text then doubleQuoted text ++ ['\n']
  else singleQuoted indent text ++ ['\n']

end JinjaLayout.Finding
