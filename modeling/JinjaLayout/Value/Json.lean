import JinjaLayout.Value.Basic

/-!
Values as JSON. Writing puts every item and every entry on a line of its own, indented by two blanks
for each level.
-/

namespace JinjaLayout.Value

/-- A character inside a JSON string. -/
def jsonChar (c : Char) : Text :=
  if c = '"' then ['\\', '"']
  else if c = '\\' then ['\\', '\\']
  else if c = '\n' then ['\\', 'n']
  else if c = '\r' then ['\\', 'r']
  else if c = '\t' then ['\\', 't']
  else if c = '\x08' then ['\\', 'b']
  else if c = '\x0c' then ['\\', 'f']
  else if c.toNat < 32 then
    ['\\', 'u', '0', '0', Nat.digitChar (c.toNat / 16), Nat.digitChar (c.toNat % 16)]
  else [c]

def jsonString (text : Text) : Text :=
  '"' :: (text.flatMap jsonChar ++ ['"'])

def indentation (level : Nat) : Text :=
  List.replicate (2 * level) ' '

/-- Lines with commas between them, between two brackets on lines of their own. -/
def inBrackets (level : Nat) (opener closer : Char) (lines : List Text) : Text :=
  if lines.isEmpty then [opener, closer]
  else
    let inner := indentation (level + 1)
    opener :: '\n' :: (Text.joined ",\n" (lines.map (inner ++ ·)) ++ '\n' :: indentation level ++
      [closer])

mutual

def toJson (level : Nat) : Value → Text
  | none => "null"
  | bool true => "true"
  | bool false => "false"
  | int value => (toString value).toList
  | float value => if value.isNaN || value.isInfinite then "null" else value.text
  | str value => jsonString value
  | list items => inBrackets level '[' ']' (itemsJson (level + 1) items)
  | dict entries => inBrackets level '{' '}' (entriesJson (level + 1) entries)

def itemsJson (level : Nat) : List Value → List Text
  | [] => []
  | item :: items => item.toJson level :: itemsJson level items

def entriesJson (level : Nat) : List (Text × Value) → List Text
  | [] => []
  | (key, value) :: entries =>
      (jsonString key ++ ':' :: ' ' :: value.toJson level) :: entriesJson level entries

end

/-- Whitespace between the parts of a JSON text. -/
def isJsonBlank (c : Char) : Bool :=
  c == ' ' || c == '\t' || c == '\n' || c == '\r'

def skipBlanks (text : Text) : Text :=
  text.dropWhile isJsonBlank

def codeUnit? (text : Text) : Option (Nat × Text) :=
  if 4 ≤ text.length then (Text.digits? 16 (text.take 4)).map fun value => (value, text.drop 4)
  else Option.none

/-- The character of an escape of code units, two of them for a character beyond the first plane. -/
def unicodeEscape? (text : Text) : Option (Char × Text) := do
  let (first, rest) ← codeUnit? text
  if 0xD800 ≤ first ∧ first < 0xDC00 then
    let (second, rest) ← (Text.after? ['\\', 'u'] rest).bind codeUnit?
    if 0xDC00 ≤ second ∧ second < 0xE000 then
      return (← Text.scalar? (0x10000 + (first - 0xD800) * 0x400 + (second - 0xDC00)), rest)
    else Option.none
  else return (← Text.scalar? first, rest)

def shortEscape? : Char → Option Char
  | '"' => some '"'
  | '\\' => some '\\'
  | '/' => some '/'
  | 'b' => some '\x08'
  | 'f' => some '\x0c'
  | 'n' => some '\n'
  | 'r' => some '\r'
  | 't' => some '\t'
  | _ => Option.none

/-- The inside of a JSON string and what follows its closing quote. The first argument bounds the
number of characters. -/
def stringTail? : Nat → Text → Option (Text × Text)
  | 0, _ => Option.none
  | bound + 1, text =>
      match text with
      | '"' :: rest => some ([], rest)
      | '\\' :: 'u' :: rest => do
          let (c, rest) ← unicodeEscape? rest
          let (tail, rest) ← stringTail? bound rest
          return (c :: tail, rest)
      | '\\' :: letter :: rest => do
          let c ← shortEscape? letter
          let (tail, rest) ← stringTail? bound rest
          return (c :: tail, rest)
      | c :: rest =>
          if c.toNat < 32 then Option.none
          else do
            let (tail, rest) ← stringTail? bound rest
            return (c :: tail, rest)
      | [] => Option.none

/-- The whole part of a JSON number: no zero comes before another digit. -/
def isWholePart (digits : Text) : Bool :=
  digits.all Char.isDigit && (digits.length == 1 || (digits.head?.any (· != '0')))

/-- The fraction and exponent of a JSON number, which may be missing. -/
def isNumberTail (text : Text) : Bool :=
  let rest := match text with
    | '.' :: rest =>
        if (rest.takeWhile Char.isDigit).isEmpty then ['.'] else rest.dropWhile Char.isDigit
    | rest => rest
  match rest with
  | [] => true
  | mark :: rest =>
      (mark == 'e' || mark == 'E') &&
        (match rest with
          | '+' :: digits | '-' :: digits | digits => !digits.isEmpty && digits.all Char.isDigit)

/-- The characters that a JSON number may hold. -/
def isNumberChar (c : Char) : Bool :=
  c.isDigit || c == '.' || c == 'e' || c == 'E' || c == '+' || c == '-'

/-- The value of a JSON number. A whole number that does not have 64 bits is a float, and a float
has to be finite. -/
def number? (text : Text) : Option Value :=
  let (negative, unsigned) := match text with
    | '-' :: rest => (true, rest)
    | rest => (false, rest)
  let whole := unsigned.takeWhile Char.isDigit
  let tail := unsigned.dropWhile Char.isDigit
  if !isWholePart whole || !isNumberTail tail then Option.none
  else
    let magnitude := Double.decimalValue whole
    let fits := if negative then magnitude ≤ Nat.pow 2 63 else magnitude < Nat.pow 2 64
    if tail.isEmpty && fits then some (int (if negative then -magnitude else magnitude))
    else ((Double.read? text).filter fun value => !value.isInfinite).map float

def atom? (text : Text) : Option (Value × Text) :=
  match [("null".toList, none), ("true".toList, bool true), ("false".toList, bool false)].findSome?
      fun (word, value) => (Text.after? word text).map fun rest => (value, rest) with
  | some result => some result
  | Option.none =>
      (number? (text.takeWhile isNumberChar)).map fun value =>
        (value, text.dropWhile isNumberChar)

mutual

/-- The value in front of a JSON text and what follows it. The bound counts down with every part. -/
def value? : Nat → Text → Option (Value × Text)
  | 0, _ => Option.none
  | bound + 1, text =>
      match skipBlanks text with
      | '"' :: rest => (stringTail? (rest.length + 1) rest).map fun (text, rest) => (str text, rest)
      | '[' :: rest =>
          match skipBlanks rest with
          | ']' :: rest => some (list [], rest)
          | rest => (items? bound rest).map fun (items, rest) => (list items, rest)
      | '{' :: rest =>
          match skipBlanks rest with
          | '}' :: rest => some (dict [], rest)
          | rest => (entries? bound rest).map fun (entries, rest) => (dict entries, rest)
      | rest => atom? rest

def items? : Nat → Text → Option (List Value × Text)
  | 0, _ => Option.none
  | bound + 1, text => do
      let (item, rest) ← value? bound text
      match skipBlanks rest with
      | ']' :: rest => return ([item], rest)
      | ',' :: rest =>
          let (items, rest) ← items? bound rest
          return (item :: items, rest)
      | _ => Option.none

/-- The entries up to the closing brace of a dictionary. -/
def entries? : Nat → Text → Option (List (Text × Value) × Text)
  | 0, _ => Option.none
  | bound + 1, text => do
      let '"' :: rest := skipBlanks text | Option.none
      let (key, rest) ← stringTail? (rest.length + 1) rest
      let ':' :: rest := skipBlanks rest | Option.none
      let (value, rest) ← value? bound rest
      match skipBlanks rest with
      | '}' :: rest => return ([(key, value)], rest)
      | ',' :: rest =>
          let (entries, rest) ← entries? bound rest
          return ((key, value) :: entries, rest)
      | _ => Option.none

end

def ofJson? (text : Text) : Option Value := do
  let (value, rest) ← value? (2 * text.length + 2) text
  if (skipBlanks rest).isEmpty then return value else Option.none

end JinjaLayout.Value
