import JinjaLayout.Text.StringLiteral

/-!
The scalars of a settings document: plain ones and those in single or double quotes. A reader takes
the text from where the scalar starts and returns what it stands for and the text that follows.
-/

namespace JinjaLayout.Settings

/-- A blank, a tab or a line end. -/
def isSpace (c : Char) : Bool :=
  c == ' ' || c == '\t' || c == '\n'

/-- Whether a text is over or starts with a blank, a tab or a line end. -/
def startsWithSpace (text : Text) : Bool :=
  text.head?.all isSpace

/-- Whether a line starts with the mark of a new document or of the end of one. -/
def startsWithMarker (text : Text) : Bool :=
  ["---".toList, "...".toList].contains (text.take 3) && startsWithSpace (text.drop 3)

/-- What the space between two words of a scalar stands for: a single line end is a blank, and of
several the first does not count. -/
def folded (space : Text) : Text :=
  match space.lineBreaks with
  | 0 => space
  | 1 => [' ']
  | breaks => List.replicate (breaks - 1) '\n'

/-- Whether a quoted scalar runs into the next document after a space. -/
def leavesDocument (space rest : Text) : Bool :=
  space.getLast? == some '\n' && startsWithMarker rest

def singleQuotedTail? : Nat → Text → Option (Text × Text)
  | 0, _ => none
  | bound + 1, text =>
      match text with
      | [] => none
      | '\'' :: '\'' :: rest => (singleQuotedTail? bound rest).map fun (tail, rest) =>
          ('\'' :: tail, rest)
      | '\'' :: rest => some ([], rest)
      | c :: rest =>
          if isSpace c then
            let space := text.takeWhile isSpace
            let rest := text.dropWhile isSpace
            if leavesDocument space rest then none
            else (singleQuotedTail? bound rest).map fun (tail, rest) => (folded space ++ tail, rest)
          else (singleQuotedTail? bound rest).map fun (tail, rest) => (c :: tail, rest)

/-- What a letter after a backslash stands for in double quotes. -/
def letterEscape? : Char → Option Char
  | '0' => some '\x00'
  | 'a' => some '\x07'
  | 'b' => some '\x08'
  | 't' => some '\t'
  | '\t' => some '\t'
  | 'n' => some '\n'
  | 'v' => some '\x0b'
  | 'f' => some '\x0c'
  | 'r' => some '\r'
  | 'e' => some '\x1b'
  | ' ' => some ' '
  | '"' => some '"'
  | '/' => some '/'
  | '\\' => some '\\'
  | 'N' => some '\x85'
  | '_' => some '\xa0'
  | 'L' => some '\u2028'
  | 'P' => some '\u2029'
  | _ => none

/-- The character of an escape whose letter is given, and what follows the escape. -/
def escape? (letter : Char) (rest : Text) : Option (Char × Text) :=
  match Text.escapeWidth? letter with
  | some width =>
      if width ≤ rest.length then
        ((Text.digits? 16 (rest.take width)).bind Text.scalar?).map fun c => (c, rest.drop width)
      else none
  | none => (letterEscape? letter).map fun c => (c, rest)

/-- The inside of a scalar in double quotes, with a bound on its length. A backslash at the end of a
line joins it to the next one. -/
def doubleQuotedTail? : Nat → Text → Option (Text × Text)
  | 0, _ => none
  | bound + 1, text =>
      match text with
      | [] => none
      | '"' :: rest => some ([], rest)
      | '\\' :: '\n' :: rest =>
          let space := rest.takeWhile isSpace
          let rest := rest.dropWhile isSpace
          if leavesDocument ('\n' :: space) rest then none
          else (doubleQuotedTail? bound rest).map fun (tail, rest) =>
            (List.replicate (Text.lineBreaks space) '\n' ++ tail, rest)
      | '\\' :: letter :: rest => do
          let (c, rest) ← escape? letter rest
          let (tail, rest) ← doubleQuotedTail? bound rest
          return (c :: tail, rest)
      | c :: rest =>
          if isSpace c then
            let space := text.takeWhile isSpace
            let rest := text.dropWhile isSpace
            if leavesDocument space rest then none
            else (doubleQuotedTail? bound rest).map fun (tail, rest) => (folded space ++ tail, rest)
          else (doubleQuotedTail? bound rest).map fun (tail, rest) => (c :: tail, rest)

def quoted? : Text → Option (Text × Text)
  | '\'' :: rest => singleQuotedTail? (rest.length + 1) rest
  | '"' :: rest => doubleQuotedTail? (rest.length + 1) rest
  | _ => none

/-- A character that separates the parts of a flow collection. -/
def isFlowMark (c : Char) : Bool :=
  c == ',' || c == '[' || c == ']' || c == '{' || c == '}'

def startsPlain (inFlow : Bool) : Text → Bool
  | [] => false
  | c :: rest =>
      if c == '-' then !startsWithSpace rest
      else if c == '?' || c == ':' then !inFlow && !startsWithSpace rest
      else !(isSpace c || isFlowMark c || "#&*!|>'\"%@".toList.contains c || c == '\x60')

/-- The part of a plain scalar on one line, after the given character: it ends before a colon that
ends a key, before a comment and, in a flow collection, before a mark of the collection. -/
def plainLine (inFlow : Bool) : Char → Text → Text × Text
  | _, [] => ([], [])
  | previous, c :: rest =>
      if c == '\n' ||
          (c == ':' && (startsWithSpace rest || (inFlow && rest.head?.any isFlowMark))) ||
          (c == '#' && isSpace previous) || (inFlow && isFlowMark c) then ([], c :: rest)
      else
        let (line, rest) := plainLine inFlow c rest
        (c :: line, rest)

def plain (inFlow : Bool) (text : Text) : Text × Text :=
  let (line, rest) := plainLine inFlow ' ' text
  (line.trimEnd isSpace, rest)

/-- A plain scalar that goes on over all lines with a deeper indentation, with a bound on their
number. -/
def plainLines : Nat → Nat → Text → Text × Text
  | 0, _, text => plain false text
  | bound + 1, indent, text =>
      let (line, rest) := plain false text
      let space := rest.takeWhile isSpace
      let next := rest.dropWhile isSpace
      let column := (space.reverse.takeWhile (· != '\n')).length
      if rest.head? == some '\n' && indent < column && next.head?.any (· != '#') then
        let (lines, rest) := plainLines bound indent next
        (line ++ folded space ++ lines, rest)
      else (line, rest)

end JinjaLayout.Settings
