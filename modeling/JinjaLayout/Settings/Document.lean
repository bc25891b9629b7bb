import JinjaLayout.Settings.Scalar

/-!
A settings document is one mapping from words to scalars, a line for each entry or all of it in
braces. Entries may also hold collections, of which only the extent is known.
-/

namespace JinjaLayout.Settings

/-- What a key of a document is mapped to. -/
inductive Node where
  | scalar (isPlain : Bool) (text : Text)
  | collection
deriving DecidableEq

/-- The node of an entry without a value. -/
def Node.absent : Node :=
  .scalar true []

/-- A character that a document may hold. -/
def isReadable (c : Char) : Bool :=
  let code := c.toNat
  c == '\t' || c == '\n' || (0x20 ≤ code && code ≤ 0x7E) || (0xA0 ≤ code && code ≤ 0xFFFD) ||
    0x10000 ≤ code

/-- The text with one kind of line end, without the mark of its encoding. -/
def prepared (text : Text) : Text :=
  let text := text.normalizeNewlines.map fun c => if c = '\x85' then '\n' else c
  match text with
  | '\ufeff' :: rest => rest
  | text => text

def nextLine (text : Text) : Text :=
  (text.dropWhile (· != '\n')).drop 1

/-- The text after a line that holds nothing more than a comment. -/
def lineEnd? (text : Text) : Option Text :=
  let rest := text.dropWhile Text.isIndent
  if rest.head?.all fun c => c == '\n' || c == '#' then some (nextLine rest) else none

/-- The column and the text of the first line with content, with a bound on the number of lines. -/
def contentWithin : Nat → Text → Nat × Text
  | 0, text => (0, text)
  | bound + 1, text =>
      let rest := text.dropWhile (· == ' ')
      match rest with
      | '\n' :: rest => contentWithin bound rest
      | '#' :: rest => contentWithin bound (nextLine rest)
      | rest => (text.length - rest.length, rest)

/-- The column and the text of the first line with content. -/
def content (text : Text) : Nat × Text :=
  contentWithin (text.length + 1) text

/-- The text after line ends, blanks and comments, with a bound on their number. -/
def skipGap : Nat → Text → Text
  | 0, text => text
  | bound + 1, text =>
      match text.dropWhile isSpace with
      | '#' :: rest => skipGap bound (nextLine rest)
      | rest => rest

/-- The text after line ends, blanks and comments. -/
def afterGap (text : Text) : Text :=
  skipGap (text.length + 1) text

def flowScalar? (text : Text) : Option (Node × Text) :=
  match quoted? text with
  | some (value, rest) => some (.scalar false value, rest)
  | none =>
      if startsPlain true text then
        let (value, rest) := plain true text
        some (.scalar true value, rest)
      else none

mutual

/-- A node in a flow collection. The first argument bounds the number of steps. -/
def flowNode? : Nat → Text → Option (Node × Text)
  | 0, _ => none
  | bound + 1, text =>
      match afterGap text with
      | '[' :: rest => (flowItems? bound rest).map fun rest => (.collection, rest)
      | '{' :: rest => (flowEntries? bound rest).map fun (_, rest) => (.collection, rest)
      | rest => flowScalar? rest

/-- The value behind a key in a flow collection, which may be missing. -/
def flowValue? : Nat → Text → Option (Node × Text)
  | 0, _ => none
  | bound + 1, text =>
      match afterGap text with
      | ':' :: rest =>
          let rest := afterGap rest
          if rest.head?.any fun c => c == ',' || c == '}' || c == ']' then some (.absent, rest)
          else flowNode? bound rest
      | rest => some (.absent, rest)

/-- The rest of a list in brackets. -/
def flowItems? : Nat → Text → Option Text
  | 0, _ => none
  | bound + 1, text =>
      match afterGap text with
      | ']' :: rest => some rest
      | rest => do
          let (_, rest) ← flowNode? bound rest
          let (_, rest) ← flowValue? bound rest
          match afterGap rest with
          | ',' :: rest => flowItems? bound rest
          | ']' :: rest => some rest
          | _ => none

/-- The entries of a mapping in braces and what follows it. -/
def flowEntries? : Nat → Text → Option (List (Text × Node) × Text)
  | 0, _ => none
  | bound + 1, text =>
      match afterGap text with
      | '}' :: rest => some ([], rest)
      | rest => do
          let (.scalar _ key, rest) ← flowScalar? rest | none
          let (value, rest) ← flowValue? bound rest
          match afterGap rest with
          | ',' :: rest =>
              let (entries, rest) ← flowEntries? bound rest
              return ((key, value) :: entries, rest)
          | '}' :: rest => return ([(key, value)], rest)
          | _ => none

end

def stepBound (text : Text) : Nat :=
  3 * text.length + 3

def key? (text : Text) : Option (Text × Text) := do
  let (key, rest) ← match quoted? text with
    | some result => some result
    | none => if startsPlain false text then some (plain false text) else none
  match rest.dropWhile Text.isIndent with
  | ':' :: rest => if startsWithSpace rest then some (key, rest) else none
  | _ => none

def startsItem : Text → Bool
  | '-' :: rest => startsWithSpace rest
  | _ => false

/-- The text after all lines that are part of a collection below a key at the given column, with a
bound on their number. The items of a list may stand at the column of the key. -/
def afterCollection : Nat → Nat → Text → Text
  | 0, _, text => text
  | bound + 1, indent, text =>
      let (column, rest) := content text
      if !rest.isEmpty && (indent < column || (indent = column && startsItem rest)) then
        afterCollection bound indent (nextLine rest)
      else text

/-- A node that starts here, and the text after its last line. -/
def node? (indent : Nat) (text : Text) : Option (Node × Text) :=
  match text with
  | '\'' :: _ | '"' :: _ => do
      let (value, rest) ← quoted? text
      return (.scalar false value, ← lineEnd? rest)
  | '[' :: _ | '{' :: _ => do
      let (value, rest) ← flowNode? (stepBound text) text
      return (value, ← lineEnd? rest)
  | '|' :: rest | '>' :: rest =>
      some (.collection, afterCollection text.length indent (nextLine rest))
  | _ =>
      if startsPlain false text then do
        let (value, rest) := plainLines text.length indent text
        return (.scalar true value, ← lineEnd? rest)
      else none

/-- The value behind the colon of a key at the given column, and the text after its last line. -/
def value? (indent : Nat) (text : Text) : Option (Node × Text) :=
  match lineEnd? text with
  | none => node? indent (text.dropWhile Text.isIndent)
  | some below =>
      let (column, rest) := content below
      if rest.isEmpty || column < indent || (column = indent && !startsItem rest) then
        some (.absent, below)
      else if startsItem rest || (key? rest).isSome then
        some (.collection, afterCollection below.length indent below)
      else node? indent rest

/-- Whether nothing more than the end of the document follows. -/
def isOver (text : Text) : Bool :=
  let (column, rest) := content text
  rest.isEmpty ||
    (column = 0 && "...".toList.isPrefixOf rest &&
      (lineEnd? (rest.drop 3)).any fun rest => (content rest).2.isEmpty)

/-- The entries whose keys stand at the given column, with a bound on their number. -/
def entries? : Nat → Nat → Text → Option (List (Text × Node))
  | 0, _, _ => none
  | bound + 1, indent, text =>
      if isOver text then some []
      else
        let (column, rest) := content text
        if column ≠ indent || (column = 0 && startsWithMarker rest) then none
        else do
          let (key, rest) ← key? rest
          let (value, rest) ← value? indent rest
          return (key, value) :: (← entries? bound indent rest)

/-- The entries of a mapping in braces, which nothing follows. -/
def inBraces? (text : Text) : Option (List (Text × Node)) := do
  let (entries, rest) ← flowEntries? (stepBound text) text
  if isOver (← lineEnd? rest) then return entries else none

/-- The entries of the mapping that starts on one of the next lines. -/
def body? (text : Text) : Option (List (Text × Node)) :=
  match content text with
  | (_, '{' :: rest) => inBraces? rest
  | (column, _) => entries? (text.length + 1) column text

def document? (text : Text) : Option (List (Text × Node)) :=
  let text := prepared text
  if !text.all isReadable then none
  else
    let (column, rest) := content text
    if column = 0 && "---".toList.isPrefixOf rest && startsWithMarker rest then
      let rest := rest.drop 3
      match lineEnd? rest, rest.dropWhile Text.isIndent with
      | some below, _ => body? below
      | none, '{' :: rest => inBraces? rest
      | none, _ => none
    else body? text

end JinjaLayout.Settings
