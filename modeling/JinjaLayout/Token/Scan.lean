import JinjaLayout.Fault
import JinjaLayout.Token.Literal
import JinjaLayout.Token.Marker

/-!
The scanner. It cuts a template into pieces whose texts, one after the other, are the template
again; nothing is skipped, and what whitespace control removes is a piece of its own.
-/

namespace JinjaLayout

/-- A scan in progress: the text still to be read, what was read just before it, and the pieces so
far, the last one first. -/
structure Scan where
  line : Nat := 1
  offset : Nat := 0
  previous : Option Char := none
  rest : Text
  pieces : List Piece := []

namespace Scan

def push (kind : TokenKind) (length : Nat) (scan : Scan) : Scan :=
  let text := scan.rest.take length
  { line := scan.line + Text.lineBreaks text
    offset := scan.offset + Text.byteLength text
    previous := text.getLast? <|> scan.previous
    rest := scan.rest.drop length
    pieces := ⟨scan.line, kind, text⟩ :: scan.pieces }

/-- Reads one piece of the given length unless the length is zero. -/
def pushSome (kind : TokenKind) (length : Nat) (scan : Scan) : Scan :=
  if length = 0 then scan else scan.push kind length

def fail {α : Type} (scan : Scan) (fault : SyntaxFault) : Except SyntaxError α :=
  .error ⟨scan.line, fault⟩

def startsLine (scan : Scan) : Bool :=
  match scan.previous with
  | none => true
  | some c => c == '\n'

/-- The number of data characters before a block or comment marker when indentation before it is
stripped. -/
def unindentedLength (scan : Scan) (data : Text) : Nat :=
  let trimmed := Text.trimEnd Text.isIndent data
  let reachesLineStart :=
    if trimmed.isEmpty then scan.startsLine else trimmed.getLast? == some '\n'
  if reachesLineStart then trimmed.length else data.length

/-- The number of characters before a marker that stay data. -/
def keptLength (env : Environment) (marker : Marker) (scan : Scan) : Nat :=
  let data := scan.rest.take marker.start
  let chomp := marker.chomp scan.rest
  if chomp = .strip then (Text.trimEnd Text.isBlank data).length
  else if env.lstripBlocks ∧ chomp ≠ .keep ∧ (marker.kind = .block ∨ marker.kind = .comment) then
    scan.unindentedLength data
  else data.length

def readData (env : Environment) (marker : Marker) (scan : Scan) : Scan :=
  let kept := scan.keptLength env marker
  (scan.pushSome .data kept).pushSome .whitespace (marker.start - kept)

/-- Reads the whitespace that the end of a tag removes. -/
def readTail (env : Environment) (chomp : Chomp) (trims : Bool) (scan : Scan) : Scan :=
  match chomp with
  | .strip => scan.pushSome .whitespace (scan.rest.takeWhile Text.isBlank).length
  | .keep => scan
  | .none =>
      if trims && env.trimBlocks && scan.rest.head? == some '\n' then scan.push .whitespace 1
      else scan

def endDelimiter? (delimiter rest : Text) : Option (Nat × Chomp) :=
  let signed := if delimiter.isPrefixOf (rest.drop 1) then Chomp.atStart rest else .none
  if signed ≠ .none then some (delimiter.length + 1, signed)
  else if delimiter.isPrefixOf rest then some (delimiter.length, .none)
  else none

/-- The length of a block tag that holds only the given word, and the whitespace control before its
end. -/
def wordTag? (env : Environment) (word tag : Text) : Option (Nat × Chomp) := do
  let inside ← Text.after? env.blockStart tag
  let unsigned := inside.drop (Chomp.atStart inside).width
  let afterWord ← Text.after? word (unsigned.dropWhile Text.isBlank)
  let ending := afterWord.dropWhile Text.isBlank
  let (length, chomp) ← endDelimiter? env.blockEnd ending
  some (tag.length - ending.length + length, chomp)

/-- The first end of a raw block: the number of characters before it, its length and its whitespace
control. The number counts characters that belong to a start delimiter already looked at. -/
def rawEnd? (env : Environment) : Nat → Text → Option (Nat × Nat × Chomp)
  | _, [] => none
  | skipped + 1, _ :: rest =>
      (rawEnd? env skipped rest).map fun found => (found.1 + 1, found.2)
  | 0, c :: rest =>
      if env.blockStart.isPrefixOf (c :: rest) then
        match wordTag? env "endraw" (c :: rest) with
        | some found => some (0, found)
        | none =>
            (rawEnd? env (env.blockStart.length - 1) rest).map fun found => (found.1 + 1, found.2)
      else (rawEnd? env 0 rest).map fun found => (found.1 + 1, found.2)

def readRaw (env : Environment) (scan : Scan) : Except SyntaxError Scan :=
  match rawEnd? env 0 scan.rest with
  | none => scan.fail .missingRawEnd
  | some (start, length, chomp) =>
      let marker : Marker := ⟨start, .block, env.blockStart.length⟩
      .ok (((scan.readData env marker).push .rawEnd length).readTail env chomp true)

def readComment (env : Environment) (scan : Scan) : Except SyntaxError Scan :=
  let sign := Chomp.atStart (scan.rest.drop env.commentStart.length)
  let scan := scan.push .commentBegin (env.commentStart.length + sign.width)
  match Text.position? env.commentEnd scan.rest with
  | none => scan.fail .missingCommentEnd
  | some start =>
      let chomp := Chomp.ofChar? (scan.rest.take start).getLast?
      let scan := scan.pushSome .comment (start - chomp.width)
      let scan := scan.push .commentEnd (chomp.width + env.commentEnd.length)
      .ok (scan.readTail env chomp true)

def readLineComment (length : Nat) (scan : Scan) : Scan :=
  let scan := scan.push .lineCommentBegin length
  let scan := scan.pushSome .lineComment (scan.rest.takeWhile (· != '\n')).length
  scan.push .lineCommentEnd (if scan.rest.isEmpty then 0 else 1)

def longOperators : List Text :=
  [['/', '/'], ['*', '*'], ['=', '='], ['!', '='], ['>', '='], ['<', '=']]

def shortOperators : Text :=
  ['+', '-', '/', '*', '%', '~', '[', ']', '(', ')', '{', '}', '=', '.', ':', '|', ',', ';', '<',
    '>']

def closer? : Char → Option Char
  | '(' => some ')'
  | '[' => some ']'
  | '{' => some '}'
  | _ => none

def isCloser (c : Char) : Bool :=
  c == ')' || c == ']' || c == '}'

def number? (previous : Option Char) (rest : Text) : Option (TokenKind × Nat) :=
  if (rest.head?.map Char.isDigit).getD false then
    let float := if previous == some '.' then none else Literal.floatLength? rest
    (float.map fun length => (.float, length)) <|>
      ((Literal.integerLength? rest).map fun length => (.integer, length))
  else none

/-- A number, name, string or operator of two characters at the start of a text. -/
def plainToken? (previous : Option Char) (rest : Text) : Option (TokenKind × Nat) :=
  number? previous rest <|>
    ((Literal.nameLength? rest).map fun length => (.name, length)) <|>
    ((Literal.stringLength? rest).map fun length => (.string, length)) <|>
    ((longOperators.find? fun operator => operator.isPrefixOf rest).map fun operator =>
      (.operator, operator.length))

/-- The closing brackets still due after a one-character operator, innermost first. -/
def dueAfter (due : Text) (symbol : Char) : Except SyntaxFault Text :=
  match closer? symbol with
  | some closer => .ok (closer :: due)
  | none =>
      if isCloser symbol then
        match due with
        | [] => .error (.unexpectedCloser symbol)
        | expected :: outer =>
            if expected = symbol then .ok outer
            else .error (.mismatchedCloser symbol expected)
      else .ok due

/-- The next piece inside a tag and the closing brackets due after it. -/
def tagToken (scan : Scan) (due : Text) : Except SyntaxFault (TokenKind × Nat × Text) :=
  match plainToken? scan.previous scan.rest with
  | some (kind, length) => .ok (kind, length, due)
  | none =>
      match scan.rest with
      | [] => .error .unexpectedEnd
      | c :: _ =>
          if shortOperators.contains c then
            (dueAfter due c).map fun due => (.operator, 1, due)
          else .error (.unexpectedChar c scan.offset)

inductive TagEnd where
  | block
  | variable
  | line
deriving DecidableEq

def TagEnd.kind : TagEnd → TokenKind
  | .block => .blockEnd
  | .variable => .variableEnd
  | .line => .lineStatementEnd

def TagEnd.delimiter? (env : Environment) (rest : Text) : TagEnd → Option (Nat × Chomp)
  | .block => endDelimiter? env.blockEnd rest
  | .variable => endDelimiter? env.variableEnd rest
  | .line => none

/-- Reads the inside of a tag and its end. The closing brackets in `due` have to come before the
end; a line statement ends with its line outside of brackets. The first argument bounds the number
of pieces. -/
def readTag (env : Environment) (tagEnd : TagEnd) : Nat → Text → Scan → Except SyntaxError Scan
  | 0, _, scan => scan.fail .stalled
  | bound + 1, due, scan =>
      let onLine := tagEnd == .line && due.isEmpty
      let blanks :=
        (scan.rest.takeWhile fun c => Text.isBlank c && !(onLine && c == '\n')).length
      if scan.rest = [] then
        if onLine then .ok (scan.push .lineStatementEnd 0) else scan.fail .unexpectedEnd
      else if blanks ≠ 0 then readTag env tagEnd bound due (scan.push .whitespace blanks)
      else if onLine && scan.rest.head? == some '\n' then .ok (scan.push .lineStatementEnd 1)
      else
        match (if due = [] then tagEnd.delimiter? env scan.rest else none) with
        | some (length, chomp) =>
            .ok ((scan.push tagEnd.kind length).readTail env chomp (tagEnd == .block))
        | none =>
            match scan.tagToken due with
            | .error fault => scan.fail fault
            | .ok (kind, length, due) => readTag env tagEnd bound due (scan.push kind length)

/-- Reads a tag whose begin delimiter has the given category and length. -/
def readTagFrom (env : Environment) (tagEnd : TagEnd) (kind : TokenKind) (length : Nat)
    (scan : Scan) : Except SyntaxError Scan :=
  let scan := scan.push kind length
  readTag env tagEnd (scan.rest.length + 1) [] scan

def signedLength (marker : Marker) (scan : Scan) : Nat :=
  marker.length + (Chomp.atStart (scan.rest.drop marker.length)).width

/-- Reads what the marker at the start of the rest opens. -/
def readMarked (env : Environment) (marker : Marker) (scan : Scan) : Except SyntaxError Scan :=
  match marker.kind with
  | .block =>
      match wordTag? env "raw" scan.rest with
      | some (length, chomp) => ((scan.push .rawBegin length).readTail env chomp true).readRaw env
      | none => scan.readTagFrom env .block .blockBegin (scan.signedLength marker)
  | .variable => scan.readTagFrom env .variable .variableBegin (scan.signedLength marker)
  | .comment => scan.readComment env
  | .lineStatement => scan.readTagFrom env .line .lineStatementBegin marker.length
  | .lineComment => .ok (scan.readLineComment marker.length)

/-- Reads to the end of the text. The first argument bounds the number of markers. -/
def readAll (env : Environment) : Nat → Scan → Except SyntaxError Scan
  | 0, scan => if scan.rest = [] then .ok scan else scan.fail .stalled
  | bound + 1, scan =>
      if scan.rest = [] then .ok scan
      else
        match Marker.next? env scan.startsLine scan.rest with
        | none => .ok (scan.push .data scan.rest.length)
        | some marker =>
            match (scan.readData env marker).readMarked env marker with
            | .error error => .error error
            | .ok scan => readAll env bound scan

def scannedText (env : Environment) (source : Text) : Text :=
  if env.keepTrailingNewline then source
  else if source.getLast? = some '\n' then source.dropLast
  else source

end Scan

def scan (env : Environment) (source : Text) : Except SyntaxError (List Piece) :=
  let text := Scan.scannedText env source
  (Scan.readAll env (text.length + 1) { rest := text }).map fun scan => scan.pieces.reverse

end JinjaLayout
