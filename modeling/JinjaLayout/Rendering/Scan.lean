import JinjaLayout.Environment
import JinjaLayout.Rendering.Atom
import JinjaLayout.Rendering.Fault
import JinjaLayout.Rendering.Literal
import JinjaLayout.Token.Kind

/-!
How the source of a rendering is read. Carriage returns stay in its text. The signs of a tag and the
environment decide which whitespace around the tag is dropped.
-/

namespace JinjaLayout.Rendering

/-- A place in a source: what is left, the line, and whether only blanks stand before it on the
line. -/
structure Position where
  rest : Text
  line : Nat := 1
  isIndent : Bool := true

/-- A carriage return or a newline. -/
def isLineEnd (c : Char) : Bool :=
  c == '\r' || c == '\n'

/-- The place a number of characters further on. -/
def Position.advance : Nat → Position → Position
  | 0, place => place
  | count + 1, place =>
      match place.rest with
      | [] => place
      | c :: rest =>
          advance count
            { rest
              line := if c = '\n' then place.line + 1 else place.line
              isIndent := isLineEnd c || (place.isIndent && Text.isBlank c) }

def Position.skip (p : Char → Bool) (place : Position) : Position :=
  place.advance (place.rest.takeWhile p).length

/-- What a tag holds. -/
inductive Opening where
  | value
  | block
  | comment
deriving DecidableEq

def Opening.start (env : Environment) : Opening → Text
  | value => env.variableStart
  | block => env.blockStart
  | comment => env.commentStart

/-- The kinds of tags, those with the longer start first. -/
def openings (env : Environment) : List Opening :=
  [Opening.value, .block, .comment].mergeSort fun a b =>
    (b.start env).length ≤ (a.start env).length

def openingOf? (env : Environment) (text : Text) : Option Opening :=
  (openings env).find? fun opening => (opening.start env).isPrefixOf text

def endingStarts (env : Environment) (reversed : Text) : List Nat :=
  (openings env).filterMap fun opening =>
    let start := opening.start env
    if start.reverse.isPrefixOf reversed then some start.length else none

/-- Goes through starts that end at one place. A start behind the one that was found before ends the
search, any other one takes its place; the result tells whether the search has ended. -/
def replaceStart (found : Option (Nat × Nat)) : List (Nat × Nat) → Option (Nat × Nat) × Bool
  | [] => (found, false)
  | start :: starts =>
      if found.any fun found => found.1 < start.1 then (found, true)
      else replaceStart (some start) starts

/-- Where the next tag starts and how long its start is. The starts in a text are tried in the order
of their ends. The first three arguments are the start found so far, the text before, given from its
end, and the length of that text. -/
def nextStart (env : Environment) : Option (Nat × Nat) → Text → Nat → Text → Option (Nat × Nat)
  | found, _, _, [] => found
  | found, before, length, c :: rest =>
      let starts := (endingStarts env (c :: before)).map fun width => (length + 1 - width, width)
      match replaceStart found starts with
      | (found, true) => found
      | (found, false) => nextStart env found (c :: before) (length + 1) rest

/-- What a tag reads as. -/
inductive Mode where
  | text
  | value
  | block
deriving DecidableEq

/-- The reader of a source: where it is and in what, the tag that it stands before, and whether the
blanks there are dropped. -/
structure Scanner where
  place : Position
  mode : Mode := .text
  opening : Option Opening := none
  dropsBlanks : Bool := false

def malformed (line : Nat) (detail : String) : RenderFault :=
  ⟨.malformed, some detail.toList, some line⟩

def unindented (text : Text) : Text :=
  let trimmed := text.trimEnd fun c => Text.isBlank c && !isLineEnd c
  if trimmed.getLast?.all (· == '\n') then trimmed else text

/-- The text before a tag without the whitespace that the sign of the tag or the environment drops.
The flag tells whether the environment drops the indentation of the tag. -/
def trimmedEnd (sign : Chomp) (dropsIndent : Bool) (text : Text) : Text :=
  match sign with
  | .strip => text.trimEnd Text.isBlank
  | .keep => text
  | .none => if dropsIndent then unindented text else text

def lineEndWidth (text : Text) : Nat :=
  let (returns, rest) : Nat × Text := match text with
    | '\r' :: rest => (1, rest)
    | rest => (0, rest)
  if rest.head? = some '\n' then returns + 1 else returns

/-- The text behind a tag without the whitespace that the sign of the tag or the environment
drops. -/
def trimmedStart (env : Environment) (sign : Chomp) (text : Text) : Text :=
  match sign with
  | .strip => text.dropWhile Text.isBlank
  | .keep => text
  | .none => if env.trimBlocks then text.drop (lineEndWidth text) else text

/-- The reader behind a block or a comment that ends with the given sign. -/
def behindTag (env : Environment) (sign : Chomp) (place : Position) : Scanner :=
  match sign with
  | .strip => { place, dropsBlanks := true }
  | .keep => { place }
  | .none =>
      { place := if env.trimBlocks then place.advance (lineEndWidth place.rest) else place }

/-- Reads the text up to the next tag. -/
def scanText (env : Environment) (scanner : Scanner) : List LocatedAtom × Scanner :=
  let place := if scanner.dropsBlanks then scanner.place.skip Text.isBlank else scanner.place
  let (text, scanner) : Text × Scanner := match nextStart env none [] 0 place.rest with
    | none => (place.rest, { place := place.advance place.rest.length })
    | some (start, width) =>
        let reached := place.advance start
        let opening := openingOf? env reached.rest
        let sign := Chomp.atStart (reached.rest.drop width)
        let dropsIndent := env.lstripBlocks && opening != some .value && reached.isIndent
        (trimmedEnd sign dropsIndent (place.rest.take start), { place := reached, opening })
  (if text.isEmpty then [] else [⟨place.line, .data text⟩], scanner)

/-- A blank between the parts of a tag. -/
def isGap (c : Char) : Bool :=
  c == ' ' || c == '\t' || c == '\n' || c == '\x0c' || c == '\r'

/-- The length of a tag that holds one word and the sign at its end, read from behind the start of
the tag. -/
def wordTag? (env : Environment) (word : Text) (text : Text) : Option (Nat × Chomp) := do
  let named := (text.drop (Chomp.atStart text).width).dropWhile isGap
  let rest := (← Text.after? word named).dropWhile isGap
  let sign := Chomp.atStart rest
  let rest ← Text.after? env.blockEnd (rest.drop sign.width)
  return (text.length - rest.length, sign)

/-- Where the text of a raw block ends, the sign that the tag there starts with, its length and the
sign that it ends with. The first argument bounds the number of blocks that are tried. -/
def rawEnd? (env : Environment) : Nat → Text → Option (Nat × Chomp × Nat × Chomp)
  | 0, _ => none
  | bound + 1, text => do
      let before ← Text.position? env.blockStart text
      let skipped := before + env.blockStart.length
      let inside := text.drop skipped
      match wordTag? env "endraw" inside with
      | some (length, sign) =>
          return (before, Chomp.atStart inside, env.blockStart.length + length, sign)
      | none =>
          let (length, rest) ← rawEnd? env bound inside
          return (skipped + length, rest)

/-- Reads a raw block from behind its first tag, which ends with the given sign. -/
def scanRaw (env : Environment) (sign : Chomp) (place : Position) :
    Except RenderFault (List LocatedAtom × Scanner) :=
  match rawEnd? env (place.rest.length + 1) place.rest with
  | some (length, endSign, tagLength, finalSign) =>
      let text := trimmedEnd endSign env.lstripBlocks
        (trimmedStart env sign (place.rest.take length))
      .ok ([⟨place.line, .data text⟩],
        behindTag env finalSign (place.advance (length + tagLength)))
  | none => .error (malformed place.line "unexpected end of raw block")

/-- Reads the start of a tag, and the whole tag if it is a comment or a raw block. -/
def scanOpening (env : Environment) (opening : Opening) (place : Position) :
    Except RenderFault (List LocatedAtom × Scanner) :=
  let width := (opening.start env).length
  let inside := place.rest.drop width
  let entered := place.advance (width + (Chomp.atStart inside).width)
  match opening with
  | .comment =>
      match Text.position? env.commentEnd inside with
      | some length =>
          let sign := Chomp.atStart (inside.drop (length - 1))
          .ok ([], behindTag env sign (place.advance (width + length + env.commentEnd.length)))
      | none => .error (malformed place.line "unexpected end of comment")
  | .value => .ok ([⟨place.line, .valueStart⟩], { place := entered, mode := .value })
  | .block =>
      match wordTag? env "raw" inside with
      | some (length, sign) => scanRaw env sign (place.advance (width + length))
      | none => .ok ([⟨place.line, .blockStart⟩], { place := entered, mode := .block })

/-- A letter or an underscore. -/
def startsName (c : Char) : Bool :=
  c.isAlpha || c == '_'

/-- A letter, a digit or an underscore. -/
def continuesName (c : Char) : Bool :=
  c.isAlphanum || c == '_'

/-- Reads one name, literal or symbol. -/
def scanWord (place : Position) : Except RenderFault (Atom × Position) :=
  let symbol? := Atom.symbols.find? fun symbol => symbol.isPrefixOf place.rest
  match symbol?, place.rest with
  | some symbol, _ => .ok (.symbol symbol, place.advance symbol.length)
  | none, c :: rest =>
      if c = '"' ∨ c = '\'' then
        match stringInside? c rest with
        | none => .error (malformed place.line "unexpected end of string")
        | some inside =>
            match unescape inside with
            | some text => .ok (.str text, place.advance (inside.length + 2))
            | none => .error { kind := .badEscape }
      else if c.isDigit then
        match numeral place.rest with
        | (.ok (.int value), length) => .ok (.int value, place.advance length)
        | (.ok (.float value), length) => .ok (.float value, place.advance length)
        | (.error detail, _) => .error (malformed place.line detail)
      else if startsName c then
        let name := place.rest.takeWhile continuesName
        .ok (.name name, place.advance name.length)
      else .error (malformed place.line "unexpected character")
  | none, [] => .error (malformed place.line "unexpected character")

def tagEnd? (stop text : Text) : Option (Nat × Chomp) :=
  let sign := Chomp.atStart text
  if sign != .none && stop.isPrefixOf (text.drop sign.width) then
    some (stop.length + sign.width, sign)
  else if stop.isPrefixOf text then some (stop.length, .none)
  else none

/-- Reads one part of a tag, or its end. -/
def scanInside (env : Environment) (scanner : Scanner) :
    Except RenderFault (List LocatedAtom × Scanner) :=
  let place := scanner.place.skip isGap
  let isBlock := scanner.mode = .block
  if place.rest.isEmpty then .ok ([], { scanner with place })
  else match tagEnd? (if isBlock then env.blockEnd else env.variableEnd) place.rest with
    | some (width, sign) =>
        let reached := place.advance width
        if isBlock then .ok ([⟨place.line, .blockEnd⟩], behindTag env sign reached)
        else .ok ([⟨place.line, .valueEnd⟩], { place := reached, dropsBlanks := sign = .strip })
    | none => do
        let (atom, reached) ← scanWord place
        return ([⟨place.line, atom⟩], { scanner with place := reached })

/-- Reads the next part of a source. -/
def Scanner.step (env : Environment) (scanner : Scanner) :
    Except RenderFault (List LocatedAtom × Scanner) :=
  if scanner.mode = .text then
    match scanner.opening with
    | some opening => scanOpening env opening scanner.place
    | none => .ok (scanText env scanner)
  else scanInside env scanner

/-- A source as it was read: its atoms, and the fault that stopped the reader behind them. -/
structure Scanned where
  atoms : List LocatedAtom := []
  fault : Option RenderFault := none

/-- Reads a source to its end. The first argument bounds the number of steps. -/
def Scanner.run (env : Environment) : Nat → Scanner → Scanned
  | 0, _ => {}
  | bound + 1, scanner =>
      if scanner.place.rest.isEmpty then {}
      else match scanner.step env with
        | .error fault => { fault := some fault }
        | .ok (atoms, scanner) =>
            let others := run env bound scanner
            { others with atoms := atoms ++ others.atoms }

/-- The text without the character at its end. -/
def dropFinal (c : Char) (text : Text) : Text :=
  if text.getLast? = some c then text.dropLast else text

def withoutFinalNewline (env : Environment) (source : Text) : Text :=
  if env.keepTrailingNewline then source else dropFinal '\r' (dropFinal '\n' source)

/-- Reads a source. At most two steps are needed for each of its characters. -/
def scanSource (env : Environment) (source : Text) : Scanned :=
  Scanner.run env (2 * source.length + 2) { place := { rest := withoutFinalNewline env source } }

end JinjaLayout.Rendering
