import JinjaLayout.Token.Cursor
import JinjaLayout.Tree.Basic

/-!
Annotation walks through a tree and the token table of its source together: every node takes the
tokens that the grammar read for it, in the same order.
-/

namespace JinjaLayout.Alignment

/-- Why a tree cannot be annotated. -/
inductive Fault where
  | diverged (divergence : Divergence)
  | tooDeep
deriving DecidableEq

/-- How far the walk has come: the place in the token table, and the opening parentheses that group
an expression and have not met their closing ones. -/
structure Walk where
  cursor : Cursor
  grouping : List Nat := []

abbrev Walking := StateT Walk (Except Fault)

/-- Does something with the cursor that may fail. -/
def onCursor {α : Type} (act : Cursor → Except Divergence α × Cursor) : Walking α := do
  let walk ← get
  match act walk.cursor with
  | (.ok result, cursor) =>
      set { walk with cursor }
      return result
  | (.error divergence, _) => throw (.diverged divergence)

/-- The index of the next token to be read. -/
def position : Walking Nat := do
  return (← get).cursor.index

/-- Whether the significant token `n` places after the next one fits. -/
def nthFits (n : Nat) (kind : TokenKind) (value : Option Text) : Walking Bool := do
  return ((← get).cursor.peekNth n).any fun token => Cursor.fits token kind value

def nextFits (kind : TokenKind) (value : Option Text) : Walking Bool :=
  nthFits 0 kind value

/-- Whether the next significant token is the given operator. -/
def nextIs (symbol : Text) : Walking Bool :=
  nextFits .operator (some symbol)

/-- Reads a token of the given category with the tokens skipped before it. -/
def seek (kind : TokenKind) : Walking (List Token × Token) :=
  onCursor fun cursor => cursor.seekOne kind none

/-- Reads a token of the given category, and the given value if there is one. -/
def expect (kind : TokenKind) (value : Option Text) : Walking Token := do
  return (← onCursor fun cursor => cursor.seekOne kind value).2

def expectName (word : Text) : Walking Unit := do
  let _ ← expect .name (some word)

def expectNames (words : List Text) : Walking Unit :=
  words.forM expectName

def expectOperator (symbol : Text) : Walking Unit := do
  let _ ← expect .operator (some symbol)

def skipComma : Walking Unit := do
  if ← nextIs "," then expectOperator ","

def textOf (tokens : List Token) : Text :=
  tokens.flatMap Token.text

/-- A tag whose end has not been read. -/
structure OpenTag where
  start : Nat
  opening : Token
  keyword : Text
  before : Text

/-- Reads the begin delimiter of a tag. -/
def openTag (kind : TokenKind) : Walking OpenTag := do
  let (skipped, opening) ← seek kind
  return ⟨((skipped.head?).getD opening).index, opening, [], textOf skipped⟩

/-- Reads the end delimiter of a tag, and the whitespace that it takes away. -/
def closeTag (tag : OpenTag) (kind : TokenKind) : Walking TagPair := do
  let colon := kind == .blockEnd && (← nextIs ":")
  if colon then expectOperator ":"
  let (_, closing) ← seek kind
  let after ← onCursor fun cursor =>
    let (taken, cursor) := cursor.takeInsignificant fun token => token.kind == .whitespace
    (.ok taken, cursor)
  return { opening := tag.opening, closing, keyword := tag.keyword, colon, before := tag.before,
           after := textOf after }

def blockTag (keyword : Text) : Walking OpenTag := do
  let tag ← openTag .blockBegin
  expectName keyword
  return { tag with keyword }

def closeBlock (tag : OpenTag) : Walking TagPair :=
  closeTag tag .blockEnd

def keywordTag (keyword : Text) : Walking TagPair := do
  closeBlock (← blockTag keyword)

def nextIsTag (keyword : Text) : Walking Bool := do
  return (← nthFits 0 .blockBegin none) && (← nthFits 1 .name (some keyword))

/-- The tokens that an expression has taken so far: the first one, the first one without grouping
parentheses, and the one behind the last. -/
structure Extent where
  start : Option Nat := none
  inner : Option Nat := none
  stop : Nat := 0

namespace Extent

def earliest (before : Option Nat) (index : Nat) : Option Nat :=
  some (before.elim index (min index))

def takeOuter (extent : Extent) (index : Nat) : Extent :=
  { extent with start := earliest extent.start index, stop := max extent.stop (index + 1) }

/-- Takes a token of the expression itself. -/
def take (extent : Extent) (index : Nat) : Extent :=
  { extent.takeOuter index with inner := earliest extent.inner index }

/-- Takes the tokens of a part of the expression. -/
def cover (extent : Extent) (span : Nat × Nat) : Extent :=
  { start := earliest extent.start span.1
    inner := earliest extent.inner span.1
    stop := max extent.stop span.2 }

/-- The tokens of a part that has at least one. -/
def span (extent : Extent) : Nat × Nat :=
  (extent.start.getD extent.stop, extent.stop)

end Extent

abbrev Covering := StateT Extent Walking

/-- Takes the next significant token, which has to fit. -/
def consume (kind : TokenKind) (value : Option Text) : Covering Token := do
  let token ← expect kind value
  modify fun extent => extent.take token.index
  return token

def consumeOperator (symbol : Text) : Covering Unit := do
  let _ ← consume .operator (some symbol)

def consumeName (word : Text) : Covering Unit := do
  let _ ← consume .name (some word)

def consumeIfNext (symbol : Text) : Covering Unit := do
  if ← nextIs symbol then consumeOperator symbol

/-- Takes names with points between them. -/
def consumeDotted : List Text → Covering Unit
  | [] => return ()
  | [word] => consumeName word
  | word :: words => do
      consumeName word
      consumeOperator "."
      consumeDotted words

/-- Walks a part that keeps its own tokens, which are then taken for the whole. -/
def covering {α : Type} (part : Covering α) : Covering (α × (Nat × Nat)) := do
  let (result, extent) ← part.run {}
  modify fun whole => whole.cover extent.span
  return (result, extent.span)

/-- Takes the opening parentheses that follow as grouping ones. -/
def openGroups : Covering Unit := do
  let openings := Cursor.leadingSignificant (fun token => Cursor.fits token .operator (some "("))
    (← getThe Walk).cursor.rest
  openings.forM fun _ => do
    let token ← expect .operator (some "(")
    modifyThe Walk fun walk => { walk with grouping := token.index :: walk.grouping }
    modify fun extent => extent.takeOuter token.index

/-- The opening parenthesis that the next token closes around the expression. -/
def groupAround? (walk : Walk) (extent : Extent) : Option Nat := do
  let token ← walk.cursor.peek
  let opening ← token.partner
  guard (Cursor.fits token .operator (some ")") && walk.grouping.contains opening)
  let before ← walk.cursor.significantBefore (extent.inner.getD token.index)
  guard (before.index == opening)
  return opening

/-- Takes the closing parentheses that group the expression, at most as many as the bound says.
Gives the innermost pair. -/
def closeGroups : Nat → Covering (Option (Token × Token))
  | 0 => return none
  | bound + 1 => do
      let walk ← getThe Walk
      match groupAround? walk (← get) with
      | none => return none
      | some opening =>
          let closing ← expect .operator (some ")")
          modifyThe Walk fun walk => { walk with grouping := walk.grouping.erase opening }
          modify fun extent =>
            { (extent.takeOuter opening).takeOuter closing.index with inner := some opening }
          let _ ← closeGroups bound
          return (walk.cursor.tokens[opening]?).map fun token => (token, closing)

/-- Takes all the closing parentheses that group the expression. -/
def closeAllGroups : Covering (Option (Token × Token)) := do
  closeGroups (← getThe Walk).grouping.length

/-- The layout of an expression that has taken all its tokens, and its span. -/
def finish (layout : Layout) (pairs : List TagPair) : Covering (Layout × (Nat × Nat)) := do
  let extent ← get
  let start := extent.start.getD (← position)
  let span := (start, max extent.stop start)
  return ({ layout with span := some span, pairs }, span)

end JinjaLayout.Alignment
