import JinjaLayout.Spacing.Token

/-!
The preferred spacing, in two passes over the tokens: the first one adds blanks and shortens
whitespace to one blank, the second one drops blanks.
-/

namespace JinjaLayout.Spacing

/-- A comment on one line: its words with one blank around each. -/
def paddedComment (text : Text) : Text :=
  match Text.words text with
  | [] => [' ']
  | words => ' ' :: (Text.joined [' '] words ++ [' '])

/-- The first pass: the tokens written so far, nearest first; whether the place is inside a tag; and
whether a blank is due. -/
structure Insertion where
  written : List Token := []
  inside : Bool := false
  blankDue : Bool := false

namespace Insertion

/-- The token with its own whitespace shortened. -/
def tidied (state : Insertion) (token : Token) : Token :=
  if state.inside && token.isLineBlank then { token with text := [' '] }
  else if token.kind = .comment && !token.text.contains '\n' then
    { token with text := paddedComment token.text }
  else token

/-- Whether a blank comes before a token because of what stands before it. -/
def needsBlank (state : Insertion) (token : Token) : Bool :=
  let previous := state.written.head?
  let isGap (token : Token) : Bool := token.kind == .whitespace || token.kind == .comment
  (previous.any Token.opensTag && !isGap token) ||
    (token.closesTag && !previous.any isGap) ||
    (state.blankDue && token.kind != .whitespace && !token.isOperator closers)

def blankBefore (written : List Token) : List Token :=
  if written.head?.any fun token => token.kind == .whitespace || token.opensTag then written
  else Token.blank :: written

def push (state : Insertion) (token : Token) : Insertion :=
  let token := state.tidied token
  let written := if state.needsBlank token then Token.blank :: state.written else state.written
  let inside := if token.opensTag then true else if token.closesTag then false else state.inside
  if token.kind = .operator then
    let bracket := context written
    if isSpaced token.text bracket && !isUnary token.text written then
      ⟨token :: blankBefore written, inside, true⟩
    else
      ⟨token :: written, inside,
        token.text == [','] || (token.text == [':'] && bracket == some '{')⟩
  else ⟨token :: written, inside, false⟩

end Insertion

def withBlanks (tokens : List Token) : List Token :=
  (tokens.foldl Insertion.push {}).written.reverse

/-- Whether two operators would be read as another one without a blank between them. -/
def wouldMerge (previous following : Token) : Bool :=
  previous.kind == following.kind &&
    Scan.longOperators.contains (previous.text.getLast?.toList ++ following.text.head?.toList)

/-- Whether a blank between two tokens is dropped; `before` is what stands before the first one,
nearest first. -/
def isUnwanted (before : List Token) (previous following : Token) : Bool :=
  if previous.opensTag || following.closesTag then false
  else if previous.kind != .operator && following.kind != .operator then false
  else if wouldMerge previous following then false
  else
    let bracket := context (previous :: before)
    previous.isOperator ([['.']] ++ openers) || following.isOperator ([[','], ['.']] ++ closers) ||
      (following.isOperator [[':']] && (bracket == some '[' || bracket == some '{')) ||
      (previous.isOperator [[':']] && bracket == some '[') ||
      ((previous.isOperator [['=']] || following.isOperator [['=']]) && bracket == some '(') ||
      (following.isOperator [['('], ['[']] && previous.isCallee) ||
      (previous.kind == .operator && isUnary previous.text before)

/-- Whether a token is a blank to be dropped, between what was kept, nearest first, and what
follows. -/
def isDropped (kept : List Token) (token : Token) (tokens : List Token) : Bool :=
  match kept, tokens with
  | previous :: before, following :: _ => token.isLineBlank && isUnwanted before previous following
  | _, _ => false

/-- The tokens without the blanks that the style forbids. The first argument is what was kept,
nearest first. -/
def dropBlanks : List Token → List Token → List Token
  | kept, [] => kept.reverse
  | kept, token :: tokens =>
      dropBlanks (if isDropped kept token tokens then kept else token :: kept) tokens

def respaced (tokens : List Token) : List Token :=
  dropBlanks [] (withBlanks tokens)

end JinjaLayout.Spacing
