import JinjaLayout.Token.Table

namespace JinjaLayout

/-- What a search in the token table met instead of what it looked for. -/
structure Divergence where
  kind : TokenKind
  value : Option Text
  found : Option Token
  lastMatched : Option Token
deriving DecidableEq

namespace Divergence

/-- What was looked for, in words. -/
def expected (divergence : Divergence) : String :=
  match divergence.value with
  | some value => divergence.kind.label ++ " '" ++ value.asString ++ "'"
  | none => divergence.kind.label

def foundWords (divergence : Divergence) : String :=
  match divergence.found with
  | some token => token.describe
  | none => "end of tokens"

def lastWords (divergence : Divergence) : String :=
  match divergence.lastMatched with
  | some token => token.describe
  | none => "none"

end Divergence

/-- A place in a token table: the index of the next token to be read, the tokens from there on, and
the index of the last significant token that was read. -/
structure Cursor where
  tokens : List Token
  index : Nat := 1
  rest : List Token := tokens.drop index
  lastMatched : Option Nat := none
  rest_eq : rest = tokens.drop index := by rfl

namespace Cursor

def moveTo (cursor : Cursor) (index : Nat) : Cursor :=
  { tokens := cursor.tokens
    index := min index cursor.tokens.length
    lastMatched := cursor.lastMatched }

def advanceBy (cursor : Cursor) (count : Nat) : Cursor :=
  { tokens := cursor.tokens
    index := cursor.index + count
    rest := cursor.rest.drop count
    lastMatched := cursor.lastMatched
    rest_eq := by rw [cursor.rest_eq, List.drop_drop] }

/-- The significant token `n` places after the first one. -/
def nthSignificant : Nat → List Token → Option Token
  | _, [] => none
  | n, token :: tokens =>
      if token.isSignificant then
        match n with
        | 0 => some token
        | n + 1 => nthSignificant n tokens
      else nthSignificant n tokens

def leadingSignificant (accept : Token → Bool) : List Token → List Token
  | [] => []
  | token :: tokens =>
      if token.isSignificant then
        if accept token then token :: leadingSignificant accept tokens else []
      else leadingSignificant accept tokens

def peekNth (cursor : Cursor) (n : Nat) : Option Token :=
  nthSignificant n cursor.rest

def peek (cursor : Cursor) : Option Token :=
  cursor.rest.find? Token.isSignificant

def significantBefore (cursor : Cursor) (index : Nat) : Option Token :=
  (cursor.tokens.take index).reverse.find? Token.isSignificant

/-- Reports what stands at the cursor instead of a token of the given category and value. -/
def divergence (cursor : Cursor) (kind : TokenKind) (value : Option Text) : Divergence :=
  ⟨kind, value, cursor.rest.head?, cursor.lastMatched.bind fun index => cursor.tokens[index]?⟩

/-- Moves behind the tokens that are not significant, and gives them. -/
def skipInsignificant (cursor : Cursor) : List Token × Cursor :=
  let skipped := cursor.rest.takeWhile fun token => !token.isSignificant
  (skipped, cursor.advanceBy skipped.length)

def fits (token : Token) (kind : TokenKind) (value : Option Text) : Bool :=
  match token.lexeme with
  | some lexeme => lexeme.kind == kind && (value.isNone || value == some lexeme.value)
  | none => false

/-- Reads the next significant token, which has to fit. Gives the tokens before it as well. After a
failure the cursor stands on the token that does not fit, or behind the last one. -/
def seekOne (cursor : Cursor) (kind : TokenKind) (value : Option Text) :
    Except Divergence (List Token × Token) × Cursor :=
  let (skipped, cursor) := cursor.skipInsignificant
  match cursor.rest with
  | [] => (.error (cursor.divergence kind value), cursor)
  | token :: _ =>
      if fits token kind value then
        (.ok (skipped, token), { cursor.advanceBy 1 with lastMatched := some cursor.index })
      else (.error (cursor.divergence kind value), cursor)

def seekValues (cursor : Cursor) (kind : TokenKind) (skipped : List Token) (last : Token) :
    List Text → Except Divergence (List Token × Token) × Cursor
  | [] => (.ok (skipped, last), cursor)
  | value :: values =>
      match cursor.seekOne kind (some value) with
      | (.error divergence, cursor) => (.error divergence, cursor)
      | (.ok (more, token), cursor) =>
          seekValues cursor kind (skipped ++ more) token values

/-- Reads one significant token for each value, or one of any value when there are none. Gives the
tokens passed over and the last one read. -/
def seek (cursor : Cursor) (kind : TokenKind) (values : List Text) :
    Except Divergence (List Token × Token) × Cursor :=
  match values with
  | [] => cursor.seekOne kind none
  | value :: values =>
      match cursor.seekOne kind (some value) with
      | (.error divergence, cursor) => (.error divergence, cursor)
      | (.ok (skipped, token), cursor) => seekValues cursor kind skipped token values

/-- Reads the next significant token, whatever it is. -/
def advance (cursor : Cursor) : Except Divergence (List Token × Token) × Cursor :=
  match cursor.peek.bind Token.lexeme with
  | some lexeme => cursor.seekOne lexeme.kind none
  | none =>
      (.error { cursor.divergence .eof none with found := none }, cursor)

def takeInsignificant (cursor : Cursor) (keep : Token → Bool) : List Token × Cursor :=
  let taken := cursor.rest.takeWhile fun token => !token.isSignificant && keep token
  (taken, cursor.advanceBy taken.length)

/-- The source text of the tokens from one index up to another. -/
def textOf (cursor : Cursor) (start stop : Nat) : Text :=
  ((cursor.tokens.take stop).drop start).flatMap Token.text

end Cursor

end JinjaLayout
