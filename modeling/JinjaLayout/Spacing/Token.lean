import JinjaLayout.Token.Lexeme
import JinjaLayout.Token.Scan

/-!
What the spacing rules look at. Tokens that stand before a place are listed nearest first.
-/

namespace JinjaLayout.Spacing

/-- A token, of which only the category and the text matter. -/
structure Token where
  kind : TokenKind
  text : Text
deriving DecidableEq, Inhabited

def Token.ofPiece (piece : Piece) : Token :=
  ⟨piece.kind, piece.text⟩

/-- Words that act as operators: a sign after them is unary. -/
def operatorWords : List Text :=
  ["and".toList, "or".toList, "not".toList, "in".toList, "is".toList, "if".toList, "else".toList,
    "elif".toList]

/-- Words of statements, after which an expression in brackets may stand. -/
def statementWords : List Text :=
  ["for".toList, "set".toList, "with".toList, "do".toList, "print".toList, "include".toList,
    "extends".toList, "import".toList, "from".toList, "as".toList, "return".toList, "block".toList,
    "filter".toList, "macro".toList, "call".toList, "autoescape".toList, "recursive".toList]

def spacedOperators : List Text :=
  ["+".toList, "-".toList, "*".toList, "/".toList, "//".toList, "%".toList, "**".toList,
    "~".toList, "==".toList, "!=".toList, "<".toList, ">".toList, "<=".toList, ">=".toList,
    "|".toList]

def openers : List Text :=
  [['('], ['['], ['{']]

def closers : List Text :=
  [[')'], [']'], ['}']]

namespace Token

def blank : Token :=
  ⟨.whitespace, [' ']⟩

def isOperator (token : Token) (symbols : List Text) : Bool :=
  token.kind == .operator && symbols.contains token.text

def isValue (token : Token) : Bool :=
  match token.kind with
  | .name => !operatorWords.contains token.text
  | .string | .integer | .float => true
  | .operator => closers.contains token.text
  | _ => false

/-- Whether a bracket behind the token is a call or a subscript. -/
def isCallee (token : Token) : Bool :=
  token.isValue && !(token.kind == .name && statementWords.contains token.text)

def isLineBlank (token : Token) : Bool :=
  token.kind == .whitespace && !token.text.contains '\n'

def opensTag (token : Token) : Bool :=
  match token.kind with
  | .blockBegin | .variableBegin | .commentBegin => true
  | _ => false

def closesTag (token : Token) : Bool :=
  match token.kind with
  | .blockEnd | .variableEnd | .commentEnd => true
  | _ => false

end Token

/-- The innermost bracket that is open in the current tag, looking back over the tokens before. The
first argument counts the closing brackets that still wait for their opening ones. -/
def openBracket : Nat → List Token → Option Char
  | _, [] => none
  | closed, token :: before =>
      if token.opensTag then none
      else if token.isOperator closers then openBracket (closed + 1) before
      else if token.isOperator openers then
        match closed with
        | 0 => token.text.head?
        | closed + 1 => openBracket closed before
      else openBracket closed before

def context (before : List Token) : Option Char :=
  openBracket 0 before

/-- Whether a sign or star is unary: no operand comes right before it. -/
def isUnary (symbol : Text) (before : List Token) : Bool :=
  [['-'], ['+'], ['*'], ['*', '*']].contains symbol &&
    !(before.find? fun token => token.kind != .whitespace).any Token.isValue

/-- Whether an operator gets blanks around it inside the given bracket. -/
def isSpaced (symbol : Text) (bracket : Option Char) : Bool :=
  if symbol = ['='] then bracket != some '(' else spacedOperators.contains symbol

end JinjaLayout.Spacing
