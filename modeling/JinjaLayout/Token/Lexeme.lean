import JinjaLayout.Token.Kind

namespace JinjaLayout

/-- A piece of source text as the scanner cuts it out: its category, its text and the line on which
it starts. -/
structure Piece where
  line : Nat
  kind : TokenKind
  text : Text
deriving DecidableEq, Inhabited

/-- A piece as the grammar reads it: literals are decoded, line forms count as block forms. -/
structure Lexeme where
  line : Nat
  kind : TokenKind
  value : Text
deriving DecidableEq, Inhabited

namespace Lexeme

def isName (lexeme : Lexeme) (word : Text) : Bool :=
  lexeme.kind == .name && lexeme.value == word

def isOperator (lexeme : Lexeme) (symbol : Text) : Bool :=
  lexeme.kind == .operator && lexeme.value == symbol

/-- How messages speak of a lexeme of the given category and value. -/
def wording (kind : TokenKind) (value : Text) : String :=
  match kind with
  | .eof => "end of template"
  | .blockEnd => "end of statement block"
  | .variableEnd => "end of print statement"
  | .name | .operator => "'" ++ value.asString ++ "'"
  | kind => kind.label

def describe (lexeme : Lexeme) : String :=
  wording lexeme.kind lexeme.value

end Lexeme

end JinjaLayout
