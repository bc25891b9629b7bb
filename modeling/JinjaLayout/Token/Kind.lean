import JinjaLayout.Text.Basic

namespace JinjaLayout

/-- The lexical category of a piece of template source. -/
inductive TokenKind where
  | initial
  | eof
  | data
  | blockBegin
  | blockEnd
  | variableBegin
  | variableEnd
  | commentBegin
  | comment
  | commentEnd
  | rawBegin
  | rawEnd
  | lineStatementBegin
  | lineStatementEnd
  | lineCommentBegin
  | lineComment
  | lineCommentEnd
  | whitespace
  | name
  | operator
  | string
  | integer
  | float
deriving DecidableEq, Inhabited

namespace TokenKind

/-- The word for the category in messages and token tables. -/
def label : TokenKind → String
  | initial => "initial"
  | eof => "eof"
  | data => "data"
  | blockBegin => "block_begin"
  | blockEnd => "block_end"
  | variableBegin => "variable_begin"
  | variableEnd => "variable_end"
  | commentBegin => "comment_begin"
  | comment => "comment"
  | commentEnd => "comment_end"
  | rawBegin => "raw_begin"
  | rawEnd => "raw_end"
  | lineStatementBegin => "linestatement_begin"
  | lineStatementEnd => "linestatement_end"
  | lineCommentBegin => "linecomment_begin"
  | lineComment => "linecomment"
  | lineCommentEnd => "linecomment_end"
  | whitespace => "whitespace"
  | name => "name"
  | operator => "operator"
  | string => "string"
  | integer => "integer"
  | float => "float"

/-- Every category once. -/
def all : List TokenKind :=
  [initial, eof, data, blockBegin, blockEnd, variableBegin, variableEnd, commentBegin, comment,
    commentEnd, rawBegin, rawEnd, lineStatementBegin, lineStatementEnd, lineCommentBegin,
    lineComment, lineCommentEnd, whitespace, name, operator, string, integer, float]

def ofLabel? (word : String) : Option TokenKind :=
  all.find? fun kind => kind.label == word

def closing? : TokenKind → Option TokenKind
  | blockBegin => some blockEnd
  | variableBegin => some variableEnd
  | commentBegin => some commentEnd
  | rawBegin => some rawEnd
  | lineStatementBegin => some lineStatementEnd
  | lineCommentBegin => some lineCommentEnd
  | _ => none

def isBegin (kind : TokenKind) : Bool :=
  kind.closing?.isSome

def isEnd : TokenKind → Bool
  | blockEnd | variableEnd | commentEnd | rawEnd | lineStatementEnd | lineCommentEnd => true
  | _ => false

end TokenKind

/-- The whitespace control beside a delimiter: nothing, `-` or `+`. -/
inductive Chomp where
  | none
  | strip
  | keep
deriving DecidableEq, Inhabited

namespace Chomp

def sign : Chomp → Text
  | none => []
  | strip => ['-']
  | keep => ['+']

/-- The whitespace control that a character stands for. -/
def ofChar? : Option Char → Chomp
  | some '-' => strip
  | some '+' => keep
  | _ => none

def atStart (text : Text) : Chomp :=
  ofChar? text.head?

def width (chomp : Chomp) : Nat :=
  chomp.sign.length

end Chomp

end JinjaLayout
