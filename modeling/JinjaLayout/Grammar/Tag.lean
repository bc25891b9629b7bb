import JinjaLayout.Text.Basic

namespace JinjaLayout.Grammar

/-- The tags that start a statement. -/
inductive Tag where
  | loop
  | branch
  | block
  | extend
  | print
  | macroBlock
  | insert
  | importNames
  | importAs
  | set
  | bind
  | autoescape
  | callBlock
  | filterBlock
  | perform
  | skip
  | leave
deriving DecidableEq

namespace Tag

def word : Tag → Text
  | loop => "for"
  | branch => "if"
  | block => "block"
  | extend => "extends"
  | print => "print"
  | macroBlock => "macro"
  | insert => "include"
  | importNames => "from"
  | importAs => "import"
  | set => "set"
  | bind => "with"
  | autoescape => "autoescape"
  | callBlock => "call"
  | filterBlock => "filter"
  | perform => "do"
  | skip => "continue"
  | leave => "break"

def all : List Tag :=
  [loop, branch, block, extend, print, macroBlock, insert, importNames, importAs, set, bind,
    autoescape, callBlock, filterBlock, perform, skip, leave]

def ofWord? (word : Text) : Option Tag :=
  all.find? fun tag => tag.word == word

end Tag

end JinjaLayout.Grammar
