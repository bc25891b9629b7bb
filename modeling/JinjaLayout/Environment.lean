import JinjaLayout.Text.Quoted

namespace JinjaLayout

/-- A setting or a combination of settings that the library refuses. -/
inductive Unsupported where
  | emptyDelimiter (field : String)
  | duplicateStart (delimiter : Text)
  | renderingLineForms
deriving DecidableEq

def Unsupported.construct : Unsupported → String
  | .emptyDelimiter field => "empty " ++ field
  | .duplicateStart delimiter => "duplicate start delimiter " ++ (Text.quoted delimiter).asString
  | .renderingLineForms => "rendering with line statement or line comment prefixes"

/-- The delimiters of a template and the rules for the whitespace around its tags. -/
structure Environment where
  blockStart : Text := ['{', '%']
  blockEnd : Text := ['%', '}']
  variableStart : Text := ['{', '{']
  variableEnd : Text := ['}', '}']
  commentStart : Text := ['{', '#']
  commentEnd : Text := ['#', '}']
  lineStatementMark : Option Text := none
  lineCommentMark : Option Text := none
  trimBlocks : Bool := false
  lstripBlocks : Bool := false
  keepTrailingNewline : Bool := false
deriving DecidableEq

namespace Environment

instance : Inhabited Environment := ⟨{}⟩

/-- The environment of the spacing check, under which every character is part of a piece. -/
def spacingCheck : Environment :=
  { keepTrailingNewline := true }

def hasStockDelimiters (env : Environment) : Bool :=
  env == { ({} : Environment) with
    trimBlocks := env.trimBlocks
    lstripBlocks := env.lstripBlocks
    keepTrailingNewline := env.keepTrailingNewline }

/-- The six delimiters with their names, in the order in which they are checked. -/
def delimiters (env : Environment) : List (String × Text) :=
  [("block_start_string", env.blockStart), ("block_end_string", env.blockEnd),
    ("variable_start_string", env.variableStart), ("variable_end_string", env.variableEnd),
    ("comment_start_string", env.commentStart), ("comment_end_string", env.commentEnd)]

/-- The first start delimiter that another one equals. -/
def duplicateStart? (env : Environment) : Option Text :=
  if env.blockStart = env.variableStart || env.blockStart = env.commentStart then
    some env.blockStart
  else if env.variableStart = env.commentStart then some env.variableStart
  else none

/-- Delimiters must not be empty, and the three start delimiters must differ. -/
def validate (env : Environment) : Except Unsupported Unit :=
  match env.delimiters.find? fun delimiter => delimiter.2.isEmpty with
  | some (field, _) => .error (.emptyDelimiter field)
  | none =>
      match env.duplicateStart? with
      | some delimiter => .error (.duplicateStart delimiter)
      | none => .ok ()

end Environment

end JinjaLayout
