import JinjaLayout.Rendering.Fault
import JinjaLayout.Token.Cursor

namespace JinjaLayout

/-- Why an operation on a template failed. -/
inductive TemplateError where
  | malformed (name : Option String) (error : SyntaxError)
  | unlocated (name : Option String) (kind : TokenKind) (text : Text) (offset : Nat)
  | diverged (name : Option String) (divergence : Divergence)
  | tooDeep
  | unsupported (what : Unsupported)
  | unreadable
  | invalidSettings
  | rendering (fault : RenderFault)
deriving DecidableEq

namespace TemplateError

def displayName (name : Option String) : String :=
  name.getD "<template>"

def message : TemplateError → String
  | malformed name error =>
      "Template syntax error in " ++ displayName name ++ " at line " ++ toString error.line ++
        ": " ++ error.fault.message
  | unlocated name kind text offset =>
      "Token " ++ (Text.quoted text).asString ++ " (" ++ kind.label ++ ") of " ++
        displayName name ++ " not found after offset " ++ toString offset
  | diverged name divergence =>
      "Annotation of " ++ displayName name ++ " diverged from the grammar: expected " ++
        divergence.expected ++ ", found " ++ divergence.foundWords ++ " (last matched token: " ++
        divergence.lastWords ++ ")"
  | tooDeep => "Template nests more than " ++ toString nestingLimit ++ " levels deep"
  | unsupported what => "Unsupported construct: " ++ what.construct
  | unreadable => "The file cannot be read"
  | invalidSettings => "The settings cannot be read"
  | rendering fault => "Template rendering error: " ++ fault.message

def bareMessage : TemplateError → String
  | malformed _ error => error.fault.message
  | error => error.message

/-- Whether the error shows that an annotation went wrong rather than a template. -/
def isInternal : TemplateError → Bool
  | unlocated .. | diverged .. => true
  | _ => false

def ofTableFault (name : Option String) : TableFault → TemplateError
  | .malformed error => malformed name error
  | .unlocated kind text offset => unlocated name kind text offset

end TemplateError

end JinjaLayout
