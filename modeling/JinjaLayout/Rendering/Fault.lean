import JinjaLayout.Text.Basic

namespace JinjaLayout

inductive RenderFaultKind where
  | undefinedValue
  | invalidOperation
  | malformed
  | badEscape
  | unknownFilter
  | missingArgument
  | excessArgument
  | invalidDelimiters
deriving DecidableEq

def RenderFaultKind.words : RenderFaultKind → String
  | undefinedValue => "undefined value"
  | invalidOperation => "invalid operation"
  | malformed => "syntax error"
  | badEscape => "bad string escape"
  | unknownFilter => "unknown filter"
  | missingArgument => "missing argument"
  | excessArgument => "too many arguments"
  | invalidDelimiters => "invalid custom delimiters"

/-- Why rendering stopped, and on which line if it was at work on a source. -/
structure RenderFault where
  kind : RenderFaultKind
  detail : Option Text := none
  line : Option Nat := none
deriving DecidableEq

namespace RenderFault

def message (fault : RenderFault) : String :=
  fault.kind.words ++ fault.detail.elim "" (fun detail => ": " ++ detail.asString) ++
    fault.line.elim "" fun line => " (in <string>:" ++ toString line ++ ")"

def onLine (fault : RenderFault) (line : Nat) : RenderFault :=
  { fault with line := some (fault.line.getD line) }

def unrendered (line : Nat) : RenderFault :=
  ⟨.invalidOperation, some "the construct cannot be rendered".toList, some line⟩

end RenderFault

end JinjaLayout
