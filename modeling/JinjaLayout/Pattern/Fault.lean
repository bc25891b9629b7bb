import JinjaLayout.Text.Basic

namespace JinjaLayout

/-- What can be wrong with the text of a pattern. -/
inductive PatternFaultKind where
  | unclosedSet
  | invalidRange
  | rangeBoundary
  | escapeInSet
  | unclosedGroup
  | unopenedGroup
  | unclosedName
  | emptyName
  | invalidName
  | repeatedName
  | unknownFlag
  | lookAround
  | missingOperand
  | unclosedCount
  | missingCount
  | invalidCount
  | incompleteEscape
  | unknownEscape
  | backreference
deriving DecidableEq

def PatternFaultKind.words : PatternFaultKind → String
  | unclosedSet => "unclosed character class"
  | invalidRange => "invalid character class range, the start must be <= the end"
  | rangeBoundary => "invalid range boundary, must be a literal"
  | escapeInSet => "invalid escape sequence found in character class"
  | unclosedGroup => "unclosed group"
  | unopenedGroup => "unopened group"
  | unclosedName => "unclosed capture group name"
  | emptyName => "empty capture group name"
  | invalidName => "invalid capture group character"
  | repeatedName => "duplicate capture group name"
  | unknownFlag => "unrecognized flag"
  | lookAround => "look-around, including look-ahead and look-behind, is not supported"
  | missingOperand => "repetition operator missing expression"
  | unclosedCount => "unclosed counted repetition"
  | missingCount => "repetition quantifier expects a valid decimal"
  | invalidCount => "invalid repetition count range, the start must be <= the end"
  | incompleteEscape => "incomplete escape sequence, reached end of pattern prematurely"
  | unknownEscape => "unrecognized escape sequence"
  | backreference => "backreferences are not supported"

/-- What is wrong with the text of a pattern, how much of the text is left where that starts, and
how wide it is. -/
structure PatternFault where
  kind : PatternFaultKind
  left : Nat
  width : Nat
deriving DecidableEq

namespace PatternFault

def between (kind : PatternFaultKind) (start stop : Text) : PatternFault :=
  ⟨kind, start.length, start.length - stop.length⟩

/-- The fault in words, below the text of the pattern with a mark under the place. -/
def message (fault : PatternFault) (pattern : Text) : Text :=
  "regex parse error:\n    ".toList ++ pattern ++ "\n    ".toList ++
    List.replicate (pattern.length - fault.left) ' ' ++ List.replicate (max 1 fault.width) '^' ++
    "\nerror: ".toList ++ fault.kind.words.toList

end PatternFault

end JinjaLayout
