import JinjaLayout.Environment
import JinjaLayout.Token.Kind

namespace JinjaLayout

inductive MarkerKind where
  | block
  | variable
  | comment
  | lineStatement
  | lineComment
deriving DecidableEq, Inhabited

/-- A place where plain data ends: the number of characters before it, what it opens and the number
of characters it has. -/
structure Marker where
  start : Nat
  kind : MarkerKind
  length : Nat
deriving DecidableEq, Inhabited

namespace Marker

def ofDelimiter? (kind : MarkerKind) (delimiter rest : Text) : Option Marker :=
  (Text.position? delimiter rest).map fun start => ⟨start, kind, delimiter.length⟩

def ofLineComment? (mark rest : Text) : Option Marker :=
  (Text.position? mark rest).map fun start =>
    let kept := (Text.trimEnd Text.isIndent (rest.take start)).length
    ⟨kept, .lineComment, start - kept + mark.length⟩

def lineStatementLength? (mark line : Text) : Option Nat :=
  let indent := (line.takeWhile Text.isIndent).length
  if mark.isPrefixOf (line.drop indent) then some (indent + mark.length) else none

def ofLineStatement? (mark : Text) : Bool → Text → Option Marker
  | startsLine, rest =>
      match (if startsLine then lineStatementLength? mark rest else none), rest with
      | some length, _ => some ⟨0, .lineStatement, length⟩
      | none, [] => none
      | none, c :: rest =>
          (ofLineStatement? mark (c == '\n') rest).map fun marker =>
            { marker with start := marker.start + 1 }

/-- Of two markers the one that starts first, then the longer one, then the first. -/
def earlier (best : Option Marker) (candidate : Marker) : Option Marker :=
  match best with
  | none => some candidate
  | some marker =>
      if marker.start < candidate.start then some marker
      else if marker.start = candidate.start ∧ candidate.length ≤ marker.length then some marker
      else some candidate

def candidates (env : Environment) (startsLine : Bool) (rest : Text) : List Marker :=
  [ofDelimiter? .block env.blockStart rest,
    ofDelimiter? .variable env.variableStart rest,
    ofDelimiter? .comment env.commentStart rest,
    env.lineCommentMark.bind fun mark => ofLineComment? mark rest,
    env.lineStatementMark.bind fun mark => ofLineStatement? mark startsLine rest].filterMap id

def next? (env : Environment) (startsLine : Bool) (rest : Text) : Option Marker :=
  (candidates env startsLine rest).foldl earlier none

/-- The whitespace control after the marker. Line forms have none. -/
def chomp (marker : Marker) (rest : Text) : Chomp :=
  match marker.kind with
  | .block | .variable | .comment => Chomp.atStart (rest.drop (marker.start + marker.length))
  | .lineStatement | .lineComment => .none

end Marker

end JinjaLayout
