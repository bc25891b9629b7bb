import JinjaLayout.Pattern.Set
import JinjaLayout.Text.StringLiteral

/-!
The written form of patterns: characters, sets in brackets, the letters for classes of characters
after a backslash, repetitions, alternatives, anchors and groups with or without names.
-/

namespace JinjaLayout

structure NamedPattern where
  pattern : Pattern
  names : List (Text × Nat)

namespace Pattern

/-- What the reader has seen so far: how many groups, and the names of some of them. -/
structure Groups where
  count : Nat := 0
  names : List (Text × Nat) := []

def count (text : Text) : Attempt (Nat × Text) :=
  match Text.digits? 10 (text.takeWhile Char.isDigit) with
  | some value => .ok (value, text.dropWhile Char.isDigit)
  | none => .error ⟨.missingCount, text.length, 0⟩

/-- The counts of a repetition from its opening brace on. -/
def counts (text : Text) : Attempt ((Nat × Option Nat) × Text) := do
  if text.length = 1 then throw (.between .unclosedCount text [])
  let (least, rest) ← count (text.drop 1)
  let (most, rest) ← match rest with
    | [','] => throw (PatternFault.between .unclosedCount text [])
    | ',' :: '}' :: _ => pure ((none : Option Nat), rest.drop 1)
    | ',' :: rest => do
        let (most, rest) ← count rest
        pure (some most, rest)
    | rest => pure (some least, rest)
  match rest with
  | '}' :: rest =>
      if most.all fun most => least ≤ most then return ((least, most), rest)
      else throw (.between .invalidCount text (if rest.head? = some '?' then rest.drop 1 else rest))
  | rest => throw (.between .unclosedCount text rest)

/-- How often something is repeated, if a mark for that follows. -/
def repetition : Text → Attempt ((Option (Nat × Option Nat)) × Text)
  | '*' :: rest => .ok (some (0, none), rest)
  | '+' :: rest => .ok (some (1, none), rest)
  | '?' :: rest => .ok (some (0, some 1), rest)
  | '{' :: rest => do
      let (found, rest) ← counts ('{' :: rest)
      return (some found, rest)
  | rest => .ok (none, rest)

/-- The pattern with the repetitions that follow it. The first argument bounds their number. -/
def withRepetitions : Nat → Pattern → Text → Attempt (Pattern × Text)
  | 0, body, text => .ok (body, text)
  | bound + 1, body, text => do
      match ← repetition text with
      | (none, rest) => return (body, rest)
      | (some (least, most), '?' :: rest) =>
          withRepetitions bound (.repeated body least most true) rest
      | (some (least, most), rest) => withRepetitions bound (.repeated body least most false) rest

def continuesGroupName (c : Char) : Bool :=
  Text.continuesName c || c == '.' || c == '[' || c == ']'

def groupName (text : Text) : Attempt (Text × Text) :=
  let name := match text with
    | [] => []
    | first :: rest =>
        if Text.startsName first then first :: rest.takeWhile continuesGroupName else []
  match name, text.drop name.length with
  | _, [] => .error ⟨.unclosedName, 0, 0⟩
  | [], '>' :: _ => .error ⟨.emptyName, text.length, 0⟩
  | _, '>' :: rest => .ok (name, rest)
  | _, rest => .error ⟨.invalidName, rest.length, 1⟩

def groupStart (groups : Groups) (text : Text) : Attempt ((Option Nat × Groups) × Text) :=
  let index := groups.count + 1
  let named (text : Text) : Attempt ((Option Nat × Groups) × Text) := do
    let (name, rest) ← groupName text
    if (groups.names.lookup name).isSome then
      throw ⟨.repeatedName, text.length, name.length⟩
    return ((some index, ⟨index, (name, index) :: groups.names⟩), rest)
  match text.drop 1 with
  | '?' :: '=' :: rest | '?' :: '!' :: rest | '?' :: '<' :: '=' :: rest
  | '?' :: '<' :: '!' :: rest => .error (.between .lookAround text rest)
  | '?' :: 'P' :: '<' :: rest | '?' :: '<' :: rest => named rest
  | '?' :: ':' :: rest => .ok ((none, groups), rest)
  | ['?'] => .error ⟨.unclosedGroup, text.length, 1⟩
  | '?' :: ')' :: _ => .error ⟨.missingOperand, text.length - 1, 0⟩
  | '?' :: rest => .error ⟨.unknownFlag, rest.length, 1⟩
  | rest => .ok ((some index, { groups with count := index }), rest)

mutual

/-- Alternatives. The first argument bounds the number of steps. -/
def alternatives : Nat → Groups → Text → Attempt ((Pattern × Groups) × Text)
  | 0, groups, text => .ok ((.empty, groups), text)
  | bound + 1, groups, text => do
      let ((first, groups), rest) ← sequenced bound groups text
      match rest with
      | '|' :: rest =>
          let ((second, groups), rest) ← alternatives bound groups rest
          return ((.either first second, groups), rest)
      | rest => return ((first, groups), rest)

/-- Parts one after the other, up to the end of an alternative. -/
def sequenced : Nat → Groups → Text → Attempt ((Pattern × Groups) × Text)
  | 0, groups, text => .ok ((.empty, groups), text)
  | bound + 1, groups, text =>
      match text with
      | [] | '|' :: _ | ')' :: _ => .ok ((.empty, groups), text)
      | _ => do
          let ((first, groups), rest) ← single bound groups text
          let (first, rest) ← withRepetitions (rest.length + 1) first rest
          let ((second, groups), rest) ← sequenced bound groups rest
          return ((.sequence first second, groups), rest)

/-- A single part: a character, a set, an anchor or a group. -/
def single : Nat → Groups → Text → Attempt ((Pattern × Groups) × Text)
  | 0, groups, text => .ok ((.empty, groups), text)
  | bound + 1, groups, text =>
      match text with
      | '(' :: _ => do
          let ((index, groups), rest) ← groupStart groups text
          let ((body, groups), rest) ← alternatives bound groups rest
          match rest with
          | ')' :: rest => return ((index.elim body (Pattern.group · body), groups), rest)
          | _ => throw ⟨.unclosedGroup, text.length, 1⟩
      | '[' :: _ => do
          let (found, rest) ← set (2 * text.length) text
          return ((.one found, groups), rest)
      | '\\' :: _ => do
          match ← escape text with
          | (.inl found, rest) => return ((.one found, groups), rest)
          | (.inr edge, rest) => return ((edge, groups), rest)
      | '.' :: rest => .ok ((.one .any, groups), rest)
      | '^' :: rest => .ok ((.start, groups), rest)
      | '$' :: rest => .ok ((.stop, groups), rest)
      | [] | '*' :: _ | '+' :: _ | '?' :: _ | '{' :: _ => .error ⟨.missingOperand, text.length, 0⟩
      | c :: rest => .ok ((.one (.single c), groups), rest)

end

def ofText (text : Text) : Except PatternFault NamedPattern := do
  let ((pattern, groups), rest) ← alternatives (3 * text.length + 3) {} text
  if rest.isEmpty then return ⟨pattern, groups.names⟩
  else throw ⟨.unopenedGroup, rest.length, 1⟩

end Pattern

end JinjaLayout
