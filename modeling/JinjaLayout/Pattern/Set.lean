import JinjaLayout.Pattern.Basic
import JinjaLayout.Pattern.Fault

/-!
The written form of the parts of a pattern that match one character: escapes and sets in brackets.
Sets may hold other sets, and two signs in a row combine what stands before and behind them.
-/

namespace JinjaLayout.Pattern

/-- Reading gives what stands at the start of a text and the text that is left, or fails. -/
abbrev Attempt := Except PatternFault

def escapedSet? (letter : Char) : Option CharSet :=
  match letter with
  | 'd' => some .digit
  | 'D' => some (.complement .digit)
  | 'w' => some .word
  | 'W' => some (.complement .word)
  | 's' => some .blank
  | 'S' => some (.complement .blank)
  | 'n' => some (.single '\n')
  | 't' => some (.single '\t')
  | 'r' => some (.single '\r')
  | 'f' => some (.single '\x0c')
  | 'v' => some (.single '\x0b')
  | 'a' => some (.single '\x07')
  | '<' | '>' => none
  | c => if c.toNat < 128 && !c.isAlphanum then some (.single c) else none

def escapedEdge? (letter : Char) : Option Pattern :=
  match letter with
  | 'A' => some .start
  | 'z' => some .stop
  | 'b' => some (.wordEdge true)
  | 'B' => some (.wordEdge false)
  | _ => none

def escape (text : Text) : Attempt ((CharSet ⊕ Pattern) × Text) :=
  match text.drop 1 with
  | [] => .error ⟨.incompleteEscape, text.length, 1⟩
  | letter :: rest =>
      match escapedSet? letter, escapedEdge? letter with
      | some set, _ => .ok (.inl set, rest)
      | none, some edge => .ok (.inr edge, rest)
      | none, none =>
          .error ⟨if letter.isDigit then .backreference else .unknownEscape, text.length, 2⟩

/-- The only character of a set, if it is written as a single one. -/
def character? : CharSet → Option Char
  | .range first last => if first = last then some first else none
  | _ => none

def asciiRange (first last : Nat) : CharSet :=
  .range (Char.ofNat first) (Char.ofNat last)

def namedSet? (name : Text) : Option CharSet :=
  let upper := asciiRange 0x41 0x5A
  let lower := asciiRange 0x61 0x7A
  let decimal := asciiRange 0x30 0x39
  match name.asString with
  | "alnum" => some (.union [decimal, upper, lower])
  | "alpha" => some (.union [upper, lower])
  | "ascii" => some (asciiRange 0 0x7F)
  | "blank" => some (.union [.single '\t', .single ' '])
  | "cntrl" => some (.union [asciiRange 0 0x1F, asciiRange 0x7F 0x7F])
  | "digit" => some decimal
  | "graph" => some (asciiRange 0x21 0x7E)
  | "lower" => some lower
  | "print" => some (asciiRange 0x20 0x7E)
  | "punct" =>
      some (.union [asciiRange 0x21 0x2F, asciiRange 0x3A 0x40, asciiRange 0x5B 0x60,
        asciiRange 0x7B 0x7E])
  | "space" => some (.union [asciiRange 9 13, .single ' '])
  | "upper" => some upper
  | "word" => some (.union [decimal, upper, lower, .single '_'])
  | "xdigit" => some (.union [decimal, asciiRange 0x41 0x46, asciiRange 0x61 0x66])
  | _ => none

def named? : Text → Option (CharSet × Text)
  | '[' :: ':' :: text =>
      let isNegated := text.head? == some '^'
      let text := if isNegated then text.drop 1 else text
      let name := text.takeWhile Char.isAlpha
      match namedSet? name, text.drop name.length with
      | some set, ':' :: ']' :: rest => some (if isNegated then .complement set else set, rest)
      | _, _ => none
  | _ => none

def member (text : Text) : Attempt (CharSet × Text) :=
  match text with
  | '\\' :: _ => do
      match ← escape text with
      | (.inl set, rest) => return (set, rest)
      | (.inr _, rest) => throw (.between .escapeInSet text rest)
  | c :: rest => .ok (.single c, rest)
  | [] => .error ⟨.unclosedSet, 0, 0⟩

/-- A member or a range of members. The first argument is the fault of the set that is not
closed. -/
def members (unclosed : PatternFault) (text : Text) : Attempt (CharSet × Text) := do
  let (first, rest) ← member text
  match rest with
  | [] | ['-'] => throw unclosed
  | '-' :: ']' :: _ | '-' :: '-' :: _ => return (first, rest)
  | '-' :: rest =>
      let (last, behind) ← member rest
      match character? first, character? last with
      | some low, some high =>
          if low ≤ high then return (.range low high, behind)
          else throw (.between .invalidRange text behind)
      | none, _ => throw (.between .rangeBoundary text ('-' :: rest))
      | _, none => throw (.between .rangeBoundary rest behind)
  | _ => return (first, rest)

def combination? : Text → Option ((CharSet → CharSet → CharSet) × Text)
  | '&' :: '&' :: rest => some (.intersection, rest)
  | '-' :: '-' :: rest => some (.difference, rest)
  | '~' :: '~' :: rest => some (.symmetricDifference, rest)
  | _ => none

/-- The start of a set: whether it is a complement, and the signs that stand for themselves
there. -/
def setStart (text : Text) : Attempt ((Bool × List CharSet) × Text) :=
  let inside := text.drop 1
  let isNegated := inside.head? == some '^'
  let inside := if isNegated then inside.drop 1 else inside
  let dashes := inside.takeWhile (· == '-')
  let behind := inside.drop dashes.length
  let (signs, rest) := match dashes, behind with
    | [], ']' :: rest => ([']'], rest)
    | _, _ => (dashes, behind)
  if rest.isEmpty then .error (.between .unclosedSet text (if dashes.isEmpty then rest else text))
  else .ok ((isNegated, signs.map CharSet.single), rest)

mutual

/-- A set from its opening bracket on. The first argument bounds the number of steps. -/
def set : Nat → Text → Attempt (CharSet × Text)
  | 0, text => .error ⟨.unclosedSet, text.length, 1⟩
  | bound + 1, text => do
      let ((isNegated, signs), rest) ← setStart text
      let (found, rest) ← setBody bound (.between .unclosedSet text rest) id signs rest
      return (if isNegated then .complement found else found, rest)

/-- The members of a set up to its closing bracket. The set before the last combining signs takes in
the union of the members behind them. -/
def setBody : Nat → PatternFault → (CharSet → CharSet) → List CharSet → Text →
    Attempt (CharSet × Text)
  | 0, unclosed, _, _, _ => .error unclosed
  | bound + 1, unclosed, combine, sets, text =>
      match combination? text, named? text, text with
      | _, _, [] => .error unclosed
      | _, _, ']' :: rest => .ok (combine (.union sets), rest)
      | some (combination, rest), _, _ =>
          setBody bound unclosed (combination (combine (.union sets))) [] rest
      | none, some (found, rest), _ => setBody bound unclosed combine (found :: sets) rest
      | none, none, '[' :: _ => do
          let (found, rest) ← set bound text
          setBody bound unclosed combine (found :: sets) rest
      | none, none, _ => do
          let (found, rest) ← members unclosed text
          setBody bound unclosed combine (found :: sets) rest

end

end JinjaLayout.Pattern
