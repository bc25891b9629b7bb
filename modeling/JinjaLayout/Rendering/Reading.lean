import JinjaLayout.Rendering.Scan
import JinjaLayout.Tree.Basic

/-!
Productions that read the atoms of a source. A fault of the scanner shows only when a production
gets to it. The loops and the recursions that do not go deeper are bounded by the number of atoms
that are left.
-/

namespace JinjaLayout.Rendering.Grammar

/-- Atoms to be read, the fault behind them, the line of the last atom that was read and whether a
loop is being read. -/
structure Stream where
  atoms : List LocatedAtom
  fault : Option RenderFault
  line : Nat := 0
  inLoop : Bool := false

abbrev Reading := StateT Stream (Except RenderFault)

def fail {α : Type} (detail : String) : Reading α := do
  throw (malformed (← get).line detail)

def currentLocated : Reading (Option LocatedAtom) := do
  let stream ← get
  match stream.atoms, stream.fault with
  | located :: _, _ => return some located
  | [], some fault => throw (fault.onLine stream.line)
  | [], none => return none

def current : Reading (Option Atom) := do
  return (← currentLocated).map LocatedAtom.atom

def currentLine : Reading Nat := do
  let stream ← get
  return stream.atoms.head?.elim stream.line LocatedAtom.line

def next : Reading (Option Atom) := do
  match ← currentLocated with
  | some located =>
      modify fun stream => { stream with atoms := stream.atoms.drop 1, line := located.line }
      return some located.atom
  | none => return none

def at? (atom : Atom) : Reading Bool := do
  return (← current) == some atom

/-- Reads the given atom if it is the current one, and tells whether it was. -/
def skip (atom : Atom) : Reading Bool := do
  if ← at? atom then
    let _ ← next
    return true
  else return false

def atSymbol (symbol : Text) : Reading Bool :=
  at? (.symbol symbol)

/-- Reads the given symbol if it is the current atom, and tells whether it was. -/
def skipSymbol (symbol : Text) : Reading Bool :=
  skip (.symbol symbol)

/-- Reads the given name if it is the current atom, and tells whether it was. -/
def skipName (word : Text) : Reading Bool :=
  skip (.name word)

def expecting {α : Type} (accept : Atom → Option α) (expected : String) : Reading α := do
  match ← next with
  | some atom =>
      match accept atom with
      | some value => return value
      | none => fail ("unexpected " ++ atom.words ++ ", expected " ++ expected)
  | none => fail ("unexpected end of input, expected " ++ expected)

def expect (atom : Atom) (expected : String) : Reading Unit :=
  expecting (fun found => if found = atom then some () else none) expected

def expectSymbol (symbol : Text) : Reading Unit :=
  expect (.symbol symbol) (Atom.symbol symbol).words

def expectName : Reading Text :=
  expecting (fun | .name ident => some ident | _ => none) "identifier"

def whenever {α : Type} (condition : Reading Bool) (value : Reading α) : Reading (Option α) := do
  if ← condition then return some (← value) else return none

def tooDeep {α : Type} : Reading α :=
  fail "template exceeds maximum recursion limits"

/-- Takes turns until one of them gives a result, at most one for each atom of the bound. -/
def iterate {α β : Type} (turn : α → Reading (α ⊕ β)) : List LocatedAtom → α → Reading β
  | [], _ => tooDeep
  | _ :: bound, state => do
      match ← turn state with
      | .inl state => iterate turn bound state
      | .inr result => return result

/-- Takes turns until one of them gives a result. There may be one more turn than atoms. -/
def repeating {α β : Type} (turn : α → Reading (α ⊕ β)) (start : α) : Reading β := do
  iterate turn (⟨0, .blockEnd⟩ :: (← get).atoms) start

/-- A production that calls itself, at most once for each atom of the bound. -/
def unrolled {α : Type} (body : Reading α → Reading α) : List LocatedAtom → Reading α
  | [] => tooDeep
  | _ :: bound => fun stream => body (unrolled body bound) stream

/-- A production that calls itself. -/
def recursively {α : Type} (body : Reading α → Reading α) : Reading α := do
  unrolled body (⟨0, .blockEnd⟩ :: (← get).atoms)

end JinjaLayout.Rendering.Grammar
