import JinjaLayout.Tree.Basic

/-!
Productions read a stream of lexemes. Their loops are bounded by the number of lexemes that are
left: a loop whose every turn reads something never reaches the bound.
-/

namespace JinjaLayout.Grammar

/-- Lexemes to be read: the current one and those after it. -/
structure Stream where
  head : Lexeme
  tail : List Lexeme

namespace Stream

/-- What follows a lexeme, up to the end of the template, which is added if it is missing. -/
def closed (last : Lexeme) : List Lexeme → List Lexeme
  | [] => if last.kind = .eof then [] else [⟨last.line, .eof, []⟩]
  | lexeme :: rest => lexeme :: closed lexeme rest

def ofLexemes : List Lexeme → Stream
  | [] => ⟨⟨1, .eof, []⟩, []⟩
  | first :: rest => ⟨first, closed first rest⟩

/-- The stream after its current lexeme; the end of the template is never passed. -/
def advance (stream : Stream) : Stream :=
  if stream.head.kind = .eof then stream
  else match stream.tail with
    | [] => stream
    | head :: tail => ⟨head, tail⟩

/-- The lexeme after the current one, or the current one if it is the last. -/
def following (stream : Stream) : Lexeme :=
  stream.tail.head?.getD stream.head

def lexemes (stream : Stream) : List Lexeme :=
  stream.head :: stream.tail

end Stream

abbrev Production := StateT Stream (Except SyntaxError)

def fail {α : Type} (line : Nat) (fault : SyntaxFault) : Production α :=
  throw ⟨line, fault⟩

def current : Production Lexeme := do
  return (← get).head

def following : Production Lexeme := do
  return (← get).following

def currentLine : Production Nat := do
  return (← current).line

def next : Production Lexeme := do
  let stream ← get
  set stream.advance
  return stream.head

def atKind (kind : TokenKind) : Production Bool := do
  return (← current).kind == kind

def atOperator (symbol : Text) : Production Bool := do
  return (← current).isOperator symbol

def atName (word : Text) : Production Bool := do
  return (← current).isName word

def atNames (first second : Text) : Production Bool := do
  return (← current).isName first && (← following).isName second

/-- Reads the given operator if it is the current lexeme, and tells whether it was. -/
def skipOperator (symbol : Text) : Production Bool := do
  if ← atOperator symbol then
    let _ ← next
    return true
  else return false

/-- Reads the given name if it is the current lexeme, and tells whether it was. -/
def skipName (word : Text) : Production Bool := do
  if ← atName word then
    let _ ← next
    return true
  else return false

def whenever {α : Type} (condition : Production Bool) (value : Production α) :
    Production (Option α) := do
  if ← condition then return some (← value) else return none

def mismatch {α : Type} (expected : String) : Production α := do
  let lexeme ← current
  if lexeme.kind = .eof then fail lexeme.line (.endedBefore expected)
  else fail lexeme.line (.expectedToken expected lexeme.describe)

/-- Reads a lexeme that satisfies `accept`, or fails with what was expected. -/
def expect (accept : Lexeme → Bool) (expected : String) : Production Lexeme := do
  if accept (← current) then next else mismatch ("'" ++ expected ++ "'")

def expectKind (kind : TokenKind) : Production Lexeme :=
  expect (fun lexeme => lexeme.kind == kind) (Lexeme.wording kind [])

def expectOperator (symbol : Text) : Production Lexeme :=
  expect (fun lexeme => lexeme.isOperator symbol) symbol.asString

def expectWord (word : Text) : Production Lexeme :=
  expect (fun lexeme => lexeme.isName word) word.asString

def expectName : Production Lexeme :=
  expect (fun lexeme => lexeme.kind == .name) "name"

/-- Takes turns until one of them gives a result, at most one for each lexeme of the bound. -/
def iterate {α β : Type} (turn : α → Production (α ⊕ β)) : List Lexeme → α → Production β
  | [], _ => do fail (← currentLine) .stalled
  | _ :: bound, state => do
      match ← turn state with
      | .inl state => iterate turn bound state
      | .inr result => return result

/-- Takes turns until one of them gives a result. -/
def repeating {α β : Type} (turn : α → Production (α ⊕ β)) (start : α) : Production β := do
  iterate turn (← get).lexemes start

/-- What a production may call one level deeper: an expression, an expression without a condition,
the operand of a negation or of a sign, and a statement. -/
structure Inner where
  condition : Production Expr
  disjunction : Production Expr
  negation : Production Expr
  signed : Production Expr
  statement : Production Stmt

end JinjaLayout.Grammar
