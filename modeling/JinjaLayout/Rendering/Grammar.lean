import JinjaLayout.Rendering.Reading

/-!
The language of the sources that are rendered. A comparison may have several operands; a sign
belongs to what stands right behind it, before any attribute of that.
-/

namespace JinjaLayout.Rendering.Grammar

def depthLimit : Nat := 150

/-- What a production may call one level deeper: an expression, the first part of an expression and
a statement. -/
structure Inner where
  expression : Reading Expr
  primary : Reading Expr
  statement : Reading Stmt

def leftChain (operand : Reading Expr) (combine? : Atom → Option (Expr → Expr → Layout → Expr)) :
    Reading Expr := do
  let layout := Layout.onLine (← currentLine)
  let turn (left : Expr) : Reading (Expr ⊕ Expr) := do
    match (← current).bind combine? with
    | some combine =>
        let _ ← next
        return .inl (combine left (← operand) layout)
    | none => return .inr left
  repeating turn (← operand)

def binaryOp? (ops : List BinaryOp) : Atom → Option (Expr → Expr → Layout → Expr)
  | .symbol text | .name text => (ops.find? fun op => op.symbol == text).map Expr.binary
  | _ => none

/-- The items up to the closing symbol, commas between them and maybe behind them. -/
def itemsUntil {α : Type} (stop : Text) (item : Reading α) : Reading (List α) :=
  let turn (items : List α) : Reading (List α ⊕ List α) := do
    if ← skipSymbol stop then return .inr items.reverse
    unless items.isEmpty do
      expectSymbol ","
      if ← skipSymbol stop then return .inr items.reverse
    return .inl ((← item) :: items)
  repeating turn []

/-- Adds an argument; a keyword argument is written as a name and a value. -/
def withArgument (inner : Inner) (disjunction : Reading Expr) (arguments : Arguments Expr) :
    Reading (Arguments Expr) := do
  if ← skipSymbol "**" then
    return { arguments with doubleStar := some (← inner.expression) }
  else if ← skipSymbol "*" then
    return { arguments with star := some (← inner.expression) }
  else
    match ← inner.expression with
    | .name ident context layout =>
        if ← skipSymbol "=" then
          let value ← disjunction
          return { arguments with
            keywords := arguments.keywords ++ [{ key := ident, value, layout }] }
        else positional (.name ident context layout)
    | value => positional value
where
  positional (value : Expr) : Reading (Arguments Expr) := do
    unless arguments.keywords.isEmpty do fail "non-keyword arg after keyword arg"
    return { arguments with positional := arguments.positional ++ [value] }

def arguments (inner : Inner) (disjunction : Reading Expr) : Reading (Arguments Expr) := do
  expectSymbol "("
  let turn (found : Arguments Expr) : Reading (Arguments Expr ⊕ Arguments Expr) := do
    if ← skipSymbol ")" then return .inr found
    unless found.isEmpty do
      expectSymbol ","
      if ← skipSymbol ")" then return .inr found
    return .inl (← withArgument inner disjunction found)
  repeating turn {}

/-- An index or a slice, behind the opening bracket. -/
def subscript (inner : Inner) (operand : Expr) (layout : Layout) : Reading Expr := do
  let isOpen : Reading Bool := do return !(← atSymbol ":") && !(← atSymbol "]")
  let start ← whenever (do return !(← atSymbol ":")) inner.expression
  if ← skipSymbol ":" then
    let stop ← whenever isOpen inner.expression
    let step ← whenever (do return (← skipSymbol ":") && !(← atSymbol "]")) inner.expression
    expectSymbol "]"
    return .item operand (.slice start stop step layout) false layout
  else
    expectSymbol "]"
    match start with
    | some index => return .item operand index false layout
    | none => fail "empty subscript"

/-- The attributes, indices and calls behind an expression. -/
def postfixed (inner : Inner) (disjunction : Reading Expr) (layout : Layout) (operand : Expr) :
    Reading Expr :=
  let turn (operand : Expr) : Reading (Expr ⊕ Expr) := do
    if ← skipSymbol "." then return .inl (.attr operand (← expectName) layout)
    else if ← skipSymbol "[" then return .inl (← subscript inner operand layout)
    else if ← atSymbol "(" then
      return .inl (.call operand (← arguments inner disjunction) layout)
    else return .inr operand
  repeating turn operand

def signed (inner : Inner) : Reading Expr :=
  recursively fun again => do
    let layout := Layout.onLine (← currentLine)
    if ← skipSymbol "-" then return .unary .neg (← again) false layout else inner.primary

/-- A first part with its signs and what stands behind it. -/
def operand (inner : Inner) (disjunction : Reading Expr) : Reading Expr := do
  let layout := Layout.onLine (← currentLine)
  postfixed inner disjunction layout (← signed inner)

/-- Whether an atom starts the argument of a test that stands without parentheses. -/
def startsArgument : Atom → Bool
  | .name ident =>
      !(["and".toList, "or".toList, "else".toList, "is".toList, "if".toList].contains ident)
  | .str _ | .int _ | .float _ => true
  | .symbol text => ["+".toList, "-".toList, "[".toList, ['{']].contains text
  | _ => false

def testArguments (inner : Inner) (disjunction : Reading Expr) : Reading (Arguments Expr) := do
  if ← atSymbol "(" then arguments inner disjunction
  else if (← current).any startsArgument then
    return { positional := [← operand inner disjunction] }
  else return {}

/-- The filters and tests behind an expression. -/
def filtering (inner : Inner) (disjunction : Reading Expr) : Reading Expr := do
  let layout := Layout.onLine (← currentLine)
  let turn (value : Expr) : Reading (Expr ⊕ Expr) := do
    if ← skipSymbol "|" then
      let name ← expectName
      let found ← whenever (atSymbol "(") (arguments inner disjunction)
      return .inl (.filter (some value) name (found.getD {}) layout)
    else if ← skipName "is" then
      let isNegated ← skipName "not"
      let name ← expectName
      let test := Expr.test value name (← testArguments inner disjunction) layout
      return .inl (if isNegated then .unary .not test true layout else test)
    else return .inr value
  repeating turn (← operand inner disjunction)

def comparison? : Reading (Option CompareOp) := do
  match ← current with
  | some (.symbol text) =>
      match CompareOp.ofSymbol? text with
      | some op =>
          let _ ← next
          return some op
      | none => return none
  | some (.name ident) =>
      if ident = "in".toList then
        let _ ← next
        return some .mem
      else if ident = "not".toList then
        let _ ← next
        expect (.name "in") "in"
        return some .notMem
      else return none
  | _ => return none

/-- Sums, joined texts, products and powers, each of operands of the next kind. -/
def sum (inner : Inner) (disjunction : Reading Expr) : Reading Expr :=
  let power := leftChain (filtering inner disjunction) (binaryOp? [.pow])
  let product := leftChain power (binaryOp? [.mul, .div, .floorDiv, .mod])
  let joined := leftChain product fun atom =>
    if atom = .symbol "~" then some fun left right => .concat [left, right] else none
  leftChain joined (binaryOp? [.add, .sub])

def comparisons (inner : Inner) (disjunction : Reading Expr) : Reading Expr := do
  let layout := Layout.onLine (← currentLine)
  let first ← sum inner disjunction
  let turn (others : List (Operand Expr)) :
      Reading (List (Operand Expr) ⊕ List (Operand Expr)) := do
    match ← comparison? with
    | some op =>
        return .inl (others ++ [{ op, value := ← sum inner disjunction }])
    | none => return .inr others
  let others ← repeating turn []
  return if others.isEmpty then first else .compare first others layout

def negation (inner : Inner) (disjunction : Reading Expr) : Reading Expr :=
  recursively fun again => do
    let layout := Layout.onLine (← currentLine)
    if ← skipName "not" then return .unary .not (← again) false layout
    else comparisons inner disjunction

/-- Alternatives of conjunctions. -/
def disjunction (inner : Inner) : Reading Expr :=
  recursively fun again =>
    leftChain (leftChain (negation inner again) (binaryOp? [.and])) (binaryOp? [.or])

def condition (inner : Inner) : Reading Expr :=
  recursively fun again => do
    let layout := Layout.onLine (← currentLine)
    let turn (value : Expr) : Reading (Expr ⊕ Expr) := do
      if ← skipName "if" then
        let test ← disjunction inner
        let otherwise ← whenever (skipName "else") again
        return .inl (.conditional test value otherwise layout)
      else return .inr value
    repeating turn (← disjunction inner)

/-- What a name stands for: a constant or a variable. -/
def named (ident : Text) (layout : Layout) : Expr :=
  if ident = "true".toList ∨ ident = "True".toList then .const (.bool true) layout
  else if ident = "false".toList ∨ ident = "False".toList then .const (.bool false) layout
  else if ident = "none".toList ∨ ident = "None".toList then .const .none layout
  else .name ident .load layout

/-- What stands between parentheses, behind the opening one: an expression or several items. -/
def parenthesized (inner : Inner) (layout : Layout) : Reading Expr := do
  if ← skipSymbol ")" then return .list [] layout
  let first ← inner.expression
  if ← atSymbol "," then
    let turn (items : List Expr) : Reading (List Expr ⊕ List Expr) := do
      if ← skipSymbol ")" then return .inr items.reverse
      expectSymbol ","
      if ← skipSymbol ")" then return .inr items.reverse
      return .inl ((← inner.expression) :: items)
    return .list (← repeating turn [first]) layout
  else
    expectSymbol ")"
    return first

def entry (inner : Inner) : Reading (Entry Expr) := do
  let key ← inner.expression
  expectSymbol ":"
  return { key, value := ← inner.expression }

/-- The first part of an expression: a literal, a name or something in brackets. -/
def primary (inner : Inner) : Reading Expr := do
  let atom ← next
  let layout := Layout.onLine (← get).line
  match atom with
  | none => fail "unexpected end of input, expected expression"
  | some (.name ident) => return named ident layout
  | some (.str value) => return .const (.str value) layout
  | some (.int value) => return .const (.int value) layout
  | some (.float value) => return .const (.float value) layout
  | some (.symbol ['(']) => parenthesized inner layout
  | some (.symbol ['[']) => return .list (← itemsUntil "]" inner.expression) layout
  | some (.symbol ['{']) => return .dict (← itemsUntil ['}'] (entry inner)) layout
  | some atom => fail ("unexpected " ++ atom.words)

/-- The names that nothing can be assigned to. -/
def reservedNames : List Text :=
  ["true".toList, "True".toList, "false".toList, "False".toList, "none".toList, "None".toList,
    "loop".toList, "self".toList]

def targetName : Reading Expr := do
  let ident ← expectName
  if reservedNames.contains ident then
    fail ("cannot assign to reserved variable name " ++ ident.asString)
  return .name ident .store (.onLine (← get).line)

/-- What a loop assigns its items to: a name, or several targets. -/
def target : Reading Expr :=
  recursively fun again => do
    let layout := Layout.onLine (← currentLine)
    let one : Reading Expr := do
      if ← skipSymbol "(" then
        let inside ← again
        expectSymbol ")"
        return inside
      else targetName
    let stops : Atom → Bool := fun atom =>
      [.symbol ")", .valueEnd, .blockEnd, .name "in"].contains atom
    let turn (items : List Expr) : Reading (List Expr ⊕ List Expr) := do
      unless items.isEmpty do expectSymbol ","
      if (← current).any stops then return .inr items.reverse
      let items := (← one) :: items
      if ← atSymbol "," then return .inl items else return .inr items.reverse
    if (← current).any stops then return .tuple [] .store layout
    let first ← one
    if ← atSymbol "," then return .tuple (← repeating turn [first]) .store layout
    else return first

/-- The statements up to one of the given words or the end of the source. -/
def body (inner : Inner) (stops : List Text) : Reading (List Stmt) :=
  let turn (stmts : List Stmt) : Reading (List Stmt ⊕ List Stmt) := do
    let atom ← next
    let layout := Layout.onLine (← get).line
    match atom with
    | none => return .inr stmts.reverse
    | some (.data text) => return .inl (.output [.data text layout] layout :: stmts)
    | some .valueStart =>
        let value ← inner.expression
        expect .valueEnd Atom.valueEnd.words
        return .inl (.output [value] layout :: stmts)
    | some _ =>
        match ← current with
        | none => fail "unexpected end of input, expected keyword"
        | some (.name word) =>
            if stops.contains word then return .inr stmts.reverse
        | some _ => pure ()
        let stmt ← inner.statement
        expect .blockEnd Atom.blockEnd.words
        return .inl (stmt :: stmts)
  repeating turn []

/-- A branch on a test with its further branches, behind its first word. -/
def branch (inner : Inner) : Reading Branch :=
  recursively fun again => do
    let layout := Layout.onLine (← get).line
    let test ← inner.expression
    expect .blockEnd Atom.blockEnd.words
    let stmts ← body inner ["endif", "else", "elif"]
    match ← next with
    | some (.name ['e', 'l', 's', 'e']) =>
        expect .blockEnd Atom.blockEnd.words
        let orElse ← body inner ["endif"]
        let _ ← next
        return .mk test stmts [] orElse layout
    | some (.name ['e', 'l', 'i', 'f']) => return .mk test stmts [← again] [] layout
    | _ => return .mk test stmts [] [] layout

def loop (inner : Inner) : Reading Stmt := do
  let layout := Layout.onLine (← get).line
  let wasInLoop := (← get).inLoop
  modify fun stream => { stream with inLoop := true }
  let target ← target
  expect (.name "in") "in"
  let iterable ← disjunction inner
  let test ← whenever (skipName "if") inner.expression
  let isNested ← skipName "recursive"
  expect .blockEnd Atom.blockEnd.words
  let stmts ← body inner ["endfor", "else"]
  let orElse ← whenever (skipName "else") do
    expect .blockEnd Atom.blockEnd.words
    body inner ["endfor"]
  let _ ← next
  modify fun stream => { stream with inLoop := wasInLoop }
  return .loop target iterable stmts (orElse.getD []) test isNested layout

/-- A statement that ends a round of the loop around it. -/
def insideLoop (word : String) (stmt : Stmt) : Reading Stmt := do
  if (← get).inLoop then return stmt else fail ("'" ++ word ++ "' must be placed inside a loop")

def unrenderedWords : List String :=
  ["with", "set", "autoescape", "filter", "block", "extends", "include", "import", "from", "macro",
    "call", "do"]

def statement (inner : Inner) : Reading Stmt := do
  match ← next with
  | none => fail "unexpected end of input, expected block keyword"
  | some (.name word) =>
      let line := (← get).line
      match word.asString with
      | "for" => loop inner
      | "if" => return .branch (← branch inner)
      | "continue" => insideLoop "continue" (.skip (.onLine line))
      | "break" => insideLoop "break" (.leave (.onLine line))
      | word =>
          if unrenderedWords.contains word then throw (.unrendered line)
          else fail ("unknown statement " ++ word)
  | some atom => fail ("unexpected " ++ atom.words ++ ", expected statement")

/-- What can be read with the given number of levels to go. -/
def within : Nat → Inner
  | 0 => ⟨tooDeep, tooDeep, tooDeep⟩
  | levels + 1 =>
      let deeper := within levels
      ⟨condition deeper, primary deeper, statement deeper⟩

def parse (env : Environment) (source : Text) : Except RenderFault (List Stmt) := do
  let scanned := scanSource env source
  let (stmts, _) ← (body (within depthLimit) []).run ⟨scanned.atoms, scanned.fault, 0, false⟩
  return stmts

end JinjaLayout.Rendering.Grammar
