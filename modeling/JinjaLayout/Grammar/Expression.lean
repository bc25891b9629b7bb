import JinjaLayout.Grammar.Production
import JinjaLayout.Number.Integer

/-!
Expressions. From the loosest to the tightest binding: conditions, `or`, `and`, `not`, comparisons,
sums, concatenations, products, powers, filters and tests, signs, and what follows an operand.
-/

namespace JinjaLayout.Grammar

def integerConstant (lexeme : Lexeme) : Production Constant :=
  match Number.integer? lexeme.value with
  | some value => return .int value
  | none => fail lexeme.line .integerOutOfRange

def floatConstant (lexeme : Lexeme) : Production Constant :=
  match Double.read? lexeme.value with
  | some value => return .float value
  | none => fail lexeme.line .invalidFloat

def namedConstant? (word : Text) : Option Constant :=
  if word = "true".toList ∨ word = "True".toList then some (.bool true)
  else if word = "false".toList ∨ word = "False".toList then some (.bool false)
  else if word = "none".toList ∨ word = "None".toList then some .none
  else none

def adjacentStrings (text : Text) : Production Text :=
  repeating (fun text => do
    if ← atKind .string then return .inl (text ++ (← next).value) else return .inr text) text

def atListEnd (stops : List Text) : Production Bool := do
  let lexeme ← current
  return lexeme.kind == .variableEnd || lexeme.kind == .blockEnd || lexeme.isOperator ")" ||
    stops.any lexeme.isName

/-- Expressions separated by commas: a tuple if there is a comma, else the expression. No expression
at all is an empty tuple where that is allowed. -/
def tuple (item : Production Expr) (stops : List Text) (mayBeEmpty : Bool) : Production Expr := do
  let line ← currentLine
  let (items, isTuple) ← repeating (fun (items : List Expr) => do
    let continued := !items.isEmpty
    if continued then
      let _ ← expectOperator ","
    if ← atListEnd stops then return .inr (items, continued)
    let items := items ++ [← item]
    if ← atOperator "," then return .inl items else return .inr (items, continued)) []
  match isTuple, items with
  | false, [item] => return item
  | false, [] =>
      if mayBeEmpty then return .tuple [] .load (.onLine line)
      else do
        let lexeme ← current
        fail lexeme.line (.expressionExpected lexeme.describe)
  | _, items => return .tuple items .load (.onLine line)

/-- Items separated by commas up to a closing bracket; a comma may follow the last one. -/
def bracketed {α : Type} (item : Production α) (closer : Text) : Production (List α) := do
  let items ← repeating (fun (items : List α) => do
    if ← atOperator closer then return .inr items
    if !items.isEmpty then
      let _ ← expectOperator ","
    if ← atOperator closer then return .inr items
    return .inl (items ++ [← item])) []
  let _ ← expectOperator closer
  return items

def listDisplay (inner : Inner) : Production Expr := do
  let line := (← expectOperator "[").line
  return .list (← bracketed inner.condition "]") (.onLine line)

def entry (inner : Inner) : Production (Entry Expr) := do
  let line ← currentLine
  let key ← inner.condition
  let _ ← expectOperator ":"
  let value ← inner.condition
  return { key, value, layout := .onLine line }

def dictDisplay (inner : Inner) : Production Expr := do
  let line := (← expectOperator ['{']).line
  return .dict (← bracketed (entry inner) ['}']) (.onLine line)

def parenthesized (inner : Inner) : Production Expr := do
  let _ ← expectOperator "("
  let expr ← tuple inner.condition [] true
  let _ ← expectOperator ")"
  return expr

/-- A name, a literal, a display or an expression in parentheses. -/
def primary (inner : Inner) : Production Expr := do
  let lexeme ← current
  let layout := Layout.onLine lexeme.line
  match lexeme.kind with
  | .name =>
      let _ ← next
      match namedConstant? lexeme.value with
      | some value => return .const value layout
      | none => return .name lexeme.value .load layout
  | .string =>
      let _ ← next
      return .const (.str (← adjacentStrings lexeme.value)) layout
  | .integer =>
      let _ ← next
      return .const (← integerConstant lexeme) layout
  | .float =>
      let _ ← next
      return .const (← floatConstant lexeme) layout
  | .operator =>
      if lexeme.value = "(".toList then parenthesized inner
      else if lexeme.value = "[".toList then listDisplay inner
      else if lexeme.value = ['{'] then dictDisplay inner
      else fail lexeme.line (.unexpectedToken lexeme.describe)
  | _ => fail lexeme.line (.unexpectedToken lexeme.describe)

def atAnyOperator (symbols : List Text) : Production Bool := do
  let lexeme ← current
  return symbols.any lexeme.isOperator

/-- The parts of a slice after its first colon. -/
def slice (inner : Inner) (line : Nat) (start : Option Expr) : Production Expr := do
  let stop ←
    whenever (do return !(← atAnyOperator ["]".toList, ",".toList, ":".toList])) inner.condition
  let step ←
    whenever (do
      if ← skipOperator ":" then return !(← atAnyOperator ["]".toList, ",".toList])
      else return false) inner.condition
  return .slice start stop step (.onLine line)

def subscript (inner : Inner) : Production Expr := do
  let line ← currentLine
  if ← skipOperator ":" then slice inner line none
  else
    let expr ← inner.condition
    if ← skipOperator ":" then slice inner line (some expr) else return expr

/-- What follows a point: an attribute or a number. -/
def member (operand : Expr) (line : Nat) : Production Expr := do
  let lexeme ← next
  match lexeme.kind with
  | .name => return .attr operand lexeme.value (.onLine line)
  | .integer =>
      let value ← integerConstant lexeme
      return .item operand (.const value (.onLine lexeme.line)) true (.onLine line)
  | _ => fail lexeme.line .nameOrNumberExpected

/-- Subscripts in brackets; several of them are a tuple. -/
def subscripts (inner : Inner) (operand : Expr) (line : Nat) : Production Expr := do
  let items ← repeating (fun (items : List Expr) => do
    if ← atOperator "]" then return .inr items
    if !items.isEmpty then
      let _ ← expectOperator ","
    return .inl (items ++ [← subscript inner])) []
  let _ ← expectOperator "]"
  match items with
  | [index] => return .item operand index false (.onLine line)
  | items => return .item operand (.tuple items .load (.onLine line)) false (.onLine line)

/-- One argument, put to the arguments before it. Positional arguments come first, an argument in
two stars last. -/
def argument (inner : Inner) (line : Nat) (arguments : Arguments Expr) :
    Production (Arguments Expr) := do
  if ← skipOperator "*" then
    if arguments.star.isSome || arguments.doubleStar.isSome then fail line .invalidCall
    else return { arguments with star := some (← inner.condition) }
  else if ← skipOperator "**" then
    if arguments.doubleStar.isSome then fail line .invalidCall
    else return { arguments with doubleStar := some (← inner.condition) }
  else if (← atKind .name) && (← following).isOperator "=" then
    if arguments.doubleStar.isSome then fail line .invalidCall
    else
      let key ← next
      let _ ← next
      let value ← inner.condition
      let keyword : Keyword Expr := { key := key.value, value, layout := .onLine key.line }
      return { arguments with keywords := arguments.keywords ++ [keyword] }
  else
    if arguments.star.isSome || arguments.doubleStar.isSome || !arguments.keywords.isEmpty then
      fail line .invalidCall
    else return { arguments with positional := arguments.positional ++ [← inner.condition] }

def callArguments (inner : Inner) : Production (Arguments Expr) := do
  let line := (← expectOperator "(").line
  let arguments ← repeating (fun ((arguments, started) : Arguments Expr × Bool) => do
    if ← atOperator ")" then return .inr arguments
    if started then
      let _ ← expectOperator ","
    if ← atOperator ")" then return .inr arguments
    return .inl (← argument inner line arguments, true)) ({}, false)
  let _ ← expectOperator ")"
  return arguments

/-- The arguments of a filter or a test, if there are parentheses. -/
def optionalArguments (inner : Inner) : Production (Arguments Expr) := do
  if ← atOperator "(" then callArguments inner else return {}

def call (inner : Inner) (operand : Expr) : Production Expr := do
  let line ← currentLine
  return .call operand (← callArguments inner) (.onLine line)

/-- The attributes, subscripts and calls that follow an operand. -/
def trailers (inner : Inner) (operand : Expr) : Production Expr :=
  repeating (fun operand => do
    let lexeme ← current
    if lexeme.isOperator "." then
      let _ ← next
      return .inl (← member operand lexeme.line)
    else if lexeme.isOperator "[" then
      let _ ← next
      return .inl (← subscripts inner operand lexeme.line)
    else if lexeme.isOperator "(" then return .inl (← call inner operand)
    else return .inr operand) operand

def dottedName : Production Text := do
  let first := (← expectName).value
  repeating (fun name => do
    if ← skipOperator "." then return .inl (name ++ '.' :: (← expectName).value)
    else return .inr name) first

def filterLink (inner : Inner) (operand : Option Expr) : Production Expr := do
  let line ← currentLine
  let name ← dottedName
  return .filter operand name (← optionalArguments inner) (.onLine line)

def filterChain (inner : Inner) (operand : Expr) : Production Expr :=
  repeating (fun operand => do
    if ← skipOperator "|" then return .inl (← filterLink inner (some operand))
    else return .inr operand) operand

def startsArgument (lexeme : Lexeme) : Bool :=
  match lexeme.kind with
  | .name =>
      !(["else".toList, "or".toList, "and".toList, "if".toList].contains lexeme.value)
  | .string | .integer | .float => true
  | .operator => lexeme.value == "[".toList || lexeme.value == ['{']
  | _ => false

/-- The arguments of a test: in parentheses, a single operand without them, or none. -/
def testArguments (inner : Inner) : Production (Arguments Expr) := do
  let lexeme ← current
  if lexeme.isOperator "(" then callArguments inner
  else if startsArgument lexeme then
    if lexeme.isName "is" then fail lexeme.line .chainedTests
    else return { positional := [← trailers inner (← primary inner)] }
  else return {}

def test (inner : Inner) (operand : Expr) : Production Expr := do
  let line := (← expectWord "is").line
  let negated ← skipName "not"
  let name ← dottedName
  let expr := Expr.test operand name (← testArguments inner) (.onLine line)
  return if negated then .unary .not expr true (.onLine line) else expr

def filtersAndTests (inner : Inner) (operand : Expr) : Production Expr :=
  repeating (fun operand => do
    if ← skipOperator "|" then return .inl (← filterLink inner (some operand))
    else if ← atName "is" then return .inl (← test inner operand)
    else if ← atOperator "(" then return .inl (← call inner operand)
    else return .inr operand) operand

def sign : Production (Option UnaryOp) := do
  if ← skipOperator "-" then return some .neg
  else if ← skipOperator "+" then return some .pos
  else return none

/-- An operand with an optional sign and what follows it, without filters. -/
def signed (inner : Inner) : Production Expr := do
  let line ← currentLine
  match ← sign with
  | some op => trailers inner (.unary op (← inner.signed) false (.onLine line))
  | none => trailers inner (← primary inner)

def filtered (inner : Inner) : Production Expr := do
  filtersAndTests inner (← signed inner)

def operatorAmong (operators : List BinaryOp) : Production (Option BinaryOp) := do
  let lexeme ← current
  match operators.find? fun op =>
      if op.isWord then lexeme.isName op.symbol else lexeme.isOperator op.symbol with
  | some op =>
      let _ ← next
      return some op
  | none => return none

/-- Operands with operators of one strength between them, grouped to the left. -/
def chain (operators : List BinaryOp) (operand : Production Expr) : Production Expr := do
  let line ← currentLine
  let first ← operand
  repeating (fun left => do
    match ← operatorAmong operators with
    | some op => return .inl (.binary op left (← operand) (.onLine line))
    | none => return .inr left) first

def power (inner : Inner) : Production Expr :=
  chain [.pow] (filtered inner)

def product (inner : Inner) : Production Expr :=
  chain [.mul, .div, .floorDiv, .mod] (power inner)

def concatenation (inner : Inner) : Production Expr := do
  let line ← currentLine
  let first ← product inner
  let others ← repeating (fun (others : List Expr) => do
    if ← skipOperator "~" then return .inl (others ++ [← product inner])
    else return .inr others) []
  return if others.isEmpty then first else .concat (first :: others) (.onLine line)

def sum (inner : Inner) : Production Expr :=
  chain [.add, .sub] (concatenation inner)

def compareOperator : Production (Option CompareOp) := do
  let lexeme ← current
  if lexeme.kind = .operator then
    match CompareOp.ofSymbol? lexeme.value with
    | some op =>
        let _ ← next
        return some op
    | none => return none
  else if ← skipName "in" then return some .mem
  else if ← atNames "not" "in" then
    let _ ← next
    let _ ← next
    return some .notMem
  else return none

def comparison (inner : Inner) : Production Expr := do
  let line ← currentLine
  let first ← sum inner
  let others ← repeating (fun (others : List (Operand Expr)) => do
    let operandLine ← currentLine
    match ← compareOperator with
    | some op =>
        let value ← sum inner
        return .inl (others ++ [{ op, value, layout := .onLine operandLine }])
    | none => return .inr others) []
  return if others.isEmpty then first else .compare first others (.onLine line)

def negation (inner : Inner) : Production Expr := do
  let line ← currentLine
  if ← skipName "not" then return .unary .not (← inner.negation) false (.onLine line)
  else comparison inner

def conjunction (inner : Inner) : Production Expr :=
  chain [.and] (negation inner)

def disjunction (inner : Inner) : Production Expr :=
  chain [.or] (conjunction inner)

def condition (inner : Inner) : Production Expr := do
  let line ← currentLine
  let first ← disjunction inner
  repeating (fun whenTrue => do
    if ← skipName "if" then
      let test ← disjunction inner
      let whenFalse ← whenever (skipName "else") inner.condition
      return .inl (.conditional test whenTrue whenFalse (.onLine line))
    else return .inr whenTrue) first

end JinjaLayout.Grammar
