import JinjaLayout.Grammar.Expression
import JinjaLayout.Grammar.Tag

namespace JinjaLayout.Grammar

/-- The statements read so far, and the text and expressions that will make up the next output. -/
structure Body where
  done : List Stmt := []
  pending : List Expr := []
  line : Nat := 0

namespace Body

/-- Adds to the pending output. -/
def push (body : Body) (line : Nat) (expr : Expr) : Body :=
  { body with
    pending := body.pending ++ [expr]
    line := if body.pending.isEmpty then line else body.line }

def flush (body : Body) : List Stmt :=
  if body.pending.isEmpty then body.done
  else body.done ++ [.output body.pending (.onLine body.line)]

end Body

/-- Statements, text and expressions up to the first of the end tags or the end of the template. -/
def body (inner : Inner) (ends : List Text) : Production (List Stmt) :=
  repeating (fun (body : Body) => do
    let lexeme ← current
    match lexeme.kind with
    | .data =>
        let _ ← next
        return .inl (body.push lexeme.line (.data lexeme.value (.onLine lexeme.line)))
    | .variableBegin =>
        let _ ← next
        let expr ← tuple inner.condition [] false
        let _ ← expectKind .variableEnd
        return .inl (body.push lexeme.line expr)
    | .blockBegin =>
        let _ ← next
        if ends.any (← current).isName then return .inr body.flush
        else
          let stmt ← inner.statement
          let _ ← expectKind .blockEnd
          return .inl { done := body.flush ++ [stmt] }
    | .eof => return .inr body.flush
    | _ => fail lexeme.line (.unexpectedToken lexeme.describe)) {}

/-- The end of a block tag and the statements after it, up to the word of one of the end tags. -/
def bodyUntil (inner : Inner) (ends : List Text) : Production (List Stmt) := do
  let _ ← skipOperator ":"
  let _ ← expectKind .blockEnd
  let stmts ← body inner ends
  if ← atKind .eof then fail (← currentLine) (.unclosedBody (ends.map Text.asString))
  else return stmts

/-- The end of a block tag and the statements after it, with the word of the end tag. -/
def bodyThrough (inner : Inner) (stop : Text) : Production (List Stmt) := do
  let stmts ← bodyUntil inner [stop]
  let _ ← next
  return stmts

/-- Fails unless the expression may stand left of an assignment. -/
def assignable (line : Nat) (target : Expr) : Production Expr :=
  if target.isAssignable then return target
  else fail line (.notAssignable target.kind.toLower)

def target (inner : Inner) (stops : List Text) : Production Expr := do
  let line ← currentLine
  assignable line ((← tuple (primary inner) stops false).withContext .store)

/-- The target of an assignment, which may be a member of a namespace. -/
def setTarget (inner : Inner) : Production Expr := do
  if (← following).isOperator "." then
    let name ← expectName
    let _ ← next
    let key ← expectName
    return .member name.value key.value (.onLine name.line)
  else target inner []

def parameter : Production Expr := do
  let name ← expectName
  let expr ← assignable name.line (.name name.value .store (.onLine name.line))
  return expr.withContext .param

/-- Parameters in parentheses and the defaults of the last ones. -/
def signature (inner : Inner) : Production (List Expr × List Expr) := do
  let _ ← expectOperator "("
  let result ← repeating (fun ((parameters, defaults) : List Expr × List Expr) => do
    if ← atOperator ")" then return .inr (parameters, defaults)
    if !parameters.isEmpty then
      let _ ← expectOperator ","
    let name ← parameter
    if ← skipOperator "=" then
      return .inl (parameters ++ [name], defaults ++ [← inner.condition])
    else if defaults.isEmpty then return .inl (parameters ++ [name], defaults)
    else fail (← currentLine) .requiredAfterDefault) ([], [])
  let _ ← expectOperator ")"
  return result

def loop (inner : Inner) : Production Stmt := do
  let line := (← expectWord "for").line
  let target ← target inner ["in".toList]
  let _ ← expectWord "in"
  let iterable ← tuple inner.disjunction ["recursive".toList] false
  let test ← whenever (skipName "if") inner.condition
  let nested ← skipName "recursive"
  let stmts ← bodyUntil inner ["endfor".toList, "else".toList]
  let orElse ←
    if (← next).value = "endfor".toList then pure [] else bodyThrough inner "endfor"
  return .loop target iterable stmts orElse test nested (.onLine line)

def branchEnds : List Text :=
  ["elif".toList, "else".toList, "endif".toList]

def guarded (inner : Inner) : Production (Expr × List Stmt) := do
  let test ← tuple inner.disjunction [] false
  let stmts ← bodyUntil inner branchEnds
  return (test, stmts)

def branch (inner : Inner) : Production Stmt := do
  let line := (← expectWord "if").line
  let (test, stmts) ← guarded inner
  repeating (fun (others : List Branch) => do
    let lexeme ← next
    if lexeme.isName "elif" then
      let (test, stmts) ← guarded inner
      return .inl (others ++ [.mk test stmts [] [] (.onLine lexeme.line)])
    else if lexeme.isName "else" then
      let orElse ← bodyThrough inner "endif"
      return .inr (.branch (.mk test stmts others orElse (.onLine line)))
    else return .inr (.branch (.mk test stmts others [] (.onLine line)))) []

/-- Local assignments and the statements they hold for. -/
def binding (inner : Inner) : Production Stmt := do
  let line := (← expectWord "with").line
  let (targets, values) ← repeating (fun ((targets, values) : List Expr × List Expr) => do
    if ← atKind .blockEnd then return .inr (targets, values)
    if !targets.isEmpty then
      let _ ← expectOperator ","
    let name ← target inner []
    let _ ← expectOperator "="
    return .inl (targets ++ [name.withContext .param], values ++ [← inner.condition])) ([], [])
  return .bind targets values (← bodyThrough inner "endwith") (.onLine line)

/-- Statements with another setting for escaping. -/
def autoescape (inner : Inner) : Production Stmt := do
  let line := (← next).line
  let value ← inner.condition
  let stmts ← bodyThrough inner "endautoescape"
  let option : Keyword Expr := { key := "autoescape", value, layout := .onLine line }
  return .scope [.autoescape [option] stmts (.onLine line)] (.onLine line)

def block (inner : Inner) : Production Stmt := do
  let line := (← next).line
  let name := (← expectName).value
  let isScoped ← skipName "scoped"
  let isRequired ← skipName "required"
  if ← atOperator "-" then fail (← currentLine) .hyphenatedBlockName
  else
    let stmts ← bodyThrough inner "endblock"
    return .block name stmts isScoped isRequired (← skipName name) (.onLine line)

/-- The inherited template. -/
def extend (inner : Inner) : Production Stmt := do
  let line := (← next).line
  return .extend (← inner.condition) (.onLine line)

/-- Whether another template gets the variables, if that is said. -/
def contextChoice : Production (Option Bool) := do
  if (← atNames "with" "context") || (← atNames "without" "context") then
    let word := (← next).value
    let _ ← next
    return some (word == "with".toList)
  else return none

/-- A template put in here. -/
def insertion (inner : Inner) : Production Stmt := do
  let line := (← next).line
  let template ← inner.condition
  let ignoreMissing ← atNames "ignore" "missing"
  if ignoreMissing then
    let _ ← next
    let _ ← next
  return .insert template ignoreMissing (← contextChoice) (.onLine line)

def importAs (inner : Inner) : Production Stmt := do
  let line := (← next).line
  let template ← inner.condition
  let _ ← expectWord "as"
  let target := (← expectName).value
  return .importAs template target (← contextChoice) (.onLine line)

def importedName : Production ImportedName := do
  let name ← next
  if name.value.head? = some '_' then fail name.line .underscoredImport
  else
    let newName ← whenever (skipName "as") expectName
    return { name := name.value, newName := newName.map Lexeme.value }

def importNames (inner : Inner) : Production Stmt := do
  let line := (← next).line
  let template ← inner.condition
  let _ ← expectWord "import"
  repeating (fun (names : List ImportedName) => do
    if !names.isEmpty then
      let _ ← expectOperator ","
    if !(← atKind .name) then mismatch "'name'"
    else match ← contextChoice with
      | some choice => return .inr (.importNames template names (some choice) (.onLine line))
      | none =>
          let names := names ++ [← importedName]
          match ← contextChoice with
          | some choice => return .inr (.importNames template names (some choice) (.onLine line))
          | none =>
              if ← atOperator "," then return .inl names
              else return .inr (.importNames template names none (.onLine line))) []

def callBlock (inner : Inner) : Production Stmt := do
  let line := (← next).line
  let (parameters, defaults) ← if ← atOperator "(" then signature inner else pure ([], [])
  let call ← inner.condition
  if call.isCall then
    return .callBlock call parameters defaults (← bodyThrough inner "endcall") (.onLine line)
  else fail line .callExpected

def filterBlock (inner : Inner) : Production Stmt := do
  let line := (← next).line
  let filter ← filterChain inner (← filterLink inner none)
  return .filterBlock filter (← bodyThrough inner "endfilter") (.onLine line)

def macroBlock (inner : Inner) : Production Stmt := do
  let line := (← next).line
  let name := (← expectName).value
  let (parameters, defaults) ← signature inner
  return .macroBlock name parameters defaults (← bodyThrough inner "endmacro") (.onLine line)

def printing (inner : Inner) : Production Stmt := do
  let line := (← next).line
  let nodes ← repeating (fun (nodes : List Expr) => do
    if ← atKind .blockEnd then return .inr nodes
    if !nodes.isEmpty then
      let _ ← expectOperator ","
    return .inl (nodes ++ [← inner.condition])) []
  return .print nodes (.onLine line)

def assignment (inner : Inner) : Production Stmt := do
  let line := (← next).line
  let target ← setTarget inner
  if ← skipOperator "=" then
    return .assign target (← tuple inner.condition [] false) (.onLine line)
  else
    let filter ← whenever (skipOperator "|") (filterLink inner none >>= filterChain inner)
    return .capture target filter (← bodyThrough inner "endset") (.onLine line)

/-- The statement of a tag, whose word is the current lexeme. -/
def tagged (inner : Inner) : Tag → Production Stmt
  | .loop => loop inner
  | .branch => branch inner
  | .block => block inner
  | .extend => extend inner
  | .print => printing inner
  | .macroBlock => macroBlock inner
  | .insert => insertion inner
  | .importNames => importNames inner
  | .importAs => importAs inner
  | .set => assignment inner
  | .bind => binding inner
  | .autoescape => autoescape inner
  | .callBlock => callBlock inner
  | .filterBlock => filterBlock inner
  | .perform => do
      let line := (← next).line
      return .perform (← tuple inner.condition [] false) (.onLine line)
  | .skip => do return .skip (.onLine (← next).line)
  | .leave => do return .leave (.onLine (← next).line)

def statement (inner : Inner) : Production Stmt := do
  let lexeme ← current
  if lexeme.kind = .name then
    match Tag.ofWord? lexeme.value with
    | some tag => tagged inner tag
    | none => fail lexeme.line (.unknownTag lexeme.value)
  else fail lexeme.line .tagNameExpected

/-- The productions that may go the given number of levels deeper. -/
def nested : Nat → Inner
  | 0 =>
      let refuse {α : Type} : Production α := do fail (← currentLine) .nestingExceeded
      ⟨refuse, refuse, refuse, refuse, refuse⟩
  | levels + 1 =>
      let inner := nested levels
      ⟨condition inner, disjunction inner, negation inner, signed inner, statement inner⟩

def template (lexemes : List Lexeme) : Except SyntaxError Template :=
  (body (nested nestingLimit) []).run (.ofLexemes lexemes) |>.map fun (stmts, _) =>
    { body := stmts, layout := .onLine 1 }

end JinjaLayout.Grammar
