import JinjaLayout.Alignment.Expression

namespace JinjaLayout.Alignment

/-- Annotates what stands one level deeper than a statement. -/
structure Visitors where
  expr : Expr → Walking Expr
  stmt : Stmt → Walking Stmt

namespace Visitors

def body (visit : Visitors) (stmts : List Stmt) : Walking (List Stmt) :=
  stmts.mapM visit.stmt

end Visitors

/-- The layout of a statement whose tokens end here. -/
def sealed (layout : Layout) (start : Nat) (pairs : List TagPair) : Walking Layout := do
  return { layout with span := some (start, ← position), pairs }

def single (layout : Layout) (tag : OpenTag) : Walking Layout := do
  let pair ← closeBlock tag
  sealed layout tag.start [pair]

/-- Closes a tag, annotates the statements after it and reads their end tag. -/
def enclosed (visit : Visitors) (layout : Layout) (tag : OpenTag) (stmts : List Stmt)
    (stop : Text) :
    Walking (List Stmt × Layout) := do
  let opening ← closeBlock tag
  let stmts ← visit.body stmts
  let closing ← keywordTag stop
  return (stmts, ← sealed layout tag.start [opening, closing])

def otherwise (visit : Visitors) (stmts : List Stmt) : Walking (List Stmt × List TagPair) := do
  if !stmts.isEmpty || (← nextIsTag "else") then
    let pair ← keywordTag "else"
    return (← visit.body stmts, [pair])
  else return ([], [])

/-- Reads whether another template gets the variables. -/
def contextChoice : Option Bool → Walking Unit
  | some true => expectNames ["with".toList, "context".toList]
  | some false => expectNames ["without".toList, "context".toList]
  | none => return ()

def parameter (visit : Visitors) (node : Expr × Option Expr) : Walking (Expr × Option Expr) := do
  let name ← visit.expr node.1
  let value ← node.2.mapM fun value => do
    expectOperator "="
    visit.expr value
  skipComma
  return (name, value)

/-- Annotates the parameters of a macro and their defaults. -/
def signature (visit : Visitors) (parameters defaults : List Expr) :
    Walking (List Expr × List Expr) := do
  expectOperator "("
  let nodes ← (withDefaults parameters defaults).mapM (parameter visit)
  expectOperator ")"
  return (nodes.map Prod.fst, nodes.filterMap Prod.snd ++ defaults.drop parameters.length)

/-- Annotates a piece of an output. Gives the index of its first token, and the pair around an
expression. -/
def outputNode (visit : Visitors) : Expr → Walking (Expr × Nat × Option TagPair)
  | .data text layout => do
      let (skipped, token) ← seek .data
      let start := (skipped.head?.getD token).index
      let layout :=
        { layout with leading := textOf skipped, span := some (start, token.index + 1) }
      return (.data text layout, start, none)
  | expr => do
      let tag ← openTag .variableBegin
      let expr ← visit.expr expr
      let pair ← closeTag tag .variableEnd
      return (expr, tag.start, some pair)

def output (visit : Visitors) (nodes : List Expr) (layout : Layout) : Walking Stmt := do
  let entry ← position
  let nodes ← nodes.mapM (outputNode visit)
  let start := (nodes.head?.map fun node => node.2.1).getD entry
  let layout ← sealed layout start (nodes.filterMap fun node => node.2.2)
  return .output (nodes.map Prod.fst) layout

def furtherBranch (visit : Visitors) : Branch → Walking (Branch × TagPair)
  | .mk test stmts others orElse layout => do
      let tag ← blockTag "elif"
      let test ← visit.expr test
      let pair ← closeBlock tag
      let stmts ← visit.body stmts
      return (.mk test stmts others orElse (← sealed layout tag.start [pair]), pair)

def branch (visit : Visitors) : Branch → Walking Branch
  | .mk test stmts others orElse layout => do
      let tag ← blockTag "if"
      let test ← visit.expr test
      let opening ← closeBlock tag
      let stmts ← visit.body stmts
      let others ← others.mapM (furtherBranch visit)
      let (orElse, otherPairs) ← otherwise visit orElse
      let closing ← keywordTag "endif"
      let pairs := opening :: others.map Prod.snd ++ otherPairs ++ [closing]
      return .mk test stmts (others.map Prod.fst) orElse (← sealed layout tag.start pairs)

/-- Annotates a target, its value and a comma behind them. -/
def bound (visit : Visitors) (node : Expr × Expr) : Walking (Expr × Expr) := do
  let target ← visit.expr node.1
  expectOperator "="
  let value ← visit.expr node.2
  skipComma
  return (target, value)

def importedName (node : ImportedName) : Walking Unit := do
  expectName node.name
  match node.newName with
  | some word => expectNames ["as".toList, word]
  | none => pure ()
  skipComma

def firstToken? : List Stmt → Option Nat
  | stmt :: _ => stmt.layout.span.map Prod.fst
  | [] => none

def statementContent (visit : Visitors) : Stmt → Walking Stmt
  | .output nodes layout => output visit nodes layout
  | .print nodes layout => do
      let tag ← blockTag "print"
      let nodes ← nodes.mapM fun node => do
        let node ← visit.expr node
        skipComma
        return node
      return .print nodes (← single layout tag)
  | .extend template layout => do
      let tag ← blockTag "extends"
      let template ← visit.expr template
      return .extend template (← single layout tag)
  | .block name stmts isScoped isRequired endNamed layout => do
      let tag ← blockTag "block"
      expectName name
      if isScoped then expectName "scoped"
      if isRequired then expectName "required"
      let opening ← closeBlock tag
      let stmts ← visit.body stmts
      let last ← blockTag "endblock"
      if endNamed then expectName name
      let closing ← closeBlock last
      return .block name stmts isScoped isRequired endNamed
        (← sealed layout tag.start [opening, closing])
  | .insert template ignoreMissing withContext layout => do
      let tag ← blockTag "include"
      let template ← visit.expr template
      if ignoreMissing then expectNames ["ignore".toList, "missing".toList]
      contextChoice withContext
      return .insert template ignoreMissing withContext (← single layout tag)
  | .importAs template target withContext layout => do
      let tag ← blockTag "import"
      let template ← visit.expr template
      expectNames ["as".toList, target]
      contextChoice withContext
      return .importAs template target withContext (← single layout tag)
  | .importNames template names withContext layout => do
      let tag ← blockTag "from"
      let template ← visit.expr template
      expectName "import"
      names.forM importedName
      contextChoice withContext
      return .importNames template names withContext (← single layout tag)
  | .loop target iterable stmts orElse test nested layout => do
      let tag ← blockTag "for"
      let target ← visit.expr target
      expectName "in"
      let iterable ← visit.expr iterable
      let test ← test.mapM fun test => do
        expectName "if"
        visit.expr test
      if nested then expectName "recursive"
      let opening ← closeBlock tag
      let stmts ← visit.body stmts
      let (orElse, otherPairs) ← otherwise visit orElse
      let closing ← keywordTag "endfor"
      return .loop target iterable stmts orElse test nested
        (← sealed layout tag.start (opening :: otherPairs ++ [closing]))
  | .branch first => do return .branch (← branch visit first)
  | .bind targets values stmts layout => do
      let tag ← blockTag "with"
      let nodes ← (targets.zip values).mapM (bound visit)
      let (stmts, layout) ← enclosed visit layout tag stmts "endwith"
      return .bind (nodes.map Prod.fst ++ targets.drop nodes.length)
        (nodes.map Prod.snd ++ values.drop nodes.length) stmts layout
  | .perform node layout => do
      let tag ← blockTag "do"
      let node ← visit.expr node
      return .perform node (← single layout tag)
  | .assign target value layout => do
      let tag ← blockTag "set"
      let target ← visit.expr target
      expectOperator "="
      let value ← visit.expr value
      return .assign target value (← single layout tag)
  | .capture target filter stmts layout => do
      let tag ← blockTag "set"
      let target ← visit.expr target
      let filter ← filter.mapM visit.expr
      let (stmts, layout) ← enclosed visit layout tag stmts "endset"
      return .capture target filter stmts layout
  | .filterBlock filter stmts layout => do
      let tag ← blockTag "filter"
      let filter ← visit.expr filter
      let (stmts, layout) ← enclosed visit layout tag stmts "endfilter"
      return .filterBlock filter stmts layout
  | .macroBlock name parameters defaults stmts layout => do
      let tag ← blockTag "macro"
      expectName name
      let (parameters, defaults) ← signature visit parameters defaults
      let (stmts, layout) ← enclosed visit layout tag stmts "endmacro"
      return .macroBlock name parameters defaults stmts layout
  | .callBlock call parameters defaults stmts layout => do
      let tag ← blockTag "call"
      let (parameters, defaults) ←
        if ← nextIs "(" then signature visit parameters defaults else pure (parameters, defaults)
      let call ← visit.expr call
      let (stmts, layout) ← enclosed visit layout tag stmts "endcall"
      return .callBlock call parameters defaults stmts layout
  | .skip layout => do return .skip (← single layout (← blockTag "continue"))
  | .leave layout => do return .leave (← single layout (← blockTag "break"))
  | .scope stmts layout => do
      let entry ← position
      let stmts ← visit.body stmts
      let span := ((firstToken? stmts).getD entry, ← position)
      return .scope stmts { layout with span := some span }
  | .autoescape options stmts layout => do
      let tag ← blockTag "autoescape"
      let options ← options.mapM fun (option : Keyword Expr) => do
        let value ← visit.expr option.value
        return { option with value, layout := { option.layout with span := value.layout.span } }
      let (stmts, layout) ← enclosed visit layout tag stmts "endautoescape"
      return .autoescape options stmts layout

/-- Annotates a statement that may nest the given number of levels. -/
def statement : Nat → Stmt → Walking Stmt
  | 0, _ => throw .tooDeep
  | levels + 1, stmt =>
      statementContent ⟨fun expr => do return (← expression levels expr).1, statement levels⟩ stmt

/-- Annotates a template: its text ends with what follows the last statement. -/
def template (node : Template) : Walking Template := do
  let stmts ← node.body.mapM (statement nestingLimit)
  let (skipped, last) ← seek .eof
  let layout :=
    { node.layout with
      trailing := textOf skipped ++ last.text
      pairs := []
      span := some (0, (← get).cursor.tokens.length) }
  return { body := stmts, layout }

def annotate (tokens : List Token) (node : Template) : Except Fault Template :=
  (template node).run' { cursor := { tokens } }

end JinjaLayout.Alignment
