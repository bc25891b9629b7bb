import JinjaLayout.Environment
import JinjaLayout.Writing.Expression
import JinjaLayout.Writing.Fragment

/-!
Statements as fragments. A tag that was found in a source keeps its delimiters and the text around
them; a fresh one takes the delimiters of the environment.
-/

namespace JinjaLayout.Writing

inductive TagSort where
  | block
  | variable

def delimitersOf (env : Environment) : TagSort → Text × Text
  | .block => (env.blockStart, env.blockEnd)
  | .variable => (env.variableStart, env.variableEnd)

def tagStart (env : Environment) (sort : TagSort) : Option TagPair → List Fragment
  | some pair => [.text pair.before, .text pair.opening.text, .gap]
  | none => [.text (delimitersOf env sort).1, .gap]

def tagEnd (env : Environment) (sort : TagSort) : Option TagPair → List Fragment
  | some pair =>
      let colon : Text := if pair.colon then ":" else []
      if pair.closing.kind = .lineStatementEnd then
        [.text colon, .text pair.closing.text, .text pair.after]
      else [.text colon, .gap, .text pair.closing.text, .text pair.after]
  | none => [.gap, .text (delimitersOf env sort).2]

def blockTag (env : Environment) (pair : Option TagPair) (content : List Fragment) :
    List Fragment :=
  tagStart env .block pair ++ content ++ tagEnd env .block pair

def keywordTag (env : Environment) (pair : Option TagPair) (keyword : Text) : List Fragment :=
  blockTag env pair [.text keyword]

def pairOf (pairs : List TagPair) (keyword : Text) : Option TagPair :=
  pairs.find? fun pair => pair.keyword == keyword

/-- Writes what stands one level deeper than a statement. -/
structure Writers where
  expr : ExprWriter
  stmt : Stmt → Option (List Fragment)

namespace Writers

def body (write : Writers) (stmts : List Stmt) : Option (List Fragment) := do
  return (← stmts.mapM write.stmt).flatten

/-- An expression where a tuple needs no parentheses. -/
def bare (write : Writers) (strength : Strength) (expr : Expr) : Option Text :=
  tupleOr write.expr strength expr

end Writers

/-- Whether another template gets the variables. -/
def contextChoice : Option Bool → Text
  | some true => " with context"
  | some false => " without context"
  | none => []

def importedName (node : ImportedName) : Text :=
  match node.newName with
  | some word => node.name ++ spaced "as" ++ word
  | none => node.name

def parameterText (write : ExprWriter) (node : Expr × Option Expr) : Option Text := do
  return (← write Strength.condition node.1) ++ (← optionalText write "=" node.2)

def signatureText (write : ExprWriter) (parameters defaults : List Expr) : Option Text := do
  let texts ← (withDefaults parameters defaults).mapM (parameterText write)
  return inParentheses (commaSeparated texts)

def needsRaw (env : Environment) (text : Text) (layout : Layout) : Bool :=
  !layout.isAnnotated &&
    [env.blockStart, env.variableStart, env.commentStart].any fun start => Text.occursIn start text

def dataFragments (env : Environment) (text : Text) (layout : Layout) : List Fragment :=
  let rawTag (word : Text) : Fragment := .text (env.blockStart ++ spaced word ++ env.blockEnd)
  .text layout.leading ::
    if needsRaw env text layout then [rawTag "raw", .text text, rawTag "endraw"] else [.text text]

/-- The pair around an expression of an output: the one that encloses it in the source, or for a
fresh expression the one at its place, as long as there are as many pairs as expressions. -/
def outputPair (pairs : List TagPair) (count index : Nat) (expr : Expr) : Option TagPair :=
  match expr.layout.span with
  | some (start, stop) =>
      pairs.find? fun pair => pair.opening.index < start && stop ≤ pair.closing.index
  | none => if pairs.length = count then pairs[index]? else none

/-- The text and expressions of an output. The index counts the expressions. -/
def outputFragments (env : Environment) (write : Writers) (pairs : List TagPair) (count : Nat) :
    Nat → List Expr → Option (List Fragment)
  | _, [] => some []
  | index, .data text layout :: nodes => do
      return dataFragments env text layout ++ (← outputFragments env write pairs count index nodes)
  | index, expr :: nodes => do
      let pair := outputPair pairs count index expr
      let text ← write.bare Strength.condition expr
      return tagStart env .variable pair ++ .text text :: tagEnd env .variable pair ++
        (← outputFragments env write pairs count (index + 1) nodes)

def otherwise (env : Environment) (write : Writers) (pairs : List TagPair) (stmts : List Stmt) :
    Option (List Fragment) := do
  let pair := pairOf pairs "else"
  if pair.isSome || !stmts.isEmpty then
    return keywordTag env pair "else" ++ (← write.body stmts)
  else return []

def enclosed (env : Environment) (write : Writers) (layout : Layout) (content : List Fragment)
    (stmts : List Stmt) (stop : Text) : Option (List Fragment) := do
  return blockTag env layout.pairs[0]? content ++ (← write.body stmts) ++
    keywordTag env layout.pairs[1]? stop

def keywordAnd (keyword text : Text) : List Fragment :=
  [.text keyword, .gap, .text text]

def guarded (env : Environment) (write : Writers) (pair : Option TagPair) (keyword : Text)
    (test : Expr) (stmts : List Stmt) : Option (List Fragment) := do
  let test ← write.bare Strength.disjunction test
  return blockTag env pair (keywordAnd keyword test) ++ (← write.body stmts)

def branchFragments (env : Environment) (write : Writers) : Branch → Option (List Fragment)
  | .mk test stmts others orElse layout => do
      let first ← guarded env write (pairOf layout.pairs "if") "if" test stmts
      let others ← others.mapM fun other =>
        guarded env write other.layout.pairs[0]? "elif" other.test other.body
      let orElse ← otherwise env write layout.pairs orElse
      return first ++ others.flatten ++ orElse ++
        keywordTag env (pairOf layout.pairs "endif") "endif"

def boundText (write : Writers) (node : Expr × Expr) : Option Text := do
  let target ← write.bare Strength.condition node.1
  let value ← write.expr Strength.condition node.2
  return target ++ spaced "=" ++ value

def statementContent (env : Environment) (write : Writers) : Stmt → Option (List Fragment)
  | .output nodes layout =>
      outputFragments env write layout.pairs (nodes.countP fun node => !node.isData) 0 nodes
  | .print nodes layout => do
      let texts ← nodes.mapM (write.expr Strength.condition)
      return blockTag env layout.pairs[0]? (keywordAnd "print" (commaSeparated texts))
  | .extend template layout => do
      let text ← write.bare Strength.condition template
      return blockTag env layout.pairs[0]? (keywordAnd "extends" text)
  | .block name stmts isScoped isRequired endNamed layout => do
      let scope : Text := if isScoped then " scoped" else []
      let duty : Text := if isRequired then " required" else []
      let stmts ← write.body stmts
      let last : Text := "endblock".toList ++ if endNamed then ' ' :: name else []
      let first : Text := "block ".toList ++ name ++ scope ++ duty
      return blockTag env layout.pairs[0]? [.text first] ++ stmts ++
        keywordTag env layout.pairs[1]? last
  | .insert template ignoreMissing withContext layout => do
      let text ← write.expr Strength.condition template
      let missing : Text := if ignoreMissing then " ignore missing" else []
      return blockTag env layout.pairs[0]?
        (keywordAnd "include" (text ++ missing ++ contextChoice withContext))
  | .importAs template target withContext layout => do
      let text ← write.expr Strength.condition template
      return blockTag env layout.pairs[0]?
        (keywordAnd "import" (text ++ spaced "as" ++ target ++ contextChoice withContext))
  | .importNames template names withContext layout => do
      let text ← write.expr Strength.condition template
      let names := commaSeparated (names.map importedName)
      return blockTag env layout.pairs[0]?
        (keywordAnd "from" (text ++ spaced "import" ++ names ++ contextChoice withContext))
  | .loop target iterable stmts orElse test nested layout => do
      let target ← write.bare Strength.condition target
      let iterable ← write.bare Strength.disjunction iterable
      let test ← optionalText write.expr " if " test
      let word : Text := if nested then " recursive" else []
      let stmts ← write.body stmts
      let orElse ← otherwise env write layout.pairs orElse
      return blockTag env (pairOf layout.pairs "for")
          (keywordAnd "for" (target ++ spaced "in" ++ iterable ++ test ++ word)) ++
        stmts ++ orElse ++ keywordTag env (pairOf layout.pairs "endfor") "endfor"
  | .branch first => branchFragments env write first
  | .bind targets values stmts layout => do
      let texts ← (targets.zip values).mapM (boundText write)
      enclosed env write layout (keywordAnd "with" (commaSeparated texts)) stmts "endwith"
  | .perform node layout => do
      let text ← write.bare Strength.condition node
      return blockTag env layout.pairs[0]? (keywordAnd "do" text)
  | .assign target value layout => do
      let target ← write.bare Strength.condition target
      let value ← write.bare Strength.condition value
      return blockTag env layout.pairs[0]? (keywordAnd "set" (target ++ spaced "=" ++ value))
  | .capture target filter stmts layout => do
      let target ← write.bare Strength.condition target
      let filter ← match filter with
        | some filter => do pure (spaced "|" ++ (← write.expr Strength.filter filter))
        | none => some []
      enclosed env write layout (keywordAnd "set" (target ++ filter)) stmts "endset"
  | .filterBlock filter stmts layout => do
      let filter ← write.expr Strength.filter filter
      enclosed env write layout (keywordAnd "filter" filter) stmts "endfilter"
  | .macroBlock name parameters defaults stmts layout => do
      let signature ← signatureText write.expr parameters defaults
      enclosed env write layout [.text ("macro ".toList ++ name ++ signature)] stmts "endmacro"
  | .callBlock call parameters defaults stmts layout => do
      let signature ←
        if parameters.isEmpty then some [] else signatureText write.expr parameters defaults
      let call ← write.expr Strength.condition call
      enclosed env write layout [.text ("call".toList ++ signature ++ ' ' :: call)] stmts "endcall"
  | .skip layout => some (keywordTag env layout.pairs[0]? "continue")
  | .leave layout => some (keywordTag env layout.pairs[0]? "break")
  | .scope stmts _ => write.body stmts
  | .autoescape options stmts layout => do
      let texts ← options.mapM fun option => write.expr Strength.condition option.value
      enclosed env write layout (keywordAnd "autoescape" texts.flatten) stmts "endautoescape"

/-- Whether a statement is a tag that was not found in a source. -/
def isFresh : Stmt → Bool
  | .output .. | .scope .. => false
  | stmt => !stmt.layout.isAnnotated

/-- A statement that may nest the given number of levels. -/
def statement (env : Environment) : Nat → Stmt → Option (List Fragment)
  | 0, _ => none
  | levels + 1, stmt => do
      let parts ← statementContent env ⟨expression levels, statement env levels⟩ stmt
      return if isFresh stmt then [.fresh parts] else parts

def fragments (env : Environment) (template : Template) : Option (List Fragment) := do
  let parts ← template.body.mapM (statement env nestingLimit)
  return parts.flatten ++ [.text template.layout.trailing]

def dump (env : Environment) (template : Template) : Option Text := do
  return Fragment.textOf (← fragments env template)

end JinjaLayout.Writing
