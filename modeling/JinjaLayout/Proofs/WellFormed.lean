import Mathlib
import JinjaLayout.Grammar.Statement
import JinjaLayout.Proofs.NaturalLiterals

/-!
Well-formed trees: what the grammar promises of every tree that it reads, whatever the source. Each
expression plays a role in its tree, and only some kinds of expressions can play it.
-/

namespace JinjaLayout

/-- Nothing but the line of the node is known. -/
def Layout.IsLine (layout : Layout) : Prop :=
  ∃ line, layout = .onLine line

def Constant.IsNatural (constant : Constant) : Prop :=
  ∀ value, constant = .int value → 0 ≤ value

/-- The part that an expression plays in its tree: its value is used, it is one of the subscripts
or all that stands in brackets behind an operand, it filters the output of a block, or it is assigned
to. -/
inductive Role where
  | value
  | subscript
  | index
  | blockFilter
  | target (context : Context)

def Arguments.values {α : Type} (arguments : Arguments α) : List α :=
  arguments.positional ++ arguments.keywords.map Keyword.value ++ arguments.star.toList ++
    arguments.doubleStar.toList

def Arguments.AreOnLines {α : Type} (arguments : Arguments α) : Prop :=
  ∀ keyword ∈ arguments.keywords, keyword.layout.IsLine

inductive Expr.IsFormed : Role → Expr → Prop where
  | name {ident line} : IsFormed .value (.name ident .load (.onLine line))
  | const {value line} (hvalue : value.IsNatural) : IsFormed .value (.const value (.onLine line))
  | tuple {items line} (hitems : ∀ item ∈ items, IsFormed .value item) :
      IsFormed .value (.tuple items .load (.onLine line))
  | list {items line} (hitems : ∀ item ∈ items, IsFormed .value item) :
      IsFormed .value (.list items (.onLine line))
  | dict {entries line} (hkeys : ∀ entry ∈ entries, IsFormed .value entry.key)
      (hvalues : ∀ entry ∈ entries, IsFormed .value entry.value)
      (hlines : ∀ entry ∈ entries, entry.layout.IsLine) :
      IsFormed .value (.dict entries (.onLine line))
  | conditional {test whenTrue whenFalse line} (htest : IsFormed .value test)
      (htrue : IsFormed .value whenTrue) (hfalse : ∀ expr ∈ whenFalse, IsFormed .value expr) :
      IsFormed .value (.conditional test whenTrue whenFalse (.onLine line))
  | binary {op left right line} (hleft : IsFormed .value left) (hright : IsFormed .value right) :
      IsFormed .value (.binary op left right (.onLine line))
  | unary {op operand line} (hoperand : IsFormed .value operand) :
      IsFormed .value (.unary op operand false (.onLine line))
  | inline {operand line} (htest : operand.isTest) (hoperand : IsFormed .value operand) :
      IsFormed .value (.unary .not operand true (.onLine line))
  | concat {first second others line}
      (hitems : ∀ item ∈ first :: second :: others, IsFormed .value item) :
      IsFormed .value (.concat (first :: second :: others) (.onLine line))
  | compare {first second others line} (hfirst : IsFormed .value first)
      (hvalues : ∀ operand ∈ second :: others, IsFormed .value operand.value)
      (hlines : ∀ operand ∈ second :: others, operand.layout.IsLine) :
      IsFormed .value (.compare first (second :: others) (.onLine line))
  | attr {operand key line} (hoperand : IsFormed .value operand) :
      IsFormed .value (.attr operand key (.onLine line))
  | dotted {operand index line indexLine} (hoperand : IsFormed .value operand) (hindex : 0 ≤ index) :
      IsFormed .value
        (.item operand (.const (.int index) (.onLine indexLine)) true (.onLine line))
  | item {operand index line} (hoperand : IsFormed .value operand) (hindex : IsFormed .index index) :
      IsFormed .value (.item operand index false (.onLine line))
  | test {operand name arguments line} (hoperand : IsFormed .value operand)
      (hvalues : ∀ value ∈ arguments.values, IsFormed .value value)
      (hlines : arguments.AreOnLines) :
      IsFormed .value (.test operand name arguments (.onLine line))
  | call {operand arguments line} (hoperand : IsFormed .value operand)
      (hvalues : ∀ value ∈ arguments.values, IsFormed .value value)
      (hlines : arguments.AreOnLines) :
      IsFormed .value (.call operand arguments (.onLine line))
  | filter {role operand name arguments line} (hrole : role = .value ∨ role = .blockFilter)
      (hoperand : IsFormed role operand)
      (hvalues : ∀ value ∈ arguments.values, IsFormed .value value)
      (hlines : arguments.AreOnLines) :
      IsFormed role (.filter (some operand) name arguments (.onLine line))
  | blockFilter {name arguments line} (hvalues : ∀ value ∈ arguments.values, IsFormed .value value)
      (hlines : arguments.AreOnLines) :
      IsFormed .blockFilter (.filter none name arguments (.onLine line))
  | subscript {expr} (hexpr : IsFormed .value expr) : IsFormed .subscript expr
  | slice {start stop step line} (hstart : ∀ expr ∈ start, IsFormed .value expr)
      (hstop : ∀ expr ∈ stop, IsFormed .value expr) (hstep : ∀ expr ∈ step, IsFormed .value expr) :
      IsFormed .subscript (.slice start stop step (.onLine line))
  | index {expr} (hexpr : IsFormed .subscript expr) : IsFormed .index expr
  | subscripts {items line} (hitems : ∀ item ∈ items, IsFormed .subscript item) :
      IsFormed .index (.tuple items .load (.onLine line))
  | target {ident context line} : IsFormed (.target context) (.name ident context (.onLine line))
  | targets {items context line} (hitems : ∀ item ∈ items, IsFormed (.target context) item) :
      IsFormed (.target context) (.tuple items context (.onLine line))

namespace Expr

/-- The expression can be assigned to, and its names are used that way. -/
def IsTarget (context : Context) (expr : Expr) : Prop :=
  expr.isAssignable ∧ expr.IsFormed (.target context)

def IsSetTarget (expr : Expr) : Prop :=
  expr.IsTarget .store ∨ ∃ ident key line, expr = .member ident key (.onLine line)

def IsParameter (expr : Expr) : Prop :=
  expr.isAssignable ∧ ∃ ident line, expr = .name ident .param (.onLine line)

def IsPiece (expr : Expr) : Prop :=
  expr.IsFormed .value ∨ ∃ text line, expr = .data text (.onLine line)

end Expr

namespace Stmt

def isOutput : Stmt → Bool
  | output .. => true
  | _ => false

def bodies : Stmt → List (List Stmt)
  | block _ body _ _ _ _ | bind _ _ body _ | capture _ _ body _ | filterBlock _ body _
  | macroBlock _ _ _ body _ | callBlock _ _ _ body _ | scope [.autoescape _ body _] _ => [body]
  | loop _ _ body orElse _ _ _ => [body, orElse]
  | branch (.mk _ body others orElse _) => body :: orElse :: others.map Branch.body
  | _ => []

/-- The statement is well formed but for the statements of its bodies. -/
def HasForm : Stmt → Prop
  | output nodes layout => layout.IsLine ∧ nodes ≠ [] ∧ ∀ node ∈ nodes, node.IsPiece
  | print nodes layout => layout.IsLine ∧ ∀ node ∈ nodes, node.IsFormed .value
  | extend template layout | insert template _ _ layout | importAs template _ _ layout
  | importNames template _ _ layout => layout.IsLine ∧ template.IsFormed .value
  | perform node layout => layout.IsLine ∧ node.IsFormed .value
  | assign target value layout => layout.IsLine ∧ target.IsSetTarget ∧ value.IsFormed .value
  | block _ _ _ _ _ layout | skip layout | leave layout => layout.IsLine
  | loop target iterable _ _ test _ layout =>
      layout.IsLine ∧ target.IsTarget .store ∧ iterable.IsFormed .value ∧
        ∀ expr ∈ test, expr.IsFormed .value
  | branch (.mk test _ others _ layout) =>
      layout.IsLine ∧ test.IsFormed .value ∧ ∀ other ∈ others,
        other.layout.IsLine ∧ other.test.IsFormed .value ∧ other.others = [] ∧ other.orElse = []
  | bind targets values _ layout =>
      layout.IsLine ∧ targets.length = values.length ∧ (∀ target ∈ targets, target.IsTarget .param) ∧
        ∀ value ∈ values, value.IsFormed .value
  | capture target filter _ layout =>
      layout.IsLine ∧ target.IsSetTarget ∧ ∀ expr ∈ filter, expr.IsFormed .blockFilter
  | filterBlock filter _ layout => layout.IsLine ∧ filter.IsFormed .blockFilter
  | macroBlock _ parameters defaults _ layout =>
      layout.IsLine ∧ (∀ parameter ∈ parameters, parameter.IsParameter) ∧
        defaults.length ≤ parameters.length ∧ ∀ default ∈ defaults, default.IsFormed .value
  | callBlock call parameters defaults _ layout =>
      layout.IsLine ∧ call.isCall ∧ call.IsFormed .value ∧
        (∀ parameter ∈ parameters, parameter.IsParameter) ∧
        defaults.length ≤ parameters.length ∧ ∀ default ∈ defaults, default.IsFormed .value
  | scope [.autoescape [option] _ inner] layout =>
      layout.IsLine ∧ inner.IsLine ∧ option.layout.IsLine ∧ option.value.IsFormed .value
  | scope _ _ | autoescape _ _ _ => False

/-- No two outputs stand side by side. -/
def AreApart (stmts : List Stmt) : Prop :=
  stmts.IsChain fun first second => ¬(first.isOutput ∧ second.isOutput = true)

inductive IsFormed : Stmt → Prop where
  | mk {stmt : Stmt} (hform : stmt.HasForm) (hapart : ∀ body ∈ stmt.bodies, AreApart body)
      (hinner : ∀ body ∈ stmt.bodies, ∀ inner ∈ body, IsFormed inner) : IsFormed stmt

end Stmt

structure Template.IsFormed (template : Template) : Prop where
  layout_eq : template.layout = .onLine 1
  apart : Stmt.AreApart template.body
  stmts : ∀ stmt ∈ template.body, stmt.IsFormed

end JinjaLayout
