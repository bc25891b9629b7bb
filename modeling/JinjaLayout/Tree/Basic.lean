import JinjaLayout.Number.Double
import JinjaLayout.Token.Table

/-!
The syntax tree. Every node carries the layout of its source; a node that was built afresh has an
empty layout.
-/

namespace JinjaLayout

/-- A pair of delimiters or parentheses with the text that belongs to it: the keyword of a block
tag, whether a colon stands before its end, and what is skipped before and behind it. -/
structure TagPair where
  opening : Token
  closing : Token
  keyword : Text := []
  colon : Bool := false
  before : Text := []
  after : Text := []
deriving DecidableEq, Inhabited

/-- Where a node stands in its source: its line, the tokens it covers (from the first to behind the
last), the pairs it owns and the skipped text in front of and behind it. -/
structure Layout where
  line : Nat := 0
  span : Option (Nat × Nat) := none
  pairs : List TagPair := []
  leading : Text := []
  trailing : Text := []
deriving DecidableEq, Inhabited

/-- The layout of a node of which only the line is known. -/
def Layout.onLine (line : Nat) : Layout :=
  { line }

/-- Whether the node was found in a source. -/
def Layout.isAnnotated (layout : Layout) : Bool :=
  layout.span.isSome

/-- How a name is used. -/
inductive Context where
  | load
  | store
  | param
deriving DecidableEq, Inhabited

/-- An operator between two expressions. -/
inductive BinaryOp where
  | add
  | sub
  | mul
  | div
  | floorDiv
  | mod
  | pow
  | and
  | or
deriving DecidableEq, Inhabited

namespace BinaryOp

/-- How the operator is written. -/
def symbol : BinaryOp → Text
  | add => "+"
  | sub => "-"
  | mul => "*"
  | div => "/"
  | floorDiv => "//"
  | mod => "%"
  | pow => "**"
  | and => "and"
  | or => "or"

def isWord : BinaryOp → Bool
  | and | or => true
  | _ => false

end BinaryOp

/-- An operator before an expression. -/
inductive UnaryOp where
  | not
  | neg
  | pos
deriving DecidableEq, Inhabited

/-- How the operator is written. -/
def UnaryOp.symbol : UnaryOp → Text
  | not => "not"
  | neg => "-"
  | pos => "+"

inductive CompareOp where
  | eq
  | ne
  | gt
  | ge
  | lt
  | le
  | mem
  | notMem
deriving DecidableEq, Inhabited

namespace CompareOp

/-- How the comparison is written. -/
def symbol : CompareOp → Text
  | eq => "=="
  | ne => "!="
  | gt => ">"
  | ge => ">="
  | lt => "<"
  | le => "<="
  | mem => "in"
  | notMem => "not in"

/-- The comparison that is written with the given operator. -/
def ofSymbol? (symbol : Text) : Option CompareOp :=
  [eq, ne, gt, ge, lt, le].find? fun op => op.symbol == symbol

end CompareOp

inductive Constant where
  | none
  | bool (value : Bool)
  | int (value : Int)
  | float (value : Double)
  | str (value : Text)
deriving DecidableEq, Inhabited

structure Entry (α : Type) where
  key : α
  value : α
  layout : Layout := {}

/-- An argument with a name. -/
structure Keyword (α : Type) where
  key : Text
  value : α
  layout : Layout := {}

/-- One comparison of a chain, with its right side. -/
structure Operand (α : Type) where
  op : CompareOp
  value : α
  layout : Layout := {}

/-- The arguments of a call, a filter or a test. -/
structure Arguments (α : Type) where
  positional : List α := []
  keywords : List (Keyword α) := []
  star : Option α := none
  doubleStar : Option α := none

def Arguments.isEmpty {α : Type} (arguments : Arguments α) : Bool :=
  arguments.positional.isEmpty && arguments.keywords.isEmpty && arguments.star.isNone &&
    arguments.doubleStar.isNone

/-- Expressions. A `filter` without an operand applies to a block; an `inline` negation is written
inside a test; a `dotted` item is written after a point. -/
inductive Expr where
  | name (ident : Text) (context : Context) (layout : Layout)
  | member (ident key : Text) (layout : Layout)
  | const (value : Constant) (layout : Layout)
  | data (text : Text) (layout : Layout)
  | tuple (items : List Expr) (context : Context) (layout : Layout)
  | list (items : List Expr) (layout : Layout)
  | dict (entries : List (Entry Expr)) (layout : Layout)
  | conditional (test whenTrue : Expr) (whenFalse : Option Expr) (layout : Layout)
  | binary (op : BinaryOp) (left right : Expr) (layout : Layout)
  | unary (op : UnaryOp) (operand : Expr) (inline : Bool) (layout : Layout)
  | concat (items : List Expr) (layout : Layout)
  | compare (first : Expr) (others : List (Operand Expr)) (layout : Layout)
  | attr (operand : Expr) (key : Text) (layout : Layout)
  | item (operand index : Expr) (dotted : Bool) (layout : Layout)
  | slice (start stop step : Option Expr) (layout : Layout)
  | filter (operand : Option Expr) (name : Text) (arguments : Arguments Expr) (layout : Layout)
  | test (operand : Expr) (name : Text) (arguments : Arguments Expr) (layout : Layout)
  | call (operand : Expr) (arguments : Arguments Expr) (layout : Layout)

instance : Inhabited Expr := ⟨.const .none {}⟩

/-- The parameters of a macro, the last ones with their defaults. -/
def withDefaults {α : Type} : List α → List α → List (α × Option α)
  | [], _ => []
  | parameter :: parameters, [] => (parameter, none) :: withDefaults parameters []
  | parameter :: parameters, default :: defaults =>
      if parameters.length ≤ defaults.length then
        (parameter, some default) :: withDefaults parameters defaults
      else (parameter, none) :: withDefaults parameters (default :: defaults)

structure ImportedName where
  name : Text
  newName : Option Text
deriving DecidableEq, Inhabited

mutual

/-- Statements. A `scope` stands around the statements of an `autoescape` and has no source of its
own. -/
inductive Stmt where
  | output (nodes : List Expr) (layout : Layout)
  | print (nodes : List Expr) (layout : Layout)
  | extend (template : Expr) (layout : Layout)
  | block (name : Text) (body : List Stmt) (isScoped isRequired endNamed : Bool) (layout : Layout)
  | insert (template : Expr) (ignoreMissing : Bool) (withContext : Option Bool) (layout : Layout)
  | importAs (template : Expr) (target : Text) (withContext : Option Bool) (layout : Layout)
  | importNames (template : Expr) (names : List ImportedName) (withContext : Option Bool)
      (layout : Layout)
  | loop (target iterable : Expr) (body orElse : List Stmt) (test : Option Expr) (nested : Bool)
      (layout : Layout)
  | branch (first : Branch)
  | bind (targets values : List Expr) (body : List Stmt) (layout : Layout)
  | perform (node : Expr) (layout : Layout)
  | assign (target value : Expr) (layout : Layout)
  | capture (target : Expr) (filter : Option Expr) (body : List Stmt) (layout : Layout)
  | filterBlock (filter : Expr) (body : List Stmt) (layout : Layout)
  | macroBlock (name : Text) (parameters defaults : List Expr) (body : List Stmt) (layout : Layout)
  | callBlock (call : Expr) (parameters defaults : List Expr) (body : List Stmt) (layout : Layout)
  | skip (layout : Layout)
  | leave (layout : Layout)
  | scope (body : List Stmt) (layout : Layout)
  | autoescape (options : List (Keyword Expr)) (body : List Stmt) (layout : Layout)

inductive Branch where
  | mk (test : Expr) (body : List Stmt) (others : List Branch) (orElse : List Stmt)
      (layout : Layout)

end

instance : Inhabited Stmt := ⟨.skip {}⟩

instance : Inhabited Branch := ⟨.mk default [] [] [] {}⟩

structure Template where
  body : List Stmt
  layout : Layout := {}
deriving Inhabited

namespace Branch

def test : Branch → Expr
  | mk test _ _ _ _ => test

def body : Branch → List Stmt
  | mk _ body _ _ _ => body

def others : Branch → List Branch
  | mk _ _ others _ _ => others

def orElse : Branch → List Stmt
  | mk _ _ _ orElse _ => orElse

def layout : Branch → Layout
  | mk _ _ _ _ layout => layout

end Branch

namespace Expr

def layout : Expr → Layout
  | name _ _ layout | member _ _ layout | const _ layout | data _ layout | tuple _ _ layout
  | list _ layout | dict _ layout | conditional _ _ _ layout | binary _ _ _ layout
  | unary _ _ _ layout | concat _ layout | compare _ _ layout | attr _ _ layout
  | item _ _ _ layout | slice _ _ _ layout | filter _ _ _ layout | test _ _ _ layout
  | call _ _ layout => layout

def withLayout (expr : Expr) (layout : Layout) : Expr :=
  match expr with
  | name ident context _ => name ident context layout
  | member ident key _ => member ident key layout
  | const value _ => const value layout
  | data text _ => data text layout
  | tuple items context _ => tuple items context layout
  | list items _ => list items layout
  | dict entries _ => dict entries layout
  | conditional guard whenTrue whenFalse _ => conditional guard whenTrue whenFalse layout
  | binary op left right _ => binary op left right layout
  | unary op operand inline _ => unary op operand inline layout
  | concat items _ => concat items layout
  | compare first others _ => compare first others layout
  | attr operand key _ => attr operand key layout
  | item operand index dotted _ => item operand index dotted layout
  | slice start stop step _ => slice start stop step layout
  | filter operand word arguments _ => filter operand word arguments layout
  | test operand word arguments _ => test operand word arguments layout
  | call operand arguments _ => call operand arguments layout

def kind : Expr → String
  | name .. => "Name"
  | member .. => "NSRef"
  | const .. => "Const"
  | data .. => "TemplateData"
  | tuple .. => "Tuple"
  | list .. => "List"
  | dict .. => "Dict"
  | conditional .. => "CondExpr"
  | binary .. => "BinExpr"
  | unary .. => "UnaryExpr"
  | concat .. => "Concat"
  | compare .. => "Compare"
  | attr .. => "Getattr"
  | item .. => "Getitem"
  | slice .. => "Slice"
  | filter .. => "Filter"
  | test .. => "Test"
  | call .. => "Call"

def constantNames : List Text :=
  ["true".toList, "false".toList, "none".toList, "True".toList, "False".toList, "None".toList]

mutual

/-- Whether the expression may stand left of an assignment. -/
def isAssignable : Expr → Bool
  | name ident _ _ => !constantNames.contains ident
  | member .. => true
  | tuple items _ _ => areAssignable items
  | _ => false

/-- Whether all the expressions may stand left of an assignment. -/
def areAssignable : List Expr → Bool
  | [] => true
  | expr :: exprs => expr.isAssignable && areAssignable exprs

end

mutual

/-- Sets how the names of an assignment target are used. -/
def withContext (context : Context) : Expr → Expr
  | name ident _ layout => name ident context layout
  | tuple items _ layout => tuple (allWithContext context items) context layout
  | expr => expr

/-- Sets how the names of all the targets are used. -/
def allWithContext (context : Context) : List Expr → List Expr
  | [] => []
  | expr :: exprs => expr.withContext context :: allWithContext context exprs

end

def isTest : Expr → Bool
  | test .. => true
  | _ => false

def isTuple : Expr → Bool
  | tuple .. => true
  | _ => false

def isCall : Expr → Bool
  | call .. => true
  | _ => false

/-- Whether the expression is plain template text. -/
def isData : Expr → Bool
  | data .. => true
  | _ => false

/-- A fresh negation, written inside the operand when that is a test. -/
def negated (operand : Expr) : Expr :=
  unary .not operand operand.isTest {}

def filtered (operand : Expr) (filterName : Text) (arguments : List Expr) : Expr :=
  filter (some operand) filterName { positional := arguments } {}

def joined (op : BinaryOp) (left right : Expr) : Expr :=
  binary op left right {}

end Expr

namespace Stmt

def layout : Stmt → Layout
  | output _ layout | print _ layout | extend _ layout | block _ _ _ _ _ layout
  | insert _ _ _ layout | importAs _ _ _ layout | importNames _ _ _ layout
  | loop _ _ _ _ _ _ layout | bind _ _ _ layout | perform _ layout | assign _ _ layout
  | capture _ _ _ layout | filterBlock _ _ layout | macroBlock _ _ _ _ layout
  | callBlock _ _ _ _ layout | skip layout | leave layout | scope _ layout
  | autoescape _ _ layout => layout
  | branch first => first.layout

def kind : Stmt → String
  | output .. => "Output"
  | print .. => "Print"
  | extend .. => "Extends"
  | block .. => "Block"
  | insert .. => "Include"
  | importAs .. => "Import"
  | importNames .. => "FromImport"
  | loop .. => "For"
  | branch .. => "If"
  | bind .. => "With"
  | perform .. => "ExprStmt"
  | assign .. => "Assign"
  | capture .. => "AssignBlock"
  | filterBlock .. => "FilterBlock"
  | macroBlock .. => "Macro"
  | callBlock .. => "CallBlock"
  | skip .. => "Continue"
  | leave .. => "Break"
  | scope .. => "Scope"
  | autoescape .. => "ScopedEvalContextModifier"

end Stmt

end JinjaLayout
