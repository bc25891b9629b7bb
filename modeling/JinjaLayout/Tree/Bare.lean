import JinjaLayout.Tree.Basic

/-!
Trees without their layout. Two templates say the same when their bare trees are equal, wherever
they were read from.
-/

namespace JinjaLayout

mutual

/-- The expression without any layout. -/
def Expr.bare : Expr → Expr
  | .name ident context _ => .name ident context {}
  | .member ident key _ => .member ident key {}
  | .const value _ => .const value {}
  | .data text _ => .data text {}
  | .tuple items context _ => .tuple (bareExprs items) context {}
  | .list items _ => .list (bareExprs items) {}
  | .dict entries _ => .dict (bareEntries entries) {}
  | .conditional test whenTrue whenFalse _ =>
      .conditional test.bare whenTrue.bare (bareOption whenFalse) {}
  | .binary op left right _ => .binary op left.bare right.bare {}
  | .unary op operand inline _ => .unary op operand.bare inline {}
  | .concat items _ => .concat (bareExprs items) {}
  | .compare first others _ => .compare first.bare (bareOperands others) {}
  | .attr operand key _ => .attr operand.bare key {}
  | .item operand index dotted _ => .item operand.bare index.bare dotted {}
  | .slice start stop step _ => .slice (bareOption start) (bareOption stop) (bareOption step) {}
  | .filter operand name arguments _ => .filter (bareOption operand) name arguments.bare {}
  | .test operand name arguments _ => .test operand.bare name arguments.bare {}
  | .call operand arguments _ => .call operand.bare arguments.bare {}

/-- The expressions without any layout. -/
def bareExprs : List Expr → List Expr
  | [] => []
  | expr :: exprs => expr.bare :: bareExprs exprs

/-- The expression without any layout, if there is one. -/
def bareOption : Option Expr → Option Expr
  | none => none
  | some expr => some expr.bare

def Entry.bare : Entry Expr → Entry Expr
  | ⟨key, value, _⟩ => { key := key.bare, value := value.bare }

def bareEntries : List (Entry Expr) → List (Entry Expr)
  | [] => []
  | entry :: entries => entry.bare :: bareEntries entries

def Keyword.bare : Keyword Expr → Keyword Expr
  | ⟨key, value, _⟩ => { key, value := value.bare }

def bareKeywords : List (Keyword Expr) → List (Keyword Expr)
  | [] => []
  | keyword :: keywords => keyword.bare :: bareKeywords keywords

def Operand.bare : Operand Expr → Operand Expr
  | ⟨op, value, _⟩ => { op, value := value.bare }

def bareOperands : List (Operand Expr) → List (Operand Expr)
  | [] => []
  | operand :: operands => operand.bare :: bareOperands operands

def Arguments.bare : Arguments Expr → Arguments Expr
  | ⟨positional, keywords, star, doubleStar⟩ =>
      { positional := bareExprs positional
        keywords := bareKeywords keywords
        star := bareOption star
        doubleStar := bareOption doubleStar }

end

mutual

/-- The statement without any layout. -/
def Stmt.bare : Stmt → Stmt
  | .output nodes _ => .output (bareExprs nodes) {}
  | .print nodes _ => .print (bareExprs nodes) {}
  | .extend template _ => .extend template.bare {}
  | .block name body isScoped isRequired endNamed _ =>
      .block name (bareStmts body) isScoped isRequired endNamed {}
  | .insert template ignoreMissing withContext _ =>
      .insert template.bare ignoreMissing withContext {}
  | .importAs template target withContext _ => .importAs template.bare target withContext {}
  | .importNames template names withContext _ => .importNames template.bare names withContext {}
  | .loop target iterable body orElse test nested _ =>
      .loop target.bare iterable.bare (bareStmts body) (bareStmts orElse) (bareOption test) nested
        {}
  | .branch first => .branch first.bare
  | .bind targets values body _ => .bind (bareExprs targets) (bareExprs values) (bareStmts body) {}
  | .perform node _ => .perform node.bare {}
  | .assign target value _ => .assign target.bare value.bare {}
  | .capture target filter body _ => .capture target.bare (bareOption filter) (bareStmts body) {}
  | .filterBlock filter body _ => .filterBlock filter.bare (bareStmts body) {}
  | .macroBlock name parameters defaults body _ =>
      .macroBlock name (bareExprs parameters) (bareExprs defaults) (bareStmts body) {}
  | .callBlock call parameters defaults body _ =>
      .callBlock call.bare (bareExprs parameters) (bareExprs defaults) (bareStmts body) {}
  | .skip _ => .skip {}
  | .leave _ => .leave {}
  | .scope body _ => .scope (bareStmts body) {}
  | .autoescape options body _ => .autoescape (bareKeywords options) (bareStmts body) {}

/-- The statements without any layout. -/
def bareStmts : List Stmt → List Stmt
  | [] => []
  | stmt :: stmts => stmt.bare :: bareStmts stmts

def Branch.bare : Branch → Branch
  | .mk test body others orElse _ =>
      .mk test.bare (bareStmts body) (bareBranches others) (bareStmts orElse) {}

def bareBranches : List Branch → List Branch
  | [] => []
  | branch :: branches => branch.bare :: bareBranches branches

end

def Template.bare (template : Template) : Template :=
  { body := bareStmts template.body }

theorem bareExprs_eq_map (exprs : List Expr) : bareExprs exprs = exprs.map Expr.bare := by
  induction exprs with
  | nil => rfl
  | cons expr exprs ih => rw [bareExprs, ih, List.map_cons]

theorem bareOption_eq_map (expr : Option Expr) : bareOption expr = expr.map Expr.bare := by
  cases expr <;> rfl

theorem bareEntries_eq_map (entries : List (Entry Expr)) :
    bareEntries entries = entries.map Entry.bare := by
  induction entries with
  | nil => rfl
  | cons entry entries ih => rw [bareEntries, ih, List.map_cons]

theorem bareKeywords_eq_map (keywords : List (Keyword Expr)) :
    bareKeywords keywords = keywords.map Keyword.bare := by
  induction keywords with
  | nil => rfl
  | cons keyword keywords ih => rw [bareKeywords, ih, List.map_cons]

theorem bareOperands_eq_map (operands : List (Operand Expr)) :
    bareOperands operands = operands.map Operand.bare := by
  induction operands with
  | nil => rfl
  | cons operand operands ih => rw [bareOperands, ih, List.map_cons]

theorem bareStmts_eq_map (stmts : List Stmt) : bareStmts stmts = stmts.map Stmt.bare := by
  induction stmts with
  | nil => rfl
  | cons stmt stmts ih => rw [bareStmts, ih, List.map_cons]

theorem bareBranches_eq_map (branches : List Branch) :
    bareBranches branches = branches.map Branch.bare := by
  induction branches with
  | nil => rfl
  | cons branch branches ih => rw [bareBranches, ih, List.map_cons]

end JinjaLayout
