import JinjaLayout.Tree.Basic

/-!
One view of all the nodes of a tree. The children of a node stand in the order of its fields, and
each of them is smaller than the node.
-/

namespace JinjaLayout

inductive Node where
  | template (template : Template)
  | stmt (stmt : Stmt)
  | branch (branch : Branch)
  | expr (expr : Expr)
  | entry (entry : Entry Expr)
  | keyword (keyword : Keyword Expr)
  | operand (operand : Operand Expr)

namespace Node

def layout : Node → Layout
  | template node => node.layout
  | stmt node => node.layout
  | branch node => node.layout
  | expr node => node.layout
  | entry node => node.layout
  | keyword node => node.layout
  | operand node => node.layout

def kind : Node → String
  | template _ => "Template"
  | stmt node => node.kind
  | branch _ => "If"
  | expr node => node.kind
  | entry _ => "Pair"
  | keyword _ => "Keyword"
  | operand _ => "Operand"

def ofArguments (arguments : Arguments Expr) : List Node :=
  arguments.positional.map expr ++ arguments.keywords.map keyword ++
    arguments.star.toList.map expr ++ arguments.doubleStar.toList.map expr

def ofSignature (parameters defaults : List Expr) : List Node :=
  (withDefaults parameters defaults).flatMap fun (parameter, value) =>
    expr parameter :: value.toList.map expr

/-- The children of an expression. -/
def ofExpr : Expr → List Node
  | .name .. | .member .. | .const .. | .data .. => []
  | .tuple items _ _ | .list items _ | .concat items _ => items.map expr
  | .dict entries _ => entries.map entry
  | .conditional test whenTrue whenFalse _ =>
      expr whenTrue :: expr test :: whenFalse.toList.map expr
  | .binary _ left right _ => [expr left, expr right]
  | .unary _ inside _ _ => [expr inside]
  | .compare first others _ => expr first :: others.map operand
  | .attr inside _ _ => [expr inside]
  | .item inside index _ _ => [expr inside, expr index]
  | .slice start stop step _ => (start.toList ++ stop.toList ++ step.toList).map expr
  | .filter inside _ arguments _ => inside.toList.map expr ++ ofArguments arguments
  | .test inside _ arguments _ => expr inside :: ofArguments arguments
  | .call inside arguments _ => expr inside :: ofArguments arguments

/-- The children of a statement. -/
def ofStmt : Stmt → List Node
  | .output nodes _ | .print nodes _ => nodes.map expr
  | .extend source _ | .insert source _ _ _ | .importAs source _ _ _
  | .importNames source _ _ _ => [expr source]
  | .block _ body _ _ _ _ => body.map stmt
  | .loop target iterable body orElse test _ _ =>
      expr target :: expr iterable :: test.toList.map expr ++ body.map stmt ++ orElse.map stmt
  | .branch (.mk test body others orElse _) =>
      expr test :: body.map stmt ++ others.map branch ++ orElse.map stmt
  | .bind targets values body _ =>
      (targets.zip values).flatMap (fun (target, value) => [expr target, expr value]) ++
        body.map stmt
  | .perform node _ => [expr node]
  | .assign target value _ => [expr target, expr value]
  | .capture target filter body _ => expr target :: filter.toList.map expr ++ body.map stmt
  | .filterBlock filter body _ => expr filter :: body.map stmt
  | .macroBlock _ parameters defaults body _ => ofSignature parameters defaults ++ body.map stmt
  | .callBlock call parameters defaults body _ =>
      ofSignature parameters defaults ++ expr call :: body.map stmt
  | .skip _ | .leave _ => []
  | .scope body _ => body.map stmt
  | .autoescape options body _ => options.map keyword ++ body.map stmt

def children : Node → List Node
  | template node => node.body.map stmt
  | stmt node => ofStmt node
  | branch (.mk test body _ _ _) => expr test :: body.map stmt
  | expr node => ofExpr node
  | entry node => [expr node.key, expr node.value]
  | keyword node => [expr node.value]
  | operand node => [expr node.value]

theorem sizeOf_le_of_mem_map {α : Type} [SizeOf α] {wrap : α → Node} {items : List α} {child : Node}
    (hwrap : ∀ item, sizeOf (wrap item) = 1 + sizeOf item) (h : child ∈ items.map wrap) :
    sizeOf child ≤ sizeOf items := by
  obtain ⟨item, hitem, rfl⟩ := List.mem_map.mp h
  have := List.sizeOf_lt_of_mem hitem
  rw [hwrap]
  omega

theorem sizeOf_le_of_mem_exprs {items : List Expr} {child : Node} (h : child ∈ items.map expr) :
    sizeOf child ≤ sizeOf items :=
  sizeOf_le_of_mem_map (fun _ => rfl) h

theorem sizeOf_le_of_mem_stmts {items : List Stmt} {child : Node} (h : child ∈ items.map stmt) :
    sizeOf child ≤ sizeOf items :=
  sizeOf_le_of_mem_map (fun _ => rfl) h

theorem sizeOf_le_of_mem_option {value : Option Expr} {child : Node}
    (h : child ∈ value.toList.map expr) : sizeOf child ≤ sizeOf value := by
  cases value with
  | none => simp at h
  | some value =>
      simp only [Option.toList_some, List.map_cons, List.map_nil, List.mem_singleton] at h
      simp [h]

theorem mem_withDefaults {parameters defaults : List Expr} {parameter : Expr} {value : Option Expr}
    (h : (parameter, value) ∈ withDefaults parameters defaults) :
    parameter ∈ parameters ∧ ∀ default, value = some default → default ∈ defaults := by
  fun_induction withDefaults parameters defaults <;> grind

theorem sizeOf_le_of_mem_ofArguments {arguments : Arguments Expr} {child : Node}
    (h : child ∈ ofArguments arguments) : sizeOf child ≤ sizeOf arguments := by
  rcases arguments with ⟨positional, keywords, star, doubleStar⟩
  simp only [ofArguments, List.mem_append] at h
  simp only [Arguments.mk.sizeOf_spec]
  rcases h with ((h | h) | h) | h
  · have := sizeOf_le_of_mem_exprs h
    omega
  · have := sizeOf_le_of_mem_map (fun _ => rfl) h
    omega
  · have := sizeOf_le_of_mem_option h
    omega
  · have := sizeOf_le_of_mem_option h
    omega

theorem sizeOf_le_of_mem_ofSignature {parameters defaults : List Expr} {child : Node}
    (h : child ∈ ofSignature parameters defaults) :
    sizeOf child ≤ sizeOf parameters + sizeOf defaults := by
  simp only [ofSignature, List.mem_flatMap, List.mem_cons, List.mem_map, Option.mem_toList] at h
  obtain ⟨⟨parameter, value⟩, hmem, rfl | ⟨item, hitem, rfl⟩⟩ := h
  · have := List.sizeOf_lt_of_mem (mem_withDefaults hmem).1
    simp only [expr.sizeOf_spec]
    omega
  · have := List.sizeOf_lt_of_mem ((mem_withDefaults hmem).2 item hitem)
    simp only [expr.sizeOf_spec]
    omega

theorem sizeOf_le_of_mem_zip {targets values : List Expr} {child : Node}
    (h : child ∈ (targets.zip values).flatMap fun (target, value) => [expr target, expr value]) :
    sizeOf child ≤ sizeOf targets + sizeOf values := by
  simp only [List.mem_flatMap, List.mem_cons, List.not_mem_nil, or_false] at h
  obtain ⟨⟨target, value⟩, hmem, rfl | rfl⟩ := h
  · have := List.sizeOf_lt_of_mem (List.of_mem_zip hmem).1
    simp only [expr.sizeOf_spec]
    omega
  · have := List.sizeOf_lt_of_mem (List.of_mem_zip hmem).2
    simp only [expr.sizeOf_spec]
    omega

theorem sizeOf_le_of_mem_ofExpr {node : Expr} {child : Node} (h : child ∈ ofExpr node) :
    sizeOf child ≤ sizeOf node := by
  cases node with
  | name | member | const | data => simp [ofExpr] at h
  | tuple | list | concat =>
      have := sizeOf_le_of_mem_exprs h
      simp
      omega
  | dict =>
      have := sizeOf_le_of_mem_map (fun _ => rfl) h
      simp
      omega
  | conditional =>
      simp only [ofExpr, List.mem_cons] at h
      rcases h with rfl | rfl | h
      · simp
        omega
      · simp
        omega
      · have := sizeOf_le_of_mem_option h
        simp
        omega
  | binary | item =>
      simp only [ofExpr, List.mem_cons, List.not_mem_nil, or_false] at h
      rcases h with rfl | rfl
      · simp
        omega
      · simp
        omega
  | unary | attr =>
      simp only [ofExpr, List.mem_singleton] at h
      simp [h]
      omega
  | compare =>
      simp only [ofExpr, List.mem_cons] at h
      rcases h with rfl | h
      · simp
        omega
      · have := sizeOf_le_of_mem_map (fun _ => rfl) h
        simp
        omega
  | slice =>
      simp only [ofExpr, List.map_append, List.mem_append] at h
      rcases h with (h | h) | h
      all_goals
        have := sizeOf_le_of_mem_option h
        simp
        omega
  | filter =>
      simp only [ofExpr, List.mem_append] at h
      rcases h with h | h
      · have := sizeOf_le_of_mem_option h
        simp
        omega
      · have := sizeOf_le_of_mem_ofArguments h
        simp
        omega
  | test | call =>
      simp only [ofExpr, List.mem_cons] at h
      rcases h with rfl | h
      · simp
        omega
      · have := sizeOf_le_of_mem_ofArguments h
        simp
        omega

theorem sizeOf_le_of_mem_ofStmt {node : Stmt} {child : Node} (h : child ∈ ofStmt node) :
    sizeOf child ≤ sizeOf node := by
  cases node with
  | skip | leave => simp [ofStmt] at h
  | output | print =>
      have := sizeOf_le_of_mem_exprs h
      simp
      omega
  | extend | perform =>
      simp only [ofStmt, List.mem_singleton] at h
      simp [h]
  | insert | importAs | importNames =>
      simp only [ofStmt, List.mem_singleton] at h
      simp [h]
      omega
  | block | scope =>
      have := sizeOf_le_of_mem_stmts h
      simp
      omega
  | loop =>
      simp only [ofStmt, List.cons_append, List.mem_cons, List.mem_append] at h
      rcases h with rfl | rfl | ((h | h) | h)
      · simp
        omega
      · simp
        omega
      · have := sizeOf_le_of_mem_option h
        simp
        omega
      · have := sizeOf_le_of_mem_stmts h
        simp
        omega
      · have := sizeOf_le_of_mem_stmts h
        simp
        omega
  | branch first =>
      rcases first with ⟨test, body, others, orElse, layout⟩
      simp only [ofStmt, List.cons_append, List.mem_cons, List.mem_append] at h
      rcases h with rfl | ((h | h) | h)
      · simp
        omega
      · have := sizeOf_le_of_mem_stmts h
        simp
        omega
      · have := sizeOf_le_of_mem_map (fun _ => rfl) h
        simp
        omega
      · have := sizeOf_le_of_mem_stmts h
        simp
        omega
  | bind =>
      simp only [ofStmt, List.mem_append] at h
      rcases h with h | h
      · have := sizeOf_le_of_mem_zip h
        simp
        omega
      · have := sizeOf_le_of_mem_stmts h
        simp
        omega
  | assign =>
      simp only [ofStmt, List.mem_cons, List.not_mem_nil, or_false] at h
      rcases h with rfl | rfl
      · simp
        omega
      · simp
        omega
  | capture =>
      simp only [ofStmt, List.cons_append, List.mem_cons, List.mem_append] at h
      rcases h with rfl | h | h
      · simp
        omega
      · have := sizeOf_le_of_mem_option h
        simp
        omega
      · have := sizeOf_le_of_mem_stmts h
        simp
        omega
  | filterBlock =>
      simp only [ofStmt, List.mem_cons] at h
      rcases h with rfl | h
      · simp
        omega
      · have := sizeOf_le_of_mem_stmts h
        simp
        omega
  | macroBlock =>
      simp only [ofStmt, List.mem_append] at h
      rcases h with h | h
      · have := sizeOf_le_of_mem_ofSignature h
        simp
        omega
      · have := sizeOf_le_of_mem_stmts h
        simp
        omega
  | callBlock =>
      simp only [ofStmt, List.mem_append, List.mem_cons] at h
      rcases h with h | rfl | h
      · have := sizeOf_le_of_mem_ofSignature h
        simp
        omega
      · simp
        omega
      · have := sizeOf_le_of_mem_stmts h
        simp
        omega
  | autoescape =>
      simp only [ofStmt, List.mem_append] at h
      rcases h with h | h
      · have := sizeOf_le_of_mem_map (fun _ => rfl) h
        simp
        omega
      · have := sizeOf_le_of_mem_stmts h
        simp
        omega

theorem sizeOf_lt_of_mem_children {node child : Node} (h : child ∈ node.children) :
    sizeOf child < sizeOf node := by
  cases node with
  | template node =>
      rcases node with ⟨body, layout⟩
      have : sizeOf child ≤ sizeOf body := sizeOf_le_of_mem_stmts h
      simp
      omega
  | stmt =>
      have := sizeOf_le_of_mem_ofStmt h
      simp
      omega
  | branch node =>
      rcases node with ⟨test, body, others, orElse, layout⟩
      simp only [children, List.mem_cons] at h
      rcases h with rfl | h
      · simp
        omega
      · have := sizeOf_le_of_mem_stmts h
        simp
        omega
  | expr =>
      have := sizeOf_le_of_mem_ofExpr h
      simp
      omega
  | entry node =>
      rcases node with ⟨key, value, layout⟩
      simp only [children, List.mem_cons, List.not_mem_nil, or_false] at h
      rcases h with rfl | rfl
      · simp
        omega
      · simp
        omega
  | keyword node | operand node =>
      rcases node with ⟨key, value, layout⟩
      simp only [children, List.mem_singleton] at h
      simp [h]
      omega

def preorder (depth : Nat) (node : Node) : List (Nat × Node) :=
  (depth, node) :: node.children.attach.flatMap fun child => preorder (depth + 1) child.1
termination_by sizeOf node
decreasing_by exact sizeOf_lt_of_mem_children child.2

end Node

end JinjaLayout
