import Mathlib
import JinjaLayout.Proofs.Lockstep

/-!
Annotation of a tree that carries a layout already. Main statements: whatever layout a template
carries, annotation with its source succeeds as if it were parsed afresh, changes nothing but the
layout and gives the same text; and whatever was annotated has a text.
-/

namespace JinjaLayout

namespace Alignment

open Writing Node List

/-! ### Statements -/

@[simps -fullyApplied bare trimmed, simps all written]
def statements (env : Environment) (levels : Nat) : Facet Stmt where
  bare := Stmt.bare
  trimmed := Stmt.trimmed
  all good tree := good (.stmt tree)
  written := StmtWritableAt env levels

@[simps -fullyApplied bare trimmed, simps all written]
def branches (env : Environment) (levels : Nat) : Facet Branch where
  bare := Branch.bare
  trimmed := Branch.trimmed
  all good tree := good (.branch tree)
  written tree := WritableAt levels tree.test ∧ ∀ stmt ∈ tree.body, StmtWritableAt env levels stmt

/-- Pieces of an output: template text is not nested. -/
@[simps -fullyApplied bare trimmed, simps all written]
def pieces (levels : Nat) : Facet Expr where
  bare := Expr.bare
  trimmed := Expr.trimmed
  all good tree := good (.expr tree)
  written tree := tree.isData = false → WritableAt levels tree

section Statements

variable {env : Environment} {levels : Nat}

/-! ### Shapes -/

theorem shape_stmt {α : Type} {parts : Facet α} {build : α → Layout → Stmt}
    (hbare : ∀ values layout, (build values layout).bare = build (parts.bare values) {})
    (htrimmed : ∀ values layout,
      (build values layout).trimmed = build (parts.trimmed values) layout.trimmed)
    (hinside : ∀ good values layout,
      (∀ child ∈ (Node.stmt (build values layout)).inside, good child) ↔ parts.all good values)
    (hexprs : ∀ values layout, parts.written values →
      ∀ expr ∈ exprPieces (build values layout), WritableAt levels expr)
    (hstmts : ∀ values layout, parts.written values →
      ∀ inner ∈ stmtPieces (build values layout), StmtWritableAt env levels inner) :
    parts.Shape .trimmed (statements env (levels + 1)) build :=
  shape_node .stmt (fun _ _ => rfl) hbare htrimmed hinside fun values layout h =>
    stmtWritableAt_succ (hexprs values layout h) (hstmts values layout h)

theorem shape_tag {build : Expr → Layout → Stmt}
    (hbare : ∀ expr layout, (build expr layout).bare = build expr.bare {})
    (htrimmed : ∀ expr layout, (build expr layout).trimmed = build expr.trimmed layout.trimmed)
    (hinside : ∀ expr layout, (Node.stmt (build expr layout)).inside = [.expr expr])
    (hpieces : ∀ expr layout, exprPieces (build expr layout) = [expr] ∨
      exprPieces (build expr layout) = barePieces expr)
    (hstmts : ∀ expr layout, stmtPieces (build expr layout) = []) :
    (exprs levels).Shape .trimmed (statements env (levels + 1)) build := by
  refine shape_stmt hbare htrimmed (by simp [hinside]) ?_ (by simp [hstmts])
  intro expr layout hwritten
  rcases hpieces expr layout with h | h
  · simpa [h] using hwritten
  · rw [h]
    exact WritableAt.barePieces hwritten

theorem shape_insert (ignoreMissing : Bool) (withContext : Option Bool) :
    (exprs levels).Shape .trimmed (statements env (levels + 1))
      fun template layout => .insert template ignoreMissing withContext layout :=
  shape_tag (fun _ _ => rfl) (fun _ _ => rfl) (fun _ _ => rfl) (fun _ _ => .inl rfl) fun _ _ => rfl

theorem shape_importAs (target : Text) (withContext : Option Bool) :
    (exprs levels).Shape .trimmed (statements env (levels + 1))
      fun template layout => .importAs template target withContext layout :=
  shape_tag (fun _ _ => rfl) (fun _ _ => rfl) (fun _ _ => rfl) (fun _ _ => .inl rfl) fun _ _ => rfl

theorem shape_importNames (names : List ImportedName) (withContext : Option Bool) :
    (exprs levels).Shape .trimmed (statements env (levels + 1))
      fun template layout => .importNames template names withContext layout :=
  shape_tag (fun _ _ => rfl) (fun _ _ => rfl) (fun _ _ => rfl) (fun _ _ => .inl rfl) fun _ _ => rfl

theorem shape_output :
    (pieces levels).list.Shape .trimmed (statements env (levels + 1))
      fun nodes layout => .output nodes layout := by
  refine shape_stmt (by simp [Stmt.bare, bareExprs_eq_map])
    (by simp [Stmt.trimmed, trimmedExprs_eq_map]) (by simp [inside, children, ofStmt])
    ?_ (by simp [stmtPieces])
  intro nodes layout hwritten
  simp only [exprPieces, forall_mem_flatMap]
  intro node hnode
  cases hdata : node.isData with
  | true => simp
  | false => exact WritableAt.barePieces (hwritten node hnode hdata)

theorem shape_print :
    (exprs levels).list.Shape .trimmed (statements env (levels + 1))
      fun nodes layout => .print nodes layout :=
  shape_stmt (by simp [Stmt.bare, bareExprs_eq_map])
    (by simp [Stmt.trimmed, trimmedExprs_eq_map]) (by simp [inside, children, ofStmt])
    (by simp [exprPieces]) (by simp [stmtPieces])

theorem shape_block (name : Text) (isScoped isRequired endNamed : Bool) :
    (statements env levels).list.Shape .trimmed (statements env (levels + 1))
      fun stmts layout => .block name stmts isScoped isRequired endNamed layout :=
  shape_stmt (by simp [Stmt.bare, bareStmts_eq_map]) (by simp [Stmt.trimmed, trimmedStmts_eq_map])
    (by simp [inside, children, ofStmt]) (by simp [exprPieces]) (by simp [stmtPieces])

theorem shape_loop (nested : Bool) :
    ((exprs levels).prod ((exprs levels).prod ((exprs levels).option.prod
      ((statements env levels).list.prod (statements env levels).list)))).Shape .trimmed
      (statements env (levels + 1))
      fun parts layout => .loop parts.1 parts.2.1 parts.2.2.2.1 parts.2.2.2.2 parts.2.2.1 nested
        layout := by
  refine shape_stmt (by simp [Stmt.bare, bareOption_eq_map, bareStmts_eq_map])
    (by simp [Stmt.trimmed, trimmedOption_eq_map, trimmedStmts_eq_map])
    (by simp [inside, children, ofStmt, or_imp, forall_and]) ?_
    (by simp +contextual [stmtPieces, or_imp])
  rintro ⟨target, iterable, test, body, orElse⟩ layout ⟨htarget, hiterable, htest, -⟩
  simp only [exprPieces, forall_mem_append]
  exact ⟨⟨WritableAt.barePieces htarget, WritableAt.barePieces hiterable⟩, by simpa using htest⟩

theorem shape_further :
    ((exprs levels).prod ((statements env levels).list.prod
      ((branches env levels).list.prod (statements env levels).list))).Shape .trimmed
      (branches env levels)
      fun parts layout => .mk parts.1 parts.2.1 parts.2.2.1 parts.2.2.2 layout :=
  shape_node .branch (fun _ _ => rfl) (by simp [Branch.bare, bareStmts_eq_map, bareBranches_eq_map])
    (by simp [Branch.trimmed, trimmedStmts_eq_map, trimmedBranches_eq_map])
    (by simp [inside, or_imp, forall_and]) fun _ _ h => ⟨h.1, h.2.1⟩

theorem shape_branch :
    ((exprs levels).prod ((statements env levels).list.prod
      ((branches env levels).list.prod (statements env levels).list))).Shape .trimmed
      (statements env (levels + 1))
      fun parts layout => .branch (.mk parts.1 parts.2.1 parts.2.2.1 parts.2.2.2 layout) := by
  refine shape_stmt (by simp [Stmt.bare, Branch.bare, bareStmts_eq_map, bareBranches_eq_map])
    (by simp [Stmt.trimmed, Branch.trimmed, trimmedStmts_eq_map, trimmedBranches_eq_map])
    (by simp [inside, children, ofStmt, or_imp, forall_and]) ?_ ?_
  · rintro ⟨test, body, others, orElse⟩ layout ⟨htest, -, hothers, -⟩
    simp only [exprPieces, forall_mem_append, forall_mem_flatMap]
    exact ⟨WritableAt.barePieces htest, fun other hother => WritableAt.barePieces (hothers other hother).1⟩
  · rintro ⟨test, body, others, orElse⟩ layout ⟨-, hbody, hothers, horElse⟩
    simp only [stmtPieces, forall_mem_append, forall_mem_flatMap]
    exact ⟨⟨hbody, fun other hother => (hothers other hother).2⟩, horElse⟩

theorem shape_bind :
    ((exprs levels).list.prod ((exprs levels).list.prod (statements env levels).list)).Shape .trimmed
      (statements env (levels + 1))
      fun parts layout => .bind parts.1 parts.2.1 parts.2.2 layout := by
  refine shape_stmt (by simp [Stmt.bare, bareExprs_eq_map, bareStmts_eq_map])
    (by simp [Stmt.trimmed, trimmedExprs_eq_map, trimmedStmts_eq_map])
    (by simp [inside, or_imp, forall_and]) ?_ (by simp [stmtPieces])
  rintro ⟨targets, values, body⟩ layout ⟨htargets, hvalues, -⟩
  simp only [exprPieces, forall_mem_flatMap, forall_mem_append, forall_mem_singleton]
  intro node hnode
  obtain ⟨htarget, hvalue⟩ := of_mem_zip hnode
  exact ⟨WritableAt.barePieces (htargets _ htarget), hvalues _ hvalue⟩

theorem shape_assign :
    ((exprs levels).prod (exprs levels)).Shape .trimmed (statements env (levels + 1))
      fun parts layout => .assign parts.1 parts.2 layout := by
  refine shape_stmt (by simp [Stmt.bare]) (by simp [Stmt.trimmed])
    (by simp [inside, children, ofStmt, or_imp, forall_and]) ?_ (by simp [stmtPieces])
  rintro ⟨target, value⟩ layout ⟨htarget, hvalue⟩
  simp only [exprPieces, forall_mem_append]
  exact ⟨WritableAt.barePieces htarget, WritableAt.barePieces hvalue⟩

theorem shape_capture :
    ((exprs levels).prod ((exprs levels).option.prod (statements env levels).list)).Shape .trimmed
      (statements env (levels + 1))
      fun parts layout => .capture parts.1 parts.2.1 parts.2.2 layout := by
  refine shape_stmt (by simp [Stmt.bare, bareOption_eq_map, bareStmts_eq_map])
    (by simp [Stmt.trimmed, trimmedOption_eq_map, trimmedStmts_eq_map])
    (by simp [inside, children, ofStmt, or_imp, forall_and]) ?_
    (by simp [stmtPieces])
  rintro ⟨target, filter, body⟩ layout ⟨htarget, hfilter, -⟩
  simp only [exprPieces, forall_mem_append]
  exact ⟨WritableAt.barePieces htarget, by simpa using hfilter⟩

theorem shape_filterBlock :
    ((exprs levels).prod (statements env levels).list).Shape .trimmed (statements env (levels + 1))
      fun parts layout => .filterBlock parts.1 parts.2 layout :=
  shape_stmt (by simp [Stmt.bare, bareStmts_eq_map]) (by simp [Stmt.trimmed, trimmedStmts_eq_map])
    (by simp [inside, children, ofStmt, or_imp, forall_and]) (by simp +contextual [exprPieces])
    (by simp [stmtPieces])

theorem forall_signaturePieces {parameters defaults : List Expr}
    (hparameters : ∀ expr ∈ parameters, WritableAt levels expr)
    (hdefaults : ∀ expr ∈ defaults, WritableAt levels expr) :
    ∀ expr ∈ signaturePieces parameters defaults, WritableAt levels expr := by
  simp only [signaturePieces, forall_mem_flatMap, forall_mem_cons]
  intro node hnode
  have hmem := Node.mem_withDefaults hnode
  refine ⟨hparameters _ hmem.1, fun value hvalue => hdefaults value (hmem.2 value ?_)⟩
  simpa using hvalue

theorem shape_macroBlock (name : Text) :
    ((exprs levels).list.prod ((exprs levels).list.prod (statements env levels).list)).Shape .trimmed
      (statements env (levels + 1))
      fun parts layout => .macroBlock name parts.1 parts.2.1 parts.2.2 layout := by
  refine shape_stmt (by simp [Stmt.bare, bareExprs_eq_map, bareStmts_eq_map])
    (by simp [Stmt.trimmed, trimmedExprs_eq_map, trimmedStmts_eq_map])
    (by simp [inside, or_imp, forall_and]) ?_ (by simp [stmtPieces])
  rintro ⟨parameters, defaults, body⟩ layout ⟨hparameters, hdefaults, -⟩
  exact forall_signaturePieces hparameters hdefaults

theorem shape_callBlock :
    ((exprs levels).prod ((exprs levels).list.prod ((exprs levels).list.prod
      (statements env levels).list))).Shape .trimmed (statements env (levels + 1))
      fun parts layout => .callBlock parts.1 parts.2.1 parts.2.2.1 parts.2.2.2 layout := by
  refine shape_stmt (by simp [Stmt.bare, bareExprs_eq_map, bareStmts_eq_map])
    (by simp [Stmt.trimmed, trimmedExprs_eq_map, trimmedStmts_eq_map])
    (by simp [inside, or_imp, forall_and]) ?_ (by simp [stmtPieces])
  rintro ⟨call, parameters, defaults, body⟩ layout ⟨hcall, hparameters, hdefaults, -⟩
  simp only [exprPieces, forall_mem_append, forall_mem_singleton]
  exact ⟨forall_signaturePieces hparameters hdefaults, hcall⟩

theorem shape_autoescape :
    ((namedArguments levels).list.prod (statements env levels).list).Shape .trimmed
      (statements env (levels + 1)) fun parts layout => .autoescape parts.1 parts.2 layout :=
  shape_stmt (by simp [Stmt.bare, bareKeywords_eq_map, bareStmts_eq_map])
    (by simp [Stmt.trimmed, trimmedKeywords_eq_map, trimmedStmts_eq_map])
    (by simp [inside, children, ofStmt, or_imp, forall_and])
    (by simp +contextual [exprPieces]) (by simp [stmtPieces])

theorem shape_scope :
    (statements env levels).list.Shape (fun _ => {}) (statements env (levels + 1))
      fun stmts layout => .scope stmts layout :=
  shape_node .stmt (fun _ _ => rfl) (by simp [Stmt.bare, bareStmts_eq_map])
    (by simp [Stmt.trimmed, trimmedStmts_eq_map]) (by simp [inside, children, ofStmt])
    fun _ _ h => stmtWritableAt_succ (by simp [exprPieces]) h

theorem shape_keyword {build : Layout → Stmt} (hbare : ∀ layout, (build layout).bare = build {})
    (htrimmed : ∀ layout, (build layout).trimmed = build layout.trimmed)
    (hinside : ∀ layout, (Node.stmt (build layout)).inside = [])
    (hexprs : ∀ layout, exprPieces (build layout) = [])
    (hstmts : ∀ layout, stmtPieces (build layout) = []) :
    Facet.nothing.Shape .trimmed (statements env (levels + 1)) fun _ layout => build layout :=
  shape_stmt (fun _ => hbare) (fun _ => htrimmed) (by simp [hinside]) (by simp [hexprs])
    (by simp [hstmts])

/-! ### Parts that are left -/

theorem loose_statements : (statements env levels).Loose := by
  intro tree
  have hunmarked : ¬(Node.stmt tree.bare).IsMarked := by
    rintro ⟨hspan, _⟩
    cases tree with
    | branch first =>
        cases first
        simp [Node.layout, Stmt.bare, Stmt.layout, Branch.bare, Branch.layout] at hspan
    | _ => simp [Node.layout, Stmt.bare, Stmt.layout] at hspan
  refine ⟨rfl, tree.bare_bare, fun hmarked => ?_, fun hmarked => ?_, isTidy_of_isFresh⟩
  all_goals exact absurd hmarked hunmarked

theorem loose_branches : (branches env levels).Loose := by
  rintro ⟨test, body, others, orElse, layout⟩
  have hunmarked : ¬(Node.branch (Branch.mk test body others orElse layout).bare).IsMarked := by
    rintro ⟨hspan, _⟩
    simp [Node.layout, Branch.bare, Branch.layout] at hspan
  refine ⟨rfl, Branch.bare_bare _, fun hmarked => ?_, fun hmarked => ?_, isTidy_of_isFresh⟩
  all_goals exact absurd hmarked hunmarked

/-! ### Lists that go together -/

theorem map_fst_withDefaults (parameters defaults : List Expr) :
    (withDefaults parameters defaults).map Prod.fst = parameters := by
  fun_induction withDefaults parameters defaults <;> simp_all

theorem filterMap_snd_withDefaults (parameters defaults : List Expr) :
    (withDefaults parameters defaults).filterMap Prod.snd ++ defaults.drop parameters.length =
      defaults := by
  fun_induction withDefaults parameters defaults with
  | case1 => simp
  | case2 parameter parameters ih => simpa using ih
  | case3 parameter parameters default defaults hle ih => simpa using ih
  | case4 parameter parameters default defaults hlt ih =>
      rw [drop_eq_nil_of_le (by simp; omega)] at ih ⊢
      simpa using ih

theorem Facet.Fits.reduceOption {α : Type} {facet : Facet α} {trees results plains : List (Option α)}
    (h : facet.option.list.Fits trees results plains) :
    facet.list.Fits trees.reduceOption results.reduceOption plains.reduceOption := by
  have hall : ∀ {good values},
      facet.list.all good values.reduceOption → facet.option.list.all good values := by
    intro good values hgood value hvalue item hitem
    obtain rfl := Option.mem_def.mp hitem
    exact hgood item (reduceOption_mem_iff.mpr hvalue)
  refine ⟨?_, ?_, fun hmarked => ?_, fun hmarked item hitem => ?_, fun hfresh item hitem => ?_⟩
  · simpa [List.reduceOption_map] using congrArg List.reduceOption h.bare
  · simpa [List.reduceOption_map] using congrArg List.reduceOption h.same
  · simpa [List.reduceOption_map] using congrArg List.reduceOption (h.trimmed (hall hmarked))
  · exact h.written (hall hmarked) _ (reduceOption_mem_iff.mp hitem) item rfl
  · exact h.tidy (hall hfresh) _ (reduceOption_mem_iff.mp hitem) item rfl

theorem map_fst_zip_append {α β : Type} (first : List α) (second : List β) :
    (first.zip second).map Prod.fst ++ first.drop (first.zip second).length = first := by
  induction first generalizing second with
  | nil => rfl
  | cons a first ih =>
      cases second with
      | nil => rfl
      | cons b second => simpa using ih second

theorem map_snd_zip_append {α β : Type} (first : List α) (second : List β) :
    (first.zip second).map Prod.snd ++ second.drop (first.zip second).length = second := by
  induction second generalizing first with
  | nil => simp
  | cons b second ih =>
      cases first with
      | nil => rfl
      | cons a first => simpa using ih first

/-! ### The walk -/

abbrev Alike (layout layout₀ : Layout) : Prop :=
  layout.trimmed = layout₀.trimmed

theorem inStep_sealed (layout layout₀ : Layout) (start : Nat) (pairs : List TagPair) :
    InStep (sealed layout start pairs) (sealed layout₀ start pairs) Alike :=
  InStep.after _ fun _ => Lockstep.pure rfl

theorem inStep_single (layout layout₀ : Layout) (tag : OpenTag) :
    InStep (single layout tag) (single layout₀ tag) Alike :=
  InStep.after _ fun _ => inStep_sealed _ _ _ _

variable {visit : Visitors}

section Bodies

variable (hstmt : Keeps (statements env levels) visit.stmt)

include hstmt

theorem inStep_body (stmts : List Stmt) :
    InStep (visit.body stmts) (visit.body (bareStmts stmts))
      ((statements env levels).list.Fits stmts) := by
  rw [bareStmts_eq_map]
  exact Keeps.mapM hstmt stmts

theorem inStep_enclosed (layout layout₀ : Layout) (tag : OpenTag) (stmts : List Stmt) (stop : Text) :
    InStep (enclosed visit layout tag stmts stop)
      (enclosed visit layout₀ tag (bareStmts stmts) stop) fun result plain =>
        (statements env levels).list.Fits stmts result.1 plain.1 ∧ Alike result.2 plain.2 := by
  refine InStep.after _ fun _ => Lockstep.bind (inStep_body hstmt stmts) fun _ _ hstmts => ?_
  refine InStep.after _ fun _ => Lockstep.bind (inStep_sealed _ _ _ _) fun _ _ halike => ?_
  exact Lockstep.pure ⟨hstmts, halike⟩

theorem inStep_otherwise (stmts : List Stmt) :
    InStep (otherwise visit stmts) (otherwise visit (bareStmts stmts)) fun result plain =>
      (statements env levels).list.Fits stmts result.1 plain.1 ∧ result.2 = plain.2 := by
  have hsome : InStep (do
      let pair ← keywordTag "else"
      return (← visit.body stmts, [pair])) (do
      let pair ← keywordTag "else"
      return (← visit.body (bareStmts stmts), [pair])) fun result plain =>
        (statements env levels).list.Fits stmts result.1 plain.1 ∧ result.2 = plain.2 :=
    InStep.after _ fun _ => Lockstep.bind (inStep_body hstmt stmts) fun _ _ hstmts =>
      Lockstep.pure ⟨hstmts, rfl⟩
  cases stmts with
  | nil =>
      exact InStep.after _ fun _ => InStep.ite hsome (Lockstep.pure ⟨.nil, rfl⟩)
  | cons stmt stmts => exact InStep.after _ fun _ => hsome

end Bodies

section Exprs

variable (hexpr : Keeps (exprs levels) visit.expr)

include hexpr

theorem keepsBoth_parameter :
    KeepsBoth (exprs levels) (exprs levels).option (parameter visit) := by
  rintro ⟨name, value⟩
  have hdefault : Keeps (exprs levels) fun value => (do
      expectOperator "="
      visit.expr value : Walking Expr) :=
    fun tree => InStep.after _ fun _ => hexpr tree
  refine Lockstep.bind (hexpr name) fun _ _ hname => ?_
  refine Lockstep.bind (hdefault.optionMapM value) fun _ _ hvalue => ?_
  exact InStep.after _ fun _ => Lockstep.pure ⟨hname, hvalue⟩

theorem keepsBoth_bound : KeepsBoth (exprs levels) (exprs levels) (bound visit) := by
  rintro ⟨target, value⟩
  refine Lockstep.bind (hexpr target) fun _ _ htarget => InStep.after _ fun _ => ?_
  refine Lockstep.bind (hexpr value) fun _ _ hvalue => ?_
  exact InStep.after _ fun _ => Lockstep.pure ⟨htarget, hvalue⟩

theorem inStep_signature (parameters defaults : List Expr) :
    InStep (signature visit parameters defaults)
      (signature visit (bareExprs parameters) (bareExprs defaults)) fun result plain =>
        (exprs levels).list.Fits parameters result.1 plain.1 ∧
          (exprs levels).list.Fits defaults result.2 plain.2 := by
  rw [bareExprs_eq_map, bareExprs_eq_map]
  refine InStep.after _ fun _ => ?_
  rw [withDefaults_map]
  refine Lockstep.bind ((keepsBoth_parameter hexpr).mapM (withDefaults parameters defaults)) ?_
  rintro results plains ⟨hnames, hvalues⟩
  refine InStep.after _ fun _ => Lockstep.pure ⟨?_, ?_⟩
  · rwa [map_fst_withDefaults] at hnames
  · have hdefaults := hvalues.reduceOption.append
      (loose_exprs.list (defaults.drop parameters.length))
    simpa [filterMap_snd_withDefaults, reduceOption, filterMap_map] using hdefaults

theorem inStep_bindings (targets values : List Expr) :
    InStep ((targets.zip values).mapM (bound visit))
      (((bareExprs targets).zip (bareExprs values)).mapM (bound visit)) fun results plains =>
        (exprs levels).list.Fits targets (results.map Prod.fst ++ targets.drop results.length)
            (plains.map Prod.fst ++ (bareExprs targets).drop plains.length) ∧
          (exprs levels).list.Fits values (results.map Prod.snd ++ values.drop results.length)
            (plains.map Prod.snd ++ (bareExprs values).drop plains.length) := by
  rw [bareExprs_eq_map, bareExprs_eq_map, zip_map]
  refine Lockstep.mono ((keepsBoth_bound hexpr).mapM (targets.zip values)) ?_
  rintro results plains ⟨htargets, hvalues⟩
  have hresults : results.length = (targets.zip values).length := by
    simpa using congrArg length htargets.bare
  have hplains : plains.length = (targets.zip values).length := by
    simpa using congrArg length htargets.same
  rw [hresults, hplains]
  constructor
  · have hall := htargets.append (loose_exprs.list (targets.drop (targets.zip values).length))
    rwa [map_fst_zip_append, Facet.list_bare, map_drop] at hall
  · have hall := hvalues.append (loose_exprs.list (values.drop (targets.zip values).length))
    rwa [map_snd_zip_append, Facet.list_bare, map_drop] at hall

theorem keepsBeside_outputNode : KeepsBeside (pieces levels) (outputNode visit) := by
  intro tree
  have hnode : ∀ tree : Expr, InStep (do
      let tag ← openTag .variableBegin
      let expr ← visit.expr tree
      let pair ← closeTag tag .variableEnd
      return (expr, tag.start, some pair)) (do
      let tag ← openTag .variableBegin
      let expr ← visit.expr tree.bare
      let pair ← closeTag tag .variableEnd
      return (expr, tag.start, some pair)) fun result plain =>
        (pieces levels).Fits tree result.1 plain.1 ∧ result.2 = plain.2 := by
    intro tree
    refine InStep.after _ fun _ => Lockstep.bind (hexpr tree) fun _ _ hfits => ?_
    exact InStep.after _ fun _ => Lockstep.pure
      ⟨⟨hfits.bare, hfits.same, hfits.trimmed, fun hmarked _ => hfits.written hmarked, hfits.tidy⟩,
        rfl⟩
  cases tree with
  | data text layout =>
      refine InStep.after _ fun found => Lockstep.pure
        ⟨⟨rfl, rfl, fun _ => rfl, by rintro _ ⟨⟩, fun hfresh => ?_⟩, rfl⟩
      exact .mk hfresh.holds (by simp [inside, children, ofExpr])
  | _ => exact hnode _

theorem inStep_output (nodes : List Expr) (layout : Layout) :
    InStep (output visit nodes layout) (output visit (bareExprs nodes) {})
      ((statements env (levels + 1)).Fits (.output nodes layout)) := by
  rw [bareExprs_eq_map]
  refine InStep.after _ fun start => ?_
  refine Lockstep.bind ((keepsBeside_outputNode hexpr).mapM nodes) ?_
  rintro results plains ⟨hnodes, hothers⟩
  have hstart : results.head?.map (fun node => node.2.1) = plains.head?.map fun node => node.2.1 := by
    simpa [Function.comp_def] using congrArg (fun others => others.head?.map Prod.fst) hothers
  have hpairs : results.filterMap (fun node => node.2.2) = plains.filterMap fun node => node.2.2 := by
    simpa [filterMap_map, Function.comp_def] using
      congrArg (fun others => others.filterMap Prod.snd) hothers
  dsimp only
  rw [hstart, hpairs]
  refine Lockstep.bind (inStep_sealed _ _ _ _) fun _ _ halike => ?_
  exact Lockstep.pure (shape_output.fits hnodes halike)

end Exprs

section Both

variable (hexpr : Keeps (exprs levels) visit.expr) (hstmt : Keeps (statements env levels) visit.stmt)

include hexpr hstmt

theorem keepsBeside_furtherBranch : KeepsBeside (branches env levels) (furtherBranch visit) := by
  rintro ⟨test, body, others, orElse, layout⟩
  rw [branches_bare, Branch.bare, bareStmts_eq_map orElse, bareBranches_eq_map]
  refine InStep.after _ fun _ => Lockstep.bind (hexpr test) fun _ _ htest => ?_
  refine InStep.after _ fun _ => Lockstep.bind (inStep_body hstmt body) fun _ _ hbody => ?_
  refine Lockstep.bind (inStep_sealed _ _ _ _) fun _ _ halike => Lockstep.pure ⟨?_, rfl⟩
  exact shape_further.fits (htest.pair (hbody.pair ((loose_branches.list others).pair
    (loose_statements.list orElse)))) halike

theorem inStep_branch (first : Branch) :
    InStep (branch visit first) (branch visit first.bare) fun result plain =>
      (statements env (levels + 1)).Fits (.branch first) (.branch result) (.branch plain) := by
  rcases first with ⟨test, body, others, orElse, layout⟩
  rw [Branch.bare, bareBranches_eq_map]
  refine InStep.after _ fun _ => Lockstep.bind (hexpr test) fun _ _ htest => ?_
  refine InStep.after _ fun _ => ?_
  refine Lockstep.bind (inStep_body hstmt body) fun _ _ hbody => ?_
  refine Lockstep.bind ((keepsBeside_furtherBranch hexpr hstmt).mapM others) ?_
  rintro results plains ⟨hothers, hpairs⟩
  refine Lockstep.bind (inStep_otherwise hstmt orElse) ?_
  rintro ⟨orElse', pairs⟩ ⟨orElse₀, _⟩ ⟨horElse, rfl⟩
  refine InStep.after _ fun _ => ?_
  dsimp only
  rw [hpairs]
  refine Lockstep.bind (inStep_sealed _ _ _ _) fun _ _ halike => Lockstep.pure ?_
  exact shape_branch.fits (htest.pair (hbody.pair (hothers.pair horElse))) halike

theorem inStep_statementContent (stmt : Stmt) :
    InStep (statementContent visit stmt) (statementContent visit stmt.bare)
      ((statements env (levels + 1)).Fits stmt) := by
  cases stmt with
  | output nodes layout => exact inStep_output hexpr nodes layout
  | print nodes layout =>
      have hnode : Keeps (exprs levels) fun node => (do
          let node ← visit.expr node
          skipComma
          return node : Walking Expr) :=
        fun tree => Lockstep.bind (hexpr tree) fun _ _ hfits =>
          InStep.after _ fun _ => Lockstep.pure hfits
      rw [Stmt.bare, bareExprs_eq_map]
      refine InStep.after _ fun _ => Lockstep.bind (hnode.mapM nodes) fun _ _ hnodes => ?_
      exact Lockstep.bind (inStep_single _ _ _) fun _ _ halike =>
        Lockstep.pure (shape_print.fits hnodes halike)
  | extend template layout =>
      refine InStep.after _ fun _ => Lockstep.bind (hexpr template) fun _ _ htemplate => ?_
      refine Lockstep.bind (inStep_single _ _ _) fun _ _ halike => Lockstep.pure ?_
      exact (shape_tag (fun _ _ => rfl) (fun _ _ => rfl) (fun _ _ => rfl) (fun _ _ => .inr rfl)
        fun _ _ => rfl).fits htemplate halike
  | block name body isScoped isRequired endNamed layout =>
      refine InStep.after _ fun _ => InStep.after _ fun _ =>
        InStep.afterIf _ (InStep.afterIf _ (InStep.after _ fun _ => ?_))
      refine Lockstep.bind (inStep_body hstmt body) fun _ _ hbody => ?_
      refine InStep.after _ fun _ => InStep.afterIf _ (InStep.after _ fun _ => ?_)
      exact Lockstep.bind (inStep_sealed _ _ _ _) fun _ _ halike =>
        Lockstep.pure ((shape_block name isScoped isRequired endNamed).fits hbody halike)
  | insert template ignoreMissing withContext layout =>
      refine InStep.after _ fun _ => Lockstep.bind (hexpr template) fun _ _ htemplate => ?_
      refine InStep.afterIf _ (InStep.after _ fun _ => ?_)
      exact Lockstep.bind (inStep_single _ _ _) fun _ _ halike =>
        Lockstep.pure ((shape_insert ignoreMissing withContext).fits htemplate halike)
  | importAs template target withContext layout =>
      refine InStep.after _ fun _ => Lockstep.bind (hexpr template) fun _ _ htemplate => ?_
      refine InStep.after _ fun _ => InStep.after _ fun _ => ?_
      exact Lockstep.bind (inStep_single _ _ _) fun _ _ halike =>
        Lockstep.pure ((shape_importAs target withContext).fits htemplate halike)
  | importNames template names withContext layout =>
      refine InStep.after _ fun _ => Lockstep.bind (hexpr template) fun _ _ htemplate => ?_
      refine InStep.after _ fun _ => InStep.after _ fun _ => InStep.after _ fun _ => ?_
      exact Lockstep.bind (inStep_single _ _ _) fun _ _ halike =>
        Lockstep.pure ((shape_importNames names withContext).fits htemplate halike)
  | loop target iterable body orElse test nested layout =>
      have htest : Keeps (exprs levels) fun test => (do
          expectName "if"
          visit.expr test : Walking Expr) :=
        fun tree => InStep.after _ fun _ => hexpr tree
      rw [Stmt.bare, bareOption_eq_map]
      refine InStep.after _ fun _ => Lockstep.bind (hexpr target) fun _ _ htarget => ?_
      refine InStep.after _ fun _ => Lockstep.bind (hexpr iterable) fun _ _ hiterable => ?_
      refine Lockstep.bind (htest.optionMapM test) fun _ _ htest => ?_
      refine InStep.afterIf _ (InStep.after _ fun _ => ?_)
      refine Lockstep.bind (inStep_body hstmt body) fun _ _ hbody => ?_
      refine Lockstep.bind (inStep_otherwise hstmt orElse) ?_
      rintro ⟨orElse', pairs⟩ ⟨orElse₀, _⟩ ⟨horElse, rfl⟩
      refine InStep.after _ fun _ => Lockstep.bind (inStep_sealed _ _ _ _) fun _ _ halike => ?_
      exact Lockstep.pure ((shape_loop nested).fits
        (htarget.pair (hiterable.pair (htest.pair (hbody.pair horElse)))) halike)
  | branch first =>
      exact Lockstep.bind (inStep_branch hexpr hstmt first) fun _ _ hbranch =>
        Lockstep.pure hbranch
  | bind targets values body layout =>
      refine InStep.after _ fun _ => Lockstep.bind (inStep_bindings hexpr targets values) ?_
      rintro results plains ⟨htargets, hvalues⟩
      refine Lockstep.bind (inStep_enclosed hstmt _ _ _ _ _) ?_
      rintro ⟨body, layout⟩ ⟨body₀, layout₀⟩ ⟨hbody, halike⟩
      exact Lockstep.pure (shape_bind.fits (htargets.pair (hvalues.pair hbody)) halike)
  | perform node layout =>
      refine InStep.after _ fun _ => Lockstep.bind (hexpr node) fun _ _ hnode => ?_
      refine Lockstep.bind (inStep_single _ _ _) fun _ _ halike => Lockstep.pure ?_
      exact (shape_tag (fun _ _ => rfl) (fun _ _ => rfl) (fun _ _ => rfl) (fun _ _ => .inr rfl)
        fun _ _ => rfl).fits hnode halike
  | assign target value layout =>
      refine InStep.after _ fun _ => Lockstep.bind (hexpr target) fun _ _ htarget => ?_
      refine InStep.after _ fun _ => Lockstep.bind (hexpr value) fun _ _ hvalue => ?_
      exact Lockstep.bind (inStep_single _ _ _) fun _ _ halike =>
        Lockstep.pure (shape_assign.fits (htarget.pair hvalue) halike)
  | capture target filter body layout =>
      rw [Stmt.bare, bareOption_eq_map]
      refine InStep.after _ fun _ => Lockstep.bind (hexpr target) fun _ _ htarget => ?_
      refine Lockstep.bind (Keeps.optionMapM hexpr filter) fun _ _ hfilter => ?_
      refine Lockstep.bind (inStep_enclosed hstmt _ _ _ _ _) ?_
      rintro ⟨body, layout⟩ ⟨body₀, layout₀⟩ ⟨hbody, halike⟩
      exact Lockstep.pure (shape_capture.fits (htarget.pair (hfilter.pair hbody)) halike)
  | filterBlock filter body layout =>
      refine InStep.after _ fun _ => Lockstep.bind (hexpr filter) fun _ _ hfilter => ?_
      refine Lockstep.bind (inStep_enclosed hstmt _ _ _ _ _) ?_
      rintro ⟨body, layout⟩ ⟨body₀, layout₀⟩ ⟨hbody, halike⟩
      exact Lockstep.pure (shape_filterBlock.fits (hfilter.pair hbody) halike)
  | macroBlock name parameters defaults body layout =>
      refine InStep.after _ fun _ => InStep.after _ fun _ =>
        Lockstep.bind (inStep_signature hexpr parameters defaults) ?_
      rintro ⟨parameters, defaults⟩ ⟨parameters₀, defaults₀⟩ ⟨hparameters, hdefaults⟩
      refine Lockstep.bind (inStep_enclosed hstmt _ _ _ _ _) ?_
      rintro ⟨body, layout⟩ ⟨body₀, layout₀⟩ ⟨hbody, halike⟩
      exact Lockstep.pure
        ((shape_macroBlock name).fits (hparameters.pair (hdefaults.pair hbody)) halike)
  | callBlock call parameters defaults body layout =>
      refine InStep.after _ fun tag => InStep.after _ fun next => ?_
      have hrest : ∀ results plains : List Expr × List Expr,
          (exprs levels).list.Fits parameters results.1 plains.1 →
          (exprs levels).list.Fits defaults results.2 plains.2 →
          InStep (do
            let call ← visit.expr call
            let rest ← enclosed visit layout tag body "endcall"
            return Stmt.callBlock call results.1 results.2 rest.1 rest.2) (do
            let call ← visit.expr call.bare
            let rest ← enclosed visit {} tag (bareStmts body) "endcall"
            return Stmt.callBlock call plains.1 plains.2 rest.1 rest.2)
            ((statements env (levels + 1)).Fits (.callBlock call parameters defaults body layout)) := by
        intro results plains hparameters hdefaults
        refine Lockstep.bind (hexpr call) fun _ _ hcall => ?_
        refine Lockstep.bind (inStep_enclosed hstmt _ _ _ _ _) ?_
        rintro ⟨body, layout⟩ ⟨body₀, layout₀⟩ ⟨hbody, halike⟩
        exact Lockstep.pure
          (shape_callBlock.fits (hcall.pair (hparameters.pair (hdefaults.pair hbody))) halike)
      refine InStep.ite (Lockstep.bind (inStep_signature hexpr parameters defaults) ?_) ?_
      · exact fun results plains h => hrest results plains h.1 h.2
      · rw [bareExprs_eq_map, bareExprs_eq_map]
        exact hrest (parameters, defaults) (parameters.map Expr.bare, defaults.map Expr.bare)
          (loose_exprs.list parameters) (loose_exprs.list defaults)
  | skip layout | leave layout =>
      refine InStep.after _ fun _ => Lockstep.bind (inStep_single _ _ _) fun _ _ halike =>
        Lockstep.pure ?_
      exact (shape_keyword (fun _ => rfl) (fun _ => rfl) (fun _ => rfl) (fun _ => rfl) fun _ => rfl).fits
        Facet.fits_nothing halike
  | scope body layout =>
      refine InStep.after _ fun _ => Lockstep.bind (inStep_body hstmt body) fun _ _ hbody => ?_
      exact InStep.after _ fun _ => Lockstep.pure (shape_scope.fits hbody rfl Everywhere.holds)
  | autoescape options body layout =>
      have hoption : Keeps (namedArguments levels) fun option => (do
          let value ← visit.expr option.value
          return { option with value, layout := { option.layout with span := value.layout.span } }
            : Walking (Keyword Expr)) := by
        rintro ⟨key, value, layout⟩
        refine Lockstep.bind (hexpr value) fun result plain hvalue => Lockstep.pure ?_
        refine (shape_namedArgument key).fits_of_marked hvalue (fun hmarked => ?_) Everywhere.holds
        have hspan := congrArg (fun expr : Expr => expr.layout.span) (hvalue.trimmed hmarked)
        simpa [Expr.layout_span_trimmed] using hspan
      rw [Stmt.bare, bareKeywords_eq_map]
      refine InStep.after _ fun _ => Lockstep.bind (hoption.mapM options) fun _ _ hoptions => ?_
      refine Lockstep.bind (inStep_enclosed hstmt _ _ _ _ _) ?_
      rintro ⟨body, layout⟩ ⟨body₀, layout₀⟩ ⟨hbody, halike⟩
      exact Lockstep.pure (shape_autoescape.fits (hoptions.pair hbody) halike)

end Both

theorem keeps_statement (env : Environment) (levels : Nat) :
    Keeps (statements env levels) (statement levels) := by
  induction levels with
  | zero => exact fun _ _ => .inl ⟨.tooDeep, rfl, rfl⟩
  | succ levels ih =>
      refine inStep_statementContent (fun tree => ?_) ih
      exact Lockstep.bind (keepsBeside_expression levels tree) fun _ _ h => Lockstep.pure h.1

end Statements

/-! ### Templates -/

@[simps]
def templates (env : Environment) : Facet Template where
  bare := Template.bare
  trimmed := Template.trimmed
  all good tree := ∀ stmt ∈ tree.body, good (.stmt stmt)
  written tree := (dump env tree).isSome = true

theorem keeps_template (env : Environment) : Keeps (templates env) template := by
  intro tree
  rw [templates_bare, Template.bare, bareStmts_eq_map]
  refine Lockstep.bind ((keeps_statement env nestingLimit).mapM tree.body) fun _ _ hbody => ?_
  refine InStep.after _ fun found => InStep.after _ fun _ => Lockstep.pure ?_
  constructor
  · simpa [Template.bare, bareStmts_eq_map] using hbody.bare
  · simpa [Template.bare, bareStmts_eq_map] using hbody.same
  · intro hmarked
    simpa [Template.trimmed, trimmedStmts_eq_map] using hbody.trimmed hmarked
  · exact fun hmarked => isSome_dump_of (hbody.written hmarked)
  · exact hbody.tidy

theorem annotate_eq (tokens : List Token) (tree : Template) :
    annotate tokens tree = (template tree { cursor := { tokens } }).map Prod.fst :=
  rfl

theorem annotate_bare_cases (env : Environment) (tokens : List Token) (tree : Template) :
    (∃ fault, annotate tokens tree = .error fault ∧ annotate tokens tree.bare = .error fault) ∨
      ∃ result plain, annotate tokens tree = .ok result ∧ annotate tokens tree.bare = .ok plain ∧
        (templates env).Fits tree result plain := by
  rw [annotate_eq, annotate_eq]
  obtain ⟨fault, hfirst, hsecond⟩ | ⟨⟨result, next⟩, ⟨plain, _⟩, hfirst, hsecond, hfits, rfl⟩ :=
    keeps_template env tree { cursor := { tokens } }
  · exact .inl ⟨fault, congrArg (Except.map Prod.fst) hfirst, congrArg (Except.map Prod.fst) hsecond⟩
  · exact .inr ⟨result, plain, congrArg (Except.map Prod.fst) hfirst,
      congrArg (Except.map Prod.fst) hsecond, hfits⟩

theorem everywhere_storesOwn_of_annotate {tokens : List Token} {tree result : Template}
    (h : annotate tokens tree = .ok result) (htree : ∀ stmt ∈ tree.body, IsFresh (.stmt stmt)) :
    (Node.template result).Everywhere StoresOwn := by
  have hstep : InStep (template tree) (template tree.bare) fun result _ =>
      (Node.template result).Everywhere StoresOwn := by
    rw [Template.bare, bareStmts_eq_map]
    refine Lockstep.bind ((keeps_statement {} nestingLimit).mapM tree.body) fun _ _ hbody => ?_
    refine InStep.after _ fun found => InStep.after _ fun _ => Lockstep.pure (.mk rfl ?_)
    exact forall_mem_map.mpr (hbody.tidy htree)
  rw [annotate_eq] at h
  obtain ⟨fault, hfault, -⟩ | ⟨value, _, hvalue, -, hgood, -⟩ := hstep { cursor := { tokens } }
  · rw [hfault] at h
    cases h
  · rw [hvalue] at h
    cases h
    exact hgood

theorem marked_of_annotate_bare {env : Environment} {table ts : List Token} {last : Token}
    {tree plain : Template} (htable : IsTable table)
    (h : Spelling.TemplateSpells table False tree ts last)
    (hplain : annotate table tree.bare = .ok plain) : (templates env).all IsMarked plain := by
  rw [annotate_eq] at hplain
  rcases walks_template htable h.bare with hdeep | ⟨result, next, hrun, hspells, -⟩
  · rw [hdeep] at hplain
    cases hplain
  · rw [hrun] at hplain
    obtain rfl : result = plain := by simpa [Except.map] using hplain
    exact hspells.body.forall_mem fun _ _ _ => Spelling.StmtSpells.isMarked

end Alignment

namespace Template

variable {env : Environment} {name : Option String} {source : Text} {template tree : Template}

theorem annotate_cases_of_spells {table : List Token} {ts : List Token} {last : Token}
    (htable : IsTable table) (h : Spelling.TemplateSpells table False template ts last)
    (hbare : tree.bare = template.bare) (env : Environment) :
    (∃ fault, Alignment.annotate table tree = .error fault ∧
        Alignment.annotate table template = .error fault) ∨
      ∃ result result' text, Alignment.annotate table tree = .ok result ∧
        Alignment.annotate table template = .ok result' ∧ result.bare = tree.bare ∧
        Writing.dump env result = some text ∧ Writing.dump env result' = some text := by
  rcases Alignment.annotate_bare_cases env table tree with
    ⟨fault, htree, hplain⟩ | ⟨result, plain, htree, hplain, hfits⟩ <;>
  rcases Alignment.annotate_bare_cases env table template with
    ⟨fault', htemplate, hplain'⟩ | ⟨result', plain', htemplate, hplain', hfits'⟩ <;>
  rw [hbare, hplain'] at hplain <;> cases hplain
  · exact .inl ⟨fault, htree, htemplate⟩
  · have hmarked : (Alignment.templates env).all Node.IsMarked plain :=
      Alignment.marked_of_annotate_bare htable h hplain'
    obtain ⟨text, htext⟩ := Option.isSome_iff_exists.mp (hfits'.written hmarked)
    refine .inr ⟨result, result', text, htree, htemplate, hfits.bare, ?_, ?_⟩
    · rw [← Writing.dump_trimmed, ← htext, ← Writing.dump_trimmed env plain]
      exact congrArg (Writing.dump env) (hfits.trimmed hmarked)
    · rw [← Writing.dump_trimmed, ← htext, ← Writing.dump_trimmed env plain]
      exact congrArg (Writing.dump env) (hfits'.trimmed hmarked)

theorem annotateWith_of_ok (table : TokenTable) {result : Template}
    (h : Alignment.annotate table.tokens tree = .ok result) : annotateWith table tree = .ok result := by
  rw [annotateWith, h]
  rfl

theorem annotateWith_of_error (table : TokenTable) {fault : Alignment.Fault}
    (h : Alignment.annotate table.tokens tree = .error fault) :
    ∃ error, annotateWith table tree = .error error := by
  rw [annotateWith, h]
  exact ⟨_, rfl⟩

theorem parseAnnotated_of_parse {table : TokenTable} (h : parse env name source = .ok template)
    (htokens : tokens env none source = .ok table) (name' : Option String) :
    parseAnnotated env name' source =
      (annotateWith { table with name := name' } template).map fun result =>
        (result, { table with name := name' }) := by
  have hnamed (name' : Option String) : tokens env name' source = .ok { table with name := name' } :=
    tokens_eq_ok_iff.mpr (build_rename (tokens_eq_ok_iff.mp htokens) name')
  have hlexemes : ofLexemes name' table.lexemes = .ok template := by
    rw [parse, hnamed name] at h
    exact ofLexemes_eq_ok_iff.mpr (ofLexemes_eq_ok_iff.mp h)
  unfold parseAnnotated
  rw [hnamed name']
  change (ofLexemes name' table.lexemes >>= fun template => _) = _
  rw [hlexemes]
  change (annotateWith { table with name := name' } template >>= fun result => pure (result, _)) = _
  cases annotateWith { table with name := name' } template <;> rfl

theorem exists_parse_of_parseAnnotated {annotated : Template × TokenTable}
    (h : parseAnnotated env name source = .ok annotated) :
    ∃ template, parse env name source = .ok template := by
  unfold parseAnnotated at h
  unfold parse
  cases htokens : tokens env name source with
  | error error => simp [htokens, bind, Except.bind] at h
  | ok table =>
      cases htemplate : ofLexemes name table.lexemes with
      | error error => simp [htokens, htemplate, bind, Except.bind] at h
      | ok template => exact ⟨template, htemplate⟩

/-- Annotation forgets the layout that a tree carries: it succeeds exactly when parsing the source
afresh does, and then it changes nothing but the layout and gives the text of the source. -/
theorem annotate_forgets_layout (env : Environment) (name : Option String) (source : Text)
    (template tree : Template) (hparse : parse env name source = .ok template)
    (hbare : tree.bare = template.bare) :
    ((∃ annotated, annotate env source tree = .ok annotated) ↔
        ∃ annotated, parseAnnotated env name source = .ok annotated) ∧
      ∀ result table, annotate env source tree = .ok (result, table) →
        result.bare = tree.bare ∧
          ∃ text, dump env result = .ok text ∧ reformat env source = .ok text := by
  obtain ⟨table, htokens, htable, ts, last, hspells⟩ := exists_tokens_of_parse hparse
  have hfresh := parseAnnotated_of_parse hparse htokens
  rw [annotate_of_tokens htokens, hfresh name]
  rcases annotate_cases_of_spells htable hspells hbare env with
    ⟨fault, htree, htemplate⟩ | ⟨result, result', text, htree, htemplate, hresult, htext, htext'⟩
  · obtain ⟨error, herror⟩ := annotateWith_of_error table htree
    obtain ⟨error', herror'⟩ := annotateWith_of_error { table with name } htemplate
    rw [herror, herror']
    simp [Except.map]
  · have hwritten : reformat env source = .ok text := by
      rw [reformat, hfresh none, annotateWith_of_ok { table with name := none } htemplate]
      change dump env result' = _
      rw [dump, htext', Option.elim_some]
    rw [annotateWith_of_ok table htree, annotateWith_of_ok { table with name } htemplate]
    refine ⟨by simp [Except.map], ?_⟩
    rintro _ _ ⟨⟩
    exact ⟨hresult, text, by rw [dump, htext, Option.elim_some], hwritten⟩

theorem annotate_forgets_layout_of_annotated :
    ∃ template tree table, parse {} none "{% set a = (1, 2)|f %}{# #}{{ a }}".toList = .ok template ∧
      annotate {} "{% set a = (1, 2)|f %}{# #}{{ a }}".toList template = .ok (tree, table) ∧
      tree.bare = template.bare ∧
      ∃ result table' text,
        annotate {} "{% set a = (1, 2)|f %}{# #}{{ a }}".toList tree = .ok (result, table') ∧
        result.bare = tree.bare ∧ dump {} result = .ok text ∧
        reformat {} "{% set a = (1, 2)|f %}{# #}{{ a }}".toList = .ok text := by
  have hshallow : ((parse {} none "{% set a = (1, 2)|f %}{# #}{{ a }}".toList).bind
      (annotate {} "{% set a = (1, 2)|f %}{# #}{{ a }}".toList)).toBool = true := by
    decide +kernel
  cases hparse : parse {} none "{% set a = (1, 2)|f %}{# #}{{ a }}".toList with
  | error error =>
      rw [hparse] at hshallow
      exact absurd hshallow Bool.false_ne_true
  | ok template =>
      rw [hparse, Except.bind] at hshallow
      cases hannotate : annotate {} "{% set a = (1, 2)|f %}{# #}{{ a }}".toList template with
      | error error =>
          rw [hannotate] at hshallow
          exact absurd hshallow Bool.false_ne_true
      | ok annotated =>
          obtain ⟨tree, table⟩ := annotated
          have hfirst := annotate_forgets_layout {} none _ template template hparse rfl
          have hbare := (hfirst.2 tree table hannotate).1
          have hsecond := annotate_forgets_layout {} none _ template tree hparse hbare
          obtain ⟨⟨result, table'⟩, hagain⟩ := hsecond.1.mpr (hfirst.1.mp ⟨_, hannotate⟩)
          obtain ⟨hresult, text, htext, hreformat⟩ := hsecond.2 result table' hagain
          exact ⟨template, tree, table, rfl, hannotate, hbare, result, table', text, hagain, hresult,
            htext, hreformat⟩

/-- Whatever was annotated has a text: formatting fails only where annotation has failed. -/
theorem dump_parseAnnotated (env : Environment) (source : Text) :
    (∀ name template table, parseAnnotated env name source = .ok (template, table) →
        ∃ text, dump env template = .ok text) ∧
      ∀ error, reformat env source = .error error ↔ parseAnnotated env none source = .error error := by
  have htext : ∀ name template table, parseAnnotated env name source = .ok (template, table) →
      ∃ text, dump env template = .ok text := by
    intro name result table' h
    obtain ⟨template, hparse⟩ := exists_parse_of_parseAnnotated h
    obtain ⟨table, htokens, htable, ts, last, hspells⟩ := exists_tokens_of_parse hparse
    rw [parseAnnotated_of_parse hparse htokens name] at h
    rcases annotate_cases_of_spells htable hspells rfl env with
      ⟨fault, htemplate, -⟩ | ⟨result', -, text, htemplate, -, -, htext, -⟩
    · obtain ⟨error, herror⟩ := annotateWith_of_error { table with name } htemplate
      rw [herror] at h
      cases h
    · rw [annotateWith_of_ok { table with name } htemplate] at h
      cases h
      exact ⟨text, by rw [dump, htext, Option.elim_some]⟩
  refine ⟨htext, fun error => ?_⟩
  unfold reformat
  cases hparse : parseAnnotated env none source with
  | error error' => simp [bind, Except.bind]
  | ok annotated =>
      obtain ⟨text, htext⟩ := htext none annotated.1 annotated.2 hparse
      simp [bind, Except.bind, htext]

/-- A test that is written inside its negation, and a chain of operators. -/
theorem dump_parseAnnotated_of_test :
    ∃ template table text,
      parseAnnotated {} none "{{ 1 - 2 - 3 if a is not b else -c.d[:] }}".toList =
        .ok (template, table) ∧ dump {} template = .ok text := by
  have hshallow : (parseAnnotated {} none
      "{{ 1 - 2 - 3 if a is not b else -c.d[:] }}".toList).toBool = true := by
    decide +kernel
  cases hparse : parseAnnotated {} none "{{ 1 - 2 - 3 if a is not b else -c.d[:] }}".toList with
  | error error =>
      rw [hparse] at hshallow
      exact absurd hshallow Bool.false_ne_true
  | ok annotated =>
      obtain ⟨text, htext⟩ := (dump_parseAnnotated {} _).1 none annotated.1 annotated.2 hparse
      exact ⟨annotated.1, annotated.2, text, rfl, htext⟩

end Template

end JinjaLayout
