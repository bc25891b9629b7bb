import Mathlib
import JinjaLayout.Tree.Bare
import JinjaLayout.Writing.Statement

/-!
Trees with only the layout that is written. The text of a template hangs on the spans and pairs of
its nodes and on the text in front of template text; lines and what else a layout holds do not
matter.
-/

namespace JinjaLayout

def Layout.trimmed (layout : Layout) : Layout :=
  { span := layout.span, pairs := layout.pairs }

def Layout.trimmedText (layout : Layout) : Layout :=
  { span := layout.span, leading := layout.leading }

mutual

def Expr.trimmed : Expr → Expr
  | .name ident context layout => .name ident context layout.trimmed
  | .member ident key layout => .member ident key layout.trimmed
  | .const value layout => .const value layout.trimmed
  | .data text layout => .data text layout.trimmedText
  | .tuple items context layout => .tuple (trimmedExprs items) context layout.trimmed
  | .list items layout => .list (trimmedExprs items) layout.trimmed
  | .dict entries layout => .dict (trimmedEntries entries) layout.trimmed
  | .conditional test whenTrue whenFalse layout =>
      .conditional test.trimmed whenTrue.trimmed (trimmedOption whenFalse) layout.trimmed
  | .binary op left right layout => .binary op left.trimmed right.trimmed layout.trimmed
  | .unary op operand inline layout => .unary op operand.trimmed inline layout.trimmed
  | .concat items layout => .concat (trimmedExprs items) layout.trimmed
  | .compare first others layout =>
      .compare first.trimmed (trimmedOperands others) layout.trimmed
  | .attr operand key layout => .attr operand.trimmed key layout.trimmed
  | .item operand index dotted layout =>
      .item operand.trimmed index.trimmed dotted layout.trimmed
  | .slice start stop step layout =>
      .slice (trimmedOption start) (trimmedOption stop) (trimmedOption step) layout.trimmed
  | .filter operand name arguments layout =>
      .filter (trimmedOption operand) name arguments.trimmed layout.trimmed
  | .test operand name arguments layout =>
      .test operand.trimmed name arguments.trimmed layout.trimmed
  | .call operand arguments layout => .call operand.trimmed arguments.trimmed layout.trimmed

/-- The expressions with only the layout that is written. -/
def trimmedExprs : List Expr → List Expr
  | [] => []
  | expr :: exprs => expr.trimmed :: trimmedExprs exprs

/-- The expression with only the layout that is written, if there is one. -/
def trimmedOption : Option Expr → Option Expr
  | none => none
  | some expr => some expr.trimmed

def Entry.trimmed : Entry Expr → Entry Expr
  | ⟨key, value, _⟩ => { key := key.trimmed, value := value.trimmed }

def trimmedEntries : List (Entry Expr) → List (Entry Expr)
  | [] => []
  | entry :: entries => entry.trimmed :: trimmedEntries entries

/-- The keyword with only the layout that is written: its span tells where a starred argument
stands. -/
def Keyword.trimmed : Keyword Expr → Keyword Expr
  | ⟨key, value, layout⟩ => { key, value := value.trimmed, layout := { span := layout.span } }

def trimmedKeywords : List (Keyword Expr) → List (Keyword Expr)
  | [] => []
  | keyword :: keywords => keyword.trimmed :: trimmedKeywords keywords

def Operand.trimmed : Operand Expr → Operand Expr
  | ⟨op, value, _⟩ => { op, value := value.trimmed }

def trimmedOperands : List (Operand Expr) → List (Operand Expr)
  | [] => []
  | operand :: operands => operand.trimmed :: trimmedOperands operands

def Arguments.trimmed : Arguments Expr → Arguments Expr
  | ⟨positional, keywords, star, doubleStar⟩ =>
      { positional := trimmedExprs positional
        keywords := trimmedKeywords keywords
        star := trimmedOption star
        doubleStar := trimmedOption doubleStar }

end

mutual

/-- The statement with only the layout that is written. A `scope` has no text of its own. -/
def Stmt.trimmed : Stmt → Stmt
  | .output nodes layout => .output (trimmedExprs nodes) layout.trimmed
  | .print nodes layout => .print (trimmedExprs nodes) layout.trimmed
  | .extend template layout => .extend template.trimmed layout.trimmed
  | .block name body isScoped isRequired endNamed layout =>
      .block name (trimmedStmts body) isScoped isRequired endNamed layout.trimmed
  | .insert template ignoreMissing withContext layout =>
      .insert template.trimmed ignoreMissing withContext layout.trimmed
  | .importAs template target withContext layout =>
      .importAs template.trimmed target withContext layout.trimmed
  | .importNames template names withContext layout =>
      .importNames template.trimmed names withContext layout.trimmed
  | .loop target iterable body orElse test nested layout =>
      .loop target.trimmed iterable.trimmed (trimmedStmts body) (trimmedStmts orElse)
        (trimmedOption test) nested layout.trimmed
  | .branch first => .branch first.trimmed
  | .bind targets values body layout =>
      .bind (trimmedExprs targets) (trimmedExprs values) (trimmedStmts body) layout.trimmed
  | .perform node layout => .perform node.trimmed layout.trimmed
  | .assign target value layout => .assign target.trimmed value.trimmed layout.trimmed
  | .capture target filter body layout =>
      .capture target.trimmed (trimmedOption filter) (trimmedStmts body) layout.trimmed
  | .filterBlock filter body layout =>
      .filterBlock filter.trimmed (trimmedStmts body) layout.trimmed
  | .macroBlock name parameters defaults body layout =>
      .macroBlock name (trimmedExprs parameters) (trimmedExprs defaults) (trimmedStmts body)
        layout.trimmed
  | .callBlock call parameters defaults body layout =>
      .callBlock call.trimmed (trimmedExprs parameters) (trimmedExprs defaults) (trimmedStmts body)
        layout.trimmed
  | .skip layout => .skip layout.trimmed
  | .leave layout => .leave layout.trimmed
  | .scope body _ => .scope (trimmedStmts body) {}
  | .autoescape options body layout =>
      .autoescape (trimmedKeywords options) (trimmedStmts body) layout.trimmed

/-- The statements with only the layout that is written. -/
def trimmedStmts : List Stmt → List Stmt
  | [] => []
  | stmt :: stmts => stmt.trimmed :: trimmedStmts stmts

def Branch.trimmed : Branch → Branch
  | .mk test body others orElse layout =>
      .mk test.trimmed (trimmedStmts body) (trimmedBranches others) (trimmedStmts orElse)
        layout.trimmed

def trimmedBranches : List Branch → List Branch
  | [] => []
  | branch :: branches => branch.trimmed :: trimmedBranches branches

end

def Template.trimmed (template : Template) : Template :=
  { body := trimmedStmts template.body, layout := { trailing := template.layout.trailing } }

theorem trimmedExprs_eq_map (exprs : List Expr) : trimmedExprs exprs = exprs.map Expr.trimmed := by
  induction exprs with
  | nil => rfl
  | cons expr exprs ih => rw [trimmedExprs, ih, List.map_cons]

theorem trimmedOption_eq_map (expr : Option Expr) : trimmedOption expr = expr.map Expr.trimmed := by
  cases expr <;> rfl

theorem trimmedEntries_eq_map (entries : List (Entry Expr)) :
    trimmedEntries entries = entries.map Entry.trimmed := by
  induction entries with
  | nil => rfl
  | cons entry entries ih => rw [trimmedEntries, ih, List.map_cons]

theorem trimmedKeywords_eq_map (keywords : List (Keyword Expr)) :
    trimmedKeywords keywords = keywords.map Keyword.trimmed := by
  induction keywords with
  | nil => rfl
  | cons keyword keywords ih => rw [trimmedKeywords, ih, List.map_cons]

theorem trimmedOperands_eq_map (operands : List (Operand Expr)) :
    trimmedOperands operands = operands.map Operand.trimmed := by
  induction operands with
  | nil => rfl
  | cons operand operands ih => rw [trimmedOperands, ih, List.map_cons]

theorem trimmedStmts_eq_map (stmts : List Stmt) : trimmedStmts stmts = stmts.map Stmt.trimmed := by
  induction stmts with
  | nil => rfl
  | cons stmt stmts ih => rw [trimmedStmts, ih, List.map_cons]

theorem trimmedBranches_eq_map (branches : List Branch) :
    trimmedBranches branches = branches.map Branch.trimmed := by
  induction branches with
  | nil => rfl
  | cons branch branches ih => rw [trimmedBranches, ih, List.map_cons]

/-! ### What is read of a tree -/

namespace Expr

theorem layout_span_trimmed (expr : Expr) : expr.trimmed.layout.span = expr.layout.span := by
  cases expr <;> rfl

theorem isData_trimmed (expr : Expr) : expr.trimmed.isData = expr.isData := by
  cases expr <;> rfl

theorem isTest_trimmed (expr : Expr) : expr.trimmed.isTest = expr.isTest := by
  cases expr <;> rfl

theorem exists_test {expr : Expr} (h : expr.isTest) :
    ∃ operand name arguments layout, expr = .test operand name arguments layout := by
  cases expr with
  | test operand name arguments layout => exact ⟨operand, name, arguments, layout, rfl⟩
  | _ => simp [isTest] at h

end Expr

@[simp]
theorem Entry.key_trimmed (entry : Entry Expr) : entry.trimmed.key = entry.key.trimmed := by
  cases entry
  rfl

@[simp]
theorem Entry.value_trimmed (entry : Entry Expr) : entry.trimmed.value = entry.value.trimmed := by
  cases entry
  rfl

@[simp]
theorem Operand.op_trimmed (operand : Operand Expr) : operand.trimmed.op = operand.op := by
  cases operand
  rfl

@[simp]
theorem Operand.value_trimmed (operand : Operand Expr) :
    operand.trimmed.value = operand.value.trimmed := by
  cases operand
  rfl

@[simp]
theorem Keyword.key_trimmed (keyword : Keyword Expr) : keyword.trimmed.key = keyword.key := by
  cases keyword
  rfl

@[simp]
theorem Keyword.value_trimmed (keyword : Keyword Expr) :
    keyword.trimmed.value = keyword.value.trimmed := by
  cases keyword
  rfl

@[simp]
theorem Keyword.span_trimmed (keyword : Keyword Expr) :
    keyword.trimmed.layout.span = keyword.layout.span := by
  cases keyword
  rfl

theorem Arguments.isEmpty_trimmed (arguments : Arguments Expr) :
    arguments.trimmed.isEmpty = arguments.isEmpty := by
  rcases arguments with ⟨positional, keywords, star, doubleStar⟩
  simp [Arguments.trimmed, Arguments.isEmpty, trimmedExprs_eq_map, trimmedKeywords_eq_map,
    trimmedOption_eq_map]

theorem withDefaults_map {α β : Type} (f : α → β) (parameters defaults : List α) :
    withDefaults (parameters.map f) (defaults.map f) =
      (withDefaults parameters defaults).map (Prod.map f (Option.map f)) := by
  fun_induction withDefaults parameters defaults with
  | case1 defaults => rfl
  | case2 parameter parameters ih => simpa [withDefaults] using ih
  | case3 parameter parameters default defaults hle ih => simpa [withDefaults, hle] using ih
  | case4 parameter parameters default defaults hle ih => simpa [withDefaults, hle] using ih

namespace Writing

theorem Strength.ofExpr_trimmed (expr : Expr) : Strength.ofExpr expr.trimmed = Strength.ofExpr expr := by
  cases expr with
  | unary op operand inline layout =>
      cases op <;> simp [Expr.trimmed, Strength.ofExpr, Expr.isTest_trimmed]
  | _ => rfl

theorem isBare_trimmed (context : Context) (layout : Layout) :
    isBare context layout.trimmed = isBare context layout := rfl

/-! ### Expressions -/

section Expressions

variable {write : ExprWriter} (hwrite : ∀ strength expr, write strength expr.trimmed = write strength expr)

include hwrite

omit hwrite in
theorem mapM_map_of_eq {α β γ : Type} {f : β → Option γ} {g : α → β} {f' : α → Option γ}
    (h : ∀ value, f (g value) = f' value) (values : List α) :
    (values.map g).mapM f = values.mapM f' := by
  rw [List.mapM_map]
  exact congrArg (values.mapM ·) (funext h)

theorem mapM_trimmed (strength : Strength) (exprs : List Expr) :
    (trimmedExprs exprs).mapM (write strength) = exprs.mapM (write strength) := by
  rw [trimmedExprs_eq_map]
  exact mapM_map_of_eq (hwrite strength) exprs

theorem tupleOr_trimmed (strength : Strength) (expr : Expr) :
    tupleOr write strength expr.trimmed = tupleOr write strength expr := by
  cases expr with
  | tuple items context layout =>
      have hwhole := hwrite strength (.tuple items context layout)
      simp only [Expr.trimmed] at hwhole
      simp only [Expr.trimmed, tupleOr, isBare_trimmed, mapM_trimmed hwrite, hwhole]
      simp [trimmedExprs_eq_map]
  | _ => exact hwrite strength _

theorem optionalText_trimmed (before : Text) (expr : Option Expr) :
    optionalText write before (trimmedOption expr) = optionalText write before expr := by
  cases expr with
  | none => rfl
  | some expr => simp only [trimmedOption, optionalText, hwrite]

omit hwrite in
theorem starPosition_trimmed (arguments : Arguments Expr) :
    starPosition arguments.trimmed = starPosition arguments := by
  rcases arguments with ⟨positional, keywords, _ | star, doubleStar⟩
  · rfl
  · simp only [starPosition, Arguments.trimmed, trimmedOption, Option.bind_some,
      Expr.layout_span_trimmed, trimmedKeywords_eq_map, List.findIdx_map, Function.comp_def,
      Keyword.span_trimmed]

theorem callArguments_trimmed (arguments : Arguments Expr) :
    callArguments write arguments.trimmed = callArguments write arguments := by
  have hplace := starPosition_trimmed arguments
  rcases arguments with ⟨positional, keywords, star, doubleStar⟩
  have hstar : ∀ expr : Option Expr, (trimmedOption expr).toList = trimmedExprs expr.toList := by
    intro expr
    cases expr <;> rfl
  simp only [Arguments.trimmed] at hplace
  simp only [callArguments, Arguments.trimmed, hplace, hstar]
  simp only [trimmedExprs_eq_map, trimmedKeywords_eq_map, List.mapM_map, Function.comp_def, hwrite,
    Keyword.key_trimmed, Keyword.value_trimmed]

theorem filterArguments_trimmed (arguments : Arguments Expr) (layout : Layout) :
    filterArguments write arguments.trimmed layout.trimmed = filterArguments write arguments layout := by
  simp only [filterArguments, Arguments.isEmpty_trimmed, callArguments_trimmed hwrite]
  rfl

theorem testArguments_trimmed (arguments : Arguments Expr) (layout : Layout) :
    testArguments write arguments.trimmed layout.trimmed = testArguments write arguments layout := by
  have hall := filterArguments_trimmed hwrite arguments layout
  have hcall := callArguments_trimmed hwrite arguments
  rcases arguments with ⟨_ | ⟨argument, _ | ⟨second, others⟩⟩, _ | ⟨keyword, keywords⟩, _ | star,
    _ | doubleStar⟩
  case cons.nil.nil.none.none =>
    simp only [Arguments.trimmed, trimmedExprs, trimmedKeywords, trimmedOption] at hcall ⊢
    simp only [testArguments, Strength.ofExpr_trimmed, hwrite, hcall]
    rfl
  all_goals exact hall

theorem testText_trimmed (negated : Bool) (operand : Expr) (name : Text) (arguments : Arguments Expr)
    (layout : Layout) :
    testText write negated operand.trimmed name arguments.trimmed layout.trimmed =
      testText write negated operand name arguments layout := by
  simp only [testText, hwrite, testArguments_trimmed hwrite]

theorem leftSide_trimmed (strength : Strength) (expr : Expr) :
    leftSide write strength expr.trimmed = leftSide write strength expr := by
  fun_induction leftSide write strength expr with
  | case1 strength op left right layout own ih =>
      simp only [Expr.trimmed, leftSide, hwrite]
      rw [ih]
  | case2 strength expr hbinary =>
      cases expr with
      | binary op left right layout => exact absurd rfl (hbinary op left right layout)
      | _ => exact hwrite strength _

theorem indexText_trimmed (index : Expr) (dotted : Bool) :
    indexText write index.trimmed dotted = indexText write index dotted := by
  have htuple := tupleOr_trimmed hwrite .condition index
  unfold indexText
  cases index with
  | const value layout =>
      simp only [Expr.trimmed] at htuple ⊢
      rcases value with _ | _ | (_ | _) | _ | _ <;> cases dotted <;> simp only [htuple]
  | _ =>
      simp only [Expr.trimmed] at htuple ⊢
      rw [htuple]

theorem entryText_trimmed (entry : Entry Expr) :
    entryText write entry.trimmed = entryText write entry := by
  simp only [entryText, Entry.key_trimmed, Entry.value_trimmed, hwrite]

theorem operandText_trimmed (operand : Operand Expr) :
    operandText write operand.trimmed = operandText write operand := by
  simp only [operandText, Operand.op_trimmed, Operand.value_trimmed, hwrite]

omit hwrite in
theorem content_not {operand : Expr} {inline : Bool} {layout : Layout}
    (h : ¬(inline ∧ operand.isTest = true)) :
    content write (.unary .not operand inline layout) = (do
      return "not ".toList ++ (← write .negation operand)) := by
  cases inline with
  | false => cases operand <;> rfl
  | true =>
      cases operand with
      | test => exact absurd ⟨rfl, rfl⟩ h
      | _ => rfl

theorem content_trimmed (expr : Expr) : content write expr.trimmed = content write expr := by
  cases expr with
  | name | member | const | data => rfl
  | tuple items context layout => simp only [Expr.trimmed, content, mapM_trimmed hwrite]
  | list items layout => simp only [Expr.trimmed, content, mapM_trimmed hwrite]
  | concat items layout => simp only [Expr.trimmed, content, mapM_trimmed hwrite]
  | dict entries layout =>
      simp only [Expr.trimmed, content, trimmedEntries_eq_map,
        mapM_map_of_eq (entryText_trimmed hwrite)]
  | conditional test whenTrue whenFalse layout =>
      simp only [Expr.trimmed, content, hwrite, optionalText_trimmed hwrite]
  | binary op left right layout =>
      simp only [Expr.trimmed, content, leftSide_trimmed hwrite, hwrite]
  | unary op operand inline layout =>
      cases op with
      | not =>
          by_cases htest : inline ∧ operand.isTest = true
          · obtain ⟨rfl, htest⟩ := htest
            obtain ⟨operand, name, arguments, layout, rfl⟩ := Expr.exists_test htest
            exact testText_trimmed hwrite true operand name arguments layout
          · rw [Expr.trimmed, content_not htest, content_not (by rwa [Expr.isTest_trimmed]), hwrite]
      | neg | pos => simp only [Expr.trimmed, content, hwrite]
  | compare first others layout =>
      simp only [Expr.trimmed, content, trimmedOperands_eq_map, hwrite,
        mapM_map_of_eq (operandText_trimmed hwrite)]
  | attr operand key layout => simp only [Expr.trimmed, content, hwrite]
  | item operand index dotted layout =>
      simp only [Expr.trimmed, content, hwrite, indexText_trimmed hwrite]
  | slice start stop step layout =>
      simp only [Expr.trimmed, content, optionalText_trimmed hwrite]
  | filter operand name arguments layout =>
      cases operand <;>
        simp only [Expr.trimmed, trimmedOption, content, hwrite, filterArguments_trimmed hwrite]
  | test operand name arguments layout =>
      simp only [Expr.trimmed, content, testText_trimmed hwrite]
  | call operand arguments layout =>
      simp only [Expr.trimmed, content, hwrite, callArguments_trimmed hwrite]

end Expressions

theorem expression_trimmed (levels : Nat) (strength : Strength) (expr : Expr) :
    expression levels strength expr.trimmed = expression levels strength expr := by
  induction levels generalizing strength expr with
  | zero => rfl
  | succ levels ih => simp only [expression, content_trimmed ih, Strength.ofExpr_trimmed]

/-! ### Statements -/

section Statements

variable {env : Environment} {write : Writers}
  (hexpr : ∀ strength expr, write.expr strength expr.trimmed = write.expr strength expr)
  (hstmt : ∀ stmt, write.stmt stmt.trimmed = write.stmt stmt)

section Bodies

include hstmt

theorem body_trimmed (stmts : List Stmt) : write.body (trimmedStmts stmts) = write.body stmts := by
  unfold Writers.body
  rw [trimmedStmts_eq_map, mapM_map_of_eq hstmt]

theorem otherwise_trimmed (pairs : List TagPair) (stmts : List Stmt) :
    otherwise env write pairs (trimmedStmts stmts) = otherwise env write pairs stmts := by
  have hempty : (trimmedStmts stmts).isEmpty = stmts.isEmpty := by cases stmts <;> rfl
  simp only [otherwise, hempty, body_trimmed hstmt]

theorem enclosed_trimmed (layout : Layout) (content : List Fragment) (stmts : List Stmt) (stop : Text) :
    enclosed env write layout.trimmed content (trimmedStmts stmts) stop =
      enclosed env write layout content stmts stop := by
  simp only [enclosed, body_trimmed hstmt]
  rfl

end Bodies

include hexpr

theorem signatureText_trimmed (parameters defaults : List Expr) :
    signatureText write.expr (trimmedExprs parameters) (trimmedExprs defaults) =
      signatureText write.expr parameters defaults := by
  have hparameter : ∀ node : Expr × Option Expr,
      parameterText write.expr (Prod.map Expr.trimmed (Option.map Expr.trimmed) node) =
        parameterText write.expr node := by
    rintro ⟨name, value⟩
    simp only [parameterText, Prod.map, hexpr, ← trimmedOption_eq_map,
      optionalText_trimmed hexpr]
  unfold signatureText
  rw [trimmedExprs_eq_map, trimmedExprs_eq_map, withDefaults_map, mapM_map_of_eq hparameter]

theorem outputFragments_trimmed (pairs : List TagPair) (count index : Nat) (nodes : List Expr) :
    outputFragments env write pairs count index (trimmedExprs nodes) =
      outputFragments env write pairs count index nodes := by
  induction nodes generalizing index with
  | nil => rfl
  | cons node nodes ih =>
      have hnode := tupleOr_trimmed hexpr .condition node
      have hpair : outputPair pairs count index node.trimmed = outputPair pairs count index node := by
        rw [outputPair, Expr.layout_span_trimmed, outputPair]
      cases node with
      | data text layout =>
          simp only [trimmedExprs, Expr.trimmed, outputFragments, ih]
          rfl
      | _ =>
          simp only [Expr.trimmed] at hnode hpair
          simp only [trimmedExprs, Expr.trimmed, outputFragments, Writers.bare, ih, hnode, hpair]

theorem boundText_trimmed (node : Expr × Expr) :
    boundText write (Prod.map Expr.trimmed Expr.trimmed node) = boundText write node := by
  simp only [boundText, Prod.map, Writers.bare, tupleOr_trimmed hexpr, hexpr]

include hstmt

theorem guarded_trimmed (pair : Option TagPair) (keyword : Text) (test : Expr) (stmts : List Stmt) :
    guarded env write pair keyword test.trimmed (trimmedStmts stmts) =
      guarded env write pair keyword test stmts := by
  simp only [guarded, Writers.bare, tupleOr_trimmed hexpr, body_trimmed hstmt]

theorem branchFragments_trimmed (branch : Branch) :
    branchFragments env write branch.trimmed = branchFragments env write branch := by
  rcases branch with ⟨test, body, others, orElse, layout⟩
  have hothers : ((others.map Branch.trimmed).mapM fun other =>
        guarded env write other.layout.pairs[0]? "elif" other.test other.body) =
      others.mapM fun other =>
        guarded env write other.layout.pairs[0]? "elif" other.test other.body := by
    refine mapM_map_of_eq ?_ others
    rintro ⟨test, body, others, orElse, layout⟩
    exact guarded_trimmed hexpr hstmt _ _ test body
  simp only [Branch.trimmed, branchFragments, guarded_trimmed hexpr hstmt, otherwise_trimmed hstmt,
    trimmedBranches_eq_map, hothers]
  rfl

theorem statementContent_trimmed (stmt : Stmt) :
    statementContent env write stmt.trimmed = statementContent env write stmt := by
  have hbare := tupleOr_trimmed hexpr
  cases stmt with
  | output nodes layout =>
      have hcount : (trimmedExprs nodes).countP (fun node => !node.isData) =
          nodes.countP fun node => !node.isData := by
        rw [trimmedExprs_eq_map, List.countP_map]
        simp only [Function.comp_def, Expr.isData_trimmed]
      simp only [Stmt.trimmed, statementContent, hcount, outputFragments_trimmed hexpr]
      rfl
  | print nodes layout =>
      simp only [Stmt.trimmed, statementContent, mapM_trimmed hexpr]
      rfl
  | extend template layout =>
      simp only [Stmt.trimmed, statementContent, Writers.bare, hbare]
      rfl
  | block name body isScoped isRequired endNamed layout =>
      simp only [Stmt.trimmed, statementContent, body_trimmed hstmt]
      rfl
  | insert template ignoreMissing withContext layout =>
      simp only [Stmt.trimmed, statementContent, hexpr]
      rfl
  | importAs template target withContext layout =>
      simp only [Stmt.trimmed, statementContent, hexpr]
      rfl
  | importNames template names withContext layout =>
      simp only [Stmt.trimmed, statementContent, hexpr]
      rfl
  | loop target iterable body orElse test nested layout =>
      simp only [Stmt.trimmed, statementContent, Writers.bare, hbare, optionalText_trimmed hexpr,
        body_trimmed hstmt, otherwise_trimmed hstmt]
      rfl
  | branch first => exact branchFragments_trimmed hexpr hstmt first
  | bind targets values body layout =>
      simp only [Stmt.trimmed, statementContent, trimmedExprs_eq_map, List.zip_map,
        mapM_map_of_eq (boundText_trimmed hexpr), enclosed_trimmed hstmt]
  | perform node layout =>
      simp only [Stmt.trimmed, statementContent, Writers.bare, hbare]
      rfl
  | assign target value layout =>
      simp only [Stmt.trimmed, statementContent, Writers.bare, hbare]
      rfl
  | capture target filter body layout =>
      cases filter <;>
        simp only [Stmt.trimmed, trimmedOption, statementContent, Writers.bare, hbare, hexpr,
          enclosed_trimmed hstmt]
  | filterBlock filter body layout =>
      simp only [Stmt.trimmed, statementContent, hexpr, enclosed_trimmed hstmt]
  | macroBlock name parameters defaults body layout =>
      simp only [Stmt.trimmed, statementContent, signatureText_trimmed hexpr,
        enclosed_trimmed hstmt]
  | callBlock call parameters defaults body layout =>
      have hempty : (trimmedExprs parameters).isEmpty = parameters.isEmpty := by
        cases parameters <;> rfl
      simp only [Stmt.trimmed, statementContent, signatureText_trimmed hexpr, hempty, hexpr,
        enclosed_trimmed hstmt]
  | skip | leave => rfl
  | scope body layout => exact body_trimmed hstmt body
  | autoescape options body layout =>
      have hoptions : ((options.map Keyword.trimmed).mapM fun option =>
            write.expr .condition option.value) =
          options.mapM fun option => write.expr .condition option.value := by
        refine mapM_map_of_eq (fun option => ?_) options
        rw [Keyword.value_trimmed, hexpr]
      simp only [Stmt.trimmed, statementContent, trimmedKeywords_eq_map, hoptions,
        enclosed_trimmed hstmt]

end Statements

theorem isFresh_trimmed (stmt : Stmt) : isFresh stmt.trimmed = isFresh stmt := by
  cases stmt with
  | branch first =>
      cases first
      rfl
  | _ => rfl

theorem statement_trimmed (env : Environment) (levels : Nat) (stmt : Stmt) :
    statement env levels stmt.trimmed = statement env levels stmt := by
  induction levels generalizing stmt with
  | zero => rfl
  | succ levels ih =>
      have hcontent : statementContent env ⟨expression levels, statement env levels⟩ stmt.trimmed =
          statementContent env ⟨expression levels, statement env levels⟩ stmt :=
        statementContent_trimmed (expression_trimmed levels) ih stmt
      simp only [statement, hcontent, isFresh_trimmed]

theorem dump_trimmed (env : Environment) (template : Template) :
    dump env template.trimmed = dump env template := by
  simp only [dump, fragments, Template.trimmed, trimmedStmts_eq_map,
    mapM_map_of_eq (statement_trimmed env nestingLimit)]

end Writing

end JinjaLayout
