import Mathlib
import JinjaLayout.Proofs.Trimmed

/-!
Which trees have a text. A tree has none only if it nests too deep, so it has one exactly if its
parts have one on the next level. The parts that are written one level deeper are listed here; the
operators to the left of a binary expression, a negated test and a tuple without parentheses are
passed over.
-/

namespace JinjaLayout.Writing

open List

/-! ### Texts of lists -/

section Some

variable {α β γ δ : Type}

theorem isSome_mapM_iff {f : α → Option β} {values : List α} :
    (values.mapM f).isSome = true ↔ ∀ value ∈ values, (f value).isSome := by
  induction values with
  | nil => simp
  | cons value values ih =>
      rw [mapM_cons, forall_mem_cons, ← ih]
      cases f value <;> cases values.mapM f <;> simp

theorem isSome_map {value : Option α} {f : α → β} :
    (do return f (← value) : Option β).isSome = value.isSome := by
  cases value <;> rfl

theorem isSome_bind_of {value : Option α} {f : α → Option β} (hvalue : value.isSome)
    (h : ∀ result, (f result).isSome = true) : (value >>= f).isSome := by
  obtain ⟨result, rfl⟩ := Option.isSome_iff_exists.mp hvalue
  exact h result

theorem isSome_two_iff {first : Option α} {second : Option β} {f : α → β → γ} :
    (do
      let first ← first
      let second ← second
      return f first second : Option γ).isSome = true ↔
      first.isSome ∧ second.isSome := by
  cases first <;> cases second <;> simp

theorem isSome_three_iff {first : Option α} {second : Option β} {third : Option γ}
    {f : α → β → γ → δ} :
    (do
      let first ← first
      let second ← second
      let third ← third
      return f first second third : Option δ).isSome = true ↔
      first.isSome ∧ second.isSome ∧ third.isSome := by
  cases first <;> cases second <;> cases third <;> simp

theorem isSome_four_iff {ε : Type} {first : Option α} {second : Option β} {third : Option γ}
    {fourth : Option δ} {f : α → β → γ → δ → ε} :
    (do
      let first ← first
      let second ← second
      let third ← third
      let fourth ← fourth
      return f first second third fourth : Option ε).isSome = true ↔
      ((first.isSome ∧ second.isSome = true) ∧ third.isSome = true) ∧
        fourth.isSome := by
  cases first <;> cases second <;> cases third <;> cases fourth <;> simp

end Some

/-! ### Expressions -/

def argumentValues (arguments : Arguments Expr) : List Expr :=
  arguments.positional ++ arguments.keywords.map Keyword.value ++ arguments.star.toList ++
    arguments.doubleStar.toList

def spine : Expr → List Expr
  | .binary _ left right _ => spine left ++ [right]
  | expr => [expr]

/-- What is written of an expression where a tuple needs no parentheses. -/
def barePieces : Expr → List Expr
  | .tuple items context layout =>
      if isBare context layout && !items.isEmpty then items else [.tuple items context layout]
  | expr => [expr]

def indexPieces : Expr → Bool → List Expr
  | .const (.int (.ofNat _)) _, true => []
  | index, _ => barePieces index

/-- What is written one level deeper than an expression. -/
def pieces : Expr → List Expr
  | .name .. | .member .. | .const .. | .data .. => []
  | .tuple items _ _ | .list items _ | .concat items _ => items
  | .dict entries _ => entries.flatMap fun entry => [entry.key, entry.value]
  | .conditional test whenTrue whenFalse _ => whenTrue :: test :: whenFalse.toList
  | .binary _ left right _ => spine left ++ [right]
  | .unary .not (.test operand _ arguments _) true _ => operand :: argumentValues arguments
  | .unary _ operand _ _ => [operand]
  | .compare first others _ => first :: others.map Operand.value
  | .attr operand _ _ => [operand]
  | .item operand index dotted _ => operand :: indexPieces index dotted
  | .slice start stop step _ => start.toList ++ stop.toList ++ step.toList
  | .filter operand _ arguments _ => operand.toList ++ argumentValues arguments
  | .test operand _ arguments _ | .call operand arguments _ => operand :: argumentValues arguments

/-- The expression has a text, whatever strength is asked for. -/
def Writable (write : ExprWriter) (expr : Expr) : Prop :=
  ∀ strength, (write strength expr).isSome = true

section Expressions

variable {write : ExprWriter}

/-- Whether an expression has a text does not hang on the strength. -/
def IsUniform (write : ExprWriter) : Prop :=
  ∀ strength expr, (write strength expr).isSome = true ↔ Writable write expr

variable (huniform : IsUniform write)

include huniform

theorem isSome_exprs_iff (strength : Strength) (exprs : List Expr) :
    (exprs.mapM (write strength)).isSome = true ↔ ∀ expr ∈ exprs, Writable write expr := by
  simp only [isSome_mapM_iff, huniform strength]

theorem isSome_optionalText_iff (before : Text) (expr : Option Expr) :
    (optionalText write before expr).isSome = true ↔ ∀ value ∈ expr.toList, Writable write value := by
  cases expr with
  | none => simp [optionalText]
  | some expr =>
      rw [optionalText, isSome_map, huniform]
      simp

theorem isSome_callArguments_iff (arguments : Arguments Expr) :
    (callArguments write arguments).isSome = true ↔
      ∀ expr ∈ argumentValues arguments, Writable write expr := by
  rcases arguments with ⟨positional, keywords, star, doubleStar⟩
  have hkeywords : (keywords.mapM fun (keyword : Keyword Expr) => do
        return keyword.key ++ '=' :: (← write Strength.condition keyword.value)).isSome = true ↔
      ∀ value ∈ keywords.map Keyword.value, Writable write value := by
    simp only [isSome_mapM_iff, isSome_map, huniform Strength.condition, forall_mem_map]
  have hstarred : ∀ (stars : Text) (expr : Option Expr), (expr.toList.mapM fun star => do
        return stars ++ (← write Strength.condition star)).isSome = true ↔
      ∀ value ∈ expr.toList, Writable write value := by
    intro stars expr
    simp only [isSome_mapM_iff, isSome_map, huniform Strength.condition]
  rw [argumentValues, forall_mem_append, forall_mem_append, forall_mem_append,
    ← isSome_exprs_iff huniform Strength.condition, ← hkeywords, ← hstarred ['*'],
    ← hstarred ['*', '*']]
  exact isSome_four_iff

theorem isSome_filterArguments_iff (arguments : Arguments Expr) (layout : Layout) :
    (filterArguments write arguments layout).isSome = true ↔
      ∀ expr ∈ argumentValues arguments, Writable write expr := by
  unfold filterArguments
  split
  · rename_i hempty
    rcases arguments with ⟨_ | _, _ | _, _ | _, _ | _⟩ <;> simp_all [Arguments.isEmpty, argumentValues]
  · exact isSome_callArguments_iff huniform arguments

theorem isSome_testArguments_iff (arguments : Arguments Expr) (layout : Layout) :
    (testArguments write arguments layout).isSome = true ↔
      ∀ expr ∈ argumentValues arguments, Writable write expr := by
  unfold testArguments
  split
  · split
    · rw [isSome_map, huniform]
      simp [argumentValues]
    · exact isSome_callArguments_iff huniform _
  · exact isSome_filterArguments_iff huniform _ layout

theorem isSome_testText_iff (negated : Bool) (operand : Expr) (name : Text)
    (arguments : Arguments Expr) (layout : Layout) :
    (testText write negated operand name arguments layout).isSome = true ↔
      ∀ expr ∈ operand :: argumentValues arguments, Writable write expr := by
  unfold testText
  rw [isSome_two_iff, huniform, isSome_testArguments_iff huniform, forall_mem_cons]

theorem isSome_leftSide_iff (strength : Strength) (expr : Expr) :
    (leftSide write strength expr).isSome = true ↔ ∀ part ∈ spine expr, Writable write part := by
  fun_induction leftSide write strength expr with
  | case1 strength op left right layout own ih =>
      rw [isSome_two_iff, ih, huniform, spine, forall_mem_append, forall_mem_singleton]
  | case2 strength expr hbinary =>
      have hspine : spine expr = [expr] := by
        cases expr with
        | binary op left right layout => exact absurd rfl (hbinary op left right layout)
        | _ => rfl
      rw [hspine, huniform, forall_mem_singleton]

theorem isSome_tupleOr_iff (strength : Strength) (expr : Expr) :
    (tupleOr write strength expr).isSome = true ↔ ∀ part ∈ barePieces expr, Writable write part := by
  cases expr with
  | tuple items context layout =>
      simp only [tupleOr, barePieces]
      split
      · rw [Option.map_eq_map, Option.isSome_map, isSome_exprs_iff huniform]
      · rw [huniform, forall_mem_singleton]
  | _ => simp only [tupleOr, barePieces, huniform strength, forall_mem_singleton]

theorem isSome_indexText_iff (index : Expr) (dotted : Bool) :
    (indexText write index dotted).isSome = true ↔
      ∀ part ∈ indexPieces index dotted, Writable write part := by
  unfold indexText
  split
  · simp [indexPieces]
  · rename_i hother
    rw [isSome_map, isSome_tupleOr_iff huniform, indexPieces]
    exact hother

omit huniform in
theorem pieces_not {operand : Expr} {inline : Bool} {layout : Layout}
    (h : ¬(inline ∧ operand.isTest = true)) :
    pieces (.unary .not operand inline layout) = [operand] := by
  cases inline with
  | false => cases operand <;> rfl
  | true =>
      cases operand with
      | test => exact absurd ⟨rfl, rfl⟩ h
      | _ => rfl

theorem isSome_content_iff (expr : Expr) :
    (content write expr).isSome = true ↔ ∀ part ∈ pieces expr, Writable write part := by
  cases expr with
  | name | member | const | data => simp [content, pieces]
  | tuple items context layout | list items layout | concat items layout =>
      simp only [content, pieces, isSome_map, isSome_exprs_iff huniform]
  | dict entries layout =>
      simp only [content, pieces, isSome_map, isSome_mapM_iff, forall_mem_flatMap,
        forall_mem_cons, not_mem_nil, false_imp_iff, implies_true, and_true]
      refine forall₂_congr fun entry _ => ?_
      rw [entryText, isSome_two_iff, huniform, huniform]
  | conditional test whenTrue whenFalse layout =>
      rw [content, isSome_three_iff, huniform, huniform, isSome_optionalText_iff huniform, pieces,
        forall_mem_cons, forall_mem_cons]
  | binary op left right layout =>
      rw [content, isSome_two_iff, isSome_leftSide_iff huniform, huniform, pieces,
        forall_mem_append, forall_mem_singleton]
  | unary op operand inline layout =>
      cases op with
      | not =>
          by_cases htest : inline ∧ operand.isTest = true
          · obtain ⟨rfl, htest⟩ := htest
            obtain ⟨operand, name, arguments, layout, rfl⟩ := Expr.exists_test htest
            exact isSome_testText_iff huniform true operand name arguments layout
          · rw [content_not htest, isSome_map, huniform, pieces_not htest, forall_mem_singleton]
      | neg | pos =>
          simp only [content, pieces, isSome_map, huniform Strength.sign, forall_mem_singleton]
  | compare first others layout =>
      have hothers : (others.mapM (operandText write)).isSome = true ↔
          ∀ value ∈ others.map Operand.value, Writable write value := by
        simp only [isSome_mapM_iff, operandText, isSome_map, huniform Strength.sum, forall_mem_map]
      rw [content, isSome_two_iff, huniform, hothers, pieces, forall_mem_cons]
  | attr operand key layout =>
      rw [content, isSome_map, huniform, pieces, forall_mem_singleton]
  | item operand index dotted layout =>
      rw [content, isSome_two_iff, huniform, isSome_indexText_iff huniform, pieces,
        forall_mem_cons]
  | slice start stop step layout =>
      simp only [content, isSome_three_iff, isSome_optionalText_iff huniform, pieces,
        forall_mem_append, and_assoc]
  | filter operand name arguments layout =>
      rw [pieces, forall_mem_append]
      cases operand with
      | none =>
          change (do return ([] ++ name ++ (← filterArguments write arguments layout) : Text)).isSome =
            true ↔ _
          rw [isSome_map, isSome_filterArguments_iff huniform]
          simp
      | some operand =>
          refine isSome_two_iff.trans ?_
          rw [huniform, isSome_filterArguments_iff huniform]
          simp
  | test operand name arguments layout =>
      exact isSome_testText_iff huniform false operand name arguments layout
  | call operand arguments layout =>
      rw [content, isSome_two_iff, huniform, isSome_callArguments_iff huniform, pieces,
        forall_mem_cons]

end Expressions

/-- An expression that may nest the given number of levels has a text. -/
abbrev WritableAt (levels : Nat) : Expr → Prop :=
  Writable (expression levels)

theorem isSome_expression_succ (levels : Nat) (strength : Strength) (expr : Expr) :
    (expression (levels + 1) strength expr).isSome = (content (expression levels) expr).isSome :=
  isSome_map

theorem isUniform_expression (levels : Nat) : IsUniform (expression levels) := by
  intro strength expr
  refine ⟨fun h other => ?_, fun h => h strength⟩
  cases levels with
  | zero => simp [expression] at h
  | succ levels =>
      rw [isSome_expression_succ] at h ⊢
      exact h

theorem not_writableAt_zero (expr : Expr) : ¬WritableAt 0 expr := by
  intro h
  simpa [expression] using h 0

variable {levels : Nat} {expr : Expr}

theorem writableAt_succ_iff :
    WritableAt (levels + 1) expr ↔ ∀ part ∈ pieces expr, WritableAt levels part := by
  refine (isUniform_expression (levels + 1) 0 expr).symm.trans ?_
  rw [isSome_expression_succ, isSome_content_iff (isUniform_expression levels)]

theorem WritableAt.succ (h : WritableAt levels expr) :
    WritableAt (levels + 1) expr := by
  induction levels generalizing expr with
  | zero => exact absurd h (not_writableAt_zero expr)
  | succ levels ih =>
      rw [writableAt_succ_iff] at h ⊢
      exact fun part hpart => ih (h part hpart)

theorem WritableAt.spine (h : WritableAt levels expr) :
    ∀ part ∈ spine expr, WritableAt levels part := by
  cases levels with
  | zero => exact absurd h (not_writableAt_zero expr)
  | succ levels =>
      cases expr with
      | binary =>
          rw [writableAt_succ_iff] at h
          exact fun part hpart => (h part hpart).succ
      | _ => simpa [Writing.spine] using h

theorem WritableAt.barePieces (h : WritableAt levels expr) :
    ∀ part ∈ barePieces expr, WritableAt levels part := by
  cases levels with
  | zero => exact absurd h (not_writableAt_zero expr)
  | succ levels =>
      cases expr with
      | tuple items context layout =>
          rw [Writing.barePieces]
          split
          · exact fun part hpart => (writableAt_succ_iff.mp h part hpart).succ
          · exact forall_mem_singleton.mpr h
      | _ => exact forall_mem_singleton.mpr h

theorem WritableAt.indexPieces {index : Expr} (h : WritableAt levels index) (dotted : Bool) :
    ∀ part ∈ indexPieces index dotted, WritableAt levels part := by
  unfold Writing.indexPieces
  split
  · simp
  · exact h.barePieces

theorem WritableAt.not {operand : Expr} (h : WritableAt levels operand) (inline : Bool)
    (layout : Layout) :
    ∀ part ∈ pieces (.unary .not operand inline layout), WritableAt levels part := by
  by_cases htest : inline ∧ operand.isTest = true
  · obtain ⟨rfl, htest⟩ := htest
    obtain ⟨operand, name, arguments, layout', rfl⟩ := Expr.exists_test htest
    cases levels with
    | zero => exact absurd h (not_writableAt_zero _)
    | succ levels => exact fun part hpart => (writableAt_succ_iff.mp h part hpart).succ
  · rw [pieces_not htest]
    exact forall_mem_singleton.mpr h

/-! ### Statements -/

def signaturePieces (parameters defaults : List Expr) : List Expr :=
  (withDefaults parameters defaults).flatMap fun node => node.1 :: node.2.toList

/-- The expressions that are written one level deeper than a statement. -/
def exprPieces : Stmt → List Expr
  | .output nodes _ => nodes.flatMap fun node => if node.isData then [] else barePieces node
  | .print nodes _ => nodes
  | .extend node _ | .perform node _ => barePieces node
  | .block .. | .skip _ | .leave _ | .scope .. => []
  | .insert template _ _ _ | .importAs template _ _ _ | .importNames template _ _ _ => [template]
  | .loop target iterable _ _ test _ _ =>
      barePieces target ++ barePieces iterable ++ test.toList
  | .branch (.mk test _ others _ _) =>
      barePieces test ++ others.flatMap fun other => barePieces other.test
  | .bind targets values _ _ => (targets.zip values).flatMap fun node => barePieces node.1 ++ [node.2]
  | .assign target value _ => barePieces target ++ barePieces value
  | .capture target filter _ _ => barePieces target ++ filter.toList
  | .filterBlock filter _ _ => [filter]
  | .macroBlock _ parameters defaults _ _ => signaturePieces parameters defaults
  | .callBlock call parameters defaults _ _ => signaturePieces parameters defaults ++ [call]
  | .autoescape options _ _ => options.map Keyword.value

/-- The statements that are written one level deeper than a statement. -/
def stmtPieces : Stmt → List Stmt
  | .block _ body _ _ _ _ | .bind _ _ body _ | .capture _ _ body _ | .filterBlock _ body _
  | .macroBlock _ _ _ body _ | .callBlock _ _ _ body _ | .scope body _ | .autoescape _ body _ => body
  | .loop _ _ body orElse _ _ _ => body ++ orElse
  | .branch (.mk _ body others orElse _) => body ++ others.flatMap Branch.body ++ orElse
  | _ => []

section Statements

variable {env : Environment} {write : Writers} (huniform : IsUniform write.expr)

theorem isSome_body_iff (stmts : List Stmt) :
    (write.body stmts).isSome = true ↔ ∀ stmt ∈ stmts, (write.stmt stmt).isSome := by
  rw [Writers.body, isSome_map, isSome_mapM_iff]

theorem isSome_enclosed_iff (layout : Layout) (content : List Fragment) (stmts : List Stmt)
    (stop : Text) : (enclosed env write layout content stmts stop).isSome = true ↔
      ∀ stmt ∈ stmts, (write.stmt stmt).isSome := by
  rw [enclosed, isSome_map, isSome_body_iff]

theorem isSome_otherwise_of {stmts : List Stmt} (pairs : List TagPair)
    (h : ∀ stmt ∈ stmts, (write.stmt stmt).isSome = true) :
    (otherwise env write pairs stmts).isSome := by
  unfold otherwise
  dsimp only
  split
  · rw [isSome_map, isSome_body_iff]
    exact h
  · rfl

include huniform

theorem isSome_bare_of {strength : Strength} {expr : Expr}
    (h : ∀ part ∈ barePieces expr, Writable write.expr part) :
    (write.bare strength expr).isSome = true :=
  (isSome_tupleOr_iff huniform strength expr).mpr h

theorem isSome_outputFragments_of {nodes : List Expr} (pairs : List TagPair) (count index : Nat)
    (h : ∀ node ∈ nodes, node.isData = false → ∀ part ∈ barePieces node, Writable write.expr part) :
    (outputFragments env write pairs count index nodes).isSome := by
  induction nodes generalizing index with
  | nil => rfl
  | cons node nodes ih =>
      have hnode := h node mem_cons_self
      have hnodes := fun index => ih index fun other hother => h other (mem_cons_of_mem _ hother)
      cases node with
      | data text layout => exact isSome_bind_of (hnodes index) fun _ => rfl
      | _ =>
          refine isSome_bind_of (isSome_bare_of huniform (hnode rfl)) fun _ => ?_
          exact isSome_bind_of (hnodes (index + 1)) fun _ => rfl

theorem isSome_signatureText_of {parameters defaults : List Expr}
    (h : ∀ expr ∈ signaturePieces parameters defaults, Writable write.expr expr) :
    (signatureText write.expr parameters defaults).isSome := by
  rw [signatureText, isSome_map, isSome_mapM_iff]
  intro node hnode
  simp only [signaturePieces, forall_mem_flatMap, forall_mem_cons] at h
  have hparts := h node hnode
  refine isSome_bind_of (hparts.1 _) fun _ => isSome_bind_of ?_ fun _ => rfl
  exact (isSome_optionalText_iff huniform _ _).mpr hparts.2

theorem isSome_guarded_of {pair : Option TagPair} {keyword : Text} {test : Expr} {stmts : List Stmt}
    (htest : ∀ part ∈ barePieces test, Writable write.expr part)
    (hstmts : ∀ stmt ∈ stmts, (write.stmt stmt).isSome = true) :
    (guarded env write pair keyword test stmts).isSome := by
  refine isSome_bind_of (isSome_bare_of huniform htest) fun _ => isSome_bind_of ?_ fun _ => rfl
  exact (isSome_body_iff stmts).mpr hstmts

theorem isSome_branchFragments_of {branch : Branch}
    (hexprs : ∀ expr ∈ exprPieces (.branch branch), Writable write.expr expr)
    (hstmts : ∀ inner ∈ stmtPieces (.branch branch), (write.stmt inner).isSome = true) :
    (branchFragments env write branch).isSome := by
  rcases branch with ⟨test, body, others, orElse, layout⟩
  simp only [exprPieces, stmtPieces, forall_mem_append, forall_mem_flatMap] at hexprs hstmts
  refine isSome_bind_of (isSome_guarded_of huniform hexprs.1 hstmts.1.1) fun _ => ?_
  refine isSome_bind_of (isSome_mapM_iff.mpr fun other hother => ?_) fun _ => ?_
  · exact isSome_guarded_of huniform (hexprs.2 other hother) (hstmts.1.2 other hother)
  · exact isSome_bind_of (isSome_otherwise_of _ hstmts.2) fun _ => rfl

theorem isSome_statementContent_of {stmt : Stmt}
    (hexprs : ∀ expr ∈ exprPieces stmt, Writable write.expr expr)
    (hstmts : ∀ inner ∈ stmtPieces stmt, (write.stmt inner).isSome = true) :
    (statementContent env write stmt).isSome := by
  cases stmt with
  | output nodes layout =>
      refine isSome_outputFragments_of huniform _ _ _ fun node hnode hdata => ?_
      simp only [exprPieces, forall_mem_flatMap] at hexprs
      simpa [hdata] using hexprs node hnode
  | print nodes layout =>
      exact isSome_bind_of ((isSome_exprs_iff huniform _ nodes).mpr hexprs) fun _ => rfl
  | extend node layout | perform node layout =>
      exact isSome_bind_of (isSome_bare_of huniform hexprs) fun _ => rfl
  | block name body isScoped isRequired endNamed layout =>
      exact isSome_bind_of ((isSome_body_iff body).mpr hstmts) fun _ => rfl
  | insert template ignoreMissing withContext layout
  | importAs template target withContext layout
  | importNames template names withContext layout =>
      exact isSome_bind_of (hexprs template mem_cons_self _) fun _ => rfl
  | loop target iterable body orElse test nested layout =>
      simp only [exprPieces, stmtPieces, forall_mem_append] at hexprs hstmts
      refine isSome_bind_of (isSome_bare_of huniform hexprs.1.1) fun _ => ?_
      refine isSome_bind_of (isSome_bare_of huniform hexprs.1.2) fun _ => ?_
      refine isSome_bind_of ((isSome_optionalText_iff huniform _ _).mpr hexprs.2) fun _ => ?_
      refine isSome_bind_of ((isSome_body_iff body).mpr hstmts.1) fun _ => ?_
      exact isSome_bind_of (isSome_otherwise_of _ hstmts.2) fun _ => rfl
  | branch first => exact isSome_branchFragments_of huniform hexprs hstmts
  | bind targets values body layout =>
      simp only [exprPieces, forall_mem_flatMap, forall_mem_append,
        forall_mem_singleton] at hexprs
      refine isSome_bind_of (isSome_mapM_iff.mpr fun node hnode => ?_) fun _ => ?_
      · have hparts := hexprs node hnode
        exact isSome_bind_of (isSome_bare_of huniform hparts.1) fun _ =>
          isSome_bind_of (hparts.2 _) fun _ => rfl
      · exact (isSome_enclosed_iff ..).mpr hstmts
  | assign target value layout =>
      simp only [exprPieces, forall_mem_append] at hexprs
      refine isSome_bind_of (isSome_bare_of huniform hexprs.1) fun _ => ?_
      exact isSome_bind_of (isSome_bare_of huniform hexprs.2) fun _ => rfl
  | capture target filter body layout =>
      simp only [exprPieces, forall_mem_append] at hexprs
      refine isSome_bind_of (isSome_bare_of huniform hexprs.1) fun _ => ?_
      cases filter with
      | none => exact (isSome_enclosed_iff ..).mpr hstmts
      | some filter =>
          exact isSome_bind_of (hexprs.2 filter (by simp) _) fun _ =>
            (isSome_enclosed_iff ..).mpr hstmts
  | filterBlock filter body layout =>
      refine isSome_bind_of (hexprs filter mem_cons_self _) fun _ => ?_
      exact (isSome_enclosed_iff ..).mpr hstmts
  | macroBlock name parameters defaults body layout =>
      refine isSome_bind_of (isSome_signatureText_of huniform hexprs) fun _ => ?_
      exact (isSome_enclosed_iff ..).mpr hstmts
  | callBlock call parameters defaults body layout =>
      simp only [exprPieces, forall_mem_append, forall_mem_singleton] at hexprs
      cases parameters with
      | nil =>
          exact isSome_bind_of rfl fun _ =>
            isSome_bind_of (hexprs.2 _) fun _ => (isSome_enclosed_iff ..).mpr hstmts
      | cons =>
          exact isSome_bind_of (isSome_signatureText_of huniform hexprs.1) fun _ =>
            isSome_bind_of (hexprs.2 _) fun _ => (isSome_enclosed_iff ..).mpr hstmts
  | skip | leave => rfl
  | scope body layout => exact (isSome_body_iff body).mpr hstmts
  | autoescape options body layout =>
      refine isSome_bind_of (isSome_mapM_iff.mpr fun option hoption => ?_) fun _ =>
        (isSome_enclosed_iff ..).mpr hstmts
      exact hexprs option.value (mem_map_of_mem hoption) _

end Statements

/-- A statement that may nest the given number of levels has fragments. -/
def StmtWritableAt (env : Environment) (levels : Nat) (stmt : Stmt) : Prop :=
  (statement env levels stmt).isSome = true

theorem stmtWritableAt_succ {env : Environment} {stmt : Stmt}
    (hexprs : ∀ expr ∈ exprPieces stmt, WritableAt levels expr)
    (hstmts : ∀ inner ∈ stmtPieces stmt, StmtWritableAt env levels inner) :
    StmtWritableAt env (levels + 1) stmt :=
  isSome_bind_of (isSome_statementContent_of (isUniform_expression levels) hexprs hstmts) fun _ => rfl

theorem isSome_dump_of {env : Environment} {template : Template}
    (h : ∀ stmt ∈ template.body, StmtWritableAt env nestingLimit stmt) :
    (dump env template).isSome = true :=
  isSome_bind_of (isSome_bind_of (isSome_mapM_iff.mpr h) fun _ => rfl) fun _ => rfl

end JinjaLayout.Writing
