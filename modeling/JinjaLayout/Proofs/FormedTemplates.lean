import Mathlib
import JinjaLayout.Proofs.FormedExpressions
import JinjaLayout.Proofs.TemplateWalks

/-!
Every statement that is read is well formed. Main statement: whatever the source, the template that
it parses to is well formed.
-/

namespace JinjaLayout.Grammar

open Spelling (areAssignable_eq_all allWithContext_eq_map isAssignable_withContext)

/-! ### Bodies -/

/-- The statements are well formed, and no two outputs stand side by side. -/
def AreFormed (stmts : List Stmt) : Prop :=
  Stmt.AreApart stmts ∧ ∀ stmt ∈ stmts, stmt.IsFormed

theorem AreFormed.concat {stmts : List Stmt} {stmt : Stmt} (h : AreFormed stmts)
    (hstmt : stmt.IsFormed)
    (hlast : stmt.isOutput → ∀ last ∈ stmts.getLast?, last.isOutput = false) :
    AreFormed (stmts ++ [stmt]) := by
  refine ⟨List.isChain_append.mpr ⟨h.1, .singleton _, ?_⟩, forall_mem_concat h.2 hstmt⟩
  rintro last hmem _ hstmt ⟨hfirst, hsecond⟩
  obtain rfl : stmt = _ := Option.some.inj hstmt
  simp [hlast hsecond last hmem] at hfirst

/-- The statements so far are well formed, and the next output may follow them. -/
structure Body.IsFormed (body : Body) : Prop where
  done : AreFormed body.done
  last : ∀ last ∈ body.done.getLast?, last.isOutput = false
  pending : ∀ node ∈ body.pending, node.IsPiece

theorem Body.IsFormed.push {body : Body} (h : body.IsFormed) (line : Nat) {expr : Expr}
    (hexpr : expr.IsPiece) : (body.push line expr).IsFormed :=
  ⟨h.done, h.last, forall_mem_concat h.pending hexpr⟩

theorem Body.IsFormed.flush {body : Body} (h : body.IsFormed) : AreFormed body.flush := by
  unfold Body.flush
  split
  · exact h.done
  · rename_i hne
    refine h.done.concat (.mk ⟨⟨body.line, rfl⟩, ?_, h.pending⟩ ?_ ?_) fun _ => h.last
    · simpa using hne
    · simp [Stmt.bodies]
    · simp [Stmt.bodies]

theorem Body.IsFormed.flush_concat {body : Body} (h : body.IsFormed) {stmt : Stmt}
    (hstmt : IsTagged stmt) : Body.IsFormed { done := body.flush ++ [stmt] } where
  done := h.flush.concat hstmt.1 fun houtput => by simp [hstmt.2] at houtput
  last := by simpa using hstmt.2
  pending := by simp

section Statements

variable {inner : Inner} (hinner : inner.IsFormed)

include hinner

theorem makes_body (ends : List Text) : Makes (body inner ends) AreFormed := by
  refine .repeating Body.IsFormed ⟨⟨.nil, by simp⟩, by simp, by simp⟩ fun body hbody => ?_
  refine .after makes_current.runs fun lexeme => ?_
  split
  · refine .after makes_next.runs fun _ => .pure ?_
    exact hbody.push _ (.inr ⟨_, _, rfl⟩)
  · refine .after makes_next.runs fun _ => ?_
    refine .bind (makes_tuple hinner.condition _ _) fun expr hexpr => ?_
    exact .after (runs_expect _ _) fun _ => .pure (hbody.push _ (.inl hexpr))
  · refine .after makes_next.runs fun _ => .after makes_current.runs fun _ => ?_
    refine .ite (.pure hbody.flush) ?_
    refine .bind hinner.statement fun stmt hstmt => ?_
    exact .after (runs_expect _ _) fun _ => .pure (hbody.flush_concat hstmt)
  · exact .pure hbody.flush
  · exact .fail

theorem makes_bodyUntil (ends : List Text) : Makes (bodyUntil inner ends) AreFormed := by
  refine .after (runs_skipOperator _) fun _ => .after (runs_expect _ _) fun _ => ?_
  refine .bind (makes_body hinner ends) fun stmts hstmts => .after runs_look fun _ => ?_
  exact .ite (.after runs_currentLine fun _ => .fail) (.pure hstmts)

theorem makes_bodyThrough (stop : Text) : Makes (bodyThrough inner stop) AreFormed := by
  refine .bind (makes_bodyUntil hinner _) fun stmts hstmts => ?_
  exact .after makes_next.runs fun _ => .pure hstmts

/-! ### Targets and parameters -/

omit hinner in
theorem isFormed_withContext {role : Role} {expr : Expr} (h : expr.IsFormed role)
    (hassignable : expr.isAssignable) (context : Context) :
    (expr.withContext context).IsFormed (.target context) := by
  have htuple : ∀ {items : List Expr}, (∀ item ∈ items, item.isAssignable = true →
      (item.withContext context).IsFormed (.target context)) → Expr.areAssignable items = true →
      ∀ item ∈ Expr.allWithContext context items, item.IsFormed (.target context) := by
    intro items hitems hall
    rw [areAssignable_eq_all, List.all_eq_true] at hall
    rw [allWithContext_eq_map, List.forall_mem_map]
    exact fun item hmem => hitems item hmem (hall item hmem)
  induction h with
  | name => exact .target
  | target => exact .target
  | tuple _ ih => exact .targets (htuple ih hassignable)
  | subscripts _ ih => exact .targets (htuple ih hassignable)
  | targets _ ih => exact .targets (htuple ih hassignable)
  | subscript _ ih => exact ih hassignable
  | index _ ih => exact ih hassignable
  | _ => simp [Expr.isAssignable] at hassignable

theorem makes_target (stops : List Text) : Makes (target inner stops) (Expr.IsTarget .store) := by
  refine .after runs_currentLine fun _ => ?_
  refine .bind (makes_tuple (makes_primary hinner) _ _) fun expr hexpr => ?_
  unfold assignable
  split
  · rename_i hassignable
    refine .pure ⟨hassignable, isFormed_withContext hexpr ?_ _⟩
    rwa [isAssignable_withContext] at hassignable
  · exact .fail

theorem makes_setTarget : Makes (setTarget inner) Expr.IsSetTarget := by
  refine .after runs_following fun _ => .ite ?_ ?_
  · refine .after (runs_expect _ _) fun _ => .after makes_next.runs fun _ => ?_
    exact .after (runs_expect _ _) fun _ => .pure (.inr ⟨_, _, _, rfl⟩)
  · exact (makes_target hinner _).mono fun _ => .inl

omit hinner in
theorem makes_parameter : Makes parameter Expr.IsParameter := by
  refine .after (runs_expect _ _) fun name => ?_
  unfold assignable
  split
  · rename_i hassignable
    exact .pure ⟨hassignable, _, _, rfl⟩
  · exact .bind_makes (fun _ => False) .fail fun _ => False.elim

def IsSignature (signature : List Expr × List Expr) : Prop :=
  All Expr.IsParameter signature.1 ∧ signature.2.length ≤ signature.1.length ∧
    All IsValue signature.2

theorem makes_signature : Makes (signature inner) IsSignature := by
  have hnil : IsSignature ([], []) := by simp [IsSignature, All]
  refine .after (runs_expect _ _) fun _ => ?_
  refine .bind_makes IsSignature (.repeating IsSignature hnil ?_) ?_
  · rintro ⟨parameters, defaults⟩ ⟨hparameters, hlength, hdefaults⟩
    refine .after runs_look fun _ =>
      .ite (.pure ⟨hparameters, hlength, hdefaults⟩) ?_
    refine .afterIf (runs_expect _ _) ?_
    refine .bind makes_parameter fun name hname => ?_
    have hnames := forall_mem_concat hparameters hname
    refine .after (runs_skipOperator _) fun _ => .ite ?_ (.ite ?_ ?_)
    · refine .bind hinner.condition fun value hvalue => .pure ?_
      exact ⟨hnames, by simpa using hlength, forall_mem_concat hdefaults hvalue⟩
    · exact .pure ⟨hnames, by simpa using Nat.le_succ_of_le hlength, hdefaults⟩
    · exact .after runs_currentLine fun _ => .fail
  · intro signature hsignature
    exact .after (runs_expect _ _) fun _ => .pure hsignature

/-! ### Statements -/

omit hinner in
theorem isTagged_of_body {stmt : Stmt} {stmts : List Stmt} (hform : stmt.HasForm)
    (hbodies : stmt.bodies = [stmts]) (hstmts : AreFormed stmts)
    (houtput : stmt.isOutput = false) : IsTagged stmt := by
  refine ⟨.mk hform ?_ ?_, houtput⟩
  · simpa [hbodies] using hstmts.1
  · simpa [hbodies] using hstmts.2

omit hinner in
theorem isTagged_of_form {stmt : Stmt} (hform : stmt.HasForm) (hbodies : stmt.bodies = [])
    (houtput : stmt.isOutput = false) : IsTagged stmt :=
  ⟨.mk hform (by simp [hbodies]) (by simp [hbodies]), houtput⟩

theorem makes_loop : Makes (loop inner) IsTagged := by
  refine .after (runs_expect _ _) fun lexeme => ?_
  refine .bind (makes_target hinner _) fun target htarget => ?_
  refine .after (runs_expect _ _) fun _ => ?_
  refine .bind (makes_tuple hinner.disjunction _ _) fun iterable hiterable => ?_
  refine .bind (.whenever (runs_skipName _) hinner.condition) fun test htest => ?_
  refine .after (runs_skipName _) fun nested => ?_
  refine .bind (makes_bodyUntil hinner _) fun stmts hstmts => ?_
  refine .after makes_next.runs fun _ => ?_
  refine .choose AreFormed (.pure ⟨.nil, by simp⟩) (makes_bodyThrough hinner _)
    fun orElse horElse => .pure ?_
  refine ⟨.mk ⟨⟨_, rfl⟩, htarget, hiterable, htest⟩ ?_ ?_, rfl⟩
  · simpa [Stmt.bodies] using ⟨hstmts.1, horElse.1⟩
  · simpa [Stmt.bodies] using ⟨hstmts.2, horElse.2⟩

theorem makes_guarded : Makes (guarded inner) fun found => IsValue found.1 ∧ AreFormed found.2 := by
  refine .bind (makes_tuple hinner.disjunction _ _) fun test htest => ?_
  exact .bind (makes_bodyUntil hinner _) fun stmts hstmts => .pure ⟨htest, hstmts⟩

omit hinner in
def IsFurther (other : Branch) : Prop :=
  (other.layout.IsLine ∧ IsValue other.test ∧ other.others = [] ∧ other.orElse = []) ∧
    AreFormed other.body

omit hinner in
theorem isTagged_branch {test : Expr} {stmts orElse : List Stmt} {others : List Branch} {line : Nat}
    (htest : IsValue test) (hstmts : AreFormed stmts) (hothers : All IsFurther others)
    (horElse : AreFormed orElse) :
    IsTagged (.branch (.mk test stmts others orElse (.onLine line))) := by
  refine ⟨.mk ⟨⟨_, rfl⟩, htest, fun other hother => (hothers other hother).1⟩ ?_ ?_, rfl⟩
  · simpa [Stmt.bodies] using ⟨hstmts.1, horElse.1, fun other hother => (hothers other hother).2.1⟩
  · simpa [Stmt.bodies] using ⟨hstmts.2, horElse.2, fun other hother => (hothers other hother).2.2⟩

theorem makes_branch : Makes (branch inner) IsTagged := by
  refine .after (runs_expect _ _) fun lexeme => ?_
  refine .bind (makes_guarded hinner) ?_
  rintro ⟨test, stmts⟩ ⟨htest, hstmts⟩
  refine .repeating (All IsFurther) (by simp [All]) fun others hothers => ?_
  refine .after makes_next.runs fun lexeme => .ite ?_ (.ite ?_ ?_)
  · refine .bind (makes_guarded hinner) ?_
    rintro ⟨otherTest, otherStmts⟩ ⟨hotherTest, hotherStmts⟩
    refine .pure (forall_mem_concat hothers ?_)
    exact ⟨⟨⟨_, rfl⟩, hotherTest, rfl, rfl⟩, hotherStmts⟩
  · exact .bind (makes_bodyThrough hinner _) fun orElse horElse =>
      .pure (isTagged_branch htest hstmts hothers horElse)
  · exact .pure (isTagged_branch htest hstmts hothers ⟨.nil, by simp⟩)

theorem makes_binding : Makes (binding inner) IsTagged := by
  let good : List Expr × List Expr → Prop := fun bindings =>
    bindings.1.length = bindings.2.length ∧ All (Expr.IsTarget .param) bindings.1 ∧
      All IsValue bindings.2
  have hnil : good ([], []) := by simp [good, All]
  refine .after (runs_expect _ _) fun lexeme => ?_
  refine .bind_makes good (.repeating good hnil ?_) ?_
  · rintro ⟨targets, values⟩ ⟨hlength, htargets, hvalues⟩
    refine .after runs_look fun _ =>
      .ite (.pure ⟨hlength, htargets, hvalues⟩) ?_
    refine .afterIf (runs_expect _ _) ?_
    refine .bind (makes_target hinner _) fun name hname => ?_
    refine .after (runs_expect _ _) fun _ => ?_
    refine .bind hinner.condition fun value hvalue => .pure ?_
    have htarget : (name.withContext .param).IsTarget .param :=
      ⟨(isAssignable_withContext _ _).trans hname.1, isFormed_withContext hname.2 hname.1 _⟩
    exact ⟨by simpa using hlength, forall_mem_concat htargets htarget,
      forall_mem_concat hvalues hvalue⟩
  · rintro ⟨targets, values⟩ ⟨hlength, htargets, hvalues⟩
    exact .bind (makes_bodyThrough hinner _) fun stmts hstmts => .pure
      (isTagged_of_body ⟨⟨_, rfl⟩, hlength, htargets, hvalues⟩ rfl hstmts rfl)

theorem makes_autoescape : Makes (autoescape inner) IsTagged := by
  refine .after makes_next.runs fun lexeme => ?_
  refine .bind hinner.condition fun value hvalue => ?_
  refine .bind (makes_bodyThrough hinner _) fun stmts hstmts => .pure ?_
  exact isTagged_of_body ⟨⟨_, rfl⟩, ⟨_, rfl⟩, ⟨_, rfl⟩, hvalue⟩ rfl hstmts rfl

theorem makes_block : Makes (block inner) IsTagged := by
  refine .after makes_next.runs fun lexeme => .after (runs_expect _ _) fun name => ?_
  refine .after (runs_skipName _) fun _ => .after (runs_skipName _) fun _ => ?_
  refine .after runs_look fun _ =>
    .ite (.after runs_currentLine fun _ => .fail) ?_
  refine .bind (makes_bodyThrough hinner _) fun stmts hstmts => ?_
  exact .after (runs_skipName _) fun _ => .pure
    (isTagged_of_body ⟨_, rfl⟩ rfl hstmts rfl)

theorem makes_extend : Makes (extend inner) IsTagged := by
  refine .after makes_next.runs fun lexeme => ?_
  exact .bind hinner.condition fun template htemplate => .pure
    (isTagged_of_form ⟨⟨_, rfl⟩, htemplate⟩ rfl rfl)

theorem makes_insertion : Makes (insertion inner) IsTagged := by
  refine .after makes_next.runs fun lexeme => ?_
  refine .bind hinner.condition fun template htemplate => ?_
  refine .after (runs_atNames _ _) fun ignoreMissing => ?_
  have hrest : Makes (do
      return Stmt.insert template ignoreMissing (← contextChoice) (.onLine lexeme.line))
      IsTagged :=
    .after runs_contextChoice fun _ => .pure
      (isTagged_of_form ⟨⟨_, rfl⟩, htemplate⟩ rfl rfl)
  exact .ite (.after makes_next.runs fun _ => .after makes_next.runs fun _ => hrest)
    hrest

theorem makes_importAs : Makes (importAs inner) IsTagged := by
  refine .after makes_next.runs fun lexeme => ?_
  refine .bind hinner.condition fun template htemplate => ?_
  refine .after (runs_expect _ _) fun _ => .after (runs_expect _ _) fun _ => ?_
  exact .after runs_contextChoice fun _ => .pure
    (isTagged_of_form ⟨⟨_, rfl⟩, htemplate⟩ rfl rfl)

theorem makes_importNames : Makes (importNames inner) IsTagged := by
  refine .after makes_next.runs fun lexeme => ?_
  refine .bind hinner.condition fun template htemplate => ?_
  refine .after (runs_expect _ _) fun _ => ?_
  have hform : ∀ names choice, IsTagged (.importNames template names choice (.onLine lexeme.line)) :=
    fun _ _ => isTagged_of_form ⟨⟨_, rfl⟩, htemplate⟩ rfl rfl
  refine .repeating (fun _ => True) trivial fun names _ => ?_
  refine .afterIf (runs_expect _ _) ?_
  refine .after runs_look fun _ => .ite (makes_mismatch _) ?_
  refine .after runs_contextChoice fun choice => ?_
  cases choice with
  | some choice => exact .pure (hform _ _)
  | none =>
      refine .after runs_importedName fun _ => .after runs_contextChoice fun choice => ?_
      cases choice with
      | some choice => exact .pure (hform _ _)
      | none =>
          exact .after runs_look fun _ =>
            .ite (.pure trivial) (.pure (hform _ _))

theorem makes_callBlock : Makes (callBlock inner) IsTagged := by
  refine .after makes_next.runs fun lexeme => .after runs_look fun _ => ?_
  refine .choose IsSignature (makes_signature hinner)
    (.pure (by simp [IsSignature, All])) ?_
  rintro ⟨parameters, defaults⟩ ⟨hparameters, hlength, hdefaults⟩
  refine .bind hinner.condition fun call hcall => ?_
  split
  · rename_i hisCall
    exact .bind (makes_bodyThrough hinner _) fun stmts hstmts => .pure
      (isTagged_of_body ⟨⟨_, rfl⟩, hisCall, hcall, hparameters, hlength, hdefaults⟩ rfl hstmts rfl)
  · exact .fail

theorem makes_filterBlock : Makes (filterBlock inner) IsTagged := by
  refine .after makes_next.runs fun lexeme => ?_
  refine .bind (makes_firstLink hinner) fun first hfirst => ?_
  refine .bind (makes_filterChain hinner hfirst) fun filter hfilter => ?_
  exact .bind (makes_bodyThrough hinner _) fun stmts hstmts => .pure
    (isTagged_of_body ⟨⟨_, rfl⟩, hfilter⟩ rfl hstmts rfl)

theorem makes_macroBlock : Makes (macroBlock inner) IsTagged := by
  refine .after makes_next.runs fun lexeme => .after (runs_expect _ _) fun _ => ?_
  refine .bind (makes_signature hinner) ?_
  rintro ⟨parameters, defaults⟩ ⟨hparameters, hlength, hdefaults⟩
  exact .bind (makes_bodyThrough hinner _) fun stmts hstmts => .pure
    (isTagged_of_body ⟨⟨_, rfl⟩, hparameters, hlength, hdefaults⟩ rfl hstmts rfl)

theorem makes_printing : Makes (printing inner) IsTagged := by
  refine .after makes_next.runs fun lexeme => ?_
  refine .bind_makes (All IsValue) (.repeating (All IsValue) (by simp [All]) ?_) ?_
  · intro nodes hnodes
    refine .after runs_look fun _ => .ite (.pure hnodes) ?_
    refine .afterIf (runs_expect _ _) ?_
    exact .bind hinner.condition fun node hnode =>
      .pure (forall_mem_concat hnodes hnode)
  · intro nodes hnodes
    exact .pure (isTagged_of_form ⟨⟨_, rfl⟩, hnodes⟩ rfl rfl)

theorem makes_assignment : Makes (assignment inner) IsTagged := by
  refine .after makes_next.runs fun lexeme => ?_
  refine .bind (makes_setTarget hinner) fun target htarget => ?_
  refine .after (runs_skipOperator _) fun _ => .ite ?_ ?_
  · exact .bind (makes_tuple hinner.condition _ _) fun value hvalue => .pure
      (isTagged_of_form ⟨⟨_, rfl⟩, htarget, hvalue⟩ rfl rfl)
  · have hchain := Makes.bind (makes_firstLink hinner) fun _ hfirst =>
      makes_filterChain hinner hfirst
    refine .bind (.whenever (runs_skipOperator _) hchain) fun filter hfilter => ?_
    exact .bind (makes_bodyThrough hinner _) fun stmts hstmts => .pure
      (isTagged_of_body ⟨⟨_, rfl⟩, htarget, hfilter⟩ rfl hstmts rfl)

theorem makes_tagged (tag : Tag) : Makes (tagged inner tag) IsTagged := by
  cases tag with
  | loop => exact makes_loop hinner
  | branch => exact makes_branch hinner
  | block => exact makes_block hinner
  | extend => exact makes_extend hinner
  | print => exact makes_printing hinner
  | macroBlock => exact makes_macroBlock hinner
  | insert => exact makes_insertion hinner
  | importNames => exact makes_importNames hinner
  | importAs => exact makes_importAs hinner
  | set => exact makes_assignment hinner
  | bind => exact makes_binding hinner
  | autoescape => exact makes_autoescape hinner
  | callBlock => exact makes_callBlock hinner
  | filterBlock => exact makes_filterBlock hinner
  | perform =>
      refine .after makes_next.runs fun lexeme => ?_
      exact .bind (makes_tuple hinner.condition _ _) fun node hnode => .pure
        (isTagged_of_form ⟨⟨_, rfl⟩, hnode⟩ rfl rfl)
  | skip =>
      exact .after makes_next.runs fun _ => .pure (isTagged_of_form ⟨_, rfl⟩ rfl rfl)
  | leave =>
      exact .after makes_next.runs fun _ => .pure (isTagged_of_form ⟨_, rfl⟩ rfl rfl)

theorem makes_statement : Makes (statement inner) IsTagged := by
  refine .after makes_current.runs fun lexeme => .ite ?_ .fail
  split
  · exact makes_tagged hinner _
  · exact .fail

end Statements

theorem isFormed_nested (levels : Nat) : (nested levels).IsFormed := by
  induction levels with
  | zero =>
      have hrefuse : ∀ {α : Type} {good : α → Prop},
          Makes (do fail (← currentLine) .nestingExceeded) good :=
        .after runs_currentLine fun _ => .fail
      exact ⟨hrefuse, hrefuse, hrefuse, hrefuse, hrefuse⟩
  | succ levels ih =>
      exact ⟨makes_condition ih, makes_disjunction ih, makes_negation ih, makes_signed ih,
        makes_statement ih⟩

theorem isNatural_closed {last : Lexeme} {lexemes : List Lexeme}
    (h : ∀ lexeme ∈ lexemes, lexeme.IsNatural) :
    ∀ lexeme ∈ Stream.closed last lexemes, lexeme.IsNatural := by
  induction lexemes generalizing last with
  | nil =>
      unfold Stream.closed
      split
      · simp
      · simp [Lexeme.IsNatural]
  | cons first rest ih =>
      rw [List.forall_mem_cons] at h
      exact List.forall_mem_cons.mpr ⟨h.1, ih h.2⟩

theorem isNatural_ofLexemes {lexemes : List Lexeme} (h : ∀ lexeme ∈ lexemes, lexeme.IsNatural) :
    (Stream.ofLexemes lexemes).IsNatural := by
  cases lexemes with
  | nil => simp [Stream.ofLexemes, Stream.IsNatural, Stream.lexemes, Lexeme.IsNatural]
  | cons first rest =>
      rw [List.forall_mem_cons] at h
      exact List.forall_mem_cons.mpr ⟨h.1, isNatural_closed h.2⟩

theorem isFormed_of_template {lexemes : List Lexeme} {tree : Template}
    (hnatural : ∀ lexeme ∈ lexemes, lexeme.IsNatural) (h : template lexemes = .ok tree) :
    tree.IsFormed := by
  obtain ⟨⟨stmts, next⟩, hrun, rfl⟩ := map_eq_ok_iff.mp h
  obtain ⟨hstmts, -⟩ := makes_body (isFormed_nested nestingLimit) [] _
    (isNatural_ofLexemes hnatural) _ _ hrun
  exact ⟨rfl, hstmts.1, hstmts.2⟩

end JinjaLayout.Grammar

namespace JinjaLayout.Template

/-- Whatever the source, the template that it parses to is well formed. -/
theorem parse_isFormed (env : Environment) (name : Option String) (source : Text)
    (template : Template) (h : parse env name source = .ok template) : template.IsFormed := by
  unfold parse at h
  cases htokens : tokens env name source with
  | error error =>
      rw [htokens] at h
      cases h
  | ok table =>
      rw [htokens] at h
      have hnatural := TokenTable.isNatural_of_build (tokens_eq_ok_iff.mp htokens)
      exact Grammar.isFormed_of_template hnatural (ofLexemes_eq_ok_iff.mp h)

/-- A slice in a tuple of subscripts, a negated test, a filtered block and a comparison. -/
theorem parse_isFormed_of_branches :
    ∃ template, parse {} none
      ("{% if a[1:, 0xf] is not b.c %}{{ x ~ y.0 }}{% elif 1 < 2 %}{% filter f | g %}" ++
        "{% endfilter %}{% endif %}").toList = .ok template ∧ template.IsFormed := by
  have hread : (parse {} none
      ("{% if a[1:, 0xf] is not b.c %}{{ x ~ y.0 }}{% elif 1 < 2 %}{% filter f | g %}" ++
        "{% endfilter %}{% endif %}").toList).toBool = true := by
    decide +kernel
  cases hparse : parse {} none
      ("{% if a[1:, 0xf] is not b.c %}{{ x ~ y.0 }}{% elif 1 < 2 %}{% filter f | g %}" ++
        "{% endfilter %}{% endif %}").toList with
  | error error =>
      rw [hparse] at hread
      exact absurd hread Bool.false_ne_true
  | ok template => exact ⟨template, rfl, parse_isFormed _ _ _ _ hparse⟩

end JinjaLayout.Template
