import Mathlib
import JinjaLayout.Proofs.ExpressionReads
import JinjaLayout.Proofs.WellFormed

/-!
Every expression that is read is well formed. Each production is shown to give well-formed trees if
the productions one level deeper do; nothing has to be known of the lexemes but that integers stand
for natural numbers.
-/

namespace JinjaLayout.Grammar

open List

/-! ### What productions make -/

/-- The integers that are left to be read stand for natural numbers. -/
def Stream.IsNatural (stream : Stream) : Prop :=
  ∀ lexeme ∈ stream.lexemes, lexeme.IsNatural

theorem Stream.IsNatural.advance {stream : Stream} (h : stream.IsNatural) :
    stream.advance.IsNatural := by
  unfold Stream.advance
  split
  · exact h
  · split
    · exact h
    · rename_i head tail htail
      intro lexeme hlexeme
      refine h lexeme ?_
      rw [Stream.lexemes, htail]
      exact mem_cons_of_mem _ hlexeme

def Makes {α : Type} (production : Production α) (good : α → Prop) : Prop :=
  ∀ stream, stream.IsNatural → ∀ value next, production stream = .ok (value, next) →
    good value ∧ next.IsNatural

/-- Nothing is said of the values that the production gives. -/
abbrev Runs {α : Type} (production : Production α) : Prop :=
  Makes production fun _ => True

namespace Makes

variable {α β : Type} {production : Production α} {good good' : α → Prop} {goal : β → Prop}

theorem mono (h : Makes production good) (himp : ∀ value, good value → good' value) :
    Makes production good' := by
  intro stream hstream value next hrun
  obtain ⟨hgood, hnext⟩ := h stream hstream value next hrun
  exact ⟨himp value hgood, hnext⟩

theorem runs (h : Makes production good) : Runs production :=
  h.mono fun _ _ => trivial

protected theorem pure {value : α} (h : good value) : Makes (Pure.pure value) good := by
  intro stream hstream value' next hrun
  cases hrun
  exact ⟨h, hstream⟩

theorem fail {line : Nat} {fault : SyntaxFault} : Makes (Grammar.fail line fault) good := by
  intro stream _ value next hrun
  cases hrun

theorem bind {second : α → Production β} (hfirst : Makes production good)
    (hsecond : ∀ value, good value → Makes (second value) goal) :
    Makes (production >>= second) goal := by
  intro stream hstream value next hrun
  change (production stream >>= fun step => second step.1 step.2) = _ at hrun
  cases hstep : production stream with
  | error error =>
      rw [hstep] at hrun
      cases hrun
  | ok step =>
      rw [hstep] at hrun
      obtain ⟨hgood, hrest⟩ := hfirst stream hstream step.1 step.2 hstep
      exact hsecond step.1 hgood step.2 hrest value next hrun

theorem bind_makes (good : α → Prop) {second : α → Production β} (hfirst : Makes production good)
    (hsecond : ∀ value, good value → Makes (second value) goal) :
    Makes (production >>= second) goal :=
  bind hfirst hsecond

theorem after {second : α → Production β} (hfirst : Runs production)
    (hsecond : ∀ value, Makes (second value) goal) : Makes (production >>= second) goal :=
  bind hfirst fun value _ => hsecond value

variable {condition : Prop}

theorem ite [Decidable condition] {first second : Production α} (hfirst : Makes first good)
    (hsecond : Makes second good) :
    Makes (if condition then first else second) good := by
  split
  · exact hfirst
  · exact hsecond

theorem afterIf [Decidable condition] {rest : Production β} (hfirst : Runs production)
    (hrest : Makes rest goal) :
    Makes (if condition then (do let _ ← production; rest) else rest) goal :=
  ite (after hfirst fun _ => hrest) hrest

theorem choose (good : α → Prop) [Decidable condition] {first second : Production α}
    {rest : α → Production β} (hfirst : Makes first good) (hsecond : Makes second good)
    (hrest : ∀ value, good value → Makes (rest value) goal) :
    Makes (if condition then first >>= rest else second >>= rest) goal :=
  ite (bind hfirst hrest) (bind hsecond hrest)

theorem repeating {turn : α → Production (α ⊕ β)} {start : α} (inv : α → Prop) (hstart : inv start)
    (hturn : ∀ state, inv state → Makes (turn state) (Sum.elim inv goal)) :
    Makes (Grammar.repeating turn start) goal := by
  have hiterate : ∀ (bound : List Lexeme) (state : α), inv state →
      Makes (iterate turn bound state) goal := by
    intro bound
    induction bound with
    | nil => exact fun state _ stream _ value next hrun => by cases hrun
    | cons lexeme bound ih =>
        intro state hstate
        refine bind (hturn state hstate) fun result hresult => ?_
        cases result with
        | inl state => exact ih state hresult
        | inr value => exact .pure hresult
  exact fun stream => hiterate stream.lexemes start hstart stream

theorem whenever {condition : Production Bool} (hcondition : Runs condition)
    (h : Makes production good) :
    Makes (Grammar.whenever condition production) fun value => ∀ item ∈ value, good item := by
  refine after hcondition fun outcome => ite ?_ (.pure (by simp))
  exact bind h fun value hvalue => .pure (by simpa using hvalue)

end Makes

/-! ### Lexemes -/

theorem makes_current : Makes current Lexeme.IsNatural := by
  intro stream hstream value next hrun
  cases hrun
  exact ⟨hstream _ mem_cons_self, hstream⟩

theorem makes_next : Makes next Lexeme.IsNatural := by
  intro stream hstream value next hrun
  cases hrun
  exact ⟨hstream _ mem_cons_self, hstream.advance⟩

theorem runs_following : Runs following := by
  intro stream hstream value next hrun
  cases hrun
  exact ⟨trivial, hstream⟩

theorem runs_currentLine : Runs currentLine :=
  .after makes_current.runs fun _ => .pure trivial

theorem runs_look {look : Lexeme → Bool} : Runs (do return look (← current)) :=
  .after makes_current.runs fun _ => .pure trivial

theorem runs_atNames (first second : Text) : Runs (atNames first second) :=
  .after makes_current.runs fun _ => .after runs_following fun _ => .pure trivial

theorem runs_skip {look : Lexeme → Bool} :
    Runs (do
      if ← (do return look (← current)) then
        let _ ← next
        return true
      else return false) :=
  .after runs_look fun _ =>
    .ite (.after makes_next.runs fun _ => .pure trivial) (.pure trivial)

theorem runs_skipOperator (symbol : Text) : Runs (skipOperator symbol) :=
  runs_skip

theorem runs_skipName (word : Text) : Runs (skipName word) :=
  runs_skip

theorem makes_mismatch {α : Type} {good : α → Prop} (expected : String) :
    Makes (mismatch expected) good :=
  .after makes_current.runs fun _ => .ite .fail .fail

theorem runs_expect (accept : Lexeme → Bool) (expected : String) : Runs (expect accept expected) :=
  .after makes_current.runs fun _ => .ite makes_next.runs (makes_mismatch _)

theorem runs_dottedName : Runs dottedName := by
  refine .after (runs_expect _ _) fun _ => ?_
  refine .repeating (fun _ => True) trivial fun name _ => ?_
  refine .after (runs_skipOperator _) fun _ => .ite ?_ (.pure trivial)
  exact .after (runs_expect _ _) fun _ => .pure trivial

theorem runs_adjacentStrings (text : Text) : Runs (adjacentStrings text) := by
  refine .repeating (fun _ => True) trivial fun text _ => ?_
  refine .after runs_look fun _ => .ite ?_ (.pure trivial)
  exact .after makes_next.runs fun _ => .pure trivial

theorem runs_sign : Runs sign := by
  refine .after (runs_skipOperator _) fun _ => .ite (.pure trivial) ?_
  exact .after (runs_skipOperator _) fun _ =>
    .ite (.pure trivial) (.pure trivial)

theorem runs_operatorAmong (operators : List BinaryOp) : Runs (operatorAmong operators) := by
  refine .after makes_current.runs fun lexeme => ?_
  split
  · exact .after makes_next.runs fun _ => .pure trivial
  · exact .pure trivial

theorem runs_compareOperator : Runs compareOperator := by
  refine .after makes_current.runs fun lexeme => .ite ?_ ?_
  · split
    · exact .after makes_next.runs fun _ => .pure trivial
    · exact .pure trivial
  · refine .after (runs_skipName _) fun _ => .ite (.pure trivial) ?_
    refine .after (runs_atNames _ _) fun _ => .ite ?_ (.pure trivial)
    exact .after makes_next.runs fun _ => .after makes_next.runs fun _ =>
      .pure trivial

theorem runs_contextChoice : Runs contextChoice := by
  refine .after (runs_atNames _ _) fun _ => .after (runs_atNames _ _) fun _ => ?_
  refine .ite ?_ (.pure trivial)
  exact .after makes_next.runs fun _ => .after makes_next.runs fun _ => .pure trivial

theorem runs_importedName : Runs importedName := by
  refine .after makes_next.runs fun _ => .ite .fail ?_
  exact Makes.after (Makes.whenever (runs_skipName _) (runs_expect _ _)).runs fun _ =>
    .pure trivial

theorem makes_integerConstant {lexeme : Lexeme} (hnatural : lexeme.IsNatural)
    (hkind : lexeme.kind = .integer) :
    Makes (integerConstant lexeme) fun constant => ∃ value, constant = .int value ∧ 0 ≤ value := by
  unfold integerConstant
  split
  · rename_i value hvalue
    exact .pure ⟨value, rfl, hnatural hkind value hvalue⟩
  · exact .fail

/-! ### Expressions -/

abbrev IsValue (expr : Expr) : Prop :=
  expr.IsFormed .value

def AreValues (arguments : Arguments Expr) : Prop :=
  (∀ value ∈ arguments.values, IsValue value) ∧ arguments.AreOnLines

theorem areValues_empty : AreValues {} := by
  simp [AreValues, Arguments.values, Arguments.AreOnLines]

/-- The statement is well formed and has a tag of its own. -/
def IsTagged (stmt : Stmt) : Prop :=
  stmt.IsFormed ∧ stmt.isOutput = false

/-- What the productions one level deeper give is well formed. -/
structure Inner.IsFormed (inner : Inner) : Prop where
  condition : Makes inner.condition IsValue
  disjunction : Makes inner.disjunction IsValue
  negation : Makes inner.negation IsValue
  signed : Makes inner.signed IsValue
  statement : Makes inner.statement IsTagged

theorem forall_mem_concat {α : Type} {good : α → Prop} {items : List α} {item : α}
    (hitems : ∀ item ∈ items, good item) (hitem : good item) :
    ∀ other ∈ items ++ [item], good other := by
  intro other hother
  rcases mem_append.mp hother with hother | hother
  · exact hitems other hother
  · rwa [mem_singleton.mp hother]

abbrev All {α : Type} (good : α → Prop) (items : List α) : Prop :=
  ∀ item ∈ items, good item

theorem makes_bracketed {α : Type} {item : Production α} {good : α → Prop}
    (hitem : Makes item good) (closer : Text) : Makes (bracketed item closer) (All good) := by
  refine .bind_makes (All good) (.repeating (All good) (by simp [All]) ?_) ?_
  · intro items hitems
    refine .after runs_look fun _ => .ite (.pure hitems) ?_
    refine .afterIf (runs_expect _ _) ?_
    refine .after runs_look fun _ => .ite (.pure hitems) ?_
    exact .bind hitem fun item hitem => .pure (forall_mem_concat hitems hitem)
  · intro items hitems
    exact .after (runs_expect _ _) fun _ => .pure hitems

theorem makes_tuple {item : Production Expr} (hitem : Makes item IsValue) (stops : List Text)
    (mayBeEmpty : Bool) : Makes (tuple item stops mayBeEmpty) IsValue := by
  refine .after runs_currentLine fun line => ?_
  refine .bind_makes (fun found => All IsValue found.1)
    (.repeating (All IsValue) (by simp [All]) ?_) ?_
  · intro items hitems
    refine .afterIf (runs_expect _ _) ?_
    refine .after runs_look fun _ => .ite (.pure hitems) ?_
    refine .bind hitem fun item hitem => .after runs_look fun _ => ?_
    have hall := forall_mem_concat hitems hitem
    exact .ite (.pure hall) (.pure hall)
  · rintro ⟨items, isTuple⟩ hitems
    dsimp only
    split
    · exact .pure (hitems _ mem_cons_self)
    · refine .ite (.pure (.tuple (by simp))) ?_
      exact .after makes_current.runs fun _ => .fail
    · exact .pure (.tuple hitems)

section Expressions

variable {inner : Inner} (hinner : inner.IsFormed)

include hinner

theorem makes_listDisplay : Makes (listDisplay inner) IsValue := by
  refine .after (runs_expect _ _) fun _ => ?_
  exact .bind (makes_bracketed hinner.condition _) fun _ hitems => .pure (.list hitems)

theorem makes_entry : Makes (entry inner) fun entry =>
    IsValue entry.key ∧ IsValue entry.value ∧ entry.layout.IsLine := by
  refine .after runs_currentLine fun line => ?_
  refine .bind hinner.condition fun key hkey => .after (runs_expect _ _) fun _ => ?_
  exact .bind hinner.condition fun value hvalue => .pure ⟨hkey, hvalue, line, rfl⟩

theorem makes_dictDisplay : Makes (dictDisplay inner) IsValue := by
  refine .after (runs_expect _ _) fun _ => ?_
  refine .bind (makes_bracketed (makes_entry hinner) _) fun entries hentries => .pure ?_
  exact .dict (fun entry hentry => (hentries entry hentry).1)
    (fun entry hentry => (hentries entry hentry).2.1) fun entry hentry => (hentries entry hentry).2.2

theorem makes_parenthesized : Makes (parenthesized inner) IsValue := by
  refine .after (runs_expect _ _) fun _ => ?_
  refine .bind (makes_tuple hinner.condition _ _) fun expr hexpr => ?_
  exact .after (runs_expect _ _) fun _ => .pure hexpr

theorem makes_primary : Makes (primary inner) IsValue := by
  refine .bind makes_current fun lexeme hlexeme => ?_
  dsimp only
  split
  · refine .after makes_next.runs fun _ => ?_
    split
    · rename_i value hvalue
      refine .pure (.const ?_)
      rintro n rfl
      have hkind := constantKind_of_namedConstant? hvalue
      cases hkind
    · exact .pure .name
  · refine .after makes_next.runs fun _ => .after (runs_adjacentStrings _) fun _ => ?_
    exact .pure (.const nofun)
  · rename_i hkind
    refine .after makes_next.runs fun _ => ?_
    refine .bind (makes_integerConstant hlexeme hkind) ?_
    rintro _ ⟨value, rfl, hvalue⟩
    refine .pure (.const fun n hn => ?_)
    cases hn
    exact hvalue
  · refine .after makes_next.runs fun _ => ?_
    unfold floatConstant
    split
    · exact .pure (.const nofun)
    · exact .bind (.fail : Makes _ fun _ => False) fun _ => False.elim
  · refine .ite (makes_parenthesized hinner) (.ite (makes_listDisplay hinner) ?_)
    exact .ite (makes_dictDisplay hinner) .fail
  · exact .fail

/-! What follows an operand. -/

theorem makes_slice (line : Nat) {start : Option Expr} (hstart : ∀ expr ∈ start, IsValue expr) :
    Makes (slice inner line start) (Expr.IsFormed .subscript) := by
  refine .bind (.whenever ?_ hinner.condition) fun stop hstop => ?_
  · exact .after runs_look fun _ => .pure trivial
  · refine .bind (.whenever ?_ hinner.condition) fun step hstep => ?_
    · refine .after (runs_skipOperator _) fun _ => .ite ?_ (.pure trivial)
      exact .after runs_look fun _ => .pure trivial
    · exact .pure (.slice hstart hstop hstep)

theorem makes_subscript : Makes (subscript inner) (Expr.IsFormed .subscript) := by
  refine .after runs_currentLine fun line => .after (runs_skipOperator _) fun _ => ?_
  refine .ite (makes_slice hinner line (by simp)) ?_
  refine .bind hinner.condition fun expr hexpr => .after (runs_skipOperator _) fun _ => ?_
  exact .ite (makes_slice hinner line (by simpa using hexpr)) (.pure (.subscript hexpr))

variable {operand : Expr}

omit hinner in
theorem makes_member (hoperand : IsValue operand) (line : Nat) :
    Makes (member operand line) IsValue := by
  refine .bind makes_next fun lexeme hlexeme => ?_
  split
  · exact .pure (.attr hoperand)
  · rename_i hkind
    refine .bind (makes_integerConstant hlexeme hkind) ?_
    rintro _ ⟨value, rfl, hvalue⟩
    exact .pure (.dotted hoperand hvalue)
  · exact .fail

theorem makes_subscripts (hoperand : IsValue operand) (line : Nat) :
    Makes (subscripts inner operand line) IsValue := by
  refine .bind_makes (All (Expr.IsFormed .subscript))
    (.repeating (All (Expr.IsFormed .subscript)) (by simp [All]) ?_) ?_
  · intro items hitems
    refine .after runs_look fun _ => .ite (.pure hitems) ?_
    refine .afterIf (runs_expect _ _) ?_
    exact .bind (makes_subscript hinner) fun item hitem =>
      .pure (forall_mem_concat hitems hitem)
  · intro items hitems
    refine .after (runs_expect _ _) fun _ => ?_
    split
    · exact .pure (.item hoperand (.index (hitems _ mem_cons_self)))
    · exact .pure (.item hoperand (.subscripts hitems))

theorem makes_argument (line : Nat) {arguments : Arguments Expr} (harguments : AreValues arguments) :
    Makes (argument inner line arguments) AreValues := by
  obtain ⟨hvalues, hlines⟩ := harguments
  simp only [Arguments.values, forall_mem_append] at hvalues
  obtain ⟨⟨⟨hpositional, hkeywords⟩, hstar⟩, hdoubleStar⟩ := hvalues
  refine .after (runs_skipOperator _) fun _ => .ite ?_ ?_
  · refine .ite .fail (.bind hinner.condition fun value hvalue => .pure ?_)
    refine ⟨?_, hlines⟩
    simp only [Arguments.values, forall_mem_append]
    exact ⟨⟨⟨hpositional, hkeywords⟩, by simpa using hvalue⟩, hdoubleStar⟩
  · refine .after (runs_skipOperator _) fun _ => .ite ?_ ?_
    · refine .ite .fail (.bind hinner.condition fun value hvalue => .pure ?_)
      refine ⟨?_, hlines⟩
      simp only [Arguments.values, forall_mem_append]
      exact ⟨⟨⟨hpositional, hkeywords⟩, hstar⟩, by simpa using hvalue⟩
    · refine .after runs_look fun _ => .after runs_following fun _ => .ite ?_ ?_
      · refine .ite .fail ?_
        refine .after makes_next.runs fun key => .after makes_next.runs fun _ => ?_
        refine .bind hinner.condition fun value hvalue => .pure ?_
        refine ⟨?_, forall_mem_concat hlines ⟨key.line, rfl⟩⟩
        simp only [Arguments.values, forall_mem_append, map_append, map_singleton]
        exact ⟨⟨⟨hpositional, hkeywords, by simpa using hvalue⟩, hstar⟩, hdoubleStar⟩
      · refine .ite .fail (.bind hinner.condition fun value hvalue => .pure ?_)
        refine ⟨?_, hlines⟩
        simp only [Arguments.values, forall_mem_append]
        exact ⟨⟨⟨⟨hpositional, by simpa using hvalue⟩, hkeywords⟩, hstar⟩, hdoubleStar⟩

theorem makes_callArguments : Makes (callArguments inner) AreValues := by
  refine .after (runs_expect _ _) fun _ => ?_
  refine .bind_makes AreValues
    (.repeating (fun state => AreValues state.1) areValues_empty ?_) ?_
  · rintro ⟨arguments, started⟩ harguments
    refine .after runs_look fun _ => .ite (.pure harguments) ?_
    refine .afterIf (runs_expect _ _) ?_
    refine .after runs_look fun _ => .ite (.pure harguments) ?_
    exact .bind (makes_argument hinner _ harguments) fun _ hmore => .pure hmore
  · intro arguments harguments
    exact .after (runs_expect _ _) fun _ => .pure harguments

theorem makes_optionalArguments : Makes (optionalArguments inner) AreValues :=
  .after runs_look fun _ =>
    .ite (makes_callArguments hinner) (.pure areValues_empty)

theorem makes_call (hoperand : IsValue operand) :
    Makes (call inner operand) IsValue := by
  refine .after runs_currentLine fun _ => ?_
  exact .bind (makes_callArguments hinner) fun _ harguments =>
    .pure (.call hoperand harguments.1 harguments.2)

theorem makes_trailers (hoperand : IsValue operand) :
    Makes (trailers inner operand) IsValue := by
  refine .repeating IsValue hoperand fun operand hoperand => ?_
  refine .after makes_current.runs fun lexeme => .ite ?_ (.ite ?_ (.ite ?_ ?_))
  · refine .after makes_next.runs fun _ => ?_
    exact .bind (makes_member hoperand _) fun _ hexpr => .pure hexpr
  · refine .after makes_next.runs fun _ => ?_
    exact .bind (makes_subscripts hinner hoperand _) fun _ hexpr => .pure hexpr
  · exact .bind (makes_call hinner hoperand) fun _ hexpr => .pure hexpr
  · exact .pure hoperand

theorem makes_filterLink {role : Role} (hrole : role = .value ∨ role = .blockFilter)
    (hoperand : operand.IsFormed role) :
    Makes (filterLink inner (some operand)) (Expr.IsFormed role) := by
  refine .after runs_currentLine fun _ => .after runs_dottedName fun _ => ?_
  exact .bind (makes_optionalArguments hinner) fun _ harguments =>
    .pure (.filter hrole hoperand harguments.1 harguments.2)

theorem makes_firstLink : Makes (filterLink inner none) (Expr.IsFormed .blockFilter) := by
  refine .after runs_currentLine fun _ => .after runs_dottedName fun _ => ?_
  exact .bind (makes_optionalArguments hinner) fun _ harguments =>
    .pure (.blockFilter harguments.1 harguments.2)

theorem makes_filterChain (hoperand : operand.IsFormed .blockFilter) :
    Makes (filterChain inner operand) (Expr.IsFormed .blockFilter) := by
  refine .repeating (Expr.IsFormed .blockFilter) hoperand fun operand hoperand => ?_
  refine .after (runs_skipOperator _) fun _ => .ite ?_ (.pure hoperand)
  exact .bind (makes_filterLink hinner (.inr rfl) hoperand) fun _ hexpr => .pure hexpr

theorem makes_testArguments : Makes (testArguments inner) AreValues := by
  refine .after makes_current.runs fun lexeme => .ite (makes_callArguments hinner) ?_
  refine .ite (.ite .fail ?_) (.pure areValues_empty)
  refine .bind (makes_primary hinner) fun operand hoperand => ?_
  refine .bind (makes_trailers hinner hoperand) fun value hvalue => .pure ?_
  simpa [AreValues, Arguments.values, Arguments.AreOnLines] using hvalue

theorem makes_test (hoperand : IsValue operand) :
    Makes (test inner operand) IsValue := by
  refine .after (runs_expect _ _) fun _ => .after (runs_skipName _) fun negated => ?_
  refine .after runs_dottedName fun name => ?_
  refine .bind (makes_testArguments hinner) fun arguments harguments => .pure ?_
  have htest : ∀ line, IsValue (.test operand name arguments (.onLine line)) := fun _ =>
    .test hoperand harguments.1 harguments.2
  cases negated with
  | true => exact .inline rfl (htest _)
  | false => exact htest _

theorem makes_filtersAndTests (hoperand : IsValue operand) :
    Makes (filtersAndTests inner operand) IsValue := by
  refine .repeating IsValue hoperand fun operand hoperand => ?_
  refine .after (runs_skipOperator _) fun _ => .ite ?_ ?_
  · exact .bind (makes_filterLink hinner (.inl rfl) hoperand) fun _ hexpr => .pure hexpr
  · refine .after runs_look fun _ => .ite ?_ ?_
    · exact .bind (makes_test hinner hoperand) fun _ hexpr => .pure hexpr
    · refine .after runs_look fun _ => .ite ?_ (.pure hoperand)
      exact .bind (makes_call hinner hoperand) fun _ hexpr => .pure hexpr

/-! Operators, from the tightest to the loosest. -/

theorem makes_signed : Makes (signed inner) IsValue := by
  refine .after runs_currentLine fun _ => .after runs_sign fun op => ?_
  cases op with
  | some op =>
      exact .bind hinner.signed fun _ hoperand => makes_trailers hinner (.unary hoperand)
  | none => exact .bind (makes_primary hinner) fun _ hoperand => makes_trailers hinner hoperand

theorem makes_filtered : Makes (filtered inner) IsValue :=
  .bind (makes_signed hinner) fun _ hoperand => makes_filtersAndTests hinner hoperand

omit hinner in
theorem makes_chain (operators : List BinaryOp) {operand : Production Expr}
    (hoperand : Makes operand IsValue) : Makes (chain operators operand) IsValue := by
  refine .after runs_currentLine fun _ => .bind hoperand fun first hfirst => ?_
  refine .repeating IsValue hfirst fun left hleft => ?_
  refine .after (runs_operatorAmong _) fun op => ?_
  cases op with
  | some op => exact .bind hoperand fun _ hright => .pure (.binary hleft hright)
  | none => exact .pure hleft

theorem makes_product : Makes (product inner) IsValue :=
  makes_chain _ (makes_chain _ (makes_filtered hinner))

theorem makes_concatenation : Makes (concatenation inner) IsValue := by
  refine .after runs_currentLine fun _ => ?_
  refine .bind (makes_product hinner) fun first hfirst => ?_
  refine .bind_makes (All IsValue) (.repeating (All IsValue) (by simp [All]) ?_) ?_
  · intro others hothers
    refine .after (runs_skipOperator _) fun _ => .ite ?_ (.pure hothers)
    exact .bind (makes_product hinner) fun _ hitem =>
      .pure (forall_mem_concat hothers hitem)
  · intro others hothers
    refine .pure ?_
    cases others with
    | nil => exact hfirst
    | cons second others => exact .concat (forall_mem_cons.mpr ⟨hfirst, hothers⟩)

theorem makes_sum : Makes (sum inner) IsValue :=
  makes_chain _ (makes_concatenation hinner)

theorem makes_comparison : Makes (comparison inner) IsValue := by
  refine .after runs_currentLine fun _ => ?_
  refine .bind (makes_sum hinner) fun first hfirst => ?_
  let good : Operand Expr → Prop := fun operand => IsValue operand.value ∧ operand.layout.IsLine
  refine .bind_makes (All good) (.repeating (All good) (by simp [All]) ?_) ?_
  · intro others hothers
    refine .after runs_currentLine fun line => .after runs_compareOperator fun op => ?_
    cases op with
    | some op =>
        exact .bind (makes_sum hinner) fun value hvalue =>
          .pure (forall_mem_concat hothers ⟨hvalue, line, rfl⟩)
    | none => exact .pure hothers
  · intro others hothers
    refine .pure ?_
    cases others with
    | nil => exact hfirst
    | cons second others =>
        exact .compare hfirst (fun operand hmem => (hothers operand hmem).1)
          fun operand hmem => (hothers operand hmem).2

theorem makes_negation : Makes (negation inner) IsValue := by
  refine .after runs_currentLine fun _ => .after (runs_skipName _) fun _ => ?_
  exact .ite (.bind hinner.negation fun _ hoperand => .pure (.unary hoperand))
    (makes_comparison hinner)

theorem makes_disjunction : Makes (disjunction inner) IsValue :=
  makes_chain _ (makes_chain _ (makes_negation hinner))

theorem makes_condition : Makes (condition inner) IsValue := by
  refine .after runs_currentLine fun _ => ?_
  refine .bind (makes_disjunction hinner) fun first hfirst => ?_
  refine .repeating IsValue hfirst fun whenTrue htrue => ?_
  refine .after (runs_skipName _) fun _ => .ite ?_ (.pure htrue)
  refine .bind (makes_disjunction hinner) fun test htest => ?_
  exact .bind (.whenever (runs_skipName _) hinner.condition) fun whenFalse hfalse =>
    .pure (.conditional htest htrue hfalse)

end Expressions

end JinjaLayout.Grammar
