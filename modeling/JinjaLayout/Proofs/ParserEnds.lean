
import Mathlib
import JinjaLayout.Proofs.GrammarMachine

/-!
The parser ends. Every turn of a loop reads a lexeme or is the last one, and every production that
goes one level deeper leaves one level less, so no loop runs into its bound and the machine that
follows the productions comes to a stop. Main statement: `parser_ends`.
-/

namespace JinjaLayout.Grammar

/-! ### Progress -/

/-- The last lexeme is the end of the template. -/
def Stream.IsClosed (stream : Stream) : Prop :=
  ∀ last ∈ stream.lexemes.getLast?, last.kind = .eof

/-- An error that is no stall, or a value with no more lexemes left than before, and fewer if the
value says so. -/
def Yields {α : Type} (stream : Stream) (moved : α → Prop) : Except SyntaxError (α × Stream) → Prop
  | .error error => error.fault ≠ .stalled
  | .ok (value, rest) => rest.IsClosed ∧ rest.tail.length ≤ stream.tail.length ∧
      (moved value → rest.tail.length < stream.tail.length)

namespace Yields

variable {α β : Type} {stream stream' : Stream} {moved : α → Prop} {goal : β → Prop}

/-- Seen from a stream with more lexemes. -/
theorem mono {moved' : α → Prop} {outcome : Except SyntaxError (α × Stream)}
    (h : Yields stream moved outcome) (hle : stream.tail.length ≤ stream'.tail.length)
    (hmoved : ∀ value, moved' value →
      moved value ∨ stream.tail.length < stream'.tail.length) : Yields stream' moved' outcome := by
  cases outcome with
  | error error => exact h
  | ok step =>
      refine ⟨h.1, h.2.1.trans hle, fun hmove => ?_⟩
      rcases hmoved step.1 hmove with hmove | hless
      · exact (h.2.2 hmove).trans_le hle
      · exact h.2.1.trans_lt hless

theorem bind {first : Except SyntaxError (α × Stream)}
    {second : α × Stream → Except SyntaxError (β × Stream)} (hfirst : Yields stream moved first)
    (hsecond : ∀ value rest, Yields stream moved (.ok (value, rest)) →
      Yields stream goal (second (value, rest))) : Yields stream goal (first >>= second) := by
  cases first with
  | error error => exact hfirst
  | ok step => exact hsecond step.1 step.2 hfirst

end Yields

/-- Whether the production of the level reads something. -/
def Level.consumes {α : Type} : Level α → Prop
  | .statement => False
  | _ => True

/-- Expressions read something, and no production stalls. -/
def Inner.Proceeds (inner : Inner) : Prop :=
  ∀ (α : Type) (level : Level α) (stream : Stream), stream.IsClosed →
    Yields stream (fun _ => level.consumes) (inner.call level stream)

/-- The production has a script, and it proceeds from streams whose current lexeme is known to be as
said, if the productions one level deeper proceed. -/
structure Proceeds {α : Type} (seen : Lexeme → Prop) (production : Inner → Production α)
    (moved : α → Prop) : Prop where
  script : ∃ script : Script α, ∀ inner, script.run inner = production inner
  yields : ∀ inner : Inner, inner.Proceeds → ∀ stream, stream.IsClosed → seen stream.head →
    Yields stream moved (production inner stream)

/-- The production reads something whenever it gives a value. -/
abbrev Consumes {α : Type} (production : Inner → Production α) : Prop :=
  Proceeds (fun _ => True) production fun _ => True

/-- The production does not stall. -/
abbrev Ends {α : Type} (production : Inner → Production α) : Prop :=
  Proceeds (fun _ => True) production fun _ => False

namespace Proceeds

variable {α β : Type} {seen seen' : Lexeme → Prop} {production : Inner → Production α}
  {moved moved' : α → Prop} {goal : β → Prop}

theorem mono (h : Proceeds seen production moved) (hseen : ∀ lexeme, seen' lexeme → seen lexeme)
    (hmoved : ∀ value, moved' value → moved value) : Proceeds seen' production moved' where
  script := h.script
  yields := fun inner hinner stream hclosed hhead =>
    (h.yields inner hinner stream hclosed (hseen _ hhead)).mono le_rfl fun value hvalue =>
      .inl (hmoved value hvalue)

theorem ends (h : Proceeds (fun _ => True) production moved) :
    Proceeds seen production fun _ => False :=
  h.mono (fun _ _ => trivial) fun _ => False.elim

theorem anywhere (h : Proceeds (fun _ => True) production moved) : Proceeds seen production moved :=
  h.mono (fun _ _ => trivial) fun _ => id

theorem of_ends (h : Ends production) (hmoved : ∀ value, ¬ moved value) :
    Proceeds (fun _ => True) production moved :=
  h.mono (fun _ => id) hmoved

protected theorem pure {value : α} (h : ¬ moved value) :
    Proceeds seen (fun _ => Pure.pure value) moved where
  script := ⟨.give value, fun _ => rfl⟩
  yields := fun _ _ _ hclosed _ => ⟨hclosed, le_rfl, fun hmoved => absurd hmoved h⟩

theorem fail {line : Nat} {fault : SyntaxFault} (h : fault ≠ .stalled) :
    Proceeds seen (fun _ => Grammar.fail line fault) moved where
  script := ⟨.fail ⟨line, fault⟩, fun _ => rfl⟩
  yields := fun _ _ _ _ _ => h

theorem bind {second : α → Inner → Production β} (hfirst : Proceeds seen production moved)
    (hsecond : ∀ value,
      Proceeds (fun _ => True) (second value) fun result => goal result ∧ ¬ moved value) :
    Proceeds seen (fun inner => production inner >>= fun value => second value inner) goal where
  script := by
    obtain ⟨script, hscript⟩ := hfirst.script
    choose scripts hscripts using fun value => (hsecond value).script
    refine ⟨script.bind scripts, fun inner => ?_⟩
    simp only [Script.run_bind, hscript, hscripts]
  yields := by
    intro inner hinner stream hclosed hhead
    refine (hfirst.yields inner hinner stream hclosed hhead).bind fun value rest hvalue => ?_
    refine ((hsecond value).yields inner hinner rest hvalue.1 trivial).mono hvalue.2.1 ?_
    intro result hresult
    by_cases hmoved : moved value
    · exact .inr (hvalue.2.2 hmoved)
    · exact .inl ⟨hresult, hmoved⟩

/-- Something that need not read anything, and a second part. -/
theorem before {second : α → Inner → Production β} (hfirst : Proceeds seen production moved)
    (hsecond : ∀ value, Proceeds (fun _ => True) (second value) goal) :
    Proceeds seen (fun inner => production inner >>= fun value => second value inner) goal :=
  hfirst.bind fun value => (hsecond value).mono (fun _ => id) fun _ => And.left

/-- A value made of what was read. -/
theorem giving {result : α → β} (h : Proceeds seen production moved) :
    Proceeds seen (fun inner => production inner >>= fun value => Pure.pure (result value))
      fun _ => False :=
  h.before fun _ => .pure id

/-- Something that is read, and a second part that need not read anything. -/
theorem after {second : α → Inner → Production β} (hfirst : Proceeds seen production fun _ => True)
    (hsecond : ∀ value, Ends (second value)) :
    Proceeds seen (fun inner => production inner >>= fun value => second value inner) goal :=
  hfirst.bind fun value => (hsecond value).of_ends fun _ h => h.2 trivial

/-- A look at the current lexeme, which is known from then on. -/
theorem look {second : Lexeme → Inner → Production β}
    (h : ∀ lexeme, Proceeds (fun head => head = lexeme ∧ seen head) (second lexeme) goal) :
    Proceeds seen (fun inner => current >>= fun lexeme => second lexeme inner) goal where
  script := by
    choose scripts hscripts using fun lexeme => (h lexeme).script
    refine ⟨.look fun head _ => scripts head, fun inner => funext fun stream => ?_⟩
    exact congrFun (hscripts stream.head inner) stream
  yields := fun inner hinner stream hclosed hhead =>
    (h stream.head).yields inner hinner stream hclosed ⟨rfl, hhead⟩

/-- A question about the current lexeme. -/
theorem check {question : Lexeme → Bool} {second : Bool → Inner → Production β}
    (h : ∀ lexeme, Proceeds (fun head => head = lexeme ∧ seen head) (second (question lexeme)) goal) :
    Proceeds seen (fun inner => (do return question (← current)) >>= fun found => second found inner)
      goal :=
  Proceeds.look h

theorem ite {condition : Prop} [Decidable condition] {first second : Inner → Production α}
    (hfirst : condition → Proceeds seen first moved)
    (hsecond : ¬ condition → Proceeds seen second moved) :
    Proceeds seen (fun inner => if condition then first inner else second inner) moved := by
  by_cases h : condition
  · simpa only [if_pos h] using hfirst h
  · simpa only [if_neg h] using hsecond h

/-- A question about the current lexeme and the one after it. -/
theorem checkNames {first last : Text} {second : Bool → Inner → Production β}
    (h : ∀ lexeme following : Lexeme, Proceeds (fun head => head = lexeme ∧ seen head)
      (second (lexeme.isName first && following.isName last)) goal) :
    Proceeds seen (fun inner => atNames first last >>= fun found => second found inner) goal where
  script := by
    choose scripts hscripts using fun lexeme following => (h lexeme following).script
    refine ⟨.look scripts, fun inner => funext fun stream => ?_⟩
    exact congrFun (hscripts stream.head stream.following inner) stream
  yields := fun inner hinner stream hclosed hhead =>
    (h stream.head stream.following).yields inner hinner stream hclosed ⟨rfl, hhead⟩

/-- Something that may be left out. -/
theorem beforeIf {condition : Prop} [Decidable condition] {rest : Inner → Production β}
    (hfirst : Ends production) (hrest : Proceeds (fun _ => True) rest goal) :
    Proceeds (fun _ => True)
      (fun inner => if condition then (do let _ ← production inner; rest inner) else rest inner)
      goal :=
  ite (fun _ => hfirst.before fun _ => hrest) fun _ => hrest

/-- A loop each of whose turns ends it or reads something. -/
theorem repeating {turn : α → Inner → Production (α ⊕ β)} {start : α}
    (hturn : ∀ state,
      Proceeds (fun _ => True) (turn state) fun outcome => outcome.isLeft = true) :
    Proceeds seen (fun inner => Grammar.repeating (fun state => turn state inner) start)
      fun _ => False where
  script := by
    choose scripts hscripts using fun state => (hturn state).script
    refine ⟨.cycle scripts start .give, fun inner => ?_⟩
    simp only [Script.run, hscripts, bind_pure]
  yields := by
    intro inner hinner stream hclosed _
    have hiterate : ∀ (bound : List Lexeme) (state : α) (rest : Stream), rest.IsClosed →
        rest.tail.length < bound.length → Yields rest (fun _ => False)
          (iterate (fun state => turn state inner) bound state rest) := by
      intro bound
      induction bound with
      | nil => exact fun _ _ _ hbound => absurd hbound (Nat.not_lt_zero _)
      | cons _ bound ih =>
          intro state rest hclosed hbound
          refine ((hturn state).yields inner hinner rest hclosed trivial).bind ?_
          rintro (state | value) next hnext
          · have hless := hnext.2.2 rfl
            exact (ih state next hnext.1 (hless.trans_le (Nat.le_of_lt_succ hbound))).mono
              hnext.2.1 fun _ => False.elim
          · exact ⟨hnext.1, hnext.2.1, False.elim⟩
    exact hiterate stream.lexemes start stream hclosed (Nat.lt_succ_self _)

end Proceeds

/-! ### Lexemes -/

section Lexemes

variable {seen : Lexeme → Prop} {α : Type} {moved : α → Prop}

theorem proceeds_next : Proceeds seen (fun _ => next) fun lexeme => lexeme.kind ≠ .eof where
  script := ⟨.look fun head _ => .move (.give head), fun _ => rfl⟩
  yields := by
    intro inner _ stream hclosed _
    change Yields stream _ (.ok (stream.head, stream.advance))
    unfold Stream.advance
    split
    · rename_i hkind
      exact ⟨hclosed, le_rfl, fun hne => absurd hkind hne⟩
    · rename_i hkind
      split
      · rename_i htail
        exact absurd (hclosed stream.head (by simp [Stream.lexemes, htail])) hkind
      · rename_i head tail htail
        have hlength : tail.length < stream.tail.length := by simp [htail]
        refine ⟨?_, hlength.le, fun _ => hlength⟩
        simpa [Stream.IsClosed, Stream.lexemes, htail] using hclosed

theorem ends_next : Ends fun _ => next :=
  proceeds_next.ends

/-- A lexeme that is known not to be the end of the template. -/
theorem consumes_next (h : ∀ lexeme, seen lexeme → lexeme.kind ≠ .eof) :
    Proceeds seen (fun _ => next) fun _ => True where
  script := ends_next.script
  yields := by
    intro inner hinner stream hclosed hhead
    obtain ⟨hrest, hle, hless⟩ := proceeds_next.yields inner hinner stream hclosed hhead
    exact ⟨hrest, hle, fun _ => hless (h stream.head hhead)⟩

theorem consumes_seen {lexeme : Lexeme} (h : lexeme.kind ≠ .eof) :
    Proceeds (fun head => head = lexeme ∧ seen head) (fun _ => next) fun _ => True :=
  consumes_next (by rintro _ ⟨rfl, -⟩; exact h)

theorem ends_pure (value : α) : Ends fun _ => pure value :=
  .pure id

theorem ends_following : Ends fun _ => following where
  script := ⟨.look fun _ following => .give following, fun _ => rfl⟩
  yields := fun _ _ _ hclosed _ => ⟨hclosed, le_rfl, False.elim⟩

theorem ends_check (question : Lexeme → Bool) : Ends fun _ => do return question (← current) :=
  .look fun _ => .pure id

theorem ends_currentLine : Ends fun _ => currentLine :=
  .look fun _ => .pure id

theorem ends_atNames (first second : Text) : Ends fun _ => atNames first second :=
  .look fun _ => ends_following.anywhere.giving

theorem proceeds_mismatch (expected : String) : Proceeds seen (fun _ => mismatch expected) moved :=
  .look fun _ => .ite (fun _ => .fail (by simp)) fun _ => .fail (by simp)

theorem consumes_expect {accept : Lexeme → Bool}
    (h : ∀ lexeme, accept lexeme → lexeme.kind ≠ .eof) (expected : String) :
    Consumes fun _ => expect accept expected :=
  .look fun _ => .ite
    (fun haccept => consumes_seen (h _ haccept))
    fun _ => proceeds_mismatch _

theorem kind_ne_eof_of_isOperator (symbol : Text) (lexeme : Lexeme)
    (h : lexeme.isOperator symbol) : lexeme.kind ≠ .eof := by
  intro hkind
  simp [Lexeme.isOperator, hkind] at h

theorem kind_ne_eof_of_isName (word : Text) (lexeme : Lexeme) (h : lexeme.isName word) :
    lexeme.kind ≠ .eof := by
  intro hkind
  simp [Lexeme.isName, hkind] at h

theorem consumes_expectOperator (symbol : Text) : Consumes fun _ => expectOperator symbol :=
  consumes_expect (kind_ne_eof_of_isOperator symbol) _

theorem consumes_expectWord (word : Text) : Consumes fun _ => expectWord word :=
  consumes_expect (kind_ne_eof_of_isName word) _

theorem consumes_expectKind {kind : TokenKind} (h : kind ≠ .eof) :
    Consumes fun _ => expectKind kind :=
  consumes_expect (fun _ hkind => (beq_iff_eq.mp hkind).trans_ne h) _

theorem consumes_expectName : Consumes fun _ => expectName :=
  consumes_expect (fun _ hkind => (beq_iff_eq.mp hkind).trans_ne (by simp)) _

theorem proceeds_skip {question : Lexeme → Bool}
    (h : ∀ lexeme, question lexeme → lexeme.kind ≠ .eof) :
    Proceeds (fun _ => True) (fun _ => do
      if ← (do return question (← current)) then
        let _ ← next
        return true
      else return false) fun found => found = true :=
  .check fun lexeme => .ite
    (fun hfound => (consumes_seen (h _ hfound)).after fun _ => .pure id)
    fun _ => .pure (by simp)

theorem proceeds_skipOperator (symbol : Text) :
    Proceeds (fun _ => True) (fun _ => skipOperator symbol) fun found => found = true :=
  proceeds_skip (kind_ne_eof_of_isOperator symbol)

theorem proceeds_skipName (word : Text) :
    Proceeds (fun _ => True) (fun _ => skipName word) fun found => found = true :=
  proceeds_skip (kind_ne_eof_of_isName word)

/-- A choice by a lexeme that is read if it is there. -/
theorem Proceeds.choose {skip : Inner → Production Bool} {first second : Inner → Production α}
    (hskip : Proceeds (fun _ => True) skip fun found => found = true) (hfirst : Ends first)
    (hsecond : Proceeds (fun _ => True) second moved) :
    Proceeds (fun _ => True)
      (fun inner => skip inner >>= fun found => if found then first inner else second inner) moved :=
  hskip.bind fun _ => .ite
    (fun hfound => hfirst.of_ends fun _ h => h.2 hfound)
    fun _ => hsecond.mono (fun _ => id) fun _ => And.left

theorem ends_whenever {condition : Inner → Production Bool} {value : Inner → Production α}
    {found : Bool → Prop} (hcondition : Proceeds (fun _ => True) condition found)
    (hvalue : Ends value) : Ends fun inner => whenever (condition inner) (value inner) :=
  hcondition.before fun _ => .ite (fun _ => hvalue.giving) fun _ => .pure id

theorem proceeds_level (level : Level α) :
    Proceeds (fun _ => True) (fun inner => inner.call level) fun _ => level.consumes where
  script := ⟨.enter level .give, fun _ => by simp only [Script.run, bind_pure]⟩
  yields := fun _ hinner stream hclosed _ => hinner α level stream hclosed

theorem consumes_dottedName : Consumes fun _ => dottedName :=
  consumes_expectName.after fun _ => .repeating fun _ =>
    (proceeds_skipOperator _).choose (consumes_expectName.ends.giving)
      (.pure (by simp))

theorem ends_adjacentStrings (text : Text) : Ends fun _ => adjacentStrings text :=
  .repeating fun _ => .check fun lexeme => .ite
    (fun hkind => (consumes_seen (by simp [beq_iff_eq.mp hkind])).after fun _ => .pure id)
    fun _ => .pure (by simp)

theorem proceeds_sign : Proceeds (fun _ => True) (fun _ => sign) fun op => op.isSome = true :=
  (proceeds_skipOperator _).choose (.pure id)
    ((proceeds_skipOperator _).choose (.pure id) (.pure (by simp)))

end Lexemes

/-! ### Expressions -/

theorem consumes_condition : Consumes fun inner => inner.condition :=
  proceeds_level .condition

section Expressions

variable {α : Type} {item : Inner → Production α}

theorem ends_bracketed (hitem : Consumes item) (closer : Text) :
    Ends fun inner => bracketed (item inner) closer := by
  refine (Proceeds.repeating fun items => ?_).before fun _ =>
    (consumes_expectOperator _).ends.giving
  refine (ends_check _).before fun _ => .ite (fun _ => .pure (by simp)) fun _ => ?_
  refine .beforeIf (consumes_expectOperator _).ends ?_
  refine (ends_check _).before fun _ => .ite (fun _ => .pure (by simp)) fun _ => ?_
  exact hitem.after fun _ => .pure id

theorem ends_tuple {item : Inner → Production Expr} (hitem : Consumes item) (stops : List Text)
    (mayBeEmpty : Bool) : Ends fun inner => tuple (item inner) stops mayBeEmpty := by
  refine ends_currentLine.before fun line => (Proceeds.repeating fun items => ?_).before ?_
  · refine .beforeIf (consumes_expectOperator _).ends ?_
    refine Proceeds.before (ends_check _) fun _ => .ite (fun _ => .pure (by simp)) fun _ => ?_
    refine hitem.after fun item => (ends_check _).before fun _ => ?_
    exact .ite (fun _ => .pure id) fun _ => .pure id
  · rintro ⟨items, isTuple⟩
    dsimp only
    rcases isTuple with _ | _ <;> rcases items with _ | ⟨item, _ | _⟩
    · exact .ite (fun _ => .pure id) fun _ => .look fun _ => .fail (by simp)
    all_goals exact .pure id

theorem consumes_listDisplay : Consumes listDisplay :=
  (consumes_expectOperator _).after fun _ =>
    (ends_bracketed consumes_condition _).giving

theorem consumes_entry : Consumes entry :=
  ends_currentLine.before fun _ => consumes_condition.after fun _ =>
    (consumes_expectOperator _).ends.before fun _ => consumes_condition.ends.giving

theorem consumes_dictDisplay : Consumes dictDisplay :=
  (consumes_expectOperator _).after fun _ =>
    (ends_bracketed consumes_entry _).giving

theorem consumes_parenthesized : Consumes parenthesized :=
  (consumes_expectOperator _).after fun _ => (ends_tuple consumes_condition _ _).before fun _ =>
    (consumes_expectOperator _).ends.giving

theorem ends_integerConstant (lexeme : Lexeme) : Ends fun _ => integerConstant lexeme := by
  unfold integerConstant
  cases Number.integer? lexeme.value
  · exact .fail (by simp)
  · exact .pure id

theorem ends_floatConstant (lexeme : Lexeme) : Ends fun _ => floatConstant lexeme := by
  unfold floatConstant
  cases Double.read? lexeme.value
  · exact .fail (by simp)
  · exact .pure id

theorem consumes_primary : Consumes primary := by
  refine .look fun lexeme => ?_
  have hunexpected : Proceeds (fun head => head = lexeme ∧ True)
      (fun _ => fail lexeme.line (.unexpectedToken lexeme.describe)) fun _ : Expr => True :=
    .fail (by simp)
  dsimp only
  cases hkind : lexeme.kind with
  | name =>
      refine (consumes_seen (by simp [hkind])).after fun _ => ?_
      cases namedConstant? lexeme.value <;> exact .pure id
  | string =>
      exact (consumes_seen (by simp [hkind])).after fun _ => (ends_adjacentStrings _).giving
  | integer =>
      exact (consumes_seen (by simp [hkind])).after fun _ => (ends_integerConstant _).giving
  | float =>
      exact (consumes_seen (by simp [hkind])).after fun _ => (ends_floatConstant _).giving
  | operator =>
      refine .ite (fun _ => ?_) fun _ => .ite (fun _ => ?_) fun _ => .ite (fun _ => ?_) fun _ =>
        hunexpected
      · exact consumes_parenthesized.anywhere
      · exact consumes_listDisplay.anywhere
      · exact consumes_dictDisplay.anywhere
  | _ => exact hunexpected

theorem ends_slice (line : Nat) (start : Option Expr) : Ends fun inner => slice inner line start := by
  have hother : ∀ symbols, Ends fun _ => do return !(← atAnyOperator symbols) :=
    fun _ => Proceeds.before (ends_check _) fun _ => .pure id
  have hstep : Ends fun _ => do
      if ← skipOperator ":" then return !(← atAnyOperator ["]".toList, ",".toList])
      else return false :=
    (proceeds_skipOperator _).choose (hother _) (.pure id)
  exact (ends_whenever (hother _) consumes_condition.ends).before fun _ =>
    (ends_whenever hstep consumes_condition.ends).giving

theorem consumes_subscript : Consumes subscript :=
  ends_currentLine.before fun _ => (proceeds_skipOperator _).choose (ends_slice _ _)
    (consumes_condition.after fun _ => (proceeds_skipOperator _).choose (ends_slice _ _) (.pure id))

theorem ends_member (operand : Expr) (line : Nat) : Ends fun _ => member operand line := by
  refine ends_next.before fun lexeme => ?_
  cases lexeme.kind with
  | name => exact .pure id
  | integer => exact (ends_integerConstant _).giving
  | _ => exact .fail (by simp)

theorem ends_subscripts (operand : Expr) (line : Nat) :
    Ends fun inner => subscripts inner operand line := by
  refine (Proceeds.repeating fun items => ?_).before fun items =>
    (consumes_expectOperator _).ends.before fun _ => ?_
  · refine (ends_check _).before fun _ => .ite (fun _ => .pure (by simp)) fun _ => ?_
    refine .beforeIf (consumes_expectOperator _).ends ?_
    exact consumes_subscript.after fun _ => .pure id
  · rcases items with _ | ⟨index, _ | _⟩ <;> exact .pure id

theorem consumes_argument (line : Nat) (arguments : Arguments Expr) :
    Consumes fun inner => argument inner line arguments := by
  have hvalue : ∀ result : Expr → Arguments Expr,
      Consumes fun inner => inner.condition >>= fun value => pure (result value) :=
    fun _ => consumes_condition.after fun _ => .pure id
  refine (proceeds_skipOperator _).choose (.ite (fun _ => .fail (by simp)) fun _ => (hvalue _).ends) ?_
  refine (proceeds_skipOperator _).choose (.ite (fun _ => .fail (by simp)) fun _ => (hvalue _).ends) ?_
  refine (ends_check _).before fun _ => ends_following.before fun _ => .ite (fun _ => ?_) fun _ => ?_
  · exact .ite (fun _ => .fail (by simp)) fun _ => ends_next.before fun _ =>
      ends_next.before fun _ => hvalue _
  · exact .ite (fun _ => .fail (by simp)) fun _ => hvalue _

theorem consumes_callArguments : Consumes callArguments := by
  refine (consumes_expectOperator _).after fun _ => (Proceeds.repeating ?_).before fun _ =>
    (consumes_expectOperator _).ends.giving
  rintro ⟨arguments, started⟩
  refine (ends_check _).before fun _ => .ite (fun _ => .pure (by simp)) fun _ => ?_
  refine .beforeIf (consumes_expectOperator _).ends ?_
  refine (ends_check _).before fun _ => .ite (fun _ => .pure (by simp)) fun _ => ?_
  exact (consumes_argument _ _).after fun _ => .pure id

theorem ends_optionalArguments : Ends optionalArguments :=
  (ends_check _).before fun _ => .ite (fun _ => consumes_callArguments.ends) fun _ => .pure id

theorem consumes_call (operand : Expr) : Consumes fun inner => call inner operand :=
  ends_currentLine.before fun _ => consumes_callArguments.after fun _ => .pure id

theorem ends_trailers (operand : Expr) : Ends fun inner => trailers inner operand := by
  refine .repeating fun operand => .look fun lexeme => ?_
  refine .ite (fun h => ?_) fun _ => .ite (fun h => ?_) fun _ => .ite (fun _ => ?_) fun _ =>
    .pure (by simp)
  · exact (consumes_seen (kind_ne_eof_of_isOperator _ _ h)).after fun _ => (ends_member _ _).giving
  · exact (consumes_seen (kind_ne_eof_of_isOperator _ _ h)).after fun _ => (ends_subscripts _ _).giving
  · exact (consumes_call _).anywhere.after fun _ => .pure id

theorem consumes_filterLink (operand : Option Expr) : Consumes fun inner => filterLink inner operand :=
  ends_currentLine.before fun _ => consumes_dottedName.after fun _ =>
    ends_optionalArguments.giving

theorem ends_filterChain (operand : Expr) : Ends fun inner => filterChain inner operand :=
  .repeating fun _ => (proceeds_skipOperator _).choose
    ((consumes_filterLink _).ends.giving) (.pure (by simp))

theorem ends_testArguments : Ends testArguments := by
  refine .look fun lexeme => .ite (fun _ => consumes_callArguments.ends) fun _ => ?_
  refine .ite (fun _ => .ite (fun _ => .fail (by simp)) fun _ => ?_) fun _ => .pure id
  exact consumes_primary.ends.before fun _ => (ends_trailers _).giving

theorem consumes_test (operand : Expr) : Consumes fun inner => test inner operand :=
  (consumes_expectWord _).after fun _ => (proceeds_skipName _).before fun _ =>
    consumes_dottedName.ends.before fun _ => ends_testArguments.giving

theorem ends_filtersAndTests (operand : Expr) : Ends fun inner => filtersAndTests inner operand := by
  refine .repeating fun operand => (proceeds_skipOperator _).choose
    ((consumes_filterLink _).ends.giving) ?_
  refine (ends_check _).before fun _ => .ite (fun _ => ?_) fun _ => ?_
  · exact (consumes_test _).after fun _ => .pure id
  · refine (ends_check _).before fun _ => .ite (fun _ => ?_) fun _ => .pure (by simp)
    exact (consumes_call _).after fun _ => .pure id

theorem consumes_signed : Consumes signed := by
  refine ends_currentLine.before fun line => proceeds_sign.bind fun op => ?_
  cases op with
  | none => exact consumes_primary.after ends_trailers
  | some op =>
      exact .of_ends ((proceeds_level .signed).ends.before fun _ => ends_trailers _) fun _ h => h.2 rfl

theorem consumes_filtered : Consumes filtered :=
  consumes_signed.after ends_filtersAndTests

theorem proceeds_operatorAmong (operators : List BinaryOp) :
    Proceeds (fun _ => True) (fun _ => operatorAmong operators) fun op => op.isSome := by
  refine .look fun lexeme => ?_
  cases hfind : operators.find? _ with
  | none => exact .pure (by simp)
  | some op =>
      have hop := List.find?_some hfind
      refine (consumes_seen ?_).after fun _ => .pure id
      split at hop
      · exact kind_ne_eof_of_isName _ _ hop
      · exact kind_ne_eof_of_isOperator _ _ hop

theorem consumes_chain (operators : List BinaryOp) {operand : Inner → Production Expr}
    (hoperand : Consumes operand) : Consumes fun inner => chain operators (operand inner) := by
  refine ends_currentLine.before fun _ => hoperand.after fun _ => .repeating fun _ => ?_
  refine (proceeds_operatorAmong _).bind fun op => ?_
  cases op with
  | none => exact .pure (by simp)
  | some op => exact .of_ends (hoperand.ends.giving) fun _ h => h.2 rfl

theorem consumes_product : Consumes product :=
  consumes_chain _ (consumes_chain _ consumes_filtered)

theorem consumes_concatenation : Consumes concatenation :=
  ends_currentLine.before fun _ => consumes_product.after fun _ =>
    (Proceeds.repeating fun _ => (proceeds_skipOperator _).choose
      consumes_product.ends.giving (.pure (by simp))).giving

theorem consumes_sum : Consumes sum :=
  consumes_chain _ consumes_concatenation

theorem proceeds_compareOperator :
    Proceeds (fun _ => True) (fun _ => compareOperator) fun op => op.isSome := by
  refine .look fun lexeme => .ite (fun hkind => ?_) fun _ => ?_
  · cases CompareOp.ofSymbol? lexeme.value with
    | none => exact .pure (by simp)
    | some op =>
        exact (consumes_seen (by simp [hkind])).after fun _ => .pure id
  · refine Proceeds.anywhere ?_
    refine (proceeds_skipName _).choose (.pure id) (.checkNames fun lexeme following => ?_)
    refine .ite (fun h => ?_) fun _ => .pure (by simp)
    have hname := (Bool.and_eq_true_iff.mp h).1
    exact (consumes_seen (kind_ne_eof_of_isName _ _ hname)).after fun _ => ends_next.giving

theorem consumes_comparison : Consumes comparison := by
  refine ends_currentLine.before fun _ => consumes_sum.after fun _ =>
    (Proceeds.repeating fun _ => ends_currentLine.before fun _ => ?_).giving
  refine proceeds_compareOperator.bind fun op => ?_
  cases op with
  | none => exact .pure (by simp)
  | some op => exact .of_ends (consumes_sum.ends.giving) fun _ h => h.2 rfl

theorem consumes_negation : Consumes negation :=
  ends_currentLine.before fun _ => (proceeds_skipName _).choose
    ((proceeds_level .negation).ends.giving) consumes_comparison

theorem consumes_disjunction : Consumes disjunction :=
  consumes_chain _ (consumes_chain _ consumes_negation)

theorem consumes_conditional : Consumes condition :=
  ends_currentLine.before fun _ => consumes_disjunction.after fun _ => .repeating fun _ =>
    (proceeds_skipName _).choose (consumes_disjunction.ends.before fun _ =>
      (ends_whenever (proceeds_skipName _) consumes_condition.ends).giving)
      (.pure (by simp))

end Expressions

/-! ### Statements -/

theorem ends_body (ends : List Text) : Ends fun inner => body inner ends := by
  refine .repeating fun body => .look fun lexeme => ?_
  cases hkind : lexeme.kind with
  | data => exact (consumes_seen (by simp [hkind])).after fun _ => .pure id
  | variableBegin =>
      exact (consumes_seen (by simp [hkind])).after fun _ => (ends_tuple consumes_condition _ _).before
        fun _ => (consumes_expectKind (by simp)).ends.giving
  | blockBegin =>
      refine (consumes_seen (by simp [hkind])).after fun _ => .look fun _ => ?_
      refine .ite (fun _ => .pure id) fun _ => ?_
      exact (proceeds_level .statement).ends.before fun _ =>
        (consumes_expectKind (by simp)).ends.giving
  | eof => exact .pure (by simp)
  | _ => exact .fail (by simp)

theorem ends_bodyUntil (ends : List Text) : Ends fun inner => bodyUntil inner ends :=
  (proceeds_skipOperator _).before fun _ => (consumes_expectKind (by simp)).ends.before fun _ =>
    (ends_body _).before fun _ => (ends_check _).before fun _ =>
      .ite (fun _ => ends_currentLine.before fun _ => .fail (by simp)) fun _ => .pure id

theorem ends_bodyThrough (stop : Text) : Ends fun inner => bodyThrough inner stop :=
  (ends_bodyUntil _).before fun _ => ends_next.giving

theorem ends_assignable (line : Nat) (target : Expr) : Ends fun _ => assignable line target :=
  .ite (fun _ => .pure id) fun _ => .fail (by simp)

theorem ends_target (stops : List Text) : Ends fun inner => target inner stops :=
  ends_currentLine.before fun _ => (ends_tuple consumes_primary _ _).before fun _ =>
    ends_assignable _ _

theorem ends_setTarget : Ends setTarget := by
  refine ends_following.before fun _ => .ite (fun _ => ?_) fun _ => ends_target _
  exact consumes_expectName.ends.before fun _ => ends_next.before fun _ =>
    consumes_expectName.ends.giving

theorem consumes_parameter : Consumes fun _ => parameter :=
  consumes_expectName.after fun _ => (ends_assignable _ _).giving

theorem ends_signature : Ends signature := by
  refine (consumes_expectOperator _).ends.before fun _ => (Proceeds.repeating ?_).before fun _ =>
    (consumes_expectOperator _).ends.giving
  rintro ⟨parameters, defaults⟩
  refine (ends_check _).before fun _ => .ite (fun _ => .pure (by simp)) fun _ => ?_
  refine .beforeIf (consumes_expectOperator _).ends ?_
  refine consumes_parameter.after fun _ => (proceeds_skipOperator _).before fun _ => ?_
  refine .ite (fun _ => consumes_condition.ends.giving) fun _ => ?_
  exact .ite (fun _ => .pure id) fun _ => ends_currentLine.before fun _ => .fail (by simp)

theorem ends_loop : Ends loop := by
  refine (consumes_expectWord _).ends.before fun _ => (ends_target _).before fun _ => ?_
  refine (consumes_expectWord _).ends.before fun _ =>
    (ends_tuple (proceeds_level .disjunction) _ _).before fun _ => ?_
  refine (ends_whenever (proceeds_skipName _) consumes_condition.ends).before fun _ => ?_
  refine (proceeds_skipName _).before fun _ => (ends_bodyUntil _).before fun _ => ?_
  refine ends_next.before fun _ => .ite (fun _ => .pure id) fun _ => ?_
  exact (ends_bodyThrough _).giving

theorem ends_guarded : Ends guarded :=
  (ends_tuple (proceeds_level .disjunction) _ _).before fun _ =>
    (ends_bodyUntil _).giving

theorem ends_branch : Ends branch := by
  refine (consumes_expectWord _).ends.before fun _ => ends_guarded.before ?_
  rintro ⟨test, stmts⟩
  refine .repeating fun others => proceeds_next.bind fun lexeme => .ite (fun h => ?_) fun _ => ?_
  · have hmoved := kind_ne_eof_of_isName _ _ h
    exact .of_ends (ends_guarded.giving) fun _ h => h.2 hmoved
  · refine .ite (fun _ => ?_) fun _ => .pure (by simp)
    exact (ends_bodyThrough _).before fun _ => .pure (by simp)

theorem ends_binding : Ends binding := by
  refine (consumes_expectWord _).ends.before fun _ => (Proceeds.repeating ?_).before ?_
  · rintro ⟨targets, values⟩
    refine (ends_check _).before fun _ => .ite (fun _ => .pure (by simp)) fun _ => ?_
    refine .beforeIf (consumes_expectOperator _).ends ?_
    refine (ends_target _).before fun _ => (consumes_expectOperator _).after fun _ => ?_
    exact consumes_condition.ends.giving
  · rintro ⟨targets, values⟩
    exact (ends_bodyThrough _).giving

theorem proceeds_contextChoice :
    Proceeds (fun _ => True) (fun _ => contextChoice) fun choice => choice.isSome := by
  refine .checkNames fun lexeme _ => .checkNames fun lexeme' _ => .ite (fun h => ?_) fun _ =>
    .pure (by simp)
  refine (consumes_next ?_).after fun _ => ends_next.giving
  rintro _ ⟨rfl, rfl, -⟩
  rcases Bool.or_eq_true_iff.mp h with h | h
  · exact kind_ne_eof_of_isName _ _ (Bool.and_eq_true_iff.mp h).1
  · exact kind_ne_eof_of_isName _ _ (Bool.and_eq_true_iff.mp h).1

theorem contextChoice_eq (stream : Stream) : contextChoice stream = .ok (none, stream) ∨
    ∃ choice next, contextChoice stream = .ok (some choice, next) := by
  have hrun : ∃ found : Bool, contextChoice stream =
      (if found then (do
        let word := (← next).value
        let _ ← next
        return some (word == "with".toList))
      else return none : Production (Option Bool)) stream := ⟨_, rfl⟩
  obtain ⟨_ | _, hrun⟩ := hrun
  · exact .inl hrun
  · exact .inr ⟨_, _, hrun⟩

/-- A choice that is read if it is there; else the current lexeme is still the same. -/
theorem Proceeds.chooseContext {α : Type} {seen : Lexeme → Prop} {moved : α → Prop}
    {rest : Option Bool → Inner → Production α} (hsome : ∀ choice, Ends (rest (some choice)))
    (hnone : Proceeds seen (rest none) moved) :
    Proceeds seen (fun inner => contextChoice >>= fun choice => rest choice inner) moved where
  script := by
    obtain ⟨script, hscript⟩ := proceeds_contextChoice.script
    obtain ⟨without, hwithout⟩ := hnone.script
    choose chosen hchosen using fun choice => (hsome choice).script
    refine ⟨script.bind fun choice => choice.elim without chosen, fun inner => ?_⟩
    rw [Script.run_bind, hscript]
    congr 1
    funext choice
    cases choice with
    | none => exact hwithout inner
    | some choice => exact hchosen choice inner
  yields := by
    intro inner hinner stream hclosed hhead
    have hchoice := proceeds_contextChoice.yields inner hinner stream hclosed trivial
    change Yields stream moved (contextChoice stream >>= fun step => rest step.1 inner step.2)
    rcases contextChoice_eq stream with heq | ⟨choice, next, heq⟩
    · rw [heq]
      exact hnone.yields inner hinner stream hclosed hhead
    · rw [heq] at hchoice ⊢
      exact ((hsome choice).yields inner hinner next hchoice.1 trivial).mono hchoice.2.1 fun _ _ =>
        .inr (hchoice.2.2 rfl)

theorem consumes_importedName {seen : Lexeme → Prop} (h : ∀ lexeme, seen lexeme → lexeme.kind ≠ .eof) :
    Proceeds seen (fun _ => importedName) fun _ => True :=
  (consumes_next h).after fun _ => .ite (fun _ => .fail (by simp)) fun _ =>
    (ends_whenever (proceeds_skipName _) consumes_expectName.ends).giving

theorem ends_importNames : Ends importNames := by
  refine ends_next.before fun _ => consumes_condition.ends.before fun _ => ?_
  refine (consumes_expectWord _).ends.before fun _ => .repeating fun names => ?_
  refine .beforeIf (consumes_expectOperator _).ends (.check fun lexeme => ?_)
  refine .ite (fun _ => proceeds_mismatch _) fun hkind => ?_
  refine .chooseContext (fun _ => .pure id) ?_
  refine (consumes_importedName ?_).after fun _ => proceeds_contextChoice.before fun choice => ?_
  · rintro _ ⟨rfl, -⟩
    simp at hkind
    simp [hkind]
  · cases choice with
    | none => exact (ends_check _).before fun _ => .ite (fun _ => .pure id) fun _ => .pure id
    | some choice => exact .pure id

theorem ends_callBlock : Ends callBlock := by
  refine ends_next.before fun _ => (ends_check _).before fun _ => .ite
    (fun _ => ends_signature.before fun _ => ?_) fun _ => (ends_pure _).before fun _ => ?_
  all_goals
    refine consumes_condition.ends.before fun _ => .ite (fun _ => ?_) fun _ => .fail (by simp)
    exact (ends_bodyThrough _).giving

theorem ends_printing : Ends printing := by
  refine ends_next.before fun _ => (Proceeds.repeating fun _ => ?_).giving
  refine (ends_check _).before fun _ => .ite (fun _ => .pure (by simp)) fun _ => ?_
  refine .beforeIf (consumes_expectOperator _).ends ?_
  exact consumes_condition.after fun _ => .pure id

theorem ends_assignment : Ends assignment := by
  refine ends_next.before fun _ => ends_setTarget.before fun _ => (proceeds_skipOperator _).choose ?_ ?_
  · exact (ends_tuple consumes_condition _ _).giving
  · have hfilter : Ends fun inner => filterLink inner none >>= filterChain inner :=
      (consumes_filterLink _).ends.before ends_filterChain
    exact (ends_whenever (proceeds_skipOperator _) hfilter).before fun _ =>
      (ends_bodyThrough _).giving

theorem ends_tagged (tag : Tag) : Ends fun inner => tagged inner tag := by
  cases tag with
  | loop => exact ends_loop
  | branch => exact ends_branch
  | block =>
      refine ends_next.before fun _ => consumes_expectName.ends.before fun _ => ?_
      refine (proceeds_skipName _).before fun _ => (proceeds_skipName _).before fun _ => ?_
      refine (ends_check _).before fun _ => .ite
        (fun _ => ends_currentLine.before fun _ => .fail (by simp)) fun _ => ?_
      exact (ends_bodyThrough _).before fun _ => (proceeds_skipName _).giving
  | extend => exact ends_next.before fun _ => consumes_condition.ends.giving
  | print => exact ends_printing
  | macroBlock =>
      exact ends_next.before fun _ => consumes_expectName.ends.before fun _ =>
        ends_signature.before fun _ => (ends_bodyThrough _).giving
  | insert =>
      refine ends_next.before fun _ => consumes_condition.ends.before fun _ =>
        (ends_atNames _ _).before fun _ => ?_
      refine .ite (fun _ => ends_next.before fun _ => ends_next.before fun _ => ?_) fun _ => ?_
      all_goals exact proceeds_contextChoice.giving
  | importNames => exact ends_importNames
  | importAs =>
      exact ends_next.before fun _ => consumes_condition.ends.before fun _ =>
        (consumes_expectWord _).ends.before fun _ => consumes_expectName.ends.before fun _ =>
          proceeds_contextChoice.giving
  | set => exact ends_assignment
  | bind => exact ends_binding
  | autoescape =>
      exact ends_next.before fun _ => consumes_condition.ends.before fun _ =>
        (ends_bodyThrough _).giving
  | callBlock => exact ends_callBlock
  | filterBlock =>
      exact ends_next.before fun _ => (consumes_filterLink _).ends.before fun _ =>
        (ends_filterChain _).before fun _ => (ends_bodyThrough _).giving
  | perform =>
      exact ends_next.before fun _ => (ends_tuple consumes_condition _ _).giving
  | skip | leave => exact ends_next.giving

theorem ends_statement : Ends statement := by
  refine .look fun lexeme => .ite (fun _ => ?_) fun _ => .fail (by simp)
  cases Tag.ofWord? lexeme.value with
  | none => exact .fail (by simp)
  | some tag => exact (ends_tagged tag).ends

/-! ### The whole parser -/

theorem proceeds_nested (levels : Nat) : (nested levels).Proceeds := by
  induction levels with
  | zero =>
      intro α level stream _
      cases level <;> exact (by simp : SyntaxFault.nestingExceeded ≠ .stalled)
  | succ levels ih =>
      intro α level stream hclosed
      cases level with
      | condition => exact consumes_conditional.yields _ ih stream hclosed trivial
      | disjunction => exact consumes_disjunction.yields _ ih stream hclosed trivial
      | negation => exact consumes_negation.yields _ ih stream hclosed trivial
      | signed => exact consumes_signed.yields _ ih stream hclosed trivial
      | statement => exact ends_statement.yields _ ih stream hclosed trivial

theorem exists_script (α : Type) (level : Level α) :
    ∃ script : Script α, ∀ inner, script.run inner = level.production inner := by
  cases level with
  | condition => exact consumes_conditional.script
  | disjunction => exact consumes_disjunction.script
  | negation => exact consumes_negation.script
  | signed => exact consumes_signed.script
  | statement => exact ends_statement.script

theorem isClosed_closed (last : Lexeme) (lexemes : List Lexeme) :
    ∀ lexeme ∈ (last :: Stream.closed last lexemes).getLast?, lexeme.kind = .eof := by
  induction lexemes generalizing last with
  | nil =>
      unfold Stream.closed
      split <;> simp_all
  | cons next lexemes ih =>
      rw [Stream.closed, List.getLast?_cons_cons]
      exact ih next

theorem isClosed_ofLexemes (lexemes : List Lexeme) : (Stream.ofLexemes lexemes).IsClosed := by
  cases lexemes with
  | nil => simp [Stream.ofLexemes, Stream.IsClosed, Stream.lexemes]
  | cons first lexemes => exact isClosed_closed first lexemes

/-- The lexemes that the parser reads, with the end of the template at their end. -/
def parsed (lexemes : List Lexeme) : List Lexeme :=
  (Stream.ofLexemes lexemes).lexemes

/-- The scripts of a parser are those of its productions. -/
structure AreScripts (scripts : ∀ α : Type, Level α → Script α) (main : Script (List Stmt)) :
    Prop where
  level : ∀ (α : Type) (level : Level α) (inner : Inner),
    (scripts α level).run inner = level.production inner
  main : ∀ inner, main.run inner = body inner []

/-- The parser ends on every list of lexemes: the machine for its scripts comes to a stop with a
template or an error, in one way only; it stays in the lexemes and within the levels, and every
production returns to the level at which it was entered and never behind the place. -/
theorem parser_ends : ∃ scripts main, AreScripts scripts main ∧ ∀ lexemes : List Lexeme,
    ∃ trace result stop, Exec (parsed lexemes) scripts main ⟨0, 0⟩ trace result stop ∧
      (∀ trace' result' stop', Exec (parsed lexemes) scripts main ⟨0, 0⟩ trace' result' stop' →
        trace' = trace ∧ result' = result ∧ stop' = stop) ∧
      template lexemes = result.map (fun stmts => { body := stmts, layout := .onLine 1 }) ∧
      (∀ error, result = .error error → error.fault ≠ .stalled) ∧
      (∀ place ∈ trace, place.IsWithin (parsed lexemes)) ∧
      ∀ (α : Type) (script : Script α) (start stop : Spot) (trace : List Spot)
        (result : Except SyntaxError α),
        Exec (parsed lexemes) scripts script start trace result stop →
          stop.depth = start.depth ∧ start.position ≤ stop.position := by
  choose scripts hscripts using exists_script
  obtain ⟨main, hmain⟩ := (ends_body []).script
  refine ⟨scripts, main, ⟨hscripts, hmain⟩, fun lexemes => ?_⟩
  have hclosed := isClosed_ofLexemes lexemes
  have hyields := (ends_body []).yields _ (proceeds_nested nestingLimit) _ hclosed trivial
  have hfollows := follows_run hclosed hscripts le_rfl main ⟨0, 0⟩ (.ofLexemes lexemes)
    (Nat.sub_self _).symm rfl
  rw [hmain] at hfollows
  have hexec : ∃ trace stop result, Exec (parsed lexemes) scripts main ⟨0, 0⟩ trace result stop ∧
      template lexemes = result.map (fun stmts => { body := stmts, layout := .onLine 1 }) ∧
      ∀ error, result = .error error → error.fault ≠ .stalled := by
    unfold template StateT.run
    cases hrun : body (nested nestingLimit) [] (.ofLexemes lexemes) with
    | error error =>
        rw [hrun] at hyields hfollows
        obtain ⟨trace, stop, h⟩ := hfollows hyields
        exact ⟨trace, stop, _, h, rfl, by rintro _ ⟨⟩; exact hyields⟩
    | ok step =>
        rw [hrun] at hfollows
        obtain ⟨trace, stop, h, -⟩ := hfollows
        exact ⟨trace, stop, _, h, rfl, nofun⟩
  obtain ⟨trace, stop, result, h, htemplate, hfault⟩ := hexec
  refine ⟨trace, result, stop, h, fun _ _ _ h' => h'.unique h, htemplate, hfault, ?_,
    fun _ _ _ _ _ _ h' => h'.returns⟩
  refine (h.isWithin hclosed ⟨?_, Nat.zero_le _⟩).2
  exact Nat.succ_pos _

end JinjaLayout.Grammar
