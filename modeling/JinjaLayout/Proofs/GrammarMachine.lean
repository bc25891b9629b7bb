import Mathlib
import JinjaLayout.Grammar.Statement

/-!
The parser as a machine with a cursor and a counter. A script lists the steps of a production: it
looks at lexemes, moves on, goes one level deeper or takes turns. Productions are the scripts read as
functions on streams; the machine runs the same scripts on a list of lexemes, with a position in it
and a count of the levels. Main statement: whatever a production gives without its loops running into
their bound, the machine gives as well.
-/

namespace JinjaLayout.Grammar

/-- The productions that go one level deeper. -/
inductive Level : Type → Type where
  | condition : Level Expr
  | disjunction : Level Expr
  | negation : Level Expr
  | signed : Level Expr
  | statement : Level Stmt

/-- The production of a level. -/
def Level.production {α : Type} (inner : Inner) : Level α → Production α
  | .condition => Grammar.condition inner
  | .disjunction => Grammar.disjunction inner
  | .negation => Grammar.negation inner
  | .signed => Grammar.signed inner
  | .statement => Grammar.statement inner

/-- What is called for a level. -/
def Inner.call {α : Type} (inner : Inner) : Level α → Production α
  | .condition => inner.condition
  | .disjunction => inner.disjunction
  | .negation => inner.negation
  | .signed => inner.signed
  | .statement => inner.statement

/-- The steps of a production. -/
inductive Script : Type → Type 1 where
  | give {α : Type} (value : α) : Script α
  | fail {α : Type} (error : SyntaxError) : Script α
  /-- The current lexeme and the one after it decide how to go on. -/
  | look {α : Type} (rest : Lexeme → Lexeme → Script α) : Script α
  | move {α : Type} (rest : Script α) : Script α
  | enter {α β : Type} (level : Level α) (rest : α → Script β) : Script β
  /-- Takes turns until one of them gives a result. -/
  | cycle {α β γ : Type} (turn : α → Script (α ⊕ β)) (start : α) (rest : β → Script γ) : Script γ

namespace Script

/-- The script as a production. -/
def run {α : Type} (inner : Inner) : Script α → Production α
  | .give value => pure value
  | .fail error => throw error
  | .look rest => do
      let stream ← get
      (rest stream.head stream.following).run inner
  | .move rest => do
      let _ ← next
      rest.run inner
  | .enter level rest => do (rest (← inner.call level)).run inner
  | .cycle turn start rest => do
      (rest (← repeating (fun state => (turn state).run inner) start)).run inner

/-- One script after the other. -/
def bind {α β : Type} (script : Script α) (after : α → Script β) : Script β :=
  match script with
  | .give value => after value
  | .fail error => .fail error
  | .look rest => .look fun head following => (rest head following).bind after
  | .move rest => .move (rest.bind after)
  | .enter level rest => .enter level fun value => (rest value).bind after
  | .cycle turn start rest => .cycle turn start fun value => (rest value).bind after

theorem run_bind {α β : Type} (inner : Inner) (script : Script α) (after : α → Script β) :
    (script.bind after).run inner = script.run inner >>= fun value => (after value).run inner := by
  induction script with
  | give value => rfl
  | fail error => rfl
  | look rest ih => exact funext fun stream => congrFun (ih stream.head stream.following after) stream
  | move rest ih => simp only [bind, run, ih, bind_assoc]
  | enter level rest ih => simp only [bind, run, ih, bind_assoc]
  | cycle turn start rest _ ih => simp only [bind, run, ih, bind_assoc]

end Script

/-! ### The machine -/

/-- The position of the cursor and the number of levels that are open. -/
structure Spot where
  position : Nat
  depth : Nat

/-- The place one level deeper. -/
def Spot.deeper (place : Spot) : Spot :=
  { place with depth := place.depth + 1 }

/-- The place when the level is left. -/
def Spot.left (place : Spot) : Spot :=
  { place with depth := place.depth - 1 }

/-- The place behind the lexeme. The end of the template is never passed. -/
def Spot.behind (place : Spot) (lexeme : Lexeme) : Spot :=
  if lexeme.kind = .eof then place else { place with position := place.position + 1 }

/-- The machine runs a script on the lexemes: the places it comes through, its result and the place
where it stops. It gets stuck where it would read outside of the lexemes, and it refuses to go deeper
than the limit. -/
inductive Exec (lexemes : List Lexeme) (scripts : ∀ α : Type, Level α → Script α) :
    {α : Type} → Script α → Spot → List Spot → Except SyntaxError α → Spot → Prop where
  | give {α} (value : α) (place) : Exec lexemes scripts (.give value) place [place] (.ok value) place
  | fail {α} (error place) :
      Exec lexemes scripts (.fail error : Script α) place [place] (.error error) place
  | look {α} {rest : _ → _ → Script α} {place stop trace result head following}
      (hhead : lexemes[place.position]? = some head)
      (hfollowing : lexemes[min (place.position + 1) (lexemes.length - 1)]? = some following)
      (h : Exec lexemes scripts (rest head following) place trace result stop) :
      Exec lexemes scripts (.look rest) place (place :: trace) result stop
  | move {α} {rest : Script α} {place stop trace result head}
      (hhead : lexemes[place.position]? = some head)
      (h : Exec lexemes scripts rest (place.behind head) trace result stop) :
      Exec lexemes scripts (.move rest) place (place :: trace) result stop
  | refuse {α β} {level : Level α} {rest : α → Script β} {place head}
      (hdepth : nestingLimit ≤ place.depth) (hhead : lexemes[place.position]? = some head) :
      Exec lexemes scripts (.enter level rest) place [place]
        (.error ⟨head.line, .nestingExceeded⟩) place
  | enterFail {α β} {level : Level α} {rest : α → Script β} {place stop trace error}
      (hdepth : place.depth < nestingLimit)
      (h : Exec lexemes scripts (scripts α level) place.deeper trace (.error error) stop) :
      Exec lexemes scripts (.enter level rest) place (place :: trace) (.error error) stop.left
  | enter {α β} {level : Level α} {rest : α → Script β}
      {place middle stop trace trace' value result} (hdepth : place.depth < nestingLimit)
      (h : Exec lexemes scripts (scripts α level) place.deeper trace (.ok value) middle)
      (hrest : Exec lexemes scripts (rest value) middle.left trace' result stop) :
      Exec lexemes scripts (.enter level rest) place (place :: trace ++ trace') result stop
  | turnFail {α β γ} {turn : α → Script (α ⊕ β)} {rest : β → Script γ} {start place stop trace error}
      (h : Exec lexemes scripts (turn start) place trace (.error error) stop) :
      Exec lexemes scripts (.cycle turn start rest) place trace (.error error) stop
  | turn {α β γ} {turn : α → Script (α ⊕ β)} {rest : β → Script γ}
      {start state place middle stop trace trace' result}
      (h : Exec lexemes scripts (turn start) place trace (.ok (.inl state)) middle)
      (hrest : Exec lexemes scripts (.cycle turn state rest) middle trace' result stop) :
      Exec lexemes scripts (.cycle turn start rest) place (trace ++ trace') result stop
  | turnLast {α β γ} {turn : α → Script (α ⊕ β)} {rest : β → Script γ}
      {start value place middle stop trace trace' result}
      (h : Exec lexemes scripts (turn start) place trace (.ok (.inr value)) middle)
      (hrest : Exec lexemes scripts (rest value) middle trace' result stop) :
      Exec lexemes scripts (.cycle turn start rest) place (trace ++ trace') result stop

variable {lexemes : List Lexeme} {scripts : ∀ α : Type, Level α → Script α} {α : Type}
  {script : Script α} {place stop : Spot} {trace : List Spot} {result : Except SyntaxError α}

theorem Spot.position_le_behind (place : Spot) (lexeme : Lexeme) :
    place.position ≤ (place.behind lexeme).position := by
  unfold behind
  split <;> simp

theorem Spot.depth_behind (place : Spot) (lexeme : Lexeme) :
    (place.behind lexeme).depth = place.depth := by
  unfold behind
  split <;> rfl

/-- A run leaves all the levels that it entered, and the cursor does not go back. -/
theorem Exec.returns (h : Exec lexemes scripts script place trace result stop) :
    stop.depth = place.depth ∧ place.position ≤ stop.position := by
  induction h with
  | give | fail | refuse => exact ⟨rfl, le_rfl⟩
  | look _ _ _ ih => exact ih
  | @move _ _ place _ _ _ head _ _ ih =>
      exact ⟨ih.1.trans (place.depth_behind head), (place.position_le_behind head).trans ih.2⟩
  | enterFail _ _ ih => exact ⟨by simp [Spot.left, ih.1, Spot.deeper], ih.2⟩
  | enter _ _ _ ih ihrest =>
      exact ⟨by simp [ihrest.1, Spot.left, ih.1, Spot.deeper], ih.2.trans ihrest.2⟩
  | turnFail _ ih => exact ih
  | turn _ _ ih ihrest | turnLast _ _ ih ihrest =>
      exact ⟨ihrest.1.trans ih.1, ih.2.trans ihrest.2⟩

/-- The place is in the lexemes, and not deeper than the limit. -/
def Spot.IsWithin (lexemes : List Lexeme) (place : Spot) : Prop :=
  place.position < lexemes.length ∧ place.depth ≤ nestingLimit

theorem Spot.IsWithin.behind {head : Lexeme} (h : place.IsWithin lexemes)
    (hlast : ∀ last ∈ lexemes.getLast?, last.kind = .eof)
    (hhead : lexemes[place.position]? = some head) : (place.behind head).IsWithin lexemes := by
  unfold Spot.behind
  split
  · exact h
  · rename_i hkind
    refine ⟨?_, h.2⟩
    have hne : place.position ≠ lexemes.length - 1 := by
      intro heq
      rw [heq, ← List.getLast?_eq_getElem?] at hhead
      exact hkind (hlast head hhead)
    have := h.1
    dsimp only
    omega

/-- All places of a run are in the lexemes, and not deeper than the limit. -/
theorem Exec.isWithin (h : Exec lexemes scripts script place trace result stop)
    (hlast : ∀ last ∈ lexemes.getLast?, last.kind = .eof) (hplace : place.IsWithin lexemes) :
    stop.IsWithin lexemes ∧ ∀ visited ∈ trace, visited.IsWithin lexemes := by
  induction h with
  | give | fail | refuse => simpa using hplace
  | look _ _ _ ih => simpa [hplace] using ih hplace
  | move hhead _ ih => simpa [hplace] using ih (hplace.behind hlast hhead)
  | enterFail hdepth h ih =>
      obtain ⟨hstop, htrace⟩ := ih ⟨hplace.1, hdepth⟩
      exact ⟨⟨hstop.1, (Nat.sub_le _ _).trans hstop.2⟩, by simpa [hplace] using htrace⟩
  | enter hdepth h _ ih ihrest =>
      obtain ⟨hmiddle, htrace⟩ := ih ⟨hplace.1, hdepth⟩
      obtain ⟨hstop, htrace'⟩ := ihrest ⟨hmiddle.1, (Nat.sub_le _ _).trans hmiddle.2⟩
      refine ⟨hstop, ?_⟩
      simpa [hplace, or_imp, forall_and] using ⟨htrace, htrace'⟩
  | turnFail _ ih => exact ih hplace
  | turn _ _ ih ihrest | turnLast _ _ ih ihrest =>
      obtain ⟨hmiddle, htrace⟩ := ih hplace
      obtain ⟨hstop, htrace'⟩ := ihrest hmiddle
      refine ⟨hstop, ?_⟩
      simpa [or_imp, forall_and] using ⟨htrace, htrace'⟩

/-- A script has one run from a place. -/
theorem Exec.unique {trace' : List Spot} {result' : Except SyntaxError α} {stop' : Spot}
    (h : Exec lexemes scripts script place trace result stop)
    (h' : Exec lexemes scripts script place trace' result' stop') :
    trace = trace' ∧ result = result' ∧ stop = stop' := by
  induction h generalizing trace' stop' with
  | give | fail =>
      cases h'
      exact ⟨rfl, rfl, rfl⟩
  | look hhead hfollowing _ ih =>
      cases h' with
      | look hhead' hfollowing' h' =>
          obtain rfl := Option.some.inj (hhead.symm.trans hhead')
          obtain rfl := Option.some.inj (hfollowing.symm.trans hfollowing')
          obtain ⟨rfl, rfl, rfl⟩ := ih h'
          exact ⟨rfl, rfl, rfl⟩
  | move hhead _ ih =>
      cases h' with
      | move hhead' h' =>
          obtain rfl := Option.some.inj (hhead.symm.trans hhead')
          obtain ⟨rfl, rfl, rfl⟩ := ih h'
          exact ⟨rfl, rfl, rfl⟩
  | refuse hdepth hhead =>
      cases h' with
      | refuse _ hhead' =>
          obtain rfl := Option.some.inj (hhead.symm.trans hhead')
          exact ⟨rfl, rfl, rfl⟩
      | enterFail hdepth' | enter hdepth' => omega
  | enterFail hdepth _ ih =>
      cases h' with
      | refuse hdepth' => omega
      | enterFail _ h' =>
          obtain ⟨rfl, hresult, rfl⟩ := ih h'
          cases hresult
          exact ⟨rfl, rfl, rfl⟩
      | enter _ h' => cases (ih h').2.1
  | enter hdepth _ _ ih ihrest =>
      cases h' with
      | refuse hdepth' => omega
      | enterFail _ h' => cases (ih h').2.1
      | enter _ h' hrest =>
          obtain ⟨rfl, hvalue, rfl⟩ := ih h'
          cases hvalue
          obtain ⟨rfl, rfl, rfl⟩ := ihrest hrest
          exact ⟨rfl, rfl, rfl⟩
  | turnFail _ ih =>
      cases h' with
      | turnFail h' =>
          obtain ⟨rfl, hresult, rfl⟩ := ih h'
          cases hresult
          exact ⟨rfl, rfl, rfl⟩
      | turn h' | turnLast h' => cases (ih h').2.1
  | turn _ _ ih ihrest =>
      cases h' with
      | turnFail h' | turnLast h' => cases (ih h').2.1
      | turn h' hrest =>
          obtain ⟨rfl, hvalue, rfl⟩ := ih h'
          cases hvalue
          obtain ⟨rfl, rfl, rfl⟩ := ihrest hrest
          exact ⟨rfl, rfl, rfl⟩
  | turnLast _ _ ih ihrest =>
      cases h' with
      | turnFail h' | turn h' => cases (ih h').2.1
      | turnLast h' hrest =>
          obtain ⟨rfl, hvalue, rfl⟩ := ih h'
          cases hvalue
          obtain ⟨rfl, rfl, rfl⟩ := ihrest hrest
          exact ⟨rfl, rfl, rfl⟩

/-! ### Streams and places -/

/-- The stream holds what the lexemes have from the place on. -/
def Spot.Stands (lexemes : List Lexeme) (place : Spot) (stream : Stream) : Prop :=
  stream.lexemes = lexemes.drop place.position

namespace Spot.Stands

variable {stream : Stream}

theorem head (h : place.Stands lexemes stream) :
    lexemes[place.position]? = some stream.head := by
  rw [← List.head?_drop, ← h]
  rfl

theorem length_eq (h : place.Stands lexemes stream) :
    lexemes.length = place.position + stream.tail.length + 1 := by
  have hlength := congrArg List.length h
  rw [Stream.lexemes, List.length_cons, List.length_drop] at hlength
  omega

theorem tail (h : place.Stands lexemes stream) :
    stream.tail = lexemes.drop (place.position + 1) := by
  rw [← List.tail_drop, ← h]
  rfl

theorem following (h : place.Stands lexemes stream) :
    lexemes[min (place.position + 1) (lexemes.length - 1)]? = some stream.following := by
  have htail := h.tail
  have hlength := h.length_eq
  unfold Stream.following
  cases hcases : stream.tail with
  | nil =>
      rw [hcases, List.length_nil] at hlength
      rw [min_eq_right (by omega), hlength, Nat.add_zero, Nat.add_sub_cancel, h.head]
      rfl
  | cons next more =>
      rw [hcases, List.length_cons] at hlength
      rw [min_eq_left (by omega), ← List.head?_drop, ← htail, hcases]
      rfl

theorem advance (hlast : ∀ last ∈ lexemes.getLast?, last.kind = .eof)
    (h : place.Stands lexemes stream) :
    (place.behind stream.head).Stands lexemes stream.advance := by
  unfold Spot.behind Stream.advance
  split
  · exact h
  · rename_i hkind
    have hlength := h.length_eq
    split
    · rename_i htail
      rw [htail, List.length_nil] at hlength
      refine absurd (hlast stream.head ?_) hkind
      rw [List.getLast?_eq_getElem?, hlength, Nat.add_zero, Nat.add_sub_cancel]
      exact h.head
    · rename_i head tail htail
      rw [Spot.Stands, ← h.tail, htail]
      rfl

end Spot.Stands

/-- The machine gives the outcome as well, unless it is that of a loop that ran into its bound. -/
def Follows (lexemes : List Lexeme) (scripts : ∀ α : Type, Level α → Script α) {α : Type}
    (script : Script α) (place : Spot) : Except SyntaxError (α × Stream) → Prop
  | .error error => error.fault ≠ .stalled →
      ∃ trace stop, Exec lexemes scripts script place trace (.error error) stop
  | .ok (value, rest) =>
      ∃ trace stop, Exec lexemes scripts script place trace (.ok value) stop ∧ stop.Stands lexemes rest

/-- What comes before a script. -/
theorem Follows.of_exec {script' : Script α} {place' : Spot}
    {outcome : Except SyntaxError (α × Stream)} (h : Follows lexemes scripts script' place' outcome)
    (hexec : ∀ {trace result stop}, Exec lexemes scripts script' place' trace result stop →
      ∃ trace', Exec lexemes scripts script place trace' result stop) :
    Follows lexemes scripts script place outcome := by
  cases outcome with
  | error error =>
      intro hfault
      obtain ⟨trace, stop, h⟩ := h hfault
      obtain ⟨trace, h⟩ := hexec h
      exact ⟨trace, stop, h⟩
  | ok step =>
      obtain ⟨trace, stop, h, hstands⟩ := h
      obtain ⟨trace, h⟩ := hexec h
      exact ⟨trace, stop, h, hstands⟩

/-- A loop, whatever its bound is. -/
theorem follows_iterate {α β γ : Type} {inner : Inner} {turn : α → Script (α ⊕ β)}
    {rest : β → Script γ} {depth : Nat}
    (hturn : ∀ state place stream, place.depth = depth → place.Stands lexemes stream →
      Follows lexemes scripts (turn state) place ((turn state).run inner stream))
    (hrest : ∀ value place stream, place.depth = depth → place.Stands lexemes stream →
      Follows lexemes scripts (rest value) place ((rest value).run inner stream))
    (bound : List Lexeme) (start : α) (place : Spot) (stream : Stream) (hdepth : place.depth = depth)
    (hstands : place.Stands lexemes stream) :
    Follows lexemes scripts (.cycle turn start rest) place
      ((iterate (fun state => (turn state).run inner) bound start >>= fun value =>
        (rest value).run inner) stream) := by
  induction bound generalizing start place stream with
  | nil => exact fun hfault => absurd rfl hfault
  | cons _ bound ih =>
      rw [iterate, bind_assoc]
      change Follows _ _ _ _ ((turn start).run inner stream >>= _)
      have hfirst := hturn start place stream hdepth hstands
      cases hstep : (turn start).run inner stream with
      | error error =>
          rw [hstep] at hfirst
          intro hfault
          obtain ⟨trace, stop, h⟩ := hfirst hfault
          exact ⟨trace, stop, .turnFail h⟩
      | ok step =>
          rw [hstep] at hfirst
          obtain ⟨trace, middle, h, hmiddle⟩ := hfirst
          have hmiddleDepth := h.returns.1.trans hdepth
          obtain ⟨value | value, more⟩ := step
          · exact (ih value middle more hmiddleDepth hmiddle).of_exec fun h' => ⟨_, .turn h h'⟩
          · exact (hrest value middle more hmiddleDepth hmiddle).of_exec fun h' =>
              ⟨_, .turnLast h h'⟩

/-- The machine follows every script if it follows the calls of deeper levels. -/
theorem follows_of_enter (hlast : ∀ last ∈ lexemes.getLast?, last.kind = .eof) {inner : Inner}
    {depth : Nat}
    (henter : ∀ {α β : Type} (level : Level α) (rest : α → Script β),
      (∀ value place stream, place.depth = depth → place.Stands lexemes stream →
        Follows lexemes scripts (rest value) place ((rest value).run inner stream)) →
      ∀ place stream, place.depth = depth → place.Stands lexemes stream →
        Follows lexemes scripts (.enter level rest) place ((Script.enter level rest).run inner stream))
    {α : Type} (script : Script α) (place : Spot) (stream : Stream) (hdepth : place.depth = depth)
    (hstands : place.Stands lexemes stream) :
    Follows lexemes scripts script place (script.run inner stream) := by
  induction script generalizing place stream with
  | give value => exact ⟨_, place, .give value place, hstands⟩
  | fail error => exact fun _ => ⟨_, place, .fail error place⟩
  | look rest ih =>
      exact (ih _ _ place stream hdepth hstands).of_exec fun h =>
        ⟨_, .look hstands.head hstands.following h⟩
  | move rest ih =>
      exact (ih _ _ ((place.depth_behind _).trans hdepth) (hstands.advance hlast)).of_exec fun h =>
        ⟨_, .move hstands.head h⟩
  | enter level rest ih => exact henter level rest ih place stream hdepth hstands
  | cycle turn start rest ihturn ihrest =>
      exact follows_iterate ihturn ihrest stream.lexemes start place stream hdepth hstands

/-- The machine follows every script. The levels that are left to the productions are those that its
counter has not reached. -/
theorem follows_run (hlast : ∀ last ∈ lexemes.getLast?, last.kind = .eof)
    (hscripts : ∀ (α : Type) (level : Level α) (inner : Inner),
      (scripts α level).run inner = level.production inner)
    {levels : Nat} (hlevels : levels ≤ nestingLimit) {α : Type} (script : Script α) (place : Spot)
    (stream : Stream) (hdepth : place.depth = nestingLimit - levels)
    (hstands : place.Stands lexemes stream) :
    Follows lexemes scripts script place (script.run (nested levels) stream) := by
  induction levels generalizing α script place stream with
  | zero =>
      refine follows_of_enter hlast ?_ script place stream hdepth hstands
      intro _ _ level rest _ place stream hdepth hstands
      cases level <;> exact fun _ => ⟨_, place, .refuse hdepth.ge hstands.head⟩
  | succ levels ihlevels =>
      refine follows_of_enter hlast ?_ script place stream hdepth hstands
      intro _ _ level rest ih place stream hdepth hstands
      have hroom : place.depth < nestingLimit := by omega
      have hcall : (nested (levels + 1)).call level = (scripts _ level).run (nested levels) := by
        rw [hscripts]
        cases level <;> rfl
      have hfirst := ihlevels (by omega) (scripts _ level) place.deeper stream
        (by simp only [Spot.deeper]; omega) hstands
      rw [Script.run, hcall]
      change Follows _ _ _ _ ((scripts _ level).run (nested levels) stream >>= _)
      cases hstep : (scripts _ level).run (nested levels) stream with
      | error error =>
          rw [hstep] at hfirst
          intro hfault
          obtain ⟨trace, stop, h⟩ := hfirst hfault
          exact ⟨_, _, .enterFail hroom h⟩
      | ok step =>
          rw [hstep] at hfirst
          obtain ⟨trace, middle, h, hmiddle⟩ := hfirst
          have hleft : middle.left.depth = nestingLimit - (levels + 1) := by
            rw [← hdepth, Spot.left, h.returns.1]
            rfl
          exact (ih step.1 middle.left step.2 hleft hmiddle).of_exec fun h' =>
            ⟨_, .enter hroom h h'⟩

end JinjaLayout.Grammar
