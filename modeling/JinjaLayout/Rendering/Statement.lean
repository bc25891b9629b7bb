import JinjaLayout.Rendering.Expression

/-!
The text of statements. A statement hands on whether the next one follows, or whether it ends a
round of the loop around it or the whole loop. The else of a loop stands outside of it. Without a
loop around it, a statement that ends a round does nothing and one that ends a loop ends the text.
-/

namespace JinjaLayout.Rendering

inductive Flow where
  | next
  | skip
  | leave
deriving DecidableEq

structure Rendered where
  text : Text := []
  flow : Flow := .next

def Rendered.after (text : Text) (rendered : Rendered) : Rendered :=
  { rendered with text := text ++ rendered.text }

def kindWord : Value → String
  | .none => "none"
  | .bool _ => "bool"
  | .int _ | .float _ => "number"
  | .str _ => "string"
  | .list _ => "sequence"
  | .dict _ => "map"

def loopItems (line : Nat) : Option Value → Evaluation (List Value)
  | none | some .none => return []
  | some (.list items) => return items
  | some (.dict entries) => return entries.map fun entry => .str entry.1
  | some (.str text) => return text.map fun c => .str [c]
  | some value => stopWith line .invalidOperation (kindWord value ++ " is not iterable")

/-- What a template can ask about the round of a loop. -/
def loopState (index length : Nat) : Value :=
  .dict
    [("index".toList, .nat (index + 1)), ("index0".toList, .nat index),
      ("revindex".toList, .nat (length - index)), ("revindex0".toList, .nat (length - index - 1)),
      ("first".toList, .bool (index == 0)), ("last".toList, .bool (index + 1 == length)),
      ("length".toList, .nat length)]

structure Rounds where
  text : Text := []
  passedFirst : Bool := false

def loopRounds (round : Value → Value → Evaluation Rendered) (length : Nat) :
    Nat → List Value → Evaluation Rounds
  | index, [] => return { passedFirst := index != 0 }
  | index, item :: items => do
      let rendered ← round item (loopState index length)
      if rendered.flow = .leave then
        return { text := rendered.text, passedFirst := index != 0 }
      else
        let others ← loopRounds round length (index + 1) items
        return { others with text := rendered.text ++ others.text }

mutual

/-- The text of a statement. The else of a loop is rendered if the loop has no items, and also if it
is left in its first round. The flag tells whether there is a loop around the statement. -/
def statement (inLoop : Bool) (bindings : Bindings) : Stmt → Evaluation Rendered
  | .output nodes _ => do
      return { text := (← evaluateAll bindings nodes).flatMap printed }
  | .branch first => do return (← branch inLoop bindings first).getD {}
  | .loop (.name target _ _) iterable body orElse test _ _ => do
      let items ← loopItems (lastLine iterable) (← evaluate bindings iterable)
      let items ← items.filterM fun item =>
        match test with
        | some test => do return isTruthy (← evaluate ((target, item) :: bindings) test)
        | none => return true
      let round (item state : Value) : Evaluation Rendered :=
        statements true ((target, item) :: ("loop".toList, state) :: bindings) body
      let rounds ← loopRounds round items.length 0 items
      if rounds.passedFirst then return { text := rounds.text }
      else return (← statements inLoop bindings orElse).after rounds.text
  | .skip _ => return { flow := if inLoop then .skip else .next }
  | .leave _ => return { flow := .leave }
  | stmt => unrenderable stmt.layout.line

/-- The text of statements, up to the first one that ends a round. -/
def statements (inLoop : Bool) (bindings : Bindings) : List Stmt → Evaluation Rendered
  | [] => return {}
  | stmt :: stmts => do
      let first ← statement inLoop bindings stmt
      if first.flow = .next then return (← statements inLoop bindings stmts).after first.text
      else return first

def branch (inLoop : Bool) (bindings : Bindings) : Branch → Evaluation (Option Rendered)
  | .mk test body others orElse _ => do
      if isTruthy (← evaluate bindings test) then return some (← statements inLoop bindings body)
      else
        match ← firstBranch inLoop bindings others with
        | some rendered => return some rendered
        | none =>
            if orElse.isEmpty then return none
            else return some (← statements inLoop bindings orElse)

/-- The text of the first of the branches whose test holds. -/
def firstBranch (inLoop : Bool) (bindings : Bindings) : List Branch → Evaluation (Option Rendered)
  | [] => return none
  | first :: others => do
      match ← branch inLoop bindings first with
      | some rendered => return some rendered
      | none => firstBranch inLoop bindings others

end

end JinjaLayout.Rendering
