import JinjaLayout.Number.Double

namespace JinjaLayout

/-- Data: what a template is rendered with, and what reports are made of. The entries of a
dictionary keep their order. -/
inductive Value where
  | none
  | bool (value : Bool)
  | int (value : Int)
  | float (value : Double)
  | str (value : Text)
  | list (items : List Value)
  | dict (entries : List (Text × Value))

instance : Inhabited Value := ⟨.none⟩

namespace Value

/-- A natural number. -/
def nat (value : Nat) : Value :=
  int value

def text? : Value → Option Text
  | str value => some value
  | _ => Option.none

/-- The integer that a value stands for: a number without a fraction, or a Boolean. -/
def integer? : Value → Option Int
  | bool value => some (if value then 1 else 0)
  | int value => some value
  | float value => value.integer?
  | _ => Option.none

def entry? (key : Text) : Value → Option Value
  | dict entries => entries.lookup key
  | _ => Option.none

end Value

end JinjaLayout
