import JinjaLayout.Text.Quoted
import JinjaLayout.Value.Basic

namespace JinjaLayout.Value

/-- The digits of a float, always with a point. -/
def floatText (value : Double) : Text :=
  let sign : Text := if value.isNegative then ['-'] else []
  if value.isNaN then "NaN"
  else if value.isInfinite then sign ++ "inf".toList
  else if value.magnitude = 0 then sign ++ "0.0".toList
  else
    let ((digits, exponent), _) := Double.shortest value.magnitude
    sign ++ Double.positional (Nat.toDigits 10 digits) exponent

mutual

/-- How a value is written inside a list or a dictionary. -/
def written : Value → Text
  | none => "None"
  | bool true => "True"
  | bool false => "False"
  | int value => (toString value).toList
  | float value => floatText value
  | str value => Text.quoted value
  | list items => '[' :: (Text.joined ", " (writtenItems items) ++ [']'])
  | dict entries => '{' :: (Text.joined ", " (writtenEntries entries) ++ ['}'])

def writtenItems : List Value → List Text
  | [] => []
  | item :: items => item.written :: writtenItems items

def writtenEntries : List (Text × Value) → List Text
  | [] => []
  | (key, value) :: entries =>
      (Text.quoted key ++ ':' :: ' ' :: value.written) :: writtenEntries entries

end

def printed : Value → Text
  | str value => value
  | value => value.written

def isTruthy : Value → Bool
  | none => false
  | bool value => value
  | int value => value != 0
  | float value => value.magnitude != 0
  | str value => !value.isEmpty
  | list items => !items.isEmpty
  | dict entries => !entries.isEmpty

mutual

/-- Whether two values are the same. Numbers and Booleans are compared as numbers. -/
def isSame : Value → Value → Bool
  | none, none => true
  | float a, float b => a.isSame b
  | str a, str b => a == b
  | list a, list b => areSame a b
  | dict a, dict b => haveSameEntries a b
  | a, b => a.integer?.any fun value => b.integer? == some value

def areSame : List Value → List Value → Bool
  | [], [] => true
  | a :: as, b :: bs => a.isSame b && areSame as bs
  | _, _ => false

def haveSameEntries : List (Text × Value) → List (Text × Value) → Bool
  | [], [] => true
  | (key, a) :: as, (other, b) :: bs => key == other && a.isSame b && haveSameEntries as bs
  | _, _ => false

end

end JinjaLayout.Value
