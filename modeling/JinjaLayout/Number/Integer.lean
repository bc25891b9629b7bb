import JinjaLayout.Text.StringLiteral

namespace JinjaLayout.Number

open JinjaLayout.Text

def signed? (base : Nat) : Text → Option Int
  | '-' :: rest => (digits? base rest).map fun value => -(value : Int)
  | '+' :: rest => (digits? base rest).map Int.ofNat
  | text => (digits? base text).map Int.ofNat

def integerBound : Nat := Nat.pow 2 127

def InRange (value : Int) : Prop :=
  -(integerBound : Int) ≤ value ∧ value < integerBound

instance (value : Int) : Decidable (InRange value) :=
  inferInstanceAs (Decidable (_ ∧ _))

/-- The digits of a literal without the mark of its base, and the base. -/
def basedDigits : Text → Text × Nat
  | '0' :: 'b' :: digits => (digits, 2)
  | '0' :: 'o' :: digits => (digits, 8)
  | '0' :: 'x' :: digits => (digits, 16)
  | digits => (digits, 10)

/-- The value of an integer literal without underscores, when it has 128 bits. -/
def integer? (literal : Text) : Option Int :=
  let (digits, base) := basedDigits (literal.map Char.toLower)
  (signed? base digits).filter fun value => decide (InRange value)

end JinjaLayout.Number
