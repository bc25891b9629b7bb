import JinjaLayout.Text.StringLiteral

/-!
Double precision numbers, as their bits. A decimal is read as the nearest double, a tie going to the
even one; a double is written with the fewest digits that read back as the same double.
-/

namespace JinjaLayout

structure Double where
  bits : UInt64
deriving DecidableEq, Inhabited

namespace Double

def infiniteBits : Nat := 2047 * Nat.pow 2 52

def ofBits (negative : Bool) (magnitude : Nat) : Double :=
  ⟨UInt64.ofNat (magnitude + if negative then Nat.pow 2 63 else 0)⟩

def isNegative (x : Double) : Bool :=
  x.bits.toNat / Nat.pow 2 63 == 1

def magnitude (x : Double) : Nat :=
  x.bits.toNat % Nat.pow 2 63

def isNaN (x : Double) : Bool :=
  infiniteBits < x.magnitude

def isInfinite (x : Double) : Bool :=
  x.magnitude == infiniteBits

/-- The integer nearest to a quotient, the even one of two. -/
def roundQuotient (numerator denominator : Nat) : Nat :=
  let quotient := numerator / denominator
  let twice := 2 * (numerator % denominator)
  if twice < denominator then quotient
  else if denominator < twice then quotient + 1
  else quotient + quotient % 2

/-- The largest power of two that is not above a positive quotient, by its exponent. -/
def floorLog (numerator denominator : Nat) : Int :=
  let guess := (numerator.log2 : Int) - denominator.log2
  let reached :=
    if 0 ≤ guess then denominator * Nat.pow 2 guess.toNat ≤ numerator
    else denominator ≤ numerator * Nat.pow 2 (-guess).toNat
  if reached then guess else guess - 1

/-- The magnitude of the double nearest to a positive quotient. -/
def nearest (numerator denominator : Nat) : Nat :=
  let scale := max (floorLog numerator denominator - 52) (-1074)
  let significand :=
    if 0 ≤ scale then roundQuotient numerator (denominator * Nat.pow 2 scale.toNat)
    else roundQuotient (numerator * Nat.pow 2 (-scale).toNat) denominator
  min ((scale + 1074).toNat * Nat.pow 2 52 + significand) infiniteBits

/-- The magnitude of the double nearest to a natural number times a power of ten. -/
def nearestDecimal (digits : Nat) (exponent : Int) : Nat :=
  let size := ((Nat.toDigits 10 digits).length : Int) + exponent
  if digits = 0 ∨ size < -330 then 0
  else if 310 < size then infiniteBits
  else if 0 ≤ exponent then nearest (digits * Nat.pow 10 exponent.toNat) 1
  else nearest digits (Nat.pow 10 (-exponent).toNat)

def spanDigits (text : Text) : Text × Text :=
  (text.takeWhile Char.isDigit, text.dropWhile Char.isDigit)

def decimalValue (digits : Text) : Nat :=
  (Text.digitsFrom? 10 0 digits).getD 0

def exponent? : Text → Option Int
  | [] => some 0
  | mark :: rest =>
      if mark = 'e' ∨ mark = 'E' then
        match rest with
        | '-' :: digits => (plain? digits).map fun value => -(value : Int)
        | '+' :: digits => (plain? digits).map Int.ofNat
        | digits => (plain? digits).map Int.ofNat
      else none
where
  plain? (digits : Text) : Option Nat :=
    if digits.all Char.isDigit then Text.digits? 10 digits else none

/-- The magnitude of a number without a sign: digits, a point among or beside them, an exponent. -/
def finite? (text : Text) : Option Nat :=
  let (whole, rest) := spanDigits text
  let (fraction, rest) :=
    match rest with
    | '.' :: rest => spanDigits rest
    | rest => ([], rest)
  if whole = [] ∧ fraction = [] then none
  else (exponent? rest).map fun exponent =>
    nearestDecimal (decimalValue (whole ++ fraction)) (exponent - fraction.length)

/-- The magnitude of a number without a sign, infinity and not a number included. -/
def unsigned? (text : Text) : Option Nat :=
  let word := text.map Char.toLower
  if word = "inf".toList ∨ word = "infinity".toList then some infiniteBits
  else if word = "nan".toList then some (infiniteBits + Nat.pow 2 51)
  else finite? text

def read? : Text → Option Double
  | '-' :: rest => (unsigned? rest).map (ofBits true)
  | '+' :: rest => (unsigned? rest).map (ofBits false)
  | text => (unsigned? text).map (ofBits false)

/-- The significand and the binary exponent of a finite magnitude. -/
def decompose (magnitude : Nat) : Nat × Int :=
  let exponent : Nat := magnitude / Nat.pow 2 52
  let fraction : Nat := magnitude % Nat.pow 2 52
  if exponent = 0 then (fraction, -1074) else (Nat.pow 2 52 + fraction, (exponent : Int) - 1075)

def integer? (x : Double) : Option Int :=
  let (significand, exponent) := decompose x.magnitude
  let unit := Nat.pow 2 (-exponent).toNat
  let magnitude : Int := (significand * Nat.pow 2 exponent.toNat / unit : Nat)
  if x.isNaN || x.isInfinite || significand % unit != 0 then none
  else some (if x.isNegative then -magnitude else magnitude)

def isSame (x y : Double) : Bool :=
  !x.isNaN && !y.isNaN && (x == y || (x.magnitude == 0 && y.magnitude == 0))

/-- The decimals that read as one double: they lie between two ends over a common denominator, the
ends included or not. -/
structure ReadingInterval where
  low : Nat
  value : Nat
  high : Nat
  denominator : Nat
  closed : Bool

/-- The decimals that read as a positive finite magnitude. -/
def readingInterval (magnitude : Nat) : ReadingInterval :=
  let (significand, exponent) := decompose magnitude
  let below := if significand = Nat.pow 2 52 ∧ -1074 < exponent then 1 else 2
  let scale := exponent - 2
  let factor := Nat.pow 2 scale.toNat
  { low := (4 * significand - below) * factor
    value := 4 * significand * factor
    high := (4 * significand + 2) * factor
    denominator := Nat.pow 2 (-scale).toNat
    closed := significand % 2 == 0 }

def ReadingInterval.holds (interval : ReadingInterval) (digits : Nat) (exponent : Int) : Bool :=
  let point := digits * Nat.pow 10 exponent.toNat * interval.denominator
  let unit := Nat.pow 10 (-exponent).toNat
  if interval.closed then interval.low * unit ≤ point && point ≤ interval.high * unit
  else interval.low * unit < point && point < interval.high * unit

/-- The least exponent of a power of ten above a positive quotient, counted up from a guess. -/
def decimalSize (numerator denominator : Nat) : Nat → Int → Int
  | 0, guess => guess
  | bound + 1, guess =>
      let above :=
        if 0 ≤ guess then numerator < denominator * Nat.pow 10 guess.toNat
        else numerator * Nat.pow 10 (-guess).toNat < denominator
      if above then guess else decimalSize numerator denominator bound (guess + 1)

/-- The shortest decimal in the interval with at most the given number of digits to go: of the two
neighbours of the value with one number of digits, the nearer one that reads back, and the upper one
of two that are as near. -/
def shortestFrom (interval : ReadingInterval) (size : Int) : Nat → Nat → Nat × Int
  | 0, count => (0, size - count)
  | more + 1, count =>
      let exponent := size - count
      let scaled := interval.value * Nat.pow 10 (-exponent).toNat
      let unit := interval.denominator * Nat.pow 10 exponent.toNat
      let floor := scaled / unit
      let lower := interval.holds floor exponent
      let upper := interval.holds (floor + 1) exponent
      if lower && (!upper || 2 * (scaled % unit) < unit) then (floor, exponent)
      else if upper then (floor + 1, exponent)
      else shortestFrom interval size more (count + 1)

/-- The shortest decimal that reads as a positive finite magnitude, and the number of digits that
the value has before the point. Only a ten can end in a zero. -/
def shortest (magnitude : Nat) : (Nat × Int) × Int :=
  let interval := readingInterval magnitude
  let size := decimalSize interval.value interval.denominator 700 (-330)
  let (digits, exponent) := shortestFrom interval size 18 1
  (if digits % 10 = 0 then (digits / 10, exponent + 1) else (digits, exponent), size)

def positional (digits : Text) (exponent : Int) : Text :=
  let point := (digits.length : Int) + exponent
  if point ≤ 0 then '0' :: '.' :: (List.replicate (-point).toNat '0' ++ digits)
  else if exponent < 0 then
    digits.take point.toNat ++ '.' :: digits.drop point.toNat
  else digits ++ List.replicate exponent.toNat '0' ++ ['.', '0']

/-- A decimal with one digit before the point and an exponent. -/
def scientific (digits : Text) (exponent : Int) : Text :=
  let fraction := if digits.length ≤ 1 then [] else '.' :: digits.drop 1
  let power := exponent + (digits.length - 1 : Nat)
  digits.take 1 ++ fraction ++ 'e' :: (toString power).toList

/-- The text of a finite magnitude: with an exponent from 10^16 on and below 10^-4. -/
def magnitudeText (magnitude : Nat) : Text :=
  if magnitude = 0 then ['0', '.', '0']
  else
    let ((digits, exponent), size) := shortest magnitude
    let text := Nat.toDigits 10 digits
    if 16 < size ∨ size ≤ -4 then scientific text exponent else positional text exponent

def text (x : Double) : Text :=
  (if x.isNegative then ['-'] else []) ++ magnitudeText x.magnitude

end Double

end JinjaLayout
