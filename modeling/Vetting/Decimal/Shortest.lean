import Vetting.Width

/-!
Contract: the fewest decimal digits that still denote a given binary
floating-point number.

Owns:
- the parts of a finite double, `significand * 2 ^ exponent`;
- the interval of reals that round to it;
- the search for the first decimal grid with a point in that interval.

Does not own: how digits are laid out as text.

The search is exact: both the number and the grid points are fractions of
natural numbers.  For one to seventeen digits it looks at the two grid points
around the number.  If any grid point lies in the interval, one of these two
does, so the first grid with a hit has the fewest digits; of two hits the nearer
one is taken, and the caller says which one when both are equally near.
-/

namespace Vetting.Decimal

/-- A positive fraction. -/
structure Ratio where
  numerator : Nat
  denominator : Nat

namespace Ratio

/-- The power `base ^ exponent` times a natural number, for an exponent of either sign. -/
def scaled (factor base : Nat) (exponent : Int) : Ratio :=
  if 0 ≤ exponent then ⟨factor * Nat.pow base exponent.toNat, 1⟩
  else ⟨factor, Nat.pow base (-exponent).toNat⟩

def lt (first second : Ratio) : Bool :=
  first.numerator * second.denominator < second.numerator * first.denominator

def le (first second : Ratio) : Bool :=
  first.numerator * second.denominator ≤ second.numerator * first.denominator

/-- The quotient of two fractions. -/
def divide (first second : Ratio) : Ratio :=
  ⟨first.numerator * second.denominator, first.denominator * second.numerator⟩

/-- The largest natural number not above the fraction. -/
def floor (ratio : Ratio) : Nat := ratio.numerator / ratio.denominator

end Ratio

/-- The magnitude of a finite nonzero double: `significand * 2 ^ exponent`. -/
structure Magnitude where
  significand : Nat
  exponent : Int
  /-- The gap below is half the gap above. -/
  narrowBelow : Bool

namespace Magnitude

/-- The magnitude of a finite double with the given bits, the sign bit ignored. -/
def ofBits (bits : Nat) : Magnitude :=
  let fraction : Nat := bits % Width.count 52
  let biased : Nat := bits / Width.count 52 % Width.count 11
  if biased = 0 then ⟨fraction, -1074, false⟩
  else ⟨fraction + Width.count 52, (biased : Int) - 1075, fraction == 0 && biased > 1⟩

def value (magnitude : Magnitude) : Ratio :=
  Ratio.scaled magnitude.significand 2 magnitude.exponent

/-- The least real that may round to the number. -/
def low (magnitude : Magnitude) : Ratio :=
  Ratio.scaled (4 * magnitude.significand - if magnitude.narrowBelow then 1 else 2) 2
    (magnitude.exponent - 2)

/-- The greatest real that may round to the number. -/
def high (magnitude : Magnitude) : Ratio :=
  Ratio.scaled (4 * magnitude.significand + 2) 2 (magnitude.exponent - 2)

/-- Whether a real rounds to the number; the ends do exactly if the significand is even. -/
def holds (magnitude : Magnitude) (point : Ratio) : Bool :=
  if magnitude.significand % 2 = 0 then
    magnitude.low.le point && point.le magnitude.high
  else magnitude.low.lt point && point.lt magnitude.high

end Magnitude

/-- How many decimal digits a natural number has, at least one. -/
def digitCount (number : Nat) : Nat := (Nat.toDigits 10 number).length

/-- The exponent `e` with `10 ^ e ≤ ratio < 10 ^ (e + 1)`. -/
def Ratio.decimalExponent (ratio : Ratio) : Int :=
  if ratio.denominator ≤ ratio.numerator then (digitCount ratio.floor : Int) - 1
  else
    let guess : Int := -(digitCount (ratio.denominator / ratio.numerator) : Int)
    if (Ratio.scaled 1 10 (guess + 1)).le ratio then guess + 1 else guess

/-- The product `digits * 10 ^ exponent`. -/
structure Digits where
  digits : Nat
  exponent : Int
deriving DecidableEq, Inhabited

namespace Digits

/-- Moves zeros from the end of the digits into the exponent. -/
def trimmed : Nat → Digits → Digits
  | 0, decimal => decimal
  | steps + 1, decimal =>
    if decimal.digits % 10 = 0 ∧ decimal.digits ≠ 0 then
      trimmed steps ⟨decimal.digits / 10, decimal.exponent + 1⟩
    else decimal

end Digits

/-- Which of two equally near neighbours is taken. -/
inductive Tie where
  | toEven
  | away
deriving DecidableEq

/-- The nearer of the grid points `point` and `point + 1` that round to the number. -/
def nearestHit? (magnitude : Magnitude) (tie : Tie) (point : Nat) (exponent : Int) : Option Nat :=
  let below := magnitude.holds (Ratio.scaled point 10 exponent) && point ≠ 0
  let above := magnitude.holds (Ratio.scaled (point + 1) 10 exponent)
  let middle := Ratio.scaled (2 * point + 1) 10 exponent
  let twice := Ratio.scaled (2 * magnitude.significand) 2 magnitude.exponent
  if below && above then
    if twice.lt middle then some point
    else if middle.lt twice then some (point + 1)
    else match tie with
      | .toEven => some (if point % 2 = 0 then point else point + 1)
      | .away => some (point + 1)
  else if below then some point
  else if above then some (point + 1)
  else none

/-- Tries grids of `17 - left` and more digits. -/
def shortestFrom (magnitude : Magnitude) (tie : Tie) (scientific : Int) : Nat → Digits
  | 0 =>
    let exponent := scientific - 16
    ⟨(magnitude.value.divide (Ratio.scaled 1 10 exponent)).floor, exponent⟩
  | left + 1 =>
    let exponent := scientific - ((16 - left : Nat) : Int)
    let point := (magnitude.value.divide (Ratio.scaled 1 10 exponent)).floor
    match nearestHit? magnitude tie point exponent with
    | some digits => Digits.trimmed 20 ⟨digits, exponent⟩
    | none => shortestFrom magnitude tie scientific left

/-- The fewest digits that round to the number. -/
def shortest (magnitude : Magnitude) (tie : Tie) : Digits :=
  shortestFrom magnitude tie magnitude.value.decimalExponent 17

end Vetting.Decimal
