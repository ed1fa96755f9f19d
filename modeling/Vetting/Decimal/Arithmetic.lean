import Vetting.Decimal.Shortest
import Vetting.Width

/-!
Contract: floating-point operations that core does not have.

Owns:
- the remainder of a division toward zero, which is always exact;
- roots, and the length of a hypotenuse, correctly rounded;
- the logarithm of one plus a number, and hyperbolic inverses built on it.

Does not own: operations of core.
-/

namespace Vetting.Decimal

/-- The quotient `number / 2 ^ places`, rounded to the nearest whole number, a half to the even
one. -/
private def roundedShift (number places : Nat) : Nat :=
  let unit := Nat.pow 2 places
  let (quotient, rest) := (number / unit, number % unit)
  if 2 * rest > unit || (2 * rest = unit && quotient % 2 = 1) then quotient + 1
  else quotient

/-- The product `significand * 2 ^ exponent`, rounded to the nearest float.  Carries out of the
significand go into the exponent's bits, which lie above it. -/
private def scaledFloat (significand : Nat) (exponent : Int) : Float :=
  if significand = 0 then 0.0
  else
    let lastPlace := max (significand.log2 + exponent - 52) (-1074)
    let rounded :=
      if lastPlace ≤ exponent then significand * Nat.pow 2 (exponent - lastPlace).toNat
      else roundedShift significand (lastPlace - exponent).toNat
    let bits := (lastPlace + 1074).toNat * Width.count 52 + rounded
    if bits < 2047 * Width.count 52 then Float.ofBits (UInt64.ofNat bits) else 1.0 / 0.0

private def isNegative (value : Float) : Bool := value.toBits.toNat / Width.count 63 == 1

private def magnitudeOf (value : Float) : Magnitude :=
  Magnitude.ofBits (value.toBits.toNat % Width.count 63)

/-- What is left of `first` after taking away `second` as often as possible; it has the sign of
`first`. -/
def remainder (first second : Float) : Float :=
  if first.isNaN || second.isNaN || first.isInf || second == 0.0 then 0.0 / 0.0
  else if second.isInf || first == 0.0 then first
  else
    let (above, below) := (magnitudeOf first, magnitudeOf second)
    let exponent := min above.exponent below.exponent
    let dividend := above.significand * Nat.pow 2 (above.exponent - exponent).toNat
    let divisor := below.significand * Nat.pow 2 (below.exponent - exponent).toNat
    let rest := scaledFloat (dividend % divisor) exponent
    if isNegative first then -rest else rest

/-- Finds the digits of a root from the one worth `2 ^ digits` down: `root` is the part found. -/
private def rootFrom (degree number : Nat) : Nat → Nat → Nat
  | 0, root => root
  | digits + 1, root =>
    let tried := root + Nat.pow 2 digits
    rootFrom degree number digits (if Nat.pow tried degree ≤ number then tried else root)

/-- The greatest number whose power is at most `number`. -/
private def wholeRoot (degree number : Nat) : Nat :=
  rootFrom degree number (number.log2 / degree + 1) 0

/-- The root of `number * 2 ^ (degree * exponent)`, correctly rounded. -/
private def rootAsFloat (degree number : Nat) (exponent : Int) : Float :=
  let precise := number * Nat.pow 2 (degree * 64)
  let root := wholeRoot degree precise
  let inexact := if Nat.pow root degree = precise then 0 else 1
  scaledFloat (2 * root + inexact) (exponent - 65)

/-- The square root of the sum of two squares. -/
def hypotenuse (first second : Float) : Float :=
  if first.isInf || second.isInf then 1.0 / 0.0
  else if first.isNaN || second.isNaN then 0.0 / 0.0
  else if first == 0.0 then second.abs
  else if second == 0.0 then first.abs
  else
    let (left, right) := (magnitudeOf first, magnitudeOf second)
    let exponent := min left.exponent right.exponent
    let square (magnitude : Magnitude) : Nat :=
      Nat.pow (magnitude.significand * Nat.pow 2 (magnitude.exponent - exponent).toNat) 2
    rootAsFloat 2 (square left + square right) exponent

/-- The number whose third power is the given one. -/
def cubeRoot (value : Float) : Float :=
  if value.isNaN || value.isInf || value == 0.0 then value
  else
    let magnitude := magnitudeOf value
    let thirds := Int.fdiv magnitude.exponent 3
    let places := (magnitude.exponent - 3 * thirds).toNat
    let root := rootAsFloat 3 (magnitude.significand * Nat.pow 2 places) thirds
    if isNegative value then -root else root

/-- The upper half of the bits of a number. -/
private def upperHalf (value : Float) : Nat := value.toBits.toNat / Width.count 32

/-- A number with another upper half. -/
private def withUpperHalf (upper : Nat) (value : Float) : Float :=
  Float.ofBits (UInt64.ofNat (upper * Width.count 32 + value.toBits.toNat % Width.count 32))

/-- The logarithm of `2 ^ exponent * (1 + fraction)`, corrected by what `1 + fraction` lacks.  The
series runs over the square of `fraction / (2 + fraction)`; `isTiny` says that the fraction
vanishes in the upper half of the bits. -/
private def logarithmOfParts (exponent : Int) (fraction lack : Float) (isTiny : Bool) : Float :=
  let high : Float := Float.ofBits 0x3FE62E42FEE00000 * Float.ofInt exponent
  let low : Float := Float.ofBits 0x3DEA39EF35793C76 * Float.ofInt exponent + lack
  let half := 0.5 * fraction * fraction
  if isTiny then
    if fraction == 0.0 then if exponent = 0 then 0.0 else high + low
    else
      let rest := half * (1.0 - 0.66666666666666666 * fraction)
      if exponent = 0 then fraction - rest else high - ((rest - low) - fraction)
  else
    let slope := fraction / (2.0 + fraction)
    let square := slope * slope
    let fourth := square * square
    let eighth := fourth * fourth
    let twelfth := eighth * fourth
    let series := square * Float.ofBits 0x3FE5555555555593
      + fourth * (Float.ofBits 0x3FD999999997FA04 + square * Float.ofBits 0x3FD2492494229359)
      + eighth * (Float.ofBits 0x3FCC71C51D8E78AF + square * Float.ofBits 0x3FC7466496CB03DE)
      + twelfth * (Float.ofBits 0x3FC39A09D078C69F + square * Float.ofBits 0x3FC2F112DF3E5244)
    if exponent = 0 then fraction - (half - slope * (half + series))
    else high - ((half - (slope * (half + series) + low)) - fraction)

/-- The natural logarithm of `1 + value`, accurate near zero. -/
def logOnePlus (value : Float) : Float :=
  let size := upperHalf value.abs
  if value.isNaN || (value.isInf && value > 0.0) then value
  else if value == -1.0 then -1.0 / 0.0
  else if value < -1.0 then 0.0 / 0.0
  else if size < 0x3C900000 then value
  else if size < 0x3E200000 then value - value * value * 0.5
  else if (value > 0.0 && size < 0x3FDA827A) || (value < 0.0 && size ≤ 0x3FD2BEC3) then
    logarithmOfParts 0 value 0.0 false
  else
    let isHuge := 0x43400000 ≤ size
    let sum := if isHuge then value else 1.0 + value
    let exponent : Int := Int.ofNat (upperHalf sum / Width.count 20) - 1023
    let lack :=
      if isHuge then 0.0
      else (if 0 < exponent then 1.0 - (sum - value) else value - (sum - 1.0)) / sum
    let upper := upperHalf sum % Width.count 20
    if upper < 0x6A09E then
      logarithmOfParts exponent (withUpperHalf (upper + 0x3FF00000) sum - 1.0) lack (upper = 0)
    else
      logarithmOfParts (exponent + 1) (withUpperHalf (upper + 0x3FE00000) sum - 1.0) lack
        ((Width.count 20 - upper) / 4 = 0)

private def withSignOf (sign magnitude : Float) : Float :=
  if isNegative sign then -magnitude.abs else magnitude.abs

def inverseHyperbolicSine (value : Float) : Float :=
  let size := value.abs
  let inverse := 1.0 / size
  withSignOf value (logOnePlus (size + size / (hypotenuse 1.0 inverse + inverse)))

def inverseHyperbolicCosine (value : Float) : Float :=
  if value < 1.0 then 0.0 / 0.0
  else (value + (value - 1.0).sqrt * (value + 1.0).sqrt).log

def inverseHyperbolicTangent (value : Float) : Float :=
  0.5 * logOnePlus (2.0 * value / (1.0 - value))

end Vetting.Decimal
