/-!
Contract: reading a floating-point number from text.

Owns:
- the grammar of decimal numbers with an optional fraction and exponent, and the
  words for infinity and not-a-number;
- the nearest floating-point number.

Does not own: numbers of JSON documents, which are read in their own way.
-/

namespace Vetting.Decimal

/-- The digits at the start of a text, and what follows them. -/
private def leadingDigits (text : List Char) : List Char × List Char :=
  (text.takeWhile Char.isDigit, text.dropWhile Char.isDigit)

private def numberOf (digits : List Char) : Nat :=
  digits.foldl (fun value digit => value * 10 + (digit.toNat - '0'.toNat)) 0

/-- The exponent a text ends with: zero for the empty text. -/
private def exponent? : List Char → Option Int
  | [] => some 0
  | mark :: rest =>
    if mark = 'e' ∨ mark = 'E' then
      let (negative, digits) := match rest with
        | '+' :: digits => (false, digits)
        | '-' :: digits => (true, digits)
        | digits => (false, digits)
      if digits.isEmpty || !digits.all Char.isDigit then none
      else some (if negative then -(numberOf digits : Int) else numberOf digits)
    else none

/-- The product `significand * 10 ^ exponent`, rounded to the nearest float. -/
def nearest (significand : Nat) (exponent : Int) : Float :=
  let size : Int := (Nat.toDigits 10 significand).length
  if significand = 0 || size + exponent < -400 then 0.0
  else if size + exponent > 400 then 1.0 / 0.0
  else if exponent < 0 then Float.ofScientific significand true (-exponent).toNat
  else Float.ofScientific significand false exponent.toNat

/-- A number without a sign. -/
private def unsignedFloat? (text : List Char) : Option Float :=
  let lower := text.map Char.toLower
  if lower = "inf".toList || lower = "infinity".toList then some (1.0 / 0.0)
  else if lower = "nan".toList then some (0.0 / 0.0)
  else
    let (whole, afterWhole) := leadingDigits text
    let (fraction, rest) := match afterWhole with
      | '.' :: afterPoint => leadingDigits afterPoint
      | other => ([], other)
    if whole.isEmpty && fraction.isEmpty then none
    else (exponent? rest).map fun exponent =>
      nearest (numberOf (whole ++ fraction)) (exponent - (fraction.length : Int))

/-- The floating-point number that a text denotes. -/
def float? : List Char → Option Float
  | '+' :: text => unsignedFloat? text
  | '-' :: text => (unsignedFloat? text).map (- ·)
  | text => unsignedFloat? text

end Vetting.Decimal
