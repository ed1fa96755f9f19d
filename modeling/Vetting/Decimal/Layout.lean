import Vetting.Decimal.Shortest
import Vetting.Width

/-!
Contract: the text of a floating-point number.

Owns:
- the decisions a text format makes about its digits (`Layout`);
- the three formats in use: in documents, in prose, and in quoted values;
- the text of not-a-number and of the infinities.

Does not own: which digits are written (`Vetting.Decimal.Shortest`).
-/

namespace Vetting.Decimal

/-- What a text format decides about the digits of a number. -/
structure Layout where
  /-- The scientific exponents written without an exponent mark; all of them if absent. -/
  positional : Option (Int × Int)
  /-- Whole numbers end in a point and a zero. -/
  pointZero : Bool
  /-- A positive exponent has a plus sign. -/
  exponentPlus : Bool
  tie : Tie

namespace Layout

/-- Numbers of a document are positional from `1e-5` up to and without `1e+16`. -/
def document : Layout := ⟨some (-5, 15), true, true, .toEven⟩

/-- Numbers in prose are always positional and whole numbers have no point. -/
def prose : Layout := ⟨none, false, false, .away⟩

/-- Quoted values are positional from `0.0001` up to and without `1e16`. -/
def quoted : Layout := ⟨some (-4, 15), true, false, .away⟩

private def zeros (count : Nat) : String := String.ofList (List.replicate count '0')

/-- Digits without an exponent mark. -/
def positionalText (layout : Layout) (decimal : Digits) : String :=
  let digits := toString decimal.digits
  let count := digits.length
  let whole := if layout.pointZero then ".0" else ""
  if 0 ≤ decimal.exponent then digits ++ zeros decimal.exponent.toNat ++ whole
  else
    let places := (-decimal.exponent).toNat
    if places < count then
      String.ofList (digits.toList.take (count - places)) ++ "." ++
        String.ofList (digits.toList.drop (count - places))
    else "0." ++ zeros (places - count) ++ digits

/-- One digit before the point, and an exponent mark. -/
def scientificText (layout : Layout) (decimal : Digits) (exponent : Int) : String :=
  let digits := (toString decimal.digits).toList
  let mantissa := match digits with
    | [] => ""
    | [digit] => String.ofList [digit]
    | digit :: rest => String.ofList [digit] ++ "." ++ String.ofList rest
  let sign := if exponent < 0 then "-" else if layout.exponentPlus then "+" else ""
  mantissa ++ "e" ++ sign ++ toString exponent.natAbs

/-- The text of a positive finite number. -/
def magnitudeText (layout : Layout) (bits : Nat) : String :=
  let decimal := shortest (Magnitude.ofBits bits) layout.tie
  let exponent := decimal.exponent + (digitCount decimal.digits : Int) - 1
  match layout.positional with
  | none => layout.positionalText decimal
  | some (least, greatest) =>
    if least ≤ exponent ∧ exponent ≤ greatest then layout.positionalText decimal
    else layout.scientificText decimal exponent

/-- The text of a double with the given bits. -/
def bitsText (layout : Layout) (bits : Nat) : String :=
  let sign := if bits / Width.count 63 % 2 = 1 then "-" else ""
  let magnitude := bits % Width.count 63
  if magnitude = 0 then sign ++ (if layout.pointZero then "0.0" else "0")
  else if magnitude / Width.count 52 = 2047 then
    if magnitude % Width.count 52 = 0 then sign ++ "inf" else "NaN"
  else sign ++ layout.magnitudeText magnitude

/-- The text of a floating-point number. -/
def text (layout : Layout) (number : Float) : String :=
  layout.bitsText number.toBits.toNat

end Layout

end Vetting.Decimal
