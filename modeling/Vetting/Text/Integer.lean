/-!
Contract: integers written in decimal digits.

Owns:
- reading natural numbers and integers between bounds;
- why a text is refused.

Does not own: which white space may stand around a number.

The characters are looked at from left to right, so that of two faults the first
one is reported: a digit that leaves the bounds, or a character that is no digit.
-/

namespace Vetting.Text

/-- Why a text is no integer between the bounds. -/
inductive IntegerFault where
  | empty
  | strayCharacter
  | tooLarge
  | tooSmall
deriving DecidableEq, Inhabited, Repr

def IntegerFault.message : IntegerFault → String
  | .empty => "cannot parse integer from empty string"
  | .strayCharacter => "invalid digit found in string"
  | .tooLarge => "number too large to fit in target type"
  | .tooSmall => "number too small to fit in target type"

/-- Adds up digits to a number that may not exceed a limit. -/
def sumDigits (limit : Nat) (excess : IntegerFault) :
    Nat → List Char → Except IntegerFault Nat
  | built, [] => .ok built
  | built, digit :: rest =>
    if digit.isDigit then
      let next := built * 10 + (digit.toNat - '0'.toNat)
      if next ≤ limit then sumDigits limit excess next rest else .error excess
    else .error .strayCharacter

/-- A number made of one digit or more. -/
private def digits (limit : Nat) (excess : IntegerFault) :
    List Char → Except IntegerFault Nat
  | [] => .error .strayCharacter
  | characters => sumDigits limit excess 0 characters

/-- A natural number up to a bound, possibly with a plus sign. -/
def readNat (greatest : Nat) (text : String) : Except IntegerFault Nat :=
  match text.toList with
  | [] => .error .empty
  | '+' :: rest => digits greatest .tooLarge rest
  | characters => digits greatest .tooLarge characters

/-- An integer from `-least` to `greatest`, possibly with a sign. -/
def readInteger (least greatest : Nat) (text : String) : Except IntegerFault Int :=
  match text.toList with
  | [] => .error .empty
  | '+' :: rest => (digits greatest .tooLarge rest).map Int.ofNat
  | '-' :: rest => (digits least .tooSmall rest).map fun number => -Int.ofNat number
  | characters => (digits greatest .tooLarge characters).map Int.ofNat

end Vetting.Text
