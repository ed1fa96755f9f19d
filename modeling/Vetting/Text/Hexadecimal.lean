/-!
Contract: hexadecimal text.

Owns:
- the value of a hexadecimal digit, in either case;
- byte sequences as two digits for each byte, and back.

Does not own: hexadecimal numbers in formulas or documents.
-/

namespace Vetting.Text.Hexadecimal

/-- The value of a digit. -/
def digit? (character : Char) : Option Nat :=
  if '0' ≤ character ∧ character ≤ '9' then some (character.toNat - '0'.toNat)
  else if 'a' ≤ character ∧ character ≤ 'f' then some (character.toNat - 'a'.toNat + 10)
  else if 'A' ≤ character ∧ character ≤ 'F' then some (character.toNat - 'A'.toNat + 10)
  else none

/-- The number that digits denote, the highest one first. -/
def number? (digits : List Char) : Option Nat :=
  digits.foldl (fun number? digit => do return (← number?) * 16 + (← digit? digit)) (some 0)

/-- The digits of a number, at least as many as given. -/
def padded (width number : Nat) : List Char :=
  let digits := Nat.toDigits 16 number
  List.replicate (width - digits.length) '0' ++ digits

/-- Two digits for every byte. -/
def ofBytes (bytes : ByteArray) : String :=
  String.ofList (bytes.toList.flatMap fun byte => padded 2 byte.toNat)

private def byteList? : List Char → Option (List UInt8)
  | [] => some []
  | [_] => none
  | high :: low :: rest => do
    let byte := UInt8.ofNat ((← digit? high) * 16 + (← digit? low))
    return byte :: (← byteList? rest)

/-- The bytes that pairs of digits stand for. -/
def toBytes? (text : String) : Option ByteArray :=
  (byteList? text.toList).map fun bytes => ⟨bytes.toArray⟩

end Vetting.Text.Hexadecimal
