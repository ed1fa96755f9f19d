import Vetting.Text.LetterCase
import Vetting.Text.Blank
import Vetting.Web.Percent
import Vetting.Web.Punycode

/-!
Contract: hosts of addresses.

Owns:
- reading a host as a name, as a number of four bytes, or as one of sixteen bytes;
- the one text that each host is written as.

Does not own: the address around a host.

A name whose last part is a number is meant as a number of four bytes and is refused
if it is none.  Names beyond ASCII are written in letters, digits and hyphens after
their letters are made small and wide characters and other full stops are replaced by
the ASCII ones they stand for.
-/

namespace Vetting.Web

/-- A host. -/
inductive Host where
  | name (text : String)
  | fourBytes (number : Nat)
  /-- Eight numbers of two bytes each. -/
  | sixteenBytes (pieces : List Nat)
deriving DecidableEq, Inhabited, Repr

/-- Characters that no host may have. -/
def forbiddenInHosts : List Char :=
  ['\x00', '\t', '\n', '\r', ' ', '#', '/', ':', '<', '>', '?', '@', '[', '\\', ']', '^', '|']

/-- Whether a character may not stand in the name of a host in the domain name system. -/
def forbiddenInNames (character : Char) : Bool :=
  isControl character || character == '%' || forbiddenInHosts.contains character

/-! ### Four bytes -/

/-- The digits of a number to a base, as a value; none if there is a character of another kind. -/
def numberTo? (base : Nat) (digits : List Char) : Option Nat :=
  digits.foldl (fun number? character => do
    let number ← number?
    let digit ← Text.Hexadecimal.digit? character
    if digit < base then some (number * base + digit) else none) (some 0)

/-- A part of a number of four bytes: hexadecimal after `0x`, octal after another `0`. -/
def addressPart? : List Char → Option Nat
  | [] => none
  | '0' :: 'x' :: digits | '0' :: 'X' :: digits => numberTo? 16 digits
  | ['0'] => some 0
  | '0' :: digits => numberTo? 8 digits
  | digits => numberTo? 10 digits

/-- Numbers between dots, of which the last one stands for all bytes that are left. -/
def fourBytes? (parts : List Nat) : Option Nat :=
  let count := parts.length
  let bytes := parts.dropLast
  match parts.getLast? with
  | none => none
  | some last =>
    if 4 < count || bytes.any (255 < ·) || Nat.pow 256 (5 - count) ≤ last then none
    else
      some (bytes.zipIdx.foldl
        (fun sum (byte, place) => sum + byte * Nat.pow 256 (3 - place)) last)

/-- The parts of a name between dots, without an empty one at the end. -/
def nameParts (name : List Char) : List (List Char) :=
  let parts := Text.cutAt '.' name
  if 1 < parts.length ∧ parts.getLast? = some [] then parts.dropLast else parts

/-- Whether a name is meant as a number. -/
def endsInNumber (name : List Char) : Bool :=
  match (nameParts name).getLast? with
  | none | some [] => false
  | some last => last.all Char.isDigit || (addressPart? last).isSome

/-! ### Sixteen bytes -/

/-- Numbers of up to four hexadecimal digits between colons. -/
private def pieces? (text : List Char) : Option (List Nat) :=
  if text.isEmpty then some []
  else (Text.cutAt ':' text).mapM fun digits =>
    if digits.isEmpty || 4 < digits.length then none else Text.Hexadecimal.number? digits

/-- Numbers between colons, of which the last two may be written as four bytes. -/
private def tail? (text : List Char) : Option (List Nat) :=
  if !text.contains '.' then pieces? text
  else
    let parts := Text.cutAt ':' text
    let bytes? := ((parts.getLast?.map (Text.cutAt '.')).getD []).mapM fun digits =>
      if digits.isEmpty || (digits.head? == some '0' && 1 < digits.length) then none
      else (numberTo? 10 digits).filter (· < 256)
    match bytes? with
    | some [first, second, third, fourth] => do
      let before ← parts.dropLast.mapM fun digits =>
        if digits.isEmpty || 4 < digits.length then none else Text.Hexadecimal.number? digits
      some (before ++ [first * 256 + second, third * 256 + fourth])
    | _ => none

/-- The characters before and after the first two colons in a row. -/
private def cutAtGap? : List Char → Option (List Char × List Char)
  | ':' :: ':' :: rest => some ([], rest)
  | character :: rest => (cutAtGap? rest).map fun (before, after) => (character :: before, after)
  | [] => none

/-- Eight numbers; two colons in a row stand for as many zeros as are missing. -/
def sixteenBytes? (text : List Char) : Option (List Nat) := do
  match cutAtGap? text with
  | none => (← tail? text) |> fun pieces => if pieces.length = 8 then some pieces else none
  | some (before, after) =>
    let front ← pieces? before
    let back ← tail? after
    let count := front.length + back.length
    if count < 8 then some (front ++ List.replicate (8 - count) 0 ++ back) else none

/-- How many zeros a list begins with. -/
private def leadingZeros (pieces : List Nat) : Nat := (pieces.takeWhile (· = 0)).length

/-- The place and length of the first longest run of at least two zeros; length 0 if there is
none. -/
private def longestGap (pieces : List Nat) : Nat × Nat :=
  (List.range pieces.length).foldl (fun (place, length) start =>
    let here := leadingZeros (pieces.drop start)
    if length < here ∧ 2 ≤ here then (start, here) else (place, length)) (0, 0)

private def piecesText (pieces : List Nat) : String :=
  Text.joined ":" (pieces.map fun piece => String.ofList (Nat.toDigits 16 piece))

namespace Host

/-- The one text of a host. -/
def text : Host → String
  | .name text => text
  | .fourBytes number =>
    Text.joined "." ([3, 2, 1, 0].map fun place => toString (number / Nat.pow 256 place % 256))
  | .sixteenBytes pieces =>
    let (place, length) := longestGap pieces
    if length = 0 then "[" ++ piecesText pieces ++ "]"
    else "[" ++ piecesText (pieces.take place) ++ "::" ++ piecesText (pieces.drop (place + length))
      ++ "]"

/-- The character that counts for a character of a name: ideographic full stops are dots, and wide
characters are the ASCII ones they are as wide forms of. -/
private def plainCharacter (character : Char) : Char :=
  let code := character.toNat
  if code = 0x3002 ∨ code = 0xFF61 then '.'
  else if 0xFF01 ≤ code ∧ code ≤ 0xFF5E then Char.ofNat (code - 0xFF01 + '!'.toNat)
  else character

/-- A name in ASCII. -/
private def asciiName (name : String) : List Char :=
  let plain := String.ofList (name.toList.map plainCharacter)
  let parts := (Text.cutAt '.' (Text.lowerCase plain).toList).map fun part =>
    if part.all fun character => character.toNat < 128 then part
    else "xn--".toList ++ Punycode.encode part
  (parts.intersperse ['.']).flatten

/-- The host that a name stands for where names and numbers are told apart. -/
private def ofName? (characters : List Char) : Option Host := do
  let name ← String.fromUTF8? ⟨(unescapedBytes characters).toArray⟩
  let ascii := asciiName name
  if ascii.isEmpty || ascii.any forbiddenInNames then none
  else if endsInNumber ascii then
    let parts ← (nameParts ascii).mapM addressPart?
    (fourBytes? parts).map .fourBytes
  else some (.name (String.ofList ascii))

/-- Reads a host.  Where names and numbers are not told apart any other text is a name. -/
def read? (areTold : Bool) (characters : List Char) : Option Host :=
  match characters with
  | '[' :: rest =>
    if rest.getLast? = some ']' then (sixteenBytes? rest.dropLast).map .sixteenBytes else none
  | _ =>
    if areTold then ofName? characters
    else if characters.any forbiddenInHosts.contains then none
    else some (.name (String.ofList (escaped [] characters)))

end Host

end Vetting.Web
