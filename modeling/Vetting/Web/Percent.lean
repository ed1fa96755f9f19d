import Vetting.Text.Hexadecimal

/-!
Contract: characters that stand in an address as percent signs and digits.

Owns:
- which characters are written so in each part of an address;
- writing and reading them.

Does not own: the parts of an address.

A character beyond ASCII is always written byte by byte.  A percent sign stays as it
is, so that what is written so already is not written so twice.
-/

namespace Vetting.Web

/-- A control character; beyond the control characters only DEL is one. -/
def isControl (character : Char) : Bool := character.toNat < 0x20 || character.toNat = 0x7F

/-- The characters besides controls that are escaped in a fragment. -/
def fragmentEscapes : List Char := [' ', '"', '<', '>', '\x60']

/-- The characters besides controls that are escaped in a path. -/
def pathEscapes : List Char := fragmentEscapes ++ ['#', '?', '\x7b', '\x7d']

/-- The characters besides controls that are escaped in a query. -/
def queryEscapes : List Char := [' ', '"', '#', '<', '>']

/-- The percent sign and digits of a byte. -/
private def escapedByte (byte : UInt8) : List Char :=
  '%' :: (Text.Hexadecimal.padded 2 byte.toNat).map Char.toUpper

/-- Writes characters, escaping controls, those of a list and those beyond ASCII. -/
def escaped (escapes : List Char) (characters : List Char) : List Char :=
  characters.flatMap fun character =>
    if isControl character || 0x7F < character.toNat || escapes.contains character then
      (String.singleton character).toUTF8.toList.flatMap escapedByte
    else [character]

/-- The bytes of characters in which percent signs and two digits stand for bytes. -/
def unescapedBytes : List Char → List UInt8
  | [] => []
  | '%' :: first :: second :: rest =>
    match Text.Hexadecimal.number? [first, second] with
    | some number => UInt8.ofNat number :: unescapedBytes rest
    | none => '%'.toUInt8 :: unescapedBytes (first :: second :: rest)
  | character :: rest => (String.singleton character).toUTF8.toList ++ unescapedBytes rest

end Vetting.Web
