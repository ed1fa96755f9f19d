import Vetting.Text.CharacterClass

/-!
Contract: texts quoted for a reader of error messages.

Owns:
- the escape of each character;
- the quoted form of a text.

Does not own: JSON strings, whose escapes differ.

A quoted text stands between double quotes.  Quotes, backslashes, tabs, line
ends and the null character have short escapes; extending marks and unprintable
characters are written as their code point in braces; all else stands as it is.
-/

namespace Vetting.Text

/-- A number in lower-case hexadecimal digits without leading zeros. -/
def hexText (number : Nat) : String := String.ofList (Nat.toDigits 16 number)

/-- A character as it stands in a quoted text. -/
def quotedCharacter (character : Char) : String :=
  if character = '\x00' then "\\0"
  else if character = '\t' then "\\t"
  else if character = '\r' then "\\r"
  else if character = '\n' then "\\n"
  else if character = '\\' then "\\\\"
  else if character = '"' then "\\\""
  else if inClass extendingMarks character || inClass unprintable character then
    "\\u\x7b" ++ hexText character.toNat ++ "\x7d"
  else String.singleton character

/-- A text between double quotes, with escapes. -/
def quoted (text : String) : String :=
  "\"" ++ text.foldl (fun built character => built ++ quotedCharacter character) "" ++ "\""

end Vetting.Text
