import Vetting.Json.Value
import Vetting.Decimal.Layout

/-!
Contract: the text of a JSON value.

Owns:
- the escapes inside a JSON string;
- the compact form, without spaces;
- the indented form, two spaces a level.

Does not own: the order of keys, which is that of the value's entries.
-/

namespace Vetting.Json

/-- Four hexadecimal digits of a control character. -/
private def controlDigits (code : Nat) : String :=
  let digits := Nat.toDigits 16 code
  String.ofList (List.replicate (4 - digits.length) '0' ++ digits)

/-- A character inside a JSON string. -/
def escaped (character : Char) : String :=
  if character = '"' then "\\\""
  else if character = '\\' then "\\\\"
  else if character = '\n' then "\\n"
  else if character = '\r' then "\\r"
  else if character = '\t' then "\\t"
  else if character = '\x08' then "\\b"
  else if character = '\x0c' then "\\f"
  else if character.toNat < 0x20 then "\\u" ++ controlDigits character.toNat
  else String.singleton character

/-- A text as a JSON string. -/
def stringText (text : String) : String :=
  "\"" ++ text.foldl (fun built character => built ++ escaped character) "" ++ "\""

/-- A number of a document. -/
def Number.text : Number → String
  | .integer value => toString value
  | .float value => Decimal.Layout.document.text value

/-- The text of a truth value. -/
def booleanText (value : Bool) : String := if value then "true" else "false"

namespace Value

mutual

/-- The compact form. -/
def compact : Value → String
  | .null => "null"
  | .boolean value => booleanText value
  | .number value => value.text
  | .text value => stringText value
  | .array items => "[" ++ compactItems items ++ "]"
  | .object entries => "\x7b" ++ compactEntries entries ++ "\x7d"

/-- Items of an array with commas between them. -/
def compactItems : List Value → String
  | [] => ""
  | [item] => compact item
  | item :: rest => compact item ++ "," ++ compactItems rest

/-- Entries of an object with commas between them. -/
def compactEntries : List (String × Value) → String
  | [] => ""
  | [(key, value)] => stringText key ++ ":" ++ compact value
  | (key, value) :: rest => stringText key ++ ":" ++ compact value ++ "," ++ compactEntries rest

end

/-- A line end and the spaces of a level. -/
private def lineStart (level : Nat) : String :=
  "\n" ++ String.ofList (List.replicate (2 * level) ' ')

mutual

/-- The indented form of a value that starts on a line of the given level. -/
def indented (level : Nat) : Value → String
  | .null => "null"
  | .boolean value => booleanText value
  | .number value => value.text
  | .text value => stringText value
  | .array [] => "[]"
  | .array (item :: rest) =>
    "[" ++ lineStart (level + 1) ++ indented (level + 1) item ++
      indentedItems (level + 1) rest ++ lineStart level ++ "]"
  | .object [] => "\x7b\x7d"
  | .object ((key, value) :: rest) =>
    "\x7b" ++ lineStart (level + 1) ++ stringText key ++ ": " ++ indented (level + 1) value ++
      indentedEntries (level + 1) rest ++ lineStart level ++ "\x7d"

/-- Further items, each after a comma on a line of its own. -/
def indentedItems (level : Nat) : List Value → String
  | [] => ""
  | item :: rest => "," ++ lineStart level ++ indented level item ++ indentedItems level rest

/-- Further entries, each after a comma on a line of its own. -/
def indentedEntries (level : Nat) : List (String × Value) → String
  | [] => ""
  | (key, value) :: rest =>
    "," ++ lineStart level ++ stringText key ++ ": " ++ indented level value ++
      indentedEntries level rest

end

/-- The indented form. -/
def pretty (value : Value) : String := indented 0 value

end Value

end Vetting.Json
