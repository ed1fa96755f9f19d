import Vetting.Json.Printer
import Vetting.Text.Quoted
import Vetting.Text.Blank

/-!
Contract: why a document is refused.

Owns:
- the causes: faults of the JSON grammar and disagreements with an expected shape;
- the place of a fault in a text;
- the wording of both.

Does not own: when a fault arises.
-/

namespace Vetting.Json

/-- Where in a text a fault was noticed; the column counts bytes. -/
structure Place where
  line : Nat
  column : Nat
deriving DecidableEq, Inhabited

/-- A violation of the JSON grammar. -/
inductive GrammarFault where
  | endInList
  | endInObject
  | endInString
  | endInValue
  | expectedColon
  | expectedListCommaOrEnd
  | expectedObjectCommaOrEnd
  | expectedWord
  | expectedValue
  | invalidEscape
  | invalidNumber
  | numberOutOfRange
  | invalidCodePoint
  | controlCharacter
  | keyNotText
  | loneSurrogate
  | trailingComma
  | trailingCharacters
  | unpairedEscape
  | tooDeep
deriving DecidableEq, Inhabited

def GrammarFault.message : GrammarFault → String
  | .endInList => "EOF while parsing a list"
  | .endInObject => "EOF while parsing an object"
  | .endInString => "EOF while parsing a string"
  | .endInValue => "EOF while parsing a value"
  | .expectedColon => "expected `:`"
  | .expectedListCommaOrEnd => "expected `,` or `]`"
  | .expectedObjectCommaOrEnd => "expected `,` or `\x7d`"
  | .expectedWord => "expected ident"
  | .expectedValue => "expected value"
  | .invalidEscape => "invalid escape"
  | .invalidNumber => "invalid number"
  | .numberOutOfRange => "number out of range"
  | .invalidCodePoint => "invalid unicode code point"
  | .controlCharacter => "control character (\\u0000-\\u001F) found while parsing a string"
  | .keyNotText => "key must be a string"
  | .loneSurrogate => "lone leading surrogate in hex escape"
  | .trailingComma => "trailing comma"
  | .trailingCharacters => "trailing characters"
  | .unpairedEscape => "unexpected end of hex escape"
  | .tooDeep => "recursion limit exceeded"

/-- What a document held at a place where something else was expected. -/
inductive Found where
  | null
  | boolean (value : Bool)
  | number (value : Number)
  | text (value : String)
  | sequence
  | mapping
  | bareVariant
deriving DecidableEq, Inhabited

namespace Found

def describe : Found → String
  | .null => "null"
  | .boolean value => "boolean `" ++ booleanText value ++ "`"
  | .number (.integer value) => "integer `" ++ toString value ++ "`"
  | .number (.float value) => "floating point `" ++ Decimal.Layout.document.text value ++ "`"
  | .text value => "string " ++ Text.quoted value
  | .sequence => "sequence"
  | .mapping => "map"
  | .bareVariant => "unit variant"

/-- A value seen as what was found. -/
def ofValue : Value → Found
  | .null => .null
  | .boolean value => .boolean value
  | .number value => .number value
  | .text value => .text value
  | .array _ => .sequence
  | .object _ => .mapping

end Found

/-- Why a document is refused. -/
inductive Cause where
  | grammar (fault : GrammarFault)
  | wrongType (found : Found) (expected : String)
  | wrongValue (found : Found) (expected : String)
  | wrongLength (length : Nat) (expected : String)
  | unknownVariant (name : String) (known : List String)
  | missingField (name : String)
  | repeatedField (name : String)
  | refused (reason : String)
deriving DecidableEq, Inhabited

/-- The names a document could have used. -/
def oneOf : List String → String
  | [] => "there are no variants"
  | [only] => "expected `" ++ only ++ "`"
  | [first, second] => "expected `" ++ first ++ "` or `" ++ second ++ "`"
  | names => "expected one of " ++ Text.joined ", " (names.map fun name => "`" ++ name ++ "`")

def Cause.message : Cause → String
  | .grammar fault => fault.message
  | .wrongType found expected => "invalid type: " ++ found.describe ++ ", expected " ++ expected
  | .wrongValue found expected => "invalid value: " ++ found.describe ++ ", expected " ++ expected
  | .wrongLength length expected =>
    "invalid length " ++ toString length ++ ", expected " ++ expected
  | .unknownVariant name known => "unknown variant `" ++ name ++ "`, " ++ oneOf known
  | .missingField name => "missing field `" ++ name ++ "`"
  | .repeatedField name => "duplicate field `" ++ name ++ "`"
  | .refused reason => reason

/-- A cause, with its place if the document was a text. -/
structure Fault where
  cause : Cause
  place : Option Place
deriving DecidableEq, Inhabited

namespace Fault

/-- A fault without a place. -/
def unplaced (cause : Cause) : Fault := ⟨cause, none⟩

/-- The fault at the given place, unless it has one already. -/
def placedAt (fault : Fault) (place : Place) : Fault :=
  match fault.place with
  | some _ => fault
  | none => { fault with place := some place }

def message (fault : Fault) : String :=
  match fault.place with
  | none => fault.cause.message
  | some place =>
    fault.cause.message ++ " at line " ++ toString place.line ++ " column " ++
      toString place.column

end Fault

end Vetting.Json
