import Vetting.Dictionary
import Vetting.Width

/-!
Contract: the values a JSON document can denote.

Owns:
- numbers that are integers or binary floating-point numbers;
- values, with objects as dictionaries;
- equality of values as documents are compared.

Does not own: the text of a value or how a text is read.

Integers and floating-point numbers stay apart: `1` and `1.0` are different
values.  A value that comes from a reader has integers between `-2^63` and
`2^64 - 1`, finite floats, and objects with strictly increasing keys
(`Value.Proper`).
-/

namespace Vetting.Json

/-- A number of a document. -/
inductive Number where
  | integer (value : Int)
  | float (value : Float)
deriving DecidableEq, Inhabited

namespace Number

/-- The nearest floating-point number. -/
def toFloat : Number → Float
  | .integer value => Float.ofInt value
  | .float value => value

/-- Equality of numbers of one kind; numbers of different kinds are never equal. -/
def same : Number → Number → Bool
  | .integer first, .integer second => first == second
  | .float first, .float second => first == second
  | _, _ => false

/-- The integers that a number of a document can be. -/
def IntegerInRange (value : Int) : Prop :=
  Width.leastInt 64 ≤ value ∧ value ≤ Int.ofNat (Width.greatestNat 64)

instance (value : Int) : Decidable (IntegerInRange value) := by
  unfold IntegerInRange
  infer_instance

/-- Numbers that a reader can produce. -/
def Proper : Number → Prop
  | .integer value => IntegerInRange value
  | .float value => value.isFinite = true

end Number

/-- A JSON value. -/
inductive Value where
  | null
  | boolean (value : Bool)
  | number (value : Number)
  | text (value : String)
  | array (items : List Value)
  | object (entries : List (String × Value))
deriving Inhabited

namespace Value

/-- An integer as a value. -/
def integer (value : Int) : Value := .number (.integer value)

/-- A natural number as a value. -/
def natural (value : Nat) : Value := .number (.integer value)

/-- A floating-point number as a value; what is not finite has no JSON form and is null. -/
def float (value : Float) : Value :=
  if value.isFinite then .number (.float value) else .null

/-- The object of a list of entries, a later entry replacing an earlier one. -/
def ofEntries (entries : List (String × Value)) : Value :=
  .object (Dictionary.ofEntries entries)

/-- The value of an optional value, null standing for none. -/
def ofOption (toValue : α → Value) : Option α → Value
  | none => .null
  | some value => toValue value

/-- An optional text as a value. -/
def optionalText (value : Option String) : Value := ofOption .text value

/-- An entry that is left out where there is no value. -/
def entryIfSome (key : String) (toValue : α → Value) : Option α → List (String × Value)
  | none => []
  | some value => [(key, toValue value)]

/-- The entry of an object; other values have none. -/
def get? (key : String) : Value → Option Value
  | .object entries => Dictionary.lookup? key entries
  | _ => none

def isNull : Value → Bool
  | .null => true
  | _ => false

mutual

/-- Equality of documents: numbers by `Number.same`, arrays item by item, objects entry by entry. -/
def same : Value → Value → Bool
  | .null, .null => true
  | .boolean first, .boolean second => first == second
  | .number first, .number second => first.same second
  | .text first, .text second => first == second
  | .array first, .array second => sameItems first second
  | .object first, .object second => sameEntries first second
  | _, _ => false

/-- The relation `same` on lists of equal length. -/
def sameItems : List Value → List Value → Bool
  | [], [] => true
  | first :: moreFirst, second :: moreSecond => same first second && sameItems moreFirst moreSecond
  | _, _ => false

/-- The relation `same` on entries with equal keys. -/
def sameEntries : List (String × Value) → List (String × Value) → Bool
  | [], [] => true
  | (firstKey, first) :: moreFirst, (secondKey, second) :: moreSecond =>
    firstKey == secondKey && same first second && sameEntries moreFirst moreSecond
  | _, _ => false

end

mutual

/-- Values that a reader can produce. -/
def Proper : Value → Prop
  | .null => True
  | .boolean _ => True
  | .number value => value.Proper
  | .text _ => True
  | .array items => ProperItems items
  | .object entries => Dictionary.Sorted entries ∧ ProperEntries entries

def ProperItems : List Value → Prop
  | [] => True
  | item :: rest => Proper item ∧ ProperItems rest

def ProperEntries : List (String × Value) → Prop
  | [] => True
  | (_, value) :: rest => Proper value ∧ ProperEntries rest

end

mutual

/-- The value with its objects made dictionaries, a later entry replacing an earlier one. -/
def settled : Value → Value
  | .array items => .array (settledItems items)
  | .object entries => ofEntries (settledEntries entries)
  | other => other

def settledItems : List Value → List Value
  | [] => []
  | item :: rest => settled item :: settledItems rest

def settledEntries : List (String × Value) → List (String × Value)
  | [] => []
  | (key, value) :: rest => (key, settled value) :: settledEntries rest

end

end Value

end Vetting.Json
