import Vetting.Json.Printer
import Vetting.Text.Quoted
import Vetting.Text.Blank
import Vetting.Width

/-!
Contract: the values that expressions compute with.

Owns:
- values and their kinds;
- equality of values;
- how a value is shown in a result and in detail;
- the value that a JSON value becomes in an expression.

Does not own: operators and functions on values.

Integers have 64 bits; operations that leave that range are faults of the
operation.  A JSON integer beyond the range becomes a floating-point number, and
an object becomes its compact text.
-/

namespace Vetting.Formula

inductive Value where
  | text (value : String)
  | float (value : Float)
  | int (value : Int)
  | boolean (value : Bool)
  | tuple (items : List Value)
  | empty
deriving Inhabited

/-- The kinds of values. -/
inductive Kind where
  | text
  | float
  | int
  | boolean
  | tuple
  | empty
deriving DecidableEq, Repr

def Kind.name : Kind → String
  | .text => "String"
  | .float => "Float"
  | .int => "Int"
  | .boolean => "Boolean"
  | .tuple => "Tuple"
  | .empty => "Empty"

/-- Whether an integer has 64 bits. -/
def fits (value : Int) : Bool := decide (Width.leastInt 64 ≤ value ∧ value ≤ Width.greatestInt 64)

namespace Value

def kind : Value → Kind
  | .text _ => .text
  | .float _ => .float
  | .int _ => .int
  | .boolean _ => .boolean
  | .tuple _ => .tuple
  | .empty => .empty

mutual

/-- Equality of values of one kind; values of different kinds are never equal. -/
def same : Value → Value → Bool
  | .text first, .text second => first == second
  | .float first, .float second => first == second
  | .int first, .int second => first == second
  | .boolean first, .boolean second => first == second
  | .tuple first, .tuple second => sameItems first second
  | .empty, .empty => true
  | _, _ => false

def sameItems : List Value → List Value → Bool
  | [], [] => true
  | first :: moreFirst, second :: moreSecond => same first second && sameItems moreFirst moreSecond
  | _, _ => false

end

mutual

/-- How a value is shown as a result. -/
def shown : Value → String
  | .text value => "\"" ++ value ++ "\""
  | .float value => Decimal.Layout.prose.text value
  | .int value => toString value
  | .boolean value => Json.booleanText value
  | .tuple items => "(" ++ shownItems items ++ ")"
  | .empty => "()"

def shownItems : List Value → String
  | [] => ""
  | [item] => shown item
  | item :: rest => shown item ++ ", " ++ shownItems rest

end

/-- A value as text: as it is shown, but a text without quotes. -/
def asText : Value → String
  | .text value => value
  | other => other.shown

mutual

/-- How a value is shown in detail, with its kind. -/
def detailed : Value → String
  | .text value => "String(" ++ Text.quoted value ++ ")"
  | .float value => "Float(" ++ Decimal.Layout.quoted.text value ++ ")"
  | .int value => "Int(" ++ toString value ++ ")"
  | .boolean value => "Boolean(" ++ Json.booleanText value ++ ")"
  | .tuple items => "Tuple([" ++ detailedItems items ++ "])"
  | .empty => "Empty"

def detailedItems : List Value → String
  | [] => ""
  | [item] => detailed item
  | item :: rest => detailed item ++ ", " ++ detailedItems rest

end

mutual

/-- A JSON value in an expression. -/
def ofJson : Json.Value → Value
  | .null => .empty
  | .boolean value => .boolean value
  | .number (.integer value) => if fits value then .int value else .float (Float.ofInt value)
  | .number (.float value) => .float value
  | .text value => .text value
  | .array items => .tuple (ofJsonItems items)
  | .object entries => .text (Json.Value.compact (.object entries))

def ofJsonItems : List Json.Value → List Value
  | [] => []
  | item :: rest => ofJson item :: ofJsonItems rest

end

end Value

end Vetting.Formula
