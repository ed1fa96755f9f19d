import Vetting.Scope.Names

/-!
Contract: operator rules, which compare one value with a constant.

Owns:
- the operators and their names;
- operator rules and their JSON form;
- when a rule holds, and why it may not be applicable.

Does not own: rules that are expressions (`Vetting.Formula`).

Numbers are compared as floating-point numbers, also integers, so integers beyond
`2^53` may count as equal to their neighbours.  Texts are ordered by code points.
-/

namespace Vetting.Rule

open Json (Number Value Shape)
open Scope (Names)

inductive Operator where
  | eq
  | ne
  | lt
  | le
  | gt
  | ge
  | exists
  | notExists
  | isIn
  | contains
  | between
deriving DecidableEq, Inhabited, Repr

namespace Operator

def all : List Operator :=
  [.eq, .ne, .lt, .le, .gt, .ge, .exists, .notExists, .isIn, .contains, .between]

def name : Operator → String
  | .eq => "eq"
  | .ne => "ne"
  | .lt => "lt"
  | .le => "le"
  | .gt => "gt"
  | .ge => "ge"
  | .exists => "exists"
  | .notExists => "not_exists"
  | .isIn => "in"
  | .contains => "contains"
  | .between => "between"

def named? (name : String) : Option Operator := all.find? fun operator => operator.name == name

def shape : Shape := Shape.choice (all.map fun operator => [operator.name])

def toValue (operator : Operator) : Value := .text operator.name

def ofValue? : Value → Option Operator
  | .text name => named? name
  | _ => none

instance : Json.Documented Operator := ⟨shape, ofValue?, toValue⟩

end Operator

/-- A comparison of the value that a target names with a constant. -/
structure OperatorRule where
  /-- A visible name, or a path into the document. -/
  target : String
  operator : Operator
  value : Value
deriving Inhabited

namespace OperatorRule

def fields : List Shape.Field := [
  Shape.required "target" Shape.text,
  Shape.required "op" Operator.shape,
  Shape.defaulted "value" Shape.any .null]

def shape : Shape := Shape.record "struct OperatorRule" fields

def toValue (rule : OperatorRule) : Value := .object [
  ("op", rule.operator.toValue),
  ("target", .text rule.target),
  ("value", rule.value)]

def ofValue? (value : Value) : Option OperatorRule := do
  return {
    target := ← value.field? "target" Value.asText?
    operator := ← value.field? "op" Operator.ofValue?
    value := ← value.fieldOr? "value" some .null }

/-- The rule in words. -/
def describe (rule : OperatorRule) : String :=
  rule.target ++ " " ++ rule.operator.name ++ " " ++ rule.value.compact

instance : Json.Documented OperatorRule := ⟨shape, ofValue?, toValue⟩

end OperatorRule

/-- Why an operator rule has no answer. -/
inductive ComparisonFault where
  | unknownTarget (target : String)
  | unorderedNumbers
  | incomparable (first second : Value)
  | notAList (value : Value)
  | notAContainer (value : Value)
  | notAPair
deriving Inhabited

def ComparisonFault.message : ComparisonFault → String
  | .unknownTarget target => "unknown identifier '" ++ target ++ "'"
  | .unorderedNumbers => "numbers are not comparable"
  | .incomparable first second => "cannot compare " ++ first.compact ++ " with " ++ second.compact
  | .notAList value => "'in' expects an array value, got " ++ value.compact
  | .notAContainer value => "'contains' is not applicable to " ++ value.compact
  | .notAPair => "'between' expects a [low, high] pair"

/-- Equality of values; two numbers are equal if they are so as floating-point numbers. -/
def looselyEqual : Value → Value → Bool
  | .number first, .number second => first.toFloat == second.toFloat
  | first, second => first.same second

/-- The order of two numbers or two texts. -/
def order (first second : Value) : Except ComparisonFault Ordering :=
  match first, second with
  | .number first, .number second =>
    let (left, right) := (first.toFloat, second.toFloat)
    if left < right then .ok .lt
    else if right < left then .ok .gt
    else if left == right then .ok .eq
    else .error .unorderedNumbers
  | .text first, .text second =>
    .ok (if first < second then .lt else if first = second then .eq else .gt)
  | first, second => .error (.incomparable first second)

/-- The path a target stands for: `payload.` at its beginning is left out. -/
def barePath (target : String) : String :=
  (Text.afterText? (Scope.documentRoot ++ ".") target).getD target

/-- The value a target names: a visible name first, then a path into the document. -/
def target? (target : String) (names : Names) (payload : Value) : Option Value :=
  match Dictionary.lookup? target names with
  | some value => some value
  | none => Document.resolve? payload (barePath target)

/-- Whether a present value stands in the relation of a rule to its constant. -/
def holdsOf (operator : Operator) (actual expected : Value) : Except ComparisonFault Bool :=
  match operator with
  | .eq => .ok (looselyEqual actual expected)
  | .ne => .ok (!looselyEqual actual expected)
  | .lt => do return (← order actual expected) == .lt
  | .le => do return (← order actual expected) != .gt
  | .gt => do return (← order actual expected) == .gt
  | .ge => do return (← order actual expected) != .lt
  | .isIn => match expected with
    | .array items => .ok (items.any fun item => looselyEqual item actual)
    | other => .error (.notAList other)
  | .contains => match actual, expected with
    | .text whole, .text part => .ok (Text.occursIn part.toList whole.toList)
    | .array items, wanted => .ok (items.any fun item => looselyEqual item wanted)
    | .object entries, .text key => .ok (Dictionary.has key entries)
    | other, _ => .error (.notAContainer other)
  | .between => match expected with
    | .array [low, high] => do
      if (← order actual low) == .lt then return false
      return (← order actual high) != .gt
    | _ => .error .notAPair
  | .exists => .ok true
  | .notExists => .ok false

namespace OperatorRule

/-- Whether a rule holds.  A target that is null counts as absent where existence is asked for. -/
def holds (rule : OperatorRule) (names : Names) (payload : Value) :
    Except ComparisonFault Bool :=
  let actual? := target? rule.target names payload
  let present := match actual? with
    | some value => !value.isNull
    | none => false
  match rule.operator, actual? with
  | .exists, _ => .ok present
  | .notExists, _ => .ok (!present)
  | _, none => .error (.unknownTarget rule.target)
  | operator, some actual => holdsOf operator actual rule.value

end OperatorRule

end Vetting.Rule
