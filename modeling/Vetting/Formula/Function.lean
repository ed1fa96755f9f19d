import Vetting.Formula.Fault
import Vetting.Decimal.Arithmetic
import Vetting.Text.LetterCase
import Vetting.Width

/-!
Contract: the functions an expression may call.

Owns:
- taking operands of an expected kind;
- the functions by name and their results.

Does not own: operators.

A function takes one value: a tuple if it is called with several arguments, and
the empty value if it is called with none.
-/

namespace Vetting.Formula

namespace Value

def toText : Value → Except Fault String
  | .text value => .ok value
  | other => .error (.expectedText other)

def toInt : Value → Except Fault Int
  | .int value => .ok value
  | other => .error (.expectedInt other)

/-- A number as a float. -/
def toNumber : Value → Except Fault Float
  | .float value => .ok value
  | .int value => .ok (Float.ofInt value)
  | other => .error (.expectedNumber other)

def toBoolean : Value → Except Fault Bool
  | .boolean value => .ok value
  | other => .error (.expectedBoolean other)

def toTuple : Value → Except Fault (List Value)
  | .tuple items => .ok items
  | other => .error (.expectedTuple other)

/-- The items of a tuple of two. -/
def toPair : Value → Except Fault (Value × Value)
  | .tuple [first, second] => .ok (first, second)
  | .tuple items => .error (.expectedTupleOf 2 (.tuple items))
  | other => .error (.expectedTuple other)

/-- The items of a tuple of three. -/
def toTriple : Value → Except Fault (Value × Value × Value)
  | .tuple [first, second, third] => .ok (first, second, third)
  | .tuple items => .error (.expectedTupleOf 3 (.tuple items))
  | other => .error (.expectedTuple other)

/-- The kinds that a tuple may be searched for. -/
def simpleKinds : List Kind := [.text, .int, .float, .boolean]

/-- A value that a tuple may be searched for. -/
def toSimple (value : Value) : Except Fault Value :=
  if simpleKinds.contains value.kind then .ok value else .error (.expectedKind simpleKinds value)

def isAmong (value : Value) (items : List Value) : Bool := items.any fun item => item.same value

end Value

/-- A function. -/
abbrev Function : Type := Value → Except Fault Value

namespace Function

/-- A function of one number. -/
def ofFloat (compute : Float → Float) : Function := fun argument => do
  return .float (compute (← argument.toNumber))

/-- A function of two numbers. -/
def ofFloats (compute : Float → Float → Float) : Function := fun argument => do
  let (first, second) ← argument.toPair
  let first ← first.toNumber
  let second ← second.toNumber
  return .float (compute first second)

/-- A question about one number. -/
def asksFloat (test : Float → Bool) : Function := fun argument => do
  return .boolean (test (← argument.toNumber))

/-- A function of one integer. -/
def ofBits (compute : Int64 → Int64) : Function := fun argument => do
  return .int (compute (Int64.ofInt (← argument.toInt))).toInt

/-- A function of two integers. -/
def ofBitPairs (compute : Int64 → Int64 → Int64) : Function := fun argument => do
  let (first, second) ← argument.toPair
  let first ← first.toInt
  let second ← second.toInt
  return .int (compute (Int64.ofInt first) (Int64.ofInt second)).toInt

/-- A function of one text. -/
def ofText (compute : String → String) : Function := fun argument => do
  return .text (compute (← argument.toText))

/-- The lesser of two numbers; what is not a number is passed over. -/
def lesser (first second : Float) : Float :=
  if first.isNaN then second else if second < first then second else first

/-- The greater of two numbers; what is not a number is passed over. -/
def greater (first second : Float) : Float :=
  if first.isNaN then second else if second > first then second else first

/-- The least integer and the least float among values. -/
def leastOf : Int → Float → List Value → Except Fault (Int × Float)
  | int, float, [] => .ok (int, float)
  | int, float, .int value :: rest => leastOf (min int value) float rest
  | int, float, .float value :: rest => leastOf int (lesser float value) rest
  | _, _, other :: _ => .error (.expectedNumber other)

/-- The greatest integer and the greatest float among values. -/
def greatestOf : Int → Float → List Value → Except Fault (Int × Float)
  | int, float, [] => .ok (int, float)
  | int, float, .int value :: rest => greatestOf (max int value) float rest
  | int, float, .float value :: rest => greatestOf int (greater float value) rest
  | _, _, other :: _ => .error (.expectedNumber other)

/-- The least number of a tuple; without integers or floats, the greatest of that kind counts. -/
def minimum : Function := fun argument => do
  let (int, float) ← leastOf (Width.greatestInt 64) (1.0 / 0.0) (← argument.toTuple)
  return if Float.ofInt int < float then .int int else .float float

/-- The greatest number of a tuple; without integers or floats, the least of that kind counts. -/
def maximum : Function := fun argument => do
  let (int, float) ← greatestOf (Width.leastInt 64) (-1.0 / 0.0) (← argument.toTuple)
  return if Float.ofInt int > float then .int int else .float float

/-- The second or third item of a triple, as the first one says. -/
def choose : Function := fun argument => do
  let (condition, yes, no) ← argument.toTriple
  return if ← condition.toBoolean then yes else no

/-- Whether a tuple has a value among its items. -/
def contains : Function := fun argument => do
  let (items, value) ← argument.toPair
  match items with
  | .tuple items => return .boolean ((← value.toSimple).isAmong items)
  | other => .error (.expectedTuple other)

/-- Whether some value of a list is among the items of another; all values are looked at. -/
def anyAmong (items : List Value) : List Value → Except Fault Bool
  | [] => .ok false
  | value :: rest => do
    let value ← value.toSimple
    let others ← anyAmong items rest
    return value.isAmong items || others

/-- Whether a tuple has one of several values among its items. -/
def containsAny : Function := fun argument => do
  let (items, values) ← argument.toPair
  match items, values with
  | .tuple items, .tuple values => return .boolean (← anyAmong items values)
  | .tuple _, other => .error (.expectedTuple other)
  | other, _ => .error (.expectedTuple other)

/-- The bytes of a text or the items of a tuple. -/
def length : Function := fun argument =>
  match argument with
  | .text value => .ok (.int value.utf8ByteSize)
  | .tuple items => .ok (.int items.length)
  | other => .error (.expectedKind [.text, .tuple] other)

/-- The part of a text between two byte positions.  A position inside a character breaks the
evaluation down. -/
def bytesBetween (text : String) (start stop : Int) : Except Fault Value :=
  if start < 0 || stop < 0 || start > stop || stop > text.utf8ByteSize then .error .outOfBounds
  else
    match String.fromUTF8? (text.toUTF8.extract start.toNat stop.toNat) with
    | some part =>
      let before := text.toUTF8.extract 0 start.toNat
      if (String.fromUTF8? before).isSome then .ok (.text part) else .error .breakdown
    | none => .error .breakdown

def substring : Function := fun argument =>
  match argument with
  | .tuple [subject, start] => do
    let subject ← subject.toText
    bytesBetween subject (← start.toInt) subject.utf8ByteSize
  | .tuple [subject, start, stop] => do
    let subject ← subject.toText
    let start ← start.toInt
    if start < 0 then .error .outOfBounds else bytesBetween subject start (← stop.toInt)
  | .tuple items => .error (.expectedTupleBetween 2 3 (.tuple items))
  | other => .error (.expectedTuple other)

/-- The magnitude of a number. -/
def magnitude : Function := fun argument =>
  match argument with
  | .float value => .ok (.float value.abs)
  | .int value => .ok (.int value.natAbs)
  | other => .error (.expectedNumber other)

/-- The kind of a value as a text. -/
def kindName : Function := fun argument =>
  .ok (.text (match argument.kind with
    | .text => "string"
    | .float => "float"
    | .int => "int"
    | .boolean => "boolean"
    | .tuple => "tuple"
    | .empty => "empty"))

/-- Whether a number has full precision. -/
def isNormal (value : Float) : Bool :=
  let exponent := value.toBits.toNat / Width.count 52 % Width.count 11
  exponent != 0 && exponent != Width.count 11 - 1

/-- The functions with their names. -/
def all : List (String × Function) := [
  ("math::ln", ofFloat Float.log),
  ("math::log", ofFloats fun value base => value.log / base.log),
  ("math::log2", ofFloat Float.log2),
  ("math::log10", ofFloat Float.log10),
  ("math::exp", ofFloat Float.exp),
  ("math::exp2", ofFloat Float.exp2),
  ("math::pow", ofFloats Float.pow),
  ("math::cos", ofFloat Float.cos),
  ("math::acos", ofFloat Float.acos),
  ("math::cosh", ofFloat Float.cosh),
  ("math::acosh", ofFloat Decimal.inverseHyperbolicCosine),
  ("math::sin", ofFloat Float.sin),
  ("math::asin", ofFloat Float.asin),
  ("math::sinh", ofFloat Float.sinh),
  ("math::asinh", ofFloat Decimal.inverseHyperbolicSine),
  ("math::tan", ofFloat Float.tan),
  ("math::atan", ofFloat Float.atan),
  ("math::tanh", ofFloat Float.tanh),
  ("math::atanh", ofFloat Decimal.inverseHyperbolicTangent),
  ("math::atan2", ofFloats Float.atan2),
  ("math::sqrt", ofFloat Float.sqrt),
  ("math::cbrt", ofFloat Decimal.cubeRoot),
  ("math::hypot", ofFloats Decimal.hypotenuse),
  ("math::is_nan", asksFloat Float.isNaN),
  ("math::is_finite", asksFloat Float.isFinite),
  ("math::is_infinite", asksFloat Float.isInf),
  ("math::is_normal", asksFloat isNormal),
  ("math::abs", magnitude),
  ("floor", ofFloat Float.floor),
  ("round", ofFloat Float.round),
  ("ceil", ofFloat Float.ceil),
  ("typeof", kindName),
  ("min", minimum),
  ("max", maximum),
  ("if", choose),
  ("contains", contains),
  ("contains_any", containsAny),
  ("len", length),
  ("str::to_lowercase", ofText Text.lowerCase),
  ("str::to_uppercase", ofText Text.upperCase),
  ("str::trim", ofText Text.trimmed),
  ("str::from", fun argument => .ok (.text argument.asText)),
  ("str::substring", substring),
  ("bitand", ofBitPairs fun first second => first &&& second),
  ("bitor", ofBitPairs fun first second => first ||| second),
  ("bitxor", ofBitPairs fun first second => first ^^^ second),
  ("bitnot", ofBits fun value => ~~~value),
  ("shl", ofBitPairs fun value amount => value <<< amount),
  ("shr", ofBitPairs fun value amount => value >>> amount)]

/-- The function of a name. -/
def named? (name : String) : Option Function := all.lookup name

end Function

end Vetting.Formula
