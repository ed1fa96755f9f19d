import Vetting.Formula.Value

/-!
Contract: why an expression cannot be parsed or evaluated.

Owns:
- the causes and their wording.

Does not own: when a cause arises.
-/

namespace Vetting.Formula

/-- Arithmetic that leaves the 64-bit integers. -/
inductive Arithmetic where
  | add
  | subtract
  | multiply
  | divide
  | remainder
deriving DecidableEq

inductive Fault where
  /-- A character that forms an operator only together with the next one. -/
  | halfOperator (mark : String) (next : Option String)
  | illegalEscape (text : String)
  | unclosedText
  | unclosedComment
  | unopenedParenthesis
  | unclosedParenthesis
  | juxtaposedParenthesis
  | appendedToLeaf
  | unknownVariable (name : String)
  | unknownFunction (name : String)
  | wrongOperandCount (expected actual : Nat)
  | overflow (operation : Arithmetic) (first second : Value)
  | negationOverflow (operand : Value)
  | assignment
  | expectedBoolean (actual : Value)
  | expectedNumber (actual : Value)
  | expectedNumberOrText (actual : Value)
  | expectedInt (actual : Value)
  | expectedText (actual : Value)
  | expectedTuple (actual : Value)
  | expectedTupleOf (length : Nat) (actual : Value)
  | expectedTupleBetween (least greatest : Nat) (actual : Value)
  | expectedKind (kinds : List Kind) (actual : Value)
  | unaddable (kinds : List Kind)
  | outOfBounds
  /-- The evaluation broke down instead of giving an answer. -/
  | breakdown
deriving Inhabited

namespace Fault

private def kindList (kinds : List Kind) : String :=
  "[" ++ Text.joined ", " (kinds.map Kind.name) ++ "]"

private def expected (what : String) (actual : Value) : String :=
  "Expected " ++ what ++ ", but got " ++ actual.detailed ++ "."

def message : Fault → String
  | .halfOperator mark none =>
    "Found a partial token '" ++ mark ++ "' that should be followed by another partial token."
  | .halfOperator mark (some next) =>
    "Found a partial token '" ++ mark ++ "' that should not be followed by '" ++ next ++ "'."
  | .illegalEscape text => "Illegal escape sequence: " ++ text
  | .unclosedText => "Found an unmatched double quote '\"'"
  | .unclosedComment => "Error: unmatched inline comment"
  | .unopenedParenthesis => "Found an unmatched closing parenthesis ')'."
  | .unclosedParenthesis => "Found an unmatched opening parenthesis '('."
  | .juxtaposedParenthesis =>
    "Found an opening parenthesis that is preceded by something that does not take any " ++
    "arguments on the right, or found a closing parenthesis that is succeeded by something " ++
    "that does not take any arguments on the left."
  | .appendedToLeaf => "Tried to append a node to a leaf node."
  | .unknownVariable name =>
    "Variable identifier is not bound to anything by context: " ++ Text.quoted name ++ "."
  | .unknownFunction name =>
    "Function identifier is not bound to anything by context: " ++ Text.quoted name ++ "."
  | .wrongOperandCount expected actual =>
    "An operator expected " ++ toString expected ++ " arguments, but got " ++ toString actual ++ "."
  | .overflow operation first second =>
    let (verb, sign) := match operation with
      | .add => ("adding", "+")
      | .subtract => ("subtracting", "-")
      | .multiply => ("multiplying", "*")
      | .divide => ("dividing", "/")
      | .remainder => ("modulating", "%")
    "Error " ++ verb ++ " " ++ first.shown ++ " " ++ sign ++ " " ++ second.shown
  | .negationOverflow operand => "Error negating -" ++ operand.shown
  | .assignment => "Cannot manipulate context"
  | .expectedBoolean actual => expected "a Value::Boolean" actual
  | .expectedNumber actual => expected "a Value::Float or Value::Int" actual
  | .expectedNumberOrText actual => expected "a Value::Number or a Value::String" actual
  | .expectedInt actual => expected "a Value::Int" actual
  | .expectedText actual => expected "a Value::String" actual
  | .expectedTuple actual => expected "a Value::Tuple" actual
  | .expectedTupleOf length actual =>
    expected ("a Value::Tuple of length " ++ toString length) actual
  | .expectedTupleBetween least greatest actual =>
    expected ("a Value::Tuple of length " ++ toString least ++ " to " ++ toString greatest)
      actual
  | .expectedKind kinds actual => expected ("one of " ++ kindList kinds) actual
  | .unaddable kinds =>
    "The operator Add was called with a wrong combination of types: " ++ kindList kinds
  | .outOfBounds => "Tried to access a tuple or string at an invalid index"
  | .breakdown => "evaluation thread terminated abnormally"

end Fault

end Vetting.Formula
