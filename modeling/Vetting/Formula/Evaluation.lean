import Vetting.Formula.Tree
import Vetting.Formula.Function
import Vetting.Scope.Names
import Vetting.Width

/-!
Contract: the value of an expression.

Owns:
- the meaning of each operator;
- the value of a tree, given the visible names;
- the verdict of an expression: true, false, or why it has no answer.

Does not own: which names are visible.

All operands are evaluated before an operator is applied, from left to right;
`&&` and `||` skip nothing.  The first fault ends the evaluation.
-/

namespace Vetting.Formula

open Scope (Names)

/-- An operand of `+` or of a comparison. -/
private def numberOrText (value : Value) : Except Fault Unit :=
  match value with
  | .text _ | .float _ | .int _ => .ok ()
  | other => .error (.expectedNumberOrText other)

/-- An integer result, if it has 64 bits. -/
private def checked (operation : Arithmetic) (first second : Int) (result : Option Int) :
    Except Fault Value :=
  match result with
  | some value =>
    if fits value then .ok (.int value)
    else .error (.overflow operation (.int first) (.int second))
  | none => .error (.overflow operation (.int first) (.int second))

/-- Arithmetic on two integers, or on two numbers as floats. -/
private def arithmetic (operation : Arithmetic) (first second : Value) : Except Fault Value := do
  let left ← first.toNumber
  let right ← second.toNumber
  match first, second with
  | .int a, .int b =>
    checked operation a b (match operation with
      | .add => some (a + b)
      | .subtract => some (a - b)
      | .multiply => some (a * b)
      | .divide => if b = 0 then none else some (a.tdiv b)
      | .remainder => if b = 0 ∨ (a = Width.leastInt 64 ∧ b = -1) then none else some (a.tmod b))
  | _, _ =>
    return .float (match operation with
      | .add => left + right
      | .subtract => left - right
      | .multiply => left * right
      | .divide => left / right
      | .remainder => Decimal.remainder left right)

/-- The sum of two numbers, or two texts one after the other. -/
private def sum (first second : Value) : Except Fault Value := do
  numberOrText first
  numberOrText second
  match first, second with
  | .text a, .text b => return .text (a ++ b)
  | .text _, _ | _, .text _ => .error (.unaddable [first.kind, second.kind])
  | _, _ => arithmetic .add first second

/-- The answer of a comparison of two texts, two integers, or two numbers as floats. -/
private def comparison (texts : String → String → Bool) (ints : Int → Int → Bool)
    (floats : Float → Float → Bool) (first second : Value) : Except Fault Value := do
  numberOrText first
  numberOrText second
  match first, second with
  | .text a, .text b => return .boolean (texts a b)
  | .int a, .int b => return .boolean (ints a b)
  | _, _ =>
    let left ← first.toNumber
    let right ← second.toNumber
    return .boolean (floats left right)

/-- The operands of an operator that takes two. -/
private def two (operands : List Value) (apply : Value → Value → Except Fault Value) :
    Except Fault Value :=
  match operands with
  | [first, second] => apply first second
  | other => .error (.wrongOperandCount 2 other.length)

/-- The operand of an operator that takes one. -/
private def one (operands : List Value) (apply : Value → Except Fault Value) : Except Fault Value :=
  match operands with
  | [operand] => apply operand
  | other => .error (.wrongOperandCount 1 other.length)

/-- The result of an operator on the values of its operands. -/
def Operator.apply (names : Names) (operator : Operator) (operands : List Value) :
    Except Fault Value :=
  match operator with
  | .group => .ok (operands.headD .empty)
  | .add => two operands sum
  | .sub => two operands (arithmetic .subtract)
  | .mul => two operands (arithmetic .multiply)
  | .div => two operands (arithmetic .divide)
  | .mod => two operands (arithmetic .remainder)
  | .neg => one operands fun operand => do
    let number ← operand.toNumber
    match operand with
    | .int value =>
      if fits (-value) then return .int (-value) else .error (.negationOverflow operand)
    | _ => return .float (-number)
  | .exp => two operands fun first second => do
    let base ← first.toNumber
    return .float (base.pow (← second.toNumber))
  | .eq => two operands fun first second => .ok (.boolean (first.same second))
  | .neq => two operands fun first second => .ok (.boolean (!first.same second))
  | .gt => two operands
    (comparison (fun a b => decide (b < a)) (fun a b => decide (b < a)) (fun a b => decide (a > b)))
  | .lt => two operands
    (comparison (fun a b => decide (a < b)) (fun a b => decide (a < b)) (fun a b => decide (a < b)))
  | .geq => two operands
    (comparison (fun a b => !decide (a < b)) (fun a b => decide (b ≤ a))
      (fun a b => decide (a ≥ b)))
  | .leq => two operands
    (comparison (fun a b => !decide (b < a)) (fun a b => decide (a ≤ b))
      (fun a b => decide (a ≤ b)))
  | .and => two operands fun first second => do
    let left ← first.toBoolean
    let right ← second.toBoolean
    return .boolean (left && right)
  | .or => two operands fun first second => do
    let left ← first.toBoolean
    let right ← second.toBoolean
    return .boolean (left || right)
  | .not => one operands fun operand => do return .boolean (!(← operand.toBoolean))
  | .assign _ => .error .assignment
  | .tuple => .ok (.tuple operands)
  | .chain => match operands.getLast? with
    | some last => .ok last
    | none => .error (.wrongOperandCount 1 0)
  | .constant value => .ok value
  | .target name => .ok (.text name)
  | .variable name => match Dictionary.lookup? name names with
    | some value => .ok (Value.ofJson value)
    | none => .error (.unknownVariable name)
  | .call name => one operands fun argument =>
    match Function.named? name with
    | some function => function argument
    | none => .error (.unknownFunction name)

mutual

/-- The value of a tree. -/
def Tree.value (names : Names) : Tree → Except Fault Value
  | .node operator operands => do operator.apply names (← valuesOf names operands).reverse

/-- The values of operands that are listed newest first, in the same order; the oldest one is
evaluated first. -/
def valuesOf (names : Names) : List Tree → Except Fault (List Value)
  | [] => .ok []
  | newest :: older => do
    let values ← valuesOf names older
    return (← newest.value names) :: values

end

/-- Why an expression has no verdict. -/
inductive VerdictFault where
  | parse (detail : String)
  | unknownIdentifier (name : String)
  | runtime (detail : String)
  | notBoolean (detail : String)
  | timeout (milliseconds : Nat)
  | unavailable (detail : String)
deriving DecidableEq, Inhabited

def VerdictFault.message : VerdictFault → String
  | .parse detail => "parse error: " ++ detail
  | .unknownIdentifier name => "unknown identifier '" ++ name ++ "'"
  | .runtime detail => "evaluation error: " ++ detail
  | .notBoolean detail => "expression did not evaluate to a boolean (got " ++ detail ++ ")"
  | .timeout milliseconds => "evaluation timed out after " ++ toString milliseconds ++ " ms"
  | .unavailable detail => "evaluator unavailable: " ++ detail

/-- What came of one evaluation. -/
inductive Attempt where
  /-- An answer after so many milliseconds. -/
  | answered (milliseconds : Nat) (answer : Except VerdictFault Bool)
  /-- The evaluation broke down. -/
  | brokeDown

/-- The answer within a time limit.  A limit of zero is passed before anything can be noticed. -/
def Attempt.within (limit : Nat) : Attempt → Except VerdictFault Bool
  | .answered milliseconds answer =>
    if milliseconds < limit then answer else .error (.timeout limit)
  | .brokeDown =>
    .error (if limit = 0 then .timeout limit
      else .unavailable "evaluation thread terminated abnormally")

/-- Evaluates an expression under visible names. -/
abbrev Evaluator : Type := String → Names → Attempt

/-- The evaluator of the expression language. -/
def evaluator : Evaluator := fun expression names =>
  match parse expression with
  | .error fault => .answered 0 (.error (.parse fault.message))
  | .ok tree =>
    match tree.value names with
    | .ok (.boolean answer) => .answered 0 (.ok answer)
    | .ok other => .answered 0 (.error (.notBoolean other.shown))
    | .error .breakdown => .brokeDown
    | .error (.unknownVariable name) => .answered 0 (.error (.unknownIdentifier name))
    | .error (.unknownFunction name) => .answered 0 (.error (.unknownIdentifier name))
    | .error fault => .answered 0 (.error (.runtime fault.message))

end Vetting.Formula
