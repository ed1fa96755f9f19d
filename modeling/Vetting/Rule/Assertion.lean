import Vetting.Rule.Comparison
import Vetting.Rule.Stage
import Vetting.Finding.Severity

/-!
Contract: assertions about the document of a stage.

Owns:
- rules, which are expressions or comparisons;
- assertions and rulesets, with their JSON forms;
- the stage an assertion belongs to, and its rule in words.

Does not own: checking assertions (`Vetting.Rule.Report`).
-/

namespace Vetting.Rule

open Json (Value Shape)

/-- What an assertion asks for. -/
inductive AssertionRule where
  | expression (text : String)
  | operator (rule : OperatorRule)
deriving Inhabited

namespace AssertionRule

def shape : Shape := Shape.tagged "internally tagged enum AssertionRule" "kind" [
  Shape.withFields "expression" "struct variant AssertionRule::Expression" [
    Shape.required "expr" Shape.text],
  Shape.wrapping "operator" OperatorRule.shape]

def toValue : AssertionRule → Value
  | .expression text => .object [("expr", .text text), ("kind", .text "expression")]
  | .operator rule => .object [
      ("kind", .text "operator"),
      ("op", rule.operator.toValue),
      ("target", .text rule.target),
      ("value", rule.value)]

def ofValue? (value : Value) : Option AssertionRule := do
  match ← value.field? "kind" Value.asText? with
  | "expression" => return .expression (← value.field? "expr" Value.asText?)
  | "operator" => return .operator (← OperatorRule.ofValue? value)
  | _ => none

/-- The rule in words. -/
def describe : AssertionRule → String
  | .expression text => text
  | .operator rule => rule.describe

instance : Json.Documented AssertionRule := ⟨shape, ofValue?, toValue⟩

end AssertionRule

/-- A rule about the document of a stage. -/
structure Assertion where
  id : String
  /-- Without a stage it is checked on the input. -/
  stage? : Option Stage
  /-- An expression; the assertion is passed over unless it holds. -/
  guard? : Option String
  rule : AssertionRule
  /-- How grave it is if the rule does not hold. -/
  severity : Severity
  /-- What to say if the rule does not hold; it may have placeholders. -/
  message? : Option String
deriving Inhabited

namespace Assertion

/-- An assertion without a stage, a guard and a message. -/
def plain (id : String) (rule : AssertionRule) : Assertion :=
  ⟨id, none, none, rule, .error, none⟩

def stage (assertion : Assertion) : Stage := assertion.stage?.getD .input

def describe (assertion : Assertion) : String := assertion.rule.describe

def shape : Shape := Shape.record "struct Assertion" [
  Shape.required "id" Shape.text,
  Shape.defaulted "stage" (Shape.optional Stage.shape) .null,
  Shape.defaulted "when" (Shape.optional Shape.text) .null,
  Shape.required "rule" AssertionRule.shape,
  Shape.defaulted "severity" Severity.shape Severity.error.toValue,
  Shape.defaulted "message" (Shape.optional Shape.text) .null]

def toValue (assertion : Assertion) : Value := .object [
  ("id", .text assertion.id),
  ("message", .optionalText assertion.message?),
  ("rule", assertion.rule.toValue),
  ("severity", assertion.severity.toValue),
  ("stage", .ofOption Stage.toValue assertion.stage?),
  ("when", .optionalText assertion.guard?)]

def ofValue? (value : Value) : Option Assertion := do
  return {
    id := ← value.field? "id" Value.asText?
    stage? := ← value.optionalField? "stage" Stage.ofValue?
    guard? := ← value.optionalField? "when" Value.asText?
    rule := ← value.field? "rule" AssertionRule.ofValue?
    severity := ← value.fieldOr? "severity" Severity.ofValue? .error
    message? := ← value.optionalField? "message" Value.asText? }

instance : Json.Documented Assertion := ⟨shape, ofValue?, toValue⟩

end Assertion

/-- The assertions of a step. -/
structure Ruleset where
  id? : Option String
  assertions : List Assertion
deriving Inhabited

namespace Ruleset

def empty : Ruleset := ⟨none, []⟩

def ofAssertions (assertions : List Assertion) : Ruleset := ⟨none, assertions⟩

/-- The assertions of a stage, in their order. -/
def ofStage (ruleset : Ruleset) (stage : Stage) : List Assertion :=
  ruleset.assertions.filter fun assertion => assertion.stage = stage

def shape : Shape := Shape.record "struct Ruleset" [
  Shape.defaulted "id" (Shape.optional Shape.text) .null,
  Shape.defaulted "assertions" (Shape.listOf Assertion.shape) (.array [])]

def toValue (ruleset : Ruleset) : Value := .object [
  ("assertions", .array (ruleset.assertions.map Assertion.toValue)),
  ("id", .optionalText ruleset.id?)]

def ofValue? (value : Value) : Option Ruleset := do
  return {
    id? := ← value.optionalField? "id" Value.asText?
    assertions := ← value.fieldOr? "assertions" (Value.asList? Assertion.ofValue?) [] }

instance : Json.Documented Ruleset := ⟨shape, ofValue?, toValue⟩

end Ruleset

end Vetting.Rule
