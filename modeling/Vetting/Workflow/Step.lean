import Vetting.Rule.Assertion

/-!
Contract: the steps of a workflow.

Owns:
- validators, with their configuration and catalog;
- steps, which run a validator or an action;
- their JSON forms.

Does not own: what a validator or an action does.

The configuration of a validator and the parameters of an action are any JSON
values.
-/

namespace Vetting

open Json (Value Shape)
open Rule (CatalogEntry Ruleset)

/-- Which validator a step uses, and how. -/
structure Validator where
  type : String
  config : Value
  catalog : List CatalogEntry
deriving Inhabited

namespace Validator

def shape : Shape := Shape.record "struct Validator" [
  Shape.required "validator_type" Shape.text,
  Shape.defaulted "config" Shape.any .null,
  Shape.defaulted "catalog" (Shape.listOf CatalogEntry.shape) (.array [])]

def toValue (validator : Validator) : Value := .object [
  ("catalog", .array (validator.catalog.map CatalogEntry.toValue)),
  ("config", validator.config),
  ("validator_type", .text validator.type)]

def ofValue? (value : Value) : Option Validator := do
  return {
    type := ← value.field? "validator_type" Value.asText?
    config := ← value.fieldOr? "config" some .null
    catalog := ← value.fieldOr? "catalog" (Value.asList? CatalogEntry.ofValue?) [] }

instance : Json.Documented Validator := ⟨shape, ofValue?, toValue⟩

end Validator

/-- What a step does. -/
inductive StepKind where
  | validator (validator : Validator) (ruleset : Ruleset)
  | action (type : String) (params : Value)
deriving Inhabited

namespace StepKind

def shape : Shape := Shape.tagged "internally tagged enum StepKind" "type" [
  Shape.withFields "validator" "struct variant StepKind::Validator" [
    Shape.required "validator" Validator.shape,
    Shape.defaulted "ruleset" Ruleset.shape Ruleset.empty.toValue],
  Shape.withFields "action" "struct variant StepKind::Action" [
    Shape.required "action_type" Shape.text,
    Shape.defaulted "params" Shape.any .null]]

def toValue : StepKind → Value
  | .validator used ruleset => .object [
      ("ruleset", ruleset.toValue),
      ("type", .text "validator"),
      ("validator", used.toValue)]
  | .action name params => .object [
      ("action_type", .text name),
      ("params", params),
      ("type", .text "action")]

def ofValue? (value : Value) : Option StepKind := do
  match ← value.field? "type" Value.asText? with
  | "validator" =>
    return .validator (← value.field? "validator" Validator.ofValue?)
      (← value.fieldOr? "ruleset" Ruleset.ofValue? .empty)
  | "action" =>
    return .action (← value.field? "action_type" Value.asText?)
      (← value.fieldOr? "params" some .null)
  | _ => none

instance : Json.Documented StepKind := ⟨shape, ofValue?, toValue⟩

end StepKind

/-- A step of a workflow. -/
structure Step where
  /-- Steps are carried out in ascending order. -/
  order : Int
  key : String
  name : String
  kind : StepKind
deriving Inhabited

namespace Step

/-- The name, or the key of a step without one. -/
def displayName (step : Step) : String := if step.name.isEmpty then step.key else step.name

def shape : Shape := Shape.record "struct Step" [
  Shape.required "order" Shape.int32,
  Shape.required "key" Shape.text,
  Shape.defaulted "name" Shape.text (.text ""),
  Shape.required "kind" StepKind.shape]

def toValue (step : Step) : Value := .object [
  ("key", .text step.key),
  ("kind", step.kind.toValue),
  ("name", .text step.name),
  ("order", .integer step.order)]

def ofValue? (value : Value) : Option Step := do
  return {
    order := ← value.field? "order" Value.asInt32?
    key := ← value.field? "key" Value.asText?
    name := ← value.fieldOr? "name" Value.asText? ""
    kind := ← value.field? "kind" StepKind.ofValue? }

instance : Json.Documented Step := ⟨shape, ofValue?, toValue⟩

end Step

end Vetting
