import Vetting.Uuid

/-!
Contract: why an operation of the engine fails.

Owns:
- the causes, their wording and their JSON form;
- classes of causes.

Does not own: which causes a step or a run survives.
-/

namespace Vetting

open Json (Value Shape)

/-- Why an operation of the engine fails. -/
inductive EngineFault where
  | configuration (detail : String)
  | execution (detail : String)
  | assertionEvaluation (detail : String)
  | evaluatorUnavailable (detail : String)
  | invalidTransition (source target : String)
  | runNotFound (id : Uuid)
  | stepRunNotFound (id : Uuid)
  | submissionNotFound (id : Uuid)
  | storage (detail : String)
  | internal (detail : String)
deriving DecidableEq, Inhabited

/-- Classes of causes. -/
inductive FaultClass where
  | configuration
  | execution
  | validation
  | transient
  | internal
deriving DecidableEq, Inhabited, Repr

def FaultClass.name : FaultClass → String
  | .configuration => "configuration"
  | .execution => "execution"
  | .validation => "validation"
  | .transient => "transient"
  | .internal => "internal"

namespace EngineFault

def message : EngineFault → String
  | .configuration detail => "configuration error: " ++ detail
  | .execution detail => "execution error: " ++ detail
  | .assertionEvaluation detail => "assertion evaluation error: " ++ detail
  | .evaluatorUnavailable detail => "expression evaluator unavailable: " ++ detail
  | .invalidTransition source target =>
    "invalid status transition: " ++ source ++ " -> " ++ target
  | .runNotFound id => "run not found: " ++ id.text
  | .stepRunNotFound id => "step run not found: " ++ id.text
  | .submissionNotFound id => "submission not found: " ++ id.text
  | .storage detail => "storage error: " ++ detail
  | .internal detail => "internal: " ++ detail

def faultClass : EngineFault → FaultClass
  | .configuration _ => .configuration
  | .execution _ => .execution
  | .assertionEvaluation _ | .invalidTransition _ _ => .validation
  | .storage _ => .transient
  | _ => .internal

/-- The name of the cause. -/
def name : EngineFault → String
  | .configuration _ => "Configuration"
  | .execution _ => "Execution"
  | .assertionEvaluation _ => "AssertionEvaluation"
  | .evaluatorUnavailable _ => "EvaluatorUnavailable"
  | .invalidTransition _ _ => "InvalidTransition"
  | .runNotFound _ => "RunNotFound"
  | .stepRunNotFound _ => "StepRunNotFound"
  | .submissionNotFound _ => "SubmissionNotFound"
  | .storage _ => "Storage"
  | .internal _ => "Internal"

def shape : Shape := Shape.union [
  Shape.wrapping "Configuration" Shape.text,
  Shape.wrapping "Execution" Shape.text,
  Shape.wrapping "AssertionEvaluation" Shape.text,
  Shape.wrapping "EvaluatorUnavailable" Shape.text,
  Shape.withFields "InvalidTransition" "struct variant EngineError::InvalidTransition" [
    Shape.required "from" Shape.text,
    Shape.required "to" Shape.text],
  Shape.wrapping "RunNotFound" Uuid.shape,
  Shape.wrapping "StepRunNotFound" Uuid.shape,
  Shape.wrapping "SubmissionNotFound" Uuid.shape,
  Shape.wrapping "Storage" Shape.text,
  Shape.wrapping "Internal" Shape.text]

private def heldValue : EngineFault → Value
  | .configuration detail | .execution detail | .assertionEvaluation detail
  | .evaluatorUnavailable detail | .storage detail | .internal detail => .text detail
  | .invalidTransition source target => .object [("from", .text source), ("to", .text target)]
  | .runNotFound id | .stepRunNotFound id | .submissionNotFound id => id.toValue

def toValue (fault : EngineFault) : Value := .object [(fault.name, fault.heldValue)]

def ofValue? : Value → Option EngineFault
  | .object [("Configuration", .text detail)] => some (.configuration detail)
  | .object [("Execution", .text detail)] => some (.execution detail)
  | .object [("AssertionEvaluation", .text detail)] => some (.assertionEvaluation detail)
  | .object [("EvaluatorUnavailable", .text detail)] => some (.evaluatorUnavailable detail)
  | .object [("InvalidTransition", held)] => do
    return .invalidTransition (← held.field? "from" Value.asText?)
      (← held.field? "to" Value.asText?)
  | .object [("RunNotFound", held)] => (Uuid.ofValue? held).map .runNotFound
  | .object [("StepRunNotFound", held)] => (Uuid.ofValue? held).map .stepRunNotFound
  | .object [("SubmissionNotFound", held)] => (Uuid.ofValue? held).map .submissionNotFound
  | .object [("Storage", .text detail)] => some (.storage detail)
  | .object [("Internal", .text detail)] => some (.internal detail)
  | _ => none

instance : Json.Documented EngineFault := ⟨shape, ofValue?, toValue⟩

end EngineFault

end Vetting
