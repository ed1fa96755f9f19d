import Vetting.Workflow.Run
import Vetting.Workflow.Submission
import Vetting.Workflow.Fault
import Vetting.Scope.Names

/-!
Contract: validators and actions that can be plugged in.

Owns:
- what validators and actions are given and what they give back;
- validators that work at once and validators whose work is a job;
- registries of both by type.

Does not own: particular validators and actions.
-/

namespace Vetting

open Json (Value)

/-- What a validator finds. -/
structure ValidationOutcome where
  passed : Bool
  issues : List Issue
  signals : Dictionary Value
deriving Inhabited

/-- How a validator whose work is a job is set up, and what its outputs mean. -/
structure ExternalValidator where
  jobConfig : Validator → Value
  outputSignals : Envelope → Dictionary Value

/-- The job has the validator's configuration, and every output is a signal. -/
def ExternalValidator.plain : ExternalValidator where
  jobConfig := Validator.config
  outputSignals := Envelope.outputEntries

/-- How a validator works. -/
inductive ValidatorKind where
  | inline
  | external (validator : ExternalValidator)

/-- Validators by type; an entry may refuse a validator's configuration. -/
abbrev ValidatorRegistry : Type := Dictionary (Validator → Except EngineFault ValidatorKind)

/-- How the validator of a step works. -/
def ValidatorRegistry.resolve (registry : ValidatorRegistry) (validator : Validator) :
    Except EngineFault ValidatorKind :=
  match Dictionary.lookup? validator.type registry with
  | some resolve => resolve validator
  | none =>
    .error (.configuration ("validator type '" ++ validator.type ++ "' is not registered"))

/-- What an action is given. -/
structure ActionContext where
  runId : Uuid
  stepKey : String
  params : Value
  submission : Submission
  /-- The signals of earlier steps. -/
  signals : Scope.Signals
deriving Inhabited

/-- What comes of an action. -/
structure ActionOutcome where
  passed : Bool
  message : Option String
  signals : Dictionary Value
deriving Inhabited

/-- The types of the actions that can be run. -/
abbrev ActionRegistry : Type := List String

/-- Refuses an action of an unknown type. -/
def ActionRegistry.resolve (registry : ActionRegistry) (type : String) : Except EngineFault Unit :=
  if registry.contains type then .ok ()
  else .error (.configuration ("action type '" ++ type ++ "' is not registered"))

end Vetting
