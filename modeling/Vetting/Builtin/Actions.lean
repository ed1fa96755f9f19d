import Vetting.Execution.Plugin

/-!
Contract: the actions that come with the engine.

Owns:
- publishing signals;
- requiring a signal of an earlier step;
- the registry of both.

Does not own: how signals reach later steps.
-/

namespace Vetting.Builtin

open Json (Value)

/-- An action. -/
abbrev Action : Type := ActionContext → Except EngineFault ActionOutcome

/-- Publishes the signals that the parameters name. -/
def emitSignals : Action := fun context => do
  let signals ← match context.params.get? "signals" with
    | some (.object signals) => pure signals
    | some _ => throw (.configuration "emit_signals: 'signals' must be an object")
    | none => pure []
  return ⟨true, context.params.field? "message" Value.asText?, signals⟩

private def textParameter (context : ActionContext) (name : String) :
    Except EngineFault String :=
  match context.params.field? name Value.asText? with
  | some text => .ok text
  | none => .error (.configuration ("require_signal: missing '" ++ name ++ "' parameter"))

/-- Fails unless an earlier step has left a signal, with the expected value if there is one. -/
def requireSignal : Action := fun context => do
  let step ← textParameter context "step"
  let signal ← textParameter context "signal"
  let actual? := (Dictionary.lookup? step context.signals).bind (Dictionary.lookup? signal)
  let title := "Signal '" ++ step ++ "." ++ signal ++ "'"
  match actual?, context.params.get? "equals" with
  | none, _ => return ⟨false, some (title ++ " was not produced."), []⟩
  | some actual, some expected =>
    if actual.same expected then return ⟨true, none, []⟩
    else
      let message := title ++ " is " ++ actual.compact ++ ", expected " ++ expected.compact ++ "."
      return ⟨false, some message, []⟩
  | some _, none => return ⟨true, none, []⟩

/-- The actions by type. -/
def actionTable : Dictionary Action := [
  ("emit_signals", emitSignals),
  ("require_signal", requireSignal)]

/-- The registry of the actions that come with the engine. -/
def actions : ActionRegistry := Dictionary.keys actionTable

/-- Runs the action of a type. -/
def act (type : String) (context : ActionContext) : Except EngineFault ActionOutcome :=
  match Dictionary.lookup? type actionTable with
  | some action => action context
  | none => .error (.configuration ("action type '" ++ type ++ "' is not registered"))

end Vetting.Builtin
