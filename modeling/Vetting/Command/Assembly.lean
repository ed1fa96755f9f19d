import Vetting.Backend.Selection
import Vetting.Builtin.Actions
import Vetting.Builtin.Validators
import Vetting.Execution.Memory

/-!
Contract: the parts of the application, put together as settings ask for.

Owns:
- the equipment of the engine: the checker, the plug-ins, the name of the backend;
- what plug-ins and the backend answer on a machine.

Does not own: the parts.
-/

namespace Vetting.Settings

open Execution (Equipment Surroundings)

def selectedBackend (settings : Settings) : SelectedBackend := .ofSettings settings.backend

def equipment (settings : Settings) : Equipment where
  checker := ⟨Formula.evaluator, settings.limits, settings.unambiguousKeys⟩
  validators := Builtin.validators
  actions := Builtin.actions
  backendName := settings.selectedBackend.name

/-- What surrounds the engine; each job is carried out under the identifier of its step run. -/
def surroundings (settings : Settings) (machine : SelectedBackend.Machine) : Surroundings where
  validate validator submission := Builtin.validate submission validator
  act := Builtin.act
  backendAvailable := settings.selectedBackend.isAvailable machine
  launch job := settings.selectedBackend.execute machine job.stepRunId 0 job

/-- The settings of an empty environment. -/
def standard : Settings := ⟨none, .standard, .standard, true⟩

end Vetting.Settings
