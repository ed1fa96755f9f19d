import Vetting.Store.Request

/-!
Contract: what may happen beside a program that is rehearsed.

Owns:
- outages of single kinds of store requests;
- effects: outages, broken writes, and what other workers and operators do to a
  run in the meantime.

Does not own: when an effect happens, and what it does to a scene.
-/

namespace Vetting.Rehearsal

/-- Requests of one kind that fail with a fault. -/
structure Outage where
  fault : EngineFault
  /-- How many requests still come through. -/
  skip : Nat
  /-- How many requests then fail; all of them if there is no number. -/
  times? : Option Nat
deriving Inhabited

namespace Outage

/-- The fault of the next request, if it fails, and the outage after it. -/
def next (outage : Outage) : Option EngineFault × Outage :=
  match outage.skip, outage.times? with
  | skip + 1, _ => (none, { outage with skip })
  | 0, none => (some outage.fault, outage)
  | 0, some 0 => (none, outage)
  | 0, some (times + 1) => (some outage.fault, { outage with times? := some times })

end Outage

/-- Something that happens beside a program. -/
inductive Effect where
  /-- Writes fail from now on, or no longer fail. -/
  | failWrites (on : Bool)
  | breakRequests (kind : StoreRequest.Kind) (outage : Outage)
  | mendRequests (kind : StoreRequest.Kind)
  /-- From now on, or no longer, another worker begins a step again as soon as it has been found. -/
  | race (on : Bool)
  /-- Somebody asks to cancel the run. -/
  | flagCancel
  /-- Another worker closes the run. -/
  | closeRun (status : RunStatus) (error : Option String)
  /-- Another worker ends the steps that are running. -/
  | finishSteps (status : StepStatus) (error : Option String)
deriving Inhabited

end Vetting.Rehearsal
