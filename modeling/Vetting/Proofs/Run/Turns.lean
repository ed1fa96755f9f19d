import Vetting.Proofs.Program.Interleaving
import Vetting.Proofs.Run.Example
import Vetting.Proofs.Run.Executing
import Vetting.Proofs.Run.Recordkeeping

/-!
Contract: programs that keep step runs in order and take turns.

Owns:
- what a turn tells about a step run, and whether it changes it;
- `Interplay`: the tables of the store agree, and what anybody has seen is there;
- that every turn leaves this so, and what it does to the step runs;
- executions of runs as programs that take turns, and those of the example.

Does not own: what is left of one step run (`Vetting.Proofs.Run.Supersession` and
`Vetting.Proofs.Run.Waiting`).
-/

namespace Vetting

namespace Execution

section Turns

variable {ι : Type}

def Turn.notice? (turn : Turn ι) : Option Notice := turn.request.notice? turn.answer

/-- The one whose turn it is has been told of the step run. -/
def Turn.Tells (turn : Turn ι) (id : Uuid) : Prop :=
  turn.notice?.map (fun notice => notice.stepRun.id) = some id

def Turn.Begins (turn : Turn ι) (id : Uuid) : Prop :=
  (turn.notice?.bind Notice.begun?).map StepRun.id = some id

def Turn.Writes (turn : Turn ι) (id : Uuid) : Prop :=
  (turn.notice?.bind Notice.written?).map StepRun.id = some id

/-- The step run has been begun or written. -/
def Turn.Changes (turn : Turn ι) (id : Uuid) : Prop :=
  (turn.notice?.bind Notice.change?).map StepRun.id = some id

instance (turn : Turn ι) (id : Uuid) : Decidable (turn.Tells id) :=
  inferInstanceAs (Decidable (_ = _))

instance (turn : Turn ι) (id : Uuid) : Decidable (turn.Begins id) :=
  inferInstanceAs (Decidable (_ = _))

instance (turn : Turn ι) (id : Uuid) : Decidable (turn.Writes id) :=
  inferInstanceAs (Decidable (_ = _))

instance (turn : Turn ι) (id : Uuid) : Decidable (turn.Changes id) :=
  inferInstanceAs (Decidable (_ = _))

theorem Turn.Begins.changes {turn : Turn ι} {id : Uuid} (begins : turn.Begins id) :
    turn.Changes id := by
  obtain ⟨stepRun, begun, rfl⟩ := Option.map_eq_some_iff.mp begins
  obtain ⟨notice, isNotice, begun⟩ := Option.bind_eq_some_iff.mp begun
  rw [Turn.Changes, isNotice]
  cases notice <;> cases begun
  rfl

/-- Only who is told of a step run changes it. -/
theorem Turn.Changes.tells {turn : Turn ι} {id : Uuid} (changes : turn.Changes id) :
    turn.Tells id := by
  obtain ⟨stepRun, change, rfl⟩ := Option.map_eq_some_iff.mp changes
  obtain ⟨notice, isNotice, change⟩ := Option.bind_eq_some_iff.mp change
  rw [Turn.Tells, isNotice, Option.map_some, Notice.stepRun_of_change? change]

end Turns

/-! ### What every turn leaves as it should be -/

section Interplay

variable {ι : Type} {known : Uuid → Prop} {states : ι → Sight} {world after : World}

/-- The tables of the store agree, and what anybody has seen is there. -/
structure Interplay (known : Uuid → Prop) (states : ι → Sight) (world : World) : Prop where
  coherent : world.store.Coherent
  borneOut : ∀ who, (states who).BorneOut known world.store

theorem Interplay.start (coherent : world.store.Coherent) :
    Interplay world.store.HasRun (fun _ : ι => Sight.blank) world :=
  ⟨coherent, fun _ => Sight.borneOut_blank world.store⟩

theorem Interplay.withFailing (interplay : Interplay known states world) (failing : Bool) :
    Interplay known states (world.withFailing failing) where
  coherent := interplay.coherent.congr rfl rfl rfl rfl
  borneOut := fun who =>
    ⟨(interplay.borneOut who).runs, (interplay.borneOut who).shown, (interplay.borneOut who).found⟩

theorem Interplay.turn [DecidableEq ι] {mayAnswer : (request : Request) → request.Answer → Prop}
    (interplay : Interplay known states world) (who : ι) {request : Request}
    {answer : request.Answer} (may : (states who).May mayAnswer known request)
    (answers : world.Answers mayAnswer request answer after) :
    Credible mayAnswer known request answer ∧
      (states who).Does mayAnswer world.store (request.notice? answer) after.store ∧
      Interplay known
        (Function.update states who ((states who).noting (request.notice? answer))) after := by
  obtain ⟨credible, coherent, does, borneOut, others⟩ :=
    (interplay.borneOut who).turned interplay.coherent may answers
  refine ⟨credible, does, coherent, fun other => ?_⟩
  by_cases same : other = who
  · subst same
    rw [Function.update_self]
    exact borneOut
  · rw [Function.update_of_ne same]
    exact others _ (interplay.borneOut other)

end Interplay

/-- Executions of runs, each from its first step or from a given order on. -/
def executions {ι : Type} (equipment : Equipment) (runId : ι → Uuid)
    (resumeFrom : ι → Option Int) (who : ι) : Program (Except EngineFault RunOutcome) :=
  (execute equipment (runId who) (resumeFrom who)).run

end Execution

/-! ### Executions of the example -/

namespace Example

open Execution

theorem unbegun_world (id : Uuid) : world.store.stepRuns.get? id = none := rfl

/-- What an execution makes of the progress of the run. -/
def conclude : Except Interruption Progress → Job RunOutcome
  | .ok .completed => closeRun run.id .succeeded none
  | .ok (.failed error) => closeRun run.id .failed error
  | .ok .canceled => closeRun run.id .canceled (some cancelMessage)
  | .ok .pending | .ok .yielded => currentOutcome run.id
  | .error interruption => failRun run.id interruption

def stepping (taken : List Step) : Program (Except EngineFault RunOutcome) :=
  (ExceptT.lift (takeSteps equipment (started run (World.stampOf 0).time) submission taken).run >>=
    conclude).run

/-- All steps are taken, from whatever order up to that of the first one. -/
theorem taken_steps {start : Int} (below : start ≤ 10) :
    (Run.inOrder (Run.inOrder steps)).filter (fun step => start ≤ step.order) = steps := by
  rw [inOrder_steps, inOrder_steps, List.filter_eq_self.mpr]
  intro step member
  have least : 10 ≤ step.order := by
    revert step
    decide
  exact decide_eq_true (Int.le_trans below least)

theorem stepping_steps {start : Int} (below : start ≤ 10) :
    stepping ((Run.inOrder (Run.inOrder steps)).filter fun step => start ≤ step.order) =
      stepping steps := by
  rw [taken_steps below]

/-- The first execution finds out that the run is to be carried out. -/
def firstEntry : Program (Except EngineFault RunOutcome) × World :=
  World.takeAlone (surroundings accepted) 6 (execute equipment run.id none).run world

theorem reaches_firstEntry : (execute equipment run.id none).run.Reaches
    (surroundings accepted).answers world (stepping steps) firstEntry.2 := by
  have least : leastOrder ≤ 10 := by decide
  rw [← stepping_steps least]
  exact World.reaches_takeAlone (surroundings accepted) 6 (execute equipment run.id none).run world

/-- The step run of the first step. -/
def stepId : Uuid := ⟨Store.firstNumber⟩

end Example

end Vetting
