import Vetting.Proofs.Run.Closing
import Vetting.Proofs.Run.Standing

/-!
Contract: the stages of a run.

Owns:
- the reports that verdicts and accepted jobs become, and norms that allow for every
  conclusion of a step;
- `Stage`: how the status of a run goes with its last step run;
- `Ready` and `Halted`: where taking steps may start, and how it comes to an end.

Does not own: that programs lead from one to the other (`Vetting.Proofs.Run.Driving`).
-/

namespace Vetting

open Execution (Verdict Conclusion StepContext Interim Concludes Progress Regime Equipment)
open Store (Rewrites Ends)

/-! ### Reports of conclusions -/

def Execution.Verdict.report (verdict : Verdict) (step : Step) : StepReport where
  key := step.key
  order := step.order
  status := verdict.status
  error := verdict.error
  output := { verdict.output with job? := none }
  issues := verdict.issues

def StepReport.waiting (step : Step) (output : StepOutput) (issues : List Issue) : StepReport where
  key := step.key
  order := step.order
  status := .running
  error := none
  output := { output with job? := none }
  issues

theorem reportOf_ends {before after : Store} {stepRun ended : StepRun} {verdict : Verdict}
    (ends : Ends before stepRun verdict ended after) {step : Step}
    (place : stepRun.place = step.place) : after.reportOf ended = verdict.report step := by
  obtain ⟨now, rfl⟩ := ends.record
  obtain ⟨findings, issues, rewrites⟩ := ends.rewrites
  have key : stepRun.stepKey = step.key := congrArg Prod.fst place
  have order : stepRun.stepOrder = step.order := congrArg Prod.snd place
  rw [Store.reportOf, rewrites.issuesOf_self, issues]
  simp only [StepRun.report, StepRun.ended, Verdict.report, key, order]

/-- Ending the last step run leaves the run standing, with the report of the verdict for that one and
the same reports of the others. -/
theorem Standing.ends {norm : Norm} {origin store after : Store} {run : Run}
    {settled : List StepRun} {stepRun ended : StepRun} {verdict : Verdict} {step : Step}
    (standing : Standing norm origin run store settled (some stepRun))
    (ends : Ends store stepRun verdict ended after) (place : stepRun.place = step.place) :
    Standing norm origin run after settled (some ended) ∧
      settled.map after.reportOf = settled.map store.reportOf ∧
      after.reportOf ended = verdict.report step := by
  obtain ⟨now, record⟩ := ends.record
  obtain ⟨findings, _, rewrites⟩ := ends.rewrites
  have samePlace : ended.place = stepRun.place := by rw [record]; rfl
  exact ⟨standing.rewrite rewrites ends.id (by rw [record]; rfl) samePlace,
    standing.reports_settled rewrites ends.id, reportOf_ends ends place⟩

theorem reportOf_leaving {before after : Store} {stepRun : StepRun} {output : StepOutput}
    {findings : List Finding}
    (rewrites : Rewrites before (stepRun.leaving output) findings after) {step : Step}
    (place : stepRun.place = step.place) (running : stepRun.status = .running)
    (clear : stepRun.error = none) :
    after.reportOf (stepRun.leaving output) =
      .waiting step output (findings.map Finding.issue) := by
  have key : stepRun.stepKey = step.key := congrArg Prod.fst place
  have order : stepRun.stepOrder = step.order := congrArg Prod.snd place
  rw [Store.reportOf, rewrites.issuesOf_self]
  simp only [StepRun.report, StepRun.leaving, StepReport.waiting, key, order, running, clear]

theorem Run.Keeps.orderedSteps {run later : Run} (keeps : run.Keeps later) :
    later.orderedSteps = run.orderedSteps := by
  rw [Run.orderedSteps, keeps.steps, Run.orderedSteps]

theorem Run.Keeps.wellOrdered {run later : Run} (keeps : run.Keeps later)
    (ordered : run.WellOrdered) : later.WellOrdered := by
  rw [Run.WellOrdered, keeps.steps]
  exact ordered

theorem Standing.close {norm : Norm} {origin store : Store} {run closed : Run}
    {settled : List StepRun} {current : Option StepRun} {status : RunStatus}
    {error : Option String} (standing : Standing norm origin run store settled current)
    (closes : run.Closes status error closed) :
    Standing norm origin closed (store.withRun closed) settled current :=
  standing.withRun closes.id closes.steps

namespace Norm

/-- The norm allows for what a step that was found with an output has come to. -/
def Allows (norm : Norm) (earlier : List StepReport) (step : Step) (output : StepOutput) :
    Conclusion → Prop
  | .ended verdict =>
    (verdict.status = .passed → norm.passes earlier step (verdict.report step)) ∧
    (verdict.status = .failed → norm.fails earlier step (verdict.report step) verdict.error)
  | .pending left issues =>
    left.awaitsJob = true ∧ norm.waits earlier step (.waiting step left issues)
  | .faulted fault =>
    norm.fails earlier step ((Verdict.unexpected [] fault output).report step)
      (some Execution.genericFailure)

/-- Whatever is answered, steps of a run come to what the norm allows for. -/
structure Sound (norm : Norm) (regime : Regime) (equipment : Equipment) (runId : Uuid)
    (submission : Submission) : Prop where
  cutOff : ∀ context output, context.submission = submission →
    Interim regime.mayAnswer equipment context output → norm.cutOff context.step output
  allows : ∀ context earlier conclusion, context.run.id = runId →
    context.submission = submission → context.signals = signalsOf earlier →
    (context.stepRun.output = .empty ∨ norm.cutOff context.step context.stepRun.output) →
    (∀ first, norm.numbering = some first → context.stepRun.id.number = first + earlier.length) →
    Concludes regime.mayAnswer equipment context [] conclusion →
    norm.Allows earlier context.step context.stepRun.output conclusion

end Norm

/-! ### Stages -/

/-- Stages that a run goes through. -/
inductive Phase where
  | fresh
  /-- No step is at work. -/
  | between
  /-- A step waits for its job. -/
  | waiting
  | working
  /-- A step has failed, and the run is about to be closed. -/
  | failing
  | succeeded
  | failed
  /-- The run has failed because its submission is missing. -/
  | lost
  | canceled
deriving DecidableEq

/-- Stages in which a run is left by an execution. -/
def Phase.isRest : Phase → Bool
  | .waiting | .succeeded | .failed | .lost | .canceled => true
  | .fresh | .between | .working | .failing => false

/-- How the status of a run goes with its last step run, if that one is not settled. -/
inductive Stage (norm : Norm) (run : Run) (store : Store) (settled : List StepRun) :
    Phase → Option StepRun → Prop
  | fresh (status : run.status = .pending) (untouched : settled = []) :
    Stage norm run store settled .fresh none
  | between (status : run.status = .running) : Stage norm run store settled .between none
  | waiting {step : Step} {stepRun : StepRun} (status : run.status = .running)
      (isStep : run.orderedSteps[settled.length]? = some step)
      (running : stepRun.status = .running) (awaits : stepRun.awaitsJob = true)
      (waits : norm.waits (settled.map store.reportOf) step (store.reportOf stepRun)) :
    Stage norm run store settled .waiting (some stepRun)
  | working {step : Step} {stepRun : StepRun} (status : run.status = .running)
      (isStep : run.orderedSteps[settled.length]? = some step)
      (running : stepRun.status = .running)
      (left : stepRun.output = .empty ∨ norm.cutOff step stepRun.output) :
    Stage norm run store settled .working (some stepRun)
  | failing {step : Step} {stepRun : StepRun} {error : Option String}
      (status : run.status = .running)
      (isStep : run.orderedSteps[settled.length]? = some step)
      (ended : stepRun.status = .failed)
      (fails : norm.fails (settled.map store.reportOf) step (store.reportOf stepRun) error) :
    Stage norm run store settled .failing (some stepRun)
  | succeeded (status : run.status = .succeeded) (error : run.error = none)
      (whole : settled.length = run.orderedSteps.length) :
    Stage norm run store settled .succeeded none
  | failed {step : Step} {stepRun : StepRun} (status : run.status = .failed)
      (isStep : run.orderedSteps[settled.length]? = some step)
      (ended : stepRun.status = .failed)
      (fails : norm.fails (settled.map store.reportOf) step (store.reportOf stepRun) run.error) :
    Stage norm run store settled .failed (some stepRun)
  | lost (status : run.status = .failed) (error : run.error = some Execution.genericFailure)
      (untouched : settled = [])
      (missing : store.submissions.get? run.submissionId = none) :
    Stage norm run store settled .lost none
  | canceled {current : Option StepRun} (status : run.status = .canceled)
      (error : run.error = some Execution.cancelMessage)
      (asked : run.cancelRequested = true) : Stage norm run store settled .canceled current

/-- A run at rest that nobody has asked to cancel, and that has its submission, waits or has ended. -/
theorem Stage.rests {norm : Norm} {run : Run} {store : Store} {settled : List StepRun}
    {current : Option StepRun} {phase : Phase} {submission : Submission}
    (stage : Stage norm run store settled phase current) (rest : phase.isRest = true)
    (wanted : run.cancelRequested = false)
    (submitted : store.submissions.get? run.submissionId = some submission) :
    phase = .waiting ∨ phase = .succeeded ∨ phase = .failed := by
  cases stage with
  | waiting => exact Or.inl rfl
  | succeeded => exact Or.inr (Or.inl rfl)
  | failed => exact Or.inr (Or.inr rfl)
  | fresh | between | working | failing => cases rest
  | lost _ _ _ missing =>
    rw [submitted] at missing
    cases missing
  | canceled _ _ asked =>
    rw [wanted] at asked
    cases asked

/-- Where steps may be taken on from: at no step, or at one that is to be carried out again, waits
or has failed. -/
def Ready (norm : Norm) (run : Run) (store : Store) (settled : List StepRun) :
    Option StepRun → Prop
  | none => True
  | some stepRun => ∃ step, run.orderedSteps[settled.length]? = some step ∧
    ((stepRun.status = .running ∧ stepRun.awaitsJob = true ∧
        norm.waits (settled.map store.reportOf) step (store.reportOf stepRun)) ∨
      (stepRun.status = .running ∧ stepRun.awaitsJob = false ∧
        (stepRun.output = .empty ∨ norm.cutOff step stepRun.output)) ∨
      (stepRun.status = .failed ∧
        norm.fails (settled.map store.reportOf) step (store.reportOf stepRun) stepRun.error))

/-- A running run from which steps may be taken is in one of its stages. -/
theorem Ready.stage {norm : Norm} {run : Run} {store : Store} {settled : List StepRun}
    {current : Option StepRun} (ready : Ready norm run store settled current)
    (status : run.status = .running) : ∃ phase, Stage norm run store settled phase current := by
  cases current with
  | none => exact ⟨_, .between status⟩
  | some stepRun =>
    obtain ⟨step, isStep, ⟨running, awaits, waits⟩ | ⟨running, _, left⟩ | ⟨ended, fails⟩⟩ := ready
    · exact ⟨_, .waiting status isStep running awaits waits⟩
    · exact ⟨_, .working status isStep running left⟩
    · exact ⟨_, .failing status isStep ended fails⟩

namespace Execution

theorem progressAfter_of_passed {stepRun : StepRun} (passed : stepRun.status = .passed) :
    progressAfter (.ofStepRun stepRun) = none := by
  simp only [progressAfter, StepResult.ofStepRun, passed]

theorem progressAfter_of_failed {stepRun : StepRun} (failed : stepRun.status = .failed) :
    progressAfter (.ofStepRun stepRun) = some (.failed stepRun.error) := by
  simp only [progressAfter, StepResult.ofStepRun, failed]

theorem progressAfter_of_running {stepRun : StepRun} (running : stepRun.status = .running) :
    progressAfter (.ofStepRun stepRun) = some .pending := by
  simp only [progressAfter, StepResult.ofStepRun, running]

end Execution

/-- How taking steps comes to an end, if it starts with a last step run that is not settled. -/
inductive Halted (norm : Norm) (run : Run) (start : Option StepRun) (store : Store)
    (settled : List StepRun) : Progress → Option StepRun → Prop
  | completed (whole : settled.length = run.orderedSteps.length) :
    Halted norm run start store settled .completed none
  | failed {step : Step} {stepRun : StepRun} {error : Option String}
      (isStep : run.orderedSteps[settled.length]? = some step)
      (ended : stepRun.status = .failed)
      (fails : norm.fails (settled.map store.reportOf) step (store.reportOf stepRun) error) :
    Halted norm run start store settled (.failed error) (some stepRun)
  | pending {step : Step} {stepRun : StepRun}
      (isStep : run.orderedSteps[settled.length]? = some step)
      (running : stepRun.status = .running) (awaits : stepRun.awaitsJob = true)
      (waits : norm.waits (settled.map store.reportOf) step (store.reportOf stepRun)) :
    Halted norm run start store settled .pending (some stepRun)
  | canceled {current : Option StepRun} (asked : run.cancelRequested = true)
      (ready : Ready norm run store settled current) (left : current = none ∨ current = start) :
    Halted norm run start store settled .canceled current

theorem Halted.start {norm : Norm} {run : Run} {store : Store} {settled : List StepRun}
    {start earlier last : Option StepRun} {progress : Progress}
    (halted : Halted norm run start store settled progress last)
    (same : start = none ∨ start = earlier) :
    Halted norm run earlier store settled progress last := by
  cases halted with
  | completed whole => exact .completed whole
  | failed isStep ended fails => exact .failed isStep ended fails
  | pending isStep running awaits waits => exact .pending isStep running awaits waits
  | canceled asked ready left =>
    refine .canceled asked ready ?_
    rcases left with none | equal
    · exact Or.inl none
    · exact equal ▸ same

/-- Settled step runs stay, and so does the last one if it waits or has ended. -/
structure Advances (settled : List StepRun) (current : Option StepRun)
    (later : List StepRun) (last : Option StepRun) : Prop where
  grows : settled <+: later
  stays : ∀ stepRun, current = some stepRun →
    (stepRun.awaitsJob = true ∨ stepRun.status.isTerminal = true) →
    later = settled ∧ last = current

theorem Advances.refl (settled : List StepRun) (current : Option StepRun) :
    Advances settled current settled current :=
  ⟨List.prefix_refl _, fun _ _ _ => ⟨rfl, rfl⟩⟩

theorem Advances.trans {first second third : List StepRun}
    {firstCurrent secondCurrent thirdCurrent : Option StepRun}
    (left : Advances first firstCurrent second secondCurrent)
    (right : Advances second secondCurrent third thirdCurrent) :
    Advances first firstCurrent third thirdCurrent where
  grows := left.grows.trans right.grows
  stays := by
    intro stepRun isCurrent rests
    obtain ⟨sameSettled, sameCurrent⟩ := left.stays stepRun isCurrent rests
    obtain ⟨sameLater, sameLast⟩ := right.stays stepRun (sameCurrent.trans isCurrent) rests
    exact ⟨sameLater.trans sameSettled, sameLast.trans sameCurrent⟩

end Vetting
