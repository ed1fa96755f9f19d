import Vetting.Proofs.Run.Answering
import Vetting.Proofs.Run.Stage

/-!
Contract: how a run stands after a callback or a request to cancel it.

Owns:
- `Norm.Takes`: a norm allows for what a callback makes of a step that waits;
- the stages that a callback and a cancellation lead to;
- that the order from which a run is to go on skips no step.

Does not own: what happens to other runs (`Vetting.Proofs.Run.Tending`).
-/

namespace Vetting

open Scope (Signals)
open Store (Rewrites Ends)
open Execution

/-- A step of another place in the order does not matter to a callback. -/
theorem Execution.Conclusion.ofCallback_congr (equipment : Equipment) (run : Run) (step : Step)
    (stepRun : StepRun) (issues : List Issue) (envelope : Envelope) (signals others : Int → Signals)
    (same : signals step.order = others step.order) :
    Conclusion.ofCallback equipment run (some step) stepRun issues envelope signals =
      .ofCallback equipment run (some step) stepRun issues envelope others := by
  unfold ofCallback
  simp only [same]

/-- All steps below an order have been settled. -/
def Run.Covered (run : Run) (settled : List StepRun) (order : Int) : Prop :=
  ∀ step ∈ run.orderedSteps, step.order < order → step.place ∈ settled.map StepRun.place

theorem Run.Covered.mono {run later : Run} {settled reached : List StepRun} {order : Int}
    (covered : run.Covered settled order) (keeps : run.Keeps later) (grows : settled <+: reached) :
    later.Covered reached order := by
  intro step member below
  rw [keeps.orderedSteps] at member
  obtain ⟨stepRun, isSettled, place⟩ := List.mem_map.mp (covered step member below)
  exact List.mem_map.mpr ⟨stepRun, grows.subset isSettled, place⟩

/-- The norm allows for what a callback with an envelope makes of a step that waits. -/
def Norm.Takes (norm : Norm) (equipment : Equipment) (run : Run) (envelope : Envelope)
    (step : Step) : Prop :=
  ∀ earlier stepRun issues verdict error, stepRun.place = step.place →
    norm.waits earlier step (stepRun.report issues) →
    (Conclusion.ofCallback equipment run (some step) stepRun issues envelope
      fun _ => signalsOf earlier).Settles issues stepRun.output verdict error →
    (verdict.status = .passed → norm.passes earlier step (verdict.report step)) ∧
      (verdict.status = .failed → norm.fails earlier step (verdict.report step) error)

/-- Stages between operations. -/
def Phase.isCalm : Phase → Bool
  | .working | .failing => false
  | _ => true

theorem Phase.isCalm_of_isRest {phase : Phase} (rest : phase.isRest = true) :
    phase.isCalm = true := by
  cases phase <;> first | rfl | cases rest

section Operations

variable {norm : Norm} {origin store after : Store} {run : Run} {settled : List StepRun}
  {current : Option StepRun} {phase : Phase} {equipment : Equipment} {envelope : Envelope}

/-- A step run that is at work is the last one of its run. -/
theorem Standing.current_of_running (standing : Standing norm origin run store settled current)
    {stepRun : StepRun} (held : store.stepRuns.get? stepRun.id = some stepRun)
    (ofRun : stepRun.runId = run.id) (running : stepRun.status.isTerminal = false) :
    current = some stepRun := by
  have member := standing.coherent.mem_stepRunsOf.mpr ⟨held, ofRun⟩
  rw [standing.begun] at member
  rcases List.mem_append.mp member with isSettled | isCurrent
  · rw [standing.passed stepRun isSettled] at running
    cases running
  · exact Option.mem_toList.mp isCurrent

/-- A run with a step at work between operations waits for it or is cancelled. -/
theorem Stage.of_running {stepRun : StepRun} (stage : Stage norm run store settled phase (some stepRun))
    (calm : phase.isCalm = true) (running : stepRun.status.isTerminal = false) :
    (phase = .waiting ∧ run.status = .running ∧
      ∃ step, run.orderedSteps[settled.length]? = some step ∧
        norm.waits (settled.map store.reportOf) step (store.reportOf stepRun)) ∨
    (phase = .canceled ∧ run.status = .canceled ∧
      run.error = some cancelMessage ∧ run.cancelRequested = true) := by
  cases stage with
  | waiting status isStep _ _ waits => exact Or.inl ⟨rfl, status, _, isStep, waits⟩
  | working => cases calm
  | failing => cases calm
  | failed _ _ ended _ =>
    rw [ended] at running
    cases running
  | canceled status error asked => exact Or.inr ⟨rfl, status, error, asked⟩

/-- What a callback for a step run makes of its run. -/
inductive Turns (norm : Norm) (origin : Store) (run : Run) (settled : List StepRun)
    (current : Option StepRun) (phase : Phase) (told : StepRun) (store : Store) : Option Int → Prop
  /-- The run stays in its stage, and its last step if that has not ended. -/
  | stays {later : Run} {last : Option StepRun}
      (idle : told.status.isTerminal = true ∨ phase = .canceled) (keeps : run.Keeps later)
      (status : later.status = run.status)
      (left : last = current ∨ ∀ stepRun, last = some stepRun → stepRun.status.isTerminal = true)
      (standing : Standing norm origin later store settled last)
      (stage : Stage norm later store settled phase last) :
    Turns norm origin run settled current phase told store none
  | goesOn {ended : StepRun} {order : Int} (waited : phase = .waiting)
      (standing : Standing norm origin run store (settled ++ [ended]) none)
      (stage : Stage norm run store (settled ++ [ended]) .between none)
      (covered : run.Covered (settled ++ [ended]) order) :
    Turns norm origin run settled current phase told store (some order)
  | fails {later : Run} {ended : StepRun} (waited : phase = .waiting) (keeps : run.Keeps later)
      (standing : Standing norm origin later store settled (some ended))
      (stage : Stage norm later store settled .failed (some ended)) :
    Turns norm origin run settled current phase told store none

theorem Execution.Applied.turns {stepRun : StepRun} {outcome : CallbackOutcome}
    (standing : Standing norm origin run store settled current) (ordered : run.WellOrdered)
    (stage : Stage norm run store settled phase current) (calm : phase.isCalm = true)
    (held : store.stepRuns.get? stepRun.id = some stepRun) (ofRun : stepRun.runId = run.id)
    (takes : ∀ step ∈ run.orderedSteps, step.key = stepRun.stepKey →
      norm.Takes equipment run envelope step)
    (applied : Applied equipment store run stepRun envelope outcome after) :
    Turns norm origin run settled current phase stepRun after outcome.resumeFrom := by
  -- A step that ends is the last one, and the norm allows for how it ends if it has waited.
  have rewritten : ∀ {verdict ended middle}, stepRun.status.isTerminal = false →
      Ends store stepRun verdict ended middle → current = some stepRun ∧
      Standing norm origin run middle settled (some ended) := by
    intro verdict ended middle running ends
    have isCurrent := standing.current_of_running held ofRun running
    subst isCurrent
    obtain ⟨now, record⟩ := ends.record
    obtain ⟨findings, issues, rewrites⟩ := ends.rewrites
    exact ⟨rfl, standing.rewrite rewrites ends.id (by rw [record]; rfl) (by rw [record]; rfl)⟩
  have allowed : ∀ {verdict error ended middle}, stepRun.status.isTerminal = false →
      run.status.isTerminal = false → Ends store stepRun verdict ended middle →
      (callbackConclusion equipment store run stepRun envelope).Settles
        (store.issuesOf stepRun.id) stepRun.output verdict error →
      phase = .waiting ∧ run.status = .running ∧ ∃ done step rest,
        run.orderedSteps = done ++ step :: rest ∧ done.length = settled.length ∧
        stepRun.place = step.place ∧
        (verdict.status = .passed →
          norm.passes (settled.map middle.reportOf) step (middle.reportOf ended)) ∧
        (verdict.status = .failed →
          norm.fails (settled.map middle.reportOf) step (middle.reportOf ended) error) := by
    intro verdict error ended middle running isOpen ends settles
    obtain ⟨isCurrent, _⟩ := rewritten running ends
    subst isCurrent
    rcases stage.of_running calm running with ⟨waiting, status, step, isStep, waits⟩ | ⟨_, status, _⟩
    · refine ⟨waiting, status, ?_⟩
      obtain ⟨done, rest, split, atStep⟩ := exists_split_of_getElem? isStep
      have place : stepRun.place = step.place := standing.place_at split (by simp [atStep])
      have key : stepRun.stepKey = step.key := congrArg Prod.fst place
      have member : step ∈ run.orderedSteps := by simp [split]
      obtain ⟨findings, issues, rewrites⟩ := ends.rewrites
      rw [standing.reports_settled rewrites ends.id, reportOf_ends ends place]
      refine ⟨done, step, rest, split, atStep, place, ?_⟩
      refine takes step member key.symm _ stepRun (store.issuesOf stepRun.id) verdict error place
        waits ?_
      rw [callbackConclusion, key, ordered.stepByKey? member] at settles
      rw [Conclusion.ofCallback_congr equipment run step stepRun _ envelope
        (store.signalsBefore run.id) (fun _ => signalsOf (settled.map store.reportOf))
        (standing.signalsBefore ordered split atStep)] at settles
      exact settles
    · rw [status] at isOpen
      cases isOpen
  cases applied with
  | finished terminal resumes =>
    rw [resumes]
    exact .stays (Or.inl terminal) (.refl run) rfl (Or.inl rfl) standing stage
  | @late verdict _ _ _ _ _ running closed settles ends resumes =>
    obtain ⟨isCurrent, stands⟩ := rewritten running ends
    subst isCurrent
    rcases stage.of_running calm running with ⟨_, status, _⟩ | ⟨isCanceled, status, error, asked⟩
    · rw [status] at closed
      cases closed
    · rw [resumes]
      subst isCanceled
      refine .stays (Or.inr rfl) (run.keeps_summarized _) rfl (Or.inr ?_) (stands.withRun rfl rfl)
        (.canceled status error asked)
      rintro _ ⟨⟩
      obtain ⟨now, record⟩ := ends.record
      have sameStatus : _ = _ := congrArg StepRun.status record
      rw [sameStatus]
      exact settles.terminal
  | @passed _ ended _ running isOpen settles hasPassed ends =>
    obtain ⟨isCurrent, stands⟩ := rewritten running ends
    obtain ⟨waiting, status, done, step, rest, split, atStep, place, passes, _⟩ :=
      allowed running isOpen ends settles
    obtain ⟨now, record⟩ := ends.record
    have sameStatus : _ = StepStatus.passed := (congrArg StepRun.status record).trans hasPassed
    have settles := stands.settle split atStep sameStatus (passes hasPassed)
    refine .goesOn waiting settles (.between status) fun other member below => ?_
    have order : stepRun.stepOrder = step.order := congrArg Prod.snd place
    rw [order] at below
    have inside := ordered.resumePoint split member below
    have splitAfter : run.orderedSteps = (done ++ [step]) ++ rest := by
      rw [split, List.append_assoc]
      rfl
    rw [settles.places_settled splitAfter (by simp [atStep])]
    exact List.mem_map_of_mem inside
  | @failed _ _ _ _ later _ running isOpen settles hasFailed ends closes resumes =>
    obtain ⟨isCurrent, stands⟩ := rewritten running ends
    obtain ⟨waiting, status, done, step, rest, split, atStep, place, _, fails⟩ :=
      allowed running isOpen ends settles
    obtain ⟨now, record⟩ := ends.record
    have sameStatus : _ = StepStatus.failed := (congrArg StepRun.status record).trans hasFailed
    rw [resumes]
    refine .fails waiting closes.toKeeps (stands.close closes) ?_
    have isStep : later.orderedSteps[settled.length]? = some step := by
      rw [closes.orderedSteps, split, ← atStep]
      simp
    refine .failed closes.status isStep sameStatus ?_
    rw [closes.error]
    exact fails hasFailed

/-- What a request to cancel makes of a run: it stays in its stage or is cancelled, and it is closed
unless a step is to be taken next. -/
theorem Execution.Canceled.turns (standing : Standing norm origin run store settled current)
    (stage : Stage norm run store settled phase current) (calm : phase.isCalm = true)
    (canceled : Canceled store run after) :
    ∃ later next, run.Keeps later ∧ Standing norm origin later after settled current ∧
      Stage norm later after settled next current ∧
      ((next = phase ∧ later.status = run.status) ∨ next = .canceled) ∧
      (phase ≠ .between → later.status.isTerminal = true) := by
  cases canceled with
  | already closed => exact ⟨run, phase, .refl run, standing, stage, Or.inl ⟨rfl, rfl⟩, fun _ => closed⟩
  | @closed later isOpen closes =>
    have keeps := run.keeps_flagged.trans closes.toKeeps
    refine ⟨later, .canceled, keeps, standing.withRun keeps.id keeps.steps, ?_, Or.inr rfl,
      fun _ => by rw [closes.status]; rfl⟩
    exact .canceled closes.status closes.error closes.cancelRequested
  | flagged status busy =>
    cases stage with
    | fresh pending =>
      rw [pending] at status
      cases status
    | between => exact ⟨run.flagged, .between, run.keeps_flagged, standing.withRun rfl rfl,
        .between status, Or.inl ⟨rfl, rfl⟩, fun no => absurd rfl no⟩
    | @waiting _ stepRun _ _ running awaits _ =>
      refine absurd ⟨running, awaits⟩ (busy stepRun ?_)
      rw [standing.begun]
      simp
    | working => cases calm
    | failing => cases calm
    | succeeded closed | failed closed | lost closed | canceled closed =>
      rw [closed] at status
      cases status

end Operations

end Vetting
