import Vetting.Proofs.Program.Asking
import Vetting.Proofs.Step.Processing

/-!
Contract: what the jobs of the engine have to do with.

Owns:
- settling a step, which writes its step run and findings;
- processing a step, which may also launch a job;
- taking steps, which begin within one run;
- the rest: entering and closing a run, callbacks, and cancelling.

Does not own: in which order any of this is asked for.
-/

namespace Vetting.Execution

/-- Settling a step. -/
def settling : List Concern := [.inquiry, .telling, .recording]

/-- Settling a step, or launching its job. -/
def processing : List Concern := .launch :: settling

/-- Taking the steps of a run. -/
def stepTaking (runId : Uuid) : List Concern := .beginning runId :: .recovery :: processing

/-- Summing up a run. -/
def summing : List Concern := [.inquiry, .marking]

/-- All that is asked for apart from taking steps. -/
def steering : List Concern := .start :: .close :: .marking :: .receipt :: settling

theorem settling_subset_processing : settling ⊆ processing := by decide

theorem settling_subset_steering : settling ⊆ steering := by decide

theorem summing_subset_steering : summing ⊆ steering := by decide

theorem processing_subset_stepTaking (runId : Uuid) : processing ⊆ stepTaking runId := by
  simp [stepTaking]

/-! ### Settling a step -/

section Settling

theorem asks_record (runId stepRunId : Uuid) (issues : List Issue) (mode : RecordMode) :
    Asks settling (record runId stepRunId issues mode) := by
  apply (asks_stamp (by decide)).bind
  intro stamp
  cases mode with
  | replace =>
    apply (asks_store _ (show Concern.recording ∈ settling by decide)).bind
    exact fun _ => asks_pure _
  | append =>
    apply (asks_store _ (show Concern.recording ∈ settling by decide)).bind
    exact fun _ => asks_pure _

theorem asks_countFindings (stepRunId : Uuid) : Asks settling (countFindings stepRunId) :=
  (asks_store _ (show Concern.inquiry ∈ settling by decide)).bind fun _ => asks_pure _

theorem asks_collectSignals (runId : Uuid) (before : Int) :
    Asks settling (collectSignals runId before) :=
  (asks_store _ (show Concern.inquiry ∈ settling by decide)).bind fun _ => asks_pure _

theorem asks_endStep (stepRun : StepRun) (status : StepStatus) (output : StepOutput)
    (error : Option String) : Asks settling (endStep stepRun status output error) := by
  apply (asks_now (by decide)).bind
  intro now
  apply Asks.ite (asks_throw _)
  apply (asks_store _ (show Concern.recording ∈ settling by decide)).bind
  intro _
  apply (asks_log (show Concern.telling ∈ settling by decide)).bind
  exact fun _ => asks_pure _

theorem asks_storeInterim (stepRun : StepRun) (output : StepOutput) :
    Asks settling (storeInterim stepRun output) :=
  (asks_store _ (show Concern.recording ∈ settling by decide)).bind fun _ => asks_pure _

theorem asks_failWithIssue (stepRun : StepRun) (issue : Issue) (output : StepOutput) :
    Asks settling (failWithIssue stepRun issue output) := by
  apply (asks_record _ _ _ _).bind
  intro _
  apply (asks_countFindings _).bind
  intro counts
  exact (asks_endStep _ _ _ _).bind fun _ => asks_pure _

theorem asks_failCurrent (stepRunId : Uuid) (code detail : String) :
    Asks settling (failCurrent stepRunId code detail) := by
  apply (asks_store _ (show Concern.inquiry ∈ settling by decide)).bind
  intro current
  exact .ite (asks_pure _) (asks_failWithIssue _ _ _)

theorem asks_failStep (stepRun : StepRun) (fault : EngineFault) :
    Asks settling (failStep stepRun fault) := by
  apply (asks_store _ (show Concern.inquiry ∈ settling by decide)).bind
  intro latest
  exact .ite ((asks_failWithIssue _ _ _).bind fun _ => asks_pure _) (asks_pure _)

theorem Asks.contain {concerns : List Concern} {job : Job StepResult} (asks : Asks concerns job)
    (subset : settling ⊆ concerns) (stepRunId : Uuid) : Asks concerns (contain stepRunId job) := by
  apply asks.tryCatch
  intro fault
  split
  · exact (asks_failCurrent _ _ _).mono subset
  · exact (asks_failCurrent _ _ _).mono subset
  · exact asks_throw _

theorem asks_completeWith (equipment : Equipment) (run : Run) (step : Step) (stepRun : StepRun)
    (base : StepOutput) (envelope : Envelope) (external : ExternalValidator)
    (signals : Scope.Signals) :
    Asks settling (completeWith equipment run step stepRun base envelope external signals) := by
  apply (asks_given _).bind
  intro found
  apply (asks_record _ _ _ _).bind
  intro _
  apply (asks_countFindings _).bind
  intro counts
  exact (asks_endStep _ _ _ _).bind fun _ => asks_pure _

theorem asks_completeContained (equipment : Equipment) (stepRunId : Uuid) (envelope : Envelope) :
    Asks settling (completeContained equipment stepRunId envelope) := by
  refine Asks.contain ?_ (List.Subset.refl _) stepRunId
  apply (asks_store _ (show Concern.inquiry ∈ settling by decide)).bind
  intro stepRun
  apply Asks.ite (asks_pure _)
  apply (asks_store _ (show Concern.inquiry ∈ settling by decide)).bind
  intro run
  cases run.stepByKey? stepRun.stepKey with
  | none => exact asks_throw _
  | some step =>
    apply (asks_given _).bind
    intro found
    apply (asks_given _).bind
    intro external
    apply (asks_collectSignals _ _).bind
    exact fun _ => asks_completeWith _ _ _ _ _ _ _ _

end Settling

/-! ### Processing a step -/

section Processing

variable (equipment : Equipment) (context : StepContext)

theorem asks_processInline : Asks settling (processInline equipment context) := by
  apply (asks_given _).bind
  intro found
  apply (asks_given _).bind
  intro resolved
  cases resolved with
  | external => exact asks_throw _
  | inline =>
    apply (asks_validate (by decide) _ _).bind
    intro outcome
    apply (asks_record _ _ _ _).bind
    intro recorded
    exact (asks_endStep _ _ _ _).bind fun _ => asks_pure _

theorem asks_processAction : Asks settling (processAction equipment context) := by
  apply (asks_given _).bind
  intro found
  apply (asks_given _).bind
  intro _
  apply (asks_act (by decide) _ _).bind
  intro outcome
  apply (asks_record _ _ _ _).bind
  intro recorded
  exact (asks_endStep _ _ _ _).bind fun _ => asks_pure _

theorem asks_afterLaunch (external : ExternalValidator) (stepRun : StepRun) (interim : StepOutput)
    (response : JobResponse) :
    Asks settling (afterLaunch equipment context external stepRun interim response) := by
  apply Asks.ite
  · apply (asks_storeInterim _ _).bind
    intro _
    apply (asks_log (show Concern.telling ∈ settling by decide)).bind
    exact fun _ => asks_pure _
  · cases response.envelope? with
    | some envelope => exact asks_completeWith _ _ _ _ _ _ _ _
    | none => exact (asks_storeInterim _ _).bind fun _ => asks_failWithIssue _ _ _

theorem asks_processExternal : Asks processing (processExternal equipment context) := by
  have settles := settling_subset_processing
  apply (asks_given _).bind
  intro found
  apply (asks_given _).bind
  intro external
  apply (asks_backendAvailable (by decide)).bind
  intro available
  apply Asks.ite (asks_throw _)
  apply ((asks_record _ _ _ _).mono settles).bind
  intro recorded
  apply ((asks_storeInterim _ _).mono settles).bind
  intro stepRun
  apply (asks_launch (by decide) _).bind
  intro response
  exact (asks_afterLaunch equipment context external stepRun _ response).mono settles

theorem asks_dispatch : Asks processing (dispatch equipment context) := by
  refine Asks.contain ?_ settling_subset_processing _
  apply (asks_given _).bind
  intro processor
  cases processor with
  | inline => exact (asks_processInline equipment context).mono settling_subset_processing
  | external => exact asks_processExternal equipment context
  | action => exact (asks_processAction equipment context).mono settling_subset_processing

end Processing

/-! ### Taking the steps of a run -/

section Taking

variable (equipment : Equipment) (run : Run) (submission : Submission)

theorem asks_beginStep (runId : Uuid) (step : Step) :
    Asks (stepTaking runId) (beginStep runId step) := by
  apply (asks_now (by simp [stepTaking, processing, settling])).bind
  intro now
  apply (asks_store _ (show Concern.beginning runId ∈ stepTaking runId by simp [stepTaking])).bind
  intro acquisition
  cases acquisition with
  | created stepRun =>
    apply (asks_log (show Concern.telling ∈ _ by simp [stepTaking, processing, settling])).bind
    exact fun _ => asks_pure _
  | existing stepRun =>
    apply Asks.ite (asks_pure _)
    apply (asks_store _ (show Concern.recovery ∈ _ by simp [stepTaking])).bind
    intro restarted?
    cases restarted? with
    | some restarted =>
      apply (asks_log (show Concern.telling ∈ _ by simp [stepTaking, processing, settling])).bind
      exact fun _ => asks_pure _
    | none =>
      apply (asks_store _ (show Concern.inquiry ∈ _ by
        simp [stepTaking, processing, settling])).bind
      exact fun _ => asks_pure _

theorem asks_takeStep (step : Step) :
    Asks (stepTaking run.id) (takeStep equipment run submission step) := by
  have processes := processing_subset_stepTaking run.id
  have settles := List.Subset.trans settling_subset_processing processes
  apply ((asks_beginStep run.id step).during none).bind
  intro handle
  apply Asks.ite _ (asks_pure _)
  apply Asks.during
  apply ((asks_collectSignals _ _).mono settles).bind
  intro signals
  exact ((asks_dispatch equipment _).mono processes).bind fun _ => asks_pure _

theorem asks_takeSteps (steps : List Step) :
    Asks (stepTaking run.id) (takeSteps equipment run submission steps) := by
  induction steps with
  | nil => exact asks_pure _
  | cons step rest inductionHypothesis =>
    have flag : Asks (stepTaking run.id) (Job.store (.cancelFlag run.id)) :=
      asks_store _ (show Concern.inquiry ∈ _ by simp [stepTaking, processing, settling])
    apply (flag.during none).bind
    intro canceled
    apply Asks.ite (asks_pure _)
    apply (asks_takeStep equipment run submission step).bind
    intro progress?
    cases progress? with
    | some progress => exact asks_pure _
    | none => exact inductionHypothesis

theorem asks_drive (start : Int) : Asks (stepTaking run.id) (drive equipment run start) := by
  have submitted : Asks (stepTaking run.id) (Job.store (.submission run.submissionId)) :=
    asks_store _ (show Concern.inquiry ∈ _ by simp [stepTaking, processing, settling])
  apply (submitted.during none).bind
  exact fun submission => asks_takeSteps equipment run submission _

end Taking

/-! ### The rest of an operation -/

section Steering

theorem asks_currentOutcome (runId : Uuid) : Asks summing (currentOutcome runId) :=
  (asks_store _ (show Concern.inquiry ∈ summing by decide)).bind fun _ => asks_pure _

theorem asks_storeSummary (runId : Uuid) : Asks summing (storeSummary runId) := by
  have looks : Concern.inquiry ∈ summing := by decide
  have builds : Asks summing (buildSummary runId) := by
    apply (asks_store (.run runId) looks).bind
    intro run
    apply (asks_store (.stepRuns runId) looks).bind
    intro stepRuns
    apply (asks_store (.runFindings runId) looks).bind
    intro findings
    exact (asks_now looks).bind fun _ => asks_pure _
  apply builds.bind
  intro summary
  apply (asks_store _ (show Concern.marking ∈ summing by decide)).bind
  exact fun _ => asks_pure _

theorem asks_closeRun (runId : Uuid) (status : RunStatus) (error : Option String) :
    Asks steering (closeRun runId status error) := by
  have outcome := (asks_currentOutcome runId).mono summing_subset_steering
  apply (asks_now (by decide)).bind
  intro now
  apply (asks_store _ (show Concern.close ∈ steering by decide)).bind
  intro closed
  apply Asks.ite _ outcome
  apply (asks_log (show Concern.close ∈ steering by decide)).bind
  intro _
  exact ((asks_storeSummary runId).mono summing_subset_steering).bind fun _ => outcome

theorem asks_failRun (runId : Uuid) (interruption : Interruption) :
    Asks steering (failRun runId interruption) := by
  rw [failRun]
  cases interruption.current with
  | none => exact asks_closeRun _ _ _
  | some stepRun =>
    have fails := (asks_failStep stepRun interruption.fault).mono settling_subset_steering
    exact (fails.tryCatch fun _ => asks_pure _).bind fun _ => asks_closeRun _ _ _

theorem asks_enterRun (runId : Uuid) (resumeFrom : Option Int) :
    Asks steering (enterRun runId resumeFrom) := by
  have looks : Concern.inquiry ∈ steering := by decide
  cases resumeFrom with
  | none =>
    apply (asks_now looks).bind
    intro now
    apply (asks_store _ (show Concern.start ∈ steering by decide)).bind
    intro started
    apply (asks_store (.run runId) looks).bind
    intro run
    apply Asks.ite
    · exact (asks_log (show Concern.start ∈ steering by decide)).bind fun _ => asks_pure _
    · exact (asks_log (show Concern.telling ∈ steering by decide)).bind fun _ => asks_pure _
  | some order =>
    apply (asks_store (.run runId) looks).bind
    intro run
    apply Asks.ite _ (asks_pure _)
    exact (asks_log (show Concern.telling ∈ steering by decide)).bind fun _ => asks_pure _

theorem asks_ignoreCallback (stepRun : StepRun) (reason : String) (duplicate : Bool) :
    Asks settling (ignoreCallback stepRun reason duplicate) := by
  apply (asks_log (show Concern.telling ∈ settling by decide)).bind
  intro _
  exact (asks_store _ (show Concern.inquiry ∈ settling by decide)).bind fun _ => asks_pure _

theorem asks_recoverCallback (stepRun : StepRun) (fault : EngineFault) :
    Asks steering (recoverCallback stepRun fault) := by
  have looks : Concern.inquiry ∈ steering := by decide
  have reports : Asks steering (do
      let latest ← Job.store (.stepRun stepRun.id)
      return (⟨.ofStepRun latest, none, false,
        (← Job.store (.run stepRun.runId)).status⟩ : CallbackOutcome)) := by
    apply (asks_store (.stepRun stepRun.id) looks).bind
    intro latest
    exact (asks_store (.run stepRun.runId) looks).bind fun _ => asks_pure _
  apply (asks_store (.run stepRun.runId) looks).bind
  intro run
  apply Asks.ite
  · apply ((asks_failStep stepRun fault).mono settling_subset_steering).bind
    intro _
    exact ((asks_storeSummary _).mono summing_subset_steering).bind fun _ => reports
  · exact (asks_failRun _ _).bind fun _ => reports

theorem asks_followCallback (stepRun : StepRun) (result : StepResult) :
    Asks steering (followCallback stepRun result) := by
  have looks : Concern.inquiry ∈ steering := by decide
  have reports : ∀ resumeFrom, Asks steering do
      return (⟨result, resumeFrom, false,
        (← Job.store (.run stepRun.runId)).status⟩ : CallbackOutcome) :=
    fun _ => (asks_store (.run stepRun.runId) looks).bind fun _ => asks_pure _
  apply (asks_log (show Concern.telling ∈ steering by decide)).bind
  intro _
  apply (asks_store (.run stepRun.runId) looks).bind
  intro run
  apply Asks.ite
  · exact ((asks_storeSummary _).mono summing_subset_steering).bind fun _ => reports _
  · apply Asks.ite (reports _)
    exact (asks_closeRun _ _ _).bind fun _ => reports _

theorem asks_applyCallback (equipment : Equipment) (stepRun : StepRun) (envelope : Envelope) :
    Asks steering (applyCallback equipment stepRun envelope) := by
  apply Asks.ite ((asks_ignoreCallback _ _ _).mono settling_subset_steering)
  have completes := asks_completeContained equipment stepRun.id envelope
  apply (completes.mono settling_subset_steering).attempt.bind
  intro result
  cases result with
  | ok result => exact asks_followCallback stepRun result
  | error fault => exact asks_recoverCallback stepRun fault

theorem asks_completeCallback (equipment : Equipment) (stepRunId : Uuid) (envelope : Envelope)
    (key? : Option String) :
    Asks steering (completeCallback equipment stepRunId envelope key?) := by
  have looks : Concern.inquiry ∈ steering := by decide
  have ignores : ∀ stepRun reason duplicate,
      Asks steering (ignoreCallback stepRun reason duplicate) :=
    fun _ _ _ => (asks_ignoreCallback _ _ _).mono settling_subset_steering
  apply (asks_store (.stepRun stepRunId) looks).bind
  intro stepRun
  cases key? with
  | none => exact asks_applyCallback equipment stepRun envelope
  | some key =>
    apply Asks.ite (ignores _ _ _)
    apply (asks_now looks).bind
    intro now
    apply (asks_store _ (show Concern.receipt ∈ steering by decide)).bind
    intro isNew
    apply Asks.ite _ (ignores _ _ _)
    apply (asks_applyCallback equipment stepRun envelope).tryCatch
    intro fault
    have releases : Asks steering (Job.store (.releaseCallback key)) :=
      asks_store _ (show Concern.receipt ∈ steering by decide)
    exact (releases.tryCatch fun _ => asks_pure _).bind fun _ => asks_throw _

theorem asks_cancel (runId : Uuid) : Asks steering (cancel runId) := by
  have looks : Concern.inquiry ∈ steering := by decide
  apply (asks_store (.run runId) looks).bind
  intro run
  apply Asks.ite (asks_pure _)
  apply (asks_store _ (show Concern.marking ∈ steering by decide)).bind
  intro _
  apply (asks_log (show Concern.telling ∈ steering by decide)).bind
  intro _
  apply (asks_store (.stepRuns runId) looks).bind
  intro stepRuns
  exact .ite (asks_closeRun _ _ _) (asks_pure _)

end Steering

end Vetting.Execution
