import Vetting.Proofs.Finding.Counts
import Vetting.Proofs.Run.Invocation
import Vetting.Proofs.Run.Roles

/-!
Contract: programs begin only steps of their runs, and count no more failures than assertions.

Owns:
- `planning`, the discipline of a program that begins a step only if it has read it in the run, and
  writes a step run only with an output whose counters are sound;
- that every invocation keeps this discipline.

Does not own: what the tables of a store look like because of it (`Vetting.Proofs.Run.Totals`).

What a program writes it has counted itself, or it has read the output before.  So the discipline has no
memory: all that a program may rely on is in the answer that it has just been given.
-/

namespace Vetting.Execution

section Discipline

variable (plan : Uuid → List Step)

/-- A step that is begun is one of its run, and an output that is written is sound. -/
def Plans : Request → Prop
  | .store (.acquire runId step _) => step ∈ plan runId
  | .store (.updateStepRun stepRun) => stepRun.output.Sound
  | _ => True

/-- A run that is read has the steps that it is to have, and the output of a step run is sound. -/
def Planned : (request : Request) → request.Answer → Prop
  | .store (.run id), .ok run => run.id = id ∧ run.steps = plan id
  | .store (.stepRun _), .ok stepRun => stepRun.output.Sound
  | _, _ => True

/-- Beginning steps as planned, and counting them soundly. -/
def planning : Discipline Unit where
  may _ := Plans plan
  learns _ request answer _ := Planned plan request answer

/-- Whatever is answered, the job begins steps as planned and counts them soundly. -/
def Abides {ε α : Type} (job : ExceptT ε Program α) : Prop :=
  Preserves (planning plan) (fun _ => True) job

end Discipline

section Abiding

variable {plan : Uuid → List Step} {ε α : Type}

theorem abides_store (request : StoreRequest) (plans : Plans plan (.store request)) :
    Abides plan (Job.store request) := by
  refine fun _ _ => ⟨plans, fun answer _ _ => ?_⟩
  cases answer <;> trivial

theorem abides_log (runId : Uuid) (kind : EventKind) : Abides plan (Job.log runId kind) :=
  fun _ _ => ⟨trivial, fun _ _ _ => trivial⟩

/-- Who asks for nothing of a step abides by every plan. -/
theorem Plain.abides {job : ExceptT ε Program α} (plain : Plain job) : Abides plan job := by
  refine plain.preserves (fun _ request _ isPlain => ?_) fun _ _ _ _ _ _ _ => trivial
  obtain ⟨aside, _⟩ := isPlain
  cases request with
  | store request => cases request <;> first | exact trivial | cases aside
  | _ => trivial

/-- The output of a step run that has been read is sound. -/
theorem abides_stepRun (id : Uuid) {next : StepRun → Job α}
    (goesOn : ∀ stepRun : StepRun, stepRun.output.Sound → Abides plan (next stepRun)) :
    Abides plan (Job.store (.stepRun id) >>= next) := by
  refine fun _ _ => (heeds_bind _ _).mpr ((heeds_store _).mpr ⟨trivial, ?_⟩)
  rintro answer after planned
  cases answer with
  | error fault => trivial
  | ok stepRun => exact goesOn stepRun planned after trivial

/-- The steps of a run that has been read are those that are planned. -/
theorem abides_run (id : Uuid) {next : Run → Job α}
    (goesOn : ∀ run : Run, run.steps = plan run.id → Abides plan (next run)) :
    Abides plan (Job.store (.run id) >>= next) := by
  refine fun _ _ => (heeds_bind _ _).mpr ((heeds_store _).mpr ⟨trivial, ?_⟩)
  rintro answer after planned
  cases answer with
  | error fault => trivial
  | ok run =>
    obtain ⟨sameId, steps⟩ := planned
    exact goesOn run (steps.trans (congrArg plan sameId.symm)) after trivial

/-! ### Writing a step run and its findings -/

theorem abides_record (runId stepRunId : Uuid) (issues : List Issue) (mode : RecordMode) :
    Abides plan (record runId stepRunId issues mode) := by
  refine plain_stamp.abides.bind fun stamp => ?_
  cases mode with
  | replace => exact (abides_store (.replaceFindings _ _) trivial).bind fun _ => preserves_pure _
  | append => exact (abides_store (.appendFindings _ _) trivial).bind fun _ => preserves_pure _

variable {output : StepOutput}

theorem abides_endStep (stepRun : StepRun) (status : StepStatus) (sound : output.Sound)
    (error : Option String) : Abides plan (endStep stepRun status output error) := by
  refine plain_now.abides.bind fun now => .ite (preserves_throw _) ?_
  let ended := stepRun.ended status output error now
  refine (abides_store (.updateStepRun ended) sound).bind fun _ => ?_
  exact (abides_log _ _).bind fun _ => preserves_pure _

theorem abides_storeInterim (stepRun : StepRun) (sound : output.Sound) {next : StepRun → Job α}
    (goesOn : Abides plan (next (stepRun.leaving output))) :
    Abides plan (storeInterim stepRun output >>= next) := by
  rw [storeInterim, bind_assoc]
  refine (abides_store (.updateStepRun (stepRun.leaving output)) sound).bind fun _ => ?_
  rw [pure_bind]
  exact goesOn

theorem abides_failWithIssue (stepRun : StepRun) (issue : Issue) (sound : output.Sound) :
    Abides plan (failWithIssue stepRun issue output) := by
  refine (abides_record _ _ _ _).bind fun _ => (plain_countFindings _).abides.bind fun counts => ?_
  have kept : { output with severityCounts := counts, message? := some issue.message }.Sound :=
    ⟨sound.input, sound.output⟩
  exact (abides_endStep _ _ kept _).bind fun _ => preserves_pure _

theorem abides_failCurrent (id : Uuid) (code detail : String) :
    Abides plan (failCurrent id code detail) :=
  abides_stepRun id fun current sound =>
    .ite (preserves_pure _) (abides_failWithIssue current _ sound)

theorem abides_failStep (stepRun : StepRun) (fault : EngineFault) :
    Abides plan (failStep stepRun fault) :=
  abides_stepRun stepRun.id fun latest sound =>
    .ite ((abides_failWithIssue latest _ sound).bind fun _ => preserves_pure _) (preserves_pure _)

theorem abides_contain {job : Job StepResult} (id : Uuid) (abides : Abides plan job) :
    Abides plan (contain id job) := by
  refine abides.tryCatch fun fault => ?_
  split
  · exact abides_failCurrent id _ _
  · exact abides_failCurrent id _ _
  · exact preserves_throw _

/-! ### Carrying a step out -/

section Processing

variable (equipment : Equipment) (context : StepContext)

theorem abides_completeWith (run : Run) (step : Step) (stepRun : StepRun) {base : StepOutput}
    (sound : base.Sound) (envelope : Envelope) (external : ExternalValidator)
    (signals : Scope.Signals) :
    Abides plan (completeWith equipment run step stepRun base envelope external signals) := by
  refine (preserves_given _).bind fun found => (abides_record _ _ _ _).bind fun _ => ?_
  refine (plain_countFindings _).abides.bind fun counts => ?_
  refine (abides_endStep _ _ ?_ _).bind fun _ => preserves_pure _
  exact ⟨sound.input, .ofIssues _⟩

theorem abides_processInline : Abides plan (processInline equipment context) := by
  refine (preserves_given _).bind fun found => (preserves_given _).bind fun resolved => ?_
  cases resolved with
  | external => exact preserves_throw _
  | inline =>
    have validates : Abides plan (Job.validate found.1 context.submission) := by
      refine fun _ _ => ⟨trivial, fun answer _ _ => ?_⟩
      cases answer <;> trivial
    refine validates.bind fun outcome => (abides_record _ _ _ _).bind fun recorded => ?_
    refine (abides_endStep _ _ ?_ _).bind fun _ => preserves_pure _
    exact ⟨.ofIssues _, .zero⟩

theorem abides_processAction : Abides plan (processAction equipment context) := by
  refine (preserves_given _).bind fun found => (preserves_given _).bind fun _ => ?_
  have acts : ∀ given, Abides plan (Job.act found.1 given) := by
    refine fun given _ _ => ⟨trivial, fun answer _ _ => ?_⟩
    cases answer <;> trivial
  refine (acts _).bind fun outcome => (abides_record _ _ _ _).bind fun recorded => ?_
  refine (abides_endStep _ _ ?_ _).bind fun _ => preserves_pure _
  exact ⟨.zero, .zero⟩

theorem abides_afterLaunch (external : ExternalValidator) {interim : StepOutput}
    (sound : interim.Sound) (response : JobResponse) :
    Abides plan (afterLaunch equipment context external (context.stepRun.leaving interim) interim
      response) := by
  have answered : (withResponse interim response).Sound := ⟨sound.input, sound.output⟩
  refine .ite (abides_storeInterim _ answered ?_) ?_
  · exact (abides_log _ _).bind fun _ => preserves_pure _
  · cases response.envelope? with
    | some envelope => exact abides_completeWith equipment _ _ _ answered _ _ _
    | none => exact abides_storeInterim _ answered (abides_failWithIssue _ _ answered)

theorem sound_interimOutput (validator : Validator) (report : Rule.Report) (counts : SeverityCounts)
    (key : String) : (interimOutput equipment validator report counts key).Sound :=
  ⟨.ofIssues _, .zero⟩

theorem abides_processExternal : Abides plan (processExternal equipment context) := by
  have looks : Abides plan Job.backendAvailable := fun _ _ => ⟨trivial, fun _ _ _ => trivial⟩
  have launches : ∀ job, Abides plan (Job.launch job) := by
    refine fun job _ _ => (heeds_launch job).mpr ⟨trivial, fun answer _ _ => ?_⟩
    cases answer <;> trivial
  refine (preserves_given _).bind fun found => (preserves_given _).bind fun external => ?_
  refine looks.bind fun available => .ite (preserves_throw _) ?_
  refine (abides_record _ _ _ _).bind fun recorded => ?_
  refine abides_storeInterim _ (sound_interimOutput _ _ _ _ _) ((launches _).bind fun response => ?_)
  exact abides_afterLaunch equipment context _ (sound_interimOutput _ _ _ _ _) response

theorem abides_dispatch : Abides plan (dispatch equipment context) := by
  refine abides_contain _ ((preserves_given _).bind fun processor => ?_)
  cases processor with
  | inline => exact abides_processInline equipment context
  | external => exact abides_processExternal equipment context
  | action => exact abides_processAction equipment context

end Processing

theorem abides_completeContained (equipment : Equipment) (id : Uuid) (envelope : Envelope) :
    Abides plan (completeContained equipment id envelope) := by
  refine abides_contain id (abides_stepRun id fun stepRun sound => .ite (preserves_pure _) ?_)
  refine (plain_run _).abides.bind fun run => ?_
  cases run.stepByKey? stepRun.stepKey with
  | none => exact preserves_throw _
  | some step =>
    refine (preserves_given _).bind fun found => (preserves_given _).bind fun external => ?_
    refine (plain_collectSignals _ _).abides.bind fun signals => ?_
    exact abides_completeWith equipment _ _ _ sound _ _ _

/-! ### Taking the steps of a run -/

theorem abides_beginStep {runId : Uuid} {step : Step} (isPlanned : step ∈ plan runId) :
    Abides plan (beginStep runId step) := by
  refine plain_now.abides.bind fun now => ?_
  refine (abides_store (.acquire runId step now) isPlanned).bind fun acquisition => ?_
  cases acquisition with
  | created stepRun => exact (abides_log _ _).bind fun _ => preserves_pure _
  | existing stepRun =>
    refine .ite (preserves_pure _) ((abides_store (.restart _ _ now) trivial).bind fun restarted? => ?_)
    cases restarted? with
    | some restarted => exact (abides_log _ _).bind fun _ => preserves_pure _
    | none => exact (abides_store (.stepRun _) trivial).bind fun _ => preserves_pure _

theorem abides_takeStep {run : Run} {step : Step} (equipment : Equipment)
    (isPlanned : step ∈ plan run.id) (submission : Submission) :
    Abides plan (takeStep equipment run submission step) := by
  refine ((abides_beginStep isPlanned).during none).bind fun handle =>
    .ite (Preserves.during ?_ _) (preserves_pure _)
  refine (plain_collectSignals _ _).abides.bind fun signals => ?_
  exact (abides_dispatch equipment _).bind fun _ => preserves_pure _

theorem abides_takeSteps {run : Run} {steps : List Step} (equipment : Equipment)
    (isPlanned : ∀ step ∈ steps, step ∈ plan run.id) (submission : Submission) :
    Abides plan (takeSteps equipment run submission steps) := by
  induction steps with
  | nil => exact preserves_pure _
  | cons step rest inductionHypothesis =>
    have polls : Abides plan (Job.store (.cancelFlag run.id)) := abides_store _ trivial
    have takes := abides_takeStep equipment (isPlanned step List.mem_cons_self) submission
    refine (polls.during none).bind fun canceled => .ite (preserves_pure _) ?_
    refine takes.bind fun progress? => ?_
    cases progress? with
    | some progress => exact preserves_pure _
    | none =>
      exact inductionHypothesis fun other member => isPlanned other (List.mem_cons_of_mem _ member)

theorem abides_drive {run : Run} (equipment : Equipment) (ofPlan : run.steps = plan run.id)
    (start : Int) : Abides plan (drive equipment run start) := by
  have reads : Plain (Job.store (.submission run.submissionId)) := plain_store rfl
  refine (reads.abides.during none).bind fun submission =>
    abides_takeSteps equipment (fun step member => ?_) submission
  rw [← ofPlan]
  exact Run.mem_orderedSteps.mp (List.mem_filter.mp member).1

/-! ### The operations on a run -/

theorem abides_failRun (runId : Uuid) (interruption : Interruption) :
    Abides plan (failRun runId interruption) := by
  have closes : Abides plan (closeRun runId .failed (some genericFailure)) :=
    (plain_closeRun _ _ _).abides
  rw [failRun]
  cases interruption.current with
  | none => exact closes
  | some stepRun =>
    exact ((abides_failStep stepRun _).tryCatch fun _ => preserves_pure _).bind fun _ => closes

theorem abides_execute (equipment : Equipment) (runId : Uuid) (resumeFrom : Option Int) :
    Abides plan (execute equipment runId resumeFrom) := by
  refine (plain_enterRun _ _).abides.bind fun entered => ?_
  cases entered with
  | some outcome => exact preserves_pure _
  | none =>
    refine abides_run runId fun run ofPlan => ?_
    refine (abides_drive equipment ofPlan _).attempt.bind fun progress => ?_
    cases progress with
    | error interruption => exact abides_failRun runId interruption
    | ok progress =>
      cases progress with
      | completed | failed | canceled => exact (plain_closeRun _ _ _).abides
      | pending | yielded => exact (plain_currentOutcome _).abides

theorem abides_recoverCallback (stepRun : StepRun) (fault : EngineFault) :
    Abides plan (recoverCallback stepRun fault) := by
  have reports : Abides plan do
      let latest ← Job.store (.stepRun stepRun.id)
      return (⟨.ofStepRun latest, none, false,
        (← Job.store (.run stepRun.runId)).status⟩ : CallbackOutcome) :=
    abides_stepRun _ fun _ _ => (plain_run _).abides.bind fun _ => preserves_pure _
  refine (plain_run _).abides.bind fun run => .ite ?_ ?_
  · refine (abides_failStep stepRun fault).bind fun _ => ?_
    exact (plain_storeSummary _).abides.bind fun _ => reports
  · exact (abides_failRun _ _).bind fun _ => reports

theorem abides_applyCallback (equipment : Equipment) (stepRun : StepRun) (envelope : Envelope) :
    Abides plan (applyCallback equipment stepRun envelope) := by
  refine .ite (plain_ignoreCallback _ _ _).abides ?_
  refine (abides_completeContained equipment stepRun.id envelope).attempt.bind fun result => ?_
  cases result with
  | ok result => exact (plain_followCallback _ _).abides
  | error fault => exact abides_recoverCallback stepRun fault

theorem abides_completeCallback (equipment : Equipment) (id : Uuid) (envelope : Envelope)
    (key? : Option String) : Abides plan (completeCallback equipment id envelope key?) := by
  have ignores : ∀ stepRun reason duplicate, Abides plan (ignoreCallback stepRun reason duplicate) :=
    fun _ _ _ => (plain_ignoreCallback _ _ _).abides
  refine abides_stepRun id fun stepRun _ => ?_
  cases key? with
  | none => exact abides_applyCallback equipment stepRun envelope
  | some key =>
    refine .ite (ignores _ _ _) (plain_now.abides.bind fun now => ?_)
    refine (abides_store (.recordCallback _ _ _) trivial).bind fun isNew => .ite ?_ (ignores _ _ _)
    refine (abides_applyCallback equipment stepRun envelope).tryCatch fun fault => ?_
    have releases : Abides plan (Job.store (.releaseCallback key)) := abides_store _ trivial
    exact (releases.tryCatch fun _ => preserves_pure _).bind fun _ => preserves_throw _

/-- Every invocation begins steps as planned and counts them soundly. -/
theorem Invocation.abides (invocation : Invocation) (equipment : Equipment) :
    (invocation.program equipment).Heeds (planning plan) () fun _ _ => True := by
  cases invocation with
  | execute runId resumeFrom =>
    exact (abides_execute equipment runId resumeFrom () trivial).forgetful
  | callback stepRunId envelope key? =>
    exact (abides_completeCallback equipment stepRunId envelope key? () trivial).forgetful
  | cancel runId => exact ((plain_cancel runId).abides () trivial).forgetful

end Abiding

end Vetting.Execution
