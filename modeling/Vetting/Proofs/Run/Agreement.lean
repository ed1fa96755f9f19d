import Vetting.Proofs.Run.Judgement
import Vetting.Proofs.Run.Rounds

/-!
Contract: it makes no difference whether a backend reports at once or by callbacks.

Owns:
- `Plugins`: plug-ins whose answers rest on what they are given;
- backends that report at once, and backends that accept jobs and report later;
- that a run ends with the same reports, status and error either way.

Does not own: the reports themselves (`Vetting.Proofs.Run.Judgement`), and executions and callbacks
in turn (`Vetting.Proofs.Run.Rounds`).
-/

namespace Vetting

open Rule (Ruleset)
open Execution

/-- Plug-ins whose answers rest on what they are given, but not on which run they work for. -/
structure Plugins where
  validate : Validator → Submission → Except EngineFault ValidationOutcome
  act : String → ActionContext → Except EngineFault ActionOutcome
  unbiased : ∀ type context runId, act type { context with runId := runId } = act type context

/-- The answers of plug-ins, and of an available backend that answers jobs in some ways. -/
def Plugins.answers (plugins : Plugins)
    (launches : JobRequest → Except BackendFault JobResponse → Prop) :
    (request : Request) → request.Answer → Prop
  | .validate validator submission, answer => answer = plugins.validate validator submission
  | .act type context, answer => answer = plugins.act type context
  | .backendAvailable, answer => answer = true
  | .launch job, answer => launches job answer
  | .store _, _ | .log _ _, _ | .stamp, _ => True

/-- The backend reports each job at once. -/
def ReportsAtOnce (envelopes : String → Envelope) (job : JobRequest)
    (answer : Except BackendFault JobResponse) : Prop :=
  ∃ response, answer = .ok response ∧ response.isComplete = true ∧
    response.envelope? = some (envelopes job.stepKey)

/-- The backend accepts each job and reports later. -/
def ReportsLater (_ : JobRequest) (answer : Except BackendFault JobResponse) : Prop :=
  ∃ response, answer = .ok response ∧ response.isComplete = false ∧ response.executionId ≠ ""

def Execution.Equipment.named (equipment : Equipment) (backendName : String) : Equipment :=
  { equipment with backendName := backendName }

/-! ### The judge of both backends -/

def Envelope.response (envelope : Envelope) : JobResponse where
  executionId := ""
  inputUri := ""
  outputUri := ""
  durationSeconds := none
  errorMessage := none
  envelope? := some envelope
  isComplete := true

/-- What plug-ins and jobs answer about the steps of a run. -/
def Plugins.replies (plugins : Plugins) (envelopes : String → Envelope) (submission : Submission) :
    Replies where
  validate validator := plugins.validate validator submission
  act earlier step type params :=
    plugins.act type ⟨.zero, step.key, params, submission, signalsOf earlier⟩
  backendAvailable := true
  launch _ step _ _ := .ok (envelopes step.key).response

section Agreement

variable {plugins : Plugins} {envelopes : String → Envelope} {submission : Submission}
  {equipment : Equipment}

/-- The name of the backend is a fact about jobs. -/
theorem Plugins.judge_named (plugins : Plugins) (envelopes : String → Envelope)
    (submission : Submission) (equipment : Equipment) (backendName : String) :
    (plugins.replies envelopes submission).judge (equipment.named backendName) submission =
      (plugins.replies envelopes submission).judge equipment submission := by
  funext earlier step
  rfl

theorem Plugins.fixed (launches : JobRequest → Except BackendFault JobResponse → Prop)
    (runId : Uuid) :
    (plugins.replies envelopes submission).Fixed (plugins.answers launches) runId submission where
  validate := fun _ _ answered => answered
  act := fun _ _ _ _ _ answered => answered.trans (plugins.unbiased _ _ _).symm
  backendAvailable := fun _ answered => answered

theorem Plugins.prompt (runId : Uuid) :
    (plugins.replies envelopes submission).Prompt (plugins.answers (ReportsAtOnce envelopes)) runId
      submission none where
  toFixed := plugins.fixed _ runId
  launch := by
    intro context earlier validator external answer _ _ _ answered
    obtain ⟨response, rfl, complete, reported⟩ := answered
    simp only [told, Except.map, complete, reported]
    rfl
  complete := by
    rintro earlier step validator external response ⟨⟩
    rfl

/-- A step waits for its job with what it has left before. -/
def WaitsForJob (equipment : Equipment) (submission : Submission) (earlier : List StepReport)
    (step : Step) (report : StepReport) : Prop :=
  ∃ validator ruleset external, step.IsJob equipment.validators validator ruleset external ∧
    let checked := inputReport equipment.checker validator ruleset submission (signalsOf earlier)
    report = .waiting step (leftBefore validator checked) checked.issues

/-- The norm of a run whose steps wait only as they may. -/
def Plugins.norm (plugins : Plugins) (envelopes : String → Envelope) (submission : Submission)
    (equipment : Equipment) (waits : List StepReport → Step → StepReport → Prop) : Norm :=
  (plugins.replies envelopes submission).norm equipment submission True none (fun _ => True) waits

def NeverWaits (_ : List StepReport) (_ : Step) (_ : StepReport) : Prop := False

theorem Plugins.sound_atOnce (plugins : Plugins) (envelopes : String → Envelope)
    (submission : Submission) (equipment : Equipment) (runId : Uuid) :
    (plugins.norm envelopes submission equipment NeverWaits).Sound
      (.unwatched (plugins.answers (ReportsAtOnce envelopes))) equipment runId submission := by
  have prompt : (plugins.replies envelopes submission).Prompt
      (Regime.unwatched (plugins.answers (ReportsAtOnce envelopes))).mayAnswer runId submission
      none := plugins.prompt runId
  exact prompt.sound True (fun _ _ _ => trivial) NeverWaits

theorem Plugins.sound_later (plugins : Plugins) (envelopes : String → Envelope)
    (submission : Submission) (equipment : Equipment) (runId : Uuid) :
    (plugins.norm envelopes submission equipment (WaitsForJob equipment submission)).Sound
      (.unwatched (plugins.answers ReportsLater)) equipment runId submission where
  cutOff := fun _ _ _ interim =>
    ⟨Replies.cutOff_of_interim (plugins.fixed ReportsLater runId) interim, trivial⟩
  allows := by
    intro context earlier conclusion ofRun sameSubmission sameSignals left _ concluded
    have decided := concluded.decided
    have fixed : (plugins.replies envelopes submission).Fixed
        (Regime.unwatched (plugins.answers ReportsLater)).mayAnswer runId submission :=
      plugins.fixed ReportsLater runId
    rcases Replies.concludes fixed ofRun sameSubmission sameSignals (left.imp_right And.left)
      concluded with
      ⟨empty, rfl⟩ | ⟨_, validator, ruleset, external, answer, isJob, may, rfl⟩
    · exact Norm.judged_allows rfl decided
        ((plugins.prompt runId).judge_ne_pending _ earlier context.step) fun _ _ => empty
    · obtain ⟨response, rfl, accepted, named⟩ := may
      unfold Conclusion.ofLaunch
      simp only [accepted, Bool.false_eq_true, if_false]
      refine ⟨?_, validator, ruleset, external, isJob, rfl⟩
      simpa [StepOutput.awaitsJob, withResponse, handedOver, interimOutput, StepOutput.empty]
        using named

/-- The callback with the report of a job makes of its step what the report itself would have. -/
theorem Plugins.takes (plugins : Plugins) (envelopes : String → Envelope) (submission : Submission)
    (equipment : Equipment) (run : Run) (step : Step) :
    (plugins.norm envelopes submission equipment (WaitsForJob equipment submission)).Takes
      equipment run (envelopes step.key) step := by
  intro earlier stepRun issues verdict error place waits settles
  obtain ⟨validator, ruleset, external, isJob, reported⟩ := waits
  have output : stepRun.output.erased = leftBefore validator
      (inputReport equipment.checker validator ruleset submission (signalsOf earlier)) :=
    congrArg StepReport.output reported
  obtain rfl : issues =
      (inputReport equipment.checker validator ruleset submission (signalsOf earlier)).issues :=
    congrArg StepReport.issues reported
  rw [Conclusion.ofCallback_some, Conclusion.ofReport_of_isJob isJob] at settles
  have judged : (plugins.replies envelopes submission).judge equipment submission earlier step =
      _ := Replies.judge_job _ submission earlier isJob rfl
  cases settles with
  | ended =>
    have allows : (plugins.norm envelopes submission equipment
        (WaitsForJob equipment submission)).Allows earlier step .empty
        (.ended (.ofEnvelope equipment.checker validator ruleset external stepRun.output
          (inputReport equipment.checker validator ruleset submission (signalsOf earlier)).issues
          (envelopes step.key) (signalsOf earlier))) := by
      refine Norm.judged_allows ?_ ?_ (fun _ _ => Conclusion.noConfusion) fun _ _ => rfl
      · rw [judged]
        exact Conclusion.erased_ofEnvelope _ _ _ _ _ _ _ output
      · rintro verdict ⟨⟩
        exact verdictStatus_decided _
    exact allows

end Agreement

/-! ### Both backends -/

section Agreement

variable {plugins : Plugins} {envelopes : String → Envelope} {submission : Submission}
  {equipment : Equipment} {run : Run}

theorem Plugins.took_atOnce (plugins : Plugins) (envelopes : String → Envelope) {origin : World}
    (fresh : run.status = .pending)
    (underway : Underway (plugins.norm envelopes submission equipment NeverWaits) submission run
      origin.store [] none .fresh) {requests : List Request} {result : Except EngineFault RunOutcome}
    {after : World}
    (executes : (execute equipment run.id none).run.Runs (plugins.answers (ReportsAtOnce envelopes))
      origin requests (some result) after) :
    ∃ later, after.store.runs.get? run.id = some later ∧
      (later.status = .succeeded ∨ later.status = .failed) ∧
      later.Took after.store True
        (course ((plugins.replies envelopes submission).judge equipment submission) []
          run.orderedSteps) := by
  have sound := plugins.sound_atOnce envelopes submission equipment run.id
  obtain ⟨later, reached, last, next, keeps, _, ended, rests⟩ :=
    underway.execute sound executes fresh fun _ no => nomatch no
  have closed : next = .succeeded ∨ next = .failed := by
    rcases rests with rfl | closed
    · cases ended.calm.stage with
      | waiting _ _ _ _ waits => exact waits.elim
    · exact closed
  exact ⟨later, ended.calm.standing.ended ended.calm.stage keeps closed⟩

theorem Plugins.round (plugins : Plugins) {origin world : World} (fresh : run.status = .pending)
    (underway : Underway (plugins.norm envelopes submission equipment
      (WaitsForJob equipment submission)) submission run origin.store [] none .fresh)
    {count : Nat} {stopped : Bool}
    (rounds : Rounds (plugins.answers ReportsLater) equipment envelopes run.id origin count stopped
      world) :
    Round (plugins.norm envelopes submission equipment (WaitsForJob equipment submission)) submission
      run count world.store stopped :=
  round_of_rounds fresh underway (plugins.sound_later envelopes submission equipment run.id)
    (fun later step => plugins.takes envelopes submission equipment later step) rounds

def Plugins.surroundings (plugins : Plugins) (launch : JobRequest → Except BackendFault JobResponse) :
    Surroundings where
  validate := plugins.validate
  act := plugins.act
  backendAvailable := true
  launch := launch

theorem Plugins.runs_runJob {α : Type} (plugins : Plugins)
    {launches : JobRequest → Except BackendFault JobResponse → Prop}
    {launch : JobRequest → Except BackendFault JobResponse} (answers : ∀ job, launches job (launch job))
    (job : Job α) (world : World) :
    ∃ requests, job.run.Runs (plugins.answers launches) world requests
      (some (World.runJob (plugins.surroundings launch) job world).1)
      (World.runJob (plugins.surroundings launch) job world).2 := by
  obtain ⟨requests, runs⟩ := World.runs_runJob (plugins.surroundings launch) job world
  refine ⟨requests, runs.mono fun request answer answered => ?_⟩
  cases request with
  | store | log | stamp => trivial
  | validate | act | backendAvailable => exact answered
  | launch job =>
    obtain rfl : answer = launch job := answered
    exact answers job

def acceptedResponse : JobResponse where
  executionId := "job"
  inputUri := ""
  outputUri := ""
  durationSeconds := none
  errorMessage := none
  envelope? := none
  isComplete := false

theorem reportsLater_accepted (job : JobRequest) : ReportsLater job (.ok acceptedResponse) :=
  ⟨acceptedResponse, rfl, rfl, by decide⟩

/-- While callbacks are to come, one can be made. -/
theorem Plugins.rounds_further (plugins : Plugins) {origin world : World} {count : Nat}
    (rounds : Rounds (plugins.answers ReportsLater) equipment envelopes run.id origin count false
      world) :
    ∃ next stopped after, Rounds (plugins.answers ReportsLater) equipment envelopes run.id origin
      next stopped after ∧ (Over run.id stopped after.store ∨ stopped = false ∧ next = count + 1) := by
  by_cases waiting : ∃ stepRun, world.store.Waits run.id stepRun
  · obtain ⟨stepRun, waits⟩ := waiting
    obtain ⟨_, calls⟩ := plugins.runs_runJob reportsLater_accepted
      (completeCallback equipment stepRun.id (envelopes stepRun.stepKey) none) world
    generalize (World.runJob _ _ _).1 = result, (World.runJob _ _ _).2 = middle at calls
    have told : Told (plugins.answers ReportsLater) equipment envelopes run.id world result middle :=
      .intro waits (Or.inl rfl) (fun _ no => nomatch no) calls
    by_cases offered : ∃ outcome order, result = .ok outcome ∧ outcome.resumeFrom = some order
    · obtain ⟨outcome, order, rfl, resumes⟩ := offered
      obtain ⟨_, runs⟩ := plugins.runs_runJob reportsLater_accepted
        (execute equipment run.id (some order)) middle
      exact ⟨count + 1, false, _, .goesOn rounds told resumes runs, Or.inr ⟨rfl, rfl⟩⟩
    · refine ⟨count + 1, true, middle, .stops rounds told fun outcome isOk => ?_, Or.inl (Or.inl rfl)⟩
      refine Option.eq_none_iff_forall_ne_some.mpr fun order resumes => offered ?_
      exact ⟨outcome, order, isOk, resumes⟩
  · exact ⟨count, false, world, rounds, Or.inl (Or.inr fun stepRun waits => waiting ⟨stepRun, waits⟩)⟩

/-- Callbacks can be made until none is to come any more. -/
theorem Plugins.rounds_over (plugins : Plugins) {origin world : World}
    (fresh : run.status = .pending)
    (underway : Underway (plugins.norm envelopes submission equipment
      (WaitsForJob equipment submission)) submission run origin.store [] none .fresh) {count : Nat}
    (rounds : Rounds (plugins.answers ReportsLater) equipment envelopes run.id origin count false
      world) :
    ∃ last stopped after, Rounds (plugins.answers ReportsLater) equipment envelopes run.id origin
      last stopped after ∧ Over run.id stopped after.store := by
  obtain ⟨next, stopped, after, later, isOver | ⟨rfl, rfl⟩⟩ :=
    plugins.rounds_further rounds
  · exact ⟨next, stopped, after, later, isOver⟩
  · have atMost := (plugins.round fresh underway later).count_le
    exact plugins.rounds_over fresh underway later
termination_by run.steps.length - count

/-- A run comes to the same end whether its jobs report at once or later by callbacks, of which there
are no more than steps. -/
theorem backends_agree (plugins : Plugins) (envelopes : String → Envelope) (equipment : Equipment)
    (backend otherBackend : String) {steps : List Step} (distinct : DistinctSteps steps)
    (submission : Submission) (id otherId workflowId otherWorkflowId : Uuid)
    (now otherNow : Timestamp) {origin otherOrigin : World}
    (unbegun : origin.store.Unbegun (.fresh id workflowId submission.id steps now))
    (submitted : origin.store.submissions.get? submission.id = some submission)
    (otherUnbegun : otherOrigin.store.Unbegun
      (.fresh otherId otherWorkflowId submission.id steps otherNow))
    (otherSubmitted : otherOrigin.store.submissions.get? submission.id = some submission)
    {requests : List Request} {result : Except EngineFault RunOutcome} {after : World}
    (executes : (execute (equipment.named backend) id none).run.Runs
      (plugins.answers (ReportsAtOnce envelopes)) origin requests (some result) after) :
    (∃ count stopped world, Rounds (plugins.answers ReportsLater) (equipment.named otherBackend)
      envelopes otherId otherOrigin count stopped world ∧ Over otherId stopped world.store) ∧
    ∀ count stopped world, Rounds (plugins.answers ReportsLater) (equipment.named otherBackend)
      envelopes otherId otherOrigin count stopped world →
      count ≤ steps.length ∧
        (Over otherId stopped world.store → ∃ run other, after.store.runs.get? id = some run ∧
          world.store.runs.get? otherId = some other ∧ EndAlike after.store run world.store other ∧
          other.error = run.error) := by
  have ordered := Run.wellOrdered_fresh distinct id workflowId submission.id now
  have otherOrdered := Run.wellOrdered_fresh distinct otherId otherWorkflowId submission.id otherNow
  have underway : Underway (plugins.norm envelopes submission (equipment.named otherBackend)
      (WaitsForJob (equipment.named otherBackend) submission)) submission _ otherOrigin.store [] none
      .fresh := otherUnbegun.underway otherOrdered rfl rfl otherSubmitted rfl
  obtain ⟨later, held, closed, took⟩ := plugins.took_atOnce envelopes rfl
    (unbegun.underway ordered rfl rfl submitted rfl) executes
  constructor
  · obtain ⟨_, runs⟩ := plugins.runs_runJob reportsLater_accepted
      (execute (equipment.named otherBackend) otherId none) otherOrigin
    exact plugins.rounds_over rfl underway (.begun runs)
  · intro count stopped world rounds
    have round := plugins.round rfl underway rounds
    have atMost := round.count_le
    rw [Run.fresh, Run.inOrder, List.length_mergeSort] at atMost
    refine ⟨atMost, fun isOver => ?_⟩
    obtain ⟨otherLater, otherHeld, _, otherTook⟩ := round.took isOver
    rw [Plugins.judge_named] at took otherTook
    exact ⟨later, otherLater, held, otherHeld, took.alike closed otherTook,
      (otherTook.error trivial).trans (took.error trivial).symm⟩

end Agreement

/-! ### A run whose job reports success -/

namespace Example

/-- Plug-ins that are content with everything. -/
def plugins : Plugins where
  validate _ _ := .ok ⟨true, [], []⟩
  act _ _ := .ok ⟨true, none, []⟩
  unbiased _ _ _ := rfl

def reported : World :=
  (World.runJob (plugins.surroundings fun _ => .ok envelope.response)
    (execute (equipment.named "local") run.id none) world).2

theorem reported_alike : ∃ count stopped after,
    Rounds (plugins.answers ReportsLater) (equipment.named "remote") (fun _ => envelope) run.id world
      count stopped after ∧ ∃ once later, reported.store.runs.get? run.id = some once ∧
      after.store.runs.get? run.id = some later ∧ EndAlike reported.store once after.store later ∧
      later.error = once.error := by
  have answers : ∀ job, ReportsAtOnce (fun _ => envelope) job (.ok envelope.response) :=
    fun _ => ⟨_, rfl, rfl, rfl⟩
  obtain ⟨_, executes⟩ := plugins.runs_runJob answers
    (execute (equipment.named "local") run.id none) world
  have submitted : world.store.submissions.get? submission.id = some submission := rfl
  have unbegun : world.store.Unbegun run := unbegun_store
  obtain ⟨⟨count, stopped, after, rounds, isOver⟩, agree⟩ := backends_agree plugins
    (fun _ => envelope) equipment "local" "remote" distinct_steps submission run.id run.id
    run.workflowId run.workflowId ⟨0, 0⟩ ⟨0, 0⟩ unbegun submitted unbegun submitted executes
  exact ⟨count, stopped, after, rounds, (agree count stopped after rounds).2 isOver⟩

end Example

end Vetting