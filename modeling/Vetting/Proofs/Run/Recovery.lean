import Vetting.Proofs.Run.History
import Vetting.Proofs.Run.Judgement

/-!
Contract: a run whose executions are stopped anywhere comes to the end of one that is not.

Owns:
- backends that end every job at once, whatever the attempt;
- `Held`: how a run stands wherever an execution of it may be stopped;
- `Interrupted`: executions of a run, each of which may be stopped;
- that the last execution leaves what a single one would have left, unless a step waits.

Does not own: what an execution does to a run (`Vetting.Proofs.Run.Executing`).

A step whose job has ended without a report is stored once more before it fails.  Found
then, it waits for a report if its job has a name, although none is to come.
-/

namespace Vetting

open Execution
open Store (Elsewhere)

/-! ### Backends that end every job at once -/

/-- Every job ends at once, and what is said of its work rests neither on the attempt nor on the
token. -/
structure Execution.Surroundings.Steady (surroundings : Surroundings) : Prop where
  complete : ∀ job response, surroundings.launch job = .ok response → response.isComplete = true
  steady : ∀ job attempt key,
    told (surroundings.launch { job with attempt, idempotencyKey := key }) =
      told (surroundings.launch job)

/-- A job that ends without a report has no name. -/
def Execution.Surroundings.Nameless (surroundings : Surroundings) : Prop :=
  ∀ job response, surroundings.launch job = .ok response → response.envelope? = none →
    response.executionId = ""

/-- What plug-ins and jobs answer about the steps of a run whose step runs are numbered from a first
one on. -/
def Execution.Surroundings.replies (surroundings : Surroundings) (runId : Uuid)
    (submission : Submission) (first : Nat) : Replies where
  validate validator := surroundings.validate validator submission
  act earlier step type params :=
    surroundings.act type ⟨runId, step.key, params, submission, signalsOf earlier⟩
  backendAvailable := surroundings.backendAvailable
  launch earlier step validator external := surroundings.launch {
    runId, stepRunId := ⟨first + earlier.length⟩, stepKey := step.key, attempt := 0
    validatorType := validator.type, config := external.jobConfig validator
    fileType := submission.fileType, input := submission.content, idempotencyKey := "" }

section Recovery

variable {surroundings : Surroundings} {equipment : Equipment} {submission : Submission}
  {runId : Uuid} {first : Nat}

theorem Execution.Surroundings.Steady.prompt (steady : surroundings.Steady) (runId : Uuid)
    (submission : Submission) (first : Nat) :
    (surroundings.replies runId submission first).Prompt surroundings.answers runId submission
      (some first) where
  validate := fun _ _ answered => answered
  act := fun _ _ _ _ _ answered => answered
  backendAvailable := fun _ answered => answered
  launch := by
    rintro context earlier validator external answer rfl rfl numbered rfl
    have isNumber := numbered first rfl
    have sameId : context.stepRun.id = ⟨first + earlier.length⟩ := congrArg Uuid.mk isNumber
    rw [jobRequest, sameId]
    exact steady.steady ⟨context.run.id, ⟨first + earlier.length⟩, context.step.key, 0,
      validator.type, external.jobConfig validator, context.submission.fileType,
      context.submission.content, ""⟩ _ _
  complete := fun _ _ _ _ response launched => steady.complete _ response launched

/-- The norm of a run that may be stopped anywhere, and in which steps wait only on a condition. -/
def recoveryNorm (surroundings : Surroundings) (equipment : Equipment) (runId : Uuid)
    (submission : Submission) (first : Nat) (waiting : Prop) : Norm :=
  (surroundings.replies runId submission first).norm equipment submission False (some first)
    (fun output => output.awaitsJob = true → ¬ surroundings.Nameless) fun _ _ _ => waiting

/-- The work of a step that is stored before it ends awaits a job only if that has a name. -/
theorem Execution.Surroundings.Steady.interim {context : StepContext} {output : StepOutput}
    (interim : Interim surroundings.answers equipment context output)
    (awaits : output.awaitsJob = true) : ¬ surroundings.Nameless := by
  intro nameless
  obtain ⟨validator, ruleset, external, _, _, _, rfl | ⟨response, launched, _, unreported, rfl⟩⟩ :=
    interim
  · simp [StepOutput.awaitsJob, handedOver, interimOutput] at awaits
  · have noName := nameless _ response launched.symm unreported
    simp [StepOutput.awaitsJob, withResponse, handedOver, interimOutput, noName] at awaits

theorem Execution.Surroundings.Steady.sound (steady : surroundings.Steady) (equipment : Equipment)
    (runId : Uuid) (submission : Submission) (first : Nat) (waiting : Prop)
    (watch : World → Request → Prop) :
    (recoveryNorm surroundings equipment runId submission first waiting).Sound
      ⟨surroundings.answers, watch⟩ equipment runId submission := by
  have prompt : (surroundings.replies runId submission first).Prompt
      (Regime.mk surroundings.answers watch).mayAnswer runId submission (some first) :=
    steady.prompt runId submission first
  exact prompt.sound False (fun _ _ interim awaits => Steady.interim interim awaits) _

/-! ### Wherever an execution is stopped -/

/-- How a run stands wherever an execution of it may be stopped. -/
structure Held (norm : Norm) (submission : Submission) (run later : Run) (store : Store)
    (settled : List StepRun) (current : Option StepRun) (phase : Phase) : Prop where
  keeps : run.Keeps later
  wanted : later.cancelRequested = false
  standing : Standing norm store later store settled current
  stage : Stage norm later store settled phase current
  submitted : store.submissions.get? later.submissionId = some submission

/-- A run is held in one of its stages. -/
def Holds (norm : Norm) (submission : Submission) (run : Run) (store : Store) : Prop :=
  ∃ later settled current phase, Held norm submission run later store settled current phase

variable {norm : Norm} {run later : Run} {store : Store} {settled : List StepRun}
  {current : Option StepRun} {phase : Phase}

theorem Held.moves (held : Held norm submission run later store settled current phase)
    {last : Run} {after : Store} {reached : List StepRun} {final : Option StepRun} {next : Phase}
    (keeps : later.Keeps last) (flag : last.cancelRequested = later.cancelRequested)
    (standing : Standing norm store last after reached final)
    (stage : Stage norm last after reached next final) :
    Held norm submission later last after reached final next where
  keeps := keeps
  wanted := flag.trans held.wanted
  standing := standing.rebase
  stage := stage
  submitted := by
    rw [standing.elsewhere.submissions, keeps.submissionId]
    exact held.submitted

theorem Held.guards (held : Held norm submission run later store settled current phase)
    (mayAnswer : (request : Request) → request.Answer → Prop) :
    Guards ⟨mayAnswer, fun world _ => Holds norm submission later world.store⟩
      (Holds norm submission later) norm store later where
  watches := fun _ _ holds => holds
  allows := fun _ _ _ _ _ keeps flag standing stage =>
    ⟨_, _, _, _, held.moves keeps flag standing stage⟩

/-- A held run that is running may be taken on from, if its step at work may await a job. -/
theorem Held.ready {waiting : Prop}
    (held : Held (recoveryNorm surroundings equipment runId submission first waiting) submission run
      later store settled current phase) (status : later.status = .running)
    (mayWait : ∀ stepRun, current = some stepRun → stepRun.status = .running →
      stepRun.awaitsJob = true → waiting) :
    Ready (recoveryNorm surroundings equipment runId submission first waiting) later store settled
      current := by
  have stage := held.stage
  cases stage with
  | fresh pending =>
    rw [pending] at status
    cases status
  | between => trivial
  | waiting _ isStep running awaits waits => exact ⟨_, isStep, Or.inl ⟨running, awaits, waits⟩⟩
  | @working step stepRun _ isStep running left =>
    refine ⟨step, isStep, ?_⟩
    cases awaits : stepRun.awaitsJob with
    | true => exact Or.inl ⟨running, rfl, mayWait stepRun rfl running awaits⟩
    | false => exact Or.inr (Or.inl ⟨running, rfl, left⟩)
  | failing _ isStep ended fails =>
    obtain ⟨own, fails, _⟩ := fails
    exact ⟨_, isStep, Or.inr (Or.inr ⟨ended, own, fails, fun no => no.elim⟩)⟩
  | succeeded closed | failed closed | lost closed | canceled closed =>
    rw [closed] at status
    cases status

/-- A step at work awaits a job only if there are jobs with names that end without a report. -/
theorem Held.mayAwait
    (held : Held (recoveryNorm surroundings equipment runId submission first
      (¬ surroundings.Nameless)) submission run later store settled current phase)
    (stepRun : StepRun) (isCurrent : current = some stepRun) (running : stepRun.status = .running)
    (awaits : stepRun.awaitsJob = true) : ¬ surroundings.Nameless := by
  subst isCurrent
  cases held.stage with
  | waiting _ _ _ _ waits => exact waits
  | working _ _ _ left =>
    rcases left with empty | ⟨_, mayAwait⟩
    · rw [StepRun.awaitsJob, empty] at awaits
      cases awaits
    · exact mayAwait awaits
  | failing _ _ ended _ | failed _ _ ended _ =>
    rw [running] at ended
    cases ended
  | canceled _ _ asked =>
    rw [held.wanted] at asked
    cases asked

/-- What an execution from the first step on makes of a held run. -/
inductive Resumed (norm : Norm) (submission : Submission) (later : Run) (settled : List StepRun)
    (current : Option StepRun) (store : Store) : Prop
  | intro {last : Run} {reached : List StepRun} {final : Option StepRun} {next : Phase}
      (held : Held norm submission later last store reached final next) (rest : next.isRest = true)
      (advances : Advances settled current reached final)

theorem Held.ensures_resume {mayAnswer : (request : Request) → request.Answer → Prop}
    (held : Held norm submission run later store settled current phase) (ordered : run.WellOrdered)
    (sound : ∀ watch, norm.Sound ⟨mayAnswer, watch⟩ equipment run.id submission)
    (begun : later.status ≠ .pending)
    (ready : later.status = .running → Ready norm later store settled current) {order : Int}
    (below : ∀ step ∈ run.steps, order ≤ step.order) (log : EventLog) (clock : Nat) :
    Ensures ⟨mayAnswer, fun world _ => Holds norm submission later world.store⟩
      (execute equipment run.id (some order)) ⟨store, log, clock⟩
      (fun _ after => Resumed norm submission later settled current after.store)
      fun _ _ => False := by
  have guards := held.guards mayAnswer
  rw [← held.keeps.id] at sound ⊢
  have here : Held norm submission later later store settled current phase :=
    held.moves (.refl later) rfl held.standing held.stage
  by_cases status : later.status = .running
  · have covered : ∀ step ∈ later.orderedSteps, step.order < order →
        step.place ∈ settled.map StepRun.place := by
      intro step member less
      rw [held.keeps.orderedSteps] at member
      have atLeast := below step (Run.mem_orderedSteps.mp member)
      omega
    exact ensures_execute_resume held.standing guards (held.keeps.wellOrdered ordered) (sound _)
      status (ready status) held.submitted order covered
      fun last reached final next after comes =>
        .intro (held.moves comes.keeps comes.flag comes.standing comes.stage) comes.rest
          comes.advances
  · have rest : phase.isRest = true := by
      cases held.stage with
      | fresh pending => exact absurd pending begun
      | between running | waiting running | working running | failing running =>
        exact absurd running status
      | succeeded | failed | lost | canceled => rfl
    have holds : Holds norm submission later store := ⟨later, settled, current, phase, here⟩
    exact ensures_execute_stopped (fun world request kept _ => guards.watches world request kept)
      held.standing.held holds status order fun log clock => .intro here rest (.refl settled current)

theorem follows_recoveryNorm {waiting other : Prop} {earlier reports : List StepReport}
    {steps : List Step}
    (follows : (recoveryNorm surroundings equipment runId submission first waiting).Follows earlier
      steps reports) :
    (recoveryNorm surroundings equipment runId submission first other).Follows earlier steps
      reports := by
  induction reports generalizing earlier steps with
  | nil => trivial
  | cons report reports inductionHypothesis =>
    cases steps with
    | nil => exact follows
    | cons step steps => exact ⟨follows.1, inductionHypothesis follows.2⟩

/-- On which condition steps may wait does not matter to a run in which no step waits. -/
theorem Held.when {waiting other : Prop}
    (held : Held (recoveryNorm surroundings equipment runId submission first waiting) submission run
      later store settled current phase) (mayWait : phase = .waiting → other) :
    Held (recoveryNorm surroundings equipment runId submission first other) submission run later
      store settled current phase where
  keeps := held.keeps
  wanted := held.wanted
  standing := { held.standing with
    follows := follows_recoveryNorm held.standing.follows
    numbered := held.standing.numbered }
  stage := by
    cases held.stage with
    | fresh status untouched => exact .fresh status untouched
    | between status => exact .between status
    | waiting status isStep running awaits _ =>
      exact .waiting status isStep running awaits (mayWait rfl)
    | working status isStep running left => exact .working status isStep running left
    | failing status isStep ended fails => exact .failing status isStep ended fails
    | succeeded status error whole => exact .succeeded status error whole
    | failed status isStep ended fails => exact .failed status isStep ended fails
    | lost status error untouched missing => exact .lost status error untouched missing
    | canceled status error asked => exact .canceled status error asked
  submitted := held.submitted

/-! ### Executions that are stopped -/

/-- A run is executed, and executed further from its first step on, any number of times.  Each of the
executions may be stopped anywhere, the first one after the run has begun. -/
inductive Interrupted (mayAnswer : (request : Request) → request.Answer → Prop)
    (equipment : Equipment) (run : Run) (origin : World) : World → Prop
  | first {requests : List Request} {result? : Option (Except EngineFault RunOutcome)}
      {after : World}
      (runs : (execute equipment run.id none).run.Runs mayAnswer origin requests result? after)
      (begun : ∀ later, after.store.runs.get? run.id = some later → later.status ≠ .pending) :
    Interrupted mayAnswer equipment run origin after
  | again {world after : World} {order : Int} {requests : List Request}
      {result? : Option (Except EngineFault RunOutcome)}
      (earlier : Interrupted mayAnswer equipment run origin world)
      (below : ∀ step ∈ run.steps, order ≤ step.order)
      (runs : (execute equipment run.id (some order)).run.Runs mayAnswer world requests result?
        after) :
    Interrupted mayAnswer equipment run origin after

/-- A store in which nothing of a run has begun holds it as it is. -/
theorem Store.Unbegun.holds (unbegun : store.Unbegun run) (fresh : run.status = .pending)
    (wanted : run.cancelRequested = false)
    (submitted : store.submissions.get? run.submissionId = some submission) (waiting : Prop) :
    Held (recoveryNorm surroundings equipment runId submission store.freshId.number waiting)
      submission run run store [] none .fresh where
  keeps := .refl run
  wanted := wanted
  standing := by
    refine ⟨unbegun.coherent, unbegun.writable, unbegun.held, unbegun.stepRuns, List.nil_prefix, ?_,
      trivial, ?_, .refl _ _⟩
    · exact fun _ member => nomatch member
    · rintro _ ⟨⟩
      exact ⟨rfl, fun _ _ no => nomatch no⟩
  stage := .fresh fresh rfl
  submitted := submitted

/-- What an execution from the beginning makes of a run that has not begun. -/
theorem Held.ensures_start {mayAnswer : (request : Request) → request.Answer → Prop}
    (held : Held norm submission run run store [] none .fresh) (ordered : run.WellOrdered)
    (fresh : run.status = .pending)
    (sound : ∀ watch, norm.Sound ⟨mayAnswer, watch⟩ equipment run.id submission) (log : EventLog)
    (clock : Nat) :
    Ensures ⟨mayAnswer, fun world _ => Holds norm submission run world.store⟩
      (execute equipment run.id none) ⟨store, log, clock⟩
      (fun _ after => Resumed norm submission run [] none after.store)
      fun _ _ => False :=
  ensures_execute_start held.standing (held.guards mayAnswer) ordered (sound _) fresh held.submitted
    fun _ _ _ _ _ comes => .intro (held.moves comes.keeps comes.flag comes.standing comes.stage)
      comes.rest comes.advances

/-- Wherever the executions have been stopped, the run is held and has begun. -/
theorem held_of_interrupted (steady : surroundings.Steady) (ordered : run.WellOrdered)
    (fresh : run.status = .pending) {origin world : World}
    (held : Held (recoveryNorm surroundings equipment run.id submission first
      (¬ surroundings.Nameless)) submission run run origin.store [] none .fresh)
    (interrupted : Interrupted surroundings.answers equipment run origin world) :
    ∃ later settled current phase, later.status ≠ .pending ∧
      Held (recoveryNorm surroundings equipment run.id submission first (¬ surroundings.Nameless))
        submission run later world.store settled current phase := by
  have sound := fun watch => steady.sound equipment run.id submission first
    (¬ surroundings.Nameless) watch
  induction interrupted with
  | @first _ _ after runs begun =>
    obtain ⟨later, settled, current, phase, held⟩ : Holds _ submission run after.store :=
      runs.remains ((held.ensures_start ordered fresh sound _ _).imp
        (fun _ _ ⟨held, _, _⟩ => ⟨_, _, _, _, held⟩) fun _ _ => False.elim)
    refine ⟨later, settled, current, phase, begun later ?_, held⟩
    rw [← held.keeps.id]
    exact held.standing.held
  | @again world after order _ _ earlier below runs inductionHypothesis =>
    obtain ⟨later, settled, current, phase, begun, held⟩ := inductionHypothesis
    have ready := fun status => held.ready status held.mayAwait
    obtain ⟨last, reached, final, next, heldAfter⟩ : Holds _ submission later after.store :=
      runs.remains ((held.ensures_resume ordered sound begun ready below _ _).imp
        (fun _ _ ⟨held, _, _⟩ => ⟨_, _, _, _, held⟩) fun _ _ => False.elim)
    exact ⟨last, reached, final, next, begun ∘ heldAfter.keeps.begun,
      { heldAfter with keeps := held.keeps.trans heldAfter.keeps }⟩

/-! ### The last execution -/

/-- The step run that waits is the last one that has begun. -/
theorem Held.waits (held : Held norm submission run later store settled current phase)
    {stepRun : StepRun} : store.Waits run.id stepRun ↔
      current = some stepRun ∧ stepRun.status = .running ∧ stepRun.awaitsJob = true := by
  have standing := held.standing
  rw [← held.keeps.id]
  constructor
  · rintro ⟨member, running, awaits⟩
    obtain ⟨found, ofRun⟩ := standing.coherent.mem_stepRunsOf.mp member
    refine ⟨standing.current_of_running found ofRun ?_, running, awaits⟩
    rw [running]
    rfl
  · rintro ⟨rfl, running, awaits⟩
    refine ⟨?_, running, awaits⟩
    rw [standing.begun]
    simp

/-- A run in which no step may wait has taken its course when an execution of it is over. -/
theorem Resumed.took
    (resumed : Resumed (recoveryNorm surroundings equipment runId submission first False) submission
      later settled current store) :
    ∃ last, store.runs.get? later.id = some last ∧
      (last.status = .succeeded ∨ last.status = .failed) ∧
      last.Took store False (course ((surroundings.replies runId submission first).judge equipment
        submission) [] later.orderedSteps) := by
  obtain @⟨last, reached, final, next, held, rest, _⟩ := resumed
  have stage := held.stage
  have closed : next = .succeeded ∨ next = .failed := by
    rcases stage.rests rest held.wanted held.submitted with rfl | closed
    · cases stage with
      | waiting _ _ _ _ waits => exact waits.elim
    · exact closed
  exact ⟨last, held.standing.ended stage held.keeps closed⟩

/-- While a step waits, an execution does not close its run. -/
theorem Resumed.stays {stepRun : StepRun}
    (resumed : Resumed norm submission later settled (some stepRun) store)
    (running : stepRun.status = .running) (awaits : stepRun.awaitsJob = true) :
    ∃ last, store.runs.get? later.id = some last ∧ last.status = .running := by
  obtain @⟨last, reached, final, next, held, rest, advances⟩ := resumed
  obtain ⟨rfl, rfl⟩ := advances.stays stepRun rfl (Or.inl awaits)
  refine ⟨last, ?_, ?_⟩
  · rw [← held.keeps.id]
    exact held.standing.held
  · cases held.stage with
    | waiting status => exact status
    | working | failing => cases rest
    | failed _ _ ended _ =>
      rw [running] at ended
      cases ended
    | canceled _ _ asked =>
      rw [held.wanted] at asked
      cases asked

/-- What the last execution leaves, unless a step waits. -/
theorem Held.recovers (steady : surroundings.Steady) (ordered : run.WellOrdered)
    {world after : World}
    (held : Held (recoveryNorm surroundings equipment run.id submission first
      (¬ surroundings.Nameless)) submission run later world.store settled current phase)
    (begun : later.status ≠ .pending) {order : Int} (below : ∀ step ∈ run.steps, order ≤ step.order)
    {requests : List Request} {result : Except EngineFault RunOutcome}
    (resumes : (execute equipment run.id (some order)).run.Runs surroundings.answers world requests
      (some result) after)
    (noneWaits : ∀ stepRun, ¬ world.store.Waits run.id stepRun) :
    ∃ last, after.store.runs.get? run.id = some last ∧
      (last.status = .succeeded ∨ last.status = .failed) ∧
      last.Took after.store False (course ((surroundings.replies run.id submission first).judge
        equipment submission) [] run.orderedSteps) := by
  have neverWaits : ∀ stepRun, current = some stepRun → stepRun.status = .running →
      stepRun.awaitsJob = true → False :=
    fun stepRun isCurrent running awaits =>
      noneWaits stepRun (held.waits.mpr ⟨isCurrent, running, awaits⟩)
  have heldStill : Held (recoveryNorm surroundings equipment run.id submission first False)
      submission run later world.store settled current phase := by
    apply held.when
    intro isWaiting
    have stage := held.stage
    subst isWaiting
    cases stage with
    | waiting _ _ running awaits _ => exact neverWaits _ rfl running awaits
  have sound := fun watch => steady.sound equipment run.id submission first False watch
  have ensures := heldStill.ensures_resume ordered sound begun
    (fun status => heldStill.ready status neverWaits) below world.log world.clock
  have resumed := Program.Runs.leaves resumes ensures
  obtain ⟨last, heldLast, closed, took⟩ := resumed.took
  rw [held.keeps.id] at heldLast
  rw [held.keeps.orderedSteps] at took
  exact ⟨last, heldLast, closed, took⟩

theorem Held.ends_alike_iff (steady : surroundings.Steady) (ordered : run.WellOrdered)
    (fresh : run.status = .pending) {origin finished world after : World}
    (held : ∀ waiting, Held (recoveryNorm surroundings equipment run.id submission first waiting)
      submission run run origin.store [] none .fresh)
    {requests : List Request} {result : Except EngineFault RunOutcome}
    (executes : (execute equipment run.id none).run.Runs surroundings.answers origin requests
      (some result) finished)
    (interrupted : Interrupted surroundings.answers equipment run origin world)
    {order : Int} (below : ∀ step ∈ run.steps, order ≤ step.order)
    {otherRequests : List Request} {otherResult : Except EngineFault RunOutcome}
    (resumes : (execute equipment run.id (some order)).run.Runs surroundings.answers world
      otherRequests (some otherResult) after) :
    ((∃ ended recovered, finished.store.runs.get? run.id = some ended ∧
        after.store.runs.get? run.id = some recovered ∧
        EndAlike finished.store ended after.store recovered) ↔
      ∀ stepRun, ¬ world.store.Waits run.id stepRun) ∧
    (surroundings.Nameless → ∀ stepRun, ¬ world.store.Waits run.id stepRun) := by
  obtain ⟨later, settled, current, phase, begun, heldLater⟩ :=
    held_of_interrupted steady ordered fresh (held _) interrupted
  refine ⟨⟨?_, fun noneWaits => ?_⟩, fun nameless stepRun waits => ?_⟩
  · rintro ⟨ended, recovered, _, heldRecovered, alike⟩ stepRun waits
    -- The last execution leaves the run running, and runs that have ended alike are closed.
    obtain ⟨rfl, running, awaits⟩ := heldLater.waits.mp waits
    have sound := fun watch => steady.sound equipment run.id submission first
      (¬ surroundings.Nameless) watch
    have resumed := Program.Runs.leaves resumes (heldLater.ensures_resume ordered sound begun
      (fun status => heldLater.ready status heldLater.mayAwait) below world.log world.clock)
    obtain ⟨last, heldLast, status⟩ := resumed.stays running awaits
    rw [heldLater.keeps.id, heldRecovered] at heldLast
    cases heldLast
    have closed := alike.closed
    rw [← alike.status, status] at closed
    rcases closed with no | no <;> cases no
  · have sound := fun watch => steady.sound equipment run.id submission first False watch
    have whole := Program.Runs.leaves executes ((held False).ensures_start ordered fresh sound
      origin.log origin.clock)
    obtain ⟨ended, heldEnded, closed, took⟩ := whole.took
    obtain ⟨recovered, heldRecovered, _, otherTook⟩ :=
      heldLater.recovers steady ordered begun below resumes noneWaits
    exact ⟨ended, recovered, heldEnded, heldRecovered, took.alike closed otherTook⟩
  · obtain ⟨isCurrent, running, awaits⟩ := heldLater.waits.mp waits
    exact heldLater.mayAwait stepRun isCurrent running awaits nameless

/-- A run whose executions have been stopped comes to the end of one that has not, exactly if no step
waits for a job before its last execution; none does if only jobs that report have names. -/
theorem recovers_iff (steady : surroundings.Steady) (equipment : Equipment) {steps : List Step}
    (distinct : DistinctSteps steps) (submission : Submission) (id workflowId : Uuid)
    (now : Timestamp) {origin finished world after : World}
    (unbegun : origin.store.Unbegun (.fresh id workflowId submission.id steps now))
    (submitted : origin.store.submissions.get? submission.id = some submission)
    {requests : List Request} {result : Except EngineFault RunOutcome}
    (executes : (execute equipment id none).run.Runs surroundings.answers origin requests
      (some result) finished)
    (interrupted : Interrupted surroundings.answers equipment
      (.fresh id workflowId submission.id steps now) origin world)
    {order : Int} (below : ∀ step ∈ steps, order ≤ step.order)
    {otherRequests : List Request} {otherResult : Except EngineFault RunOutcome}
    (resumes : (execute equipment id (some order)).run.Runs surroundings.answers world otherRequests
      (some otherResult) after) :
    ((∃ ended recovered, finished.store.runs.get? id = some ended ∧
        after.store.runs.get? id = some recovered ∧
        EndAlike finished.store ended after.store recovered) ↔
      ∀ stepRun, ¬ world.store.Waits id stepRun) ∧
    (surroundings.Nameless → ∀ stepRun, ¬ world.store.Waits id stepRun) := by
  have ordered := Run.wellOrdered_fresh distinct id workflowId submission.id now
  have belowAll : ∀ step ∈ Run.inOrder steps, order ≤ step.order :=
    fun step member => below step (List.mem_mergeSort.mp member)
  exact Held.ends_alike_iff steady ordered rfl (fun waiting => unbegun.holds rfl rfl submitted waiting)
    executes interrupted belowAll resumes

end Recovery

/-! ### Runs that are stopped in good time and at a bad moment -/

namespace Example

/-- The response of a job that has ended without a report. -/
def unreported : JobResponse := { accepted with isComplete := true }

theorem steady_of_complete {response : JobResponse} (complete : response.isComplete = true) :
    (surroundings response).Steady where
  complete := by
    rintro job response ⟨⟩
    exact complete
  steady _ _ _ := rfl

theorem nameless_reporting : (surroundings reporting).Nameless := by
  rintro job response ⟨⟩ no
  cases no

/-- The world in which the run has just begun. -/
def begun : World := (World.runJob (surroundings reporting) (enterRun run.id none) world).2

/-- The execution is stopped before it reads the run that it has begun. -/
theorem interrupted_begun :
    Interrupted (surroundings reporting).answers equipment run world begun := by
  have stops : World.stopped? (surroundings reporting) 4 (execute equipment run.id none).run world =
      some begun := rfl
  obtain ⟨requests, runs⟩ := World.runs_stopped _ stops
  refine .first runs fun later held => ?_
  have isStarted : begun.store.runs.get? run.id = some (started run (World.stampOf 0).time) := rfl
  rw [isStarted] at held
  cases held
  exact fun no => nomatch no

def finished (response : JobResponse) : World :=
  (World.runJob (surroundings response) (execute equipment run.id none) world).2

def resumed (response : JobResponse) (stopped : World) : World :=
  (World.runJob (surroundings response) (execute equipment run.id (some 10)) stopped).2

theorem recovered_alike : ∃ ended later,
    (finished reporting).store.runs.get? run.id = some ended ∧
    (resumed reporting begun).store.runs.get? run.id = some later ∧
    EndAlike (finished reporting).store ended (resumed reporting begun).store later := by
  obtain ⟨_, executes⟩ :=
    World.runs_runJob (surroundings reporting) (execute equipment run.id none) world
  obtain ⟨_, resumes⟩ :=
    World.runs_runJob (surroundings reporting) (execute equipment run.id (some 10)) begun
  have below : ∀ step ∈ steps, 10 ≤ step.order := by decide
  obtain ⟨recovers, noneWaits⟩ := recovers_iff (steady_of_complete rfl) equipment distinct_steps
    submission run.id run.workflowId ⟨0, 0⟩ unbegun_store rfl executes interrupted_begun below resumes
  exact recovers.mpr (noneWaits nameless_reporting)

theorem steps_started (time : Timestamp) :
    ((started run time).orderedSteps.filter fun step => leastOrder ≤ step.order) = steps := by
  have ordered : (started run time).orderedSteps = Run.inOrder (Run.inOrder steps) := rfl
  rw [ordered, inOrder_steps, inOrder_steps]
  rfl

/-- The eleventh request of the steps keeps the name of the job.  The finding that the job has not
reported is still to come. -/
theorem waits_stopped : ∃ stopped,
    World.stopped? (surroundings unreported) 11
      (takeSteps equipment (started run (World.stampOf 0).time) submission steps).run begun =
        some stopped ∧
    (∃ later, stopped.store.runs.get? run.id = some later ∧ later.status = .running) ∧
    ∃ stepRun, stopped.store.Waits run.id stepRun := by
  refine ⟨_, rfl, ⟨_, rfl, rfl⟩, ?_⟩
  simp only [Store.Waits, Store.stepRunsOf, List.mem_mergeSort]
  exact ⟨_, .head _, rfl, rfl⟩

theorem runs_unreported {stopped : World}
    (stops : World.stopped? (surroundings unreported) 11
      (takeSteps equipment (started run (World.stampOf 0).time) submission steps).run begun =
        some stopped) :
    ∃ requests, (execute equipment run.id none).run.Runs (surroundings unreported).answers world
      requests none stopped := by
  rw [← steps_started (World.stampOf 0).time] at stops
  obtain ⟨requests, runs⟩ := World.runs_stopped _ stops
  have ask := World.answers_answer (surroundings unreported)
  exact ⟨_, .asked (ask _ _) (.asked (ask _ _) (.asked (ask _ _) (.asked (ask _ _)
    (.asked (ask _ _) (.asked (ask _ _) (.bind_stopped (.bind_stopped runs _) _))))))⟩

/-- Stopped before the finding that its job has not reported, the first step waits for the report,
and going on does not end the run. -/
theorem not_recovered : ∃ stopped,
    Interrupted (surroundings unreported).answers equipment run world stopped ∧
    ¬ ∃ ended later, (finished unreported).store.runs.get? run.id = some ended ∧
      (resumed unreported stopped).store.runs.get? run.id = some later ∧
      EndAlike (finished unreported).store ended (resumed unreported stopped).store later := by
  obtain ⟨stopped, stops, ⟨later, held, running⟩, stepRun, waits⟩ := waits_stopped
  obtain ⟨_, runs⟩ := runs_unreported stops
  have interrupted : Interrupted (surroundings unreported).answers equipment run world stopped := by
    refine .first runs fun other isOther => ?_
    rw [held] at isOther
    cases isOther
    rw [running]
    exact fun no => nomatch no
  obtain ⟨_, executes⟩ :=
    World.runs_runJob (surroundings unreported) (execute equipment run.id none) world
  obtain ⟨_, resumes⟩ :=
    World.runs_runJob (surroundings unreported) (execute equipment run.id (some 10)) stopped
  have ordered : run.WellOrdered :=
    Run.wellOrdered_fresh distinct_steps run.id run.workflowId submission.id ⟨0, 0⟩
  have below : ∀ step ∈ run.steps, 10 ≤ step.order := by
    intro step member
    rw [show run.steps = steps from inOrder_steps] at member
    revert step
    decide
  obtain ⟨recovers, _⟩ := Held.ends_alike_iff (steady_of_complete rfl) ordered rfl
    (fun waiting => unbegun_store.holds rfl rfl rfl waiting) executes interrupted below resumes
  exact ⟨stopped, interrupted, fun alike => recovers.mp alike stepRun waits⟩

end Example

end Vetting
