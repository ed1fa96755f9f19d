import Vetting.Proofs.Run.Driving

/-!
Contract: executing a run closes it, or leaves a step that waits for its job.

Owns:
- `Comes`: what a run that stood in one way has come to;
- closing a running run, and making it fail with its step at work;
- executing a run from its beginning and from a later step on, and executions that do
  nothing.

Does not own: callbacks and cancelling (`Vetting.Proofs.Run.Answering`).
-/

namespace Vetting

open Store (Rewrites Ends)

namespace Execution

variable {regime : Regime} {allowed : Store → Prop} {norm : Norm} {origin : Store} {run : Run}
  {world : World} {settled : List StepRun} {equipment : Equipment} {submission : Submission}

/-- What a run that stood in one way has come to. -/
structure Comes (norm : Norm) (origin : Store) (run : Run) (settled : List StepRun)
    (current : Option StepRun) (later : Run) (store : Store) (reached : List StepRun)
    (last : Option StepRun) (phase : Phase) : Prop where
  keeps : run.Keeps later
  flag : later.cancelRequested = run.cancelRequested
  standing : Standing norm origin later store reached last
  stage : Stage norm later store reached phase last
  rest : phase.isRest = true
  advances : Advances settled current reached last
  left : phase = .canceled → last = none ∨ last = current

theorem Comes.since {current last : Option StepRun} {entered later : Run} {store : Store}
    {reached : List StepRun} {phase : Phase} (keeps : run.Keeps entered)
    (flag : entered.cancelRequested = run.cancelRequested)
    (comes : Comes norm origin entered settled current later store reached last phase) :
    Comes norm origin run settled current later store reached last phase :=
  { comes with keeps := keeps.trans comes.keeps, flag := comes.flag.trans flag }

variable {current : Option StepRun}

/-- Closing a running run is a way to come to rest. -/
theorem ensures_closeRun_comes {reached : List StepRun} {last : Option StepRun}
    (standing : Standing norm origin run world.store reached last)
    (guards : Guards regime allowed norm origin run) (here : allowed world.store)
    (isOpen : run.status.isTerminal = false)
    (advances : Advances settled current reached last) (phase : Phase)
    (rest : phase.isRest = true) (left : phase = .canceled → last = none ∨ last = current)
    {closing : RunStatus} (begun : closing ≠ .pending) {error : Option String}
    (stage : ∀ closed, run.Closes closing error closed →
      Stage norm closed (world.store.withRun closed) reached phase last)
    {good : RunOutcome → World → Prop} {bad : EngineFault → World → Prop}
    (comes : ∀ later after,
      Comes norm origin run settled current later after.store reached last phase →
      good (.ofRun later) after) :
    Ensures regime (closeRun run.id closing error) world good bad := by
  refine ensures_closeRun guards.watches standing.held here standing.writable isOpen begun
    fun closed closes => ?_
  have stands := standing.close closes
  exact ⟨guards.allows _ _ _ _ _ closes.toKeeps closes.cancelRequested stands
      (stage closed closes),
    fun _ log clock => comes closed _
      ⟨closes.toKeeps, closes.cancelRequested, stands, stage closed closes, rest, advances, left⟩⟩

/-- An unexpected fault makes the step at work fail, and the run with it. -/
theorem ensures_failRun {reached : List StepRun} {stepRun : StepRun} {step : Step}
    (standing : Standing norm origin run world.store reached (some stepRun))
    (guards : Guards regime allowed norm origin run) (status : run.status = .running)
    (isStep : run.orderedSteps[reached.length]? = some step) (running : stepRun.status = .running)
    (left : stepRun.output = .empty ∨ norm.cutOff step stepRun.output)
    (unrecorded : world.store.issuesOf stepRun.id = []) (fault : EngineFault)
    (fails : norm.fails (reached.map world.store.reportOf) step
      ((Verdict.unexpected [] fault stepRun.output).report step) (some genericFailure))
    (advances : ∀ last, Advances settled current reached last)
    {good : RunOutcome → World → Prop} {bad : EngineFault → World → Prop}
    (comes : ∀ later reached last phase after,
      Comes norm origin run settled current later after.store reached last phase →
      good (.ofRun later) after) :
    Ensures regime (failRun run.id ⟨fault, some stepRun⟩) world good bad := by
  obtain ⟨done, rest, split, atStep⟩ := exists_split_of_getElem? isStep
  have place : stepRun.place = step.place := standing.place_at split (by simp [atStep])
  have work := guards.atWork standing status isStep running left
  simp only [failRun, ensures_bind, ensures_tryCatch]
  apply ensures_failStep work running fault
  intro ended after ends
  rw [unrecorded] at ends
  have hasFailed : ended.status = .failed := ends.status
  obtain ⟨stands, reports, report⟩ := standing.ends ends place
  have failsAfter : norm.fails (reached.map after.store.reportOf) step (after.store.reportOf ended)
      (some genericFailure) := by
    rw [reports, report]
    exact fails
  have isAllowed := guards.allows _ _ _ _ _ (.refl run) rfl stands
    (.failing status isStep hasFailed failsAfter)
  refine ⟨isAllowed, ensures_closeRun_comes stands guards isAllowed (by rw [status]; rfl)
    (advances _) .failed rfl (fun no => by cases no) (fun no => by cases no) (fun closed closes => ?_)
    fun later after => comes later _ _ _ after⟩
  refine .failed closes.status (by rw [closes.orderedSteps]; exact isStep) hasFailed ?_
  rw [closes.error]
  exact failsAfter

/-- A run has been entered: it is running, and its steps may be taken. -/
structure Entered (norm : Norm) (origin : Store) (run : Run) (settled : List StepRun)
    (current : Option StepRun) (entered : Run) (store : Store) : Prop where
  keeps : run.Keeps entered
  flag : entered.cancelRequested = run.cancelRequested
  status : entered.status = .running
  standing : Standing norm origin entered store settled current
  ready : Ready norm entered store settled current

/-- A run that is entered, from an order on before which all steps are settled, comes to rest. -/
theorem ensures_execute_entered {resumeFrom : Option Int}
    (guards : Guards regime allowed norm origin run) (ordered : run.WellOrdered)
    (sound : norm.Sound regime equipment run.id submission)
    (submitted : origin.submissions.get? run.submissionId = some submission)
    (covered : ∀ step ∈ run.orderedSteps, step.order < resumeFrom.getD leastOrder →
      step.place ∈ settled.map StepRun.place)
    (enters : Ensures regime (enterRun run.id resumeFrom) world
      (fun outcome? after => outcome? = none ∧
        ∃ entered, Entered norm origin run settled current entered after.store)
      fun _ _ => False)
    {good : RunOutcome → World → Prop} {bad : EngineFault → World → Prop}
    (comes : ∀ later reached last phase after,
      Comes norm origin run settled current later after.store reached last phase →
      good (.ofRun later) after) :
    Ensures regime (execute equipment run.id resumeFrom) world good bad := by
  rw [execute, ensures_bind]
  refine enters.imp ?_ fun _ _ impossible => impossible.elim
  rintro _ after ⟨rfl, entered, keeps, flag, status, standing, ready⟩
  have comesSince := fun later reached last phase after comesEntered =>
    comes later reached last phase after (Comes.since keeps flag comesEntered)
  have guards := guards.keeps keeps flag
  rw [← keeps.id] at sound
  rw [← keeps.submissionId] at submitted
  rw [← keeps.orderedSteps] at covered
  replace ordered := keeps.wellOrdered ordered
  rw [← keeps.id]
  clear comes keeps flag
  obtain ⟨phase, stage⟩ := ready.stage status
  have here := guards.allows _ _ _ _ _ (.refl entered) rfl standing stage
  have isOpen : entered.status.isTerminal = false := by
    rw [status]
    rfl
  rw [ensures_bind]
  refine (ensures_ask (Store.answer_run standing.held)).mpr ⟨guards.watches _ _ here, ?_⟩
  rw [ensures_bind, ensures_lift, program_ensures_run, drive, ensures_bind, ensures_during]
  have answered : after.store.answer (.submission entered.submissionId) =
      (.ok submission, after.store) := by
    rw [Store.answer, standing.elsewhere.submissions, submitted]
  refine (ensures_ask answered).mpr ⟨guards.watches _ _ here, ?_⟩
  obtain ⟨done, split, below⟩ := ordered.from (resumeFrom.getD leastOrder)
  have atMost := standing.length_le_settled ordered split fun step member =>
    covered step (by rw [split]; exact List.mem_append_left _ member) (below step member)
  refine ensures_takeSteps standing guards ordered sound status ready split atMost ⟨?_, ?_⟩
  · intro progress reached last after stands advances halted
    cases halted with
    | completed whole =>
      have isAllowed := guards.allows _ _ _ _ _ (.refl entered) rfl stands (.between status)
      refine ensures_closeRun_comes stands guards isAllowed isOpen advances .succeeded rfl
        (fun no => by cases no) (fun no => by cases no) (fun closed closes => ?_)
        fun later after => comesSince later _ _ _ after
      exact .succeeded closes.status closes.error (by rw [closes.orderedSteps]; exact whole)
    | failed isStep ended fails =>
      have isAllowed := guards.allows _ _ _ _ _ (.refl entered) rfl stands
        (.failing status isStep ended fails)
      refine ensures_closeRun_comes stands guards isAllowed isOpen advances .failed rfl
        (fun no => by cases no) (fun no => by cases no) (fun closed closes => ?_)
        fun later after => comesSince later _ _ _ after
      refine .failed closes.status (by rw [closes.orderedSteps]; exact isStep) ended ?_
      rw [closes.error]
      exact fails
    | pending isStep running awaits waits =>
      have waiting := Stage.waiting status isStep running awaits waits
      have isAllowed := guards.allows _ _ _ _ _ (.refl entered) rfl stands waiting
      exact ensures_currentOutcome guards.watches stands.held isAllowed
        (comesSince _ _ _ _ _ ⟨.refl entered, rfl, stands, waiting, rfl, advances, fun no => by cases no⟩)
    | canceled asked readyAfter left =>
      obtain ⟨phase, stageAfter⟩ := readyAfter.stage status
      have isAllowed := guards.allows _ _ _ _ _ (.refl entered) rfl stands stageAfter
      refine ensures_closeRun_comes stands guards isAllowed isOpen advances .canceled rfl
        (fun _ => left) (fun no => by cases no) (fun closed closes => ?_)
        fun later after => comesSince later _ _ _ after
      exact .canceled closes.status closes.error (closes.cancelRequested.trans asked)
  · intro fault reached stepRun step after stands advances isStep running left unrecorded fails
    exact ensures_failRun stands guards status isStep running left unrecorded fault fails advances
      comesSince

/-! ### Entering a run -/

/-- An execution of a run that does not exist fails and does nothing. -/
theorem ensures_execute_missing (watches : ∀ world request, regime.watch world request)
    {id : Uuid} (missing : world.store.runs.get? id = none)
    {good : RunOutcome → World → Prop} {bad : EngineFault → World → Prop}
    (reached : ∀ fault clock, bad fault { world with clock }) :
    Ensures regime (execute equipment id none) world good bad := by
  simp only [execute, enterRun, ensures_bind, ensures_now]
  refine ⟨watches _ _, fun stamp clock => ?_⟩
  rw [ensures_store, Store.answer_startRun_missing missing]
  exact ⟨watches _ _, reached _ clock⟩

/-- An execution from the beginning that finds the run begun already does nothing. -/
theorem ensures_execute_duplicate (watches : ∀ world request, allowed world.store →
      request.isOutside = false → regime.watch world request)
    (held : world.store.runs.get? run.id = some run) (here : allowed world.store)
    (begun : run.status ≠ .pending)
    {good : RunOutcome → World → Prop} {bad : EngineFault → World → Prop}
    (reached : ∀ log clock, good (.ofRun run) ⟨world.store, log, clock⟩) :
    Ensures regime (execute equipment run.id none) world good bad := by
  simp only [execute, enterRun, ensures_bind, ensures_now]
  refine ⟨watches _ _ here rfl, fun stamp clock => ?_⟩
  have answered := Store.answer_startRun held stamp.time
  rw [if_neg begun] at answered
  refine (ensures_ask answered).mpr ⟨watches _ _ here rfl, ?_⟩
  refine (ensures_ask (Store.answer_run held)).mpr ⟨watches _ _ here rfl, ?_⟩
  simp only [Bool.false_eq_true, if_false, ensures_bind, ensures_log, ensures_pure]
  exact ⟨watches _ _ here rfl, fun time => reached _ _⟩

/-- An execution from a later step on that finds the run not running does nothing. -/
theorem ensures_execute_stopped (watches : ∀ world request, allowed world.store →
      request.isOutside = false → regime.watch world request)
    (held : world.store.runs.get? run.id = some run) (here : allowed world.store)
    (stopped : run.status ≠ .running) (order : Int)
    {good : RunOutcome → World → Prop} {bad : EngineFault → World → Prop}
    (reached : ∀ log clock, good (.ofRun run) ⟨world.store, log, clock⟩) :
    Ensures regime (execute equipment run.id (some order)) world good bad := by
  simp only [execute, enterRun, ensures_bind]
  refine (ensures_ask (Store.answer_run held)).mpr ⟨watches _ _ here rfl, ?_⟩
  rw [if_neg stopped]
  simp only [ensures_pure]
  exact reached _ _

/-- The record of a run that begins. -/
def started (run : Run) (now : Timestamp) : Run :=
  { run with status := .running, startedAt := some now }

theorem keeps_started (run : Run) (now : Timestamp) : run.Keeps (started run now) :=
  ⟨rfl, rfl, rfl, fun no => nomatch no⟩

theorem ensures_enterRun_start (watches : ∀ world request, allowed world.store →
      regime.watch world request)
    (held : world.store.runs.get? run.id = some run) (here : allowed world.store)
    (fresh : run.status = .pending)
    {good : Option RunOutcome → World → Prop} {bad : EngineFault → World → Prop}
    (reached : ∀ now, allowed (world.store.withRun (started run now)) ∧
      ∀ log clock, good none ⟨world.store.withRun (started run now), log, clock⟩) :
    Ensures regime (enterRun run.id none) world good bad := by
  simp only [enterRun, ensures_bind, ensures_now]
  refine ⟨watches _ _ here, fun stamp clock => ?_⟩
  have answered := Store.answer_startRun held stamp.time
  rw [if_pos fresh] at answered
  refine (ensures_ask answered).mpr ⟨watches _ _ here, ?_⟩
  obtain ⟨isAllowed, goesOn⟩ := reached stamp.time
  have heldStarted := world.store.withRun_get? (started run stamp.time)
  refine (ensures_ask (Store.answer_run heldStarted)).mpr ⟨watches _ _ isAllowed, ?_⟩
  simp only [if_true, ensures_bind, ensures_log, ensures_pure]
  exact ⟨watches _ _ isAllowed, fun time => goesOn _ _⟩

theorem ensures_enterRun_resume (watches : ∀ world request, allowed world.store →
      regime.watch world request)
    (held : world.store.runs.get? run.id = some run) (here : allowed world.store)
    (status : run.status = .running) (order : Int)
    {good : Option RunOutcome → World → Prop} {bad : EngineFault → World → Prop}
    (reached : ∀ log clock, good none ⟨world.store, log, clock⟩) :
    Ensures regime (enterRun run.id (some order)) world good bad := by
  simp only [enterRun, ensures_bind]
  refine (ensures_ask (Store.answer_run held)).mpr ⟨watches _ _ here, ?_⟩
  rw [if_pos status]
  simp only [ensures_bind, ensures_log, ensures_pure]
  exact ⟨watches _ _ here, fun time => reached _ _⟩

/-! ### Executing from the beginning, and from a later step on -/

/-- A run that has not begun comes to rest when it is executed. -/
theorem ensures_execute_start (standing : Standing norm origin run world.store [] none)
    (guards : Guards regime allowed norm origin run) (ordered : run.WellOrdered)
    (sound : norm.Sound regime equipment run.id submission) (fresh : run.status = .pending)
    (submitted : origin.submissions.get? run.submissionId = some submission)
    {good : RunOutcome → World → Prop} {bad : EngineFault → World → Prop}
    (comes : ∀ later reached last phase after,
      Comes norm origin run [] none later after.store reached last phase →
      good (.ofRun later) after) :
    Ensures regime (execute equipment run.id none) world good bad := by
  have here := guards.allows _ _ _ _ _ (.refl run) rfl standing (.fresh fresh rfl)
  refine ensures_execute_entered guards ordered sound submitted ?_ ?_ comes
  · intro step member below
    have bounded := ordered.bounded step (Run.mem_orderedSteps.mp member)
    rw [Option.getD_none] at below
    omega
  · apply ensures_enterRun_start guards.watches standing.held here fresh
    intro now
    have stands := standing.withRun (keeps_started run now).id (keeps_started run now).steps
    exact ⟨guards.allows _ _ _ _ _ (keeps_started run now) rfl stands (.between rfl),
      fun log clock => ⟨rfl, _, keeps_started run now, rfl, rfl, stands, trivial⟩⟩

/-- A running run comes to rest when it is executed from a step on before which all are settled. -/
theorem ensures_execute_resume {current : Option StepRun}
    (standing : Standing norm origin run world.store settled current)
    (guards : Guards regime allowed norm origin run) (ordered : run.WellOrdered)
    (sound : norm.Sound regime equipment run.id submission) (status : run.status = .running)
    (ready : Ready norm run world.store settled current)
    (submitted : origin.submissions.get? run.submissionId = some submission) (order : Int)
    (covered : ∀ step ∈ run.orderedSteps, step.order < order →
      step.place ∈ settled.map StepRun.place)
    {good : RunOutcome → World → Prop} {bad : EngineFault → World → Prop}
    (comes : ∀ later reached last phase after,
      Comes norm origin run settled current later after.store reached last phase →
      good (.ofRun later) after) :
    Ensures regime (execute equipment run.id (some order)) world good bad := by
  obtain ⟨phase, stage⟩ := ready.stage status
  have here := guards.allows _ _ _ _ _ (.refl run) rfl standing stage
  refine ensures_execute_entered guards ordered sound submitted ?_ ?_ comes
  · rw [Option.getD_some]
    exact covered
  refine ensures_enterRun_resume guards.watches standing.held here status order
    fun log clock => ?_
  exact ⟨rfl, run, .refl run, rfl, status, standing, ready⟩

/-- A run whose submission is missing fails when it is executed. -/
theorem ensures_execute_lost (standing : Standing norm origin run world.store [] none)
    (guards : Guards regime allowed norm origin run) (fresh : run.status = .pending)
    (missing : origin.submissions.get? run.submissionId = none)
    {good : RunOutcome → World → Prop} {bad : EngineFault → World → Prop}
    (comes : ∀ later after, Comes norm origin run [] none later after.store [] none .lost →
      good (.ofRun later) after) :
    Ensures regime (execute equipment run.id none) world good bad := by
  have here := guards.allows _ _ _ _ _ (.refl run) rfl standing (.fresh fresh rfl)
  rw [execute, ensures_bind]
  apply ensures_enterRun_start guards.watches standing.held here fresh
  intro now
  obtain ⟨entered, isEntered⟩ : ∃ entered, entered = started run now := ⟨_, rfl⟩
  have keeps : run.Keeps entered := isEntered ▸ keeps_started run now
  have status : entered.status = .running := by
    rw [isEntered]
    rfl
  have flag : entered.cancelRequested = run.cancelRequested := by
    rw [isEntered]
    rfl
  rw [← isEntered]
  have stands := standing.withRun keeps.id keeps.steps
  have isAllowed := guards.allows _ _ _ _ _ keeps flag stands (.between status)
  refine ⟨isAllowed, fun log clock => ?_⟩
  have held := stands.held
  rw [keeps.id] at held
  rw [ensures_bind]
  refine (ensures_ask (Store.answer_run held)).mpr ⟨guards.watches _ _ isAllowed, ?_⟩
  rw [ensures_bind, ensures_lift, program_ensures_run, drive, ensures_bind, ensures_during,
    ensures_store]
  have answered : (world.store.withRun entered).answer (.submission entered.submissionId) =
      (.error (.submissionNotFound entered.submissionId), world.store.withRun entered) := by
    rw [Store.answer, stands.elsewhere.submissions, keeps.submissionId, missing]
  rw [answered]
  refine ⟨guards.watches _ _ isAllowed, ?_⟩
  rw [← keeps.id]
  refine ensures_closeRun_comes stands (guards.keeps keeps flag) isAllowed (by rw [status]; rfl)
    (.refl _ _) .lost rfl (fun no => by cases no) (fun no => by cases no) (fun closed closes => ?_)
    (fun later after comesEntered => ?_)
  · refine .lost closes.status closes.error rfl ?_
    have submissions := stands.elsewhere.submissions
    change (world.store.withRun entered).submissions.get? closed.submissionId = none
    rw [submissions, closes.submissionId, keeps.submissionId, missing]
  · exact comes _ _ (.since keeps flag comesEntered)

end Execution

end Vetting
