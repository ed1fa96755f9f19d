import Vetting.Proofs.Run.Example
import Vetting.Proofs.Run.Tending

/-!
Contract: the step runs of a run after any operations on it.

Owns:
- `History`: operations on a run, one after the other, with the orders that callbacks have
  offered for going on;
- `Run.Shaped`: which step runs a run has, given its status;
- that every history leaves a run shaped.

Does not own: what one operation does (`Vetting.Proofs.Run.Tending`).

An execution may go on only from an order that a callback of the run has offered.
-/

namespace Vetting

open Execution

/-- A store that holds a run of which nothing has begun. -/
structure Store.Unbegun (store : Store) (run : Run) : Prop where
  coherent : store.Coherent
  writable : store.failingWrites = false
  held : store.runs.get? run.id = some run
  stepRuns : store.stepRunsOf run.id = []

/-- The orders that the result of a callback offers for a run to go on from. -/
def offersOf (runId : Uuid) : Except EngineFault CallbackOutcome → List Int
  | .ok outcome => if outcome.result.runId = runId then outcome.resumeFrom.toList else []
  | .error _ => []

theorem offersOf_ok_of_none {runId : Uuid} {outcome : CallbackOutcome}
    (none : outcome.resumeFrom = none) : offersOf runId (.ok outcome) = [] := by
  rw [offersOf, none]
  exact ite_self _

/-- Operations on a run, one after the other, with the orders that have been offered. -/
inductive History (mayAnswer : (request : Request) → request.Answer → Prop)
    (equipment : Equipment) (runId : Uuid) (origin : World) : List Int → World → Prop
  | start : History mayAnswer equipment runId origin [] origin
  | execute {offers : List Int} {world after : World} {resumeFrom : Option Int}
      {requests : List Request} {result : Except EngineFault RunOutcome}
      (history : History mayAnswer equipment runId origin offers world)
      (offered : ∀ order, resumeFrom = some order → order ∈ offers)
      (runs : (Execution.execute equipment runId resumeFrom).run.Runs mayAnswer world requests
        (some result) after) :
    History mayAnswer equipment runId origin offers after
  /-- A callback may be for any step run, of this run or of another one. -/
  | callback {offers : List Int} {world after : World} {stepRunId : Uuid} {envelope : Envelope}
      {key? : Option String} {requests : List Request}
      {result : Except EngineFault CallbackOutcome}
      (history : History mayAnswer equipment runId origin offers world)
      (runs : (completeCallback equipment stepRunId envelope key?).run.Runs mayAnswer world requests
        (some result) after) :
    History mayAnswer equipment runId origin (offersOf runId result ++ offers) after
  | cancel {offers : List Int} {world after : World} {requests : List Request}
      {result : Except EngineFault RunOutcome}
      (history : History mayAnswer equipment runId origin offers world)
      (runs : (Execution.cancel runId).run.Runs mayAnswer world requests (some result) after) :
    History mayAnswer equipment runId origin offers after

/-- What goes with a status of a run, given its step runs in ascending order. -/
def Run.Fits (run : Run) (stepRuns : List StepRun) : RunStatus → Prop
  | .pending => stepRuns = []
  | .running => ∃ last, stepRuns.getLast? = some last ∧
      (last.status = .running ∨ last.status = .passed)
  | .succeeded => run.error = none ∧ ∀ step ∈ run.steps, ∃ stepRun ∈ stepRuns,
      stepRun.place = step.place ∧ stepRun.status = .passed
  | .failed => ∃ last, stepRuns.getLast? = some last ∧ last.status = .failed ∧
      (run.error = last.error ∨ run.error = some genericFailure)
  | .canceled => run.error = some cancelMessage ∧ run.cancelRequested = true

/-- Which step runs a run has between operations. -/
structure Run.Shaped (run : Run) (store : Store) : Prop where
  ascending : run.orderedSteps.Pairwise fun first second => first.order < second.order
  /-- There is one step run for each step of an initial segment. -/
  places : (store.stepRunsOf run.id).map StepRun.place <+: run.orderedSteps.map Step.place
  passed : ∀ stepRun ∈ (store.stepRunsOf run.id).dropLast, stepRun.status = .passed
  awaits : ∀ last, (store.stepRunsOf run.id).getLast? = some last → last.status = .running →
    last.awaitsJob = true
  fits : run.Fits (store.stepRunsOf run.id) run.status

section Histories

variable {mayAnswer : (request : Request) → request.Answer → Prop} {equipment : Equipment}
  {origin run : Run} {offers : List Int} {store after : Store} {settled : List StepRun}
  {current : Option StepRun} {phase : Phase} {world : World}

/-- How a run stands after operations that have offered orders. -/
structure Tended (origin run : Run) (offers : List Int) (store : Store) (settled : List StepRun)
    (current : Option StepRun) (phase : Phase) : Prop where
  keeps : origin.Keeps run
  calm : Calm .free run store settled current phase
  /-- A run of which no step waits goes on after a step that a callback has settled. -/
  begun : phase = .between → settled ≠ []
  covered : ∀ order ∈ offers, run.Covered settled order
  submitted : ∃ submission, store.submissions.get? run.submissionId = some submission

/-- A run is tended after an operation that it has moved on by. -/
theorem Tended.moves (tended : Tended origin run offers store settled current phase) {later : Run}
    {reached : List StepRun} {last : Option StepRun} {next : Phase} (keeps : run.Keeps later)
    (calm : Calm .free later after reached last next) (begun : next = .between → reached ≠ [])
    (grows : settled <+: reached) (submissions : after.submissions = store.submissions) :
    Tended origin later offers after reached last next where
  keeps := tended.keeps.trans keeps
  calm := calm
  begun := begun
  covered := fun order member => (tended.covered order member).mono keeps grows
  submitted := by
    rw [submissions, keeps.submissionId]
    exact tended.submitted

theorem Tended.execute (tended : Tended origin run offers store settled current phase)
    {resumeFrom : Option Int} {outcome : RunOutcome}
    (executed : Executed .free run store settled current resumeFrom outcome after) :
    ∃ later reached last next, Tended origin later offers after reached last next := by
  cases executed with
  | idle stopped => exact ⟨run, settled, current, phase, tended⟩
  | @comes later _ reached last next _ comes calm =>
    refine ⟨later, reached, last, next, tended.moves comes.keeps calm (fun isBetween => ?_)
      comes.advances.grows comes.standing.elsewhere.submissions⟩
    have rest := comes.rest
    rw [isBetween] at rest
    cases rest

/-- A callback for a step of the run. -/
theorem Tended.callback (tended : Tended origin run offers store settled current phase)
    {receipts : List String} {resumeFrom : Option Int}
    {told : StepRun} (turns : Turns .free (store.withReceipts receipts) run settled current phase
      told after resumeFrom) :
    ∃ later reached last next,
      Tended origin later (resumeFrom.toList ++ offers) after reached last next := by
  obtain ⟨elsewhere, ⟨rfl, later, last, next, keeps, calm, same⟩ |
    ⟨order, ended, rfl, waited, calm, covered⟩⟩ := turns.calm tended.calm rfl
  · refine ⟨later, settled, last, next, tended.moves keeps calm (fun isBetween => ?_)
      (List.prefix_refl _) elsewhere.submissions⟩
    rcases same with ⟨rfl, _⟩ | rfl
    · exact tended.begun isBetween
    · cases isBetween
  · have moved := tended.moves (.refl run) calm (fun _ => by simp) (List.prefix_append _ _)
      elsewhere.submissions
    refine ⟨run, settled ++ [ended], none, .between, { moved with covered := ?_ }⟩
    intro offer member
    rcases List.mem_cons.mp member with rfl | earlier
    · exact covered
    · exact moved.covered offer earlier

theorem Tended.cancel (tended : Tended origin run offers store settled current phase)
    (canceled : Canceled store run after) :
    ∃ later next, Tended origin later offers after settled current next := by
  obtain ⟨later, next, keeps, standing, stage, same, _⟩ :=
    canceled.turns tended.calm.standing tended.calm.stage tended.calm.calm
  rcases same with ⟨rfl, status⟩ | rfl
  · have calm := tended.calm.moves keeps standing stage tended.calm.calm tended.calm.awaits rfl
      fun running => by rw [← status, running]
    exact ⟨later, next, tended.moves keeps calm tended.begun (List.prefix_refl _)
      standing.elsewhere.submissions⟩
  · have calm := tended.calm.moves keeps standing stage rfl tended.calm.awaits rfl fun running => by
      cases stage with
      | canceled status _ _ =>
        rw [status] at running
        cases running
    exact ⟨later, .canceled, tended.moves keeps calm (fun no => nomatch no) (List.prefix_refl _)
      standing.elsewhere.submissions⟩

/-- A callback for any step run leaves the run tended. -/
theorem Tended.answer (tended : Tended origin run offers world.store settled current phase)
    {stepRunId : Uuid} {envelope : Envelope} {key? : Option String} {requests : List Request}
    {result : Except EngineFault CallbackOutcome} {after : World}
    (runs : (completeCallback equipment stepRunId envelope key?).run.Runs mayAnswer world requests
      (some result) after) :
    ∃ later reached last next,
      Tended origin later (offersOf run.id result ++ offers) after.store reached last next := by
  have coherent := tended.calm.standing.coherent
  have writable := tended.calm.standing.writable
  cases held : world.store.stepRuns.get? stepRunId with
  | none =>
    have ensures : Ensures (.unwatched mayAnswer)
        (completeCallback equipment stepRunId envelope key?) world (fun _ _ => False)
        fun _ after => after.store = world.store :=
      ensures_completeCallback_missing (fun _ _ => trivial) held key? fun _ => rfl
    obtain ⟨fault, rfl, same⟩ := runs.fails ensures
    rw [same]
    exact ⟨run, settled, current, phase, tended⟩
  | some stepRun =>
    have ownId := coherent.stepRunIds _ _ held
    obtain ⟨owner, outcome, heldOwner, sameId, rfl, answered⟩ :=
      answered_of_runs coherent writable held runs
    subst ownId
    generalize after.store = store at answered ⊢
    cases answered with
    | refused isKey refuses resumes =>
      refine ⟨run, settled, current, phase, ?_⟩
      rw [offersOf_ok_of_none resumes]
      exact tended
    | taken admitted applied =>
      generalize receiptsWith world.store.receipts key? = receipts at applied
      by_cases ofRun : stepRun.runId = run.id
      · obtain rfl : owner = run := by
          rw [ofRun, tended.calm.standing.held] at heldOwner
          exact (Option.some.inj heldOwner).symm
        have turns := applied.turns (tended.calm.standing.withReceipts receipts) tended.calm.ordered
          (tended.calm.stage.withReceipts receipts) tended.calm.calm held ofRun
          fun step _ _ => Norm.takes_free equipment owner envelope step
        have offers : offersOf owner.id (.ok outcome) = outcome.resumeFrom.toList := by
          cases resumes : outcome.resumeFrom with
          | none => exact offersOf_ok_of_none resumes
          | some order => rw [offersOf, applied.runId resumes, if_pos ofRun, resumes]
        rw [offers]
        exact tended.callback turns
      · obtain ⟨elsewhere, coherentAfter, writes⟩ :=
          applied.elsewhere (coherent.withReceipts receipts) held sameId
        have calm := tended.calm.of_elsewhere rfl elsewhere ofRun coherentAfter
          (writes.trans writable)
        have offers : offersOf run.id (.ok outcome) = [] := by
          cases resumes : outcome.resumeFrom with
          | none => exact offersOf_ok_of_none resumes
          | some order => rw [offersOf, applied.runId resumes, if_neg ofRun]
        rw [offers]
        exact ⟨run, settled, current, phase, tended.moves (.refl run) calm tended.begun
          (List.prefix_refl _) elsewhere.submissions⟩

theorem tended_of_history (names : NamesJobs mayAnswer) (ordered : run.WellOrdered)
    (fresh : run.status = .pending) {origin : World} (unbegun : origin.store.Unbegun run)
    (submitted : ∃ submission, origin.store.submissions.get? run.submissionId = some submission)
    {world : World} (history : History mayAnswer equipment run.id origin offers world) :
    ∃ later settled current phase, Tended run later offers world.store settled current phase := by
  induction history with
  | start =>
    have calm : Calm .free run origin.store [] none .fresh :=
      .fresh ordered unbegun.coherent unbegun.writable unbegun.held fresh unbegun.stepRuns rfl
    exact ⟨run, [], none, .fresh, .refl run, calm, (fun no => nomatch no),
      (fun _ no => nomatch no), submitted⟩
  | @execute offers world _ resumeFrom _ _ history offered runs inductionHypothesis =>
    obtain ⟨later, settled, current, phase, tended⟩ := inductionHypothesis
    rw [← tended.keeps.id] at runs
    obtain ⟨outcome, _, executed⟩ := runs.succeeds (tended.calm.ensures_execute
      (fun submission _ => Norm.sound_free names equipment later.id submission) resumeFrom
      fun order isOrder => tended.covered order (offered order isOrder))
    exact tended.execute executed
  | @callback offers world after stepRunId envelope key? _ _ history runs inductionHypothesis =>
    obtain ⟨later, settled, current, phase, tended⟩ := inductionHypothesis
    rw [← tended.keeps.id]
    exact tended.answer runs
  | cancel history runs inductionHypothesis =>
    obtain ⟨later, settled, current, phase, tended⟩ := inductionHypothesis
    rw [← tended.keeps.id] at runs
    obtain ⟨outcome, _, canceled⟩ := runs.succeeds
      (ensures_cancel (fun _ _ => trivial) tended.calm.standing.writable tended.calm.standing.held)
    obtain ⟨canceledRun, next, tendedAfter⟩ := tended.cancel canceled
    exact ⟨canceledRun, settled, current, next, tendedAfter⟩

/-! ### The shape of a run -/

theorem Standing.mem_dropLast {norm : Norm} {origin : Store}
    (standing : Standing norm origin run store settled current) {stepRun : StepRun}
    (member : stepRun ∈ (store.stepRunsOf run.id).dropLast) : stepRun ∈ settled := by
  rw [standing.begun] at member
  cases current with
  | none =>
    rw [Option.toList_none, List.append_nil] at member
    exact List.dropLast_subset _ member
  | some last =>
    rw [Option.toList_some, List.dropLast_concat] at member
    exact member

theorem Standing.last_current {norm : Norm} {origin : Store} {last : StepRun}
    (standing : Standing norm origin run store settled (some last)) :
    (store.stepRunsOf run.id).getLast? = some last := by
  rw [standing.begun, Option.toList_some, List.getLast?_concat]

theorem Standing.last_settled {norm : Norm} {origin : Store}
    (standing : Standing norm origin run store settled none) {last : StepRun}
    (isLast : (store.stepRunsOf run.id).getLast? = some last) : last.status = .passed := by
  rw [standing.begun, Option.toList_none, List.append_nil] at isLast
  exact standing.passed last (List.mem_of_getLast? isLast)

/-- A tended run has the step runs that its status calls for. -/
theorem Tended.shaped (tended : Tended origin run offers store settled current phase) :
    run.Shaped store := by
  have standing := tended.calm.standing
  refine ⟨tended.calm.ordered.ascending, ?_, fun stepRun member =>
    standing.passed stepRun (standing.mem_dropLast member), fun last isLast running => ?_, ?_⟩
  · rw [standing.begun]
    exact standing.places
  · cases current with
    | none =>
      rw [standing.last_settled isLast] at running
      cases running
    | some stepRun =>
      rw [standing.last_current] at isLast
      exact tended.calm.awaits last isLast running
  · cases tended.calm.stage with
    | fresh status untouched =>
      rw [status, Run.Fits, standing.begun, untouched]
      rfl
    | between status =>
      have isBegun : store.stepRunsOf run.id ≠ [] := by
        rw [standing.begun, Option.toList_none, List.append_nil]
        exact tended.begun rfl
      have isLast := List.getLast?_eq_some_getLast isBegun
      rw [status]
      exact ⟨_, isLast, Or.inr (standing.last_settled isLast)⟩
    | waiting status isStep running awaits waits =>
      rw [status]
      exact ⟨_, standing.last_current, Or.inl running⟩
    | working | failing => cases tended.calm.calm
    | succeeded status error whole =>
      rw [status]
      refine ⟨error, fun step member => ?_⟩
      have places := standing.places_settled (List.append_nil run.orderedSteps).symm whole.symm
      have isPlace : step.place ∈ run.orderedSteps.map Step.place :=
        List.mem_map_of_mem (Run.mem_orderedSteps.mpr member)
      rw [← places] at isPlace
      obtain ⟨stepRun, isSettled, place⟩ := List.mem_map.mp isPlace
      refine ⟨stepRun, ?_, place, standing.passed stepRun isSettled⟩
      rw [standing.begun]
      exact List.mem_append_left _ isSettled
    | failed status isStep ended fails =>
      rw [status]
      exact ⟨_, standing.last_current, ended, fails⟩
    | lost status error untouched missing =>
      obtain ⟨submission, found⟩ := tended.submitted
      rw [missing] at found
      cases found
    | canceled status error asked =>
      rw [status]
      exact ⟨error, asked⟩

/-- In every state between operations, the step runs of a run are those of an initial segment of its
steps, and they are as its status calls for. -/
theorem shaped_of_history (names : NamesJobs mayAnswer) {steps : List Step}
    (distinct : DistinctSteps steps) (id workflowId submissionId : Uuid) (now : Timestamp)
    {origin world : World}
    (unbegun : origin.store.Unbegun (.fresh id workflowId submissionId steps now))
    (submitted : ∃ submission, origin.store.submissions.get? submissionId = some submission)
    (history : History mayAnswer equipment id origin offers world) :
    ∃ run, world.store.runs.get? id = some run ∧ run.steps = Run.inOrder steps ∧
      run.Shaped world.store := by
  have ordered := Run.wellOrdered_fresh distinct id workflowId submissionId now
  obtain ⟨later, settled, current, phase, tended⟩ :=
    tended_of_history names ordered rfl unbegun submitted history
  have held := tended.calm.standing.held
  rw [tended.keeps.id] at held
  exact ⟨later, held, tended.keeps.steps, tended.shaped⟩

end Histories

/-! ### A run that is executed, told of its job, and cancelled -/

namespace Example

theorem unbegun_store : store.Unbegun run where
  coherent := coherent_store
  writable := rfl
  held := rfl
  stepRuns := List.mergeSort_nil

theorem names_accepted : NamesJobs (surroundings accepted).answers := by
  intro job response answered _
  cases answered
  decide

def executed : World := (World.runJob (surroundings accepted) (execute equipment run.id none) world).2

def answered : World :=
  (World.runJob (surroundings accepted)
    (completeCallback equipment Store.empty.freshId envelope none) executed).2

def canceled : World := (World.runJob (surroundings accepted) (cancel run.id) answered).2

theorem shaped_canceled : ∃ later, canceled.store.runs.get? run.id = some later ∧
    later.steps = Run.inOrder steps ∧ later.Shaped canceled.store := by
  obtain ⟨_, executes⟩ :=
    World.runs_runJob (surroundings accepted) (execute equipment run.id none) world
  obtain ⟨_, answers⟩ := World.runs_runJob (surroundings accepted)
    (completeCallback equipment Store.empty.freshId envelope none) executed
  obtain ⟨_, cancels⟩ := World.runs_runJob (surroundings accepted) (cancel run.id) answered
  have history := ((History.start.execute (by rintro _ ⟨⟩) executes).callback answers).cancel
    cancels
  exact shaped_of_history names_accepted distinct_steps run.id run.workflowId submission.id ⟨0, 0⟩
    unbegun_store ⟨submission, rfl⟩ history

end Example

end Vetting
