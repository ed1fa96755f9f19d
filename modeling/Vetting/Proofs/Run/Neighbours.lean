import Vetting.Proofs.Run.Redelivery

/-!
Contract: callbacks for different step runs, one after the other.

Owns:
- `Store.Spares`: what a callback leaves of the step runs beside its own;
- `Store.seenBy`: the signals that the step of a step run sees, and which callbacks leave them
  alone;
- that a callback before it makes no difference to one for a step run that waits for its job, unless
  it closes the run, changes the signals that are seen, or uses up the token.

Does not own: the same callback made again (`Vetting.Proofs.Run.Redelivery`).

A step run without a token of its own takes any token, and the one that it takes has a receipt
from then on.
-/

namespace Vetting

open Execution
open Scope (Signals)
open Store (Ends)

/-- The record without the time at which the step has ended. -/
def StepRun.untimed (stepRun : StepRun) : StepRun :=
  { stepRun with endedAt := none, durationMs := none }

theorem StepRun.untimed_ended (stepRun : StepRun) (status : StepStatus) (output : StepOutput)
    (error : Option String) (now later : Timestamp) :
    (stepRun.ended status output error now).untimed =
      (stepRun.ended status output error later).untimed := rfl

theorem Run.Keeps.stepByKey? {run later : Run} (keeps : run.Keeps later) (key : String) :
    later.stepByKey? key = run.stepByKey? key := by
  rw [Run.stepByKey?, Run.stepByKey?, keeps.steps]

namespace Store

/-- The run is closed. -/
def Closed (store : Store) (runId : Uuid) : Prop :=
  ∃ run, store.runs.get? runId = some run ∧ run.status.isTerminal = true

/-- The signals that the step of a step run sees. -/
def seenBy (store : Store) (stepRun : StepRun) : Option Signals :=
  (store.runs.get? stepRun.runId).bind fun run =>
    (run.stepByKey? stepRun.stepKey).map fun step => store.signalsBefore run.id step.order

theorem seenBy_of_held {store : Store} {stepRun : StepRun} {run : Run}
    (held : store.runs.get? stepRun.runId = some run) :
    store.seenBy stepRun = (run.stepByKey? stepRun.stepKey).map fun step =>
      store.signalsBefore run.id step.order := by
  rw [seenBy, held, Option.bind_some]

/-- A step run and its findings are as before, and its run has the status it had, unless it has been
closed. -/
structure Spares (before : Store) (stepRun : StepRun) (after : Store) : Prop where
  record : after.stepRuns.get? stepRun.id = before.stepRuns.get? stepRun.id
  findings : after.findingsOf stepRun.id = before.findingsOf stepRun.id
  runs : ∀ run, before.runs.get? stepRun.runId = some run →
    ∃ later, after.runs.get? stepRun.runId = some later ∧ run.Keeps later ∧
      (later.status = run.status ∨
        run.status.isTerminal = false ∧ later.status.isTerminal = true)
  failingWrites : after.failingWrites = before.failingWrites

theorem Spares.refl (store : Store) (stepRun : StepRun) : store.Spares stepRun store where
  record := rfl
  findings := rfl
  runs := fun run held => ⟨run, held, .refl run, Or.inl rfl⟩
  failingWrites := rfl

end Store

namespace Execution

variable {equipment : Equipment} {before after : Store} {run : Run} {neighbour stepRun : StepRun}
  {envelope : Envelope} {key? : Option String} {outcome : CallbackOutcome}

/-! ### What a callback leaves beside its step run -/

theorem Applied.spares
    (applied : Applied equipment before run neighbour envelope outcome after)
    (different : neighbour.id ≠ stepRun.id) (heldRun : before.runs.get? run.id = some run) :
    before.Spares stepRun after := by
  obtain ⟨_, rfl⟩ | ⟨_, verdict, error, ended, middle, _, ends, reruns⟩ := applied.same_or_settles
  · exact .refl _ _
  · obtain ⟨findings, _, rewrites⟩ := ends.rewrites
    have other : ended.id ≠ stepRun.id := by rwa [ends.id]
    have record : middle.stepRuns.get? stepRun.id = before.stepRuns.get? stepRun.id := by
      rw [rewrites.get?, if_neg other]
    have kept : middle.findingsOf stepRun.id = before.findingsOf stepRun.id := by
      rw [rewrites.findings, if_neg other]
    rcases reruns with ⟨rfl, _⟩ | ⟨later, keeps, status, rfl⟩
    · refine ⟨record, kept, fun held found => ?_, rewrites.failingWrites⟩
      exact ⟨held, by rw [rewrites.runs, found], .refl held, Or.inl rfl⟩
    · refine ⟨record, kept, fun held found => ?_, rewrites.failingWrites⟩
      by_cases own : later.id = stepRun.runId
      · obtain rfl : run = held := by
          rw [← own, keeps.id, heldRun] at found
          exact Option.some.inj found
        refine ⟨later, own ▸ middle.withRun_get? later, keeps, ?_⟩
        rw [status]
        exact settledStatus_cases run verdict
      · refine ⟨held, ?_, .refl held, Or.inl rfl⟩
        rw [Store.withRun, Table.get?_set, if_neg own, rewrites.runs, found]

theorem Answered.spares
    (answered : Answered equipment before run neighbour envelope key? outcome after)
    (different : neighbour.id ≠ stepRun.id) (heldRun : before.runs.get? run.id = some run) :
    before.Spares stepRun after := by
  cases answered with
  | refused => exact .refl _ _
  | taken _ applied =>
    have spares := applied.spares different heldRun
    exact ⟨spares.record, spares.findings, spares.runs, spares.failingWrites⟩

theorem Applied.receipts
    (applied : Applied equipment before run stepRun envelope outcome after) :
    after.receipts = before.receipts := by
  obtain ⟨_, rfl⟩ | ⟨_, verdict, error, ended, middle, _, ends, reruns⟩ := applied.same_or_settles
  · rfl
  · obtain ⟨findings, _, rewrites⟩ := ends.rewrites
    rcases reruns with ⟨rfl, _⟩ | ⟨later, _, _, rfl⟩
    · exact rewrites.receipts
    · exact rewrites.receipts

/-- A callback leaves a receipt for its own token at most, and only where that is not stale. -/
theorem Answered.mem_receipts {token : String}
    (answered : Answered equipment before run stepRun envelope (some token) outcome after)
    (key : String) : key ∈ after.receipts ↔
      key ∈ before.receipts ∨ key = token ∧ isStale stepRun token = false := by
  cases answered with
  | @refused other _ isKey refuses =>
    obtain rfl := Option.some.inj isKey
    refine ⟨Or.inl, fun known => known.elim id ?_⟩
    rintro ⟨rfl, fresh⟩
    rcases refuses with stale | receipted
    · rw [fresh] at stale
      cases stale
    · exact receipted
  | taken admitted applied =>
    have fresh := (admitted token rfl).1
    rw [applied.receipts]
    change key ∈ token :: before.receipts ↔ _
    rw [List.mem_cons, or_comm]
    exact ⟨Or.imp_right fun same => ⟨same, fresh⟩, Or.imp_right And.left⟩

/-- A callback with a token that nothing speaks against is taken in. -/
theorem Answered.applied {token : String}
    (answered : Answered equipment before run stepRun envelope (some token) outcome after)
    (fresh : isStale stepRun token = false) (new : token ∉ before.receipts) :
    Applied equipment (before.withReceipts (token :: before.receipts)) run stepRun envelope outcome
      after := by
  cases answered with
  | @refused other _ isKey refuses =>
    obtain rfl := Option.some.inj isKey
    exact absurd (refuses.resolve_left (by simp [fresh])) new
  | taken _ applied => exact applied

/-! ### What a step sees -/

theorem Reruns.signalsBefore {status : RunStatus} (reruns : Reruns before run status after)
    (runId : Uuid) (order : Int) :
    after.signalsBefore runId order = before.signalsBefore runId order := by
  rcases reruns with ⟨rfl, _⟩ | ⟨later, _, _, rfl⟩
  · rfl
  · rfl

/-- A callback for a step run of another run, or for one that is not below in the order, leaves the
signals alone. -/
theorem Applied.signalsBefore (coherent : before.Coherent)
    (applied : Applied equipment before run neighbour envelope outcome after)
    (held : before.stepRuns.get? neighbour.id = some neighbour) {runId : Uuid} {order : Int}
    (apart : neighbour.runId ≠ runId ∨ order ≤ neighbour.stepOrder) :
    after.signalsBefore runId order = before.signalsBefore runId order := by
  obtain ⟨_, rfl⟩ | ⟨_, verdict, error, ended, middle, _, ends, reruns⟩ := applied.same_or_settles
  · rfl
  · obtain ⟨now, rfl⟩ := ends.record
    obtain ⟨findings, _, rewrites⟩ := ends.rewrites
    rw [reruns.signalsBefore]
    refine rewrites.signalsBefore coherent held rfl rfl fun ofRun below => ?_
    exact absurd below (Int.not_lt.mpr (apart.resolve_left (absurd ofRun)))

/-- A callback for a step run of another run, or for one that is not below it in the order, does not
change what a step sees. -/
theorem Answered.seenBy (coherent : before.Coherent)
    (answered : Answered equipment before run neighbour envelope key? outcome after)
    (different : neighbour.id ≠ stepRun.id)
    (held : before.stepRuns.get? neighbour.id = some neighbour)
    (heldRun : before.runs.get? run.id = some run) {ofRun : Run}
    (heldOf : before.runs.get? stepRun.runId = some ofRun)
    (apart : neighbour.runId ≠ stepRun.runId ∨
      ∀ step, ofRun.stepByKey? stepRun.stepKey = some step → step.order ≤ neighbour.stepOrder) :
    after.seenBy stepRun = before.seenBy stepRun := by
  have sameId : ofRun.id = stepRun.runId := coherent.runIds _ _ heldOf
  obtain ⟨later, heldLater, keeps, _⟩ := (answered.spares different heldRun).runs ofRun heldOf
  cases answered with
  | refused => rfl
  | taken _ applied =>
    rw [Store.seenBy_of_held heldLater, Store.seenBy_of_held heldOf, keeps.stepByKey?, keeps.id]
    apply Option.map_congr
    intro step isStep
    apply applied.signalsBefore (coherent.withReceipts _) held
    rw [sameId]
    exact apart.imp_right fun below => below step isStep

end Execution

/-! ### One callback before another -/

/-- Two callbacks have done the same to a step run and its findings, with the same order to go on
from. -/
structure TakenAlike (id : Uuid) (first second : CallbackOutcome × Store) : Prop where
  record : (first.2.stepRuns.get? id).map StepRun.untimed =
    (second.2.stepRuns.get? id).map StepRun.untimed
  issues : first.2.issuesOf id = second.2.issuesOf id
  resumeFrom : first.1.resumeFrom = second.1.resumeFrom

namespace Execution

section Alike

variable {equipment : Equipment} {before middle one two : Store} {run later : Run}
  {stepRun : StepRun} {envelope : Envelope} {key : String} {first second : CallbackOutcome}

theorem settledResume_congr (keeps : run.Keeps later) (status : later.status = run.status)
    (stepRun : StepRun) (verdict : Verdict) :
    settledResume later stepRun verdict = settledResume run stepRun verdict := by
  rw [settledResume, settledResume, status, resumePoint, resumePoint, Run.nextOrder?,
    Run.nextOrder?, keeps.steps]

/-- A callback comes to the same if the findings are the same and the step sees the same. -/
theorem callbackConclusion_congr (keeps : run.Keeps later)
    (issues : middle.issuesOf stepRun.id = before.issuesOf stepRun.id)
    (heldRun : before.runs.get? stepRun.runId = some run)
    (heldLater : middle.runs.get? stepRun.runId = some later)
    (sees : middle.seenBy stepRun = before.seenBy stepRun) :
    callbackConclusion equipment middle later stepRun envelope =
      callbackConclusion equipment before run stepRun envelope := by
  rw [Store.seenBy_of_held heldLater, Store.seenBy_of_held heldRun, keeps.stepByKey?] at sees
  rw [callbackConclusion, callbackConclusion, issues, keeps.stepByKey?]
  cases isStep : run.stepByKey? stepRun.stepKey with
  | none => rw [Conclusion.ofCallback, Conclusion.ofCallback, keeps.id]
  | some step =>
    rw [isStep] at sees
    unfold Conclusion.ofCallback
    simp only [Option.some.inj sees]

/-- A callback for a step run that has its token is refused in both stores or taken in alike. -/
theorem Answered.alike (running : stepRun.status.isTerminal = false)
    (fresh : isStale stepRun key = false)
    (held : before.stepRuns.get? stepRun.id = some stepRun)
    (heldMiddle : middle.stepRuns.get? stepRun.id = some stepRun)
    (issues : middle.issuesOf stepRun.id = before.issuesOf stepRun.id)
    (receipts : key ∈ middle.receipts ↔ key ∈ before.receipts)
    (conclusions : callbackConclusion equipment middle later stepRun envelope =
      callbackConclusion equipment before run stepRun envelope)
    (keeps : run.Keeps later) (status : later.status = run.status)
    (alone : Answered equipment before run stepRun envelope (some key) first one)
    (after : Answered equipment middle later stepRun envelope (some key) second two) :
    TakenAlike stepRun.id (first, one) (second, two) := by
  cases alone with
  | @refused token _ isKey refuses resumes =>
    obtain rfl := Option.some.inj isKey
    have known : key ∈ before.receipts := refuses.resolve_left (by simp [fresh])
    cases after with
    | refused _ _ resumesToo =>
      exact ⟨by rw [held, heldMiddle], issues.symm, resumes.trans resumesToo.symm⟩
    | taken admitted => exact absurd (receipts.mpr known) (admitted key rfl).2
  | taken admitted applied =>
    have new := (admitted key rfl).2
    cases after with
    | @refused token _ isKey refuses =>
      obtain rfl := Option.some.inj isKey
      exact absurd (receipts.mp (refuses.resolve_left (by simp [fresh]))) new
    | taken _ appliedToo =>
      obtain ⟨verdict, error, now, settles, record, left, resumes⟩ := applied.records running
      obtain ⟨other, otherError, then', settlesToo, recordToo, leftToo, resumesToo⟩ :=
        appliedToo.records running
      change (callbackConclusion equipment middle later stepRun envelope).Settles
        (middle.issuesOf stepRun.id) _ _ _ at settlesToo
      rw [conclusions, issues] at settlesToo
      obtain rfl := settles.unique settlesToo
      refine ⟨?_, left.trans leftToo.symm, ?_⟩
      · simp only [record, recordToo, Option.map_some]
        exact congrArg some (stepRun.untimed_ended _ _ _ _ _)
      · rw [resumes, resumesToo, settledResume_congr keeps status]

end Alike

end Execution

/-- A callback for one step run makes a difference to one for another that waits for its job, although it
does not close the run. -/
def Disturbs (mayAnswer : (request : Request) → request.Answer → Prop) (equipment : Equipment)
    (world : World) (other id : Uuid) (token : String) : Prop :=
  ∃ (stepRun neighbour : StepRun) (key : String) (otherEnvelope envelope : Envelope)
    (firstRequests aloneRequests bothRequests : List Request)
    (first alone both : CallbackOutcome) (middle afterAlone afterBoth : World),
    world.store.stepRuns.get? id = some stepRun ∧ stepRun.Waits ∧
    stepRun.output.jobKey? = some key ∧ world.store.stepRuns.get? other = some neighbour ∧
    (completeCallback equipment other otherEnvelope (some token)).run.Runs mayAnswer world
      firstRequests (some (.ok first)) middle ∧
    ¬ middle.store.Closed stepRun.runId ∧
    (completeCallback equipment id envelope (some key)).run.Runs mayAnswer world aloneRequests
      (some (.ok alone)) afterAlone ∧
    (completeCallback equipment id envelope (some key)).run.Runs mayAnswer middle bothRequests
      (some (.ok both)) afterBoth ∧
    ¬ TakenAlike id (alone, afterAlone.store) (both, afterBoth.store)

namespace Example

/-- The first step has told of nothing that it has seen. -/
def unseen : Rule.Assertion :=
  { Rule.Assertion.plain "unseen" (.operator ⟨"steps.check.seen", .notExists, .null⟩) with
    stage? := some .output }

/-- A second step whose work is a job. -/
def recheck : Step where
  order := 20
  key := "recheck"
  name := ""
  kind := .validator ⟨"remote", .null, []⟩ (.ofAssertions [unseen])

def jobs : List Step := [check, recheck]

/-- The run with a second job instead of the action. -/
def jobRun : Run := { run with steps := jobs }

def jobWorld : World := { world with store := store.withRun jobRun }

def steppingJobs (taken : List Step) : Program (Except EngineFault RunOutcome) :=
  (ExceptT.lift (takeSteps equipment (started jobRun (World.stampOf 0).time) submission taken).run >>=
    conclude).run

theorem steppingJobs_from (start : Int) :
    steppingJobs ((Run.inOrder jobs).filter fun step => start ≤ step.order) =
      steppingJobs (jobs.filter fun step => start ≤ step.order) := by
  have inOrder : Run.inOrder jobs = jobs := List.mergeSort_of_pairwise (by decide)
  rw [inOrder]

def jobEntry : Program (Except EngineFault RunOutcome) × World :=
  World.takeAlone (surroundings accepted) 6 (execute equipment run.id none).run jobWorld

theorem reaches_jobEntry : (execute equipment run.id none).run.Reaches
    (surroundings accepted).answers jobWorld (steppingJobs jobs) jobEntry.2 := by
  have all : jobs = jobs.filter fun step => leastOrder ≤ step.order := rfl
  rw [all, ← steppingJobs_from]
  exact World.reaches_takeAlone (surroundings accepted) 6 (execute equipment run.id none).run jobWorld

/-- The first job is handed over. -/
def firstHanded : World :=
  (World.takeAlone (surroundings accepted) 11 (steppingJobs jobs) jobEntry.2).2

/-- An execution goes on from the second step, although the first one waits. -/
def laterEntry : Program (Except EngineFault RunOutcome) × World :=
  World.takeAlone (surroundings accepted) 4 (execute equipment run.id (some 20)).run firstHanded

theorem reaches_laterEntry : (execute equipment run.id (some 20)).run.Reaches
    (surroundings accepted).answers firstHanded (steppingJobs [recheck]) laterEntry.2 := by
  have last : [recheck] = jobs.filter fun step => 20 ≤ step.order := rfl
  rw [last, ← steppingJobs_from]
  exact World.reaches_takeAlone (surroundings accepted) 4 (execute equipment run.id (some 20)).run
    firstHanded

/-- That execution is cut short after a number of requests. -/
def cutAfter (count : Nat) : World :=
  (World.takeAlone (surroundings accepted) count (steppingJobs [recheck]) laterEntry.2).2

theorem endured_cutAfter (count : Nat) :
    Endured (surroundings accepted).answers equipment jobWorld (cutAfter count) :=
  .execute (.execute .start (reaches_jobEntry.trans (World.reaches_takeAlone _ 11 _ _)))
    (reaches_laterEntry.trans (World.reaches_takeAlone _ count _ _))

theorem kept_cutAfter (count : Nat) : (cutAfter count).Kept :=
  kept_of_endured (coherent_store.withRun jobRun) (fun _ => rfl) (endured_cutAfter count)

/-- The run while its steps are taken. -/
def jobRunning : Run := started jobRun (World.stampOf 0).time

/-- The step run of the second job. -/
def laterId : Uuid := ⟨Store.firstNumber + 1⟩

/-- The first step run, which waits for its job. -/
def firstWaiting : StepRun := ((cutAfter 3).store.stepRuns.get? stepId).get rfl

/-- The second one, which has just begun. -/
def laterBegun : StepRun := ((cutAfter 3).store.stepRuns.get? laterId).get rfl

/-- The second one, which waits as well. -/
def laterWaiting : StepRun := ((cutAfter 11).store.stepRuns.get? laterId).get rfl

theorem jobKey?_firstWaiting : firstWaiting.output.jobKey? = some (Digest.attemptKey stepId 1) :=
  ((kept_cutAfter 3).tokened stepId firstWaiting rfl).2 ⟨rfl, rfl⟩

theorem jobKey?_laterWaiting : laterWaiting.output.jobKey? = some (Digest.attemptKey laterId 1) :=
  ((kept_cutAfter 11).tokened laterId laterWaiting rfl).2 ⟨rfl, rfl⟩

theorem attemptKey_later_ne : Digest.attemptKey laterId 1 ≠ Digest.attemptKey stepId 1 := by
  rw [Digest.attemptKey_eq, Digest.attemptKey_eq]
  decide +kernel

theorem signals_begun : (cutAfter 3).store.signalsBefore run.id 20 = [] := by
  have stepRuns : (cutAfter 3).store.stepRunsOf run.id = [firstWaiting, laterBegun] := by
    rw [Store.stepRunsOf, List.mergeSort_of_pairwise (by decide +kernel)]
    rfl
  rw [Store.signalsBefore, stepRuns]
  rfl

theorem stepRunsOf_waiting : (cutAfter 11).store.stepRunsOf run.id = [firstWaiting, laterWaiting] := by
  rw [Store.stepRunsOf, List.mergeSort_of_pairwise (by decide +kernel)]
  rfl

theorem signals_waiting : (cutAfter 11).store.signalsBefore run.id 20 = [] := by
  rw [Store.signalsBefore, stepRunsOf_waiting]
  rfl

/-- The report of the first job, which has seen something. -/
def seeing : Envelope := .plain .success (.object [("seen", .boolean true)])

/-- What the first step comes to by it. -/
def verdictOfSeeing (output : StepOutput) (earlier : List Issue) (signals : Scope.Signals) : Verdict :=
  .ofEnvelope equipment.checker ⟨"remote", .null, []⟩ .empty .plain output earlier seeing signals

/-- What the second step comes to by a plain report. -/
def verdictOfRecheck (output : StepOutput) (earlier : List Issue) (signals : Scope.Signals) : Verdict :=
  .ofEnvelope equipment.checker ⟨"remote", .null, []⟩ (.ofAssertions [unseen]) .plain output earlier
    envelope signals

section Judged

variable {store : Store} {ofRun : Run} {stepRun : StepRun} {verdict : Verdict}
  {error : Option String}

theorem settles_seeing (steps : ofRun.steps = jobs) (key : stepRun.stepKey = check.key)
    (settles : (callbackConclusion equipment store ofRun stepRun seeing).Settles
      (store.issuesOf stepRun.id) stepRun.output verdict error) :
    verdict = verdictOfSeeing stepRun.output (store.issuesOf stepRun.id)
      (store.signalsBefore ofRun.id 10) := by
  have found : ofRun.stepByKey? stepRun.stepKey = some check := by
    rw [Run.stepByKey?, steps, key]
    rfl
  rw [callbackConclusion, found] at settles
  cases settles
  rfl

theorem settles_recheck (steps : ofRun.steps = jobs) (key : stepRun.stepKey = recheck.key)
    (settles : (callbackConclusion equipment store ofRun stepRun envelope).Settles
      (store.issuesOf stepRun.id) stepRun.output verdict error) :
    verdict = verdictOfRecheck stepRun.output (store.issuesOf stepRun.id)
      (store.signalsBefore ofRun.id 20) := by
  have found : ofRun.stepByKey? stepRun.stepKey = some recheck := by
    rw [Run.stepByKey?, steps, key]
    rfl
  rw [callbackConclusion, found] at settles
  cases settles
  rfl

end Judged

/-- Callbacks are always answered. -/
theorem exists_answered {world : World} {ofRun : Run} {stepRun : StepRun}
    (writable : world.store.failingWrites = false)
    (held : world.store.stepRuns.get? stepRun.id = some stepRun)
    (heldRun : world.store.runs.get? stepRun.runId = some ofRun) (sameId : ofRun.id = stepRun.runId)
    (envelope : Envelope) (key : String) : ∃ requests outcome after,
      (completeCallback equipment stepRun.id envelope (some key)).run.Runs
        (surroundings accepted).answers world requests (some (.ok outcome)) after ∧
      Answered equipment world.store ofRun stepRun envelope (some key) outcome after.store := by
  obtain ⟨requests, runs⟩ := World.runs_run (surroundings accepted)
    (completeCallback equipment stepRun.id envelope (some key)).run world
  obtain ⟨outcome, isOk, answered⟩ := runs.succeeds (ensures_completeCallback (fun _ _ => trivial)
    writable held rfl heldRun sameId (some key))
  rw [isOk] at runs
  exact ⟨requests, outcome, _, runs, answered⟩

/-- A callback for a step run that has been spared is answered as well. -/
theorem exists_answered_after {world middle : World} {ofRun : Run} {stepRun : StepRun}
    (spares : world.store.Spares stepRun middle.store) (writable : world.store.failingWrites = false)
    (held : world.store.stepRuns.get? stepRun.id = some stepRun)
    (heldRun : world.store.runs.get? stepRun.runId = some ofRun) (sameId : ofRun.id = stepRun.runId)
    (envelope : Envelope) (key : String) : ∃ later requests outcome after, ofRun.Keeps later ∧
      (completeCallback equipment stepRun.id envelope (some key)).run.Runs
        (surroundings accepted).answers middle requests (some (.ok outcome)) after ∧
      Answered equipment middle.store later stepRun envelope (some key) outcome after.store := by
  obtain ⟨later, heldLater, keeps, _⟩ := spares.runs ofRun heldRun
  obtain ⟨requests, outcome, after, runs, answered⟩ := exists_answered
    (spares.failingWrites.trans writable) (spares.record.trans held) heldLater
    (keeps.id.trans sameId) envelope key
  exact ⟨later, requests, outcome, after, keeps, runs, answered⟩

/-- A callback that passes its step does not close the run. -/
theorem not_closed_of_passed {store after : Store} {ofRun : Run} {stepRun : StepRun}
    {envelope : Envelope} {outcome : CallbackOutcome}
    (applied : Applied equipment store ofRun stepRun envelope outcome after)
    (running : stepRun.status.isTerminal = false) (isOpen : ofRun.status.isTerminal = false)
    (heldRun : store.runs.get? ofRun.id = some ofRun)
    (passes : ∀ verdict error, (callbackConclusion equipment store ofRun stepRun envelope).Settles
      (store.issuesOf stepRun.id) stepRun.output verdict error → verdict.status = .passed) :
    ¬ after.Closed ofRun.id := by
  rintro ⟨closed, heldClosed, terminal⟩
  obtain ⟨verdict, error, settles, takenIn⟩ := applied.takenIn running heldRun
  obtain ⟨later, heldLater, status⟩ := takenIn.closes
  obtain rfl := Option.some.inj (heldLater.symm.trans heldClosed)
  rw [status, settledStatus, if_pos (Or.inr (passes verdict error settles)), isOpen] at terminal
  cases terminal

theorem passed_of_recheck {output : StepOutput} (unfailing : output.inputAssertions.errorFailures = 0)
    (goesOn : output.inputHalted = false) (earlier : List Issue) :
    (verdictOfRecheck output earlier []).status = .passed := by
  change verdictStatus (passesWith output envelope _) = _
  rw [passesWith, unfailing, goesOn]
  decide +kernel

theorem failed_of_recheck (output : StepOutput) (earlier : List Issue) :
    (verdictOfRecheck output earlier [("check", [("seen", .boolean true)])]).status = .failed := by
  have failed : (verdictOfRecheck .empty [] [("check", [("seen", .boolean true)])]).status =
      .failed := by decide +kernel
  exact failed

/-- The second step has just begun and has no token yet.  It takes that of the first job, whose own
callback is a duplicate from then on. -/
theorem disturbs_begun : Disturbs (surroundings accepted).answers equipment (cutAfter 3) laterId stepId
    (Digest.attemptKey stepId 1) := by
  have heldRun : (cutAfter 3).store.runs.get? run.id = some jobRunning := rfl
  obtain ⟨firstRequests, first, middle, firstRuns, answered⟩ := @exists_answered (cutAfter 3)
    jobRunning laterBegun rfl rfl heldRun rfl envelope (Digest.attemptKey stepId 1)
  obtain ⟨aloneRequests, alone, afterAlone, aloneRuns, answeredAlone⟩ := @exists_answered (cutAfter 3)
    jobRunning firstWaiting rfl rfl heldRun rfl envelope (Digest.attemptKey stepId 1)
  have untaken : Digest.attemptKey stepId 1 ∉ (cutAfter 3).store.receipts := List.not_mem_nil
  have admitted : isStale laterBegun (Digest.attemptKey stepId 1) = false := rfl
  have isOpen : ¬ middle.store.Closed jobRunning.id := by
    have applied := answered.applied admitted untaken
    refine not_closed_of_passed applied rfl rfl heldRun fun verdict error settles => ?_
    rw [settles_recheck rfl rfl settles]
    change (verdictOfRecheck _ _ ((cutAfter 3).store.signalsBefore run.id 20)).status = _
    rw [signals_begun, passed_of_recheck rfl rfl]
  have spares : (cutAfter 3).store.Spares firstWaiting middle.store :=
    answered.spares (by decide) heldRun
  obtain ⟨later, bothRequests, both, afterBoth, _, bothRuns, answeredBoth⟩ :=
    exists_answered_after spares rfl rfl heldRun rfl envelope (Digest.attemptKey stepId 1)
  refine ⟨firstWaiting, laterBegun, _, envelope, envelope, firstRequests, aloneRequests, bothRequests,
    first, alone, both, middle, afterAlone, afterBoth, rfl, ⟨rfl, rfl⟩, jobKey?_firstWaiting, rfl,
    firstRuns, isOpen, aloneRuns, bothRuns, fun alike => ?_⟩
  obtain ⟨verdict, error, now, settles, record, _⟩ :=
    (answeredAlone.applied (isStale_own jobKey?_firstWaiting) untaken).records rfl
  have taken : Digest.attemptKey stepId 1 ∈ middle.store.receipts :=
    (answered.mem_receipts _).mpr (Or.inr ⟨rfl, admitted⟩)
  have unchanged : afterBoth.store.stepRuns.get? firstWaiting.id = some firstWaiting := by
    generalize afterBoth.store = last at answeredBoth ⊢
    cases answeredBoth with
    | refused => exact spares.record
    | taken admits => exact absurd taken (admits _ rfl).2
  have same : (afterAlone.store.stepRuns.get? firstWaiting.id).map StepRun.untimed =
      (afterBoth.store.stepRuns.get? firstWaiting.id).map StepRun.untimed := alike.record
  rw [record, unchanged] at same
  have running : verdict.status = .running := congrArg StepRun.status (Option.some.inj same)
  have terminal := settles.terminal
  rw [running] at terminal
  cases terminal

theorem signals_seen {receipts : List String} {outcome : CallbackOutcome} {after : Store}
    (applied : Applied equipment ((cutAfter 11).store.withReceipts receipts) jobRunning firstWaiting
      seeing outcome after) :
    after.signalsBefore run.id 20 = [("check", [("seen", .boolean true)])] := by
  obtain ⟨verdict, error, ended, middle, settles, ends, reruns, _⟩ := applied.settles rfl
  obtain ⟨now, rfl⟩ := ends.record
  obtain ⟨findings, _, rewrites⟩ := ends.rewrites
  have coherent := (kept_cutAfter 11).coherent.withReceipts receipts
  have before : ((cutAfter 11).store.withReceipts receipts).stepRunsOf run.id =
      [firstWaiting, laterWaiting] := stepRunsOf_waiting
  have held : ((cutAfter 11).store.withReceipts receipts).stepRuns.get? stepId = some firstWaiting :=
    rfl
  have seen := settles_seeing rfl rfl settles
  rw [reruns.signalsBefore, Store.signalsBefore, rewrites.stepRunsOf coherent held rfl rfl, before,
    seen]
  rfl

/-- Both steps wait for their jobs.  The report of the first one tells the second one what has been seen,
so that the report of that one does not hold any longer. -/
theorem disturbs_waiting : Disturbs (surroundings accepted).answers equipment (cutAfter 11) stepId
    laterId (Digest.attemptKey stepId 1) := by
  have heldRun : (cutAfter 11).store.runs.get? run.id = some jobRunning := rfl
  have heldFirst : (cutAfter 11).store.stepRuns.get? stepId = some firstWaiting := rfl
  obtain ⟨firstRequests, first, middle, firstRuns, answered⟩ := @exists_answered (cutAfter 11)
    jobRunning firstWaiting rfl heldFirst heldRun rfl seeing (Digest.attemptKey stepId 1)
  obtain ⟨aloneRequests, alone, afterAlone, aloneRuns, answeredAlone⟩ := @exists_answered
    (cutAfter 11) jobRunning laterWaiting rfl rfl heldRun rfl envelope (Digest.attemptKey laterId 1)
  have untaken : ∀ key, key ∉ (cutAfter 11).store.receipts := fun _ => List.not_mem_nil
  have fresh := isStale_own jobKey?_laterWaiting
  have applied := answered.applied (isStale_own jobKey?_firstWaiting) (untaken _)
  have isOpen : ¬ middle.store.Closed jobRunning.id := by
    refine not_closed_of_passed applied rfl rfl heldRun fun verdict error settles => ?_
    rw [settles_seeing rfl rfl settles]
    decide +kernel
  have spares : (cutAfter 11).store.Spares laterWaiting middle.store :=
    answered.spares (by decide) heldRun
  obtain ⟨later, bothRequests, both, afterBoth, keeps, bothRuns, answeredBoth⟩ :=
    exists_answered_after spares rfl rfl heldRun rfl envelope (Digest.attemptKey laterId 1)
  refine ⟨laterWaiting, firstWaiting, _, seeing, envelope, firstRequests, aloneRequests, bothRequests,
    first, alone, both, middle, afterAlone, afterBoth, rfl, ⟨rfl, rfl⟩, jobKey?_laterWaiting, heldFirst,
    firstRuns, isOpen, aloneRuns, bothRuns, fun alike => ?_⟩
  obtain ⟨verdict, error, _, settles, _, _, resumes⟩ :=
    (answeredAlone.applied fresh (untaken _)).records rfl
  have passed : verdict.status = .passed := by
    rw [settles_recheck rfl rfl settles]
    change (verdictOfRecheck _ _ ((cutAfter 11).store.signalsBefore run.id 20)).status = _
    rw [signals_waiting, passed_of_recheck rfl rfl]
  have untakenToo : Digest.attemptKey laterId 1 ∉ middle.store.receipts := by
    rw [answered.mem_receipts]
    rintro (known | ⟨same, _⟩)
    · exact untaken _ known
    · exact attemptKey_later_ne same
  obtain ⟨verdictToo, _, _, settlesToo, _, _, resumesToo⟩ :=
    (answeredBoth.applied fresh untakenToo).records rfl
  have failed : verdictToo.status ≠ .passed := by
    have seen : middle.store.signalsBefore later.id 20 = _ := keeps.id ▸ signals_seen applied
    rw [settles_recheck keeps.steps rfl settlesToo]
    change (verdictOfRecheck _ _ (middle.store.signalsBefore later.id 20)).status ≠ _
    rw [seen, failed_of_recheck]
    rintro ⟨⟩
  have same : alone.resumeFrom = both.resumeFrom := alike.resumeFrom
  rw [resumes, resumesToo, settledResume, settledResume, if_pos ⟨rfl, passed⟩,
    if_neg fun both => failed both.2] at same
  cases same

end Example

end Vetting
