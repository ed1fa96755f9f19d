import Vetting.Proofs.Run.Answering
import Vetting.Proofs.Run.Auditing
import Vetting.Proofs.Run.Turns

/-!
Contract: the counters of steps and their findings, whatever a store has undergone.

Owns:
- `Undergone`: operations one after the other, where executions may be cut short;
- every store that has undergone them is audited, and when a callback keeps it so;
- a step that is begun again and counts what is gone.

Does not own: what an execution leaves (`Vetting.Proofs.Run.Auditing`).
-/

namespace Vetting

open Execution

namespace Execution

variable {equipment : Equipment} {trusted : Uuid → Prop} {run : Run}

/-! ### Callbacks -/

/-- What a callback settles a step with keeps the counters in order exactly if they are. -/
theorem Conclusion.Settles.tallies_iff {store : Store} {stepRun : StepRun} {envelope : Envelope}
    {verdict : Verdict} {error : Option String}
    (unreported : stepRun.output.outputAssertions = .zero)
    (settles : (callbackConclusion equipment store run stepRun envelope).Settles
      (store.issuesOf stepRun.id) stepRun.output verdict error) :
    verdict.output.severityCounts = countIssues verdict.issues ∧
      (verdict.Tallies ↔ stepRun.output.Tallies (store.issuesOf stepRun.id)) := by
  obtain ⟨code, detail, rfl⟩ | ⟨validator, ruleset, external, signals, rfl⟩ :=
    settles.fails_or_reports
  · exact ⟨rfl, Verdict.tallies_failing rfl⟩
  · exact ⟨rfl, Verdict.tallies_ofEnvelope unreported _ _ _ _ _ _⟩

theorem Applied.audited {store after : Store} {stepRun : StepRun} {envelope : Envelope}
    {outcome : CallbackOutcome} (audited : store.Audited trusted)
    (held : store.stepRuns.get? stepRun.id = some stepRun)
    (tallies : trusted stepRun.id → stepRun.status = .running → stepRun.awaitsJob = false →
      stepRun.output.Tallies (store.issuesOf stepRun.id))
    (applied : Applied equipment store run stepRun envelope outcome after) :
    after.Audited trusted := by
  obtain ⟨_, rfl⟩ | ⟨isOpen, verdict, error, ended, middle, settles, ends, reruns⟩ :=
    applied.same_or_settles
  · exact audited
  · have running := running_of_not_terminal isOpen
    have accounted := audited.accounted _ _ held
    obtain ⟨counts, same⟩ := settles.tallies_iff (accounted.unreported running)
    have counted : trusted stepRun.id → stepRun.output.Tallies (store.issuesOf stepRun.id) := by
      intro isTrusted
      cases awaits : stepRun.awaitsJob with
      | true => exact accounted.tallies isTrusted (Or.inr awaits)
      | false => exact tallies isTrusted running awaits
    have auditedMiddle := audited.ends ends held settles.terminal
      ⟨counts, fun isTrusted => same.mpr (counted isTrusted)⟩
    rcases reruns with ⟨rfl, _⟩ | ⟨later, _, _, rfl⟩
    · exact auditedMiddle
    · exact auditedMiddle.withRun later

end Execution

/-! ### Operations one after the other -/

/-- Operations one after the other, each with what may be answered from outside.  An execution may be
cut short at any request. -/
inductive Undergone (equipment : Equipment) (trusted : Uuid → Prop) (origin : World) : World → Prop
  | start : Undergone equipment trusted origin origin
  /-- Step runs that are trusted have counted nothing, or their jobs are handed over again. -/
  | execute {mayAnswer : (request : Request) → request.Answer → Prop} {world after : World}
      {runId : Uuid} {resumeFrom : Option Int} {requests : List Request}
      {result? : Option (Except EngineFault RunOutcome)}
      (undergone : Undergone equipment trusted origin world) (unassertive : Unassertive mayAnswer)
      (prepared : ∀ run, world.store.runs.get? runId = some run →
        world.store.Prepared mayAnswer equipment trusted run)
      (runs : (Execution.execute equipment runId resumeFrom).run.Runs mayAnswer world requests
        result? after) :
    Undergone equipment trusted origin after
  /-- A step run that is trusted and does not wait counts its findings when the callback comes. -/
  | callback {mayAnswer : (request : Request) → request.Answer → Prop} {world after : World}
      {stepRunId : Uuid} {envelope : Envelope} {key? : Option String} {requests : List Request}
      {result : Except EngineFault CallbackOutcome}
      (undergone : Undergone equipment trusted origin world)
      (tallies : trusted stepRunId → ∀ stepRun,
        world.store.stepRuns.get? stepRunId = some stepRun → stepRun.status = .running →
        stepRun.awaitsJob = false → stepRun.output.Tallies (world.store.issuesOf stepRunId))
      (runs : (completeCallback equipment stepRunId envelope key?).run.Runs mayAnswer world requests
        (some result) after) :
    Undergone equipment trusted origin after
  | cancel {mayAnswer : (request : Request) → request.Answer → Prop} {world after : World}
      {runId : Uuid} {requests : List Request} {result : Except EngineFault RunOutcome}
      (undergone : Undergone equipment trusted origin world)
      (runs : (Execution.cancel runId).run.Runs mayAnswer world requests (some result) after) :
    Undergone equipment trusted origin after

section Operations

variable {mayAnswer : (request : Request) → request.Answer → Prop} {equipment : Equipment}
  {trusted : Uuid → Prop} {world after : World}

theorem Execution.Answered.audited {store later : Store} {run : Run} {stepRun : StepRun}
    {envelope : Envelope} {key? : Option String} {outcome : CallbackOutcome}
    (audited : store.Audited trusted) (held : store.stepRuns.get? stepRun.id = some stepRun)
    (tallies : trusted stepRun.id → stepRun.status = .running → stepRun.awaitsJob = false →
      stepRun.output.Tallies (store.issuesOf stepRun.id))
    (answered : Answered equipment store run stepRun envelope key? outcome later) :
    later.Audited trusted := by
  cases answered with
  | refused => exact audited
  | taken _ applied =>
    exact applied.audited (audited.withReceipts (receiptsWith store.receipts key?)) held tallies

theorem Execution.Canceled.audited {store later : Store} {run : Run}
    (audited : store.Audited trusted) (canceled : Canceled store run later) :
    later.Audited trusted := by
  cases canceled with
  | already => exact audited
  | closed _ closes => exact audited.withRun _
  | flagged => exact audited.withRun _

/-- Every store that has undergone operations is audited. -/
theorem audited_of_undergone {origin : World} (coherent : origin.store.Coherent)
    (writable : origin.store.failingWrites = false)
    (unbegun : ∀ id, origin.store.stepRuns.get? id = none)
    (undergone : Undergone equipment trusted origin world) : world.store.Audited trusted := by
  induction undergone with
  | start =>
    refine ⟨coherent, writable, fun id stepRun held => ?_⟩
    rw [unbegun] at held
    cases held
  | @execute mayAnswer world after _ resumeFrom _ _ _ unassertive prepared runs audited =>
    exact runs.remains (ensures_execute_audited resumeFrom unassertive audited prepared)
  | @callback mayAnswer world after id envelope key? _ _ _ tallies runs audited =>
    cases held : world.store.stepRuns.get? id with
    | none =>
      have ensures : Ensures (.unwatched mayAnswer) (completeCallback equipment id envelope key?)
          world (fun _ _ => False) fun _ last => last.store = world.store :=
        ensures_completeCallback_missing (fun _ _ => trivial) held key? fun _ => rfl
      obtain ⟨_, _, same⟩ := runs.fails ensures
      rw [same]
      exact audited
    | some stepRun =>
      obtain ⟨_, _, _, _, _, answered⟩ :=
        answered_of_runs audited.coherent audited.writable held runs
      obtain rfl := audited.coherent.stepRunIds _ _ held
      exact answered.audited audited held fun isTrusted => tallies isTrusted stepRun held
  | @cancel mayAnswer world after id _ _ _ runs audited =>
    cases held : world.store.runs.get? id with
    | none =>
      have ensures : Ensures (.unwatched mayAnswer) (Execution.cancel id) world
          (fun _ _ => False) fun _ last => last.store = world.store :=
        ensures_cancel_missing (fun _ _ => trivial) held fun _ => rfl
      obtain ⟨_, _, same⟩ := runs.fails ensures
      rw [same]
      exact audited
    | some run =>
      obtain rfl := audited.coherent.runIds _ _ held
      obtain ⟨_, _, canceled⟩ := runs.succeeds (ensures_cancel (fun _ _ => trivial)
        audited.writable held)
      exact canceled.audited audited

/-- Whatever a store has undergone, a step run that has ended counts the severities of its findings.
One that is trusted counts the assertions among them as well, and so it does while it waits for a job.
A callback that ends a step run leaves it counting them exactly if it did so before. -/
theorem tallies_of_undergone {origin : World} (coherent : origin.store.Coherent)
    (writable : origin.store.failingWrites = false)
    (unbegun : ∀ id, origin.store.stepRuns.get? id = none)
    (undergone : Undergone equipment trusted origin world) {id : Uuid} {stepRun : StepRun}
    (held : world.store.stepRuns.get? id = some stepRun) :
    (stepRun.status.isTerminal = true →
      stepRun.output.severityCounts = countIssues (world.store.issuesOf id)) ∧
    (trusted id → stepRun.status.isTerminal = true ∨ stepRun.awaitsJob = true →
      stepRun.output.Tallies (world.store.issuesOf id)) ∧
    ∀ mayAnswer envelope key? requests result last,
      (completeCallback equipment id envelope key?).run.Runs mayAnswer world requests (some result)
        last →
      ∃ later, last.store.stepRuns.get? id = some later ∧
        (later.output.Tallies (last.store.issuesOf id) ↔
          stepRun.output.Tallies (world.store.issuesOf id)) := by
  have audited := audited_of_undergone coherent writable unbegun undergone
  have accounted := audited.accounted id stepRun held
  refine ⟨accounted.counts, accounted.tallies, ?_⟩
  intro mayAnswer envelope key? requests result last runs
  obtain ⟨_, _, _, _, _, answered⟩ :=
    answered_of_runs audited.coherent audited.writable held runs
  obtain rfl := audited.coherent.stepRunIds _ _ held
  generalize last.store = after at answered ⊢
  cases answered with
  | refused => exact ⟨stepRun, held, Iff.rfl⟩
  | taken _ applied =>
    obtain ⟨_, rfl⟩ | ⟨isOpen, _⟩ := applied.same_or_settles
    · exact ⟨stepRun, held, Iff.rfl⟩
    · obtain ⟨verdict, error, now, settles, heldAfter, issues, _⟩ := applied.records isOpen
      obtain ⟨_, same⟩ := settles.tallies_iff (accounted.unreported (running_of_not_terminal isOpen))
      refine ⟨_, heldAfter, ?_⟩
      rw [issues]
      exact same

end Operations

/-! ### A step that is begun again -/

namespace Example

/-- The document has a name. -/
def named : Rule.Assertion := .plain "named" (.operator ⟨"name", .exists, .null⟩)

/-- A step with an assertion about its document, whose work is a job. -/
def asserting : Step where
  order := 10
  key := "check"
  name := ""
  kind := .validator ⟨"remote", .null, []⟩ (.ofAssertions [named])

def assertingRun : Run := { run with steps := [asserting] }

def assertingWorld : World := { world with store := store.withRun assertingRun }

/-- The backend is not there. -/
def absent : Surroundings := { surroundings accepted with backendAvailable := false }

def steppingOnce : Program (Except EngineFault RunOutcome) :=
  (ExceptT.lift (takeSteps equipment (started assertingRun (World.stampOf 0).time) submission
    [asserting]).run >>= conclude).run

theorem steppingOnce_from {start : Int} (below : start ≤ 10) :
    (ExceptT.lift (takeSteps equipment (started assertingRun (World.stampOf 0).time) submission
      ((Run.inOrder [asserting]).filter fun step => start ≤ step.order)).run >>= conclude).run =
    steppingOnce := by
  have inOrder : Run.inOrder [asserting] = [asserting] := List.mergeSort_singleton asserting
  have all : [asserting].filter (fun step => start ≤ step.order) = [asserting] :=
    List.filter_cons_of_pos (decide_eq_true below)
  rw [inOrder, all, steppingOnce]

/-- The first execution has entered the run. -/
def assertingEntry : World :=
  (World.takeAlone (surroundings accepted) 6 (execute equipment run.id none).run assertingWorld).2

/-- The first execution is cut short when its job has been accepted. -/
def launched : Program (Except EngineFault RunOutcome) × World :=
  World.takeAlone (surroundings accepted) 10 steppingOnce assertingEntry

theorem runs_launched : ∃ requests, (execute equipment run.id none).run.Runs
    (surroundings accepted).answers assertingWorld requests none launched.2 := by
  obtain ⟨request, next, asks⟩ : ∃ request next, launched.1 = .ask request next := ⟨_, _, rfl⟩
  have stopped : launched.1.Runs (surroundings accepted).answers launched.2 [] none launched.2 := by
    rw [asks]
    exact .stopped request next _
  obtain ⟨requests, runs⟩ := World.runs_takeAlone _ _ stopped
  have least : leastOrder ≤ 10 := by decide
  rw [← steppingOnce_from least] at runs
  obtain ⟨earlier, whole⟩ := @World.runs_takeAlone _ (surroundings accepted) 6
    (execute equipment run.id none).run assertingWorld _ _ _ runs
  exact ⟨_, whole⟩

/-- An execution goes on in some surroundings with what has been cut short. -/
def resumedEntry (surroundings : Surroundings) : World :=
  (World.takeAlone surroundings 4 (execute equipment run.id (some 10)).run launched.2).2

def resumedOnce (surroundings : Surroundings) : Except EngineFault RunOutcome × World :=
  (steppingOnce.run (World.answer surroundings)).run (resumedEntry surroundings)

theorem runs_resumedOnce (surroundings : Surroundings) : ∃ requests,
    (execute equipment run.id (some 10)).run.Runs surroundings.answers launched.2 requests
      (some (resumedOnce surroundings).1) (resumedOnce surroundings).2 := by
  obtain ⟨requests, runs⟩ := World.runs_run surroundings steppingOnce (resumedEntry surroundings)
  change steppingOnce.Runs _ _ _ (some (resumedOnce surroundings).1) (resumedOnce surroundings).2
    at runs
  generalize resumedOnce surroundings = last at runs ⊢
  rw [← steppingOnce_from (Int.le_refl 10)] at runs
  obtain ⟨earlier, whole⟩ := @World.runs_takeAlone _ surroundings 4
    (execute equipment run.id (some 10)).run launched.2 _ _ _ runs
  exact ⟨_, whole⟩

theorem unassertive_surroundings (response : JobResponse) :
    Unassertive (surroundings response).answers := by
  rintro validator submission outcome ⟨⟩
  exact fun _ member => nomatch member

theorem unassertive_absent : Unassertive absent.answers := by
  rintro validator submission outcome ⟨⟩
  exact fun _ member => nomatch member

theorem handsOver_asserting (response : JobResponse) :
    HandsOver (surroundings response).answers equipment asserting :=
  ⟨by rintro ⟨⟩, ⟨"remote", .null, []⟩, .ofAssertions [named], .plain, rfl, rfl⟩

theorem undergone_launched (trusted : Uuid → Prop) :
    Undergone equipment trusted assertingWorld launched.2 := by
  obtain ⟨requests, runs⟩ := runs_launched
  refine .execute .start (unassertive_surroundings accepted) ?_ runs
  intro _ _ id stepRun held
  cases held

theorem undergone_resumedOnce (trusted : Uuid → Prop) (surroundings : Surroundings)
    (unassertive : Unassertive surroundings.answers)
    (prepared : ∀ id, trusted id → HandsOver surroundings.answers equipment asserting) :
    Undergone equipment trusted assertingWorld (resumedOnce surroundings).2 := by
  obtain ⟨requests, runs⟩ := runs_resumedOnce surroundings
  refine .execute (undergone_launched trusted) unassertive ?_ runs
  intro later heldLater id stepRun _ _ _ _ isTrusted
  have heldRun : launched.2.store.runs.get? run.id =
    some (started assertingRun (World.stampOf 0).time) := rfl
  obtain rfl := Option.some.inj (heldRun.symm.trans heldLater)
  refine Or.inr fun step member _ => ?_
  obtain rfl := List.mem_singleton.mp member
  exact prepared id isTrusted

theorem coherent_assertingWorld : assertingWorld.store.Coherent := coherent_store.withRun assertingRun

/-- What is stored of the step at last: its attempt, how many assertions it counts, and whether it has
ended. -/
def standingOf (store : Store) : Option (Nat × Nat × Bool) :=
  (store.stepRuns.get? stepId).map fun stepRun =>
    (stepRun.attempt, stepRun.output.assertionTotal, stepRun.status.isTerminal)

theorem held_of_standingOf {store : Store} {attempt total : Nat}
    (standing : standingOf store = some (attempt, total, true)) : ∃ ended,
    store.stepRuns.get? stepId = some ended ∧ ended.attempt = attempt ∧
      ended.output.assertionTotal = total ∧ ended.status.isTerminal = true := by
  obtain ⟨ended, held, same⟩ := Option.map_eq_some_iff.mp standing
  simp only [Prod.mk.injEq] at same
  exact ⟨ended, held, same.1, same.2.1, same.2.2⟩

/-- The backend is there again, and the step that is begun again counts its findings. -/
theorem tallies_resumedOnce : ∃ ended,
    (resumedOnce (surroundings reporting)).2.store.stepRuns.get? stepId = some ended ∧
    ended.attempt = 2 ∧ ended.output.assertionTotal = 1 ∧
    ended.output.Tallies ((resumedOnce (surroundings reporting)).2.store.issuesOf stepId) := by
  have standing : standingOf (resumedOnce (surroundings reporting)).2.store = some (2, 1, true) := by
    decide +kernel
  obtain ⟨ended, held, second, total, terminal⟩ := held_of_standingOf standing
  have undergone := undergone_resumedOnce (fun _ => True) (surroundings reporting)
    (unassertive_surroundings reporting) fun _ _ => handsOver_asserting reporting
  obtain ⟨_, tallies, _⟩ := tallies_of_undergone coherent_assertingWorld rfl (fun _ => rfl) undergone
    held
  exact ⟨ended, held, second, total, tallies trivial (Or.inl terminal)⟩

/-- The backend is not there any more, and the step that is begun again fails.  It counts an assertion
whose finding is gone. -/
theorem not_tallies : ∃ (stopped last : World) (first second : List Request)
    (result : Except EngineFault RunOutcome) (ended : StepRun),
    Unassertive (surroundings accepted).answers ∧ Unassertive absent.answers ∧
    (execute equipment run.id none).run.Runs (surroundings accepted).answers assertingWorld first
      none stopped ∧
    (execute equipment run.id (some 10)).run.Runs absent.answers stopped second (some result) last ∧
    last.store.stepRuns.get? stepId = some ended ∧ ended.status.isTerminal = true ∧
    ended.output.assertionTotal = 1 ∧ Unasserted (last.store.issuesOf stepId) ∧
    ¬ ended.output.Tallies (last.store.issuesOf stepId) := by
  have standing : standingOf (resumedOnce absent).2.store = some (2, 1, true) := by decide +kernel
  have findings : ((resumedOnce absent).2.store.issuesOf stepId).map Issue.assertionId = [none] := by
    decide +kernel
  obtain ⟨ended, held, _, total, terminal⟩ := held_of_standingOf standing
  obtain ⟨first, cutShort⟩ := runs_launched
  obtain ⟨second, resumes⟩ := runs_resumedOnce absent
  have unasserted : Unasserted ((resumedOnce absent).2.store.issuesOf stepId) := by
    intro issue member
    have isNone : issue.assertionId ∈ _ := List.mem_map_of_mem member
    rw [findings] at isNone
    exact List.mem_singleton.mp isNone
  refine ⟨_, _, first, second, _, ended, unassertive_surroundings accepted, unassertive_absent, cutShort,
    resumes, held, terminal, total, unasserted, fun tallies => ?_⟩
  have same := tallies.total
  rw [total, unasserted.countP_total] at same
  cases same

end Example

end Vetting
