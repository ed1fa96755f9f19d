import Vetting.Proofs.Program.Regime
import Vetting.Proofs.Step.Verdict
import Vetting.Proofs.Store.Coherence

/-!
Contract: what the parts of processing leave of a step run that is at work.

Owns:
- `Present`: a step run is held in a store that takes writes and may be asked;
- `AtWork`: that it may be asked whatever is recorded for the step run;
- recording and counting findings, keeping an interim output, and ending a step;
- `Store.Ends`: a store follows another one by ending a step run with a verdict.

Does not own: which of them a step does in which order (`Vetting.Proofs.Step.Processing`).
-/

namespace Vetting

namespace StepRun

def leaving (stepRun : StepRun) (output : StepOutput) : StepRun := { stepRun with output }

variable (stepRun : StepRun) (output : StepOutput)

@[simp] theorem leaving_id : (stepRun.leaving output).id = stepRun.id := rfl

@[simp] theorem leaving_status : (stepRun.leaving output).status = stepRun.status := rfl

@[simp] theorem leaving_output : (stepRun.leaving output).output = output := rfl

@[simp] theorem leaving_leaving (later : StepOutput) :
    (stepRun.leaving output).leaving later = stepRun.leaving later := rfl

@[simp] theorem ended_leaving (status : StepStatus) (last : StepOutput) (error : Option String)
    (now : Timestamp) :
    (stepRun.leaving output).ended status last error now = stepRun.ended status last error now :=
  rfl

end StepRun

namespace Store

/-- One store follows another by ending a step run with a verdict. -/
structure Ends (before : Store) (stepRun : StepRun) (verdict : Execution.Verdict)
    (ended : StepRun) (after : Store) : Prop where
  record : ∃ now, ended = stepRun.ended verdict.status verdict.output verdict.error now
  rewrites : ∃ findings, findings.map Finding.issue = verdict.issues ∧
    Rewrites before ended findings after

/-- Any store at all. -/
def Any (_ : Store) : Prop := True

def issuesOf (store : Store) (stepRunId : Uuid) : List Issue :=
  (store.findingsOf stepRunId).map Finding.issue

/-! ### Answers of a store that takes writes -/

section Answers

variable {store : Store} {stepRun : StepRun}

theorem answer_replaceFindings (writable : store.failingWrites = false) (id : Uuid)
    (findings : List Finding) :
    store.answer (.replaceFindings id findings) =
      (.ok (), { store with findings := store.findings.set id findings }) := by
  rw [answer, replaceFindings, if_neg (by simp [writable])]

theorem answer_appendFindings (store : Store) (id : Uuid)
    (findings : List Finding) :
    store.answer (.appendFindings id findings) =
      store.answer (.replaceFindings id (store.findingsOf id ++ findings)) := by
  rfl

theorem answer_updateStepRun (writable : store.failingWrites = false) {old : StepRun}
    (held : store.stepRuns.get? stepRun.id = some old) :
    store.answer (.updateStepRun stepRun) =
      (.ok (), { store with stepRuns := store.stepRuns.set stepRun.id stepRun }) := by
  rw [answer, updateStepRun, if_neg (by simp [writable]), held]

theorem answer_stepRun {id : Uuid} (held : store.stepRuns.get? id = some stepRun) :
    store.answer (.stepRun id) = (.ok stepRun, store) := by
  rw [answer, Store.stepRun, held]

theorem rewrites_findings (held : store.stepRuns.get? stepRun.id = some stepRun)
    (findings : List Finding) :
    Rewrites store stepRun findings
      { store with findings := store.findings.set stepRun.id findings } where
  submissions := rfl
  runs := rfl
  stepRuns := (Table.set_of_get? held).symm
  stepIndex := rfl
  findings := fun id => by
    rw [findingsOf, Table.get?_set]
    by_cases same : stepRun.id = id
    · rw [if_pos same, if_pos same]
      rfl
    · rw [if_neg same, if_neg same]
      rfl
  receipts := rfl
  failingWrites := rfl

theorem rewrites_stepRun (store : Store) (stepRun : StepRun) :
    Rewrites store stepRun (store.findingsOf stepRun.id)
      { store with stepRuns := store.stepRuns.set stepRun.id stepRun } where
  submissions := rfl
  runs := rfl
  stepRuns := rfl
  stepIndex := rfl
  findings := fun id => by
    by_cases same : stepRun.id = id
    · rw [if_pos same, same]
      rfl
    · rw [if_neg same]
      rfl
  receipts := rfl
  failingWrites := rfl

end Answers

theorem Rewrites.issuesOf_self {before after : Store} {stepRun : StepRun}
    {findings : List Finding} (rewrites : Rewrites before stepRun findings after) :
    after.issuesOf stepRun.id = findings.map Finding.issue := by
  rw [issuesOf, rewrites.findings_self]

theorem Rewrites.findings_leaving {before after : Store} {stepRun : StepRun}
    {output : StepOutput} {findings : List Finding}
    (rewrites : Rewrites before (stepRun.leaving output) findings after) :
    after.findingsOf stepRun.id = findings := rewrites.findings_self

theorem Ends.id {before after : Store} {stepRun ended : StepRun} {verdict : Execution.Verdict}
    (ends : Ends before stepRun verdict ended after) : ended.id = stepRun.id := by
  obtain ⟨now, rfl⟩ := ends.record
  rfl

theorem Ends.status {before after : Store} {stepRun ended : StepRun} {verdict : Execution.Verdict}
    (ends : Ends before stepRun verdict ended after) : ended.status = verdict.status := by
  obtain ⟨now, rfl⟩ := ends.record
  rfl

theorem Ends.error {before after : Store} {stepRun ended : StepRun} {verdict : Execution.Verdict}
    (ends : Ends before stepRun verdict ended after) : ended.error = verdict.error := by
  obtain ⟨now, rfl⟩ := ends.record
  rfl

/-- What a step has left behind before it ends makes no difference in the end. -/
theorem Ends.since {before middle after : Store} {stepRun ended : StepRun} {output : StepOutput}
    {findings : List Finding} {verdict : Execution.Verdict}
    (rewrites : Rewrites before (stepRun.leaving output) findings middle)
    (ends : Ends middle (stepRun.leaving output) verdict ended after) :
    Ends before stepRun verdict ended after := by
  obtain ⟨now, record⟩ := ends.record
  obtain ⟨last, issues, later⟩ := ends.rewrites
  exact ⟨⟨now, record⟩, last, issues, rewrites.trans later ends.id⟩

end Store

namespace Execution

open Store (Rewrites Ends)

/-- A step run is held in a store that takes writes, and the regime has nothing against asking in any
store that is allowed, as this one is. -/
structure Present (regime : Regime) (allowed : Store → Prop) (store : Store)
    (stepRun : StepRun) : Prop where
  watches : ∀ world request, allowed world.store → regime.watch world request
  writable : store.failingWrites = false
  held : store.stepRuns.get? stepRun.id = some stepRun
  here : allowed store

namespace Present

variable {regime : Regime} {allowed : Store → Prop} {store : Store} {stepRun : StepRun}

theorem watch (present : Present regime allowed store stepRun) {log : EventLog} {clock : Nat}
    (request : Request) : regime.watch ⟨store, log, clock⟩ request :=
  present.watches _ request present.here

/-- A step run is present after it has been rewritten, if the store may be asked. -/
theorem rewrites (present : Present regime allowed store stepRun) {later : StepRun}
    {findings : List Finding} {after : Store} (rewrites : Rewrites store later findings after)
    (here : allowed after) : Present regime allowed after later where
  watches := present.watches
  writable := rewrites.failingWrites.trans present.writable
  held := rewrites.get?_self
  here := here

end Present

/-- A step run is held in a store that takes writes.  The regime has nothing against asking in any
store that is allowed, and the store stays so whatever is recorded for the step run. -/
structure AtWork (regime : Regime) (allowed : Store → Prop) (store : Store)
    (stepRun : StepRun) : Prop where
  watches : ∀ world request, allowed world.store → regime.watch world request
  writable : store.failingWrites = false
  held : store.stepRuns.get? stepRun.id = some stepRun
  stays : ∀ findings after, Rewrites store stepRun findings after → allowed after

namespace AtWork

variable {regime : Regime} {allowed : Store → Prop} {store : Store} {stepRun : StepRun}

theorem here (work : AtWork regime allowed store stepRun) : allowed store :=
  work.stays _ _ (.refl work.held)

theorem present (work : AtWork regime allowed store stepRun) :
    Present regime allowed store stepRun :=
  ⟨work.watches, work.writable, work.held, work.here⟩

theorem watch (work : AtWork regime allowed store stepRun) {log : EventLog} {clock : Nat}
    (request : Request) : regime.watch ⟨store, log, clock⟩ request :=
  work.present.watch request

theorem rewrites (work : AtWork regime allowed store stepRun) {findings : List Finding}
    {after : Store} (rewrites : Rewrites store stepRun findings after) :
    AtWork regime allowed after stepRun where
  watches := work.watches
  writable := rewrites.failingWrites.trans work.writable
  held := rewrites.get?_self
  stays := fun _ _ later => work.stays _ _ (rewrites.trans later rfl)

/-- Keeping an output is fine if the store stays allowed whatever is recorded after it. -/
theorem keeps (work : AtWork regime allowed store stepRun) {output : StepOutput} {after : Store}
    (rewrites : Rewrites store (stepRun.leaving output) (store.findingsOf stepRun.id) after)
    (stays : ∀ findings later, Rewrites store (stepRun.leaving output) findings later →
      allowed later) : AtWork regime allowed after (stepRun.leaving output) where
  watches := work.watches
  writable := rewrites.failingWrites.trans work.writable
  held := rewrites.get?_self
  stays := fun _ _ later => stays _ _ (rewrites.trans later rfl)

end AtWork

/-! ### Recording -/

theorem map_issue_findingsOf (runId stepRunId : Uuid) (stamp : Stamp) (issues : List Issue) :
    (findingsOf runId stepRunId stamp issues).map Finding.issue = issues := by
  rw [findingsOf]
  exact List.ext_getElem (by simp) fun index _ _ => by simp

theorem map_severity_findingsOf (runId stepRunId : Uuid) (stamp : Stamp) (issues : List Issue) :
    (findingsOf runId stepRunId stamp issues).map Finding.severity = issues.map Issue.severity := by
  conv => rhs; rw [← map_issue_findingsOf runId stepRunId stamp issues]
  rw [List.map_map]
  rfl

/-- The issues that recording in a mode leaves in front of new ones. -/
def RecordMode.kept : RecordMode → List Issue → List Issue
  | .replace, _ => []
  | .append, earlier => earlier

section Steps

variable {regime : Regime} {allowed : Store → Prop} {world : World} {stepRun : StepRun}
  {bad : EngineFault → World → Prop}

/-- A request that a store answers well. -/
theorem ensures_ask {store after : Store} {log : EventLog} {clock : Nat} {request : StoreRequest}
    {result : request.Result} {good : request.Result → World → Prop}
    (answered : store.answer request = (.ok result, after)) :
    Ensures regime (Job.store request) ⟨store, log, clock⟩ good bad ↔
      regime.watch ⟨store, log, clock⟩ (.store request) ∧ good result ⟨after, log, clock⟩ := by
  rw [ensures_store, answered]

theorem ensures_record (present : Present regime allowed world.store stepRun) (runId : Uuid)
    (issues : List Issue) (mode : RecordMode) {good : Recorded → World → Prop}
    (reached : ∀ recorded findings after, recorded.severityCounts = countIssues issues →
      findings.map Finding.issue = mode.kept (world.store.issuesOf stepRun.id) ++ issues →
      Rewrites world.store stepRun findings after.store → good recorded after) :
    Ensures regime (record runId stepRun.id issues mode) world good bad := by
  simp only [record, ensures_bind, ensures_stamp]
  refine ⟨present.watch _, fun stamp clock => ?_⟩
  have counted : SeverityCounts.of
      ((findingsOf runId stepRun.id stamp issues).map Finding.severity) = countIssues issues := by
    rw [map_severity_findingsOf, countIssues]
  cases mode with
  | replace =>
    refine (ensures_bind _ _).mpr
      ((ensures_ask (Store.answer_replaceFindings present.writable _ _)).mpr ⟨present.watch _, ?_⟩)
    exact reached _ _ _ counted (by rw [map_issue_findingsOf]; rfl)
      (Store.rewrites_findings present.held _)
  | append =>
    refine (ensures_bind _ _).mpr ((ensures_ask ((Store.answer_appendFindings _ _ _).trans
      (Store.answer_replaceFindings present.writable _ _))).mpr ⟨present.watch _, ?_⟩)
    exact reached _ _ _ counted (by rw [List.map_append, map_issue_findingsOf]; rfl)
      (Store.rewrites_findings present.held _)

theorem ensures_countFindings (present : Present regime allowed world.store stepRun)
    {good : SeverityCounts → World → Prop}
    (reached : good (countIssues (world.store.issuesOf stepRun.id)) world) :
    Ensures regime (countFindings stepRun.id) world good bad := by
  refine (ensures_bind _ _).mpr ((ensures_ask rfl).mpr ⟨present.watch _, ?_⟩)
  have severities : (world.store.findingsOf stepRun.id).map Finding.severity =
      (world.store.issuesOf stepRun.id).map Issue.severity := by
    rw [Store.issuesOf, List.map_map]
    rfl
  rw [ensures_pure, severities]
  exact reached

/-! ### Ending a step, and keeping an output -/

theorem ensures_endStep (present : Present regime allowed world.store stepRun)
    {atWork : StepRun} (sameId : atWork.id = stepRun.id) (running : atWork.status = .running)
    {status : StepStatus} (terminal : status.isTerminal = true) (output : StepOutput)
    (error : Option String) {good : StepRun → World → Prop}
    (reached : ∀ now after,
      Rewrites world.store (atWork.ended status output error now)
        (world.store.findingsOf stepRun.id) after.store →
      allowed after.store ∧ good (atWork.ended status output error now) after) :
    Ensures regime (endStep atWork status output error) world good bad := by
  have goesOn : (!status.isTerminal || !atWork.status.mayBecome status) = false := by
    rw [terminal, running]
    rfl
  simp only [endStep, endStepAt, ensures_bind, ensures_now]
  refine ⟨present.watch _, fun stamp clock => ?_⟩
  rw [goesOn]
  simp only [Bool.false_eq_true, if_false, ensures_bind]
  have held : world.store.stepRuns.get? (atWork.ended status output error stamp.time).id =
      some stepRun := by
    rw [← present.held, ← sameId]
    rfl
  refine (ensures_ask (Store.answer_updateStepRun present.writable held)).mpr
    ⟨present.watch _, ?_⟩
  have rewrites := Store.rewrites_stepRun world.store (atWork.ended status output error stamp.time)
  have ownFindings : world.store.findingsOf (atWork.ended status output error stamp.time).id =
      world.store.findingsOf stepRun.id := congrArg world.store.findingsOf sameId
  rw [ownFindings] at rewrites
  rw [ensures_log]
  exact ⟨present.watches _ _ (reached stamp.time ⟨_, world.log, clock⟩ rewrites).1,
    fun time => (reached stamp.time ⟨_, _, _⟩ rewrites).2⟩

theorem ensures_storeInterim (present : Present regime allowed world.store stepRun)
    (output : StepOutput) {good : StepRun → World → Prop}
    (reached : ∀ after, Rewrites world.store (stepRun.leaving output)
      (world.store.findingsOf stepRun.id) after.store → good (stepRun.leaving output) after) :
    Ensures regime (storeInterim stepRun output) world good bad := by
  have held : world.store.stepRuns.get? (stepRun.leaving output).id = some stepRun := present.held
  refine (ensures_bind _ _).mpr ((ensures_ask
    (Store.answer_updateStepRun present.writable held)).mpr ⟨present.watch _, ?_⟩)
  exact reached _ (Store.rewrites_stepRun _ _)

/-- A step that fails with an issue ends with one more issue. -/
theorem ensures_failWithIssue (present : Present regime allowed world.store stepRun)
    (running : stepRun.status = .running) (issue : Issue) (output : StepOutput)
    (recording : ∀ findings after,
      findings.map Finding.issue = world.store.issuesOf stepRun.id ++ [issue] →
      Rewrites world.store stepRun findings after → allowed after)
    {good : StepResult → World → Prop}
    (reached : ∀ ended after,
      Ends world.store stepRun (.failing (world.store.issuesOf stepRun.id) issue output) ended
        after.store →
      allowed after.store ∧ good (.ofStepRun ended) after) :
    Ensures regime (failWithIssue stepRun issue output) world good bad := by
  simp only [failWithIssue, ensures_bind]
  apply ensures_record present _ _ .append
  intro _ findings recorded _ issues rewrites
  have present := present.rewrites rewrites (recording _ _ issues rewrites)
  refine ensures_countFindings present ?_
  rw [rewrites.issuesOf_self, issues]
  apply ensures_endStep present rfl running rfl _ _
  intro now after ended
  refine reached _ _ ⟨⟨now, rfl⟩, findings, issues, ?_⟩
  rw [rewrites.findings_self] at ended
  exact rewrites.trans ended rfl

end Steps

end Execution

end Vetting
