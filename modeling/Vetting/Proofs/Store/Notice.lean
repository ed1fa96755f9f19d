import Vetting.Proofs.Program.Regime
import Vetting.Proofs.Run.Driving

/-!
Contract: what a request to a store does, and what its answer tells about step runs.

Owns:
- notices: a step run has been begun, found, read or written;
- `Store.Passes`: everything that answering a request can do to a store;
- what that leaves of coherence and of each step run.

Does not own: who asks, and what may be asked.
-/

namespace Vetting

namespace Execution

/-- What an answer tells about one step run. -/
inductive Notice where
  /-- It has been begun, for the first time or again. -/
  | begun (stepRun : StepRun)
  /-- It was there when its step was to begin. -/
  | found (stepRun : StepRun)
  | read (stepRun : StepRun)
  | written (stepRun : StepRun)

namespace Notice

def stepRun : Notice → StepRun
  | begun stepRun | found stepRun | read stepRun | written stepRun => stepRun

def begun? : Notice → Option StepRun
  | begun stepRun => some stepRun
  | found _ | read _ | written _ => none

def written? : Notice → Option StepRun
  | written stepRun => some stepRun
  | begun _ | found _ | read _ => none

/-- The record that a step run has got by this. -/
def change? : Notice → Option StepRun
  | begun stepRun | written stepRun => some stepRun
  | found _ | read _ => none

theorem change?_eq_some {notice? : Option Notice} {stepRun : StepRun} :
    notice?.bind change? = some stepRun ↔
      notice? = some (.begun stepRun) ∨ notice? = some (.written stepRun) := by
  cases notice? with
  | none => simp
  | some notice => cases notice <;> simp [change?]

theorem stepRun_of_change? {notice : Notice} {stepRun : StepRun}
    (change : notice.change? = some stepRun) : notice.stepRun = stepRun := by
  cases notice <;> cases change <;> rfl

end Notice

/-- What an answer tells about a step run, if it tells about one. -/
def Request.notice? : (request : Request) → request.Answer → Option Notice
  | .store (.acquire _ _ _), .ok (.created stepRun) => some (.begun stepRun)
  | .store (.acquire _ _ _), .ok (.existing stepRun) => some (.found stepRun)
  | .store (.restart _ _ _), .ok (some stepRun) => some (.begun stepRun)
  | .store (.stepRun _), .ok stepRun => some (.read stepRun)
  | .store (.updateStepRun stepRun), .ok () => some (.written stepRun)
  | _, _ => none

end Execution

namespace Store

open Execution (Notice)

/-- Everything that a request can do to a store, with what its answer tells about a step run. -/
inductive Passes (before : Store) : StoreRequest → Option Notice → Store → Prop
  | same (request : StoreRequest) : Passes before request none before
  | changed (request : StoreRequest) {run changed : Run}
      (held : before.runs.get? changed.id = some run) :
    Passes before request none (before.withRun changed)
  | replaced (id : Uuid) (findings : List Finding) :
    Passes before (.replaceFindings id findings) none
      { before with findings := before.findings.set id findings }
  | appended (id : Uuid) (findings : List Finding) :
    Passes before (.appendFindings id findings) none
      { before with findings := before.findings.set id (before.findingsOf id ++ findings) }
  | receipted (request : StoreRequest) (receipts : List String) :
    Passes before request none (before.withReceipts receipts)
  | created {runId : Uuid} {step : Step} {now : Timestamp}
      (absent : before.stepRunOf? runId step.key = none) :
    Passes before (.acquire runId step now)
      (some (.begun (.begun before.freshId runId step now)))
      (before.putStepRun (.begun before.freshId runId step now))
  | found {runId : Uuid} {step : Step} {now : Timestamp} {stepRun : StepRun}
      (held : before.stepRuns.get? stepRun.id = some stepRun) (ofRun : stepRun.runId = runId) :
    Passes before (.acquire runId step now) (some (.found stepRun)) before
  | restarted {old : StepRun} {now : Timestamp} {after : Store}
      (held : before.stepRuns.get? old.id = some old) (running : old.status = .running)
      (rewrites : Rewrites before (Execution.restarted old now) [] after) :
    Passes before (.restart old.id old.attempt now)
      (some (.begun (Execution.restarted old now))) after
  | read {stepRun : StepRun} (held : before.stepRuns.get? stepRun.id = some stepRun) :
    Passes before (.stepRun stepRun.id) (some (.read stepRun)) before
  | written {stepRun old : StepRun} (held : before.stepRuns.get? stepRun.id = some old) :
    Passes before (.updateStepRun stepRun) (some (.written stepRun))
      { before with stepRuns := before.stepRuns.set stepRun.id stepRun }

variable {before after : Store} {request : StoreRequest} {notice? : Option Notice}

/-- A request about a run changes the record of that run, or nothing. -/
private theorem passes_change (coherent : before.Coherent) (request : StoreRequest) (id : Uuid)
    (change : Run → Option Run)
    (keeps : ∀ run changed, change run = some changed → changed.id = run.id)
    {result : Except EngineFault Bool × Store}
    (opened : result = match before.runs.get? id with
      | none => (.error (.runNotFound id), before)
      | some run => match change run with
        | none => (.ok false, before)
        | some changed => (.ok true, { before with runs := before.runs.set id changed }))
    (left : after = result.2) : before.Passes request none after := by
  subst left
  obtain ⟨same, _⟩ | ⟨run, changed, held, made, isResult⟩ := changed_cases opened
  · rw [same]
    exact .same request
  · have sameId : changed.id = id := (keeps run changed made).trans (coherent.runIds id run held)
    have isChange : result.2 = before.withRun changed := by
      rw [isResult, withRun, sameId]
    rw [isChange]
    exact .changed request (sameId ▸ held)

theorem passes_answer (coherent : before.Coherent) (request : StoreRequest) :
    before.Passes request ((Execution.Request.store request).notice? (before.answer request).1)
      (before.answer request).2 := by
  cases request with
  | submission id =>
    cases held : before.submissions.get? id <;> simp only [answer, held] <;> exact .same _
  | run id =>
    cases held : before.runs.get? id <;> simp only [answer, Store.run, held] <;> exact .same _
  | startRun id now =>
    refine passes_change coherent _ id (fun run =>
      if run.status = .pending then some { run with status := .running, startedAt := some now }
      else none) (fun run changed made => ?_) rfl rfl
    split at made <;> cases made
    rfl
  | closeRun id status error now =>
    cases failing : before.failingWrites with
    | true =>
      simp only [answer, closeRun, failing, if_true]
      exact .same _
    | false =>
      have open' : before.answer (.closeRun id status error now) = _ := if_neg (by simp [failing])
      refine passes_change coherent _ id (fun run =>
        if run.status.isTerminal then none
        else some { run with status, error, endedAt := some now }) (fun run changed made => ?_)
        open' rfl
      split at made <;> cases made
      rfl
  | saveSummary id summary =>
    exact passes_change coherent _ id (fun run => some (run.summarized summary))
      (fun run changed made => by cases made; rfl) rfl rfl
  | flagCancel id =>
    exact passes_change coherent _ id (fun run => some run.flagged)
      (fun run changed made => by cases made; rfl) rfl rfl
  | cancelFlag id =>
    cases held : before.runs.get? id <;> simp only [answer, Store.run, held] <;> exact .same _
  | acquire runId step now =>
    cases held : before.stepRunOf? runId step.key with
    | none =>
      simp only [answer, acquire, held]
      exact .created held
    | some stepRun =>
      simp only [answer, acquire, held]
      obtain ⟨found, ofRun, _⟩ := coherent.held_of_stepRunOf? held
      exact .found found ofRun
  | restart id attempt now =>
    cases held : before.stepRuns.get? id with
    | none =>
      simp only [answer, restart, held]
      exact .same _
    | some stepRun =>
      obtain rfl := coherent.stepRunIds _ _ held
      by_cases fits : stepRun.status = .running ∧ stepRun.attempt = attempt
      · obtain ⟨running, rfl⟩ := fits
        obtain ⟨after, answered, rewrites⟩ := Execution.answer_restart held running now
        rw [answered]
        exact .restarted held running rewrites
      · simp only [answer, restart, held, fits, if_false]
        exact .same _
  | stepRun id =>
    cases held : before.stepRuns.get? id with
    | none =>
      simp only [answer, Store.stepRun, held]
      exact .same _
    | some stepRun =>
      obtain rfl := coherent.stepRunIds _ _ held
      simp only [answer, Store.stepRun, held]
      exact .read held
  | stepRuns runId => exact .same _
  | updateStepRun stepRun =>
    cases failing : before.failingWrites with
    | true =>
      simp only [answer, updateStepRun, failing, if_true]
      exact .same _
    | false =>
      cases held : before.stepRuns.get? stepRun.id with
      | none =>
        simp only [answer, updateStepRun, failing, held]
        exact .same _
      | some old =>
        rw [answer_updateStepRun failing held]
        exact .written held
  | replaceFindings id findings =>
    cases failing : before.failingWrites with
    | true =>
      simp only [answer, replaceFindings, failing, if_true]
      exact .same _
    | false =>
      rw [answer_replaceFindings failing]
      exact .replaced id findings
  | appendFindings id findings =>
    cases failing : before.failingWrites with
    | true =>
      simp only [answer, appendFindings, replaceFindings, failing, if_true]
      exact .same _
    | false =>
      rw [answer_appendFindings, answer_replaceFindings failing]
      exact .appended id findings
  | findings id => exact .same _
  | runFindings runId => exact .same _
  | recordCallback key id now =>
    by_cases known : key ∈ before.receipts
    · rw [answer, recordCallback, if_pos (by simpa using known)]
      exact .same _
    · rw [answer, recordCallback, if_neg (by simpa using known)]
      exact .receipted _ _
  | releaseCallback key => exact .receipted _ _

/-! ### What answering leaves -/

theorem Passes.get? (passes : before.Passes request notice? after) (id : Uuid) :
    after.stepRuns.get? id = match notice?.bind Notice.change? with
      | some stepRun => if stepRun.id = id then some stepRun else before.stepRuns.get? id
      | none => before.stepRuns.get? id := by
  cases passes with
  | same | changed | replaced | appended | receipted | found | read => rfl
  | created absent => exact Table.get?_set _ _ _ _
  | restarted held running rewrites => exact rewrites.get? id
  | written held => exact Table.get?_set _ _ _ _

theorem Passes.get?_of_change (passes : before.Passes request notice? after) {stepRun : StepRun}
    (change : notice?.bind Notice.change? = some stepRun) :
    after.stepRuns.get? stepRun.id = some stepRun := by
  simp only [passes.get?, change, if_true]

def HasRun (store : Store) (id : Uuid) : Prop := ∃ run, store.runs.get? id = some run

/-- Runs neither come nor go. -/
theorem Passes.hasRun_iff (passes : before.Passes request notice? after) (id : Uuid) :
    after.HasRun id ↔ before.HasRun id := by
  cases passes with
  | same | replaced | appended | receipted | found | read | created | written => exact Iff.rfl
  | @changed request old changed held =>
    rw [HasRun, HasRun, withRun, Table.get?_set]
    by_cases same : changed.id = id
    · subst same
      rw [if_pos rfl]
      exact ⟨fun _ => ⟨old, held⟩, fun _ => ⟨changed, rfl⟩⟩
    · rw [if_neg same]
  | restarted held running rewrites => rw [HasRun, rewrites.runs, HasRun]

/-- A request that names only runs and step runs that are there, and leaves a step run with its run
and step. -/
structure Admits (store : Store) (request : StoreRequest) : Prop where
  rooted : ∀ runId step now, request = .acquire runId step now → store.HasRun runId
  replaced : ∀ id findings, request = .replaceFindings id findings →
    ∃ stepRun, store.stepRuns.get? id = some stepRun
  appended : ∀ id findings, request = .appendFindings id findings →
    ∃ stepRun, store.stepRuns.get? id = some stepRun
  written : ∀ stepRun old, request = .updateStepRun stepRun →
    store.stepRuns.get? stepRun.id = some old →
    stepRun.runId = old.runId ∧ stepRun.stepKey = old.stepKey

theorem Coherent.set_findings (coherent : before.Coherent) {id : Uuid} {stepRun : StepRun}
    (held : before.stepRuns.get? id = some stepRun) (findings : List Finding) :
    ({ before with findings := before.findings.set id findings } : Store).Coherent := by
  obtain rfl := coherent.stepRunIds _ _ held
  exact (rewrites_findings held findings).coherent coherent held rfl rfl

theorem Passes.coherent (passes : before.Passes request notice? after)
    (coherent : before.Coherent) (admits : before.Admits request) : after.Coherent := by
  cases passes with
  | same | found | read => exact coherent
  | changed held => exact coherent.withRun _
  | replaced id findings =>
    obtain ⟨stepRun, held⟩ := admits.replaced _ _ rfl
    exact coherent.set_findings held _
  | appended id findings =>
    obtain ⟨stepRun, held⟩ := admits.appended _ _ rfl
    exact coherent.set_findings held _
  | receipted request receipts => exact coherent.withReceipts _
  | created absent =>
    obtain ⟨run, held⟩ := admits.rooted _ _ _ rfl
    exact coherent.putStepRun held (get?_freshId before) absent
  | restarted held running rewrites => exact rewrites.coherent coherent held rfl rfl
  | @written stepRun old held =>
    obtain ⟨sameRun, sameKey⟩ := admits.written _ _ rfl held
    exact (rewrites_stepRun before stepRun).coherent coherent held sameRun sameKey

/-- A step run stays with its run and step. -/
theorem Passes.stays (passes : before.Passes request notice? after) (admits : before.Admits request)
    {id : Uuid} {stepRun : StepRun} (held : before.stepRuns.get? id = some stepRun) :
    ∃ later, after.stepRuns.get? id = some later ∧ later.runId = stepRun.runId ∧
      later.stepKey = stepRun.stepKey := by
  cases passes with
  | same | changed | replaced | appended | receipted | found | read =>
    exact ⟨stepRun, held, rfl, rfl⟩
  | created absent =>
    refine ⟨stepRun, ?_, rfl, rfl⟩
    rw [putStepRun, Table.get?_set, if_neg, held]
    rintro rfl
    have fresh := get?_freshId before
    simp only [StepRun.begun] at held
    rw [fresh] at held
    cases held
  | @restarted old now after heldOld running rewrites =>
    rw [rewrites.get?]
    by_cases same : (Execution.restarted old now).id = id
    · subst same
      obtain rfl := Option.some.inj (heldOld.symm.trans held)
      exact ⟨_, if_pos rfl, rfl, rfl⟩
    · exact ⟨stepRun, (if_neg same).trans held, rfl, rfl⟩
  | @written changed old heldOld =>
    rw [Table.get?_set]
    by_cases same : changed.id = id
    · subst same
      obtain rfl := Option.some.inj (heldOld.symm.trans held)
      exact ⟨changed, if_pos rfl, admits.written _ _ rfl heldOld⟩
    · exact ⟨stepRun, (if_neg same).trans held, rfl, rfl⟩

/-- A step run that is there has been there before for the same run, or has been begun for it. -/
theorem Passes.comes (passes : before.Passes request notice? after) (admits : before.Admits request)
    {id : Uuid} {stepRun : StepRun} (held : after.stepRuns.get? id = some stepRun) :
    (∃ old, before.stepRuns.get? id = some old ∧ old.runId = stepRun.runId) ∨
      ∃ step now, request = .acquire stepRun.runId step now := by
  rw [passes.get?] at held
  cases passes with
  | same | changed | replaced | appended | receipted | found | read =>
    exact Or.inl ⟨stepRun, held, rfl⟩
  | @created runId step now absent =>
    by_cases same : (StepRun.begun before.freshId runId step now).id = id
    · obtain rfl := Option.some.inj ((if_pos same).symm.trans held)
      exact Or.inr ⟨step, now, rfl⟩
    · exact Or.inl ⟨stepRun, (if_neg same).symm.trans held, rfl⟩
  | @restarted old now after heldOld =>
    by_cases same : (Execution.restarted old now).id = id
    · obtain rfl := Option.some.inj ((if_pos same).symm.trans held)
      exact Or.inl ⟨old, same ▸ heldOld, rfl⟩
    · exact Or.inl ⟨stepRun, (if_neg same).symm.trans held, rfl⟩
  | @written changed old heldOld =>
    by_cases same : changed.id = id
    · obtain rfl := Option.some.inj ((if_pos same).symm.trans held)
      exact Or.inl ⟨old, same ▸ heldOld, (admits.written _ _ rfl heldOld).1.symm⟩
    · exact Or.inl ⟨stepRun, (if_neg same).symm.trans held, rfl⟩

end Store

end Vetting
