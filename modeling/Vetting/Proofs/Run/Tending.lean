import Vetting.Proofs.Program.Outside
import Vetting.Proofs.Run.Executing
import Vetting.Proofs.Run.Operations

/-!
Contract: runs that are tended by whole operations, one after the other.

Owns:
- `Calm`: how a run stands between operations, in one of its calm stages;
- executions, callbacks and cancellations lead from one calm stage to another one;
- the norm that allows for every report.

Does not own: histories of operations (`Vetting.Proofs.Run.History`).
-/

namespace Vetting

open Execution
open Store (Elsewhere)

/-- How a run stands between operations. -/
structure Calm (norm : Norm) (run : Run) (store : Store) (settled : List StepRun)
    (current : Option StepRun) (phase : Phase) : Prop where
  ordered : run.WellOrdered
  standing : Standing norm store run store settled current
  stage : Stage norm run store settled phase current
  calm : phase.isCalm = true
  /-- No step is left at work. -/
  awaits : ∀ last, current = some last → last.status = .running → last.awaitsJob = true
  /-- A run that has begun has found its submission. -/
  submitted : run.status = .running →
    ∃ submission, store.submissions.get? run.submissionId = some submission

/-- A step run of a run waits for its job. -/
def Store.Waits (store : Store) (runId : Uuid) (stepRun : StepRun) : Prop :=
  stepRun ∈ store.stepRunsOf runId ∧ stepRun.status = .running ∧ stepRun.awaitsJob = true

/-- A stage is about reports and submissions only. -/
theorem Stage.of_reports {norm : Norm} {run : Run} {store after : Store} {settled : List StepRun}
    {current : Option StepRun} {phase : Phase} (stage : Stage norm run store settled phase current)
    (reports : ∀ stepRun ∈ settled ++ current.toList,
      after.reportOf stepRun = store.reportOf stepRun)
    (submissions : after.submissions = store.submissions) :
    Stage norm run after settled phase current := by
  have ofSettled : settled.map after.reportOf = settled.map store.reportOf :=
    List.map_congr_left fun stepRun member => reports stepRun (List.mem_append_left _ member)
  cases stage with
  | fresh status untouched => exact .fresh status untouched
  | between status => exact .between status
  | waiting status isStep running awaits waits =>
    rw [← ofSettled, ← reports _ (by simp)] at waits
    exact .waiting status isStep running awaits waits
  | working status isStep running left => exact .working status isStep running left
  | failing status isStep ended fails =>
    rw [← ofSettled, ← reports _ (by simp)] at fails
    exact .failing status isStep ended fails
  | succeeded status error whole => exact .succeeded status error whole
  | failed status isStep ended fails =>
    rw [← ofSettled, ← reports _ (by simp)] at fails
    exact .failed status isStep ended fails
  | lost status error untouched missing =>
    refine .lost status error untouched ?_
    rw [submissions]
    exact missing
  | canceled status error asked => exact .canceled status error asked

theorem Stage.withReceipts {norm : Norm} {run : Run} {store : Store} {settled : List StepRun}
    {current : Option StepRun} {phase : Phase} (stage : Stage norm run store settled phase current)
    (receipts : List String) : Stage norm run (store.withReceipts receipts) settled phase current :=
  stage.of_reports (fun _ _ => rfl) rfl

namespace Calm

variable {norm : Norm} {run : Run} {store after : Store} {settled : List StepRun}
  {current : Option StepRun} {phase : Phase} {equipment : Equipment}
  {mayAnswer : (request : Request) → request.Answer → Prop} {log : EventLog} {clock : Nat}

theorem fresh (ordered : run.WellOrdered) (coherent : store.Coherent)
    (writable : store.failingWrites = false) (held : store.runs.get? run.id = some run)
    (pending : run.status = .pending) (unbegun : store.stepRunsOf run.id = [])
    (free : norm.numbering = none) : Calm norm run store [] none .fresh where
  ordered := ordered
  standing := by
    refine ⟨coherent, writable, held, unbegun, List.nil_prefix, ?_, trivial, ?_, .refl _ _⟩
    · exact fun _ member => nomatch member
    · intro first counted
      rw [free] at counted
      cases counted
  stage := .fresh pending rfl
  calm := rfl
  awaits := fun _ isLast => nomatch isLast
  submitted := fun running => by
    rw [pending] at running
    cases running

theorem guards (mayAnswer : (request : Request) → request.Answer → Prop) (norm : Norm)
    (origin : Store) (run : Run) :
    Guards (.unwatched mayAnswer) Store.Any norm origin run :=
  ⟨fun _ _ _ => trivial, fun _ _ _ _ _ _ _ _ _ => trivial⟩

theorem ready (calm : Calm norm run store settled current phase) (status : run.status = .running) :
    Ready norm run store settled current := by
  have stage := calm.stage
  have isCalm := calm.calm
  cases stage with
  | fresh | between => trivial
  | waiting _ isStep running awaits waits =>
    exact ⟨_, isStep, Or.inl ⟨running, awaits, waits⟩⟩
  | working | failing => cases isCalm
  | succeeded closed | failed closed | lost closed | canceled closed =>
    rw [closed] at status
    cases status

/-- A run that has been moved on by an operation is calm again. -/
theorem moves {origin : Store} {later : Run} {reached : List StepRun} {last : Option StepRun}
    {next : Phase} (calm : Calm norm run store settled current phase) (keeps : run.Keeps later)
    (standing : Standing norm origin later after reached last)
    (stage : Stage norm later after reached next last) (isCalm : next.isCalm = true)
    (awaits : ∀ stepRun, last = some stepRun → stepRun.status = .running →
      stepRun.awaitsJob = true)
    (submissions : origin.submissions = store.submissions)
    (begun : later.status = .running → run.status = .running) :
    Calm norm later after reached last next where
  ordered := keeps.wellOrdered calm.ordered
  standing := standing.rebase
  stage := stage
  calm := isCalm
  awaits := awaits
  submitted := fun running => by
    rw [standing.elsewhere.submissions, submissions, keeps.submissionId]
    exact calm.submitted (begun running)

theorem of_elsewhere (calm : Calm norm run store settled current phase)
    (free : norm.numbering = none) {otherId : Uuid} {receipts : List String}
    (elsewhere : Elsewhere otherId (store.withReceipts receipts) after) (other : otherId ≠ run.id)
    (coherent : after.Coherent) (writable : after.failingWrites = false) :
    Calm norm run after settled current phase where
  ordered := calm.ordered
  standing := (calm.standing.withReceipts receipts).of_elsewhere calm.ordered free elsewhere other
    coherent writable
  stage := by
    refine calm.stage.of_reports (fun stepRun member => ?_) elsewhere.submissions
    obtain ⟨found, ofRun⟩ := calm.standing.mem member
    rw [Store.reportOf, Store.issuesOf,
      elsewhere.findings _ _ found (by rw [ofRun]; exact other.symm)]
    rfl
  calm := calm.calm
  awaits := calm.awaits
  submitted := by
    rw [elsewhere.submissions]
    exact calm.submitted

theorem of_comes {later : Run} {reached : List StepRun} {last : Option StepRun} {next : Phase}
    (calm : Calm norm run store settled current phase)
    (comes : Comes norm store run settled current later after reached last next)
    (submitted : later.status = .running →
      ∃ submission, store.submissions.get? run.submissionId = some submission) :
    Calm norm later after reached last next where
  ordered := comes.keeps.wellOrdered calm.ordered
  standing := comes.standing.rebase
  stage := comes.stage
  calm := Phase.isCalm_of_isRest comes.rest
  awaits := by
    rintro stepRun rfl running
    cases comes.stage with
    | waiting _ _ _ awaits _ => exact awaits
    | working | failing => cases comes.rest
    | failed _ _ ended _ =>
      rw [ended] at running
      cases running
    | canceled _ _ _ =>
      rcases comes.left rfl with none | same
      · cases none
      · exact calm.awaits _ same.symm running
  submitted := fun running => by
    rw [comes.standing.elsewhere.submissions, comes.keeps.submissionId]
    exact submitted running

end Calm

/-! ### Executions -/

def statusFor : Option Int → RunStatus
  | none => .pending
  | some _ => .running

/-- What an execution makes of a run. -/
inductive Executed (norm : Norm) (run : Run) (store : Store) (settled : List StepRun)
    (current : Option StepRun) (resumeFrom : Option Int) : RunOutcome → Store → Prop
  /-- There is nothing to do. -/
  | idle (stopped : run.status ≠ statusFor resumeFrom) :
    Executed norm run store settled current resumeFrom (.ofRun run) store
  | comes {later : Run} {after : Store} {reached : List StepRun} {last : Option StepRun}
      {next : Phase} (isOpen : run.status.isTerminal = false)
      (comes : Comes norm store run settled current later after reached last next)
      (calm : Calm norm later after reached last next) :
    Executed norm run store settled current resumeFrom (.ofRun later) after

section Executions

variable {norm : Norm} {run : Run} {store : Store} {settled : List StepRun}
  {current : Option StepRun} {phase : Phase} {equipment : Equipment}
  {mayAnswer : (request : Request) → request.Answer → Prop} {log : EventLog} {clock : Nat}

/-- An execution leads from one calm stage to another one, if no step is skipped. -/
theorem Calm.ensures_execute (calm : Calm norm run store settled current phase)
    (sound : ∀ submission, store.submissions.get? run.submissionId = some submission →
      norm.Sound (.unwatched mayAnswer) equipment run.id submission)
    (resumeFrom : Option Int) (covered : ∀ order, resumeFrom = some order →
      run.Covered settled order) :
    Ensures (.unwatched mayAnswer) (execute equipment run.id resumeFrom) ⟨store, log, clock⟩
      (fun outcome after => Executed norm run store settled current resumeFrom outcome after.store)
      fun _ _ => False := by
  have guards := Calm.guards mayAnswer norm store run
  have held := calm.standing.held
  cases resumeFrom with
  | none =>
    by_cases fresh : run.status = .pending
    · obtain ⟨rfl, rfl⟩ : settled = [] ∧ current = none := by
        have stage := calm.stage
        cases stage with
        | fresh _ untouched => exact ⟨untouched, rfl⟩
        | between status | waiting status | working status | failing status | succeeded status
        | failed status | lost status | canceled status =>
          rw [fresh] at status
          cases status
      have isOpen : run.status.isTerminal = false := by
        rw [fresh]
        rfl
      cases found : store.submissions.get? run.submissionId with
      | none =>
        refine ensures_execute_lost calm.standing guards fresh found
          fun later after comes => .comes isOpen comes (calm.of_comes comes fun running => ?_)
        cases comes.stage with
        | lost closed =>
          rw [closed] at running
          cases running
      | some submission =>
        exact ensures_execute_start calm.standing guards calm.ordered (sound submission found) fresh
          found fun later reached last next after comes =>
            .comes isOpen comes (calm.of_comes comes fun _ => ⟨submission, found⟩)
    · exact ensures_execute_duplicate (fun world request here _ => guards.watches world request here)
        held trivial fresh fun log clock => .idle fresh
  | some order =>
    by_cases status : run.status = .running
    · have isOpen : run.status.isTerminal = false := by
        rw [status]
        rfl
      obtain ⟨submission, found⟩ := calm.submitted status
      exact ensures_execute_resume calm.standing guards calm.ordered (sound submission found) status
        (calm.ready status) found order (covered order rfl)
        fun later reached last next after comes =>
          .comes isOpen comes (calm.of_comes comes fun _ => ⟨submission, found⟩)
    · exact ensures_execute_stopped (fun world request here _ => guards.watches world request here)
        held trivial status order fun log clock => .idle status

end Executions

/-! ### Callbacks -/

/-- A callback leaves a run in its stage or failed, or settles the step that has waited. -/
theorem Turns.calm {norm : Norm} {run : Run} {store origin after : Store}
    {settled : List StepRun} {current : Option StepRun} {phase : Phase} {resumeFrom : Option Int}
    {told : StepRun} (turns : Turns norm origin run settled current phase told after resumeFrom)
    (calm : Calm norm run store settled current phase)
    (submissions : origin.submissions = store.submissions) :
    Elsewhere run.id origin after ∧
    ((resumeFrom = none ∧ ∃ later last next, run.Keeps later ∧
        Calm norm later after settled last next ∧
        ((next = phase ∧ (told.status.isTerminal = true ∨ phase = .canceled)) ∨ next = .failed)) ∨
      ∃ order ended, resumeFrom = some order ∧ phase = .waiting ∧
        Calm norm run after (settled ++ [ended]) none .between ∧
        run.Covered (settled ++ [ended]) order) := by
  cases turns with
  | @stays later last idle keeps status left standing stage =>
    have elsewhere := standing.elsewhere
    rw [keeps.id] at elsewhere
    refine ⟨elsewhere, Or.inl ⟨rfl, later, last, phase, keeps, ?_, Or.inl ⟨rfl, idle⟩⟩⟩
    refine calm.moves keeps standing stage calm.calm ?_ submissions fun running => by
      rw [← status, running]
    intro stepRun isLast running
    rcases left with same | ended
    · exact calm.awaits stepRun (same ▸ isLast) running
    · have terminal := ended stepRun isLast
      rw [running] at terminal
      cases terminal
  | @goesOn ended order waited standing stage covered =>
    refine ⟨standing.elsewhere, Or.inr ⟨order, ended, rfl, waited, ?_, covered⟩⟩
    exact calm.moves (.refl run) standing stage rfl (fun _ no => nomatch no) submissions id
  | @fails later ended waited keeps standing stage =>
    have elsewhere := standing.elsewhere
    rw [keeps.id] at elsewhere
    refine ⟨elsewhere, Or.inl ⟨rfl, later, some ended, .failed, keeps, ?_, Or.inr rfl⟩⟩
    refine calm.moves keeps standing stage rfl ?_ submissions fun running => ?_
    · rintro stepRun ⟨⟩ running
      cases stage with
      | failed _ _ hasFailed _ =>
        rw [hasFailed] at running
        cases running
    · cases stage with
      | failed status _ _ _ =>
        rw [status] at running
        cases running

/-! ### The norm that allows for every report -/

/-- A job that is accepted has a name. -/
def NamesJobs (mayAnswer : (request : Request) → request.Answer → Prop) : Prop :=
  ∀ job response, mayAnswer (.launch job) (.ok response) → response.isComplete = false →
    response.executionId ≠ ""

/-- A step that is left pending awaits its job. -/
theorem Execution.Concludes.awaits {mayAnswer : (request : Request) → request.Answer → Prop}
    (names : NamesJobs mayAnswer) {equipment : Equipment} {context : StepContext}
    {earlier issues : List Issue} {left : StepOutput}
    (concludes : Concludes mayAnswer equipment context earlier (.pending left issues)) :
    left.awaitsJob = true := by
  obtain ⟨validator, ruleset, external, response, _, may, accepted, rfl, _⟩ := concludes.pending
  have isNamed := names _ response may accepted
  simpa [StepOutput.awaitsJob, withResponse, handedOver, interimOutput, StepOutput.empty] using isNamed

namespace Norm

/-- The norm that allows for every report; a run fails with the error of its step or with that of
an unexpected fault. -/
def free : Norm where
  cutOff := fun _ _ => True
  passes := fun _ _ _ => True
  fails := fun _ _ report error => error = report.error ∨ error = some genericFailure
  waits := fun _ _ _ => True
  numbering := none

theorem sound_free {regime : Regime} (names : NamesJobs regime.mayAnswer) (equipment : Equipment)
    (runId : Uuid) (submission : Submission) : free.Sound regime equipment runId submission where
  cutOff := fun _ _ _ _ => trivial
  allows := by
    intro context earlier conclusion _ _ _ _ _ concludes
    cases conclusion with
    | ended verdict => exact ⟨fun _ => trivial, fun _ => Or.inl rfl⟩
    | pending left issues => exact ⟨Concludes.awaits names concludes, trivial⟩
    | faulted fault => exact Or.inr rfl

theorem takes_free (equipment : Equipment) (run : Run) (envelope : Envelope) (step : Step) :
    free.Takes equipment run envelope step := by
  intro earlier stepRun issues verdict error _ _ settles
  refine ⟨fun _ => trivial, fun _ => ?_⟩
  generalize Conclusion.ofCallback equipment run (some step) stepRun issues envelope
    (fun _ => signalsOf earlier) = conclusion at settles
  cases settles with
  | ended => exact Or.inl rfl
  | faulted => exact Or.inr rfl

end Norm

end Vetting
