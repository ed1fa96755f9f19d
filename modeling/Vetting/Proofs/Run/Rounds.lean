import Vetting.Proofs.Run.Course
import Vetting.Proofs.Run.History

/-!
Contract: runs that are executed, and told of each job that a step waits for.

Owns:
- `Rounds`: executions of a run and callbacks for its jobs, in turn;
- `Underway`: how a run stands that nobody asks to cancel;
- that there are no more callbacks than steps, and that the run has taken its course when
  none is to come.

Does not own: which envelopes the callbacks bring (`Vetting.Proofs.Run.Agreement`).
-/

namespace Vetting

open Execution

/-- A callback with the report of a job that a step waits for.  It comes with the token of the job,
if no callback has come with that, or without one. -/
inductive Told (mayAnswer : (request : Request) → request.Answer → Prop) (equipment : Equipment)
    (envelopes : String → Envelope) (runId : Uuid) (world : World) :
    Except EngineFault CallbackOutcome → World → Prop
  | intro {stepRun : StepRun} {key? : Option String} {requests : List Request}
      {result : Except EngineFault CallbackOutcome} {after : World}
      (waits : world.store.Waits runId stepRun)
      (token : key? = none ∨ key? = stepRun.output.jobKey?)
      (unused : ∀ key, key? = some key → key ∉ world.store.receipts)
      (runs : (completeCallback equipment stepRun.id (envelopes stepRun.stepKey) key?).run.Runs
        mayAnswer world requests (some result) after) :
    Told mayAnswer equipment envelopes runId world result after

/-- A run is executed, and executed further after each callback that offers an order to go on from;
with the number of callbacks, and whether the last one has offered none. -/
inductive Rounds (mayAnswer : (request : Request) → request.Answer → Prop) (equipment : Equipment)
    (envelopes : String → Envelope) (runId : Uuid) (origin : World) : Nat → Bool → World → Prop
  | begun {requests : List Request} {result : Except EngineFault RunOutcome} {after : World}
      (runs : (execute equipment runId none).run.Runs mayAnswer origin requests (some result) after) :
    Rounds mayAnswer equipment envelopes runId origin 0 false after
  | goesOn {count : Nat} {world middle after : World} {outcome : CallbackOutcome} {order : Int}
      {requests : List Request} {result : Except EngineFault RunOutcome}
      (earlier : Rounds mayAnswer equipment envelopes runId origin count false world)
      (told : Told mayAnswer equipment envelopes runId world (.ok outcome) middle)
      (offered : outcome.resumeFrom = some order)
      (runs : (execute equipment runId (some order)).run.Runs mayAnswer middle requests
        (some result) after) :
    Rounds mayAnswer equipment envelopes runId origin (count + 1) false after
  | stops {count : Nat} {world after : World} {result : Except EngineFault CallbackOutcome}
      (earlier : Rounds mayAnswer equipment envelopes runId origin count false world)
      (told : Told mayAnswer equipment envelopes runId world result after)
      (noneOffered : ∀ outcome, result = .ok outcome → outcome.resumeFrom = none) :
    Rounds mayAnswer equipment envelopes runId origin (count + 1) true after

section Underway

variable {norm : Norm} {run : Run} {submission : Submission} {store after : Store}
  {settled : List StepRun} {current : Option StepRun} {phase : Phase} {equipment : Equipment}
  {mayAnswer : (request : Request) → request.Answer → Prop}

/-- A run on its way, which nobody has asked to cancel. -/
structure Underway (norm : Norm) (submission : Submission) (run : Run) (store : Store)
    (settled : List StepRun) (current : Option StepRun) (phase : Phase) : Prop where
  calm : Calm norm run store settled current phase
  wanted : run.cancelRequested = false
  submitted : store.submissions.get? run.submissionId = some submission

theorem Store.Unbegun.underway (unbegun : store.Unbegun run) (ordered : run.WellOrdered)
    (fresh : run.status = .pending) (wanted : run.cancelRequested = false)
    (submitted : store.submissions.get? run.submissionId = some submission)
    (free : norm.numbering = none) : Underway norm submission run store [] none .fresh :=
  ⟨.fresh ordered unbegun.coherent unbegun.writable unbegun.held fresh unbegun.stepRuns free,
    wanted, submitted⟩

/-- A run on its way is executed until a step waits or the run has succeeded or failed. -/
theorem Underway.execute {world after : World}
    (underway : Underway norm submission run world.store settled current phase)
    (sound : norm.Sound (.unwatched mayAnswer) equipment run.id submission)
    {resumeFrom : Option Int} {requests : List Request} {result : Except EngineFault RunOutcome}
    (runs : (Execution.execute equipment run.id resumeFrom).run.Runs mayAnswer world requests
      (some result) after)
    (due : run.status = statusFor resumeFrom)
    (covered : ∀ order, resumeFrom = some order → run.Covered settled order) :
    ∃ later reached last next, run.Keeps later ∧ settled <+: reached ∧
      Underway norm submission later after.store reached last next ∧
      (next = .waiting ∨ next = .succeeded ∨ next = .failed) := by
  have soundHere : ∀ found, world.store.submissions.get? run.submissionId = some found →
      norm.Sound (.unwatched mayAnswer) equipment run.id found := by
    intro found isFound
    rw [underway.submitted] at isFound
    cases isFound
    exact sound
  obtain ⟨outcome, rfl, executed⟩ :=
    runs.succeeds (underway.calm.ensures_execute soundHere resumeFrom covered)
  generalize after.store = store at executed ⊢
  cases executed with
  | idle idle => exact absurd due idle
  | @comes later _ reached last next isOpen comes calm =>
    have wanted := comes.flag.trans underway.wanted
    have submitted : store.submissions.get? later.submissionId = some submission := by
      rw [comes.standing.elsewhere.submissions, comes.keeps.submissionId]
      exact underway.submitted
    exact ⟨later, reached, last, next, comes.keeps, comes.advances.grows,
      ⟨calm, wanted, submitted⟩, comes.stage.rests comes.rest wanted submitted⟩

/-- A step of a run on its way waits only if it is the last one that has begun. -/
theorem Underway.waits (underway : Underway norm submission run store settled current phase)
    {stepRun : StepRun} (waits : store.Waits run.id stepRun) :
    current = some stepRun ∧ phase = .waiting ∧ run.status = .running := by
  obtain ⟨member, running, awaits⟩ := waits
  have standing := underway.calm.standing
  obtain ⟨held, ofRun⟩ := standing.coherent.mem_stepRunsOf.mp member
  have isOpen : stepRun.status.isTerminal = false := by
    rw [running]
    rfl
  have isCurrent := standing.current_of_running held ofRun isOpen
  subst isCurrent
  rcases underway.calm.stage.of_running underway.calm.calm isOpen with
    ⟨waiting, status, _⟩ | ⟨_, _, _, asked⟩
  · exact ⟨rfl, waiting, status⟩
  · rw [underway.wanted] at asked
    cases asked

/-- A callback with a report makes a run fail, or settles the step that waits. -/
theorem Underway.told {world after : World} {envelopes : String → Envelope}
    {result : Except EngineFault CallbackOutcome}
    (underway : Underway norm submission run world.store settled current phase)
    (takes : ∀ step, norm.Takes equipment run (envelopes step.key) step)
    (told : Told mayAnswer equipment envelopes run.id world result after) :
    ∃ outcome, result = .ok outcome ∧
      ((outcome.resumeFrom = none ∧ ∃ later last, run.Keeps later ∧
          Calm norm later after.store settled last .failed) ∨
        ∃ order ended, outcome.resumeFrom = some order ∧
          Underway norm submission run after.store (settled ++ [ended]) none .between ∧
          run.Covered (settled ++ [ended]) order) := by
  obtain @⟨stepRun, key?, _, _, _, waits, token, unused, runs⟩ := told
  obtain ⟨rfl, rfl, status⟩ := underway.waits waits
  have calm := underway.calm
  obtain ⟨held, ofRun⟩ := calm.standing.held_current
  have heldRun := calm.standing.held
  rw [← ofRun] at heldRun
  obtain ⟨outcome, rfl, answered⟩ := runs.succeeds (ensures_completeCallback
    (fun _ _ => trivial) calm.standing.writable held rfl heldRun ofRun.symm key?)
  refine ⟨outcome, rfl, ?_⟩
  have applied := answered.applied_of_own token unused
  generalize after.store = store at applied ⊢
  generalize receiptsWith world.store.receipts key? = receipts at applied
  have takesIt : ∀ step ∈ run.orderedSteps, step.key = stepRun.stepKey →
      norm.Takes equipment run (envelopes stepRun.stepKey) step := by
    intro step _ key
    rw [← key]
    exact takes step
  have turns := applied.turns (calm.standing.withReceipts receipts) calm.ordered
    (calm.stage.withReceipts receipts) calm.calm held ofRun takesIt
  obtain ⟨elsewhere, ⟨resumes, later, last, next, keeps, calmAfter, same⟩ |
    ⟨order, ended, resumes, _, calmAfter, covered⟩⟩ := turns.calm calm rfl
  · refine Or.inl ⟨resumes, later, last, keeps, ?_⟩
    rcases same with ⟨_, terminal | no⟩ | rfl
    · rw [waits.2.1] at terminal
      cases terminal
    · cases no
    · exact calmAfter
  · refine Or.inr ⟨order, ended, resumes, ⟨calmAfter, underway.wanted, ?_⟩, covered⟩
    rw [elsewhere.submissions]
    exact underway.submitted

/-- How a run stands after some callbacks, the last of which may have offered no order. -/
def Round (norm : Norm) (submission : Submission) (run : Run) (count : Nat) (store : Store) :
    Bool → Prop
  | false => ∃ later settled current phase, run.Keeps later ∧
      Underway norm submission later store settled current phase ∧ count ≤ settled.length ∧
      (phase = .waiting ∨ phase = .succeeded ∨ phase = .failed)
  | true => ∃ later settled current, run.Keeps later ∧
      Calm norm later store settled current .failed ∧ count ≤ settled.length + 1

theorem round_of_rounds {origin world : World} {envelopes : String → Envelope} {count : Nat}
    {stopped : Bool} (fresh : run.status = .pending)
    (underway : Underway norm submission run origin.store [] none .fresh)
    (sound : norm.Sound (.unwatched mayAnswer) equipment run.id submission)
    (takes : ∀ later step, norm.Takes equipment later (envelopes step.key) step)
    (rounds : Rounds mayAnswer equipment envelopes run.id origin count stopped world) :
    Round norm submission run count world.store stopped := by
  induction rounds with
  | begun runs =>
    obtain ⟨later, reached, last, next, keeps, _, underwayAfter, rests⟩ :=
      underway.execute sound runs fresh fun _ no => nomatch no
    exact ⟨later, reached, last, next, keeps, underwayAfter, Nat.zero_le _, rests⟩
  | @goesOn count world middle after outcome order requests result earlier told offered runs
      inductionHypothesis =>
    obtain ⟨later, settled, current, phase, keeps, underway, atMost, _⟩ := inductionHypothesis
    rw [← keeps.id] at told runs sound
    obtain ⟨_, ⟨⟩, ⟨none, _⟩ | ⟨_, ended, resumes, between, covered⟩⟩ :=
      underway.told (takes later) told
    · rw [offered] at none
      cases none
    · obtain rfl : order = _ := Option.some.inj (offered.symm.trans resumes)
      have running : later.status = .running := by
        cases between.calm.stage with
        | between status => exact status
      have coveredFrom : ∀ least, some order = some least →
          later.Covered (settled ++ [ended]) least := by
        rintro _ ⟨⟩
        exact covered
      obtain ⟨last, reached, current, next, keepsLast, grows, underwayAfter, rests⟩ :=
        between.execute sound runs running coveredFrom
      refine ⟨last, reached, current, next, keeps.trans keepsLast, underwayAfter, ?_, rests⟩
      have length := grows.length_le
      rw [List.length_append, List.length_singleton] at length
      omega
  | stops earlier told noneOffered inductionHypothesis =>
    obtain ⟨later, settled, current, phase, keeps, underway, atMost, _⟩ := inductionHypothesis
    rw [← keeps.id] at told
    obtain ⟨outcome, rfl, ⟨_, last, current, keepsLast, calm⟩ | ⟨_, _, resumes, _⟩⟩ :=
      underway.told (takes later) told
    · exact ⟨last, settled, current, keeps.trans keepsLast, calm, Nat.succ_le_succ atMost⟩
    · rw [noneOffered outcome rfl] at resumes
      cases resumes

def Over (runId : Uuid) (stopped : Bool) (store : Store) : Prop :=
  stopped = true ∨ ∀ stepRun, ¬ store.Waits runId stepRun

/-- A run whose jobs report later has taken its course when no callback is to come. -/
theorem Round.took {judge : Judge} {cutOff : Step → StepOutput → Prop}
    {waits : List StepReport → Step → StepReport → Prop} {count : Nat} {stopped : Bool}
    (round : Round (.judged judge True none cutOff waits) submission run count store stopped)
    (isOver : Over run.id stopped store) :
    ∃ later, store.runs.get? run.id = some later ∧
      (later.status = .succeeded ∨ later.status = .failed) ∧
      later.Took store True (course judge [] run.orderedSteps) := by
  cases stopped with
  | true =>
    obtain ⟨later, settled, current, keeps, calm, _⟩ := round
    exact ⟨later, calm.standing.ended calm.stage keeps (Or.inr rfl)⟩
  | false =>
    obtain ⟨later, settled, current, phase, keeps, underway, _, rests⟩ := round
    rcases isOver with no | noneWaits
    · cases no
    · have stage := underway.calm.stage
      have standing := underway.calm.standing
      rcases rests with rfl | closed
      · -- The step that waits would have to be told of its job.
        cases stage with
        | @waiting _ stepRun _ _ running awaits _ =>
          refine absurd ⟨?_, running, awaits⟩ (noneWaits stepRun)
          rw [← keeps.id, standing.begun]
          simp
      · exact ⟨later, standing.ended stage keeps closed⟩

/-- There are no more callbacks than steps. -/
theorem Round.count_le {count : Nat} {stopped : Bool}
    (round : Round norm submission run count store stopped) : count ≤ run.steps.length := by
  have bounded : ∀ {later : Run} {settled : List StepRun} {current : Option StepRun},
      run.Keeps later → Standing norm store later store settled current →
      settled.length + current.toList.length ≤ run.steps.length := by
    intro later settled current keeps standing
    have length := standing.length_le
    rw [List.length_append, Run.orderedSteps, keeps.steps, Run.inOrder, List.length_mergeSort]
      at length
    exact length
  cases stopped with
  | false =>
    obtain ⟨later, settled, current, phase, keeps, underway, atMost, _⟩ := round
    have length := bounded keeps underway.calm.standing
    omega
  | true =>
    obtain ⟨later, settled, current, keeps, calm, atMost⟩ := round
    have length := bounded keeps calm.standing
    cases calm.stage with
    | failed =>
      rw [Option.toList_some, List.length_singleton] at length
      omega

end Underway

end Vetting
