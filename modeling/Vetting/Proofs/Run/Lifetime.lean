import Vetting.Proofs.Run.Concerns
import Vetting.Proofs.Run.Invocation

/-!
Contract: the lifetime of a run, whoever works on it.

Owns:
- milestones: a run has been started, or finalized with a status and an error;
- what each request makes of a run, and which milestone it earns;
- stakes: what a program knows of a run, and which milestone it has still to tell of;
- `lifetime`, the discipline of a program that starts, closes and tells of a run in order,
  and that every invocation keeps it;
- that the status of a run goes one way, whatever invocations take turns.

Does not own: what happens to the step runs in between.

Only the program that has started a run may tell so, and only the one that has closed it
tells how.
-/

namespace Vetting

open Execution

/-- What a log can tell of the lifetime of a run. -/
inductive Milestone where
  | started
  | finalized (status : RunStatus) (error : Option String)

def Milestone.isStarted : Milestone → Bool
  | .started => true
  | .finalized _ _ => false

def Milestone.isFinalized : Milestone → Bool
  | .started => false
  | .finalized _ _ => true

def EventKind.milestone? : EventKind → Option Milestone
  | .runStarted _ _ => some .started
  | .runFinalized status error => some (.finalized status error)
  | _ => none

/-- The milestones of a run that a log tells of. -/
def EventLog.milestones (log : EventLog) (runId : Uuid) : List Milestone :=
  (log.ofRun runId).filterMap fun event => event.kind.milestone?

def Run.HasPassed (run : Run) : Milestone → Prop
  | .started => run.status ≠ .pending
  | .finalized status error =>
    status.isTerminal = true ∧ run.status = status ∧ run.error = error

/-- A status may follow another one. -/
inductive RunStatus.MayBecome : RunStatus → RunStatus → Prop
  | begins : MayBecome .pending .running
  | revoked : MayBecome .pending .canceled
  | ends {status : RunStatus} (terminal : status.isTerminal = true) : MayBecome .running status

/-! ### What a request makes of a run -/

/-- The run is as far as it was, or has come past a milestone. -/
inductive Run.Fares (run : Run) : Option Milestone → Run → Prop
  | stays {later : Run} (status : later.status = run.status) (error : later.error = run.error)
      (endedAt : later.endedAt = run.endedAt) : Fares run none later
  | begins {later : Run} (pending : run.status = .pending) (running : later.status = .running) :
    Fares run (some .started) later
  | ends {later : Run} {status : RunStatus} {error : Option String}
      (isOpen : run.status.isTerminal = false) (isStatus : later.status = status)
      (isError : later.error = error) : Fares run (some (.finalized status error)) later

namespace Execution.Request

variable (runId : Uuid)

/-- The milestone that a run has come past by a request. -/
def earned? : (request : Request) → request.Answer → Option Milestone
  | .store (.startRun id _), .ok true => if id = runId then some .started else none
  | .store (.closeRun id status error _), .ok true =>
    if id = runId then some (.finalized status error) else none
  | _, _ => none

/-- The milestone of a run that a request tells of. -/
def told? : Request → Option Milestone
  | .log id kind => if id = runId then kind.milestone? else none
  | _ => none

/-- Whoever gets the answer knows that the run has begun. -/
def ShowsBegun : (request : Request) → request.Answer → Prop
  | .store (.startRun id _), .ok true => id = runId
  | .store (.run id), .ok run => id = runId ∧ run.status ≠ .pending
  | .store (.stepRun _), .ok stepRun => stepRun.runId = runId
  | _, _ => False

variable {runId}

theorem told?_of_calm {request : Request} (unstarted : request.concern ≠ .start)
    (unclosed : request.concern ≠ .close) : request.told? runId = none := by
  cases request with
  | log id kind =>
    cases kind with
    | runStarted => exact absurd rfl unstarted
    | runFinalized => exact absurd rfl unclosed
    | _ => simp [told?, EventKind.milestone?]
  | _ => rfl

theorem earned?_of_calm {request : Request} (unstarted : request.concern ≠ .start)
    (unclosed : request.concern ≠ .close) (answer : request.Answer) :
    request.earned? runId answer = none := by
  cases request with
  | store request =>
    cases request with
    | startRun => exact absurd rfl unstarted
    | closeRun => exact absurd rfl unclosed
    | _ => rfl
  | _ => rfl

theorem earned?_startRun {id : Uuid} {now : Timestamp}
    {answer : (StoreRequest.startRun id now).Answer} (elsewhere : answer = .ok true → id ≠ runId) :
    earned? runId (.store (.startRun id now)) answer = none := by
  cases answer with
  | error fault => rfl
  | ok started =>
    cases started with
    | false => rfl
    | true => exact if_neg (elsewhere rfl)

theorem earned?_closeRun {id : Uuid} {status : RunStatus} {error : Option String}
    {now : Timestamp} {answer : (StoreRequest.closeRun id status error now).Answer}
    (elsewhere : answer = .ok true → id ≠ runId) :
    earned? runId (.store (.closeRun id status error now)) answer = none := by
  cases answer with
  | error fault => rfl
  | ok closed =>
    cases closed with
    | false => rfl
    | true => exact if_neg (elsewhere rfl)

end Execution.Request

namespace Store

variable {store : Store} {runId : Uuid} {run : Run}

/-- The record of a run is as it was, unless the run is the one to be changed and can be. -/
private theorem changed_or_same (held : store.runs.get? runId = some run) (id : Uuid)
    (change : Run → Option Run) {result : Except EngineFault Bool × Store}
    (opened : result = match store.runs.get? id with
      | none => (.error (.runNotFound id), store)
      | some run => match change run with
        | none => (.ok false, store)
        | some changed => (.ok true, { store with runs := store.runs.set id changed })) :
    ∃ later, result.2.runs.get? runId = some later ∧
      ((later = run ∧ (result.1 = .ok true → id ≠ runId)) ∨
        (id = runId ∧ change run = some later ∧ result.1 = .ok true)) := by
  obtain ⟨same, undone⟩ | ⟨found, changed, isThere, made, rfl⟩ := changed_cases opened
  · exact ⟨run, by rw [same, held], Or.inl ⟨rfl, fun done => absurd done undone⟩⟩
  · by_cases same : id = runId
    · subst same
      obtain rfl := Option.some.inj (isThere.symm.trans held)
      exact ⟨changed, (Table.get?_set _ _ _ _).trans (if_pos rfl), Or.inr ⟨rfl, made, rfl⟩⟩
    · refine ⟨run, ?_, Or.inl ⟨rfl, fun _ => same⟩⟩
      exact ((Table.get?_set _ _ _ _).trans (if_neg same)).trans held

/-- What a request makes of a run. -/
theorem fares_answer (held : store.runs.get? runId = some run) (request : StoreRequest) :
    ∃ later, (store.answer request).2.runs.get? runId = some later ∧
      run.Fares ((Execution.Request.store request).earned? runId (store.answer request).1)
        later := by
  have untouched : ∀ {after : Store}, after.runs = store.runs →
      ∃ later, after.runs.get? runId = some later ∧ run.Fares none later := by
    intro after same
    exact ⟨run, by rw [same, held], .stays rfl rfl rfl⟩
  cases request with
  | startRun id now =>
    have works : store.answer (.startRun id now) = store.startRun id now := rfl
    obtain ⟨later, heldLater, ⟨rfl, elsewhere⟩ | ⟨rfl, made, done⟩⟩ := changed_or_same held id
      (fun run =>
        if run.status = .pending then some { run with status := .running, startedAt := some now }
        else none) works
    · rw [Execution.Request.earned?_startRun elsewhere]
      exact ⟨later, heldLater, .stays rfl rfl rfl⟩
    · rw [done, Execution.Request.earned?, if_pos rfl]
      split at made <;> cases made
      exact ⟨_, heldLater, .begins ‹_› rfl⟩
  | closeRun id status error now =>
    cases failing : store.failingWrites with
    | true =>
      simp only [answer, closeRun, failing, if_true]
      exact untouched rfl
    | false =>
      have works : store.answer (.closeRun id status error now) = _ := if_neg (by simp [failing])
      obtain ⟨later, heldLater, ⟨rfl, elsewhere⟩ | ⟨rfl, made, done⟩⟩ := changed_or_same held id
        (fun run =>
          if run.status.isTerminal then none
          else some { run with status, error, endedAt := some now }) works
      · rw [Execution.Request.earned?_closeRun elsewhere]
        exact ⟨later, heldLater, .stays rfl rfl rfl⟩
      · rw [done, Execution.Request.earned?, if_pos rfl]
        split at made <;> cases made
        rename_i isOpen
        exact ⟨_, heldLater, .ends (by simpa using isOpen) rfl rfl⟩
  | saveSummary id summary =>
    obtain ⟨later, heldLater, ⟨rfl, _⟩ | ⟨_, made, _⟩⟩ := changed_or_same held id
      (fun run => some (run.summarized summary)) rfl
    · exact ⟨later, heldLater, .stays rfl rfl rfl⟩
    · cases made
      exact ⟨_, heldLater, .stays rfl rfl rfl⟩
  | flagCancel id =>
    obtain ⟨later, heldLater, ⟨rfl, _⟩ | ⟨_, made, _⟩⟩ := changed_or_same held id
      (fun run => some run.flagged) rfl
    · exact ⟨later, heldLater, .stays rfl rfl rfl⟩
    · cases made
      exact ⟨_, heldLater, .stays rfl rfl rfl⟩
  | submission id =>
    refine untouched ?_
    cases isThere : store.submissions.get? id <;> simp only [answer, isThere]
  | run | cancelFlag | stepRun | stepRuns | findings | runFindings | releaseCallback =>
    exact untouched rfl
  | acquire runId step now =>
    refine untouched ?_
    simp only [answer, acquire]
    split <;> rfl
  | restart id attempt now =>
    refine untouched ?_
    simp only [answer, restart]
    split
    · rfl
    · split <;> rfl
  | updateStepRun stepRun =>
    refine untouched ?_
    simp only [answer, updateStepRun]
    split
    · rfl
    · split <;> rfl
  | replaceFindings id findings =>
    refine untouched ?_
    simp only [answer, replaceFindings]
    split <;> rfl
  | appendFindings id findings =>
    refine untouched ?_
    simp only [answer, appendFindings, replaceFindings]
    split <;> rfl
  | recordCallback key id now =>
    refine untouched ?_
    simp only [answer, recordCallback]
    split <;> rfl

end Store

namespace Execution

/-! ### What a program has at stake in a run -/

/-- What a program knows of a run, and what it has still to tell of it. -/
structure Stake where
  begun : Prop
  owed? : Option Milestone

namespace Stake

def blank : Stake := ⟨False, none⟩

/-- The stake after an answer. -/
def noting (stake : Stake) (runId : Uuid) (request : Request) (answer : request.Answer) :
    Stake where
  begun := stake.begun ∨ request.ShowsBegun runId answer
  owed? := match request.earned? runId answer, request.told? runId with
    | some milestone, _ => some milestone
    | none, some _ => none
    | none, none => stake.owed?

/-- Nothing is forgotten, and nothing is told or comes to be owed. -/
structure Grows (stake after : Stake) : Prop where
  begun : stake.begun → after.begun
  owed : after.owed? = stake.owed?

theorem Grows.refl (stake : Stake) : stake.Grows stake := ⟨id, rfl⟩

theorem Grows.trans {first second third : Stake} (left : first.Grows second)
    (right : second.Grows third) : first.Grows third :=
  ⟨right.begun ∘ left.begun, right.owed.trans left.owed⟩

/-- What may be asked about a run: its steps begin once it has begun, a run that may not have begun
is closed only by cancelling it, and nothing is told but what is owed. -/
def May (stake : Stake) (runId : Uuid) : Request → Prop
  | .store (.closeRun id status _ _) =>
    id = runId → status.isTerminal = true ∧ (status = .canceled ∨ stake.begun)
  | .store (.acquire id _ _) => id = runId → stake.begun
  | request => ∀ milestone, request.told? runId = some milestone → stake.owed? = some milestone

variable {stake : Stake} {runId : Uuid} {request : Request}

theorem noting_owed {answer : request.Answer} {milestone : Milestone}
    (earned : request.earned? runId answer = some milestone) :
    (stake.noting runId request answer).owed? = some milestone := by
  simp only [noting, earned]

theorem grows_noting (unstarted : request.concern ≠ .start) (unclosed : request.concern ≠ .close)
    (answer : request.Answer) : stake.Grows (stake.noting runId request answer) where
  begun := Or.inl
  owed := by
    simp only [noting, Request.earned?_of_calm unstarted unclosed,
      Request.told?_of_calm unstarted unclosed]

theorem may_of_calm (unstarted : request.concern ≠ .start) (unclosed : request.concern ≠ .close)
    (ownSteps : ∀ id, request.concern = .beginning id → id = runId → stake.begun) :
    stake.May runId request := by
  unfold May
  split
  · exact absurd rfl unclosed
  · exact ownSteps _ rfl
  · intro milestone tells
    rw [Request.told?_of_calm unstarted unclosed] at tells
    cases tells

end Stake

section Discipline

variable (mayAnswer : (request : Request) → request.Answer → Prop) (known : Uuid → Prop)
  (runId : Uuid)

/-- Starting, closing and telling of a run in order. -/
def lifetime : Discipline Stake where
  may stake request := stake.May runId request
  learns stake request answer after :=
    Credible mayAnswer known request answer ∧ after = stake.noting runId request answer

end Discipline

section Operations

variable {mayAnswer : (request : Request) → request.Answer → Prop} {known : Uuid → Prop}
  {runId : Uuid} {stake : Stake} {ε α β : Type}

/-- What neither starts nor closes a run, and begins no step. -/
def calm : List Concern := [.inquiry, .telling, .recording, .launch, .marking, .receipt, .recovery]

/-- Steps of the run are taken by somebody who knows that it has begun. -/
theorem Asks.livesIn {concerns : List Concern} {job : ExceptT ε Program α}
    (asks : Asks concerns job) (unstarted : Concern.start ∉ concerns)
    (unclosed : Concern.close ∉ concerns)
    (ownSteps : ∀ id, Concern.beginning id ∈ concerns → id = runId → stake.begun) :
    Heeds (lifetime mayAnswer known runId) job stake (fun _ => stake.Grows)
      fun _ => stake.Grows := by
  have calmly : ∀ request : Request, request.concern ∈ concerns →
      request.concern ≠ .start ∧ request.concern ≠ .close := fun request member =>
    ⟨ne_of_mem_of_not_mem member unstarted, ne_of_mem_of_not_mem member unclosed⟩
  apply asks.heeds stake.Grows _ _ (.refl stake)
  · intro state request grows member
    apply Stake.may_of_calm (calmly request member).1 (calmly request member).2
    intro id begins same
    rw [begins] at member
    exact grows.begun (ownSteps id member same)
  · rintro state request answer after grows member ⟨_, rfl⟩
    exact grows.trans (Stake.grows_noting (calmly request member).1 (calmly request member).2 answer)

theorem Asks.lives {concerns : List Concern} {job : ExceptT ε Program α}
    (asks : Asks concerns job) (subset : concerns ⊆ calm) :
    Heeds (lifetime mayAnswer known runId) job stake (fun _ => stake.Grows)
      fun _ => stake.Grows := by
  apply asks.livesIn
  · exact fun member => absurd (subset member) (by decide)
  · exact fun member => absurd (subset member) (by decide)
  · exact fun id member => absurd (subset member) (by simp [calm])

/-- Nobody minds what comes of a calm job. -/
theorem Asks.livesOn {concerns : List Concern} {job : ExceptT ε Program α}
    (asks : Asks concerns job) (subset : concerns ⊆ calm) :
    Heeds (lifetime mayAnswer known runId) job stake (fun _ _ => True) fun _ _ => True :=
  (asks.lives subset).imp (fun _ _ _ => trivial) fun _ _ _ => trivial

/-- After a calm job all that was known is known still, and what was owed is owed. -/
theorem Asks.livesThen {concerns : List Concern} {job : ExceptT ε Program α}
    {next : α → ExceptT ε Program β} {good : β → Stake → Prop} (asks : Asks concerns job)
    (subset : concerns ⊆ calm)
    (goesOn : ∀ result after, stake.Grows after →
      Heeds (lifetime mayAnswer known runId) (next result) after good fun _ _ => True) :
    Heeds (lifetime mayAnswer known runId) (job >>= next) stake good fun _ _ => True := by
  apply (heeds_bind job next).mpr
  exact (asks.lives subset).imp goesOn fun _ _ _ => trivial

theorem lives_closeRun {id : Uuid} {status : RunStatus} (terminal : status.isTerminal = true)
    (knows : id = runId → status = .canceled ∨ stake.begun) (error : Option String) :
    Heeds (lifetime mayAnswer known runId) (closeRun id status error) stake (fun _ _ => True)
      fun _ _ => True := by
  apply asks_clock.livesThen (by decide)
  intro now middle grows
  apply (heeds_bind _ _).mpr
  refine (heeds_store _).mpr ⟨fun same => ⟨terminal, (knows same).imp_right grows.begun⟩, ?_⟩
  rintro answer after ⟨_, rfl⟩
  cases answer with
  | error fault => trivial
  | ok closed =>
    cases closed with
    | false => exact (asks_currentOutcome id).livesOn (by decide)
    | true =>
      apply (heeds_bind _ _).mpr
      refine (heeds_log _ _).mpr ⟨fun milestone tells => Stake.noting_owed tells, ?_⟩
      intro _ last _
      apply (asks_storeSummary id).livesThen (by decide)
      exact fun _ _ _ => (asks_currentOutcome id).livesOn (by decide)

theorem lives_failRun {id : Uuid} (knows : id = runId → stake.begun) (interruption : Interruption) :
    Heeds (lifetime mayAnswer known runId) (failRun id interruption) stake (fun _ _ => True)
      fun _ _ => True := by
  have closes : ∀ after, stake.Grows after → Heeds (lifetime mayAnswer known runId)
      (closeRun id .failed (some genericFailure)) after (fun _ _ => True) fun _ _ => True :=
    fun after grows => lives_closeRun rfl (fun same => Or.inr (grows.begun (knows same))) _
  rw [failRun]
  cases interruption.current with
  | none => exact closes stake (.refl stake)
  | some stepRun =>
    have fails := (asks_failStep stepRun interruption.fault).tryCatch fun _ => asks_pure ()
    exact fails.livesThen (by decide) fun _ => closes

/-- Whoever goes on with a run knows that it has begun. -/
theorem lives_enterRun (id : Uuid) (resumeFrom : Option Int) :
    Heeds (lifetime mayAnswer known runId) (enterRun id resumeFrom) stake
      (fun entered after => entered = none → id = runId → after.begun) fun _ _ => True := by
  cases resumeFrom with
  | none =>
    apply asks_clock.livesThen (by decide)
    intro now middle _
    apply (heeds_bind _ _).mpr
    refine (heeds_store _).mpr ⟨by rintro _ ⟨⟩, ?_⟩
    rintro answer after ⟨_, rfl⟩
    cases answer with
    | error fault => trivial
    | ok started =>
      apply (heeds_bind _ _).mpr
      refine ((asks_inquiry (.run id) rfl).lives (by decide)).imp (fun run last grows => ?_)
        fun _ _ _ => trivial
      cases started with
      | true =>
        apply (heeds_bind _ _).mpr
        refine (heeds_log _ _).mpr ⟨fun milestone tells => ?_, ?_⟩
        · rw [grows.owed]
          exact Stake.noting_owed tells
        · rintro _ _ ⟨_, rfl⟩ _ same
          exact Or.inl (grows.begun (Or.inr same))
      | false =>
        apply (asks_telling id (.duplicateDeliveryIgnored run.status) rfl).livesThen (by decide)
        exact by rintro _ _ _ ⟨⟩
  | some order =>
    apply (heeds_bind _ _).mpr
    refine (heeds_store _).mpr ⟨by rintro _ ⟨⟩, ?_⟩
    rintro answer after ⟨_, rfl⟩
    cases answer with
    | error fault => trivial
    | ok run =>
      apply heeds_ite.mpr
      constructor
      · intro running
        have begun : run.status ≠ .pending := by simp [running]
        apply (asks_telling id (.runResumed order) rfl).livesThen (by decide)
        exact fun _ _ grows _ same => grows.begun (Or.inr ⟨same, begun⟩)
      · intro _ no
        cases no

theorem lives_execute (equipment : Equipment) (id : Uuid) (resumeFrom : Option Int) :
    Heeds (lifetime mayAnswer known runId) (execute equipment id resumeFrom) stake
      (fun _ _ => True) fun _ _ => True := by
  apply (heeds_bind _ _).mpr
  refine (lives_enterRun id resumeFrom).imp (fun entered middle begun => ?_) fun _ _ _ => trivial
  cases entered with
  | some outcome => trivial
  | none =>
    apply (heeds_bind _ _).mpr
    refine (heeds_store _).mpr ⟨by rintro _ ⟨⟩, ?_⟩
    rintro answer after ⟨credible, noted⟩
    have knows : id = runId → after.begun := by
      rw [noted]
      exact fun same => Or.inl (begun rfl same)
    cases answer with
    | error fault => trivial
    | ok run =>
      have ownSteps : ∀ other, Concern.beginning other ∈ stepTaking run.id → other = runId →
          after.begun := by
        intro other member same
        have ofRun : other = run.id := by
          simpa [stepTaking, processing, settling] using member
        exact knows (credible.1.symm.trans (ofRun.symm.trans same))
      have unstarted : Concern.start ∉ stepTaking run.id := by
        simp [stepTaking, processing, settling]
      have unclosed : Concern.close ∉ stepTaking run.id := by
        simp [stepTaking, processing, settling]
      have drives := asks_drive equipment run (resumeFrom.getD leastOrder)
      apply (heeds_bind _ _).mpr
      apply (heeds_lift _).mpr
      apply program_heeds_run.mpr
      refine (drives.livesIn unstarted unclosed ownSteps).imp (fun progress last grows => ?_)
        fun interruption last grows => ?_
      · cases progress with
        | completed => exact lives_closeRun rfl (fun same => Or.inr (grows.begun (knows same))) _
        | failed error =>
          exact lives_closeRun rfl (fun same => Or.inr (grows.begun (knows same))) _
        | canceled => exact lives_closeRun rfl (fun _ => Or.inl rfl) _
        | pending | yielded => exact (asks_currentOutcome id).livesOn (by decide)
      · exact lives_failRun (fun same => grows.begun (knows same)) interruption

theorem lives_cancel (id : Uuid) :
    Heeds (lifetime mayAnswer known runId) (cancel id) stake (fun _ _ => True)
      fun _ _ => True := by
  have flags : Asks [.marking] (Job.store (.flagCancel id)) :=
    asks_store _ (show Concern.marking ∈ _ by decide)
  apply (asks_inquiry (.run id) rfl).livesThen (by decide)
  intro run _ _
  refine heeds_ite.mpr ⟨fun _ => trivial, fun _ => ?_⟩
  apply flags.livesThen (by decide)
  intro _ _ _
  apply (asks_telling id .cancelRequested rfl).livesThen (by decide)
  intro _ _ _
  apply (asks_inquiry (.stepRuns id) rfl).livesThen (by decide)
  intro stepRuns _ _
  exact heeds_ite.mpr ⟨fun _ => lives_closeRun rfl (fun _ => Or.inl rfl) _, fun _ => trivial⟩

/-! ### Callbacks -/

section Callbacks

variable {stepRun : StepRun}

theorem asks_report (result : StepResult) (resumeFrom : Option Int) (id : Uuid) :
    Asks [.inquiry] (do
      return (⟨result, resumeFrom, false, (← Job.store (.run id)).status⟩ : CallbackOutcome)) :=
  (asks_inquiry _ rfl).bind fun _ => asks_pure _

theorem lives_followCallback (knows : stepRun.runId = runId → stake.begun) (result : StepResult) :
    Heeds (lifetime mayAnswer known runId) (followCallback stepRun result) stake
      (fun _ _ => True) fun _ _ => True := by
  have reports : ∀ resumeFrom, ∀ after : Stake, Heeds (lifetime mayAnswer known runId) (do
      return (⟨result, resumeFrom, false,
        (← Job.store (.run stepRun.runId)).status⟩ : CallbackOutcome)) after
      (fun _ _ => True) fun _ _ => True :=
    fun resumeFrom _ => (asks_report result resumeFrom stepRun.runId).livesOn (by decide)
  apply (asks_telling stepRun.runId (.callbackApplied stepRun.id result.status) rfl).livesThen
    (by decide)
  intro _ middle grows
  apply (asks_inquiry (.run stepRun.runId) rfl).livesThen (by decide)
  intro run last more
  apply heeds_ite.mpr ⟨fun _ => ?_, fun _ => heeds_ite.mpr ⟨fun _ => reports _ _, fun _ => ?_⟩⟩
  · exact (asks_storeSummary _).livesThen (by decide) fun _ _ _ => reports _ _
  · apply (heeds_bind _ _).mpr
    refine (lives_closeRun rfl (fun same => Or.inr ?_) _).imp (fun _ _ _ => reports _ _)
      fun _ _ _ => trivial
    exact more.begun (grows.begun (knows same))

theorem lives_recoverCallback (knows : stepRun.runId = runId → stake.begun) (fault : EngineFault) :
    Heeds (lifetime mayAnswer known runId) (recoverCallback stepRun fault) stake
      (fun _ _ => True) fun _ _ => True := by
  have reports : ∀ after : Stake, Heeds (lifetime mayAnswer known runId) (do
      let latest ← Job.store (.stepRun stepRun.id)
      return (⟨.ofStepRun latest, none, false,
        (← Job.store (.run stepRun.runId)).status⟩ : CallbackOutcome)) after
      (fun _ _ => True) fun _ _ => True := by
    intro after
    apply (asks_inquiry (.stepRun stepRun.id) rfl).livesThen (by decide)
    exact fun latest _ _ => (asks_report _ _ _).livesOn (by decide)
  apply (asks_inquiry (.run stepRun.runId) rfl).livesThen (by decide)
  intro run middle grows
  apply heeds_ite.mpr ⟨fun _ => ?_, fun _ => ?_⟩
  · apply (asks_failStep stepRun fault).livesThen (by decide)
    intro _ _ _
    exact (asks_storeSummary _).livesThen (by decide) fun _ _ _ => reports _
  · apply (heeds_bind _ _).mpr
    exact (lives_failRun (fun same => grows.begun (knows same)) _).imp (fun _ _ _ => reports _)
      fun _ _ _ => trivial

theorem lives_applyCallback (knows : stepRun.runId = runId → stake.begun) (equipment : Equipment)
    (envelope : Envelope) :
    Heeds (lifetime mayAnswer known runId) (applyCallback equipment stepRun envelope) stake
      (fun _ _ => True) fun _ _ => True := by
  apply heeds_ite.mpr ⟨fun _ => (asks_ignoreCallback _ _ _).livesOn (by decide), fun _ => ?_⟩
  apply (heeds_bind _ _).mpr
  apply (heeds_lift _).mpr
  apply program_heeds_run.mpr
  refine ((asks_completeContained equipment stepRun.id envelope).lives (by decide)).imp
    (fun result after grows => ?_) fun fault after grows => ?_
  · exact lives_followCallback (fun same => grows.begun (knows same)) result
  · exact lives_recoverCallback (fun same => grows.begun (knows same)) fault

theorem lives_completeCallback (equipment : Equipment) (id : Uuid) (envelope : Envelope)
    (key? : Option String) :
    Heeds (lifetime mayAnswer known runId) (completeCallback equipment id envelope key?) stake
      (fun _ _ => True) fun _ _ => True := by
  apply (heeds_bind _ _).mpr
  refine (heeds_store _).mpr ⟨by rintro _ ⟨⟩, ?_⟩
  rintro answer after ⟨_, rfl⟩
  cases answer with
  | error fault => trivial
  | ok stepRun =>
    have knows : stepRun.runId = runId →
        (stake.noting runId (.store (.stepRun id)) (.ok stepRun)).begun := Or.inr
    cases key? with
    | none => exact lives_applyCallback knows equipment envelope
    | some key =>
      apply heeds_ite.mpr ⟨fun _ => (asks_ignoreCallback _ _ _).livesOn (by decide), fun _ => ?_⟩
      apply asks_clock.livesThen (by decide)
      intro now middle grows
      have receipts : Asks [.receipt] (Job.store (.recordCallback key id now)) :=
        asks_store _ (show Concern.receipt ∈ _ by decide)
      apply receipts.livesThen (by decide)
      intro isNew last more
      apply heeds_ite.mpr ⟨fun _ => ?_, fun _ => (asks_ignoreCallback _ _ _).livesOn (by decide)⟩
      have still := fun same => more.begun (grows.begun (knows same))
      apply (heeds_tryCatch _ _).mpr
      refine (lives_applyCallback still equipment envelope).imp (fun _ _ _ => trivial)
        fun fault _ _ => ?_
      have releases : Asks [.receipt] (Job.store (.releaseCallback key)) :=
        asks_store _ (show Concern.receipt ∈ _ by decide)
      have gives : Asks [.receipt] (do
          tryCatch (Job.store (.releaseCallback key)) fun _ => pure ()
          throw fault : Job CallbackOutcome) :=
        (releases.tryCatch fun _ => asks_pure ()).bind fun _ => asks_throw fault
      exact gives.livesOn (by decide)

end Callbacks

/-- Every invocation starts, closes and tells of a run in order. -/
theorem Invocation.lives (invocation : Invocation) (equipment : Equipment) :
    (invocation.program equipment).Heeds (lifetime mayAnswer known runId) .blank
      fun _ _ => True := by
  cases invocation with
  | execute id resumeFrom => exact (lives_execute equipment id resumeFrom).forgetful
  | callback id envelope key? => exact (lives_completeCallback equipment id envelope key?).forgetful
  | cancel id => exact (lives_cancel id).forgetful

end Operations

end Execution

end Vetting
