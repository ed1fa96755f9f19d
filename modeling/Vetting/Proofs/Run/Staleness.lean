import Vetting.Proofs.Program.Wavering
import Vetting.Proofs.Run.Answering
import Vetting.Proofs.Run.Endurance

/-!
Contract: callbacks with the token of an attempt that has been superseded.

Owns:
- `Store.Spurns`: a store from which it can be seen that a token is of no use;
- a callback with such a token leaves every run, step run and finding alone, however writes
  fail in the meantime;
- a callback with any other token ends its step;
- a step run that has ended, or that waits for a job, spurns the tokens of earlier attempts.

Does not own: callbacks for the attempt that is at work (`Vetting.Proofs.Run.Answering`).

A callback is told from a stale one by the token in the output.  An attempt that has begun
leaves the output of the one before it in place until it has a token of its own.
-/

namespace Vetting

open Execution
open Store (Ends)

/-- The runs, step runs and findings are the same. -/
structure Store.Unmoved (before after : Store) : Prop where
  runs : after.runs = before.runs
  stepRuns : after.stepRuns = before.stepRuns
  findings : after.findings = before.findings

/-- The token of an attempt is of no use: the step has ended, or the token has a receipt, or the
output has the token of another attempt. -/
def Store.Spurns (store : Store) (stepRun : StepRun) (attempt : Nat) : Prop :=
  stepRun.status.isTerminal = true ∨
    Digest.attemptKey stepRun.id attempt ∈ store.receipts ∨
    ∃ other ≤ stepRun.attempt, other ≠ attempt ∧
      stepRun.output.jobKey? = some (Digest.attemptKey stepRun.id other)

namespace Execution

/-! ### A token that is of no use -/

section Useless

variable {mayAnswer : (request : Request) → request.Answer → Prop} {store : Store}
  {stepRun : StepRun} {run : Run}

/-- A callback that is ignored leaves everything alone. -/
theorem wavers_ignoreCallback {after : Store} (unmoved : store.Unmoved after)
    (steady : after.failingWrites = false) (heldRun : store.runs.get? stepRun.runId = some run)
    (reason : String) (duplicate : Bool) :
    Heeds (wavering mayAnswer (fun _ => True) fun after _ => store.Unmoved after)
      (ignoreCallback stepRun reason duplicate) after
      (fun outcome after => store.Unmoved after ∧ outcome.resumeFrom = none) fun _ _ => False := by
  have heldAfter : after.runs.get? stepRun.runId = some run := by rw [unmoved.runs, heldRun]
  refine (heeds_bind _ _).mpr (wavers_log unmoved ((heeds_bind _ _).mpr ?_))
  exact wavers_ask unmoved (fun _ => Store.answer_run heldAfter) steady ⟨unmoved, rfl⟩

theorem wavers_completeCallback_useless (steady : store.failingWrites = false) {id : Uuid}
    {key : String} (held : store.stepRuns.get? id = some stepRun)
    (heldRun : store.runs.get? stepRun.runId = some run) (equipment : Equipment)
    (envelope : Envelope)
    (useless : stepRun.status.isTerminal = true ∨ key ∈ store.receipts ∨
      isStale stepRun key = true) :
    Heeds (wavering mayAnswer (fun _ => True) fun after _ => store.Unmoved after)
      (completeCallback equipment id envelope (some key)) store
      (fun outcome after => store.Unmoved after ∧ outcome.resumeFrom = none) fun _ _ => False := by
  have unmoved : ∀ receipts, store.Unmoved (store.withReceipts receipts) := fun _ => ⟨rfl, rfl, rfl⟩
  have same : store.Unmoved store := unmoved store.receipts
  refine (heeds_bind _ _).mpr (wavers_ask same (fun _ => Store.answer_stepRun held) steady ?_)
  refine heeds_ite.mpr ⟨fun _ => wavers_ignoreCallback same steady heldRun _ _, fun notStale => ?_⟩
  refine (heeds_bind _ _).mpr (wavers_now same fun now => (heeds_bind _ _).mpr ?_)
  by_cases known : key ∈ store.receipts
  · have answered : ∀ failing, (store.withFailing failing).answer (.recordCallback key id now) =
        (.ok false, store.withFailing failing) := fun failing =>
      answer_recordCallback_known (show key ∈ (store.withFailing failing).receipts from known) _ _
    exact wavers_ask same answered steady (wavers_ignoreCallback same steady heldRun _ _)
  · have terminal : stepRun.status.isTerminal = true := by
      rcases useless with terminal | receipted | stale
      · exact terminal
      · exact absurd receipted known
      · exact absurd stale notStale
    have answered : ∀ failing, (store.withFailing failing).answer (.recordCallback key id now) =
        (.ok true, (store.withReceipts (key :: store.receipts)).withFailing failing) := fun failing =>
      answer_recordCallback_new (show key ∉ (store.withFailing failing).receipts from known) _ _
    refine wavers_ask same answered steady ?_
    refine (heeds_tryCatch _ _).mpr ?_
    rw [applyCallback, if_pos terminal]
    exact (wavers_ignoreCallback (unmoved (key :: store.receipts)) steady heldRun _ _).imp
      (fun _ _ reached => reached) fun _ _ => False.elim

end Useless

/-! ### A token that is of use -/

section Useful

variable {mayAnswer : (request : Request) → request.Answer → Prop} {equipment : Equipment}
  {store : Store} {stepRun : StepRun} {run : Run} {envelope : Envelope} {outcome : CallbackOutcome}
  {after : Store}

/-- What is taken in ends its step. -/
theorem Applied.ended (applied : Applied equipment store run stepRun envelope outcome after)
    (running : stepRun.status.isTerminal = false) :
    ∃ ended, after.stepRuns.get? stepRun.id = some ended ∧ ended.status.isTerminal = true := by
  obtain ⟨verdict, error, now, settles, heldEnded, _⟩ := applied.records running
  exact ⟨_, heldEnded, settles.terminal⟩

/-- A callback that nothing speaks against ends its step. -/
theorem ended_of_completeCallback {id : Uuid} {key : String} {world last : World}
    {requests : List Request} {result : Except EngineFault CallbackOutcome}
    (coherent : world.store.Coherent) (writable : world.store.failingWrites = false)
    (held : world.store.stepRuns.get? id = some stepRun)
    (running : stepRun.status.isTerminal = false) (fresh : isStale stepRun key = false)
    (new : key ∉ world.store.receipts)
    (runs : (completeCallback equipment id envelope (some key)).run.Runs mayAnswer world requests
      (some result) last) :
    ∃ outcome ended, result = .ok outcome ∧ last.store.stepRuns.get? id = some ended ∧
      ended.status.isTerminal = true := by
  obtain ⟨_, outcome, _, _, rfl, answered⟩ := answered_of_runs coherent writable held runs
  obtain rfl := coherent.stepRunIds _ _ held
  generalize last.store = after at answered ⊢
  cases answered with
  | refused isKey refuses =>
    obtain rfl := Option.some.inj isKey
    rcases refuses with stale | known
    · rw [fresh] at stale
      cases stale
    · exact absurd known new
  | taken _ applied =>
    obtain ⟨ended, heldEnded, terminal⟩ := applied.ended running
    exact ⟨outcome, ended, rfl, heldEnded, terminal⟩

end Useful

end Execution

/-! ### Tokens of earlier attempts -/

section Superseded

variable {stepRun : StepRun} {store : Store} {attempt : Nat}

/-- The attempts of a step run so far can be told from this one by their tokens. -/
def StepRun.Distinguishes (stepRun : StepRun) (attempt : Nat) : Prop :=
  ∀ other ≤ stepRun.attempt, other ≠ attempt →
    Digest.attemptKey stepRun.id other ≠ Digest.attemptKey stepRun.id attempt

theorem Store.Spurns.useless (spurns : store.Spurns stepRun attempt)
    (distinguishes : stepRun.Distinguishes attempt) :
    stepRun.status.isTerminal = true ∨ Digest.attemptKey stepRun.id attempt ∈ store.receipts ∨
      isStale stepRun (Digest.attemptKey stepRun.id attempt) = true := by
  refine spurns.imp_right (Or.imp_right ?_)
  rintro ⟨other, earlier, different, isKey⟩
  rw [isStale_eq isKey]
  exact bne_iff_ne.mpr (distinguishes other earlier different)

theorem StepRun.Dated.not_stale (dated : stepRun.Dated) (accepts : ¬ store.Spurns stepRun attempt) :
    isStale stepRun (Digest.attemptKey stepRun.id attempt) = false := by
  rw [isStale]
  cases isKey : stepRun.output.jobKey? with
  | none => rfl
  | some key =>
    obtain ⟨other, earlier, rfl⟩ := dated key isKey
    obtain rfl : other = attempt := by
      by_contra different
      exact accepts (Or.inr (Or.inr ⟨other, earlier, different, isKey⟩))
    exact bne_self_eq_false _

/-- Whatever has been endured, a callback with the token of an attempt that has been superseded leaves
everything alone exactly if the store spurns that token; otherwise it ends the step.  A step run that
waits for a job spurns the tokens of all earlier attempts. -/
theorem unmoved_of_superseded {mayAnswer : (request : Request) → request.Answer → Prop}
    {equipment : Equipment} {origin world : World} (coherent : origin.store.Coherent)
    (unbegun : ∀ id, origin.store.stepRuns.get? id = none)
    (endured : Endured mayAnswer equipment origin world) {id : Uuid}
    (held : world.store.stepRuns.get? id = some stepRun) (superseded : attempt < stepRun.attempt)
    (distinguishes : stepRun.Distinguishes attempt) (envelope : Envelope) :
    (stepRun.Waits → world.store.Spurns stepRun attempt) ∧
    (world.store.Spurns stepRun attempt → ∀ rest last,
      (completeCallback equipment id envelope (some (Digest.attemptKey id attempt))).run.Reaches
        mayAnswer world rest last →
      world.store.Unmoved last.store ∧ ∀ result, rest = .done result →
        ∃ outcome, result = .ok outcome ∧ outcome.resumeFrom = none) ∧
    (¬ world.store.Spurns stepRun attempt → world.store.failingWrites = false →
      ∀ requests result last,
      (completeCallback equipment id envelope (some (Digest.attemptKey id attempt))).run.Runs
        mayAnswer world requests (some result) last →
      ∃ outcome ended, result = .ok outcome ∧ last.store.stepRuns.get? id = some ended ∧
        stepRun.status = .running ∧ ended.status.isTerminal = true) := by
  have kept := kept_of_endured coherent unbegun endured
  obtain rfl := kept.coherent.stepRunIds _ _ held
  obtain ⟨dated, current⟩ := kept.tokened _ _ held
  refine ⟨fun waits => ?_, fun spurns rest last reaches => ?_,
    fun accepts writable requests result last runs => ?_⟩
  · exact Or.inr (Or.inr ⟨_, Nat.le_refl _, Nat.ne_of_gt superseded, current waits⟩)
  · obtain ⟨run, heldRun⟩ := kept.coherent.rooted _ _ held
    have steady : (world.store.withFailing false).failingWrites = false := rfl
    obtain ⟨unmoved, resumes⟩ := reaches.remains (wavers_completeCallback_useless steady held heldRun
      equipment envelope (spurns.useless distinguishes))
    exact ⟨⟨unmoved.runs, unmoved.stepRuns, unmoved.findings⟩, resumes⟩
  · have running : stepRun.status.isTerminal = false := by
      simpa using fun terminal => accepts (Or.inl terminal)
    obtain ⟨outcome, ended, succeeds, heldEnded, terminal⟩ := ended_of_completeCallback
      kept.coherent writable held running (dated.not_stale accepts)
      (fun known => accepts (Or.inr (Or.inl known))) runs
    exact ⟨outcome, ended, succeeds, heldEnded, running_of_not_terminal running, terminal⟩

end Superseded

/-! ### An execution that is cut short -/

namespace Example

open Execution

/-- The first execution is cut short before it hands the job over. -/
def brokenOff : Program (Except EngineFault RunOutcome) × World :=
  World.takeAlone (surroundings accepted) 9 (stepping steps) firstEntry.2

def secondEntry : Program (Except EngineFault RunOutcome) × World :=
  World.takeAlone (surroundings accepted) 4 (execute equipment run.id (some 10)).run brokenOff.2

/-- The second execution is cut short when it has begun the step again. -/
def begunAgain : Program (Except EngineFault RunOutcome) × World :=
  World.takeAlone (surroundings accepted) 4 (stepping steps) secondEntry.2

/-- The second execution hands the job over. -/
def handedAgain : Program (Except EngineFault RunOutcome) × World :=
  World.takeAlone (surroundings accepted) 12 (stepping steps) secondEntry.2

theorem reaches_secondEntry : (execute equipment run.id (some 10)).run.Reaches
    (surroundings accepted).answers brokenOff.2 (stepping steps) secondEntry.2 := by
  rw [← stepping_steps (Int.le_refl 10)]
  exact World.reaches_takeAlone (surroundings accepted) 4 (execute equipment run.id (some 10)).run
    brokenOff.2

/-- The second execution may be cut short after any number of requests. -/
theorem endured_secondEntry (count : Nat) :
    Endured (surroundings accepted).answers equipment world
      (World.takeAlone (surroundings accepted) count (stepping steps) secondEntry.2).2 :=
  .execute (.execute .start (reaches_firstEntry.trans (World.reaches_takeAlone _ 9 _ _)))
    (reaches_secondEntry.trans (World.reaches_takeAlone _ count _ _))

theorem distinguishes_of_second {stepRun : StepRun} (isFirst : stepRun.id = stepId)
    (second : stepRun.attempt = 2) : stepRun.Distinguishes 1 := by
  have zeroth : Digest.attemptKey stepId 0 ≠ Digest.attemptKey stepId 1 := by
    rw [Digest.attemptKey_eq, Digest.attemptKey_eq]
    decide +kernel
  have later : Digest.attemptKey stepId 2 ≠ Digest.attemptKey stepId 1 := by
    rw [Digest.attemptKey_eq, Digest.attemptKey_eq]
    decide +kernel
  intro other earlier different
  rw [second] at earlier
  rw [isFirst]
  obtain rfl | rfl : other = 0 ∨ other = 2 := by omega
  · exact zeroth
  · exact later

/-- The callback of the job that the first execution would have handed over. -/
def lateCallback : Program (Except EngineFault CallbackOutcome) :=
  (completeCallback equipment stepId envelope (some (Digest.attemptKey stepId 1))).run

/-- The job of the second attempt is waited for, and the callback of the first one does nothing. -/
theorem unmoved_handedAgain : ∃ stored,
    handedAgain.2.store.stepRuns.get? stepId = some stored ∧ stored.attempt = 2 ∧ stored.Waits ∧
      stored.Distinguishes 1 ∧
      handedAgain.2.store.Unmoved
        (World.takeAlone (surroundings accepted) 10 lateCallback handedAgain.2).2.store := by
  obtain ⟨stored, held, second, waits⟩ : ∃ stored,
      handedAgain.2.store.stepRuns.get? stepId = some stored ∧ stored.attempt = 2 ∧ stored.Waits :=
    ⟨_, rfl, rfl, rfl, rfl⟩
  have endured : Endured (surroundings accepted).answers equipment world handedAgain.2 :=
    endured_secondEntry 12
  have ownId := (kept_of_endured coherent_store unbegun_world endured).coherent.stepRunIds _ _ held
  have distinguishes := distinguishes_of_second ownId second
  have earlier : 1 < stored.attempt := by rw [second]; decide
  obtain ⟨spurns, leaves, _⟩ := unmoved_of_superseded coherent_store unbegun_world
    endured held earlier distinguishes envelope
  have reaches := World.reaches_takeAlone (surroundings accepted) 10 lateCallback handedAgain.2
  exact ⟨stored, held, second, waits, distinguishes, (leaves (spurns waits) _ _ reaches).1⟩

/-- The second attempt has begun, and the callback of the first one ends it. -/
theorem not_unmoved : ∃ (last : World) (requests : List Request) (outcome : CallbackOutcome)
    (stored ended : StepRun),
    Endured (surroundings accepted).answers equipment world begunAgain.2 ∧
    begunAgain.2.store.stepRuns.get? stepId = some stored ∧ stored.attempt = 2 ∧
    stored.status = .running ∧ stored.Distinguishes 1 ∧
    lateCallback.Runs (surroundings accepted).answers begunAgain.2 requests (some (.ok outcome))
      last ∧
    last.store.stepRuns.get? stepId = some ended ∧ ended.status.isTerminal = true := by
  obtain ⟨stored, held, second, running, isKey⟩ : ∃ stored,
      begunAgain.2.store.stepRuns.get? stepId = some stored ∧ stored.attempt = 2 ∧
        stored.status = .running ∧ stored.output.jobKey? = some (Digest.attemptKey stepId 1) :=
    ⟨_, rfl, rfl, rfl, jobKey?_interimOutput _ _ _ _ _ _⟩
  have endured : Endured (surroundings accepted).answers equipment world begunAgain.2 :=
    endured_secondEntry 4
  have coherent := (kept_of_endured coherent_store unbegun_world endured).coherent
  have ownId := coherent.stepRunIds _ _ held
  have writable : begunAgain.2.store.failingWrites = false := rfl
  have unanswered : begunAgain.2.store.receipts = [] := rfl
  have fresh : isStale stored (Digest.attemptKey stepId 1) = false := by
    rw [isStale, isKey]
    exact bne_self_eq_false _
  obtain ⟨requests, runs⟩ := World.runs_run (surroundings accepted) lateCallback begunAgain.2
  have isOpen : stored.status.isTerminal = false := by rw [running]; rfl
  have new : Digest.attemptKey stepId 1 ∉ begunAgain.2.store.receipts := by
    rw [unanswered]
    exact List.not_mem_nil
  obtain ⟨outcome, ended, succeeds, heldEnded, terminal⟩ :=
    ended_of_completeCallback coherent writable held isOpen fresh new runs
  rw [succeeds] at runs
  exact ⟨_, requests, outcome, stored, ended, endured, held, second, running,
    distinguishes_of_second ownId second, runs, heldEnded, terminal⟩

end Example

end Vetting
