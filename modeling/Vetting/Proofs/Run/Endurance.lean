import Vetting.Proofs.Run.Turns

/-!
Contract: operations one after the other, each of which may be cut short.

Owns:
- `Endured`: executions, callbacks and cancellations, each of which gets as far as it gets,
  while writes may begin and cease to fail;
- `Store.Tokened`: which attempts the tokens in the outputs of step runs belong to;
- that every step run that waits for a job has the token of its attempt, whatever has been
  endured.

Does not own: what comes of a callback (`Vetting.Proofs.Run.Staleness`).

An execution may go on from any order at all, and a callback may come for any step run.
-/

namespace Vetting

open Execution

/-- Operations one after the other, each of which may be cut short. -/
inductive Endured (mayAnswer : (request : Request) → request.Answer → Prop) (equipment : Equipment)
    (origin : World) : World → Prop
  | start : Endured mayAnswer equipment origin origin
  | execute {world after : World} {runId : Uuid} {resumeFrom : Option Int}
      {rest : Program (Except EngineFault RunOutcome)}
      (endured : Endured mayAnswer equipment origin world)
      (reaches : (Execution.execute equipment runId resumeFrom).run.Reaches mayAnswer world rest after) :
    Endured mayAnswer equipment origin after
  | callback {world after : World} {stepRunId : Uuid} {envelope : Envelope} {key? : Option String}
      {rest : Program (Except EngineFault CallbackOutcome)}
      (endured : Endured mayAnswer equipment origin world)
      (reaches : (completeCallback equipment stepRunId envelope key?).run.Reaches mayAnswer world rest
        after) :
    Endured mayAnswer equipment origin after
  | cancel {world after : World} {runId : Uuid} {rest : Program (Except EngineFault RunOutcome)}
      (endured : Endured mayAnswer equipment origin world)
      (reaches : (Execution.cancel runId).run.Reaches mayAnswer world rest after) :
    Endured mayAnswer equipment origin after

/-- The token of a step run is that of its attempt or of an earlier one. -/
def StepRun.Dated (stepRun : StepRun) : Prop :=
  ∀ key, stepRun.output.jobKey? = some key →
    ∃ attempt ≤ stepRun.attempt, key = Digest.attemptKey stepRun.id attempt

/-- What waits for a job has the token of its attempt. -/
def StepRun.Current (stepRun : StepRun) : Prop :=
  stepRun.Waits →
    stepRun.output.jobKey? = some (Digest.attemptKey stepRun.id stepRun.attempt)

/-- The tokens of step runs are those of attempts, and of the last one if a job is waited for. -/
def Store.Tokened (store : Store) : Prop :=
  ∀ id stepRun, store.stepRuns.get? id = some stepRun → stepRun.Dated ∧ stepRun.Current

theorem StepRun.dated_of_empty {stepRun : StepRun} (empty : stepRun.output = .empty) :
    stepRun.Dated ∧ stepRun.Current := by
  refine ⟨fun key isKey => ?_, fun waits => ?_⟩
  · rw [empty] at isKey
    cases isKey
  · rw [Waits, awaitsJob, empty] at waits
    exact nomatch waits.2

/-- Beginning a step again takes the token of an earlier attempt along, unless there is none. -/
theorem StepRun.Dated.restarted {stepRun : StepRun} (dated : stepRun.Dated)
    (pending : stepRun.awaitsJob = false) (now : Timestamp) :
    (Execution.restarted stepRun now).Dated ∧ (Execution.restarted stepRun now).Current := by
  refine ⟨fun key isKey => ?_, fun waits => ?_⟩
  · obtain ⟨attempt, earlier, same⟩ := dated key isKey
    exact ⟨attempt, Nat.le_succ_of_le earlier, same⟩
  · exact absurd waits.2 (by rw [← Bool.not_eq_true] at pending; exact pending)

theorem StepRun.Dated.moves {before after : StepRun} (dated : before.Dated)
    (moves : before.Moves after) : after.Dated ∧ after.Current := by
  refine ⟨fun key isKey => ?_, fun waits => ?_⟩
  · rw [moves.id, moves.attempt]
    rcases moves.retains key isKey with kept | rfl
    · exact dated key kept
    · exact ⟨_, Nat.le_refl _, rfl⟩
  · rw [moves.id, moves.attempt]
    exact moves.handed waits.1

section Turns

variable {mayAnswer : (request : Request) → request.Answer → Prop} {known : Uuid → Prop}
  {sight : Sight} {before after : Store} {notice? : Option Notice}

/-- A program that sees every step run as it is leaves the tokens as they should be. -/
theorem Execution.Sight.Does.tokened (does : sight.Does mayAnswer before notice? after)
    (tokened : before.Tokened)
    (sees : ∀ id, sight.shown id = none ∨ sight.shown id = before.stepRuns.get? id)
    (found : ∀ seen, sight.found? = some seen → sight.shown seen.id = some seen) :
    after.Tokened := by
  intro id stepRun held
  by_cases changes : ∃ changed, notice?.bind Notice.change? = some changed ∧ changed.id = id
  · obtain ⟨changed, change, rfl⟩ := changes
    obtain rfl := Option.some.inj ((does.get?_of_change change).symm.trans held)
    cases does with
    | nothing | finds | reads => cases change
    | creates _ _ empty =>
      cases change
      exact StepRun.dated_of_empty empty
    | restarts isFound pending heldOld sameId =>
      cases change
      have isStored := sight.held_of_shown (sees _) (found _ isFound)
      obtain rfl := Option.some.inj (heldOld.symm.trans (sameId ▸ isStored))
      exact (tokened _ _ heldOld).1.restarted pending _
    | writes isShown moves =>
      cases change
      rw [moves.id] at isShown
      exact (tokened _ _ (sight.held_of_shown (sees _) isShown)).1.moves moves
  · rw [does.get?_of_other fun changed change same => changes ⟨changed, change, same⟩] at held
    exact tokened id stepRun held

end Turns

/-! ### Operations -/

/-- The tables agree, the one who is at work sees every step run as it is, and the tokens are as they
should be. -/
structure Execution.Minded (known : Uuid → Prop) (sight : Sight) (world : World) : Prop extends
    Interplay known (fun _ : Unit => sight) world where
  sees : ∀ id, sight.shown id = none ∨ sight.shown id = world.store.stepRuns.get? id
  tokened : world.store.Tokened

section Operations

variable {mayAnswer : (request : Request) → request.Answer → Prop} {known : Uuid → Prop}
  {sight : Sight} {world after : World}

theorem Execution.Minded.turn {request : Request} {answer : request.Answer}
    (minded : Minded known sight world) (may : sight.May mayAnswer known request)
    (answers : world.Answers mayAnswer request answer after) :
    Credible mayAnswer known request answer ∧
      Minded known (sight.noting (request.notice? answer)) after := by
  obtain ⟨credible, does, interplay⟩ := minded.toInterplay.turn () may answers
  have borneOut := minded.borneOut ()
  refine ⟨credible, ⟨interplay.coherent, fun _ => ?_⟩, fun id => ?_,
    does.tokened minded.tokened minded.sees borneOut.found⟩
  · have noted := interplay.borneOut ()
    rwa [Function.update_self] at noted
  · exact does.sees (minded.sees id)

theorem Execution.Minded.withFailing (minded : Minded known sight world) (failing : Bool) :
    Minded known sight (world.withFailing failing) :=
  ⟨minded.toInterplay.withFailing failing, minded.sees, minded.tokened⟩

/-- A world between operations. -/
structure Execution.World.Kept (world : World) : Prop where
  coherent : world.store.Coherent
  tokened : world.store.Tokened

/-- As far as a program gets that keeps step runs in order, the world stays kept. -/
theorem Execution.World.Kept.reaches {α : Type} {program rest : Program α}
    {aim : α → Sight → Prop} (kept : world.Kept)
    (heeds : program.Heeds (recordkeeping mayAnswer world.store.HasRun) .blank aim)
    (reaches : program.Reaches mayAnswer world rest after) : after.Kept := by
  obtain ⟨sight, minded, _⟩ := reaches.heeded heeds (Minded world.store.HasRun)
    ⟨.start kept.coherent, fun _ => Or.inl rfl, kept.tokened⟩
    (fun _ _ _ _ _ minded may answers =>
      have turned := minded.turn may answers
      ⟨_, ⟨turned.1, rfl⟩, turned.2⟩)
    fun _ _ failing minded => minded.withFailing failing
  exact ⟨minded.coherent, minded.tokened⟩

/-- Whatever has been endured since nothing had begun, a world is kept. -/
theorem kept_of_endured {equipment : Equipment} {origin : World}
    (coherent : origin.store.Coherent) (unbegun : ∀ id, origin.store.stepRuns.get? id = none)
    (endured : Endured mayAnswer equipment origin world) : world.Kept := by
  induction endured with
  | start =>
    refine ⟨coherent, fun id stepRun held => ?_⟩
    rw [unbegun] at held
    cases held
  | execute _ reaches kept => exact kept.reaches (heeds_execute _ _ _) reaches
  | callback _ reaches kept =>
    exact kept.reaches (heeds_completeCallback _ _ _ _ fun handed => handed.elim) reaches
  | cancel _ reaches kept => exact kept.reaches (heeds_cancel _) reaches

end Operations

end Vetting
