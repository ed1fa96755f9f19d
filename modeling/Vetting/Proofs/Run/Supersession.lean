import Vetting.Proofs.Run.Turns

/-!
Contract: what is left of a step run while several executions take turns.

Owns:
- who is up to date about a step run;
- `Store.Advances`: the record of a step run goes on, and stays once the step has ended;
- as long as only those who are up to date write a step run, its record advances.

Does not own: runs that one operation after another works on.

A store takes a record whoever brings it, so an execution that somebody has overtaken can
put an older attempt, or a step that runs, in the place of what the other one has left.
-/

namespace Vetting

namespace Execution

section Turns

variable {ι : Type}

/-- Since anybody else has changed the step run, one has been told of it. -/
def UpToDate (id : Uuid) (who : ι) (turns : List (Turn ι)) : Prop :=
  ∀ before turn after, turns = before ++ turn :: after → turn.who ≠ who → turn.Changes id →
    ∃ own ∈ after, own.who = who ∧ own.Tells id

/-- After some turns, only those who are up to date write the step run. -/
def Timely (id : Uuid) (earlier later : List (Turn ι)) : Prop :=
  ∀ before turn after, later = before ++ turn :: after → turn.Writes id →
    UpToDate id turn.who (earlier ++ before)

section Decidable

variable [DecidableEq ι]

instance (id : Uuid) (who : ι) (turns : List (Turn ι)) : Decidable (UpToDate id who turns) :=
  inferInstanceAs (Decidable (∀ before turn after, turns = before ++ turn :: after →
    turn.who ≠ who → turn.Changes id → ∃ own ∈ after, own.who = who ∧ own.Tells id))

instance (id : Uuid) (earlier later : List (Turn ι)) : Decidable (Timely id earlier later) :=
  inferInstanceAs (Decidable (∀ before turn after, later = before ++ turn :: after →
    turn.Writes id → UpToDate id turn.who (earlier ++ before)))

end Decidable

theorem UpToDate.since {id : Uuid} {who : ι} {turns : List (Turn ι)} {turn : Turn ι}
    (upToDate : UpToDate id who (turns ++ [turn])) (untold : ¬ (turn.who = who ∧ turn.Tells id)) :
    UpToDate id who turns ∧ ¬ (turn.who ≠ who ∧ turn.Changes id) := by
  obtain ⟨earlier, last⟩ := forall_split_append.mp upToDate
  refine ⟨fun before other after split isOther changes => ?_, fun changed => ?_⟩
  · obtain ⟨own, member, isOwn, tells⟩ := earlier before other after split isOther changes
    rcases List.mem_append.mp member with before | now
    · exact ⟨own, before, isOwn, tells⟩
    · obtain rfl := List.mem_singleton.mp now
      exact absurd ⟨isOwn, tells⟩ untold
  · obtain ⟨own, member, _⟩ := last changed.1 changed.2
    cases member

theorem timely_append {id : Uuid} {earlier later : List (Turn ι)} {turn : Turn ι} :
    Timely id earlier (later ++ [turn]) ↔ Timely id earlier later ∧
      (turn.Writes id → UpToDate id turn.who (earlier ++ later)) :=
  forall_split_append

end Turns

end Execution

/-- The attempt of a step run has not gone back, and if the step had ended, it is as it was. -/
def Store.Advances (id : Uuid) (before after : Store) : Prop :=
  ∀ stepRun, before.stepRuns.get? id = some stepRun → ∃ later,
    after.stepRuns.get? id = some later ∧ stepRun.attempt ≤ later.attempt ∧
      (stepRun.status.isTerminal = true → later = stepRun)

namespace Store.Advances

variable {id : Uuid} {before middle after : Store}

theorem of_eq (same : after.stepRuns.get? id = before.stepRuns.get? id) :
    Advances id before after :=
  fun stepRun held => ⟨stepRun, by rw [same, held], Nat.le_refl _, fun _ => rfl⟩

theorem trans (first : Advances id before middle) (second : Advances id middle after) :
    Advances id before after := by
  intro stepRun held
  obtain ⟨later, heldLater, further, still⟩ := first stepRun held
  obtain ⟨last, heldLast, furthest, stays⟩ := second later heldLater
  refine ⟨last, heldLast, Nat.le_trans further furthest, fun ended => ?_⟩
  obtain rfl := still ended
  exact stays ended

end Store.Advances

namespace Execution

/-- A step run advances by any turn, but for one that writes it without having seen it as it is. -/
theorem Sight.Does.advances {mayAnswer : (request : Request) → request.Answer → Prop}
    {sight : Sight} {before after : Store} {id : Uuid} {notice? : Option Notice}
    (does : sight.Does mayAnswer before notice? after)
    (sees : ∀ stepRun, notice? = some (.written stepRun) → stepRun.id = id →
      sight.shown id = none ∨ sight.shown id = before.stepRuns.get? id) :
    Store.Advances id before after := by
  by_cases changes : ∃ stepRun, notice?.bind Notice.change? = some stepRun ∧ stepRun.id = id
  · obtain ⟨changed, change, rfl⟩ := changes
    intro stepRun held
    refine ⟨changed, does.get?_of_change change, ?_⟩
    cases does with
    | nothing | finds | reads => cases change
    | creates absent =>
      cases change
      rw [absent] at held
      cases held
    | restarts _ _ heldOld _ _ running =>
      cases change
      obtain rfl := Option.some.inj (heldOld.symm.trans held)
      refine ⟨Nat.le_succ _, fun ended => ?_⟩
      rw [running] at ended
      cases ended
    | writes isShown moves _ _ _ =>
      cases change
      have isStored := sight.held_of_shown (sees _ rfl rfl) isShown
      obtain rfl := Option.some.inj (isStored.symm.trans held)
      refine ⟨Nat.le_of_eq moves.attempt.symm, fun ended => ?_⟩
      rw [moves.running] at ended
      cases ended
  · exact .of_eq (does.get?_of_other fun stepRun change same => changes ⟨stepRun, change, same⟩)

/-! ### Taking turns in order -/

section InOrder

variable {ι : Type} {known : Uuid → Prop} {id : Uuid}

/-- Those who are up to date about a step run see it as it is. -/
structure InOrder (known : Uuid → Prop) (id : Uuid) (states : ι → Sight) (turns : List (Turn ι))
    (world : World) : Prop extends Interplay known states world where
  sees : ∀ who, UpToDate id who turns →
    (states who).shown id = none ∨ (states who).shown id = world.store.stepRuns.get? id

theorem InOrder.start {origin : World} (coherent : origin.store.Coherent) :
    InOrder origin.store.HasRun id (fun _ : ι => Sight.blank) [] origin :=
  ⟨.start coherent, fun _ _ => Or.inl rfl⟩

theorem InOrder.withFailing {states : ι → Sight} {turns : List (Turn ι)} {world : World}
    (inOrder : InOrder known id states turns world) (failing : Bool) :
    InOrder known id states turns (world.withFailing failing) :=
  ⟨inOrder.toInterplay.withFailing failing, inOrder.sees⟩

theorem InOrder.turn [DecidableEq ι] {mayAnswer : (request : Request) → request.Answer → Prop}
    {states : ι → Sight} {turns : List (Turn ι)} {world after : World} {who : ι}
    {request : Request} {answer : request.Answer}
    (inOrder : InOrder known id states turns world)
    (may : (states who).May mayAnswer known request)
    (answers : world.Answers mayAnswer request answer after) :
    Credible mayAnswer known request answer ∧
      (states who).Does mayAnswer world.store (request.notice? answer) after.store ∧
      InOrder known id (Function.update states who ((states who).noting (request.notice? answer)))
        (turns ++ [⟨who, request, answer, after⟩]) after := by
  obtain ⟨credible, does, interplay⟩ := inOrder.toInterplay.turn who may answers
  refine ⟨credible, does, interplay, fun other upToDate => ?_⟩
  by_cases told : who = other ∧ Turn.Tells ⟨who, request, answer, after⟩ id
  · obtain ⟨rfl, tells⟩ := told
    obtain ⟨notice, isTold, rfl⟩ := Option.map_eq_some_iff.mp tells
    rw [Function.update_self]
    rw [show request.notice? answer = some notice from isTold] at does ⊢
    rw [(states who).noting_shown, does.get?_told]
    exact Or.inr (if_pos rfl)
  · obtain ⟨before, untouched⟩ := upToDate.since told
    have unchanged : after.store.stepRuns.get? id = world.store.stepRuns.get? id := by
      refine does.get?_of_other fun stepRun change same => ?_
      have changes : Turn.Changes ⟨who, request, answer, after⟩ id :=
        Option.map_eq_some_iff.mpr ⟨stepRun, change, same⟩
      by_cases isOwn : who = other
      · exact told ⟨isOwn, changes.tells⟩
      · exact untouched ⟨isOwn, changes⟩
    have unseen : (Function.update states who
        ((states who).noting (request.notice? answer)) other).shown id =
          (states other).shown id := by
      by_cases isOwn : other = who
      · subst isOwn
        rw [Function.update_self, (states other).noting_shown]
        cases isTold : request.notice? answer with
        | none => rfl
        | some notice =>
          exact if_neg fun same => told ⟨rfl, Option.map_eq_some_iff.mpr ⟨notice, isTold, same⟩⟩
      · rw [Function.update_of_ne isOwn]
    rw [unseen, unchanged]
    exact inOrder.sees other before

end InOrder

end Execution

/-! ### An execution that is overtaken -/

namespace Example

open Execution

/-- Two executions of the run: the second one goes on with what the first one has begun. -/
def contenders : Bool → Program (Except EngineFault RunOutcome) :=
  executions equipment (fun _ => run.id) fun second => if second then some 10 else none

/-- The turns in which both find out that the run is to be carried out. -/
def entering (response : JobResponse) :
    List (Turn Bool) × (Bool → Program (Except EngineFault RunOutcome)) × World :=
  World.takeTurns (surroundings response) (List.replicate 6 false ++ List.replicate 4 true)
    contenders world

theorem interleaves_entering (response : JobResponse) :
    Interleaves (surroundings response).answers contenders world (entering response).1
      (fun _ => stepping steps) (entering response).2.2 := by
  have taken := World.interleaves_takeTurns (surroundings response)
    (List.replicate 6 false ++ List.replicate 4 true) contenders world
  have left : (entering response).2.1 = fun second =>
      stepping ((Run.inOrder (Run.inOrder steps)).filter fun step =>
        (if second then 10 else leastOrder) ≤ step.order) := by
    funext second
    cases second <;> rfl
  have all : (fun second : Bool => stepping ((Run.inOrder (Run.inOrder steps)).filter fun step =>
      (if second then 10 else leastOrder) ≤ step.order)) = fun _ => stepping steps := by
    funext second
    exact stepping_steps (by cases second <;> decide)
  rw [← all, ← left]
  exact taken

/-- The first one begins the step. -/
def beginning : List (Turn Bool) × (Bool → Program (Except EngineFault RunOutcome)) × World :=
  World.takeTurns (surroundings reporting) (List.replicate 8 false) (fun _ => stepping steps)
    (entering reporting).2.2

/-- The second one begins it again, and ends it. -/
def overtaking : List (Turn Bool) × (Bool → Program (Except EngineFault RunOutcome)) × World :=
  World.takeTurns (surroundings reporting) (List.replicate 16 true) beginning.2.1 beginning.2.2

/-- The first one goes on with what it has begun. -/
def overwriting : List (Turn Bool) × (Bool → Program (Except EngineFault RunOutcome)) × World :=
  World.takeTurns (surroundings reporting) [false] overtaking.2.1 overtaking.2.2

theorem interleaves_beginning : Interleaves (surroundings reporting).answers contenders world
    ((entering reporting).1 ++ beginning.1) beginning.2.1 beginning.2.2 :=
  (interleaves_entering reporting).trans (World.interleaves_takeTurns _ _ _ _)

theorem interleaves_overtaking :
    Interleaves (surroundings reporting).answers beginning.2.1 beginning.2.2 overtaking.1
      overtaking.2.1 overtaking.2.2 :=
  World.interleaves_takeTurns _ _ _ _

end Example

end Vetting
