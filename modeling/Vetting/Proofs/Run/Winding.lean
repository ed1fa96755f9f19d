import Vetting.Proofs.Run.OneWay
import Vetting.Proofs.Run.Polling

/-!
Contract: what executions still do once somebody has asked to cancel their run.

Owns:
- that a wish to cancel a run stays with it, whatever is asked of the store;
- the permit of one program along the turns of all, and what that leaves it to do while no poll
  lets it go on;
- `WindsDown`: what an execution still does after the wish has been written, however many
  invocations take turns.

Does not own: that executions poll before each step (`Vetting.Proofs.Run.Polling`).

Reading the wish and acquiring a step run are two turns.  So an execution that has been let go
on before the wish was written still acquires one step run.
-/

namespace Vetting

open Execution

/-! ### The wish in the store -/

/-- The run keeps its identifier, and the wish to cancel it if there is one. -/
structure Run.Carries (run later : Run) : Prop where
  id : later.id = run.id
  wish : run.cancelRequested = true → later.cancelRequested = true

theorem Run.Carries.refl (run : Run) : run.Carries run := ⟨rfl, fun wished => wished⟩

namespace Store

variable {store : Store} {runId : Uuid} {later : Run}

/-- A record of a run is as it was, and then the run was not changed, or it has been changed. -/
private theorem kept_or_changed {id : Uuid} (change : Run → Option Run)
    {result : Except EngineFault Bool × Store}
    (opened : result = match store.runs.get? id with
      | none => (.error (.runNotFound id), store)
      | some run => match change run with
        | none => (.ok false, store)
        | some changed => (.ok true, { store with runs := store.runs.set id changed }))
    (held : result.2.runs.get? runId = some later) :
    (store.runs.get? runId = some later ∧ (id = runId → result.1 ≠ .ok true)) ∨
      ∃ run, store.runs.get? runId = some run ∧ change run = some later := by
  rcases changed_cases opened with ⟨same, undone⟩ | ⟨run, changed, isThere, made, rfl⟩
  · rw [same] at held
    exact .inl ⟨held, fun _ => undone⟩
  · rcases Table.get?_set_cases held with ⟨rfl, rfl⟩ | ⟨other, unchanged⟩
    · exact .inr ⟨run, isThere, made⟩
    · exact .inl ⟨unchanged, fun same => absurd same other⟩

/-- Whatever is asked of a store, runs are there under the identifiers that they had, and with the
wishes. -/
theorem carries_answer (request : StoreRequest)
    (held : (store.answer request).2.runs.get? runId = some later) :
    ∃ run, store.runs.get? runId = some run ∧ run.Carries later ∧
      (request = .flagCancel runId → later.cancelRequested = true) := by
  have untouched : (store.answer request).2.runs = store.runs → request ≠ .flagCancel runId →
      ∃ run, store.runs.get? runId = some run ∧ run.Carries later ∧
        (request = .flagCancel runId → later.cancelRequested = true) := by
    intro same other
    rw [same] at held
    exact ⟨later, held, .refl later, fun no => absurd no other⟩
  cases request with
  | startRun id now =>
    rcases kept_or_changed (fun run =>
        if run.status = .pending then some { run with status := .running, startedAt := some now }
        else none) rfl held with ⟨kept, _⟩ | ⟨run, isThere, made⟩
    · exact ⟨later, kept, .refl later, by simp⟩
    · refine ⟨run, isThere, ?_, by simp⟩
      split at made <;> cases made
      exact ⟨rfl, fun wished => wished⟩
  | closeRun id status error now =>
    cases failing : store.failingWrites with
    | true =>
      refine untouched ?_ (by simp)
      simp only [answer, closeRun, failing, if_true]
    | false =>
      have works : store.answer (.closeRun id status error now) = _ := if_neg (by simp [failing])
      rcases kept_or_changed (fun run =>
          if run.status.isTerminal then none
          else some { run with status, error, endedAt := some now }) works held with
        ⟨kept, _⟩ | ⟨run, isThere, made⟩
      · exact ⟨later, kept, .refl later, by simp⟩
      · refine ⟨run, isThere, ?_, by simp⟩
        split at made <;> cases made
        exact ⟨rfl, fun wished => wished⟩
  | saveSummary id summary =>
    rcases kept_or_changed (fun run => some (run.summarized summary)) rfl held with
      ⟨kept, _⟩ | ⟨run, isThere, made⟩
    · exact ⟨later, kept, .refl later, by simp⟩
    · cases made
      exact ⟨run, isThere, ⟨rfl, fun wished => wished⟩, by simp⟩
  | flagCancel id =>
    rcases kept_or_changed (fun run => some run.flagged) rfl held with
      ⟨kept, undone⟩ | ⟨run, isThere, made⟩
    · refine ⟨later, kept, .refl later, ?_⟩
      rintro ⟨⟩
      exact absurd (by rw [kept]) (undone rfl)
    · cases made
      exact ⟨run, isThere, ⟨rfl, fun _ => rfl⟩, fun _ => rfl⟩
  | submission id =>
    refine untouched ?_ (by simp)
    cases isThere : store.submissions.get? id <;> simp only [answer, isThere]
  | run | cancelFlag | stepRun | stepRuns | findings | runFindings | releaseCallback =>
    exact untouched rfl (by simp)
  | acquire runId step now =>
    refine untouched ?_ (by simp)
    simp only [answer, acquire]
    split <;> rfl
  | restart id attempt now =>
    refine untouched ?_ (by simp)
    simp only [answer, restart]
    split
    · rfl
    · split <;> rfl
  | updateStepRun stepRun =>
    refine untouched ?_ (by simp)
    simp only [answer, updateStepRun]
    split
    · rfl
    · split <;> rfl
  | replaceFindings id findings | appendFindings id findings =>
    refine untouched ?_ (by simp)
    simp only [answer, appendFindings, replaceFindings]
    split <;> rfl
  | recordCallback key id now =>
    refine untouched ?_ (by simp)
    simp only [answer, recordCallback]
    split <;> rfl

end Store

namespace Execution

/-- Somebody has asked to cancel the run, if it is there. -/
def World.Wishes (runId : Uuid) (world : World) : Prop :=
  ∀ run, world.store.runs.get? runId = some run → run.cancelRequested = true

section Wishes

variable {mayAnswer : (request : Request) → request.Answer → Prop} {world after : World}
  {request : Request} {answer : request.Answer} {runId : Uuid}

theorem World.Answers.carries (answers : world.Answers mayAnswer request answer after) {later : Run}
    (held : after.store.runs.get? runId = some later) :
    ∃ run, world.store.runs.get? runId = some run ∧ run.Carries later ∧
      (request = .store (.flagCancel runId) → later.cancelRequested = true) := by
  cases request with
  | store request =>
    obtain ⟨rfl, rfl⟩ := answers
    obtain ⟨run, isThere, carries, flags⟩ := Store.carries_answer request held
    exact ⟨run, isThere, carries, fun same => flags (Request.store.inj same)⟩
  | log | stamp | validate | act | backendAvailable | launch =>
    obtain ⟨_, rfl⟩ := answers
    exact ⟨later, held, .refl later, by simp⟩

/-- Once somebody has asked to cancel a run, nobody is told to go on with it. -/
theorem World.Wishes.refuses (wishes : world.Wishes runId)
    (answers : world.Answers mayAnswer request answer after) : ¬ request.Admits runId answer := by
  intro admits
  unfold Request.Admits at admits
  split at admits
  · subst admits
    rename_i id
    obtain ⟨isAnswer, _⟩ := answers
    cases held : world.store.runs.get? id with
    | none => simp [Store.answer, Store.run, held, Except.map] at isAnswer
    | some run => simp [Store.answer, Store.run, held, Except.map, wishes run held] at isAnswer
  · exact admits

/-- A store gives out runs under the identifiers under which it has filed them. -/
theorem World.Answers.names (answers : world.Answers mayAnswer request answer after)
    (filed : ∀ id run, world.store.runs.get? id = some run → run.id = id) :
    request.Names answer := by
  cases request with
  | store request =>
    cases request with
    | run id =>
      obtain ⟨rfl, _⟩ := answers
      cases held : world.store.runs.get? id with
      | none => simp [Store.answer, Store.run, held, Request.Names]
      | some run => simpa [Store.answer, Store.run, held, Request.Names] using filed id run held
    | _ => trivial
  | _ => trivial

theorem World.Wishes.turn (answers : world.Answers mayAnswer request answer after)
    (wishes : world.Wishes runId ∨ request = .store (.flagCancel runId)) :
    after.Wishes runId := by
  intro later held
  obtain ⟨run, isThere, carries, flags⟩ := answers.carries held
  exact wishes.elim (fun wishes => carries.wish (wishes run isThere)) flags

end Wishes

/-! ### The permit along the turns -/

section Permits

variable {ι : Type} [DecidableEq ι] {runId : Uuid} {who : ι} {permit : Permit} {role : Role}
  {turn : Turn ι} {turns before after : List (Turn ι)}

/-- The permit of one program after a turn of anybody. -/
def Permit.past (who : ι) (permit : Permit) (turn : Turn ι) : Permit :=
  if turn.who = who then permit.noting turn.request turn.answer else permit

def Permit.pastAll (who : ι) (permit : Permit) (turns : List (Turn ι)) : Permit :=
  turns.foldl (Permit.past who) permit

/-- In each of its turns a program asks for what its permit lets it ask for. -/
def Permit.Abides (runId : Uuid) (who : ι) : Permit → List (Turn ι) → Prop
  | _, [] => True
  | permit, turn :: rest =>
    (turn.who = who → permit.May runId turn.request) ∧ Abides runId who (permit.past who turn) rest

theorem Permit.abides_append : permit.Abides runId who (before ++ after) ↔
    permit.Abides runId who before ∧ (permit.pastAll who before).Abides runId who after := by
  induction before generalizing permit with
  | nil => simp [Permit.Abides, Permit.pastAll]
  | cons turn rest inductionHypothesis =>
    simp only [List.cons_append, Permit.Abides, inductionHypothesis, and_assoc]
    rfl

theorem Permit.pastAll_append (permit : Permit) (before after : List (Turn ι)) :
    permit.pastAll who (before ++ after) = (permit.pastAll who before).pastAll who after :=
  List.foldl_append

/-- In none of these turns is the one told to go on. -/
def Refused (runId : Uuid) (who : ι) (turns : List (Turn ι)) : Prop :=
  ∀ turn ∈ turns, turn.who = who → ¬ turn.request.Admits runId turn.answer

omit [DecidableEq ι] in
theorem Refused.cons (refused : Refused runId who (turn :: turns)) :
    (turn.who = who → ¬ turn.request.Admits runId turn.answer) ∧ Refused runId who turns :=
  ⟨refused turn List.mem_cons_self,
    fun other member => refused other (List.mem_cons_of_mem _ member)⟩

/-- Who has not been let go on, and is not, does nothing of a step. -/
theorem Permit.Abides.barred (abides : Permit.Abides runId who .barred turns)
    (refused : Refused runId who turns) :
    Permit.pastAll who .barred turns = .barred ∧
      ∀ turn ∈ turns, turn.who = who → turn.request.role.isWork = false := by
  induction turns with
  | nil => exact ⟨rfl, by simp⟩
  | cons turn rest inductionHypothesis =>
    obtain ⟨refusedHere, refusedLater⟩ := refused.cons
    have still : Permit.past who .barred turn = .barred := by
      by_cases own : turn.who = who
      · exact (if_pos own).trans ((abides.1 own).barred (refusedHere own)).1
      · exact if_neg own
    have later := abides.2
    rw [still] at later
    obtain ⟨isBarred, idle⟩ := inductionHypothesis later refusedLater
    refine ⟨?_, fun other member own => ?_⟩
    · rw [Permit.pastAll, List.foldl_cons, still]
      exact isBarred
    · rcases List.mem_cons.mp member with rfl | member
      · exact ((abides.1 own).barred (refusedHere own)).2
      · exact idle other member own

/-- While no poll lets it go on, a program begins steps at most as often as it has been allowed. -/
theorem Permit.Abides.credit (abides : permit.Abides runId who turns)
    (refused : Refused runId who turns) (begins : role = .acquisition ∨ role = .restart) :
    (permit.pastAll who turns).credit role +
        turns.countP (fun turn => turn.who = who ∧ turn.request.role = role) ≤
      permit.credit role := by
  induction turns generalizing permit with
  | nil => exact Nat.le_refl _
  | cons turn rest inductionHypothesis =>
    obtain ⟨refusedHere, refusedLater⟩ := refused.cons
    have later := inductionHypothesis abides.2 refusedLater
    have here : (permit.past who turn).credit role +
        (if turn.who = who ∧ turn.request.role = role then 1 else 0) ≤ permit.credit role := by
      by_cases own : turn.who = who
      · simpa [Permit.past, own] using (abides.1 own).credit (refusedHere own) begins
      · simp [Permit.past, own]
    rw [List.countP_cons]
    simp only [decide_eq_true_eq]
    have along : permit.pastAll who (turn :: rest) = (permit.past who turn).pastAll who rest := rfl
    rw [along]
    omega

/-- The last poll has let the one go on, who has begun nothing since then that it still may. -/
def LetGoOn (runId : Uuid) (who : ι) (permit : Permit) (turns : List (Turn ι)) : Prop :=
  ∃ before poll after, turns = before ++ poll :: after ∧ poll.who = who ∧
    poll.request.Admits runId poll.answer ∧
    ∀ turn ∈ after, turn.who = who → turn.request.role ≠ .poll runId ∧
      ∀ role, role = .acquisition ∨ role = .restart → 0 < permit.credit role →
        turn.request.role ≠ role

omit [DecidableEq ι] in
/-- Whoever has been let go on still is after a turn that is no poll and uses nothing up. -/
theorem LetGoOn.append {later : Permit} (letGoOn : LetGoOn runId who permit turns)
    (unpolled : turn.who = who → turn.request.role ≠ .poll runId)
    (credit : ∀ role, role = .acquisition ∨ role = .restart → 0 < later.credit role →
      0 < permit.credit role ∧ (turn.who = who → turn.request.role ≠ role)) :
    LetGoOn runId who later (turns ++ [turn]) := by
  obtain ⟨before, poll, after, rfl, isOwn, admits, since⟩ := letGoOn
  refine ⟨before, poll, after ++ [turn], by simp, isOwn, admits, fun other member own => ?_⟩
  rcases List.mem_append.mp member with earlier | last
  · refine ⟨(since other earlier own).1, fun role begins positive => ?_⟩
    exact (since other earlier own).2 role begins (credit role begins positive).1
  · obtain rfl := List.mem_singleton.mp last
    exact ⟨unpolled own, fun role begins positive => (credit role begins positive).2 own⟩

/-- Who may do anything of a step has been let go on by its last poll. -/
theorem Permit.Abides.letGoOn (abides : Permit.Abides runId who .barred turns)
    (unbarred : Permit.pastAll who .barred turns ≠ .barred) :
    LetGoOn runId who (Permit.pastAll who .barred turns) turns := by
  induction turns using List.reverseRecOn with
  | nil => exact absurd rfl unbarred
  | append_singleton turns turn inductionHypothesis =>
    obtain ⟨earlier, mayLast, _⟩ := Permit.abides_append.mp abides
    have isPast : Permit.pastAll who .barred (turns ++ [turn]) =
        (Permit.pastAll who .barred turns).past who turn := Permit.pastAll_append _ _ _
    rw [isPast] at unbarred ⊢
    by_cases own : turn.who = who
    · rw [Permit.past, if_pos own] at unbarred ⊢
      by_cases admits : turn.request.Admits runId turn.answer
      · exact ⟨turns, turn, [], rfl, own, admits, by simp⟩
      · have may := mayLast own
        have unbarredBefore : Permit.pastAll who .barred turns ≠ .barred := by
          intro isBarred
          rw [isBarred] at may unbarred
          exact unbarred (may.barred admits).1
        refine (inductionHypothesis earlier unbarredBefore).append
          (fun _ polls => unbarred (Permit.noting_poll polls admits)) fun role begins positive => ?_
        have uses := may.credit admits begins
        have most := Permit.credit_le_one role (Permit.pastAll who .barred turns)
        exact ⟨by omega, fun _ same => by rw [if_pos same] at uses; omega⟩
    · rw [Permit.past, if_neg own] at unbarred ⊢
      exact (inductionHypothesis earlier unbarred).append (fun is => absurd is own)
        fun _ _ positive => ⟨positive, fun is => absurd is own⟩

end Permits

/-! ### After the wish -/

/-- What one who executes a run does in the turns before and after somebody writes the wish to
cancel it. -/
structure WindsDown {ι : Type} [DecidableEq ι] (runId : Uuid) (who : ι)
    (before after : List (Turn ι)) : Prop where
  /-- From its next poll on it begins no step and carries none out. -/
  stops : ∀ earlier poll later, after = earlier ++ poll :: later → poll.who = who →
    poll.request.role = .poll runId →
    ∀ turn ∈ later, turn.who = who → turn.request.role.isWork = false
  acquiresOnce :
    after.countP (fun turn => turn.who = who ∧ turn.request.role = .acquisition) ≤ 1
  restartsOnce : after.countP (fun turn => turn.who = who ∧ turn.request.role = .restart) ≤ 1
  /-- What it still does of a step its last poll before the wish has allowed, and it has not used
  that up before the wish. -/
  letGoOn : ∀ turn ∈ after, turn.who = who → turn.request.role.isWork = true →
    ∃ first poll last, before = first ++ poll :: last ∧ poll.who = who ∧
      poll.request.Admits runId poll.answer ∧
      ∀ other ∈ last, other.who = who → other.request.role ≠ .poll runId ∧
        (turn.request.role = .acquisition ∨ turn.request.role = .restart →
          other.request.role ≠ turn.request.role)

section Winding

variable {ι : Type} [DecidableEq ι] {runId : Uuid} {who : ι} {before after : List (Turn ι)}
  {flag : Turn ι}

/-- A program that polls before each step winds down if no poll after the wish lets it go on. -/
theorem Permit.Abides.windsDown
    (abides : Permit.Abides runId who .barred (before ++ flag :: after))
    (flags : flag.request = .store (.flagCancel runId)) (refused : Refused runId who after) :
    WindsDown runId who before after := by
  obtain ⟨abidesBefore, _, abidesAfter⟩ := Permit.abides_append.mp abides
  have sameFlag : (Permit.pastAll who .barred before).past who flag =
      Permit.pastAll who .barred before := by
    have aside : flag.request.role = .aside := by rw [flags]; rfl
    by_cases own : flag.who = who
    · exact (if_pos own).trans (Permit.noting_of_role _ (.inl aside) _)
    · exact if_neg own
  rw [sameFlag] at abidesAfter
  have most := fun role => Permit.credit_le_one role (Permit.pastAll who .barred before)
  refine ⟨?_, ?_, ?_, ?_⟩
  · rintro earlier poll later rfl isOwn polls
    obtain ⟨_, _, abidesLater⟩ := Permit.abides_append.mp abidesAfter
    have bars : ((Permit.pastAll who .barred before).pastAll who earlier).past who poll = .barred :=
      (if_pos isOwn).trans (Permit.noting_poll polls (refused poll (by simp) isOwn))
    rw [bars] at abidesLater
    exact (abidesLater.barred fun turn member => refused turn (by simp [member])).2
  · have uses := abidesAfter.credit refused (.inl rfl)
    have one := most .acquisition
    omega
  · have uses := abidesAfter.credit refused (.inr rfl)
    have one := most .restart
    omega
  · intro turn member isOwn works
    obtain ⟨earlier, later, rfl⟩ := List.append_of_mem member
    obtain ⟨abidesEarlier, mayTurn, _⟩ := Permit.abides_append.mp abidesAfter
    have refusedEarlier : Refused runId who earlier :=
      fun other member => refused other (by simp [member])
    have may := mayTurn isOwn
    have unbarred : Permit.pastAll who .barred before ≠ .barred := by
      intro isBarred
      rw [isBarred] at abidesAfter
      have idle := (abidesAfter.barred refused).2 turn member isOwn
      rw [works] at idle
      cases idle
    obtain ⟨first, poll, last, split, pollOwn, admits, since⟩ := abidesBefore.letGoOn unbarred
    refine ⟨first, poll, last, split, pollOwn, admits, fun other member own => ?_⟩
    refine ⟨(since other member own).1, fun begins => (since other member own).2 _ begins ?_⟩
    have uses := abidesEarlier.credit refusedEarlier begins
    have allowed := may.credit_pos begins
    omega

/-- Whoever invokes something else than an execution begins no step. -/
theorem Request.concern_of_role {request : Request}
    (begins : request.role = .acquisition ∨ request.role = .restart) :
    request.concern ∉ steering := by
  cases request with
  | store request =>
    cases request with
    | acquire | restart => simp [Request.concern, steering, settling]
    | _ => simp [Request.role] at begins
  | _ => simp [Request.role] at begins

end Winding

section Invocations

variable {ι : Type} [DecidableEq ι] {mayAnswer : (request : Request) → request.Answer → Prop}
  {equipment : Equipment} {invocations : ι → Invocation} {origin world : World}
  {turns : List (Turn ι)} {rest : ι → Program Unit}

/-- What holds after every turn for one who executes a run. -/
structure Attentive (runId : Uuid) (who : ι) (permit : Permit) (turns : List (Turn ι))
    (world : World) : Prop where
  filed : ∀ id run, world.store.runs.get? id = some run → run.id = id
  abides : Permit.Abides runId who .barred turns
  isPermit : Permit.pastAll who .barred turns = permit
  wishes : (∃ turn ∈ turns, turn.request = .store (.flagCancel runId)) → world.Wishes runId
  refused : ∀ before flag after, turns = before ++ flag :: after →
    flag.request = .store (.flagCancel runId) → Refused runId who after

theorem Attentive.start {runId : Uuid} {who : ι}
    (filed : ∀ id run, origin.store.runs.get? id = some run → run.id = id) :
    Attentive runId who .barred [] origin where
  filed := filed
  abides := trivial
  isPermit := rfl
  wishes := by simp
  refused := by simp

theorem Attentive.withFailing {runId : Uuid} {who : ι} {permit : Permit}
    (attentive : Attentive runId who permit turns world) (failing : Bool) :
    Attentive runId who permit turns (world.withFailing failing) :=
  ⟨attentive.filed, attentive.abides, attentive.isPermit, attentive.wishes, attentive.refused⟩

theorem Attentive.turn {runId : Uuid} {who one : ι} {permit : Permit} {request : Request}
    {answer : request.Answer} {after : World} (attentive : Attentive runId who permit turns world)
    (may : one = who → permit.May runId request)
    (answers : world.Answers mayAnswer request answer after) :
    Attentive runId who (permit.past who ⟨one, request, answer, after⟩)
      (turns ++ [⟨one, request, answer, after⟩]) after where
  filed := by
    intro id later held
    obtain ⟨run, isThere, carries, _⟩ := answers.carries held
    exact carries.id.trans (attentive.filed id run isThere)
  abides := by
    rw [Permit.abides_append, attentive.isPermit]
    exact ⟨attentive.abides, may, trivial⟩
  isPermit := by
    rw [Permit.pastAll_append, attentive.isPermit]
    rfl
  wishes := by
    rintro ⟨flag, member, flags⟩
    rcases List.mem_append.mp member with earlier | last
    · exact World.Wishes.turn answers (.inl (attentive.wishes ⟨flag, earlier, flags⟩))
    · obtain rfl := List.mem_singleton.mp last
      exact World.Wishes.turn answers (.inr flags)
  refused := by
    refine forall_split_append.mpr ⟨?_, fun _ => by simp [Refused]⟩
    rintro earlier flag later rfl flags turn member own
    rcases List.mem_append.mp member with before | last
    · exact attentive.refused earlier flag later rfl flags turn before own
    · obtain rfl := List.mem_singleton.mp last
      exact (attentive.wishes ⟨flag, by simp, flags⟩).refuses answers

theorem attentive_of_interleaves {who : ι} {runId : Uuid} {resumeFrom : Option Int}
    (filed : ∀ id run, origin.store.runs.get? id = some run → run.id = id)
    (executes : invocations who = .execute runId resumeFrom)
    (interleaves : Interleaves mayAnswer (fun who => (invocations who).program equipment) origin
      turns rest world) :
    ∃ permit, Attentive runId who permit turns world := by
  have heeds : ((invocations who).program equipment).Heeds (polling runId) .barred
      fun _ _ => True := by
    rw [executes]
    exact (polling_execute equipment runId resumeFrom).forgetful
  obtain ⟨permit, attentive, _⟩ := interleaves.heededBy heeds (Attentive runId who) (.start filed)
    (fun permit turns world request answer after attentive may answers => by
      have next := attentive.turn (fun _ : who = who => may) answers
      rw [Permit.past, if_pos rfl] at next
      exact ⟨_, ⟨answers.names attentive.filed, rfl⟩, next⟩)
    (fun permit turns world other request answer after different attentive answers => by
      have next := attentive.turn (fun same => absurd same different) answers
      rwa [Permit.past, if_neg different] at next)
    fun _ _ _ failing attentive => attentive.withFailing failing
  exact ⟨permit, attentive⟩

/-- Only executions begin steps. -/
theorem executes_of_begins
    (interleaves : Interleaves mayAnswer (fun who => (invocations who).program equipment) origin
      turns rest world) {turn : Turn ι} (member : turn ∈ turns)
    (begins : turn.request.role = .acquisition ∨ turn.request.role = .restart) :
    ∃ runId resumeFrom, invocations turn.who = .execute runId resumeFrom := by
  have steers : ∀ {α : Type} {job : Job α}, Asks steering job →
      (invocations turn.who).program equipment = job.run.forgetful →
      turn.request.concern ∈ steering := by
    intro α job asks isJob
    have heeds : ((invocations turn.who).program equipment).Heeds
        (allowing fun request => request.concern ∈ steering) () fun _ _ => True := by
      rw [isJob]
      exact Program.Heeds.forgetful asks
    obtain ⟨_, steered, _⟩ := interleaves.heededBy heeds
      (fun _ taken _ => ∀ other ∈ taken, other.who = turn.who → other.request.concern ∈ steering)
      (by simp)
      (fun _ taken world request answer after steered may _ => by
        have steersNow : request.concern ∈ steering := may
        refine ⟨(), trivial, ?_⟩
        simpa [or_imp, forall_and] using And.intro steered steersNow)
      (fun _ taken world other request answer after different steered _ => by
        simpa [or_imp, forall_and, different] using steered)
      fun _ _ _ _ steered => steered
    exact steered turn member rfl
  cases isInvocation : invocations turn.who with
  | execute runId resumeFrom => exact ⟨runId, resumeFrom, rfl⟩
  | callback stepRunId envelope key? =>
    have steered := steers (asks_completeCallback equipment stepRunId envelope key?)
      (by rw [isInvocation]; rfl)
    exact absurd steered (Request.concern_of_role begins)
  | cancel runId =>
    have steered := steers (asks_cancel runId) (by rw [isInvocation]; rfl)
    exact absurd steered (Request.concern_of_role begins)

/-- However many invocations take turns: once the wish to cancel a run has been written, those who
execute it wind down.  Nobody else begins steps, and carrying a step out is work. -/
theorem windsDown_of_interleaves
    (filed : ∀ id run, origin.store.runs.get? id = some run → run.id = id)
    (interleaves : Interleaves mayAnswer (fun who => (invocations who).program equipment) origin
      turns rest world) :
    (∀ who runId resumeFrom, invocations who = .execute runId resumeFrom →
      ∀ before flag after, turns = before ++ flag :: after →
        flag.request = .store (.flagCancel runId) → WindsDown runId who before after) ∧
    (∀ turn ∈ turns, turn.request.role = .acquisition ∨ turn.request.role = .restart →
      ∃ runId resumeFrom, invocations turn.who = .execute runId resumeFrom) ∧
    ∀ context, OpensWithWork (dispatch equipment context) := by
  refine ⟨?_, fun turn member => executes_of_begins interleaves member,
    opensWithWork_dispatch equipment⟩
  rintro who runId resumeFrom executes before flag after rfl flags
  obtain ⟨permit, attentive⟩ := attentive_of_interleaves filed executes interleaves
  exact attentive.abides.windsDown flags (attentive.refused before flag after rfl flags)

end Invocations

end Execution

/-! ### An execution that is cancelled after a poll -/

namespace Example

open Execution

/-- The execution finds out that the run is to be carried out. -/
def arriving : List (Turn Bool) × (Bool → Program Unit) × World :=
  World.takeTurns (surroundings reporting) (List.replicate 6 true)
    (fun who => (contending who).program equipment) world

/-- What is left to do then. -/
def arrived : Bool → Program Unit
  | true => (stepping steps).forgetful
  | false => (contending false).program equipment

/-- The execution polls, the cancellation writes the wish, and the execution goes on to its end. -/
def cancelling : List (Turn Bool) × (Bool → Program Unit) × World :=
  World.takeTurns (surroundings reporting)
    ([true, false, false] ++ List.replicate 30 true) arrived arriving.2.2

theorem interleaves_cancelling : Interleaves (surroundings reporting).answers
    (fun who => (contending who).program equipment) world (arriving.1 ++ cancelling.1)
    cancelling.2.1 cancelling.2.2 := by
  have taken := World.interleaves_takeTurns (surroundings reporting) (List.replicate 6 true)
    (fun who => (contending who).program equipment) world
  have least : leastOrder ≤ 10 := by decide
  have left : arriving.2.1 = arrived := by
    funext who
    cases who with
    | false => rfl
    | true =>
      rw [arrived, ← stepping_steps least]
      rfl
  rw [arriving] at left
  rw [left] at taken
  exact taken.trans (World.interleaves_takeTurns _ _ _ _)

theorem windsDown_cancelling :
    (∀ id run, world.store.runs.get? id = some run → run.id = id) ∧
      ∃ before flag after, arriving.1 ++ cancelling.1 = before ++ flag :: after ∧
        flag.request = .store (.flagCancel run.id) ∧ WindsDown run.id true before after ∧
        after.countP (fun turn => turn.who = true ∧ turn.request.role = .acquisition) = 1 ∧
        after.countP (fun turn => turn.who = true ∧ turn.request.role = .poll run.id) = 1 := by
  have filed : ∀ id run, world.store.runs.get? id = some run → run.id = id := coherent_store.runIds
  have split : arriving.1 ++ cancelling.1 =
      (arriving.1 ++ cancelling.1.take 2) ++ ⟨false, .store (.flagCancel run.id), .ok (), _⟩ ::
        cancelling.1.drop 3 := rfl
  have windsDown := (windsDown_of_interleaves filed interleaves_cancelling).1 true run.id none rfl
    _ _ _ split rfl
  exact ⟨filed, _, _, _, split, rfl, windsDown, by decide, by decide⟩

end Example

end Vetting
