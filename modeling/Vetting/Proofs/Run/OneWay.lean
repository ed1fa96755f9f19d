import Mathlib.Data.List.Chain
import Vetting.Proofs.Run.Lifetime

/-!
Contract: the status of a run goes one way, whatever invocations take turns.

Owns:
- `Run.Proceeds`: what a turn may make of a run;
- `Attended`: what the log tells of a run, and what those who work on it know and owe, is so;
- that every turn leaves this so;
- `Run.OneWay`, what holds of a run however many invocations take turns.

Does not own: what a single program asks for (`Vetting.Proofs.Run.Lifetime`).

A milestone is owed by one program at a time, and it is told once.
-/

namespace Vetting

open Execution

/-! ### What a turn makes of a run -/

/-- The status of the run stays or goes on; with a terminal one everything stays. -/
structure Run.Proceeds (run later : Run) : Prop where
  moves : later.status = run.status ∨ run.status.MayBecome later.status
  settled : run.status.isTerminal = true →
    later.status = run.status ∧ later.error = run.error ∧ later.endedAt = run.endedAt

theorem RunStatus.not_mayBecome_pending (status : RunStatus) : ¬ status.MayBecome .pending := by
  intro moves
  cases moves with
  | ends terminal => cases terminal

/-- What a run has come past it stays past. -/
theorem Run.Proceeds.hasPassed {run later : Run} (proceeds : run.Proceeds later)
    {milestone : Milestone} (passed : run.HasPassed milestone) : later.HasPassed milestone := by
  cases milestone with
  | started =>
    rcases proceeds.moves with same | moves
    · intro pending
      exact passed (same.symm.trans pending)
    · intro pending
      exact RunStatus.not_mayBecome_pending run.status (pending ▸ moves)
  | finalized status error =>
    obtain ⟨terminal, rfl, rfl⟩ := passed
    obtain ⟨sameStatus, sameError, _⟩ := proceeds.settled terminal
    exact ⟨terminal, sameStatus, sameError⟩

/-- A milestone that is earned has not been passed before. -/
theorem Run.Fares.not_passed {run later : Run} {milestone : Milestone}
    (fares : run.Fares (some milestone) later) : ¬ run.HasPassed milestone := by
  cases fares with
  | begins pending => exact fun passed => passed pending
  | ends isOpen =>
    rintro ⟨terminal, rfl, _⟩
    rw [isOpen] at terminal
    cases terminal

namespace Execution

section Turn

variable {runId : Uuid} {request : Request}

theorem Request.told?_of_earned {answer : request.Answer} {milestone : Milestone}
    (earned : request.earned? runId answer = some milestone) : request.told? runId = none := by
  cases request with
  | store => rfl
  | _ => cases earned

/-- A run is closed with a terminal status, and only by cancelling it if it may not have begun. -/
theorem Stake.May.finalized {stake : Stake} {answer : request.Answer} {status : RunStatus}
    {error : Option String} (may : stake.May runId request)
    (earned : request.earned? runId answer = some (.finalized status error)) :
    status.isTerminal = true ∧ (status = .canceled ∨ stake.begun) := by
  unfold Request.earned? at earned
  split at earned
  · split at earned <;> cases earned
  · split at earned <;> cases earned
    exact may ‹_›
  · cases earned

theorem Stake.May.told {stake : Stake} {milestone : Milestone} (may : stake.May runId request)
    (tells : request.told? runId = some milestone) : stake.owed? = some milestone := by
  cases request with
  | log id kind => exact may milestone tells
  | _ => cases tells

/-- A milestone that has just been earned is one that the run has come past. -/
theorem Stake.May.earns {stake : Stake} {run later : Run} {answer : request.Answer}
    {milestone : Milestone} (may : stake.May runId request)
    (fares : run.Fares (request.earned? runId answer) later)
    (earned : request.earned? runId answer = some milestone) : later.HasPassed milestone := by
  rw [earned] at fares
  cases fares with
  | begins _ running => simp [Run.HasPassed, running]
  | ends _ isStatus isError => exact ⟨(may.finalized earned).1, isStatus, isError⟩

/-- What is owed has just been earned, or has been owed before and is not told now. -/
theorem Stake.owed?_noting {stake : Stake} {answer : request.Answer} {milestone : Milestone}
    (owes : (stake.noting runId request answer).owed? = some milestone) :
    request.earned? runId answer = some milestone ∨
      (stake.owed? = some milestone ∧ request.told? runId = none) := by
  unfold noting at owes
  cases earned : request.earned? runId answer with
  | some other =>
    simp only [earned] at owes
    exact Or.inl owes
  | none =>
    cases tells : request.told? runId with
    | some other =>
      simp only [earned, tells] at owes
      cases owes
    | none =>
      simp only [earned, tells] at owes
      exact Or.inr ⟨owes, rfl⟩

variable {mayAnswer : (request : Request) → request.Answer → Prop} {world after : World}
  {answer : request.Answer} {run : Run}

theorem World.Answers.fares (answers : world.Answers mayAnswer request answer after)
    (held : world.store.runs.get? runId = some run) :
    ∃ later, after.store.runs.get? runId = some later ∧
      run.Fares (request.earned? runId answer) later := by
  cases request with
  | store request =>
    obtain ⟨rfl, rfl⟩ := answers
    exact Store.fares_answer held request
  | log | stamp =>
    obtain ⟨_, rfl⟩ := answers
    exact ⟨run, held, .stays rfl rfl rfl⟩
  | validate | act | backendAvailable | launch =>
    obtain ⟨_, rfl⟩ := answers
    exact ⟨run, held, .stays rfl rfl rfl⟩

/-- The log tells of one milestone more, if of any. -/
theorem World.Answers.milestones (answers : world.Answers mayAnswer request answer after) :
    after.log.milestones runId = world.log.milestones runId ++ (request.told? runId).toList := by
  have tells : (request.logs runId).filterMap EventKind.milestone? =
      (request.told? runId).toList := by
    cases request with
    | log id kind =>
      by_cases same : id = runId
      · cases tells : kind.milestone? <;> simp [Request.logs, Request.told?, same, tells]
      · simp [Request.logs, Request.told?, same]
    | _ => rfl
  have kinds := congrArg (List.filterMap EventKind.milestone?) (answers.log runId)
  rwa [List.filterMap_append, List.filterMap_map, List.filterMap_map, tells] at kinds

end Turn

/-! ### Those who work on a run -/

section Attended

variable {ι : Type} {runId : Uuid} {run later : Run} {stakes : ι → Stake} {world after : World}

/-- What the log tells of a run, and what those who work on it know and owe, is so. -/
structure Attended (runId : Uuid) (run : Run) (stakes : ι → Stake) (world : World) : Prop where
  held : world.store.runs.get? runId = some run
  begun : ∀ who, (stakes who).begun → run.status ≠ .pending
  stepped : ∀ id stepRun, world.store.stepRuns.get? id = some stepRun → stepRun.runId = runId →
    run.status ≠ .pending
  told : ∀ milestone ∈ world.log.milestones runId, run.HasPassed milestone
  once : (world.log.milestones runId).Nodup
  owed : ∀ who milestone, (stakes who).owed? = some milestone →
    run.HasPassed milestone ∧ milestone ∉ world.log.milestones runId ∧
      ∀ other, (stakes other).owed? = some milestone → other = who

theorem Attended.start (held : world.store.runs.get? runId = some run)
    (unbegun : ∀ id stepRun, world.store.stepRuns.get? id = some stepRun → stepRun.runId ≠ runId)
    (unlogged : world.log.ofRun runId = []) :
    Attended runId run (fun _ : ι => Stake.blank) world where
  held := held
  begun := fun _ begun => begun.elim
  stepped := fun id stepRun heldStep ofRun => absurd ofRun (unbegun id stepRun heldStep)
  told := by simp [EventLog.milestones, unlogged]
  once := by simp [EventLog.milestones, unlogged]
  owed := fun _ _ owes => nomatch owes

theorem Attended.withFailing (attended : Attended runId run stakes world) (failing : Bool) :
    Attended runId run stakes (world.withFailing failing) :=
  ⟨attended.held, attended.begun, attended.stepped, attended.told, attended.once, attended.owed⟩

variable {mayAnswer : (request : Request) → request.Answer → Prop} {request : Request}
  {answer : request.Answer} {who : ι}

theorem Attended.proceeds (attended : Attended runId run stakes world)
    (may : (stakes who).May runId request)
    (fares : run.Fares (request.earned? runId answer) later) : run.Proceeds later := by
  generalize earned : request.earned? runId answer = earned? at fares
  cases fares with
  | stays status error endedAt => exact ⟨Or.inl status, fun _ => ⟨status, error, endedAt⟩⟩
  | begins pending running =>
    refine ⟨Or.inr ?_, fun terminal => ?_⟩
    · rw [pending, running]
      exact .begins
    · rw [pending] at terminal
      cases terminal
  | ends isOpen isStatus isError =>
    obtain ⟨terminal, knows⟩ := may.finalized earned
    refine ⟨Or.inr ?_, fun no => absurd no (by simp [isOpen])⟩
    rw [isStatus]
    cases isRun : run.status with
    | running => exact .ends terminal
    | pending =>
      rcases knows with rfl | begun
      · exact .revoked
      · exact absurd isRun (attended.begun who begun)
    | succeeded | failed | canceled => simp [isRun, RunStatus.isTerminal] at isOpen

/-- Whoever is shown that the run has begun is shown what is so. -/
theorem Attended.shown (attended : Attended runId run stakes world)
    (answers : world.Answers mayAnswer request answer after)
    (fares : run.Fares (request.earned? runId answer) later) (proceeds : run.Proceeds later)
    (shows : request.ShowsBegun runId answer) : later.status ≠ .pending := by
  unfold Request.ShowsBegun at shows
  split at shows
  · simp only [Request.earned?, shows, if_true] at fares
    cases fares with
    | begins _ running => simp [running]
  · obtain ⟨rfl, begun⟩ := shows
    obtain ⟨isAnswer, _⟩ := answers
    simp only [Store.answer, Store.run, attended.held] at isAnswer
    cases isAnswer
    exact proceeds.hasPassed (show run.HasPassed .started from begun)
  · rename_i id stepRun
    obtain ⟨isAnswer, _⟩ := answers
    cases held : world.store.stepRuns.get? id with
    | none => simp [Store.answer, Store.stepRun, held] at isAnswer
    | some other =>
      simp only [Store.answer, Store.stepRun, held] at isAnswer
      cases isAnswer
      have begun : run.HasPassed .started := attended.stepped _ _ held shows
      exact proceeds.hasPassed begun
  · exact shows.elim

/-- What every turn leaves. -/
theorem Attended.turn [DecidableEq ι] (attended : Attended runId run stakes world)
    (may : (stakes who).May runId request)
    (answers : world.Answers mayAnswer request answer after)
    (comes : ∀ id stepRun, after.store.stepRuns.get? id = some stepRun → stepRun.runId = runId →
      (∃ old, world.store.stepRuns.get? id = some old ∧ old.runId = runId) ∨
        ∃ step now, request = .store (.acquire runId step now)) :
    ∃ later, run.Proceeds later ∧ Attended runId later
      (Function.update stakes who ((stakes who).noting runId request answer)) after := by
  obtain ⟨later, held, fares⟩ := answers.fares attended.held
  have proceeds := attended.proceeds may fares
  have stillBegun : run.HasPassed .started → later.HasPassed .started := proceeds.hasPassed
  -- What has just been earned was not passed before, so nobody owes or tells it yet.
  have isNew : ∀ milestone, request.earned? runId answer = some milestone →
      ¬ run.HasPassed milestone := by
    intro milestone earned
    rw [earned] at fares
    exact fares.not_passed
  refine ⟨later, proceeds, held, fun other begun => ?_, fun id stepRun heldStep ofRun => ?_,
    fun milestone member => ?_, ?_, fun other milestone owes => ?_⟩
  · by_cases same : other = who
    · subst same
      rw [Function.update_self] at begun
      rcases begun with known | shows
      · exact stillBegun (attended.begun other known)
      · exact attended.shown answers fares proceeds shows
    · rw [Function.update_of_ne same] at begun
      exact stillBegun (attended.begun other begun)
  · rcases comes id stepRun heldStep ofRun with ⟨old, heldOld, oldOfRun⟩ | ⟨step, now, rfl⟩
    · exact stillBegun (attended.stepped id old heldOld oldOfRun)
    · exact stillBegun (attended.begun who (may rfl))
  · rw [answers.milestones] at member
    rcases List.mem_append.mp member with earlier | now
    · exact proceeds.hasPassed (attended.told milestone earlier)
    · have tells := Option.mem_toList.mp now
      exact proceeds.hasPassed (attended.owed who milestone (may.told tells)).1
  · rw [answers.milestones]
    cases tells : request.told? runId with
    | none =>
      rw [Option.toList_none, List.append_nil]
      exact attended.once
    | some milestone =>
      have untold := (attended.owed who milestone (may.told tells)).2.1
      rw [Option.toList_some]
      refine List.nodup_append.mpr ⟨attended.once, List.nodup_cons.mpr ⟨by simp, .nil⟩, ?_⟩
      intro first earlier second now
      rw [List.mem_singleton.mp now]
      exact ne_of_mem_of_not_mem earlier untold
  · have owing : ∀ owner, (Function.update stakes who
        ((stakes who).noting runId request answer) owner).owed? = some milestone →
        (owner = who ∧ request.earned? runId answer = some milestone) ∨
          ((stakes owner).owed? = some milestone ∧
            (owner = who → request.told? runId = none)) := by
      intro owner owes
      by_cases same : owner = who
      · subst same
        rw [Function.update_self] at owes
        rcases Stake.owed?_noting owes with earned | ⟨owed, quiet⟩
        · exact Or.inl ⟨rfl, earned⟩
        · exact Or.inr ⟨owed, fun _ => quiet⟩
      · rw [Function.update_of_ne same] at owes
        exact Or.inr ⟨owes, fun no => absurd no same⟩
    rcases owing other owes with ⟨rfl, earned⟩ | ⟨owed, quiet⟩
    · refine ⟨may.earns fares earned, fun member => ?_, fun owner owes => ?_⟩
      · rw [answers.milestones, Request.told?_of_earned earned, Option.toList_none,
          List.append_nil] at member
        exact isNew milestone earned (attended.told milestone member)
      · rcases owing owner owes with ⟨same, _⟩ | ⟨owed, _⟩
        · exact same
        · exact absurd (attended.owed owner milestone owed).1 (isNew milestone earned)
    · obtain ⟨passed, untold, alone⟩ := attended.owed other milestone owed
      refine ⟨proceeds.hasPassed passed, fun member => ?_, fun owner owes => ?_⟩
      · rw [answers.milestones] at member
        rcases List.mem_append.mp member with earlier | now
        · exact untold earlier
        · have tells := Option.mem_toList.mp now
          have nobody := quiet (alone who (may.told tells)).symm
          rw [nobody] at tells
          cases tells
      · rcases owing owner owes with ⟨_, earned⟩ | ⟨owed, _⟩
        · exact absurd passed (isNew milestone earned)
        · exact alone owner owed

end Attended

/-! ### Any number of invocations -/

/-- The run goes on from one world to the next. -/
def World.Advances (runId : Uuid) (before after : World) : Prop :=
  ∃ run later, before.store.runs.get? runId = some run ∧
    after.store.runs.get? runId = some later ∧ run.Proceeds later

/-- The worlds in turn. -/
def worldsOf {ι : Type} (origin : World) (turns : List (Turn ι)) : List World :=
  origin :: turns.map Turn.after

theorem worldsOf_append {ι : Type} (origin : World) (turns : List (Turn ι)) (turn : Turn ι) :
    worldsOf origin (turns ++ [turn]) = worldsOf origin turns ++ [turn.after] := by
  simp [worldsOf]

section Invocations

variable {ι : Type} [DecidableEq ι] {mayAnswer : (request : Request) → request.Answer → Prop}
  {equipment : Equipment} {invocations : ι → Invocation} {origin world : World}
  {turns : List (Turn ι)} {rest : ι → Program Unit} {runId : Uuid} {run : Run}

omit [DecidableEq ι] in
/-- A step run of the run has been there before, or the one whose turn it is has begun it. -/
theorem Interplay.comes {known : Uuid → Prop} {sights : ι → Sight} {after : World}
    {request : Request} {answer : request.Answer} (interplay : Interplay known sights world)
    (who : ι) (may : (sights who).May mayAnswer known request)
    (answers : world.Answers mayAnswer request answer after) {id : Uuid} {stepRun : StepRun}
    (held : after.store.stepRuns.get? id = some stepRun) (ofRun : stepRun.runId = runId) :
    (∃ old, world.store.stepRuns.get? id = some old ∧ old.runId = runId) ∨
      ∃ step now, request = .store (.acquire runId step now) := by
  subst ofRun
  cases request with
  | store request =>
    obtain ⟨rfl, rfl⟩ := answers
    have passes := Store.passes_answer interplay.coherent request
    rcases passes.comes (may.admits (interplay.borneOut who)) held with earlier | ⟨step, now, rfl⟩
    · exact Or.inl earlier
    · exact Or.inr ⟨step, now, rfl⟩
  | log | stamp =>
    obtain ⟨_, rfl⟩ := answers
    exact Or.inl ⟨stepRun, held, rfl⟩
  | validate | act | backendAvailable | launch =>
    obtain ⟨_, rfl⟩ := answers
    exact Or.inl ⟨stepRun, held, rfl⟩

/-- Whatever invocations take turns, those who work on a run are told what is so, and each turn lets
the run go on. -/
theorem attended_of_interleaves (coherent : origin.store.Coherent)
    (held : origin.store.runs.get? runId = some run)
    (unbegun : ∀ id stepRun, origin.store.stepRuns.get? id = some stepRun →
      stepRun.runId ≠ runId)
    (unlogged : origin.log.ofRun runId = [])
    (interleaves : Interleaves mayAnswer (fun who => (invocations who).program equipment) origin
      turns rest world) :
    ∃ (later : Run) (stakes : ι → Stake), Attended runId later stakes world ∧
      (worldsOf origin turns).IsChain (World.Advances runId) := by
  have heeds : ∀ who, ((invocations who).program equipment).Heeds
      ((recordkeeping mayAnswer origin.store.HasRun).and
        (lifetime mayAnswer origin.store.HasRun runId))
      ((fun _ => (Sight.blank, Stake.blank)) who) ((fun _ _ _ => True : ι → Unit → _ → Prop) who) :=
    fun who => (((invocations who).keepsRecords equipment).and
      ((invocations who).lives equipment)).imp fun _ _ _ => trivial
  obtain ⟨states, ⟨_, later, attended, chain, _⟩, _⟩ := interleaves.heeded heeds
    (fun states turns world =>
      Interplay origin.store.HasRun (fun who => (states who).1) world ∧
      ∃ run, Attended runId run (fun who => (states who).2) world ∧
        (worldsOf origin turns).IsChain (World.Advances runId) ∧
        ∀ last ∈ (worldsOf origin turns).getLast?, last.store.runs = world.store.runs)
    ⟨.start coherent, run, .start held unbegun unlogged, .singleton _, by
      rintro last member
      simp only [worldsOf, List.map_nil, List.getLast?_singleton, Option.mem_def,
        Option.some.injEq] at member
      rw [member]⟩
    (fun states turns world who request answer after kept may answers => by
      obtain ⟨interplay, run, attended, chain, last⟩ := kept
      obtain ⟨credible, _, interplayAfter⟩ := interplay.turn who may.1 answers
      obtain ⟨later, proceeds, attendedAfter⟩ := attended.turn may.2 answers
        fun _ _ => interplay.comes who may.1 answers
      let state := ((states who).1.noting (request.notice? answer),
        (states who).2.noting runId request answer)
      have sights : (fun other => (Function.update states who state other).1) =
          Function.update (fun other => (states other).1) who state.1 :=
        Function.comp_update Prod.fst states who state
      have stakes : (fun other => (Function.update states who state other).2) =
          Function.update (fun other => (states other).2) who state.2 :=
        Function.comp_update Prod.snd states who state
      refine ⟨state, ⟨⟨credible, rfl⟩, credible, rfl⟩, ?_, later, ?_, ?_, ?_⟩
      · rw [sights]
        exact interplayAfter
      · rw [stakes]
        exact attendedAfter
      · rw [worldsOf_append]
        refine List.isChain_append.mpr ⟨chain, .singleton _, fun before member next isNext => ?_⟩
        obtain rfl : after = next := by simpa using isNext
        refine ⟨run, later, ?_, attendedAfter.held, proceeds⟩
        rw [last before member, attended.held]
      · intro final member
        rw [worldsOf_append, List.getLast?_append] at member
        obtain rfl : after = final := by simpa using member
        rfl)
    (fun states turns world failing kept => by
      obtain ⟨interplay, run, attended, chain, last⟩ := kept
      exact ⟨interplay.withFailing failing, run, attended.withFailing failing, chain, last⟩)
  exact ⟨later, fun who => (states who).2, attended, chain⟩

end Invocations

end Execution

/-! ### The way of a run -/

def EventKind.isRunStarted : EventKind → Bool
  | .runStarted _ _ => true
  | _ => false

def EventKind.isRunFinalized : EventKind → Bool
  | .runFinalized _ _ => true
  | _ => false

/-- What the worlds in turn and the log in the last one say about a run. -/
structure Run.OneWay {ι : Type} (runId : Uuid) (origin : World) (turns : List (Turn ι))
    (world : World) : Prop where
  moves : (worldsOf origin turns).IsChain fun before after => ∃ run later,
    before.store.runs.get? runId = some run ∧ after.store.runs.get? runId = some later ∧
      (later.status = run.status ∨ run.status.MayBecome later.status)
  stays : (worldsOf origin turns).Pairwise fun earlier later => ∀ run,
    earlier.store.runs.get? runId = some run → run.status.isTerminal = true →
      ∃ same, later.store.runs.get? runId = some same ∧ same.status = run.status ∧
        same.error = run.error ∧ same.endedAt = run.endedAt
  startedOnce : (world.log.ofRun runId).countP (fun event => event.kind.isRunStarted) ≤ 1
  finalizedOnce : (world.log.ofRun runId).countP (fun event => event.kind.isRunFinalized) ≤ 1
  finalized : ∀ event ∈ world.log.ofRun runId, ∀ status error,
    event.kind = .runFinalized status error →
      ∃ run, world.store.runs.get? runId = some run ∧ run.status = status ∧ run.error = error

/-- A run that is there stays there, and as it is if it is closed. -/
def Execution.World.Stays (runId : Uuid) (earlier later : World) : Prop :=
  ∀ run, earlier.store.runs.get? runId = some run → ∃ same, later.store.runs.get? runId = some same ∧
    (run.status.isTerminal = true → same.status = run.status ∧ same.error = run.error ∧
      same.endedAt = run.endedAt)

theorem Execution.World.Stays.trans {runId : Uuid} {first second third : World}
    (left : first.Stays runId second) (right : second.Stays runId third) :
    first.Stays runId third := by
  intro run held
  obtain ⟨middle, heldMiddle, once⟩ := left run held
  obtain ⟨last, heldLast, twice⟩ := right middle heldMiddle
  refine ⟨last, heldLast, fun terminal => ?_⟩
  obtain ⟨sameStatus, sameError, sameEnd⟩ := once terminal
  obtain ⟨lastStatus, lastError, lastEnd⟩ := twice (sameStatus ▸ terminal)
  exact ⟨lastStatus.trans sameStatus, lastError.trans sameError, lastEnd.trans sameEnd⟩

theorem Execution.World.Advances.stays {runId : Uuid} {before after : World}
    (advances : before.Advances runId after) : before.Stays runId after := by
  obtain ⟨run, later, held, heldLater, proceeds⟩ := advances
  intro other heldOther
  obtain rfl := Option.some.inj (held.symm.trans heldOther)
  exact ⟨later, heldLater, proceeds.settled⟩

instance (runId : Uuid) : Trans (World.Stays runId) (World.Stays runId) (World.Stays runId) :=
  ⟨World.Stays.trans⟩

theorem countP_le_one_of_agree {α : Type} {holds : α → Bool} {list : List α}
    (nodup : list.Nodup)
    (agree : ∀ first ∈ list, ∀ second ∈ list, holds first = true → holds second = true →
      first = second) : list.countP holds ≤ 1 := by
  induction list with
  | nil => simp
  | cons head rest inductionHypothesis =>
    obtain ⟨isNew, nodup⟩ := List.nodup_cons.mp nodup
    by_cases here : holds head = true
    · have nowhere : rest.countP holds = 0 := by
        rw [List.countP_eq_zero]
        intro other member there
        have same := agree head List.mem_cons_self other (List.mem_cons_of_mem _ member) here there
        exact isNew (same ▸ member)
      rw [List.countP_cons_of_pos here, nowhere]
    · rw [List.countP_cons_of_neg here]
      exact inductionHypothesis nodup fun first member second other =>
        agree first (List.mem_cons_of_mem _ member) second (List.mem_cons_of_mem _ other)

section Counting

variable {ι : Type} {runId : Uuid} {run : Run} {stakes : ι → Stake} {world : World}

/-- Milestones of one kind that a run has come past are the same, so the log tells of one at most. -/
theorem Execution.Attended.countP_le_one (attended : Attended runId run stakes world)
    (tells : EventKind → Bool) (holds : Milestone → Bool)
    (same : ∀ kind, tells kind = (kind.milestone?.map holds).getD false)
    (agree : ∀ first second, run.HasPassed first → run.HasPassed second → holds first = true →
      holds second = true → first = second) :
    (world.log.ofRun runId).countP (fun event => tells event.kind) ≤ 1 := by
  have counts : (world.log.milestones runId).countP holds =
      (world.log.ofRun runId).countP fun event => tells event.kind := by
    simp only [EventLog.milestones, List.countP_filterMap, same]
  rw [← counts]
  exact countP_le_one_of_agree attended.once fun first member second other =>
    agree first second (attended.told first member) (attended.told second other)

end Counting

/-- However many invocations take turns, on a run that has not begun or on others, the status of the
run goes one way and its log tells of its beginning and its end once, as they are stored. -/
theorem oneWay_of_interleaves {ι : Type} [DecidableEq ι]
    {mayAnswer : (request : Request) → request.Answer → Prop} {equipment : Equipment}
    {invocations : ι → Invocation} {origin world : World} {turns : List (Turn ι)}
    {rest : ι → Program Unit} {runId : Uuid} {run : Run} (coherent : origin.store.Coherent)
    (held : origin.store.runs.get? runId = some run)
    (unbegun : ∀ id stepRun, origin.store.stepRuns.get? id = some stepRun →
      stepRun.runId ≠ runId)
    (unlogged : origin.log.ofRun runId = [])
    (interleaves : Interleaves mayAnswer (fun who => (invocations who).program equipment) origin
      turns rest world) :
    Run.OneWay runId origin turns world := by
  obtain ⟨later, stakes, attended, chain⟩ :=
    attended_of_interleaves coherent held unbegun unlogged interleaves
  refine ⟨chain.imp ?_, ?_, ?_, ?_, ?_⟩
  · rintro before after ⟨run, later, heldBefore, heldAfter, proceeds⟩
    exact ⟨run, later, heldBefore, heldAfter, proceeds.moves⟩
  · have stays := List.isChain_iff_pairwise.mp (chain.imp fun _ _ => World.Advances.stays)
    refine stays.imp fun stay run held terminal => ?_
    obtain ⟨same, heldSame, settled⟩ := stay run held
    exact ⟨same, heldSame, settled terminal⟩
  · apply attended.countP_le_one EventKind.isRunStarted Milestone.isStarted
    · intro kind
      cases kind <;> rfl
    · intro first second _ _ isFirst isSecond
      cases first <;> cases second <;> simp_all [Milestone.isStarted]
  · apply attended.countP_le_one EventKind.isRunFinalized Milestone.isFinalized
    · intro kind
      cases kind <;> rfl
    · intro first second one other isFirst isSecond
      cases first <;> cases second <;> simp_all [Milestone.isFinalized, Run.HasPassed]
  · intro event member status error tells
    have told : Milestone.finalized status error ∈ world.log.milestones runId :=
      List.mem_filterMap.mpr ⟨event, member, by rw [tells]; rfl⟩
    obtain ⟨_, isStatus, isError⟩ := attended.told _ told
    exact ⟨later, attended.held, isStatus, isError⟩

/-! ### An execution and a cancellation -/

namespace Example

open Execution

def contending : Bool → Invocation
  | true => .execute run.id none
  | false => .cancel run.id

/-- The cancellation finds the run pending, and then the execution begins it. -/
def contention : List (Turn Bool) × (Bool → Program Unit) × World :=
  World.takeTurns (surroundings accepted) ([false, true, true] ++ List.replicate 6 false)
    (fun who => (contending who).program equipment) world

theorem oneWay_contention : Run.OneWay run.id world contention.1 contention.2.2 ∧
    ∃ later, contention.2.2.store.runs.get? run.id = some later ∧ later.status = .canceled := by
  have held : world.store.runs.get? run.id = some run := rfl
  have unbegun : ∀ id stepRun, world.store.stepRuns.get? id = some stepRun →
      stepRun.runId ≠ run.id := fun id stepRun isHeld => nomatch isHeld
  have oneWay := oneWay_of_interleaves coherent_store held unbegun rfl
    (World.interleaves_takeTurns (surroundings accepted)
      ([false, true, true] ++ List.replicate 6 false)
      (fun who => (contending who).program equipment) world)
  exact ⟨oneWay, _, rfl, rfl⟩

end Example

end Vetting
