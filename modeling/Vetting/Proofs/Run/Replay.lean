import Vetting.Proofs.Run.Conduct
import Vetting.Proofs.Run.OneWay
import Vetting.Proofs.Run.Telling

/-!
Contract: the log of a run amounts to what the store holds of it.

Owns:
- accounts: how a run and its steps stand by what has been told of them;
- `EventLog.replay`, the account that the log of a run gives;
- `Account.Matches`: a store holds the same;
- that a turn makes of a matching account a matching one by the tiding that it earns;
- `Operated`: invocations one after the other, each of which is done, while writes may begin
  and cease to fail;
- that the log then replays to the store.

Does not own: who tells of what (`Vetting.Proofs.Run.Telling`).

While a program is at work the log may lack one tiding, and then the program owes it.
-/

namespace Vetting

open Execution

/-! ### What a log amounts to -/

/-- How a run stands, and each of its steps with its attempt. -/
structure Account where
  status : RunStatus
  error : Option String
  steps : Table String (StepStatus × Nat)

namespace Account

/-- Nothing has been told of the run. -/
def blank : Account := ⟨.pending, none, []⟩

/-- The account after one more tiding.  A step that is finished stays at its attempt. -/
def hearing (account : Account) : Tiding → Account
  | .run .started => { account with status := .running }
  | .run (.finalized status error) => { account with status, error }
  | .begun key attempt => { account with steps := account.steps.set key (.running, attempt) }
  | .finished key status => match account.steps.get? key with
    | some (_, attempt) => { account with steps := account.steps.set key (status, attempt) }
    | none => account

/-- A store holds the same of a run.  The error of a run counts once it is closed. -/
structure Matches (account : Account) (store : Store) (runId : Uuid) : Prop where
  run : ∃ run, store.runs.get? runId = some run ∧ account.status = run.status ∧
    (run.status.isTerminal = true → account.error = run.error)
  steps : ∀ key status attempt, account.steps.get? key = some (status, attempt) ↔
    ∃ stepRun ∈ store.stepRunsOf runId,
      stepRun.stepKey = key ∧ stepRun.status = status ∧ stepRun.attempt = attempt

end Account

/-- What the log tells of a run, in order. -/
def EventLog.tidings (log : EventLog) (runId : Uuid) : List Tiding :=
  (log.ofRun runId).filterMap fun event => event.kind.tiding?

/-- How a run stands by what the log tells of it. -/
def EventLog.replay (log : EventLog) (runId : Uuid) : Account :=
  (log.tidings runId).foldl Account.hearing .blank

/-! ### The step run for a step -/

/-- What an account has of a step run. -/
def StepRun.standing (stepRun : StepRun) : StepStatus × Nat := (stepRun.status, stepRun.attempt)

namespace Store

variable {store before after : Store} {runId : Uuid} {key : String}

/-- How the step with a key stands. -/
def standing? (store : Store) (runId : Uuid) (key : String) : Option (StepStatus × Nat) :=
  (store.stepRunOf? runId key).map StepRun.standing

theorem Coherent.standing?_eq_some (coherent : store.Coherent) {status : StepStatus}
    {attempt : Nat} :
    store.standing? runId key = some (status, attempt) ↔ ∃ stepRun ∈ store.stepRunsOf runId,
      stepRun.stepKey = key ∧ stepRun.status = status ∧ stepRun.attempt = attempt := by
  simp only [standing?, Option.map_eq_some_iff, coherent.stepRunOf?_eq_some, StepRun.standing,
    Prod.mk.injEq, and_assoc]

theorem Coherent.standing?_of_get? (coherent : store.Coherent) {stepRun : StepRun}
    (held : store.stepRuns.get? stepRun.id = some stepRun) :
    store.standing? stepRun.runId stepRun.stepKey = some stepRun.standing := by
  rw [standing?, coherent.stepRunOf?_of_mem (coherent.mem_stepRunsOf.mpr ⟨held, rfl⟩)]
  rfl

/-- How a step stands depends on the records of its step runs only. -/
theorem standing?_congr (coherent : before.Coherent) (coherentAfter : after.Coherent)
    (same : ∀ stepRun : StepRun, stepRun.runId = runId → stepRun.stepKey = key →
      (after.stepRuns.get? stepRun.id = some stepRun ↔
        before.stepRuns.get? stepRun.id = some stepRun)) :
    after.standing? runId key = before.standing? runId key := by
  unfold standing?
  congr 1
  apply Option.ext
  intro stepRun
  rw [coherent.stepRunOf?_eq_some, coherentAfter.stepRunOf?_eq_some, coherent.mem_stepRunsOf,
    coherentAfter.mem_stepRunsOf, and_assoc, and_assoc]
  constructor
  · rintro ⟨held, ofRun, ofKey⟩
    exact ⟨(same stepRun ofRun ofKey).mp held, ofRun, ofKey⟩
  · rintro ⟨held, ofRun, ofKey⟩
    exact ⟨(same stepRun ofRun ofKey).mpr held, ofRun, ofKey⟩

end Store

theorem Account.matches_iff {account : Account} {store : Store} {runId : Uuid}
    (coherent : store.Coherent) :
    account.Matches store runId ↔
      (∃ run, store.runs.get? runId = some run ∧ account.status = run.status ∧
        (run.status.isTerminal = true → account.error = run.error)) ∧
      ∀ key, account.steps.get? key = store.standing? runId key := by
  constructor
  · intro isMatch
    refine ⟨isMatch.run, fun key => Option.ext fun standing => ?_⟩
    exact (isMatch.steps key _ _).trans coherent.standing?_eq_some.symm
  · rintro ⟨run, same⟩
    refine ⟨run, fun key status attempt => ?_⟩
    rw [same]
    exact coherent.standing?_eq_some

/-! ### Tidings that a turn earns -/

/-- The tidings about one run. -/
def Tiding.about (runId : Uuid) : Option (Uuid × Tiding) → List Tiding
  | some (id, tiding) => if id = runId then [tiding] else []
  | none => []

namespace Execution

open Tiding (about)

section Log

variable {mayAnswer : (request : Request) → request.Answer → Prop} {world after : World}
  {request : Request} {answer : request.Answer} {debt : Debt}

/-- The log gets to tell of what is told. -/
theorem World.Answers.tidings (answers : world.Answers mayAnswer request answer after)
    (runId : Uuid) :
    after.log.tidings runId = world.log.tidings runId ++ about runId request.tells? := by
  have tells : (request.logs runId).filterMap EventKind.tiding? = about runId request.tells? := by
    cases request with
    | log id kind =>
      by_cases same : id = runId <;> cases tells : kind.tiding? <;>
        simp [Request.logs, Request.tells?, about, same, tells]
    | _ => rfl
  have kinds := congrArg (List.filterMap EventKind.tiding?) (answers.log runId)
  rwa [List.filterMap_append, List.filterMap_map, List.filterMap_map, tells] at kinds

/-- What has been told and what is owed grow together by what is earned. -/
theorem Debt.May.tidings (may : debt.May request)
    (answers : world.Answers mayAnswer request answer after) (runId : Uuid) :
    after.log.tidings runId ++ about runId (debt.noting request answer).owed? =
      world.log.tidings runId ++ about runId debt.owed? ++
        about runId (request.earns? answer) := by
  rw [answers.tidings]
  cases steers : request.steers with
  | true =>
    have silent := Request.tells?_of_steers steers
    have settled := may.changes steers
    cases earns : request.earns? answer <;> simp [noting, silent, settled, earns, about]
  | false =>
    have earnsNothing := Request.earns?_of_not_steers steers answer
    cases tells : request.tells? with
    | none => simp [noting, earnsNothing, tells, about]
    | some told => simp [noting, earnsNothing, tells, may.tells told tells, about]

end Log

end Execution

/-! ### What a turn makes of an account -/

section Steps

open Execution (Notice Sight)
open Tiding (about)

namespace Account

variable (account : Account) {runId : Uuid} {stepRun : StepRun}

/-- An account that has heard of what has been begun has it. -/
theorem get?_hearing_begun (running : stepRun.status = .running) (key : String) :
    ((about runId (Notice.begun stepRun).tiding?).foldl hearing account).steps.get? key =
      if stepRun.runId = runId ∧ stepRun.stepKey = key then some stepRun.standing
      else account.steps.get? key := by
  by_cases ofRun : stepRun.runId = runId
  · have isHeard : about runId (Notice.begun stepRun).tiding? =
        [.begun stepRun.stepKey stepRun.attempt] := if_pos ofRun
    rw [isHeard, StepRun.standing, running]
    simp only [List.foldl_cons, List.foldl_nil, hearing, Table.get?_set, ofRun, true_and]
  · have isSilent : about runId (Notice.begun stepRun).tiding? = [] := if_neg ofRun
    rw [isSilent, if_neg fun same => ofRun same.1]
    rfl

/-- An account that has a step as running has what is written of it, when it has heard of that. -/
theorem get?_hearing_written (has : stepRun.runId = runId →
      account.steps.get? stepRun.stepKey = some (.running, stepRun.attempt)) (key : String) :
    ((about runId (Notice.written stepRun).tiding?).foldl hearing account).steps.get? key =
      if stepRun.runId = runId ∧ stepRun.stepKey = key then some stepRun.standing
      else account.steps.get? key := by
  by_cases ofRun : stepRun.runId = runId
  · cases terminal : stepRun.status.isTerminal with
    | true =>
      have isHeard : about runId (Notice.written stepRun).tiding? =
          [.finished stepRun.stepKey stepRun.status] := by
        simp only [Notice.tiding?, terminal, if_true, about, ofRun]
      rw [isHeard]
      simp only [List.foldl_cons, List.foldl_nil, hearing, has ofRun, Table.get?_set, ofRun,
        true_and, StepRun.standing]
    | false =>
      have isSilent : about runId (Notice.written stepRun).tiding? = [] := by
        simp only [Notice.tiding?, terminal, Bool.false_eq_true, if_false, about]
      have running : stepRun.status = .running := running_of_not_terminal terminal
      rw [isSilent, List.foldl_nil]
      by_cases ofKey : stepRun.stepKey = key
      · subst ofKey
        rw [if_pos ⟨ofRun, rfl⟩, has ofRun, StepRun.standing, running]
      · rw [if_neg fun same => ofKey same.2]
  · have isSilent : about runId (Notice.written stepRun).tiding? = [] := by
      cases terminal : stepRun.status.isTerminal <;>
        simp [Notice.tiding?, terminal, about, ofRun]
    rw [isSilent, if_neg fun same => ofRun same.1]
    rfl

end Account

variable {mayAnswer : (request : Request) → request.Answer → Prop} {sight : Sight}
  {before after : Store} {notice? : Option Notice} {runId : Uuid} {account : Account}

/-- A step whose step run gets no other record stands as before. -/
theorem Execution.Sight.Does.standing?_of_other (does : sight.Does mayAnswer before notice? after)
    (coherent : before.Coherent) (coherentAfter : after.Coherent)
    (sees : ∀ id, sight.shown id = none ∨ sight.shown id = before.stepRuns.get? id) {key : String}
    (other : ∀ changed, notice?.bind Notice.change? = some changed →
      ¬ (changed.runId = runId ∧ changed.stepKey = key)) :
    after.standing? runId key = before.standing? runId key := by
  apply Store.standing?_congr coherent coherentAfter
  rintro stepRun rfl rfl
  by_cases touched : ∃ changed, notice?.bind Notice.change? = some changed ∧
      changed.id = stepRun.id
  · -- The record that is given belongs to another step, so that this one is there neither way.
    obtain ⟨changed, change, same⟩ := touched
    have apart := other changed change
    constructor
    · intro held
      obtain rfl := Option.some.inj ((same ▸ does.get?_of_change change).symm.trans held)
      exact absurd ⟨rfl, rfl⟩ apart
    · intro held
      exact absurd (does.follows sees change (same ▸ held)) apart
  · rw [does.get?_of_other fun changed change same => touched ⟨changed, change, same⟩]

/-- How a step stands after a turn: as the record that has been given to its step run, if any. -/
theorem Execution.Sight.Does.standing?_eq (does : sight.Does mayAnswer before notice? after)
    (coherent : before.Coherent) (coherentAfter : after.Coherent)
    (sees : ∀ id, sight.shown id = none ∨ sight.shown id = before.stepRuns.get? id) (key : String) :
    after.standing? runId key = match notice?.bind Notice.change? with
      | some changed => if changed.runId = runId ∧ changed.stepKey = key then some changed.standing
        else before.standing? runId key
      | none => before.standing? runId key := by
  cases change : notice?.bind Notice.change? with
  | none =>
    exact does.standing?_of_other coherent coherentAfter sees
      fun changed isChange => nomatch change.symm.trans isChange
  | some changed =>
    by_cases isThis : changed.runId = runId ∧ changed.stepKey = key
    · obtain ⟨rfl, rfl⟩ := isThis
      have held := does.get?_of_change change
      exact (coherentAfter.standing?_of_get? held).trans (if_pos ⟨rfl, rfl⟩).symm
    · have others : after.standing? runId key = before.standing? runId key := by
        refine does.standing?_of_other coherent coherentAfter sees fun other isOther => ?_
        obtain rfl := Option.some.inj (change.symm.trans isOther)
        exact isThis
      exact others.trans (if_neg isThis).symm

/-- What is written has been running at the same attempt. -/
theorem Execution.Sight.Does.standing?_of_written {stepRun : StepRun}
    (does : sight.Does mayAnswer before (some (.written stepRun)) after)
    (coherent : before.Coherent)
    (sees : ∀ id, sight.shown id = none ∨ sight.shown id = before.stepRuns.get? id) :
    before.standing? stepRun.runId stepRun.stepKey = some (.running, stepRun.attempt) := by
  cases does with
  | @writes seen _ _ _ isShown moves =>
    have held : before.stepRuns.get? seen.id = some seen := by
      rw [← moves.id]
      exact sight.held_of_shown (sees _) isShown
    rw [moves.runId, moves.stepKey, coherent.standing?_of_get? held, StepRun.standing, moves.running,
      moves.attempt]

/-- An account that has the steps right has them right after a turn that it has heard of. -/
theorem Execution.Sight.Does.heard (does : sight.Does mayAnswer before notice? after)
    (coherent : before.Coherent) (coherentAfter : after.Coherent)
    (sees : ∀ id, sight.shown id = none ∨ sight.shown id = before.stepRuns.get? id)
    (runs : ∀ stepRun, notice? = some (.begun stepRun) → stepRun.status = .running)
    (right : ∀ key, account.steps.get? key = before.standing? runId key) (key : String) :
    ((about runId (notice?.bind Notice.tiding?)).foldl Account.hearing account).steps.get? key =
      after.standing? runId key := by
  rw [does.standing?_eq coherent coherentAfter sees]
  cases notice? with
  | none => exact right key
  | some notice =>
    cases notice with
    | found | read => exact right key
    | begun stepRun =>
      refine (account.get?_hearing_begun (runs stepRun rfl) key).trans ?_
      rw [right]
      rfl
    | written stepRun =>
      refine (account.get?_hearing_written (fun ofRun => ?_) key).trans ?_
      · rw [right, ← ofRun]
        exact does.standing?_of_written coherent sees
      · rw [right]
        rfl

end Steps

section Runs

open Execution (Notice)
open Tiding (about)

variable {run later : Run} {account : Account}

/-- Hearing of a run leaves its steps as they are. -/
theorem Account.hearing_milestone (account : Account) (milestone? : Option Milestone) :
    ((milestone?.toList.map Tiding.run).foldl hearing account).steps = account.steps := by
  cases milestone? with
  | none => rfl
  | some milestone => cases milestone <;> rfl

/-- Hearing of a step leaves its run as it is. -/
theorem Account.hearing_notice (account : Account) (runId : Uuid) (notice? : Option Notice) :
    ((about runId (notice?.bind Notice.tiding?)).foldl hearing account).status = account.status ∧
      ((about runId (notice?.bind Notice.tiding?)).foldl hearing account).error = account.error := by
  have stays : ∀ key status, (account.hearing (.finished key status)).status = account.status ∧
      (account.hearing (.finished key status)).error = account.error := by
    intro key status
    simp only [hearing]
    split <;> exact ⟨rfl, rfl⟩
  cases notice? with
  | none => exact ⟨rfl, rfl⟩
  | some notice =>
    cases notice with
    | found | read => exact ⟨rfl, rfl⟩
    | begun stepRun =>
      by_cases ofRun : stepRun.runId = runId <;>
        simp [Notice.tiding?, about, ofRun, hearing]
    | written stepRun =>
      cases terminal : stepRun.status.isTerminal with
      | false => simp [Notice.tiding?, terminal, about]
      | true => by_cases ofRun : stepRun.runId = runId <;>
          simp [Notice.tiding?, terminal, about, ofRun, stays]

/-- An account that has a run right has it right after hearing of what has become of it. -/
theorem Run.Fares.heard {milestone? : Option Milestone} (fares : run.Fares milestone? later)
    (status : account.status = run.status)
    (error : run.status.isTerminal = true → account.error = run.error) :
    ((milestone?.toList.map Tiding.run).foldl Account.hearing account).status = later.status ∧
      (later.status.isTerminal = true →
        ((milestone?.toList.map Tiding.run).foldl Account.hearing account).error =
          later.error) := by
  cases fares with
  | stays sameStatus sameError =>
    rw [sameStatus, sameError]
    exact ⟨status, error⟩
  | begins pending running =>
    rw [running]
    exact ⟨rfl, fun terminal => nomatch terminal⟩
  | ends isOpen isStatus isError => exact ⟨isStatus.symm, fun _ => isError.symm⟩

end Runs

namespace Execution

open Tiding (about)

/-- What is earned is a milestone of a run, or what a notice tells. -/
theorem Request.earns?_cases (request : Request) (answer : request.Answer) (runId : Uuid) :
    (request.notice? answer = none ∧ about runId (request.earns? answer) =
        (request.earned? runId answer).toList.map Tiding.run) ∨
      (request.earned? runId answer = none ∧
        request.earns? answer = (request.notice? answer).bind Notice.tiding?) := by
  unfold earns?
  split
  · refine Or.inl ⟨rfl, ?_⟩
    simp only [about, earned?]
    split <;> rfl
  · refine Or.inl ⟨rfl, ?_⟩
    simp only [about, earned?]
    split <;> rfl
  · rename_i notStart notClose
    refine Or.inr ⟨?_, rfl⟩
    unfold earned?
    split
    · exact (notStart _ _ rfl HEq.rfl).elim
    · exact (notClose _ _ _ _ rfl HEq.rfl).elim
    · rfl

/-! ### Turns -/

section Turn

variable {mayAnswer : (request : Request) → request.Answer → Prop} {known : Uuid → Prop}
  {sight : Sight} {debt : Debt} {world after : World} {request : Request}
  {answer : request.Answer} {runId : Uuid}

/-- The one who is at work sees every step run as it is, and the log with what is owed amounts to what
the store holds. -/
structure Attested (known : Uuid → Prop) (runId : Uuid) (sight : Sight) (debt : Debt)
    (world : World) : Prop where
  coherent : world.store.Coherent
  borneOut : sight.BorneOut known world.store
  sees : ∀ id, sight.shown id = none ∨ sight.shown id = world.store.stepRuns.get? id
  found : debt.found? = sight.found?
  /-- Only what is there is said to have been started. -/
  started : ∀ id, debt.owed? = some (id, .run .started) → known id
  right : ((world.log.tidings runId ++ about runId debt.owed?).foldl Account.hearing .blank).Matches
    world.store runId

theorem Attested.withFailing (attested : Attested known runId sight debt world) (failing : Bool) :
    Attested known runId sight debt (world.withFailing failing) where
  coherent := attested.coherent.congr rfl rfl rfl rfl
  borneOut := ⟨attested.borneOut.runs, attested.borneOut.shown, attested.borneOut.found⟩
  sees := attested.sees
  found := attested.found
  started := attested.started
  right := ⟨attested.right.run, attested.right.steps⟩

/-- A step begins as a step run of the run and the step that have been asked for. -/
theorem Debt.reliable_acquire {store : Store} (coherent : store.Coherent) (debt : Debt) (id : Uuid)
    (step : Step) (now : Timestamp) :
    debt.Reliable (.store (.acquire id step now)) (store.answer (.acquire id step now)).1 := by
  simp only [Store.answer, Store.acquire]
  cases held : store.stepRunOf? id step.key with
  | none => exact ⟨rfl, rfl, rfl⟩
  | some stepRun => exact (coherent.held_of_stepRunOf? held).2

/-- A step run that begins again is the one that has been found. -/
theorem Debt.reliable_restart {store : Store} (coherent : store.Coherent) {debt : Debt}
    (found : ∀ seen, debt.found? = some seen → store.stepRuns.get? seen.id = some seen) (id : Uuid)
    (attempt : Nat) (now : Timestamp) :
    debt.Reliable (.store (.restart id attempt now)) (store.answer (.restart id attempt now)).1 := by
  have passes := Store.passes_answer coherent (.restart id attempt now)
  generalize (store.answer (.restart id attempt now)).1 = answer at passes ⊢
  cases answer with
  | error => trivial
  | ok restarted? =>
    cases restarted? with
    | none => trivial
    | some restarted =>
      cases passes with
      | restarted held running =>
        refine ⟨running, fun seen isFound same => ?_⟩
        obtain rfl := Option.some.inj (held.symm.trans (same ▸ found seen isFound))
        exact ⟨rfl, rfl⟩

/-- A program may rely on the answers of a store. -/
theorem Attested.reliable (attested : Attested known runId sight debt world)
    (answers : world.Answers mayAnswer request answer after) : debt.Reliable request answer := by
  cases request with
  | store request =>
    obtain ⟨rfl, _⟩ := answers
    cases request with
    | run id =>
      cases isAnswer : (world.store.answer (.run id)).1 with
      | ok => trivial
      | error fault =>
        intro owes
        obtain ⟨run, held⟩ := (attested.borneOut.runs id).mp (attested.started id owes)
        rw [Store.answer_run held] at isAnswer
        cases isAnswer
    | acquire id step now => exact debt.reliable_acquire attested.coherent id step now
    | restart id attempt now =>
      refine Debt.reliable_restart attested.coherent (fun seen isFound => ?_) id attempt now
      rw [attested.found] at isFound
      exact sight.held_of_shown (attested.sees _) (attested.borneOut.found seen isFound)
    | _ => trivial
  | _ => trivial

theorem Debt.noting_found? (debt : Debt) (sight : Sight) (answer : request.Answer) :
    (debt.noting request answer).found? = (sight.noting (request.notice? answer)).found? := by
  simp only [noting]
  split
  · rename_i isFound
    rw [isFound]
    rfl
  · rename_i notFound
    cases told : request.notice? answer with
    | none => rfl
    | some notice =>
      cases notice with
      | found stepRun => exact absurd told (notFound stepRun)
      | begun | read | written => rfl

theorem Debt.owed?_noting {owed : Uuid × Tiding}
    (owes : (debt.noting request answer).owed? = some owed) :
    request.earns? answer = some owed ∨ debt.owed? = some owed := by
  unfold noting at owes
  cases earns : request.earns? answer with
  | some earned =>
    simp only [earns] at owes
    exact Or.inl owes
  | none =>
    cases tells : request.tells? <;> simp only [earns, tells] at owes
    · exact Or.inr owes
    · cases owes

/-- Only what is there is started. -/
theorem World.Answers.hasRun (answers : world.Answers mayAnswer request answer after) {id : Uuid}
    (earns : request.earns? answer = some (id, .run .started)) : world.store.HasRun id := by
  unfold Request.earns? at earns
  split at earns
  · rename_i now
    cases earns
    have works : world.store.answer (.startRun id now) = world.store.startRun id now := rfl
    obtain ⟨_, undone⟩ | ⟨run, _, held, _⟩ := Store.changed_cases works
    · exact absurd answers.1.symm undone
    · exact ⟨run, held⟩
  · cases earns
  · obtain ⟨notice, _, tells⟩ := Option.bind_eq_some_iff.mp earns
    cases notice with
    | found | read | begun => cases tells
    | written stepRun =>
      cases terminal : stepRun.status.isTerminal <;> simp [Notice.tiding?, terminal] at tells

/-- What has been begun runs. -/
theorem Credible.running (credible : Credible mayAnswer known request answer) {stepRun : StepRun}
    (begins : request.notice? answer = some (.begun stepRun)) : stepRun.status = .running := by
  unfold Request.notice? at begins
  split at begins <;> cases begins
  · exact credible
  · exact credible.2

/-- An account that is right stays so by what a turn earns. -/
theorem Attested.heard {account : Account} (attested : Attested known runId sight debt world)
    (right : account.Matches world.store runId)
    (answers : world.Answers mayAnswer request answer after)
    (credible : Credible mayAnswer known request answer) (coherentAfter : after.store.Coherent)
    (does : sight.Does mayAnswer world.store (request.notice? answer) after.store) :
    ((about runId (request.earns? answer)).foldl Account.hearing account).Matches after.store
      runId := by
  obtain ⟨⟨run, held, status, error⟩, steps⟩ :=
    (Account.matches_iff attested.coherent).mp right
  obtain ⟨later, heldLater, fares⟩ := answers.fares held
  rw [Account.matches_iff coherentAfter]
  rcases request.earns?_cases answer runId with ⟨unnoticed, earns⟩ | ⟨unearned, earns⟩
  · obtain ⟨statusAfter, errorAfter⟩ := fares.heard status error
    rw [earns]
    refine ⟨⟨later, heldLater, statusAfter, errorAfter⟩, fun key => ?_⟩
    rw [account.hearing_milestone, steps,
      does.standing?_eq attested.coherent coherentAfter attested.sees, unnoticed]
    rfl
  · obtain ⟨sameStatus, sameError⟩ := account.hearing_notice runId (request.notice? answer)
    rw [unearned] at fares
    cases fares with
    | stays statusAfter errorAfter =>
      rw [earns]
      refine ⟨⟨later, heldLater, ?_, ?_⟩, does.heard attested.coherent coherentAfter attested.sees
        (fun _ => credible.running) steps⟩
      · rw [sameStatus, statusAfter, status]
      · rw [sameError, statusAfter, errorAfter]
        exact error

theorem Attested.turn (attested : Attested known runId sight debt world)
    (may : sight.May mayAnswer known request) (mayTell : debt.May request)
    (answers : world.Answers mayAnswer request answer after) :
    Credible mayAnswer known request answer ∧
      Attested known runId (sight.noting (request.notice? answer)) (debt.noting request answer)
        after := by
  obtain ⟨credible, coherentAfter, does, borneOut, _⟩ :=
    attested.borneOut.turned attested.coherent may answers
  refine ⟨credible, coherentAfter, borneOut, fun id => does.sees (attested.sees id),
    debt.noting_found? sight answer, fun id owes => ?_, ?_⟩
  · rcases Debt.owed?_noting owes with earns | owed
    · exact (attested.borneOut.runs id).mpr (answers.hasRun earns)
    · exact attested.started id owed
  · rw [mayTell.tidings answers, List.foldl_append]
    exact attested.heard attested.right answers credible coherentAfter does

end Turn

end Execution

/-! ### Any invocations -/

/-- Invocations one after the other, each of which is done before the next one.  Writes may begin and
cease to fail at any time. -/
inductive Operated (equipment : Equipment) (origin : World) : World → Prop
  | start : Operated equipment origin origin
  | invoked {mayAnswer : (request : Request) → request.Answer → Prop} {world after : World}
      (operated : Operated equipment origin world) (invocation : Invocation)
      (reaches : (invocation.program equipment).Reaches mayAnswer world (.done ()) after) :
    Operated equipment origin after

section Operated

variable {mayAnswer : (request : Request) → request.Answer → Prop} {equipment : Equipment}
  {origin world after : World}

/-- The log of a run that is right before an invocation is right after it. -/
theorem Execution.Invocation.replays (invocation : Invocation) {runId : Uuid}
    (reaches : (invocation.program equipment).Reaches mayAnswer world (.done ()) after)
    (coherent : world.store.Coherent) (right : (world.log.replay runId).Matches world.store runId) :
    after.store.Coherent ∧ (after.log.replay runId).Matches after.store runId := by
  have keeps : (invocation.program equipment).Heeds (recordkeeping mayAnswer world.store.HasRun)
      .blank fun _ _ => True := invocation.keepsRecords equipment
  have nothingOwed : ∀ log : EventLog, log.tidings runId ++ Tiding.about runId none =
      log.tidings runId := fun _ => List.append_nil _
  have initially : Attested world.store.HasRun runId .blank .blank world := by
    refine ⟨coherent, Sight.borneOut_blank _, fun _ => Or.inl rfl, rfl, by rintro _ ⟨⟩, ?_⟩
    rw [show Debt.blank.owed? = none from rfl, nothingOwed]
    exact right
  have heeds := keeps.and (invocation.tells equipment)
  obtain ⟨⟨sight, debt⟩, attested, _, settled⟩ := reaches.heeded heeds
    (fun state => Attested world.store.HasRun runId state.1 state.2) initially
    (fun state world request answer after attested may answers => by
      obtain ⟨credible, attestedAfter⟩ := attested.turn may.1 may.2 answers
      exact ⟨(_, _), ⟨⟨credible, rfl⟩, attested.reliable answers, rfl⟩, attestedAfter⟩)
    fun _ _ failing attested => attested.withFailing failing
  refine ⟨attested.coherent, ?_⟩
  have rightAfter := attested.right
  rwa [settled, nothingOwed] at rightAfter

/-- Whatever has been done with it since nothing had begun, the log of a run amounts to what the store
holds. -/
theorem replays_of_operated {run : Run} (coherent : origin.store.Coherent)
    (held : origin.store.runs.get? run.id = some run) (fresh : run.status = .pending)
    (unbegun : origin.store.stepRunsOf run.id = []) (unlogged : origin.log.ofRun run.id = [])
    (operated : Operated equipment origin world) :
    (world.log.replay run.id).Matches world.store run.id := by
  have kept : world.store.Coherent ∧ (world.log.replay run.id).Matches world.store run.id := by
    induction operated with
    | start =>
      have silent : origin.log.replay run.id = .blank := by
        rw [EventLog.replay, EventLog.tidings, unlogged]
        rfl
      rw [silent]
      refine ⟨coherent, ⟨run, held, fresh.symm, ?_⟩, fun key status attempt => ?_⟩
      · rw [fresh]
        exact fun terminal => nomatch terminal
      · rw [unbegun]
        refine ⟨fun no => (nomatch no), ?_⟩
        rintro ⟨_, member, _⟩
        cases member
    | invoked _ invocation reaches kept => exact invocation.replays reaches kept.1 kept.2
  exact kept.2

end Operated

/-! ### An execution that is disturbed, and then taken up again -/

namespace Example

/-- Once the run has been entered no write succeeds. -/
def disturbed : World :=
  (((stepping steps).run (World.answer (surroundings accepted))).run
    (firstEntry.2.withFailing true)).2

/-- The run is taken up again, while writes work. -/
def takenUp : World :=
  (World.runJob (surroundings accepted) (execute equipment run.id (some 10))
    (disturbed.withFailing false)).2

def calledOff : World := (World.runJob (surroundings accepted) (cancel run.id) takenUp).2

theorem operated_calledOff : Operated equipment world calledOff := by
  obtain ⟨_, breaks⟩ := World.runs_run (surroundings accepted) (stepping steps)
    (firstEntry.2.withFailing true)
  obtain ⟨_, resumes⟩ := World.runs_runJob (surroundings accepted)
    (execute equipment run.id (some 10)) (disturbed.withFailing false)
  obtain ⟨_, cancels⟩ := World.runs_runJob (surroundings accepted) (cancel run.id) takenUp
  have first := ((reaches_firstEntry.withFailing true).trans breaks.arrives).withFailing false
  exact ((Operated.start.invoked (.execute run.id none) first.forgetful).invoked
    (.execute run.id (some 10)) resumes.arrives.forgetful).invoked (.cancel run.id)
      cancels.arrives.forgetful

theorem replays_calledOff : (calledOff.log.replay run.id).Matches calledOff.store run.id := by
  have unbegun : world.store.stepRunsOf run.id = [] := List.mergeSort_nil
  exact replays_of_operated coherent_store rfl rfl unbegun rfl operated_calledOff

end Example

end Vetting
