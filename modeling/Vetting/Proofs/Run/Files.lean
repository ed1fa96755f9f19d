import Vetting.Proofs.Run.Filing
import Vetting.Proofs.Run.OneWay
import Vetting.Proofs.Run.Supersession

/-!
Contract: each step of a run has one step run, with one place for its findings and one event that
tells its beginning.

Owns:
- what answering a request does to the entries of step runs and to findings;
- `Filed`: what programs that file everything where it belongs make of a world;
- that every turn leaves this so;
- `World.Orderly`, what holds of every world however many invocations take turns, and
  `World.Keeps`, what no turn ever changes.

Does not own: that invocations file everything where it belongs (`Vetting.Proofs.Run.Filing`).

The tables of a store and its log are only tied together by what the programs do: whoever makes
a step run tells its beginning in a turn of its own.
-/

namespace Vetting

open Execution

/-! ### Beginnings that are told -/

/-- The run and the step whose beginning an event tells. -/
def Event.begun? (event : Event) : Option (Uuid × String) :=
  event.kind.begun?.map fun key => (event.runId, key)

/-- The beginnings that a log tells of. -/
def EventLog.beginnings (log : EventLog) : List (Uuid × String) := log.filterMap Event.begun?

theorem EventLog.beginnings_append (log : EventLog) (runId : Uuid) (kind : EventKind)
    (time : Timestamp) :
    (log.append runId kind time).1.beginnings =
      log.beginnings ++ (kind.begun?.map fun key => (runId, key)).toList := by
  rw [beginnings, EventLog.append, List.filterMap_append]
  cases tells : kind.begun? <;> simp [beginnings, Event.begun?, tells]

/-! ### What a request does to entries and findings -/

namespace Store

/-- Step runs stay there, with the identifiers and entries that they have. -/
def Keeps (before after : Store) : Prop :=
  ∀ id stepRun, before.stepRuns.get? id = some stepRun →
    ∃ same, after.stepRuns.get? id = some same ∧ same.id = stepRun.id ∧ same.entry = stepRun.entry

theorem Keeps.refl (store : Store) : store.Keeps store :=
  fun _ stepRun held => ⟨stepRun, held, rfl, rfl⟩

theorem Keeps.trans {first second third : Store} (left : first.Keeps second)
    (right : second.Keeps third) : first.Keeps third := by
  intro id stepRun held
  obtain ⟨middle, heldMiddle, sameId, sameEntry⟩ := left id stepRun held
  obtain ⟨last, heldLast, lastId, lastEntry⟩ := right id middle heldMiddle
  exact ⟨last, heldLast, lastId.trans sameId, lastEntry.trans sameEntry⟩

variable {store before after : Store} {request : StoreRequest} {notice? : Option Notice}

/-- Who writes step runs only under their entries leaves all of them where they are. -/
theorem Passes.keeps (passes : before.Passes request notice? after) (coherent : before.Coherent)
    (files : ∀ stepRun old, request = .updateStepRun stepRun →
      before.stepRuns.get? stepRun.id = some old → stepRun.entry = old.entry) :
    before.Keeps after := by
  intro id stepRun held
  rw [passes.get?]
  cases passes with
  | same | changed | replaced | appended | receipted | found | read =>
    exact ⟨stepRun, held, rfl, rfl⟩
  | @created runId step now absent =>
    refine ⟨stepRun, (if_neg ?_).trans held, rfl, rfl⟩
    rintro rfl
    have fresh : before.stepRuns.get? before.freshId = some stepRun := held
    rw [get?_freshId] at fresh
    cases fresh
  | @restarted old now after heldOld =>
    by_cases same : (Execution.restarted old now).id = id
    · subst same
      obtain rfl := Option.some.inj (heldOld.symm.trans held)
      exact ⟨_, if_pos rfl, rfl, rfl⟩
    · exact ⟨stepRun, (if_neg same).trans held, rfl, rfl⟩
  | @written changed old heldOld =>
    by_cases same : changed.id = id
    · subst same
      obtain rfl := Option.some.inj (heldOld.symm.trans held)
      exact ⟨changed, if_pos rfl, (coherent.stepRunIds _ _ held).symm, files _ _ rfl heldOld⟩
    · exact ⟨stepRun, (if_neg same).trans held, rfl, rfl⟩

private theorem findings_changed (id : Uuid) (change : Run → Option Run)
    {result : Except EngineFault Bool × Store}
    (opened : result = match store.runs.get? id with
      | none => (.error (.runNotFound id), store)
      | some run => match change run with
        | none => (.ok false, store)
        | some changed => (.ok true, { store with runs := store.runs.set id changed })) :
    result.2.findings = store.findings := by
  rcases changed_cases opened with ⟨same, _⟩ | ⟨_, _, _, _, rfl⟩
  · rw [same]
  · rfl

/-- Findings that are stored after a request have been stored before, or the request has stored
them. -/
theorem findings_answer (request : StoreRequest) {id : Uuid} {findings : List Finding}
    (held : (store.answer request).2.findings.get? id = some findings) :
    store.findings.get? id = some findings ∨ request = .replaceFindings id findings ∨
      ∃ added, request = .appendFindings id added ∧ findings = store.findingsOf id ++ added := by
  have untouched : (store.answer request).2.findings = store.findings →
      store.findings.get? id = some findings ∨ request = .replaceFindings id findings ∨
        ∃ added, request = .appendFindings id added ∧
          findings = store.findingsOf id ++ added := by
    intro same
    rw [same] at held
    exact .inl held
  cases request with
  | restart stepRunId attempt now =>
    cases isThere : store.stepRuns.get? stepRunId with
    | none =>
      simp only [answer, restart, isThere] at held
      exact .inl held
    | some stepRun =>
      by_cases fits : stepRun.status = .running ∧ stepRun.attempt = attempt
      · simp only [answer, restart, isThere, fits, and_self, if_true, Table.get?_remove] at held
        split at held
        · cases held
        · exact .inl held
      · simp only [answer, restart, isThere, fits, if_false] at held
        exact .inl held
  | replaceFindings stepRunId stored =>
    cases failing : store.failingWrites with
    | true =>
      simp only [answer, replaceFindings, failing, if_true] at held
      exact .inl held
    | false =>
      rw [answer_replaceFindings failing] at held
      rcases Table.get?_set_cases held with ⟨rfl, rfl⟩ | ⟨_, before⟩
      · exact .inr (.inl rfl)
      · exact .inl before
  | appendFindings stepRunId added =>
    cases failing : store.failingWrites with
    | true =>
      simp only [answer, appendFindings, replaceFindings, failing, if_true] at held
      exact .inl held
    | false =>
      rw [answer_appendFindings, answer_replaceFindings failing] at held
      rcases Table.get?_set_cases held with ⟨rfl, rfl⟩ | ⟨_, before⟩
      · exact .inr (.inr ⟨added, rfl, rfl⟩)
      · exact .inl before
  | startRun id now =>
    exact untouched (findings_changed id (fun run =>
      if run.status = .pending then some { run with status := .running, startedAt := some now }
      else none) rfl)
  | closeRun id status error now =>
    refine untouched ?_
    cases failing : store.failingWrites with
    | true => simp only [answer, closeRun, failing, if_true]
    | false =>
      have works : store.answer (.closeRun id status error now) = _ := if_neg (by simp [failing])
      exact findings_changed id (fun run => if run.status.isTerminal then none
        else some { run with status, error, endedAt := some now }) works
  | saveSummary id summary =>
    exact untouched (findings_changed id (fun run => some (run.summarized summary)) rfl)
  | flagCancel id => exact untouched (findings_changed id (fun run => some run.flagged) rfl)
  | submission id =>
    refine untouched ?_
    cases isThere : store.submissions.get? id <;> simp only [answer, isThere]
  | run | cancelFlag | stepRun | stepRuns | findings | runFindings | releaseCallback =>
    exact untouched rfl
  | acquire runId step now =>
    refine untouched ?_
    simp only [answer, acquire]
    split <;> rfl
  | updateStepRun stepRun =>
    refine untouched ?_
    simp only [answer, updateStepRun]
    split
    · rfl
    · split <;> rfl
  | recordCallback key id now =>
    refine untouched ?_
    simp only [answer, recordCallback]
    split <;> rfl

end Store

namespace Execution

/-- Step runs stay there, with the identifiers and entries that they have. -/
def World.Keeps (before after : World) : Prop := before.store.Keeps after.store

/-- A step run of the run and the step is there. -/
def World.HasStep (world : World) (beginning : Uuid × String) : Prop :=
  ∃ id stepRun, world.store.stepRuns.get? id = some stepRun ∧
    (stepRun.runId, stepRun.stepKey) = beginning

theorem World.Keeps.refl (world : World) : world.Keeps world := Store.Keeps.refl world.store

theorem World.HasStep.keeps {before after : World} {beginning : Uuid × String}
    (has : before.HasStep beginning) (keeps : before.Keeps after) : after.HasStep beginning := by
  obtain ⟨id, stepRun, held, rfl⟩ := has
  obtain ⟨same, heldSame, _, sameEntry⟩ := keeps id stepRun held
  obtain ⟨sameRun, samePlace⟩ := Prod.mk.inj sameEntry
  exact ⟨id, same, heldSame, by rw [sameRun, (Prod.mk.inj samePlace).1]⟩

/-! ### What a turn does -/

section Turn

variable {mayAnswer : (request : Request) → request.Answer → Prop} {known : Uuid → Prop}
  {world after : World} {request : Request} {answer : request.Answer} {sight : Sight}
  {register : Register}

theorem World.Answers.beginnings (answers : world.Answers mayAnswer request answer after) :
    after.log.beginnings = world.log.beginnings ++ request.begun?.toList := by
  cases request with
  | log runId kind =>
    obtain ⟨time, rfl⟩ := answers
    exact EventLog.beginnings_append _ _ _ _
  | store =>
    obtain ⟨rfl, rfl⟩ := answers
    exact (List.append_nil _).symm
  | stamp | validate | act | backendAvailable | launch =>
    obtain ⟨_, rfl⟩ := answers
    exact (List.append_nil _).symm

theorem Request.begun?_of_begins {beginning : Uuid × String}
    (begins : request.begins? answer = some beginning) : request.begun? = none := by
  cases request with
  | store => rfl
  | _ => cases begins

theorem Register.owed?_noting {beginning : Uuid × String}
    (owes : (register.noting request answer).owed? = some beginning) :
    request.begins? answer = some beginning ∨
      (register.owed? = some beginning ∧ request.begun? = none) := by
  unfold Register.noting at owes
  cases begins : request.begins? answer with
  | some other =>
    simp only [begins] at owes
    exact .inl owes
  | none =>
    cases tells : request.begun? with
    | some other => simp [begins, tells] at owes
    | none =>
      simp only [begins, tells] at owes
      exact .inr ⟨owes, rfl⟩

/-- Only a beginning that is owed is told. -/
theorem Register.May.begun (may : register.May request) {beginning : Uuid × String}
    (tells : request.begun? = some beginning) : register.owed? = some beginning := by
  cases request with
  | log runId kind =>
    obtain ⟨key, isKey, rfl⟩ := Option.map_eq_some_iff.mp tells
    exact may key isKey
  | _ => cases tells

/-- An entry that is known after an answer has just been told, or has been known before. -/
theorem Register.entries_noting {id : Uuid} {entry : Uuid × String × Int}
    (known : (register.noting request answer).entries id = some entry) :
    (∃ notice, request.notice? answer = some notice ∧ notice.stepRun.id = id ∧
      notice.stepRun.entry = entry) ∨ register.entries id = some entry := by
  unfold Register.noting at known
  cases told : request.notice? answer with
  | none =>
    simp only [told] at known
    exact .inr known
  | some notice =>
    simp only [told] at known
    by_cases same : id = notice.stepRun.id
    · subst same
      rw [Function.update_self] at known
      exact .inl ⟨notice, rfl, rfl, Option.some.inj known⟩
    · rw [Function.update_of_ne same] at known
      exact .inr known

/-- A step that is begun has had no step run, and has one now. -/
theorem World.Answers.begins (answers : world.Answers mayAnswer request answer after)
    (coherent : world.store.Coherent) {beginning : Uuid × String}
    (begins : request.begins? answer = some beginning) :
    ¬ world.HasStep beginning ∧ after.HasStep beginning := by
  unfold Request.begins? at begins
  split at begins
  · rename_i runId step now stepRun
    cases begins
    obtain ⟨isAnswer, rfl⟩ := answers
    cases isThere : world.store.stepRunOf? runId step.key with
    | some other => simp [Store.answer, Store.acquire, isThere] at isAnswer
    | none =>
      let created := StepRun.begun world.store.freshId runId step now
      refine ⟨?_, created.id, created, ?_, rfl⟩
      · rintro ⟨id, other, held, same⟩
        obtain ⟨ofRun, ofKey⟩ := Prod.mk.inj same
        obtain rfl := coherent.stepRunIds _ _ held
        have member := coherent.mem_stepRunsOf.mpr ⟨held, ofRun⟩
        rw [← ofKey, coherent.stepRunOf?_of_mem member] at isThere
        cases isThere
      · simp only [Store.answer, Store.acquire, isThere, Store.putStepRun, Table.get?_set]
        exact if_pos rfl
  · cases begins

/-- A program that files everything where it belongs moves no step run. -/
theorem World.Answers.keeps (answers : world.Answers mayAnswer request answer after)
    (coherent : world.store.Coherent) (may : register.May request)
    (borneOut : ∀ id entry, register.entries id = some entry →
      ∃ stepRun, world.store.stepRuns.get? id = some stepRun ∧ stepRun.entry = entry) :
    world.Keeps after := by
  cases request with
  | store request =>
    obtain ⟨rfl, rfl⟩ := answers
    refine (Store.passes_answer coherent request).keeps coherent ?_
    rintro stepRun old rfl held
    obtain ⟨other, isOther, sameEntry⟩ := borneOut _ _ may
    obtain rfl := Option.some.inj (isOther.symm.trans held)
    exact sameEntry.symm
  | log | stamp | validate | act | backendAvailable | launch =>
    obtain ⟨_, rfl⟩ := answers
    exact Store.Keeps.refl _

/-- A step run is acquired for its own run. -/
theorem World.Answers.ofRun (answers : world.Answers mayAnswer request answer after)
    (coherent : world.store.Coherent) {runId : Uuid} {step : Step} {now : Timestamp}
    (acquires : request = .store (.acquire runId step now)) {notice : Notice}
    (told : request.notice? answer = some notice) : notice.stepRun.runId = runId := by
  subst acquires
  obtain ⟨rfl, _⟩ := answers
  have passes := Store.passes_answer coherent (.acquire runId step now)
  rw [told] at passes
  generalize (world.store.answer (.acquire runId step now)).2 = later at passes
  cases passes with
  | created absent => rfl
  | found held ofRun => exact ofRun

end Turn

/-! ### Worlds in which everything is filed -/

section Filed

variable {ι : Type} {registers : ι → Register} {world after : World}

/-- The step run is there, and the findings name it and its run. -/
def World.Owns (world : World) (id : Uuid) (findings : List Finding) : Prop :=
  ∃ stepRun, world.store.stepRuns.get? id = some stepRun ∧
    ∀ finding ∈ findings, finding.stepRunId = id ∧ finding.runId = stepRun.runId

/-- Findings are stored for step runs that are there, and name them and their runs. -/
def World.Recorded (world : World) : Prop :=
  ∀ id findings, world.store.findings.get? id = some findings → world.Owns id findings

theorem World.Owns.keeps {id : Uuid} {findings : List Finding} (owns : world.Owns id findings)
    (keeps : world.Keeps after) : after.Owns id findings := by
  obtain ⟨stepRun, held, named⟩ := owns
  obtain ⟨same, heldSame, _, sameEntry⟩ := keeps id stepRun held
  have sameRun : same.runId = stepRun.runId := congrArg Prod.fst sameEntry
  refine ⟨same, heldSame, fun finding member => ?_⟩
  rw [sameRun]
  exact named finding member

/-- A beginning that is told or owed has been made.  It is told once, and owed by one program until
then. -/
structure Announced (registers : ι → Register) (world : World) : Prop where
  told : ∀ beginning ∈ world.log.beginnings, world.HasStep beginning
  once : world.log.beginnings.Nodup
  owed : ∀ who beginning, (registers who).owed? = some beginning →
    world.HasStep beginning ∧ beginning ∉ world.log.beginnings ∧
      ∀ other, (registers other).owed? = some beginning → other = who

/-- What programs that file everything where it belongs make of a world. -/
structure Filed (registers : ι → Register) (world : World) : Prop where
  entries : ∀ who id entry, (registers who).entries id = some entry →
    ∃ stepRun, world.store.stepRuns.get? id = some stepRun ∧ stepRun.entry = entry
  recorded : world.Recorded
  announced : Announced registers world

theorem Filed.start (unrecorded : world.store.findings = []) (untold : world.log.beginnings = []) :
    Filed (fun _ : ι => Register.blank) world where
  entries := fun _ _ _ known => nomatch known
  recorded := by
    intro id findings held
    rw [unrecorded] at held
    cases held
  announced := ⟨by simp [untold], by simp [untold], fun _ _ owes => nomatch owes⟩

theorem Filed.withFailing (filed : Filed registers world) (failing : Bool) :
    Filed registers (world.withFailing failing) :=
  ⟨filed.entries, filed.recorded, filed.announced.told, filed.announced.once,
    filed.announced.owed⟩

variable {mayAnswer : (request : Request) → request.Answer → Prop} {request : Request}
  {answer : request.Answer} {who : ι}

/-- Findings that a program stores name the step run and its run. -/
theorem Filed.records (filed : Filed registers world) (may : (registers who).May request)
    (answers : world.Answers mayAnswer request answer after) (keeps : world.Keeps after) :
    after.Recorded := by
  intro id findings held
  refine World.Owns.keeps ?_ keeps
  cases request with
  | store request =>
    obtain ⟨rfl, rfl⟩ := answers
    rcases Store.findings_answer request held with before | rfl | ⟨added, rfl, rfl⟩
    · exact filed.recorded id findings before
    · obtain ⟨entry, known, named⟩ := may
      obtain ⟨stepRun, heldStep, rfl⟩ := filed.entries who id entry known
      exact ⟨stepRun, heldStep, named⟩
    · obtain ⟨entry, known, named⟩ := may
      obtain ⟨stepRun, heldStep, rfl⟩ := filed.entries who id entry known
      refine ⟨stepRun, heldStep, fun finding member => ?_⟩
      rcases List.mem_append.mp member with earlier | new
      · cases before : world.store.findings.get? id with
        | none => simp [Store.findingsOf, before] at earlier
        | some old =>
          obtain ⟨other, isOther, namedBefore⟩ := filed.recorded id old before
          obtain rfl := Option.some.inj (isOther.symm.trans heldStep)
          simp only [Store.findingsOf, before, Option.getD_some] at earlier
          exact namedBefore finding earlier
      · exact named finding new
  | log | stamp | validate | act | backendAvailable | launch =>
    obtain ⟨_, rfl⟩ := answers
    exact filed.recorded id findings held

/-- A beginning that is told after a turn has been told before, or it is told in that turn. -/
theorem World.Answers.told_cases {beginning : Uuid × String}
    (answers : world.Answers mayAnswer request answer after)
    (member : beginning ∈ after.log.beginnings) :
    beginning ∈ world.log.beginnings ∨ request.begun? = some beginning := by
  rw [answers.beginnings] at member
  exact (List.mem_append.mp member).imp id Option.mem_toList.mp

/-- A beginning that is owed after a turn has been made in that turn, or it has been owed before and
is not told in that turn. -/
theorem Register.owed?_update [DecidableEq ι] {owner : ι} {beginning : Uuid × String}
    (owes : (Function.update registers who ((registers who).noting request answer) owner).owed? =
      some beginning) :
    (owner = who ∧ request.begins? answer = some beginning) ∨
      ((registers owner).owed? = some beginning ∧ (owner = who → request.begun? = none)) := by
  by_cases same : owner = who
  · subst same
    rw [Function.update_self] at owes
    rcases Register.owed?_noting owes with begins | ⟨owed, quiet⟩
    · exact .inl ⟨rfl, begins⟩
    · exact .inr ⟨owed, fun _ => quiet⟩
  · rw [Function.update_of_ne same] at owes
    exact .inr ⟨owes, fun no => absurd no same⟩

/-- Whoever begins a step owes it, and nobody else does; whoever tells it owes it no more. -/
theorem Announced.turn [DecidableEq ι] (announced : Announced registers world)
    (coherent : world.store.Coherent) (may : (registers who).May request)
    (answers : world.Answers mayAnswer request answer after) (keeps : world.Keeps after) :
    Announced (Function.update registers who ((registers who).noting request answer)) after := by
  have stillThere : ∀ beginning, world.HasStep beginning → after.HasStep beginning :=
    fun _ has => has.keeps keeps
  -- A beginning that has just been made has been nobody's before, as it had no step run.
  have isNew : ∀ beginning, request.begins? answer = some beginning →
      ¬ world.HasStep beginning ∧ after.HasStep beginning :=
    fun beginning begins => answers.begins coherent begins
  refine ⟨fun beginning member => ?_, ?_, fun one beginning owes => ?_⟩
  · rcases answers.told_cases member with earlier | now
    · exact stillThere beginning (announced.told beginning earlier)
    · exact stillThere beginning (announced.owed who beginning (may.begun now)).1
  · rw [answers.beginnings]
    cases tells : request.begun? with
    | none =>
      rw [Option.toList_none, List.append_nil]
      exact announced.once
    | some beginning =>
      have untold := (announced.owed who beginning (may.begun tells)).2.1
      rw [Option.toList_some]
      refine List.nodup_append.mpr ⟨announced.once, List.nodup_cons.mpr ⟨by simp, .nil⟩, ?_⟩
      intro first earlier second now
      rw [List.mem_singleton.mp now]
      exact ne_of_mem_of_not_mem earlier untold
  · rcases Register.owed?_update owes with ⟨rfl, begins⟩ | ⟨owed, quiet⟩
    · refine ⟨(isNew beginning begins).2, fun member => ?_, fun owner owes => ?_⟩
      · rcases answers.told_cases member with earlier | now
        · exact (isNew beginning begins).1 (announced.told beginning earlier)
        · rw [Request.begun?_of_begins begins] at now
          cases now
      · rcases Register.owed?_update owes with ⟨same, _⟩ | ⟨owed, _⟩
        · exact same
        · exact absurd (announced.owed owner beginning owed).1 (isNew beginning begins).1
    · obtain ⟨has, untold, alone⟩ := announced.owed one beginning owed
      refine ⟨stillThere beginning has, fun member => ?_, fun owner owes => ?_⟩
      · rcases answers.told_cases member with earlier | now
        · exact untold earlier
        · rw [quiet (alone who (may.begun now)).symm] at now
          cases now
      · rcases Register.owed?_update owes with ⟨_, begins⟩ | ⟨owed, _⟩
        · exact absurd has (isNew beginning begins).1
        · exact alone owner owed

/-- What every turn leaves. -/
theorem Filed.turn [DecidableEq ι] (filed : Filed registers world)
    (coherent : world.store.Coherent) (may : (registers who).May request)
    (answers : world.Answers mayAnswer request answer after)
    (stored : ∀ notice, request.notice? answer = some notice →
      after.store.stepRuns.get? notice.stepRun.id = some notice.stepRun) :
    (registers who).Trusts request answer ∧ world.Keeps after ∧
      Filed (Function.update registers who ((registers who).noting request answer)) after := by
  have keeps := answers.keeps coherent may (filed.entries who)
  have still : ∀ one id entry, (registers one).entries id = some entry →
      ∃ stepRun, after.store.stepRuns.get? id = some stepRun ∧ stepRun.entry = entry := by
    intro one id entry known
    obtain ⟨stepRun, held, rfl⟩ := filed.entries one id entry known
    obtain ⟨same, heldSame, _, sameEntry⟩ := keeps id stepRun held
    exact ⟨same, heldSame, sameEntry⟩
  refine ⟨⟨fun notice told entry known => ?_, fun runId step now acquires notice told =>
    answers.ofRun coherent acquires told⟩, keeps, fun one id entry known => ?_,
    filed.records may answers keeps, filed.announced.turn coherent may answers keeps⟩
  · obtain ⟨stepRun, held, rfl⟩ := still who _ entry known
    rw [stored notice told] at held
    exact congrArg StepRun.entry (Option.some.inj held)
  · by_cases same : one = who
    · subst same
      rw [Function.update_self] at known
      rcases Register.entries_noting known with ⟨notice, told, rfl, isEntry⟩ | before
      · exact ⟨notice.stepRun, stored notice told, isEntry⟩
      · exact still one id entry before
    · rw [Function.update_of_ne same] at known
      exact still one id entry known

end Filed

/-! ### Any number of invocations -/

/-- Each step of a run has one step run, to which the index leads, which owns its findings, and
whose beginning is told once. -/
structure World.Orderly (world : World) : Prop where
  unique : ∀ first second stepRun other, world.store.stepRuns.get? first = some stepRun →
    world.store.stepRuns.get? second = some other → stepRun.runId = other.runId →
    stepRun.stepKey = other.stepKey → first = second
  indexed : ∀ runId key id, world.store.stepIndex.get? (runId, key) = some id ↔
    ∃ stepRun, world.store.stepRuns.get? id = some stepRun ∧ stepRun.id = id ∧
      stepRun.runId = runId ∧ stepRun.stepKey = key
  recorded : world.Recorded
  begunOnce : world.log.beginnings.Nodup

theorem Filed.orderly {ι : Type} {registers : ι → Register} {world : World}
    (filed : Filed registers world) (coherent : world.store.Coherent) : world.Orderly where
  unique := by
    intro first second stepRun other held heldOther sameRun sameKey
    have index := (coherent.indexed _ _ first).mpr ⟨stepRun, held, sameRun, sameKey⟩
    rw [(coherent.indexed _ _ second).mpr ⟨other, heldOther, rfl, rfl⟩] at index
    exact (Option.some.inj index).symm
  indexed := by
    intro runId key id
    rw [coherent.indexed]
    constructor
    · rintro ⟨stepRun, held, ofRun, ofKey⟩
      exact ⟨stepRun, held, coherent.stepRunIds id stepRun held, ofRun, ofKey⟩
    · rintro ⟨stepRun, held, _, ofRun, ofKey⟩
      exact ⟨stepRun, held, ofRun, ofKey⟩
  recorded := filed.recorded
  begunOnce := filed.announced.once

/-- A store without step runs, index and findings, whose runs are filed under their identifiers. -/
structure World.Unbegun (world : World) : Prop where
  filed : ∀ id run, world.store.runs.get? id = some run → run.id = id
  stepRuns : world.store.stepRuns = []
  stepIndex : world.store.stepIndex = []
  findings : world.store.findings = []
  untold : world.log.beginnings = []

theorem World.Unbegun.coherent {world : World} (unbegun : world.Unbegun) :
    world.store.Coherent where
  runIds := unbegun.filed
  distinct := by simp [unbegun.stepRuns]
  stepRunIds := by simp [unbegun.stepRuns, Table.get?]
  indexed := by simp [unbegun.stepRuns, unbegun.stepIndex, Table.get?]
  rooted := by simp [unbegun.stepRuns, Table.get?]
  recorded := by simp [Store.findingsOf, unbegun.findings, Table.get?]

/-- However many invocations take turns from when nothing has begun: in every world each step of a
run has one step run, and from each world to every later one step runs stay where they are. -/
theorem orderly_of_interleaves {ι : Type} [DecidableEq ι]
    {mayAnswer : (request : Request) → request.Answer → Prop} {equipment : Equipment}
    {invocations : ι → Invocation} {origin world : World} {turns : List (Turn ι)}
    {rest : ι → Program Unit} (unbegun : origin.Unbegun)
    (interleaves : Interleaves mayAnswer (fun who => (invocations who).program equipment) origin
      turns rest world) :
    (∀ passing ∈ worldsOf origin turns, passing.Orderly) ∧
      (worldsOf origin turns).Pairwise World.Keeps := by
  have heeds : ∀ who, ((invocations who).program equipment).Heeds
      ((recordkeeping mayAnswer origin.store.HasRun).and (filing mayAnswer origin.store.HasRun))
      ((fun _ => (Sight.blank, Register.blank)) who)
      ((fun _ _ _ => True : ι → Unit → _ → Prop) who) :=
    fun who => (((invocations who).keepsRecords equipment).and
      ((invocations who).files equipment)).imp fun _ _ _ => trivial
  have coherent := unbegun.coherent
  have filedFirst : Filed (fun _ : ι => Register.blank) origin :=
    .start unbegun.findings unbegun.untold
  obtain ⟨states, ⟨_, _, orderly, keeps, _⟩, _⟩ := interleaves.heeded heeds
    (fun states turns world =>
      Interplay origin.store.HasRun (fun who => (states who).1) world ∧
      Filed (fun who => (states who).2) world ∧
      (∀ passing ∈ worldsOf origin turns, passing.Orderly) ∧
      (worldsOf origin turns).Pairwise World.Keeps ∧
      ∀ passing ∈ worldsOf origin turns, passing.Keeps world)
    ⟨.start coherent, filedFirst, by simpa [worldsOf] using filedFirst.orderly coherent,
      List.pairwise_singleton _ _, by simpa [worldsOf] using World.Keeps.refl origin⟩
    (fun states turns world who request answer after kept may answers => by
      obtain ⟨interplay, filed, orderly, keeps, last⟩ := kept
      obtain ⟨credible, does, interplayAfter⟩ := interplay.turn who may.1 answers
      obtain ⟨trusts, keepsNow, filedAfter⟩ := filed.turn interplay.coherent may.2 answers
        fun notice told => (told ▸ does).get?_told
      let state := ((states who).1.noting (request.notice? answer),
        (states who).2.noting request answer)
      have sights : (fun other => (Function.update states who state other).1) =
          Function.update (fun other => (states other).1) who state.1 :=
        Function.comp_update Prod.fst states who state
      have registers : (fun other => (Function.update states who state other).2) =
          Function.update (fun other => (states other).2) who state.2 :=
        Function.comp_update Prod.snd states who state
      have throughout : ∀ passing ∈ worldsOf origin turns, passing.Keeps after :=
        fun passing member => (last passing member).trans keepsNow
      refine ⟨state, ⟨⟨credible, rfl⟩, credible, trusts, rfl⟩, ?_, ?_, ?_, ?_, ?_⟩
      · rw [sights]
        exact interplayAfter
      · rw [registers]
        exact filedAfter
      · rw [worldsOf_append]
        simpa [or_imp, forall_and] using
          And.intro orderly (filedAfter.orderly interplayAfter.coherent)
      · rw [worldsOf_append]
        exact List.pairwise_append.mpr ⟨keeps, List.pairwise_singleton _ _,
          fun passing member next isNext => by
            obtain rfl := List.mem_singleton.mp isNext
            exact throughout passing member⟩
      · rw [worldsOf_append]
        simpa [or_imp, forall_and] using And.intro throughout (World.Keeps.refl after))
    fun states turns world failing kept => by
      obtain ⟨interplay, filed, orderly, keeps, last⟩ := kept
      exact ⟨interplay.withFailing failing, filed.withFailing failing, orderly, keeps, last⟩
  exact ⟨orderly, keeps⟩

end Execution

/-! ### Two executions of one run -/

namespace Example

open Execution

/-- Two executions of the run, of which the second one goes on with it. -/
def resuming (second : Bool) : Invocation := .execute run.id (if second then some 10 else none)

/-- The response of a job that has ended without a report. -/
def silent : JobResponse := { accepted with isComplete := true }

/-- The first execution begins the step and tells so after the second one has begun it again. -/
def recovering : List (Turn Bool) × (Bool → Program (Except EngineFault RunOutcome)) × World :=
  World.takeTurns (surroundings silent)
    (List.replicate 3 false ++ List.replicate 14 true ++ [false] ++ List.replicate 4 true)
    (fun _ => stepping steps) (entering silent).2.2

theorem interleaves_recovering : Interleaves (surroundings silent).answers
    (fun who => (resuming who).program equipment) world ((entering silent).1 ++ recovering.1)
    (fun who => (recovering.2.1 who).forgetful) recovering.2.2 :=
  ((interleaves_entering silent).trans (World.interleaves_takeTurns _ _ _ _)).forgetful

theorem unbegun_origin : world.Unbegun where
  filed := coherent_store.runIds
  stepRuns := rfl
  stepIndex := rfl
  findings := rfl
  untold := rfl

/-- There is one step run with one finding, and its beginning is told once, after the second one. -/
theorem orderly_recovering : world.Unbegun ∧
    ((∀ passing ∈ worldsOf world ((entering silent).1 ++ recovering.1), passing.Orderly) ∧
      (worldsOf world ((entering silent).1 ++ recovering.1)).Pairwise World.Keeps) ∧
    recovering.2.2.log.beginnings = [(run.id, check.key)] ∧
    (∃ stepRun, recovering.2.2.store.stepRuns = [(stepId, stepRun)] ∧ stepRun.attempt = 2) ∧
    ∃ finding, recovering.2.2.store.findings = [(stepId, [finding])] ∧
      finding.stepRunId = stepId ∧ finding.runId = run.id :=
  ⟨unbegun_origin, orderly_of_interleaves unbegun_origin interleaves_recovering, rfl,
    ⟨_, rfl, rfl⟩, _, rfl, rfl, rfl⟩

end Example

end Vetting
