import Vetting.Proofs.Run.Supersession

/-!
Contract: step runs that wait for a job while several executions take turns.

Owns:
- what has happened to a step run since somebody's last turn, and who has begun it last;
- a step run that is about to be begun again waits for a job exactly if the job has been
  accepted since it was found;
- unless that happens, or somebody writes a step run that another one has begun since, a
  step run that waits is left alone.

Does not own: callbacks, which end the waiting.

An execution finds a step run and begins it again in two turns.  The store compares the
attempt in between, and a job that is accepted does not change the attempt.
-/

namespace Vetting

/-- A step run that waits for a job stays as it is. -/
def Store.KeepsWaiting (id : Uuid) (before after : Store) : Prop :=
  ∀ stored, before.stepRuns.get? id = some stored → stored.Waits →
    after.stepRuns.get? id = some stored

namespace Store.KeepsWaiting

variable {id : Uuid} {before middle after : Store}

theorem refl (store : Store) : KeepsWaiting id store store := fun _ held _ => held

theorem trans (first : KeepsWaiting id before middle) (second : KeepsWaiting id middle after) :
    KeepsWaiting id before after :=
  fun stored held waits => second stored (first stored held waits) waits

end Store.KeepsWaiting

namespace Execution

section Turns

variable {ι : Type} [DecidableEq ι]

/-- The turns since the last one of somebody. -/
def sinceLast (who : ι) (turns : List (Turn ι)) : List (Turn ι) :=
  (turns.reverse.takeWhile fun turn => turn.who ≠ who).reverse

/-- The record that has been written last of a step run. -/
def lastWritten? (id : Uuid) (turns : List (Turn ι)) : Option StepRun :=
  turns.reverse.findSome? fun turn =>
    (turn.notice?.bind Notice.written?).filter fun stepRun => stepRun.id = id

/-- Who has begun a step run last. -/
def lastBeginner? (id : Uuid) (turns : List (Turn ι)) : Option ι :=
  (turns.reverse.find? fun turn => turn.Begins id).map Turn.who

/-- Since somebody's last turn, the step run has come to wait for a job. -/
def HandedSince (id : Uuid) (who : ι) (turns : List (Turn ι)) : Prop :=
  (lastWritten? id (sinceLast who turns)).any StepRun.awaitsJob = true

/-- Nobody begins a step run again that has come to wait for a job since they found it. -/
def Unhurried (id : Uuid) (turns : List (Turn ι)) : Prop :=
  ∀ before turn after, turns = before ++ turn :: after → turn.Begins id →
    ¬ HandedSince id turn.who before

/-- Nobody writes a step run unless they have begun it last. -/
def Unsuperseded (id : Uuid) (turns : List (Turn ι)) : Prop :=
  ∀ before turn after, turns = before ++ turn :: after → turn.Writes id →
    lastBeginner? id before = some turn.who

instance (id : Uuid) (who : ι) (turns : List (Turn ι)) : Decidable (HandedSince id who turns) :=
  inferInstanceAs (Decidable (_ = _))

instance (id : Uuid) (turns : List (Turn ι)) : Decidable (Unhurried id turns) :=
  inferInstanceAs (Decidable (∀ before turn after, turns = before ++ turn :: after →
    turn.Begins id → ¬ HandedSince id turn.who before))

instance (id : Uuid) (turns : List (Turn ι)) : Decidable (Unsuperseded id turns) :=
  inferInstanceAs (Decidable (∀ before turn after, turns = before ++ turn :: after →
    turn.Writes id → lastBeginner? id before = some turn.who))

variable {id : Uuid} {who : ι} {turns : List (Turn ι)} {turn : Turn ι}

theorem sinceLast_append :
    sinceLast who (turns ++ [turn]) = if turn.who = who then [] else sinceLast who turns ++ [turn] := by
  by_cases own : turn.who = who <;> simp [sinceLast, own]

omit [DecidableEq ι] in
theorem lastWritten?_append :
    lastWritten? id (turns ++ [turn]) =
      ((turn.notice?.bind Notice.written?).filter fun stepRun => stepRun.id = id).or
        (lastWritten? id turns) := by
  rw [lastWritten?, List.reverse_append, List.reverse_singleton, List.singleton_append,
    List.findSome?_cons]
  cases (turn.notice?.bind Notice.written?).filter fun stepRun => stepRun.id = id <;> rfl

omit [DecidableEq ι] in
theorem lastBeginner?_append :
    lastBeginner? id (turns ++ [turn]) =
      if turn.Begins id then some turn.who else lastBeginner? id turns := by
  by_cases begins : turn.Begins id <;> simp [lastBeginner?, begins]

theorem unhurried_append :
    Unhurried id (turns ++ [turn]) ↔
      Unhurried id turns ∧ (turn.Begins id → ¬ HandedSince id turn.who turns) :=
  forall_split_append

omit [DecidableEq ι] in
theorem unsuperseded_append :
    Unsuperseded id (turns ++ [turn]) ↔
      Unsuperseded id turns ∧ (turn.Writes id → lastBeginner? id turns = some turn.who) :=
  forall_split_append

end Turns

/-! ### What is found and begun again -/

/-- Nothing but writing a step run gives it another output. -/
theorem Sight.Does.output {mayAnswer : (request : Request) → request.Answer → Prop} {sight : Sight}
    {before after : Store} {notice? : Option Notice}
    (does : sight.Does mayAnswer before notice? after) {id : Uuid} {stored : StepRun}
    (held : before.stepRuns.get? id = some stored) :
    ∃ later, after.stepRuns.get? id = some later ∧ later.output =
      (((notice?.bind Notice.written?).filter fun stepRun => stepRun.id = id).map
        StepRun.output).getD stored.output := by
  have unchanged : (∀ stepRun, notice?.bind Notice.change? = some stepRun → stepRun.id ≠ id) →
      ∃ later, after.stepRuns.get? id = some later ∧ later.output = stored.output :=
    fun other => ⟨stored, (does.get?_of_other other).trans held, rfl⟩
  cases does with
  | nothing | finds | reads => exact unchanged fun _ no => nomatch no
  | creates absent =>
    refine unchanged ?_
    rintro _ ⟨⟩ rfl
    rw [absent] at held
    cases held
  | @restarts seen old now after _ _ heldOld _ _ _ sets =>
    by_cases same : (restarted old now).id = id
    · subst same
      obtain rfl := Option.some.inj (heldOld.symm.trans held)
      exact ⟨restarted old now, by rw [sets]; exact (Table.get?_set _ _ _ _).trans (if_pos rfl), rfl⟩
    · exact unchanged fun _ change => by cases change; exact same
  | @writes seen stepRun old after _ _ _ _ sets =>
    by_cases same : stepRun.id = id
    · subst same
      refine ⟨stepRun, by rw [sets]; exact (Table.get?_set _ _ _ _).trans (if_pos rfl), ?_⟩
      simp [Notice.written?, Option.filter]
    · obtain ⟨later, heldLater, output⟩ := unchanged fun _ change => by cases change; exact same
      refine ⟨later, heldLater, ?_⟩
      simp [Notice.written?, Option.filter, same, output]

section Watched

variable {ι : Type} [DecidableEq ι] {known : Uuid → Prop} {states : ι → Sight}
  {turns : List (Turn ι)} {world : World}

/-- What has been found keeps its output until somebody writes it. -/
structure Watched (known : Uuid → Prop) (states : ι → Sight) (turns : List (Turn ι))
    (world : World) : Prop extends Interplay known states world where
  found : ∀ who seen, (states who).found? = some seen → ∃ stored,
    world.store.stepRuns.get? seen.id = some stored ∧ stored.output =
      ((lastWritten? seen.id (sinceLast who turns)).map StepRun.output).getD seen.output

theorem Watched.start {origin : World} (coherent : origin.store.Coherent) :
    Watched origin.store.HasRun (fun _ : ι => Sight.blank) [] origin :=
  ⟨.start coherent, fun _ _ isFound => nomatch isFound⟩

theorem Watched.withFailing (watched : Watched known states turns world) (failing : Bool) :
    Watched known states turns (world.withFailing failing) :=
  ⟨watched.toInterplay.withFailing failing, watched.found⟩

/-- A step run that has just been found without a job waits for one exactly if it has come to since. -/
theorem Watched.awaitsJob_iff (watched : Watched known states turns world) {who : ι}
    {seen stored : StepRun} (isFound : (states who).found? = some seen)
    (pending : seen.awaitsJob = false)
    (held : world.store.stepRuns.get? seen.id = some stored) :
    stored.awaitsJob = true ↔ HandedSince seen.id who turns := by
  obtain ⟨other, isOther, output⟩ := watched.found who seen isFound
  obtain rfl := Option.some.inj (held.symm.trans isOther)
  rw [HandedSince, StepRun.awaitsJob, output]
  cases lastWritten? seen.id (sinceLast who turns) with
  | none => simpa [StepRun.awaitsJob] using pending
  | some written => rfl

theorem Watched.turn {mayAnswer : (request : Request) → request.Answer → Prop} {after : World}
    {who : ι} {request : Request} {answer : request.Answer}
    (watched : Watched known states turns world) (may : (states who).May mayAnswer known request)
    (answers : world.Answers mayAnswer request answer after) :
    Credible mayAnswer known request answer ∧
      (states who).Does mayAnswer world.store (request.notice? answer) after.store ∧
      Watched known (Function.update states who ((states who).noting (request.notice? answer)))
        (turns ++ [⟨who, request, answer, after⟩]) after := by
  obtain ⟨credible, does, interplay⟩ := watched.toInterplay.turn who may answers
  refine ⟨credible, does, interplay, fun other seen isFound => ?_⟩
  rw [sinceLast_append]
  by_cases own : other = who
  · subst own
    rw [Function.update_self] at isFound
    rw [if_pos rfl]
    cases notice? : request.notice? answer with
    | none =>
      rw [notice?] at isFound
      cases isFound
    | some notice =>
      rw [notice?] at isFound does
      have told := does.get?_told
      cases notice <;> cases isFound
      exact ⟨_, told, rfl⟩
  · rw [Function.update_of_ne own] at isFound
    rw [if_neg fun same => own same.symm, lastWritten?_append]
    obtain ⟨stored, held, output⟩ := watched.found other seen isFound
    obtain ⟨later, heldLater, written⟩ := does.output held
    refine ⟨later, heldLater, written.trans ?_⟩
    rw [output]
    dsimp only [Turn.notice?]
    cases (request.notice? answer).bind Notice.written? |>.filter fun stepRun =>
      stepRun.id = seen.id <;> rfl

end Watched

/-! ### Who may end the waiting -/

section Custody

variable {ι : Type} [DecidableEq ι] {known : Uuid → Prop} {id : Uuid} {states : ι → Sight}
  {turns : List (Turn ι)} {world : World}

/-- Whoever has begun a step run last and finds it waiting has left it so. -/
structure Custody (known : Uuid → Prop) (id : Uuid) (states : ι → Sight) (turns : List (Turn ι))
    (world : World) : Prop extends Watched known states turns world where
  handed : ∀ who stored, lastBeginner? id turns = some who →
    world.store.stepRuns.get? id = some stored → stored.Waits → (states who).handed id

theorem Custody.start {origin : World} (coherent : origin.store.Coherent) :
    Custody origin.store.HasRun id (fun _ : ι => Sight.blank) [] origin :=
  ⟨.start coherent, fun _ _ begun => nomatch begun⟩

theorem Custody.withFailing (custody : Custody known id states turns world) (failing : Bool) :
    Custody known id states turns (world.withFailing failing) :=
  ⟨custody.toWatched.withFailing failing, custody.handed⟩

/-- Nothing that waits is begun, unless it has come to wait since it was found. -/
theorem Watched.not_waits_of_begun {mayAnswer : (request : Request) → request.Answer → Prop}
    {after : World} {who : ι} {stepRun : StepRun} (watched : Watched known states turns world)
    (does : (states who).Does mayAnswer world.store (some (.begun stepRun)) after.store)
    (unhurried : ¬ HandedSince stepRun.id who turns) :
    (∀ stored, world.store.stepRuns.get? stepRun.id = some stored → ¬ stored.Waits) ∧
      ¬ stepRun.Waits := by
  cases does with
  | creates absent _ empty =>
    refine ⟨fun stored held => ?_, fun waits => ?_⟩
    · rw [absent] at held
      cases held
    · rw [StepRun.Waits, StepRun.awaitsJob, empty] at waits
      exact nomatch waits.2
  | @restarts seen old now _ isFound pending held sameId =>
    rw [← sameId] at held
    have idle : ¬ old.Waits := fun waits =>
      unhurried (sameId ▸ (watched.awaitsJob_iff isFound pending held).mp waits.2)
    refine ⟨fun stored isStored => ?_, idle⟩
    obtain rfl := Option.some.inj (held.symm.trans (sameId ▸ isStored))
    exact idle

/-- A turn leaves alone what waits, unless the step run is begun in haste, or written by someone
else than the one who has begun it last. -/
theorem Custody.turn {mayAnswer : (request : Request) → request.Answer → Prop} {after : World}
    {who : ι} {request : Request} {answer : request.Answer}
    (custody : Custody known id states turns world) (pending : ¬ MayComplete mayAnswer)
    (may : (states who).May mayAnswer known request)
    (answers : world.Answers mayAnswer request answer after)
    (unhurried : Turn.Begins ⟨who, request, answer, after⟩ id → ¬ HandedSince id who turns)
    (unsuperseded : Turn.Writes ⟨who, request, answer, after⟩ id →
      lastBeginner? id turns = some who) :
    Store.KeepsWaiting id world.store after.store ∧
      Custody known id
        (Function.update states who ((states who).noting (request.notice? answer)))
        (turns ++ [⟨who, request, answer, after⟩]) after := by
  obtain ⟨_, does, watched⟩ := custody.toWatched.turn may answers
  by_cases changes : ∃ stepRun,
      (request.notice? answer).bind Notice.change? = some stepRun ∧ stepRun.id = id
  · obtain ⟨stepRun, change, rfl⟩ := changes
    rcases Notice.change?_eq_some.mp change with begun | written
    · have begins : Turn.Begins ⟨who, request, answer, after⟩ stepRun.id := by
        rw [Turn.Begins, Turn.notice?, begun]
        rfl
      rw [begun] at does
      obtain ⟨before, now⟩ := custody.not_waits_of_begun does (unhurried begins)
      refine ⟨fun stored held waits => absurd waits (before stored held), watched,
        fun _ stored _ held waits => ?_⟩
      obtain rfl := Option.some.inj (does.get?_told.symm.trans held)
      exact absurd waits now
    · have writes : Turn.Writes ⟨who, request, answer, after⟩ stepRun.id := by
        rw [Turn.Writes, Turn.notice?, written]
        rfl
      have last := unsuperseded writes
      rw [written] at does
      refine ⟨fun stored held waits => ?_, watched, fun other stored begun held waits => ?_⟩
      · cases does with
        | writes _ _ completes => exact absurd (completes (custody.handed who _ last held waits)) pending
      · rw [lastBeginner?_append, if_neg (by simp [Turn.Begins, Turn.notice?, written, Notice.begun?]),
          last] at begun
        obtain rfl := Option.some.inj begun
        obtain rfl := Option.some.inj (does.get?_told.symm.trans held)
        rw [Function.update_self, written]
        exact (Function.update_self _ _ _).mpr waits
  · have other : ∀ stepRun, (request.notice? answer).bind Notice.change? = some stepRun →
        stepRun.id ≠ id := fun stepRun change same => changes ⟨stepRun, change, same⟩
    have unchanged := does.get?_of_other other
    refine ⟨fun stored held _ => unchanged.trans held, watched,
      fun last stored begun held waits => ?_⟩
    have unbegun : ¬ Turn.Begins ⟨who, request, answer, after⟩ id :=
      fun begins => changes (Option.map_eq_some_iff.mp begins.changes)
    rw [lastBeginner?_append, if_neg unbegun] at begun
    have before := custody.handed last stored begun (unchanged.symm.trans held) waits
    by_cases own : last = who
    · subst own
      rwa [Function.update_self, (states last).noting_handed other]
    · rwa [Function.update_of_ne own]

/-- What is watched stays so while programs that keep step runs in order take turns, and if nobody
is in haste or superseded, nothing that waits is touched. -/
theorem Watched.interleaves {mayAnswer : (request : Request) → request.Answer → Prop} {α : Type}
    {programs rest : ι → Program α} {aim : ι → α → Sight → Prop} {origin : World}
    {earlier later : List (Turn ι)} (watched : Watched known states earlier origin)
    (custody : Unhurried id earlier → Unsuperseded id earlier →
      Custody known id states earlier origin)
    (heeds : ∀ who, (programs who).Heeds (recordkeeping mayAnswer known) (states who) (aim who))
    (interleaves : Interleaves mayAnswer programs origin later rest world) :
    ∃ states, (Watched known states (earlier ++ later) world ∧
      (¬ MayComplete mayAnswer → Unhurried id (earlier ++ later) →
        Unsuperseded id (earlier ++ later) →
        Custody known id states (earlier ++ later) world ∧
          Store.KeepsWaiting id origin.store world.store)) ∧
      ∀ who, (rest who).Heeds (recordkeeping mayAnswer known) (states who) (aim who) := by
  refine interleaves.heeded heeds (fun states turns world =>
    Watched known states (earlier ++ turns) world ∧
      (¬ MayComplete mayAnswer → Unhurried id (earlier ++ turns) →
        Unsuperseded id (earlier ++ turns) →
        Custody known id states (earlier ++ turns) world ∧
          Store.KeepsWaiting id origin.store world.store)) ?_ ?_ ?_
  · rw [List.append_nil]
    exact ⟨watched, fun _ unhurried unsuperseded => ⟨custody unhurried unsuperseded, .refl _⟩⟩
  · rintro states turns world who request answer after ⟨watched, kept⟩ may answers
    obtain ⟨credible, _, turned⟩ := watched.turn may answers
    rw [← List.append_assoc]
    refine ⟨_, ⟨credible, rfl⟩, turned, fun pending unhurried unsuperseded => ?_⟩
    obtain ⟨unhurried, now⟩ := unhurried_append.mp unhurried
    obtain ⟨unsuperseded, own⟩ := unsuperseded_append.mp unsuperseded
    obtain ⟨custody, keeps⟩ := kept pending unhurried unsuperseded
    obtain ⟨keepsNow, custody⟩ := custody.turn pending may answers now own
    exact ⟨custody, keeps.trans keepsNow⟩
  · rintro states turns world failing ⟨watched, kept⟩
    refine ⟨watched.withFailing failing, fun pending unhurried unsuperseded => ?_⟩
    obtain ⟨custody, keeps⟩ := kept pending unhurried unsuperseded
    exact ⟨custody.withFailing failing, keeps⟩

end Custody

/-! ### Executions -/

section Executions

variable {ι : Type} [DecidableEq ι] {mayAnswer : (request : Request) → request.Answer → Prop}
  {equipment : Equipment} {runId : ι → Uuid} {resumeFrom : ι → Option Int}
  {origin middle last : World} {earlier later : List (Turn ι)}
  {rest final : ι → Program (Except EngineFault RunOutcome)} {id : Uuid}

/-- Whoever is about to begin a step run again takes one that waits for a job exactly if the job has
been accepted since they found it. -/
theorem awaitsJob_of_restart (coherent : origin.store.Coherent)
    (interleaves : Interleaves mayAnswer (executions equipment runId resumeFrom) origin earlier rest
      middle) {who : ι} {attempt : Nat} {now : Timestamp}
    {next : (Request.store (.restart id attempt now)).Answer → Program (Except EngineFault RunOutcome)}
    (asks : rest who = .ask (.store (.restart id attempt now)) next) :
    ∃ stored, middle.store.stepRuns.get? id = some stored ∧
      (stored.awaitsJob = true ↔ HandedSince id who earlier) := by
  have custody : Custody origin.store.HasRun id (fun _ : ι => Sight.blank) [] origin :=
    .start coherent
  obtain ⟨states, ⟨watched, _⟩, heeds⟩ := Watched.interleaves (.start coherent)
    (fun _ _ => custody) (fun who => heeds_execute equipment (runId who) (resumeFrom who)) interleaves
  have asked := heeds who
  rw [asks] at asked
  obtain ⟨seen, isFound, rfl, _, _, pending⟩ := asked.1
  obtain ⟨stored, held, _⟩ := watched.found who seen isFound
  exact ⟨stored, held, watched.awaitsJob_iff isFound pending held⟩

/-- What waits is left alone, as long as nobody begins it in haste, or writes it after somebody else
has begun it. -/
theorem keepsWaiting_of_unhurried (coherent : origin.store.Coherent)
    (first : Interleaves mayAnswer (executions equipment runId resumeFrom) origin earlier rest middle)
    (second : Interleaves mayAnswer rest middle later final last)
    (pending : ¬ MayComplete mayAnswer) (unhurried : Unhurried id (earlier ++ later))
    (unsuperseded : Unsuperseded id (earlier ++ later)) :
    Store.KeepsWaiting id middle.store last.store := by
  obtain ⟨states, ⟨watched, kept⟩, heeds⟩ := Watched.interleaves (.start coherent)
    (fun _ _ => Custody.start coherent)
    (fun who => heeds_execute equipment (runId who) (resumeFrom who)) first
  obtain ⟨_, ⟨_, kept⟩, _⟩ := watched.interleaves
    (fun unhurried unsuperseded => (kept pending unhurried unsuperseded).1) heeds second
  exact (kept pending unhurried unsuperseded).2

end Executions

/-- While executions take turns in any way, whoever is about to begin a step run again takes one that
waits for a job exactly if the job has been accepted since they found the step run.  With jobs that
are all accepted, a step run that waits is left alone, as long as nobody does that, and nobody
writes a step run that somebody else has begun since. -/
theorem waits_of_unhurried {ι : Type} [DecidableEq ι]
    {mayAnswer : (request : Request) → request.Answer → Prop} {equipment : Equipment}
    {runId : ι → Uuid} {resumeFrom : ι → Option Int} {origin middle last : World}
    (coherent : origin.store.Coherent) {earlier later : List (Turn ι)}
    {rest final : ι → Program (Except EngineFault RunOutcome)}
    (first : Interleaves mayAnswer (executions equipment runId resumeFrom) origin earlier rest middle)
    (second : Interleaves mayAnswer rest middle later final last) (id : Uuid) :
    (∀ who attempt now next, final who = .ask (.store (.restart id attempt now)) next →
      ∃ stored, last.store.stepRuns.get? id = some stored ∧
        (stored.awaitsJob = true ↔ HandedSince id who (earlier ++ later))) ∧
    (¬ MayComplete mayAnswer → Unhurried id (earlier ++ later) →
      Unsuperseded id (earlier ++ later) → Store.KeepsWaiting id middle.store last.store) :=
  ⟨fun _ _ _ _ asks => awaitsJob_of_restart coherent (first.trans second) asks,
    keepsWaiting_of_unhurried coherent first second⟩

end Execution

/-! ### An execution that is in haste -/

namespace Example

open Execution

/-- The first execution begins the step, and the second one finds it. -/
def lookingOn : List (Turn Bool) × (Bool → Program (Except EngineFault RunOutcome)) × World :=
  World.takeTurns (surroundings accepted) (List.replicate 3 false ++ List.replicate 3 true)
    (fun _ => stepping steps) (entering accepted).2.2

/-- The first one leaves the job with the backend. -/
def handing : List (Turn Bool) × (Bool → Program (Except EngineFault RunOutcome)) × World :=
  World.takeTurns (surroundings accepted) (List.replicate 8 false) lookingOn.2.1 lookingOn.2.2

/-- The first one goes on to the end. -/
def leaving : List (Turn Bool) × (Bool → Program (Except EngineFault RunOutcome)) × World :=
  World.takeTurns (surroundings accepted) [false, false] handing.2.1 handing.2.2

theorem interleaves_handing : Interleaves (surroundings accepted).answers contenders world
    ((entering accepted).1 ++ lookingOn.1 ++ handing.1) handing.2.1 handing.2.2 :=
  ((interleaves_entering accepted).trans (World.interleaves_takeTurns _ _ _ _)).trans
    (World.interleaves_takeTurns _ _ _ _)

theorem not_mayComplete_accepted : ¬ MayComplete (surroundings accepted).answers := by
  rintro ⟨job, response, answers, complete⟩
  obtain rfl := Except.ok.inj answers
  cases complete

/-- The job is left alone while the first execution goes on, but the second one, which has found the
step without it, is about to begin the step again. -/
theorem waits_leaving :
    Unhurried stepId ((entering accepted).1 ++ lookingOn.1 ++ handing.1 ++ leaving.1) ∧
      Unsuperseded stepId ((entering accepted).1 ++ lookingOn.1 ++ handing.1 ++ leaving.1) ∧
      (∃ stored, handing.2.2.store.stepRuns.get? stepId = some stored ∧ stored.Waits ∧
        leaving.2.2.store.stepRuns.get? stepId = some stored) ∧
      HandedSince stepId true ((entering accepted).1 ++ lookingOn.1 ++ handing.1 ++ leaving.1) ∧
      ∃ now next, leaving.2.1 true = .ask (.store (.restart stepId 1 now)) next ∧
        ∃ stored, leaving.2.2.store.stepRuns.get? stepId = some stored ∧
          stored.awaitsJob = true := by
  have unhurried : Unhurried stepId
      ((entering accepted).1 ++ lookingOn.1 ++ handing.1 ++ leaving.1) := by decide +kernel
  have unsuperseded : Unsuperseded stepId
      ((entering accepted).1 ++ lookingOn.1 ++ handing.1 ++ leaving.1) := by decide +kernel
  have handed : HandedSince stepId true
      ((entering accepted).1 ++ lookingOn.1 ++ handing.1 ++ leaving.1) := by decide +kernel
  obtain ⟨stored, held, waits⟩ : ∃ stored,
      handing.2.2.store.stepRuns.get? stepId = some stored ∧ stored.Waits := ⟨_, rfl, rfl, rfl⟩
  obtain ⟨now, next, asks⟩ : ∃ now next,
      leaving.2.1 true = .ask (.store (.restart stepId 1 now)) next := ⟨_, _, rfl⟩
  obtain ⟨restarts, keeps⟩ := waits_of_unhurried coherent_store interleaves_handing
    (World.interleaves_takeTurns _ [false, false] _ _) stepId
  refine ⟨unhurried, unsuperseded,
    ⟨stored, held, waits, keeps not_mayComplete_accepted unhurried unsuperseded stored held waits⟩,
    handed, now, next, asks, ?_⟩
  obtain ⟨stored, held, awaits⟩ := restarts true 1 now next asks
  exact ⟨stored, held, awaits.mpr handed⟩

/-- The second execution begins the step again, and with it the job that waits. -/
theorem not_waits : ∃ (turns : List (Turn Bool))
    (rest : Bool → Program (Except EngineFault RunOutcome)) (last : World) (now : Timestamp)
    (next : _ → Program (Except EngineFault RunOutcome)) (stored again : StepRun),
    Interleaves (surroundings accepted).answers contenders world turns rest last ∧
    rest true = .ask (.store (.restart stepId 1 now)) next ∧
    last.store.stepRuns.get? stepId = some stored ∧ stored.Waits ∧
    (last.store.answer (.restart stepId 1 now)).1 = .ok (some again) ∧ again.attempt = 2 :=
  ⟨_, _, _, _, _, _, _, interleaves_handing, rfl, rfl, ⟨rfl, rfl⟩, rfl, rfl⟩

end Example

end Vetting
