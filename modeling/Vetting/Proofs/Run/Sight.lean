import Mathlib.Logic.Function.Basic
import Vetting.Proofs.Program.Discipline
import Vetting.Proofs.Store.Notice

/-!
Contract: what a program has seen of the step runs, and what it may make of them.

Owns:
- `StepRun.Moves`: how a step run that has been seen may be rewritten;
- sights: the last record of each step run that a program has been told of;
- `recordkeeping`, the discipline of a program that keeps step runs in order;
- stores that bear a sight out, and that answering such a program leaves them so.

Does not own: which programs keep this discipline (`Vetting.Proofs.Run.Recordkeeping`), and
whether what has been seen is still so.
-/

namespace Vetting

/-- The token in an output, if there is one, is that of the step run so far or that of its attempt. -/
def StepRun.Retains (stepRun : StepRun) (output : StepOutput) : Prop :=
  ∀ key, output.jobKey? = some key → stepRun.output.jobKey? = some key ∨
    key = Digest.attemptKey stepRun.id stepRun.attempt

/-- An output that differs from the step run's one in what is not about the job. -/
theorem StepRun.retains_of_job {stepRun : StepRun} {output : StepOutput}
    (same : output.job? = stepRun.output.job?) : stepRun.Retains output := by
  intro key isKey
  rw [StepOutput.jobKey?, same] at isKey
  exact Or.inl isKey

theorem StepRun.retains_of_none (stepRun : StepRun) {output : StepOutput}
    (none : output.job? = none) : stepRun.Retains output := by
  intro key isKey
  rw [StepOutput.jobKey?, none] at isKey
  cases isKey

/-- A step run is rewritten within its attempt.  As long as it runs, its job has the token of that
attempt. -/
structure StepRun.Moves (before after : StepRun) : Prop where
  id : after.id = before.id
  runId : after.runId = before.runId
  stepKey : after.stepKey = before.stepKey
  attempt : after.attempt = before.attempt
  running : before.status = .running
  retains : before.Retains after.output
  handed : after.status = .running →
    after.output.jobKey? = some (Digest.attemptKey before.id before.attempt)

/-- The step run waits for its job. -/
def StepRun.Waits (stepRun : StepRun) : Prop :=
  stepRun.status = .running ∧ stepRun.awaitsJob = true

namespace Execution

/-- What a program has been told of step runs. -/
structure Sight where
  /-- The last record of each. -/
  shown : Uuid → Option StepRun
  /-- The step run that the last answer has found. -/
  found? : Option StepRun
  /-- The program itself has left it waiting for a job. -/
  handed : Uuid → Prop

namespace Sight

def blank : Sight := ⟨fun _ => none, none, fun _ => False⟩

def showing (sight : Sight) (stepRun : StepRun) : Uuid → Option StepRun :=
  Function.update sight.shown stepRun.id (some stepRun)

/-- The sight after an answer. -/
def noting (sight : Sight) : Option Notice → Sight
  | none => ⟨sight.shown, none, sight.handed⟩
  | some (.begun stepRun) =>
    ⟨sight.showing stepRun, none, Function.update sight.handed stepRun.id False⟩
  | some (.found stepRun) => ⟨sight.showing stepRun, some stepRun, sight.handed⟩
  | some (.read stepRun) => ⟨sight.showing stepRun, none, sight.handed⟩
  | some (.written stepRun) =>
    ⟨sight.showing stepRun, none, Function.update sight.handed stepRun.id stepRun.Waits⟩

@[simp] theorem showing_self (sight : Sight) (stepRun : StepRun) :
    sight.showing stepRun stepRun.id = some stepRun := Function.update_self _ _ _

theorem showing_of_ne (sight : Sight) {stepRun : StepRun} {id : Uuid} (other : id ≠ stepRun.id) :
    sight.showing stepRun id = sight.shown id := Function.update_of_ne other _ _

end Sight

/-- Some job may have ended when the backend answers. -/
def MayComplete (mayAnswer : (request : Request) → request.Answer → Prop) : Prop :=
  ∃ job response, mayAnswer (.launch job) (.ok response) ∧ response.isComplete = true

section Discipline

variable (mayAnswer : (request : Request) → request.Answer → Prop) (known : Uuid → Prop)

/-- What a program that keeps step runs in order asks for: it begins again only what it has just
found running without a job, and writes only what follows from what it has seen. -/
def Sight.May (sight : Sight) : Request → Prop
  | .store (.acquire runId _ _) => known runId
  | .store (.restart id attempt _) => ∃ seen, sight.found? = some seen ∧ seen.id = id ∧
      seen.attempt = attempt ∧ seen.status = .running ∧ seen.awaitsJob = false
  | .store (.updateStepRun stepRun) => ∃ seen, sight.shown stepRun.id = some seen ∧
      seen.Moves stepRun ∧ (sight.handed stepRun.id → MayComplete mayAnswer)
  | .store (.replaceFindings id _) | .store (.appendFindings id _) =>
    ∃ seen, sight.shown id = some seen
  | _ => True

/-- What a program may rely on in an answer. -/
def Credible : (request : Request) → request.Answer → Prop
  | .store (.run id), .ok run => run.id = id ∧ known id
  | .store (.acquire _ _ _), .ok (.created stepRun) => stepRun.status = .running
  | .store (.restart id _ _), .ok (some stepRun) => stepRun.id = id ∧ stepRun.status = .running
  | .store (.stepRun id), .ok stepRun => stepRun.id = id
  | .launch job, answer => mayAnswer (.launch job) answer
  | _, _ => True

/-- Keeping step runs in order. -/
def recordkeeping : Discipline Sight where
  may := Sight.May mayAnswer known
  learns sight request answer after :=
    Credible mayAnswer known request answer ∧ after = sight.noting (request.notice? answer)

end Discipline

/-! ### Stores that bear a sight out -/

/-- The known runs are those that are there, and step runs that have been seen are there too. -/
structure Sight.BorneOut (sight : Sight) (known : Uuid → Prop) (store : Store) : Prop where
  runs : ∀ id, known id ↔ store.HasRun id
  shown : ∀ id seen, sight.shown id = some seen → seen.id = id ∧
    ∃ stepRun, store.stepRuns.get? id = some stepRun ∧ stepRun.runId = seen.runId ∧
      stepRun.stepKey = seen.stepKey
  found : ∀ seen, sight.found? = some seen → sight.shown seen.id = some seen

theorem Sight.borneOut_blank (store : Store) : blank.BorneOut store.HasRun store :=
  ⟨fun _ => Iff.rfl, fun _ _ isShown => (nomatch isShown), fun _ isFound => (nomatch isFound)⟩

/-- Everything that a program which keeps step runs in order does with a request to the step runs
of a store. -/
inductive Sight.Does (mayAnswer : (request : Request) → request.Answer → Prop) (sight : Sight)
    (before : Store) : Option Notice → Store → Prop
  | nothing {after : Store} (same : after.stepRuns = before.stepRuns) :
    Does mayAnswer sight before none after
  | finds {stepRun : StepRun} (held : before.stepRuns.get? stepRun.id = some stepRun) :
    Does mayAnswer sight before (some (.found stepRun)) before
  | reads {stepRun : StepRun} (held : before.stepRuns.get? stepRun.id = some stepRun) :
    Does mayAnswer sight before (some (.read stepRun)) before
  | creates {stepRun : StepRun} {after : Store}
      (absent : before.stepRuns.get? stepRun.id = none) (isFirst : stepRun.attempt = 1)
      (empty : stepRun.output = .empty)
      (sets : after.stepRuns = before.stepRuns.set stepRun.id stepRun) :
    Does mayAnswer sight before (some (.begun stepRun)) after
  | restarts {seen old : StepRun} {now : Timestamp} {after : Store}
      (isFound : sight.found? = some seen) (pending : seen.awaitsJob = false)
      (held : before.stepRuns.get? old.id = some old) (sameId : seen.id = old.id)
      (sameAttempt : seen.attempt = old.attempt) (running : old.status = .running)
      (sets : after.stepRuns = before.stepRuns.set old.id (restarted old now)) :
    Does mayAnswer sight before (some (.begun (restarted old now))) after
  | writes {seen stepRun old : StepRun} {after : Store}
      (isShown : sight.shown stepRun.id = some seen) (moves : seen.Moves stepRun)
      (completes : sight.handed stepRun.id → MayComplete mayAnswer)
      (held : before.stepRuns.get? stepRun.id = some old)
      (sets : after.stepRuns = before.stepRuns.set stepRun.id stepRun) :
    Does mayAnswer sight before (some (.written stepRun)) after

section Does

variable {mayAnswer : (request : Request) → request.Answer → Prop} {sight : Sight}
  {before after : Store} {notice? : Option Notice}

theorem Sight.Does.get? (does : sight.Does mayAnswer before notice? after) (id : Uuid) :
    after.stepRuns.get? id = match notice?.bind Notice.change? with
      | some stepRun => if stepRun.id = id then some stepRun else before.stepRuns.get? id
      | none => before.stepRuns.get? id := by
  cases does with
  | nothing same => rw [same]; rfl
  | finds | reads => rfl
  | creates _ _ _ sets | writes _ _ _ _ sets =>
    rw [sets]
    exact Table.get?_set _ _ _ _
  | restarts _ _ _ _ _ _ sets =>
    rw [sets]
    exact Table.get?_set _ _ _ _

theorem Sight.Does.get?_of_other (does : sight.Does mayAnswer before notice? after) {id : Uuid}
    (other : ∀ stepRun, notice?.bind Notice.change? = some stepRun → stepRun.id ≠ id) :
    after.stepRuns.get? id = before.stepRuns.get? id := by
  rw [does.get?]
  cases change : notice?.bind Notice.change? with
  | none => rfl
  | some stepRun => exact if_neg (other stepRun change)

theorem Sight.Does.get?_of_change (does : sight.Does mayAnswer before notice? after)
    {changed : StepRun} (change : notice?.bind Notice.change? = some changed) :
    after.stepRuns.get? changed.id = some changed := by
  rw [does.get?, change]
  exact if_pos rfl

/-- What a notice tells is there afterwards. -/
theorem Sight.Does.get?_told {notice : Notice} (does : sight.Does mayAnswer before (some notice) after) :
    after.stepRuns.get? notice.stepRun.id = some notice.stepRun := by
  cases does with
  | finds held | reads held => exact held
  | creates _ _ _ sets | writes _ _ _ _ sets =>
    rw [sets]
    exact (Table.get?_set _ _ _ _).trans (if_pos rfl)
  | restarts _ _ _ _ _ _ sets =>
    rw [sets]
    exact (Table.get?_set _ _ _ _).trans (if_pos rfl)

theorem Sight.noting_shown (sight : Sight) (notice? : Option Notice) (id : Uuid) :
    (sight.noting notice?).shown id = match notice? with
      | some notice => if notice.stepRun.id = id then some notice.stepRun else sight.shown id
      | none => sight.shown id := by
  cases notice? with
  | none => rfl
  | some notice =>
    have shown : (sight.noting (some notice)).shown = sight.showing notice.stepRun := by
      cases notice <;> rfl
    rw [shown]
    by_cases same : notice.stepRun.id = id
    · subst same
      simp
    · rw [sight.showing_of_ne fun equal => same equal.symm]
      exact (if_neg same).symm

theorem Sight.noting_handed (sight : Sight) {notice? : Option Notice} {id : Uuid}
    (other : ∀ stepRun, notice?.bind Notice.change? = some stepRun → stepRun.id ≠ id) :
    (sight.noting notice?).handed id = sight.handed id := by
  cases notice? with
  | none => rfl
  | some notice =>
    cases notice with
    | found | read => rfl
    | begun stepRun | written stepRun => exact Function.update_of_ne (other stepRun rfl).symm _ _

/-- Whoever sees a step run as it is, if at all, has seen what is there. -/
theorem Sight.held_of_shown {store : Store} {id : Uuid} {seen : StepRun}
    (sees : sight.shown id = none ∨ sight.shown id = store.stepRuns.get? id)
    (isShown : sight.shown id = some seen) : store.stepRuns.get? id = some seen := by
  rcases sees with unseen | sees
  · rw [unseen] at isShown
    cases isShown
  · exact sees.symm.trans isShown

/-- A step run that gets another record stays with its run and step. -/
theorem Sight.Does.follows (does : sight.Does mayAnswer before notice? after)
    (sees : ∀ id, sight.shown id = none ∨ sight.shown id = before.stepRuns.get? id)
    {changed old : StepRun} (change : notice?.bind Notice.change? = some changed)
    (held : before.stepRuns.get? changed.id = some old) :
    changed.runId = old.runId ∧ changed.stepKey = old.stepKey := by
  cases does with
  | nothing | finds | reads => cases change
  | creates absent =>
    cases change
    rw [absent] at held
    cases held
  | restarts _ _ heldOld =>
    cases change
    obtain rfl := Option.some.inj (heldOld.symm.trans held)
    exact ⟨rfl, rfl⟩
  | writes isShown moves =>
    cases change
    obtain rfl := Option.some.inj ((sight.held_of_shown (sees _) isShown).symm.trans held)
    exact ⟨moves.runId, moves.stepKey⟩

/-- Whoever has seen nothing of a step run, or sees it as it is, does so after a turn as well. -/
theorem Sight.Does.sees (does : sight.Does mayAnswer before notice? after) {id : Uuid}
    (sees : sight.shown id = none ∨ sight.shown id = before.stepRuns.get? id) :
    (sight.noting notice?).shown id = none ∨
      (sight.noting notice?).shown id = after.stepRuns.get? id := by
  by_cases told : ∃ notice, notice? = some notice ∧ notice.stepRun.id = id
  · obtain ⟨notice, rfl, rfl⟩ := told
    rw [sight.noting_shown, does.get?_told]
    exact Or.inr (if_pos rfl)
  · have unseen : (sight.noting notice?).shown id = sight.shown id := by
      rw [sight.noting_shown]
      cases notice? with
      | none => rfl
      | some notice => exact if_neg fun same => told ⟨notice, rfl, same⟩
    rw [unseen, does.get?_of_other]
    · exact sees
    · intro stepRun change same
      obtain ⟨notice, isNotice, change⟩ := Option.bind_eq_some_iff.mp change
      exact told ⟨notice, isNotice, Notice.stepRun_of_change? change ▸ same⟩

end Does

section Stores

variable {mayAnswer : (request : Request) → request.Answer → Prop} {known : Uuid → Prop}
  {sight : Sight} {store before after : Store} {notice? : Option Notice}

theorem Sight.May.admits {request : StoreRequest}
    (may : sight.May mayAnswer known (.store request)) (borneOut : sight.BorneOut known store) :
    store.Admits request where
  rooted := by
    rintro runId step now rfl
    exact (borneOut.runs runId).mp may
  replaced := by
    rintro id findings rfl
    obtain ⟨seen, isShown⟩ := may
    obtain ⟨_, stepRun, held, _⟩ := borneOut.shown _ _ isShown
    exact ⟨stepRun, held⟩
  appended := by
    rintro id findings rfl
    obtain ⟨seen, isShown⟩ := may
    obtain ⟨_, stepRun, held, _⟩ := borneOut.shown _ _ isShown
    exact ⟨stepRun, held⟩
  written := by
    rintro stepRun old rfl held
    obtain ⟨seen, isShown, moves, _⟩ := may
    obtain ⟨_, other, isOther, sameRun, sameKey⟩ := borneOut.shown _ _ isShown
    obtain rfl := Option.some.inj (held.symm.trans isOther)
    exact ⟨moves.runId.trans sameRun.symm, moves.stepKey.trans sameKey.symm⟩

/-- What has been seen stays there while any program answers a request. -/
theorem Sight.BorneOut.passes {request : StoreRequest} (borneOut : sight.BorneOut known before)
    (passes : before.Passes request notice? after) (admits : before.Admits request) :
    sight.BorneOut known after where
  runs := fun id => (borneOut.runs id).trans (passes.hasRun_iff id).symm
  shown := by
    intro id seen isShown
    obtain ⟨sameId, stepRun, held, sameRun, sameKey⟩ := borneOut.shown id seen isShown
    obtain ⟨later, heldLater, laterRun, laterKey⟩ := passes.stays admits held
    exact ⟨sameId, later, heldLater, laterRun.trans sameRun, laterKey.trans sameKey⟩
  found := borneOut.found

theorem Sight.BorneOut.showing (borneOut : sight.BorneOut known store) {stepRun : StepRun}
    (held : store.stepRuns.get? stepRun.id = some stepRun) {found? : Option StepRun}
    (isFound : found? = none ∨ found? = some stepRun) (handed : Uuid → Prop) :
    Sight.BorneOut ⟨sight.showing stepRun, found?, handed⟩ known store where
  runs := borneOut.runs
  shown := by
    intro id seen isShown
    by_cases same : id = stepRun.id
    · subst same
      obtain rfl := Option.some.inj ((sight.showing_self stepRun).symm.trans isShown)
      exact ⟨rfl, _, held, rfl, rfl⟩
    · exact borneOut.shown id seen ((sight.showing_of_ne same).symm.trans isShown)
  found := by
    intro seen isSeen
    rcases isFound with rfl | rfl
    · cases isSeen
    · obtain rfl := Option.some.inj isSeen
      exact sight.showing_self _

/-- What has been answered is there for the one who asked. -/
theorem Sight.BorneOut.noting {request : StoreRequest} (borneOut : sight.BorneOut known before)
    (passes : before.Passes request notice? after) (admits : before.Admits request) :
    (sight.noting notice?).BorneOut known after := by
  have still := borneOut.passes passes admits
  have changed : ∀ stepRun, notice?.bind Notice.change? = some stepRun →
      after.stepRuns.get? stepRun.id = some stepRun := fun _ => passes.get?_of_change
  cases passes with
  | same | changed | replaced | appended | receipted =>
    exact ⟨still.runs, still.shown, fun _ isFound => (nomatch isFound)⟩
  | found held => exact still.showing held (Or.inr rfl) _
  | read held => exact still.showing held (Or.inl rfl) _
  | created | restarted | written => exact still.showing (changed _ rfl) (Or.inl rfl) _

theorem Sight.May.does {request : StoreRequest}
    (may : sight.May mayAnswer known (.store request))
    (passes : before.Passes request notice? after) :
    sight.Does mayAnswer before notice? after := by
  cases passes with
  | same | changed | replaced | appended | receipted => exact .nothing rfl
  | found held => exact .finds held
  | read held => exact .reads held
  | created absent => exact .creates (Store.get?_freshId before) rfl rfl rfl
  | restarted held running rewrites =>
    obtain ⟨seen, isFound, sameId, sameAttempt, _, pending⟩ := may
    exact .restarts isFound pending held sameId sameAttempt running rewrites.stepRuns
  | written held =>
    obtain ⟨seen, isShown, moves, completes⟩ := may
    exact .writes isShown moves completes held rfl

theorem Sight.BorneOut.credible {request : StoreRequest} (borneOut : sight.BorneOut known before)
    (coherent : before.Coherent) :
    Credible mayAnswer known (.store request) (before.answer request).1 := by
  have passes := Store.passes_answer coherent request
  revert passes
  generalize isAnswer : (before.answer request).1 = answer
  generalize (before.answer request).2 = after
  intro passes
  cases request with
  | run id =>
    cases answer with
    | error fault => trivial
    | ok run =>
      cases held : before.runs.get? id with
      | none => simp [Store.answer, Store.run, held] at isAnswer
      | some other =>
        rw [Store.answer_run held] at isAnswer
        obtain rfl := Except.ok.inj isAnswer
        exact ⟨coherent.runIds id _ held, (borneOut.runs id).mpr ⟨_, held⟩⟩
  | acquire =>
    cases answer with
    | error fault => trivial
    | ok acquisition =>
      cases acquisition with
      | existing => trivial
      | created =>
        cases passes
        rfl
  | restart =>
    cases answer with
    | error fault => trivial
    | ok restarted? =>
      cases restarted? with
      | none => trivial
      | some =>
        cases passes with
        | restarted _ running => exact ⟨rfl, running⟩
  | stepRun =>
    cases answer with
    | error fault => trivial
    | ok =>
      cases passes
      rfl
  | _ => trivial

/-- What a turn of a program that keeps step runs in order comes to. -/
theorem Sight.BorneOut.turned {world last : World} {request : Request} {answer : request.Answer}
    (borneOut : sight.BorneOut known world.store) (coherent : world.store.Coherent)
    (may : sight.May mayAnswer known request)
    (answers : world.Answers mayAnswer request answer last) :
    Credible mayAnswer known request answer ∧ last.store.Coherent ∧
      sight.Does mayAnswer world.store (request.notice? answer) last.store ∧
      (sight.noting (request.notice? answer)).BorneOut known last.store ∧
      ∀ other : Sight, other.BorneOut known world.store → other.BorneOut known last.store := by
  have idle : ∀ {notice? : Option Notice} {after : World}, notice? = none →
      after.store = world.store → after.store.Coherent ∧
        sight.Does mayAnswer world.store notice? after.store ∧
        (sight.noting notice?).BorneOut known after.store ∧
        ∀ other : Sight, other.BorneOut known world.store → other.BorneOut known after.store := by
    rintro notice? after rfl same
    rw [same]
    exact ⟨coherent, .nothing rfl,
      ⟨borneOut.runs, borneOut.shown, fun _ isFound => (nomatch isFound)⟩, fun _ => id⟩
  cases request with
  | store request =>
    obtain ⟨rfl, rfl⟩ := answers
    have passes := Store.passes_answer coherent request
    have admits := may.admits borneOut
    exact ⟨borneOut.credible coherent, passes.coherent coherent admits, may.does passes,
      borneOut.noting passes admits, fun other borneOut => borneOut.passes passes admits⟩
  | log runId kind =>
    obtain ⟨time, rfl⟩ := answers
    exact ⟨trivial, idle rfl rfl⟩
  | stamp =>
    obtain ⟨clock, rfl⟩ := answers
    exact ⟨trivial, idle rfl rfl⟩
  | validate | act | backendAvailable => exact ⟨trivial, idle rfl (by rw [answers.2])⟩
  | launch job => exact ⟨answers.1, idle rfl (by rw [answers.2])⟩

end Stores

end Execution

end Vetting
