import Mathlib.Logic.Relation
import Vetting.Proofs.Run.Answering
import Vetting.Proofs.Run.Auditing

/-!
Contract: what taking a step of a run makes of a store, whatever has been stored before.

Owns:
- `Store.Begins`: a step is begun, or begun again;
- `Store.Takes`: a step has been taken, with the conclusion that it has come to;
- `Store.Alters`: one step run has another record and other findings, and the rest is as it was;
- `Store.Furthers`: what has ended stays, and what is at work has been so or has been begun since;
- `Store.Awaits`: a step run waits for its job, with the findings of its input assertions.

Does not own: how an execution takes its steps (`Vetting.Proofs.Run.Passage`).
-/

namespace Vetting

open Execution
open Relation (ReflTransGen)

namespace Store

/-- A store takes writes, its tables agree, and it holds a run. -/
structure Serves (store : Store) (run : Run) : Prop where
  coherent : store.Coherent
  writable : store.failingWrites = false
  held : store.runs.get? run.id = some run

/-- A step of a run is begun, or begun again: the step run at work, and the store after it. -/
inductive Begins (before : Store) (run : Run) (step : Step) : StepRun → Store → Prop
  | created (now : Timestamp) (absent : before.stepRunOf? run.id step.key = none) :
    Begins before run step (.begun before.freshId run.id step now)
      (before.putStepRun (.begun before.freshId run.id step now))
  | again {stepRun : StepRun} {after : Store} (now : Timestamp)
      (held : before.stepRuns.get? stepRun.id = some stepRun) (ofRun : stepRun.runId = run.id)
      (ofStep : stepRun.stepKey = step.key) (running : stepRun.status = .running)
      (idle : stepRun.awaitsJob = false) (rewrites : Rewrites before (restarted stepRun now) [] after) :
    Begins before run step (restarted stepRun now) after

/-- What a step looks at that is carried out. -/
def contextIn (store : Store) (run : Run) (step : Step) (stepRun : StepRun)
    (submission : Submission) : StepContext :=
  ⟨run, step, stepRun, submission, store.signalsBefore run.id step.order⟩

/-- A step of a run has been taken: it has been begun, and its step run has been settled or waits
for a job. -/
inductive Takes (mayAnswer : (request : Request) → request.Answer → Prop) (equipment : Equipment)
    (run : Run) (before : Store) : Store → Prop
  | settled {submission : Submission} {step : Step} {stepRun ended : StepRun}
      {middle after : Store} {conclusion : Conclusion} {verdict : Verdict} {error : Option String}
      (submitted : before.submissions.get? run.submissionId = some submission)
      (member : step ∈ run.steps) (begins : before.Begins run step stepRun middle)
      (concludes : Concludes mayAnswer equipment
        (middle.contextIn run step stepRun submission) [] conclusion)
      (settles : conclusion.Settles [] stepRun.output verdict error)
      (ends : Ends middle stepRun verdict ended after) :
    Takes mayAnswer equipment run before after
  | waits {submission : Submission} {step : Step} {stepRun : StepRun} {middle after : Store}
      {output : StepOutput} {findings : List Finding}
      (submitted : before.submissions.get? run.submissionId = some submission)
      (member : step ∈ run.steps) (begins : before.Begins run step stepRun middle)
      (concludes : Concludes mayAnswer equipment (middle.contextIn run step stepRun submission) []
        (.pending output (findings.map Finding.issue)))
      (rewrites : Rewrites middle (stepRun.leaving output) findings after) :
    Takes mayAnswer equipment run before after

/-- A run that is given the record that it has stays as it is. -/
theorem withRun_of_held {store : Store} {run : Run} (held : store.runs.get? run.id = some run) :
    store.withRun run = store := by
  rw [withRun, Table.set_of_get? held]

section Serving

variable {mayAnswer : (request : Request) → request.Answer → Prop} {equipment : Equipment}
  {before after : Store} {run : Run} {step : Step} {stepRun : StepRun}

theorem Serves.rewrites {old : StepRun} {findings : List Finding} (serves : before.Serves run)
    (rewrites : Rewrites before stepRun findings after)
    (held : before.stepRuns.get? stepRun.id = some old) (sameRun : stepRun.runId = old.runId)
    (sameKey : stepRun.stepKey = old.stepKey) : after.Serves run where
  coherent := rewrites.coherent serves.coherent held sameRun sameKey
  writable := rewrites.failingWrites.trans serves.writable
  held := by rw [rewrites.runs, serves.held]

theorem Serves.withRun (serves : before.Serves run) (later : Run) :
    (before.withRun later).Serves later :=
  ⟨serves.coherent.withRun later, serves.writable, before.withRun_get? later⟩

theorem Begins.begun (begins : before.Begins run step stepRun after) (serves : before.Serves run) :
    Begun run step after stepRun := by
  cases begins with
  | created now absent =>
    have unrecorded : before.issuesOf before.freshId = [] := by
      rw [issuesOf, serves.coherent.recorded _ before.get?_freshId]
      rfl
    exact ⟨(Table.get?_set _ _ _ _).trans (if_pos rfl), rfl, rfl, rfl, rfl, unrecorded⟩
  | again now held ofRun ofStep running idle rewrites =>
    exact ⟨rewrites.get?_self, ofRun, ofStep, running, idle, rewrites.issuesOf_self⟩

theorem Begins.serves (begins : before.Begins run step stepRun after) (serves : before.Serves run) :
    after.Serves run := by
  cases begins with
  | created now absent =>
    exact ⟨serves.coherent.putStepRun serves.held before.get?_freshId absent, serves.writable,
      serves.held⟩
  | again now held ofRun ofStep running idle rewrites =>
    exact serves.rewrites rewrites held rfl rfl

theorem Begins.submissions (begins : before.Begins run step stepRun after) :
    after.submissions = before.submissions := by
  cases begins with
  | created => rfl
  | again _ _ _ _ _ _ rewrites => exact rewrites.submissions

theorem Takes.serves (takes : before.Takes mayAnswer equipment run after)
    (serves : before.Serves run) : after.Serves run := by
  cases takes with
  | settled _ _ begins _ _ ends =>
    have begun := begins.begun serves
    obtain ⟨now, rfl⟩ := ends.record
    obtain ⟨findings, _, rewrites⟩ := ends.rewrites
    exact (begins.serves serves).rewrites rewrites begun.held rfl rfl
  | waits _ _ begins _ rewrites =>
    have begun := begins.begun serves
    exact (begins.serves serves).rewrites rewrites begun.held rfl rfl

theorem Takes.submissions (takes : before.Takes mayAnswer equipment run after) :
    after.submissions = before.submissions := by
  cases takes with
  | settled _ _ begins _ _ ends =>
    obtain ⟨findings, _, rewrites⟩ := ends.rewrites
    exact rewrites.submissions.trans begins.submissions
  | waits _ _ begins _ rewrites => exact rewrites.submissions.trans begins.submissions

theorem submissions_of_takes (takes : ReflTransGen (Takes mayAnswer equipment run) before after) :
    after.submissions = before.submissions := by
  induction takes with
  | refl => rfl
  | tail _ takes inductionHypothesis => exact takes.submissions.trans inductionHypothesis

theorem serves_of_takes (takes : ReflTransGen (Takes mayAnswer equipment run) before after)
    (serves : before.Serves run) : after.Serves run := by
  induction takes with
  | refl => exact serves
  | tail _ takes inductionHypothesis => exact takes.serves inductionHypothesis

end Serving

/-! ### Changing one step run -/

/-- One store follows another by giving one step run a record and findings. -/
structure Alters (before : Store) (stepRun : StepRun) (after : Store) : Prop where
  submissions : after.submissions = before.submissions
  runs : after.runs = before.runs
  held : after.stepRuns.get? stepRun.id = some stepRun
  others : ∀ id, stepRun.id ≠ id →
    after.stepRuns.get? id = before.stepRuns.get? id ∧ after.issuesOf id = before.issuesOf id

section Altering

variable {before middle after : Store} {run : Run} {step : Step} {stepRun ended : StepRun}

theorem Alters.trans (first : Alters before stepRun middle) (second : Alters middle ended after)
    (same : ended.id = stepRun.id) : Alters before ended after where
  submissions := second.submissions.trans first.submissions
  runs := second.runs.trans first.runs
  held := second.held
  others := by
    intro id other
    obtain ⟨sameRecord, sameIssues⟩ := second.others id other
    obtain ⟨recordBefore, issuesBefore⟩ := first.others id (same ▸ other)
    exact ⟨sameRecord.trans recordBefore, sameIssues.trans issuesBefore⟩

theorem Rewrites.alters {findings : List Finding} (rewrites : Rewrites before stepRun findings after) :
    Alters before stepRun after where
  submissions := rewrites.submissions
  runs := rewrites.runs
  held := rewrites.get?_self
  others := by
    intro id other
    rw [rewrites.get?, issuesOf, rewrites.findings, if_neg other, if_neg other]
    exact ⟨rfl, rfl⟩

theorem Ends.alters {verdict : Verdict} (ends : Ends before stepRun verdict ended after) :
    Alters before ended after := by
  obtain ⟨findings, _, rewrites⟩ := ends.rewrites
  exact rewrites.alters

theorem Begins.alters (begins : before.Begins run step stepRun after) :
    Alters before stepRun after := by
  cases begins with
  | created now absent =>
    refine ⟨rfl, rfl, (Table.get?_set _ _ _ _).trans (if_pos rfl), fun id other => ⟨?_, rfl⟩⟩
    exact (Table.get?_set _ _ _ _).trans (if_neg other)
  | again now held ofRun ofStep running idle rewrites => exact rewrites.alters

end Altering

/-! ### What is left at work -/

/-- What has ended stays as it is.  What is at work has been so, with the same record and findings, or
has been begun since, and is left as is said. -/
structure Furthers (left : StepRun → Prop) (before after : Store) : Prop where
  attempts : ∀ id old, before.stepRuns.get? id = some old →
    ∃ new, after.stepRuns.get? id = some new ∧ old.attempt ≤ new.attempt
  ended : ∀ id old, before.stepRuns.get? id = some old → old.status.isTerminal = true →
    after.stepRuns.get? id = some old ∧ after.issuesOf id = before.issuesOf id
  atWork : ∀ id new, after.stepRuns.get? id = some new → new.status = .running →
    (before.stepRuns.get? id = some new ∧ after.issuesOf id = before.issuesOf id) ∨
      (∀ old, before.stepRuns.get? id = some old → old.attempt < new.attempt) ∧ left new

/-- No step run at work has left signals. -/
def Silent (store : Store) : Prop :=
  ∀ id stepRun, store.stepRuns.get? id = some stepRun → stepRun.status = .running →
    stepRun.output.signals.isEmpty = true

/-- A step run of a run has been handed over to its job.  Its findings are what its input assertions
have come to, with the submission of the run and the signals that are there. -/
inductive Awaits (equipment : Equipment) (run : Run) (store : Store) (stepRun : StepRun) : Prop
  | intro {step : Step} {validator : Validator} {ruleset : Rule.Ruleset}
      {external : ExternalValidator} {submission : Submission} (ofRun : stepRun.runId = run.id)
      (member : step ∈ run.steps) (ofStep : stepRun.stepKey = step.key)
      (isJob : step.IsJob equipment.validators validator ruleset external)
      (submitted : store.submissions.get? run.submissionId = some submission)
      (silent : stepRun.output.signals.isEmpty = true)
      (checked : store.issuesOf stepRun.id = (inputReport equipment.checker validator ruleset
        submission (store.signalsBefore run.id step.order)).issues) :
    Awaits equipment run store stepRun

section Furthering

variable {mayAnswer : (request : Request) → request.Answer → Prop} {equipment : Equipment}
  {left : StepRun → Prop} {before middle after : Store} {run later : Run} {submission : Submission}
  {step : Step} {stepRun ended : StepRun}

theorem Furthers.refl (store : Store) : store.Furthers left store where
  attempts := fun _ old held => ⟨old, held, Nat.le_refl _⟩
  ended := fun _ _ held _ => ⟨held, rfl⟩
  atWork := fun _ _ held _ => Or.inl ⟨held, rfl⟩

theorem Furthers.imp {leftStill : StepRun → Prop} (furthers : before.Furthers left after)
    (imp : ∀ new, left new → leftStill new) : before.Furthers leftStill after where
  attempts := furthers.attempts
  ended := furthers.ended
  atWork := fun id new held running =>
    (furthers.atWork id new held running).imp_right (And.imp_right (imp new))

/-- First nothing is left at work, and then something may be. -/
theorem Furthers.trans (first : before.Furthers (fun _ => False) middle)
    (second : middle.Furthers left after) : before.Furthers left after where
  attempts := by
    intro id old held
    obtain ⟨between, heldBetween, upTo⟩ := first.attempts id old held
    obtain ⟨new, heldNew, further⟩ := second.attempts id between heldBetween
    exact ⟨new, heldNew, Nat.le_trans upTo further⟩
  ended := by
    intro id old held terminal
    obtain ⟨heldMiddle, sameFirst⟩ := first.ended id old held terminal
    obtain ⟨heldAfter, sameSecond⟩ := second.ended id old heldMiddle terminal
    exact ⟨heldAfter, sameSecond.trans sameFirst⟩
  atWork := by
    intro id new held running
    rcases second.atWork id new held running with ⟨heldMiddle, same⟩ | ⟨newer, isLeft⟩
    · rcases first.atWork id new heldMiddle running with ⟨heldBefore, sameFirst⟩ | ⟨_, impossible⟩
      · exact Or.inl ⟨heldBefore, same.trans sameFirst⟩
      · exact impossible.elim
    · refine Or.inr ⟨fun old heldOld => ?_, isLeft⟩
      obtain ⟨between, heldBetween, upTo⟩ := first.attempts id old heldOld
      exact Nat.lt_of_le_of_lt upTo (newer between heldBetween)

theorem Furthers.withRun (furthers : before.Furthers left after) (run : Run) :
    before.Furthers left (after.withRun run) :=
  ⟨furthers.attempts, furthers.ended, furthers.atWork⟩

theorem furthers_withRun (store : Store) (run : Run) : store.Furthers left (store.withRun run) :=
  (Furthers.refl store).withRun run

theorem Furthers.silent (furthers : before.Furthers (fun _ => False) after) (silent : before.Silent) :
    after.Silent := by
  intro id stepRun held running
  rcases furthers.atWork id stepRun held running with ⟨heldBefore, _⟩ | ⟨_, impossible⟩
  · exact silent id stepRun heldBefore running
  · exact impossible.elim

/-- Another record of a step run at work furthers a store. -/
theorem Alters.furthers (alters : Alters before stepRun after)
    (moves : ∀ old, before.stepRuns.get? stepRun.id = some old →
      old.status = .running ∧ old.attempt ≤ stepRun.attempt)
    (leaves : stepRun.status = .running →
      (∀ old, before.stepRuns.get? stepRun.id = some old → old.attempt < stepRun.attempt) ∧
        left stepRun) : before.Furthers left after where
  attempts := by
    intro id old held
    by_cases same : stepRun.id = id
    · subst same
      exact ⟨stepRun, alters.held, (moves old held).2⟩
    · exact ⟨old, (alters.others id same).1.trans held, Nat.le_refl _⟩
  ended := by
    intro id old held terminal
    by_cases same : stepRun.id = id
    · subst same
      rw [(moves old held).1] at terminal
      cases terminal
    · exact ⟨(alters.others id same).1.trans held, (alters.others id same).2⟩
  atWork := by
    intro id new held running
    by_cases same : stepRun.id = id
    · subst same
      obtain rfl := Option.some.inj (alters.held.symm.trans held)
      exact Or.inr (leaves running)
    · exact Or.inl ⟨(alters.others id same).1.symm.trans held, (alters.others id same).2⟩

/-- A step run that ends, after it has been at work, furthers a store. -/
theorem Ends.furthers {verdict : Verdict} (ends : Ends before stepRun verdict ended after)
    (held : before.stepRuns.get? stepRun.id = some stepRun) (running : stepRun.status = .running)
    (terminal : verdict.status.isTerminal = true) : before.Furthers left after := by
  have attempt : ended.attempt = stepRun.attempt := by
    obtain ⟨now, rfl⟩ := ends.record
    rfl
  refine ends.alters.furthers (fun old heldOld => ?_) fun stillRuns => ?_
  · rw [ends.id, held] at heldOld
    obtain rfl := Option.some.inj heldOld
    exact ⟨running, Nat.le_of_eq attempt.symm⟩
  · rw [← ends.status, stillRuns] at terminal
    cases terminal

/-- A step that begins has not been at work in this attempt. -/
theorem Begins.moves (begins : before.Begins run step stepRun after) {old : StepRun}
    (held : before.stepRuns.get? stepRun.id = some old) :
    old.status = .running ∧ old.attempt < stepRun.attempt := by
  cases begins with
  | created now absent =>
    have fresh : before.stepRuns.get? before.freshId = some old := held
    rw [before.get?_freshId] at fresh
    cases fresh
  | again now heldOld ofRun ofStep running idle rewrites =>
    obtain rfl := Option.some.inj (heldOld.symm.trans held)
    exact ⟨running, Nat.lt_succ_self _⟩

/-- A step that begins has left no signals, if no step run at work has. -/
theorem Begins.silent (begins : before.Begins run step stepRun after) (silent : before.Silent) :
    stepRun.output.signals.isEmpty = true := by
  cases begins with
  | created => rfl
  | @again other _ now held ofRun ofStep running idle rewrites =>
    exact silent other.id other held running

/-- A step that has been begun and has ended leaves nothing at work. -/
theorem Begins.furthers_ends {verdict : Verdict} (begins : before.Begins run step stepRun middle)
    (ends : Ends middle stepRun verdict ended after) (terminal : verdict.status.isTerminal = true) :
    before.Furthers (fun _ => False) after := by
  have attempt : ended.attempt = stepRun.attempt := by
    obtain ⟨now, rfl⟩ := ends.record
    rfl
  refine (begins.alters.trans ends.alters ends.id).furthers (fun old held => ?_) fun stillRuns => ?_
  · rw [ends.id] at held
    obtain ⟨running, newer⟩ := begins.moves held
    exact ⟨running, attempt ▸ Nat.le_of_lt newer⟩
  · rw [← ends.status, stillRuns] at terminal
    cases terminal

/-- A step that has been begun and waits for its job has been handed over. -/
theorem Begins.furthers_waits {output : StepOutput} {findings : List Finding} (serves : before.Serves run)
    (silent : before.Silent) (submitted : before.submissions.get? run.submissionId = some submission)
    (member : step ∈ run.steps) (begins : before.Begins run step stepRun middle)
    (concludes : Concludes mayAnswer equipment (middle.contextIn run step stepRun submission) []
      (.pending output (findings.map Finding.issue)))
    (rewrites : Rewrites middle (stepRun.leaving output) findings after) :
    before.Furthers (after.Awaits equipment run) after := by
  have begun := begins.begun serves
  have coherent := (begins.serves serves).coherent
  refine (begins.alters.trans rewrites.alters rfl).furthers (fun old held => ?_) fun _ => ?_
  · obtain ⟨running, newer⟩ := begins.moves held
    exact ⟨running, Nat.le_of_lt newer⟩
  · refine ⟨fun old held => (begins.moves held).2, ?_⟩
    obtain ⟨validator, ruleset, external, response, isJob, _, _, isLeft, issues⟩ := concludes.pending
    have unsignaled : output.signals.isEmpty = true := by
      rw [isLeft]
      rfl
    have signals : after.signalsBefore run.id step.order = middle.signalsBefore run.id step.order :=
      rewrites.signalsBefore coherent begun.held rfl rfl
        fun _ _ => ⟨begins.silent silent, unsignaled⟩
    rw [← begins.submissions, ← rewrites.submissions] at submitted
    refine .intro begun.ofRun member begun.ofStep isJob submitted unsignaled ?_
    rw [rewrites.issuesOf_self, issues, signals]
    rfl

/-- Another record of its run leaves a step run handed over. -/
theorem Awaits.withRun {store : Store} (awaits : store.Awaits equipment run stepRun)
    (last : Run) : (store.withRun last).Awaits equipment run stepRun := by
  obtain ⟨ofRun, member, ofStep, isJob, submitted, silent, checked⟩ := awaits
  exact .intro ofRun member ofStep isJob submitted silent checked

theorem Awaits.keeps {store : Store} (awaits : store.Awaits equipment later stepRun)
    (keeps : run.Keeps later) : store.Awaits equipment run stepRun := by
  obtain ⟨ofRun, member, ofStep, isJob, submitted, silent, checked⟩ := awaits
  rw [keeps.steps] at member
  rw [keeps.submissionId] at submitted
  rw [keeps.id] at ofRun checked
  exact .intro ofRun member ofStep isJob submitted silent checked

end Furthering

end Store

end Vetting
