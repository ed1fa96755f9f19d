import Vetting.Proofs.Run.Conduct
import Vetting.Proofs.Step.Blame

/-!
Contract: what a step that has ended has been told, and its stored findings.

Owns:
- `Heard`: what a validator, an action or a job has said about a step run in some episode;
- `Store.Grounded`: what has ended without an error has ended as is due, and what still runs has
  counters that agree with its findings;
- whatever is conducted leaves the store so.

Does not own: what is due (`Vetting.Proofs.Step.Blame`).
-/

namespace Vetting

open Execution
open Relation (ReflTransGen)
open Store (Rewrites Ends Alters Takes)

/-! ### What has been said about a step run -/

/-- Something has been said about a step run, while an execution of its run carried it out, or by a
callback. -/
inductive Heard (allowed : Episode → Prop) (equipment : Equipment) (store : Store)
    (stepRun : StepRun) : Said → Prop
  | meanwhile {resumeFrom : Option Int} {mayAnswer : (request : Request) → request.Answer → Prop}
      {context : StepContext} {said : Said} {run : Run}
      (isAllowed : allowed ⟨.execute stepRun.runId resumeFrom, mayAnswer⟩)
      (hears : Hears mayAnswer equipment context said) (ofStepRun : context.stepRun.id = stepRun.id)
      (attempt : context.stepRun.attempt = stepRun.attempt)
      (ofStep : context.step.key = stepRun.stepKey)
      (held : store.runs.get? stepRun.runId = some run) (member : context.step ∈ run.steps)
      (submitted : store.submissions.get? run.submissionId = some context.submission) :
    Heard allowed equipment store stepRun said
  | later {envelope : Envelope} {key? : Option String}
      {mayAnswer : (request : Request) → request.Answer → Prop}
      (isAllowed : allowed ⟨.callback stepRun.id envelope key?, mayAnswer⟩) :
    Heard allowed equipment store stepRun (.reported envelope)

/-- What a step run comes to, if it has ended with the given issues. -/
def StepRun.verdict (stepRun : StepRun) (issues : List Issue) : Verdict :=
  ⟨stepRun.status, stepRun.output, stepRun.error, issues⟩

/-- A step run has ended as is due to what has been said about it, unless by an error.  While it runs,
its counters agree with its findings. -/
structure StepRun.Grounded (told : Said → Prop) (stepRun : StepRun) (issues : List Issue) : Prop where
  agrees : stepRun.status = .running → stepRun.output.Agrees issues
  due : stepRun.status.isTerminal = true → stepRun.error = none →
    ∃ said, told said ∧ (stepRun.verdict issues).DueTo said

namespace StepRun

variable {told : Said → Prop} {stepRun : StepRun} {issues : List Issue}

theorem grounded_of_running (running : stepRun.status = .running)
    (agrees : stepRun.output.Agrees issues) : stepRun.Grounded told issues where
  agrees := fun _ => agrees
  due := by
    intro terminal
    rw [running] at terminal
    cases terminal

theorem Grounded.imp {toldStill : Said → Prop} (grounded : stepRun.Grounded told issues)
    (imp : ∀ said, told said → toldStill said) : stepRun.Grounded toldStill issues where
  agrees := grounded.agrees
  due := by
    intro terminal unfaulted
    obtain ⟨said, isTold, dueTo⟩ := grounded.due terminal unfaulted
    exact ⟨said, imp said isTold, dueTo⟩

end StepRun

namespace Store

/-- Every step run that has ended is grounded on what has been said about it. -/
def Grounded (allowed : Episode → Prop) (equipment : Equipment) (store : Store) : Prop :=
  ∀ id stepRun, store.stepRuns.get? id = some stepRun →
    stepRun.Grounded (Heard allowed equipment store stepRun) (store.issuesOf id)

namespace Grounded

variable {allowed : Episode → Prop} {equipment : Equipment} {store after : Store}
  {stepRun : StepRun}

theorem alters (grounded : store.Grounded allowed equipment) (alters : Alters store stepRun after)
    (own : stepRun.Grounded (Heard allowed equipment after stepRun) (after.issuesOf stepRun.id)) :
    after.Grounded allowed equipment := by
  intro id other held
  by_cases same : stepRun.id = id
  · subst same
    obtain rfl := Option.some.inj (alters.held.symm.trans held)
    exact own
  · obtain ⟨sameRecord, sameIssues⟩ := alters.others id same
    rw [sameRecord] at held
    rw [sameIssues]
    refine (grounded id other held).imp fun said told => ?_
    cases told with
    | meanwhile isAllowed hears ofStepRun attempt ofStep heldRun member submitted =>
      rw [← alters.runs] at heldRun
      rw [← alters.submissions] at submitted
      exact .meanwhile isAllowed hears ofStepRun attempt ofStep heldRun member submitted
    | later isAllowed => exact .later isAllowed

/-- A run gets another record, which is about the same steps and submission. -/
theorem withRun (grounded : store.Grounded allowed equipment) {run later : Run}
    (held : store.runs.get? run.id = some run) (keeps : run.Keeps later) :
    (store.withRun later).Grounded allowed equipment := by
  intro id other heldOther
  refine (grounded id other heldOther).imp fun said told => ?_
  cases told with
  | @meanwhile _ _ context _ heldBefore isAllowed hears ofStepRun attempt ofStep heldRun member
    submitted =>
    by_cases same : run.id = other.runId
    · rw [← same, held] at heldRun
      obtain rfl := Option.some.inj heldRun
      have heldLater : (store.withRun later).runs.get? other.runId = some later := by
        rw [← same, ← keeps.id]
        exact store.withRun_get? later
      rw [← keeps.steps] at member
      rw [← keeps.submissionId] at submitted
      exact .meanwhile isAllowed hears ofStepRun attempt ofStep heldLater member submitted
    · have heldStill : (store.withRun later).runs.get? other.runId = some heldBefore := by
        rw [Store.withRun, Table.get?_set, if_neg (keeps.id ▸ same)]
        exact heldRun
      exact .meanwhile isAllowed hears ofStepRun attempt ofStep heldStill member submitted
  | later isAllowed => exact .later isAllowed

theorem withReceipts (grounded : store.Grounded allowed equipment) (receipts : List String) :
    (store.withReceipts receipts).Grounded allowed equipment := by
  intro id other held
  refine (grounded id other held).imp fun said told => ?_
  cases told with
  | meanwhile isAllowed hears ofStepRun attempt ofStep heldRun member submitted =>
    exact .meanwhile isAllowed hears ofStepRun attempt ofStep heldRun member submitted
  | later isAllowed => exact .later isAllowed

/-- A step run ends with a verdict that is due. -/
theorem ends (grounded : store.Grounded allowed equipment) {verdict : Verdict} {ended : StepRun}
    (ends : Ends store stepRun verdict ended after) (terminal : verdict.status.isTerminal = true)
    (due : verdict.error = none →
      ∃ said, Heard allowed equipment after ended said ∧ verdict.DueTo said) :
    after.Grounded allowed equipment := by
  refine grounded.alters ends.alters ?_
  obtain ⟨now, rfl⟩ := ends.record
  obtain ⟨findings, issues, rewrites⟩ := ends.rewrites
  rw [rewrites.issuesOf_self, issues]
  refine ⟨fun running => ?_, fun _ => due⟩
  have status : verdict.status = .running := running
  rw [status] at terminal
  cases terminal

end Grounded

end Store

/-! ### Operations -/

section Operations

variable {mayAnswer : (request : Request) → request.Answer → Prop} {equipment : Equipment}
  {allowed : Episode → Prop} {store after : Store} {run : Run} {resumeFrom : Option Int}

/-- Taking a step leaves it grounded. -/
theorem Store.Takes.grounded (takes : store.Takes mayAnswer equipment run after)
    (isAllowed : allowed ⟨.execute run.id resumeFrom, mayAnswer⟩)
    (plainspoken : Plainspoken mayAnswer) (serves : store.Serves run)
    (grounded : store.Grounded allowed equipment) : after.Grounded allowed equipment := by
  have servesAfter := takes.serves serves
  have submissions := takes.submissions
  cases takes with
  | @settled submission step stepRun ended middle _ conclusion verdict error submitted member begins
      concludes settles ends =>
    have begun := begins.begun serves
    have alters := begins.alters.trans ends.alters ends.id
    refine grounded.alters alters ?_
    have terminal := terminal_of_decided (settles.decided concludes.decided)
    obtain ⟨now, rfl⟩ := ends.record
    obtain ⟨findings, issues, rewrites⟩ := ends.rewrites
    rw [rewrites.issuesOf_self, issues]
    refine ⟨fun running => ?_, fun _ unfaulted => ?_⟩
    · have status : verdict.status = .running := running
      rw [status] at terminal
      cases terminal
    · cases settles with
      | faulted => cases unfaulted
      | ended =>
        obtain ⟨said, hears, dueTo⟩ := concludes.due plainspoken unfaulted
        rw [← begun.ofRun] at isAllowed
        have held := servesAfter.held
        rw [← begun.ofRun] at held
        rw [← submissions] at submitted
        exact ⟨said, .meanwhile isAllowed hears rfl rfl begun.ofStep.symm held member submitted, dueTo⟩
  | @waits submission step stepRun middle _ output findings submitted member begins concludes
      rewrites =>
    have begun := begins.begun serves
    refine grounded.alters (begins.alters.trans rewrites.alters rfl) ?_
    have running : (stepRun.leaving output).status = .running := begun.running
    rw [rewrites.issuesOf_self]
    exact StepRun.grounded_of_running running (concludes.due plainspoken)

theorem Store.grounded_of_takes (takes : ReflTransGen (Takes mayAnswer equipment run) store after)
    (isAllowed : allowed ⟨.execute run.id resumeFrom, mayAnswer⟩)
    (plainspoken : Plainspoken mayAnswer) (serves : store.Serves run)
    (grounded : store.Grounded allowed equipment) : after.Grounded allowed equipment := by
  induction takes with
  | refl => exact grounded
  | tail earlier takes inductionHypothesis =>
    exact takes.grounded isAllowed plainspoken (Store.serves_of_takes earlier serves)
      inductionHypothesis

theorem Execution.Performed.grounded (performed : Performed mayAnswer equipment store run after)
    (isAllowed : allowed ⟨.execute run.id resumeFrom, mayAnswer⟩)
    (plainspoken : Plainspoken mayAnswer) (serves : store.Serves run)
    (grounded : store.Grounded allowed equipment) : after.Grounded allowed equipment := by
  have entering : ∀ {entered : Run} {last : Store}, Enters run entered →
      ReflTransGen (Takes mayAnswer equipment entered) (store.withRun entered) last →
      last.Grounded allowed equipment := by
    intro entered last enters takes
    rw [← enters.keeps.id] at isAllowed
    exact Store.grounded_of_takes takes isAllowed plainspoken (serves.withRun entered)
      (grounded.withRun serves.held enters.keeps)
  cases performed with
  | idle => exact grounded
  | rests enters takes => exact entering enters takes
  | closes enters closed =>
    obtain ⟨takes, _, closes, _⟩ := closed
    exact (entering enters takes).withRun (Store.serves_of_takes takes (serves.withRun _)).held
      closes.toKeeps

/-- A callback whose report is taken in settles a step as is due to the report. -/
theorem Execution.Conclusion.Settles.due {stepRun : StepRun} {envelope : Envelope} {verdict : Verdict}
    {error : Option String}
    (settles : (callbackConclusion equipment store run stepRun envelope).Settles
      (store.issuesOf stepRun.id) stepRun.output verdict error)
    (agrees : stepRun.output.Agrees (store.issuesOf stepRun.id)) (unfaulted : verdict.error = none) :
    verdict.DueTo (.reported envelope) := by
  obtain ⟨code, detail, rfl⟩ | ⟨validator, ruleset, external, signals, rfl⟩ :=
    settles.fails_or_reports
  · cases unfaulted
  · exact Verdict.dueTo_ofEnvelope agrees _ _ _ _ _ _

theorem Execution.Applied.grounded {stepRun : StepRun} {envelope : Envelope} {key? : Option String}
    {outcome : CallbackOutcome}
    (applied : Applied equipment store run stepRun envelope outcome after)
    (isAllowed : allowed ⟨.callback stepRun.id envelope key?, mayAnswer⟩)
    (heldRun : store.runs.get? run.id = some run)
    (held : store.stepRuns.get? stepRun.id = some stepRun)
    (grounded : store.Grounded allowed equipment) : after.Grounded allowed equipment := by
  obtain ⟨_, rfl⟩ | ⟨isOpen, verdict, error, ended, middle, settles, ends, reruns⟩ :=
    applied.same_or_settles
  · exact grounded
  · have agrees := (grounded _ _ held).agrees (running_of_not_terminal isOpen)
    have settled : middle.Grounded allowed equipment := by
      refine grounded.ends ends settles.terminal fun unfaulted => ?_
      rw [← ends.id] at isAllowed
      exact ⟨_, .later isAllowed, settles.due agrees unfaulted⟩
    rcases reruns with ⟨rfl, _⟩ | ⟨later, keeps, _, rfl⟩
    · exact settled
    · rw [← ends.alters.runs] at heldRun
      exact settled.withRun heldRun keeps

theorem Execution.Canceled.grounded (canceled : Canceled store run after) (serves : store.Serves run)
    (grounded : store.Grounded allowed equipment) : after.Grounded allowed equipment := by
  cases canceled with
  | already => exact grounded
  | closed _ closes => exact grounded.withRun serves.held (run.keeps_flagged.trans closes.toKeeps)
  | flagged => exact grounded.withRun serves.held run.keeps_flagged

/-- Operations leave all step runs grounded. -/
theorem kept_grounded (plainspoken : ∀ episode, allowed episode → Plainspoken episode.mayAnswer) :
    Kept equipment allowed (Store.Grounded allowed equipment) where
  performs := by
    intro store after run resumeFrom mayAnswer isAllowed serves grounded performed
    exact performed.grounded isAllowed (plainspoken _ isAllowed) serves grounded
  answers := by
    intro store after run stepRun envelope key? outcome mayAnswer isAllowed serves held sameId grounded
      answered _
    cases answered with
    | refused => exact grounded
    | taken _ applied =>
      exact applied.grounded isAllowed serves.held held (grounded.withReceipts _)
  cancels := by
    intro store after run serves grounded canceled _
    exact canceled.grounded serves grounded

/-- Whatever has been conducted, a step run that has ended without an error has been told something,
which can be seen in its record.  It has passed exactly if that is in its favour and none of its findings
condemns it, and failed otherwise. -/
theorem grounded_of_conducted {origin world : World} {episodes : List Episode}
    (orderly : origin.store.Orderly) (unbegun : ∀ id, origin.store.stepRuns.get? id = none)
    (conducted : Conducted equipment origin episodes world)
    (plainspoken : ∀ episode ∈ episodes, Plainspoken episode.mayAnswer) {id : Uuid}
    {stepRun : StepRun} (held : world.store.stepRuns.get? id = some stepRun)
    (terminal : stepRun.status.isTerminal = true) (unfaulted : stepRun.error = none) :
    ∃ said, Heard (· ∈ episodes) equipment world.store stepRun said ∧
      said.Marks (stepRun.verdict (world.store.issuesOf id)) ∧
      (stepRun.status = .passed ↔
        said.Favors ∧ ∀ finding ∈ world.store.findingsOf id, ¬ finding.issue.Condemns) ∧
      (stepRun.status = .passed ∨ stepRun.status = .failed) := by
  have initially : origin.store.Grounded (· ∈ episodes) equipment := by
    intro id stepRun held
    rw [unbegun] at held
    cases held
  obtain ⟨_, grounded⟩ := conducted.keeps (kept_grounded plainspoken) (fun _ member => member) orderly
    initially
  obtain ⟨said, told, dueTo⟩ := (grounded id stepRun held).due terminal unfaulted
  refine ⟨said, told, dueTo.marks, dueTo.passed.trans (and_congr_right fun _ => ?_), dueTo.decided⟩
  exact List.forall_mem_map

end Operations

namespace Example

theorem plainspoken_surroundings (response : JobResponse) :
    Plainspoken (surroundings response).answers := by
  rintro validator submission outcome ⟨⟩
  exact fun _ member => nomatch member

/-- The job has reported success, no finding condemns its step, and the step has passed. -/
theorem grounded_reporting : ∃ stepRun said,
    (carriedOut reporting).store.stepRuns.get? stepId = some stepRun ∧
    stepRun.status = .passed ∧ stepRun.error = none ∧
    Heard (· ∈ [episode reporting]) equipment (carriedOut reporting).store stepRun said ∧
    said.Favors ∧
    ∀ finding ∈ (carriedOut reporting).store.findingsOf stepId, ¬ finding.issue.Condemns := by
  have standing : ((carriedOut reporting).store.stepRuns.get? stepId).map
      (fun stepRun => (stepRun.status, stepRun.error)) = some (.passed, none) := by decide +kernel
  obtain ⟨stepRun, held, same⟩ := Option.map_eq_some_iff.mp standing
  obtain ⟨hasPassed, unfaulted⟩ := Prod.mk.inj same
  have terminal : stepRun.status.isTerminal = true := by
    rw [hasPassed]
    rfl
  have plainspoken : ∀ taken ∈ [episode reporting], Plainspoken taken.mayAnswer := by
    intro taken member
    obtain rfl := List.mem_singleton.mp member
    exact plainspoken_surroundings reporting
  obtain ⟨said, told, _, passed, _⟩ := grounded_of_conducted orderly_store unbegun_world
    (conducted_carriedOut reporting) plainspoken held terminal unfaulted
  obtain ⟨favors, spared⟩ := passed.mp hasPassed
  exact ⟨stepRun, said, held, hasPassed, unfaulted, told, favors, spared⟩

end Example

end Vetting
