import Vetting.Proofs.Run.Grounds

/-!
Contract: the findings of a step whose job a callback has reported.

Owns:
- what each operation leaves at work, and that it leaves alone what has ended;
- `Dispatch`: the execution that has handed a step run over to its job, among all that has been
  conducted;
- `Envelope.Recounts`: the issues that stand for the messages of a job, and for how it has ended;
- that such a step has the issues of its input assertions, those of the report, and those of its output
  assertions, whatever comes before and after.

Does not own: the issues of assertions (`Vetting.Rule.Report`).

The findings are written in two operations.  The first one replaces what there is, the second one adds
to it, and neither can be seen from the other.  So it is followed from one to the other what a step run at
work has.
-/

namespace Vetting

open Execution
open Store (Ends)

/-! ### What operations leave at work -/

section Operations

variable {mayAnswer : (request : Request) → request.Answer → Prop} {equipment : Equipment}
  {left : StepRun → Prop} {store after : Store} {run : Run} {stepRun : StepRun} {envelope : Envelope}

theorem Execution.Applied.furthers {outcome : CallbackOutcome}
    (applied : Applied equipment store run stepRun envelope outcome after)
    (held : store.stepRuns.get? stepRun.id = some stepRun) : store.Furthers left after := by
  obtain ⟨_, rfl⟩ | ⟨isOpen, verdict, error, ended, middle, settles, ends, reruns⟩ :=
    applied.same_or_settles
  · exact .refl _
  · have furthers : store.Furthers left middle :=
      ends.furthers held (running_of_not_terminal isOpen) settles.terminal
    rcases reruns with ⟨rfl, _⟩ | ⟨later, _, _, rfl⟩
    · exact furthers
    · exact furthers.withRun later

theorem Execution.Answered.furthers {key? : Option String} {outcome : CallbackOutcome}
    (answered : Answered equipment store run stepRun envelope key? outcome after)
    (held : store.stepRuns.get? stepRun.id = some stepRun) : store.Furthers left after := by
  cases answered with
  | refused => exact .refl _
  | taken _ applied =>
    have furthers : Store.Furthers left (store.withReceipts _) after := applied.furthers held
    exact ⟨furthers.attempts, furthers.ended, furthers.atWork⟩

theorem Execution.Canceled.furthers (canceled : Canceled store run after) :
    store.Furthers left after := by
  cases canceled with
  | already => exact .refl _
  | closed => exact store.furthers_withRun _
  | flagged => exact store.furthers_withRun _

/-- An invocation has handed a step run over to its job, and so it is an execution of its run. -/
def Entrusts (equipment : Equipment) (episode : Episode) (before after : Store) (stepRun : StepRun) :
    Prop :=
  ∃ run resumeFrom, episode.invocation = .execute run.id resumeFrom ∧
    before.runs.get? run.id = some run ∧ after.Awaits equipment run stepRun

section Invoking

variable {episode : Episode}

/-- Every invocation leaves alone what has ended.  What it leaves at work it leaves as it has been, or
has handed over. -/
theorem Invoked.furthers (invoked : Invoked equipment store episode after) (silent : store.Silent) :
    store.Furthers (Entrusts equipment episode store after) after := by
  cases invoked with
  | vain => exact .refl store
  | @execute run resumeFrom _ _ serves performs =>
    exact (performs.furthers silent).imp fun _ awaits => ⟨run, resumeFrom, rfl, serves.held, awaits⟩
  | callback _ held _ answered => exact answered.furthers held
  | cancel _ canceled => exact canceled.furthers

theorem Invoked.silent (invoked : Invoked equipment store episode after) (silent : store.Silent) :
    after.Silent := by
  intro id stepRun held running
  rcases (invoked.furthers silent).atWork id stepRun held running with ⟨before, _⟩ | ⟨_, entrusts⟩
  · exact silent id stepRun before running
  · obtain ⟨_, _, _, _, awaits⟩ := entrusts
    cases awaits with
    | intro _ _ _ _ _ unsignaled => exact unsignaled

end Invoking

end Operations

/-! ### From the execution that hands a step over to the callback that reports its job -/

/-- Among all that has been conducted, an execution has begun a step run in the attempt that it is in, and
has handed it over to its job.  Its input assertions have come to a report, with the signals that there
were. -/
inductive Dispatched (equipment : Equipment) (origin : World) (episodes : List Episode)
    (world : World) (stepRun : StepRun) : Rule.Report → Prop
  | intro {earlier later : List Episode} {launching launched : World} {run : Run}
      {resumeFrom : Option Int} {mayAnswer : (request : Request) → request.Answer → Prop}
      {requests : List Request} {step : Step} {validator : Validator} {ruleset : Rule.Ruleset}
      {external : ExternalValidator} {submission : Submission}
      (split : episodes = earlier ++ ⟨.execute run.id resumeFrom, mayAnswer⟩ :: later)
      (before : Conducted equipment origin earlier launching)
      (executes : ((Invocation.execute run.id resumeFrom).program equipment).Runs mayAnswer launching
        requests (some ()) launched)
      (since : Conducted equipment launched later world)
      (begun : ∀ old, launching.store.stepRuns.get? stepRun.id = some old →
        old.attempt < stepRun.attempt)
      (held : launched.store.stepRuns.get? stepRun.id = some stepRun)
      (heldRun : launching.store.runs.get? run.id = some run) (ofRun : stepRun.runId = run.id)
      (member : step ∈ run.steps) (ofStep : stepRun.stepKey = step.key)
      (isJob : step.IsJob equipment.validators validator ruleset external)
      (submitted : launched.store.submissions.get? run.submissionId = some submission) :
    Dispatched equipment origin episodes world stepRun (inputReport equipment.checker validator ruleset
      submission (launched.store.signalsBefore run.id step.order))

section Collecting

variable {mayAnswer : (request : Request) → request.Answer → Prop} {equipment : Equipment}
  {origin world last : World} {episodes later : List Episode} {stepRun : StepRun}

theorem Dispatched.invoked {report : Rule.Report} {requests : List Request}
    (dispatched : Dispatched equipment origin episodes world stepRun report) (episode : Episode)
    (runs : (episode.invocation.program equipment).Runs episode.mayAnswer world requests (some ())
      last) :
    Dispatched equipment origin (episodes ++ [episode]) last stepRun report := by
  cases dispatched with
  | intro split before executes since begun held heldRun ofRun member ofStep isJob submitted =>
    refine .intro ?_ before executes (since.invoked episode runs) begun held heldRun ofRun member ofStep
      isJob submitted
    rw [split, List.append_assoc, List.cons_append]

/-- What has been conducted leaves a store that takes writes, with agreeing tables, and no signals at
work. -/
theorem Conducted.orderly_silent (conducted : Conducted equipment origin episodes world)
    (orderly : origin.store.Orderly) (silent : origin.store.Silent) :
    world.store.Orderly ∧ world.store.Silent := by
  induction conducted with
  | start => exact ⟨orderly, silent⟩
  | invoked _ episode runs inductionHypothesis =>
    obtain ⟨orderly, silent⟩ := inductionHypothesis
    have invoked := invoked_of_runs orderly runs
    exact ⟨invoked.orderly orderly, invoked.silent silent⟩

/-- A step run at work has been handed over by an execution, and has the issues of its input
assertions. -/
theorem Conducted.dispatched (conducted : Conducted equipment origin episodes world)
    (orderly : origin.store.Orderly) (unbegun : ∀ id, origin.store.stepRuns.get? id = none)
    (held : world.store.stepRuns.get? stepRun.id = some stepRun) (running : stepRun.status = .running) :
    ∃ report, Dispatched equipment origin episodes world stepRun report ∧
      world.store.issuesOf stepRun.id = report.issues := by
  have silent : origin.store.Silent := by
    intro id stepRun held
    rw [unbegun] at held
    cases held
  induction conducted with
  | start =>
    rw [unbegun] at held
    cases held
  | @invoked earlier before after _ conducted episode runs inductionHypothesis =>
    obtain ⟨orderlyBefore, silentBefore⟩ := conducted.orderly_silent orderly silent
    have furthers := (invoked_of_runs orderlyBefore runs).furthers silentBefore
    rcases furthers.atWork _ _ held running with ⟨heldBefore, same⟩ | ⟨begun, entrusts⟩
    · obtain ⟨report, dispatched, issues⟩ := inductionHypothesis heldBefore
      exact ⟨report, dispatched.invoked episode runs, same.trans issues⟩
    · obtain ⟨invocation, mayAnswer⟩ := episode
      obtain ⟨run, resumeFrom, rfl, heldRun, awaits⟩ := entrusts
      obtain ⟨ofRun, member, ofStep, isJob, submitted, _, checked⟩ := awaits
      exact ⟨_, .intro rfl conducted runs .start begun held heldRun ofRun member ofStep isJob submitted,
        checked⟩

/-- What has ended stays as it is, with its findings. -/
theorem Conducted.ended (conducted : Conducted equipment world later last)
    (orderly : world.store.Orderly) (silent : world.store.Silent)
    (held : world.store.stepRuns.get? stepRun.id = some stepRun)
    (terminal : stepRun.status.isTerminal = true) :
    last.store.stepRuns.get? stepRun.id = some stepRun ∧
      last.store.issuesOf stepRun.id = world.store.issuesOf stepRun.id := by
  induction conducted with
  | start => exact ⟨held, rfl⟩
  | invoked conducted episode runs inductionHypothesis =>
    obtain ⟨heldBefore, findings⟩ := inductionHypothesis
    obtain ⟨orderlyBefore, silentBefore⟩ := conducted.orderly_silent orderly silent
    have furthers := (invoked_of_runs orderlyBefore runs).furthers silentBefore
    obtain ⟨heldAfter, same⟩ := furthers.ended _ _ heldBefore terminal
    exact ⟨heldAfter, same.trans findings⟩

end Collecting

/-! ### What the report of a job adds -/

/-- The severities of what is remarked about how a job has ended: there is a warning if it has reported
success and errors, and an error if it has broken down or has been given up. -/
def Envelope.remarked (envelope : Envelope) : List Severity :=
  match envelope.status with
  | .success => if ∃ message ∈ envelope.messages, message.severity = .error then [.warning] else []
  | .failedRuntime | .cancelled => [.error]
  | .failedValidation => []

/-- Issues say what the messages of a job say, one for each in their order, and others remark on how it
has ended. -/
structure Envelope.Recounts (envelope : Envelope) (told remarks : List Issue) : Prop where
  told : told.map (fun issue => (issue.severity, issue.message, issue.path)) =
    envelope.messages.map fun message => (message.severity, message.text, message.location)
  remarks : remarks.map Issue.severity = envelope.remarked

theorem Envelope.recounts (envelope : Envelope) :
    envelope.Recounts (envelope.messages.map messageIssue) (statusIssue? envelope).toList where
  told := List.map_map
  remarks := by
    have errors : envelope.hasErrors = true ↔
        ∃ message ∈ envelope.messages, message.severity = .error := by
      simp [hasErrors]
    unfold remarked statusIssue?
    cases envelope.status with
    | success =>
      simp only [errors]
      split <;> rfl
    | failedValidation | failedRuntime | cancelled => rfl

/-! ### The findings of a step whose job has been reported -/

section Reporting

variable {mayAnswer : (request : Request) → request.Answer → Prop} {equipment : Equipment}
  {store after : Store} {origin world reported last : World} {episodes later : List Episode}
  {requests : List Request} {run : Run} {step : Step} {stepRun ended : StepRun} {validator : Validator}
  {ruleset : Rule.Ruleset} {external : ExternalValidator} {envelope : Envelope} {key? : Option String}

/-- What the output assertions of a step come to, with the signals in a store. -/
def Execution.outputReport (checker : Rule.Checker) (validator : Validator) (ruleset : Rule.Ruleset)
    (envelope : Envelope) (signals : Scope.Signals) : Rule.Report :=
  checker.check ruleset.assertions ⟨.output, envelope.outputs, validator.catalog, signals⟩

/-- A callback that ends the step of a job adds what it reports to the findings. -/
theorem Execution.Answered.issues {outcome : CallbackOutcome}
    (answered : Answered equipment store run stepRun envelope key? outcome after)
    (held : store.stepRuns.get? stepRun.id = some stepRun) (running : stepRun.status = .running)
    (isStep : run.stepByKey? stepRun.stepKey = some step)
    (isJob : step.IsJob equipment.validators validator ruleset external)
    (heldEnded : after.stepRuns.get? stepRun.id = some ended)
    (terminal : ended.status.isTerminal = true) :
    after.issuesOf stepRun.id = store.issuesOf stepRun.id ++
      (envelope.messages.map messageIssue ++ (statusIssue? envelope).toList ++
        (outputReport equipment.checker validator ruleset envelope
          (store.signalsBefore run.id step.order)).issues) := by
  cases answered with
  | refused =>
    obtain rfl := Option.some.inj (held.symm.trans heldEnded)
    rw [running] at terminal
    cases terminal
  | taken _ applied =>
    have isOpen : stepRun.status.isTerminal = false := by
      rw [running]
      rfl
    obtain ⟨verdict, error, now, settles, _, issues, _⟩ := applied.records isOpen
    rw [callbackConclusion, isStep, Conclusion.ofCallback_some,
      Conclusion.ofReport_of_isJob isJob] at settles
    cases settles with
    | ended => exact issues

/-- Whatever has been conducted before and is conducted after, a step run that a callback has ended has
the issues of its input assertions, then one for each message of its job, then at most one remark about how
the job has ended, and then the issues of its output assertions. -/
theorem issues_of_reported (orderly : origin.store.Orderly)
    (unbegun : ∀ id, origin.store.stepRuns.get? id = none)
    (conducted : Conducted equipment origin episodes world)
    (held : world.store.stepRuns.get? stepRun.id = some stepRun) (running : stepRun.status = .running)
    (heldRun : world.store.runs.get? stepRun.runId = some run)
    (isStep : run.stepByKey? stepRun.stepKey = some step)
    (isJob : step.IsJob equipment.validators validator ruleset external)
    (reports : ((Invocation.callback stepRun.id envelope key?).program equipment).Runs mayAnswer world
      requests (some ()) reported)
    (heldEnded : reported.store.stepRuns.get? stepRun.id = some ended)
    (terminal : ended.status.isTerminal = true)
    (further : Conducted equipment reported later last) :
    ∃ input told remarks, Dispatched equipment origin episodes world stepRun input ∧
      envelope.Recounts told remarks ∧
      last.store.stepRuns.get? stepRun.id = some ended ∧
      last.store.issuesOf stepRun.id = input.issues ++ told ++ remarks ++
        (outputReport equipment.checker validator ruleset envelope
          (world.store.signalsBefore run.id step.order)).issues := by
  have silent : origin.store.Silent := by
    intro id stepRun held
    rw [unbegun] at held
    cases held
  obtain ⟨orderlyWorld, silentWorld⟩ := conducted.orderly_silent orderly silent
  obtain ⟨input, dispatched, checked⟩ := conducted.dispatched orderly unbegun held running
  obtain ⟨id, isId⟩ : ∃ id, id = stepRun.id := ⟨_, rfl⟩
  rw [← isId] at reports
  have invoked := @invoked_of_runs equipment world reported requests
    ⟨.callback id envelope key?, mayAnswer⟩ orderlyWorld reports
  have sameId : ended.id = stepRun.id := (invoked.orderly orderlyWorld).coherent.stepRunIds _ _ heldEnded
  rw [← sameId] at heldEnded
  obtain ⟨heldLast, issuesLast⟩ := further.ended (invoked.orderly orderlyWorld)
    (invoked.silent silentWorld) heldEnded terminal
  rw [sameId] at heldEnded heldLast issuesLast
  have added : reported.store.issuesOf stepRun.id = world.store.issuesOf stepRun.id ++
      (envelope.messages.map messageIssue ++ (statusIssue? envelope).toList ++
        (outputReport equipment.checker validator ruleset envelope
          (world.store.signalsBefore run.id step.order)).issues) := by
    generalize reported.store = after at invoked heldEnded ⊢
    cases invoked with
    | vain =>
      obtain rfl := Option.some.inj (held.symm.trans heldEnded)
      rw [running] at terminal
      cases terminal
    | callback serves heldAnswered ofRun answered =>
      rw [isId, held] at heldAnswered
      obtain rfl := Option.some.inj heldAnswered
      rw [← ofRun, serves.held] at heldRun
      obtain rfl := Option.some.inj heldRun
      exact answered.issues held running isStep isJob heldEnded terminal
  refine ⟨input, _, _, dispatched, envelope.recounts, heldLast, ?_⟩
  rw [issuesLast, added, checked, List.append_assoc, List.append_assoc, List.append_assoc]

end Reporting

/-! ### A job that reports success and errors -/

namespace Example

/-- A report of success, with an error. -/
def complaint : Envelope := envelope.withMessage .error "rows are missing"

/-- The callback that reports it. -/
def complaining : Job CallbackOutcome := completeCallback equipment stepId complaint none

def complained : World := (World.runJob (surroundings accepted) complaining (carriedOut accepted)).2

/-- The callback comes once more. -/
def complainedAgain : World := (World.runJob (surroundings accepted) complaining complained).2

theorem awaiting_carriedOut : ∃ stepRun held step validator ruleset external,
    (carriedOut accepted).store.stepRuns.get? stepId = some stepRun ∧
    stepRun.id = stepId ∧ stepRun.status = .running ∧ stepRun.runId = run.id ∧
    (carriedOut accepted).store.runs.get? run.id = some held ∧
    held.stepByKey? stepRun.stepKey = some step ∧
    step.IsJob equipment.validators validator ruleset external := by
  have standing : ((carriedOut accepted).store.stepRuns.get? stepId).map (fun stepRun =>
      (stepRun.id, stepRun.status, stepRun.runId, stepRun.stepKey)) =
        some (stepId, .running, run.id, check.key) := by decide +kernel
  have processed : ((carriedOut accepted).store.runs.get? run.id).bind (fun held =>
      (held.stepByKey? check.key).bind fun step => (Processor.ofStep equipment step).toOption) =
        some .external := by
    rw [carriedOut, entered, ← prepared_eq]
    decide +kernel
  obtain ⟨stepRun, heldStep, same⟩ := Option.map_eq_some_iff.mp standing
  simp only [Prod.mk.injEq] at same
  obtain ⟨ownId, running, ofRun, key⟩ := same
  obtain ⟨held, heldRun, found⟩ := Option.bind_eq_some_iff.mp processed
  obtain ⟨step, isStep, external⟩ := Option.bind_eq_some_iff.mp found
  obtain ⟨validator, ruleset, external, isJob⟩ := isJob_of_processor external
  exact ⟨stepRun, held, step, validator, ruleset, external, heldStep, ownId, running, ofRun, heldRun,
    key ▸ isStep, isJob⟩

theorem runs_complaining (world : World) : ∃ requests,
    ((Invocation.callback stepId complaint none).program equipment).Runs (surroundings accepted).answers
      world requests (some ()) (World.runJob (surroundings accepted) complaining world).2 := by
  obtain ⟨requests, runs⟩ := World.runs_runJob (surroundings accepted) complaining world
  exact ⟨requests, runs.forgetful⟩

theorem conducted_complainedAgain : Conducted equipment complained
    [⟨.callback stepId complaint none, (surroundings accepted).answers⟩] complainedAgain := by
  obtain ⟨_, again⟩ := runs_complaining complained
  exact Conducted.start.invoked ⟨.callback stepId complaint none, _⟩ again

theorem passed_complained : ∃ ended, complained.store.stepRuns.get? stepId = some ended ∧
    ended.status.isTerminal = true := by
  have standing : (complained.store.stepRuns.get? stepId).map StepRun.status = some .passed := by
    rw [complained, carriedOut, entered, ← prepared_eq]
    decide +kernel
  obtain ⟨ended, held, hasPassed⟩ := Option.map_eq_some_iff.mp standing
  exact ⟨ended, held, by rw [hasPassed]; rfl⟩

theorem severities_complainedAgain :
    (complainedAgain.store.issuesOf stepId).map Issue.severity = [.error, .warning] := by
  rw [complainedAgain, complained, carriedOut, entered, ← prepared_eq]
  decide +kernel

/-- The step has the error, and the warning that it has been reported with success, once each. -/
theorem issues_complained : ∃ stepRun input told remarks output,
    (carriedOut accepted).store.stepRuns.get? stepId = some stepRun ∧
    Dispatched equipment world [episode accepted] (carriedOut accepted) stepRun input ∧
    complaint.Recounts told remarks ∧
    complainedAgain.store.issuesOf stepId = input.issues ++ told ++ remarks ++ output ∧
    (complainedAgain.store.issuesOf stepId).map Issue.severity = [.error, .warning] := by
  obtain ⟨stepRun, held, step, validator, ruleset, external, heldStep, ownId, running, ofRun, heldRun,
    isStep, isJob⟩ := awaiting_carriedOut
  obtain ⟨ended, heldEnded, terminal⟩ := passed_complained
  obtain ⟨requests, reports⟩ : ∃ requests,
    ((Invocation.callback stepId complaint none).program equipment).Runs (surroundings accepted).answers
      (carriedOut accepted) requests (some ()) complained := runs_complaining (carriedOut accepted)
  rw [← ownId] at reports heldEnded heldStep
  rw [← ofRun] at heldRun
  obtain ⟨input, told, remarks, dispatched, recounts, _, issues⟩ :=
    issues_of_reported orderly_store unbegun_world (conducted_carriedOut accepted) heldStep running
      heldRun isStep isJob reports heldEnded terminal conducted_complainedAgain
  rw [ownId] at issues heldStep
  exact ⟨stepRun, input, told, remarks, _, heldStep, dispatched, recounts, issues,
    severities_complainedAgain⟩

end Example

end Vetting
