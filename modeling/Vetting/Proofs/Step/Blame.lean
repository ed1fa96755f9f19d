import Vetting.Proofs.Step.Verdict

/-!
Contract: the verdict on a step against its findings.

Owns:
- `Issue.Condemns`: an issue that keeps its step from passing;
- a pass over assertions is counted as blameless exactly if its issues are;
- `Said`: what has been said about a step by a validator, an action or the report of a job, and
  whether that is in its favour;
- what carrying out a step comes to, and what a callback makes of it, is due to what has been said
  and to the findings.

Does not own: the findings that a store has (`Vetting.Proofs.Run.Grounds`).

The counters of the input assertions are left in the output of a step that waits for its job, and
its findings are stored apart from them.  Both have to agree until the job reports.
-/

namespace Vetting

open Json (Value)

namespace Issue

/-- The stage of the assertion that an issue stands for, by name. -/
def stage? (issue : Issue) : Option String := issue.details.field? "stage" Value.asText?

/-- An issue keeps its step from passing. -/
inductive Condemns (issue : Issue) : Prop
  | unavailable (code : issue.code = "evaluator_unavailable")
  | error (linked : issue.assertionId.isSome = true) (grave : issue.severity = .error)
  | output (linked : issue.assertionId.isSome = true)
      (stage : issue.stage? = some Rule.Stage.output.name) (failed : issue.severity ≠ .success)

/-- Issues that stand for no assertion condemn a step only by saying that none could be checked. -/
theorem not_condemns_of_unlinked {issue : Issue} (unlinked : issue.assertionId = none)
    (available : issue.code ≠ "evaluator_unavailable") : ¬ issue.Condemns := by
  rintro (code | ⟨linked, _⟩ | ⟨linked, _, _⟩)
  · exact available code
  · rw [unlinked] at linked
    cases linked
  · rw [unlinked] at linked
    cases linked

end Issue

/-- None of the issues keeps its step from passing. -/
def Blameless (issues : List Issue) : Prop := ∀ issue ∈ issues, ¬ issue.Condemns

theorem blameless_append {issues more : List Issue} :
    Blameless (issues ++ more) ↔ Blameless issues ∧ Blameless more :=
  List.forall_mem_append

/-! ### A pass over assertions -/

namespace Rule

/-- Issues of a pass over the assertions of a stage: they stand for assertions of the stage, but for one
that says that the pass has ended early. -/
structure Report.Of (stage : Stage) (report : Report) : Prop where
  linked : ∀ issue ∈ report.issues, issue.code ≠ "evaluator_unavailable" →
    issue.stage? = some stage.name
  halted : report.halted = true ↔ ∃ issue ∈ report.issues, issue.code = "evaluator_unavailable"

theorem Report.of_empty (stage : Stage) : Report.empty.Of stage where
  linked := fun _ member => nomatch member
  halted := by
    constructor
    · rintro ⟨⟩
    · rintro ⟨_, member, _⟩
      cases member

theorem Report.of_unavailable (stage : Stage) (detail : String) :
    (Report.unavailable stage detail).Of stage where
  linked := by
    intro issue member available
    obtain rfl := List.mem_singleton.mp member
    exact absurd rfl available
  halted := ⟨fun _ => ⟨_, .head _, rfl⟩, fun _ => rfl⟩

theorem Report.Of.cons {stage : Stage} {report : Report} {issue : Issue} (of : report.Of stage)
    (ofStage : issue.stage? = some stage.name) (available : issue.code ≠ "evaluator_unavailable") :
    Report.Of stage { report with issues := issue :: report.issues } where
  linked := by
    intro other member
    rcases List.mem_cons.mp member with rfl | later
    · exact fun _ => ofStage
    · exact of.linked other later
  halted := by
    rw [of.halted]
    constructor
    · rintro ⟨other, member, code⟩
      exact ⟨other, .tail _ member, code⟩
    · rintro ⟨other, member, code⟩
      rcases List.mem_cons.mp member with rfl | later
      · exact absurd code available
      · exact ⟨other, later, code⟩

/-- An outcome has a code of its own. -/
def Outcome.Proper (outcome : Outcome) : Prop :=
  ∀ code detail, outcome = .error code detail → code ≠ "evaluator_unavailable"

theorem Assertion.proper_operatorOutcome (assertion : Assertion) (rule : OperatorRule)
    (names : Scope.Names) (payload : Value) :
    (assertion.operatorOutcome rule names payload).Proper := by
  rintro code detail isError
  unfold operatorOutcome at isError
  split at isError <;> cases isError
  decide

theorem Assertion.proper_outcomeOf (assertion : Assertion)
    (verdict : Except Formula.VerdictFault Bool) : (assertion.outcomeOf verdict).Proper := by
  rintro code detail isError
  unfold outcomeOf at isError
  split at isError <;> cases isError <;> decide

theorem proper_mainOutcome (ask : String → Scope.Names → Id (Except Formula.VerdictFault Bool))
    (limits : Limits) (names : Scope.Names) (payload : Value) (assertion : Assertion) :
    (mainOutcome ask limits names payload assertion).run.Proper := by
  unfold mainOutcome
  split
  · exact assertion.proper_operatorOutcome _ names payload
  · split
    · rintro code detail ⟨⟩
      decide
    · exact assertion.proper_outcomeOf _

/-- The issue of an assertion stands for it. -/
theorem Assertion.issueOf_linked {assertion : Assertion} {names : Scope.Names} {stage : Stage}
    {outcome : Outcome} {issue : Issue} (proper : outcome.Proper)
    (isIssue : assertion.issueOf names stage outcome = .ok issue) :
    issue.stage? = some stage.name ∧ issue.code ≠ "evaluator_unavailable" := by
  cases outcome with
  | held =>
    cases isIssue
    exact ⟨rfl, by simp⟩
  | failed =>
    cases isIssue
    exact ⟨rfl, by simp⟩
  | error code detail =>
    cases isIssue
    exact ⟨rfl, proper code detail rfl⟩
  | unavailable detail => cases isIssue

theorem of_checkEach (ask : String → Scope.Names → Id (Except Formula.VerdictFault Bool))
    (limits : Limits) (names : Scope.Names) (payload : Value) (stage : Stage)
    (assertions : List Assertion) :
    (checkEach ask limits names payload stage assertions).run.Of stage := by
  induction assertions with
  | nil => exact Report.of_empty stage
  | cons assertion rest inductionHypothesis =>
    simp only [checkEach, Id.run_bind]
    split
    · exact Report.of_unavailable stage _
    · exact inductionHypothesis
    · have proper := proper_mainOutcome ask limits names payload assertion
      simp only [Id.run_bind]
      split
      · exact Report.of_unavailable stage _
      · rename_i issue isIssue
        obtain ⟨ofStage, available⟩ := Assertion.issueOf_linked proper isIssue
        exact inductionHypothesis.cons ofStage available

theorem Checker.of_check (checker : Checker) (assertions : List Assertion)
    (input : Scope.StageInput) : (checker.check assertions input).Of input.stage :=
  of_checkEach _ _ _ _ _ _

section Counting

variable {report : Report}

theorem Report.errorFailures_eq_zero :
    report.stats.errorFailures = 0 ↔
      ∀ issue ∈ report.issues, issue.assertionId.isSome = true → issue.severity ≠ .error := by
  have counts : report.stats.errorFailures = report.issues.countP fun issue =>
    issue.isFailedAssertion && issue.severity == .error := rfl
  rw [counts, List.countP_eq_zero]
  refine forall₂_congr fun issue _ => ?_
  by_cases error : issue.severity = .error <;> simp [Issue.isFailedAssertion, error]

theorem Report.failures_eq_zero :
    report.stats.failures = 0 ↔
      ∀ issue ∈ report.issues, issue.assertionId.isSome = true → issue.severity = .success := by
  have counts : report.stats.failures = report.issues.countP Issue.isFailedAssertion := rfl
  rw [counts, List.countP_eq_zero]
  refine forall₂_congr fun issue _ => ?_
  simp [Issue.isFailedAssertion]

theorem Report.Of.available {stage : Stage} (of : report.Of stage) (complete : report.halted = false)
    {issue : Issue} (member : issue ∈ report.issues) : issue.code ≠ "evaluator_unavailable" := by
  intro code
  rw [of.halted.mpr ⟨issue, member, code⟩] at complete
  cases complete

theorem Report.Of.complete {stage : Stage} (of : report.Of stage)
    (blameless : Blameless report.issues) : report.halted = false := by
  rw [← Bool.not_eq_true]
  intro halted
  obtain ⟨issue, member, code⟩ := of.halted.mp halted
  exact blameless issue member (.unavailable code)

/-- A pass over the input assertions is blameless if none of them has failed gravely. -/
theorem Report.Of.blameless_input (of : report.Of .input) :
    Blameless report.issues ↔ report.stats.errorFailures = 0 ∧ report.halted = false := by
  rw [errorFailures_eq_zero]
  constructor
  · intro blameless
    exact ⟨fun issue member linked grave => blameless issue member (.error linked grave),
      of.complete blameless⟩
  · rintro ⟨mild, complete⟩ issue member (code | ⟨linked, grave⟩ | ⟨_, stage, _⟩)
    · exact of.available complete member code
    · exact mild issue member linked grave
    · rw [of.linked issue member (of.available complete member)] at stage
      exact absurd stage (by decide)

/-- A pass over the output assertions is blameless if none of them has failed. -/
theorem Report.Of.blameless_output (of : report.Of .output) :
    Blameless report.issues ↔ report.stats.failures = 0 ∧ report.halted = false := by
  rw [failures_eq_zero]
  constructor
  · intro blameless
    have complete := of.complete blameless
    refine ⟨fun issue member linked => Decidable.byContradiction fun failed => ?_, complete⟩
    exact blameless issue member
      (.output linked (of.linked issue member (of.available complete member)) failed)
  · rintro ⟨allHold, complete⟩ issue member (code | ⟨linked, grave⟩ | ⟨linked, _, failed⟩)
    · exact of.available complete member code
    · rw [allHold issue member linked] at grave
      cases grave
    · exact failed (allHold issue member linked)

end Counting

end Rule

/-- The counters of the input assertions in an output tell whether issues are blameless. -/
def StepOutput.Agrees (output : StepOutput) (issues : List Issue) : Prop :=
  Blameless issues ↔ output.inputAssertions.errorFailures = 0 ∧ output.inputHalted = false

namespace Execution

open Rule (Checker Ruleset)
open Scope (Signals)

/-! ### What is said about a step -/

/-- What has been said about a step, by its validator, its action or its job. -/
inductive Said where
  | found (outcome : ValidationOutcome)
  | acted (outcome : ActionOutcome)
  | reported (envelope : Envelope)

/-- What has been said is in favour of the step. -/
def Said.Favors : Said → Prop
  | .found outcome => outcome.passed = true
  | .acted outcome => outcome.passed = true
  | .reported envelope => envelope.status = .success

/-- What has been said is seen in a verdict. -/
def Said.Marks : Said → Verdict → Prop
  | .found outcome, verdict =>
    outcome.issues <+: verdict.issues ∧ verdict.output.signals = outcome.signals
  | .acted outcome, verdict => verdict.output.signals = outcome.signals
  | .reported envelope, verdict => verdict.output.envelopeStatus? = some envelope.status

/-- A verdict follows from what has been said and from the issues of all findings. -/
structure Verdict.DueTo (said : Said) (verdict : Verdict) : Prop where
  marks : said.Marks verdict
  passed : verdict.status = .passed ↔ said.Favors ∧ Blameless verdict.issues
  decided : verdict.status = .passed ∨ verdict.status = .failed

theorem verdictStatus_eq_passed {passed : Bool} :
    verdictStatus passed = .passed ↔ passed = true := by
  cases passed <;> decide

/-- The issues of a validator stand for no assertions, and do not say that none could be checked. -/
def Impartial (issues : List Issue) : Prop :=
  ∀ issue ∈ issues, issue.assertionId = none ∧ issue.code ≠ "evaluator_unavailable"

theorem Impartial.blameless {issues : List Issue} (impartial : Impartial issues) :
    Blameless issues := by
  intro issue member
  obtain ⟨unlinked, available⟩ := impartial issue member
  exact Issue.not_condemns_of_unlinked unlinked available

theorem impartial_messages (envelope : Envelope) :
    Impartial (envelope.messages.map messageIssue ++ (statusIssue? envelope).toList) := by
  intro issue member
  rcases List.mem_append.mp member with isMessage | isStatus
  · obtain ⟨message, _, rfl⟩ := List.mem_map.mp isMessage
    exact ⟨rfl, by simp [messageIssue, Issue.plain]⟩
  · unfold statusIssue? at isStatus
    split at isStatus
    · split at isStatus
      · obtain rfl := List.mem_singleton.mp isStatus
        exact ⟨rfl, by decide⟩
      · cases isStatus
    · obtain rfl := List.mem_singleton.mp isStatus
      exact ⟨rfl, by decide⟩
    · obtain rfl := List.mem_singleton.mp isStatus
      exact ⟨rfl, by decide⟩
    · cases isStatus

theorem impartial_actionIssue (type : String) (outcome : ActionOutcome) :
    Impartial (actionIssue? type outcome).toList := by
  intro issue member
  unfold actionIssue? at member
  split at member
  · obtain rfl := List.mem_singleton.mp member
    exact ⟨rfl, by simp [Issue.info, Issue.plain]⟩
  · obtain rfl := List.mem_singleton.mp member
    exact ⟨rfl, by simp [Issue.error, Issue.plain]⟩
  · obtain rfl := List.mem_singleton.mp member
    exact ⟨rfl, by simp [Issue.error, Issue.plain]⟩
  · cases member

/-! ### Verdicts -/

theorem Verdict.dueTo_ofInline {outcome : ValidationOutcome} (impartial : Impartial outcome.issues)
    (checker : Checker) (validator : Validator) (ruleset : Ruleset) (submission : Submission)
    (signals : Signals) :
    (ofInline checker validator ruleset submission signals outcome).DueTo (.found outcome) where
  marks := ⟨List.prefix_append _ _, rfl⟩
  passed := by
    have ofReport := checker.of_check ruleset.assertions
      ⟨.input, submission.payload, validator.catalog, signals⟩
    simp only [ofInline, verdictStatus_eq_passed, blameless_append, ofReport.blameless_input,
      impartial.blameless, true_and, Said.Favors, Bool.and_eq_true, beq_iff_eq, Bool.not_eq_true',
      and_assoc]
  decided := verdictStatus_decided _

theorem Verdict.dueTo_ofAction (type : String) (outcome : ActionOutcome) :
    (ofAction type outcome).DueTo (.acted outcome) where
  marks := rfl
  passed := by
    simp only [ofAction, verdictStatus_eq_passed, Said.Favors,
      (impartial_actionIssue type outcome).blameless, and_true]
  decided := verdictStatus_decided _

/-- A job has reported on a step whose counters agree with its findings. -/
theorem Verdict.dueTo_ofEnvelope {base : StepOutput} {earlier : List Issue}
    (agrees : base.Agrees earlier) (checker : Checker) (validator : Validator) (ruleset : Ruleset)
    (external : ExternalValidator) (envelope : Envelope) (signals : Signals) :
    (ofEnvelope checker validator ruleset external base earlier envelope signals).DueTo
      (.reported envelope) where
  marks := rfl
  passed := by
    have ofReport := checker.of_check ruleset.assertions
      ⟨.output, envelope.outputs, validator.catalog, signals⟩
    rw [StepOutput.Agrees] at agrees
    simp only [ofEnvelope, verdictStatus_eq_passed, passesWith, blameless_append, agrees,
      ofReport.blameless_output, (impartial_messages envelope).blameless, true_and, Said.Favors,
      Bool.and_eq_true, beq_iff_eq, Bool.not_eq_true']
    constructor
    · rintro ⟨⟨⟨⟨success, allHold⟩, mild⟩, inputComplete⟩, complete⟩
      exact ⟨success, ⟨mild, inputComplete⟩, allHold, complete⟩
    · rintro ⟨success, ⟨mild, inputComplete⟩, allHold, complete⟩
      exact ⟨⟨⟨⟨success, allHold⟩, mild⟩, inputComplete⟩, complete⟩
  decided := verdictStatus_decided _

/-! ### Conclusions -/

/-- What has been said about a step from outside while it is carried out. -/
inductive Hears (mayAnswer : (request : Request) → request.Answer → Prop) (equipment : Equipment)
    (context : StepContext) : Said → Prop
  | found {validator : Validator} {ruleset : Ruleset} {outcome : ValidationOutcome}
      (kind : context.step.kind = .validator validator ruleset)
      (resolved : equipment.validators.resolve validator = .ok .inline)
      (answered : mayAnswer (.validate validator context.submission) (.ok outcome)) :
    Hears mayAnswer equipment context (.found outcome)
  | acted {type : String} {params : Value} {outcome : ActionOutcome}
      (kind : context.step.kind = .action type params)
      (answered : mayAnswer (.act type
        ⟨context.run.id, context.step.key, params, context.submission, context.signals⟩)
        (.ok outcome)) :
    Hears mayAnswer equipment context (.acted outcome)
  | reported {validator : Validator} {ruleset : Ruleset} {external : ExternalValidator}
      {response : JobResponse} {envelope : Envelope}
      (isJob : context.step.IsJob equipment.validators validator ruleset external)
      (answered : mayAnswer (.launch (jobRequest context validator external
        (Digest.attemptKey context.stepRun.id context.stepRun.attempt))) (.ok response))
      (complete : response.isComplete = true) (brought : response.envelope? = some envelope) :
    Hears mayAnswer equipment context (.reported envelope)

/-- Inline validators find only issues that stand for no assertions and do not say that none could be
checked. -/
def Plainspoken (mayAnswer : (request : Request) → request.Answer → Prop) : Prop :=
  ∀ validator submission outcome,
    mayAnswer (.validate validator submission) (.ok outcome) → Impartial outcome.issues

/-- A step that ends without an error ends as is due to what has been said.  One that waits for its job
has counters that agree with its findings. -/
def Conclusion.Due (hears : Said → Prop) : Conclusion → Prop
  | .ended verdict => verdict.error = none → ∃ said, hears said ∧ verdict.DueTo said
  | .pending output issues => output.Agrees issues
  | .faulted _ => True

theorem Conclusion.due_ofFault (hears : Said → Prop) (earlier : List Issue) (output : StepOutput)
    (fault : EngineFault) : (ofFault earlier output fault).Due hears := by
  cases fault with
  | configuration detail => rintro ⟨⟩
  | execution detail => rintro ⟨⟩
  | _ => trivial

section Carrying

variable {mayAnswer : (request : Request) → request.Answer → Prop} {equipment : Equipment}
  {context : StepContext} {validator : Validator} {ruleset : Ruleset}
  {external : ExternalValidator}

theorem agrees_handedOver (equipment : Equipment) (validator : Validator) (ruleset : Ruleset)
    (submission : Submission) (signals : Signals) (stepRun : StepRun) :
    (handedOver equipment validator
      (inputReport equipment.checker validator ruleset submission signals) stepRun).Agrees
      (inputReport equipment.checker validator ruleset submission signals).issues :=
  (equipment.checker.of_check ruleset.assertions
    ⟨.input, submission.payload, validator.catalog, signals⟩).blameless_input

/-- The answer of the backend brings the report of the job, or leaves the step waiting. -/
theorem Conclusion.due_ofLaunch
    (isJob : context.step.IsJob equipment.validators validator ruleset external)
    {interim : StepOutput} {earlier : List Issue} (agrees : interim.Agrees earlier)
    {answer : Except BackendFault JobResponse}
    (answered : mayAnswer (.launch (jobRequest context validator external
      (Digest.attemptKey context.stepRun.id context.stepRun.attempt))) answer) :
    (ofLaunch equipment validator ruleset external interim earlier context.signals answer).Due
      (Hears mayAnswer equipment context) := by
  cases answer with
  | error fault => exact due_ofFault _ earlier interim fault.toEngineFault
  | ok response =>
    have agreesStill : (withResponse interim response).Agrees earlier := agrees
    unfold ofLaunch
    dsimp only
    split
    · rename_i complete
      split
      · rename_i envelope brought
        exact fun _ => ⟨_, .reported isJob answered complete brought,
          Verdict.dueTo_ofEnvelope agreesStill _ _ _ _ _ _⟩
      · rintro ⟨⟩
    · exact agreesStill

/-- Whatever carrying out a step comes to, it is due to what has been said. -/
theorem Concludes.due {conclusion : Conclusion} (plainspoken : Plainspoken mayAnswer)
    (concludes : Concludes mayAnswer equipment context [] conclusion) :
    conclusion.Due (Hears mayAnswer equipment context) := by
  unfold Concludes at concludes
  split at concludes
  · rename_i type params kind
    split at concludes
    · rw [concludes]
      exact Conclusion.due_ofFault _ _ _ _
    · obtain ⟨answer, answered, rfl⟩ := concludes
      cases answer with
      | error fault => exact Conclusion.due_ofFault _ _ _ fault
      | ok outcome =>
        exact fun _ => ⟨_, .acted kind answered, Verdict.dueTo_ofAction type outcome⟩
  · rename_i validator ruleset kind
    split at concludes
    · rw [concludes]
      exact Conclusion.due_ofFault _ _ _ _
    · rename_i resolved
      obtain ⟨answer, answered, rfl⟩ := concludes
      cases answer with
      | error fault => exact Conclusion.due_ofFault _ _ _ fault
      | ok outcome =>
        exact fun _ => ⟨_, .found kind resolved answered,
          Verdict.dueTo_ofInline (plainspoken _ _ _ answered) _ _ _ _ _⟩
    · rename_i external resolved
      rcases concludes with ⟨_, rfl⟩ | ⟨_, answer, answered, rfl⟩
      · exact Conclusion.due_ofFault _ _ _ _
      · exact Conclusion.due_ofLaunch ⟨kind, resolved⟩ (agrees_handedOver _ _ _ _ _ _) answered

end Carrying

end Execution

end Vetting
