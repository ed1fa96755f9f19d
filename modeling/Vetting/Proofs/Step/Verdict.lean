import Vetting.Execution.Processing

/-!
Contract: how a step ends, as a function of what it is given and what is answered.

Owns:
- `Step.IsJob`: the work of a step is a job;
- verdicts: what is stored about a step when it ends, apart from times;
- the verdict of an inline validator, of an action and of a job;
- conclusions: a step ends, waits for its job, or is broken off by a fault;
- the conclusions that a callback and the report that it brings lead to.

Does not own: the requests that a step makes on its way
(`Vetting.Proofs.Step.Processing`).

Nothing here asks for anything.  `Concludes` relates a step to each conclusion that some
admitted answer of a plug-in or of the backend leads to.
-/

namespace Vetting

open Execution
open Rule (Ruleset)

/-! ### Steps whose work is a job -/

/-- The work of a step is a job. -/
def Step.IsJob (step : Step) (validators : ValidatorRegistry) (validator : Validator)
    (ruleset : Ruleset) (external : ExternalValidator) : Prop :=
  step.kind = .validator validator ruleset ∧
    validators.resolve validator = .ok (.external external)

theorem Step.IsJob.resolved {step : Step} {validators : ValidatorRegistry}
    {validator used : Validator} {ruleset rules : Ruleset} {external : ExternalValidator}
    (kind : step.kind = .validator validator ruleset)
    (isJob : step.IsJob validators used rules external) :
    validators.resolve validator = .ok (.external external) := by
  obtain ⟨sameKind, found⟩ := isJob
  rw [kind] at sameKind
  cases sameKind
  exact found

theorem not_isJob_of_action {step : Step} {validators : ValidatorRegistry} {validator : Validator}
    {ruleset : Ruleset} {external : ExternalValidator} {type : String} {params : Json.Value}
    (kind : step.kind = .action type params) :
    ¬ step.IsJob validators validator ruleset external := by
  rintro ⟨isValidator, _⟩
  rw [kind] at isValidator
  cases isValidator

/-- A step that is processed by a job has a job for its work. -/
theorem isJob_of_processor {equipment : Equipment} {step : Step}
    (external : (Processor.ofStep equipment step).toOption = some .external) :
    ∃ validator ruleset external, step.IsJob equipment.validators validator ruleset external := by
  unfold Processor.ofStep at external
  cases kind : step.kind with
  | action =>
    rw [kind] at external
    cases external
  | validator validator ruleset =>
    rw [kind] at external
    cases resolved : equipment.validators.resolve validator with
    | error fault =>
      simp only [resolved] at external
      cases external
    | ok how =>
      cases how with
      | inline =>
        simp only [resolved] at external
        cases external
      | external external => exact ⟨validator, ruleset, external, kind, resolved⟩

end Vetting

namespace Vetting.Execution

open Json (Value)
open Scope (Signals)
open Rule (Checker Ruleset)

def countIssues (issues : List Issue) : SeverityCounts := .of (issues.map Issue.severity)

/-- What is stored about a step when it ends, apart from times. -/
structure Verdict where
  status : StepStatus
  output : StepOutput
  error : Option String
  /-- The issues of all findings of the step. -/
  issues : List Issue

/-- What the processing of a step comes to. -/
inductive Conclusion where
  | ended (verdict : Verdict)
  /-- The job is accepted; so far the step has left an output and issues. -/
  | pending (output : StepOutput) (issues : List Issue)
  /-- A fault that the step does not contain. -/
  | faulted (fault : EngineFault)

namespace Verdict

def failing (earlier : List Issue) (issue : Issue) (output : StepOutput) : Verdict where
  status := .failed
  output := { output with
    severityCounts := countIssues (earlier ++ [issue]), message? := some issue.message }
  error := some issue.message
  issues := earlier ++ [issue]

def unexpected (earlier : List Issue) (fault : EngineFault) (output : StepOutput) : Verdict :=
  failing earlier (.error "unexpected_error" fault.message) output

def ofInline (checker : Checker) (validator : Validator) (ruleset : Ruleset)
    (submission : Submission) (signals : Signals) (outcome : ValidationOutcome) : Verdict :=
  let report := checker.check ruleset.assertions
    ⟨.input, submission.payload, validator.catalog, signals⟩
  let issues := outcome.issues ++ report.issues
  { status := verdictStatus
      (outcome.passed && report.stats.errorFailures == 0 && !report.halted)
    output := { StepOutput.empty with
      inputAssertions := report.stats
      severityCounts := countIssues issues
      signals := outcome.signals
      inputHalted := report.halted
      configHash? := some (Digest.ofValue validator.config) }
    error := none
    issues }

def ofAction (type : String) (outcome : ActionOutcome) : Verdict :=
  let issues := (actionIssue? type outcome).toList
  { status := verdictStatus outcome.passed
    output := { StepOutput.empty with
      severityCounts := countIssues issues
      signals := outcome.signals
      message? := outcome.message }
    error := none
    issues }

/-- A job has reported, after a step has left an output and issues. -/
def ofEnvelope (checker : Checker) (validator : Validator) (ruleset : Ruleset)
    (external : ExternalValidator) (base : StepOutput) (earlier : List Issue) (envelope : Envelope)
    (signals : Signals) : Verdict :=
  let report := checker.check ruleset.assertions
    ⟨.output, envelope.outputs, validator.catalog, signals⟩
  let issues := earlier ++
    (envelope.messages.map messageIssue ++ (statusIssue? envelope).toList ++ report.issues)
  { status := verdictStatus (passesWith base envelope report)
    output := { base with
      outputAssertions := report.stats
      severityCounts := countIssues issues
      signals := external.outputSignals envelope
      envelopeStatus? := some envelope.status }
    error := none
    issues }

end Verdict

/-- A fault of configuration or of execution makes the step fail; others break it off. -/
def Conclusion.ofFault (earlier : List Issue) (output : StepOutput) : EngineFault → Conclusion
  | .configuration detail => .ended (.failing earlier (.error "configuration_error" detail) output)
  | .execution detail => .ended (.failing earlier (.error "execution_error" detail) output)
  | fault => .faulted fault

/-! ### A step whose work is a job -/

def inputReport (checker : Checker) (validator : Validator) (ruleset : Ruleset)
    (submission : Submission) (signals : Signals) : Rule.Report :=
  checker.check ruleset.assertions ⟨.input, submission.payload, validator.catalog, signals⟩

/-- What a step leaves behind before its job is handed over, given the report of its input
assertions. -/
def handedOver (equipment : Equipment) (validator : Validator) (report : Rule.Report)
    (stepRun : StepRun) : StepOutput :=
  interimOutput equipment validator report (countIssues report.issues)
    (Digest.attemptKey stepRun.id stepRun.attempt)

def missingEnvelope (equipment : Equipment) (response : JobResponse) : Issue :=
  { Issue.error "execution_error"
      (response.errorMessage.getD "backend completed without an output envelope") with
    details := .object [("backend", .text equipment.backendName)] }

/-- What the answer of the backend makes of a step that has left an output and issues. -/
def Conclusion.ofLaunch (equipment : Equipment) (validator : Validator) (ruleset : Ruleset)
    (external : ExternalValidator) (interim : StepOutput) (earlier : List Issue)
    (signals : Signals) : Except BackendFault JobResponse → Conclusion
  | .error fault => .ofFault earlier interim fault.toEngineFault
  | .ok response =>
    let output := withResponse interim response
    if response.isComplete then
      match response.envelope? with
      | some envelope => .ended
          (.ofEnvelope equipment.checker validator ruleset external output earlier envelope signals)
      | none => .ended (.failing earlier (missingEnvelope equipment response) output)
    else .pending output earlier

def backendMissing (equipment : Equipment) : EngineFault :=
  .configuration ("execution backend '" ++ equipment.backendName ++ "' is not available")

/-! ### Any step -/

/-- A conclusion that processing a step may come to, given the answers that may come from outside
and the issues of findings that the step has already. -/
def Concludes (mayAnswer : (request : Request) → request.Answer → Prop) (equipment : Equipment)
    (context : StepContext) (earlier : List Issue) (conclusion : Conclusion) : Prop :=
  match context.step.kind with
  | .action type params =>
    match equipment.actions.resolve type with
    | .error fault => conclusion = .ofFault earlier context.stepRun.output fault
    | .ok () => ∃ answer, mayAnswer (.act type
        ⟨context.run.id, context.step.key, params, context.submission, context.signals⟩) answer ∧
      conclusion = match answer with
        | .error fault => .ofFault earlier context.stepRun.output fault
        | .ok outcome => .ended (.ofAction type outcome)
  | .validator validator ruleset =>
    match equipment.validators.resolve validator with
    | .error fault => conclusion = .ofFault earlier context.stepRun.output fault
    | .ok .inline => ∃ answer, mayAnswer (.validate validator context.submission) answer ∧
      conclusion = match answer with
        | .error fault => .ofFault earlier context.stepRun.output fault
        | .ok outcome => .ended (.ofInline equipment.checker validator ruleset context.submission
            context.signals outcome)
    | .ok (.external external) =>
      (mayAnswer .backendAvailable false ∧
        conclusion = .ofFault earlier context.stepRun.output (backendMissing equipment)) ∨
      (mayAnswer .backendAvailable true ∧ ∃ answer,
        let report := inputReport equipment.checker validator ruleset context.submission
          context.signals
        mayAnswer (.launch (jobRequest context validator external
          (Digest.attemptKey context.stepRun.id context.stepRun.attempt))) answer ∧
        conclusion = .ofLaunch equipment validator ruleset external
          (handedOver equipment validator report context.stepRun) report.issues context.signals
          answer)

/-- What a callback makes of a step that waits for its job, given the signals of all steps below
an order. -/
def Conclusion.ofCallback (equipment : Equipment) (run : Run) (step? : Option Step)
    (stepRun : StepRun) (earlier : List Issue) (envelope : Envelope) (signals : Int → Signals) :
    Conclusion :=
  match step? with
  | none => .faulted
      (.internal ("step '" ++ stepRun.stepKey ++ "' not found in run " ++ run.id.text))
  | some step =>
    match validatorOf step with
    | .error fault => .ofFault earlier stepRun.output fault
    | .ok (validator, ruleset) =>
      match resolveExternal equipment validator with
      | .error fault => .ofFault earlier stepRun.output fault
      | .ok external => .ended (.ofEnvelope equipment.checker validator ruleset external
          stepRun.output earlier envelope (signals step.order))

/-- What the report of its job makes of a step that has left an output and issues. -/
def Conclusion.ofReport (equipment : Equipment) (step : Step) (output : StepOutput)
    (issues : List Issue) (envelope : Envelope) (signals : Signals) : Conclusion :=
  match validatorOf step with
  | .error fault => .ofFault issues output fault
  | .ok (validator, ruleset) =>
    match resolveExternal equipment validator with
    | .error fault => .ofFault issues output fault
    | .ok external => .ended
        (.ofEnvelope equipment.checker validator ruleset external output issues envelope signals)

/-- A callback that finds its step brings the report of its job. -/
theorem Conclusion.ofCallback_some (equipment : Equipment) (run : Run) (step : Step)
    (stepRun : StepRun) (issues : List Issue) (envelope : Envelope) (signals : Int → Signals) :
    ofCallback equipment run (some step) stepRun issues envelope signals =
      .ofReport equipment step stepRun.output issues envelope (signals step.order) :=
  rfl

theorem Conclusion.ofReport_of_isJob {equipment : Equipment} {step : Step} {validator : Validator}
    {ruleset : Ruleset} {external : ExternalValidator}
    (isJob : step.IsJob equipment.validators validator ruleset external) (output : StepOutput)
    (issues : List Issue) (envelope : Envelope) (signals : Signals) :
    ofReport equipment step output issues envelope signals = .ended
      (.ofEnvelope equipment.checker validator ruleset external output issues envelope signals) := by
  have validator? : validatorOf step = .ok (validator, ruleset) := by
    unfold validatorOf
    rw [isJob.1]
  have external? : resolveExternal equipment validator = .ok external := by
    unfold resolveExternal
    rw [isJob.2]
    rfl
  unfold ofReport
  simp only [validator?, external?]

/-! ### A step that ends has passed or failed -/

theorem verdictStatus_decided (passed : Bool) :
    verdictStatus passed = .passed ∨ verdictStatus passed = .failed := by
  cases passed
  · exact Or.inr rfl
  · exact Or.inl rfl

theorem terminal_of_decided {status : StepStatus} (decided : status = .passed ∨ status = .failed) :
    status.isTerminal = true := by
  rcases decided with rfl | rfl
  · rfl
  · rfl

theorem running_of_not_terminal {status : StepStatus} (isOpen : status.isTerminal = false) :
    status = .running := by
  revert isOpen
  cases status <;> simp [StepStatus.isTerminal]

/-- A conclusion ends a step with the status passed or failed, if it ends the step. -/
def Conclusion.Decided (conclusion : Conclusion) : Prop :=
  ∀ verdict, conclusion = .ended verdict → verdict.status = .passed ∨ verdict.status = .failed

theorem Conclusion.decided_ofFault (earlier : List Issue) (output : StepOutput)
    (fault : EngineFault) : (ofFault earlier output fault).Decided := by
  rintro verdict equal
  cases fault <;> cases equal <;> exact Or.inr rfl

theorem Conclusion.decided_ofReport (equipment : Equipment) (step : Step) (output : StepOutput)
    (issues : List Issue) (envelope : Envelope) (signals : Signals) :
    (ofReport equipment step output issues envelope signals).Decided := by
  intro verdict equal
  unfold ofReport at equal
  split at equal
  · exact decided_ofFault _ _ _ _ equal
  · split at equal
    · exact decided_ofFault _ _ _ _ equal
    · cases equal
      exact verdictStatus_decided _

theorem Conclusion.decided_ofCallback (equipment : Equipment) (run : Run) (step? : Option Step)
    (stepRun : StepRun) (earlier : List Issue) (envelope : Envelope) (signals : Int → Signals) :
    (ofCallback equipment run step? stepRun earlier envelope signals).Decided := by
  cases step? with
  | none => exact fun _ equal => nomatch equal
  | some step => exact decided_ofReport _ _ _ _ _ _

/-! ### A step that waits for its job -/

theorem Conclusion.ofFault_ne_pending (earlier : List Issue) (output : StepOutput)
    (fault : EngineFault) (left : StepOutput) (issues : List Issue) :
    ofFault earlier output fault ≠ .pending left issues := by
  cases fault <;> exact Conclusion.noConfusion

theorem Conclusion.ofReport_ne_pending (equipment : Equipment) (step : Step) (output : StepOutput)
    (issues : List Issue) (envelope : Envelope) (signals : Signals) (left : StepOutput)
    (recorded : List Issue) :
    ofReport equipment step output issues envelope signals ≠ .pending left recorded := by
  unfold ofReport
  split
  · exact ofFault_ne_pending _ _ _ _ _
  · split
    · exact ofFault_ne_pending _ _ _ _ _
    · exact Conclusion.noConfusion

/-- A callback never leaves the step waiting. -/
theorem Conclusion.ofCallback_ne_pending (equipment : Equipment) (run : Run) (step? : Option Step)
    (stepRun : StepRun) (earlier : List Issue) (envelope : Envelope) (signals : Int → Signals)
    (output : StepOutput) (issues : List Issue) :
    ofCallback equipment run step? stepRun earlier envelope signals ≠ .pending output issues := by
  cases step? with
  | none => exact Conclusion.noConfusion
  | some step => exact ofReport_ne_pending _ _ _ _ _ _ _ _

/-- The backend leaves the step waiting by accepting the job. -/
theorem Conclusion.pending_of_ofLaunch {equipment : Equipment} {validator : Validator}
    {ruleset : Ruleset} {external : ExternalValidator} {interim left : StepOutput}
    {earlier issues : List Issue} {signals : Signals} {answer : Except BackendFault JobResponse}
    (concluded : ofLaunch equipment validator ruleset external interim earlier signals answer =
      .pending left issues) :
    ∃ response, answer = .ok response ∧ response.isComplete = false ∧
      left = withResponse interim response ∧ issues = earlier := by
  unfold ofLaunch at concluded
  split at concluded
  · exact absurd concluded (ofFault_ne_pending _ _ _ _ _)
  · rename_i response
    dsimp only at concluded
    split at concluded
    · split at concluded <;> cases concluded
    · rename_i accepted
      cases concluded
      exact ⟨response, rfl, by simpa using accepted, rfl, rfl⟩

/-! ### Every conclusion of a step is decided -/

theorem Conclusion.decided_ofLaunch (equipment : Equipment) (validator : Validator)
    (ruleset : Ruleset) (external : ExternalValidator) (interim : StepOutput)
    (earlier : List Issue) (signals : Signals) (answer : Except BackendFault JobResponse) :
    (ofLaunch equipment validator ruleset external interim earlier signals answer).Decided := by
  intro verdict equal
  unfold ofLaunch at equal
  split at equal
  · exact decided_ofFault _ _ _ _ equal
  · dsimp only at equal
    split at equal
    · split at equal
      · cases equal
        exact verdictStatus_decided _
      · cases equal
        exact Or.inr rfl
    · cases equal

theorem Concludes.decided {mayAnswer : (request : Request) → request.Answer → Prop}
    {equipment : Equipment} {context : StepContext} {earlier : List Issue} {conclusion : Conclusion}
    (concludes : Concludes mayAnswer equipment context earlier conclusion) :
    conclusion.Decided := by
  unfold Concludes at concludes
  split at concludes
  · split at concludes
    · exact concludes ▸ Conclusion.decided_ofFault _ _ _
    · obtain ⟨answer, -, rfl⟩ := concludes
      cases answer with
      | error fault => exact Conclusion.decided_ofFault _ _ _
      | ok outcome =>
        rintro verdict ⟨⟩
        exact verdictStatus_decided _
  · split at concludes
    · exact concludes ▸ Conclusion.decided_ofFault _ _ _
    · obtain ⟨answer, -, rfl⟩ := concludes
      cases answer with
      | error fault => exact Conclusion.decided_ofFault _ _ _
      | ok outcome =>
        rintro verdict ⟨⟩
        exact verdictStatus_decided _
    · rcases concludes with ⟨-, rfl⟩ | ⟨-, answer, -, rfl⟩
      · exact Conclusion.decided_ofFault _ _ _
      · exact Conclusion.decided_ofLaunch _ _ _ _ _ _ _ _

/-- A step that is left pending has a job, which the backend has accepted.  So far there are the
issues of its input assertions. -/
theorem Concludes.pending {mayAnswer : (request : Request) → request.Answer → Prop}
    {equipment : Equipment} {context : StepContext} {earlier issues : List Issue} {left : StepOutput}
    (concludes : Concludes mayAnswer equipment context earlier (.pending left issues)) :
    ∃ validator ruleset external response,
      context.step.IsJob equipment.validators validator ruleset external ∧
      mayAnswer (.launch (jobRequest context validator external
        (Digest.attemptKey context.stepRun.id context.stepRun.attempt))) (.ok response) ∧
      response.isComplete = false ∧
      let report := inputReport equipment.checker validator ruleset context.submission context.signals
      left = withResponse (handedOver equipment validator report context.stepRun) response ∧
      issues = report.issues := by
  unfold Concludes at concludes
  split at concludes
  · split at concludes
    · exact absurd concludes.symm (Conclusion.ofFault_ne_pending _ _ _ _ _)
    · obtain ⟨answer, _, concluded⟩ := concludes
      cases answer with
      | error fault => exact absurd concluded.symm (Conclusion.ofFault_ne_pending _ _ _ _ _)
      | ok outcome => cases concluded
  · rename_i validator ruleset kind
    split at concludes
    · exact absurd concludes.symm (Conclusion.ofFault_ne_pending _ _ _ _ _)
    · obtain ⟨answer, _, concluded⟩ := concludes
      cases answer with
      | error fault => exact absurd concluded.symm (Conclusion.ofFault_ne_pending _ _ _ _ _)
      | ok outcome => cases concluded
    · rename_i external resolved
      rcases concludes with ⟨_, concluded⟩ | ⟨_, answer, may, concluded⟩
      · exact absurd concluded.symm (Conclusion.ofFault_ne_pending _ _ _ _ _)
      · obtain ⟨response, rfl, accepted, isLeft, areIssues⟩ :=
          Conclusion.pending_of_ofLaunch concluded.symm
        exact ⟨validator, ruleset, external, response, ⟨kind, resolved⟩, may, accepted, isLeft,
          areIssues⟩

end Vetting.Execution
