import Vetting.Proofs.Run.Endurance
import Vetting.Proofs.Run.Remnant

/-!
Contract: a callback that has failed is made again.

Owns:
- `TakenIn`: what a callback leaves that has settled its step, told from the verdict;
- `DeliveredAlike`: two callbacks have left the same of a step, its findings and its run;
- the callback that is made again comes to the same as one that is made once, exactly if the
  first one has left the step and its findings as they were.

Does not own: what the first one may leave (`Vetting.Proofs.Run.Remnant`).

The second delivery adds to the findings of the first one, and does nothing at all to a step
that the first one has ended.
-/

namespace Vetting

open Execution
open Store (Rewrites Ends)

/-! ### What a callback settles -/

namespace Execution

theorem Conclusion.Settles.unique {earlier : List Issue} {output : StepOutput}
    {conclusion : Conclusion} {verdict other : Verdict} {error otherError : Option String}
    (settles : conclusion.Settles earlier output verdict error)
    (settlesToo : conclusion.Settles earlier output other otherError) : verdict = other := by
  cases settles with
  | ended => cases settlesToo; rfl
  | faulted => cases settlesToo; rfl

/-- The finding with which a fault makes a step fail. -/
def faultIssue : EngineFault → Issue
  | .configuration detail => .error "configuration_error" detail
  | .execution detail => .error "execution_error" detail
  | fault => .error "unexpected_error" fault.message

theorem Conclusion.Settles.issues_of_fault {earlier : List Issue} {output : StepOutput}
    {fault : EngineFault} {verdict : Verdict} {error : Option String}
    (settles : (Conclusion.ofFault earlier output fault).Settles earlier output verdict error) :
    verdict.issues = earlier ++ [faultIssue fault] := by
  cases fault <;> cases settles <;> rfl

/-- The findings that a callback adds do not depend on those that are there. -/
theorem Conclusion.Settles.issues (equipment : Equipment) (run : Run) (step? : Option Step)
    (stepRun : StepRun) (envelope : Envelope) (signals : Int → Scope.Signals) :
    ∃ added, ∀ {earlier verdict error},
      (Conclusion.ofCallback equipment run step? stepRun earlier envelope signals).Settles earlier
        stepRun.output verdict error → verdict.issues = earlier ++ added := by
  cases step? with
  | none =>
    let fault : EngineFault :=
      .internal ("step '" ++ stepRun.stepKey ++ "' not found in run " ++ run.id.text)
    refine ⟨[faultIssue fault], fun settles => ?_⟩
    cases settles
    rfl
  | some step =>
    cases kind : validatorOf step with
    | error fault =>
      simp only [Conclusion.ofCallback, kind]
      exact ⟨_, fun settles => settles.issues_of_fault⟩
    | ok parts =>
      obtain ⟨validator, ruleset⟩ := parts
      cases resolved : resolveExternal equipment validator with
      | error fault =>
        simp only [Conclusion.ofCallback, kind, resolved]
        exact ⟨_, fun settles => settles.issues_of_fault⟩
      | ok external =>
        simp only [Conclusion.ofCallback, kind, resolved]
        let report := equipment.checker.check ruleset.assertions
          ⟨.output, envelope.outputs, validator.catalog, signals step.order⟩
        refine ⟨envelope.messages.map messageIssue ++ (statusIssue? envelope).toList ++ report.issues,
          fun settles => ?_⟩
        cases settles
        rfl

/-- What a callback leaves that has settled its step. -/
structure TakenIn (run : Run) (stepRun : StepRun) (verdict : Verdict)
    (outcome : CallbackOutcome) (after : Store) : Prop where
  record : ∃ ended, after.stepRuns.get? stepRun.id = some ended ∧
    ended.status = verdict.status ∧ ended.output = verdict.output
  issues : after.issuesOf stepRun.id = verdict.issues
  closes : ∃ later, after.runs.get? run.id = some later ∧ later.status = settledStatus run verdict
  resumeFrom : outcome.resumeFrom = settledResume run stepRun verdict

theorem Applied.takenIn {equipment : Equipment} {store : Store} {run : Run} {stepRun : StepRun}
    {envelope : Envelope} {outcome : CallbackOutcome} {after : Store}
    (applied : Applied equipment store run stepRun envelope outcome after)
    (running : stepRun.status.isTerminal = false) (heldRun : store.runs.get? run.id = some run) :
    ∃ verdict error, (callbackConclusion equipment store run stepRun envelope).Settles
      (store.issuesOf stepRun.id) stepRun.output verdict error ∧
        TakenIn run stepRun verdict outcome after := by
  obtain ⟨verdict, error, ended, middle, settles, ends, reruns, resumes⟩ := applied.settles running
  obtain ⟨now, record⟩ := ends.record
  obtain ⟨findings, issues, rewrites⟩ := ends.rewrites
  have heldEnded := rewrites.get?_self
  have issuesAfter := rewrites.issuesOf_self
  rw [ends.id] at heldEnded issuesAfter
  have status : ended.status = verdict.status := by rw [record]; rfl
  have output : ended.output = verdict.output := by rw [record]; rfl
  refine ⟨verdict, error, settles, ?_, ?_, ?_, resumes⟩ <;>
    rcases reruns with ⟨rfl, isStatus⟩ | ⟨later, keeps, isStatus, rfl⟩
  · exact ⟨ended, heldEnded, status, output⟩
  · exact ⟨ended, heldEnded, status, output⟩
  · exact issuesAfter.trans issues
  · exact issuesAfter.trans issues
  · exact ⟨run, by rw [rewrites.runs, heldRun], isStatus⟩
  · exact ⟨later, keeps.id ▸ middle.withRun_get? later, isStatus⟩

/-! ### Deliveries that work -/

section Working

variable {mayAnswer : (request : Request) → request.Answer → Prop} {equipment : Equipment}
  {world after : World} {run : Run} {stepRun : StepRun} {envelope : Envelope} {key : String}
  {requests : List Request} {result : Except EngineFault CallbackOutcome}

/-- A callback for a step that runs, with a token that nothing speaks against, settles the step. -/
theorem takenIn_of_runs (writable : world.store.failingWrites = false)
    (running : stepRun.status = .running)
    (held : world.store.stepRuns.get? stepRun.id = some stepRun)
    (heldRun : world.store.runs.get? stepRun.runId = some run) (sameId : run.id = stepRun.runId)
    (fresh : isStale stepRun key = false) (new : key ∉ world.store.receipts)
    (runs : (completeCallback equipment stepRun.id envelope (some key)).run.Runs mayAnswer world
      requests (some result) after) :
    ∃ outcome verdict error, result = .ok outcome ∧
      (callbackConclusion equipment world.store run stepRun envelope).Settles
        (world.store.issuesOf stepRun.id) stepRun.output verdict error ∧
      TakenIn run stepRun verdict outcome after.store := by
  obtain ⟨outcome, rfl, answered⟩ := runs.succeeds (ensures_completeCallback
    (fun _ _ => trivial) writable held rfl heldRun sameId (some key))
  generalize after.store = last at answered ⊢
  cases answered with
  | refused isKey refuses =>
    obtain rfl := Option.some.inj isKey
    rcases refuses with stale | known
    · rw [fresh] at stale
      cases stale
    · exact absurd known new
  | taken _ applied =>
    obtain ⟨verdict, error, settles, takenIn⟩ :=
      applied.takenIn (by rw [running]; rfl) (sameId ▸ heldRun)
    exact ⟨outcome, verdict, error, rfl, settles, takenIn⟩

/-- A callback for a step that has ended leaves it and its run alone. -/
theorem ignored_of_runs (writable : world.store.failingWrites = false)
    (terminal : stepRun.status.isTerminal = true)
    (held : world.store.stepRuns.get? stepRun.id = some stepRun)
    (heldRun : world.store.runs.get? stepRun.runId = some run) (sameId : run.id = stepRun.runId)
    (runs : (completeCallback equipment stepRun.id envelope (some key)).run.Runs mayAnswer world
      requests (some result) after) :
    ∃ outcome, result = .ok outcome ∧ after.store.stepRuns = world.store.stepRuns ∧
      after.store.runs = world.store.runs := by
  obtain ⟨outcome, rfl, answered⟩ := runs.succeeds (ensures_completeCallback
    (fun _ _ => trivial) writable held rfl heldRun sameId (some key))
  generalize after.store = last at answered ⊢
  cases answered with
  | refused => exact ⟨outcome, rfl, rfl, rfl⟩
  | taken _ applied =>
    obtain ⟨_, rfl⟩ | ⟨isOpen, _⟩ := applied.same_or_settles
    · exact ⟨outcome, rfl, rfl, rfl⟩
    · rw [terminal] at isOpen
      cases isOpen

end Working

end Execution

/-! ### Deliveries that come to the same -/

/-- Two callbacks have left the same of a step, its findings and its run, which is to go on from
the same order. -/
structure DeliveredAlike (id runId : Uuid) (first : CallbackOutcome × Store)
    (second : CallbackOutcome × Store) : Prop where
  record : ∃ one other, first.2.stepRuns.get? id = some one ∧
    second.2.stepRuns.get? id = some other ∧ one.status = other.status ∧
    one.output.inputAssertions = other.output.inputAssertions ∧
    one.output.outputAssertions = other.output.outputAssertions ∧
    one.output.severityCounts = other.output.severityCounts
  issues : first.2.issuesOf id = second.2.issuesOf id
  closes : ∃ one other, first.2.runs.get? runId = some one ∧
    second.2.runs.get? runId = some other ∧ one.status = other.status
  resumeFrom : first.1.resumeFrom = second.1.resumeFrom

theorem DeliveredAlike.length_issues {id runId : Uuid} {first second : CallbackOutcome}
    {one other : Store} (alike : DeliveredAlike id runId (first, one) (second, other)) :
    (one.issuesOf id).length = (other.issuesOf id).length := congrArg List.length alike.issues

/-- A step run and what its findings say are as they were. -/
structure Store.Traceless (before : Store) (stepRun : StepRun) (after : Store) : Prop where
  record : after.stepRuns.get? stepRun.id = some stepRun
  issues : after.issuesOf stepRun.id = before.issuesOf stepRun.id

section Alike

variable {mayAnswer : (request : Request) → request.Answer → Prop} {met : Bool → Prop}
  {equipment : Equipment} {before after : Store} {stepRun : StepRun} {run : Run}

theorem Execution.Remnant.traceless_or (remnant : Remnant met before stepRun run after) :
    before.Traceless stepRun after ∨ met false := by
  cases remnant with
  | failed _ concluded => exact Or.inr concluded.met
  | littered littered =>
    obtain ⟨more, rewrites, clean⟩ := littered
    rcases clean with met | rfl
    · exact Or.inr met
    · refine Or.inl ⟨rewrites.get?_self, ?_⟩
      rw [rewrites.issuesOf_self, List.append_nil]
      rfl

/-- What a littered store makes of a callback differs in the earlier findings only. -/
theorem Store.Littered.callbackConclusion_eq (littered : before.Littered met stepRun after)
    (held : before.stepRuns.get? stepRun.id = some stepRun) (envelope : Envelope) :
    callbackConclusion equipment after run stepRun envelope =
      .ofCallback equipment run (run.stepByKey? stepRun.stepKey) stepRun
        (after.issuesOf stepRun.id) envelope (before.signalsBefore run.id) := by
  obtain ⟨more, rewrites, _⟩ := littered
  have stepRuns : after.stepRuns = before.stepRuns := by
    rw [rewrites.stepRuns, Table.set_of_get? held]
  have signals : after.signalsBefore run.id = before.signalsBefore run.id := by
    funext order
    rw [signalsBefore, signalsBefore, stepRunsOf, stepRunsOf, stepRuns]
  rw [callbackConclusion, signals]

/-- Callbacks with the same verdict come to the same. -/
theorem Execution.TakenIn.alike {verdict : Verdict} {first second : CallbackOutcome}
    {one other : Store} (takenIn : TakenIn run stepRun verdict first one)
    (takenInToo : TakenIn run stepRun verdict second other) :
    DeliveredAlike stepRun.id run.id (first, one) (second, other) where
  record := by
    obtain ⟨record, held, status, output⟩ := takenIn.record
    obtain ⟨recordToo, heldToo, statusToo, outputToo⟩ := takenInToo.record
    exact ⟨record, recordToo, held, heldToo, status.trans statusToo.symm, by rw [output, outputToo],
      by rw [output, outputToo], by rw [output, outputToo]⟩
  issues := takenIn.issues.trans takenInToo.issues.symm
  closes := by
    obtain ⟨closed, held, status⟩ := takenIn.closes
    obtain ⟨closedToo, heldToo, statusToo⟩ := takenInToo.closes
    exact ⟨closed, closedToo, held, heldToo, status.trans statusToo.symm⟩
  resumeFrom := takenIn.resumeFrom.trans takenInToo.resumeFrom.symm

/-- Two verdicts on a step run come to the same exactly if they rest on the same findings. -/
theorem Execution.TakenIn.alike_iff {earlier later : List Issue} {envelope : Envelope}
    {signals : Int → Scope.Signals} {verdict other : Verdict} {error otherError : Option String}
    {first second : CallbackOutcome} {one two : Store}
    (settles : (Conclusion.ofCallback equipment run (run.stepByKey? stepRun.stepKey) stepRun earlier
      envelope signals).Settles earlier stepRun.output verdict error)
    (settlesToo : (Conclusion.ofCallback equipment run (run.stepByKey? stepRun.stepKey) stepRun later
      envelope signals).Settles later stepRun.output other otherError)
    (takenIn : TakenIn run stepRun verdict first one)
    (takenInToo : TakenIn run stepRun other second two) :
    DeliveredAlike stepRun.id run.id (first, one) (second, two) ↔ later = earlier := by
  constructor
  · intro alike
    obtain ⟨added, adds⟩ := Conclusion.Settles.issues equipment run (run.stepByKey? stepRun.stepKey)
      stepRun envelope signals
    have same : earlier ++ added = later ++ added := by
      rw [← adds settles, ← adds settlesToo, ← takenIn.issues, ← takenInToo.issues]
      exact alike.issues
    exact (List.append_cancel_right same).symm
  · rintro rfl
    obtain rfl := settles.unique settlesToo
    exact takenIn.alike takenInToo

/-- A step that the first delivery has failed, in a run that is open still, does not come to the
same as any that is settled. -/
theorem Execution.TakenIn.not_alike {verdict : Verdict} {first second : CallbackOutcome}
    {one two : Store} {failed : StepRun} (takenIn : TakenIn run stepRun verdict first one)
    (isOpen : run.status.isTerminal = false) (held : two.stepRuns.get? stepRun.id = some failed)
    (hasFailed : failed.status = .failed) (heldRun : two.runs.get? run.id = some run) :
    ¬ DeliveredAlike stepRun.id run.id (first, one) (second, two) := by
  rintro ⟨⟨ended, other, heldEnded, heldOther, sameStatus, _⟩, _,
    ⟨closed, otherRun, heldClosed, heldOtherRun, sameRun⟩, _⟩
  obtain ⟨record, heldRecord, status, _⟩ := takenIn.record
  obtain ⟨later, heldLater, laterStatus⟩ := takenIn.closes
  obtain rfl := Option.some.inj (heldRecord.symm.trans heldEnded)
  obtain rfl := Option.some.inj (held.symm.trans heldOther)
  obtain rfl := Option.some.inj (heldLater.symm.trans heldClosed)
  obtain rfl := Option.some.inj (heldRun.symm.trans heldOtherRun)
  have failedToo : verdict.status = .failed := by rw [← status, sameStatus, hasFailed]
  rw [settledStatus, if_neg (by simp [isOpen, failedToo]), sameRun] at laterStatus
  rw [laterStatus] at isOpen
  cases isOpen

/-! ### Deliveries that are made again -/

section Again

variable {middle afterAgain : World} {envelope : Envelope} {key : String} {verdict : Verdict}
  {error : Option String} {outcome : CallbackOutcome} {one : Store} {requests : List Request}
  {result : Except EngineFault CallbackOutcome} (steady : before.failingWrites = false)
  (running : stepRun.status = .running) (held : before.stepRuns.get? stepRun.id = some stepRun)
  (heldRun : before.runs.get? stepRun.runId = some run) (sameId : run.id = stepRun.runId)
  (fresh : isStale stepRun key = false) (new : key ∉ before.receipts)
  (settles : (callbackConclusion equipment before run stepRun envelope).Settles
    (before.issuesOf stepRun.id) stepRun.output verdict error)
  (takenIn : TakenIn run stepRun verdict outcome one)
  (again : (completeCallback equipment stepRun.id envelope (some key)).run.Runs mayAnswer middle
    requests (some result) afterAgain)

include steady running heldRun sameId takenIn again

include held fresh new settles in
theorem Store.Littered.redelivered (littered : before.Littered met stepRun middle.store) :
    ∃ outcomeAgain, result = .ok outcomeAgain ∧
      (DeliveredAlike stepRun.id run.id (outcome, one) (outcomeAgain, afterAgain.store) ↔
        before.Traceless stepRun middle.store) := by
  have ⟨more, rewrites, _⟩ := littered
  have heldAfter : middle.store.runs.get? stepRun.runId = some run := by rw [rewrites.runs, heldRun]
  have newAfter : key ∉ middle.store.receipts := by rwa [rewrites.receipts]
  obtain ⟨outcomeAgain, other, otherError, rfl, settlesAgain, takenInAgain⟩ :=
    takenIn_of_runs (littered.rewritten.steady steady) running rewrites.get?_self heldAfter sameId
      fresh newAfter again
  rw [littered.callbackConclusion_eq held] at settlesAgain
  refine ⟨outcomeAgain, rfl, (takenIn.alike_iff settles settlesAgain takenInAgain).trans ?_⟩
  exact ⟨fun issues => ⟨rewrites.get?_self, issues⟩, fun traceless => traceless.issues⟩

theorem Store.Concluded.redelivered (isOpen : run.status.isTerminal = false)
    (concluded : before.Concluded met stepRun .failed middle.store) :
    ∃ outcomeAgain, result = .ok outcomeAgain ∧
      (DeliveredAlike stepRun.id run.id (outcome, one) (outcomeAgain, afterAgain.store) ↔
        before.Traceless stepRun middle.store) := by
  have ⟨_, output, failure, now, more, rewrites⟩ := concluded
  let failed := stepRun.ended .failed output failure now
  have heldFailed : middle.store.stepRuns.get? failed.id = some failed := rewrites.get?_self
  have heldAfter : middle.store.runs.get? failed.runId = some run := by rw [rewrites.runs]; exact heldRun
  obtain ⟨outcomeAgain, rfl, stepRuns, runs⟩ :=
    ignored_of_runs (concluded.rewritten.steady steady) rfl heldFailed heldAfter sameId again
  have heldAgain : afterAgain.store.stepRuns.get? stepRun.id = some failed := by
    rw [stepRuns]
    exact heldFailed
  have heldRunAgain : afterAgain.store.runs.get? run.id = some run := by
    rw [runs, sameId]
    exact heldAfter
  refine ⟨outcomeAgain, rfl, iff_of_false (takenIn.not_alike isOpen heldAgain rfl heldRunAgain) ?_⟩
  intro traceless
  rw [Option.some.inj (traceless.record.symm.trans heldFailed)] at running
  cases running

include held fresh new settles in
/-- Whatever has been left, the callback is taken in when it is made again, and it comes to the same
exactly if nothing has been left. -/
theorem Execution.Remnant.redelivered (remnant : Remnant met before stepRun run middle.store) :
    ∃ outcomeAgain, result = .ok outcomeAgain ∧
      (DeliveredAlike stepRun.id run.id (outcome, one) (outcomeAgain, afterAgain.store) ↔
        before.Traceless stepRun middle.store) := by
  cases remnant with
  | littered littered =>
    exact littered.redelivered steady running held heldRun sameId fresh new settles takenIn again
  | failed isOpen concluded =>
    exact concluded.redelivered steady running heldRun sameId takenIn again isOpen

end Again

end Alike

/-- After a callback for a step that runs has failed because writes have, the same callback comes, with
writes that work, to the same as one that is made once, exactly if the first one has left the
step and its findings as they were.  It has, if it has met no working writes. -/
theorem redelivered_alike_iff {mayAnswer : (request : Request) → request.Answer → Prop}
    {equipment : Equipment} {world last afterOne afterAgain : World}
    (coherent : world.store.Coherent) {id : Uuid} {stepRun : StepRun}
    (held : world.store.stepRuns.get? id = some stepRun) (running : stepRun.status = .running)
    {envelope : Envelope} {key : String} {turns : List (Turn Unit)} {fault : EngineFault}
    (first : Interleaves mayAnswer
      (fun _ => (completeCallback equipment id envelope (some key)).run) world turns
      (fun _ => .done (.error fault)) last)
    {requests requestsAgain : List Request} {result resultAgain : Except EngineFault CallbackOutcome}
    (once : (completeCallback equipment id envelope (some key)).run.Runs mayAnswer
      (world.withFailing false) requests (some result) afterOne)
    (again : (completeCallback equipment id envelope (some key)).run.Runs mayAnswer
      (last.withFailing false) requestsAgain (some resultAgain) afterAgain) :
    ∃ outcome outcomeAgain, result = .ok outcome ∧ resultAgain = .ok outcomeAgain ∧
      (DeliveredAlike id stepRun.runId (outcome, afterOne.store) (outcomeAgain, afterAgain.store) ↔
        world.store.Traceless stepRun last.store) ∧
      (world.store.Traceless stepRun last.store ∨
        ∃ turn ∈ turns, turn.after.store.failingWrites = false) := by
  obtain rfl := coherent.stepRunIds _ _ held
  obtain ⟨run, heldRun⟩ := coherent.rooted _ _ held
  have sameId : run.id = stepRun.runId := coherent.runIds _ _ heldRun
  let before := (world.withFailing false).store
  let middle := (last.withFailing false).store
  have steady : before.failingWrites = false := rfl
  have traceless : before.Traceless stepRun middle ↔ world.store.Traceless stepRun last.store :=
    ⟨fun traceless => ⟨traceless.record, traceless.issues⟩,
      fun traceless => ⟨traceless.record, traceless.issues⟩⟩
  let met : Bool → Prop := fun failing => ∃ turn ∈ turns, turn.after.store.failingWrites = failing
  have meets : ∀ turn ∈ turns, met turn.after.store.failingWrites :=
    fun turn member => ⟨turn, member, rfl⟩
  have heeds : Heeds (wavering mayAnswer met fun _ _ => True)
      (completeCallback equipment stepRun.id envelope (some key)) before (fun _ _ => True)
      fun _ after => isStale stepRun key = false ∧ key ∉ before.receipts ∧
        Remnant met before stepRun run after :=
    wavers_completeCallback (fun _ _ => trivial) steady running held heldRun sameId equipment
      envelope key
  have left : isStale stepRun key = false ∧ key ∉ before.receipts ∧
      Remnant met before stepRun run middle := first.wavers meets heeds
  obtain ⟨fresh, new, remnant⟩ := left
  obtain ⟨outcome, verdict, error, rfl, settles, takenIn⟩ :=
    takenIn_of_runs steady running held heldRun sameId fresh new once
  obtain ⟨outcomeAgain, rfl, alike⟩ := remnant.redelivered steady running held heldRun sameId fresh
    new settles takenIn again
  rw [sameId] at alike
  exact ⟨outcome, outcomeAgain, rfl, rfl, alike.trans traceless,
    remnant.traceless_or.imp_left traceless.mp⟩

/-! ### A callback that leaves its finding behind -/

namespace Example

open Execution

/-- The execution hands the job over. -/
def handedOver : World :=
  (World.takeAlone (surroundings accepted) 11 (stepping steps)
    (World.takeAlone (surroundings accepted) 6 (execute equipment run.id none).run prepared).2).2

/-- The step run that waits for the job. -/
def awaiting : StepRun := (handedOver.store.stepRuns.get? stepId).get rfl

theorem held_awaiting : handedOver.store.stepRuns.get? stepId = some awaiting :=
  (Option.some_get _).symm

theorem endured_handedOver :
    Endured (surroundings accepted).answers equipment world handedOver := by
  rw [handedOver, prepared_eq]
  exact .execute .start (reaches_firstEntry.trans (World.reaches_takeAlone _ 11 _ _))

theorem kept_handedOver : handedOver.Kept :=
  kept_of_endured coherent_store unbegun_world endured_handedOver

theorem awaiting_id : awaiting.id = stepId :=
  kept_handedOver.coherent.stepRunIds _ _ held_awaiting

theorem jobKey?_awaiting : awaiting.output.jobKey? = some (Digest.attemptKey stepId 1) := by
  have first : awaiting.attempt = 1 := rfl
  have current := (kept_handedOver.tokened _ _ held_awaiting).2 ⟨rfl, rfl⟩
  rwa [awaiting_id, first] at current

/-- A report with something to say. -/
def remark : Envelope := envelope.withMessage .info "done"

/-- The callback that reports it. -/
def remarking : Job CallbackOutcome :=
  completeCallback equipment stepId remark (some (Digest.attemptKey stepId 1))

/-- What is left of it when it has found the step run. -/
def receiving : Job CallbackOutcome := do
  if ← Job.store (.recordCallback (Digest.attemptKey stepId 1) stepId (← Job.now)) then
    applyWithReceipt equipment awaiting remark (Digest.attemptKey stepId 1)
  else ignoreCallback awaiting "duplicate delivery" true

/-- The token of the callback is the one that the step run has. -/
theorem asks_remarking : ∃ next, remarking.run = .ask (.store (.stepRun stepId)) next ∧
    next (.ok awaiting) = receiving.run := by
  have fresh := isStale_own jobKey?_awaiting
  refine ⟨_, rfl, ?_⟩
  change ExceptT.run (if isStale awaiting (Digest.attemptKey stepId 1) then _ else _) = receiving.run
  rw [fresh]
  rfl

/-- What it comes to while writes work. -/
def delivery (world : World) : Except EngineFault CallbackOutcome × World :=
  World.runJob (surroundings accepted) receiving (world.withFailing false)

theorem exists_ok {ε α : Type} {result : Except ε α} (isOk : result.isOk = true) :
    ∃ value, result = .ok value := by
  cases result with
  | ok value => exact ⟨value, rfl⟩
  | error fault => cases isOk

section Found

variable {world : World} (held : world.store.stepRuns.get? stepId = some awaiting)

include held

theorem answers_awaiting : world.Answers (surroundings accepted).answers (.store (.stepRun stepId))
    (.ok awaiting) world :=
  ⟨by rw [Store.answer_stepRun held], by rw [Store.answer_stepRun held]⟩

theorem interleaves_receiving :
    Interleaves (surroundings accepted).answers (fun _ => remarking.run) world
      [⟨(), .store (.stepRun stepId), .ok awaiting, world⟩] (fun _ => receiving.run) world := by
  obtain ⟨next, asks, receives⟩ := asks_remarking
  have untaken : Interleaves (surroundings accepted).answers (fun _ : Unit => remarking.run) world []
      (fun _ => remarking.run) world := .start
  have turned := untaken.turn () asks (answers_awaiting held)
  rw [receives] at turned
  have same : Function.update (fun _ : Unit => remarking.run) () receiving.run =
      fun _ => receiving.run := funext fun _ => Function.update_self () _ _
  rwa [same] at turned

theorem runs_delivery : ∃ requests,
    remarking.run.Runs (surroundings accepted).answers (world.withFailing false) requests
      (some (delivery world).1) (delivery world).2 := by
  have heldToo : (world.withFailing false).store.stepRuns.get? stepId = some awaiting := held
  obtain ⟨next, asks, receives⟩ := asks_remarking
  obtain ⟨requests, rest⟩ :=
    World.runs_runJob (surroundings accepted) receiving (world.withFailing false)
  rw [← receives] at rest
  rw [asks]
  exact ⟨_, .asked (answers_awaiting heldToo) rest⟩

end Found

/-- The callback comes while no write works. -/
def refused : List (Turn Unit) × (Unit → Program (Except EngineFault CallbackOutcome)) × World :=
  World.takeTurns (surroundings accepted) (List.replicate 14 ()) (fun _ => receiving.run)
    (handedOver.withFailing true)

/-- Nothing is left of the callback, and it comes to the same when it is made again. -/
theorem redelivered_refused : ∃ fault outcome outcomeAgain,
    refused.2.1 () = .done (.error fault) ∧ (delivery handedOver).1 = .ok outcome ∧
      (delivery refused.2.2).1 = .ok outcomeAgain ∧
      DeliveredAlike stepId run.id (outcome, (delivery handedOver).2.store)
        (outcomeAgain, (delivery refused.2.2).2.store) := by
  obtain ⟨fault, failed⟩ : ∃ fault, refused.2.1 () = .done (.error fault) := ⟨_, rfl⟩
  have heldAfter : refused.2.2.store.stepRuns.get? stepId = some awaiting := rfl
  have issues : refused.2.2.store.issuesOf stepId = handedOver.store.issuesOf stepId := rfl
  have traceless : handedOver.store.Traceless awaiting refused.2.2.store :=
    ⟨by rw [awaiting_id, heldAfter], by rw [awaiting_id, issues]⟩
  have heldFailing : (handedOver.withFailing true).store.stepRuns.get? stepId = some awaiting :=
    held_awaiting
  have refuses : Interleaves (surroundings accepted).answers (fun _ => remarking.run) handedOver _
      refused.2.1 refused.2.2 :=
    ((Interleaves.start.failing true).trans (interleaves_receiving heldFailing)).trans
      (World.interleaves_takeTurns (surroundings accepted) (List.replicate 14 ()) _ _)
  have ended : refused.2.1 = fun _ => .done (.error fault) := funext fun _ => failed
  rw [ended] at refuses
  obtain ⟨_, once⟩ := runs_delivery held_awaiting
  obtain ⟨_, again⟩ := runs_delivery heldAfter
  obtain ⟨outcome, outcomeAgain, succeeds, succeedsAgain, alike, _⟩ :=
    redelivered_alike_iff kept_handedOver.coherent held_awaiting rfl refuses once again
  have sameRun : awaiting.runId = run.id := rfl
  rw [sameRun] at alike
  exact ⟨fault, outcome, outcomeAgain, failed, succeeds, succeedsAgain, alike.mpr traceless⟩

/-- The callback adds its finding. -/
def adding : List (Turn Unit) × (Unit → Program (Except EngineFault CallbackOutcome)) × World :=
  World.takeTurns (surroundings accepted) (List.replicate 7 ()) (fun _ => receiving.run) handedOver

/-- No further write works. -/
def littering : List (Turn Unit) × (Unit → Program (Except EngineFault CallbackOutcome)) × World :=
  World.takeTurns (surroundings accepted) (List.replicate 10 ()) adding.2.1
    (adding.2.2.withFailing true)

/-- What is left then, once the receipt has been given back. -/
def littered : World :=
  { littering.2.2 with store := littering.2.2.store.withReceipts [] }

theorem littered_eq : littered = littering.2.2 := by
  have released : littering.2.2.store.receipts =
      [Digest.attemptKey stepId 1].filter fun receipt => receipt != Digest.attemptKey stepId 1 := rfl
  have receipts : littering.2.2.store.receipts = [] := by
    rw [released, List.filter_cons_of_neg (by simp), List.filter_nil]
  rw [littered, ← receipts]
  rfl

/-- The finding is there, and the callback that is made again adds another one. -/
theorem not_redelivered : ∃ turns fault requests requestsAgain outcome outcomeAgain,
    Endured (surroundings accepted).answers equipment world handedOver ∧
    handedOver.store.stepRuns.get? stepId = some awaiting ∧ awaiting.Waits ∧
    awaiting.output.jobKey? = some (Digest.attemptKey stepId 1) ∧
    Interleaves (surroundings accepted).answers (fun _ => remarking.run) handedOver turns
      (fun _ : Unit => .done (.error fault)) littered ∧
    remarking.run.Runs (surroundings accepted).answers (handedOver.withFailing false) requests
      (some (.ok outcome)) (delivery handedOver).2 ∧
    remarking.run.Runs (surroundings accepted).answers (littered.withFailing false)
      requestsAgain (some (.ok outcomeAgain)) (delivery littered).2 ∧
    ¬ DeliveredAlike stepId run.id (outcome, (delivery handedOver).2.store)
      (outcomeAgain, (delivery littered).2.store) := by
  obtain ⟨fault, failed⟩ : ∃ fault, littering.2.1 () = .done (.error fault) := ⟨_, rfl⟩
  obtain ⟨outcome, succeeds⟩ : ∃ outcome, (delivery handedOver).1 = .ok outcome :=
    exists_ok (by decide +kernel)
  obtain ⟨outcomeAgain, succeedsAgain⟩ : ∃ outcome, (delivery littered).1 = .ok outcome :=
    exists_ok (by decide +kernel)
  have heldAfter : littered.store.stepRuns.get? stepId = some awaiting := rfl
  have litters : Interleaves (surroundings accepted).answers (fun _ => remarking.run) handedOver _
      littering.2.1 littering.2.2 :=
    (((interleaves_receiving held_awaiting).trans
      (World.interleaves_takeTurns (surroundings accepted) (List.replicate 7 ()) _ _)).failing
        true).trans (World.interleaves_takeTurns (surroundings accepted) (List.replicate 10 ()) _ _)
  have ended : littering.2.1 = fun _ => .done (.error fault) := funext fun _ => failed
  rw [ended, ← littered_eq] at litters
  obtain ⟨requests, once⟩ := runs_delivery held_awaiting
  obtain ⟨requestsAgain, again⟩ := runs_delivery heldAfter
  rw [succeeds] at once
  rw [succeedsAgain] at again
  refine ⟨_, fault, requests, requestsAgain, outcome, outcomeAgain, endured_handedOver,
    held_awaiting, ⟨rfl, rfl⟩, jobKey?_awaiting, litters, once, again, fun alike => ?_⟩
  have single : ((delivery handedOver).2.store.issuesOf stepId).length = 1 := by decide +kernel
  have twofold : ((delivery littered).2.store.issuesOf stepId).length = 2 := by decide +kernel
  have same := alike.length_issues
  rw [single, twofold] at same
  cases same

end Example

end Vetting
