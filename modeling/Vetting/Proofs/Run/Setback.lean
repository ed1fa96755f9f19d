import Vetting.Proofs.Program.Faltering
import Vetting.Proofs.Run.Passage

/-!
Contract: taking the steps of a run while the store may refuse.

Owns:
- `Store.Yields`: one step run may have got another record and other findings, and all else is
  as before;
- what recording, ending, failing and processing leave of the step run at work, whatever is
  refused;
- `Store.Works`: the run is as before, and steps that were behind still are;
- `Store.Attains`: the steps of a run have been taken up to one, whose record is given;
- that a run whose work is broken off has attained the step at work, which still runs.

Does not own: what becomes of the run (`Vetting.Proofs.Run.Disclosure`).
-/

namespace Vetting

open Execution
open Store (Rewrites)

namespace Store

/-- A step run may have got another record and other findings; all else is as before. -/
structure Yields (before : Store) (stepRun record : StepRun) (after : Store) : Prop where
  id : record.id = stepRun.id
  runId : record.runId = stepRun.runId
  stepKey : record.stepKey = stepRun.stepKey
  rewrites : ∃ findings, Rewrites before record findings after

/-- A step run is as before, apart from its output and its findings. -/
def InHand (before : Store) (stepRun : StepRun) (after : Store) : Prop :=
  ∃ output, before.Yields stepRun (stepRun.leaving output) after

/-- A step run has got the record that a result tells of. -/
def Tells (before : Store) (stepRun : StepRun) (result : StepResult) (after : Store) : Prop :=
  ∃ record, result = .ofStepRun record ∧ before.Yields stepRun record after

theorem inHand_of_held {store : Store} {stepRun : StepRun}
    (held : store.stepRuns.get? stepRun.id = some stepRun) : store.InHand stepRun store :=
  ⟨stepRun.output, rfl, rfl, rfl, _, .refl held⟩

theorem InHand.held {before after : Store} {stepRun : StepRun}
    (inHand : before.InHand stepRun after) :
    ∃ output, after.stepRuns.get? stepRun.id = some (stepRun.leaving output) := by
  obtain ⟨output, yields⟩ := inHand
  obtain ⟨findings, rewrites⟩ := yields.rewrites
  exact ⟨output, rewrites.get?_self⟩

/-- Recording findings leaves the record as it is. -/
theorem Yields.recorded {before after : Store} {stepRun record : StepRun}
    (yields : before.Yields stepRun record after) (findings : List Finding) :
    before.Yields stepRun record
      { after with findings := after.findings.set record.id findings } := by
  obtain ⟨earlier, rewrites⟩ := yields.rewrites
  exact ⟨yields.id, yields.runId, yields.stepKey, _,
    rewrites.trans (rewrites_findings rewrites.get?_self findings) rfl⟩

/-- One record after another. -/
theorem Yields.written {before after : Store} {stepRun record later : StepRun}
    (yields : before.Yields stepRun record after) (id : later.id = stepRun.id)
    (runId : later.runId = stepRun.runId) (stepKey : later.stepKey = stepRun.stepKey) :
    before.Yields stepRun later { after with stepRuns := after.stepRuns.set later.id later } := by
  obtain ⟨earlier, rewrites⟩ := yields.rewrites
  exact ⟨id, runId, stepKey, _,
    rewrites.trans (rewrites_stepRun after later) (id.trans yields.id.symm)⟩

end Store

/-- The store may be asked as long as a step run has a record that is allowed, and it may be left
with any output. -/
structure Attended (watch : Store → Request → Prop) (allowed : StepRun → Prop) (before : Store)
    (stepRun : StepRun) : Prop where
  steady : before.failingWrites = false
  running : stepRun.status = .running
  leaves : ∀ output, allowed (stepRun.leaving output)
  watches : ∀ record after request, before.Yields stepRun record after → allowed record →
    watch after request

/-- Something may be asked wherever the step run is in hand. -/
theorem Attended.here {watch : Store → Request → Prop} {allowed : StepRun → Prop}
    {before after : Store} {stepRun : StepRun} (attended : Attended watch allowed before stepRun)
    (inHand : before.InHand stepRun after) (request : Request) : watch after request := by
  obtain ⟨output, yields⟩ := inHand
  exact attended.watches _ _ request yields (attended.leaves output)

theorem Attended.writable {watch : Store → Request → Prop} {allowed : StepRun → Prop}
    {before after : Store} {stepRun record : StepRun}
    (attended : Attended watch allowed before stepRun)
    (yields : before.Yields stepRun record after) : after.failingWrites = false := by
  obtain ⟨findings, rewrites⟩ := yields.rewrites
  exact rewrites.failingWrites.trans attended.steady

namespace Execution

/-! ### Findings, and the end of a step -/

section Ending

variable {mayAnswer : (request : Request) → request.Answer → Prop} {refuses : Prop}
  {watch : Store → Request → Prop} {allowed : StepRun → Prop} {before after : Store}
  {stepRun : StepRun}

theorem falters_record (attended : Attended watch allowed before stepRun)
    (inHand : before.InHand stepRun after) (runId : Uuid) (issues : List Issue)
    (mode : RecordMode) :
    Heeds (faltering mayAnswer refuses watch) (record runId stepRun.id issues mode) after
      (fun _ => before.InHand stepRun) fun _ => before.InHand stepRun := by
  have watched := fun request => attended.here inHand request
  have ⟨output, yields⟩ := inHand
  have writable := attended.writable yields
  refine (heeds_bind _ _).mpr (falters_stamp (watched _) fun stamp => ?_)
  cases mode with
  | replace =>
    exact (heeds_bind _ _).mpr (falters_ask (watched _) (Store.answer_replaceFindings writable _ _)
      ⟨output, yields.recorded _⟩ fun _ _ => inHand)
  | append =>
    exact (heeds_bind _ _).mpr (falters_ask (watched _) ((Store.answer_appendFindings _ _ _).trans
      (Store.answer_replaceFindings writable _ _)) ⟨output, yields.recorded _⟩ fun _ _ => inHand)

theorem falters_countFindings (attended : Attended watch allowed before stepRun)
    (inHand : before.InHand stepRun after) :
    Heeds (faltering mayAnswer refuses watch) (countFindings stepRun.id) after
      (fun _ => before.InHand stepRun) fun _ => before.InHand stepRun :=
  (heeds_bind _ _).mpr (falters_ask (attended.here inHand _) rfl inHand fun _ _ => inHand)

theorem falters_storeInterim (attended : Attended watch allowed before stepRun)
    (inHand : before.InHand stepRun after) (earlier output : StepOutput) :
    Heeds (faltering mayAnswer refuses watch) (storeInterim (stepRun.leaving earlier) output) after
      (fun updated last => updated = stepRun.leaving output ∧
        before.Yields stepRun (stepRun.leaving output) last)
      fun _ => before.InHand stepRun := by
  have watched := fun request => attended.here inHand request
  have ⟨kept, yields⟩ := inHand
  obtain ⟨findings, rewrites⟩ := yields.rewrites
  have held : after.stepRuns.get? (stepRun.leaving output).id = some (stepRun.leaving kept) :=
    rewrites.get?_self
  exact (heeds_bind _ _).mpr (falters_ask (watched _)
    (Store.answer_updateStepRun (attended.writable yields) held)
    ⟨rfl, yields.written rfl rfl rfl⟩ fun _ _ => inHand)

theorem falters_endStep (attended : Attended watch allowed before stepRun)
    (inHand : before.InHand stepRun after) (earlier : StepOutput) {status : StepStatus}
    (terminal : status.isTerminal = true) (output : StepOutput) (error : Option String)
    (ends : ∀ now, allowed (stepRun.ended status output error now)) :
    Heeds (faltering mayAnswer refuses watch)
      (endStep (stepRun.leaving earlier) status output error) after
      (fun ended last => (∃ now, ended = stepRun.ended status output error now) ∧
        before.Yields stepRun ended last)
      fun _ => before.InHand stepRun := by
  have watched := fun request => attended.here inHand request
  have ⟨kept, yields⟩ := inHand
  obtain ⟨findings, rewrites⟩ := yields.rewrites
  have goesOn : (!status.isTerminal || !(stepRun.leaving earlier).status.mayBecome status) =
      false := by
    rw [terminal, stepRun.leaving_status, attended.running]
    rfl
  refine (heeds_bind _ _).mpr (falters_now (watched _) fun now => ?_)
  rw [endStepAt, goesOn]
  let ended := stepRun.ended status output error now
  have held : after.stepRuns.get? ended.id = some (stepRun.leaving kept) := rewrites.get?_self
  have written : before.Yields stepRun ended _ := yields.written rfl rfl rfl
  refine (heeds_bind _ _).mpr (falters_ask (watched _)
    (Store.answer_updateStepRun (attended.writable yields) held) ?_ fun _ _ => inHand)
  exact (heeds_bind _ _).mpr (falters_log (attended.watches _ _ _ written (ends now))
    ⟨⟨now, rfl⟩, written⟩)

theorem falters_failWithIssue (attended : Attended watch allowed before stepRun)
    (inHand : before.InHand stepRun after) (earlier : StepOutput) (issue : Issue)
    (output : StepOutput)
    (ends : ∀ output now, allowed (stepRun.ended .failed output (some issue.message) now)) :
    Heeds (faltering mayAnswer refuses watch)
      (failWithIssue (stepRun.leaving earlier) issue output) after
      (fun result last => ∃ output now,
        result = .ofStepRun (stepRun.ended .failed output (some issue.message) now) ∧
        before.Yields stepRun (stepRun.ended .failed output (some issue.message) now) last)
      fun _ => before.InHand stepRun := by
  refine (heeds_bind _ _).mpr ((falters_record attended inHand _ _ _).imp
    (fun recorded middle inHand => ?_) fun _ _ inHand => inHand)
  refine (heeds_bind _ _).mpr ((falters_countFindings attended inHand).imp
    (fun counts last inHand => ?_) fun _ _ inHand => inHand)
  refine (heeds_bind _ _).mpr ((falters_endStep attended inHand earlier rfl _ _ (ends _)).imp ?_
    fun _ _ inHand => inHand)
  rintro _ final ⟨⟨now, rfl⟩, yields⟩
  exact ⟨_, now, rfl, yields⟩

end Ending

/-! ### Processing a step -/

section Processing

variable {mayAnswer : (request : Request) → request.Answer → Prop} {refuses : Prop}
  {watch : Store → Request → Prop} {before after : Store} {stepRun : StepRun}
  (attended : Attended watch (fun _ => True) before stepRun)

include attended

theorem falters_finish (inHand : before.InHand stepRun after) (earlier : StepOutput)
    (passed : Bool) (output : StepOutput) (error : Option String) :
    Heeds (faltering mayAnswer refuses watch) (do
        return StepResult.ofStepRun
          (← endStep (stepRun.leaving earlier) (verdictStatus passed) output error)) after
      (before.Tells stepRun) fun _ => before.InHand stepRun :=
  (heeds_bind _ _).mpr ((falters_endStep attended inHand earlier (verdictStatus_isTerminal passed) _ _
    fun _ => trivial).imp (fun ended _ yields => ⟨ended, rfl, yields.2⟩) fun _ _ inHand => inHand)

theorem falters_failing (inHand : before.InHand stepRun after) (earlier : StepOutput)
    (issue : Issue) (output : StepOutput) :
    Heeds (faltering mayAnswer refuses watch)
      (failWithIssue (stepRun.leaving earlier) issue output) after
      (before.Tells stepRun) fun _ => before.InHand stepRun := by
  refine (falters_failWithIssue attended inHand earlier issue output fun _ _ => trivial).imp ?_
    fun _ _ inHand => inHand
  rintro _ last ⟨output, now, rfl, yields⟩
  exact ⟨_, rfl, yields⟩

theorem falters_completeWith (inHand : before.InHand stepRun after) (earlier : StepOutput)
    (equipment : Equipment) (run : Run) (step : Step) (base : StepOutput) (envelope : Envelope)
    (external : ExternalValidator) (signals : Scope.Signals) :
    Heeds (faltering mayAnswer refuses watch)
      (completeWith equipment run step (stepRun.leaving earlier) base envelope external signals)
      after (before.Tells stepRun) fun _ => before.InHand stepRun := by
  refine (heeds_bind _ _).mpr ((heeds_given _).mpr ?_)
  cases validatorOf step with
  | error fault => exact inHand
  | ok found =>
    refine (heeds_bind _ _).mpr ((falters_record attended inHand _ _ _).imp
      (fun recorded middle inHand => ?_) fun _ _ inHand => inHand)
    refine (heeds_bind _ _).mpr ((falters_countFindings attended inHand).imp
      (fun counts last inHand => ?_) fun _ _ inHand => inHand)
    exact falters_finish attended inHand earlier _ _ _

theorem falters_processInline {context : StepContext} (isOwn : context.stepRun = stepRun)
    (inHand : before.InHand stepRun after) (equipment : Equipment) :
    Heeds (faltering mayAnswer refuses watch) (processInline equipment context) after
      (before.Tells stepRun) fun _ => before.InHand stepRun := by
  subst isOwn
  refine (heeds_bind _ _).mpr ((heeds_given _).mpr ?_)
  cases validatorOf context.step with
  | error fault => exact inHand
  | ok found =>
    refine (heeds_bind _ _).mpr ((heeds_given _).mpr ?_)
    cases equipment.validators.resolve found.1 with
    | error fault => exact inHand
    | ok resolved =>
      cases resolved with
      | external => exact inHand
      | inline =>
        refine (heeds_bind _ _).mpr ((heeds_validate _ _).mpr ⟨attended.here inHand _, ?_⟩)
        rintro answer _ ⟨_, rfl⟩
        cases answer with
        | error fault => exact inHand
        | ok outcome =>
          refine (heeds_bind _ _).mpr ((falters_record attended inHand _ _ _).imp
            (fun recorded middle inHand => ?_) fun _ _ inHand => inHand)
          exact falters_finish attended inHand context.stepRun.output _ _ _

theorem falters_processAction {context : StepContext} (isOwn : context.stepRun = stepRun)
    (inHand : before.InHand stepRun after) (equipment : Equipment) :
    Heeds (faltering mayAnswer refuses watch) (processAction equipment context) after
      (before.Tells stepRun) fun _ => before.InHand stepRun := by
  subst isOwn
  refine (heeds_bind _ _).mpr ((heeds_given _).mpr ?_)
  cases actionOf context.step with
  | error fault => exact inHand
  | ok found =>
    refine (heeds_bind _ _).mpr ((heeds_given _).mpr ?_)
    cases equipment.actions.resolve found.1 with
    | error fault => exact inHand
    | ok =>
      refine (heeds_bind _ _).mpr ((heeds_act _ _).mpr ⟨attended.here inHand _, ?_⟩)
      rintro answer _ ⟨_, rfl⟩
      cases answer with
      | error fault => exact inHand
      | ok outcome =>
        refine (heeds_bind _ _).mpr ((falters_record attended inHand _ _ _).imp
          (fun recorded middle inHand => ?_) fun _ _ inHand => inHand)
        exact falters_finish attended inHand context.stepRun.output _ _ _

theorem falters_afterLaunch (inHand : before.InHand stepRun after) (equipment : Equipment)
    (context : StepContext) (external : ExternalValidator) (earlier interim : StepOutput)
    (response : JobResponse) :
    Heeds (faltering mayAnswer refuses watch)
      (afterLaunch equipment context external (stepRun.leaving earlier) interim response) after
      (before.Tells stepRun) fun _ => before.InHand stepRun := by
  refine heeds_ite.mpr ⟨fun _ => ?_, fun _ => ?_⟩
  · refine (heeds_bind _ _).mpr ((falters_storeInterim attended inHand earlier _).imp ?_
      fun _ _ inHand => inHand)
    rintro _ last ⟨rfl, yields⟩
    exact (heeds_bind _ _).mpr (falters_log (attended.watches _ _ _ yields trivial)
      ⟨_, rfl, yields⟩)
  · cases response.envelope? with
    | some envelope => exact falters_completeWith attended inHand earlier _ _ _ _ _ _ _
    | none =>
      refine (heeds_bind _ _).mpr ((falters_storeInterim attended inHand earlier _).imp ?_
        fun _ _ inHand => inHand)
      rintro _ last ⟨rfl, yields⟩
      exact falters_failing attended ⟨_, yields⟩ _ _ _

theorem falters_processExternal {context : StepContext} (isOwn : context.stepRun = stepRun)
    (inHand : before.InHand stepRun after) (equipment : Equipment) :
    Heeds (faltering mayAnswer refuses watch) (processExternal equipment context) after
      (before.Tells stepRun) fun _ => before.InHand stepRun := by
  subst isOwn
  refine (heeds_bind _ _).mpr ((heeds_given _).mpr ?_)
  cases validatorOf context.step with
  | error fault => exact inHand
  | ok found =>
    refine (heeds_bind _ _).mpr ((heeds_given _).mpr ?_)
    cases resolveExternal equipment found.1 with
    | error fault => exact inHand
    | ok external =>
      refine (heeds_bind _ _).mpr (heeds_backendAvailable.mpr ⟨attended.here inHand _, ?_⟩)
      rintro available _ ⟨_, rfl⟩
      refine heeds_ite.mpr ⟨fun _ => inHand, fun _ => ?_⟩
      refine (heeds_bind _ _).mpr ((falters_record attended inHand _ _ _).imp
        (fun recorded middle inHand => ?_) fun _ _ inHand => inHand)
      refine (heeds_bind _ _).mpr ((falters_storeInterim attended inHand context.stepRun.output
        _).imp ?_ fun _ _ inHand => inHand)
      rintro _ last ⟨rfl, yields⟩
      have inHand : before.InHand context.stepRun last := ⟨_, yields⟩
      refine (heeds_bind _ _).mpr ((heeds_launch _).mpr ⟨attended.here inHand _, ?_⟩)
      rintro answer _ ⟨_, rfl⟩
      cases answer with
      | error fault => exact inHand
      | ok response => exact falters_afterLaunch attended inHand equipment context external _ _ _

theorem falters_failCurrent (inHand : before.InHand stepRun after) (code detail : String) :
    Heeds (faltering mayAnswer refuses watch) (failCurrent stepRun.id code detail) after
      (before.Tells stepRun) fun _ => before.InHand stepRun := by
  obtain ⟨output, held⟩ := inHand.held
  have goesOn : (stepRun.leaving output).status.isTerminal = false := by
    rw [stepRun.leaving_status, attended.running]
    rfl
  refine (heeds_bind _ _).mpr (falters_ask (attended.here inHand _) (Store.answer_stepRun held) ?_
    fun _ _ => inHand)
  rw [goesOn]
  exact falters_failing attended inHand output _ _

/-- Whatever comes up in a step that is processed, the step has been settled or is still at work. -/
theorem falters_dispatch {context : StepContext} (isOwn : context.stepRun = stepRun)
    (inHand : before.InHand stepRun after) (equipment : Equipment) :
    Heeds (faltering mayAnswer refuses watch) (dispatch equipment context) after
      (before.Tells stepRun) fun _ => before.InHand stepRun := by
  have processes : Heeds (faltering mayAnswer refuses watch) (do
      let processor ← ExceptT.mk (pure (Processor.ofStep equipment context.step))
      processor.process equipment context) after
      (before.Tells stepRun) fun _ => before.InHand stepRun := by
    refine (heeds_bind _ _).mpr ((heeds_given _).mpr ?_)
    cases Processor.ofStep equipment context.step with
    | error fault => exact inHand
    | ok processor =>
      cases processor with
      | inline => exact falters_processInline attended isOwn inHand equipment
      | external => exact falters_processExternal attended isOwn inHand equipment
      | action => exact falters_processAction attended isOwn inHand equipment
  refine (heeds_tryCatch _ _).mpr (processes.imp (fun _ _ tells => tells)
    fun fault last inHand => ?_)
  subst isOwn
  split
  · exact falters_failCurrent attended inHand _ _
  · exact falters_failCurrent attended inHand _ _
  · exact inHand

end Processing

end Execution

/-! ### Steps that are behind -/

namespace Store

/-- The step of a key has been taken, and lets the next one follow. -/
def Behind (store : Store) (runId : Uuid) (key : String) : Prop :=
  ∃ stepRun, store.stepRunOf? runId key = some stepRun ∧ progressAt stepRun = none

/-- Steps of a run may have been taken: the run is as before, and what was behind still is. -/
structure Works (run : Run) (before after : Store) : Prop where
  serves : after.Serves run
  submissions : after.submissions = before.submissions
  behind : ∀ key, before.Behind run.id key → after.Behind run.id key

section Working

variable {run : Run} {step : Step} {stepRun record : StepRun} {before middle after : Store}

theorem Works.refl (serves : before.Serves run) : before.Works run before :=
  ⟨serves, rfl, fun _ => id⟩

theorem Works.trans (first : before.Works run middle) (second : middle.Works run after) :
    before.Works run after where
  serves := second.serves
  submissions := second.submissions.trans first.submissions
  behind := fun key behind => second.behind key (first.behind key behind)

theorem Coherent.stepRunOf?_of_held (coherent : after.Coherent)
    (held : after.stepRuns.get? record.id = some record) :
    after.stepRunOf? record.runId record.stepKey = some record :=
  coherent.stepRunOf?_of_mem (coherent.mem_stepRunsOf.mpr ⟨held, rfl⟩)

/-- What is behind stays so, if no step run that lets the next step follow gets another record. -/
theorem Behind.stays {runId : Uuid} {key : String} (behind : before.Behind runId key)
    (coherent : before.Coherent) (coherentAfter : after.Coherent)
    (others : ∀ stepRun, before.stepRuns.get? stepRun.id = some stepRun →
      progressAt stepRun = none → after.stepRuns.get? stepRun.id = some stepRun) :
    after.Behind runId key := by
  obtain ⟨stepRun, found, lets⟩ := behind
  obtain ⟨held, rfl, rfl⟩ := coherent.held_of_stepRunOf? found
  exact ⟨stepRun, coherentAfter.stepRunOf?_of_held (others stepRun held lets), lets⟩

theorem progressAt_of_running (running : stepRun.status = .running) :
    progressAt stepRun ≠ none := by
  rw [progressAt, running]
  exact Option.some_ne_none _

theorem Begins.works (begins : before.Begins run step stepRun after) (serves : before.Serves run) :
    before.Works run after where
  serves := begins.serves serves
  submissions := begins.submissions
  behind := by
    refine fun key behind => behind.stays serves.coherent (begins.serves serves).coherent ?_
    intro other held lets
    cases begins with
    | created now absent =>
      refine (Table.get?_set _ _ _ _).trans ((if_neg ?_).trans held)
      intro same
      have fresh := before.get?_freshId
      rw [show before.freshId = other.id from same, held] at fresh
      cases fresh
    | again now heldOld _ _ running _ rewrites =>
      rw [rewrites.get?]
      refine (if_neg ?_).trans held
      intro same
      rw [← same] at held
      obtain rfl := Option.some.inj (held.symm.trans heldOld)
      exact progressAt_of_running running lets

theorem Yields.held (yields : before.Yields stepRun record after) :
    after.stepRuns.get? record.id = some record := by
  obtain ⟨findings, rewrites⟩ := yields.rewrites
  exact rewrites.get?_self

/-- Whatever record a step run at work gets, steps that were behind still are. -/
theorem Yields.works (yields : before.Yields stepRun record after) (serves : before.Serves run)
    (held : before.stepRuns.get? stepRun.id = some stepRun) (running : stepRun.status = .running) :
    before.Works run after := by
  obtain ⟨findings, rewrites⟩ := yields.rewrites
  rw [← yields.id] at held
  have servesAfter := serves.rewrites rewrites held yields.runId yields.stepKey
  refine ⟨servesAfter, rewrites.submissions, fun key behind => ?_⟩
  refine behind.stays serves.coherent servesAfter.coherent fun other heldOther lets => ?_
  rw [rewrites.get?]
  refine (if_neg ?_).trans heldOther
  intro same
  rw [← same] at heldOther
  obtain rfl := Option.some.inj (heldOther.symm.trans held)
  exact progressAt_of_running running lets

/-- The step of a run has a record. -/
def Has (store : Store) (run : Run) (step : Step) (record : StepRun) : Prop :=
  store.stepRunOf? run.id step.key = some record

theorem Yields.has (yields : before.Yields stepRun record after) (works : before.Works run after)
    (ofRun : stepRun.runId = run.id) (ofStep : stepRun.stepKey = step.key) :
    after.Has run step record := by
  have found := works.serves.coherent.stepRunOf?_of_held yields.held
  rwa [yields.runId, yields.stepKey, ofRun, ofStep] at found

/-- A run has come to a step: its steps from an order on have been taken up to this one, whose record
is given, and nobody has asked to cancel it. -/
structure Attains (store : Store) (run : Run) (start : Int) (record : StepRun) : Prop where
  serves : store.Serves run
  submitted : ∃ submission, store.submissions.get? run.submissionId = some submission
  wanted : run.cancelRequested = false
  taken : ∃ done step rest,
    run.orderedSteps.filter (fun step => start ≤ step.order) = done ++ step :: rest ∧
      (∀ earlier ∈ done, store.Behind run.id earlier.key) ∧ store.Has run step record

theorem Attains.held {start : Int} (attains : before.Attains run start record) :
    before.stepRuns.get? record.id = some record := by
  obtain ⟨_, _, _, _, _, has⟩ := attains.taken
  exact (attains.serves.coherent.held_of_stepRunOf? has).1

/-- A run has still come to its step when the step run at work gets another record. -/
theorem Attains.yields {start : Int} (attains : before.Attains run start stepRun)
    (running : stepRun.status = .running) (yields : before.Yields stepRun record after) :
    after.Attains run start record := by
  have works := yields.works attains.serves attains.held running
  obtain ⟨done, step, rest, split, behind, has⟩ := attains.taken
  obtain ⟨_, ofRun, ofStep⟩ := attains.serves.coherent.held_of_stepRunOf? has
  refine ⟨works.serves, ?_, attains.wanted, done, step, rest, split, ?_, ?_⟩
  · rw [works.submissions]
    exact attains.submitted
  · exact fun earlier member => works.behind _ (behind earlier member)
  · exact yields.has works ofRun ofStep

end Working

end Store

namespace Execution

/-! ### Taking steps -/

section Taking

variable {mayAnswer : (request : Request) → request.Answer → Prop} {refuses : Prop}
  {watch : Store → Request → Prop} {store : Store} {run : Run}

theorem falters_beginStep
    (watches : ∀ after request, request.isOutside = false → watch after request)
    (serves : store.Serves run) (step : Step) :
    Heeds (faltering mayAnswer refuses watch) (beginStep run.id step) store
      (fun handle after => if handle.execute then store.Begins run step handle.stepRun after
        else after = store ∧ store.Has run step handle.stepRun)
      fun _ _ => True := by
  refine (heeds_bind _ _).mpr (falters_now (watches _ _ rfl) fun now => (heeds_bind _ _).mpr ?_)
  cases found : store.stepRunOf? run.id step.key with
  | none =>
    have answered : store.answer (.acquire run.id step now) =
        (.ok (.created (.begun store.freshId run.id step now)),
          store.putStepRun (.begun store.freshId run.id step now)) := by
      rw [Store.answer, Store.acquire, found]
    refine falters_ask (watches _ _ rfl) answered ?_ fun _ _ => trivial
    exact (heeds_bind _ _).mpr (falters_log (watches _ _ rfl) (.created now found))
  | some stepRun =>
    have answered : store.answer (.acquire run.id step now) = (.ok (.existing stepRun), store) := by
      rw [Store.answer, Store.acquire, found]
    obtain ⟨held, ofRun, ofStep⟩ := serves.coherent.held_of_stepRunOf? found
    refine falters_ask (watches _ _ rfl) answered ?_ fun _ _ => trivial
    refine heeds_ite.mpr ⟨fun _ => ⟨rfl, found⟩, fun begins => ?_⟩
    simp only [Bool.or_eq_true, not_or, Bool.not_eq_true] at begins
    obtain ⟨goesOn, idle⟩ := begins
    have running := running_of_not_terminal goesOn
    obtain ⟨after, restarts, rewrites⟩ := answer_restart held running now
    refine (heeds_bind _ _).mpr (falters_ask (watches _ _ rfl) restarts ?_ fun _ _ => trivial)
    exact (heeds_bind _ _).mpr (falters_log (watches _ _ rfl)
      (.again now held ofRun ofStep running idle rewrites))

/-- Work on the steps of a run has been broken off at one of them: if a step run was at work, it is
the record of that step and still runs. -/
def Stops (store : Store) (run : Run) (step : Step) (interruption : Interruption)
    (after : Store) : Prop :=
  ∀ stepRun, interruption.current = some stepRun → store.Works run after ∧
    ∃ record, record.id = stepRun.id ∧ record.status = .running ∧ after.Has run step record

variable (watches : ∀ after request, watch after request)

include watches

theorem falters_takeStep (serves : store.Serves run) (equipment : Equipment)
    (submission : Submission) (step : Step) :
    Heeds (faltering mayAnswer refuses watch) (takeStep equipment run submission step) store
      (fun progress? after => store.Works run after ∧
        (progress? = none → after.Behind run.id step.key))
      (Stops store run step) := by
  refine (heeds_bind _ _).mpr ((heeds_during _ _).mpr ((falters_beginStep
    (fun after request _ => watches after request) serves step).imp (fun handle begun begins => ?_)
    ?_))
  · refine heeds_ite.mpr ⟨fun executes => ?_, fun rests => ?_⟩
    · rw [if_pos executes] at begins
      have works := begins.works serves
      have atWork := begins.begun serves
      have attended : Attended watch (fun _ => True) begun handle.stepRun :=
        ⟨works.serves.writable, atWork.running, fun _ => trivial, fun _ _ _ _ _ => watches _ _⟩
      have stops : ∀ (fault : EngineFault) after, begun.InHand handle.stepRun after →
          Stops store run step ⟨fault, some handle.stepRun⟩ after := by
        rintro fault after ⟨output, yields⟩ _ ⟨⟩
        have later := yields.works works.serves atWork.held atWork.running
        exact ⟨works.trans later, handle.stepRun.leaving output, rfl, atWork.running,
          yields.has later atWork.ofRun atWork.ofStep⟩
      have inHand := Store.inHand_of_held atWork.held
      refine (heeds_during _ _).mpr ((heeds_bind _ _).mpr ((heeds_bind _ _).mpr
        (falters_ask (watches _ _) rfl ?_ fun fault _ => stops fault begun inHand)))
      refine (heeds_bind _ _).mpr ((falters_dispatch attended rfl inHand equipment).imp ?_ stops)
      rintro _ last ⟨record, rfl, yields⟩
      have later := yields.works works.serves atWork.held atWork.running
      refine ⟨works.trans later, fun lets =>
        ⟨record, yields.has later atWork.ofRun atWork.ofStep, ?_⟩⟩
      cases status : record.status <;>
        simp_all [progressAfter, progressAt, StepResult.ofStepRun]
    · rw [if_neg rests] at begins
      obtain ⟨rfl, has⟩ := begins
      exact ⟨.refl serves, fun lets => ⟨_, has, lets⟩⟩
  · rintro _ _ _ _ ⟨⟩

/-- If taking steps is broken off while one is at work, the run has come to this one. -/
theorem falters_takeSteps (serves : store.Serves run) (equipment : Equipment)
    (submission : Submission) (steps : List Step) :
    Heeds (faltering mayAnswer refuses watch) (takeSteps equipment run submission steps) store
      (fun _ _ => True)
      fun interruption after => ∀ stepRun, interruption.current = some stepRun →
        run.cancelRequested = false ∧ store.Works run after ∧ ∃ done step rest,
          steps = done ++ step :: rest ∧
          (∀ earlier ∈ done, after.Behind run.id earlier.key) ∧
          ∃ record, record.id = stepRun.id ∧ record.status = .running ∧
            after.Has run step record := by
  induction steps generalizing store with
  | nil => trivial
  | cons step later inductionHypothesis =>
    refine (heeds_bind _ _).mpr ((heeds_during _ _).mpr (falters_ask (watches _ _)
      (Store.answer_cancelFlag serves.held) ?_ ?_))
    · refine heeds_ite.mpr ⟨fun _ => trivial, fun unasked => ?_⟩
      have wanted : run.cancelRequested = false := by simpa using unasked
      refine (heeds_bind _ _).mpr ((falters_takeStep watches serves equipment submission step).imp
        ?_ ?_)
      · rintro progress? after ⟨works, lets⟩
        cases progress? with
        | some progress => trivial
        | none =>
          refine (inductionHypothesis works.serves).imp (fun _ _ _ => trivial) ?_
          intro interruption last broken stepRun isCurrent
          obtain ⟨_, more, done, next, rest, rfl, behind, record⟩ := broken stepRun isCurrent
          refine ⟨wanted, works.trans more, step :: done, next, rest, rfl, ?_, record⟩
          intro earlier member
          rcases List.mem_cons.mp member with rfl | member
          · exact more.behind _ (lets rfl)
          · exact behind earlier member
      · intro interruption after stops stepRun isCurrent
        obtain ⟨works, record⟩ := stops stepRun isCurrent
        exact ⟨wanted, works, [], step, later, rfl, fun _ no => (nomatch no), record⟩
    · rintro _ _ _ ⟨⟩

/-- If the work on a run is broken off while a step is at work, the run has come to this step, which
still runs. -/
theorem falters_drive (serves : store.Serves run) (equipment : Equipment) (start : Int) :
    Heeds (faltering mayAnswer refuses watch) (drive equipment run start) store
      (fun _ _ => True)
      fun interruption after => ∀ stepRun, interruption.current = some stepRun →
        ∃ record, record.id = stepRun.id ∧ record.status = .running ∧
          after.Attains run start record := by
  refine (heeds_bind _ _).mpr ((heeds_during _ _).mpr ((heeds_store _).mpr ⟨watches _ _, ?_⟩))
  rintro answer after (answered | ⟨_, rfl, fault, rfl⟩)
  · cases submitted : store.submissions.get? run.submissionId with
    | none =>
      simp only [Store.answer, submitted] at answered
      obtain ⟨rfl, rfl⟩ := Prod.mk.inj answered
      rintro _ ⟨⟩
    | some submission =>
      simp only [Store.answer, submitted] at answered
      obtain ⟨rfl, rfl⟩ := Prod.mk.inj answered
      refine (falters_takeSteps watches serves equipment submission _).imp (fun _ _ _ => trivial) ?_
      intro interruption last broken stepRun isCurrent
      obtain ⟨wanted, works, done, step, rest, split, behind, record, sameId, running, has⟩ :=
        broken stepRun isCurrent
      refine ⟨record, sameId, running, works.serves, ⟨submission, ?_⟩, wanted, done, step, rest,
        split, behind, has⟩
      rw [works.submissions, submitted]
  · rintro _ ⟨⟩

end Taking

end Execution

end Vetting
