import Vetting.Proofs.Run.Stage

/-!
Contract: taking the steps of a run keeps it standing, and where that comes to an end.

Owns:
- `Guards`: every stage that the run goes through may be asked in;
- beginning a step, and carrying it out;
- taking steps one after the other.

Does not own: what becomes of the run afterwards (`Vetting.Proofs.Run.Executing`).
-/

namespace Vetting

open Scope (Signals)
open Store (Rewrites Ends)

namespace Execution

/-- Asking is fine in every stage of a run. -/
structure Guards (regime : Regime) (allowed : Store → Prop) (norm : Norm) (origin : Store)
    (run : Run) : Prop where
  watches : ∀ world request, allowed world.store → regime.watch world request
  allows : ∀ later store settled current phase, run.Keeps later →
    later.cancelRequested = run.cancelRequested → Standing norm origin later store settled current →
    Stage norm later store settled phase current → allowed store

variable {regime : Regime} {allowed : Store → Prop} {norm : Norm} {origin : Store} {run : Run}
  {world : World} {settled : List StepRun} {equipment : Equipment} {submission : Submission}

theorem Guards.keeps (guards : Guards regime allowed norm origin run) {later : Run}
    (keeps : run.Keeps later) (flag : later.cancelRequested = run.cancelRequested) :
    Guards regime allowed norm origin later where
  watches := guards.watches
  allows := fun _ _ _ _ _ further same =>
    guards.allows _ _ _ _ _ (keeps.trans further) (same.trans flag)

/-- A step run that is carried out may be given any findings. -/
theorem Guards.atWork (guards : Guards regime allowed norm origin run) {store : Store}
    {stepRun : StepRun} (standing : Standing norm origin run store settled (some stepRun))
    (status : run.status = .running) {step : Step}
    (isStep : run.orderedSteps[settled.length]? = some step) (running : stepRun.status = .running)
    (left : stepRun.output = .empty ∨ norm.cutOff step stepRun.output) :
    AtWork regime allowed store stepRun where
  watches := guards.watches
  writable := standing.writable
  held := standing.held_current.1
  stays := fun _ after rewrites =>
    guards.allows run after settled (some stepRun) .working (.refl run) rfl
      (standing.rewrite rewrites rfl rfl rfl) (.working status isStep running left)

/-! ### Carrying out a step -/

/-- The step that has begun is carried out as the norm has it. -/
theorem ensures_carryOut {stepRun : StepRun}
    (standing : Standing norm origin run world.store settled (some stepRun))
    (guards : Guards regime allowed norm origin run) (ordered : run.WellOrdered)
    (sound : norm.Sound regime equipment run.id submission) (status : run.status = .running)
    {step : Step} (isStep : run.orderedSteps[settled.length]? = some step)
    (running : stepRun.status = .running) (clear : stepRun.error = none)
    (left : stepRun.output = .empty ∨ norm.cutOff step stepRun.output)
    (unrecorded : world.store.issuesOf stepRun.id = []) (start : Option StepRun)
    {good : Option Progress → World → Prop} {bad : Interruption → World → Prop}
    (passes : ∀ ended after, Standing norm origin run after.store (settled ++ [ended]) none →
      good none after)
    (halts : ∀ progress last after, Standing norm origin run after.store settled (some last) →
      Halted norm run start after.store settled progress (some last) → good (some progress) after)
    (breaks : ∀ fault after, after.store = world.store →
      norm.fails (settled.map world.store.reportOf) step
        ((Verdict.unexpected [] fault stepRun.output).report step) (some genericFailure) →
      bad ⟨fault, some stepRun⟩ after) :
    Ensures regime (during (some stepRun) do
      let signals ← collectSignals run.id step.order
      return progressAfter
        (← dispatch equipment ⟨run, step, stepRun, submission, signals⟩)) world good bad := by
  obtain ⟨done, rest, split, atStep⟩ := exists_split_of_getElem? isStep
  have place : stepRun.place = step.place := standing.place_at split (by simp [atStep])
  have work := guards.atWork standing status isStep running left
  rw [ensures_during, ensures_bind]
  refine ensures_collectSignals work _ _ ?_
  rw [standing.signalsBefore ordered split atStep, ensures_bind]
  simp only [ensures_pure]
  have allows : ∀ conclusion, Concludes regime.mayAnswer equipment
      ⟨run, step, stepRun, submission, signalsOf (settled.map world.store.reportOf)⟩
      (world.store.issuesOf stepRun.id) conclusion → conclusion.Decided ∧
      norm.Allows (settled.map world.store.reportOf) step stepRun.output conclusion := by
    rw [unrecorded]
    refine fun conclusion concluded => ⟨concluded.decided,
      sound.allows _ _ _ rfl rfl rfl left ?_ concluded⟩
    intro first counted
    rw [List.length_map]
    exact (standing.numbered first counted).2 settled.length stepRun (by simp)
  refine ensures_dispatch work running ?_ allows ⟨?_, ?_, ?_⟩
  · intro output findings after midway rewrites
    exact guards.allows run after settled _ .working (.refl run) rfl
      (standing.rewrite rewrites rfl rfl rfl)
      (.working status isStep running (Or.inr (sound.cutOff _ _ rfl midway.interim)))
  · rintro verdict ended after ⟨decided, allowed⟩ ends
    have sameStatus := ends.status
    obtain ⟨later, reports, report⟩ := standing.ends ends place
    rcases decided verdict rfl with hasPassed | hasFailed
    · have settles := later.settle split atStep (sameStatus.trans hasPassed) (by
        rw [reports, report]
        exact allowed.1 hasPassed)
      refine ⟨guards.allows _ _ _ _ _ (.refl run) rfl settles (.between status), ?_⟩
      rw [progressAfter_of_passed (sameStatus.trans hasPassed)]
      exact passes ended after settles
    · have fails : norm.fails (settled.map after.store.reportOf) step (after.store.reportOf ended)
          ended.error := by
        rw [reports, report, ends.error]
        exact allowed.2 hasFailed
      refine ⟨guards.allows _ _ _ _ _ (.refl run) rfl later
        (.failing status isStep (sameStatus.trans hasFailed) fails), ?_⟩
      rw [progressAfter_of_failed (sameStatus.trans hasFailed)]
      exact halts _ _ _ later (.failed isStep (sameStatus.trans hasFailed) fails)
  · rintro output issues findings after ⟨_, awaits, waits⟩ recorded rewrites
    have later := standing.rewrite rewrites rfl rfl rfl
    have waitsAfter : norm.waits (settled.map after.store.reportOf) step
        (after.store.reportOf (stepRun.leaving output)) := by
      rw [standing.reports_settled rewrites rfl, reportOf_leaving rewrites place running clear,
        recorded]
      exact waits
    refine ⟨guards.allows _ _ _ _ _ (.refl run) rfl later
      (.waiting status isStep running awaits waitsAfter), ?_⟩
    rw [progressAfter_of_running ((stepRun.leaving_status output).trans running)]
    exact halts _ _ _ later (.pending isStep running awaits waitsAfter)
  · intro fault after concluded same
    exact breaks fault after same concluded.2

/-! ### Beginning a step -/

theorem ensures_beginStep_existing {runId : Uuid} {step : Step} {stepRun : StepRun}
    (watches : ∀ world request, allowed world.store → regime.watch world request)
    (here : allowed world.store)
    (found : world.store.stepRunOf? runId step.key = some stepRun)
    (rests : stepRun.status.isTerminal = true ∨ stepRun.awaitsJob = true)
    {good : StepHandle → World → Prop} {bad : EngineFault → World → Prop}
    (reached : ∀ clock, good ⟨stepRun, false⟩ { world with clock }) :
    Ensures regime (beginStep runId step) world good bad := by
  have answered : ∀ now, world.store.answer (.acquire runId step now) =
      (.ok (.existing stepRun), world.store) := by
    intro now
    rw [Store.answer, Store.acquire, found]
  simp only [beginStep, ensures_bind, ensures_now]
  refine ⟨watches _ _ here, fun stamp clock => ?_⟩
  refine (ensures_ask (answered _)).mpr ⟨watches _ _ here, ?_⟩
  have stays : (stepRun.status.isTerminal || stepRun.awaitsJob) = true := by
    rw [Bool.or_eq_true]
    exact rests
  simp only [stays, if_true, ensures_pure]
  exact reached clock

theorem ensures_beginStep_created {runId : Uuid} {step : Step}
    (watches : ∀ world request, allowed world.store → regime.watch world request)
    (here : allowed world.store) (absent : world.store.stepRunOf? runId step.key = none)
    {good : StepHandle → World → Prop} {bad : EngineFault → World → Prop}
    (reached : ∀ now, allowed (world.store.putStepRun (.begun world.store.freshId runId step now)) ∧
      ∀ log clock, good ⟨.begun world.store.freshId runId step now, true⟩
        ⟨world.store.putStepRun (.begun world.store.freshId runId step now), log, clock⟩) :
    Ensures regime (beginStep runId step) world good bad := by
  have answered : ∀ now, world.store.answer (.acquire runId step now) =
      (.ok (.created (.begun world.store.freshId runId step now)),
        world.store.putStepRun (.begun world.store.freshId runId step now)) := by
    intro now
    rw [Store.answer, Store.acquire, absent]
  simp only [beginStep, ensures_bind, ensures_now]
  refine ⟨watches _ _ here, fun stamp clock => ?_⟩
  refine (ensures_ask (answered _)).mpr ⟨watches _ _ here, ?_⟩
  simp only [ensures_bind, ensures_log, ensures_pure]
  exact ⟨watches _ _ (reached stamp.time).1, fun time => (reached stamp.time).2 _ _⟩

def restarted (stepRun : StepRun) (now : Timestamp) : StepRun :=
  { stepRun with
    attempt := stepRun.attempt + 1, startedAt := now, endedAt := none, durationMs := none,
    error := none }

theorem answer_restart {store : Store} {stepRun : StepRun}
    (held : store.stepRuns.get? stepRun.id = some stepRun) (running : stepRun.status = .running)
    (now : Timestamp) :
    ∃ after, store.answer (.restart stepRun.id stepRun.attempt now) =
        (.ok (some (restarted stepRun now)), after) ∧
      Rewrites store (restarted stepRun now) [] after := by
  refine ⟨{ store with
    stepRuns := store.stepRuns.set stepRun.id (restarted stepRun now)
    findings := store.findings.remove stepRun.id }, ?_, ?_⟩
  · rw [Store.answer, Store.restart, held]
    simp only [running, and_self, if_true]
    rfl
  · refine ⟨rfl, rfl, rfl, rfl, fun id => ?_, rfl, rfl⟩
    rw [Store.findingsOf, Table.get?_remove]
    by_cases same : stepRun.id = id
    · rw [if_pos same]
      exact (if_pos same).symm
    · rw [if_neg same]
      exact (if_neg same).symm

theorem ensures_beginStep_restarted {runId : Uuid} {step : Step} {stepRun : StepRun}
    (watches : ∀ world request, allowed world.store → regime.watch world request)
    (here : allowed world.store)
    (found : world.store.stepRunOf? runId step.key = some stepRun)
    (held : world.store.stepRuns.get? stepRun.id = some stepRun)
    (running : stepRun.status = .running) (cutOff : stepRun.awaitsJob = false)
    {good : StepHandle → World → Prop} {bad : EngineFault → World → Prop}
    (reached : ∀ now after, Rewrites world.store (restarted stepRun now) [] after.store →
      allowed after.store ∧ good ⟨restarted stepRun now, true⟩ after) :
    Ensures regime (beginStep runId step) world good bad := by
  have answered : ∀ now, world.store.answer (.acquire runId step now) =
      (.ok (.existing stepRun), world.store) := by
    intro now
    rw [Store.answer, Store.acquire, found]
  simp only [beginStep, ensures_bind, ensures_now]
  refine ⟨watches _ _ here, fun stamp clock => ?_⟩
  refine (ensures_ask (answered _)).mpr ⟨watches _ _ here, ?_⟩
  have begins : (stepRun.status.isTerminal || stepRun.awaitsJob) = false := by
    rw [running, cutOff]
    rfl
  simp only [begins, Bool.false_eq_true, if_false, ensures_bind]
  obtain ⟨store, answer, rewrites⟩ := answer_restart held running stamp.time
  refine (ensures_ask answer).mpr ⟨watches _ _ here, ?_⟩
  simp only [ensures_bind, ensures_log, ensures_pure]
  have reached := fun log => reached stamp.time ⟨store, log, clock⟩ rewrites
  exact ⟨watches _ _ (reached world.log).1, fun time => (reached _).2⟩

/-! ### Taking steps -/

/-- What is to be reached when steps are taken from a standing on. -/
structure DrivingAims (norm : Norm) (origin : Store) (run : Run) (settled : List StepRun)
    (current : Option StepRun) (good : Progress → World → Prop)
    (bad : Interruption → World → Prop) : Prop where
  halts : ∀ progress later last after, Standing norm origin run after.store later last →
    Advances settled current later last →
    Halted norm run current after.store later progress last → good progress after
  breaks : ∀ fault later stepRun step after,
    Standing norm origin run after.store later (some stepRun) →
    (∀ last, Advances settled current later last) →
    run.orderedSteps[later.length]? = some step → stepRun.status = .running →
    (stepRun.output = .empty ∨ norm.cutOff step stepRun.output) → after.store.issuesOf stepRun.id = [] →
    norm.fails (later.map after.store.reportOf) step
      ((Verdict.unexpected [] fault stepRun.output).report step) (some genericFailure) →
    bad ⟨fault, some stepRun⟩ after

theorem DrivingAims.later {current last : Option StepRun} {later : List StepRun}
    {good : Progress → World → Prop} {bad : Interruption → World → Prop}
    (aims : DrivingAims norm origin run settled current good bad)
    (advances : Advances settled current later last) (same : last = none ∨ last = current) :
    DrivingAims norm origin run later last good bad where
  halts := fun _ _ _ _ standing further halted =>
    aims.halts _ _ _ _ standing (advances.trans further) (halted.start same)
  breaks := fun _ _ _ _ _ standing further =>
    aims.breaks _ _ _ _ _ standing fun last => advances.trans (further last)

section Driving

variable {current : Option StepRun} {step : Step} {rest : List Step}

/-- A step that has begun now, or again, is carried out. -/
theorem ensures_takeStep_begun {stepRun : StepRun}
    (standing : Standing norm origin run world.store settled (some stepRun))
    (guards : Guards regime allowed norm origin run) (ordered : run.WellOrdered)
    (sound : norm.Sound regime equipment run.id submission) (status : run.status = .running)
    (isStep : run.orderedSteps[settled.length]? = some step)
    (running : stepRun.status = .running) (clear : stepRun.error = none)
    (left : stepRun.output = .empty ∨ norm.cutOff step stepRun.output)
    (unrecorded : world.store.issuesOf stepRun.id = [])
    (free : ∀ old, current = some old → old.awaitsJob = false ∧ old.status.isTerminal = false)
    {good : Option Progress → World → Prop} {bad : Interruption → World → Prop}
    (goesOn : ∀ later after, Standing norm origin run after.store later none →
      Advances settled current later none → later.length = settled.length + 1 → good none after)
    (aims : DrivingAims norm origin run settled current (fun progress => good (some progress)) bad) :
    Ensures regime (during (some stepRun) do
      let signals ← collectSignals run.id step.order
      return progressAfter
        (← dispatch equipment ⟨run, step, stepRun, submission, signals⟩)) world good bad := by
  have advances : ∀ later last, settled <+: later → Advances settled current later last := by
    refine fun later last grows => ⟨grows, fun old isOld rests => ?_⟩
    rw [(free old isOld).1, (free old isOld).2] at rests
    rcases rests with awaits | ended
    · cases awaits
    · cases ended
  refine ensures_carryOut standing guards ordered sound status isStep running clear left unrecorded
    current ?_ ?_ ?_
  · intro ended after settles
    exact goesOn _ after settles (advances _ _ (List.prefix_append _ _)) (by simp)
  · intro progress last after stands halted
    exact aims.halts _ _ _ _ stands (advances _ _ (List.prefix_refl _)) halted
  · intro fault after same fails
    rw [← same] at standing unrecorded fails
    exact aims.breaks _ _ _ _ _ standing (fun last => advances _ last (List.prefix_refl _)) isStep running left
      unrecorded fails

theorem ensures_takeStep
    (standing : Standing norm origin run world.store settled current)
    (guards : Guards regime allowed norm origin run) (ordered : run.WellOrdered)
    (sound : norm.Sound regime equipment run.id submission) (status : run.status = .running)
    (ready : Ready norm run world.store settled current) {done : List Step}
    (split : run.orderedSteps = done ++ step :: rest) (reached : done.length ≤ settled.length)
    {good : Option Progress → World → Prop} {bad : Interruption → World → Prop}
    (goesOn : ∀ later last after, Standing norm origin run after.store later last →
      Advances settled current later last → (last = none ∨ last = current) →
      done.length < later.length → Ready norm run after.store later last → good none after)
    (aims : DrivingAims norm origin run settled current (fun progress => good (some progress)) bad) :
    Ensures regime (takeStep equipment run submission step) world good bad := by
  obtain ⟨phase, stage⟩ := ready.stage status
  have here := guards.allows _ _ _ _ _ (.refl run) rfl standing stage
  simp only [takeStep, ensures_bind, ensures_during]
  rcases Nat.lt_or_eq_of_le reached with before | atStep
  · -- The step is settled already.
    have found : (settled ++ current.toList)[done.length]? = some settled[done.length] := by
      rw [List.getElem?_append_left before, List.getElem?_eq_getElem before]
    have place := standing.place_at split found
    have member : settled[done.length] ∈ settled := List.getElem_mem before
    have passed := standing.passed _ member
    refine ensures_beginStep_existing guards.watches here
      (standing.stepRunOf? (List.mem_append_left _ member) place)
      (Or.inl (by rw [passed]; rfl)) fun clock => ?_
    have skips : progressAt settled[done.length] = none := by
      rw [progressAt, passed]
    simp only [Bool.false_eq_true, if_false, ensures_pure, skips]
    exact goesOn _ _ _ standing (.refl _ _) (Or.inr rfl) before ready
  · have isStep : run.orderedSteps[settled.length]? = some step := by
      rw [split, ← atStep]
      simp
    cases current with
    | none =>
      refine ensures_beginStep_created guards.watches here
        (standing.stepRunOf?_next ordered split atStep) fun now => ?_
      have begins : Standing norm origin run
          (world.store.putStepRun (.begun world.store.freshId run.id step now)) settled
          (some (.begun world.store.freshId run.id step now)) :=
        standing.begin ordered split atStep rfl rfl rfl
      have unrecorded : (world.store.putStepRun
          (.begun world.store.freshId run.id step now)).issuesOf world.store.freshId = [] := by
        change world.store.issuesOf world.store.freshId = []
        rw [Store.issuesOf, standing.coherent.recorded _ (Store.get?_freshId _)]
        rfl
      refine ⟨guards.allows _ _ _ _ _ (.refl run) rfl begins
        (.working status isStep rfl (Or.inl rfl)), fun log clock => ?_⟩
      simp only [if_true]
      exact ensures_takeStep_begun begins guards ordered sound status isStep rfl rfl (Or.inl rfl)
        unrecorded (fun _ isOld => by cases isOld)
        (fun later after stands advances longer =>
          goesOn _ _ _ stands advances (Or.inl rfl) (by omega) trivial) aims
    | some stepRun =>
      have place : stepRun.place = step.place := standing.place_at split (by simp [atStep])
      have found := standing.stepRunOf? (by simp) place
      obtain ⟨own, isOwn, stands⟩ := ready
      obtain rfl : own = step := by
        rw [isStep] at isOwn
        exact (Option.some.inj isOwn).symm
      rcases stands with ⟨running, awaits, waits⟩ | ⟨running, cutOff, left⟩ | ⟨ended, fails⟩
      · apply ensures_beginStep_existing guards.watches here found (Or.inr awaits)
        intro clock
        have stops : progressAt stepRun = some .pending := by
          rw [progressAt, running, awaits]
          rfl
        simp only [Bool.false_eq_true, if_false, ensures_pure, stops]
        exact aims.halts _ _ _ _ standing (.refl _ _) (.pending isStep running awaits waits)
      · refine ensures_beginStep_restarted guards.watches here found standing.held_current.1 running
          cutOff fun now after rewrites => ?_
        have begins := standing.rewrite rewrites rfl rfl rfl
        refine ⟨guards.allows _ _ _ _ _ (.refl run) rfl begins
          (.working status isStep running left), ?_⟩
        simp only [if_true]
        have unrecorded : after.store.issuesOf (restarted stepRun now).id = [] :=
          rewrites.issuesOf_self
        refine ensures_takeStep_begun begins guards ordered sound status isStep running rfl left
          unrecorded ?_ (fun later after stands advances longer =>
            goesOn _ _ _ stands advances (Or.inl rfl) (by omega) trivial) aims
        rintro old ⟨⟩
        exact ⟨cutOff, by rw [running]; rfl⟩
      · refine ensures_beginStep_existing guards.watches here found
          (Or.inl (by rw [ended]; rfl)) fun clock => ?_
        have stops : progressAt stepRun = some (.failed stepRun.error) := by
          rw [progressAt, ended]
        simp only [Bool.false_eq_true, if_false, ensures_pure, stops]
        exact aims.halts _ _ _ _ standing (.refl _ _) (.failed isStep ended fails)

/-- Taking the steps from one on comes to an end as the norm has it. -/
theorem ensures_takeSteps {steps : List Step} {done : List Step}
    (standing : Standing norm origin run world.store settled current)
    (guards : Guards regime allowed norm origin run) (ordered : run.WellOrdered)
    (sound : norm.Sound regime equipment run.id submission) (status : run.status = .running)
    (ready : Ready norm run world.store settled current)
    (split : run.orderedSteps = done ++ steps) (reached : done.length ≤ settled.length)
    {good : Progress → World → Prop} {bad : Interruption → World → Prop}
    (aims : DrivingAims norm origin run settled current good bad) :
    Ensures regime (takeSteps equipment run submission steps) world good bad := by
  -- The steps that are left are those after as many as are settled at least.
  induction steps generalizing world settled current done with
  | nil =>
    rw [List.append_nil] at split
    have atMost := standing.length_le
    have whole : settled.length = run.orderedSteps.length := by
      rw [List.length_append] at atMost
      rw [split] at atMost ⊢
      omega
    have finished : current = none := by
      rw [List.length_append, whole] at atMost
      cases current with
      | none => rfl
      | some stepRun =>
        simp only [Option.toList_some, List.length_singleton] at atMost
        omega
    subst finished
    exact aims.halts _ _ _ _ standing (.refl _ _) (.completed whole)
  | cons step rest inductionHypothesis =>
    obtain ⟨phase, stage⟩ := ready.stage status
    have here := guards.allows _ _ _ _ _ (.refl run) rfl standing stage
    simp only [takeSteps, ensures_bind, ensures_during]
    refine (ensures_ask (Store.answer_cancelFlag standing.held)).mpr
      ⟨guards.watches _ _ here, ?_⟩
    rw [ensures_ite]
    refine ⟨fun asked => ?_, fun _ => ?_⟩
    · exact aims.halts _ _ _ _ standing (.refl _ _) (.canceled asked ready (Or.inr rfl))
    · rw [ensures_bind]
      refine ensures_takeStep standing guards ordered sound status ready split reached
        (fun later last after stands advances same longer readyAfter => ?_)
        ⟨aims.halts, aims.breaks⟩
      have splitLater : run.orderedSteps = (done ++ [step]) ++ rest := by
        rw [split, List.append_assoc]
        rfl
      refine inductionHypothesis stands readyAfter splitLater ?_ (aims.later advances same)
      rw [List.length_append, List.length_singleton]
      omega

end Driving

end Execution

end Vetting
