import Vetting.Proofs.Run.Steps

/-!
Contract: what an execution makes of a store, whatever has been stored before.

Owns:
- `Performed`: a run has been entered, some of its steps have been taken, and the run is open or
  has been closed with the summary of what is stored;
- `Store.Proceeds`: steps have been taken, and what they have left at work;
- that every execution which is not cut short performs the run in this sense, and leaves at work only
  a step that waits for its job.

Does not own: what one step makes of a store (`Vetting.Proofs.Run.Steps`), and which steps are taken in
which order (`Vetting.Proofs.Run.Driving`).

An execution may go on from any order at all, so nothing is said about the steps before it.
-/

namespace Vetting

open Execution
open Relation (ReflTransGen)

namespace Store

/-- Steps of a run have been taken.  What they have left at work is said, unless signals had been left
there before. -/
structure Proceeds (mayAnswer : (request : Request) → request.Answer → Prop) (equipment : Equipment)
    (run : Run) (left : StepRun → Prop) (before after : Store) : Prop where
  takes : ReflTransGen (Takes mayAnswer equipment run) before after
  furthers : before.Silent → before.Furthers left after

section Proceeding

variable {mayAnswer : (request : Request) → request.Answer → Prop} {equipment : Equipment} {run : Run}
  {left : StepRun → Prop} {before middle after : Store}

theorem Proceeds.refl (store : Store) : store.Proceeds mayAnswer equipment run left store :=
  ⟨.refl, fun _ => .refl store⟩

theorem Proceeds.imp {leftStill : StepRun → Prop}
    (proceeds : before.Proceeds mayAnswer equipment run left after)
    (imp : ∀ new, left new → leftStill new) :
    before.Proceeds mayAnswer equipment run leftStill after :=
  ⟨proceeds.takes, fun silent => (proceeds.furthers silent).imp imp⟩

theorem Proceeds.trans (first : before.Proceeds mayAnswer equipment run (fun _ => False) middle)
    (second : middle.Proceeds mayAnswer equipment run left after) :
    before.Proceeds mayAnswer equipment run left after where
  takes := first.takes.trans second.takes
  furthers := by
    intro silent
    have furthers := first.furthers silent
    exact furthers.trans (second.furthers (furthers.silent silent))

end Proceeding

end Store

namespace Execution

open Store (Serves Begins Takes Proceeds)

/-- A run is entered that is open, and runs from then on. -/
structure Enters (run entered : Run) : Prop where
  keeps : run.Keeps entered
  isOpen : run.status.isTerminal = false
  running : entered.status = .running

/-- A run has been closed, with the summary of what is stored, after steps have been taken. -/
inductive Closed (mayAnswer : (request : Request) → request.Answer → Prop)
    (equipment : Equipment) (before : Store) (run : Run) : Store → Prop
  | intro {middle : Store} {status : RunStatus} {error : Option String} {closed : Run}
      (takes : ReflTransGen (Takes mayAnswer equipment run) before middle)
      (terminal : status.isTerminal = true) (closes : run.Closes status error closed)
      (sums : middle.Sums closed) :
    Closed mayAnswer equipment before run (middle.withRun closed)

/-- What an execution of a run makes of a store. -/
inductive Performed (mayAnswer : (request : Request) → request.Answer → Prop)
    (equipment : Equipment) (store : Store) (run : Run) : Store → Prop
  /-- There is nothing to do. -/
  | idle : Performed mayAnswer equipment store run store
  /-- A step waits for its job, or somebody else has to do with it. -/
  | rests {entered : Run} {after : Store} (enters : Enters run entered)
      (takes : ReflTransGen (Takes mayAnswer equipment entered) (store.withRun entered) after) :
    Performed mayAnswer equipment store run after
  | closes {entered : Run} {after : Store} (enters : Enters run entered)
      (closed : Closed mayAnswer equipment (store.withRun entered) entered after) :
    Performed mayAnswer equipment store run after

section Executing

variable {mayAnswer : (request : Request) → request.Answer → Prop} {equipment : Equipment}
  {run : Run} {submission : Submission} {step : Step} {world : World}

theorem unwatched_watches (world : World) (request : Request) :
    (Regime.unwatched mayAnswer).watch world request := trivial

theorem anywhere_watches (world : World) (request : Request) (_ : Store.Any world.store) :
    (Regime.unwatched mayAnswer).watch world request := trivial

/-! ### Taking steps -/

theorem ensures_beginStep_begins (serves : world.store.Serves run) (step : Step) :
    Ensures (.unwatched mayAnswer) (beginStep run.id step) world
      (fun handle after => if handle.execute then
        world.store.Begins run step handle.stepRun after.store else after.store = world.store)
      fun _ _ => False := by
  cases found : world.store.stepRunOf? run.id step.key with
  | none =>
    apply ensures_beginStep_created anywhere_watches trivial found
    exact fun now => ⟨trivial, fun log clock => .created now found⟩
  | some stepRun =>
    obtain ⟨held, ofRun, ofStep⟩ := serves.coherent.held_of_stepRunOf? found
    by_cases rests : stepRun.status.isTerminal = true ∨ stepRun.awaitsJob = true
    · apply ensures_beginStep_existing anywhere_watches trivial found rests
      exact fun clock => rfl
    · rw [not_or, Bool.not_eq_true, Bool.not_eq_true] at rests
      obtain ⟨goesOn, idle⟩ := rests
      have running := running_of_not_terminal goesOn
      apply ensures_beginStep_restarted anywhere_watches trivial found held running idle
      exact fun now after rewrites => ⟨trivial, .again now held ofRun ofStep running idle rewrites⟩

/-- A fault breaks off the work on a run, and leaves the step run at work, if there is one, as it was
begun. -/
inductive Breaks (mayAnswer : (request : Request) → request.Answer → Prop)
    (equipment : Equipment) (run : Run) (before : Store) : Interruption → Store → Prop
  | between (fault : EngineFault) : Breaks mayAnswer equipment run before ⟨fault, none⟩ before
  | atWork {submission : Submission} {step : Step} {stepRun : StepRun} {after : Store}
      {fault : EngineFault}
      (submitted : before.submissions.get? run.submissionId = some submission)
      (member : step ∈ run.steps) (begins : before.Begins run step stepRun after)
      (concludes : Concludes mayAnswer equipment (after.contextIn run step stepRun submission) []
        (.faulted fault)) :
    Breaks mayAnswer equipment run before ⟨fault, some stepRun⟩ after

/-- A step that has begun is carried out.  It is left at work only if nothing is taken after it. -/
theorem ensures_carryOut_proceeds {before : Store} {stepRun : StepRun} (serves : before.Serves run)
    (submitted : before.submissions.get? run.submissionId = some submission)
    (member : step ∈ run.steps) (begins : before.Begins run step stepRun world.store) :
    Ensures (.unwatched mayAnswer)
      (during (some stepRun) do
        let signals ← collectSignals run.id step.order
        return progressAfter
          (← dispatch equipment ⟨run, step, stepRun, submission, signals⟩)) world
      (fun progress? after => before.Proceeds mayAnswer equipment run
        (fun left => progress?.isSome ∧ after.store.Awaits equipment run left) after.store)
      fun interruption after =>
        Breaks mayAnswer equipment run before interruption after.store := by
  have begun := begins.begun serves
  have work : AtWork (.unwatched mayAnswer) Store.Any world.store stepRun :=
    atWork_of_held unwatched_watches (begins.serves serves).writable begun.held
  rw [ensures_during, ensures_bind]
  apply ensures_collectSignals work
  rw [ensures_bind]
  simp only [ensures_pure]
  have sound : ∀ conclusion, Concludes mayAnswer equipment
      (world.store.contextIn run step stepRun submission) (world.store.issuesOf stepRun.id)
      conclusion →
      Concludes mayAnswer equipment (world.store.contextIn run step stepRun submission) []
        conclusion := by
    rw [begun.unrecorded]
    exact fun _ concludes => concludes
  refine ensures_dispatch work begun.running (fun _ _ _ _ _ => trivial) sound ⟨?_, ?_, ?_⟩
  · intro verdict ended after concludes ends
    have terminal := terminal_of_decided (concludes.decided verdict rfl)
    refine ⟨trivial, .single (.settled submitted member begins concludes (.ended verdict) ends), ?_⟩
    exact fun _ => (begins.furthers_ends ends terminal).imp fun _ => False.elim
  · rintro output _ findings after concludes rfl rewrites
    refine ⟨trivial, .single (.waits submitted member begins concludes rewrites), fun silent => ?_⟩
    refine (begins.furthers_waits serves silent submitted member concludes rewrites).imp
      fun _ awaits => ⟨?_, awaits⟩
    have stillRuns : (stepRun.leaving output).status = .running := begun.running
    rw [progressAfter, StepResult.ofStepRun, stillRuns]
    rfl
  · intro fault after concludes same
    rw [same]
    exact .atWork submitted member begins concludes

theorem ensures_takeStep_proceeds (serves : world.store.Serves run)
    (submitted : world.store.submissions.get? run.submissionId = some submission)
    (member : step ∈ run.steps) :
    Ensures (.unwatched mayAnswer) (takeStep equipment run submission step) world
      (fun progress? after => world.store.Proceeds mayAnswer equipment run
        (fun left => progress?.isSome ∧ after.store.Awaits equipment run left) after.store)
      fun interruption after =>
        Breaks mayAnswer equipment run world.store interruption after.store := by
  rw [takeStep, ensures_bind, ensures_during]
  refine (ensures_beginStep_begins serves step).imp ?_ fun _ _ => False.elim
  intro handle after begins
  rw [ensures_ite]
  refine ⟨fun executes => ?_, fun rests => ?_⟩
  · rw [if_pos executes] at begins
    exact ensures_carryOut_proceeds serves submitted member begins
  · rw [if_neg rests] at begins
    rw [ensures_pure, begins]
    exact .refl _

/-- Some steps are taken, and then a fault may break off the work on the next one. -/
theorem ensures_takeSteps_proceeds {steps : List Step} (serves : world.store.Serves run)
    (submitted : world.store.submissions.get? run.submissionId = some submission)
    (members : ∀ step ∈ steps, step ∈ run.steps) :
    Ensures (.unwatched mayAnswer) (takeSteps equipment run submission steps) world
      (fun _ after => world.store.Proceeds mayAnswer equipment run (after.store.Awaits equipment run)
        after.store)
      fun interruption after => ∃ middle,
        world.store.Proceeds mayAnswer equipment run (fun _ => False) middle ∧
          Breaks mayAnswer equipment run middle interruption after.store := by
  induction steps generalizing world with
  | nil => exact .refl _
  | cons step rest inductionHypothesis =>
    simp only [takeSteps, ensures_bind, ensures_during]
    refine (ensures_ask (Store.answer_cancelFlag serves.held)).mpr ⟨trivial, ?_⟩
    rw [ensures_ite]
    refine ⟨fun _ => .refl _, fun _ => ?_⟩
    rw [ensures_bind]
    refine (ensures_takeStep_proceeds serves submitted (members step (.head _))).imp ?_
      fun _ _ breaks => ⟨_, .refl _, breaks⟩
    intro progress? after proceeds
    cases progress? with
    | some progress => exact proceeds.imp fun _ => And.right
    | none =>
      have settles : world.store.Proceeds mayAnswer equipment run (fun _ => False) after.store :=
        proceeds.imp fun _ impossible => Bool.false_ne_true impossible.1
      have submittedAfter := submitted
      rw [← Store.submissions_of_takes proceeds.takes] at submittedAfter
      refine (inductionHypothesis (Store.serves_of_takes proceeds.takes serves) submittedAfter
        fun step later => members step (.tail _ later)).imp ?_ ?_
      · exact fun _ _ more => settles.trans more
      · rintro interruption last ⟨middle, more, breaks⟩
        exact ⟨middle, settles.trans more, breaks⟩

/-- Without its submission no step of a run is taken. -/
theorem ensures_drive_proceeds (serves : world.store.Serves run) (start : Int) :
    Ensures (.unwatched mayAnswer) (drive equipment run start) world
      (fun _ after => world.store.Proceeds mayAnswer equipment run (after.store.Awaits equipment run)
        after.store)
      fun interruption after => ∃ middle,
        world.store.Proceeds mayAnswer equipment run (fun _ => False) middle ∧
          Breaks mayAnswer equipment run middle interruption after.store := by
  rw [drive, ensures_bind, ensures_during, ensures_store]
  refine ⟨trivial, ?_⟩
  cases submitted : world.store.submissions.get? run.submissionId with
  | none =>
    simp only [Store.answer, submitted]
    exact ⟨_, .refl _, .between _⟩
  | some submission =>
    simp only [Store.answer, submitted]
    apply ensures_takeSteps_proceeds serves submitted
    exact fun step member => Run.mem_orderedSteps.mp (List.mem_filter.mp member).1

/-! ### Closing the run -/

/-- Closing a run leaves at work what has been left there, with the findings of the same input
assertions. -/
theorem ensures_closeRun_proceeds {before : Store} (serves : before.Serves run)
    (proceeds : before.Proceeds mayAnswer equipment run (world.store.Awaits equipment run) world.store)
    (isOpen : run.status.isTerminal = false) {status : RunStatus}
    (terminal : status.isTerminal = true) (error : Option String) :
    Ensures (.unwatched mayAnswer) (closeRun run.id status error) world
      (fun _ after => Closed mayAnswer equipment before run after.store ∧
        (before.Silent → before.Furthers (after.store.Awaits equipment run) after.store))
      fun _ _ => False := by
  have servesNow := Store.serves_of_takes proceeds.takes serves
  refine ensures_closeRun anywhere_watches servesNow.held trivial servesNow.writable isOpen ?_
    fun closed closes => ⟨trivial, fun sums log clock => ?_⟩
  · rintro rfl
    cases terminal
  · refine ⟨.intro proceeds.takes terminal closes sums, fun silent => ?_⟩
    exact ((proceeds.furthers silent).withRun closed).imp fun _ awaits => awaits.withRun closed

/-- When the work is broken off, the step at work fails, and the run with it. -/
theorem ensures_failRun_proceeds {before middle : Store} {interruption : Interruption}
    (serves : before.Serves run)
    (proceeds : before.Proceeds mayAnswer equipment run (fun _ => False) middle)
    (breaks : Breaks mayAnswer equipment run middle interruption world.store)
    (isOpen : run.status.isTerminal = false) :
    Ensures (.unwatched mayAnswer) (failRun run.id interruption) world
      (fun _ after => Closed mayAnswer equipment before run after.store ∧
        (before.Silent → before.Furthers (after.store.Awaits equipment run) after.store))
      fun _ _ => False := by
  obtain ⟨store, log, clock⟩ := world
  dsimp only at breaks
  cases breaks with
  | between fault =>
    exact ensures_closeRun_proceeds serves (proceeds.imp fun _ => False.elim) isOpen rfl _
  | @atWork submission step stepRun _ fault submitted member begins concludes =>
    have servesMiddle := Store.serves_of_takes proceeds.takes serves
    have begun := begins.begun servesMiddle
    have work : AtWork (.unwatched mayAnswer) Store.Any store stepRun :=
      atWork_of_held unwatched_watches (begins.serves servesMiddle).writable begun.held
    simp only [failRun, ensures_bind, ensures_tryCatch]
    apply ensures_failStep work begun.running fault
    intro ended after ends
    rw [begun.unrecorded] at ends
    have fails : middle.Proceeds mayAnswer equipment run (after.store.Awaits equipment run)
        after.store := by
      refine ⟨.single (.settled submitted member begins concludes (.faulted fault) ends), fun _ => ?_⟩
      exact (begins.furthers_ends ends rfl).imp fun _ => False.elim
    exact ⟨trivial, ensures_closeRun_proceeds serves (proceeds.trans fails) isOpen rfl _⟩

/-! ### Executing a run -/

/-- What an execution makes of a store, and what it leaves at work. -/
structure Performs (mayAnswer : (request : Request) → request.Answer → Prop) (equipment : Equipment)
    (store : Store) (run : Run) (after : Store) : Prop where
  performed : Performed mayAnswer equipment store run after
  furthers : store.Silent → store.Furthers (after.Awaits equipment run) after

/-- A run that has been entered is executed from there on. -/
theorem ensures_execute_enters {resumeFrom : Option Int} (serves : world.store.Serves run)
    (enters : Ensures (.unwatched mayAnswer) (enterRun run.id resumeFrom) world
      (fun outcome? after => outcome? = none ∧ ∃ entered, Enters run entered ∧
        after.store = world.store.withRun entered) fun _ _ => False) :
    Ensures (.unwatched mayAnswer) (execute equipment run.id resumeFrom) world
      (fun _ after => Performs mayAnswer equipment world.store run after.store)
      fun _ _ => False := by
  rw [execute, ensures_bind]
  refine enters.imp ?_ fun _ _ => False.elim
  rintro _ after ⟨rfl, entered, enters, same⟩
  have servesEntered := serves.withRun entered
  rw [← same] at servesEntered
  have isOpen : entered.status.isTerminal = false := by
    rw [enters.running]
    rfl
  have since : ∀ {last : Store},
      (after.store.Silent → after.store.Furthers (last.Awaits equipment entered) last) →
      world.store.Silent → world.store.Furthers (last.Awaits equipment run) last := by
    intro last furthers silent
    rw [same] at furthers
    exact (Store.furthers_withRun world.store entered).trans
      ((furthers silent).imp fun _ awaits => awaits.keeps enters.keeps)
  have closes : ∀ {last : Store}, Closed mayAnswer equipment after.store entered last ∧
      (after.store.Silent → after.store.Furthers (last.Awaits equipment entered) last) →
      Performs mayAnswer equipment world.store run last := by
    rintro last ⟨closed, furthers⟩
    refine ⟨?_, since furthers⟩
    rw [same] at closed
    exact .closes enters closed
  rw [← enters.keeps.id, ensures_bind]
  refine (ensures_ask (Store.answer_run servesEntered.held)).mpr ⟨trivial, ?_⟩
  rw [ensures_bind, ensures_lift, program_ensures_run]
  refine (ensures_drive_proceeds servesEntered _).imp ?_ ?_
  · intro progress last proceeds
    have closing : ∀ {status : RunStatus} {error : Option String}, status.isTerminal = true →
        Ensures (.unwatched mayAnswer) (closeRun entered.id status error) last
          (fun _ later => Performs mayAnswer equipment world.store run later.store)
          fun _ _ => False := fun terminal =>
      (ensures_closeRun_proceeds servesEntered proceeds isOpen terminal _).imp (fun _ _ => closes)
        fun _ _ => False.elim
    have resting : Ensures (.unwatched mayAnswer) (currentOutcome entered.id) last
        (fun _ later => Performs mayAnswer equipment world.store run later.store)
        fun _ _ => False := by
      apply ensures_currentOutcome anywhere_watches
        (Store.serves_of_takes proceeds.takes servesEntered).held trivial
      refine ⟨?_, since proceeds.furthers⟩
      have takes := proceeds.takes
      rw [same] at takes
      exact .rests enters takes
    cases progress with
    | completed | failed | canceled => exact closing rfl
    | pending | yielded => exact resting
  · rintro interruption last ⟨middle, proceeds, breaks⟩
    exact (ensures_failRun_proceeds servesEntered proceeds breaks isOpen).imp (fun _ _ => closes)
      fun _ _ => False.elim

/-- Every execution that is not cut short performs its run. -/
theorem ensures_execute_performed (serves : world.store.Serves run) (resumeFrom : Option Int) :
    Ensures (.unwatched mayAnswer) (execute equipment run.id resumeFrom) world
      (fun _ after => Performs mayAnswer equipment world.store run after.store)
      fun _ _ => False := by
  have inside : ∀ (world : World) (request : Request), Store.Any world.store →
      request.isOutside = false → (Regime.unwatched mayAnswer).watch world request :=
    fun _ _ _ _ => trivial
  have nothing : Performs mayAnswer equipment world.store run world.store :=
    ⟨.idle, fun _ => .refl world.store⟩
  cases resumeFrom with
  | none =>
    by_cases fresh : run.status = .pending
    · apply ensures_execute_enters serves
      apply ensures_enterRun_start anywhere_watches serves.held trivial fresh
      intro now
      have isOpen : run.status.isTerminal = false := by
        rw [fresh]
        rfl
      exact ⟨trivial, fun log clock =>
        ⟨rfl, started run now, ⟨keeps_started run now, isOpen, rfl⟩, rfl⟩⟩
    · exact ensures_execute_duplicate inside serves.held trivial fresh fun _ _ => nothing
  | some order =>
    by_cases status : run.status = .running
    · apply ensures_execute_enters serves
      apply ensures_enterRun_resume anywhere_watches serves.held trivial status order
      intro log clock
      have isOpen : run.status.isTerminal = false := by
        rw [status]
        rfl
      exact ⟨rfl, run, ⟨.refl run, isOpen, status⟩, (Store.withRun_of_held serves.held).symm⟩
    · exact ensures_execute_stopped inside serves.held trivial status order fun _ _ => nothing

end Executing

end Execution

end Vetting
