import Vetting.Proofs.Run.Conduct

/-!
Contract: the summary of a run that is closed.

Owns:
- `Store.Intact`: what belongs to a run is as it was;
- an operation on one run leaves all others intact, and its own one open or summed up;
- whatever is conducted, a closed run has the summary that would be built now.

Does not own: what is in a summary (`Vetting.Execution.Recording`).

A callback may settle a step of a run that is closed already, and then a new summary takes
the place of the old one.
-/

namespace Vetting

open Execution
open Relation (ReflTransGen)

namespace Store

/-! ### What belongs to another run -/

/-- What belongs to a run is as it was. -/
structure Intact (runId : Uuid) (before after : Store) : Prop where
  run : after.runs.get? runId = before.runs.get? runId
  stepRuns : after.stepRunsOf runId = before.stepRunsOf runId
  findings : after.findingsOfRun runId = before.findingsOfRun runId

section Sparing

variable {mayAnswer : (request : Request) → request.Answer → Prop} {equipment : Equipment}
  {runId : Uuid} {before middle after : Store} {run : Run} {stepRun : StepRun} {step : Step}

theorem Intact.refl (runId : Uuid) (store : Store) : Intact runId store store := ⟨rfl, rfl, rfl⟩

theorem Intact.trans (first : Intact runId before middle) (second : Intact runId middle after) :
    Intact runId before after :=
  ⟨second.run.trans first.run, second.stepRuns.trans first.stepRuns,
    second.findings.trans first.findings⟩

/-- A run that is intact has the summary that it had, of what there was and is. -/
theorem Intact.summedUp (intact : Intact runId before after) (coherent : before.Coherent)
    (summedUp : before.SummedUp runId) : after.SummedUp runId := by
  intro run held closed
  rw [intact.run] at held
  obtain rfl := coherent.runIds _ _ held
  obtain ⟨now, isSummary⟩ := summedUp run held closed
  refine ⟨now, ?_⟩
  rw [intact.stepRuns, intact.findings]
  exact isSummary

theorem intact_withRun (store : Store) (other : run.id ≠ runId) :
    Intact runId store (store.withRun run) where
  run := (Table.get?_set _ _ _ _).trans (if_neg other)
  stepRuns := rfl
  findings := rfl

theorem intact_putStepRun {created : StepRun} (fresh : before.stepRuns.get? created.id = none)
    (other : created.runId ≠ runId) :
    Intact runId before (before.putStepRun created) := by
  have values : (before.putStepRun created).stepRuns.values = before.stepRuns.values ++ [created] := by
    rw [Table.values, putStepRun, Table.set_eq_append fresh, List.map_append]
    rfl
  have stepRuns : (before.putStepRun created).stepRunsOf runId = before.stepRunsOf runId := by
    have elsewhere : [created].filter (fun stepRun => stepRun.runId = runId) = [] := by
      rw [List.filter_cons_of_neg (by simpa using other), List.filter_nil]
    rw [stepRunsOf, values, List.filter_append, elsewhere, List.append_nil, stepRunsOf]
  refine ⟨rfl, stepRuns, ?_⟩
  rw [findingsOfRun, stepRuns]
  rfl

theorem Rewrites.intact {old : StepRun} {findings : List Finding} (coherent : before.Coherent)
    (rewrites : Rewrites before stepRun findings after)
    (held : before.stepRuns.get? stepRun.id = some old) (sameRun : stepRun.runId = old.runId)
    (sameOrder : stepRun.stepOrder = old.stepOrder) (other : old.runId ≠ runId) :
    Intact runId before after := by
  have apart : ∀ member ∈ before.stepRunsOf runId, member.id ≠ stepRun.id := by
    intro member isMember same
    obtain ⟨heldMember, ofRun⟩ := coherent.mem_stepRunsOf.mp isMember
    rw [same, held] at heldMember
    obtain rfl := Option.some.inj heldMember
    exact other ofRun
  have stepRuns : after.stepRunsOf runId = before.stepRunsOf runId := by
    rw [rewrites.stepRunsOf coherent held sameRun sameOrder]
    conv => rhs; rw [← List.map_id (before.stepRunsOf runId)]
    exact List.map_congr_left fun member isMember => if_neg (apart member isMember)
  refine ⟨by rw [rewrites.runs], stepRuns, ?_⟩
  rw [findingsOfRun, findingsOfRun, stepRuns, List.flatMap_def, List.flatMap_def]
  refine congrArg List.flatten (List.map_congr_left fun member isMember => ?_)
  rw [rewrites.findings, if_neg fun same => apart member isMember same.symm]

theorem Ends.intact {verdict : Verdict} {ended : StepRun} (coherent : before.Coherent)
    (ends : Ends before stepRun verdict ended after)
    (held : before.stepRuns.get? stepRun.id = some stepRun) (other : stepRun.runId ≠ runId) :
    Intact runId before after := by
  obtain ⟨now, rfl⟩ := ends.record
  obtain ⟨findings, _, rewrites⟩ := ends.rewrites
  exact rewrites.intact coherent held rfl rfl other

theorem Begins.intact (begins : before.Begins run step stepRun after) (serves : before.Serves run)
    (other : run.id ≠ runId) : Intact runId before after := by
  cases begins with
  | created now absent => exact intact_putStepRun before.get?_freshId other
  | again now held ofRun _ _ _ rewrites =>
    exact rewrites.intact serves.coherent held rfl rfl (ofRun ▸ other)

theorem Takes.intact (takes : before.Takes mayAnswer equipment run after)
    (serves : before.Serves run) (other : run.id ≠ runId) : Intact runId before after := by
  cases takes with
  | settled _ _ begins _ _ ends =>
    have begun := begins.begun serves
    exact (begins.intact serves other).trans
      (ends.intact (begins.serves serves).coherent begun.held (begun.ofRun ▸ other))
  | waits _ _ begins _ rewrites =>
    have begun := begins.begun serves
    exact (begins.intact serves other).trans
      (rewrites.intact (begins.serves serves).coherent begun.held rfl rfl (begun.ofRun ▸ other))

theorem intact_of_takes (takes : ReflTransGen (Takes mayAnswer equipment run) before after)
    (serves : before.Serves run) (other : run.id ≠ runId) : Intact runId before after := by
  induction takes with
  | refl => exact .refl runId before
  | tail earlier takes inductionHypothesis =>
    exact inductionHypothesis.trans (takes.intact (serves_of_takes earlier serves) other)

end Sparing

end Store

open Store (Intact)

section Operations

variable {mayAnswer : (request : Request) → request.Answer → Prop} {equipment : Equipment}
  {store after : Store} {run : Run} {runId : Uuid}

theorem Execution.Performed.intact (performed : Performed mayAnswer equipment store run after)
    (serves : store.Serves run) (other : run.id ≠ runId) : Intact runId store after := by
  have entering : ∀ {entered : Run} {last : Store}, Enters run entered →
      ReflTransGen (Store.Takes mayAnswer equipment entered) (store.withRun entered) last →
      Intact runId store last := by
    intro entered last enters takes
    rw [← enters.keeps.id] at other
    exact (Store.intact_withRun store other).trans
      (Store.intact_of_takes takes (serves.withRun entered) other)
  cases performed with
  | idle => exact .refl runId store
  | rests enters takes => exact entering enters takes
  | closes enters closed =>
    obtain ⟨takes, _, closes, _⟩ := closed
    refine (entering enters takes).trans (Store.intact_withRun _ ?_)
    rw [closes.id, enters.keeps.id]
    exact other

/-- An execution leaves its run open, or closes it with the summary of what is stored then. -/
theorem Execution.Performed.summedUp (performed : Performed mayAnswer equipment store run after)
    (serves : store.Serves run) (summedUp : store.SummedUp run.id) : after.SummedUp run.id := by
  cases performed with
  | idle => exact summedUp
  | rests enters takes =>
    rw [← enters.keeps.id]
    apply Store.summedUp_of_open (Store.serves_of_takes takes (serves.withRun _)).held
    rw [enters.running]
    rfl
  | closes enters closed =>
    obtain ⟨_, _, closes, sums⟩ := closed
    rw [← enters.keeps.id, ← closes.id]
    exact Store.summedUp_withRun sums

theorem Execution.Answered.intact {stepRun : StepRun} {envelope : Envelope}
    {key? : Option String} {outcome : CallbackOutcome} (coherent : store.Coherent)
    (held : store.stepRuns.get? stepRun.id = some stepRun) (sameId : run.id = stepRun.runId)
    (answered : Answered equipment store run stepRun envelope key? outcome after)
    (other : stepRun.runId ≠ runId) : Intact runId store after := by
  cases answered with
  | refused => exact .refl runId store
  | taken _ applied =>
    have receipted : Intact runId store
        (store.withReceipts (receiptsWith store.receipts key?)) := ⟨rfl, rfl, rfl⟩
    obtain ⟨_, rfl⟩ | ⟨_, verdict, error, ended, middle, _, ends, reruns⟩ := applied.same_or_settles
    · exact receipted
    · have settled := receipted.trans (ends.intact (coherent.withReceipts _) held other)
      rcases reruns with ⟨rfl, _⟩ | ⟨later, keeps, _, rfl⟩
      · exact settled
      · refine settled.trans (Store.intact_withRun _ ?_)
        rw [keeps.id, sameId]
        exact other

theorem Execution.Canceled.intact (canceled : Canceled store run after) (other : run.id ≠ runId) :
    Intact runId store after := by
  cases canceled with
  | already => exact .refl runId store
  | closed _ closes =>
    refine Store.intact_withRun _ ?_
    rw [closes.id]
    exact other
  | flagged => exact Store.intact_withRun _ other

/-- Operations leave every run that is closed summed up. -/
theorem kept_summedUp : Kept equipment (fun _ => True) fun store => ∀ runId, store.SummedUp runId where
  performs := by
    intro store after run _ _ _ serves summedUp performed runId
    by_cases same : run.id = runId
    · rw [← same]
      exact performed.summedUp serves (summedUp run.id)
    · exact (performed.intact serves same).summedUp serves.coherent (summedUp runId)
  answers := by
    intro store after run stepRun envelope key? outcome _ _ serves held sameId summedUp answered own runId
    by_cases same : stepRun.runId = runId
    · rw [← same]
      exact own (summedUp stepRun.runId)
    · exact (answered.intact serves.coherent held sameId same).summedUp serves.coherent
        (summedUp runId)
  cancels := by
    intro store after run serves summedUp canceled own runId
    by_cases same : run.id = runId
    · rw [← same]
      exact own (summedUp run.id)
    · exact (canceled.intact same).summedUp serves.coherent (summedUp runId)

/-- Building the summary of a run that is there gives what it is made of. -/
theorem Execution.ensures_buildSummary {world : World} (held : world.store.runs.get? run.id = some run) :
    Ensures (.unwatched mayAnswer) (buildSummary run.id) world
      (fun summary _ => ∃ now, summary = summaryOf run (world.store.stepRunsOf run.id)
        (world.store.findingsOfRun run.id) now) fun _ _ => False := by
  simp only [buildSummary, ensures_bind]
  refine (ensures_ask (Store.answer_run held)).mpr ⟨trivial, ?_⟩
  refine (ensures_ask rfl).mpr ⟨trivial, ?_⟩
  refine (ensures_ask rfl).mpr ⟨trivial, ?_⟩
  rw [ensures_now]
  exact ⟨trivial, fun stamp clock => ⟨stamp.time, rfl⟩⟩

/-- Whatever has been conducted, a run that is closed has a summary, and it is the one that would be
built now, apart from when that is. -/
theorem summarized_of_conducted {origin world : World} {episodes : List Episode}
    (orderly : origin.store.Orderly) (summedUp : ∀ runId, origin.store.SummedUp runId)
    (conducted : Conducted equipment origin episodes world)
    (held : world.store.runs.get? runId = some run) (closed : run.status.isTerminal = true) :
    ∃ summary, run.summary? = some summary ∧ ∀ requests result last,
      (buildSummary runId).run.Runs mayAnswer world requests (some result) last →
      ∃ built, result = .ok built ∧ summary = { built with generatedAt := summary.generatedAt } := by
  obtain ⟨orderly, summedUp⟩ := conducted.keeps kept_summedUp (fun _ _ => trivial) orderly summedUp
  obtain rfl := orderly.coherent.runIds _ _ held
  obtain ⟨now, isSummary⟩ := summedUp run.id run held closed
  refine ⟨_, isSummary, fun requests result last runs => ?_⟩
  obtain ⟨built, rfl, later, rfl⟩ := runs.succeeds (ensures_buildSummary held)
  exact ⟨_, rfl, rfl⟩

end Operations

namespace Example

/-- The run that is there has not been closed. -/
theorem summedUp_store (runId : Uuid) : store.SummedUp runId := by
  intro held isHeld closed
  cases List.mem_singleton.mp (Table.mem_of_get? isHeld)
  cases closed

/-- The run is canceled after its first job has been accepted. -/
def abandoned : World := (World.runJob (surroundings accepted) (cancel run.id) (carriedOut accepted)).2

theorem conducted_abandoned : Conducted equipment world
    [episode accepted, ⟨.cancel run.id, (surroundings accepted).answers⟩] abandoned := by
  obtain ⟨_, cancels⟩ :=
    World.runs_runJob (surroundings accepted) (cancel run.id) (carriedOut accepted)
  exact (conducted_carriedOut accepted).invoked ⟨.cancel run.id, _⟩ cancels.forgetful

/-- The run that has been canceled while its job was at work has its summary. -/
theorem summarized_abandoned : ∃ closed summary,
    abandoned.store.runs.get? run.id = some closed ∧ closed.status = .canceled ∧
    closed.summary? = some summary ∧ ∀ requests result last,
      (buildSummary run.id).run.Runs (surroundings accepted).answers abandoned requests (some result)
        last →
      ∃ built, result = .ok built ∧ summary = { built with generatedAt := summary.generatedAt } := by
  have status : (abandoned.store.runs.get? run.id).map Run.status = some .canceled := by
    decide +kernel
  obtain ⟨closed, held, canceled⟩ := Option.map_eq_some_iff.mp status
  have terminal : closed.status.isTerminal = true := by
    rw [canceled]
    rfl
  obtain ⟨summary, isSummary, builds⟩ :=
    summarized_of_conducted orderly_store summedUp_store conducted_abandoned held terminal
  exact ⟨closed, summary, held, canceled, isSummary, builds⟩

end Example

end Vetting
