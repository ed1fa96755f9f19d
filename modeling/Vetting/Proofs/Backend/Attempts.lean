import Vetting.Proofs.Artifact.Containment
import Vetting.Proofs.Artifact.Filing
import Vetting.Rehearsal.Container

/-!
Contract: attempts whose containers share one directory of artifacts.

Owns:
- containers that stay in their working directory and depend on nothing but their order;
- what one attempt changes, and that its answer does not depend on those before it;
- the same for any history of attempts.

Does not own: how artifacts are written (`Vetting.Proofs.Artifact.Filing`).

An attempt may come again, also with another input.  Then it finds the files of the earlier one, but
it removes the output before its container runs.
-/

namespace Vetting

open Artifact (Directory attemptPlace attemptNamesOf)
open Files (FileTree Place PlainName)

/-! ### Containers -/

/-- The working directory of a container is there, with nothing in it but files. -/
def ContainerOrder.Shares (order : ContainerOrder) (work : Place) (tree : FileTree) : Prop :=
  tree.Opens order.workingDirectory work ∧ tree.Layered work 0

/-- What runs containers lets them change no more than the files of their working directory.  How they
end depends on nothing but their order, and what they leave in a file on nothing but their order and
that file. -/
structure ContainerRuntime.Confined (runtime : ContainerRuntime) : Prop where
  files : ∀ {order work tree}, order.Shares work tree → FileTree.Filed work tree (runtime.run order tree).2
  answers : ∀ {order work tree other}, order.Shares work tree → order.Shares work other →
    (runtime.run order tree).1 = (runtime.run order other).1
  leaves : ∀ {order work tree other name}, order.Shares work tree → order.Shares work other →
    tree.node? (work ++ [name]) = other.node? (work ++ [name]) →
    (runtime.run order tree).2.node? (work ++ [name]) =
      (runtime.run order other).2.node? (work ++ [name])

namespace ContainerBackend

theorem plainName_outputName : PlainName outputName :=
  ⟨by decide, by decide, by decide, by decide, by decide⟩

theorem plainName_configName : PlainName configName :=
  ⟨by decide, by decide, by decide, by decide, by decide⟩

/-- The three files of an attempt have different names. -/
theorem names_nodup (fileType : String) : [inputName fileType, configName, outputName].Nodup := by
  have starts : ∃ rest, (inputName fileType).toList = 'i' :: rest := by
    unfold inputName
    simp only
    split
    · exact ⟨_, rfl⟩
    · exact ⟨_, String.toList_append ..⟩
  obtain ⟨rest, isName⟩ := starts
  have different : ∀ other : String, other.toList.head? ≠ some 'i' → inputName fileType ≠ other := by
    rintro _ otherStart rfl
    exact otherStart (by rw [isName]; rfl)
  have notConfig : inputName fileType ≠ configName := different _ (by decide)
  have notOutput : inputName fileType ≠ outputName := different _ (by decide)
  have notEach : configName ≠ outputName := by decide
  simp [notConfig, notOutput, notEach]

section Attempt

variable {backend : ContainerBackend} {runtime : ContainerRuntime} {base : Place}
  {tree other after : FileTree} {request : JobRequest} {address : String}

/-! ### Before the container -/

/-- What is answered when the files of a job are put in place. -/
def prepareAnswer (backend : ContainerBackend) (request : JobRequest) : Except BackendFault String := do
  let address ← backend.directory.writeAnswer request (inputName request.fileType)
  let _ ← backend.directory.writeAnswer request configName
  return address

/-- The files of a job are in place, and there is no output. -/
structure Prepared (backend : ContainerBackend) (base : Place) (request : JobRequest) (tree : FileTree) :
    Prop where
  opened : backend.directory.Opened base request tree
  fits : ∀ name ∈ [inputName request.fileType, configName, outputName],
    FileTree.Fits (backend.directory.attemptPath request) name
  noOutput : tree.node? (attemptPlace base request ++ [outputName]) = none

theorem prepare_spec (tended : backend.directory.Tended base tree) (request : JobRequest) :
    ∃ after, backend.prepare request tree = (backend.prepareAnswer request, after) ∧
      FileTree.Touched (attemptPlace base request) tree after ∧
      backend.directory.Tended base after ∧
      ∀ address, backend.prepareAnswer request = .ok address → backend.Prepared base request after := by
  obtain ⟨middle, written, touched, tendedMiddle, opened⟩ :=
    tended.write request (plainName_inputName request.fileType) request.input
  obtain ⟨after, writtenConfig, touchedAfter, tendedAfter, openedAfter⟩ :=
    tendedMiddle.write request plainName_configName request.config.compact.toUTF8
  unfold prepare prepareAnswer
  simp only [written]
  cases isAnswer : backend.directory.writeAnswer request (inputName request.fileType) with
  | error fault => exact ⟨middle, rfl, touched, tendedMiddle, nofun⟩
  | ok address =>
    simp only [writtenConfig]
    cases isConfig : backend.directory.writeAnswer request configName with
    | error fault => exact ⟨after, rfl, touched.trans touchedAfter, tendedAfter, nofun⟩
    | ok configAddress =>
      obtain ⟨fits, _⟩ := opened address isAnswer
      obtain ⟨fitsConfig, openedAfter⟩ := openedAfter configAddress isConfig
      have fitsOutput : FileTree.Fits (backend.directory.attemptPath request) outputName :=
        fitsConfig.of_size_eq (by decide)
      have removed := openedAfter.attempt.removeFile_joined openedAfter.onlyFiles plainName_outputName fitsOutput
      rw [← backend.directory.pathOfKey_keyOf request plainName_outputName] at removed
      obtain ⟨filed, noOutput⟩ := removed
      have openedLast := openedAfter.of_filed filed
      refine ⟨_, rfl, (touched.trans touchedAfter).trans (.of_filed filed), openedLast.tended,
        fun _ _ => ⟨openedLast, ?_, noOutput⟩⟩
      simp [fits, fitsConfig, fitsOutput]

/-! ### One attempt -/

theorem order_workingDirectory (backend : ContainerBackend) (request : JobRequest) (image : String) :
    (backend.order request image).workingDirectory = backend.directory.attemptPath request := by
  simp only [order, backend.directory.parent?_pathOfKey request plainName_outputName]
  rfl

theorem Prepared.shares (prepared : backend.Prepared base request tree) (image : String) :
    (backend.order request image).Shares (attemptPlace base request) tree := by
  refine ⟨?_, prepared.opened.onlyFiles⟩
  rw [order_workingDirectory]
  exact prepared.opened.attempt

/-- The envelope that is found depends only on the file at the place of the output. -/
theorem envelope_congr (opened : backend.directory.Opened base request tree)
    (openedOther : backend.directory.Opened base request other)
    (fits : FileTree.Fits (backend.directory.attemptPath request) outputName)
    (same : tree.node? (attemptPlace base request ++ [outputName]) =
      other.node? (attemptPlace base request ++ [outputName])) :
    backend.envelope request tree = backend.envelope request other := by
  have isRead := opened.attempt.read_joined opened.onlyFiles plainName_outputName fits
  have isReadOther := openedOther.attempt.read_joined openedOther.onlyFiles plainName_outputName fits
  unfold envelope
  simp only [backend.directory.pathOfKey_keyOf request plainName_outputName, isRead, isReadOther, same]

theorem response_envelope (backend : ContainerBackend) (request : JobRequest)
    (executionId inputUri : String) (ended : ContainerExit) (durationSeconds : Float) (tree : FileTree) :
    (backend.response request executionId inputUri ended durationSeconds tree).envelope? =
      (backend.envelope request tree).toOption := by
  simp only [response]

/-- An envelope that is found is that of the file at the place of the output. -/
theorem exists_output (opened : backend.directory.Opened base request tree)
    (fits : FileTree.Fits (backend.directory.attemptPath request) outputName) {envelope : Envelope}
    (found : (backend.envelope request tree).toOption = some envelope) :
    ∃ bytes, tree.node? (attemptPlace base request ++ [outputName]) = some (.file bytes) ∧
      Json.decodeBytes Envelope bytes = .ok envelope := by
  have isRead := opened.attempt.read_joined opened.onlyFiles plainName_outputName fits
  unfold ContainerBackend.envelope at found
  simp only [backend.directory.pathOfKey_keyOf request plainName_outputName, isRead] at found
  cases isNode : tree.node? (attemptPlace base request ++ [outputName]) with
  | none =>
    rw [isNode] at found
    cases found
  | some node =>
    obtain ⟨bytes, rfl⟩ := opened.onlyFiles.isFile isNode
    rw [isNode] at found
    refine ⟨bytes, rfl, ?_⟩
    cases decoded : Json.decodeBytes Envelope bytes with
    | error fault =>
      simp [decoded, Except.mapError, bind, Except.bind, Except.toOption] at found
    | ok other =>
      simp [decoded, Except.mapError, bind, Except.bind, Except.toOption] at found
      rw [found]

theorem plainName_of_mem_names {name fileType : String}
    (member : name ∈ [inputName fileType, configName, outputName]) : PlainName name := by
  simp only [List.mem_cons, List.not_mem_nil, or_false] at member
  rcases member with rfl | rfl | rfl
  · exact plainName_inputName fileType
  · exact plainName_configName
  · exact plainName_outputName

/-- The image of the container that carries out a job and the address of its input, if it comes so
far. -/
def begun (backend : ContainerBackend) (request : JobRequest) : Except BackendFault (String × String) := do
  let image ← image request
  let address ← backend.prepareAnswer request
  return (image, address)

/-- A job ends before its container runs, or with how its container ends. -/
theorem execute_spec (runtime : ContainerRuntime) (tended : backend.directory.Tended base tree) (id : Uuid)
    (durationSeconds : Float) (request : JobRequest) :
    ∃ between, FileTree.Touched (attemptPlace base request) tree between ∧
      backend.directory.Tended base between ∧
      match backend.begun request with
      | .error fault => backend.execute runtime id durationSeconds request tree = (.error fault, between)
      | .ok (image, address) =>
        backend.Prepared base request between ∧
          let ran := runtime.run (backend.order request image) between
          backend.execute runtime id durationSeconds request tree =
            (ran.1.map fun ended =>
              backend.response request ("local-" ++ id.text) address ended durationSeconds ran.2, ran.2) := by
  unfold begun execute
  cases image request with
  | error fault => exact ⟨tree, .refl _ tree, tended, rfl⟩
  | ok image =>
    obtain ⟨between, isPrepared, touched, tendedBetween, prepared⟩ := backend.prepare_spec tended request
    refine ⟨between, touched, tendedBetween, ?_⟩
    simp only [isPrepared]
    cases isAnswer : backend.prepareAnswer request with
    | error fault => rfl
    | ok address =>
      refine ⟨prepared address isAnswer, ?_⟩
      simp only
      rcases runtime.run (backend.order request image) between with ⟨_ | _, after⟩ <;> rfl

/-- An attempt changes the files of its own directory, and its root is tended afterwards. -/
theorem touched_execute (confined : runtime.Confined) (tended : backend.directory.Tended base tree)
    (id : Uuid) (durationSeconds : Float) (request : JobRequest) :
    FileTree.Touched (attemptPlace base request) tree
        (backend.execute runtime id durationSeconds request tree).2 ∧
      backend.directory.Tended base (backend.execute runtime id durationSeconds request tree).2 := by
  obtain ⟨between, touched, tendedBetween, executed⟩ :=
    execute_spec runtime tended id durationSeconds request
  cases isBegun : backend.begun request with
  | error fault =>
    rw [isBegun] at executed
    rw [executed]
    exact ⟨touched, tendedBetween⟩
  | ok start =>
    rw [isBegun] at executed
    obtain ⟨prepared, executed⟩ := executed
    have filed := confined.files (prepared.shares start.1)
    rw [executed]
    exact ⟨touched.trans (.of_filed filed), (prepared.opened.of_filed filed).tended⟩

/-- What an attempt is answered does not depend on the attempts before it. -/
theorem execute_congr (confined : runtime.Confined) (tended : backend.directory.Tended base tree)
    (tendedOther : backend.directory.Tended base other) (id : Uuid) (durationSeconds : Float)
    (request : JobRequest) :
    (backend.execute runtime id durationSeconds request tree).1 =
      (backend.execute runtime id durationSeconds request other).1 := by
  obtain ⟨between, _, _, executed⟩ := execute_spec runtime tended id durationSeconds request
  obtain ⟨elsewhere, _, _, executedOther⟩ := execute_spec runtime tendedOther id durationSeconds request
  cases isBegun : backend.begun request with
  | error fault =>
    rw [isBegun] at executed executedOther
    rw [executed, executedOther]
  | ok start =>
    obtain ⟨image, address⟩ := start
    rw [isBegun] at executed executedOther
    obtain ⟨prepared, executed⟩ := executed
    obtain ⟨preparedOther, executedOther⟩ := executedOther
    have shares := prepared.shares image
    have sharesOther := preparedOther.shares image
    have sameEnd := confined.answers shares sharesOther
    have opened := prepared.opened.of_filed (confined.files shares)
    have openedOther := preparedOther.opened.of_filed (confined.files sharesOther)
    -- both containers find no output, and so leave the same one
    have sameOutput := confined.leaves shares sharesOther
      (prepared.noOutput.trans preparedOther.noOutput.symm)
    have sameEnvelope := envelope_congr opened openedOther (prepared.fits outputName (by simp)) sameOutput
    rw [executed, executedOther]
    simp only [sameEnd, response, sameEnvelope]

/-- The files of an attempt that is answered are different ones, and the envelope that is answered was
left by its own container, which found no output. -/
theorem answered_execute (confined : runtime.Confined) (tended : backend.directory.Tended base tree)
    {id : Uuid} {durationSeconds : Float} {response : JobResponse}
    (answered : (backend.execute runtime id durationSeconds request tree).1 = .ok response) :
    let after := (backend.execute runtime id durationSeconds request tree).2
    (∀ name ∈ [inputName request.fileType, configName, outputName],
      after.locate .target (backend.directory.pathOfKey (Artifact.keyOf request name)) =
        .ok (attemptPlace base request ++ [name])) ∧
    ∀ envelope, response.envelope? = some envelope → ∃ image between bytes,
      between.node? (attemptPlace base request ++ [outputName]) = none ∧
      (runtime.run (backend.order request image) between).2 = after ∧
      after.node? (attemptPlace base request ++ [outputName]) = some (.file bytes) ∧
      Json.decodeBytes Envelope bytes = .ok envelope := by
  obtain ⟨between, _, _, executed⟩ := execute_spec runtime tended id durationSeconds request
  cases isBegun : backend.begun request with
  | error fault =>
    rw [isBegun] at executed
    rw [executed] at answered
    cases answered
  | ok start =>
    obtain ⟨image, address⟩ := start
    rw [isBegun] at executed
    obtain ⟨prepared, executed⟩ := executed
    have opened := prepared.opened.of_filed (confined.files (prepared.shares image))
    rw [executed] at answered ⊢
    constructor
    · intro name member
      have plain := plainName_of_mem_names member
      rw [backend.directory.pathOfKey_keyOf request plain,
        opened.attempt.locate_joined plain (by decide) (opened.onlyFiles.ne_link name),
        if_pos (prepared.fits name member)]
    · intro envelope found
      cases isEnd : (runtime.run (backend.order request image) between).1 with
      | error fault =>
        rw [isEnd] at answered
        cases answered
      | ok ended =>
        rw [isEnd] at answered
        obtain rfl := Except.ok.inj answered
        rw [response_envelope] at found
        obtain ⟨bytes, isFile, decoded⟩ := exists_output opened (prepared.fits outputName (by simp)) found
        exact ⟨image, between, bytes, prepared.noOutput, rfl, isFile, decoded⟩

end Attempt

/-! ### Histories of attempts -/

/-- A job that is carried out, under an identifier that nothing else has. -/
structure Job where
  id : Uuid
  durationSeconds : Float
  request : JobRequest

/-- Carries out a job. -/
def perform (backend : ContainerBackend) (runtime : ContainerRuntime) (job : Job) (tree : FileTree) :
    Except BackendFault JobResponse × FileTree :=
  backend.execute runtime job.id job.durationSeconds job.request tree

/-- The files when jobs have been carried out one after the other. -/
def afterAll (backend : ContainerBackend) (runtime : ContainerRuntime) (jobs : List Job)
    (tree : FileTree) : FileTree :=
  jobs.foldl (fun tree job => (backend.perform runtime job tree).2) tree

section History

variable {backend : ContainerBackend} {runtime : ContainerRuntime} {base : Place} {tree : FileTree}

/-- After any attempts there are only attempts and their files under the root. -/
theorem tended_afterAll (confined : runtime.Confined) (tended : backend.directory.Tended base tree)
    (jobs : List Job) : backend.directory.Tended base (backend.afterAll runtime jobs tree) := by
  induction jobs generalizing tree with
  | nil => exact tended
  | cons job later inductionHypothesis =>
    exact inductionHypothesis (touched_execute confined tended _ _ _).2

/-- Attempts do not see the files of each other.  After any history over a root that was empty, an
attempt changes only files of its own directory, besides making directories; its input, its configuration
and its output are different files; it is answered as if the root were empty; and an envelope that it is
answered with was left by its own container, which found no output. -/
theorem attempts_apart (confined : runtime.Confined)
    (starts : backend.directory.StartsEmpty base tree) (earlier : List Job) (job : Job) :
    let before := backend.afterAll runtime earlier tree
    let outcome := backend.perform runtime job before
    let work := base ++ ["runs", job.request.runId.text, job.request.stepRunId.text,
      toString job.request.attempt]
    (∀ place, outcome.2.node? place = before.node? place ∨
      (before.node? place = none ∧ outcome.2.node? place = some .directory) ∨
        ∃ name, place = work ++ [name] ∧ ∀ node,
          before.node? place = some node ∨ outcome.2.node? place = some node →
            ∃ bytes, node = .file bytes) ∧
    [inputName job.request.fileType, configName, outputName].Nodup ∧
    (∀ response, outcome.1 = .ok response →
      ∀ name ∈ [inputName job.request.fileType, configName, outputName],
        outcome.2.locate .target (backend.directory.pathOfKey (Artifact.keyOf job.request name)) =
          .ok (work ++ [name])) ∧
    (∀ empty, backend.directory.StartsEmpty base empty →
      outcome.1 = (backend.perform runtime job empty).1) ∧
    ∀ response envelope, outcome.1 = .ok response → response.envelope? = some envelope →
      ∃ image between bytes, between.node? (work ++ [outputName]) = none ∧
        (runtime.run (backend.order job.request image) between).2 = outcome.2 ∧
        outcome.2.node? (work ++ [outputName]) = some (.file bytes) ∧
        Json.decodeBytes Envelope bytes = .ok envelope := by
  intro before outcome work
  have tended : backend.directory.Tended base before :=
    tended_afterAll confined (Directory.tended_of_startsEmpty starts) earlier
  obtain ⟨touched, tendedAfter⟩ := touched_execute confined tended job.id job.durationSeconds job.request
  refine ⟨fun place => ?_, names_nodup _, ?_, ?_, ?_⟩
  · rcases touched.node place with same | made | ⟨name, isPlace⟩
    · exact .inl same
    · exact .inr (.inl made)
    · refine .inr (.inr ⟨name, isPlace, fun node present => ?_⟩)
      rw [isPlace] at present
      exact present.elim tended.isFile tendedAfter.isFile
  · intro response answered
    exact (answered_execute confined tended answered).1
  · intro empty startsEmpty
    exact execute_congr confined tended (Directory.tended_of_startsEmpty startsEmpty) _ _ _
  · intro response envelope answered
    exact (answered_execute confined tended answered).2 envelope

end History

end ContainerBackend

end Vetting

namespace Vetting.Rehearsal.ContainerDouble

open Files (FileTree Place)

/-- What a double leaves. -/
theorem node?_run {double : ContainerDouble} {order : ContainerOrder} {work : Place} {tree : FileTree}
    (shares : order.Shares work tree) :
    (double.runtime.run order tree).2 = match double.output? with
      | some bytes =>
        if FileTree.Fits order.workingDirectory ContainerBackend.outputName then
          tree.set (work ++ [ContainerBackend.outputName]) (.file bytes)
        else tree
      | none => tree := by
  simp only [runtime]
  cases double.output? with
  | none => rfl
  | some bytes =>
    simp only [shares.1.write_joined shares.2 ContainerBackend.plainName_outputName bytes]
    split <;> rfl

/-- Doubles that are chosen by the order stay in their working directory. -/
theorem confined (doubleOf : ContainerOrder → ContainerDouble) :
    ContainerRuntime.Confined ⟨true, fun order => (doubleOf order).runtime.run order⟩ := by
  refine ⟨fun shares => ?_, fun _ _ => rfl, fun shares sharesOther same => ?_⟩
  · simp only [node?_run shares]
    split
    · split
      · exact FileTree.filed_set shares.2 _ _
      · exact .refl shares.2
    · exact .refl shares.2
  · simp only [node?_run shares, node?_run sharesOther]
    split
    · split
      · rw [FileTree.node?_set (by simp), FileTree.node?_set (by simp), same]
      · exact same
    · exact same

end Vetting.Rehearsal.ContainerDouble

namespace Vetting.Example

open Artifact Files ContainerBackend

/-- A machine with an empty directory of artifacts. -/
def storehouse : FileTree where
  nodes := [(["srv"], .directory), (["srv", "artifacts"], .directory)]
  workingDirectory := ["srv"]

def keeper : ContainerBackend := ⟨⟨"artifacts"⟩, 300000⟩

theorem startsEmpty_storehouse :
    keeper.directory.StartsEmpty ["srv", "artifacts"] storehouse := by
  refine Directory.startsEmpty_of_opens ⟨.inr (eq_ok_of_toOption (by decide +kernel)), rfl⟩
    (by decide +kernel) fun rest nonempty => ?_
  simp [storehouse, FileTree.node?, Table.get?, nonempty]

/-- A container that leaves an output if its image is the one that does. -/
def container : ContainerRuntime where
  available := true
  run order :=
    let output? := if order.image = "writer" then some "{}".toUTF8 else none
    (Rehearsal.ContainerDouble.mk true output? (.ok ⟨some 0, ""⟩)).runtime.run order

/-- The same attempt, with an image. -/
def job (image : String) : Job where
  id := .zero
  durationSeconds := 0
  request := {
    runId := .zero, stepRunId := .zero, stepKey := "check", attempt := 1, validatorType := "external"
    config := .object [("image", .text image)], fileType := "../json", input := "[]".toUTF8
    idempotencyKey := "k" }

/-- An attempt is answered as over the empty directory after an earlier one of the same name, whose
container left an output. -/
theorem apart_storehouse :
    container.Confined ∧ keeper.directory.StartsEmpty ["srv", "artifacts"] storehouse ∧
      (keeper.perform container (job "reader")
        (keeper.afterAll container [job "writer"] storehouse)).1 =
        (keeper.perform container (job "reader") storehouse).1 := by
  have confined : container.Confined := Rehearsal.ContainerDouble.confined _
  have apart := attempts_apart confined startsEmpty_storehouse [job "writer"] (job "reader")
  exact ⟨confined, startsEmpty_storehouse, apart.2.2.2.1 storehouse startsEmpty_storehouse⟩

end Vetting.Example
