import Vetting.Rehearsal.Machine

/-!
Contract: rehearsing backends.

Owns:
- doubles of what runs containers;
- records of jobs that a container backend, a remote backend or a selected backend
  carries out, and of containers that a command runs.

Does not own: the backends.
-/

namespace Vetting.Rehearsal

open Json (Value)
open Files (FileTree)

/-- What stands in for a container. -/
structure ContainerDouble where
  available : Bool
  /-- What the container leaves as its output. -/
  output? : Option ByteArray
  outcome : Except BackendFault ContainerExit

namespace ContainerDouble

/-- The double as what runs containers. -/
def runtime (double : ContainerDouble) : ContainerRuntime where
  available := double.available
  run order tree :=
    let path := Files.joined order.workingDirectory ContainerBackend.outputName
    let tree := match double.output? with
      | some bytes => (tree.write path bytes).toOption.getD tree
      | none => tree
    (double.outcome, tree)

end ContainerDouble

def orderValue (order : ContainerOrder) : Value := .ofEntries [
  ("name", .text order.name),
  ("image", .text order.image),
  ("workdir", .text order.workingDirectory),
  ("env", .array (order.environment.map fun (name, value) => .array [.text name, .text value])),
  ("timeout_ms", .natural order.timeoutMs)]

/-- The order that a job comes to, if it comes so far. -/
private def orders (backend : ContainerBackend) (request : JobRequest) (tree : FileTree) :
    List ContainerOrder :=
  match ContainerBackend.image request, (backend.prepare request tree).1 with
  | .ok image, .ok _ => [backend.order request image]
  | _, _ => []

private def settled (result : Except BackendFault Value) : Value :=
  match result with
  | .ok value => value
  | .error fault => Record.ofBackendFault fault

/-- Carries out a job once for each double, over the same files. -/
def containerRecord (timeoutMs : Nat) (request : JobRequest) (doubles : List ContainerDouble) :
    Value :=
  let backend : ContainerBackend := ⟨⟨rootDirectory⟩, timeoutMs⟩
  let one (double : ContainerDouble) : StateM FileTree Value := do
    let specs := orders backend request (← get)
    let result ← backend.execute double.runtime .zero 0 request
    let named := result.map fun response =>
      responseValue { response with executionId := "local-\x7buuid\x7d" }
    return .ofEntries [
      ("name", .text ContainerBackend.name), ("available", .boolean double.available),
      ("result", settled named), ("specs", .array (specs.map orderValue)),
      ("files", filesValue (← get) rootDirectory)]
  marked (.array ((doubles.mapM one).run initialTree).1)

/-- A command that runs containers: whether its program and the working directory are there, and the
script that it stands for. -/
structure CommandDouble where
  hasProgram : Bool
  hasDirectory : Bool
  script : String

/-- Asks a command whether it is available, and then to run a container. -/
def commandRecord (double : CommandDouble) (order : ContainerOrder) : Value :=
  let directory := rootDirectory ++ "/work"
  let program := rootDirectory ++ "/cli"
  let notes := rootDirectory ++ "/calls"
  let command := Script.scripted program notes directory double.script
  let tree := if double.hasDirectory then (initialTree.makeDirectories directory).2 else initialTree
  let tree :=
    if double.hasProgram then (tree.write program .empty).toOption.getD tree else tree
  let (available, tree) := command.isAvailable tree
  let (result, tree) := command.run { order with workingDirectory := directory } tree
  let lines := Text.pieces '\n' (contentText ((tree.read notes).toOption.getD .empty))
  marked (.ofEntries [
    ("available", .boolean available),
    ("result", settled (result.map fun ended => .ofEntries [
      ("code", .ofOption Value.integer ended.code?), ("stderr", .text ended.complaints),
      ("success", .boolean ended.isSuccess)])),
    ("calls", .array (lines.dropLast.map Value.text))])

/-- Hands a job to a service that accepts it under a name or refuses it; artifacts are in memory. -/
def remoteRecord (callbackUrl : String) (service : Except BackendFault String)
    (request : JobRequest) : Value :=
  let submit (notice : JobNotice) :
      StateM (Artifact.Shelf × List JobNotice) (Except BackendFault String) := do
    modify fun (shelf, notices) => (shelf, notices ++ [notice])
    let count := (← get).2.length
    return service.map fun name => name ++ "-" ++ toString count
  let store := Artifact.ArtifactStore.inMemory
  let backend : RemoteBackend (StateM (Artifact.Shelf × List JobNotice)) := {
    callbackUrl, submit
    artifacts := {
      address := store.address
      read := fun address state => ((store.read address state.1).1, state)
      write := fun key bytes state =>
        let (result, shelf) := store.write key bytes state.1
        (result, (shelf, state.2)) } }
  let (result, shelf, notices) := (backend.execute request).run ([], [])
  let stored (response : JobResponse) : Value :=
    .ofOption (fun bytes => .text (Text.Hexadecimal.ofBytes bytes))
      (Dictionary.lookup? response.inputUri shelf)
  .ofEntries [
    ("name", .text RemoteBackend.name), ("available", .boolean backend.isAvailable),
    ("result", settled (result.map fun response =>
      .ofEntries [("response", responseValue response), ("stored", stored response)])),
    ("jobs", .array (notices.map JobNotice.toValue))]

/-- Tells a service about a job over the web, where no message gets through. -/
def serviceRecord (service : JobService) (notice : JobNotice) : Value := .ofEntries [
  ("jobs_url", .text service.jobsUrl), ("result", Record.ofBackendFault (service.unsent notice))]

/-- What is selected by settings, and why it refuses a job if it is not available. -/
def selectionRecord (settings : BackendSettings) (request : JobRequest) : Value :=
  let selected := SelectedBackend.ofSettings settings
  let refusal? := match selected, selected.execute machine .zero 0 request with
    | .unavailable _, .error fault => some fault
    | _, _ => none
  .ofEntries [
    ("kind", .text settings.kind.name), ("name", .text selected.name),
    ("available", .boolean (selected.isAvailable machine)),
    ("jobs_url", .optionalText (settings.remoteEndpoint?.map fun endpoint =>
      JobService.jobsUrl ⟨endpoint, none⟩)),
    ("execute", .ofOption Record.ofBackendFault refusal?)]

end Vetting.Rehearsal
