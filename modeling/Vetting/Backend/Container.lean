import Vetting.Artifact.Directory
import Vetting.Text.Blank

/-!
Contract: a backend that carries out each job in a container on the same machine.

Owns:
- the files that a container finds in its working directory, and the one it leaves;
- what a container is run with, and how it ends;
- the answer to a job.

Does not own: how a container is run (`Vetting.Backend.ContainerCommand`).

The working directory of an attempt is shared with the container.  An output that
an earlier container has left there is removed before the next one runs, so that it
is never taken for a result.
-/

namespace Vetting

open Json (Value)
open Files (FileTree)
open Artifact (Directory)

/-- What a container is run with. -/
structure ContainerOrder where
  /-- The name by which the container can be removed. -/
  name : String
  image : String
  /-- The directory that is shared with the container. -/
  workingDirectory : String
  environment : List (String × String)
  timeoutMs : Nat
deriving DecidableEq, Inhabited

/-- How a container ends. -/
structure ContainerExit where
  /-- None if a signal has ended it. -/
  code? : Option Int
  complaints : String
deriving DecidableEq, Inhabited

def ContainerExit.isSuccess (ended : ContainerExit) : Bool := ended.code? == some 0

/-- What runs containers.  A container may change files. -/
structure ContainerRuntime where
  available : Bool
  run : ContainerOrder → FileTree → Except BackendFault ContainerExit × FileTree

/-- The settings of a backend that runs containers. -/
structure ContainerBackend where
  directory : Directory
  timeoutMs : Nat
deriving Inhabited

namespace ContainerBackend

def name : String := "local"

/-- Where a container sees its working directory. -/
def mountPoint : String := "/work"

def outputName : String := "output.json"

def configName : String := "config.json"

/-- The name of the input: its ending holds the letters and digits of the file type. -/
def inputName (fileType : String) : String :=
  let ending := String.ofList (fileType.toList.filter Char.isAlphanum)
  if ending = "" then "input.bin" else "input." ++ ending

/-- The image that the configuration of a job names. -/
def image (request : JobRequest) : Except BackendFault String :=
  match request.config.get? "image" with
  | some (.text image) => .ok image
  | _ => .error (.runtime
      ("validator '" ++ request.validatorType ++ "' has no container image configured"))

def order (backend : ContainerBackend) (request : JobRequest) (image : String) :
    ContainerOrder where
  name := "valflow-" ++ request.stepRunId.text ++ "-" ++ toString request.attempt
  image
  workingDirectory :=
    let output := backend.directory.pathOfKey (Artifact.keyOf request outputName)
    (Files.parent? output).getD backend.directory.root
  environment := [
    ("VALFLOW_INPUT", mountPoint ++ "/" ++ inputName request.fileType),
    ("VALFLOW_CONFIG", mountPoint ++ "/" ++ configName),
    ("VALFLOW_OUTPUT", mountPoint ++ "/" ++ outputName),
    ("VALFLOW_IDEMPOTENCY_KEY", request.idempotencyKey)]
  timeoutMs := backend.timeoutMs

/-- Puts the files of a job in place, and answers the address of its input. -/
def prepare (backend : ContainerBackend) (request : JobRequest) (tree : FileTree) :
    Except BackendFault String × FileTree :=
  let write (name : String) (bytes : ByteArray) :=
    backend.directory.write (Artifact.keyOf request name) bytes
  match write (inputName request.fileType) request.input tree with
  | (.error fault, tree) => (.error fault, tree)
  | (.ok inputUri, tree) =>
    match write configName request.config.compact.toUTF8 tree with
    | (.error fault, tree) => (.error fault, tree)
    | (.ok _, tree) =>
      let output := backend.directory.pathOfKey (Artifact.keyOf request outputName)
      (.ok inputUri, (tree.removeFile output).toOption.getD tree)

/-- The envelope that a container has left, or what is wrong with it. -/
def envelope (backend : ContainerBackend) (request : JobRequest) (tree : FileTree) :
    Except String Envelope := do
  let output := backend.directory.pathOfKey (Artifact.keyOf request outputName)
  let bytes ← (tree.read output).mapError fun fault =>
    "output envelope not readable: " ++ fault.message
  (Json.decodeBytes Envelope bytes).mapError fun fault =>
    "output envelope is malformed: " ++ fault.message

/-- What is said about a container that has failed and left no envelope. -/
def complaint (ended : ContainerExit) : String :=
  let complaints := Text.trimmed ended.complaints
  "container exited with " ++
    (match ended.code? with
      | some code => "code " ++ toString code
      | none => "a signal") ++
    (if complaints = "" then "" else ": " ++ complaints)

/-- The answer to a job whose container has ended. -/
def response (backend : ContainerBackend) (request : JobRequest) (executionId inputUri : String)
    (ended : ContainerExit) (durationSeconds : Float) (tree : FileTree) : JobResponse :=
  let envelope := backend.envelope request tree
  {
    executionId, inputUri
    outputUri := backend.directory.address (Artifact.keyOf request outputName)
    durationSeconds := some durationSeconds
    errorMessage := match envelope with
      | .ok _ => none
      | .error message => some (if ended.isSuccess then message else complaint ended)
    envelope? := envelope.toOption, isComplete := true }

/-- Carries out a job under an identifier that nothing else has. -/
def execute (backend : ContainerBackend) (runtime : ContainerRuntime) (id : Uuid)
    (durationSeconds : Float) (request : JobRequest) (tree : FileTree) :
    Except BackendFault JobResponse × FileTree :=
  match image request with
  | .error fault => (.error fault, tree)
  | .ok image =>
    match backend.prepare request tree with
    | (.error fault, tree) => (.error fault, tree)
    | (.ok inputUri, tree) =>
      match runtime.run (backend.order request image) tree with
      | (.error fault, tree) => (.error fault, tree)
      | (.ok ended, tree) =>
        (.ok (backend.response request ("local-" ++ id.text) inputUri ended durationSeconds tree),
          tree)

end ContainerBackend

end Vetting
