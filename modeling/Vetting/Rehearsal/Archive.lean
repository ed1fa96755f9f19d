import Vetting.Rehearsal.Machine

/-!
Contract: rehearsing stores of artifacts.

Owns:
- what may be asked of a store, and of the files around it;
- the record of the answers.

Does not own: the stores.
-/

namespace Vetting.Rehearsal

open Json (Value)
open Files (FileTree)
open Artifact (ArtifactStore Shelf)

/-- What may be asked of a store of artifacts and of the files around it. -/
inductive ArchiveRequest where
  | write (key : String) (bytes : ByteArray)
  | read (address : String)
  | address (key : String)
  | pathOfKey (key : String)
  | pathOfAddress (address : String)
  | key (runId stepRunId : Uuid) (attempt : Nat) (name : String)
  /-- Puts a file beside the store. -/
  | plantFile (name : String) (bytes : ByteArray)
  /-- Puts a link into the store. -/
  | plantLink (name target : String)
deriving Inhabited

/-- The directory of the store. -/
def archiveDirectory : Artifact.Directory := ⟨rootDirectory ++ "/store"⟩

private def answerValue : Except BackendFault Value → Value
  | .ok value => .object [("ok", value)]
  | .error fault => Record.ofBackendFault fault

private def done : Value := .text "done"

/-- Changes the files if that succeeds. -/
private def change (work : FileTree → Except Files.FileFault FileTree) : StateM FileTree Unit :=
  modify fun tree => (work tree).toOption.getD tree

/-- Answers a request; a store whose state is kept elsewhere is reached by a lift. -/
def answerArchive (store : ArtifactStore (StateM σ))
    (onTree : StateM FileTree Unit → StateM σ Unit) :
    ArchiveRequest → StateM σ Value
  | .write key bytes => do return answerValue ((← store.write key bytes).map Value.text)
  | .read address => do
    let bytes ← store.read (expanded address)
    return answerValue (bytes.map fun bytes => .text (Text.Hexadecimal.ofBytes bytes))
  | .address key => return answerValue (.ok (.text (store.address key)))
  | .pathOfKey key => return answerValue (.ok (.text (archiveDirectory.pathOfKey key)))
  | .pathOfAddress address =>
    return answerValue ((Artifact.Directory.pathOfAddress (expanded address)).map Value.text)
  | .key runId stepRunId attempt name =>
    return answerValue (.ok (.text (Artifact.key runId stepRunId attempt name)))
  | .plantFile name bytes => do
    onTree (change (FileTree.write · (Files.joined rootDirectory name) bytes))
    return done
  | .plantLink name target => do
    onTree do
      modify fun tree => (tree.makeDirectories archiveDirectory.root).2
      change (FileTree.makeLink · (expanded target) (Files.joined archiveDirectory.root name))
    return done

/-- The answers to requests, and the files that they leave. -/
def archiveRecord (inMemory : Bool) (requests : List ArchiveRequest) : Value :=
  let (results, tree) :=
    if inMemory then
      let lifted (store : ArtifactStore (StateM Shelf)) :
          ArtifactStore (StateM (Shelf × FileTree)) := {
        address := store.address
        write := fun key bytes state =>
          let (result, shelf) := store.write key bytes state.1
          (result, (shelf, state.2))
        read := fun address state =>
          let (result, shelf) := store.read address state.1
          (result, (shelf, state.2)) }
      let (results, state) := (requests.mapM (answerArchive (lifted .inMemory) fun work state =>
        ((), (state.1, (work state.2).2)))).run ([], initialTree)
      (results, state.2)
    else (requests.mapM (answerArchive (.inDirectory archiveDirectory) id)).run initialTree
  marked (.object [("files", filesValue tree rootDirectory), ("results", .array results)])

end Vetting.Rehearsal
