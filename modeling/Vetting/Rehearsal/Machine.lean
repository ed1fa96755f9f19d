import Vetting.Backend.Selection
import Vetting.Rehearsal.Record
import Vetting.Rehearsal.Script

/-!
Contract: the machine on which rehearsals take place.

Owns:
- its files, and the directory in which rehearsals leave theirs;
- its commands, and what becomes of jobs that are handed to services;
- lists of files, and responses of backends, as records.

Does not own: what is rehearsed.

The directory of rehearsals is written as a mark in records, and in what rehearsals are
given.
-/

namespace Vetting.Rehearsal

open Json (Value)
open Files (FileTree Place)

/-- The directory of rehearsals. -/
def rootDirectory : String := "/tmp/.tmp000000"

/-- What stands for the directory of rehearsals. -/
def rootMark : String := "\x7broot\x7d"

/-- A text in which the mark has become the directory. -/
def expanded (text : String) : String := text.replace rootMark rootDirectory

/-- A record in which the directory has become the mark. -/
def marked (value : Value) : Value := replaced [(rootDirectory, rootMark)] value

/-- The files of the machine before a rehearsal. -/
def initialTree : FileTree :=
  let named (name : String) : Place × Files.Node := (["etc", name], .file (name ++ "\n").toUTF8)
  ⟨[(["tmp"], .directory), (["etc"], .directory), (["tmp", ".tmp000000"], .directory),
    named "hostname", named "passwd", named "hosts"], []⟩

/-- A command of the machine: one that succeeds and one that fails; any other is not there. -/
def commandOf (program : String) : SystemCommand :=
  if ["true", "/bin/true", "/usr/bin/true"].contains program then .idle program 0
  else if ["false", "/bin/false", "/usr/bin/false"].contains program then .idle program 1
  else .absent program

/-- The machine; no message of it gets through. -/
def machine : SelectedBackend.Machine where
  tree := initialTree
  command := commandOf
  submit service notice := .error (service.unsent notice)

/-! ### Records -/

/-- A text, or bytes in hexadecimal digits if they are none. -/
def contentText (bytes : ByteArray) : String :=
  (String.fromUTF8? bytes).getD (Text.Hexadecimal.ofBytes bytes)

/-- The names of what lies in a directory. -/
private def namesIn (tree : FileTree) (place : Place) : List String :=
  tree.nodes.filterMap fun (there, _) =>
    if !there.isEmpty && there.dropLast == place then there.getLast? else none

/-- The files below a directory, through links; a link that leads nowhere is an empty file. -/
private def filesBelow (tree : FileTree) : Nat → String → List (String × ByteArray)
  | 0, _ => []
  | depth + 1, path =>
    (namesIn tree ((tree.locate .target path).toOption.getD [])).flatMap fun name =>
      let there := Files.joined path name
      if tree.isDirectory there then filesBelow tree depth there
      else [(there, (tree.read there).toOption.getD .empty)]

/-- The files below a directory, by path. -/
def filesValue (tree : FileTree) (directory : String) : Value :=
  let files := (filesBelow tree 64 directory).map fun (path, bytes) =>
    (((Text.afterText? (directory ++ "/") path).getD path), contentText bytes)
  .array ((files.mergeSort fun first second => first.1 ≤ second.1).map fun (path, text) =>
    .array [.text path, .text text])

/-- A response whose duration is there or not. -/
def responseValue (response : JobResponse) : Value := .ofEntries [
  ("execution_id", .text response.executionId),
  ("input_uri", .text response.inputUri),
  ("output_uri", .text response.outputUri),
  ("has_duration", .boolean response.durationSeconds.isSome),
  ("error_message", .optionalText response.errorMessage),
  ("envelope", .ofOption Envelope.toValue response.envelope?),
  ("is_complete", .boolean response.isComplete)]

end Vetting.Rehearsal
