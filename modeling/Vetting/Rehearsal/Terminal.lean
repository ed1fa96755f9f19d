import Vetting.Command.Assembly
import Vetting.Command.Session
import Vetting.Rehearsal.Machine

/-!
Contract: rehearsing the command line.

Owns:
- records of what a command line is answered before any database is reached;
- records of commands over the stores of a scene;
- marks in the words of a command line for what a scene holds.

Does not own: the commands.
-/

namespace Vetting.Rehearsal

open Json (Value)
open Command (Order Commission Report Failure)
open Execution (Equipment)

namespace Record

def ofConfigurationFault (fault : ConfigurationFault) : Value :=
  let about := match fault with
    | .missing key => [("key", key)]
    | .invalid key value reason => [("key", key), ("value", value), ("reason", reason)]
  .ofEntries (("error", .text fault.name) :: ("message", .text fault.message) ::
    about.map fun (name, text) => (name, .text text))

/-- How a failed command ends. -/
def ofCommandFailure (failure : Failure) : Value := .object [
  ("code", .natural (Command.ExitCode.ofCause failure.cause).number), ("text", .text failure.text)]

end Record

/-- The settings of an environment; the directory of artifacts has a mark if nothing else is set. -/
def settingsRecord (environment : Environment) : Value :=
  match Settings.read environment with
  | .error fault => Record.ofConfigurationFault fault
  | .ok settings =>
    let directory := settings.backend.artifactDirectory
    let shown :=
      if directory = BackendSettings.standard.artifactDirectory then "\x7bdefault\x7d"
      else directory
    { settings with backend.artifactDirectory := shown }.toValue

/-- The lines that begin as complaints do. -/
private def complaints (message? : Option String) : List Value :=
  match message? with
  | none => []
  | some message =>
    ((Text.pieces '\n' ("error: " ++ message)).filter fun line => line.startsWith "error: ").map
      Value.text

/-- What a command line is answered. -/
def processRecord (words : List String) (environment : Environment) (file? : Option String) :
    Value :=
  match Commission.read (words.map expanded) (Dictionary.mapValues expanded environment) file? with
  | .ok _ => .null
  | .error refusal => marked (.object [
      ("code", .natural refusal.exitCode), ("errors", .array (complaints refusal.message?)),
      ("stdout", .text (refusal.answer?.getD ""))])

/-- Who takes part in a rehearsal, and what the engine is equipped with. -/
structure Setting where
  cast : Cast
  equipment : Equipment

namespace Setting

/-- The application as settings ask for it, without doubles. -/
def ofSettings (settings : Settings) : Setting :=
  ⟨⟨[], [], none, settings.surroundings machine⟩, settings.equipment⟩

/-- The setting of a command: with the usual checker, or that of the usual settings. -/
def ofCommand (setting : Setting) (wired : Bool) : Setting :=
  if wired then ofSettings .standard else { setting with equipment.checker := .standard }

end Setting

namespace Scene

/-- The step run that a mark in a word names. -/
private def stepRunOf? (scene : Scene) (runId : Uuid) (key : String) : Option StepRun :=
  scene.world.store.stepRunOf? runId key

/-- A word in which marks have become what they stand for. -/
def word (scene : Scene) (runId : Uuid) (text : String) : String :=
  match text.splitOn "@sr:", text.splitOn "@job:" with
  | [before, key], _ =>
    before ++ ((stepRunOf? scene runId key).map StepRun.id |>.getD Uuid.zero).text
  | _, [before, key] =>
    before ++ ((stepRunOf? scene runId key).bind fun stepRun => stepRun.output.jobKey?).getD ""
  | _, _ => expanded text

/-- Carries out a command line over the stores of a scene; an envelope may lie in a file. -/
def terminal (setting : Setting) (runId : Uuid) (words : List String)
    (envelope? : Option ByteArray) : StateM Scene Value := do
  let scene ← get
  match Order.ofWords (words.map (scene.word runId)) with
  | .error fault =>
    return .object [("code", .natural fault.exitCode), ("usage", .text fault.name)]
  | .ok order =>
    let tree := match envelope? with
      | some bytes =>
        (initialTree.write (Files.joined rootDirectory "envelope.json") bytes).toOption.getD
          initialTree
      | none => initialTree
    let program := (Command.perform setting.equipment tree.read order).run
    match ← perform setting.cast runId program with
    | .ok report => return marked (.object [
        ("code", .natural report.code.number), ("error", .null), ("pretty", .boolean true),
        ("printed", Record.timeless report.value)])
    | .error failure => return marked (.object [
        ("code", .natural (Command.ExitCode.ofCause failure.cause).number),
        ("error", .text failure.text), ("pretty", .null), ("printed", .null)])

end Scene

end Vetting.Rehearsal
