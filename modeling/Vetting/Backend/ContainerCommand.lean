import Vetting.Backend.Container

/-!
Contract: running containers with a command of the operating system.

Owns:
- the arguments of the command;
- how long a container may run, and what is done about one that runs longer;
- what is said when the command cannot be started.

Does not own: the command itself.

How long a command has been running is looked at once in each interval, so that a
container ends in time if it ends before the first look at or after its limit.  What
the command complains about is kept in a file of the working directory.
-/

namespace Vetting

open Files (FileTree FileFault)

/-- How a command that was started has ended. -/
structure CommandRun where
  /-- None if a signal has ended it. -/
  code? : Option Int
  durationMs : Nat
  complaints : ByteArray
deriving Inhabited

/-- A command of the operating system. -/
structure SystemCommand where
  /-- The path or the name of its program. -/
  program : String
  /-- Starts the command with arguments.  The command may change files. -/
  start : List String → FileTree → Except FileFault CommandRun × FileTree

namespace SystemCommand

/-- The name of the file for complaints. -/
def complaintsName : String := "stderr.log"

/-- How often a running command is looked at. -/
def intervalMs : Nat := 100

def versionArguments : List String := ["version"]

def runArguments (order : ContainerOrder) : List String :=
  ["run", "--rm", "--name", order.name, "--network=none", "-v",
    order.workingDirectory ++ ":" ++ ContainerBackend.mountPoint]
  ++ order.environment.flatMap (fun (name, value) => ["-e", name ++ "=" ++ value])
  ++ [order.image]

def removeArguments (name : String) : List String := ["rm", "-f", name]

/-- When a command that runs too long is found out. -/
def deadline (timeoutMs : Nat) : Nat := (timeoutMs + (intervalMs - 1)) / intervalMs * intervalMs

/-- Whether the command says that it works; and the files afterwards. -/
def isAvailable (command : SystemCommand) (tree : FileTree) : Bool × FileTree :=
  match command.start versionArguments tree with
  | (.ok ended, tree) => (ended.code? == some 0, tree)
  | (.error _, tree) => (false, tree)

/-- The end of a container, or what is done about one that runs too long. -/
private def conclude (command : SystemCommand) (order : ContainerOrder) (path : String)
    (ended : CommandRun) (tree : FileTree) : Except BackendFault ContainerExit × FileTree :=
  if deadline order.timeoutMs < ended.durationMs then
    (.error (.timeout (order.timeoutMs / 1000)),
      (command.start (removeArguments order.name) tree).2)
  else
    let tree := (tree.write path ended.complaints).toOption.getD tree
    let complaints := ((tree.read path).toOption.bind String.fromUTF8?).getD ""
    (.ok ⟨ended.code?, complaints⟩, tree)

/-- Runs a container. -/
def run (command : SystemCommand) (order : ContainerOrder) (tree : FileTree) :
    Except BackendFault ContainerExit × FileTree :=
  let path := Files.joined order.workingDirectory complaintsName
  match tree.write path .empty with
  | .error fault => (.error (.runtime (path ++ ": " ++ fault.message)), tree)
  | .ok tree =>
    match command.start (runArguments order) tree with
    | (.error fault, tree) =>
      (.error (.unavailable ("cannot start '" ++ command.program ++ "': " ++ fault.message)), tree)
    | (.ok ended, tree) => command.conclude order path ended tree

/-- The command as what runs containers. -/
def runtime (command : SystemCommand) (tree : FileTree) : ContainerRuntime where
  available := (command.isAvailable tree).1
  run := command.run

/-- A command that does nothing and ends at once with a code. -/
def idle (program : String) (code : Int) : SystemCommand where
  program
  start _ tree := (.ok ⟨some code, 1, .empty⟩, tree)

/-- A command whose program is not there. -/
def absent (program : String) : SystemCommand where
  program
  start _ tree := (.error .notFound, tree)

end SystemCommand

end Vetting
