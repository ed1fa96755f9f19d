import Vetting.Text.Blank

/-!
Contract: the words of the command line.

Owns:
- the commands, their options, and what is said about them;
- the help text of the program and of each command.

Does not own: reading a command line (`Vetting.Command.Usage`).
-/

namespace Vetting.Command

/-- What the value of an option is. -/
inductive ValueKind where
  | identifier
  /-- An integer of 32 bits. -/
  | integer
  /-- A path, which is never empty. -/
  | path
  | text
deriving DecidableEq, Inhabited, Repr

/-- An option of a command; every option has a value. -/
structure OptionWord where
  name : String
  kind : ValueKind
  required : Bool
  about : String
deriving DecidableEq, Inhabited

/-- The option with its value, as messages and help texts write it. -/
def OptionWord.display (option : OptionWord) : String :=
  "--" ++ option.name ++ " <" ++ (option.name.toUpper.replace "-" "_") ++ ">"

/-- A command of the program. -/
structure CommandWord where
  name : String
  about : String
  options : List OptionWord
deriving DecidableEq, Inhabited

/-- The name of the program. -/
def programName : String := "valflow"

def programVersion : String := "0.1.0"

def programAbout : String := "Step execution engine for document validation runs"

def runOption : OptionWord := ⟨"run", .identifier, true, ""⟩
def resumeOption : OptionWord := ⟨"resume-from", .integer, false, ""⟩
def stepRunOption : OptionWord := ⟨"step-run", .identifier, true, ""⟩
def envelopeOption : OptionWord := ⟨"envelope", .path, true, ""⟩
def keyOption : OptionWord :=
  ⟨"idempotency-key", .text, false, "Token \x60Idempotency-Key\x60 con el que se lanzó el job"⟩

def executeWord : CommandWord :=
  ⟨"execute", "Ejecuta (o reanuda) un run", [runOption, resumeOption]⟩
def completeWord : CommandWord :=
  ⟨"complete", "Aplica el envelope de un job asíncrono y reanuda el run si corresponde",
    [stepRunOption, envelopeOption, keyOption]⟩
def cancelWord : CommandWord := ⟨"cancel", "", [runOption]⟩
def summaryWord : CommandWord := ⟨"summary", "Imprime el resumen del run en JSON", [runOption]⟩

def commandWords : List CommandWord := [executeWord, completeWord, cancelWord, summaryWord]

def helpName : String := "help"

def helpAbout : String := "Print this message or the help of the given subcommand(s)"

def commandWord? (name : String) : Option CommandWord :=
  commandWords.find? fun word => word.name == name

/-- Whether a word names a command, that of help among them. -/
def namesCommand (word : String) : Bool := word == helpName || (commandWord? word).isSome

/-! ### Help -/

/-- What help is about. -/
inductive HelpTopic where
  | program
  | command (word : CommandWord)
  /-- The command of help itself. -/
  | help
deriving DecidableEq, Inhabited

/-- Lines with two columns; the second one begins at the same place in each of them. -/
private def twoColumns (lines : List (String × String)) : String :=
  let width := (lines.map fun line => line.1.length).foldl max 0
  String.join (lines.map fun (left, right) =>
    "  " ++ left ++ "".pushn ' ' (width - left.length) ++ "  " ++ right ++ "\n")

private def helpLine : String × String := ("-h, --help", "Print help")

private def introduction (about usage : String) : String :=
  (if about = "" then "" else about ++ "\n\n") ++ "Usage: " ++ programName ++ " " ++ usage ++ "\n\n"

/-- How a command is used: options that are required are named. -/
private def usageOf (word : CommandWord) : String :=
  let required := word.options.filter OptionWord.required
  Text.joined " " (word.name ::
    (if required.length < word.options.length then ["[OPTIONS]"] else []) ++
    required.map OptionWord.display)

def HelpTopic.text : HelpTopic → String
  | .program =>
    introduction programAbout "<COMMAND>"
    ++ "Commands:\n"
    ++ twoColumns
      ((commandWords.map fun word => (word.name, word.about)) ++ [(helpName, helpAbout)])
    ++ "\nOptions:\n" ++ twoColumns [helpLine, ("-V, --version", "Print version")]
  | .command word =>
    introduction word.about (usageOf word)
    ++ "Options:\n"
    ++ twoColumns ((word.options.map fun option => ("    " ++ option.display, option.about))
      ++ [helpLine])
  | .help =>
    introduction helpAbout (helpName ++ " [COMMAND]...")
    ++ "Arguments:\n" ++ twoColumns [("[COMMAND]...", "Print help for the subcommand(s)")]

/-- The line that tells the version of the program. -/
def versionText : String := programName ++ " " ++ programVersion ++ "\n"

end Vetting.Command
