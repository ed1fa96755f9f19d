import Vetting.Command.Grammar
import Vetting.Text.Integer
import Vetting.Uuid
import Vetting.Width

/-!
Contract: reading a command line.

Owns:
- the orders that command lines give;
- why a command line gives none, and what is said about it.

Does not own: carrying out an order.

A value that follows its option is looked at only when the next option comes or the
line ends; a value that is attached to its option is looked at at once.  A word that
is refused on the way hides faults in a value that is still to be looked at.
-/

namespace Vetting.Command

/-- What a command line orders. -/
inductive Order where
  | execute (runId : Uuid) (resumeFrom : Option Int)
  | complete (stepRunId : Uuid) (envelopePath : String) (key? : Option String)
  | cancel (runId : Uuid)
  | summary (runId : Uuid)
deriving DecidableEq, Inhabited

/-- Why a command line gives no order. -/
inductive UsageFault where
  | help (topic : HelpTopic)
  | version
  | missingCommand
  | unknownCommand (word : String)
  | unexpected (word : String)
  | missingValue (option : OptionWord)
  | invalidValue (value : String) (option : OptionWord) (reason : String)
  | repeatedOption (option : OptionWord)
  /-- A value is attached to a word that has none. -/
  | strangeValue (value word : String)
  | missingOptions (options : List OptionWord)
deriving DecidableEq, Inhabited

namespace UsageFault

/-- The name of the cause. -/
def name : UsageFault → String
  | .help _ => "DisplayHelp"
  | .version => "DisplayVersion"
  | .missingCommand => "DisplayHelpOnMissingArgumentOrSubcommand"
  | .unknownCommand _ => "InvalidSubcommand"
  | .unexpected _ => "UnknownArgument"
  | .missingValue _ => "InvalidValue"
  | .invalidValue _ _ _ => "ValueValidation"
  | .repeatedOption _ => "ArgumentConflict"
  | .strangeValue _ _ => "TooManyValues"
  | .missingOptions _ => "MissingRequiredArgument"

/-- What is printed because it was asked for. -/
def answer? : UsageFault → Option String
  | .help topic => some topic.text
  | .version => some versionText
  | _ => none

/-- The code with which the program ends. -/
def exitCode (fault : UsageFault) : Nat := if fault.answer?.isSome then 0 else 2

/-- The first line of the complaint, if there is one. -/
def message? : UsageFault → Option String
  | .help _ | .version | .missingCommand => none
  | .unknownCommand word => some ("unrecognized subcommand '" ++ word ++ "'")
  | .unexpected word => some ("unexpected argument '" ++ word ++ "' found")
  | .missingValue option =>
    some ("a value is required for '" ++ option.display ++ "' but none was supplied")
  | .invalidValue value option reason =>
    some ("invalid value '" ++ value ++ "' for '" ++ option.display ++ "': " ++ reason)
  | .repeatedOption option =>
    some ("the argument '" ++ option.display ++ "' cannot be used multiple times")
  | .strangeValue value word =>
    some ("unexpected value '" ++ value ++ "' for '" ++ word ++ "' found; no more were expected")
  | .missingOptions _ => some "the following required arguments were not provided:"

end UsageFault

/-! ### Values -/

/-- A value that has been looked at. -/
inductive Given where
  | identifier (id : Uuid)
  | integer (number : Int)
  | text (text : String)
deriving DecidableEq, Inhabited

/-- An integer of 32 bits; of 64 bits if that is what is wrong with it. -/
private def readSmall (text : String) : Except String Int := do
  let number ← (Text.readInteger (Width.count 63) (Width.count 63 - 1) text).mapError
    Text.IntegerFault.message
  if Width.leastInt 32 ≤ number ∧ number ≤ Width.greatestInt 32 then return number
  else throw (toString number ++ " is not in -2147483648..=2147483647")

/-- Looks at the value of an option. -/
def OptionWord.read (option : OptionWord) (value : String) : Except UsageFault Given :=
  match option.kind with
  | .identifier =>
    ((Uuid.read value).map Given.identifier).mapError fun fault =>
      .invalidValue value option fault.message
  | .integer => ((readSmall value).map Given.integer).mapError (.invalidValue value option)
  | .path => if value = "" then .error (.missingValue option) else .ok (.text value)
  | .text => .ok (.text value)

/-- The options of a command line that have been read. -/
structure Reading where
  given : List (OptionWord × Given)
  /-- An option whose value, if it has come, is still to be looked at. -/
  pending? : Option (OptionWord × Option String)
deriving Inhabited

namespace Reading

/-- Takes an option with its value. -/
def take (reading : Reading) (option : OptionWord) (value? : Option String) :
    Except UsageFault Reading := do
  let some value := value? | throw (.missingValue option)
  if reading.given.any fun given => given.1 == option then throw (.repeatedOption option)
  return { reading with given := reading.given ++ [(option, ← option.read value)] }

/-- Looks at the value that is still to be looked at. -/
def settle (reading : Reading) : Except UsageFault Reading :=
  match reading.pending? with
  | none => .ok reading
  | some (option, value?) => { reading with pending? := none }.take option value?

def value? (reading : Reading) (option : OptionWord) : Option Given :=
  (reading.given.find? fun given => given.1 == option).map Prod.snd

def identifier? (reading : Reading) (option : OptionWord) : Option Uuid :=
  match reading.value? option with
  | some (.identifier id) => some id
  | _ => none

def integer? (reading : Reading) (option : OptionWord) : Option Int :=
  match reading.value? option with
  | some (.integer number) => some number
  | _ => none

def text? (reading : Reading) (option : OptionWord) : Option String :=
  match reading.value? option with
  | some (.text text) => some text
  | _ => none

end Reading

/-! ### Command lines -/

/-- What stands between the first equals sign and the end of a word, and what stands before. -/
private def cutValue (characters : List Char) : String × Option String :=
  match Text.cutOnce? '=' characters with
  | some (name, value) => (String.ofList name, some (String.ofList value))
  | none => (String.ofList characters, none)

/-- Reads a word that begins with two hyphens. -/
private def readLong (word : CommandWord) (reading : Reading) (characters : List Char) :
    Except UsageFault Reading := do
  let (name, value?) := cutValue characters
  if name == "help" then
    match value? with
    | some value => throw (.strangeValue value "--help")
    | none =>
      discard reading.settle
      throw (.help (.command word))
  match word.options.find? fun option => option.name == name with
  | none => throw (.unexpected ("--" ++ name))
  | some option =>
    let reading ← reading.settle
    match value? with
    | some value => reading.take option (some value)
    | none => return { reading with pending? := some (option, none) }

/-- Reads the words after the name of a command. -/
private def readWords (word : CommandWord) (reading : Reading) :
    List String → Except UsageFault Reading
  | [] => reading.settle
  | argument :: rest => do
    match argument.toList with
    | ['-', '-'] =>
      match rest with
      | [] => reading.settle
      | next :: _ => throw (.unexpected next)
    | '-' :: '-' :: characters => readWords word (← readLong word reading characters) rest
    | '-' :: 'h' :: _ =>
      discard reading.settle
      throw (.help (.command word))
    | '-' :: character :: _ => throw (.unexpected (String.ofList ['-', character]))
    | _ =>
      match reading.pending? with
      | some (option, none) =>
        readWords word { reading with pending? := some (option, some argument) } rest
      | _ => throw (.unexpected argument)

/-- The order of a command whose options have been read. -/
private def orderOf (word : CommandWord) (reading : Reading) : Except UsageFault Order :=
  let missing := word.options.filter fun option =>
    option.required && (reading.value? option).isNone
  let order? : Option Order :=
    if word.name = executeWord.name then
      (reading.identifier? runOption).map (.execute · (reading.integer? resumeOption))
    else if word.name = completeWord.name then do
      let stepRunId ← reading.identifier? stepRunOption
      let path ← reading.text? envelopeOption
      return .complete stepRunId path (reading.text? keyOption)
    else if word.name = cancelWord.name then (reading.identifier? runOption).map .cancel
    else (reading.identifier? runOption).map .summary
  match order? with
  | some order => .ok order
  | none => .error (.missingOptions missing)

/-- What help is about that is asked for with words. -/
private def topic : List String → Except UsageFault HelpTopic
  | [] => .ok .program
  | name :: rest =>
    let found? : Option HelpTopic :=
      if name = helpName then some .help else (commandWord? name).map .command
    match found?, rest with
    | none, _ => .error (.unknownCommand name)
    | some topic, [] => .ok topic
    | some _, next :: _ => .error (.unknownCommand next)

/-- A word in the place of a command that is none. -/
private def refuseFirst (characters : List Char) (argument : String) : UsageFault :=
  match characters with
  | '-' :: '-' :: rest =>
    let (name, value?) := cutValue rest
    match name, value? with
    | "help", none => .help .program
    | "version", none => .version
    | "help", some value | "version", some value => .strangeValue value ("--" ++ name)
    | _, _ => .unexpected ("--" ++ name)
  | '-' :: 'h' :: _ => .help .program
  | '-' :: 'V' :: _ => .version
  | '-' :: character :: _ => .unexpected (String.ofList ['-', character])
  | _ => .unknownCommand argument

/-- The order that the words of a command line give. -/
def Order.ofWords : List String → Except UsageFault Order
  | [] | ["--"] => .error .missingCommand
  | "--" :: next :: _ =>
    .error (if namesCommand next then .unexpected next else .unknownCommand next)
  | first :: rest =>
    if first = helpName then do throw (.help (← topic rest))
    else match commandWord? first with
      | some word => do orderOf word (← readWords word ⟨[], none⟩ rest)
      | none => .error (refuseFirst first.toList first)

end Vetting.Command
