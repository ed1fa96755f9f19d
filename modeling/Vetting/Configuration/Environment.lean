import Vetting.Dictionary
import Vetting.Text.Blank
import Vetting.Text.Integer

/-!
Contract: settings that are read from the environment.

Owns:
- why a setting is refused, and the wording;
- reading numbers, truth values and texts that may be left out.

Does not own: which settings there are.
-/

namespace Vetting

/-- Why a setting is refused. -/
inductive ConfigurationFault where
  | missing (key : String)
  | invalid (key value reason : String)
deriving DecidableEq, Inhabited

namespace ConfigurationFault

/-- The name of the cause. -/
def name : ConfigurationFault → String
  | .missing _ => "Missing"
  | .invalid _ _ _ => "Invalid"

def message : ConfigurationFault → String
  | .missing key => key ++ " no definido"
  | .invalid key value reason =>
    "valor inválido para " ++ key ++ ": '" ++ value ++ "' (" ++ reason ++ ")"

end ConfigurationFault

/-- The settings of a process: text by key. -/
abbrev Environment : Type := Dictionary String

namespace Environment

def text? (environment : Environment) (key : String) : Option String :=
  Dictionary.lookup? key environment

/-- A text that is more than white space. -/
def solidText? (environment : Environment) (key : String) : Option String :=
  (environment.text? key).filter fun text => !Text.isBlankText text

/-- A value that is read from a text, or its default. -/
def readOr (environment : Environment) (key : String) (default : α)
    (read : String → Except String α) : Except ConfigurationFault α :=
  match environment.text? key with
  | none => .ok default
  | some text => (read text).mapError (.invalid key text)

/-- A number up to a bound, or its default.  White space around it is ignored. -/
def numberOr (environment : Environment) (key : String) (default greatest : Nat) :
    Except ConfigurationFault Nat :=
  environment.readOr key default fun text =>
    (Text.readNat greatest (Text.trimmed text)).mapError Text.IntegerFault.message

/-- The truth value that a word stands for, whatever the case of its letters. -/
def truth? (text : String) : Option Bool :=
  let word := (Text.trimmed text).toLower
  if ["1", "true", "yes", "on"].contains word then some true
  else if ["0", "false", "no", "off"].contains word then some false
  else none

/-- A truth value, or its default. -/
def truthOr (environment : Environment) (key : String) (default : Bool) :
    Except ConfigurationFault Bool :=
  environment.readOr key default fun text =>
    match truth? text with
    | some value => .ok value
    | none => .error "expected true/false"

end Environment

end Vetting
