import Vetting.Configuration.Environment

/-!
Contract: files that add settings to an environment.

Owns:
- the lines of such a file, which may be continued inside quotes;
- the key and the value of a line;
- adding settings to an environment.

Does not own: which settings there are.

A setting that is there already stays as it is.  Reading ends at the first line that
cannot be read; the lines before it count.
-/

namespace Vetting.EnvironmentFile

/-! ### Lines -/

/-- How far a line has come, as far as this decides where the line ends. -/
inductive LineState where
  | plain
  | blank
  | escape
  | doubleQuoted
  | doubleQuotedEscape
  | singleQuoted
  | singleQuotedEscape
deriving DecidableEq, Inhabited, Repr

namespace LineState

/-- What a character outside quotes leads to. -/
private def opened : Char → LineState
  | '\\' => .escape
  | '"' => .doubleQuoted
  | '\'' => .singleQuoted
  | _ => .plain

/-- The state after a character; none at the beginning of a remark. -/
def next? (state : LineState) (character : Char) : Option LineState :=
  match state with
  | .blank => if character = '#' then none else some (opened character)
  | .escape => some .plain
  | .plain =>
    if Text.isBlank character && character != '\n' && character != '\r' then some .blank
    else some (opened character)
  | .doubleQuoted => some (match character with
      | '\\' => .doubleQuotedEscape
      | '"' => .plain
      | _ => .doubleQuoted)
  | .doubleQuotedEscape => some .doubleQuoted
  | .singleQuoted => some (match character with
      | '\\' => .singleQuotedEscape
      | '\'' => .plain
      | _ => .singleQuoted)
  | .singleQuotedEscape => some .singleQuoted

/-- The characters before a remark, or the state after all of them. -/
def pass (state : LineState) : List Char → List Char × Option LineState
  | [] => ([], some state)
  | character :: rest =>
    match state.next? character with
    | none => ([], none)
    | some next =>
      let (before, last) := next.pass rest
      (character :: before, last)

end LineState

/-- The physical lines of a text, each with its line end. -/
private def physicalLines : List Char → List Char → List (List Char)
  | built, [] => if built.isEmpty then [] else [built.reverse]
  | built, '\n' :: rest => ('\n' :: built).reverse :: physicalLines [] rest
  | built, character :: rest => physicalLines (character :: built) rest

private def withoutLineEnd (line : List Char) : List Char :=
  match line.reverse with
  | '\n' :: '\r' :: rest | '\n' :: rest => rest.reverse
  | _ => line

/-- The lines of a text, joined where a quote goes on; none where the last one does not end. -/
private def lines (built : List Char) (state : LineState) :
    List (List Char) → List (Option (List Char))
  | [] => if built.isEmpty then [] else [none]
  | line :: rest =>
    let whole := built ++ line
    if (whole.dropWhile Text.isBlank).head? = some '#' then some [] :: lines [] .plain rest
    else match state.pass line with
      | (before, none) => some (built ++ before) :: lines [] .plain rest
      | (_, some .plain) => some (withoutLineEnd whole) :: lines [] .plain rest
      | (_, some state) => lines whole state rest

/-! ### Keys and values -/

/-- How far a value has come. -/
structure ValueState where
  output : List Char
  /-- The name that a dollar sign has begun, and whether it stands in braces. -/
  name? : Option (List Char × Bool)
  singleQuoted : Bool
  doubleQuoted : Bool
  escaped : Bool
  /-- Only a remark may follow. -/
  ended : Bool
deriving Inhabited

namespace ValueState

/-- Puts the value of a name where the name stood. -/
private def substitute (lookUp : String → String) (state : ValueState) : ValueState :=
  match state.name? with
  | none => state
  | some (name, _) =>
    { state with output := state.output ++ (lookUp (String.ofList name)).toList, name? := none }

private def isLetterOrDigit (character : Char) : Bool :=
  character.isAlphanum || (0x7F < character.toNat && !Text.isBlank character)

/-- The state after a character outside single quotes that belongs to a name. -/
private def nextInName (lookUp : String → String) (state : ValueState) (name : List Char)
    (braced : Bool) (character : Char) : ValueState :=
  if isLetterOrDigit character then { state with name? := some (name ++ [character], braced) }
  else if braced then
    if character = '\x7d' then state.substitute lookUp
    else { state with name? := some (name ++ [character], true) }
  else if character = '\x7b' ∧ name.isEmpty then { state with name? := some ([], true) }
  else
    let state := state.substitute lookUp
    if character = '$' then { state with name? := some ([], false) }
    else { state with output := state.output ++ [character] }

/-- The state after a character, or none if the value cannot go on like this. -/
def next? (lookUp : String → String) (state : ValueState) (character : Char) :
    Option ValueState :=
  let added := { state with output := state.output ++ [character] }
  if state.ended then
    if character = ' ' ∨ character = '\t' then some state else none
  else if state.escaped then
    if ['\\', '\'', '"', '$', ' '].contains character then some { added with escaped := false }
    else if character = 'n' then
      some { state with output := state.output ++ ['\n'], escaped := false }
    else none
  else if state.singleQuoted then
    some (if character = '\'' then { state with singleQuoted := false } else added)
  else match state.name? with
    | some (name, braced) => some (state.nextInName lookUp name braced character)
    | none => some (
      if character = '$' then { state with name? := some ([], false) }
      else if character = '\\' then { state with escaped := true }
      else if character = '"' then { state with doubleQuoted := !state.doubleQuoted }
      else if state.doubleQuoted then added
      else if character = '\'' then { state with singleQuoted := true }
      else if character = ' ' ∨ character = '\t' then { state with ended := true }
      else added)

/-- Reads a value to its end or to a remark. -/
def read? (lookUp : String → String) (state : ValueState) : List Char → Option String
  | [] =>
    if state.singleQuoted || state.doubleQuoted || state.name?.any Prod.snd then none
    else some (String.ofList (state.substitute lookUp).output)
  | character :: rest =>
    if state.ended && character = '#' then read? lookUp state []
    else match state.next? lookUp character with
      | some next => next.read? lookUp rest
      | none => none
termination_by characters => characters.length

end ValueState

/-- The key at the beginning of a text, and what follows it. -/
private def key? (text : List Char) : Option (String × List Char) :=
  let belongs (character : Char) : Bool :=
    character.isAlphanum || character == '_' || character == '.'
  match text with
  | first :: _ =>
    if first.isAlpha || first == '_' then
      some (String.ofList (text.takeWhile belongs), text.dropWhile belongs)
    else none
  | [] => none

private def afterEquals? (text : List Char) : Option (List Char) :=
  match text.dropWhile Text.isBlank with
  | '=' :: rest => some (rest.dropWhile Text.isBlank)
  | _ => none

/-- The key of a line and the text of its value; a line may begin with the word that exports. -/
private def entry? (text : List Char) : Option (String × List Char) := do
  let (key, rest) ← key? text
  match key, afterEquals? rest with
  | _, some value => some (key, value)
  | "export", none => do
    let (key, rest) ← key? (rest.dropWhile Text.isBlank)
    some (key, ← afterEquals? rest)
  | _, none => none

/-- What a line sets, if anything; none outside if it cannot be read. -/
private def setting? (lookUp : String → String) (line : List Char) :
    Option (Option (String × String)) :=
  match Text.trimBlanks line with
  | [] | '#' :: _ => some none
  | text => do
    let (key, value) ← entry? text
    match value with
    | [] | '#' :: _ => some (some (key, ""))
    | _ =>
      let value ← ValueState.read? lookUp ⟨[], none, false, false, false, false⟩ value
      some (some (key, value))

/-! ### Settings -/

/-- An environment, and everything that has been set by lines so far. -/
private def addLines (environment stated : Environment) :
    List (Option (List Char)) → Environment
  | [] | none :: _ => environment
  | some line :: rest =>
    let lookUp (name : String) : String :=
      ((environment.text? name).or (stated.text? name)).getD ""
    match setting? lookUp line with
    | none => environment
    | some none => addLines environment stated rest
    | some (some (key, value)) =>
      let after := if (environment.text? key).isSome then environment
        else Dictionary.insert key value environment
      addLines after (Dictionary.insert key value stated) rest

/-- A text without the mark of byte order at its beginning. -/
private def withoutMark : List Char → List Char
  | '\ufeff' :: rest => rest
  | characters => characters

/-- Adds the settings of a file to an environment. -/
def add (text : String) (environment : Environment) : Environment :=
  addLines environment [] (lines [] .plain (physicalLines [] (withoutMark text.toList)))

end Vetting.EnvironmentFile
