import Vetting.Backend.ContainerCommand
import Vetting.Text.Integer
import Vetting.Text.Hexadecimal
import Vetting.Width

/-!
Contract: small scripts that stand in for commands of the operating system.

Owns:
- the words, commands and redirections of a script;
- running a script with arguments.

Does not own: what is rehearsed with scripts.

A script is a sequence of simple commands, of pairs of which the second runs if the
first succeeds or fails, and of choices by success or by a word.  It can write texts,
wait, end with a code and end by a signal; a command of another name fails.  What it
writes goes to a file or to its complaints, or else is lost.
-/

namespace Vetting.Rehearsal.Script

open Files (FileTree FileFault)

/-- A part of a word of a script. -/
inductive Fragment where
  | text (text : String)
  /-- An argument by its number, from 1. -/
  | argument (number : Nat)
  | allArguments
  /-- How many arguments there are. -/
  | argumentCount
  /-- The code of the last command. -/
  | lastCode
  /-- The number of the running script itself. -/
  | self
deriving DecidableEq, Inhabited, Repr

/-- Where the output of a command goes. -/
inductive Outlet where
  | nowhere
  | complaints
  | file (path : List Fragment) (append : Bool)
deriving DecidableEq, Inhabited, Repr

inductive Token where
  | word (fragments : List Fragment)
  /-- A mark between commands. -/
  | mark (text : String)
  /-- The next word names the file for the output. -/
  | toFile (append : Bool)
  | toComplaints
deriving DecidableEq, Inhabited, Repr

inductive Command where
  | simple (words : List (List Fragment)) (outlet : Outlet)
  | sequence (first second : Command)
  /-- The second command runs if the success of the first one is the given one. -/
  | dependent (success : Bool) (first second : Command)
  | choice (condition yes no : Command)
deriving Inhabited, Repr

/-- A command that does nothing. -/
def Command.idle : Command := .simple [] .nowhere

/-! ### Reading -/

/-- What a dollar sign stands for, and what follows. -/
private def reference? : List Char → Option (Fragment × List Char)
  | '$' :: rest => some (.self, rest)
  | '@' :: rest | '*' :: rest => some (.allArguments, rest)
  | '#' :: rest => some (.argumentCount, rest)
  | '?' :: rest => some (.lastCode, rest)
  | '\x7b' :: rest =>
    match Text.readNat (Width.count 31) (String.ofList (rest.takeWhile Char.isDigit)),
        rest.dropWhile Char.isDigit with
    | .ok number, '\x7d' :: rest => some (.argument number, rest)
    | _, _ => none
  | character :: rest =>
    if character.isDigit then some (.argument (character.toNat - '0'.toNat), rest) else none
  | [] => none

/-- Adds a character to the fragments of a word, which are given last first. -/
private def addCharacter (character : Char) : List Fragment → List Fragment
  | .text text :: rest => .text (text.push character) :: rest
  | fragments => .text (String.singleton character) :: fragments

/-- A text between double quotes, in which dollar signs keep their meaning. -/
private def doubleQuoted (word : List Fragment) :
    Nat → List Char → List Fragment × List Char
  | 0, rest => (word, rest)
  | _, [] => (word, [])
  | fuel + 1, character :: rest =>
    match character with
    | '"' => (word, rest)
    | '$' => match reference? rest with
      | some (fragment, rest) => doubleQuoted (fragment :: word) fuel rest
      | none => doubleQuoted (addCharacter '$' word) fuel rest
    | '\\' => match rest with
      | escaped :: rest =>
        if ['"', '\\', '$'].contains escaped then
          doubleQuoted (addCharacter escaped word) fuel rest
        else doubleQuoted (addCharacter escaped (addCharacter '\\' word)) fuel rest
      | [] => (word, [])
    | _ => doubleQuoted (addCharacter character word) fuel rest

/-- A word, and what follows it. -/
private def word (built : List Fragment) : Nat → List Char → List Fragment × List Char
  | 0, rest => (built, rest)
  | _, [] => (built, [])
  | fuel + 1, character :: rest =>
    match character with
    | '"' =>
      let (built, rest) := doubleQuoted (.text "" :: built) rest.length rest
      word built fuel rest
    | '\'' =>
      let quoted := String.ofList (rest.takeWhile (· ≠ '\''))
      word (.text quoted :: built) fuel ((rest.dropWhile (· ≠ '\'')).drop 1)
    | '$' => match reference? rest with
      | some (fragment, rest) => word (fragment :: built) fuel rest
      | none => word (addCharacter '$' built) fuel rest
    | '\\' => match rest with
      | escaped :: rest => word (addCharacter escaped built) fuel rest
      | [] => (built, [])
    | _ =>
      if " \t\n;&|><()".toList.contains character then (built, character :: rest)
      else word (addCharacter character built) fuel rest

private def tokens : Nat → List Char → List Token
  | 0, _ => []
  | fuel + 1, characters =>
    match characters with
    | [] => []
    | ' ' :: rest | '\t' :: rest => tokens fuel rest
    | ';' :: ';' :: rest => .mark ";;" :: tokens fuel rest
    | '\n' :: rest | ';' :: rest => .mark ";" :: tokens fuel rest
    | '(' :: rest => .mark "(" :: tokens fuel rest
    | ')' :: rest => .mark ")" :: tokens fuel rest
    | '&' :: '&' :: rest => .mark "&&" :: tokens fuel rest
    | '|' :: '|' :: rest => .mark "||" :: tokens fuel rest
    | '|' :: rest => .mark "|" :: tokens fuel rest
    | '1' :: '>' :: '&' :: '2' :: rest | '>' :: '&' :: '2' :: rest =>
      .toComplaints :: tokens fuel rest
    | '>' :: '>' :: rest => .toFile true :: tokens fuel rest
    | '>' :: rest => .toFile false :: tokens fuel rest
    | _ :: others =>
      let (fragments, rest) := word [] characters.length characters
      if rest.length < characters.length then .word fragments.reverse :: tokens fuel rest
      else tokens fuel others

private def isWord (text : String) (token : Token) : Bool := token == .word [.text text]

/-- A simple command up to the next mark. -/
private def simple (words : List (List Fragment)) (outlet : Outlet) :
    List Token → Command × List Token
  | .word fragments :: rest => simple (words ++ [fragments]) outlet rest
  | .toFile append :: .word path :: rest => simple words (.file path append) rest
  | .toComplaints :: rest => simple words .complaints rest
  | rest => (.simple words outlet, rest)

/-- Whether a word is one of several: a condition.  A star stands for every word. -/
private def isAmong (subject : List Fragment) (choices : List (List Fragment)) : Command :=
  choices.foldr (fun choice others =>
    if choice == [.text "*"] then .simple [[.text "true"]] .nowhere
    else .dependent false (.simple [[.text "test"], subject, [.text "="], choice] .nowhere) others)
    (.simple [[.text "false"]] .nowhere)

/-- The words that a branch is chosen by, and what follows them. -/
private def choices : List Token → List (List Fragment) × List Token
  | .word fragments :: rest =>
    let (others, rest) := choices rest
    (fragments :: others, rest)
  | .mark ")" :: rest => ([], rest)
  | .mark _ :: rest => choices rest
  | rest => ([], rest)

mutual

/-- Commands up to a word that is none of theirs. -/
private def commands : Nat → List Token → Command × List Token
  | 0, rest => (.idle, rest)
  | _, [] => (.idle, [])
  | fuel + 1, token :: rest =>
    if token == .mark ";" then commands fuel rest
    else if token == .mark ";;" || ["then", "elif", "else", "fi", "esac"].any (isWord · token) then
      (.idle, token :: rest)
    else
      let (first, rest) := linked fuel (token :: rest)
      let (others, rest) := commands fuel rest
      (.sequence first others, rest)

/-- A command, and those that depend on it. -/
private def linked : Nat → List Token → Command × List Token
  | 0, rest => (.idle, rest)
  | fuel + 1, input =>
    let (first, rest) := single fuel input
    match rest with
    | .mark "&&" :: rest =>
      let (second, rest) := linked fuel rest
      (.dependent true first second, rest)
    | .mark "||" :: rest =>
      let (second, rest) := linked fuel rest
      (.dependent false first second, rest)
    | rest => (first, rest)

private def single : Nat → List Token → Command × List Token
  | 0, rest => (.idle, rest)
  | fuel + 1, input =>
    match input with
    | token :: rest =>
      if isWord "if" token then
        let (condition, rest) := commands fuel rest
        let (yes, rest) := commands fuel (rest.drop 1)
        match rest with
        | next :: rest =>
          if isWord "elif" next then
            let (no, rest) := single fuel (.word [.text "if"] :: rest)
            (.choice condition yes no, rest)
          else if isWord "else" next then
            let (no, rest) := commands fuel rest
            (.choice condition yes no, rest.drop 1)
          else (.choice condition yes .idle, rest)
        | [] => (.choice condition yes .idle, [])
      else match isWord "case" token, rest with
        | true, .word subject :: rest => branches fuel subject (rest.drop 1)
        | _, _ => simple [] .nowhere input
    | [] => (.idle, [])

/-- The branches of a choice by a word, up to its end. -/
private def branches : Nat → List Fragment → List Token → Command × List Token
  | 0, _, rest => (.idle, rest)
  | _, _, [] => (.idle, [])
  | fuel + 1, subject, token :: rest =>
    if isWord "esac" token then (.idle, rest)
    else match token with
      | .word _ =>
        let (names, rest) := choices (token :: rest)
        let (yes, rest) := commands fuel rest
        let (no, rest) := branches fuel subject rest
        (.choice (isAmong subject names) yes no, rest)
      | _ => branches fuel subject rest

end

/-- The command that a script is. -/
def Command.ofScript (script : String) : Command :=
  let tokens := tokens script.length script.toList
  (commands (4 * tokens.length + 4) tokens).1

/-! ### Running -/

/-- A running script. -/
structure ScriptState where
  tree : FileTree
  complaints : ByteArray
  elapsedMs : Nat
  /-- The code of the last command. -/
  code : Int
  /-- The script has ended, with a code or by a signal. -/
  ended? : Option (Option Int)
deriving Inhabited

/-- The bytes that a backslash and a letter stand for. -/
private def escapes : List (Char × UInt8) := [
  ('\\', 0x5c), ('a', 0x07), ('b', 0x08), ('f', 0x0c), ('n', 0x0a), ('r', 0x0d), ('t', 0x09),
  ('v', 0x0b)]

private def isOctal (character : Char) : Bool := '0' ≤ character && character ≤ '7'

/-- The byte of up to three octal digits, and what follows them. -/
private def octalByte (characters : List Char) : UInt8 × List Char :=
  let digits := (characters.take 3).takeWhile isOctal
  (UInt8.ofNat (digits.foldl (fun sum digit => sum * 8 + (digit.toNat - '0'.toNat)) 0),
    characters.drop digits.length)

/-- The byte that the characters after a backslash stand for, and what follows them; the backslash
itself if they stand for none. -/
private def escapedByte (characters : List Char) : UInt8 × List Char :=
  match characters with
  | mark :: rest =>
    match escapes.lookup mark with
    | some byte => (byte, rest)
    | none => if isOctal mark then octalByte characters else (0x5c, characters)
  | [] => (0x5c, [])

/-- The bytes of a text of at most `fuel` characters with backslashes, and whether more may be
written after it. -/
private def wordBytes : Nat → List Char → List UInt8 × Bool
  | 0, _ | _, [] => ([], true)
  | _, '\\' :: 'c' :: _ => ([], false)
  | fuel + 1, '\\' :: rest =>
    let digits := match rest with
      | '0' :: after => if after.head?.any isOctal then after else rest
      | _ => rest
    let (byte, rest) := escapedByte digits
    let (bytes, more) := wordBytes fuel rest
    (byte :: bytes, more)
  | fuel + 1, character :: rest =>
    let (bytes, more) := wordBytes fuel rest
    ((String.singleton character).toUTF8.toList ++ bytes, more)

/-- What is written for words; a first word `-n` keeps the line open. -/
def echoed (words : List String) : ByteArray :=
  let (words, lineEnd) : List String × List UInt8 := match words with
    | "-n" :: words => (words, [])
    | words => (words, [0x0a])
  let text := Text.joined " " words
  let (bytes, more) := wordBytes text.length text.toList
  ⟨(bytes ++ if more then lineEnd else []).toArray⟩

/-- What one pass over a layout writes: `%s` and `%d` stand for the next words, which are taken
away. -/
private def laidOut : Nat → List Char → List String → List UInt8 × List String
  | 0, _, words | _, [], words => ([], words)
  | fuel + 1, '\\' :: rest, words =>
    let (byte, rest) := escapedByte rest
    let (bytes, words) := laidOut fuel rest words
    (byte :: bytes, words)
  | fuel + 1, '%' :: mark :: rest, words =>
    let written := match mark with
      | '%' => "%"
      | 'd' => if (words.headD "").isEmpty then "0" else words.headD ""
      | _ => words.headD ""
    let (bytes, words) := laidOut fuel rest (if mark = '%' then words else words.drop 1)
    (written.toUTF8.toList ++ bytes, words)
  | fuel + 1, character :: rest, words =>
    let (bytes, words) := laidOut fuel rest words
    ((String.singleton character).toUTF8.toList ++ bytes, words)

/-- What is written for words by a layout, which is used again while words are left. -/
private def printed (layout : String) : Nat → List String → List UInt8
  | 0, _ => []
  | fuel + 1, words =>
    let (bytes, left) := laidOut layout.length layout.toList words
    if left.isEmpty || left.length = words.length then bytes else bytes ++ printed layout fuel left

private def fragmentText (arguments : List String) (code : Int) : Fragment → String
  | .text text => text
  | .argument number => (arguments[number - 1]?).getD ""
  | .allArguments => Text.joined " " arguments
  | .argumentCount => toString arguments.length
  | .lastCode => toString code
  | .self => "1"

private def wordText (arguments : List String) (code : Int) (fragments : List Fragment) : String :=
  String.join (fragments.map (fragmentText arguments code))

/-- A number of seconds, as milliseconds. -/
private def milliseconds (text : String) : Nat :=
  match Text.cutOnce? '.' text.toList with
  | none => (Text.readNat (Width.count 64) text).toOption.getD 0 * 1000
  | some (whole, decimals) =>
    let digits := (decimals ++ ['0', '0', '0']).take 3
    (Text.readNat (Width.count 64) (String.ofList (whole ++ digits))).toOption.getD 0

/-- Whether a comparison of texts holds. -/
private def holds : List String → Bool
  | [first, "=", second] => first == second
  | [first, "!=", second] => first != second
  | ["-n", text] => text != ""
  | ["-z", text] => text == ""
  | [text] => text != ""
  | _ => false

/-- Puts output where it belongs; relative paths begin at a directory. -/
private def emit (directory : String) (arguments : List String) (outlet : Outlet)
    (bytes : ByteArray) (state : ScriptState) : ScriptState :=
  match outlet with
  | .nowhere => state
  | .complaints => { state with complaints := state.complaints ++ bytes }
  | .file fragments append =>
    let name := wordText arguments state.code fragments
    let path := if Files.isAbsolute name then name else Files.joined directory name
    let before := if append then (state.tree.read path).toOption.getD .empty else .empty
    { state with tree := (state.tree.write path (before ++ bytes)).toOption.getD state.tree }

/-- Runs a simple command whose words are known. -/
private def runWords (emit : ByteArray → ScriptState → ScriptState) (state : ScriptState) :
    List String → ScriptState
  | [] => state
  | ["true"] | [":"] => { state with code := 0 }
  | ["false"] => { state with code := 1 }
  | "exec" :: words =>
    let state := runWords emit state words
    { state with ended? := state.ended?.or (some (some state.code)) }
  | ["exit"] => { state with ended? := some (some state.code) }
  | "exit" :: code :: _ =>
    let code := (Text.readNat (Width.count 31) code).toOption.getD 2
    { state with ended? := some (some (code % 256 : Nat)) }
  | "kill" :: _ => { state with ended? := some none }
  | "sleep" :: time :: _ =>
    { state with elapsedMs := state.elapsedMs + milliseconds time, code := 0 }
  | "echo" :: words => { emit (echoed words) state with code := 0 }
  | "printf" :: layout :: words =>
    { emit ⟨(printed layout (words.length + 1) words).toArray⟩ state with code := 0 }
  | "[" :: words => { state with code := if holds words.dropLast then 0 else 1 }
  | "test" :: words => { state with code := if holds words then 0 else 1 }
  | _ => { state with code := 127 }

namespace Command

/-- Runs a command in a directory; nothing runs after the end of the script. -/
def run (directory : String) (arguments : List String) (command : Command)
    (state : ScriptState) : ScriptState :=
  if state.ended?.isSome then state
  else match command with
    | .simple words outlet =>
      runWords (emit directory arguments outlet) state (words.map (wordText arguments state.code))
    | .sequence first second => second.run directory arguments (first.run directory arguments state)
    | .dependent success first second =>
      let after := first.run directory arguments state
      if (after.code == 0) == success then second.run directory arguments after else after
    | .choice condition yes no =>
      let after := condition.run directory arguments state
      if after.code == 0 then yes.run directory arguments after
      else no.run directory arguments { after with code := 0 }

end Command

/-- A command whose program is a file.  It notes its arguments at the end of another file, and
then runs a script in a directory. -/
def scripted (program notes directory script : String) : SystemCommand where
  program
  start arguments tree :=
    match tree.read program with
    | .error fault => (.error fault, tree)
    | .ok _ =>
      let before := (tree.read notes).toOption.getD .empty
      let tree := (tree.write notes (before ++ echoed arguments)).toOption.getD tree
      let ended := (Command.ofScript script).run directory arguments ⟨tree, .empty, 1, 0, none⟩
      (.ok ⟨ended.ended?.getD (some ended.code), ended.elapsedMs, ended.complaints⟩, ended.tree)

end Vetting.Rehearsal.Script
