import Vetting.Text.Integer
import Vetting.Web.Host

/-!
Contract: addresses on the web.

Owns:
- reading an address that stands for itself;
- the one text that each address is written as.

Does not own: addresses that are relative to another one.

White space and controls around an address, and tabs and line ends inside it, are
dropped.  In the well-known schemes a backslash is a slash, there always is a host
and a path, and the usual port is not written.  Parts of a path that lead nowhere or
up are taken out.  The address of a file names neither a port nor a person, and its
path may begin with the letter of a drive, which stands below no host.
-/

namespace Vetting.Web

/-- What follows the host, or the scheme if there is no host. -/
inductive UrlPath where
  /-- Parts, each after a slash. -/
  | parts (parts : List String)
  /-- A text that is no path of parts. -/
  | plain (text : String)
deriving DecidableEq, Inhabited, Repr

/-- An address. -/
structure Url where
  scheme : String
  /-- Who is named before the host, with the mark that separates the two. -/
  credentials : String
  /-- None if there is no place for a host; empty if nothing stands there. -/
  host? : Option (Option Host)
  port? : Option Nat
  path : UrlPath
  /-- The query, without its mark. -/
  query? : Option String
  /-- The fragment, without its mark. -/
  fragment? : Option String
deriving DecidableEq, Inhabited, Repr

namespace Url

/-- The well-known schemes and their usual ports. -/
def knownSchemes : List (String × Option Nat) := [
  ("http", some 80), ("https", some 443), ("ws", some 80), ("wss", some 443), ("ftp", some 21),
  ("file", none)]

def isKnown (scheme : String) : Bool := knownSchemes.any fun known => known.1 == scheme

/-- Whether something stands in the place of the host. -/
def hasHost (url : Url) : Bool := url.host?.any Option.isSome

/-- The address without who is named before the host. -/
def withoutCredentials (url : Url) : Url := { url with credentials := "" }

def text (url : Url) : String :=
  let host := match url.host? with
    | some host? => "//" ++ url.credentials ++ (host?.map Host.text).getD ""
    | none => match url.path with
      | .parts ("" :: _ :: _) => "/."
      | _ => ""
  let port := match url.port? with
    | some port => ":" ++ toString port
    | none => ""
  let path := match url.path with
    | .parts parts => String.join (parts.map ("/" ++ ·))
    | .plain text => text
  let tail (mark : String) (text? : Option String) := match text? with
    | some text => mark ++ text
    | none => ""
  url.scheme ++ ":" ++ host ++ port ++ path ++ tail "?" url.query? ++ tail "#" url.fragment?

/-- The scheme in small letters, and what follows its colon. -/
def scheme? (characters : List Char) : Option (String × List Char) := do
  let (scheme, rest) ← Text.cutOnce? ':' characters
  let first ← scheme.head?
  if first.isAlpha && scheme.all fun character =>
      character.isAlphanum || character == '+' || character == '-' || character == '.' then
    some ((String.ofList scheme).toLower, rest)
  else none

/-- Whether a character ends the place of the host. -/
private def endsHost (known : Bool) (character : Char) : Bool :=
  character == '/' || character == '?' || character == '#' || (known && character == '\\')

/-- What stands before and after the last of some characters. -/
private def cutAtLast? (separator : Char) (characters : List Char) :
    Option (List Char × List Char) :=
  (Text.cutOnce? separator characters.reverse).map fun (after, before) =>
    (before.reverse, after.reverse)

/-- The characters of a host before the colon of a port, if there is one. -/
private def cutAtPort (characters : List Char) : List Char × Option (List Char) :=
  match characters with
  | '[' :: _ =>
    let inside := characters.takeWhile (· ≠ ']')
    match characters.dropWhile (· ≠ ']') with
    | ']' :: ':' :: port => (inside ++ [']'], some port)
    | _ => (characters, none)
  | _ => match Text.cutOnce? ':' characters with
    | some (host, port) => (host, some port)
    | none => (characters, none)

/-- A port that is written out; none inside if it is the usual one or empty. -/
private def readPort? (scheme : String) (digits : Option (List Char)) : Option (Option Nat) := do
  match digits with
  | none | some [] => some none
  | some digits =>
    let number ← if digits.all Char.isDigit then
        (Text.readNat 65535 (String.ofList digits)).toOption
      else none
    some (if knownSchemes.contains (scheme, some number) then none else some number)

/-- Who is named before the host, as it is written. -/
private def credentialsText (characters : List Char) : String :=
  let escapes := pathEscapes ++ ['/', ':', ';', '=', '@', '[', '\\', ']', '^', '|']
  let written (characters : List Char) := String.ofList (escaped escapes characters)
  match Text.cutOnce? ':' characters with
  | none => if characters.isEmpty then "" else written characters ++ "@"
  | some (name, password) =>
    if password.isEmpty then (if name.isEmpty then "" else written name ++ "@")
    else written name ++ ":" ++ written password ++ "@"

/-- Whether a part leads nowhere. -/
private def leadsNowhere (part : List Char) : Bool :=
  ["." , "%2e"].contains (String.ofList part).toLower

/-- Whether a part leads up. -/
private def leadsUp (part : List Char) : Bool :=
  ["..", ".%2e", "%2e.", "%2e%2e"].contains (String.ofList part).toLower

/-- Whether a part is the letter of a drive with its mark. -/
private def isDrive : List Char → Bool
  | [letter, mark] => letter.isAlpha && (mark == ':' || mark == '|')
  | _ => false

/-- Takes out parts that lead nowhere or up; at the end they leave an empty part.  Nothing leads up
from a drive. -/
private def settled (isFile : Bool) : List String → List (List Char) → List String
  | built, [] => built
  | built, part :: rest =>
    let above := match built with
      | [only] => if isFile && isDrive only.toList then built else []
      | _ => built.dropLast
    let after :=
      if leadsUp part then above ++ (if rest.isEmpty then [""] else [])
      else if leadsNowhere part then built ++ (if rest.isEmpty then [""] else [])
      else if isFile && built.isEmpty && isDrive part then [String.ofList (part.take 1 ++ [':'])]
      else built ++ [String.ofList (escaped pathEscapes part)]
    settled isFile after rest

/-- The parts of a path that begins with a slash, or is empty. -/
private def pathParts (known : Bool) (characters : List Char) : List String :=
  let slashed := characters.map fun character =>
    if known && character == '\\' then '/' else character
  match slashed with
  | [] => if known then [""] else []
  | '/' :: rest => settled false [] (Text.cutAt '/' rest)
  | other => settled false [] (Text.cutAt '/' other)

/-- The parts of the path of a file; it begins with one slash only. -/
private def filePathParts (characters : List Char) : List String :=
  let slashed := characters.map fun character => if character == '\\' then '/' else character
  let parts := settled true [] (Text.cutAt '/' (if slashed.head? == some '/' then slashed.drop 1
    else slashed))
  match parts.dropWhile String.isEmpty with
  | [] => [""]
  | parts => parts

/-- The path, the query and the fragment, of which the last two are marked. -/
private def cutTail (characters : List Char) :
    List Char × Option (List Char) × Option (List Char) :=
  let (rest, fragment?) := match Text.cutOnce? '#' characters with
    | some (rest, fragment) => (rest, some fragment)
    | none => (characters, none)
  match Text.cutOnce? '?' rest with
  | some (path, query) => (path, some query, fragment?)
  | none => (rest, none, fragment?)

/-- An address whose scheme, place of the host and path are known. -/
private def assembled (scheme credentials : String) (host? : Option (Option Host))
    (port? : Option Nat) (path : List Char → UrlPath) (rest : List Char) : Url :=
  let (pathText, query?, fragment?) := cutTail rest
  let queryEscapes := if isKnown scheme then '\'' :: queryEscapes else queryEscapes
  {
    scheme, credentials, host?, port?, path := path pathText
    query? := query?.map fun query => String.ofList (escaped queryEscapes query)
    fragment? := fragment?.map fun fragment => String.ofList (escaped fragmentEscapes fragment) }

/-- The address of a file after the scheme. -/
private def ofFile? (characters : List Char) : Option Url := do
  let isSlash (character : Char) : Bool := character == '/' || character == '\\'
  let located (host? : Option Host) (rest : List Char) : Url :=
    let parts := filePathParts (cutTail rest).1
    let host? := if parts.head?.any fun part => isDrive part.toList then none else host?
    assembled "file" "" (some host?) none (fun _ => .parts parts) rest
  match characters with
  | first :: second :: after =>
    if isSlash first && isSlash second then
      let place := after.takeWhile fun character => !endsHost true character
      let rest := after.dropWhile fun character => !endsHost true character
      if isDrive place then some (located none after)
      else if place.isEmpty then some (located none rest)
      else
        let host ← Host.read? true place
        some (located (if host == .name "localhost" then none else some host) rest)
    else some (located none characters)
  | _ => some (located none characters)

/-- An address with a place for a host, after the slashes before it. -/
private def withHost? (scheme : String) (characters : List Char) : Option Url := do
  let known := isKnown scheme
  let place := characters.takeWhile fun character => !endsHost known character
  let rest := characters.dropWhile fun character => !endsHost known character
  let (credentials, hostAndPort) := (cutAtLast? '@' place).getD ([], place)
  let (hostText, digits?) := cutAtPort hostAndPort
  let host? ← if hostText.isEmpty then
      if known || !credentials.isEmpty || digits?.isSome then none else some none
    else (Host.read? known hostText).map some
  let port? ← readPort? scheme digits?
  return assembled scheme (credentialsText credentials) (some host?) port?
    (fun path => .parts (pathParts known path)) rest

/-- Drops what is dropped around an address and inside it. -/
private def trimmed (text : String) : List Char :=
  let isOuter (character : Char) : Bool := character.toNat ≤ 0x20
  let inner := ((text.toList.dropWhile isOuter).reverse.dropWhile isOuter).reverse
  inner.filter fun character => character != '\t' && character != '\n' && character != '\r'

/-- Reads an address that stands for itself. -/
def read? (text : String) : Option Url := do
  let (scheme, rest) ← scheme? (trimmed text)
  let isSlash (character : Char) : Bool := character == '/' || character == '\\'
  if scheme == "file" then ofFile? rest
  else if isKnown scheme then withHost? scheme (rest.dropWhile isSlash)
  else
    match rest with
    | '/' :: '/' :: after => withHost? scheme after
    | '/' :: _ =>
      some (assembled scheme "" none none (fun path => .parts (pathParts false path)) rest)
    | _ =>
      some (assembled scheme "" none none
        (fun path => .plain (String.ofList (escaped [] path))) rest)

end Url

end Vetting.Web
