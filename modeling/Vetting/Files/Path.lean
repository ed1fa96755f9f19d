import Vetting.Text.Blank

/-!
Contract: paths of files as text.

Owns:
- the components of a path, and whether one path begins with the components of
  another;
- joining a name to a path, and the path above a path.

Does not own: what a path leads to (`Vetting.Files.Tree`).

Two paths with the same components may differ as text: empty parts between slashes
say nothing, and neither does a part `.` that is not the first of a relative path.
-/

namespace Vetting.Files

/-- A part of a path that says something. -/
inductive Component where
  | root
  /-- A `.` at the beginning of a relative path. -/
  | here
  | up
  | name (text : String)
deriving DecidableEq, Inhabited, Repr

/-- What a part says that is not the first one. -/
def innerComponent (part : String) : List Component :=
  if part = "" ∨ part = "." then [] else if part = ".." then [.up] else [.name part]

/-- The components of a path. -/
def components (path : String) : List Component :=
  match Text.pieces '/' path with
  | [] => []
  | first :: rest =>
    let beginning :=
      if first = "" ∧ !rest.isEmpty then [.root]
      else if first = "." then [.here]
      else innerComponent first
    beginning ++ rest.flatMap innerComponent

/-- Whether a path begins with the components of another. -/
def beginsWith (path beginning : String) : Bool :=
  (components beginning).isPrefixOf (components path)

/-- Whether a path leads up somewhere. -/
def leadsUp (path : String) : Bool := (components path).contains .up

/-- Puts a name below a path. -/
def joined (path name : String) : String :=
  if path = "" ∨ path.toList.getLast? = some '/' then path ++ name else path ++ "/" ++ name

/-- Drops parts that say nothing from the end; the parts are given last part first. -/
def trimmedParts : List String → List String
  | [] => []
  | [first] => [first]
  | part :: rest => if part = "" ∨ part = "." then trimmedParts rest else part :: rest

/-- The path above a path; there is none above the root and above the empty path. -/
def parent? (path : String) : Option String :=
  match trimmedParts (Text.pieces '/' path).reverse with
  | [] => none
  | [first] => if first = "" then none else some ""
  | _ :: rest =>
    match trimmedParts rest with
    | [""] => some "/"
    | parts => some (Text.joined "/" parts.reverse)

/-- Paths above a path, the nearest first, at most the given number of them. -/
def above : Nat → String → List String
  | 0, _ => []
  | count + 1, path =>
    match parent? path with
    | some parent => parent :: above count parent
    | none => []

/-- A path and all paths above it, the nearest first; each is shorter than the one before. -/
def ancestors (path : String) : List String := path :: above path.length path

end Vetting.Files
