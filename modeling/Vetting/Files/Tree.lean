import Vetting.Files.Path
import Vetting.Table

/-!
Contract: a tree of files, directories and symbolic links.

Owns:
- what stands at a place of the tree, and how a path leads to a place;
- reading and writing files, making directories and links, removing files;
- why such work fails, and the wording.

Does not own: artifacts, which are files at places of their own.

A place is the list of names from the root, where there is always a directory.  A
path is walked part by part.  At a symbolic link the walk goes on from its target,
at most a fixed number of times; whether a link at the very end is followed depends
on the work.  Only when a place is to be written out must all places on the way be
short enough to be written as a path.
-/

namespace Vetting.Files

/-- Why work on files fails. -/
inductive FileFault where
  | notFound
  | notDirectory
  | isDirectory
  | alreadyExists
  | tooManyLinks
  | nameTooLong
  | nulCharacter
deriving DecidableEq, Inhabited, Repr

def FileFault.message : FileFault → String
  | .notFound => "No such file or directory (os error 2)"
  | .notDirectory => "Not a directory (os error 20)"
  | .isDirectory => "Is a directory (os error 21)"
  | .alreadyExists => "File exists (os error 17)"
  | .tooManyLinks => "Too many levels of symbolic links (os error 40)"
  | .nameTooLong => "File name too long (os error 36)"
  | .nulCharacter => "file name contained an unexpected NUL byte"

/-- What stands at a place. -/
inductive Node where
  | file (bytes : ByteArray)
  | directory
  | link (target : String)
deriving Inhabited

/-- The names from the root to a place. -/
abbrev Place : Type := List String

/-- A tree of files, and the place where relative paths begin. -/
structure FileTree where
  nodes : Table Place Node
  workingDirectory : Place
deriving Inhabited

/-- A step along a path. -/
inductive Move where
  | down (name : String)
  | up
  /-- A part that leads nowhere, but only where there is a directory. -/
  | stay
deriving DecidableEq, Inhabited, Repr

/-- The step that a part of a path stands for. -/
def Move.ofPart (part : String) : Move :=
  if part = "" ∨ part = "." then .stay else if part = ".." then .up else .down part

/-- The steps of a path. -/
def moves (path : String) : List Move := (Text.pieces '/' path).map Move.ofPart

def isAbsolute (path : String) : Bool := path.toList.head? = some '/'

/-- The bytes that a name may have. -/
def longestName : Nat := 255

/-- The bytes that a path may have. -/
def longestPath : Nat := 4095

/-- The links that a walk may follow. -/
def linkLimit : Nat := 40

/-- What a path is walked for. -/
inductive Aim where
  /-- An entry of a directory; a link at the very end is not followed. -/
  | entry
  /-- What stands at the end, through all links. -/
  | target
  /-- The place of what stands at the end, which is written out on the way. -/
  | spelling
deriving DecidableEq, Inhabited, Repr

/-- The bytes of a place that is written as a path. -/
def writtenSize (place : Place) : Nat :=
  place.foldl (fun size name => size + 1 + name.utf8ByteSize) 0

/-- Whether a walk can go down to a place at all. -/
def isNameable (aim : Aim) (there : Place) (name : String) : Bool :=
  name.utf8ByteSize ≤ longestName && (aim != .spelling || writtenSize there ≤ longestPath)

namespace FileTree

/-- A tree with nothing in it. -/
def empty : FileTree := ⟨[], []⟩

def node? (tree : FileTree) : Place → Option Node
  | [] => some .directory
  | place => tree.nodes.get? place

def set (tree : FileTree) (place : Place) (node : Node) : FileTree :=
  { tree with nodes := tree.nodes.set place node }

/-- Where a path begins, seen from a place. -/
def origin (here : Place) (path : String) : Place := if isAbsolute path then [] else here

/-- The place that steps lead to, up to the first link, from where the walk goes on as given.  Nothing
need stand there, but what lies above is a directory. -/
def walkOn (tree : FileTree) (aim : Aim)
    (follow : Place → String → List Move → Except FileFault Place) (here : Place) :
    List Move → Except FileFault Place
  | [] => .ok here
  | move :: rest =>
    match tree.node? here with
    | none => .error .notFound
    | some (.file _) | some (.link _) => .error .notDirectory
    | some .directory =>
      match move with
      | .stay => walkOn tree aim follow here rest
      | .up => walkOn tree aim follow here.dropLast rest
      | .down name =>
        let there := here ++ [name]
        if isNameable aim there name then
          match tree.node? there with
          | some (.link target) =>
            if rest.isEmpty && aim == .entry then .ok there else follow here target rest
          | _ => walkOn tree aim follow there rest
        else .error .nameTooLong

/-- The place that steps lead to, through links as far as they may be followed. -/
def walk (tree : FileTree) (aim : Aim) : Nat → Place → List Move → Except FileFault Place
  | 0 => tree.walkOn aim fun _ _ _ => .error .tooManyLinks
  | links + 1 => tree.walkOn aim fun here target rest =>
    if target = "" then .error .notFound
    else walk tree aim links (origin here target) (moves target ++ rest)

/-- The place that a path leads to. -/
def locate (tree : FileTree) (aim : Aim) (path : String) : Except FileFault Place :=
  if '\x00' ∈ path.toList then .error .nulCharacter
  else if path = "" then .error .notFound
  else if longestPath < path.utf8ByteSize then .error .nameTooLong
  else tree.walk aim linkLimit (origin tree.workingDirectory path) (moves path)

/-- The place of what a path leads to through all links, written out. -/
def canonical (tree : FileTree) (path : String) : Except FileFault Place := do
  let place ← tree.locate .spelling path
  match tree.node? place with
  | some _ => return place
  | none => throw .notFound

/-- What a path leads to through all links. -/
def reached (tree : FileTree) (path : String) : Except FileFault Node := do
  match tree.node? (← tree.locate .target path) with
  | some node => return node
  | none => throw .notFound

/-- The bytes of a file. -/
def read (tree : FileTree) (path : String) : Except FileFault ByteArray := do
  match ← tree.reached path with
  | .file bytes => return bytes
  | _ => throw .isDirectory

def isDirectory (tree : FileTree) (path : String) : Bool :=
  match tree.reached path with
  | .ok .directory => true
  | _ => false

/-- Makes a file or replaces its bytes.  A path that ends in a slash names no file. -/
def write (tree : FileTree) (path : String) (bytes : ByteArray) : Except FileFault FileTree := do
  let place ← tree.locate .target path
  if path.toList.getLast? = some '/' then throw .isDirectory
  match tree.node? place with
  | some .directory => throw .isDirectory
  | _ => return tree.set place (.file bytes)

/-- Puts something at a place where nothing stands. -/
def make (tree : FileTree) (path : String) (node : Node) : Except FileFault FileTree := do
  let place ← tree.locate .entry path
  match tree.node? place with
  | some _ => throw .alreadyExists
  | none => return tree.set place node

def makeDirectory (tree : FileTree) (path : String) : Except FileFault FileTree :=
  tree.make path .directory

def makeLink (tree : FileTree) (target path : String) : Except FileFault FileTree :=
  tree.make path (.link target)

/-- Removes a file or a link. -/
def removeFile (tree : FileTree) (path : String) : Except FileFault FileTree := do
  let place ← tree.locate .entry path
  match tree.node? place with
  | none => throw .notFound
  | some .directory => throw .isDirectory
  | some _ => return { tree with nodes := tree.nodes.remove place }

/-- Makes a directory.  One that is there already is fine. -/
def makeIfMissing (tree : FileTree) (path : String) : Except FileFault Unit × FileTree :=
  match tree.makeDirectory path with
  | .ok after => (.ok (), after)
  | .error fault => (if tree.isDirectory path then .ok () else .error fault, tree)

/-- Makes the first of some directories, each of which lies in the next one, after those that are
missing above it. -/
def makeLineage (tree : FileTree) : List String → Except FileFault Unit × FileTree
  | [] => (.error .notFound, tree)
  | path :: above =>
    if path = "" then (.ok (), tree)
    else match tree.makeDirectory path with
      | .error .notFound =>
        match makeLineage tree above with
        | (.ok (), after) => after.makeIfMissing path
        | (.error fault, after) => (.error fault, after)
      | _ => tree.makeIfMissing path

/-- Makes a directory and those that are missing above it.  After a fault some of them may stand. -/
def makeDirectories (tree : FileTree) (path : String) : Except FileFault Unit × FileTree :=
  tree.makeLineage (ancestors path)

end FileTree

end Vetting.Files
