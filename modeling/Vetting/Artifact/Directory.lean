import Vetting.Artifact.Store
import Vetting.Files.Tree

/-!
Contract: artifacts in a directory.

Owns:
- the path of a key and the path of an address;
- which addresses may be read;
- writing and reading artifacts as files.

Does not own: the files themselves.

A key is cleaned as it becomes a path: empty parts and parts that lead up are
dropped.  An address is not cleaned: it is refused if a part leads up, if its path
does not begin with the root of the directory, or if what it leads to through links
lies outside; the last is looked at only if both the root and the path lead
somewhere.
-/

namespace Vetting.Artifact

open Files (FileTree FileFault)

/-- A directory of artifacts, by its path. -/
structure Directory where
  root : String
deriving DecidableEq, Inhabited

namespace Directory

/-- The parts of a key that lead to its artifact. -/
def cleanParts (key : String) : List String :=
  (Text.pieces '/' key).filter fun part => part != "" && part != ".."

/-- The path of the artifact of a key. -/
def pathOfKey (directory : Directory) (key : String) : String :=
  (cleanParts key).foldl Files.joined directory.root

def address (directory : Directory) (key : String) : String :=
  "file://" ++ directory.pathOfKey key

/-- The path of an address. -/
def pathOfAddress (address : String) : Except BackendFault String :=
  match Text.afterText? "file://" address with
  | some path => .ok path
  | none => .error (.artifact ("unsupported artifact uri: " ++ address))

/-- Whether a path leads out of the directory through links; not if either leads nowhere. -/
def isLedOut (directory : Directory) (tree : FileTree) (path : String) : Bool :=
  match tree.canonical path, tree.canonical directory.root with
  | .ok place, .ok root => !root.isPrefixOf place
  | _, _ => false

/-- The path of an address that may be read. -/
def containedPath (directory : Directory) (tree : FileTree) (address : String) :
    Except BackendFault String := do
  let path ← pathOfAddress address
  if Files.leadsUp path || !Files.beginsWith path directory.root
      || directory.isLedOut tree path then
    throw (.artifact ("artifact uri outside storage root: " ++ address))
  return path

def faultAt (path : String) (fault : FileFault) : BackendFault :=
  .artifact (path ++ ": " ++ fault.message)

/-- Makes the directories above a path. -/
def makeAbove (path : String) (tree : FileTree) : Except BackendFault Unit × FileTree :=
  match Files.parent? path with
  | none => (.ok (), tree)
  | some parent =>
    let (made, tree) := tree.makeDirectories parent
    (made.mapError (faultAt parent), tree)

/-- Writes the artifact of a key and answers its address. -/
def write (directory : Directory) (key : String) (bytes : ByteArray) (tree : FileTree) :
    Except BackendFault String × FileTree :=
  let path := directory.pathOfKey key
  match makeAbove path tree with
  | (.error fault, tree) => (.error fault, tree)
  | (.ok (), tree) =>
    match tree.write path bytes with
    | .ok tree => (.ok (directory.address key), tree)
    | .error fault => (.error (faultAt path fault), tree)

/-- Reads the artifact at an address. -/
def read (directory : Directory) (address : String) (tree : FileTree) :
    Except BackendFault ByteArray := do
  let path ← directory.containedPath tree address
  (tree.read path).mapError (faultAt path)

end Directory

/-- The store that keeps artifacts in a directory. -/
def ArtifactStore.inDirectory (directory : Directory) : ArtifactStore (StateM FileTree) where
  address := directory.address
  write key bytes := directory.write key bytes
  read address := do return directory.read address (← get)

end Vetting.Artifact
