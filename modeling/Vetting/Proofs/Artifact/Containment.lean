import Vetting.Artifact.Directory
import Vetting.Proofs.Files.Paths

/-!
Contract: which files a directory of artifacts answers.

Owns:
- the directory that a root stands for, and which places lie in it;
- when the file that an address leads to lies in that directory;
- when nothing keeps it there.

Does not own: what is written (`Vetting.Proofs.Artifact.ReadBack`).

Where a path leads is looked at only if the place at its end can be written out and if the root leads
somewhere.  The empty root stands for the working directory, but it leads nowhere.
-/

namespace Vetting.Artifact.Directory

open Files (FileTree Place components beginsWith leadsUp longestPath)

/-- The place of the directory that the root stands for. -/
def base? (directory : Directory) (tree : FileTree) : Option Place :=
  if directory.root = "" then some tree.workingDirectory
  else match tree.locate .target directory.root with
    | .error _ => none
    | .ok base => match tree.node? base with
      | some .directory => some base
      | _ => none

/-- A place lies in the directory that the root stands for. -/
def Within (directory : Directory) (tree : FileTree) (place : Place) : Prop :=
  ∃ base, directory.base? tree = some base ∧ base <+: place

/-- Every file that is answered lies in the directory of the root. -/
def Contains (directory : Directory) (tree : FileTree) : Prop :=
  ∀ address bytes, directory.read address tree = .ok bytes →
    ∃ path place, pathOfAddress address = .ok path ∧ tree.locate .target path = .ok place ∧
      directory.Within tree place

section Answers

variable {directory : Directory} {tree : FileTree} {address path : String} {place : Place}
  {bytes : ByteArray}

theorem base?_eq_some_iff (nonempty : directory.root ≠ "") {base : Place} :
    directory.base? tree = some base ↔
      tree.locate .target directory.root = .ok base ∧ tree.node? base = some .directory := by
  unfold base?
  rw [if_neg nonempty]
  cases found : tree.locate .target directory.root with
  | error fault => simp
  | ok there =>
    simp only [Except.ok.injEq]
    constructor
    · intro isBase
      split at isBase
      · rename_i isNode
        obtain rfl := Option.some.inj isBase
        exact ⟨rfl, isNode⟩
      · cases isBase
    · rintro ⟨rfl, isNode⟩
      rw [isNode]

theorem read_of_path (isPath : pathOfAddress address = .ok path) :
    directory.read address tree =
      if leadsUp path || !beginsWith path directory.root || directory.isLedOut tree path then
        .error (.artifact ("artifact uri outside storage root: " ++ address))
      else (tree.read path).mapError (faultAt path) := by
  unfold read containedPath
  rw [isPath]
  simp only [bind, Except.bind]
  generalize (leadsUp path || !beginsWith path directory.root || directory.isLedOut tree path) = refused
  cases refused <;> rfl

theorem mapError_eq_ok_iff {fault : Files.FileFault → BackendFault}
    {result : Except Files.FileFault ByteArray} : result.mapError fault = .ok bytes ↔ result = .ok bytes := by
  cases result <;> simp [Except.mapError]

theorem read_eq_ok_iff :
    directory.read address tree = .ok bytes ↔
      ∃ path, pathOfAddress address = .ok path ∧ leadsUp path = false ∧
        beginsWith path directory.root = true ∧ directory.isLedOut tree path = false ∧
        tree.read path = .ok bytes := by
  cases isPath : pathOfAddress address with
  | error fault =>
    unfold read containedPath
    rw [isPath]
    simp [bind, Except.bind]
  | ok path =>
    rw [read_of_path isPath]
    constructor
    · intro answered
      split at answered
      · cases answered
      · rename_i kept
        simp only [Bool.or_eq_true, Bool.not_eq_true', not_or, Bool.not_eq_true,
          Bool.not_eq_false] at kept
        exact ⟨path, rfl, kept.1.1, kept.1.2, kept.2, mapError_eq_ok_iff.mp answered⟩
    · rintro ⟨other, same, notUp, begins, notLedOut, isRead⟩
      cases same
      rw [notUp, begins, notLedOut]
      exact mapError_eq_ok_iff.mpr isRead

theorem pathOfAddress_append (path : String) : pathOfAddress ("file://" ++ path) = .ok path := by
  rw [pathOfAddress, Text.afterText?, String.toList_append, Text.after?_append, Option.map_some,
    String.ofList_toList]

end Answers

section Containment

variable {directory : Directory} {tree : FileTree} {path : String} {place : Place} {bytes : ByteArray}

/-- A file that a path leads to past the root's own directory lies in it, unless it is led out. -/
theorem within_of_canonical (nonempty : directory.root ≠ "")
    (short : directory.root.utf8ByteSize ≤ longestPath)
    (further : components directory.root ≠ components path)
    (begins : beginsWith path directory.root = true) (spelled : tree.canonical path = .ok place)
    (notLedOut : directory.isLedOut tree path = false) : directory.Within tree place := by
  obtain ⟨found, _⟩ := FileTree.canonical_eq_ok_iff.mp spelled
  obtain ⟨base, isBase, inside⟩ :=
    FileTree.exists_located_beginning found (by decide) begins nonempty short further
  have spelledRoot : tree.canonical directory.root = .ok base :=
    FileTree.canonical_eq_ok_iff.mpr ⟨isBase, by simp [inside]⟩
  refine ⟨base, (base?_eq_some_iff nonempty).mpr ⟨FileTree.locate_target isBase, inside⟩, ?_⟩
  simpa [isLedOut, spelled, spelledRoot] using notLedOut

/-- The path of the root itself does not lead to a file in its directory. -/
theorem components_ne_of_within (nonempty : directory.root ≠ "")
    (begins : beginsWith path directory.root = true) (found : tree.locate .target path = .ok place)
    (isFile : tree.node? place = some (.file bytes)) (within : directory.Within tree place) :
    components directory.root ≠ components path := by
  intro same
  obtain ⟨base, isBase, _⟩ := within
  obtain ⟨foundRoot, isDirectory⟩ := (base?_eq_some_iff nonempty).mp isBase
  obtain ⟨links, _, direct⟩ := FileTree.exists_walked_leading found (by decide)
  obtain ⟨others, _, directRoot⟩ := FileTree.exists_walked_leading foundRoot (by decide)
  unfold FileTree.origin at direct directRoot
  rw [Files.leading_moves, ← same, ← Files.leading_moves,
    Files.isAbsolute_of_beginsWith begins nonempty] at direct
  obtain rfl := direct.unique directRoot
  rw [isFile] at isDirectory
  cases isDirectory

/-- What an address leads to, if it is answered: a file in the directory of the root exactly if the root
is neither empty nor too long nor itself the path, as long as the place of the file can be written out.
If it cannot be, or if the root is empty, every file is answered whose path begins with the root and
does not lead up. -/
theorem within_iff_of_read (directory : Directory) (tree : FileTree) :
    (∀ address bytes, directory.read address tree = .ok bytes →
      ∃ path place, pathOfAddress address = .ok path ∧ tree.locate .target path = .ok place ∧
        tree.node? place = some (.file bytes) ∧
        (tree.canonical path = .ok place → directory.root ≠ "" →
          (directory.Within tree place ↔ directory.root.utf8ByteSize ≤ longestPath ∧
            components directory.root ≠ components path))) ∧
    (∀ path, leadsUp path = false → beginsWith path directory.root = true →
      (directory.root = "" ∨ ∀ place, tree.canonical path ≠ .ok place) →
      directory.read ("file://" ++ path) tree = (tree.read path).mapError (faultAt path)) := by
  constructor
  · intro address bytes answered
    obtain ⟨path, isPath, _, begins, notLedOut, isRead⟩ := read_eq_ok_iff.mp answered
    obtain ⟨place, found, isFile⟩ := FileTree.read_eq_ok_iff.mp isRead
    refine ⟨path, place, isPath, found, isFile, fun spelled nonempty => ⟨fun within => ?_, ?_⟩⟩
    · have further := components_ne_of_within nonempty begins found isFile within
      obtain ⟨base, isBase, _⟩ := within
      obtain ⟨foundRoot, _⟩ := (base?_eq_some_iff nonempty).mp isBase
      exact ⟨(FileTree.locate_eq_ok_iff.mp foundRoot).2.2.1, further⟩
    · rintro ⟨short, further⟩
      exact within_of_canonical nonempty short further begins spelled notLedOut
  · intro path notUp begins unchecked
    have notLedOut : directory.isLedOut tree path = false := by
      unfold isLedOut
      rcases unchecked with empty | nowhere
      · have nowhere : ∀ place, tree.canonical "" ≠ .ok place := by
          intro place spelled
          exact (FileTree.locate_eq_ok_iff.mp (FileTree.canonical_eq_ok_iff.mp spelled).1).2.1 rfl
        rw [empty]
        split
        · rename_i place _ spelled
          exact absurd spelled (nowhere place)
        · rfl
      · split
        · rename_i place _ spelled _
          exact absurd spelled (nowhere place)
        · rfl
    rw [read_of_path (pathOfAddress_append path), notUp, begins, notLedOut]
    rfl

end Containment

end Vetting.Artifact.Directory

namespace Vetting.Example

open Artifact Files

/-- A machine with a directory of artifacts, and other files. -/
def machine : FileTree where
  nodes := [
    (["etc"], .directory), (["etc", "hostname"], .file "vetting".toUTF8),
    (["srv"], .directory), (["srv", "notes"], .file "n".toUTF8),
    (["srv", "store"], .directory), (["srv", "store", "input"], .file "{}".toUTF8)]
  workingDirectory := ["srv"]

theorem eq_ok_of_toOption {fault answer : Type} {result : Except fault answer} {found : answer}
    (answered : result.toOption = some found) : result = .ok found := by
  cases result with
  | error other => cases answered
  | ok same =>
    cases answered
    rfl

theorem answered_machine (root path : String) (place : Place) {bytes : ByteArray}
    (kept : leadsUp path = false ∧ beginsWith path root = true ∧
      (Directory.mk root).isLedOut machine path = false)
    (found : (machine.locate .target path).toOption = some place)
    (isFile : machine.node? place = some (.file bytes)) :
    (Directory.mk root).read ("file://" ++ path) machine = .ok bytes :=
  Directory.read_eq_ok_iff.mpr ⟨path, Directory.pathOfAddress_append path, kept.1, kept.2.1, kept.2.2,
    FileTree.read_eq_ok_iff.mpr ⟨place, eq_ok_of_toOption found, isFile⟩⟩

/-- A file of the directory is answered and lies in it. -/
theorem within_machine :
    (Directory.mk "store").read ("file://" ++ "store/./input") machine = .ok "{}".toUTF8 ∧
      (Directory.mk "store").Within machine ["srv", "store", "input"] := by
  have answered := answered_machine "store" "store/./input" ["srv", "store", "input"]
    (by decide +kernel) (by decide +kernel) rfl
  refine ⟨answered, ?_⟩
  obtain ⟨path, place, isPath, found, _, within⟩ :=
    ((Directory.mk "store").within_iff_of_read machine).1 _ _ answered
  obtain rfl := Except.ok.inj ((Directory.pathOfAddress_append "store/./input").symm.trans isPath)
  have isPlace : machine.locate .target "store/./input" = .ok ["srv", "store", "input"] :=
    eq_ok_of_toOption (by decide +kernel)
  obtain rfl := Except.ok.inj (isPlace.symm.trans found)
  have spelled : machine.canonical "store/./input" = .ok ["srv", "store", "input"] :=
    FileTree.canonical_eq_ok_iff.mpr ⟨eq_ok_of_toOption (by decide +kernel), nofun⟩
  exact (within spelled (by decide)).mpr ⟨by decide, by decide⟩

/-- The empty root lets every file through, and a root that is a file is answered itself. -/
theorem not_contains :
    ¬ (Directory.mk "").Contains machine ∧ ¬ (Directory.mk "notes").Contains machine := by
  constructor
  · intro contains
    have answered := answered_machine "" "/etc/hostname" ["etc", "hostname"]
      (by decide +kernel) (by decide +kernel) rfl
    obtain ⟨path, place, isPath, found, base, isBase, isPrefix⟩ := contains _ _ answered
    obtain rfl := Except.ok.inj ((Directory.pathOfAddress_append "/etc/hostname").symm.trans isPath)
    have isPlace : machine.locate .target "/etc/hostname" = .ok ["etc", "hostname"] :=
      eq_ok_of_toOption (by decide +kernel)
    obtain rfl := Except.ok.inj (isPlace.symm.trans found)
    obtain rfl : ["srv"] = base := Option.some.inj isBase
    exact absurd isPrefix (by decide)
  · intro contains
    have answered := answered_machine "notes" "notes" ["srv", "notes"]
      (by decide +kernel) (by decide +kernel) rfl
    obtain ⟨path, place, isPath, found, base, isBase, isPrefix⟩ := contains _ _ answered
    have isPlace : machine.locate .target "notes" = .ok ["srv", "notes"] :=
      eq_ok_of_toOption (by decide +kernel)
    obtain ⟨foundRoot, inside⟩ := (Directory.base?_eq_some_iff (by decide)).mp isBase
    obtain rfl := Except.ok.inj (isPlace.symm.trans foundRoot)
    cases inside

end Vetting.Example
