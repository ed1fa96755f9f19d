import Vetting.Proofs.Artifact.Containment
import Vetting.Proofs.Files.Changes

/-!
Contract: reading back what was written as an artifact.

Owns:
- where the artifact of a key is written, and what else changes;
- that its address is answered with what was written, unless the root leads up.

Does not own: files outside the directory (`Vetting.Proofs.Artifact.Containment`).

A key is cleaned of parts that lead up, but the root is not.  An address that leads up is refused even
if the directory itself has given it.
-/

namespace Vetting.Artifact.Directory

open Files (FileTree Place beginsWith leadsUp)

/-- What is written under a key is answered at the address that is given for it. -/
def ReadsBack (directory : Directory) (key : String) (bytes : ByteArray) (tree : FileTree) : Prop :=
  ∀ address after, directory.write key bytes tree = (.ok address, after) →
    directory.read address after = .ok bytes

section Keys

theorem mem_cleanParts_iff {part key : String} :
    part ∈ cleanParts key ↔ part ∈ Text.pieces '/' key ∧ part ≠ "" ∧ part ≠ ".." := by
  simp [cleanParts]

theorem slash_not_mem_of_mem_cleanParts {part key : String} (member : part ∈ cleanParts key) :
    '/' ∉ part.toList :=
  Text.not_mem_of_mem_pieces (mem_cleanParts_iff.mp member).1

theorem beginsWith_pathOfKey (directory : Directory) (key : String) :
    beginsWith (directory.pathOfKey key) directory.root = true :=
  (Files.foldl_joined (fun _ => slash_not_mem_of_mem_cleanParts) directory.root).1

/-- The path of a key leads up only if the root does. -/
theorem leadsUp_pathOfKey (directory : Directory) (key : String) :
    leadsUp (directory.pathOfKey key) = leadsUp directory.root := by
  have notUp : ".." ∉ cleanParts key := fun member => (mem_cleanParts_iff.mp member).2.2 rfl
  have same := (Files.foldl_joined (fun part => @slash_not_mem_of_mem_cleanParts part key)
    directory.root).2
  rw [Bool.eq_iff_iff]
  exact same.trans (or_iff_left notUp)

end Keys

section ReadBack

variable {directory : Directory} {tree after : FileTree} {key address path : String}
  {bytes : ByteArray}

/-- Without links a path that begins with the root and does not lead up stays below it. -/
theorem isLedOut_eq_false (free : tree.LinkFree) (notUp : leadsUp path = false)
    (begins : beginsWith path directory.root = true) : directory.isLedOut tree path = false := by
  unfold isLedOut
  cases spelled : tree.canonical path with
  | error fault => rfl
  | ok place =>
    cases spelledRoot : tree.canonical directory.root with
    | error fault => rfl
    | ok base =>
      obtain ⟨found, _⟩ := FileTree.canonical_eq_ok_iff.mp spelled
      obtain ⟨foundRoot, _⟩ := FileTree.canonical_eq_ok_iff.mp spelledRoot
      obtain ⟨links, _, direct⟩ := FileTree.exists_walked_leading found (by decide)
      obtain ⟨others, _, directRoot⟩ := FileTree.exists_walked_leading foundRoot (by decide)
      have nonempty := (FileTree.locate_eq_ok_iff.mp foundRoot).2.1
      obtain ⟨rest, _, isLeading⟩ := Files.leading_of_beginsWith begins
      have noUp : .up ∉ FileTree.leading (Files.moves path) := by
        intro member
        rw [(Files.up_mem_moves_iff path).mp (List.mem_of_mem_filter member)] at notUp
        cases notUp
      have isPlace := direct.place_eq free noUp
      rw [isLeading] at isPlace noUp
      have isBase := directRoot.place_eq free fun member => noUp (List.mem_append_left _ member)
      unfold FileTree.origin at isPlace isBase
      rw [Files.isAbsolute_of_beginsWith begins nonempty] at isPlace
      rw [isPlace, isBase, FileTree.namesDown, List.filterMap_append, ← List.append_assoc]
      simp [FileTree.namesDown]

theorem grows_makeAbove {result : Except BackendFault Unit} (made : makeAbove path tree = (result, after)) :
    FileTree.Grows tree after := by
  unfold makeAbove at made
  split at made
  · cases made
    exact .refl tree
  · cases made
    exact FileTree.grows_makeDirectories rfl

/-- A write makes the directories above the file and then the file. -/
theorem write_eq_ok_iff :
    directory.write key bytes tree = (.ok address, after) ↔
      ∃ middle, makeAbove (directory.pathOfKey key) tree = (.ok (), middle) ∧
        middle.write (directory.pathOfKey key) bytes = .ok after ∧ address = directory.address key := by
  rcases made : makeAbove (directory.pathOfKey key) tree with ⟨result, middle⟩
  cases result with
  | error fault => simp [write, made]
  | ok =>
    cases written : middle.write (directory.pathOfKey key) bytes with
    | error fault => simp [write, made, written]
    | ok tree => simp [write, made, written, and_comm, eq_comm]

/-- A write that is answered makes a file below the root, at a path that has only parts of the key
below that of the root and none that leads up.  Nothing else changes but that directories are made.  The
address that is answered can be read exactly if the root does not lead up. -/
theorem read_of_write (free : tree.LinkFree)
    (written : directory.write key bytes tree = (.ok address, after)) :
    ∃ (parts : List String) (path : String) (place : Place),
      parts.Sublist (Text.pieces '/' key) ∧ ".." ∉ parts ∧
      path = parts.foldl Files.joined directory.root ∧ address = "file://" ++ path ∧
      after.locate .target path = .ok place ∧ after.node? place = some (.file bytes) ∧
      (∀ other, other ≠ place → after.node? other = tree.node? other ∨
        tree.node? other = none ∧ after.node? other = some .directory) ∧
      directory.read address after =
        if ".." ∈ Text.pieces '/' directory.root then
          .error (.artifact ("artifact uri outside storage root: " ++ address))
        else .ok bytes := by
  obtain ⟨middle, made, isWrite, rfl⟩ := write_eq_ok_iff.mp written
  obtain ⟨place, found, _, noDirectory, rfl⟩ := FileTree.write_eq_ok_iff.mp isWrite
  have grows := grows_makeAbove made
  have freeMiddle := grows.keepsWays.linkFree free
  have keeps : middle.KeepsWays (middle.set place (.file bytes)) :=
    FileTree.keepsWays_set noDirectory (freeMiddle place)
  have isBelow : place ≠ [] := by
    rintro rfl
    exact noDirectory rfl
  have isFile : (middle.set place (.file bytes)).node? place = some (.file bytes) := by
    rw [FileTree.node?_set isBelow, if_pos rfl]
  -- the path leads to the same place in the changed tree
  have foundAfter := FileTree.locate_kept found keeps rfl
  refine ⟨cleanParts key, directory.pathOfKey key, place, List.filter_sublist,
    fun member => (mem_cleanParts_iff.mp member).2.2 rfl, rfl, rfl, foundAfter, isFile, ?_, ?_⟩
  · intro other isOther
    rw [FileTree.node?_set isBelow, if_neg isOther.symm]
    exact grows.node other
  · have begins := beginsWith_pathOfKey directory key
    have isUp := leadsUp_pathOfKey directory key
    unfold address
    rw [read_of_path (pathOfAddress_append (directory.pathOfKey key)), isUp, begins]
    by_cases up : leadsUp directory.root = true
    · rw [if_pos ((Files.leadsUp_iff _).mp up), up]
      rfl
    · rw [if_neg fun member => up ((Files.leadsUp_iff _).mpr member)]
      have notUp : leadsUp directory.root = false := by simpa using up
      rw [notUp, isLedOut_eq_false (keeps.linkFree freeMiddle) (isUp.trans notUp) begins,
        FileTree.read_eq_ok_iff.mpr ⟨place, foundAfter, isFile⟩]
      rfl

end ReadBack

end Vetting.Artifact.Directory

namespace Vetting.Example

open Artifact Files

theorem linkFree_machine : machine.LinkFree := by
  intro place target isLink
  cases place with
  | nil => cases isLink
  | cons name rest =>
    simp only [FileTree.node?, machine, Table.get?] at isLink
    split_ifs at isLink <;> cases isLink

theorem written_of_toOption {outcome : Except BackendFault String × FileTree} {address : String}
    (answered : outcome.1.toOption = some address) : outcome = (.ok address, outcome.2) :=
  Prod.ext (eq_ok_of_toOption answered) rfl

/-- A file that is written in place of another, by a key that would lead up, can be read back. -/
theorem readsBack_machine :
    (Directory.mk "store").ReadsBack "..//input" "[]".toUTF8 machine ∧
      ∃ after, (Directory.mk "store").write "..//input" "[]".toUTF8 machine =
        (.ok "file://store/input", after) := by
  have written : (Directory.mk "store").write "..//input" "[]".toUTF8 machine =
      (.ok "file://store/input", _) := written_of_toOption (by decide +kernel)
  refine ⟨fun address other answered => ?_, _, written⟩
  obtain ⟨_, _, _, _, _, _, _, _, _, _, isRead⟩ := Directory.read_of_write linkFree_machine answered
  rw [isRead]
  exact if_neg (by decide +kernel)

/-- A directory whose root leads up refuses the address that it has given. -/
theorem not_readsBack :
    ¬ (Directory.mk "../srv/store").ReadsBack "runs/input" "[]".toUTF8 machine := by
  intro readsBack
  have written : (Directory.mk "../srv/store").write "runs/input" "[]".toUTF8 machine =
      (.ok ("file://" ++ "../srv/store/runs/input"), _) := written_of_toOption (by decide +kernel)
  have answered := readsBack _ _ written
  rw [Directory.read_of_path (Directory.pathOfAddress_append "../srv/store/runs/input"),
    (show leadsUp "../srv/store/runs/input" = true by decide +kernel)] at answered
  cases answered

end Vetting.Example
