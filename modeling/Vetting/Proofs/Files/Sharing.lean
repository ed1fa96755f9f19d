import Vetting.Proofs.Files.Lineage

/-!
Contract: the files of one directory.

Owns:
- trees in which directories reach down to a depth and files lie one name deeper;
- changes of files that lie in one directory, which may have to be made, and what they keep;
- writing, removing and reading such a file by its name.

Does not own: who changes the files (`Vetting.Proofs.Backend.Attempts`).
-/

namespace Vetting.Files.FileTree

/-- Below a place there are directories down to a depth, and files one name deeper. -/
def Layered (tree : FileTree) (base : Place) (depth : Nat) : Prop :=
  ∀ rest node, rest ≠ [] → tree.node? (base ++ rest) = some node →
    node = .directory ∧ rest.length ≤ depth ∨
      rest.length = depth + 1 ∧ ∃ bytes, node = .file bytes

/-- Only files that lie in one directory become others. -/
structure Filed (work : Place) (tree after : FileTree) : Prop where
  workingDirectory : after.workingDirectory = tree.workingDirectory
  elsewhere : ∀ place, (∀ name, place ≠ work ++ [name]) → after.node? place = tree.node? place
  isFile : ∀ name node, after.node? (work ++ [name]) = some node → ∃ bytes, node = .file bytes

section Layered

variable {tree after : FileTree} {base work : Place} {names : List String} {depth : Nat}

/-- In a directory at the depth there are only files. -/
theorem Layered.below (layered : tree.Layered base names.length) :
    tree.Layered (base ++ names) 0 := by
  intro rest node nonempty present
  have positive := List.length_pos_iff.mpr nonempty
  rw [List.append_assoc] at present
  rcases layered (names ++ rest) node (by simp [nonempty]) present with ⟨_, few⟩ | ⟨deep, isFile⟩
  · rw [List.length_append] at few
    omega
  · rw [List.length_append] at deep
    exact .inr ⟨by omega, isFile⟩

theorem Layered.isFile (layered : tree.Layered work 0) {name : String} {node : Node}
    (present : tree.node? (work ++ [name]) = some node) : ∃ bytes, node = .file bytes := by
  rcases layered [name] node (by simp) present with ⟨_, few⟩ | ⟨_, isFile⟩
  · cases few
  · exact isFile

theorem Layered.ne_link (layered : tree.Layered work 0) (name target : String) :
    tree.node? (work ++ [name]) ≠ some (.link target) := by
  intro isLink
  obtain ⟨bytes, isFile⟩ := layered.isFile isLink
  cases isFile

theorem Layered.ne_directory (layered : tree.Layered work 0) (name : String) :
    tree.node? (work ++ [name]) ≠ some .directory := by
  intro inside
  obtain ⟨bytes, isFile⟩ := layered.isFile inside
  cases isFile

/-- Directories may be made by as many names as the tree is deep. -/
theorem Layered.of_growsAlong (layered : tree.Layered base depth)
    (along : GrowsAlong base names tree after) (few : names.length ≤ depth) :
    after.Layered base depth := by
  intro rest node nonempty present
  rcases along.node (base ++ rest) with same | ⟨_, made, part, _, isPart, isPlace⟩
  · exact layered rest node nonempty (same ▸ present)
  · rw [made] at present
    cases present
    rw [List.append_cancel_left isPlace]
    exact .inl ⟨rfl, isPart.length_le.trans few⟩

theorem Layered.clear (layered : tree.Layered base depth) (few : names.length ≤ depth) :
    tree.Clear base names := by
  intro part nonempty isPart
  cases isNode : tree.node? (base ++ part) with
  | none => exact .inl rfl
  | some node =>
    rcases layered part node nonempty isNode with ⟨rfl, _⟩ | ⟨deep, _⟩
    · exact .inr rfl
    · have := isPart.length_le
      omega

theorem Filed.refl (layered : tree.Layered work 0) : Filed work tree tree :=
  ⟨rfl, fun _ _ => rfl, fun _ _ present => layered.isFile present⟩

theorem Filed.keepsWays (filed : Filed work tree after) (layered : tree.Layered work 0) :
    tree.KeepsWays after where
  directory := by
    intro place inside
    rw [filed.elsewhere place, inside]
    rintro name rfl
    exact layered.ne_directory name inside
  link := by
    intro place target
    by_cases isHere : ∃ name, place = work ++ [name]
    · obtain ⟨name, rfl⟩ := isHere
      constructor
      · intro isLink
        obtain ⟨bytes, isFile⟩ := filed.isFile name _ isLink
        cases isFile
      · intro isLink
        exact absurd isLink (layered.ne_link name target)
    · rw [filed.elsewhere place fun name same => isHere ⟨name, same⟩]

theorem Filed.layered (filed : Filed (base ++ names) tree after)
    (layered : tree.Layered base names.length) : after.Layered base names.length := by
  intro rest node nonempty present
  by_cases isHere : ∃ name, rest = names ++ [name]
  · obtain ⟨name, rfl⟩ := isHere
    rw [← List.append_assoc] at present
    exact .inr ⟨by simp, filed.isFile name node present⟩
  · rw [filed.elsewhere] at present
    · exact layered rest node nonempty present
    · intro name same
      rw [List.append_assoc] at same
      exact isHere ⟨name, List.append_cancel_left same⟩

end Layered

/-- What may become of a tree when files of one directory change, which may have to be made. -/
structure Touched (work : Place) (tree after : FileTree) : Prop where
  workingDirectory : after.workingDirectory = tree.workingDirectory
  node : ∀ place, after.node? place = tree.node? place ∨
    (tree.node? place = none ∧ after.node? place = some .directory) ∨ ∃ name, place = work ++ [name]

section Touched

variable {work : Place} {tree middle after : FileTree}

theorem Touched.refl (work : Place) (tree : FileTree) : Touched work tree tree :=
  ⟨rfl, fun _ => .inl rfl⟩

theorem Touched.trans (first : Touched work tree middle) (second : Touched work middle after) :
    Touched work tree after where
  workingDirectory := second.workingDirectory.trans first.workingDirectory
  node := by
    intro place
    rcases second.node place with same | ⟨absent, made⟩ | isHere
    · rw [same]
      exact first.node place
    · rcases first.node place with same | ⟨_, madeBefore⟩ | isHere
      · exact .inr (.inl ⟨same ▸ absent, made⟩)
      · rw [madeBefore] at absent
        cases absent
      · exact .inr (.inr isHere)
    · exact .inr (.inr isHere)

theorem Touched.of_grows (grows : Grows tree after) : Touched work tree after :=
  ⟨grows.workingDirectory, fun place => (grows.node place).imp_right .inl⟩

theorem Touched.of_filed (filed : Filed work tree after) : Touched work tree after := by
  refine ⟨filed.workingDirectory, fun place => ?_⟩
  by_cases isHere : ∃ name, place = work ++ [name]
  · exact .inr (.inr isHere)
  · exact .inl (filed.elsewhere place fun name same => isHere ⟨name, same⟩)

end Touched

/-! ### A file by its name -/

section Named

variable {tree : FileTree} {path name : String} {work : Place} {bytes : ByteArray}

theorem filed_set (layered : tree.Layered work 0) (name : String) (bytes : ByteArray) :
    Filed work tree (tree.set (work ++ [name]) (.file bytes)) := by
  refine ⟨rfl, fun place outside => ?_, fun other node present => ?_⟩
  · rw [node?_set (by simp), if_neg (outside name).symm]
  · rw [node?_set (by simp)] at present
    split at present
    · cases present
      exact ⟨bytes, rfl⟩
    · exact layered.isFile present

theorem filed_remove (layered : tree.Layered work 0) (name : String) :
    Filed work tree { tree with nodes := tree.nodes.remove (work ++ [name]) } := by
  refine ⟨rfl, fun place outside => ?_, fun other node present => ?_⟩
  · rw [node?_remove (by simp), if_neg (outside name).symm]
  · rw [node?_remove (by simp)] at present
    split at present
    · cases present
    · exact layered.isFile present

theorem Opens.write_joined (opens : tree.Opens path work) (layered : tree.Layered work 0)
    (plain : PlainName name) (bytes : ByteArray) :
    tree.write (Files.joined path name) bytes =
      if Fits path name then .ok (tree.set (work ++ [name]) (.file bytes)) else .error .nameTooLong := by
  have found : tree.locate .target (Files.joined path name) = _ :=
    opens.locate_joined plain (by decide) (layered.ne_link name)
  have noSlash : (Files.joined path name).toList.getLast? ≠ some '/' := by
    have isName : name.toList ≠ [] := by simpa using plain.nonempty
    have isLast : (Files.joined path name).toList.getLast? = name.toList.getLast? := by
      unfold Files.joined
      split <;> rw [String.toList_append, List.getLast?_append_of_ne_nil _ isName]
    rw [isLast]
    exact fun slash => plain.noSlash (List.mem_of_getLast? slash)
  by_cases fits : Fits path name
  · rw [if_pos fits] at found ⊢
    exact write_eq_ok_iff.mpr ⟨_, found, noSlash, layered.ne_directory name, rfl⟩
  · rw [if_neg fits] at found ⊢
    unfold write
    rw [found]
    rfl

theorem Opens.read_joined (opens : tree.Opens path work) (layered : tree.Layered work 0)
    (plain : PlainName name) (fits : Fits path name) :
    tree.read (Files.joined path name) = match tree.node? (work ++ [name]) with
      | some (.file bytes) => .ok bytes
      | _ => .error .notFound := by
  have found : tree.locate .target (Files.joined path name) = _ :=
    opens.locate_joined plain (by decide) (layered.ne_link name)
  rw [if_pos fits] at found
  unfold read reached
  rw [found]
  cases isNode : tree.node? (work ++ [name]) with
  | none => simp [bind, Except.bind, isNode, throw, throwThe, MonadExceptOf.throw]
  | some node =>
    obtain ⟨bytes, rfl⟩ := layered.isFile isNode
    simp [bind, Except.bind, isNode, pure, Except.pure]

/-- Whether or not there was a file, there is none when it has been removed. -/
theorem Opens.removeFile_joined (opens : tree.Opens path work) (layered : tree.Layered work 0)
    (plain : PlainName name) (fits : Fits path name) :
    Filed work tree ((tree.removeFile (Files.joined path name)).toOption.getD tree) ∧
      ((tree.removeFile (Files.joined path name)).toOption.getD tree).node? (work ++ [name]) = none := by
  have found : tree.locate .entry (Files.joined path name) = _ :=
    opens.locate_joined plain (by decide) (layered.ne_link name)
  rw [if_pos fits] at found
  cases isNode : tree.node? (work ++ [name]) with
  | none =>
    have unchanged : (tree.removeFile (Files.joined path name)).toOption.getD tree = tree := by
      unfold removeFile
      rw [found]
      simp [bind, Except.bind, isNode, throw, throwThe, MonadExceptOf.throw, Except.toOption]
    rw [unchanged]
    exact ⟨.refl layered, isNode⟩
  | some node =>
    obtain ⟨bytes, rfl⟩ := layered.isFile isNode
    have removed : (tree.removeFile (Files.joined path name)).toOption.getD tree =
        { tree with nodes := tree.nodes.remove (work ++ [name]) } := by
      unfold removeFile
      rw [found]
      simp [bind, Except.bind, isNode, pure, Except.pure, Except.toOption]
    rw [removed]
    exact ⟨filed_remove layered name, by rw [node?_remove (by simp), if_pos rfl]⟩

end Named

end Vetting.Files.FileTree
