import Vetting.Artifact.Directory
import Vetting.Backend.Container
import Vetting.Proofs.Digest.Distinct
import Vetting.Proofs.Files.Sharing
import Vetting.Proofs.Json.Compact

/-!
Contract: what is under the root of a directory of artifacts of attempts.

Owns:
- that the parts of the keys of attempts are names that lead down, and the paths of these keys;
- roots under which there are only attempts and their files;
- what is answered when an artifact of an attempt is written there, and what changes.

Does not own: what attempts do with their artifacts (`Vetting.Proofs.Backend.Attempts`).

What is answered does not depend on the files: a key is refused only if its path or one of its names is
too long.
-/

namespace Vetting

open Files (PlainName)

/-! ### Names -/

theorem Uuid.plainName_text (id : Uuid) : PlainName id.text := by
  have noSlash := Text.Hexadecimal.not_mem_padded fun _ => (Nat.digitChar_ne '/' rfl).symm
  have noNul := Text.Hexadecimal.not_mem_padded fun _ => (Nat.digitChar_ne '\x00' rfl).symm
  have hyphen : '-' ∈ id.text.toList := by simp [Uuid.text]
  have different : ∀ other : String, '-' ∉ other.toList → id.text ≠ other :=
    fun other clean same => clean (same ▸ hyphen)
  exact ⟨different "" (by decide), different "." (by decide), different ".." (by decide),
    by simp [Uuid.text, noSlash], by simp [Uuid.text, noNul]⟩

theorem plainName_toString (number : Nat) : PlainName (toString number) := by
  have isDigit : ∀ character ∈ (toString number).toList, character.isDigit = true :=
    fun _ member => Json.isDigit_of_mem_toString member
  have nonempty : (toString number).toList ≠ [] := Json.toList_toString_ne_nil (.ofNat number)
  have noDot : '.' ∉ (toString number).toList := fun member => by cases isDigit _ member
  refine ⟨fun empty => nonempty (by rw [empty]; rfl), fun same => noDot (by rw [same]; decide),
    fun same => noDot (by rw [same]; decide), fun member => ?_, fun member => ?_⟩
  · cases isDigit _ member
  · cases isDigit _ member

theorem ContainerBackend.plainName_inputName (fileType : String) :
    PlainName (ContainerBackend.inputName fileType) := by
  unfold ContainerBackend.inputName
  simp only
  split
  · exact ⟨by decide, by decide, by decide, by decide, by decide⟩
  · generalize isEnding : fileType.toList.filter Char.isAlphanum = ending
    have clean : ∀ character ∈ ending, character.isAlphanum = true := by
      rw [← isEnding]
      exact fun _ member => (List.mem_filter.mp member).2
    have starts : 'i' ∈ ("input." ++ String.ofList ending).toList := by simp
    have different : ∀ other : String, 'i' ∉ other.toList → "input." ++ String.ofList ending ≠ other :=
      fun other clean same => clean (same ▸ starts)
    have absent : ∀ character, character ∉ "input.".toList → character.isAlphanum = false →
        character ∉ ("input." ++ String.ofList ending).toList := by
      intro character notFixed strange member
      rw [String.toList_append, List.mem_append] at member
      rcases member with fixed | inEnding
      · exact notFixed fixed
      · rw [String.toList_ofList] at inEnding
        rw [clean character inEnding] at strange
        cases strange
    exact ⟨different "" (by decide), different "." (by decide), different ".." (by decide),
      absent _ (by decide) rfl, absent _ (by decide) rfl⟩

/-! ### Paths -/

namespace Artifact

/-- The names from the root to the directory of an attempt. -/
def attemptNames (runId stepRunId : Uuid) (attempt : Nat) : List String :=
  ["runs", runId.text, stepRunId.text, toString attempt]

def attemptNamesOf (request : JobRequest) : List String :=
  attemptNames request.runId request.stepRunId request.attempt

/-- The place of the directory of an attempt. -/
def attemptPlace (base : Files.Place) (request : JobRequest) : Files.Place :=
  base ++ attemptNamesOf request

theorem plainName_runs : PlainName "runs" :=
  ⟨by decide, by decide, by decide, by decide, by decide⟩

theorem plainName_of_mem_attemptNames {runId stepRunId : Uuid} {attempt : Nat} {name : String}
    (member : name ∈ attemptNames runId stepRunId attempt) : PlainName name := by
  simp only [attemptNames, List.mem_cons, List.not_mem_nil, or_false] at member
  rcases member with rfl | rfl | rfl | rfl
  · exact plainName_runs
  · exact runId.plainName_text
  · exact stepRunId.plainName_text
  · exact plainName_toString attempt

theorem cleanParts_key {name : String} (plain : PlainName name) (runId stepRunId : Uuid)
    (attempt : Nat) :
    Directory.cleanParts (key runId stepRunId attempt name) =
      attemptNames runId stepRunId attempt ++ [name] := by
  have plainAll : ∀ part ∈ attemptNames runId stepRunId attempt ++ [name], PlainName part := by
    intro part member
    rcases List.mem_append.mp member with earlier | last
    · exact plainName_of_mem_attemptNames earlier
    · exact List.mem_singleton.mp last ▸ plain
  have isKey : key runId stepRunId attempt name =
      Text.joined "/" (attemptNames runId stepRunId attempt ++ [name]) := by
    simp [key, attemptNames, Text.joined, String.append_assoc]
  rw [Directory.cleanParts, isKey, Text.pieces_joined rfl (by simp) fun part member =>
    (plainAll part member).noSlash]
  refine List.filter_eq_self.mpr fun part member => ?_
  simp [(plainAll part member).nonempty, (plainAll part member).notUp]

namespace Directory

/-- The path of the directory of an attempt. -/
def attemptPath (directory : Directory) (request : JobRequest) : String :=
  (attemptNamesOf request).foldl Files.joined directory.root

theorem pathOfKey_keyOf (directory : Directory) (request : JobRequest) {name : String}
    (plain : PlainName name) :
    directory.pathOfKey (keyOf request name) = Files.joined (directory.attemptPath request) name := by
  rw [pathOfKey, keyOf, cleanParts_key plain, List.foldl_concat]
  rfl

theorem parent?_pathOfKey (directory : Directory) (request : JobRequest) {name : String}
    (plain : PlainName name) :
    Files.parent? (directory.pathOfKey (keyOf request name)) = some (directory.attemptPath request) := by
  rw [pathOfKey_keyOf directory request plain]
  exact Files.parent?_joined_joined _ (plainName_toString request.attempt) plain

end Directory

end Artifact

end Vetting

namespace Vetting.Artifact.Directory

open Files (FileTree Place PlainName longestPath longestName)

/-- The root stands for an empty directory, or will do so when it has been made. -/
def StartsEmpty (directory : Directory) (base : Place) (tree : FileTree) : Prop :=
  ∃ ready, makeAbove (directory.pathOfKey "runs") tree = (.ok (), ready) ∧
    ready.Opens directory.root base ∧ ∀ rest, rest ≠ [] → ready.node? (base ++ rest) = none

/-- Under the root are only the directories of attempts, and files in these. -/
def Tended (directory : Directory) (base : Place) (tree : FileTree) : Prop :=
  ∃ ready above, FileTree.Founded tree ready directory.root above "runs" base ∧ ready.Layered base 4

section Tended

variable {directory : Directory} {base : Place} {tree ready after : FileTree} {above first : String}

/-- Where the root stands for a directory, those above it need not be made. -/
theorem founded_of_opens (isAbove : Files.parent? (Files.joined directory.root first) = some above)
    (same : Files.components above = Files.components directory.root)
    (noNul : '\x00' ∉ above.toList) (short : above.utf8ByteSize ≤ longestPath)
    (opens : after.Opens directory.root base) :
    FileTree.Founded after after directory.root above first base :=
  ⟨isAbove, same, FileTree.makeLineage_of_opens (opens.of_components same noNul short) _, opens⟩

/-- A tree in which the root stands for a directory is founded by what founded another. -/
theorem Tended.of_opens (founded : FileTree.Founded tree ready directory.root above "runs" base)
    (opens : after.Opens directory.root base) (layered : after.Layered base 4) :
    directory.Tended base after := by
  obtain ⟨noNul, short⟩ := FileTree.sound_of_makeLineage founded.made
  exact ⟨after, above, founded_of_opens founded.isAbove founded.same noNul short opens, layered⟩

theorem makeAbove_eq {path parent : String} (isAbove : Files.parent? path = some parent)
    (tree : FileTree) :
    makeAbove path tree =
      ((tree.makeDirectories parent).1.mapError (faultAt parent), (tree.makeDirectories parent).2) := by
  rw [makeAbove, isAbove]

theorem tended_of_startsEmpty (starts : directory.StartsEmpty base tree) :
    directory.Tended base tree := by
  obtain ⟨ready, made, opens, empty⟩ := starts
  have isPath : directory.pathOfKey "runs" = Files.joined directory.root "runs" := rfl
  obtain ⟨above, isAbove, same⟩ := Files.parent?_joined directory.root plainName_runs
  refine ⟨ready, above, ⟨isAbove, same, ?_, opens⟩, fun rest node nonempty present => ?_⟩
  · rw [isPath, makeAbove_eq isAbove] at made
    generalize tree.makeDirectories above = outcome at made
    obtain ⟨result, after⟩ := outcome
    cases result <;> cases made
    rfl
  · rw [empty rest nonempty] at present
    cases present

/-- A root that stands for an empty directory already. -/
theorem startsEmpty_of_opens (opens : tree.Opens directory.root base)
    (short : (directory.pathOfKey "runs").utf8ByteSize ≤ longestPath)
    (empty : ∀ rest, rest ≠ [] → tree.node? (base ++ rest) = none) :
    directory.StartsEmpty base tree := by
  have isPath : directory.pathOfKey "runs" = Files.joined directory.root "runs" := rfl
  obtain ⟨above, isAbove, same⟩ := Files.parent?_joined directory.root plainName_runs
  have noNul : '\x00' ∉ above.toList := by
    rw [Files.mem_iff_of_components (by decide) (by decide), same,
      ← Files.mem_iff_of_components (by decide) (by decide)]
    exact opens.noNul
  have shortAbove := (Files.size_le_of_parent? isAbove).trans short
  have isThere : tree.makeDirectories above = (.ok (), tree) :=
    FileTree.makeLineage_of_opens (opens.of_components same noNul shortAbove) _
  refine ⟨tree, ?_, opens, empty⟩
  rw [isPath, makeAbove_eq isAbove, isThere]
  rfl

end Tended

/-! ### Writing -/

/-- The path of the directory of an attempt, and the names on it, are not too long. -/
def Holds (directory : Directory) (request : JobRequest) : Prop :=
  (directory.attemptPath request).utf8ByteSize ≤ longestPath ∧
    ∀ name ∈ attemptNamesOf request, name.utf8ByteSize ≤ longestName

instance (directory : Directory) (request : JobRequest) : Decidable (directory.Holds request) :=
  inferInstanceAs (Decidable (_ ∧ _))

/-- What is answered to an artifact of an attempt. -/
def writeAnswer (directory : Directory) (request : JobRequest) (name : String) :
    Except BackendFault String :=
  if directory.Holds request then
    if FileTree.Fits (directory.attemptPath request) name then
      .ok (directory.address (keyOf request name))
    else .error (faultAt (directory.pathOfKey (keyOf request name)) .nameTooLong)
  else .error (faultAt (directory.attemptPath request) .nameTooLong)

/-- The directory of an attempt is there, and under the root are only such directories and files. -/
structure Opened (directory : Directory) (base : Place) (request : JobRequest) (tree : FileTree) : Prop where
  tended : directory.Tended base tree
  root : tree.Opens directory.root base
  attempt : tree.Opens (directory.attemptPath request) (attemptPlace base request)
  layered : tree.Layered base 4

section Writing

variable {directory : Directory} {base : Place} {tree after : FileTree} {name : String}
  {request : JobRequest}

theorem Opened.onlyFiles (opened : directory.Opened base request tree) :
    tree.Layered (attemptPlace base request) 0 := by
  have layered : tree.Layered base (attemptNamesOf request).length := opened.layered
  exact layered.below

/-- Files of the directory of an attempt may change in any way. -/
theorem Opened.of_filed (opened : directory.Opened base request tree)
    (filed : FileTree.Filed (attemptPlace base request) tree after) :
    directory.Opened base request after := by
  have keeps := filed.keepsWays opened.onlyFiles
  have layered : tree.Layered base (attemptNamesOf request).length := opened.layered
  have layeredAfter : after.Layered base 4 := filed.layered layered
  have root := opened.root.kept keeps filed.workingDirectory
  obtain ⟨ready, above, founded, _⟩ := opened.tended
  exact ⟨.of_opens founded root layeredAfter, root,
    opened.attempt.kept keeps filed.workingDirectory, layeredAfter⟩

/-- In the directory of an attempt there are only files. -/
theorem Tended.isFile (tended : directory.Tended base tree) {node : Files.Node}
    (present : tree.node? (attemptPlace base request ++ [name]) = some node) :
    ∃ bytes, node = .file bytes := by
  obtain ⟨ready, above, founded, layered⟩ := tended
  have grows := FileTree.grows_makeDirectories founded.made
  have layered : ready.Layered base (attemptNamesOf request).length := layered
  rcases grows.node (attemptPlace base request ++ [name]) with same | ⟨absent, _⟩
  · exact layered.below.isFile (same.trans present)
  · rw [absent] at present
    cases present

/-- The directory of an attempt is made unless something is too long. -/
theorem Tended.makeDirectories (tended : directory.Tended base tree) (request : JobRequest) :
    ∃ after, tree.makeDirectories (directory.attemptPath request) =
        (if directory.Holds request then .ok () else .error .nameTooLong, after) ∧
      FileTree.Grows tree after ∧ directory.Tended base after ∧
      (directory.Holds request → directory.Opened base request after) := by
  obtain ⟨ready, above, founded, layered⟩ := tended
  have isFirst : ∀ name ∈ (attemptNamesOf request).head?, name = "runs" := by
    intro name isHead
    exact (Option.some.inj isHead).symm
  have plain : ∀ name ∈ attemptNamesOf request, PlainName name :=
    fun name member => plainName_of_mem_attemptNames member
  have clear := layered.clear (Nat.le_of_eq (rfl : (attemptNamesOf request).length = 4))
  have openedAlong : ∀ {after}, FileTree.GrowsAlong base (attemptNamesOf request) ready after →
      after.Opens directory.root base ∧ after.Layered base 4 := fun along =>
    ⟨founded.opens.kept along.grows.keepsWays along.workingDirectory,
      layered.of_growsAlong along (Nat.le_of_eq rfl)⟩
  by_cases holds : directory.Holds request
  · obtain ⟨short, shortNames⟩ := holds
    obtain ⟨after, made⟩ := founded.exists_madeAlong isFirst plain clear short shortNames
    have isMade : tree.makeDirectories (directory.attemptPath request) = (.ok (), after) := made.made
    have grows := FileTree.grows_makeDirectories isMade
    obtain ⟨root, layeredAfter⟩ := openedAlong made.along
    have tendedAfter := Tended.of_opens founded root layeredAfter
    rw [if_pos ⟨short, shortNames⟩]
    exact ⟨after, isMade, grows, tendedAfter, fun _ => ⟨tendedAfter, root, made.opens, layeredAfter⟩⟩
  · rw [if_neg holds]
    by_cases short : (directory.attemptPath request).utf8ByteSize ≤ longestPath
    · obtain ⟨name, member, long⟩ : ∃ name ∈ attemptNamesOf request,
          longestName < name.utf8ByteSize := by
        by_contra none
        exact holds ⟨short, fun name member => Nat.le_of_not_lt fun long => none ⟨name, member, long⟩⟩
      obtain ⟨after, refused⟩ :=
        founded.exists_refusedAlong isFirst plain clear short ⟨name, member, long⟩
      have notMade : tree.makeDirectories (directory.attemptPath request) =
        (.error .nameTooLong, after) := refused.notMade
      have grows := FileTree.grows_makeDirectories notMade
      refine ⟨after, notMade, grows, ?_, fun holdsAfter => absurd holdsAfter holds⟩
      rcases refused.along with rfl | along
      · exact ⟨ready, above, founded, layered⟩
      · exact Tended.of_opens founded (openedAlong along).1 (openedAlong along).2
    · have noNul := FileTree.nul_not_mem_foldl_joined founded.opens.noNul plain
      have nonempty : directory.attemptPath request ≠ "" :=
        FileTree.joined_nonempty _ (plainName_toString request.attempt)
      exact ⟨tree, FileTree.makeDirectories_of_long noNul nonempty (Nat.lt_of_not_le short), .refl tree,
        ⟨ready, above, founded, layered⟩, fun holdsAfter => absurd holdsAfter holds⟩

/-- An artifact of an attempt is written unless something is too long. -/
theorem Tended.write (tended : directory.Tended base tree) (request : JobRequest)
    (plain : PlainName name) (bytes : ByteArray) :
    ∃ after, directory.write (keyOf request name) bytes tree =
        (directory.writeAnswer request name, after) ∧
      FileTree.Touched (attemptPlace base request) tree after ∧ directory.Tended base after ∧
      ∀ address, directory.writeAnswer request name = .ok address →
        FileTree.Fits (directory.attemptPath request) name ∧ directory.Opened base request after := by
  obtain ⟨middle, made, grows, tendedMiddle, isOpen⟩ := tended.makeDirectories request
  have isAbove := makeAbove_eq (directory.parent?_pathOfKey request plain) tree
  rw [made] at isAbove
  by_cases holds : directory.Holds request
  · have opened := isOpen holds
    rw [if_pos holds] at isAbove
    have isWrite := opened.attempt.write_joined opened.onlyFiles plain bytes
    rw [← directory.pathOfKey_keyOf request plain] at isWrite
    unfold writeAnswer
    rw [if_pos holds]
    by_cases fits : FileTree.Fits (directory.attemptPath request) name
    · rw [if_pos fits] at isWrite ⊢
      have filed := FileTree.filed_set opened.onlyFiles name bytes
      have openedAfter := opened.of_filed filed
      refine ⟨_, ?_, (FileTree.Touched.of_grows grows).trans (.of_filed filed), openedAfter.tended,
        fun _ _ => ⟨fits, openedAfter⟩⟩
      simp only [Directory.write, isAbove, Except.mapError, isWrite]
    · rw [if_neg fits] at isWrite ⊢
      refine ⟨middle, ?_, .of_grows grows, tendedMiddle, nofun⟩
      simp only [Directory.write, isAbove, Except.mapError, isWrite]
  · rw [if_neg holds] at isAbove
    unfold writeAnswer
    rw [if_neg holds]
    refine ⟨middle, ?_, .of_grows grows, tendedMiddle, nofun⟩
    simp only [Directory.write, isAbove, Except.mapError]

end Writing

end Vetting.Artifact.Directory
