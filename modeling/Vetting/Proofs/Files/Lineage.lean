import Mathlib.Data.List.Induction
import Vetting.Proofs.Files.Changes
import Vetting.Proofs.Files.Parents

/-!
Contract: making a directory with those above it.

Owns:
- paths that lead to a directory, and the names below them;
- what becomes of a tree when a directory is made, one name below the other.

Does not own: what a tree keeps otherwise (`Vetting.Proofs.Files.Changes`).
-/

namespace Vetting.Files.FileTree

/-- A path leads to a directory; the empty path stands for the working directory. -/
structure Opens (tree : FileTree) (path : String) (place : Place) : Prop where
  leads : path = "" ∧ place = tree.workingDirectory ∨ tree.locate .target path = .ok place
  inside : tree.node? place = some .directory

section Below

variable {tree : FileTree} {path name : String} {here : Place} {before : List Move}

theorem origin_joined (place : Place) (path : String) (plain : PlainName name) :
    origin place (joined path name) = origin place path := by
  rw [origin, origin, isAbsolute_joined path plain.noSlash]

/-- A directory is reached without a last step that leads nowhere. -/
theorem Opens.walked (opens : tree.Opens path here)
    (isPath : moves path = before ∨ moves path = before ++ [.stay]) :
    ∃ links ≤ linkLimit, Walked tree .target links (origin tree.workingDirectory path) before here := by
  rcases opens.leads with ⟨rfl, rfl⟩ | found
  · have isStay : moves "" = [.stay] := rfl
    rcases isPath with isPath | isPath
    · rw [← isPath, isStay]
      exact ⟨0, Nat.zero_le _, .stay opens.inside .arrive⟩
    · rw [isStay] at isPath
      obtain rfl : before = [] := by
        cases before with
        | nil => rfl
        | cons move rest => simp at isPath
      exact ⟨0, Nat.zero_le _, .arrive⟩
  · obtain ⟨_, _, _, links, few, walked⟩ := locate_eq_ok_iff.mp found
    rcases isPath with isPath | isPath
    · exact ⟨links, few, isPath ▸ walked⟩
    · have isThinned : Thinned (before ++ [.stay]) (before ++ []) := .append_left before (.drop .empty)
      rw [List.append_nil] at isThinned
      exact ⟨links, few, (isPath ▸ walked).thinned (by decide) isThinned⟩

theorem opens_of_walked {links : Nat} (few : links ≤ linkLimit)
    (isPath : moves path = before ∨ moves path = before ++ [.stay])
    (walked : Walked tree .target links (origin tree.workingDirectory path) before here)
    (inside : tree.node? here = some .directory) (noNul : '\x00' ∉ path.toList)
    (short : path.utf8ByteSize ≤ longestPath) : tree.Opens path here := by
  refine ⟨?_, inside⟩
  have whole : Walked tree .target links (origin tree.workingDirectory path) (moves path) here := by
    rcases isPath with isPath | isPath
    · rwa [isPath]
    · rw [isPath]
      exact walked.append (.stay inside .arrive) (.inr (by decide))
  by_cases empty : path = ""
  · subst empty
    cases whole with
    | stay _ further =>
      cases further
      exact .inl ⟨rfl, rfl⟩
  · exact .inr (locate_eq_ok_iff.mpr ⟨noNul, empty, short, links, few, whole⟩)

/-- Paths with the same components lead to the same directories. -/
theorem Opens.of_components {other : String} (opens : tree.Opens path here)
    (same : components other = components path) (noNul : '\x00' ∉ other.toList)
    (short : other.utf8ByteSize ≤ longestPath) : tree.Opens other here := by
  obtain ⟨links, few, walked⟩ := opens.walked (.inl rfl)
  have direct := walked.thinned (by decide) (thinned_leading (moves path))
  rw [leading_moves, ← same, ← leading_moves] at direct
  have isOrigin : origin tree.workingDirectory other = origin tree.workingDirectory path := by
    have sameStart : isAbsolute other = isAbsolute path := by
      rw [Bool.eq_iff_iff, ← head?_components, ← head?_components, same]
    rw [origin, origin, sameStart]
  have thick := direct.thickened (by decide) opens.inside (thinned_leading (moves other))
  exact opens_of_walked few (.inl rfl) (isOrigin ▸ thick) opens.inside noNul short

theorem Opens.kept {after : FileTree} (opens : tree.Opens path here) (keeps : tree.KeepsWays after)
    (sameDirectory : after.workingDirectory = tree.workingDirectory) : after.Opens path here := by
  exact ⟨opens.leads.imp (fun ⟨empty, isHere⟩ => ⟨empty, isHere.trans sameDirectory.symm⟩)
    fun found => locate_kept found keeps sameDirectory, keeps.directory here opens.inside⟩

theorem Opens.noNul (opens : tree.Opens path here) : '\x00' ∉ path.toList := by
  rcases opens.leads with ⟨rfl, _⟩ | found
  · simp
  · exact (locate_eq_ok_iff.mp found).1

theorem nul_not_mem_joined (noNul : '\x00' ∉ path.toList) (plain : PlainName name) :
    '\x00' ∉ (joined path name).toList := by
  unfold joined
  split <;> simp [noNul, plain.noNul]

theorem joined_nonempty (path : String) (plain : PlainName name) : joined path name ≠ "" := by
  intro empty
  have isText := congrArg String.toList empty
  unfold joined at isText
  split at isText <;> simp [plain.nonempty] at isText

theorem locate_joined_eq_walk {aim : Aim} (noNul : '\x00' ∉ path.toList) (plain : PlainName name)
    (short : (joined path name).utf8ByteSize ≤ longestPath)
    (isJoined : moves (joined path name) = before ++ [Move.ofPart name]) :
    tree.locate aim (joined path name) =
      tree.walk aim linkLimit (origin tree.workingDirectory path) (before ++ [.down name]) := by
  unfold locate
  rw [if_neg (nul_not_mem_joined noNul plain), if_neg (joined_nonempty path plain),
    if_neg (Nat.not_lt.mpr short), isJoined, plain.ofPart_eq, origin_joined _ _ plain]

/-- A name fits if neither it nor its path is too long. -/
def Fits (path name : String) : Prop :=
  (joined path name).utf8ByteSize ≤ longestPath ∧ name.utf8ByteSize ≤ longestName

instance (path name : String) : Decidable (Fits path name) :=
  inferInstanceAs (Decidable (_ ∧ _))

/-- Of names that are equally long both fit or neither does. -/
theorem Fits.of_size_eq {path first second : String} (fits : Fits path first)
    (same : first.utf8ByteSize = second.utf8ByteSize) : Fits path second := by
  have sameSize : (joined path first).utf8ByteSize = (joined path second).utf8ByteSize := by
    unfold joined
    split <;> simp only [String.utf8ByteSize_append, same]
  exact ⟨sameSize ▸ fits.1, same ▸ fits.2⟩

/-- Below a directory a name leads to its place there, if it fits. -/
theorem Opens.locate_joined {aim : Aim} (opens : tree.Opens path here) (plain : PlainName name)
    (notSpelled : aim ≠ .spelling) (noLink : ∀ target, tree.node? (here ++ [name]) ≠ some (.link target)) :
    tree.locate aim (joined path name) =
      if Fits path name then .ok (here ++ [name]) else .error .nameTooLong := by
  obtain ⟨before, isPath, isJoined⟩ := moves_joined path plain.noSlash
  obtain ⟨links, few, walked⟩ := opens.walked isPath
  rw [← onTheWay_of_ne_spelling notSpelled] at walked
  by_cases short : (joined path name).utf8ByteSize ≤ longestPath
  · rw [locate_joined_eq_walk opens.noNul plain short isJoined,
      walked.walk_append few [.down name] (.inl (by simp)), walk_cons, opens.inside]
    simp only [isNameable_of_ne_spelling notSpelled, decide_eq_true_eq]
    by_cases shortName : name.utf8ByteSize ≤ longestName
    · rw [if_pos shortName, if_pos ⟨short, shortName⟩, walk_nil]
    · rw [if_neg shortName, if_neg fun fits => shortName fits.2]
  · unfold locate
    rw [if_neg (nul_not_mem_joined opens.noNul plain), if_neg (joined_nonempty path plain),
      if_pos (Nat.lt_of_not_le short), if_neg fun fits => short fits.1]

end Below

/-! ### One directory -/

section One

variable {tree : FileTree} {path name : String} {here : Place}

/-- What a path leads to has an entry, itself or a link. -/
theorem Walked.exists_entry {links : Nat} {there : Place} {steps : List Move}
    (walked : Walked tree .target links here steps there) (present : tree.node? there ≠ none) :
    ∃ fewer ≤ links, ∃ place, Walked tree .entry fewer here steps place ∧ tree.node? place ≠ none := by
  generalize isAim : Aim.target = aim at walked
  induction walked with
  | arrive => exact ⟨0, Nat.zero_le _, _, .arrive, present⟩
  | stay inside _ inductionHypothesis =>
    obtain ⟨fewer, few, place, walked, found⟩ := inductionHypothesis present
    exact ⟨fewer, few, place, .stay inside walked, found⟩
  | up inside _ inductionHypothesis =>
    obtain ⟨fewer, few, place, walked, found⟩ := inductionHypothesis present
    exact ⟨fewer, few, place, .up inside walked, found⟩
  | down inside nameable noLink _ inductionHypothesis =>
    subst isAim
    obtain ⟨fewer, few, place, walked, found⟩ := inductionHypothesis present
    exact ⟨fewer, few, place, .down inside nameable noLink walked, found⟩
  | leave _ _ _ isEntry =>
    subst isAim
    cases isEntry
  | @follow links here there name target rest inside nameable isLink _ leads _ inductionHypothesis =>
    subst isAim
    by_cases last : rest = []
    · subst last
      exact ⟨0, Nat.zero_le _, _, .leave inside nameable isLink rfl, by simp [isLink]⟩
    · obtain ⟨fewer, few, place, walked, found⟩ := inductionHypothesis present
      exact ⟨fewer + 1, Nat.succ_le_succ few, place,
        .follow inside nameable isLink (.inl last) leads walked, found⟩

theorem makeDirectory_of_present (found : tree.locate .target path = .ok here)
    (present : tree.node? here ≠ none) : tree.makeDirectory path = .error .alreadyExists := by
  obtain ⟨noNul, nonempty, short, links, few, walked⟩ := locate_eq_ok_iff.mp found
  obtain ⟨fewer, fewEntry, place, walkedEntry, isThere⟩ := walked.exists_entry present
  have foundEntry : tree.locate .entry path = .ok place :=
    locate_eq_ok_iff.mpr ⟨noNul, nonempty, short, fewer, fewEntry.trans few, walkedEntry⟩
  unfold makeDirectory make
  rw [foundEntry]
  cases isNode : tree.node? place with
  | none => exact absurd isNode isThere
  | some node => simp [bind, Except.bind, isNode, throw, throwThe, MonadExceptOf.throw]

theorem isDirectory_of_located (found : tree.locate .target path = .ok here)
    (inside : tree.node? here = some .directory) : tree.isDirectory path = true := by
  simp [isDirectory, reached, found, inside, bind, Except.bind, pure, Except.pure]

theorem isDirectory_of_fault {fault : FileFault} (refused : tree.locate .target path = .error fault) :
    tree.isDirectory path = false := by
  simp [isDirectory, reached, refused, bind, Except.bind]

theorem makeIfMissing_of_present (found : tree.locate .target path = .ok here)
    (inside : tree.node? here = some .directory) : tree.makeIfMissing path = (.ok (), tree) := by
  have present : tree.node? here ≠ none := by simp [inside]
  unfold makeIfMissing
  rw [makeDirectory_of_present found present, isDirectory_of_located found inside]
  rfl

/-- A directory that is there is left as it is, and nothing is made above it. -/
theorem makeLineage_of_opens (opens : tree.Opens path here) (above : List String) :
    tree.makeLineage (path :: above) = (.ok (), tree) := by
  rw [makeLineage]
  rcases opens.leads with ⟨empty, _⟩ | found
  · rw [if_pos empty]
  · have nonempty := (locate_eq_ok_iff.mp found).2.1
    have present : tree.node? here ≠ none := by simp [opens.inside]
    rw [if_neg nonempty, makeDirectory_of_present found present]
    exact makeIfMissing_of_present found opens.inside

theorem ne_link_of_free (free : tree.node? here = none ∨ tree.node? here = some .directory)
    (target : String) : tree.node? here ≠ some (.link target) := by
  rcases free with absent | inside
  · simp [absent]
  · simp [inside]

theorem Opens.joined (opens : tree.Opens path here) (plain : PlainName name) (fits : Fits path name)
    (inside : tree.node? (here ++ [name]) = some .directory) :
    tree.Opens (joined path name) (here ++ [name]) := by
  have found : tree.locate .target (Files.joined path name) = _ :=
    opens.locate_joined plain (by decide) (by simp [inside])
  exact ⟨.inr (by rw [found, if_pos fits]), inside⟩

/-- A directory is made below another one, if nothing is there and its name fits. -/
theorem Opens.makeIfMissing_joined (opens : tree.Opens path here) (plain : PlainName name)
    (free : tree.node? (here ++ [name]) = none ∨ tree.node? (here ++ [name]) = some .directory)
    (fits : Fits path name) :
    ∃ after, tree.makeIfMissing (Files.joined path name) = (.ok (), after) ∧
      after.Opens (Files.joined path name) (here ++ [name]) ∧
      (after = tree ∨
        tree.node? (here ++ [name]) = none ∧ after = tree.set (here ++ [name]) .directory) := by
  rcases free with absent | inside
  · have found : tree.locate .entry (Files.joined path name) = _ :=
      opens.locate_joined plain (by decide) (by simp [absent])
    rw [if_pos fits] at found
    have made : tree.makeDirectory (Files.joined path name) =
        .ok (tree.set (here ++ [name]) .directory) := make_eq_ok_iff.mpr ⟨_, found, absent, rfl⟩
    have opensAfter := opens.kept (grows_set absent).keepsWays rfl
    refine ⟨tree.set (here ++ [name]) .directory, by rw [makeIfMissing, made], ?_, .inr ⟨absent, rfl⟩⟩
    exact opensAfter.joined plain fits (by rw [node?_set (by simp), if_pos rfl])
  · have opensHere := opens.joined plain fits inside
    have found := opensHere.leads.resolve_left fun empty => joined_nonempty path plain empty.1
    exact ⟨tree, makeIfMissing_of_present found inside, opensHere, .inl rfl⟩

theorem makeIfMissing_of_fault {fault : FileFault}
    (refused : ∀ aim, aim ≠ .spelling → tree.locate aim path = .error fault) :
    tree.makeDirectory path = .error fault ∧ tree.makeIfMissing path = (.error fault, tree) := by
  have notMade : tree.makeDirectory path = .error fault := by
    unfold makeDirectory make
    rw [refused .entry (by decide)]
    rfl
  refine ⟨notMade, ?_⟩
  unfold makeIfMissing
  rw [notMade, isDirectory_of_fault (refused .target (by decide))]
  rfl

end One

/-! ### One directory after the other -/

section Lineage

variable {tree after : FileTree} {path above name : String} {others : List String} {here : Place}

theorem sound_of_makeIfMissing (made : tree.makeIfMissing path = (.ok (), after)) :
    '\x00' ∉ path.toList ∧ path.utf8ByteSize ≤ longestPath := by
  unfold makeIfMissing at made
  split at made
  · rename_i madeNow
    obtain ⟨place, found, _⟩ := make_eq_ok_iff.mp madeNow
    obtain ⟨noNul, _, short, _⟩ := locate_eq_ok_iff.mp found
    exact ⟨noNul, short⟩
  · cases found : tree.locate .target path with
    | error fault =>
      rw [isDirectory_of_fault found] at made
      cases made
    | ok place =>
      obtain ⟨noNul, _, short, _⟩ := locate_eq_ok_iff.mp found
      exact ⟨noNul, short⟩

/-- A path whose directory was made, or was there, can be walked at all. -/
theorem sound_of_makeLineage (made : tree.makeLineage (path :: others) = (.ok (), after)) :
    '\x00' ∉ path.toList ∧ path.utf8ByteSize ≤ longestPath := by
  rw [makeLineage] at made
  split at made
  · rename_i empty
    subst empty
    exact ⟨by simp, Nat.zero_le _⟩
  · split at made
    · split at made
      · exact sound_of_makeIfMissing made
      · cases made
    · exact sound_of_makeIfMissing made

theorem size_le_joined (path name : String) : path.utf8ByteSize ≤ (joined path name).utf8ByteSize := by
  unfold joined
  split
  · rw [String.utf8ByteSize_append]
    omega
  · rw [String.utf8ByteSize_append, String.utf8ByteSize_append]
    omega

/-- Below a directory that was made, a name led nowhere before unless the directory was there. -/
theorem opens_or_missing (grows : Grows tree after) (opens : after.Opens path here)
    (plain : PlainName name) (short : (joined path name).utf8ByteSize ≤ longestPath) :
    tree.Opens path here ∨ ∀ aim, aim ≠ .spelling →
      tree.locate aim (joined path name) = .error .notFound := by
  obtain ⟨before, isPath, isJoined⟩ := moves_joined path plain.noSlash
  obtain ⟨links, few, walked⟩ := opens.walked isPath
  rw [grows.workingDirectory] at walked
  rcases walk_of_grows grows .target linkLimit (origin tree.workingDirectory path) before with
    same | missing
  · rw [walked.walk_eq few, walk_eq_ok_iff] at same
    obtain ⟨others, fewOthers, walkedBefore⟩ := same
    rcases grows.node here with same | ⟨absent, _⟩
    · exact .inl (opens_of_walked fewOthers isPath walkedBefore (same.symm.trans opens.inside)
        opens.noNul ((size_le_joined path name).trans short))
    · refine .inr fun aim notSpelled => ?_
      rw [← onTheWay_of_ne_spelling notSpelled] at walkedBefore
      rw [locate_joined_eq_walk opens.noNul plain short isJoined,
        walkedBefore.walk_append fewOthers [.down name] (.inl (by simp)), walk_cons, absent]
  · refine .inr fun aim notSpelled => ?_
    rw [← onTheWay_of_ne_spelling notSpelled] at missing
    rw [locate_joined_eq_walk opens.noNul plain short isJoined]
    exact walk_append_error missing [.down name] (.inl (by simp))

/-- If the directories above a path can be made, its own is made after them. -/
theorem makeLineage_joined (made : tree.makeLineage (above :: others) = (.ok (), after))
    (same : components above = components path) (opens : after.Opens path here)
    (plain : PlainName name) (short : (joined path name).utf8ByteSize ≤ longestPath) :
    tree.makeLineage (joined path name :: above :: others) = after.makeIfMissing (joined path name) := by
  have grows := grows_makeLineage made
  obtain ⟨noNul, shortAbove⟩ := sound_of_makeLineage made
  rw [makeLineage, if_neg (joined_nonempty path plain)]
  rcases opens_or_missing grows opens plain short with present | missing
  · -- nothing had to be made above
    have unchanged := makeLineage_of_opens (present.of_components same noNul shortAbove) others
    rw [unchanged] at made
    cases made
    split
    · rw [unchanged]
    · rfl
  · rw [(makeIfMissing_of_fault missing).1, made]

theorem makeDirectories_of_long (noNul : '\x00' ∉ path.toList) (nonempty : path ≠ "")
    (long : longestPath < path.utf8ByteSize) :
    tree.makeDirectories path = (.error .nameTooLong, tree) := by
  have refused : ∀ aim, aim ≠ .spelling → tree.locate aim path = .error .nameTooLong := by
    intro aim _
    rw [locate, if_neg noNul, if_neg nonempty, if_pos long]
  rw [makeDirectories, ancestors, makeLineage, if_neg nonempty, (makeIfMissing_of_fault refused).1]
  exact (makeIfMissing_of_fault refused).2

end Lineage

/-! ### Names one below the other -/

/-- A tree has some more directories than another, at places on the way by some names. -/
structure GrowsAlong (base : Place) (names : List String) (tree after : FileTree) : Prop where
  workingDirectory : after.workingDirectory = tree.workingDirectory
  node : ∀ place, after.node? place = tree.node? place ∨
    tree.node? place = none ∧ after.node? place = some .directory ∧
      ∃ part, part ≠ [] ∧ part <+: names ∧ place = base ++ part

theorem GrowsAlong.refl (base : Place) (names : List String) (tree : FileTree) :
    GrowsAlong base names tree tree := ⟨rfl, fun _ => .inl rfl⟩

theorem GrowsAlong.grows {base : Place} {names : List String} {tree after : FileTree}
    (along : GrowsAlong base names tree after) : Grows tree after :=
  ⟨along.workingDirectory, fun place =>
    (along.node place).imp_right fun ⟨absent, made, _⟩ => ⟨absent, made⟩⟩

theorem GrowsAlong.longer {base : Place} {names more : List String} {tree after : FileTree}
    (along : GrowsAlong base names tree after) (isPrefix : names <+: more) :
    GrowsAlong base more tree after :=
  ⟨along.workingDirectory, fun place => (along.node place).imp_right
    fun ⟨absent, made, part, nonempty, isPart, isPlace⟩ =>
      ⟨absent, made, part, nonempty, isPart.trans isPrefix, isPlace⟩⟩

theorem GrowsAlong.set {base : Place} {names : List String} {tree after : FileTree}
    (along : GrowsAlong base names tree after) (nonempty : names ≠ [])
    (absent : after.node? (base ++ names) = none) :
    GrowsAlong base names tree (after.set (base ++ names) .directory) := by
  refine ⟨along.workingDirectory, fun place => ?_⟩
  rw [node?_set (List.append_ne_nil_of_right_ne_nil base nonempty)]
  split
  · rename_i same
    subst same
    have absentBefore : tree.node? (base ++ names) = none := by
      rcases along.node (base ++ names) with same | ⟨absentBefore, _⟩
      · exact same.symm.trans absent
      · exact absentBefore
    exact .inr ⟨absentBefore, rfl, names, nonempty, List.prefix_refl _, rfl⟩
  · exact along.node place

/-- The directories above the first of some names are there or can be made. -/
structure Founded (tree ready : FileTree) (root above first : String) (base : Place) : Prop where
  isAbove : parent? (joined root first) = some above
  same : components above = components root
  made : tree.makeDirectories above = (.ok (), ready)
  opens : ready.Opens root base

/-- The path whose directory is made before there can be a name below the last of some names. -/
def lastAbove (root above : String) (names : List String) : String :=
  if names = [] then above else names.foldl joined root

/-- Directories are made by names one below the other. -/
structure MadeAlong (tree ready : FileTree) (root above : String) (base : Place)
    (names : List String) (after : FileTree) : Prop where
  made : tree.makeDirectories (lastAbove root above names) = (.ok (), after)
  same : components (lastAbove root above names) = components (names.foldl joined root)
  opens : after.Opens (names.foldl joined root) (base ++ names)
  along : GrowsAlong base names ready after

/-- On the way by some names there is nothing but directories. -/
def Clear (tree : FileTree) (base : Place) (names : List String) : Prop :=
  ∀ part, part ≠ [] → part <+: names →
    tree.node? (base ++ part) = none ∨ tree.node? (base ++ part) = some .directory

section Names

variable {tree ready after : FileTree} {root above first last : String} {base : Place}
  {names init : List String}

theorem Clear.shorter (clear : ready.Clear base names) (isPrefix : init <+: names) :
    ready.Clear base init :=
  fun part nonempty isPart => clear part nonempty (isPart.trans isPrefix)

theorem Clear.next (clear : ready.Clear base (init ++ [last])) (along : GrowsAlong base init ready after) :
    after.node? (base ++ init ++ [last]) = none ∨
      after.node? (base ++ init ++ [last]) = some .directory := by
  rw [List.append_assoc]
  rcases along.node (base ++ (init ++ [last])) with same | ⟨_, isMade, _⟩
  · rw [same]
    exact clear _ (by simp) (List.prefix_refl _)
  · exact .inr isMade

/-- The path above the last of some names is that of the others, or the given one above the first. -/
theorem Founded.parent?_eq (founded : Founded tree ready root above first base)
    (isFirst : ∀ name ∈ (init ++ [last]).head?, name = first)
    (plain : ∀ name ∈ init ++ [last], PlainName name) :
    parent? (joined (init.foldl joined root) last) = some (lastAbove root above init) := by
  cases init using List.reverseRecOn with
  | nil =>
    obtain rfl : last = first := isFirst last rfl
    exact founded.isAbove
  | append_singleton others middle =>
    rw [lastAbove, if_neg (by simp), List.foldl_concat]
    exact parent?_joined_joined _ (plain middle (by simp)) (plain last (by simp))

theorem head?_init (isFirst : ∀ name ∈ (init ++ [last]).head?, name = first) :
    ∀ name ∈ init.head?, name = first := by
  intro name isHead
  exact isFirst name (List.mem_head?_append_of_mem_head? isHead)

/-- Directories are made by names one below the other, if all of them fit. -/
theorem Founded.exists_madeAlong (founded : Founded tree ready root above first base)
    (isFirst : ∀ name ∈ names.head?, name = first) (plain : ∀ name ∈ names, PlainName name)
    (clear : ready.Clear base names) (short : (names.foldl joined root).utf8ByteSize ≤ longestPath)
    (shortNames : ∀ name ∈ names, name.utf8ByteSize ≤ longestName) :
    ∃ after, MadeAlong tree ready root above base names after := by
  induction names using List.reverseRecOn with
  | nil =>
    refine ⟨ready, founded.made, founded.same, ?_, .refl base [] ready⟩
    rw [List.append_nil]
    exact founded.opens
  | append_singleton init last inductionHypothesis =>
    have isParent := founded.parent?_eq isFirst plain
    have plainLast : PlainName last := plain last (by simp)
    rw [List.foldl_concat] at short
    obtain ⟨middle, madeInit⟩ := inductionHypothesis (head?_init isFirst)
      (fun name member => plain name (List.mem_append_left _ member))
      (clear.shorter (List.prefix_append _ _)) ((size_le_joined _ _).trans short)
      (fun name member => shortNames name (List.mem_append_left _ member))
    obtain ⟨after, isMade, opensAfter, isAfter⟩ := madeInit.opens.makeIfMissing_joined plainLast
      (clear.next madeInit.along) ⟨short, shortNames last (by simp)⟩
    have alongAll := madeInit.along.longer (List.prefix_append init [last])
    have isPath : lastAbove root above (init ++ [last]) = joined (init.foldl joined root) last := by
      rw [lastAbove, if_neg (by simp), List.foldl_concat]
    refine ⟨after, ?_, ?_, ?_, ?_⟩
    · rw [isPath, makeDirectories, ancestors_of_parent isParent]
      exact (makeLineage_joined madeInit.made madeInit.same madeInit.opens plainLast short).trans isMade
    · rw [isPath, List.foldl_concat]
    · rw [List.foldl_concat, ← List.append_assoc]
      exact opensAfter
    · rcases isAfter with rfl | ⟨absent, rfl⟩
      · exact alongAll
      · rw [List.append_assoc] at absent ⊢
        exact alongAll.set (by simp) absent

theorem nul_not_mem_foldl_joined (noNul : '\x00' ∉ root.toList) (plain : ∀ name ∈ names, PlainName name) :
    '\x00' ∉ (names.foldl joined root).toList := by
  induction names generalizing root with
  | nil => exact noNul
  | cons name rest inductionHypothesis =>
    exact inductionHypothesis (nul_not_mem_joined noNul (plain name List.mem_cons_self))
      fun other member => plain other (List.mem_cons_of_mem _ member)

/-- Below a path that ends in a name and leads nowhere, a name leads nowhere for the same reason. -/
theorem locate_joined_of_fault {path middle last : String} {fault : FileFault} {aim : Aim}
    (noNul : '\x00' ∉ (joined path middle).toList) (plain : PlainName middle) (plainLast : PlainName last)
    (short : (joined (joined path middle) last).utf8ByteSize ≤ longestPath)
    (notSpelled : aim ≠ .spelling) (refused : tree.locate .target (joined path middle) = .error fault) :
    tree.locate aim (joined (joined path middle) last) = .error fault := by
  obtain ⟨earlier, _, isMiddle⟩ := moves_joined path plain.noSlash
  obtain ⟨before, isPath, isJoined⟩ := moves_joined (joined path middle) plainLast.noSlash
  have isBefore : moves (joined path middle) = before := by
    refine isPath.resolve_right fun isStay => ?_
    rw [isMiddle, plain.ofPart_eq] at isStay
    cases (List.append_inj' isStay rfl).2
  unfold locate at refused
  rw [if_neg noNul, if_neg (joined_nonempty path plain),
    if_neg (Nat.not_lt.mpr ((size_le_joined _ _).trans short)), isBefore,
    ← onTheWay_of_ne_spelling notSpelled] at refused
  rw [locate_joined_eq_walk noNul plainLast short isJoined]
  exact walk_append_error refused [.down last] (.inl (by simp))

/-- Directories are made by the first of some names at most, since one of them is too long. -/
structure RefusedAlong (tree ready : FileTree) (root : String) (base : Place) (names : List String)
    (after : FileTree) : Prop where
  notMade : tree.makeDirectories (names.foldl joined root) = (.error .nameTooLong, after)
  along : after = tree ∨ GrowsAlong base names ready after
  refused : ∃ fault, (fault = .notFound ∨ fault = .nameTooLong) ∧
    ∀ aim, aim ≠ .spelling → tree.locate aim (names.foldl joined root) = .error fault

/-- A name that is too long itself. -/
theorem MadeAlong.refused (made : MadeAlong tree ready root above base init after)
    (isParent : parent? (joined (init.foldl joined root) last) = some (lastAbove root above init))
    (plain : PlainName last) (clear : ready.Clear base (init ++ [last]))
    (short : (joined (init.foldl joined root) last).utf8ByteSize ≤ longestPath)
    (long : longestName < last.utf8ByteSize) : RefusedAlong tree ready root base (init ++ [last]) after := by
  have tooLong : ¬ Fits (init.foldl joined root) last := fun fits => Nat.not_le.mpr long fits.2
  have free := clear.next made.along
  have grows := grows_makeDirectories made.made
  have freeBefore : tree.node? (base ++ init ++ [last]) = none ∨
      tree.node? (base ++ init ++ [last]) = some .directory := by
    rcases grows.node (base ++ init ++ [last]) with same | ⟨absent, _⟩
    · rwa [← same]
    · exact .inl absent
  have notMade := (makeIfMissing_of_fault fun aim notSpelled =>
    (made.opens.locate_joined plain notSpelled (ne_link_of_free free)).trans (if_neg tooLong)).2
  refine ⟨?_, .inr (made.along.longer (List.prefix_append _ _)), ?_⟩
  · rw [List.foldl_concat, makeDirectories, ancestors_of_parent isParent]
    exact (makeLineage_joined made.made made.same made.opens plain short).trans notMade
  · rw [List.foldl_concat]
    rcases opens_or_missing grows made.opens plain short with present | missing
    · refine ⟨.nameTooLong, .inr rfl, fun aim notSpelled => ?_⟩
      rw [present.locate_joined plain notSpelled (ne_link_of_free freeBefore), if_neg tooLong]
    · exact ⟨.notFound, .inl rfl, missing⟩

/-- A name below one that is too long. -/
theorem RefusedAlong.next {middle : String}
    (refused : RefusedAlong tree ready root base (init ++ [middle]) after)
    (isParent : parent? (joined ((init ++ [middle]).foldl joined root) last) =
      some ((init ++ [middle]).foldl joined root))
    (noNul : '\x00' ∉ root.toList) (plain : ∀ name ∈ init ++ [middle] ++ [last], PlainName name)
    (short : (joined ((init ++ [middle]).foldl joined root) last).utf8ByteSize ≤ longestPath) :
    ∃ after, RefusedAlong tree ready root base (init ++ [middle] ++ [last]) after := by
  obtain ⟨fault, isFault, refusedHere⟩ := refused.refused
  have plainLast : PlainName last := plain last (by simp)
  have noNulHere : '\x00' ∉ ((init ++ [middle]).foldl joined root).toList :=
    nul_not_mem_foldl_joined noNul fun name member => plain name (List.mem_append_left _ member)
  have refusedLast : ∀ aim, aim ≠ .spelling →
      tree.locate aim ((init ++ [middle] ++ [last]).foldl joined root) = .error fault := by
    intro aim notSpelled
    rw [List.foldl_concat] at noNulHere short refusedHere
    rw [List.foldl_concat, List.foldl_concat]
    exact locate_joined_of_fault noNulHere (plain middle (by simp)) plainLast short notSpelled
      (refusedHere .target (by decide))
  have isLineage : tree.makeDirectories ((init ++ [middle] ++ [last]).foldl joined root) =
      tree.makeLineage (joined ((init ++ [middle]).foldl joined root) last ::
        ancestors ((init ++ [middle]).foldl joined root)) := by
    rw [List.foldl_concat, makeDirectories, ancestors_of_parent isParent]
  have notMade := makeIfMissing_of_fault refusedLast
  rw [List.foldl_concat] at notMade
  rw [makeLineage, if_neg (joined_nonempty _ plainLast), notMade.1] at isLineage
  rcases isFault with rfl | rfl
  · have notMadeBefore : tree.makeLineage (ancestors ((init ++ [middle]).foldl joined root)) =
      (.error .nameTooLong, after) := refused.notMade
    rw [notMadeBefore] at isLineage
    exact ⟨after, isLineage,
      refused.along.imp_right fun along => along.longer (List.prefix_append _ _),
      .notFound, .inl rfl, refusedLast⟩
  · exact ⟨tree, isLineage.trans notMade.2, .inl rfl, .nameTooLong, .inr rfl, refusedLast⟩

/-- If a name is too long no directory is made for it, but perhaps for the names before it. -/
theorem Founded.exists_refusedAlong (founded : Founded tree ready root above first base)
    (isFirst : ∀ name ∈ names.head?, name = first) (plain : ∀ name ∈ names, PlainName name)
    (clear : ready.Clear base names) (short : (names.foldl joined root).utf8ByteSize ≤ longestPath)
    (long : ∃ name ∈ names, longestName < name.utf8ByteSize) :
    ∃ after, RefusedAlong tree ready root base names after := by
  induction names using List.reverseRecOn with
  | nil => simp at long
  | append_singleton init last inductionHypothesis =>
    have isParent := founded.parent?_eq isFirst plain
    have plainInit : ∀ name ∈ init, PlainName name :=
      fun name member => plain name (List.mem_append_left _ member)
    have clearInit := clear.shorter (List.prefix_append init [last])
    rw [List.foldl_concat] at short
    have shortInit := (size_le_joined _ _).trans short
    by_cases longInit : ∃ name ∈ init, longestName < name.utf8ByteSize
    · obtain ⟨after, refused⟩ :=
        inductionHypothesis (head?_init isFirst) plainInit clearInit shortInit longInit
      obtain ⟨name, member, _⟩ := longInit
      obtain ⟨others, middle, rfl⟩ :=
        (List.eq_nil_or_concat' init).resolve_left (List.ne_nil_of_mem member)
      rw [lastAbove, if_neg (by simp)] at isParent
      exact refused.next isParent founded.opens.noNul plain short
    · have shortNames : ∀ name ∈ init, name.utf8ByteSize ≤ longestName :=
        fun name member => Nat.le_of_not_lt fun tooLong => longInit ⟨name, member, tooLong⟩
      obtain ⟨name, member, longName⟩ := long
      obtain rfl : name = last := by
        rcases List.mem_append.mp member with earlier | isLast
        · exact absurd ⟨name, earlier, longName⟩ longInit
        · exact List.mem_singleton.mp isLast
      obtain ⟨middle, made⟩ :=
        founded.exists_madeAlong (head?_init isFirst) plainInit clearInit shortInit shortNames
      exact ⟨middle, made.refused isParent (plain name (by simp)) clear short longName⟩

end Names

end Vetting.Files.FileTree
