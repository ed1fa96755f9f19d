import Vetting.Proofs.Files.Walks
import Vetting.Proofs.Text.Cutting

/-!
Contract: paths as text, as components and as steps.

Owns:
- the steps that the components of a path stand for;
- what a path has in common with a path that begins with the same components;
- the path of a name below another path;
- when a path leads to a place, and what it comes by.

Does not own: walks (`Vetting.Proofs.Files.Walks`).
-/

namespace Vetting.Files

/-! ### Pieces -/

/-- The first character of a path tells how its pieces begin. -/
theorem pieces_cases (path : String) :
    (path = "" ∧ Text.pieces '/' path = [""]) ∨
    (isAbsolute path = true ∧ ∃ rest, rest ≠ [] ∧ Text.pieces '/' path = "" :: rest) ∨
    (path ≠ "" ∧ isAbsolute path = false ∧
      ∃ first rest, first ≠ "" ∧ Text.pieces '/' path = first :: rest) := by
  unfold Text.pieces isAbsolute
  cases isText : path.toList with
  | nil => exact .inl ⟨String.toList_eq_nil_iff.mp isText, rfl⟩
  | cons character rest =>
    right
    by_cases slash : character = '/'
    · subst slash
      have nonempty := Text.cutAt_ne_nil '/' rest
      exact .inl ⟨rfl, (Text.cutAt '/' rest).map String.ofList, by simpa using nonempty, rfl⟩
    · obtain ⟨piece, pieces, _, isPath⟩ := Text.cutAt_cons_of_ne slash rest
      have isSome : path ≠ "" := by
        rintro rfl
        cases isText
      refine .inr ⟨isSome, by simpa using slash, String.ofList (character :: piece),
        pieces.map String.ofList, ?_, by rw [isPath]; rfl⟩
      intro empty
      cases (String.ofList_eq_empty_iff.mp empty)

theorem pieces_eq_iff_empty (path : String) : Text.pieces '/' path = [""] ↔ path = "" := by
  constructor
  · intro isPath
    rcases pieces_cases path with ⟨empty, _⟩ | ⟨_, rest, isSome, isPieces⟩ |
      ⟨_, _, first, rest, isSome, isPieces⟩
    · exact empty
    · rw [isPieces] at isPath
      exact absurd (List.cons.inj isPath).2 isSome
    · rw [isPieces] at isPath
      exact absurd (List.cons.inj isPath).1 isSome
  · rintro rfl
    rfl

/-! ### Components and steps -/

/-- The steps of a component. -/
def Component.moves : Component → List Move
  | .root | .here => []
  | .up => [.up]
  | .name text => [.down text]

theorem flatMap_innerComponent (part : String) :
    (innerComponent part).flatMap Component.moves = FileTree.leading [Move.ofPart part] := by
  unfold innerComponent Move.ofPart
  by_cases nothing : part = "" ∨ part = "."
  · simp [nothing, FileTree.leading]
  · by_cases up : part = ".."
    · simp [up, FileTree.leading, Component.moves]
    · simp [nothing, up, FileTree.leading, Component.moves]

theorem leading_append (first second : List Move) :
    FileTree.leading (first ++ second) = FileTree.leading first ++ FileTree.leading second :=
  List.filter_append ..

theorem flatMap_innerComponents (parts : List String) :
    (parts.flatMap innerComponent).flatMap Component.moves =
      FileTree.leading (parts.map Move.ofPart) := by
  induction parts with
  | nil => rfl
  | cons part rest inductionHypothesis =>
    rw [List.flatMap_cons, List.flatMap_append, inductionHypothesis, flatMap_innerComponent,
      ← leading_append]
    rfl

/-- The components of a path stand for the steps that lead somewhere. -/
theorem leading_moves (path : String) :
    FileTree.leading (moves path) = (components path).flatMap Component.moves := by
  unfold moves components
  rcases pieces_cases path with ⟨_, isPieces⟩ | ⟨_, rest, nonempty, isPieces⟩ |
    ⟨_, _, first, rest, nonempty, isPieces⟩
  · rw [isPieces]
    rfl
  · have isRooted : rest.isEmpty = false := by simpa using nonempty
    rw [isPieces]
    simp only [isRooted, Bool.not_false, and_self, if_true, List.flatMap_append,
      flatMap_innerComponents]
    rfl
  · rw [isPieces]
    have isBeginning : (if first = "" ∧ (!rest.isEmpty) = true then [Component.root]
        else if first = "." then [Component.here] else innerComponent first).flatMap
          Component.moves = FileTree.leading [Move.ofPart first] := by
      by_cases here : first = "."
      · subst here
        rfl
      · simp only [nonempty, false_and, if_false, here, flatMap_innerComponent]
    simp only [List.flatMap_append, flatMap_innerComponents, isBeginning, ← leading_append]
    rfl

theorem head?_components (path : String) :
    (components path).head? = some .root ↔ isAbsolute path = true := by
  unfold components
  rcases pieces_cases path with ⟨rfl, isPieces⟩ | ⟨absolute, rest, nonempty, isPieces⟩ |
    ⟨_, relative, first, rest, nonempty, isPieces⟩
  · simp [isPieces, innerComponent, isAbsolute]
  · have isRooted : rest.isEmpty = false := by simpa using nonempty
    simp [isPieces, isRooted, absolute]
  · rw [isPieces, relative]
    by_cases here : first = "."
    · simp [here]
    · by_cases up : first = ".."
      · simp [up, innerComponent]
      · simp [nonempty, here, up, innerComponent]

theorem components_eq_nil_iff (path : String) : components path = [] ↔ path = "" := by
  unfold components
  rcases pieces_cases path with ⟨rfl, isPieces⟩ | ⟨absolute, rest, nonempty, isPieces⟩ |
    ⟨isSome, _, first, rest, nonempty, isPieces⟩
  · simp [isPieces, innerComponent]
  · have isRooted : rest.isEmpty = false := by simpa using nonempty
    have isSome : path ≠ "" := by
      rintro rfl
      cases absolute
    simp [isPieces, isRooted, isSome]
  · rw [isPieces]
    by_cases here : first = "."
    · simp [here, isSome]
    · by_cases up : first = ".."
      · simp [up, innerComponent, isSome]
      · simp [nonempty, here, up, innerComponent, isSome]

/-- Apart from the beginning, a path has the components that its pieces have. -/
theorem mem_components_iff {path : String} {component : Component} (notRoot : component ≠ .root)
    (notHere : component ≠ .here) :
    component ∈ components path ↔ ∃ part ∈ Text.pieces '/' path, component ∈ innerComponent part := by
  unfold components
  rcases pieces_cases path with ⟨_, isPieces⟩ | ⟨_, rest, nonempty, isPieces⟩ |
    ⟨_, _, first, rest, nonempty, isPieces⟩
  · simp [isPieces, innerComponent]
  · have isRooted : rest.isEmpty = false := by simpa using nonempty
    simp [isPieces, isRooted, notRoot, innerComponent]
  · rw [isPieces]
    by_cases here : first = "."
    · simp [here, notHere, innerComponent]
    · simp [nonempty, here]

/-- After the beginning every component is a step. -/
theorem moves_ne_nil_of_mem_tail {path : String} {component : Component}
    (member : component ∈ (components path).tail) : component.moves ≠ [] := by
  have inner : ∀ part, ∀ component ∈ innerComponent part, component.moves ≠ [] := by
    intro part component member
    unfold innerComponent at member
    split at member
    · cases member
    · split at member
      · simp_all [Component.moves]
      · simp_all [Component.moves]
  have inners : ∀ parts : List String, ∀ component ∈ parts.flatMap innerComponent,
      component.moves ≠ [] := by
    intro parts component member
    obtain ⟨part, _, isInner⟩ := List.mem_flatMap.mp member
    exact inner part component isInner
  unfold components at member
  rcases pieces_cases path with ⟨_, isPieces⟩ | ⟨_, rest, nonempty, isPieces⟩ |
    ⟨_, _, first, rest, nonempty, isPieces⟩
  · simp [isPieces, innerComponent] at member
  · have isRooted : rest.isEmpty = false := by simpa using nonempty
    simp only [isPieces, isRooted, Bool.not_false, and_self, if_true, List.singleton_append,
      List.tail_cons] at member
    exact inners rest component member
  · rw [isPieces] at member
    by_cases here : first = "."
    · simp only [here, if_true] at member
      exact inners rest component (by simpa using member)
    · simp only [nonempty, here, false_and, if_false] at member
      exact inners (first :: rest) component (List.mem_of_mem_tail member)

theorem up_mem_innerComponent_iff {part : String} : .up ∈ innerComponent part ↔ part = ".." := by
  unfold innerComponent
  by_cases nothing : part = "" ∨ part = "."
  · rcases nothing with rfl | rfl <;> simp
  · by_cases up : part = ".." <;> simp [nothing, up]

theorem name_mem_innerComponent_iff {part name : String} :
    .name name ∈ innerComponent part ↔ part = name ∧ name ≠ "" ∧ name ≠ "." ∧ name ≠ ".." := by
  unfold innerComponent
  by_cases nothing : part = "" ∨ part = "."
  · rcases nothing with rfl | rfl
    · simp
      rintro rfl
      simp
    · simp
      rintro rfl
      simp
  · by_cases up : part = ".."
    · subst up
      simp
      rintro rfl
      simp
    · simp only [nothing, up, if_false, List.mem_singleton, Component.name.injEq]
      rw [not_or] at nothing
      constructor
      · rintro rfl
        exact ⟨rfl, nothing.1, nothing.2, up⟩
      · rintro ⟨rfl, _⟩
        rfl

theorem leadsUp_iff (path : String) : leadsUp path = true ↔ ".." ∈ Text.pieces '/' path := by
  rw [leadsUp, List.contains_iff_mem, mem_components_iff (by decide) (by decide)]
  simp [up_mem_innerComponent_iff]

theorem up_mem_moves_iff (path : String) : .up ∈ moves path ↔ leadsUp path = true := by
  have isUp : ∀ part, Move.ofPart part = .up ↔ part = ".." := by
    intro part
    unfold Move.ofPart
    split
    · rename_i nothing
      constructor
      · intro up
        cases up
      · rintro rfl
        simp at nothing
    · split <;> simp_all
  rw [leadsUp_iff]
  simp [moves, isUp]

/-- A character of a path, apart from slashes and dots, is in a component that is a name. -/
theorem mem_iff_of_components {path : String} {character : Char} (noSlash : character ≠ '/')
    (noDot : character ≠ '.') :
    character ∈ path.toList ↔ ∃ name, .name name ∈ components path ∧ character ∈ name.toList := by
  rw [Text.mem_iff_of_ne noSlash]
  constructor
  · rintro ⟨piece, isPiece, member⟩
    have member : character ∈ (String.ofList piece).toList := by rwa [String.toList_ofList]
    refine ⟨String.ofList piece, ?_, member⟩
    rw [mem_components_iff (by simp) (by simp)]
    refine ⟨_, List.mem_map_of_mem isPiece, name_mem_innerComponent_iff.mpr ⟨rfl, ?_, ?_, ?_⟩⟩
    · intro same
      simp [same] at member
    · intro same
      rw [same] at member
      simp [noDot] at member
    · intro same
      rw [same] at member
      simp [noDot] at member
  · rintro ⟨name, member, inName⟩
    rw [mem_components_iff (by simp) (by simp)] at member
    obtain ⟨part, isPart, isInner⟩ := member
    obtain ⟨rfl, _⟩ := name_mem_innerComponent_iff.mp isInner
    obtain ⟨piece, isPiece, rfl⟩ := List.mem_map.mp isPart
    exact ⟨piece, isPiece, by rwa [String.toList_ofList] at inName⟩

/-! ### Paths that begin alike -/

section Beginning

variable {path beginning : String}

theorem beginsWith_iff : beginsWith path beginning = true ↔ components beginning <+: components path :=
  List.isPrefixOf_iff_prefix

theorem isAbsolute_of_beginsWith (begins : beginsWith path beginning = true)
    (nonempty : beginning ≠ "") : isAbsolute path = isAbsolute beginning := by
  obtain ⟨rest, isPath⟩ := beginsWith_iff.mp begins
  have isSome : components beginning ≠ [] := by rwa [Ne, components_eq_nil_iff]
  have sameFirst : (components path).head? = (components beginning).head? := by
    rw [← isPath, List.head?_append_of_ne_nil _ isSome]
  rw [Bool.eq_iff_iff, ← head?_components, ← head?_components, sameFirst]

/-- The steps of a path that begins with another are those of the other one and some more. -/
theorem leading_of_beginsWith (begins : beginsWith path beginning = true) :
    ∃ rest, components path = components beginning ++ rest ∧
      FileTree.leading (moves path) =
        FileTree.leading (moves beginning) ++ rest.flatMap Component.moves := by
  obtain ⟨rest, isPath⟩ := beginsWith_iff.mp begins
  refine ⟨rest, isPath.symm, ?_⟩
  rw [leading_moves, leading_moves, ← isPath, List.flatMap_append]

theorem mem_of_beginsWith (begins : beginsWith path beginning = true) {character : Char}
    (noSlash : character ≠ '/') (noDot : character ≠ '.') (member : character ∈ beginning.toList) :
    character ∈ path.toList := by
  obtain ⟨name, isName, inName⟩ := (mem_iff_of_components noSlash noDot).mp member
  exact (mem_iff_of_components noSlash noDot).mpr
    ⟨name, (beginsWith_iff.mp begins).subset isName, inName⟩

end Beginning

/-! ### A name below a path -/

section Joined

variable {path name : String}

/-- A name becomes the last piece, in the place of the empty piece after a last slash. -/
theorem pieces_joined (path : String) (noSlash : '/' ∉ name.toList) :
    ∃ before, (Text.pieces '/' path = before ∨ Text.pieces '/' path = before ++ [""]) ∧
      Text.pieces '/' (joined path name) = before ++ [name] := by
  have isName : Text.cutAt '/' name.toList = [name.toList] := Text.cutAt_of_not_mem noSlash
  by_cases empty : path = ""
  · subst empty
    exact ⟨[], .inr rfl, by simp [joined, Text.pieces, isName]⟩
  · by_cases ends : path.toList.getLast? = some '/'
    · obtain ⟨front, isPath⟩ := List.getLast?_eq_some_iff.mp ends
      refine ⟨(Text.cutAt '/' front).map String.ofList, .inr ?_, ?_⟩
      · rw [Text.pieces, isPath, Text.cutAt_append, List.map_append]
        rfl
      · rw [joined, if_pos (.inr ends), Text.pieces, String.toList_append, isPath, List.append_assoc,
          List.singleton_append, Text.cutAt_append, isName]
        simp
    · refine ⟨Text.pieces '/' path, .inl rfl, ?_⟩
      have isJoined : (joined path name).toList = path.toList ++ '/' :: name.toList := by
        simp [joined, empty, ends]
      rw [Text.pieces, isJoined, Text.cutAt_append, isName, List.map_append]
      simp [Text.pieces]

/-- The name is the last step of its path. -/
theorem moves_joined (path : String) (noSlash : '/' ∉ name.toList) :
    ∃ before, (moves path = before ∨ moves path = before ++ [.stay]) ∧
      moves (joined path name) = before ++ [Move.ofPart name] := by
  obtain ⟨before, isPath, isJoined⟩ := pieces_joined path noSlash
  refine ⟨before.map Move.ofPart, ?_, ?_⟩
  · unfold moves
    rcases isPath with isPath | isPath
    · exact .inl (by rw [isPath])
    · exact .inr (by rw [isPath, List.map_append]; rfl)
  · rw [moves, isJoined, List.map_append]
    rfl

theorem components_joined (nonempty : path ≠ "") (noSlash : '/' ∉ name.toList) :
    components (joined path name) = components path ++ innerComponent name := by
  obtain ⟨before, isPath, isJoined⟩ := pieces_joined path noSlash
  have isSome : Text.pieces '/' path ≠ [""] := by rwa [Ne, pieces_eq_iff_empty]
  have isStart : before ≠ [] := by
    rintro rfl
    rcases isPath with isPath | isPath
    · simp [Text.pieces, Text.cutAt_ne_nil] at isPath
    · exact isSome isPath
  obtain ⟨first, rest, rfl⟩ := List.exists_cons_of_ne_nil isStart
  unfold components
  rw [isJoined]
  rcases isPath with isPath | isPath
  · have notRoot : first = "" → rest ≠ [] := by
      rintro rfl rfl
      exact isSome isPath
    rw [isPath]
    by_cases root : first = ""
    · subst root
      simp [notRoot rfl]
    · simp [root]
  · rw [isPath]
    simp [innerComponent]

theorem beginsWith_joined (path : String) (noSlash : '/' ∉ name.toList) :
    beginsWith (joined path name) path = true := by
  rw [beginsWith_iff]
  by_cases empty : path = ""
  · rw [(components_eq_nil_iff path).mpr empty]
    exact List.nil_prefix
  · rw [components_joined empty noSlash]
    exact List.prefix_append _ _

theorem leadsUp_joined (path : String) (noSlash : '/' ∉ name.toList) :
    leadsUp (joined path name) = true ↔ leadsUp path = true ∨ name = ".." := by
  obtain ⟨before, isPath, isJoined⟩ := pieces_joined path noSlash
  rw [leadsUp_iff, leadsUp_iff, isJoined]
  rw [List.mem_append, List.mem_singleton, eq_comm (a := "..")]
  rcases isPath with isPath | isPath
  · rw [isPath]
  · simp [isPath]

theorem isAbsolute_joined (path : String) (noSlash : '/' ∉ name.toList) :
    isAbsolute (joined path name) = isAbsolute path := by
  by_cases empty : path = ""
  · subst empty
    have notFirst : name.toList.head? ≠ some '/' := fun slash => noSlash (List.mem_of_mem_head? slash)
    simp [joined, isAbsolute, notFirst]
  · have isSome : path.toList ≠ [] := by rwa [Ne, String.toList_eq_nil_iff]
    unfold joined isAbsolute
    split
    · rw [String.toList_append, List.head?_append_of_ne_nil _ isSome]
    · rw [String.append_assoc, String.toList_append, List.head?_append_of_ne_nil _ isSome]

theorem beginsWith_refl (path : String) : beginsWith path path = true :=
  beginsWith_iff.mpr (List.prefix_refl _)

theorem beginsWith_trans {first second third : String} (begins : beginsWith first second = true)
    (further : beginsWith second third = true) : beginsWith first third = true :=
  beginsWith_iff.mpr ((beginsWith_iff.mp further).trans (beginsWith_iff.mp begins))

/-- Names one below the other, below a path: the path begins with it and leads up as the path does. -/
theorem foldl_joined {names : List String} (noSlash : ∀ name ∈ names, '/' ∉ name.toList)
    (path : String) :
    beginsWith (names.foldl joined path) path = true ∧
      (leadsUp (names.foldl joined path) = true ↔ leadsUp path = true ∨ ".." ∈ names) := by
  induction names generalizing path with
  | nil => simp [beginsWith_refl]
  | cons name rest inductionHypothesis =>
    have noSlashHere : '/' ∉ name.toList := noSlash name List.mem_cons_self
    obtain ⟨begins, up⟩ := inductionHypothesis
      (fun other member => noSlash other (List.mem_cons_of_mem _ member)) (joined path name)
    refine ⟨beginsWith_trans begins (beginsWith_joined path noSlashHere), ?_⟩
    rw [List.foldl_cons, up, leadsUp_joined path noSlashHere, List.mem_cons, or_assoc,
      eq_comm (a := "..")]

end Joined

/-! ### Locating paths -/

namespace FileTree

variable {tree : FileTree} {aim : Aim} {path : String} {place : Place}

theorem locate_eq_ok_iff :
    tree.locate aim path = .ok place ↔
      '\x00' ∉ path.toList ∧ path ≠ "" ∧ path.utf8ByteSize ≤ longestPath ∧
        ∃ links ≤ linkLimit,
          Walked tree aim links (origin tree.workingDirectory path) (moves path) place := by
  unfold locate
  constructor
  · intro found
    split at found
    · cases found
    · rename_i noNul
      split at found
      · cases found
      · rename_i nonempty
        split at found
        · cases found
        · rename_i short
          exact ⟨noNul, nonempty, Nat.le_of_not_lt short, walk_eq_ok_iff.mp found⟩
  · rintro ⟨noNul, nonempty, short, walked⟩
    rw [if_neg noNul, if_neg nonempty, if_neg (Nat.not_lt.mpr short)]
    exact walk_eq_ok_iff.mpr walked

theorem canonical_eq_ok_iff :
    tree.canonical path = .ok place ↔
      tree.locate .spelling path = .ok place ∧ tree.node? place ≠ none := by
  unfold canonical
  cases tree.locate .spelling path with
  | error fault => simp [bind, Except.bind]
  | ok found =>
    cases isNode : tree.node? found with
    | none =>
      simp only [bind, Except.bind, isNode]
      constructor
      · intro other
        cases other
      · rintro ⟨same, isSome⟩
        cases same
        exact absurd isNode isSome
    | some node =>
      simp only [bind, Except.bind, isNode]
      constructor
      · intro same
        cases same
        simp [isNode]
      · rintro ⟨same, _⟩
        cases same
        rfl

theorem read_eq_ok_iff {bytes : ByteArray} :
    tree.read path = .ok bytes ↔
      ∃ place, tree.locate .target path = .ok place ∧ tree.node? place = some (.file bytes) := by
  unfold read reached
  cases tree.locate .target path with
  | error fault => simp [bind, Except.bind]
  | ok found =>
    cases isNode : tree.node? found with
    | none => simp [bind, Except.bind, isNode, throw, throwThe, MonadExceptOf.throw]
    | some node =>
      cases node <;>
        simp [bind, Except.bind, isNode, pure, Except.pure, throw, throwThe, MonadExceptOf.throw]

/-- A path leads to a place along the steps of its components. -/
theorem exists_walked_leading (found : tree.locate aim path = .ok place) (through : aim ≠ .entry) :
    ∃ links ≤ linkLimit,
      Walked tree aim links (origin tree.workingDirectory path) (leading (moves path)) place := by
  obtain ⟨_, _, _, links, few, walked⟩ := locate_eq_ok_iff.mp found
  exact ⟨links, few, walked.thinned through (thinned_leading (moves path))⟩

/-- A path leads to the same place in a tree that keeps the ways. -/
theorem locate_kept {after : FileTree} (found : tree.locate aim path = .ok place)
    (keeps : tree.KeepsWays after) (sameDirectory : after.workingDirectory = tree.workingDirectory) :
    after.locate aim path = .ok place := by
  obtain ⟨noNul, nonempty, short, links, few, walked⟩ := locate_eq_ok_iff.mp found
  exact locate_eq_ok_iff.mpr
    ⟨noNul, nonempty, short, links, few, sameDirectory ▸ walked.kept keeps⟩

/-- Where a place is written out, it is the place that the path leads to. -/
theorem locate_target (found : tree.locate .spelling path = .ok place) :
    tree.locate .target path = .ok place := by
  obtain ⟨noNul, nonempty, short, links, few, walked⟩ := locate_eq_ok_iff.mp found
  exact locate_eq_ok_iff.mpr ⟨noNul, nonempty, short, links, few, walked.target⟩

/-- On the way to a place a walk comes by the directory that the beginning of its path leads to. -/
theorem exists_located_beginning {beginning : String} (found : tree.locate aim path = .ok place)
    (through : aim ≠ .entry) (begins : beginsWith path beginning = true) (nonempty : beginning ≠ "")
    (short : beginning.utf8ByteSize ≤ longestPath) (further : components beginning ≠ components path) :
    ∃ base, tree.locate aim beginning = .ok base ∧ tree.node? base = some .directory := by
  obtain ⟨noNul, _⟩ := locate_eq_ok_iff.mp found
  obtain ⟨links, few, direct⟩ := exists_walked_leading found through
  obtain ⟨rest, isPath, isLeading⟩ := leading_of_beginsWith begins
  -- steps that lead somewhere go on after the beginning
  have goesOn : rest.flatMap Component.moves ≠ [] := by
    cases rest with
    | nil => exact absurd (by rw [isPath, List.append_nil]) further
    | cons component others =>
      have isSome : components beginning ≠ [] := by rwa [Ne, components_eq_nil_iff]
      have member : component ∈ (components path).tail := by
        rw [isPath, List.tail_append_of_ne_nil isSome]
        simp
      rw [List.flatMap_cons]
      exact List.append_ne_nil_of_left_ne_nil (moves_ne_nil_of_mem_tail member) _
  rw [isLeading] at direct
  obtain ⟨before, after, base, isSum, one, two⟩ := direct.split (.inl goesOn)
  rw [onTheWay_of_ne_entry through] at one
  have inside := two.inside_of_ne_nil goesOn
  have walkedBeginning := one.thickened through inside (thinned_leading (moves beginning))
  refine ⟨base, locate_eq_ok_iff.mpr ⟨?_, nonempty, short, before, by omega, ?_⟩, inside⟩
  · exact fun member => noNul (mem_of_beginsWith begins (by decide) (by decide) member)
  · unfold origin at walkedBeginning ⊢
    rwa [isAbsolute_of_beginsWith begins nonempty] at walkedBeginning

end FileTree

end Vetting.Files
