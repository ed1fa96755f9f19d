import Vetting.Proofs.Files.Paths

/-!
Contract: the paths above a path.

Owns:
- names that are one part of a path and lead down;
- the path above one that ends in such a name;
- that paths above a path are shorter, so that all of them are found.

Does not own: making the directories that they name (`Vetting.Proofs.Files.Lineage`).
-/

namespace Vetting.Files

/-- A name that is one part of a path and leads down. -/
structure PlainName (name : String) : Prop where
  nonempty : name ≠ ""
  notHere : name ≠ "."
  notUp : name ≠ ".."
  noSlash : '/' ∉ name.toList
  noNul : '\x00' ∉ name.toList

theorem PlainName.ofPart_eq {name : String} (plain : PlainName name) :
    Move.ofPart name = .down name := by
  simp [Move.ofPart, plain.nonempty, plain.notHere, plain.notUp]

/-! ### Parts that say nothing -/

/-- A part at the end that says nothing is not a component. -/
theorem components_joined_append {parts : List String} {part : String} (nonempty : parts ≠ [])
    (notEmpty : parts ≠ [""]) (clean : ∀ part ∈ parts, '/' ∉ part.toList)
    (nothing : part = "" ∨ part = ".") :
    components (Text.joined "/" (parts ++ [part])) = components (Text.joined "/" parts) := by
  have cleanPart : '/' ∉ part.toList := by
    rcases nothing with rfl | rfl <;> decide
  have cleanAll : ∀ other ∈ parts ++ [part], '/' ∉ other.toList := by
    intro other member
    rcases List.mem_append.mp member with earlier | last
    · exact clean other earlier
    · exact List.mem_singleton.mp last ▸ cleanPart
  have isInner : innerComponent part = [] := by simp [innerComponent, nothing]
  obtain ⟨first, rest, rfl⟩ := List.exists_cons_of_ne_nil nonempty
  have notRoot : first = "" → rest ≠ [] := by
    rintro rfl rfl
    exact notEmpty rfl
  unfold components
  rw [Text.pieces_joined rfl (by simp) cleanAll, Text.pieces_joined rfl nonempty clean]
  by_cases root : first = ""
  · simp [root, notRoot root, isInner]
  · simp [root, isInner]

theorem trimmedParts_of_nothing {part : String} {rest : List String} (nonempty : rest ≠ [])
    (nothing : part = "" ∨ part = ".") : trimmedParts (part :: rest) = trimmedParts rest := by
  obtain ⟨other, others, rfl⟩ := List.exists_cons_of_ne_nil nonempty
  rw [trimmedParts, if_pos nothing]
  simp

theorem trimmedParts_of_kept {part : String} {rest : List String}
    (kept : ¬ (rest ≠ [] ∧ (part = "" ∨ part = "."))) : trimmedParts (part :: rest) = part :: rest := by
  cases rest with
  | nil => rfl
  | cons other others =>
    rw [trimmedParts, if_neg fun nothing => kept ⟨List.cons_ne_nil _ _, nothing⟩]
    simp

/-- What is left at the beginning has the same components; only the root is written as nothing. -/
theorem components_trimmedParts {parts : List String} (nonempty : parts ≠ [])
    (clean : ∀ part ∈ parts, '/' ∉ part.toList) :
    if trimmedParts parts = [""] then
      parts = [""] ∨ components (Text.joined "/" parts.reverse) = components "/"
    else components (Text.joined "/" (trimmedParts parts).reverse) =
      components (Text.joined "/" parts.reverse) := by
  induction parts with
  | nil => exact absurd rfl nonempty
  | cons part rest inductionHypothesis =>
    by_cases nothing : rest ≠ [] ∧ (part = "" ∨ part = ".")
    · obtain ⟨goesOn, nothing⟩ := nothing
      have later := inductionHypothesis goesOn
        fun other member => clean other (List.mem_cons_of_mem _ member)
      rw [trimmedParts_of_nothing goesOn nothing, List.reverse_cons]
      have cleanRest : ∀ other ∈ rest.reverse, '/' ∉ other.toList :=
        fun other member => clean other (List.mem_cons_of_mem _ (List.mem_reverse.mp member))
      by_cases root : rest = [""]
      · subst root
        rcases nothing with rfl | rfl <;> exact .inr (by decide +kernel)
      · have notEmpty : rest.reverse ≠ [""] := by simpa [List.reverse_eq_iff] using root
        rw [components_joined_append (by simpa using goesOn) notEmpty cleanRest nothing]
        split
        · rename_i isRoot
          rw [if_pos isRoot] at later
          exact .inr (later.resolve_left root)
        · rename_i notRoot
          rwa [if_neg notRoot] at later
    · rw [trimmedParts_of_kept nothing]
      split
      · rename_i same
        exact .inl same
      · rfl

/-! ### The path above a path -/

section Above

variable {path name : String} {before : List String}

/-- Above a path that ends in a part which says something are the parts before it. -/
theorem parent?_of_pieces (isPath : Text.pieces '/' path = before ++ [name])
    (something : ¬ (name = "" ∨ name = ".")) (nonempty : before ≠ []) :
    parent? path = some (if trimmedParts before.reverse = [""] then "/"
      else Text.joined "/" (trimmedParts before.reverse).reverse) := by
  obtain ⟨last, others, isBefore⟩ := List.exists_cons_of_ne_nil (List.reverse_ne_nil_iff.mpr nonempty)
  unfold parent?
  rw [isPath, List.reverse_append, List.reverse_singleton, List.singleton_append,
    trimmedParts_of_kept fun nothing => something nothing.2, isBefore]
  simp only
  split
  · rename_i isRoot
    rw [if_pos isRoot]
  · rename_i notRoot
    rw [if_neg notRoot]

/-- Above a name below a path is a path with the same components. -/
theorem parent?_joined (path : String) (plain : PlainName name) :
    ∃ parent, parent? (joined path name) = some parent ∧ components parent = components path := by
  obtain ⟨before, isPath, isJoined⟩ := pieces_joined path plain.noSlash
  have something : ¬ (name = "" ∨ name = ".") := by simp [plain.nonempty, plain.notHere]
  have isText : Text.joined "/" (Text.pieces '/' path) = path := Text.joined_pieces rfl path
  have clean : ∀ part ∈ before, '/' ∉ part.toList := fun part member =>
    Text.not_mem_of_mem_pieces (isJoined ▸ List.mem_append_left _ member)
  by_cases empty : path = ""
  · subst empty
    have isName : Text.pieces '/' (joined "" name) = [name] := by
      rw [joined, if_pos (.inl rfl), String.empty_append, Text.pieces,
        Text.cutAt_of_not_mem plain.noSlash]
      simp
    refine ⟨"", ?_, rfl⟩
    unfold parent?
    rw [isName]
    exact if_neg plain.nonempty
  · have isSome : before ≠ [] := by
      rintro rfl
      rcases isPath with isPath | isPath
      · rw [isPath] at isText
        exact empty isText.symm
      · exact empty ((pieces_eq_iff_empty path).mp isPath)
    refine ⟨_, parent?_of_pieces isJoined something isSome, ?_⟩
    have isTrimmed := components_trimmedParts (List.reverse_ne_nil_iff.mpr isSome)
      fun part member => clean part (List.mem_reverse.mp member)
    rw [List.reverse_reverse] at isTrimmed
    have isBefore : before = [""] ∧ path = "/" ∨
        before ≠ [""] ∧ components (Text.joined "/" before) = components path := by
      by_cases root : before = [""]
      · subst root
        rcases isPath with isPath | isPath
        · exact absurd ((pieces_eq_iff_empty path).mp isPath) empty
        · rw [isPath] at isText
          exact .inl ⟨rfl, isText.symm⟩
      · refine .inr ⟨root, ?_⟩
        rcases isPath with isPath | isPath
        · rw [← isPath, isText]
        · rw [← components_joined_append isSome root clean (.inl rfl), ← isPath, isText]
    rcases isBefore with ⟨rfl, rfl⟩ | ⟨notRoot, isPath⟩
    · rfl
    · by_cases root : trimmedParts before.reverse = [""]
      · rw [if_pos root] at isTrimmed ⊢
        have sameRoot := isTrimmed.resolve_left (by simpa [List.reverse_eq_iff] using notRoot)
        exact sameRoot.symm.trans isPath
      · rw [if_neg root] at isTrimmed ⊢
        exact isTrimmed.trans isPath

/-- A path that ends in a name is above the names below it. -/
theorem parent?_joined_joined {first second : String} (path : String) (plain : PlainName first)
    (plainSecond : PlainName second) :
    parent? (joined (joined path first) second) = some (joined path first) := by
  obtain ⟨before, _, isFirst⟩ := pieces_joined path plain.noSlash
  obtain ⟨above, isAbove, isJoined⟩ := pieces_joined (joined path first) plainSecond.noSlash
  have something : ¬ (first = "" ∨ first = ".") := by simp [plain.nonempty, plain.notHere]
  have somethingSecond : ¬ (second = "" ∨ second = ".") := by
    simp [plainSecond.nonempty, plainSecond.notHere]
  have isText : Text.joined "/" (Text.pieces '/' (joined path first)) = joined path first :=
    Text.joined_pieces rfl _
  have isWhole : above = before ++ [first] := by
    rcases isAbove with isAbove | isAbove
    · rw [← isAbove, isFirst]
    · rw [isFirst] at isAbove
      exact absurd (List.append_inj' isAbove rfl).2 (by simp [plain.nonempty])
  have isTrimmed : trimmedParts above.reverse = above.reverse := by
    rw [isWhole, List.reverse_append, List.reverse_singleton, List.singleton_append,
      trimmedParts_of_kept fun nothing => something nothing.2]
  have notRoot : above.reverse ≠ [""] := by
    rw [isWhole, List.reverse_append]
    simp [plain.nonempty]
  rw [parent?_of_pieces isJoined somethingSecond (by simp [isWhole]), isTrimmed, if_neg notRoot,
    List.reverse_reverse, isWhole, ← isFirst, isText]

end Above

/-! ### All paths above a path -/

theorem trimmedParts_suffix (parts : List String) : trimmedParts parts <:+ parts := by
  induction parts with
  | nil => exact List.suffix_refl _
  | cons part rest inductionHypothesis =>
    by_cases nothing : rest ≠ [] ∧ (part = "" ∨ part = ".")
    · rw [trimmedParts_of_nothing nothing.1 nothing.2]
      exact inductionHypothesis.trans (List.suffix_cons part rest)
    · simp only [trimmedParts_of_kept nothing, List.suffix_refl]

theorem nonempty_of_trimmedParts {parts rest : List String} {part : String} (nonempty : rest ≠ [])
    (trimmed : trimmedParts parts = part :: rest) : part ≠ "" := by
  induction parts with
  | nil => cases trimmed
  | cons first others inductionHypothesis =>
    by_cases nothing : others ≠ [] ∧ (first = "" ∨ first = ".")
    · rw [trimmedParts_of_nothing nothing.1 nothing.2] at trimmed
      exact inductionHypothesis trimmed
    · rw [trimmedParts_of_kept nothing] at trimmed
      obtain ⟨rfl, rfl⟩ := List.cons.inj trimmed
      exact fun empty => nothing ⟨nonempty, .inl empty⟩

theorem joined_ne_empty {parts : List String} {part : String} (member : part ∈ parts)
    (nonempty : part ≠ "") : Text.joined "/" parts ≠ "" := by
  cases parts with
  | nil => cases member
  | cons first rest =>
    cases rest with
    | nil => exact List.mem_singleton.mp member ▸ nonempty
    | cons second others =>
      intro empty
      have isText := congrArg String.toList empty
      simp [Text.joined] at isText

theorem trimmedParts_ne_nil {parts : List String} (nonempty : parts ≠ []) :
    trimmedParts parts ≠ [] := by
  induction parts with
  | nil => exact absurd rfl nonempty
  | cons part rest inductionHypothesis =>
    by_cases nothing : rest ≠ [] ∧ (part = "" ∨ part = ".")
    · rw [trimmedParts_of_nothing nothing.1 nothing.2]
      exact inductionHypothesis nothing.1
    · rw [trimmedParts_of_kept nothing]
      exact List.cons_ne_nil _ _

/-- What is above a path are parts at its beginning, and a part that is not empty follows them. -/
theorem exists_following {parts rest : List String} {part : String} (isMany : rest ≠ [])
    (trimmed : trimmedParts parts.reverse = part :: rest) :
    ∃ following, parts = (trimmedParts rest).reverse ++ following ∧ part ∈ following ∧
      trimmedParts rest ≠ [] := by
  obtain ⟨dropped, isWhole⟩ := trimmedParts_suffix parts.reverse
  obtain ⟨others, isRest⟩ := trimmedParts_suffix rest
  refine ⟨others.reverse ++ part :: dropped.reverse, ?_, by simp, ?_⟩
  · rw [← List.reverse_inj, ← isWhole, trimmed]
    simp [isRest]
  · exact trimmedParts_ne_nil isMany

/-- The path above a path is its beginning, and something follows. -/
theorem exists_rest_of_parent? {path parent : String} (isAbove : parent? path = some parent) :
    ∃ rest, rest ≠ "" ∧ path = parent ++ rest := by
  have isText : Text.joined "/" (Text.pieces '/' path) = path := Text.joined_pieces rfl path
  unfold parent? at isAbove
  split at isAbove
  · cases isAbove
  · rename_i first isTrimmed
    split at isAbove
    · cases isAbove
    · rename_i isName
      cases isAbove
      refine ⟨path, ?_, String.empty_append.symm⟩
      rintro rfl
      exact isName (List.cons.inj isTrimmed).1.symm
  · rename_i part rest isSingle isTrimmed
    obtain ⟨following, isPieces, member, isSome⟩ := exists_following isSingle isTrimmed
    have isWhole := Text.joined_append "/" (List.reverse_ne_nil_iff.mpr isSome) (List.ne_nil_of_mem member)
    rw [← isPieces, isText] at isWhole
    split at isAbove
    · rename_i isRoot
      cases isAbove
      refine ⟨Text.joined "/" following,
        joined_ne_empty member (nonempty_of_trimmedParts isSingle isTrimmed), ?_⟩
      rw [isWhole, isRoot]
      rfl
    · cases isAbove
      refine ⟨"/" ++ Text.joined "/" following, ?_, by rw [isWhole, String.append_assoc]⟩
      intro empty
      have isText := congrArg String.toList empty
      simp at isText

theorem length_lt_of_parent? {path parent : String} (isAbove : parent? path = some parent) :
    parent.length < path.length := by
  obtain ⟨rest, nonempty, rfl⟩ := exists_rest_of_parent? isAbove
  have := String.length_eq_zero_iff.not.mpr nonempty
  rw [String.length_append]
  omega

theorem size_le_of_parent? {path parent : String} (isAbove : parent? path = some parent) :
    parent.utf8ByteSize ≤ path.utf8ByteSize := by
  obtain ⟨rest, _, rfl⟩ := exists_rest_of_parent? isAbove
  rw [String.utf8ByteSize_append]
  omega

theorem above_of_length_le {count : Nat} {path : String} (enough : path.length ≤ count) :
    above count path = above path.length path := by
  induction count using Nat.strongRecOn generalizing path with
  | ind count inductionHypothesis =>
    cases isAbove : parent? path with
    | none =>
      have noneAbove : ∀ count, above count path = [] := by
        intro count
        cases count with
        | zero => rfl
        | succ fewer => rw [above, isAbove]
      rw [noneAbove, noneAbove]
    | some parent =>
      have shorter := length_lt_of_parent? isAbove
      obtain ⟨fewer, rfl⟩ := Nat.exists_eq_succ_of_ne_zero (Nat.ne_zero_of_lt (shorter.trans_le enough))
      obtain ⟨length, isLength⟩ := Nat.exists_eq_succ_of_ne_zero (Nat.ne_zero_of_lt shorter)
      have most := @inductionHypothesis fewer (by omega) parent (by omega)
      have least := @inductionHypothesis length (by omega) parent (by omega)
      rw [isLength, above, above, isAbove]
      simp only
      rw [most, least]

/-- The paths above a path are the one next above it and those above that one. -/
theorem ancestors_of_parent {path parent : String} (isAbove : parent? path = some parent) :
    ancestors path = path :: ancestors parent := by
  have shorter := length_lt_of_parent? isAbove
  obtain ⟨fewer, isLength⟩ := Nat.exists_eq_succ_of_ne_zero (Nat.ne_zero_of_lt shorter)
  unfold ancestors
  rw [isLength, above, isAbove]
  simp only
  rw [above_of_length_le (by omega)]

end Vetting.Files
