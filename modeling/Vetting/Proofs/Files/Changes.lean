import Vetting.Proofs.Files.Paths

/-!
Contract: what becomes of a tree of files.

Owns:
- what a write, a new directory and a removal change, and what they keep;
- that making directories only adds directories where nothing stood.

Does not own: which directories are made (`Vetting.Proofs.Files.Lineage`).
-/

namespace Vetting.Files.FileTree

variable {tree after : FileTree} {path : String} {place other : Place} {node : Node}

/-! ### Setting and removing -/

theorem node?_set (isBelow : place ≠ []) (node : Node) (other : Place) :
    (tree.set place node).node? other = if place = other then some node else tree.node? other := by
  cases other with
  | nil =>
    rw [if_neg isBelow]
    rfl
  | cons name rest => exact Table.get?_set place (name :: rest) node tree.nodes

theorem node?_remove (isBelow : place ≠ []) (other : Place) :
    FileTree.node? { tree with nodes := tree.nodes.remove place } other =
      if place = other then none else tree.node? other := by
  cases other with
  | nil =>
    rw [if_neg isBelow]
    rfl
  | cons name rest => exact Table.get?_remove place (name :: rest) tree.nodes

/-! ### Works that succeed -/

theorem make_eq_ok_iff :
    tree.make path node = .ok after ↔
      ∃ place, tree.locate .entry path = .ok place ∧ tree.node? place = none ∧
        after = tree.set place node := by
  unfold make
  cases tree.locate .entry path with
  | error fault => simp [bind, Except.bind]
  | ok place =>
    cases isNode : tree.node? place with
    | none => simp [bind, Except.bind, pure, Except.pure, isNode, eq_comm]
    | some other => simp [bind, Except.bind, throw, throwThe, MonadExceptOf.throw, isNode]

theorem write_eq_ok_iff {bytes : ByteArray} :
    tree.write path bytes = .ok after ↔
      ∃ place, tree.locate .target path = .ok place ∧ path.toList.getLast? ≠ some '/' ∧
        tree.node? place ≠ some .directory ∧ after = tree.set place (.file bytes) := by
  unfold write
  cases tree.locate .target path with
  | error fault => simp [bind, Except.bind]
  | ok place =>
    by_cases ends : path.toList.getLast? = some '/'
    · simp [bind, Except.bind, throw, throwThe, MonadExceptOf.throw, ends]
    · cases isNode : tree.node? place with
      | none => simp [bind, Except.bind, pure, Except.pure, isNode, ends, eq_comm]
      | some other =>
        cases other <;> simp [bind, Except.bind, pure, Except.pure, throw, throwThe,
          MonadExceptOf.throw, isNode, ends, eq_comm]

/-! ### Growing by directories -/

/-- A tree has some more directories than another, where nothing stood. -/
structure Grows (tree after : FileTree) : Prop where
  workingDirectory : after.workingDirectory = tree.workingDirectory
  node : ∀ place, after.node? place = tree.node? place ∨
    tree.node? place = none ∧ after.node? place = some .directory

namespace Grows

theorem refl (tree : FileTree) : Grows tree tree := ⟨rfl, fun _ => .inl rfl⟩

theorem trans {middle : FileTree} (first : Grows tree middle) (second : Grows middle after) :
    Grows tree after where
  workingDirectory := second.workingDirectory.trans first.workingDirectory
  node := by
    intro place
    rcases second.node place with same | ⟨absent, made⟩
    · rw [same]
      exact first.node place
    · rcases first.node place with same | ⟨_, madeBefore⟩
      · exact .inr ⟨same ▸ absent, made⟩
      · rw [madeBefore] at absent
        cases absent

theorem keepsWays (grows : Grows tree after) : tree.KeepsWays after where
  directory := by
    intro place inside
    rcases grows.node place with same | ⟨absent, _⟩
    · rw [same, inside]
    · rw [inside] at absent
      cases absent
  link := by
    intro place target
    rcases grows.node place with same | ⟨absent, made⟩
    · rw [same]
    · simp [absent, made]

end Grows

theorem grows_set (absent : tree.node? place = none) : Grows tree (tree.set place .directory) := by
  have isBelow : place ≠ [] := by
    rintro rfl
    cases absent
  refine ⟨rfl, fun other => ?_⟩
  rw [node?_set isBelow]
  split
  · rename_i same
    subst same
    exact .inr ⟨absent, rfl⟩
  · exact .inl rfl

theorem grows_makeDirectory (made : tree.makeDirectory path = .ok after) : Grows tree after := by
  obtain ⟨place, _, absent, rfl⟩ := make_eq_ok_iff.mp made
  exact grows_set absent

section Making

variable {result : Except FileFault Unit} {paths : List String}

theorem grows_makeIfMissing (made : tree.makeIfMissing path = (result, after)) : Grows tree after := by
  unfold makeIfMissing at made
  split at made
  · rename_i madeNow
    cases made
    exact grows_makeDirectory madeNow
  · cases made
    exact .refl tree

theorem grows_makeLineage (made : tree.makeLineage paths = (result, after)) : Grows tree after := by
  induction paths generalizing result after with
  | nil =>
    cases made
    exact .refl tree
  | cons path above inductionHypothesis =>
    rw [makeLineage] at made
    split at made
    · cases made
      exact .refl tree
    · split at made
      · split at made
        · rename_i isMade
          exact (inductionHypothesis isMade).trans (grows_makeIfMissing made)
        · rename_i isFault
          cases made
          exact inductionHypothesis isFault
      · exact grows_makeIfMissing made

theorem grows_makeDirectories (made : tree.makeDirectories path = (result, after)) :
    Grows tree after :=
  grows_makeLineage made

end Making

/-- A walk in a tree ends as in one that has grown from it, unless something is missing on the way. -/
theorem walk_of_grows (grows : Grows tree after) (aim : Aim) (limit : Nat) (here : Place)
    (steps : List Move) :
    tree.walk aim limit here steps = after.walk aim limit here steps ∨
      tree.walk aim limit here steps = .error .notFound := by
  induction limit using Nat.strongRecOn generalizing here steps with
  | ind limit fewerLinks =>
    induction steps generalizing here with
    | nil => exact .inl (by rw [walk_nil, walk_nil])
    | cons move rest inductionHypothesis =>
      rw [walk_cons, walk_cons]
      rcases grows.node here with same | ⟨absent, _⟩
      · rw [same]
        split
        · exact .inr rfl
        · exact .inl rfl
        · exact .inl rfl
        · split
          · exact inductionHypothesis here
          · exact inductionHypothesis here.dropLast
          · rename_i name
            split
            · rcases grows.node (here ++ [name]) with same | ⟨absent, made⟩
              · rw [same]
                split
                · split
                  · exact .inl rfl
                  · split
                    · exact .inl rfl
                    · split
                      · exact .inl rfl
                      · exact fewerLinks _ (Nat.lt_succ_self _) _ _
                · exact inductionHypothesis _
              · rw [absent, made]
                exact inductionHypothesis _
            · exact .inl rfl
      · rw [absent]
        exact .inr rfl

/-! ### Writing -/

/-- What is written keeps the directories, and the links if it is not written to the place of one. -/
theorem keepsWays_set {bytes : ByteArray} (noDirectory : tree.node? place ≠ some .directory)
    (noLink : ∀ target, tree.node? place ≠ some (.link target)) :
    tree.KeepsWays (tree.set place (.file bytes)) := by
  have isBelow : place ≠ [] := by
    rintro rfl
    exact noDirectory rfl
  constructor
  · intro other inside
    rw [node?_set isBelow]
    split
    · rename_i same
      exact absurd (same ▸ inside) noDirectory
    · exact inside
  · intro other target
    rw [node?_set isBelow]
    split
    · rename_i same
      simp [same ▸ noLink target]
    · rfl

end Vetting.Files.FileTree
