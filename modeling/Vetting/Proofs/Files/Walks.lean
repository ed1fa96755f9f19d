import Mathlib.Data.List.Basic
import Vetting.Files.Tree

/-!
Contract: walks through a tree of files, as a relation.

Owns:
- the walks along steps, with the number of links that are followed;
- that they are the walks which find a place, and that they find one place only;
- walks along steps one after the other, and along steps that lead nowhere;
- what a changed tree must keep so that its walks stay;
- where steps lead in a tree without links.

Does not own: the paths that steps come from (`Vetting.Proofs.Files.Paths`).

Unless it is for an entry, a walk treats the last step like every other one.
-/

namespace Vetting.Files

/-- What a walk is for that goes on: no step is the last one. -/
def Aim.onTheWay : Aim → Aim
  | .entry => .target
  | aim => aim

theorem onTheWay_ne_entry {aim : Aim} : aim.onTheWay ≠ .entry := by
  cases aim <;> decide

theorem onTheWay_of_ne_entry {aim : Aim} (through : aim ≠ .entry) : aim.onTheWay = aim := by
  cases aim with
  | entry => exact absurd rfl through
  | target | spelling => rfl

theorem onTheWay_of_ne_spelling {aim : Aim} (notSpelled : aim ≠ .spelling) :
    aim.onTheWay = .target := by
  cases aim with
  | entry | target => rfl
  | spelling => exact absurd rfl notSpelled

theorem isNameable_of_ne_spelling {aim : Aim} (notSpelled : aim ≠ .spelling) (there : Place)
    (name : String) : isNameable aim there name = decide (name.utf8ByteSize ≤ longestName) := by
  simp [isNameable, notSpelled]

theorem isNameable_onTheWay {aim : Aim} {there : Place} {name : String} :
    isNameable aim.onTheWay there name = isNameable aim there name := by
  cases aim <;> rfl

namespace FileTree

/-- Walking along steps from one place to another, with a number of links followed on the way. -/
inductive Walked (tree : FileTree) (aim : Aim) : Nat → Place → List Move → Place → Prop
  | arrive {here : Place} : Walked tree aim 0 here [] here
  | stay {links : Nat} {here there : Place} {rest : List Move}
      (inside : tree.node? here = some .directory) (further : Walked tree aim links here rest there) :
    Walked tree aim links here (.stay :: rest) there
  | up {links : Nat} {here there : Place} {rest : List Move}
      (inside : tree.node? here = some .directory)
      (further : Walked tree aim links here.dropLast rest there) :
    Walked tree aim links here (.up :: rest) there
  | down {links : Nat} {here there : Place} {name : String} {rest : List Move}
      (inside : tree.node? here = some .directory)
      (nameable : isNameable aim (here ++ [name]) name = true)
      (noLink : ∀ target, tree.node? (here ++ [name]) ≠ some (.link target))
      (further : Walked tree aim links (here ++ [name]) rest there) :
    Walked tree aim links here (.down name :: rest) there
  /-- A link at the very end of a walk for an entry. -/
  | leave {here : Place} {name target : String} (inside : tree.node? here = some .directory)
      (nameable : isNameable aim (here ++ [name]) name = true)
      (isLink : tree.node? (here ++ [name]) = some (.link target)) (isEntry : aim = .entry) :
    Walked tree aim 0 here [.down name] (here ++ [name])
  | follow {links : Nat} {here there : Place} {name target : String} {rest : List Move}
      (inside : tree.node? here = some .directory)
      (nameable : isNameable aim (here ++ [name]) name = true)
      (isLink : tree.node? (here ++ [name]) = some (.link target))
      (goesOn : rest ≠ [] ∨ aim ≠ .entry) (leads : target ≠ "")
      (further : Walked tree aim links (origin here target) (moves target ++ rest) there) :
    Walked tree aim (links + 1) here (.down name :: rest) there

/-! ### Walks that find a place -/

section Found

variable {tree : FileTree} {aim : Aim} {links limit : Nat} {here there : Place} {steps : List Move}

theorem walk_nil (limit : Nat) : tree.walk aim limit here [] = .ok here := by
  cases limit <;> rfl

theorem walk_cons (limit : Nat) (move : Move) (rest : List Move) :
    tree.walk aim limit here (move :: rest) =
      match tree.node? here with
      | none => .error .notFound
      | some (.file _) | some (.link _) => .error .notDirectory
      | some .directory =>
        match move with
        | .stay => tree.walk aim limit here rest
        | .up => tree.walk aim limit here.dropLast rest
        | .down name =>
          if isNameable aim (here ++ [name]) name then
            match tree.node? (here ++ [name]) with
            | some (.link target) =>
              if rest.isEmpty && aim == .entry then .ok (here ++ [name])
              else match limit with
                | 0 => .error .tooManyLinks
                | limit + 1 =>
                  if target = "" then .error .notFound
                  else tree.walk aim limit (origin here target) (moves target ++ rest)
            | _ => tree.walk aim limit (here ++ [name]) rest
          else .error .nameTooLong := by
  cases limit <;> rfl

theorem exists_walked (found : tree.walk aim limit here steps = .ok there) :
    ∃ links ≤ limit, Walked tree aim links here steps there := by
  induction limit using Nat.strongRecOn generalizing here steps with
  | ind limit fewerLinks =>
    induction steps generalizing here with
    | nil =>
      rw [walk_nil] at found
      cases found
      exact ⟨0, Nat.zero_le _, .arrive⟩
    | cons move rest inductionHypothesis =>
      rw [walk_cons] at found
      split at found
      · cases found
      · cases found
      · cases found
      rename_i inside
      split at found
      · obtain ⟨links, few, walked⟩ := inductionHypothesis found
        exact ⟨links, few, .stay inside walked⟩
      · obtain ⟨links, few, walked⟩ := inductionHypothesis found
        exact ⟨links, few, .up inside walked⟩
      rename_i name
      split at found
      · rename_i nameable
        split at found
        · rename_i target isLink
          split at found
          · rename_i isLast
            simp only [Bool.and_eq_true, List.isEmpty_iff, beq_iff_eq] at isLast
            obtain ⟨rfl, isEntry⟩ := isLast
            cases found
            exact ⟨0, Nat.zero_le _, .leave inside nameable isLink isEntry⟩
          · rename_i goesOn
            split at found
            · cases found
            · rename_i fewer
              split at found
              · cases found
              · rename_i leads
                obtain ⟨links, few, walked⟩ := fewerLinks fewer (Nat.lt_succ_self _) found
                refine ⟨links + 1, Nat.succ_le_succ few, .follow inside nameable isLink ?_ leads walked⟩
                simpa [Decidable.imp_iff_not_or] using goesOn
        · rename_i noLink
          obtain ⟨links, few, walked⟩ := inductionHypothesis found
          exact ⟨links, few, .down inside nameable (fun target isLink => noLink target isLink) walked⟩
      · cases found

theorem Walked.walk_eq (walked : Walked tree aim links here steps there) (few : links ≤ limit) :
    tree.walk aim limit here steps = .ok there := by
  induction walked generalizing limit with
  | arrive => exact walk_nil limit
  | stay inside _ inductionHypothesis | up inside _ inductionHypothesis =>
    rw [walk_cons, inside]
    exact inductionHypothesis few
  | down inside nameable noLink _ inductionHypothesis =>
    rw [walk_cons, inside]
    simp only [nameable, if_true]
    exact inductionHypothesis few
  | leave inside nameable isLink isEntry =>
    subst isEntry
    rw [walk_cons, inside]
    simp [nameable, isLink]
  | follow inside nameable isLink goesOn leads _ inductionHypothesis =>
    rename_i rest _
    obtain ⟨fewer, rfl⟩ := Nat.exists_eq_succ_of_ne_zero (Nat.ne_zero_of_lt few)
    rw [walk_cons, inside]
    have notLast : ¬ (rest.isEmpty && aim == .entry) = true := by
      simpa [Decidable.imp_iff_not_or] using goesOn
    simp only [nameable, if_true, isLink, notLast, leads, if_false]
    exact inductionHypothesis (Nat.le_of_succ_le_succ few)

/-- A walk finds a place exactly if it gets there with so many links. -/
theorem walk_eq_ok_iff :
    tree.walk aim limit here steps = .ok there ↔ ∃ links ≤ limit, Walked tree aim links here steps there :=
  ⟨exists_walked, fun ⟨_, few, walked⟩ => walked.walk_eq few⟩

/-- Steps lead to one place only. -/
theorem Walked.unique {others : Nat} {elsewhere : Place} (walked : Walked tree aim links here steps there)
    (other : Walked tree aim others here steps elsewhere) : there = elsewhere := by
  have found := walked.walk_eq (Nat.le_max_left links others)
  rw [other.walk_eq (Nat.le_max_right links others)] at found
  exact (Except.ok.inj found).symm

/-- Steps are taken from directories. -/
theorem Walked.inside_of_ne_nil (walked : Walked tree aim links here steps there)
    (nonempty : steps ≠ []) : tree.node? here = some .directory := by
  cases walked with
  | arrive => exact absurd rfl nonempty
  | stay inside | up inside | down inside | leave inside | follow inside => exact inside

end Found

/-! ### Walks one after the other -/

section Parts

variable {tree : FileTree} {aim : Aim} {links : Nat} {here there : Place}

/-- A walk is one along no steps, and then itself. -/
theorem Walked.after_none {steps : List Move} (walked : Walked tree aim links here steps there) :
    ∃ before after middle, links = before + after ∧
      Walked tree aim.onTheWay before here [] middle ∧ Walked tree aim after middle steps there :=
  ⟨0, links, here, (Nat.zero_add links).symm, .arrive, walked⟩

/-- A walk along two lists of steps is a walk along each of them. -/
theorem Walked.split {first second : List Move}
    (walked : Walked tree aim links here (first ++ second) there)
    (goesOn : second ≠ [] ∨ aim ≠ .entry) :
    ∃ before after middle, links = before + after ∧
      Walked tree aim.onTheWay before here first middle ∧ Walked tree aim after middle second there := by
  generalize isWhole : first ++ second = whole at walked
  induction walked generalizing first with
  | arrive =>
    obtain ⟨rfl, rfl⟩ := List.append_eq_nil_iff.mp isWhole
    exact Walked.arrive.after_none
  | stay inside further inductionHypothesis =>
    cases first with
    | nil =>
      obtain rfl : second = _ := isWhole
      exact (Walked.stay inside further).after_none
    | cons move first =>
      obtain ⟨rfl, isRest⟩ := List.cons.inj isWhole
      obtain ⟨before, after, middle, isSum, one, two⟩ := inductionHypothesis isRest
      exact ⟨before, after, middle, isSum, .stay inside one, two⟩
  | up inside further inductionHypothesis =>
    cases first with
    | nil =>
      obtain rfl : second = _ := isWhole
      exact (Walked.up inside further).after_none
    | cons move first =>
      obtain ⟨rfl, isRest⟩ := List.cons.inj isWhole
      obtain ⟨before, after, middle, isSum, one, two⟩ := inductionHypothesis isRest
      exact ⟨before, after, middle, isSum, .up inside one, two⟩
  | down inside nameable noLink further inductionHypothesis =>
    cases first with
    | nil =>
      obtain rfl : second = _ := isWhole
      exact (Walked.down inside nameable noLink further).after_none
    | cons move first =>
      obtain ⟨rfl, isRest⟩ := List.cons.inj isWhole
      obtain ⟨before, after, middle, isSum, one, two⟩ := inductionHypothesis isRest
      have nameable := isNameable_onTheWay.trans nameable
      exact ⟨before, after, middle, isSum, .down inside nameable noLink one, two⟩
  | leave inside nameable isLink isEntry =>
    cases first with
    | nil =>
      obtain rfl : second = _ := isWhole
      exact (Walked.leave inside nameable isLink isEntry).after_none
    | cons move first =>
      obtain ⟨rfl, isRest⟩ := List.cons.inj isWhole
      obtain ⟨rfl, rfl⟩ := List.append_eq_nil_iff.mp isRest
      exact absurd isEntry (goesOn.resolve_left fun other => other rfl)
  | follow inside nameable isLink mayFollow leads further inductionHypothesis =>
    cases first with
    | nil =>
      obtain rfl : second = _ := isWhole
      exact (Walked.follow inside nameable isLink mayFollow leads further).after_none
    | cons move first =>
      obtain ⟨rfl, isRest⟩ := List.cons.inj isWhole
      obtain ⟨before, after, middle, isSum, one, two⟩ :=
        inductionHypothesis ((List.append_assoc _ _ _).trans (congrArg _ isRest))
      have nameable := isNameable_onTheWay.trans nameable
      exact ⟨before + 1, after, middle, by omega,
        .follow inside nameable isLink (.inr onTheWay_ne_entry) leads one, two⟩

/-- Walks along two lists of steps are one walk. -/
theorem Walked.append {first second : List Move} {before after : Nat} {middle : Place}
    (one : Walked tree aim.onTheWay before here first middle)
    (two : Walked tree aim after middle second there) (goesOn : second ≠ [] ∨ aim ≠ .entry) :
    Walked tree aim (before + after) here (first ++ second) there := by
  generalize isAim : aim.onTheWay = through at one
  induction one with
  | arrive => exact (Nat.zero_add after).symm ▸ two
  | stay inside _ inductionHypothesis => exact .stay inside (inductionHypothesis two)
  | up inside _ inductionHypothesis => exact .up inside (inductionHypothesis two)
  | down inside nameable noLink _ inductionHypothesis =>
    subst isAim
    exact .down inside (isNameable_onTheWay.symm.trans nameable) noLink (inductionHypothesis two)
  | leave inside nameable isLink isEntry =>
    subst isAim
    exact absurd isEntry onTheWay_ne_entry
  | follow inside nameable isLink mayFollow leads _ inductionHypothesis =>
    subst isAim
    have isSum : ∀ links, links + 1 + after = links + after + 1 := fun links => by omega
    have further := inductionHypothesis two
    rw [List.append_assoc] at further
    rw [isSum]
    refine .follow inside (isNameable_onTheWay.symm.trans nameable) isLink ?_ leads further
    exact goesOn.imp_left fun nonempty => List.append_ne_nil_of_right_ne_nil _ nonempty

/-- A walk whose place is written out is a walk to the same place. -/
theorem Walked.target {steps : List Move} (walked : Walked tree .spelling links here steps there) :
    Walked tree .target links here steps there := by
  have short : ∀ {there name}, isNameable .spelling there name = true →
      isNameable .target there name = true := by
    intro there name nameable
    simp only [isNameable, Bool.and_eq_true] at nameable
    simp [isNameable, nameable.1]
  generalize isAim : Aim.spelling = aim at walked
  induction walked with
  | arrive => exact .arrive
  | stay inside _ inductionHypothesis => exact .stay inside inductionHypothesis
  | up inside _ inductionHypothesis => exact .up inside inductionHypothesis
  | down inside nameable noLink _ inductionHypothesis =>
    subst isAim
    exact .down inside (short nameable) noLink inductionHypothesis
  | leave _ _ _ isEntry =>
    subst isAim
    cases isEntry
  | follow inside nameable isLink _ leads _ inductionHypothesis =>
    subst isAim
    exact .follow inside (short nameable) isLink (.inr (by decide)) leads inductionHypothesis

/-- After a walk the next steps are walked, with the links that are left. -/
theorem Walked.walk_append {first : List Move} {middle : Place} {limit : Nat}
    (one : Walked tree aim.onTheWay links here first middle) (few : links ≤ limit)
    (second : List Move) (goesOn : second ≠ [] ∨ aim ≠ .entry) :
    tree.walk aim limit here (first ++ second) = tree.walk aim (limit - links) middle second := by
  generalize isAim : aim.onTheWay = through at one
  induction one generalizing limit with
  | arrive => rfl
  | stay inside _ inductionHypothesis | up inside _ inductionHypothesis =>
    rw [List.cons_append, walk_cons, inside]
    exact inductionHypothesis few
  | down inside nameable noLink _ inductionHypothesis =>
    subst isAim
    rw [isNameable_onTheWay] at nameable
    rw [List.cons_append, walk_cons, inside]
    simp only [nameable, if_true]
    exact inductionHypothesis few
  | leave _ _ _ isEntry =>
    subst isAim
    exact absurd isEntry onTheWay_ne_entry
  | follow inside nameable isLink mayFollow leads _ inductionHypothesis =>
    rename_i rest _
    subst isAim
    rw [isNameable_onTheWay] at nameable
    obtain ⟨fewer, rfl⟩ := Nat.exists_eq_succ_of_ne_zero (Nat.ne_zero_of_lt few)
    have notLast : ¬ ((rest ++ second).isEmpty && aim == .entry) = true := by
      rcases goesOn with nonempty | through
      · simp [nonempty]
      · simp [through]
    rw [List.cons_append, walk_cons, inside]
    simp only [nameable, if_true, isLink, notLast, leads, if_false]
    rw [← List.append_assoc, inductionHypothesis (Nat.le_of_succ_le_succ few)]
    simp

/-- Steps that cannot be taken cannot be taken before others. -/
theorem walk_append_error {first : List Move} {limit : Nat} {fault : FileFault}
    (refused : tree.walk aim.onTheWay limit here first = .error fault) (second : List Move)
    (goesOn : second ≠ [] ∨ aim ≠ .entry) :
    tree.walk aim limit here (first ++ second) = .error fault := by
  induction limit using Nat.strongRecOn generalizing here first with
  | ind limit fewerLinks =>
    induction first generalizing here with
    | nil =>
      rw [walk_nil] at refused
      cases refused
    | cons move rest inductionHypothesis =>
      have notLast : ¬ ((rest ++ second).isEmpty && aim == .entry) = true := by
        rcases goesOn with nonempty | through
        · simp [nonempty]
        · simp [through]
      rw [walk_cons] at refused
      rw [List.cons_append, walk_cons]
      split at refused
      · exact refused
      · exact refused
      · exact refused
      · split at refused
        · exact inductionHypothesis refused
        · exact inductionHypothesis refused
        · rename_i name
          rw [isNameable_onTheWay] at refused
          split at refused
          · rename_i nameable
            simp only [nameable, if_true]
            have notEntry : (aim.onTheWay == .entry) = false := by simpa using onTheWay_ne_entry
            simp only [notEntry, Bool.and_false, Bool.false_eq_true, if_false] at refused
            split at refused
            · rename_i target isLink
              simp only [notLast]
              split at refused
              · exact refused
              · rename_i fewer
                split at refused
                · rename_i nowhere
                  rw [if_pos nowhere]
                  exact refused
                · rename_i leads
                  rw [if_neg leads, ← List.append_assoc]
                  exact fewerLinks fewer (Nat.lt_succ_self _) refused
            · exact inductionHypothesis refused
          · rename_i unnameable
            rw [if_neg unnameable]
            exact refused

end Parts

/-! ### Steps that lead nowhere -/

/-- The same steps, apart from some that lead nowhere. -/
inductive Thinned : List Move → List Move → Prop
  | empty : Thinned [] []
  | keep {move : Move} {steps kept : List Move} (rest : Thinned steps kept) :
    Thinned (move :: steps) (move :: kept)
  | drop {steps kept : List Move} (rest : Thinned steps kept) : Thinned (.stay :: steps) kept

theorem Thinned.append_left (first : List Move) {steps kept : List Move} (thinned : Thinned steps kept) :
    Thinned (first ++ steps) (first ++ kept) := by
  induction first with
  | nil => exact thinned
  | cons move rest inductionHypothesis => exact .keep inductionHypothesis

/-- The steps that lead somewhere. -/
def leading (steps : List Move) : List Move := steps.filter (· != .stay)

theorem thinned_leading (steps : List Move) : Thinned steps (leading steps) := by
  induction steps with
  | nil => exact .empty
  | cons move rest inductionHypothesis =>
    by_cases leadsNowhere : move = .stay
    · subst leadsNowhere
      exact .drop inductionHypothesis
    · rw [leading, List.filter_cons_of_pos (by simpa using leadsNowhere)]
      exact .keep inductionHypothesis

section Thinned

variable {tree : FileTree} {aim : Aim} {links : Nat} {here there : Place} {steps kept : List Move}

/-- Without steps that lead nowhere a walk still gets there. -/
theorem Walked.thinned (walked : Walked tree aim links here steps there) (through : aim ≠ .entry)
    (isThinned : Thinned steps kept) : Walked tree aim links here kept there := by
  induction walked generalizing kept with
  | arrive =>
    cases isThinned
    exact .arrive
  | stay inside _ inductionHypothesis =>
    cases isThinned with
    | keep rest => exact .stay inside (inductionHypothesis rest)
    | drop rest => exact inductionHypothesis rest
  | up inside _ inductionHypothesis =>
    cases isThinned with
    | keep rest => exact .up inside (inductionHypothesis rest)
  | down inside nameable noLink _ inductionHypothesis =>
    cases isThinned with
    | keep rest => exact .down inside nameable noLink (inductionHypothesis rest)
  | leave _ _ _ isEntry => exact absurd isEntry through
  | follow inside nameable isLink _ leads _ inductionHypothesis =>
    cases isThinned with
    | keep rest =>
      exact .follow inside nameable isLink (.inr through) leads
        (inductionHypothesis (rest.append_left _))

/-- Where a directory is, steps that lead nowhere can be taken first. -/
theorem walked_of_thinned_cons {move : Move} {rest : List Move}
    (inside : tree.node? here = some .directory) (isThinned : Thinned steps (move :: rest))
    (further : ∀ others, Thinned others rest → Walked tree aim links here (move :: others) there) :
    Walked tree aim links here steps there := by
  generalize isKept : move :: rest = kept at isThinned
  induction isThinned with
  | empty => cases isKept
  | keep isRest =>
    cases isKept
    exact further _ isRest
  | drop _ inductionHypothesis => exact .stay inside (inductionHypothesis isKept)

/-- A walk that ends in a directory gets there with more steps that lead nowhere. -/
theorem Walked.thickened (walked : Walked tree aim links here kept there) (through : aim ≠ .entry)
    (inside : tree.node? there = some .directory) (isThinned : Thinned steps kept) :
    Walked tree aim links here steps there := by
  induction walked generalizing steps with
  | arrive =>
    generalize isKept : ([] : List Move) = kept at isThinned
    induction isThinned with
    | empty => exact .arrive
    | keep => cases isKept
    | drop _ inductionHypothesis => exact .stay inside (inductionHypothesis isKept)
  | stay insideHere _ inductionHypothesis =>
    exact walked_of_thinned_cons insideHere isThinned fun others rest =>
      .stay insideHere (inductionHypothesis inside rest)
  | up insideHere _ inductionHypothesis =>
    exact walked_of_thinned_cons insideHere isThinned fun others rest =>
      .up insideHere (inductionHypothesis inside rest)
  | down insideHere nameable noLink _ inductionHypothesis =>
    exact walked_of_thinned_cons insideHere isThinned fun others rest =>
      .down insideHere nameable noLink (inductionHypothesis inside rest)
  | leave _ _ _ isEntry => exact absurd isEntry through
  | follow insideHere nameable isLink _ leads _ inductionHypothesis =>
    exact walked_of_thinned_cons insideHere isThinned fun others rest =>
      .follow insideHere nameable isLink (.inr through) leads
        (inductionHypothesis inside (rest.append_left _))

end Thinned

/-! ### Walks in a changed tree -/

/-- A tree keeps the directories of another, and has the same links. -/
structure KeepsWays (tree after : FileTree) : Prop where
  directory : ∀ place, tree.node? place = some .directory → after.node? place = some .directory
  link : ∀ place target, after.node? place = some (.link target) ↔
    tree.node? place = some (.link target)

theorem Walked.kept {tree after : FileTree} {aim : Aim} {links : Nat} {here there : Place}
    {steps : List Move} (walked : Walked tree aim links here steps there)
    (keeps : tree.KeepsWays after) : Walked after aim links here steps there := by
  induction walked with
  | arrive => exact .arrive
  | stay inside _ inductionHypothesis => exact .stay (keeps.directory _ inside) inductionHypothesis
  | up inside _ inductionHypothesis => exact .up (keeps.directory _ inside) inductionHypothesis
  | down inside nameable noLink _ inductionHypothesis =>
    exact .down (keeps.directory _ inside) nameable
      (fun target isLink => noLink target ((keeps.link _ target).mp isLink)) inductionHypothesis
  | leave inside nameable isLink isEntry =>
    exact .leave (keeps.directory _ inside) nameable ((keeps.link _ _).mpr isLink) isEntry
  | follow inside nameable isLink goesOn leads _ inductionHypothesis =>
    exact .follow (keeps.directory _ inside) nameable ((keeps.link _ _).mpr isLink) goesOn leads
      inductionHypothesis

/-! ### Trees without links -/

def LinkFree (tree : FileTree) : Prop := ∀ place target, tree.node? place ≠ some (.link target)

theorem KeepsWays.linkFree {tree after : FileTree} (keeps : tree.KeepsWays after)
    (free : tree.LinkFree) : after.LinkFree :=
  fun place target isLink => free place target ((keeps.link place target).mp isLink)

/-- The names by which steps go down. -/
def namesDown (steps : List Move) : List String :=
  steps.filterMap fun
    | .down name => some name
    | _ => none

/-- Steps that never lead up go down by their names, if there are no links. -/
theorem Walked.place_eq {tree : FileTree} {aim : Aim} {links : Nat} {here there : Place}
    {steps : List Move} (walked : Walked tree aim links here steps there) (free : tree.LinkFree)
    (notUp : .up ∉ steps) : there = here ++ namesDown steps := by
  induction walked with
  | arrive => simp [namesDown]
  | stay _ _ inductionHypothesis =>
    exact inductionHypothesis (List.not_mem_of_not_mem_cons notUp)
  | up => exact absurd List.mem_cons_self notUp
  | down _ _ _ _ inductionHypothesis =>
    rw [inductionHypothesis (List.not_mem_of_not_mem_cons notUp), List.append_assoc]
    rfl
  | leave _ _ isLink | follow _ _ isLink => exact absurd isLink (free _ _)

end FileTree

end Vetting.Files
