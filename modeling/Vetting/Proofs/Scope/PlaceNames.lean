import Mathlib.Data.List.Lex
import Vetting.Proofs.Scope.Places
import Vetting.Proofs.Scope.SignalSpace

/-!
Contract: which places of a document give names, and which value a name gets.

Owns:
- the flattened name of a place, and which places have one;
- keys that a document uses once for a value that is no object;
- that flattening, and the search for such keys, find exactly these places.

Does not own: which source of names wins over which (`Vetting.Proofs.Scope.Sources`).

Places may share a name, since keys may hold dots.  The last place in the order of the document then
gives the value.
-/

namespace Vetting.Scope

open Json (Value)
open Document (Step)

/-! ### Named places -/

/-- A step as it is written in a name. -/
def stepText : Step → String
  | .key name => name
  | .index position => toString position

/-- The flattened name of a place, after the name of the document. -/
def nameOf (root : String) (place : List Step) : String :=
  place.foldl (fun name step => name ++ "." ++ stepText step) root

/-- A part with a name of its own: an array, or a scalar that is no item of an array. -/
structure Exposed (document : Value) (place : List Step) (value : Value) : Prop where
  found : valueAt? place document = some value
  noObject : ∀ entries, value ≠ .object entries
  noItem : isContainer value = false → ∀ position, place.getLast? ≠ some (.index position)

/-- The value that a flattened document gives a name: that of the last place of this name. -/
def FlattenedAs (root : String) (document : Value) (name : String) (value : Value) : Prop :=
  ∃ place, Exposed document place value ∧ nameOf root place = name ∧
    ∀ other held, Exposed document other held → nameOf root other = name →
      other = place ∨ Before other place

/-- Below a place a key has a value that is no object. -/
structure HasLeaf (document : Value) (key : String) (place : List Step) (value : Value) : Prop where
  found : valueAt? (place ++ [.key key]) document = some value
  noObject : ∀ entries, value ≠ .object entries

/-- In one place only, wherever it is in the document, a key has a value that is no object. -/
def HeldOnce (document : Value) (key : String) (value : Value) : Prop :=
  ∃ place, HasLeaf document key place value ∧
    ∀ other held, HasLeaf document key other held → other = place

/-! ### Selecting from the walk -/

/-- Whether a part that the walk meets has a name of its own. -/
def isExposed (part : List Step × Value) : Bool :=
  match part.2, part.1.getLast? with
  | .object _, _ => false
  | .array _, _ => true
  | _, some (.index _) => false
  | _, _ => true

/-- A key and its value, if the walk meets a value of a key that is no object. -/
def leafOf? (part : List Step × Value) : Option (String × Value) :=
  match part.2, part.1.getLast? with
  | .object _, _ => none
  | value, some (.key key) => some (key, value)
  | _, _ => none

theorem isExposed_iff {place : List Step} {value : Value} :
    isExposed (place, value) = true ↔ (∀ entries, value ≠ .object entries) ∧
      (isContainer value = false → ∀ position, place.getLast? ≠ some (.index position)) := by
  unfold isExposed
  rcases isLast : place.getLast? with _ | _ | _ <;> cases value <;> simp [isContainer]

theorem exposed_iff {document : Value} (proper : document.Proper) {place : List Step}
    {value : Value} :
    Exposed document place value ↔ (place, value) ∈ (walk document).filter isExposed := by
  rw [List.mem_filter, mem_walk_iff proper, isExposed_iff]
  exact ⟨fun exposed => ⟨exposed.found, exposed.noObject, exposed.noItem⟩,
    fun ⟨found, noObject, noItem⟩ => ⟨found, noObject, noItem⟩⟩

theorem leafOf?_eq_some_iff {part : List Step × Value} {key : String} {value : Value} :
    leafOf? part = some (key, value) ↔
      part.1.getLast? = some (.key key) ∧ part.2 = value ∧ ∀ entries, value ≠ .object entries := by
  obtain ⟨place, held⟩ := part
  unfold leafOf?
  constructor
  · rcases isLast : place.getLast? with _ | _ | _ <;> cases held <;> simp <;> rintro rfl rfl <;> simp
  · rintro ⟨isLast, rfl, noObject⟩
    simp only at isLast noObject ⊢
    rw [isLast]
    cases held with
    | object entries => exact absurd rfl (noObject entries)
    | null | boolean | number | text | array => rfl

theorem hasLeaf_iff {document : Value} (proper : document.Proper) {key : String}
    {place : List Step} {value : Value} :
    HasLeaf document key place value ↔
      (place ++ [.key key], value) ∈ walk document ∧
        leafOf? (place ++ [.key key], value) = some (key, value) := by
  rw [mem_walk_iff proper, leafOf?_eq_some_iff]
  exact ⟨fun leaf => ⟨leaf.found, List.getLast?_concat, rfl, leaf.noObject⟩,
    fun ⟨found, _, _, noObject⟩ => ⟨found, noObject⟩⟩

/-! ### What is selected from one step above -/

/-- The walk meets the value itself, and then only parts of it. -/
theorem walk_eq_cons (document : Value) :
    ∃ inner, walk document = ([], document) :: inner ∧ ∀ part ∈ inner, part.1 ≠ [] := by
  refine ⟨_, walk_eq document, fun part member => ?_⟩
  obtain ⟨_, _, member⟩ := List.mem_flatMap.mp member
  obtain ⟨_, _, rfl⟩ := List.mem_map.mp member
  exact List.cons_ne_nil _ _

theorem isExposed_under {step : Step} {part : List Step × Value} (inside : part.1 ≠ []) :
    isExposed (under step part) = isExposed part := by
  simp only [isExposed, under, List.getLast?_cons_of_ne_nil inside]

theorem leafOf?_under {step : Step} {part : List Step × Value} (inside : part.1 ≠ []) :
    leafOf? (under step part) = leafOf? part := by
  simp only [leafOf?, under, List.getLast?_cons_of_ne_nil inside]

/-- A part that is passed over: a scalar item of an array. -/
def isPlainItem : Step × Value → Bool
  | (.index _, value) => !isContainer value
  | (.key _, _) => false

/-- The names in a part are those from one step above, unless the part is passed over. -/
theorem filter_isExposed_under (part : Step × Value) :
    ((walk part.2).map (under part.1)).filter isExposed =
      if isPlainItem part then [] else ((walk part.2).filter isExposed).map (under part.1) := by
  obtain ⟨step, value⟩ := part
  obtain ⟨inner, isWalk, inside⟩ := walk_eq_cons value
  have inherit : (inner.map (under step)).filter isExposed =
      (inner.filter isExposed).map (under step) := by
    rw [List.filter_map]
    refine congrArg _ (List.filter_congr fun part member => ?_)
    exact isExposed_under (inside part member)
  by_cases isPlain : isPlainItem (step, value) = true
  · rw [if_pos isPlain]
    cases step with
    | key name => cases isPlain
    | index position =>
      cases value with
      | object | array => cases isPlain
      | null | boolean | number | text => rfl
  · have sameRoot : isExposed (under step ([], value)) = isExposed ([], value) := by
      cases step with
      | key name => cases value <;> rfl
      | index position =>
        cases value with
        | object | array => rfl
        | null | boolean | number | text => exact absurd rfl isPlain
    rw [if_neg isPlain]
    simp only [isWalk, List.map_cons, List.filter_cons, sameRoot, inherit]
    cases isExposed ([], value) <;> rfl

/-- The occurrence of a key that a part itself is, and then those inside it. -/
theorem filterMap_leafOf?_under (part : Step × Value) :
    ((walk part.2).map (under part.1)).filterMap leafOf? =
      (leafOf? ([part.1], part.2)).toList ++ (walk part.2).filterMap leafOf? := by
  obtain ⟨step, value⟩ := part
  obtain ⟨inner, isWalk, inside⟩ := walk_eq_cons value
  have inherit : (inner.map (under step)).filterMap leafOf? = inner.filterMap leafOf? := by
    rw [List.filterMap_map]
    refine List.filterMap_congr fun part member => ?_
    exact leafOf?_under (inside part member)
  have noRoot : leafOf? ([], value) = none := by cases value <;> rfl
  simp only [isWalk, List.map_cons, List.filterMap_cons, noRoot, inherit, under]
  cases leafOf? ([step], value) <;> rfl

/-! ### Flattening -/

theorem flattenedEntries_eq (name : String) (entries : List (String × Value)) :
    flattenedEntries name entries =
      entries.flatMap fun entry => flattened (name ++ "." ++ entry.1) entry.2 := by
  induction entries with
  | nil => rfl
  | cons entry rest inductionHypothesis =>
    rw [flattenedEntries, inductionHypothesis, List.flatMap_cons]

theorem flattenedItems_eq (name : String) (position : Nat) (items : List Value) :
    flattenedItems name position items = (items.zipIdx position).flatMap fun item =>
      if isContainer item.1 then flattened (name ++ "." ++ toString item.2) item.1 else [] := by
  induction items generalizing position with
  | nil => rfl
  | cons item rest inductionHypothesis =>
    rw [flattenedItems, inductionHypothesis, List.zipIdx_cons, List.flatMap_cons]

/-- A value is named itself, unless it is an object, and then its parts are. -/
theorem flattened_eq_parts (name : String) (document : Value) :
    flattened name document =
      (if isExposed ([], document) then [(name, document)] else []) ++
        (parts document).flatMap fun part =>
          if isPlainItem part then [] else flattened (name ++ "." ++ stepText part.1) part.2 := by
  cases document with
  | object entries => rw [flattened, flattenedEntries_eq, parts, List.flatMap_map]; rfl
  | array items =>
    rw [flattened, flattenedItems_eq, parts, List.flatMap_map]
    refine congrArg _ (List.flatMap_congr fun item _ => ?_)
    cases container : isContainer item.1 <;> simp [isPlainItem, container, stepText]
  | null | boolean | number | text => rfl

/-- Flattening names the exposed places, in the order of the document. -/
theorem flattened_eq (name : String) (document : Value) :
    flattened name document =
      ((walk document).filter isExposed).map fun part => (nameOf name part.1, part.2) := by
  induction document using parts_induction generalizing name with
  | build document inductionHypothesis =>
    have below : ∀ part ∈ parts document,
        (if isPlainItem part then [] else flattened (name ++ "." ++ stepText part.1) part.2) =
          (((walk part.2).map (under part.1)).filter isExposed).map
            fun part => (nameOf name part.1, part.2) := by
      intro part member
      rw [filter_isExposed_under]
      by_cases isPlain : isPlainItem part = true
      · simp only [isPlain, if_true, List.map_nil]
      · rw [if_neg isPlain, if_neg isPlain, inductionHypothesis part member, List.map_map]
        rfl
    rw [flattened_eq_parts, walk_eq, List.flatMap_congr below, List.filter_cons,
      List.filter_flatMap]
    cases isExposed ([], document) <;> simp [List.map_flatMap, nameOf]

/-! ### Keys that are used once -/

theorem leavesOfEntries_eq (entries : List (String × Value)) :
    leavesOfEntries entries = entries.flatMap fun entry =>
      (leafOf? ([.key entry.1], entry.2)).toList ++ leaves entry.2 := by
  induction entries with
  | nil => rfl
  | cons entry rest inductionHypothesis =>
    obtain ⟨key, value⟩ := entry
    rw [List.flatMap_cons, ← inductionHypothesis]
    cases value <;> simp [leavesOfEntries, leafOf?]

theorem leavesOfItems_eq (items : List Value) :
    leavesOfItems items = items.flatMap leaves := by
  induction items with
  | nil => rfl
  | cons item rest inductionHypothesis =>
    rw [leavesOfItems, inductionHypothesis, List.flatMap_cons]

theorem leaves_eq_parts (document : Value) :
    leaves document = (parts document).flatMap fun part =>
      (leafOf? ([part.1], part.2)).toList ++ leaves part.2 := by
  cases document with
  | object entries => rw [leaves, leavesOfEntries_eq, parts, List.flatMap_map]
  | array items =>
    have noKey : ∀ item : Value × Nat, leafOf? ([.index item.2], item.1) = none := by
      rintro ⟨value, position⟩
      cases value <;> rfl
    rw [leaves, leavesOfItems_eq, parts, List.flatMap_map]
    calc items.flatMap leaves
        = (items.zipIdx.map Prod.fst).flatMap leaves := by rw [List.zipIdx_map_fst]
      _ = items.zipIdx.flatMap fun item =>
            (leafOf? ([.index item.2], item.1)).toList ++ leaves item.1 := by
          rw [List.flatMap_map]
          exact List.flatMap_congr fun item _ => by rw [noKey]; rfl
  | null | boolean | number | text => rfl

/-- The occurrences of keys are those that the walk meets. -/
theorem leaves_eq (document : Value) : leaves document = (walk document).filterMap leafOf? := by
  induction document using parts_induction with
  | build document inductionHypothesis =>
    have below : ∀ part ∈ parts document,
        (leafOf? ([part.1], part.2)).toList ++ leaves part.2 =
          ((walk part.2).map (under part.1)).filterMap leafOf? := by
      intro part member
      rw [filterMap_leafOf?_under, inductionHypothesis part member]
    have noRoot : leafOf? ([], document) = none := by cases document <;> rfl
    rw [leaves_eq_parts, walk_eq, List.flatMap_congr below, List.filterMap_cons, noRoot,
      List.filterMap_flatMap]

/-! ### Which value a name gets -/

/-- Of places with the same name the last one counts. -/
theorem lookup?_reverse_iff {naming : List Step → String} {listed : List (List Step × Value)}
    (ordered : listed.Pairwise fun first second => Before first.1 second.1) {name : String}
    {value : Value} :
    Dictionary.lookup? name (listed.map fun part => (naming part.1, part.2)).reverse = some value ↔
      ∃ place, (place, value) ∈ listed ∧ naming place = name ∧
        ∀ other held, (other, held) ∈ listed → naming other = name →
          other = place ∨ Before other place := by
  induction listed generalizing value with
  | nil => simp
  | cons part rest inductionHypothesis =>
    obtain ⟨first, orderedRest⟩ := List.pairwise_cons.mp ordered
    rw [List.map_cons, List.reverse_cons, Dictionary.lookup?_append]
    cases found : Dictionary.lookup? name
        (rest.map fun part => (naming part.1, part.2)).reverse with
    | some later =>
      obtain ⟨place, inside, named, isLast⟩ := (inductionHypothesis orderedRest).mp found
      rw [Option.some_or, Option.some.injEq]
      constructor
      · rintro rfl
        refine ⟨place, List.mem_cons_of_mem _ inside, named, fun other held member same => ?_⟩
        rcases List.mem_cons.mp member with rfl | member
        · exact .inr (first _ inside)
        · exact isLast other held member same
      · rintro ⟨other, member, namedOther, isLastOther⟩
        rcases List.mem_cons.mp member with rfl | member
        · -- the first place cannot be the last one of this name
          have before : Before other place := first _ inside
          rcases isLastOther place later (List.mem_cons_of_mem _ inside) named with same | after
          · exact absurd same.symm before.ne
          · exact absurd after before.asymm
        · have also := (inductionHypothesis orderedRest).mpr ⟨other, member, namedOther,
            fun third held inside => isLastOther third held (List.mem_cons_of_mem _ inside)⟩
          exact Option.some.inj (found.symm.trans also)
    | none =>
      have elsewhere : ∀ other held, (other, held) ∈ rest → naming other ≠ name := by
        intro other held member same
        refine Dictionary.lookup?_eq_none_iff.mp found ?_
        refine List.mem_map.mpr ⟨(naming other, held), ?_, same⟩
        exact List.mem_reverse.mpr (List.mem_map.mpr ⟨_, member, rfl⟩)
      rw [Option.none_or]
      constructor
      · intro single
        obtain ⟨same, rfl⟩ := Prod.mk.inj (List.mem_singleton.mp (Dictionary.mem_of_lookup? single))
        refine ⟨part.1, List.mem_cons_self, same.symm, fun other held member named => ?_⟩
        rcases List.mem_cons.mp member with rfl | member
        · exact .inl rfl
        · exact absurd named (elsewhere other held member)
      · rintro ⟨place, member, named, -⟩
        rcases List.mem_cons.mp member with rfl | member
        · simp [Dictionary.lookup?, named]
        · exact absurd named (elsewhere place value member)

/-- A flattened document gives a name the value of the last exposed place of this name. -/
theorem lookup?_flattened_iff {document : Value} (proper : document.Proper) {root name : String}
    {value : Value} :
    Dictionary.lookup? name (flattened root document).reverse = some value ↔
      FlattenedAs root document name value := by
  have ordered : ((walk document).filter isExposed).Pairwise
      fun first second => Before first.1 second.1 := (walk_pairwise proper).filter _
  rw [flattened_eq, lookup?_reverse_iff ordered]
  simp only [FlattenedAs, exposed_iff proper]

/-- Whether a part that the walk meets is an occurrence of a key. -/
def isLeafOf (key : String) (part : List Step × Value) : Bool :=
  (leafOf? part).any fun leaf => leaf.1 == key

theorem isLeafOf_iff {key : String} {part : List Step × Value} :
    isLeafOf key part = true ↔ leafOf? part = some (key, part.2) := by
  unfold isLeafOf
  constructor
  · intro isLeaf
    obtain ⟨⟨other, value⟩, found, same⟩ := (Option.any_eq_true _ _).mp isLeaf
    obtain rfl := beq_iff_eq.mp same
    obtain ⟨_, rfl, _⟩ := leafOf?_eq_some_iff.mp found
    exact found
  · intro found
    rw [found]
    exact beq_self_eq_true key

/-- The occurrences of a key are the parts that are occurrences of it. -/
theorem filter_leaves (key : String) (walked : List (List Step × Value)) :
    (walked.filterMap leafOf?).filter (fun leaf => leaf.1 == key) =
      (walked.filter (isLeafOf key)).map fun part => (key, part.2) := by
  induction walked with
  | nil => rfl
  | cons part rest inductionHypothesis =>
    cases found : leafOf? part with
    | none =>
      have isNone : isLeafOf key part = false := by rw [isLeafOf, found]; rfl
      rw [List.filterMap_cons_none found, List.filter_cons_of_neg (by simp [isNone]),
        inductionHypothesis]
    | some leaf =>
      obtain ⟨other, value⟩ := leaf
      obtain ⟨_, rfl, _⟩ := leafOf?_eq_some_iff.mp found
      rw [List.filterMap_cons_some found]
      by_cases same : other = key
      · subst same
        have isLeaf := isLeafOf_iff.mpr found
        rw [List.filter_cons_of_pos (by simp), List.filter_cons_of_pos isLeaf, List.map_cons,
          inductionHypothesis]
      · have isOther : isLeafOf key part = false := by
          rw [isLeafOf, found]
          exact beq_eq_false_iff_ne.mpr same
        rw [List.filter_cons_of_neg (by simpa using same),
          List.filter_cons_of_neg (by simp [isOther]), inductionHypothesis]

theorem mem_filter_isLeafOf_iff {document : Value} (proper : document.Proper) {key : String}
    {part : List Step × Value} :
    part ∈ (walk document).filter (isLeafOf key) ↔
      ∃ place, part.1 = place ++ [.key key] ∧ HasLeaf document key place part.2 := by
  obtain ⟨whole, value⟩ := part
  rw [List.mem_filter, isLeafOf_iff]
  constructor
  · rintro ⟨member, isLeaf⟩
    obtain ⟨place, rfl⟩ := List.getLast?_eq_some_iff.mp (leafOf?_eq_some_iff.mp isLeaf).1
    exact ⟨place, rfl, (hasLeaf_iff proper).mpr ⟨member, isLeaf⟩⟩
  · rintro ⟨place, rfl, leaf⟩
    exact (hasLeaf_iff proper).mp leaf

/-- A key is unambiguous exactly if it is held once. -/
theorem mem_unambiguous_iff {document : Value} (proper : document.Proper) {key : String}
    {value : Value} :
    (key, value) ∈ unambiguous (leaves document) ↔ HeldOnce document key value := by
  rw [unambiguous, List.mem_filter, beq_iff_eq, leaves_eq, filter_leaves, List.length_map]
  constructor
  · rintro ⟨member, once⟩
    obtain ⟨only, single⟩ := List.length_eq_one_iff.mp once
    have isOnly : ∀ part ∈ (walk document).filter (isLeafOf key), part = only := by
      rw [single]
      exact fun part listed => List.mem_singleton.mp listed
    obtain ⟨part, walked, found⟩ := List.mem_filterMap.mp member
    obtain ⟨_, rfl, _⟩ := leafOf?_eq_some_iff.mp found
    have inside := List.mem_filter.mpr ⟨walked, isLeafOf_iff.mpr found⟩
    obtain ⟨place, isPlace, leaf⟩ := (mem_filter_isLeafOf_iff proper).mp inside
    refine ⟨place, leaf, fun other held otherLeaf => ?_⟩
    have also : (other ++ [.key key], held) ∈ (walk document).filter (isLeafOf key) :=
      (mem_filter_isLeafOf_iff proper).mpr ⟨other, rfl, otherLeaf⟩
    have same : (other ++ [.key key], held) = part := (isOnly _ also).trans (isOnly _ inside).symm
    have samePlace := (congrArg Prod.fst same).trans isPlace
    exact List.append_cancel_right samePlace
  · rintro ⟨place, leaf, alone⟩
    have inside : (place ++ [.key key], value) ∈ (walk document).filter (isLeafOf key) :=
      (mem_filter_isLeafOf_iff proper).mpr ⟨place, rfl, leaf⟩
    have nodup : ((walk document).filter (isLeafOf key)).Nodup :=
      ((walk_pairwise proper).imp fun before same => before.ne (congrArg Prod.fst same)).filter _
    have isOnly : ∀ part ∈ (walk document).filter (isLeafOf key),
        part = (place ++ [.key key], value) := by
      rintro ⟨whole, held⟩ member
      obtain ⟨other, rfl, otherLeaf⟩ := (mem_filter_isLeafOf_iff proper).mp member
      obtain rfl := alone other held otherLeaf
      exact congrArg _ (Option.some.inj (otherLeaf.found.symm.trans leaf.found))
    have single : (walk document).filter (isLeafOf key) = [(place ++ [.key key], value)] := by
      obtain ⟨first, rest, isList⟩ := List.exists_cons_of_ne_nil (List.ne_nil_of_mem inside)
      rw [isList] at isOnly nodup ⊢
      obtain rfl := isOnly first List.mem_cons_self
      have noMore : rest = [] := List.eq_nil_iff_forall_not_mem.mpr fun part member => by
        have same := isOnly part (List.mem_cons_of_mem _ member)
        exact (List.nodup_cons.mp nodup).1 (same ▸ member)
      rw [noMore]
    obtain ⟨walked, isLeaf⟩ := (hasLeaf_iff proper).mp leaf
    exact ⟨List.mem_filterMap.mpr ⟨_, walked, isLeaf⟩, by rw [single]; rfl⟩

end Vetting.Scope
