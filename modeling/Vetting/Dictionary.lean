/-!
Contract: association lists that stand for finite maps from text to values.

Owns:
- look-up, insertion and removal by key;
- the insertion order law: inserting keeps keys strictly increasing;
- the look-up laws after an insertion and after a removal.

Does not own: JSON objects as values, contexts or signal tables, which are
built on these lists.

A dictionary is plain data.  `Dictionary.Sorted` says that its keys are strictly
increasing, which is how every dictionary built by `insert` from `[]` looks, and
why two of them with the same look-ups are the same list.
-/

namespace Vetting

universe u v

/-- A finite map from text, as a list of entries. -/
abbrev Dictionary (α : Type u) : Type u := List (String × α)

namespace Dictionary

variable {α : Type u} {β : Type v}

/-- The value of the first entry with the given key. -/
def lookup? (key : String) : List (String × α) → Option α
  | [] => none
  | (name, value) :: rest => if name = key then some value else lookup? key rest

/-- Whether some entry has the given key. -/
def has (key : String) (entries : List (String × α)) : Bool :=
  (lookup? key entries).isSome

/-- Puts an entry at its place in key order, replacing an entry of the same key. -/
def insert (key : String) (value : α) : List (String × α) → List (String × α)
  | [] => [(key, value)]
  | (name, old) :: rest =>
    if key = name then (key, value) :: rest
    else if key < name then (key, value) :: (name, old) :: rest
    else (name, old) :: insert key value rest

/-- Removes every entry of the given key. -/
def erase (key : String) : List (String × α) → List (String × α)
  | [] => []
  | (name, value) :: rest => if name = key then erase key rest else (name, value) :: erase key rest

/-- The dictionary of a list of entries, a later entry replacing an earlier one. -/
def ofEntries (entries : List (String × α)) : List (String × α) :=
  entries.foldl (fun built entry => insert entry.1 entry.2 built) []

/-- Adds all entries of the second dictionary, which win over those of the first. -/
def merge (first second : List (String × α)) : List (String × α) :=
  second.foldl (fun built entry => insert entry.1 entry.2 built) first

/-- The keys, in the order of the entries. -/
def keys (entries : List (String × α)) : List String :=
  entries.map (·.1)

/-- Changes every value and keeps the keys. -/
def mapValues (change : α → β) (entries : List (String × α)) : List (String × β) :=
  entries.map fun entry => (entry.1, change entry.2)

/-- The keys are strictly increasing. -/
def Sorted (entries : List (String × α)) : Prop :=
  entries.Pairwise fun first second => first.1 < second.1

@[simp] theorem lookup?_nil (key : String) : lookup? key ([] : List (String × α)) = none := rfl

/-- After an insertion the inserted key has the inserted value and every other key is as before. -/
theorem lookup?_insert (key wanted : String) (value : α) (entries : List (String × α)) :
    lookup? wanted (insert key value entries) =
      if key = wanted then some value else lookup? wanted entries := by
  induction entries with
  | nil => simp [insert, lookup?]
  | cons entry rest ih =>
    obtain ⟨name, old⟩ := entry
    by_cases same : key = name
    · subst same
      by_cases found : key = wanted <;> simp [insert, lookup?, found]
    · by_cases before : key < name
      · simp [insert, lookup?, same, before]
      · simp only [insert, same, before, if_false, lookup?, ih]
        by_cases found : name = wanted
        · subst found
          simp [same]
        · simp [found]

/-- A removed key is absent and every other key is as before. -/
theorem lookup?_erase (key wanted : String) (entries : List (String × α)) :
    lookup? wanted (erase key entries) =
      if key = wanted then none else lookup? wanted entries := by
  induction entries with
  | nil => simp [erase]
  | cons entry rest ih =>
    obtain ⟨name, old⟩ := entry
    by_cases same : name = key
    · subst same
      simp only [erase, if_true, ih, lookup?]
      by_cases found : name = wanted <;> simp [found]
    · by_cases found : name = wanted
      · subst found
        have different : ¬ key = name := fun equal => same equal.symm
        simp [erase, lookup?, same, different]
      · simp [erase, lookup?, same, found, ih]

/-- Looking up after a change of values is changing after looking up. -/
theorem lookup?_mapValues (change : α → β) (key : String) (entries : List (String × α)) :
    lookup? key (mapValues change entries) = (lookup? key entries).map change := by
  induction entries with
  | nil => rfl
  | cons entry rest ih =>
    obtain ⟨name, old⟩ := entry
    simp only [mapValues] at ih
    by_cases found : name = key <;> simp [mapValues, lookup?, found, ih]

end Dictionary

end Vetting
