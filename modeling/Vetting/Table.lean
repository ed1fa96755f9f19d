/-!
Contract: association lists that stand for finite maps.

Owns:
- look-up, setting and removal by key;
- the look-up laws after each of them.

Does not own: maps from text in key order (`Vetting.Dictionary`).

A key that is set for the first time goes to the end, so that entries keep the order
in which they came.
-/

namespace Vetting

/-- A finite map, as a list of entries with different keys. -/
abbrev Table (κ : Type) (α : Type) : Type := List (κ × α)

namespace Table

variable {κ : Type} {α : Type} [DecidableEq κ]

def get? (key : κ) : Table κ α → Option α
  | [] => none
  | (name, value) :: rest => if name = key then some value else get? key rest

/-- Gives a key a value; a new key goes to the end. -/
def set (key : κ) (value : α) : Table κ α → Table κ α
  | [] => [(key, value)]
  | (name, old) :: rest =>
    if name = key then (key, value) :: rest else (name, old) :: set key value rest

def remove (key : κ) : Table κ α → Table κ α
  | [] => []
  | (name, value) :: rest =>
    if name = key then remove key rest else (name, value) :: remove key rest

def values (table : Table κ α) : List α := table.map (·.2)

/-- After setting a key it has its value, and every other key is as before. -/
theorem get?_set (key wanted : κ) (value : α) (table : Table κ α) :
    get? wanted (set key value table) = if key = wanted then some value else get? wanted table := by
  induction table with
  | nil => simp [set, get?]
  | cons entry rest ih =>
    obtain ⟨name, old⟩ := entry
    by_cases same : name = key
    · subst same
      by_cases found : name = wanted <;> simp [set, get?, found]
    · by_cases found : name = wanted
      · subst found
        have different : ¬ key = name := fun equal => same equal.symm
        simp [set, get?, same, different]
      · simp [set, get?, same, found, ih]

/-- A removed key is absent, and every other key is as before. -/
theorem get?_remove (key wanted : κ) (table : Table κ α) :
    get? wanted (remove key table) = if key = wanted then none else get? wanted table := by
  induction table with
  | nil => simp [remove, get?]
  | cons entry rest ih =>
    obtain ⟨name, old⟩ := entry
    by_cases same : name = key
    · subst same
      by_cases found : name = wanted
      · subst found
        simpa [remove] using ih
      · simp [remove, get?, found, ih]
    · by_cases found : name = wanted
      · subst found
        have different : ¬ key = name := fun equal => same equal.symm
        simp [remove, get?, same, different]
      · simp [remove, get?, same, found, ih]

end Table

end Vetting
