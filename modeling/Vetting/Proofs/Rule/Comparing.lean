import Vetting.Proofs.Decimal.Binary
import Vetting.Rule.Comparison

/-!
Contract: operator rules about integers.

Owns:
- what it is for the operators to compare integers by what they see of them;
- that what they see of an integer is the representable integer nearest to it, so that they do not
  tell all integers apart.

Does not own: rules about other values, and whether a target exists.

Up to `2 ^ 53` an integer is seen as it is.
-/

namespace Vetting.Rule

open Json (Number Value)
open Decimal (nearestInt lastPlace Representable)

/-- An integer as a value of a document. -/
def integer (number : Int) : Value := .number (.integer number)

/-- A rule with the given operator and constant answers so wherever its target names the value. -/
def Answers (operator : Operator) (constant actual : Value) (answer : Bool) : Prop :=
  ∀ target names payload, target? target names payload = some actual →
    OperatorRule.holds ⟨target, operator, constant⟩ names payload = .ok answer

/-- How the operators compare an integer with others, going by what is seen of each of them. -/
structure ComparesAs (seen : Int → Int) (number : Int) : Prop where
  eq : ∀ other, Number.IntegerInRange other →
    Answers .eq (integer other) (integer number) (decide (seen number = seen other))
  ne : ∀ other, Number.IntegerInRange other →
    Answers .ne (integer other) (integer number) (decide (seen number ≠ seen other))
  lt : ∀ other, Number.IntegerInRange other →
    Answers .lt (integer other) (integer number) (decide (seen number < seen other))
  le : ∀ other, Number.IntegerInRange other →
    Answers .le (integer other) (integer number) (decide (seen number ≤ seen other))
  gt : ∀ other, Number.IntegerInRange other →
    Answers .gt (integer other) (integer number) (decide (seen number > seen other))
  ge : ∀ other, Number.IntegerInRange other →
    Answers .ge (integer other) (integer number) (decide (seen number ≥ seen other))
  between : ∀ low high, Number.IntegerInRange low → Number.IntegerInRange high →
    Answers .between (.array [integer low, integer high]) (integer number)
      (decide (seen low ≤ seen number ∧ seen number ≤ seen high))
  isIn : ∀ items : List Int, (∀ item ∈ items, Number.IntegerInRange item) →
    Answers .isIn (.array (items.map integer)) (integer number)
      (decide (seen number ∈ items.map seen))
  contains : ∀ items : List Int, (∀ item ∈ items, Number.IntegerInRange item) →
    Answers .contains (integer number) (.array (items.map integer))
      (decide (seen number ∈ items.map seen))

/-! ### Two integers -/

section Integers

variable {first second : Int} (inFirst : Number.IntegerInRange first)
  (inSecond : Number.IntegerInRange second)

theorem natAbs_lt_of_integerInRange (inRange : Number.IntegerInRange first) :
    first.natAbs < 2 ^ 64 := by
  obtain ⟨least, greatest⟩ := inRange
  have isLeast : Width.leastInt 64 = -9223372036854775808 := rfl
  have isGreatest : Int.ofNat (Width.greatestNat 64) = 18446744073709551615 := rfl
  omega

include inFirst inSecond

/-- Integers count as equal if what is seen of them is. -/
theorem looselyEqual_integer :
    looselyEqual (integer first) (integer second) = decide (nearestInt first = nearestInt second) := by
  have equal := Decimal.ofInt_beq_iff (natAbs_lt_of_integerInRange inFirst)
    (natAbs_lt_of_integerInRange inSecond)
  exact Bool.eq_iff_iff.mpr (equal.trans decide_eq_true_iff.symm)

/-- Integers are in the order of what is seen of them. -/
theorem order_integer :
    order (integer first) (integer second) = .ok (compare (nearestInt first) (nearestInt second)) := by
  have less := Decimal.ofInt_lt_iff (natAbs_lt_of_integerInRange inFirst)
    (natAbs_lt_of_integerInRange inSecond)
  have greater := Decimal.ofInt_lt_iff (natAbs_lt_of_integerInRange inSecond)
    (natAbs_lt_of_integerInRange inFirst)
  have equal := Decimal.ofInt_beq_iff (natAbs_lt_of_integerInRange inFirst)
    (natAbs_lt_of_integerInRange inSecond)
  simp only [integer, order, Number.toFloat, less, greater, equal, Int.compare_eq_ite_lt]
  split
  · rfl
  · split
    · rfl
    · rw [if_pos (by omega)]

end Integers

/-! ### What an ordering says -/

section Orderings

variable (first second : Int)

theorem compare_beq_lt : (compare first second == .lt) = decide (first < second) :=
  Bool.eq_iff_iff.mpr (by rw [beq_iff_eq, Int.compare_eq_lt, decide_eq_true_iff])

theorem compare_beq_gt : (compare first second == .gt) = decide (first > second) :=
  Bool.eq_iff_iff.mpr (by rw [beq_iff_eq, Int.compare_eq_gt, decide_eq_true_iff])

theorem compare_bne_lt : (compare first second != .lt) = decide (first ≥ second) := by
  rw [bne, compare_beq_lt, ← decide_not]
  exact decide_eq_decide.mpr Int.not_lt

theorem compare_bne_gt : (compare first second != .gt) = decide (first ≤ second) := by
  rw [bne, compare_beq_gt, ← decide_not]
  exact decide_eq_decide.mpr Int.not_lt

end Orderings

/-! ### Rules about an integer -/

/-- An operator that does not ask for existence answers about the value that the target names. -/
theorem answers_of_holdsOf {operator : Operator} {constant actual : Value} {answer : Bool}
    (asksExistence : operator ≠ .exists) (asksAbsence : operator ≠ .notExists)
    (holds : holdsOf operator actual constant = .ok answer) :
    Answers operator constant actual answer := by
  intro target names payload found
  unfold OperatorRule.holds
  rw [found]
  cases operator with
  | «exists» => exact absurd rfl asksExistence
  | notExists => exact absurd rfl asksAbsence
  | eq | ne | lt | le | gt | ge | isIn | contains | between => exact holds

/-- The second bound is asked for only if the number is not below the first one. -/
theorem holdsOf_between {number low high : Int} (inRange : Number.IntegerInRange number)
    (inLow : Number.IntegerInRange low) (inHigh : Number.IntegerInRange high) :
    holdsOf .between (integer number) (.array [integer low, integer high]) =
      .ok (decide (nearestInt low ≤ nearestInt number ∧ nearestInt number ≤ nearestInt high)) := by
  rw [holdsOf, order_integer inRange inLow, order_integer inRange inHigh]
  change (if compare (nearestInt number) (nearestInt low) == .lt then Except.ok false
    else Except.ok (compare (nearestInt number) (nearestInt high) != .gt)) = _
  rw [compare_beq_lt, compare_bne_gt]
  by_cases below : nearestInt number < nearestInt low
  · have outside : ¬ (nearestInt low ≤ nearestInt number ∧ nearestInt number ≤ nearestInt high) := by
      omega
    rw [if_pos (decide_eq_true below), decide_eq_false outside]
  · have notBelow : nearestInt low ≤ nearestInt number := Int.not_lt.mp below
    rw [if_neg (by simpa using notBelow), decide_eq_decide.mpr (and_iff_right notBelow)]

/-- A list has a number that counts as equal if what is seen of some number in it is. -/
theorem any_looselyEqual {number : Int} (inRange : Number.IntegerInRange number) {items : List Int}
    (inItems : ∀ item ∈ items, Number.IntegerInRange item) :
    (items.map integer).any (fun item => looselyEqual item (integer number)) =
      decide (nearestInt number ∈ items.map nearestInt) := by
  rw [List.any_map, Bool.eq_iff_iff, List.any_eq_true, decide_eq_true_iff, List.mem_map]
  refine exists_congr fun item => and_congr_right fun member => ?_
  rw [Function.comp_apply, looselyEqual_integer (inItems item member) inRange, decide_eq_true_iff]

theorem comparesAs {number : Int} (inRange : Number.IntegerInRange number) :
    ComparesAs nearestInt number where
  eq other inOther := answers_of_holdsOf nofun nofun
    (congrArg Except.ok (looselyEqual_integer inRange inOther))
  ne other inOther := answers_of_holdsOf nofun nofun (by
    rw [holdsOf, looselyEqual_integer inRange inOther, decide_not])
  lt other inOther := answers_of_holdsOf nofun nofun (by
    rw [holdsOf, order_integer inRange inOther, ← compare_beq_lt]
    rfl)
  le other inOther := answers_of_holdsOf nofun nofun (by
    rw [holdsOf, order_integer inRange inOther, ← compare_bne_gt]
    rfl)
  gt other inOther := answers_of_holdsOf nofun nofun (by
    rw [holdsOf, order_integer inRange inOther, ← compare_beq_gt]
    rfl)
  ge other inOther := answers_of_holdsOf nofun nofun (by
    rw [holdsOf, order_integer inRange inOther, ← compare_bne_lt]
    rfl)
  between _ _ inLow inHigh := answers_of_holdsOf nofun nofun
    (holdsOf_between inRange inLow inHigh)
  isIn _ inItems := answers_of_holdsOf nofun nofun
    (congrArg Except.ok (any_looselyEqual inRange inItems))
  contains _ inItems := answers_of_holdsOf nofun nofun
    (congrArg Except.ok (any_looselyEqual inRange inItems))

/-- The operators compare integers by the representable integers that are nearest to them, of two that
are equally near by the one whose last significant bit is zero.  These are in the same order, and they
are the integers themselves up to `2 ^ 53`. -/
theorem comparesAs_nearestInt {number : Int} (inRange : Number.IntegerInRange number) :
    ComparesAs nearestInt number ∧ Representable (nearestInt number) ∧
      (∀ other, Representable other →
        (number - nearestInt number).natAbs ≤ (number - other).natAbs) ∧
      (∀ other, Representable other → other ≠ nearestInt number →
        (number - other).natAbs = (number - nearestInt number).natAbs →
        2 * lastPlace number.natAbs ∣ (nearestInt number).natAbs) ∧
      (∀ other, number ≤ other → nearestInt number ≤ nearestInt other) ∧
      (number.natAbs ≤ 2 ^ 53 → nearestInt number = number) :=
  ⟨comparesAs inRange, Decimal.representable_nearestInt number,
    fun _ representable => Decimal.nearestInt_closest number representable,
    fun _ representable => Decimal.nearestInt_even number representable,
    fun _ => Decimal.nearestInt_le_nearestInt,
    fun small => Decimal.nearestInt_eq_self_iff.mpr (Decimal.representable_of_le small)⟩

end Vetting.Rule

namespace Vetting.Example

open Json (Number)
open Rule (ComparesAs OperatorRule integer)

/-- The first integer that is seen as another one is not below it, but it is below the next one. -/
theorem holds_odd : Number.IntegerInRange 9007199254740993 ∧
    OperatorRule.holds ⟨"n", .lt, integer 9007199254740994⟩ []
      (.object [("n", integer 9007199254740993)]) = .ok true ∧
    OperatorRule.holds ⟨"n", .eq, integer 9007199254740992⟩ []
      (.object [("n", integer 9007199254740993)]) = .ok true := by
  have inRange : Number.IntegerInRange 9007199254740993 := by decide
  have compares := (Rule.comparesAs_nearestInt inRange).1
  exact ⟨inRange, compares.lt 9007199254740994 (by decide) "n" [] _ rfl,
    compares.eq 9007199254740992 (by decide) "n" [] _ rfl⟩

/-- The integer after `2 ^ 53` counts as equal to it, so integers are not seen as they are. -/
theorem not_comparesAs_id :
    Number.IntegerInRange 9007199254740992 ∧ ¬ ComparesAs id 9007199254740992 := by
  refine ⟨by decide, fun seenAsIs => ?_⟩
  have differ := seenAsIs.eq 9007199254740993 (by decide) "n" []
    (.object [("n", integer 9007199254740992)]) rfl
  have alike : Rule.looselyEqual (integer 9007199254740992) (integer 9007199254740993) = true := by
    decide
  have same : OperatorRule.holds ⟨"n", .eq, integer 9007199254740993⟩ []
      (.object [("n", integer 9007199254740992)]) = .ok true := congrArg Except.ok alike
  rw [same] at differ
  exact absurd (Except.ok.inj differ) (by decide)

end Vetting.Example
