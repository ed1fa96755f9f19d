import Mathlib.Algebra.Order.Ring.Nat

/-!
Contract: the integers that a significand of 53 bits leaves of all integers.

Owns:
- the rounding of a quotient to the nearest whole number, a half to the even one;
- the representable integers, and the one that is nearest to an integer;
- that no representable integer is nearer, and that the order of integers is kept.

Does not own: the bits of a floating-point number (`Vetting.Proofs.Decimal.Binary`).
-/

namespace Vetting.Decimal

/-! ### Rounded quotients -/

/-- The quotient of two numbers, rounded to the nearest whole number, a half to the even one. -/
def roundedQuotient (number unit : Nat) : Nat :=
  if 2 * (number % unit) < unit then number / unit
  else if unit < 2 * (number % unit) then number / unit + 1
  else number / unit + number / unit % 2

theorem roundedQuotient_cases (number unit : Nat) :
    roundedQuotient number unit = number / unit ∧ 2 * (number % unit) ≤ unit ∨
      roundedQuotient number unit = number / unit + 1 ∧ unit ≤ 2 * (number % unit) := by
  unfold roundedQuotient
  split
  · exact .inl ⟨rfl, by omega⟩
  · split
    · exact .inr ⟨rfl, by omega⟩
    · rcases Nat.mod_two_eq_zero_or_one (number / unit) with even | odd
      · exact .inl ⟨by omega, by omega⟩
      · exact .inr ⟨by omega, by omega⟩

theorem div_le_roundedQuotient (number unit : Nat) :
    number / unit ≤ roundedQuotient number unit := by
  rcases roundedQuotient_cases number unit with ⟨isRounded, _⟩ | ⟨isRounded, _⟩ <;> omega

theorem roundedQuotient_one (number : Nat) : roundedQuotient number 1 = number := by
  simp [roundedQuotient, Nat.mod_one]

/-- No multiple of the divisor is nearer than the rounded one. -/
theorem roundedQuotient_closest (number : Nat) {unit : Nat} (positive : 0 < unit) (other : Nat) :
    ((number : Int) - (roundedQuotient number unit * unit : Nat)).natAbs ≤
      ((number : Int) - (other * unit : Nat)).natAbs := by
  have whole : number / unit * unit + number % unit = number := by
    rw [Nat.mul_comm]
    exact Nat.div_add_mod number unit
  have apart : other * unit ≤ number / unit * unit ∨
      number / unit * unit + unit ≤ other * unit := by
    rcases Nat.lt_or_ge (number / unit) other with more | less
    · refine .inr ?_
      rw [← Nat.succ_mul]
      exact Nat.mul_le_mul_right unit more
    · exact .inl (Nat.mul_le_mul_right unit less)
  rcases roundedQuotient_cases number unit with ⟨isRounded, half⟩ | ⟨isRounded, half⟩
  · rw [isRounded]
    omega
  · have rest := Nat.mod_lt number positive
    rw [isRounded, Nat.succ_mul]
    omega

/-- If another multiple of the divisor is as near as the rounded one, that one is even. -/
theorem roundedQuotient_even {number unit other : Nat} (positive : 0 < unit)
    (different : other ≠ roundedQuotient number unit)
    (near : ((number : Int) - (other * unit : Nat)).natAbs =
      ((number : Int) - (roundedQuotient number unit * unit : Nat)).natAbs) :
    roundedQuotient number unit % 2 = 0 := by
  have whole : number / unit * unit + number % unit = number := by
    rw [Nat.mul_comm]
    exact Nat.div_add_mod number unit
  have rest := Nat.mod_lt number positive
  have apart : other * unit + unit ≤ roundedQuotient number unit * unit ∨
      roundedQuotient number unit * unit + unit ≤ other * unit := by
    simp only [← Nat.succ_mul]
    exact (Nat.lt_or_gt_of_ne different).imp (Nat.mul_le_mul_right unit) (Nat.mul_le_mul_right unit)
  unfold roundedQuotient at near apart ⊢
  split at near
  · rename_i less
    rw [if_pos less] at apart
    omega
  · split at near
    · rename_i noLess greater
      rw [if_neg noLess, if_pos greater, Nat.succ_mul] at apart
      rw [Nat.succ_mul] at near
      omega
    · rename_i noLess noGreater
      rw [if_neg noLess, if_neg noGreater]
      omega

/-- A common factor makes no difference. -/
theorem roundedQuotient_mul (number unit : Nat) {factor : Nat} (positive : 0 < factor) :
    roundedQuotient (number * factor) (unit * factor) = roundedQuotient number unit := by
  have less : ∀ first second, first * factor < second * factor ↔ first < second :=
    fun _ _ => Nat.mul_lt_mul_right positive
  unfold roundedQuotient
  simp only [Nat.mul_mod_mul_right, Nat.mul_div_mul_right _ _ positive, ← Nat.mul_assoc, less]

/-! ### Representable integers -/

/-- An integer that a significand of 53 bits can hold, with zeros behind it. -/
def Representable (number : Int) : Prop :=
  ∃ significand places : Nat, number.natAbs = significand * 2 ^ places ∧ significand < 2 ^ 53

/-- What the last of 53 significant bits is worth; it is one for smaller numbers. -/
def lastPlace (number : Nat) : Nat := 2 ^ (number.log2 - 52)

/-- The number with 53 significant bits that is nearest to a natural number. -/
def nearestNat (number : Nat) : Nat := roundedQuotient number (lastPlace number) * lastPlace number

/-- The representable integer that is nearest to an integer; of two that are equally near, the one
whose significand is even. -/
def nearestInt : Int → Int
  | .ofNat number => nearestNat number
  | .negSucc number => -nearestNat (number + 1)

section Significands

variable {number : Nat}

theorem lastPlace_pos (number : Nat) : 0 < lastPlace number := Nat.two_pow_pos _

theorem div_lastPlace_lt (number : Nat) : number / lastPlace number < 2 ^ 53 := by
  refine Nat.div_lt_of_lt_mul ?_
  have below : number < 2 ^ (number.log2 + 1) := Nat.lt_log2_self
  have places : 2 ^ (number.log2 + 1) ≤ 2 ^ (number.log2 - 52 + 53) :=
    Nat.pow_le_pow_right Nat.two_pos (by omega)
  rw [lastPlace, ← Nat.pow_add]
  omega

theorem le_div_lastPlace (large : 2 ^ 52 ≤ number) : 2 ^ 52 ≤ number / lastPlace number := by
  have nonzero : number ≠ 0 := by omega
  have bits : 52 ≤ number.log2 := (Nat.le_log2 nonzero).mpr large
  refine (Nat.le_div_iff_mul_le (lastPlace_pos number)).mpr ?_
  rw [lastPlace, ← Nat.pow_add, Nat.add_sub_cancel' bits]
  exact Nat.log2_self_le nonzero

theorem lastPlace_of_lt (small : number < 2 ^ 53) : lastPlace number = 1 := by
  have bits : number.log2 - 52 = 0 := by
    by_cases zero : number = 0
    · subst zero
      rfl
    · have := (Nat.log2_lt zero).mpr small
      omega
  rw [lastPlace, bits, Nat.pow_zero]

theorem nearestNat_of_lt (small : number < 2 ^ 53) : nearestNat number = number := by
  rw [nearestNat, lastPlace_of_lt small, roundedQuotient_one, Nat.mul_one]

theorem roundedQuotient_lastPlace_le (number : Nat) :
    roundedQuotient number (lastPlace number) ≤ 2 ^ 53 := by
  have below := div_lastPlace_lt number
  rcases roundedQuotient_cases number (lastPlace number) with ⟨isRounded, _⟩ | ⟨isRounded, _⟩ <;>
    omega

theorem representable_nearestNat (number : Nat) : Representable (nearestNat number) := by
  rw [Representable, Int.natAbs_natCast]
  rcases Nat.lt_or_eq_of_le (roundedQuotient_lastPlace_le number) with below | carried
  · exact ⟨_, _, rfl, below⟩
  · refine ⟨1, 53 + (number.log2 - 52), ?_, by decide⟩
    rw [nearestNat, carried, lastPlace, Nat.pow_add, Nat.one_mul]

/-- A representable number is a multiple of the last place, or it has fewer digits. -/
theorem multiple_or_le (number places : Nat) {significand : Nat} (small : significand < 2 ^ 53) :
    (∃ other, significand * 2 ^ places = other * lastPlace number) ∨
      significand * 2 ^ places ≤ number / lastPlace number * lastPlace number := by
  rcases Nat.lt_or_ge places (number.log2 - 52) with fewer | more
  · refine .inr ?_
    have large : 2 ^ 52 ≤ number := by
      have nonzero : number ≠ 0 := by
        rintro rfl
        simp at fewer
      exact (Nat.le_log2 nonzero).mp (by omega)
    calc significand * 2 ^ places
        ≤ 2 ^ 53 * 2 ^ (number.log2 - 52 - 1) :=
          Nat.mul_le_mul (Nat.le_of_lt small) (Nat.pow_le_pow_right Nat.two_pos (by omega))
      _ = 2 ^ 52 * lastPlace number := by
          rw [lastPlace, ← Nat.pow_add, ← Nat.pow_add]
          congr 1
          omega
      _ ≤ number / lastPlace number * lastPlace number :=
          Nat.mul_le_mul_right _ (le_div_lastPlace large)
  · refine .inl ⟨significand * 2 ^ (places - (number.log2 - 52)), ?_⟩
    rw [lastPlace, Nat.mul_assoc, ← Nat.pow_add, Nat.sub_add_cancel more]

theorem nearestNat_closest (number : Nat) {other : Int} (representable : Representable other) :
    ((number : Int) - nearestNat number).natAbs ≤ ((number : Int) - other).natAbs := by
  obtain ⟨significand, places, isOther, small⟩ := representable
  have closest := roundedQuotient_closest number (lastPlace_pos number)
  have fromZero := closest 0
  have fromBelow := closest (number / lastPlace number)
  have whole : number / lastPlace number * lastPlace number ≤ number := Nat.div_mul_le_self _ _
  unfold nearestNat
  rcases multiple_or_le number places small with ⟨multiple, same⟩ | fewer
  · have fromMultiple := closest multiple
    rw [← same, ← isOther] at fromMultiple
    omega
  · rw [← isOther] at fewer
    omega

/-- If another representable integer is as near, the last significant bit is zero. -/
theorem nearestNat_even (number : Nat) {other : Int} (representable : Representable other)
    (different : other ≠ nearestNat number)
    (near : ((number : Int) - other).natAbs = ((number : Int) - nearestNat number).natAbs) :
    2 * lastPlace number ∣ nearestNat number := by
  have isMultiple : ∃ multiple, other = (multiple * lastPlace number : Nat) := by
    obtain ⟨significand, places, isOther, small⟩ := representable
    have closest := roundedQuotient_closest number (lastPlace_pos number)
    have fromZero := closest 0
    have fromBelow := closest (number / lastPlace number)
    have whole : number / lastPlace number * lastPlace number ≤ number := Nat.div_mul_le_self _ _
    unfold nearestNat at near
    rcases multiple_or_le number places small with ⟨multiple, same⟩ | fewer
    · exact ⟨multiple, by omega⟩
    · exact ⟨number / lastPlace number, by omega⟩
  obtain ⟨multiple, rfl⟩ := isMultiple
  have notRounded : multiple ≠ roundedQuotient number (lastPlace number) := by
    rintro rfl
    exact different rfl
  have even := roundedQuotient_even (lastPlace_pos number) notRounded near
  exact Nat.mul_dvd_mul_right (Nat.dvd_of_mod_eq_zero even) (lastPlace number)

end Significands

/-! ### The nearest representable integer -/

theorem representable_neg {number : Int} (representable : Representable number) :
    Representable (-number) := by
  rwa [Representable, Int.natAbs_neg]

theorem representable_nearestInt (number : Int) : Representable (nearestInt number) := by
  cases number with
  | ofNat number => exact representable_nearestNat number
  | negSucc number => exact representable_neg (representable_nearestNat (number + 1))

/-- No representable integer is nearer to an integer. -/
theorem nearestInt_closest (number : Int) {other : Int} (representable : Representable other) :
    (number - nearestInt number).natAbs ≤ (number - other).natAbs := by
  cases number with
  | ofNat number => exact nearestNat_closest number representable
  | negSucc number =>
    have closest := nearestNat_closest (number + 1) (representable_neg representable)
    rw [nearestInt]
    omega

/-- If another representable integer is as near, the last significant bit is zero. -/
theorem nearestInt_even (number : Int) {other : Int} (representable : Representable other)
    (different : other ≠ nearestInt number)
    (near : (number - other).natAbs = (number - nearestInt number).natAbs) :
    2 * lastPlace number.natAbs ∣ (nearestInt number).natAbs := by
  cases number with
  | ofNat number => exact nearestNat_even number representable different near
  | negSucc number =>
    have even := nearestNat_even (number + 1) (representable_neg representable)
      (fun same => different (by rw [nearestInt]; omega)) (by rw [nearestInt] at near; omega)
    rw [nearestInt, Int.natAbs_neg]
    exact even

theorem nearestInt_eq_self_iff {number : Int} :
    nearestInt number = number ↔ Representable number := by
  constructor
  · intro same
    exact same ▸ representable_nearestInt number
  · intro representable
    have closest := nearestInt_closest number representable
    omega

/-- Up to `2 ^ 53` every integer is representable. -/
theorem representable_of_le {number : Int} (small : number.natAbs ≤ 2 ^ 53) :
    Representable number := by
  rcases Nat.lt_or_eq_of_le small with below | limit
  · exact ⟨number.natAbs, 0, (Nat.mul_one _).symm, below⟩
  · exact ⟨1, 53, by rw [limit, Nat.one_mul], by decide⟩

/-- Rounding keeps the order of integers. -/
theorem nearestInt_le_nearestInt {first second : Int} (le : first ≤ second) :
    nearestInt first ≤ nearestInt second := by
  rcases Int.lt_or_eq_of_le le with less | rfl
  · -- otherwise each of them would be nearer to where the other one goes
    have fromFirst := nearestInt_closest first (representable_nearestInt second)
    have fromSecond := nearestInt_closest second (representable_nearestInt first)
    omega
  · exact Int.le_refl _

theorem nearestNat_le_two_pow {number places : Nat} (small : number ≤ 2 ^ places) :
    nearestNat number ≤ 2 ^ places := by
  have power : Representable (2 ^ places : Nat) := ⟨1, places, (Nat.one_mul _).symm, by decide⟩
  have le : nearestInt number ≤ nearestInt (2 ^ places : Nat) :=
    nearestInt_le_nearestInt (Int.ofNat_le.mpr small)
  rw [nearestInt_eq_self_iff.mpr power] at le
  exact Int.ofNat_le.mp le

end Vetting.Decimal
