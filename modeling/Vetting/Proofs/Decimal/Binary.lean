import Mathlib
import Vetting.Proofs.Decimal.Nearest

/-!
Contract: integers as floating-point numbers of 64 bits.

Owns:
- shifting a significand to the right, and the rounding that its last bits ask for;
- which floating-point number an integer of 64 bits becomes;
- that two of them compare as the nearest representable integers do.

Does not own: numbers with fractions, infinities, and results that are no numbers.
-/

namespace Vetting.Decimal

open Float.Model (Format UnpackedFloat)
open Float.Model.UnpackedFloat (Sign ExtendedMantissa)

/-! ### Shifting significands -/

/-- What is left of a number without its last bits, and what those bits were worth. -/
structure Shifted (number places : Nat) (rest : ExtendedMantissa) : Prop where
  mantissa : rest.mantissa = number / 2 ^ places
  roundBit : rest.roundBit = true ↔ 2 ^ places ≤ 2 * (number % 2 ^ places)
  stickyBit : rest.stickyBit = true ↔
    number % 2 ^ places ≠ 0 ∧ 2 * (number % 2 ^ places) ≠ 2 ^ places

namespace Shifted

variable {number places : Nat} {rest : ExtendedMantissa}

theorem unshifted (number : Nat) : Shifted number 0 ⟨number, false, false⟩ where
  mantissa := by simp
  roundBit := by simp [Nat.mod_one]
  stickyBit := by simp [Nat.mod_one]

theorem shiftRightOne (shifted : Shifted number places rest) :
    Shifted number (places + 1) rest.shiftRightOne := by
  have below := Nat.mod_lt number (Nat.two_pow_pos places)
  have next : number % 2 ^ (places + 1) =
      number % 2 ^ places + 2 ^ places * (number / 2 ^ places % 2) := Nat.mod_pow_succ
  have bit := Nat.mod_two_eq_zero_or_one (number / 2 ^ places)
  have double : 2 ^ (places + 1) = 2 * 2 ^ places := by rw [Nat.pow_succ, Nat.mul_comm]
  constructor
  · change rest.mantissa / 2 = _
    rw [shifted.mantissa, Nat.div_div_eq_div_mul, Nat.pow_succ]
  · change (rest.mantissa % 2 != 0) = true ↔ _
    rw [shifted.mantissa, next, double]
    rcases bit with zero | one
    · simp [zero]
      omega
    · simp [one]
  · change (rest.roundBit || rest.stickyBit) = true ↔ _
    rw [Bool.or_eq_true, shifted.roundBit, shifted.stickyBit, next, double]
    rcases bit with zero | one
    · rw [zero]
      omega
    · rw [one]
      omega

theorem shiftRight (number places : Nat) :
    Shifted number places ((⟨number, false, false⟩ : ExtendedMantissa) >>> places) := by
  induction places with
  | zero => exact unshifted number
  | succ places inductionHypothesis => exact inductionHypothesis.shiftRightOne

/-- The rounding that the last bits ask for is that of the quotient. -/
theorem roundedMantissa (shifted : Shifted number places rest) :
    rest.roundedMantissa = roundedQuotient number (2 ^ places) := by
  obtain ⟨mantissa, roundBit, stickyBit⟩ := rest
  obtain ⟨rfl, isRound, isSticky⟩ := shifted
  have positive := Nat.two_pow_pos places
  unfold roundedQuotient
  cases roundBit <;> cases stickyBit <;>
    simp only [Bool.false_eq_true, false_iff, true_iff] at isRound isSticky
  · rw [if_pos (by omega)]
    rfl
  · rw [if_pos (by omega)]
    rfl
  · rw [if_neg (by omega), if_neg (by omega)]
    rfl
  · rw [if_neg (by omega), if_pos (by omega)]
    rfl

end Shifted

/-! ### Floats with 53 significant bits -/

/-- A float that stands for a positive natural number, up to the sign, with all bits of its
significand in use. -/
inductive IsNormal (sign : Sign) (number : Nat) : UnpackedFloat → Prop
  | intro {significand places : Nat} (positive : 0 < significand) (full : 2 ^ 52 ≤ significand)
      (below : significand < 2 ^ 53) (same : significand * 2 ^ places = number * 2 ^ 52) :
    IsNormal sign number (.finite sign significand ((places : Int) - 52) positive)

theorem log2_mul_two_pow {number : Nat} (nonzero : number ≠ 0) (places : Nat) :
    (number * 2 ^ places).log2 = number.log2 + places := by
  induction places with
  | zero => rw [Nat.pow_zero, Nat.mul_one, Nat.add_zero]
  | succ places inductionHypothesis =>
    have double : number * 2 ^ (places + 1) = 2 * (number * 2 ^ places) := by
      rw [Nat.pow_succ, ← Nat.mul_assoc, Nat.mul_comm]
    have positive := Nat.two_pow_pos places
    rw [double, Nat.log2_two_mul (Nat.mul_ne_zero nonzero positive.ne'), inductionHypothesis,
      Nat.add_assoc]

/-- The exponent at which 53 bits of a number are significant. -/
theorem targetExponent_eq {significand : Nat} {exponent : Int}
    (normal : -1022 ≤ (significand.log2 : Int) + exponent) :
    Format.binary64.targetExponent (Float.Model.totalExponent significand exponent) =
      (significand.log2 : Int) + exponent - 52 := by
  simp only [Format.targetExponent, Float.Model.totalExponent, Format.mantissaBits,
    Format.minExponent]
  omega

/-- Bits beyond the 53 significant ones are shifted out. -/
theorem shiftToTargetExponent_eq (places : Nat) {significand surplus : Nat}
    (bits : significand.log2 = 52 + surplus) :
    UnpackedFloat.shiftToTargetExponent .binary64 significand ((places : Int) - 52 - surplus)
      .exact =
        ((⟨significand, false, false⟩ : ExtendedMantissa) >>> surplus, (places : Int) - 52) := by
  have target : Format.binary64.targetExponent
      (Float.Model.totalExponent significand ((places : Int) - 52 - surplus)) =
        (places : Int) - 52 := by
    rw [targetExponent_eq (by omega), bits]
    omega
  have amount : ((places : Int) - 52 - ((places : Int) - 52 - surplus)).toNat = surplus := by omega
  unfold UnpackedFloat.shiftToTargetExponent UnpackedFloat.shiftToExponent
  simp only [target, amount, ExtendedMantissa.ofMantissaAndAccuracy]
  congr 1
  omega

/-- A significand that rounding has carried to `2 ^ 53` loses its last bit, which is zero. -/
theorem exists_carried (places : Nat) {rounded : Nat} (least : 2 ^ 52 ≤ rounded)
    (most : rounded ≤ 2 ^ 53) :
    ∃ (rest : ExtendedMantissa) (carried : Nat),
      UnpackedFloat.shiftToTargetExponent .binary64 rounded ((places : Int) - 52) .exact =
        (rest, (carried : Int) - 52) ∧
      2 ^ 52 ≤ rest.mantissa ∧ rest.mantissa < 2 ^ 53 ∧
      rest.mantissa * 2 ^ carried = rounded * 2 ^ places := by
  rcases Nat.lt_or_eq_of_le most with below | rfl
  · have bits : rounded.log2 = 52 + 0 := (Nat.log2_eq_iff (by omega)).mpr ⟨least, below⟩
    have again := shiftToTargetExponent_eq places bits
    rw [Int.natCast_zero, Int.sub_zero] at again
    have kept := (Shifted.shiftRight rounded 0).mantissa
    rw [Nat.pow_zero, Nat.div_one] at kept
    exact ⟨_, _, again, kept ▸ least, kept ▸ below, by rw [kept]⟩
  · have bits : (2 ^ 53).log2 = 52 + 1 := Nat.log2_two_pow
    have again := shiftToTargetExponent_eq (places + 1) bits
    have sameExponent : ((places + 1 : Nat) : Int) - 52 - (1 : Nat) = (places : Int) - 52 := by omega
    rw [sameExponent] at again
    have halved : _ = 2 ^ 52 := (Shifted.shiftRight (2 ^ 53) 1).mantissa
    refine ⟨_, _, again, halved.ge, halved ▸ by decide, ?_⟩
    rw [halved, Nat.pow_succ]
    omega

/-- Rounding to 53 significant bits. -/
theorem isNormal_round (sign : Sign) {significand surplus places number : Nat}
    (bits : significand.log2 = 52 + surplus)
    (same : roundedQuotient significand (2 ^ surplus) * 2 ^ places = number * 2 ^ 52) :
    IsNormal sign number (UnpackedFloat.roundWithAccuracy .binary64 sign significand
      ((places : Int) - 52 - surplus) .exact) := by
  have isLast : lastPlace significand = 2 ^ surplus := by
    rw [lastPlace, bits, Nat.add_sub_cancel_left]
  have nonzero : significand ≠ 0 := by
    rintro rfl
    rw [Nat.log2_zero] at bits
    omega
  have most := roundedQuotient_lastPlace_le significand
  have least := le_div_lastPlace ((Nat.le_log2 nonzero).mp (by omega : 52 ≤ significand.log2))
  replace least := least.trans (div_le_roundedQuotient significand (lastPlace significand))
  rw [isLast] at most least
  obtain ⟨rest, carried, isCarried, full, below, value⟩ := exists_carried places least most
  unfold UnpackedFloat.roundWithAccuracy
  simp only [shiftToTargetExponent_eq places bits,
    (Shifted.shiftRight significand surplus).roundedMantissa, isCarried]
  rw [dif_neg (by omega)]
  exact .intro _ full below (value.trans same)

/-! ### Packing -/

/-- The bit that a packed significand leaves out is put back. -/
theorem toNat_implicit {significand : Nat} (full : 2 ^ 52 ≤ significand)
    (below : significand < 2 ^ 53) : (1#1 ++ BitVec.ofNat 52 significand).toNat = significand := by
  rw [BitVec.toNat_append, ← Nat.shiftLeft_add_eq_or_of_lt (BitVec.isLt _), BitVec.toNat_ofNat,
    Nat.shiftLeft_eq]
  simp only [BitVec.toNat_ofNat]
  omega

variable {sign : Sign} {number : Nat} {float : UnpackedFloat}

theorem places_lt {significand places : Nat} (full : 2 ^ 52 ≤ significand)
    (same : significand * 2 ^ places = number * 2 ^ 52) (small : number < 2 ^ 65) : places < 65 := by
  refine (Nat.pow_lt_pow_iff_right (by decide : 1 < 2)).mp (Nat.lt_of_le_of_lt ?_ small)
  refine Nat.le_of_mul_le_mul_right ?_ (Nat.two_pow_pos 52)
  rw [← same, Nat.mul_comm]
  exact Nat.mul_le_mul_right _ full

/-- The bits of a float with 53 significant bits. -/
theorem pack_normal (sign : Sign) {significand places : Nat} (positive : 0 < significand)
    (full : 2 ^ 52 ≤ significand) (below : significand < 2 ^ 53) (few : places < 65) :
    UnpackedFloat.pack .binary64 (.finite sign significand ((places : Int) - 52) positive) =
      UnpackedFloat.packComponents .binary64 sign (BitVec.ofNat 11 (places + 1023))
        (BitVec.ofNat 52 significand) := by
  have biased : ((places : Int) - 52 + (Format.binary64.exponentBias : Nat) + (52 : Nat)).toNat =
      places + 1023 := by
    have bias : Format.binary64.exponentBias = 1023 := rfl
    omega
  have bits : significand.log2 + 1 = Format.binary64.mantissaBits := by
    rw [(Nat.log2_eq_iff positive.ne').mpr ⟨full, below⟩]
    rfl
  unfold UnpackedFloat.pack
  simp only [biased]
  rw [if_neg (by omega), if_pos bits]

/-- A packed float is unpacked as it was. -/
theorem IsNormal.unpack_pack (normal : IsNormal sign number float) (small : number < 2 ^ 65) :
    (Float.Model.pack float).unpack = float := by
  obtain ⟨positive, full, below, same⟩ := normal
  rename_i significand places
  have few := places_lt full same small
  have exponent : (BitVec.ofNat 11 (places + 1023)).toNat = places + 1023 := by
    rw [BitVec.toNat_ofNat, Nat.mod_eq_of_lt (by omega)]
  have noZero : BitVec.ofNat 11 (places + 1023) ≠ 0#11 := by
    intro zero
    rw [zero] at exponent
    simp at exponent
  have noOnes : BitVec.ofNat 11 (places + 1023) ≠ -1#11 := by
    intro ones
    rw [ones] at exponent
    simp at exponent
    omega
  have unbiased : ((places + 1023 : Nat) : Int) -
      ((Format.binary64.exponentBias : Nat) + (52 : Nat)) = (places : Int) - 52 := by
    have bias : Format.binary64.exponentBias = 1023 := rfl
    omega
  change UnpackedFloat.unpack .binary64 (UnpackedFloat.pack .binary64 _) = _
  rw [pack_normal sign positive full below few]
  unfold UnpackedFloat.unpack
  simp only [UnpackedFloat.unpackExponent_packComponents,
    UnpackedFloat.unpackMantissa_packComponents, UnpackedFloat.unpackSign_packComponents,
    Sign.ofBitVec_toBitVec, if_neg noOnes, if_neg noZero, exponent, toNat_implicit full below,
    unbiased]

/-! ### Natural numbers as floats -/

/-- A small number is shifted to the left until all bits of the significand are in use. -/
theorem ofNat_eq_round (positive : 0 < number) (few : number.log2 ≤ 52) :
    UnpackedFloat.ofNat .binary64 number = UnpackedFloat.roundWithAccuracy .binary64 .positive
      (number <<< (52 - number.log2)) ((number.log2 : Int) - 52 - (0 : Nat)) .exact := by
  have isPositive : compare (number : Int) 0 = .gt := Int.compare_eq_gt.mpr (by omega)
  have target : Format.binary64.targetExponent (Float.Model.totalExponent number 0) =
      (number.log2 : Int) - 52 := by
    rw [targetExponent_eq (by omega), Int.add_zero]
  have amount : ((0 : Int) - ((number.log2 : Int) - 52)).toNat = 52 - number.log2 := by omega
  have exponent : (0 : Int) - ((52 - number.log2 : Nat) : Int) =
      (number.log2 : Int) - 52 - (0 : Nat) := by omega
  unfold UnpackedFloat.ofNat UnpackedFloat.ofInt UnpackedFloat.normalize
  simp only [isPositive, UnpackedFloat.round, UnpackedFloat.decreaseExponent, target, amount,
    exponent, Int.toNat_natCast]

/-- Small numbers are not rounded. -/
theorem isNormal_ofNat (positive : 0 < number) (small : number < 2 ^ 53) :
    IsNormal .positive number (UnpackedFloat.ofNat .binary64 number) := by
  have few : number.log2 ≤ 52 := Nat.le_of_lt_succ ((Nat.log2_lt positive.ne').mpr small)
  have aligned : (number <<< (52 - number.log2)).log2 = 52 + 0 := by
    rw [Nat.shiftLeft_eq, log2_mul_two_pow positive.ne', Nat.add_sub_cancel' few]
  have same : roundedQuotient (number <<< (52 - number.log2)) (2 ^ 0) * 2 ^ number.log2 =
      number * 2 ^ 52 := by
    rw [Nat.pow_zero, roundedQuotient_one, Nat.shiftLeft_eq, Nat.mul_assoc, ← Nat.pow_add,
      Nat.sub_add_cancel few]
  rw [ofNat_eq_round positive few]
  exact isNormal_round .positive aligned same

/-- A product with one, which is rounded again. -/
theorem IsNormal.mul_one (normal : IsNormal .positive number float) (isOne : 0 < 2 ^ 52) :
    IsNormal .positive number
      (UnpackedFloat.mul .binary64 float (.finite .positive (2 ^ 52) (-52) isOne)) := by
  obtain ⟨positive, full, below, same⟩ := normal
  rename_i significand places
  have bits : (significand * 2 ^ 52).log2 = 52 + 52 := by
    rw [log2_mul_two_pow positive.ne', (Nat.log2_eq_iff positive.ne').mpr ⟨full, below⟩]
  have rounded : roundedQuotient (significand * 2 ^ 52) (2 ^ 52) * 2 ^ places = number * 2 ^ 52 := by
    have cancel := roundedQuotient_mul significand 1 (Nat.two_pow_pos 52)
    rw [Nat.one_mul] at cancel
    rw [cancel, roundedQuotient_one, same]
  exact isNormal_round .positive bits rounded

/-- A greater number is rounded by way of a product with a power of ten, which is one. -/
theorem ofScientific_eq_round (nonzero : number ≠ 0) :
    UnpackedFloat.ofScientific .binary64 number 0 = UnpackedFloat.roundWithAccuracy .binary64
      .positive (number <<< 53 * 1) ((number.log2 : Int) - 52 - (number.log2 + 1 : Nat)) .exact := by
  have exponent : (number.log2 : Int) - 52 - (number.log2 + 1 : Nat) = -53 + 0 := by omega
  have range : (2 : Int) ^ Format.binary64.exponentBits = 2048 := rfl
  have width : Format.binary64.mantissaBits = 53 := rfl
  have power : 10 ^ Int.toNat 0 = 1 := rfl
  unfold UnpackedFloat.ofScientific
  rw [dif_neg nonzero, if_neg (by decide), if_neg (by omega), if_pos (by decide), exponent]
  change UnpackedFloat.roundWithAccuracy .binary64 .positive
    (number <<< Format.binary64.mantissaBits * 10 ^ Int.toNat 0)
    (-(Format.binary64.mantissaBits : Int) + 0) .exact = _
  rw [power, width]
  rfl

/-- Greater numbers are rounded to the nearest one with 53 significant bits. -/
theorem isNormal_ofScientific (large : 2 ^ 53 ≤ number) :
    IsNormal .positive (nearestNat number) (UnpackedFloat.ofScientific .binary64 number 0) := by
  have nonzero : number ≠ 0 := by omega
  have many : 53 ≤ number.log2 := (Nat.le_log2 nonzero).mpr large
  have bits : (number <<< 53 * 1).log2 = 52 + (number.log2 + 1) := by
    rw [Nat.mul_one, Nat.shiftLeft_eq, log2_mul_two_pow nonzero]
    omega
  have rounded : roundedQuotient (number <<< 53 * 1) (2 ^ (number.log2 + 1)) * 2 ^ number.log2 =
      nearestNat number * 2 ^ 52 := by
    have unit : 2 ^ (number.log2 + 1) = lastPlace number * 2 ^ 53 := by
      have split : number.log2 + 1 = number.log2 - 52 + 53 := by omega
      rw [split, Nat.pow_add, lastPlace]
    have value : 2 ^ number.log2 = lastPlace number * 2 ^ 52 := by
      have split : number.log2 - 52 + 52 = number.log2 := by omega
      rw [lastPlace, ← Nat.pow_add, split]
    rw [Nat.mul_one, Nat.shiftLeft_eq, unit, roundedQuotient_mul _ _ (Nat.two_pow_pos 53), value,
      nearestNat, Nat.mul_assoc]
  rw [ofScientific_eq_round nonzero]
  exact isNormal_round .positive bits rounded

/-! ### Floats of integers -/

theorem toModel_ofNat_of_lt (small : number < 2 ^ 53) :
    (Float.ofNat number).toModel = Float.Model.pack (UnpackedFloat.mul .binary64
      (Float.Model.pack (UnpackedFloat.ofNat .binary64 number)).unpack
      (Float.Model.ofBits 0x3FF0000000000000).unpack) := by
  have cast : number.toUInt64.toNat = number := by
    rw [Nat.toUInt64, UInt64.toNat_ofNat']
    omega
  change (Float.ofScientific number false 0).toModel = _
  unfold Float.ofScientific
  rw [dif_pos ⟨small, by decide⟩]
  change Float.Model.pack (UnpackedFloat.mul .binary64
    (Float.Model.pack (UnpackedFloat.ofNat .binary64 number.toUInt64.toNat)).unpack _) = _
  rw [cast]
  rfl

theorem toModel_ofNat_of_le (large : 2 ^ 53 ≤ number) :
    (Float.ofNat number).toModel =
      Float.Model.pack (UnpackedFloat.ofScientific .binary64 number 0) := by
  change (Float.ofScientific number false 0).toModel = _
  unfold Float.ofScientific
  rw [dif_neg fun fits => Nat.not_lt.mpr large fits.1]
  rfl

/-- A natural number becomes the float of the nearest number with 53 significant bits. -/
theorem isNormal_float (positive : 0 < number) (small : number < 2 ^ 64) :
    IsNormal .positive (nearestNat number) (Float.ofNat number).toModel.unpack := by
  rcases Nat.lt_or_ge number (2 ^ 53) with few | many
  · have normal := isNormal_ofNat positive few
    have isOne : (Float.Model.ofBits 0x3FF0000000000000).unpack =
        .finite .positive (2 ^ 52) (-52) (by decide) := by rfl
    rw [nearestNat_of_lt few, toModel_ofNat_of_lt few, normal.unpack_pack (by omega), isOne,
      (normal.mul_one _).unpack_pack (by omega)]
    exact normal.mul_one _
  · have normal := isNormal_ofScientific many
    have most := nearestNat_le_two_pow small.le
    rw [toModel_ofNat_of_le many, normal.unpack_pack (by omega)]
    exact normal

/-- A float that stands for an integer. -/
inductive Denotes : Int → UnpackedFloat → Prop
  | zero (sign : Sign) : Denotes 0 (.zero sign)
  | positive {number : Nat} {float : UnpackedFloat} (normal : IsNormal .positive number float) :
    Denotes number float
  | negative {number : Nat} {float : UnpackedFloat} (normal : IsNormal .negative number float) :
    Denotes (-number) float

theorem IsNormal.neg (normal : IsNormal .positive number float) :
    IsNormal .negative number float.neg := by
  obtain ⟨positive, full, below, same⟩ := normal
  exact .intro positive full below same

/-- An integer becomes the float of the nearest representable integer. -/
theorem denotes_ofInt {number : Int} (inRange : number.natAbs < 2 ^ 64) :
    Denotes (nearestInt number) (Float.ofInt number).toModel.unpack := by
  cases number with
  | ofNat number =>
    rcases Nat.eq_zero_or_pos number with rfl | positive
    · exact .zero .positive
    · exact .positive (isNormal_float positive inRange)
  | negSucc number =>
    have negated : IsNormal .negative (nearestNat (number + 1))
        (Float.ofNat (number + 1)).toModel.unpack.neg :=
      (isNormal_float (Nat.succ_pos number) inRange).neg
    have small : number + 1 < 2 ^ 64 := inRange
    have most := nearestNat_le_two_pow small.le
    have packed : (Float.ofInt (.negSucc number)).toModel.unpack =
        (Float.ofNat (number + 1)).toModel.unpack.neg := negated.unpack_pack (by omega)
    rw [packed]
    exact .negative negated

/-! ### Comparing floats of integers -/

/-- The float with the greater exponent stands for the greater number. -/
theorem lt_of_places_lt {first second significand places other more : Nat}
    (below : significand < 2 ^ 53) (same : significand * 2 ^ places = first * 2 ^ 52)
    (full : 2 ^ 52 ≤ other) (sameOther : other * 2 ^ more = second * 2 ^ 52)
    (fewer : places < more) : first < second := by
  refine Nat.lt_of_mul_lt_mul_right (a := 2 ^ 52) ?_
  calc first * 2 ^ 52 = significand * 2 ^ places := same.symm
    _ < 2 ^ 53 * 2 ^ places := Nat.mul_lt_mul_of_pos_right below (Nat.two_pow_pos _)
    _ = 2 ^ 52 * 2 ^ (places + 1) := by
        rw [Nat.pow_succ]
        omega
    _ ≤ other * 2 ^ more := Nat.mul_le_mul full (Nat.pow_le_pow_right Nat.two_pos fewer)
    _ = second * 2 ^ 52 := sameOther

/-- Of two floats with one exponent, the one with the greater significand stands for the greater
number. -/
theorem lt_of_significand_lt {first second significand places other : Nat}
    (same : significand * 2 ^ places = first * 2 ^ 52)
    (sameOther : other * 2 ^ places = second * 2 ^ 52) (less : significand < other) :
    first < second := by
  refine Nat.lt_of_mul_lt_mul_right (a := 2 ^ 52) ?_
  rw [← same, ← sameOther]
  exact Nat.mul_lt_mul_of_pos_right less (Nat.two_pow_pos _)

/-- Of two floats with 53 significant bits, the exponents and then the significands decide. -/
theorem compare_normal {first second significand places other more : Nat}
    (full : 2 ^ 52 ≤ significand) (below : significand < 2 ^ 53)
    (same : significand * 2 ^ places = first * 2 ^ 52)
    (fullOther : 2 ^ 52 ≤ other) (belowOther : other < 2 ^ 53)
    (sameOther : other * 2 ^ more = second * 2 ^ 52) :
    (compare ((places : Int) - 52) ((more : Int) - 52)).then (compare significand other) =
      compare (first : Int) second := by
  rcases Nat.lt_trichotomy places more with fewer | rfl | further
  · have less := lt_of_places_lt below same fullOther sameOther fewer
    rw [Int.compare_eq_lt.mpr (by omega), Int.compare_eq_lt.mpr (by omega)]
    rfl
  · rw [Int.compare_eq_eq.mpr rfl, Ordering.eq_then]
    rcases Nat.lt_trichotomy significand other with less | rfl | greater
    · rw [Nat.compare_eq_lt.mpr less,
        Int.compare_eq_lt.mpr (Int.ofNat_lt.mpr (lt_of_significand_lt same sameOther less))]
    · have equal : first = second :=
        Nat.eq_of_mul_eq_mul_right (Nat.two_pow_pos 52) (same.symm.trans sameOther)
      rw [equal, Nat.compare_eq_eq.mpr rfl, Int.compare_eq_eq.mpr rfl]
    · rw [Nat.compare_eq_gt.mpr greater,
        Int.compare_eq_gt.mpr (Int.ofNat_lt.mpr (lt_of_significand_lt sameOther same greater))]
  · have greater := lt_of_places_lt belowOther sameOther full same further
    rw [Int.compare_eq_gt.mpr (by omega), Int.compare_eq_gt.mpr (by omega)]
    rfl

theorem compare_neg (first second : Int) : compare (-first) (-second) = compare second first := by
  simp only [Int.compare_eq_ite_lt, Int.neg_lt_neg_iff]

theorem IsNormal.number_pos (normal : IsNormal sign number float) : 0 < number := by
  obtain ⟨positive, full, below, same⟩ := normal
  refine Nat.pos_of_ne_zero fun zero => ?_
  rw [zero, Nat.zero_mul] at same
  exact (Nat.mul_pos positive (Nat.two_pow_pos _)).ne' same

/-- Floats that stand for integers compare as those do. -/
theorem Denotes.compare {first second : Int} {left right : UnpackedFloat}
    (isFirst : Denotes first left) (isSecond : Denotes second right) :
    UnpackedFloat.compare left right = some (compare first second) := by
  cases isFirst with
  | zero sign =>
    cases isSecond with
    | zero other => rfl
    | positive normal =>
      have isPositive := normal.number_pos
      cases normal
      rw [Int.compare_eq_lt.mpr (by omega)]
      rfl
    | negative normal =>
      have isPositive := normal.number_pos
      cases normal
      rw [Int.compare_eq_gt.mpr (by omega)]
      rfl
  | positive normal =>
    have isPositive := normal.number_pos
    cases isSecond with
    | zero other =>
      cases normal
      rw [Int.compare_eq_gt.mpr (by omega)]
      rfl
    | positive other =>
      obtain ⟨_, full, below, same⟩ := normal
      obtain ⟨_, fullOther, belowOther, sameOther⟩ := other
      exact congrArg some (compare_normal full below same fullOther belowOther sameOther)
    | negative other =>
      have isNegative := other.number_pos
      cases normal
      cases other
      rw [Int.compare_eq_gt.mpr (by omega)]
      rfl
  | negative normal =>
    have isNegative := normal.number_pos
    cases isSecond with
    | zero other =>
      cases normal
      rw [Int.compare_eq_lt.mpr (by omega)]
      rfl
    | positive other =>
      have isPositive := other.number_pos
      cases normal
      cases other
      rw [Int.compare_eq_lt.mpr (by omega)]
      rfl
    | negative other =>
      obtain ⟨_, full, below, same⟩ := normal
      obtain ⟨_, fullOther, belowOther, sameOther⟩ := other
      rw [compare_neg, ← Int.compare_swap]
      exact congrArg (some ·.swap) (compare_normal full below same fullOther belowOther sameOther)

section Comparing

variable {first second : Int} (inFirst : first.natAbs < 2 ^ 64) (inSecond : second.natAbs < 2 ^ 64)
include inFirst inSecond

theorem ofInt_lt_iff :
    Float.ofInt first < Float.ofInt second ↔ nearestInt first < nearestInt second := by
  have compared := (denotes_ofInt inFirst).compare (denotes_ofInt inSecond)
  have isLess : (Float.ofInt first).lt (Float.ofInt second) =
      (compare (nearestInt first) (nearestInt second) == .lt) := by
    change decide (UnpackedFloat.lt _ _ = true) = _
    rw [Bool.decide_eq_true, UnpackedFloat.lt, compared]
    rfl
  change (Float.ofInt first).lt (Float.ofInt second) = true ↔ _
  rw [isLess, beq_iff_eq, Int.compare_eq_lt]

theorem ofInt_beq_iff :
    (Float.ofInt first == Float.ofInt second) = true ↔ nearestInt first = nearestInt second := by
  have compared := (denotes_ofInt inFirst).compare (denotes_ofInt inSecond)
  have isEqual : (Float.ofInt first == Float.ofInt second) =
      (compare (nearestInt first) (nearestInt second) == .eq) := by
    change UnpackedFloat.beq _ _ = _
    rw [UnpackedFloat.beq, compared]
    rfl
  rw [isEqual, beq_iff_eq, Int.compare_eq_eq]

end Comparing

end Vetting.Decimal
