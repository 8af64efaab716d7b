/-
What the 128-bit steps of `quantize` compute, as integers.

* `Fixed.scaled`: the number a fixed-point value stands for, in units of its last fractional bit;
* `decompose_magnitude`, `decompose_negative`: `decompose` is its absolute value and its sign;
* `toNat_encode`: `encode` is the number modulo `2 ^ W`, and `scaled_of_emod` reads it back where it
  is in the range of the format;
* `toNat_shiftRight`, `shiftLeft_spec`: moving the binary point, with every bit that is lost.
-/

import Cpptb.Lib.Rounding
import Cpptb.FixedPoint.Quantize

namespace Cpptb.FixedPoint

section Numbers

variable {format : Format}

/-- The number in units of the last fractional bit: two's complement in a signed format. -/
def Fixed.scaled (value : Fixed format) : ℤ :=
  match format.signedness with
  | .unsigned => value.raw.toNat
  | .signed => (value.raw.toNat : ℤ).bmod (2 ^ format.width)

/-- The least number of a format. -/
def Format.lowest (format : Format) : ℤ :=
  match format.signedness with
  | .unsigned => 0
  | .signed => -2 ^ (format.width - 1)

/-- The greatest number of a format. -/
def Format.highest (format : Format) : ℤ :=
  match format.signedness with
  | .unsigned => 2 ^ format.width - 1
  | .signed => 2 ^ (format.width - 1) - 1

/-- The number is in the range of the format. -/
def Format.Represents (format : Format) (n : ℤ) : Prop := format.lowest ≤ n ∧ n ≤ format.highest

instance (format : Format) (n : ℤ) : Decidable (format.Represents n) :=
  inferInstanceAs (Decidable (_ ∧ _))

/-- The range of a width, halved by the sign bit. -/
theorem Format.two_pow_width (format : Format) :
    (2 : ℤ) ^ format.width = 2 * 2 ^ (format.width - 1) := by
  rw [← pow_succ', Nat.sub_add_cancel format.width_pos]

theorem Format.lowest_lt_highest (format : Format) : format.lowest < format.highest := by
  have half : (1 : ℤ) ≤ 2 ^ (format.width - 1) := one_le_pow₀ (by norm_num)
  have whole := format.two_pow_width
  unfold Format.lowest Format.highest
  cases format.signedness with
  | unsigned => show (0 : ℤ) < 2 ^ format.width - 1; omega
  | signed => show -(2 : ℤ) ^ (format.width - 1) < 2 ^ (format.width - 1) - 1; omega

/-- A number of the format's range is read back from its bits. -/
theorem Fixed.scaled_of_emod {value : Fixed format} {n : ℤ} (represents : format.Represents n)
    (bits : (value.raw.toNat : ℤ) = n % 2 ^ format.width) : value.scaled = n := by
  obtain ⟨above, below⟩ := represents
  have whole := format.two_pow_width
  unfold Fixed.scaled
  unfold Format.lowest at above
  unfold Format.highest at below
  cases sign : format.signedness with
  | unsigned =>
    simp only [sign] at above below ⊢
    rw [bits]
    exact Int.emod_eq_of_lt above (by omega)
  | signed =>
    simp only [sign] at above below ⊢
    have cast : ((2 ^ format.width : ℕ) : ℤ) = 2 ^ format.width := by push_cast; rfl
    rw [bits, ← cast, Int.emod_bmod]
    apply Int.bmod_eq_of_le_mul_two
    · rw [cast]; omega
    · rw [cast]; omega

/-- Every number a value stands for is in its format's range. -/
theorem Fixed.represents_scaled (value : Fixed format) : format.Represents value.scaled := by
  have whole := format.two_pow_width
  have bound : (value.raw.toNat : ℤ) < 2 ^ format.width := by exact_mod_cast value.raw.toNat_lt
  unfold Format.Represents Format.lowest Format.highest Fixed.scaled
  cases format.signedness with
  | unsigned => exact ⟨Int.natCast_nonneg _, by simp only; omega⟩
  | signed =>
    have cast : ((2 ^ format.width : ℕ) : ℤ) = 2 ^ format.width := by push_cast; rfl
    have lower := Int.le_bmod (x := (value.raw.toNat : ℤ)) (m := 2 ^ format.width) (by positivity)
    have upper := Int.bmod_lt (x := (value.raw.toNat : ℤ)) (m := 2 ^ format.width) (by positivity)
    rw [cast] at lower upper
    exact ⟨by simp only; omega, by simp only; omega⟩

end Numbers

section Masks

theorem toNat_one_shiftLeft {k : ℕ} (inside : k < 128) : ((1 : UInt128) <<< k).toNat = 2 ^ k := by
  show (BitVec.ofNat 128 1 <<< k).toNat = _
  rw [← BitVec.twoPow_eq, BitVec.toNat_twoPow_of_lt inside]

theorem toNat_lowMask {k : ℕ} (inside : k < 128) :
    ((1 : UInt128) <<< k - 1).toNat = 2 ^ k - 1 := by
  have one : (1 : UInt128) ≤ (1 : UInt128) <<< k := by
    rw [BitVec.le_def, toNat_one_shiftLeft inside]
    exact Nat.one_le_two_pow
  rw [BitVec.toNat_sub_of_le one, toNat_one_shiftLeft inside]
  rfl

theorem toNat_not_zero : (~~~(0 : UInt128)).toNat = 2 ^ 128 - 1 := rfl

theorem toNat_widthMask {width : ℕ} (narrow : width ≤ 128) :
    (widthMask width).toNat = 2 ^ width - 1 := by
  unfold widthMask
  split
  next full => rw [full, toNat_not_zero]
  next partialMask => exact toNat_lowMask (by omega)

theorem toNat_unsignedLimit {width : ℕ} (narrow : width ≤ 128) :
    (unsignedLimit width).toNat = 2 ^ width - 1 := toNat_widthMask narrow

theorem toNat_signedPositiveLimit {width : ℕ} (positive : 0 < width) (narrow : width ≤ 128) :
    (signedPositiveLimit width).toNat = 2 ^ (width - 1) - 1 := toNat_lowMask (by omega)

theorem toNat_signedNegativeLimit {width : ℕ} (positive : 0 < width) (narrow : width ≤ 128) :
    (signedNegativeLimit width).toNat = 2 ^ (width - 1) := toNat_one_shiftLeft (by omega)

/-- The sign bit of a value that is below `2 ^ (k + 1)`. -/
theorem and_one_shiftLeft_ne_zero {raw : UInt128} {k : ℕ} (inside : k < 128)
    (small : raw.toNat < 2 ^ (k + 1)) : raw &&& (1 : UInt128) <<< k ≠ 0 ↔ 2 ^ k ≤ raw.toNat := by
  have bit : raw &&& (1 : UInt128) <<< k = if raw.getLsbD k then BitVec.twoPow 128 k else 0#128 := by
    rw [← BitVec.and_twoPow, BitVec.twoPow_eq]
    rfl
  have nonzero : BitVec.twoPow 128 k ≠ 0#128 := by
    intro zero
    have value := congrArg BitVec.toNat zero
    rw [BitVec.toNat_twoPow_of_lt inside] at value
    exact absurd value (by positivity)
  have test : raw.getLsbD k = decide (2 ^ k ≤ raw.toNat) := by
    rw [BitVec.getLsbD, Nat.testBit_eq_decide_div_mod_eq]
    congr 1
    rw [pow_succ] at small
    have quotient : raw.toNat / 2 ^ k < 2 := Nat.div_lt_of_lt_mul small
    rw [eq_iff_iff, Nat.mod_eq_of_lt quotient]
    constructor
    · intro one
      exact (Nat.one_le_div_iff (by positivity)).mp one.ge
    · intro le
      have := (Nat.one_le_div_iff (by positivity)).mpr le
      omega
  rw [bit, test]
  by_cases le : 2 ^ k ≤ raw.toNat
  · simpa [le] using nonzero
  · simp [le]

end Masks

section Decompose

variable {format : Format}

theorem decompose_unsigned (value : Fixed format) (sign : format.signedness = .unsigned) :
    decompose value = ⟨false, value.raw.toUInt128⟩ := by
  simp only [decompose, sign]

/-- The sign bit decides, and the magnitude of a negative value is its two's complement. -/
theorem decompose_signed (value : Fixed format) (narrow : format.width ≤ 128)
    (sign : format.signedness = .signed) :
    decompose value = if 2 ^ (format.width - 1) ≤ value.raw.toNat then
        ⟨true, (~~~value.raw.toUInt128 + 1) &&& widthMask format.width⟩
      else ⟨false, value.raw.toUInt128⟩ := by
  have positive := format.width_pos
  have raw := Bits.toNat_toUInt128 narrow value.raw
  have small : value.raw.toUInt128.toNat < 2 ^ (format.width - 1 + 1) := by
    rw [raw, Nat.sub_add_cancel positive]
    exact value.raw.toNat_lt
  simp only [decompose, sign, and_one_shiftLeft_ne_zero (by omega) small, raw]

/-- The two's complement of a nonzero value of the width. -/
theorem toNat_complement {width : ℕ} {raw : UInt128} (narrow : width ≤ 128)
    (positive : 0 < raw.toNat) (small : raw.toNat < 2 ^ width) :
    ((~~~raw + 1) &&& widthMask width).toNat = 2 ^ width - raw.toNat := by
  have negate : ~~~raw + 1 = -raw := (BitVec.neg_eq_not_add raw).symm
  have split : 2 ^ 128 = 2 ^ width * 2 ^ (128 - width) := by
    rw [← pow_add, Nat.add_sub_cancel' narrow]
  have least : 1 ≤ 2 ^ (128 - width) := Nat.one_le_two_pow
  have value : (-raw).toNat = 2 ^ 128 - raw.toNat := by
    rw [BitVec.toNat_neg]
    exact Nat.mod_eq_of_lt (by omega)
  have parts : 2 ^ 128 - raw.toNat
      = (2 ^ width - raw.toNat) + 2 ^ width * (2 ^ (128 - width) - 1) := by
    rw [Nat.mul_sub, ← split, mul_one]
    have le : 2 ^ width ≤ 2 ^ 128 := Nat.pow_le_pow_right (by norm_num) narrow
    omega
  rw [negate, BitVec.toNat_and, toNat_widthMask narrow, Nat.and_two_pow_sub_one_eq_mod, value,
    parts, Nat.add_mul_mod_self_left]
  exact Nat.mod_eq_of_lt (by omega)

/-- A signed value from its sign bit. -/
theorem scaled_signed (value : Fixed format) (sign : format.signedness = .signed) :
    value.scaled = if 2 ^ (format.width - 1) ≤ value.raw.toNat then
      (value.raw.toNat : ℤ) - 2 ^ format.width else value.raw.toNat := by
  have whole : 2 ^ format.width = 2 * 2 ^ (format.width - 1) := by
    rw [← pow_succ', Nat.sub_add_cancel format.width_pos]
  have bound := value.raw.toNat_lt
  have same : (value.raw.toNat : ℤ) % ((2 ^ format.width : ℕ) : ℤ) = value.raw.toNat :=
    Int.emod_eq_of_lt (Int.natCast_nonneg _) (by exact_mod_cast bound)
  have half : (2 ^ format.width + 1) / 2 = 2 ^ (format.width - 1) := by omega
  simp only [Fixed.scaled, sign, Int.bmod_def, same]
  split_ifs with below above above
  · omega
  · rfl
  · push_cast; rfl
  · omega

theorem decompose_magnitude (value : Fixed format) (narrow : format.width ≤ 128) :
    (decompose value).magnitude.toNat = value.scaled.natAbs := by
  have raw := Bits.toNat_toUInt128 narrow value.raw
  have bound := value.raw.toNat_lt
  cases sign : format.signedness with
  | unsigned =>
    simp only [decompose_unsigned value sign, Fixed.scaled, sign, raw, Int.natAbs_natCast]
  | signed =>
    have positive : 0 < 2 ^ (format.width - 1) := by positivity
    rw [decompose_signed value narrow sign, scaled_signed value sign]
    split_ifs with negative
    · show ((~~~value.raw.toUInt128 + 1) &&& widthMask format.width).toNat = _
      rw [toNat_complement narrow (by omega) (by rw [raw]; exact bound), raw]
      have cast : (2 : ℤ) ^ format.width = ((2 ^ format.width : ℕ) : ℤ) := by push_cast; rfl
      rw [cast, ← Int.natAbs_neg, neg_sub, ← Nat.cast_sub bound.le, Int.natAbs_natCast]
    · rw [raw, Int.natAbs_natCast]

theorem decompose_negative (value : Fixed format) (narrow : format.width ≤ 128) :
    (decompose value).negative = true ↔ value.scaled < 0 := by
  have bound : (value.raw.toNat : ℤ) < 2 ^ format.width := by exact_mod_cast value.raw.toNat_lt
  cases sign : format.signedness with
  | unsigned =>
    simp only [decompose_unsigned value sign, Fixed.scaled, sign, Bool.false_eq_true, false_iff]
    omega
  | signed =>
    rw [decompose_signed value narrow sign, scaled_signed value sign]
    split_ifs with negative
    · simp only [true_iff]
      omega
    · simp only [false_iff]
      omega

end Decompose

section Encode

/-- The sign put back in front of a magnitude. -/
def SignedMagnitude.toInt (value : SignedMagnitude) : ℤ :=
  if value.negative then -(value.magnitude.toNat : ℤ) else value.magnitude.toNat

/-- The bits of a number of the width are the number modulo `2 ^ W`. -/
theorem toNat_encode (format : Format) (narrow : format.width ≤ 128) (value : SignedMagnitude) :
    ((encode format value.negative value.magnitude).toNat : ℤ)
      = value.toInt % 2 ^ format.width := by
  have divides : (2 : ℤ) ^ format.width ∣ 2 ^ 128 := pow_dvd_pow 2 narrow
  rw [encode, Bits.toNat_fromUInt128, SignedMagnitude.toInt]
  cases value.negative with
  | false => push_cast; rfl
  | true =>
    have negated : ((0 - value.magnitude).toNat : ℤ) = -(value.magnitude.toNat : ℤ) % 2 ^ 128 := by
      have below := value.magnitude.isLt
      rw [zero_sub, BitVec.toNat_neg, Int.natCast_mod, Nat.cast_sub below.le, sub_eq_neg_add]
      push_cast
      exact Int.add_emod_right _ _
    simp only [if_true]
    rw [Int.natCast_mod, negated]
    push_cast
    exact Int.emod_emod_of_dvd _ divides

end Encode

section Shifts

/-- The rounding mode, as a function. -/
def Round.apply (round : Round) (x : ℚ) : ℤ :=
  match round with
  | .truncate => Rounding.truncate x
  | .nearestEven => Rounding.nearestEven x

theorem toNat_quotient (shift : ℕ) (magnitude : UInt128) :
    (if shift = 128 then (0 : UInt128) else magnitude >>> shift).toNat
      = magnitude.toNat / 2 ^ shift := by
  split
  next full => rw [full, Nat.div_eq_of_lt magnitude.isLt]; rfl
  next => rw [BitVec.toNat_ushiftRight, Nat.shiftRight_eq_div_pow]

theorem toNat_remainder {shift : ℕ} (narrow : shift ≤ 128) (magnitude : UInt128) :
    (magnitude &&& if shift = 128 then ~~~(0 : UInt128) else (1 : UInt128) <<< shift - 1).toNat
      = magnitude.toNat % 2 ^ shift := by
  have mask : (if shift = 128 then ~~~(0 : UInt128) else (1 : UInt128) <<< shift - 1).toNat
      = 2 ^ shift - 1 := toNat_widthMask narrow
  rw [BitVec.toNat_and, mask, Nat.and_two_pow_sub_one_eq_mod]

/-- The last bit of a value. -/
theorem and_one_ne_zero (value : UInt128) : value &&& 1 ≠ 0 ↔ value.toNat % 2 ≠ 0 := by
  rw [Ne, ← BitVec.toNat_inj, BitVec.toNat_and]
  show ¬ value.toNat &&& 1 = 0 ↔ _
  rw [Nat.and_one_is_mod]

theorem toNat_roundQuotient (halfway remainder : UInt128) {quotient : UInt128}
    (small : quotient.toNat + 1 < 2 ^ 128) :
    ((roundQuotient .nearestEven halfway quotient remainder).toNat : ℤ) =
      if halfway.toNat < remainder.toNat
          ∨ (remainder.toNat = halfway.toNat ∧ quotient.toNat % 2 ≠ 0) then
        ((quotient.toNat + 1 : ℕ) : ℤ) else (quotient.toNat : ℤ) := by
  simp only [roundQuotient, BitVec.lt_def, ← BitVec.toNat_inj, ← and_one_ne_zero]
  split_ifs with carries
  · rw [BitVec.toNat_add]
    exact congrArg Int.ofNat (Nat.mod_eq_of_lt small)
  · rfl

/-- The rounding of a magnitude that loses its last `shift` bits. A carry stays in 128 bits: at
least one bit has been dropped. -/
theorem toNat_shiftRight (round : Round) (shift : ℕ) (positive : 0 < shift) (narrow : shift ≤ 128)
    (magnitude : UInt128) :
    ((shiftRight round shift magnitude).toNat : ℤ)
      = round.apply ((magnitude.toNat : ℚ) / (2 ^ shift : ℕ)) := by
  have quotient := toNat_quotient shift magnitude
  cases round with
  | truncate =>
    show _ = Rounding.truncate _
    rw [Rounding.truncate_div]
    exact congrArg Int.ofNat quotient
  | nearestEven =>
    have remainder := toNat_remainder narrow magnitude
    have halfway : ((1 : UInt128) <<< (shift - 1)).toNat = 2 ^ (shift - 1) :=
      toNat_one_shiftLeft (by omega)
    have double : 2 ^ shift = 2 * 2 ^ (shift - 1) := by
      rw [← pow_succ', Nat.sub_add_cancel positive]
    have small : magnitude.toNat / 2 ^ shift + 1 < 2 ^ 128 := by
      have half : magnitude.toNat / 2 ^ shift ≤ magnitude.toNat / 2 :=
        Nat.div_le_div_left (by rw [double]; have := Nat.one_le_two_pow (n := shift - 1); omega)
          (by norm_num)
      have := magnitude.isLt
      omega
    show _ = Rounding.nearestEven _
    rw [double, Rounding.nearestEven_div ℚ (by positivity), ← double, ← quotient, ← remainder,
      ← halfway]
    rw [← quotient] at small
    exact toNat_roundQuotient _ _ small

/-- A left shift loses bits exactly where the product does not fit, and keeps it modulo
`2 ^ 128`. -/
theorem shiftLeft_overflow (shift : ℕ) (magnitude : UInt128) :
    (shiftLeft shift magnitude).1 = true ↔ 2 ^ 128 ≤ magnitude.toNat * 2 ^ shift := by
  have nonzero : magnitude ≠ 0 ↔ 0 < magnitude.toNat := by
    rw [Ne, ← BitVec.toNat_inj]
    exact Nat.pos_iff_ne_zero.symm
  have limit : (~~~(0 : UInt128)) >>> shift < magnitude ↔ 2 ^ 128 ≤ magnitude.toNat * 2 ^ shift := by
    rw [BitVec.lt_def, BitVec.toNat_ushiftRight, toNat_not_zero, Nat.shiftRight_eq_div_pow,
      Nat.div_lt_iff_lt_mul (by positivity)]
    omega
  rw [shiftLeft, decide_eq_true_iff, nonzero, limit]
  constructor
  · rintro ⟨positive, wide | large⟩
    · calc 2 ^ 128 ≤ 2 ^ shift := Nat.pow_le_pow_right (by norm_num) wide
        _ ≤ magnitude.toNat * 2 ^ shift := Nat.le_mul_of_pos_left _ positive
    · exact large
  · intro large
    refine ⟨Nat.pos_of_ne_zero ?_, .inr large⟩
    intro zero
    rw [zero, zero_mul] at large
    exact absurd large (by norm_num)

theorem toNat_shiftLeft (shift : ℕ) (magnitude : UInt128) :
    (shiftLeft shift magnitude).2.toNat = magnitude.toNat * 2 ^ shift % 2 ^ 128 := by
  show (if 128 ≤ shift then (0 : UInt128) else magnitude <<< shift).toNat = _
  split
  next wide =>
    have divides : 2 ^ 128 ∣ magnitude.toNat * 2 ^ shift := (pow_dvd_pow 2 wide).mul_left _
    rw [Nat.mod_eq_zero_of_dvd divides]
    rfl
  next => rw [BitVec.toNat_shiftLeft, Nat.shiftLeft_eq]

end Shifts

end Cpptb.FixedPoint
