/-
What `quantize` returns, against exact arithmetic.

The exact value is the source moved to the destination's unit (`Fixed.inUnitOf`), rounded to an
integer (`quantized`). `rescaled_spec` says what the code has of it before it looks at the range: the
magnitude modulo `2 ^ 128`, whether it lost bits, and the sign unless what is left is zero.

* `quantize_exact`: wrapping takes the rounded value modulo `2 ^ W`, and trapping aborts exactly
  where the rounded value is not representable;
* `quantize_saturate_iff`: saturation returns the rounded value clamped to the destination's range,
  except where a negative source is shifted out of the 128 bits completely: its sign is dropped with
  its zero magnitude, and it saturates at the other end.
-/

import Cpptb.FixedPoint.Magnitudes

namespace Cpptb.FixedPoint

open Rounding

variable {format dest : Format}

section Rounded

theorem Round.apply_neg (round : Round) (x : ℚ) : round.apply (-x) = -round.apply x := by
  cases round with
  | truncate => exact truncate_neg x
  | nearestEven => exact nearestEven_neg x

theorem Round.apply_intCast (round : Round) (n : ℤ) : round.apply n = n := by
  cases round with
  | truncate => exact truncate_intCast n
  | nearestEven => exact nearestEven_intCast n

theorem Round.apply_mono (round : Round) : Monotone round.apply := by
  cases round with
  | truncate => exact truncate_mono
  | nearestEven => exact nearestEven_mono

theorem Round.apply_nonneg (round : Round) {x : ℚ} (nonneg : 0 ≤ x) : 0 ≤ round.apply x := by
  have zero : round.apply 0 = 0 := by exact_mod_cast round.apply_intCast 0
  exact zero ▸ round.apply_mono nonneg

/-- The source in units of the destination's last fractional bit. -/
def Fixed.inUnitOf (source : Fixed format) (dest : Format) : ℚ :=
  source.scaled * (2 : ℚ) ^ ((dest.fractionalBits : ℤ) - format.fractionalBits)

/-- The rounded value of the source in the destination's unit. -/
def quantized (dest : Format) (source : Fixed format) (round : Round) : ℤ :=
  round.apply (source.inUnitOf dest)

/-- A magnitude in the destination's unit. -/
def scaleMagnitude (sourceFraction destFraction magnitude : ℕ) : ℚ :=
  magnitude * (2 : ℚ) ^ ((destFraction : ℤ) - sourceFraction)

/-- A magnitude that gains fractional bits is not rounded. -/
theorem apply_scaleMagnitude_of_lt {sourceFraction destFraction magnitude : ℕ} (round : Round)
    (more : sourceFraction < destFraction) :
    round.apply (scaleMagnitude sourceFraction destFraction magnitude)
      = ((magnitude * 2 ^ (destFraction - sourceFraction) : ℕ) : ℤ) := by
  have exponent : (destFraction : ℤ) - sourceFraction
      = ((destFraction - sourceFraction : ℕ) : ℤ) := by omega
  have integer : scaleMagnitude sourceFraction destFraction magnitude
      = ((magnitude * 2 ^ (destFraction - sourceFraction) : ℕ) : ℤ) := by
    rw [scaleMagnitude, exponent, zpow_natCast]
    push_cast
    rfl
  rw [integer, round.apply_intCast]

/-- `rescale` has the rounded magnitude modulo `2 ^ 128`, and knows whether that lost bits. -/
theorem rescale_spec {sourceFraction : ℕ} (destFraction : ℕ) (round : Round)
    (source_le : sourceFraction ≤ 128) (magnitude : UInt128) :
    let rounded := (round.apply (scaleMagnitude sourceFraction destFraction magnitude.toNat)).natAbs
    ((rescale sourceFraction destFraction round magnitude).1 = true ↔ 2 ^ 128 ≤ rounded) ∧
      (rescale sourceFraction destFraction round magnitude).2.toNat = rounded % 2 ^ 128 := by
  intro rounded
  rcases lt_trichotomy destFraction sourceFraction with fewer | rfl | more
  · -- bits are rounded away, and the result is below the magnitude's bound
    have exponent : (destFraction : ℤ) - sourceFraction
        = -((sourceFraction - destFraction : ℕ) : ℤ) := by omega
    have unit : scaleMagnitude sourceFraction destFraction magnitude.toNat
        = (magnitude.toNat : ℚ) / (2 ^ (sourceFraction - destFraction) : ℕ) := by
      rw [scaleMagnitude, exponent, zpow_neg, zpow_natCast, div_eq_mul_inv]
      push_cast
      rfl
    have value := toNat_shiftRight round (sourceFraction - destFraction) (by omega)
      (by omega) magnitude
    have same : (shiftRight round (sourceFraction - destFraction) magnitude).toNat = rounded := by
      rw [← unit] at value
      exact (Int.natAbs_natCast _).symm.trans (congrArg Int.natAbs value)
    have small : rounded < 2 ^ 128 := same ▸ BitVec.isLt _
    rw [rescale, if_pos fewer]
    exact ⟨by simp only [Bool.false_eq_true, false_iff, not_le]; exact small,
      same.trans (Nat.mod_eq_of_lt small).symm⟩
  · have same : rounded = magnitude.toNat := by
      show (round.apply (scaleMagnitude _ _ _)).natAbs = _
      rw [scaleMagnitude, sub_self, zpow_zero, mul_one, ← Int.cast_natCast,
        round.apply_intCast, Int.natAbs_natCast]
    have small : rounded < 2 ^ 128 := same ▸ magnitude.isLt
    rw [rescale, if_neg (lt_irrefl _), if_neg (lt_irrefl _)]
    exact ⟨by simp only [Bool.false_eq_true, false_iff, not_le]; exact small,
      same ▸ (Nat.mod_eq_of_lt small).symm⟩
  · have same : rounded = magnitude.toNat * 2 ^ (destFraction - sourceFraction) := by
      show (round.apply (scaleMagnitude _ _ _)).natAbs = _
      rw [apply_scaleMagnitude_of_lt round more, Int.natAbs_natCast]
    rw [rescale, if_neg (by omega), if_pos more, same]
    exact ⟨shiftLeft_overflow _ _, toNat_shiftLeft _ _⟩

/-- The rounding of a negative source is that of its magnitude, negated. -/
theorem natAbs_quantized (dest : Format) (source : Fixed format) (round : Round) :
    (quantized dest source round).natAbs = (round.apply (scaleMagnitude format.fractionalBits
      dest.fractionalBits source.scaled.natAbs)).natAbs := by
  unfold quantized Fixed.inUnitOf scaleMagnitude
  rw [Nat.cast_natAbs]
  rcases le_total 0 source.scaled with nonneg | nonpos
  · rw [abs_of_nonneg nonneg]
  · rw [abs_of_nonpos nonpos, Int.cast_neg, neg_mul, Round.apply_neg, Int.natAbs_neg]

theorem quantized_nonneg (dest : Format) (round : Round) {source : Fixed format} (nonneg : 0 ≤ source.scaled) :
    0 ≤ quantized dest source round := by
  apply round.apply_nonneg
  have cast : (0 : ℚ) ≤ source.scaled := by exact_mod_cast nonneg
  unfold Fixed.inUnitOf
  positivity

theorem quantized_nonpos (dest : Format) (round : Round) {source : Fixed format} (negative : source.scaled < 0) :
    quantized dest source round ≤ 0 := by
  have opposite : 0 ≤ round.apply (-source.inUnitOf dest) := by
    apply round.apply_nonneg
    have cast : (source.scaled : ℚ) < 0 := by exact_mod_cast negative
    have power : (0 : ℚ) < 2 ^ ((dest.fractionalBits : ℤ) - format.fractionalBits) := by positivity
    unfold Fixed.inUnitOf
    nlinarith
  rw [Round.apply_neg] at opposite
  exact neg_nonneg.mp opposite

end Rounded

section Rescaled

/-- What `quantize` knows of the rounded value before it looks at the range. -/
structure Knows (exact : ℤ) (sourceNegative : Prop) (overflow : Bool) (value : SignedMagnitude) :
    Prop where
  overflow_iff : overflow = true ↔ 2 ^ 128 ≤ exact.natAbs
  magnitude_eq : value.magnitude.toNat = exact.natAbs % 2 ^ 128
  negative_iff : value.negative = true ↔ sourceNegative ∧ value.magnitude.toNat ≠ 0
  negative_nonpos : sourceNegative → exact ≤ 0
  positive_nonneg : ¬ sourceNegative → 0 ≤ exact

theorem rescaled_spec (dest : Format) (source : Fixed format) (round : Round)
    (narrow : format.width ≤ 128) :
    Knows (quantized dest source round) (source.scaled < 0)
      (rescaled dest source round).1 (rescaled dest source round).2 := by
  have fraction : format.fractionalBits ≤ 128 := by
    unfold Format.fractionalBits
    omega
  have spec := rescale_spec dest.fractionalBits round fraction
    (decompose source).magnitude
  rw [decompose_magnitude source narrow, ← natAbs_quantized] at spec
  refine ⟨spec.1, spec.2, ?_, quantized_nonpos dest round, fun nonneg => quantized_nonneg dest round (not_lt.mp nonneg)⟩
  have sign := decompose_negative source narrow
  simp only [rescaled]
  rw [← sign]
  split
  next zero => simp [zero]
  next nonzero =>
    have : (rescale format.fractionalBits dest.fractionalBits round
        (decompose source).magnitude).2.toNat ≠ 0 := by
      intro zero
      exact nonzero (BitVec.eq_of_toNat_eq zero)
    simp [this]

variable {exact : ℤ} {sourceNegative : Prop} {overflow : Bool} {value : SignedMagnitude}

/-- The signed magnitude agrees with the exact value modulo `2 ^ 128`. -/
theorem Knows.toInt_modEq (knows : Knows exact sourceNegative overflow value) :
    value.toInt ≡ exact [ZMOD 2 ^ 128] := by
  have magnitude : (value.magnitude.toNat : ℤ) ≡ exact.natAbs [ZMOD 2 ^ 128] := by
    rw [knows.magnitude_eq]
    push_cast
    exact Int.mod_modEq _ _
  unfold SignedMagnitude.toInt
  split
  next negative =>
    have nonpos := knows.negative_nonpos (knows.negative_iff.mp negative).1
    have opposite : exact = -(exact.natAbs : ℤ) := by omega
    rw [opposite]
    exact (by simpa using magnitude.neg)
  next positive =>
    by_cases sourceSign : sourceNegative
    · -- the sign was dropped, so the magnitude is zero
      have zero : value.magnitude.toNat = 0 := by
        by_contra nonzero
        exact positive (knows.negative_iff.mpr ⟨sourceSign, nonzero⟩)
      have nonpos := knows.negative_nonpos sourceSign
      have opposite : exact = -(exact.natAbs : ℤ) := by omega
      rw [zero] at magnitude ⊢
      rw [opposite]
      simpa using magnitude.neg
    · have nonneg := knows.positive_nonneg sourceSign
      rw [← Int.natAbs_of_nonneg nonneg]
      exact magnitude

/-- Without lost bits the signed magnitude is the exact value. -/
theorem Knows.toInt_eq (knows : Knows exact sourceNegative overflow value)
    (kept : exact.natAbs < 2 ^ 128) : value.toInt = exact := by
  have magnitude : value.magnitude.toNat = exact.natAbs :=
    knows.magnitude_eq.trans (Nat.mod_eq_of_lt kept)
  have negative_iff := knows.negative_iff
  have nonpos := knows.negative_nonpos
  have nonneg := knows.positive_nonneg
  unfold SignedMagnitude.toInt
  by_cases sourceSign : sourceNegative
  · have le := nonpos sourceSign
    split
    next => omega
    next positive =>
      have zero : value.magnitude.toNat = 0 := by
        by_contra nonzero
        exact positive (negative_iff.mpr ⟨sourceSign, nonzero⟩)
      omega
  · have le := nonneg sourceSign
    rw [if_neg (fun negative => sourceSign (negative_iff.mp negative).1)]
    omega

end Rescaled

section Range

theorem natAbs_lt_of_represents {exact : ℤ} (narrow : dest.width ≤ 128)
    (represents : dest.Represents exact) : exact.natAbs < 2 ^ 128 := by
  obtain ⟨above, below⟩ := represents
  have whole := dest.two_pow_width
  have bound : (2 : ℤ) ^ dest.width ≤ 2 ^ 128 := pow_le_pow_right₀ (by norm_num) narrow
  have half : (1 : ℤ) ≤ 2 ^ (dest.width - 1) := one_le_pow₀ (by norm_num)
  unfold Format.lowest at above
  unfold Format.highest at below
  cases sign : dest.signedness <;> simp only [sign] at above below <;> omega

/-- The range test of the code, on the number the signed magnitude stands for. -/
theorem inRange_iff (narrow : dest.width ≤ 128) (value : SignedMagnitude)
    (signed : value.negative = true → value.magnitude.toNat ≠ 0) :
    inRange dest value = true ↔ dest.Represents value.toInt := by
  have positive := dest.width_pos
  have whole := dest.two_pow_width
  have half : (1 : ℤ) ≤ 2 ^ (dest.width - 1) := one_le_pow₀ (by norm_num)
  have nonneg : (0 : ℤ) ≤ value.magnitude.toNat := Int.natCast_nonneg _
  unfold Format.Represents Format.lowest Format.highest inRange SignedMagnitude.toInt
  cases dest.signedness with
  | unsigned =>
    simp only [Bool.and_eq_true, Bool.not_eq_true', decide_eq_true_eq, BitVec.le_def,
      toNat_unsignedLimit narrow]
    cases sign : value.negative with
    | true =>
      have := signed sign
      simp only [if_true, Bool.true_eq_false, false_and, false_iff]
      omega
    | false =>
      simp only [true_and, Bool.false_eq_true, if_false]
      zify [Nat.one_le_two_pow]
      omega
  | signed =>
    simp only [decide_eq_true_eq, BitVec.le_def]
    cases sign : value.negative with
    | true =>
      simp only [if_true, toNat_signedNegativeLimit positive narrow]
      zify
      omega
    | false =>
      simp only [Bool.false_eq_true, if_false, toNat_signedPositiveLimit positive narrow]
      zify [Nat.one_le_two_pow]
      omega

/-- The bound that saturation takes. -/
theorem scaled_saturated (narrow : dest.width ≤ 128) (negative : Bool) :
    (⟨saturated dest negative⟩ : Fixed dest).scaled
      = if negative then dest.lowest else dest.highest := by
  have positive := dest.width_pos
  have proper := dest.lowest_lt_highest
  have representsBound : dest.Represents (if negative then dest.lowest else dest.highest) := by
    unfold Format.Represents
    split <;> omega
  apply Fixed.scaled_of_emod representsBound
  show ((saturated dest negative).toNat : ℤ) = _
  unfold saturated Format.lowest Format.highest
  cases dest.signedness with
  | unsigned =>
    show ((encode dest false (if negative then 0 else unsignedLimit dest.width)).toNat : ℤ) = _
    rw [toNat_encode dest narrow ⟨false, _⟩]
    cases negative with
    | true => rfl
    | false =>
      simp only [SignedMagnitude.toInt, Bool.false_eq_true, if_false, toNat_unsignedLimit narrow]
      rw [Nat.cast_sub Nat.one_le_two_pow]
      push_cast
      rfl
  | signed =>
    show ((encode dest negative _).toNat : ℤ) = _
    rw [toNat_encode dest narrow ⟨negative, _⟩]
    cases negative with
    | true =>
      simp only [SignedMagnitude.toInt, if_true, toNat_signedNegativeLimit positive narrow]
      push_cast
      rfl
    | false =>
      simp only [SignedMagnitude.toInt, Bool.false_eq_true, if_false,
        toNat_signedPositiveLimit positive narrow]
      rw [Nat.cast_sub Nat.one_le_two_pow]
      push_cast
      rfl

end Range

section Results

theorem represents_zero (dest : Format) : dest.Represents 0 := by
  have half : (1 : ℤ) ≤ 2 ^ (dest.width - 1) := one_le_pow₀ (by norm_num)
  have whole := dest.two_pow_width
  unfold Format.Represents Format.lowest Format.highest
  cases dest.signedness with
  | unsigned => exact ⟨le_rfl, by simp only; omega⟩
  | signed => exact ⟨by simp only; omega, by simp only; omega⟩

/-- The code's test is that the rounded value is in the range. -/
theorem representable_iff (round : Round) (source : Fixed format) (source_narrow : format.width ≤ 128)
    (narrow : dest.width ≤ 128) :
    (!(rescaled dest source round).1 && inRange dest (rescaled dest source round).2) = true ↔
      dest.Represents (quantized dest source round) := by
  have knows := rescaled_spec dest source round source_narrow
  by_cases kept : (quantized dest source round).natAbs < 2 ^ 128
  · have exact : (rescaled dest source round).1 = false := by
      rw [← Bool.not_eq_true, knows.overflow_iff, not_le]
      exact kept
    rw [exact, Bool.not_false, Bool.true_and,
      inRange_iff narrow _ fun negative => (knows.negative_iff.mp negative).2, knows.toInt_eq kept]
  · have overflows : (rescaled dest source round).1 = true :=
      knows.overflow_iff.mpr (not_lt.mp kept)
    rw [overflows, Bool.not_true, Bool.false_and]
    simp only [Bool.false_eq_true, false_iff]
    exact fun represents => kept (natAbs_lt_of_represents narrow represents)

/-- The bits without saturation. -/
theorem toNat_encode_rescaled (round : Round) (source : Fixed format)
    (source_narrow : format.width ≤ 128) (narrow : dest.width ≤ 128) :
    ((encode dest (rescaled dest source round).2.negative
        (rescaled dest source round).2.magnitude).toNat : ℤ)
      = quantized dest source round % 2 ^ dest.width := by
  have knows := rescaled_spec dest source round source_narrow
  rw [toNat_encode dest narrow]
  exact knows.toInt_modEq.of_dvd (pow_dvd_pow 2 narrow)

/-- `quantize`, with its test as a proposition. -/
theorem quantize_eq (round : Round) (overflow : Overflow) (source : Fixed format)
    (source_narrow : format.width ≤ 128) (narrow : dest.width ≤ 128) :
    quantize dest source round overflow =
      if dest.Represents (quantized dest source round) ∨ overflow = .wrap then
        some ⟨encode dest (rescaled dest source round).2.negative
          (rescaled dest source round).2.magnitude⟩
      else if overflow = .trap then none
      else some ⟨saturated dest (rescaled dest source round).2.negative⟩ := by
  simp only [← representable_iff round source source_narrow narrow]
  rfl

/-- **Without saturation `quantize` is exact.** Wrapping returns the rounded value modulo `2 ^ W`;
trapping aborts where the rounded value is not representable, and returns it everywhere else. -/
theorem quantize_exact (source : Fixed format) (round : Round) (source_narrow : format.width ≤ 128)
    (narrow : dest.width ≤ 128) :
    (∃ result, quantize dest source round .wrap = some result ∧
      (result.raw.toNat : ℤ) = quantized dest source round % 2 ^ dest.width) ∧
    (quantize dest source round .trap = none ↔ ¬ dest.Represents (quantized dest source round)) ∧
    (∀ result, quantize dest source round .trap = some result →
      result.scaled = quantized dest source round) := by
  have bits := toNat_encode_rescaled round source source_narrow narrow
  have wraps := quantize_eq round .wrap source source_narrow narrow
  have traps := quantize_eq round .trap source source_narrow narrow
  rw [if_pos (.inr rfl)] at wraps
  simp only [reduceCtorEq, or_false, if_true] at traps
  refine ⟨⟨_, wraps, bits⟩, ?_, ?_⟩
  · rw [traps]
    split <;> simp_all
  · intro result returned
    rw [traps] at returned
    split at returned
    next represents =>
      obtain rfl := Option.some.inj returned
      exact Fixed.scaled_of_emod represents bits
    next => cases returned

theorem byte_pos : 0 < 8 := by decide

theorem wholeByte_le : 8 ≤ 8 := by decide

theorem halvesByte_le : 7 ≤ 8 := by decide

/-- `Fixed<8, 8, Signed>`. -/
def wholeByte : Format := ⟨8, 8, .signed, byte_pos, wholeByte_le⟩

/-- `Fixed<8, 7, Signed>`. -/
def halvesByte : Format := ⟨8, 7, .signed, byte_pos, halvesByte_le⟩

theorem quantize_exact_byte :
    (∃ result, quantize halvesByte (Fixed.fromRaw wholeByte 0x85) .nearestEven .wrap = some result ∧
      (result.raw.toNat : ℤ)
        = quantized halvesByte (Fixed.fromRaw wholeByte 0x85) .nearestEven % 2 ^ 8) ∧
    (quantize halvesByte (Fixed.fromRaw wholeByte 0x85) .nearestEven .trap = none ↔
      ¬ halvesByte.Represents (quantized halvesByte (Fixed.fromRaw wholeByte 0x85) .nearestEven)) ∧
    (∀ result, quantize halvesByte (Fixed.fromRaw wholeByte 0x85) .nearestEven .trap = some result →
      result.scaled = quantized halvesByte (Fixed.fromRaw wholeByte 0x85) .nearestEven) :=
  quantize_exact (Fixed.fromRaw wholeByte 0x85) .nearestEven (by decide) (by decide)

/-- The source is negative, and all its bits are shifted out of the 128 bits. -/
def Fixed.ShiftedOut (source : Fixed format) (dest : Format) : Prop :=
  source.scaled < 0 ∧ format.fractionalBits < dest.fractionalBits ∧
    2 ^ 128 ∣ source.scaled.natAbs * 2 ^ (dest.fractionalBits - format.fractionalBits)

/-- Where the destination has more fractional bits nothing is rounded. -/
theorem natAbs_quantized_of_lt {source : Fixed format} (round : Round)
    (more : format.fractionalBits < dest.fractionalBits) :
    (quantized dest source round).natAbs
      = source.scaled.natAbs * 2 ^ (dest.fractionalBits - format.fractionalBits) := by
  rw [natAbs_quantized, apply_scaleMagnitude_of_lt round more, Int.natAbs_natCast]

/-- Where the destination has no more fractional bits the rounded value is within the source's
bits. -/
theorem natAbs_quantized_lt {source : Fixed format} (round : Round)
    (source_narrow : format.width ≤ 128) (fewer : dest.fractionalBits ≤ format.fractionalBits) :
    (quantized dest source round).natAbs < 2 ^ 128 := by
  have knows := rescaled_spec dest source round source_narrow
  rw [← not_le, ← knows.overflow_iff]
  simp only [rescaled, rescale]
  rw [Bool.not_eq_true]
  split
  · rfl
  · rw [if_neg (by omega)]

/-- Outside the range the sign bit is dropped exactly where the bits are shifted out. -/
theorem negative_of_not_represents {source : Fixed format} (round : Round)
    (source_narrow : format.width ≤ 128) (narrow : dest.width ≤ 128)
    (outside : ¬ dest.Represents (quantized dest source round)) :
    (rescaled dest source round).2.negative = true ↔
      source.scaled < 0 ∧ ¬ source.ShiftedOut dest := by
  have knows := rescaled_spec dest source round source_narrow
  rw [knows.negative_iff, knows.magnitude_eq]
  refine and_congr_right fun negative => not_congr ?_
  rw [← Nat.dvd_iff_mod_eq_zero]
  constructor
  · intro divides
    -- the rounded value is not zero, so it has lost bits, so the source was shifted left
    have nonzero : (quantized dest source round).natAbs ≠ 0 := by
      intro zero
      apply outside
      rw [Int.natAbs_eq_zero.mp zero]
      exact represents_zero dest
    have large := Nat.le_of_dvd (Nat.pos_of_ne_zero nonzero) divides
    have more : format.fractionalBits < dest.fractionalBits := by
      by_contra fewer
      exact absurd (natAbs_quantized_lt round source_narrow (not_lt.mp fewer)) (not_lt.mpr large)
    exact ⟨negative, more, natAbs_quantized_of_lt round more ▸ divides⟩
  · rintro ⟨-, more, divides⟩
    rw [natAbs_quantized_of_lt round more]
    exact divides

/-- A source whose bits are shifted out is below every destination's range. -/
theorem Fixed.ShiftedOut.outside {source : Fixed format} (round : Round)
    (narrow : dest.width ≤ 128) (shiftedOut : source.ShiftedOut dest) :
    ¬ dest.Represents (quantized dest source round) := by
  obtain ⟨negative, more, divides⟩ := shiftedOut
  intro represents
  have small := natAbs_lt_of_represents narrow represents
  rw [natAbs_quantized_of_lt round more] at small
  have nonzero : 0 < source.scaled.natAbs := Int.natAbs_pos.mpr negative.ne
  have large := Nat.le_of_dvd (by positivity) divides
  omega

/-- A value outside the range clamps to the end on its side. -/
theorem clamp_of_not_represents {exact : ℤ} (outside : ¬ dest.Represents exact) :
    clamp dest.lowest dest.highest exact = if exact < 0 then dest.lowest else dest.highest := by
  have proper := dest.lowest_lt_highest
  obtain ⟨low, high⟩ := represents_zero dest
  unfold Format.Represents at outside
  split
  · exact clamp_of_lt (by omega)
  · exact clamp_of_gt proper.le (by omega)

/-- What saturation returns. -/
theorem quantize_saturate (round : Round) (source : Fixed format)
    (source_narrow : format.width ≤ 128) (narrow : dest.width ≤ 128) :
    ∃ result, quantize dest source round .saturate = some result ∧
      (source.ShiftedOut dest → result.scaled = dest.highest) ∧
      (¬ source.ShiftedOut dest →
        result.scaled = clamp dest.lowest dest.highest (quantized dest source round)) := by
  have saturates := quantize_eq round .saturate source source_narrow narrow
  simp only [reduceCtorEq, or_false, if_false] at saturates
  by_cases represents : dest.Represents (quantized dest source round)
  · rw [if_pos represents] at saturates
    have bits := toNat_encode_rescaled round source source_narrow narrow
    refine ⟨_, saturates, fun shiftedOut => absurd represents (shiftedOut.outside round narrow),
      fun _ => ?_⟩
    rw [clamp_of_mem represents.1 represents.2]
    exact Fixed.scaled_of_emod represents bits
  · rw [if_neg represents] at saturates
    have negative := negative_of_not_represents round source_narrow narrow represents
    refine ⟨_, saturates, fun shiftedOut => ?_, fun kept => ?_⟩
    · rw [scaled_saturated narrow, if_neg (fun sign => (negative.mp sign).2 shiftedOut)]
    · rw [scaled_saturated narrow, clamp_of_not_represents represents]
      have sign : (rescaled dest source round).2.negative = true ↔
          quantized dest source round < 0 := by
        rw [negative]
        constructor
        · rintro ⟨below, -⟩
          have nonpos := quantized_nonpos dest round below
          have nonzero : quantized dest source round ≠ 0 := by
            intro zero
            exact represents (zero ▸ represents_zero dest)
          omega
        · intro below
          refine ⟨?_, kept⟩
          by_contra nonneg
          have := quantized_nonneg dest round (not_lt.mp nonneg)
          omega
      simp only [sign]

theorem quantized_mono (round : Round) {lower upper : Fixed format}
    (le : lower.scaled ≤ upper.scaled) : quantized dest lower round ≤ quantized dest upper round := by
  apply round.apply_mono
  have cast : (lower.scaled : ℚ) ≤ upper.scaled := by exact_mod_cast le
  unfold Fixed.inUnitOf
  gcongr

/-- A source that is shifted out saturates at the wrong end. -/
theorem Fixed.ShiftedOut.not_clamped {source : Fixed format} (round : Round)
    (source_narrow : format.width ≤ 128) (narrow : dest.width ≤ 128)
    (shiftedOut : source.ShiftedOut dest) :
    ¬ ∃ result, quantize dest source round .saturate = some result ∧
      result.scaled = clamp dest.lowest dest.highest (quantized dest source round) := by
  obtain ⟨saturated, returned, out, -⟩ := quantize_saturate round source source_narrow narrow
  rintro ⟨result, same, clamped⟩
  obtain rfl := Option.some.inj (returned.symm.trans same)
  have outside := shiftedOut.outside round narrow
  have nonpos := quantized_nonpos dest round shiftedOut.1
  have proper := dest.lowest_lt_highest
  obtain ⟨low, high⟩ := represents_zero dest
  rw [out shiftedOut, clamp_of_lt] at clamped
  · omega
  · unfold Format.Represents at outside
    omega

/-- **Saturation clamps the rounded value**, and is monotone, for exactly the sources that are not
shifted out. -/
theorem quantize_saturates_iff (round : Round) (source_narrow : format.width ≤ 128)
    (narrow : dest.width ≤ 128) :
    (∀ source : Fixed format,
      (∃ result, quantize dest source round .saturate = some result ∧
        result.scaled = clamp dest.lowest dest.highest (quantized dest source round)) ↔
      ¬ source.ShiftedOut dest) ∧
    (∀ lower upper : Fixed format, ¬ lower.ShiftedOut dest → ¬ upper.ShiftedOut dest →
      lower.scaled ≤ upper.scaled →
      ∃ low high, quantize dest lower round .saturate = some low ∧
        quantize dest upper round .saturate = some high ∧ low.scaled ≤ high.scaled) := by
  constructor
  · intro source
    obtain ⟨saturated, returned, -, kept⟩ := quantize_saturate round source source_narrow narrow
    exact ⟨fun clamped shiftedOut => shiftedOut.not_clamped round source_narrow narrow clamped,
      fun notOut => ⟨saturated, returned, kept notOut⟩⟩
  · intro lower upper lowerKept upperKept le
    obtain ⟨low, lowReturned, -, low_eq⟩ := quantize_saturate round lower source_narrow narrow
    obtain ⟨high, highReturned, -, high_eq⟩ := quantize_saturate round upper source_narrow narrow
    refine ⟨low, high, lowReturned, highReturned, ?_⟩
    rw [low_eq lowerKept, high_eq upperKept]
    exact clamp_mono _ _ (quantized_mono round le)

/-- `Fixed<64, 64, Signed>`. -/
def wholeWord : Format := ⟨64, 64, .signed, by decide, by decide⟩

/-- `Fixed<128, 63, Signed>`: 65 fractional bits. -/
def wideFraction : Format := ⟨128, 63, .signed, by decide, by decide⟩

theorem quantize_saturates_wholeWord :
    (∀ source : Fixed wholeWord,
      (∃ result, quantize wideFraction source .truncate .saturate = some result ∧
        result.scaled = clamp wideFraction.lowest wideFraction.highest
          (quantized wideFraction source .truncate)) ↔
      ¬ source.ShiftedOut wideFraction) ∧
    (∀ lower upper : Fixed wholeWord, ¬ lower.ShiftedOut wideFraction →
      ¬ upper.ShiftedOut wideFraction → lower.scaled ≤ upper.scaled →
      ∃ low high, quantize wideFraction lower .truncate .saturate = some low ∧
        quantize wideFraction upper .truncate .saturate = some high ∧ low.scaled ≤ high.scaled) :=
  quantize_saturates_iff .truncate (by decide) (by decide)

/-- The least 64-bit integer has the magnitude `2 ^ 63`, which 65 more fractional bits move out of
the 128 bits: it saturates at the greatest value of the destination. -/
theorem least_word_saturates_high :
    (Fixed.fromRaw wholeWord (2 ^ 63)).scaled = -2 ^ 63 ∧
    (quantize wideFraction (Fixed.fromRaw wholeWord (2 ^ 63)) .truncate .saturate).map Fixed.scaled
      = some (2 ^ 127 - 1) ∧
    ¬ ∃ result, quantize wideFraction (Fixed.fromRaw wholeWord (2 ^ 63)) .truncate .saturate
        = some result ∧
      result.scaled = clamp wideFraction.lowest wideFraction.highest
        (quantized wideFraction (Fixed.fromRaw wholeWord (2 ^ 63)) .truncate) := by
  have scaled : (Fixed.fromRaw wholeWord (2 ^ 63)).scaled = -2 ^ 63 := by decide +kernel
  have shiftedOut : (Fixed.fromRaw wholeWord (2 ^ 63)).ShiftedOut wideFraction := by
    unfold Fixed.ShiftedOut
    rw [scaled]
    decide +kernel
  exact ⟨scaled, by decide +kernel, shiftedOut.not_clamped .truncate (by decide) (by decide)⟩

end Results

end Cpptb.FixedPoint
