/-
Values without rounding: `from_ratio` and `mul_full`.

* `from_ratio` cancels the greatest common divisor (`gcd_spec`) and takes the twos out of what is left of
  the denominator (`stripTwos_spec`). `dvd_scaled_iff`: nothing else is left exactly when the ratio is a
  number in units of the last fractional bit.
* `from_ratio_exact`: `from_ratio` gives a value exactly when the ratio is a number of the format, and
  then the value is the ratio.
* `mul_full_exact`: the product of two values fits the format of `mul_full` and is exact.
-/

import Cpptb.FixedPoint.Quantized

namespace Cpptb.FixedPoint

/-- The rational number a value stands for. -/
def Fixed.toRat {format : Format} (value : Fixed format) : ℚ := value.scaled / 2 ^ format.fractionalBits

/-! ### `from_ratio` -/

section Ratio

/-- `magnitude`. -/
def magnitude (value : Int64) : UInt64 := if 0 ≤ value then value.toUInt64 else (-(value + 1)).toUInt64 + 1

/-- `gcd`. -/
def gcd (left right : UInt64) : UInt64 :=
  if right ≠ 0 then gcd right (left % right) else left
termination_by right.toNat
decreasing_by
  rename_i nonzero
  have positive : 0 < right.toNat := Nat.pos_of_ne_zero fun zero => nonzero (UInt64.toNat_inj.mp zero)
  rw [UInt64.toNat_mod]
  exact Nat.mod_lt _ positive

theorem and_one_eq_zero (value : UInt64) : value &&& 1 = 0 ↔ value.toNat % 2 = 0 := by
  rw [← UInt64.toNat_inj, UInt64.toNat_and, UInt64.toNat_one, Nat.and_one_is_mod, UInt64.toNat_zero]

theorem toNat_shiftRight_one (value : UInt64) : (value >>> 1).toNat = value.toNat / 2 := by
  rw [UInt64.toNat_shiftRight, UInt64.toNat_one, Nat.shiftRight_eq_div_pow]

theorem toNat_pos {value : UInt64} (nonzero : value ≠ 0) : 0 < value.toNat :=
  Nat.pos_of_ne_zero fun zero => nonzero (UInt64.toNat_inj.mp zero)

theorem shiftRight_one_ne_zero {value : UInt64} (nonzero : value ≠ 0) (even : value &&& 1 = 0) :
    value >>> 1 ≠ 0 := by
  intro zero
  have half := toNat_shiftRight_one value
  have twice := (and_one_eq_zero value).mp even
  have positive := toNat_pos nonzero
  rw [zero, UInt64.toNat_zero] at half
  omega

/-- The loop over the twos of a denominator that is not zero: what is left of it, and their number. -/
def stripTwos (denominator : UInt64) (nonzero : denominator ≠ 0) (power : ℕ) : UInt64 × ℕ :=
  if even : denominator &&& 1 = 0 then
    stripTwos (denominator >>> 1) (shiftRight_one_ne_zero nonzero even) (power + 1)
  else (denominator, power)
termination_by denominator.toNat
decreasing_by
  have positive := toNat_pos nonzero
  rw [toNat_shiftRight_one]
  omega

theorem magnitude_spec (value : Int64) : (magnitude value).toNat = value.toInt.natAbs := by
  have split : value.toInt = if 2 * value.toUInt64.toNat < 2 ^ 64 then (value.toUInt64.toNat : ℤ)
      else (value.toUInt64.toNat : ℤ) - (2 ^ 64 : ℕ) := BitVec.toInt_eq_toNat_cond value.toBitVec
  have below := value.toUInt64.toNat_lt
  have size : UInt64.size = 2 ^ 64 := rfl
  unfold magnitude
  by_cases nonneg : 0 ≤ value
  · have sign := Int64.le_iff_toInt_le.mp nonneg
    rw [if_pos nonneg]
    rw [Int64.toInt_zero] at sign
    split_ifs at split
    · omega
    · omega
  · have sign : ¬ 0 ≤ value.toInt := fun le => nonneg (Int64.le_iff_toInt_le.mpr le)
    have negated : (-(value + 1)).toUInt64 + 1 = -value.toUInt64 := by
      rw [Int64.toUInt64_neg, Int64.toUInt64_add]
      show -(value.toUInt64 + 1) + 1 = _
      rw [UInt64.neg_add, UInt64.sub_add_cancel]
    rw [if_neg nonneg, negated, UInt64.toNat_neg, size]
    split_ifs at split
    · omega
    · rw [Nat.mod_eq_of_lt]
      · omega
      · omega

theorem gcd_spec (left right : UInt64) : (gcd left right).toNat = Nat.gcd left.toNat right.toNat := by
  fun_induction gcd left right with
  | case1 left right nonzero ih => rw [ih, UInt64.toNat_mod, Nat.gcd_comm, ← Nat.gcd_rec, Nat.gcd_comm]
  | case2 left right zero =>
    rw [not_not.mp zero]
    exact (Nat.gcd_zero_right _).symm

/-- What is left is odd, and the twos have been counted. -/
theorem stripTwos_spec (denominator : UInt64) (nonzero : denominator ≠ 0) (power : ℕ) :
    power ≤ (stripTwos denominator nonzero power).2 ∧
      (stripTwos denominator nonzero power).1.toNat % 2 = 1 ∧
      denominator.toNat * 2 ^ power =
        (stripTwos denominator nonzero power).1.toNat * 2 ^ (stripTwos denominator nonzero power).2 := by
  fun_induction stripTwos denominator nonzero power with
  | case1 denominator nonzero power even ih =>
    obtain ⟨more, odd, product⟩ := ih
    refine ⟨(Nat.le_succ power).trans more, odd, ?_⟩
    have twice := (and_one_eq_zero denominator).mp even
    rw [← product, toNat_shiftRight_one, pow_succ']
    have half : denominator.toNat = denominator.toNat / 2 * 2 := by omega
    nth_rewrite 1 [half]
    ring
  | case2 denominator nonzero power odd =>
    refine ⟨le_rfl, ?_, rfl⟩
    rw [and_one_eq_zero] at odd
    exact Nat.mod_two_ne_zero.mp odd

theorem div_gcd_ne_zero (numerator : UInt64) {denominator : UInt64} (nonzero : denominator ≠ 0) :
    denominator / gcd numerator denominator ≠ 0 := by
  intro zero
  have quotient := congrArg UInt64.toNat zero
  rw [UInt64.toNat_div, gcd_spec, UInt64.toNat_zero] at quotient
  have le := Nat.gcd_le_right numerator.toNat (toNat_pos nonzero)
  have positive := Nat.gcd_pos_of_pos_right numerator.toNat (toNat_pos nonzero)
  exact absurd quotient (Nat.div_pos le positive).ne'

/-- `from_ratio` up to the shift: the numerator in lowest terms, and what `stripTwos` makes of the
denominator. -/
def reduceRatio (numerator : Int64) (denominator : UInt64) (nonzero : denominator ≠ 0) :
    UInt64 × UInt64 × ℕ :=
  let numeratorMagnitude := magnitude numerator
  let divisor := gcd numeratorMagnitude denominator
  (numeratorMagnitude / divisor,
    stripTwos (denominator / divisor) (div_gcd_ne_zero numeratorMagnitude nonzero) 0)

/-- `from_ratio`. -/
def Fixed.fromRatio (format : Format) (numerator : Int64) (denominator : UInt64) :
    Except String (Fixed format) :=
  if zero : denominator = 0 then .error "zero denominator"
  else
    let (numeratorMagnitude, rest, denominatorPower) := reduceRatio numerator denominator zero
    if rest ≠ 1 ∨ format.fractionalBits < denominatorPower then
      .error "ratio has no exact representation"
    else
      let scaled := shiftLeft (format.fractionalBits - denominatorPower)
        (BitVec.ofNat 128 numeratorMagnitude.toNat)
      if scaled.1 then .error "ratio is outside the supported range"
      else
        let value : SignedMagnitude :=
          ⟨if scaled.2 = 0 then false else decide (numerator < 0), scaled.2⟩
        if !inRange format value then .error "ratio is not representable"
        else .ok ⟨encode format value.negative value.magnitude⟩

/-- A fraction in lowest terms times a power of two is an integer exactly when its denominator is no
larger a power of two. -/
theorem dvd_scaled_iff {numerator denominator odd power : ℕ} (positive : 0 < denominator)
    (oddRest : odd % 2 = 1)
    (split : denominator / Nat.gcd numerator denominator = odd * 2 ^ power) (fraction : ℕ) :
    denominator ∣ numerator * 2 ^ fraction ↔ odd = 1 ∧ power ≤ fraction := by
  have common := Nat.gcd_pos_of_pos_right numerator positive
  have coprime := Nat.coprime_div_gcd_div_gcd common
  have left := Nat.div_mul_cancel (Nat.gcd_dvd_left numerator denominator)
  have right := Nat.div_mul_cancel (Nat.gcd_dvd_right numerator denominator)
  have lowest :=
    calc denominator ∣ numerator * 2 ^ fraction
        ↔ denominator / Nat.gcd numerator denominator * Nat.gcd numerator denominator ∣
            numerator / Nat.gcd numerator denominator * 2 ^ fraction * Nat.gcd numerator denominator := by
          rw [right, mul_right_comm, left]
      _ ↔ denominator / Nat.gcd numerator denominator ∣
            numerator / Nat.gcd numerator denominator * 2 ^ fraction := Nat.mul_dvd_mul_iff_right common
      _ ↔ denominator / Nat.gcd numerator denominator ∣ 2 ^ fraction := coprime.symm.dvd_mul_left
      _ ↔ odd * 2 ^ power ∣ 2 ^ fraction := by rw [split]
  rw [lowest]
  constructor
  · intro divides
    have oddDivides : odd ∣ 2 ^ fraction := (Nat.dvd_mul_right _ _).trans divides
    have oddCoprime : Nat.Coprime odd (2 ^ fraction) :=
      Nat.Coprime.pow_right _ (Nat.odd_iff.mpr oddRest).coprime_two_right
    have one : odd = 1 := Nat.eq_one_of_dvd_coprimes oddCoprime (dvd_refl odd) oddDivides
    rw [one, one_mul] at divides
    exact ⟨one, (Nat.pow_dvd_pow_iff_le_right (by norm_num)).mp divides⟩
  · rintro ⟨rfl, le⟩
    rw [one_mul]
    exact pow_dvd_pow 2 le

/-- The quotient of a fraction in lowest terms times a power of two. -/
theorem scaled_div {numerator denominator power fraction : ℕ} (positive : 0 < denominator)
    (split : denominator / Nat.gcd numerator denominator = 2 ^ power) (le : power ≤ fraction) :
    numerator * 2 ^ fraction / denominator =
      numerator / Nat.gcd numerator denominator * 2 ^ (fraction - power) := by
  have left := Nat.div_mul_cancel (Nat.gcd_dvd_left numerator denominator)
  have right := Nat.div_mul_cancel (Nat.gcd_dvd_right numerator denominator)
  rw [split] at right
  refine Nat.div_eq_of_eq_mul_left positive ?_
  calc numerator * 2 ^ fraction
      = numerator / Nat.gcd numerator denominator * Nat.gcd numerator denominator *
          (2 ^ (fraction - power) * 2 ^ power) := by
        rw [left, ← pow_add, Nat.sub_add_cancel le]
    _ = numerator / Nat.gcd numerator denominator * 2 ^ (fraction - power) *
          (2 ^ power * Nat.gcd numerator denominator) := by ring
    _ = numerator / Nat.gcd numerator denominator * 2 ^ (fraction - power) * denominator := by rw [right]

variable {format : Format} {numerator : Int64} {denominator : UInt64}

/-- What `from_ratio` knows before the shift. -/
theorem reduceRatio_spec (nonzero : denominator ≠ 0) :
    let reduced := reduceRatio numerator denominator nonzero
    (denominator.toNat ∣ numerator.toInt.natAbs * 2 ^ format.fractionalBits ↔
        reduced.2.1 = 1 ∧ reduced.2.2 ≤ format.fractionalBits) ∧
      (reduced.2.1 = 1 → reduced.2.2 ≤ format.fractionalBits →
        reduced.1.toNat * 2 ^ (format.fractionalBits - reduced.2.2) =
          numerator.toInt.natAbs * 2 ^ format.fractionalBits / denominator.toNat) := by
  intro reduced
  have positive := toNat_pos nonzero
  have quotient : (denominator / gcd (magnitude numerator) denominator).toNat =
      denominator.toNat / Nat.gcd numerator.toInt.natAbs denominator.toNat := by
    rw [UInt64.toNat_div, gcd_spec, magnitude_spec]
  obtain ⟨-, odd, product⟩ :=
    stripTwos_spec _ (div_gcd_ne_zero (magnitude numerator) nonzero) 0
  rw [pow_zero, mul_one, quotient] at product
  have one : reduced.2.1 = 1 ↔ reduced.2.1.toNat = 1 := by
    rw [← UInt64.toNat_inj, UInt64.toNat_one]
  refine ⟨?_, fun isOne le => ?_⟩
  · rw [one]
    exact dvd_scaled_iff positive odd product format.fractionalBits
  · have split : denominator.toNat / Nat.gcd numerator.toInt.natAbs denominator.toNat = 2 ^ reduced.2.2 := by
      calc denominator.toNat / Nat.gcd numerator.toInt.natAbs denominator.toNat
          = reduced.2.1.toNat * 2 ^ reduced.2.2 := product
        _ = 2 ^ reduced.2.2 := by rw [one.mp isOne, one_mul]
    have top : reduced.1.toNat =
        numerator.toInt.natAbs / Nat.gcd numerator.toInt.natAbs denominator.toNat := by
      show (magnitude numerator / gcd (magnitude numerator) denominator).toNat = _
      rw [UInt64.toNat_div, gcd_spec, magnitude_spec]
    rw [scaled_div positive split le, top]

/-- The quotient with the sign of the numerator. -/
theorem signed_div {n : ℤ} {d fraction : ℕ} (divides : d ∣ n.natAbs * 2 ^ fraction) :
    n * 2 ^ fraction / d =
      if n < 0 then -((n.natAbs * 2 ^ fraction / d : ℕ) : ℤ) else (n.natAbs * 2 ^ fraction / d : ℕ) := by
  have cast : ((n.natAbs * 2 ^ fraction / d : ℕ) : ℤ) = (n.natAbs : ℤ) * 2 ^ fraction / d := by push_cast; rfl
  have castDivides : (d : ℤ) ∣ (n.natAbs : ℤ) * 2 ^ fraction := by exact_mod_cast divides
  rw [cast]
  split_ifs with negative
  · rw [← Int.neg_ediv_of_dvd castDivides, Int.ofNat_natAbs_of_nonpos negative.le, neg_mul, neg_neg]
  · rw [Int.natAbs_of_nonneg (not_lt.mp negative)]

end Ratio

/-- **`from_ratio` is exact or refuses.** It gives a value exactly when the ratio in units of the last
fractional bit is an integer in the range of the format; the value is then the ratio, and the 128-bit
magnitude before the sign is put on has lost nothing. -/
theorem from_ratio_exact (format : Format) (narrow : format.width ≤ 128) (numerator : Int64)
    (denominator : UInt64) (nonzero : denominator ≠ 0) :
    ((∃ value, Fixed.fromRatio format numerator denominator = .ok value) ↔
        (denominator.toNat : ℤ) ∣ numerator.toInt * 2 ^ format.fractionalBits ∧
          format.Represents (numerator.toInt * 2 ^ format.fractionalBits / denominator.toNat)) ∧
      ∀ value, Fixed.fromRatio format numerator denominator = .ok value →
        value.toRat = numerator.toInt / denominator.toNat ∧
          (shiftLeft (format.fractionalBits - (reduceRatio numerator denominator nonzero).2.2)
              (BitVec.ofNat 128 (reduceRatio numerator denominator nonzero).1.toNat)).2.toNat =
            numerator.toInt.natAbs * 2 ^ format.fractionalBits / denominator.toNat := by
  obtain ⟨divides_iff, exact⟩ := @reduceRatio_spec format numerator denominator nonzero
  set reduced := reduceRatio numerator denominator nonzero with isReduced
  set scaled := shiftLeft (format.fractionalBits - reduced.2.2) (BitVec.ofNat 128 reduced.1.toNat)
    with isScaled
  have integer : (denominator.toNat : ℤ) ∣ numerator.toInt * 2 ^ format.fractionalBits ↔
      denominator.toNat ∣ numerator.toInt.natAbs * 2 ^ format.fractionalBits := by
    rw [Int.natCast_dvd, Int.natAbs_mul, Int.natAbs_pow]
    rfl
  have run : Fixed.fromRatio format numerator denominator =
      if reduced.2.1 ≠ 1 ∨ format.fractionalBits < reduced.2.2 then
        .error "ratio has no exact representation"
      else if scaled.1 = true then .error "ratio is outside the supported range"
      else if !inRange format ⟨if scaled.2 = 0 then false else decide (numerator < 0), scaled.2⟩ then
        .error "ratio is not representable"
      else .ok ⟨encode format (if scaled.2 = 0 then false else decide (numerator < 0)) scaled.2⟩ := by
    unfold Fixed.fromRatio
    rw [dif_neg nonzero]
  by_cases lowest : reduced.2.1 = 1 ∧ reduced.2.2 ≤ format.fractionalBits
  · have divides := divides_iff.mpr lowest
    have product := exact lowest.1 lowest.2
    have small : (BitVec.ofNat 128 reduced.1.toNat).toNat = reduced.1.toNat := by
      have below := reduced.1.toNat_lt
      exact Nat.mod_eq_of_lt (by omega)
    have overflow := shiftLeft_overflow (format.fractionalBits - reduced.2.2)
      (BitVec.ofNat 128 reduced.1.toNat)
    have shifted := toNat_shiftLeft (format.fractionalBits - reduced.2.2)
      (BitVec.ofNat 128 reduced.1.toNat)
    rw [small, product, ← isScaled] at overflow shifted
    have negative : decide (numerator < 0) = decide (numerator.toInt < 0) :=
      decide_eq_decide.mpr Int64.lt_iff_toInt_lt
    have signed := signed_div divides
    rw [run, if_neg (by rw [not_or, not_not, not_lt]; exact lowest)]
    by_cases kept : scaled.1 = true
    · rw [if_pos kept]
      refine ⟨iff_of_false (fun returns => ?_) fun fits => ?_, fun _ returns => ?_⟩
      · obtain ⟨_, returns⟩ := returns
        cases returns
      · have inside := natAbs_lt_of_represents narrow fits.2
        rw [signed] at inside
        have outside := overflow.mp kept
        split_ifs at inside
        · rw [Int.natAbs_neg, Int.natAbs_natCast] at inside
          omega
        · rw [Int.natAbs_natCast] at inside
          omega
      · cases returns
    · have whole : scaled.2.toNat =
          numerator.toInt.natAbs * 2 ^ format.fractionalBits / denominator.toNat :=
        shifted.trans (Nat.mod_eq_of_lt (Nat.lt_of_not_le fun large => kept (overflow.mpr large)))
      have zero : scaled.2 = 0 ↔ scaled.2.toNat = 0 := by
        rw [← BitVec.toNat_inj]
        rfl
      set value : SignedMagnitude := ⟨if scaled.2 = 0 then false else decide (numerator < 0), scaled.2⟩
        with isValue
      have value_eq : value.toInt =
          numerator.toInt * 2 ^ format.fractionalBits / denominator.toNat := by
        rw [signed, ← whole, isValue, SignedMagnitude.toInt, negative]
        by_cases none : scaled.2 = 0
        · rw [zero.mp none, if_pos none]
          simp
        · rw [if_neg none]
          simp only [decide_eq_true_eq]
      have nonempty : value.negative = true → value.magnitude.toNat ≠ 0 := by
        intro sign none
        rw [isValue] at sign none
        dsimp only at sign none
        rw [if_pos (zero.mpr none)] at sign
        exact Bool.false_ne_true sign
      have range := inRange_iff narrow value nonempty
      rw [value_eq] at range
      rw [if_neg kept]
      by_cases represents : inRange format value = true
      · have fits := range.mp represents
        rw [if_neg (by rw [represents]; decide)]
        refine ⟨iff_of_true ⟨_, rfl⟩ ⟨integer.mpr divides, fits⟩, fun result ok => ?_⟩
        obtain rfl := Except.ok.inj ok
        have bits := toNat_encode format narrow value
        rw [value_eq] at bits
        refine ⟨?_, whole⟩
        have scaledResult : (⟨encode format value.negative value.magnitude⟩ : Fixed format).scaled =
            numerator.toInt * 2 ^ format.fractionalBits / denominator.toNat :=
          Fixed.scaled_of_emod fits bits
        rw [Fixed.toRat]
        refine (congrArg (fun n : ℤ => (n : ℚ) / _) scaledResult).trans ?_
        have back : (numerator.toInt * 2 ^ format.fractionalBits / denominator.toNat : ℤ) *
            denominator.toNat = numerator.toInt * 2 ^ format.fractionalBits :=
          Int.ediv_mul_cancel (integer.mpr divides)
        have positive : (denominator.toNat : ℚ) ≠ 0 := by exact_mod_cast (toNat_pos nonzero).ne'
        rw [div_eq_div_iff (by positivity) positive]
        exact_mod_cast back
      · rw [if_pos (by rw [Bool.not_eq_true'] ; exact Bool.eq_false_iff.mpr represents)]
        refine ⟨iff_of_false (fun returns => ?_) fun fits => represents (range.mpr fits.2),
          fun _ returns => ?_⟩
        · obtain ⟨_, returns⟩ := returns
          cases returns
        · cases returns
  · have refused : reduced.2.1 ≠ 1 ∨ format.fractionalBits < reduced.2.2 := by
      rw [not_and_or, not_le] at lowest
      exact lowest
    rw [run, if_pos refused]
    refine ⟨iff_of_false (fun returns => ?_) fun exactly => lowest ?_, fun _ returns => ?_⟩
    · obtain ⟨_, returns⟩ := returns
      cases returns
    · exact divides_iff.mp (integer.mp exactly.1)
    · cases returns

/-- One third of six is representable, and exact. -/
theorem from_ratio_exact_two :
    ∃ value : Fixed ⟨8, 4, .signed, by decide, by decide⟩, Fixed.fromRatio _ 6 3 = .ok value ∧ value.toRat = 2 := by
  have whole := from_ratio_exact ⟨8, 4, .signed, by decide, by decide⟩ (by decide) 6 3 (by decide)
  obtain ⟨value, ok⟩ := whole.1.mpr (by decide)
  refine ⟨value, ok, (whole.2 value ok).1.trans ?_⟩
  norm_num [show (6 : Int64).toInt = 6 from rfl, show (3 : UInt64).toNat = 3 from rfl]

/-! ### `mul_full` -/

section Product

/-- The format of a product: signed when one of the operands is. -/
def Format.product (left right : Format) : Format where
  width := left.width + right.width
  integerBits := left.integerBits + right.integerBits
  signedness := if left.signedness = .signed ∨ right.signedness = .signed then .signed else .unsigned
  width_pos := Nat.add_pos_left left.width_pos _
  integerBits_le := Nat.add_le_add left.integerBits_le right.integerBits_le

/-- `mul_full`. -/
def Fixed.mulFull {leftFormat rightFormat : Format} (left : Fixed leftFormat) (right : Fixed rightFormat) :
    Fixed (leftFormat.product rightFormat) :=
  let leftValue := decompose left
  let rightValue := decompose right
  let product := leftValue.magnitude * rightValue.magnitude
  let negative := product ≠ 0 && leftValue.negative ≠ rightValue.negative
  ⟨encode _ negative product⟩

variable {leftFormat rightFormat : Format} (left : Fixed leftFormat) (right : Fixed rightFormat)

theorem fractionalBits_product :
    (leftFormat.product rightFormat).fractionalBits =
      leftFormat.fractionalBits + rightFormat.fractionalBits := by
  have leftLe := leftFormat.integerBits_le
  have rightLe := rightFormat.integerBits_le
  unfold Format.fractionalBits Format.product
  dsimp only
  omega

/-- A signed magnitude is at most half of the width's range. -/
theorem abs_scaled_le {format : Format} (value : Fixed format) (sign : format.signedness = .signed) :
    |value.scaled| ≤ 2 ^ (format.width - 1) := by
  obtain ⟨above, below⟩ := value.represents_scaled
  simp only [Format.lowest, Format.highest, sign] at above below
  exact abs_le.mpr ⟨above, by omega⟩

/-- An unsigned number is below the width's range. -/
theorem scaled_unsigned_bounds {format : Format} (value : Fixed format) (sign : format.signedness = .unsigned) :
    0 ≤ value.scaled ∧ value.scaled ≤ 2 ^ format.width - 1 := by
  obtain ⟨above, below⟩ := value.represents_scaled
  simp only [Format.lowest, Format.highest, sign] at above below
  exact ⟨above, below⟩

theorem abs_scaled_lt {format : Format} (value : Fixed format) : |value.scaled| ≤ 2 ^ format.width - 1 := by
  have whole := format.two_pow_width
  have half : (1 : ℤ) ≤ 2 ^ (format.width - 1) := one_le_pow₀ (by norm_num)
  cases sign : format.signedness with
  | unsigned =>
    obtain ⟨above, below⟩ := scaled_unsigned_bounds value sign
    rwa [abs_of_nonneg above]
  | signed =>
    have bound := abs_scaled_le value sign
    omega

/-- A product of which one factor is signed fits, with room for the sign. -/
theorem abs_product_lt {m n : ℕ} (positive : 0 < m) {a b : ℤ} (signed : |a| ≤ 2 ^ (m - 1))
    (other : |b| ≤ 2 ^ n - 1) : |a * b| ≤ 2 ^ (m + n - 1) - 1 := by
  have half : (1 : ℤ) ≤ 2 ^ (m - 1) := one_le_pow₀ (by norm_num)
  have split : (2 : ℤ) ^ (m + n - 1) = 2 ^ (m - 1) * 2 ^ n := by
    rw [← pow_add]
    congr 1
    omega
  calc |a * b| = |a| * |b| := abs_mul a b
    _ ≤ 2 ^ (m - 1) * (2 ^ n - 1) := mul_le_mul signed other (abs_nonneg b) (by omega)
    _ = 2 ^ (m + n - 1) - 2 ^ (m - 1) := by rw [split]; ring
    _ ≤ 2 ^ (m + n - 1) - 1 := by omega

/-- The product is a number of its format, also for the least numbers of two signed operands. -/
theorem represents_product : (leftFormat.product rightFormat).Represents (left.scaled * right.scaled) := by
  have signedBounds {x : ℤ} (bound : |x| ≤ 2 ^ (leftFormat.width + rightFormat.width - 1) - 1)
      (sign : (leftFormat.product rightFormat).signedness = .signed) :
      (leftFormat.product rightFormat).Represents x := by
    obtain ⟨above, below⟩ := abs_le.mp bound
    unfold Format.Represents Format.lowest Format.highest
    rw [sign]
    refine ⟨?_, below⟩
    change -(2 : ℤ) ^ (leftFormat.width + rightFormat.width - 1) ≤ x
    omega
  cases leftSign : leftFormat.signedness with
  | signed =>
    refine signedBounds (abs_product_lt leftFormat.width_pos (abs_scaled_le left leftSign) (abs_scaled_lt right)) ?_
    exact if_pos (.inl leftSign)
  | unsigned =>
    cases rightSign : rightFormat.signedness with
    | signed =>
      have swapped := abs_product_lt rightFormat.width_pos (abs_scaled_le right rightSign) (abs_scaled_lt left)
      rw [mul_comm, Nat.add_comm] at swapped
      exact signedBounds swapped (if_pos (.inr rightSign))
    | unsigned =>
      obtain ⟨leftLow, leftHigh⟩ := scaled_unsigned_bounds left leftSign
      obtain ⟨rightLow, rightHigh⟩ := scaled_unsigned_bounds right rightSign
      have sign : (leftFormat.product rightFormat).signedness = .unsigned := by
        refine if_neg ?_
        rw [leftSign, rightSign]
        decide
      unfold Format.Represents Format.lowest Format.highest
      rw [sign]
      refine ⟨mul_nonneg leftLow rightLow, ?_⟩
      change left.scaled * right.scaled ≤ 2 ^ (leftFormat.width + rightFormat.width) - 1
      have positive : (1 : ℤ) ≤ 2 ^ leftFormat.width := one_le_pow₀ (by norm_num)
      have positive' : (1 : ℤ) ≤ 2 ^ rightFormat.width := one_le_pow₀ (by norm_num)
      calc left.scaled * right.scaled
          ≤ (2 ^ leftFormat.width - 1) * (2 ^ rightFormat.width - 1) :=
            mul_le_mul leftHigh rightHigh rightLow (by omega)
        _ = 2 ^ (leftFormat.width + rightFormat.width) -
              (2 ^ leftFormat.width + 2 ^ rightFormat.width - 1) := by rw [pow_add]; ring
        _ ≤ 2 ^ (leftFormat.width + rightFormat.width) - 1 := by omega

/-- The product of the magnitudes does not overflow. -/
theorem toNat_product (narrow : leftFormat.width + rightFormat.width ≤ 128) :
    ((decompose left).magnitude * (decompose right).magnitude).toNat = (left.scaled * right.scaled).natAbs := by
  have fits := natAbs_lt_of_represents narrow (represents_product left right)
  rw [BitVec.toNat_mul, decompose_magnitude left (by omega), decompose_magnitude right (by omega),
    ← Int.natAbs_mul]
  exact Nat.mod_eq_of_lt fits

/-- The sign of the result is that of the product. -/
theorem negative_product (narrow : leftFormat.width + rightFormat.width ≤ 128) :
    ((decompose left).magnitude * (decompose right).magnitude ≠ 0 ∧
        (decompose left).negative ≠ (decompose right).negative) ↔ left.scaled * right.scaled < 0 := by
  have leftSign := decompose_negative left (by omega)
  have rightSign := decompose_negative right (by omega)
  have nonzero : (decompose left).magnitude * (decompose right).magnitude ≠ 0 ↔
      left.scaled * right.scaled ≠ 0 := by
    rw [Ne, ← BitVec.toNat_inj, toNat_product left right narrow, ← Int.natAbs_ne_zero]
    rfl
  have apart : (decompose left).negative ≠ (decompose right).negative ↔
      ¬ (left.scaled < 0 ↔ right.scaled < 0) := by
    rw [← leftSign, ← rightSign, ← Bool.eq_iff_iff]
  rw [nonzero, apart, mul_ne_zero_iff, mul_neg_iff]
  omega

/-- **`mul_full` is exact.** The product of two values of at most 128 bits together is the value of the
result: the magnitudes are multiplied without overflow, and the product is in the range of the result's
format. -/
theorem mul_full_exact (narrow : leftFormat.width + rightFormat.width ≤ 128) :
    (left.mulFull right).toRat = left.toRat * right.toRat ∧
      ((decompose left).magnitude * (decompose right).magnitude).toNat =
        (decompose left).magnitude.toNat * (decompose right).magnitude.toNat ∧
      (leftFormat.product rightFormat).Represents (left.scaled * right.scaled) := by
  have product := toNat_product left right narrow
  have magnitudes : ((decompose left).magnitude * (decompose right).magnitude).toNat =
      (decompose left).magnitude.toNat * (decompose right).magnitude.toNat := by
    rw [product, decompose_magnitude left (by omega), decompose_magnitude right (by omega), Int.natAbs_mul]
  refine ⟨?_, magnitudes, represents_product left right⟩
  set value : SignedMagnitude :=
    ⟨(decompose left).magnitude * (decompose right).magnitude ≠ 0 &&
        (decompose left).negative ≠ (decompose right).negative,
      (decompose left).magnitude * (decompose right).magnitude⟩ with isValue
  have sign : value.negative = true ↔ left.scaled * right.scaled < 0 := by
    rw [← negative_product left right narrow, isValue]
    simp only [Bool.and_eq_true, decide_eq_true_eq]
  have value_eq : value.toInt = left.scaled * right.scaled := by
    have magnitude : value.magnitude.toNat = (left.scaled * right.scaled).natAbs := product
    unfold SignedMagnitude.toInt
    rw [magnitude]
    split
    next negative => have := sign.mp negative; omega
    next positive => have := sign.not.mp positive; omega
  have bits := toNat_encode (leftFormat.product rightFormat) narrow value
  rw [value_eq] at bits
  have scaled : (left.mulFull right).scaled = left.scaled * right.scaled :=
    Fixed.scaled_of_emod (represents_product left right) bits
  unfold Fixed.toRat
  rw [scaled, fractionalBits_product, pow_add]
  push_cast
  exact mul_div_mul_comm _ _ _ _

/-- The least number of a signed format, squared. -/
theorem mul_full_exact_least :
    let least : Fixed ⟨8, 8, .signed, by decide, by decide⟩ := ⟨Bits.fromUInt128 (by decide) 128⟩
    (least.mulFull least).toRat = least.toRat * least.toRat :=
  (mul_full_exact _ _ (by decide)).1

end Product

end Cpptb.FixedPoint
