/-
The scalar types of constrained-random fields.

A `uint64_t` is a natural number below `2 ^ 64`, and an `int64_t` an integer. A value of a field is kept
raw, as the bits of its type; `orderedRaw` maps the raw values of a type onto `0 .. 2 ^ width - 1` in
the order of the type's values (`signedRaw_lt_iff`), and `fromOrderedRaw` maps them back
(`fromOrderedRaw_orderedRaw`, `orderedRaw_fromOrderedRaw`).
-/

import Mathlib

namespace Cpptb.Randomize

/-- `std::numeric_limits<uint64_t>::max()`. -/
def maxU64 : Nat := 2 ^ 64 - 1

/-- `ScalarType`, of a width that `uint64_t` can hold. -/
structure ScalarType where
  width : Nat
  isSigned : Bool
  positive : 0 < width
  bounded : width ≤ 64
  deriving DecidableEq, Repr

namespace ScalarType

theorem boolean_bounded : 1 ≤ 64 := by decide

/-- The type of a comparison, `ScalarType{1, false}`. -/
def boolean : ScalarType := ⟨1, false, Nat.zero_lt_one, boolean_bounded⟩

variable (type : ScalarType)

/-- `uint64_t{1} << (type.width - 1)`. -/
def sign : Nat := 2 ^ (type.width - 1)

/-- `width_mask`. -/
def widthMask : Nat := if type.width = 64 then maxU64 else 2 ^ type.width - 1

/-- `normalize`: `raw & width_mask(type.width)`. -/
def normalize (raw : Nat) : Nat := raw &&& type.widthMask

/-- `ordered_raw`. -/
def orderedRaw (raw : Nat) : Nat :=
  if type.isSigned then type.normalize raw ^^^ type.sign else type.normalize raw

/-- `from_ordered_raw`. -/
def fromOrderedRaw (ordered : Nat) : Nat :=
  type.normalize (if type.isSigned then ordered ^^^ type.sign else ordered)

/-- `std::bit_cast<int64_t>`. -/
def bitCastSigned (raw : Nat) : Int := if raw < 2 ^ 63 then raw else (raw : Int) - 2 ^ 64

/-- `std::bit_cast<uint64_t>`. -/
def bitCastUnsigned (value : Int) : Nat := (value % 2 ^ 64).toNat

/-- `signed_raw`: the sign bit of a narrow type is copied upwards, `raw |= ~width_mask(type.width)`. -/
def signedRaw (raw : Nat) : Int :=
  let raw := type.normalize raw
  if !type.isSigned || type.width == 64 then
    bitCastSigned raw
  else if raw &&& type.sign != 0 then
    bitCastSigned (raw ||| (maxU64 ^^^ type.widthMask))
  else
    bitCastSigned raw

/-! ### Normal values -/

/-- The number of raw values. -/
def count : Nat := 2 ^ type.width

theorem count_le : type.count ≤ 2 ^ 64 := Nat.pow_le_pow_right (by decide) type.bounded

theorem count_dvd : type.count ∣ 2 ^ 64 := Nat.pow_dvd_pow 2 type.bounded

theorem count_pos : 0 < type.count := Nat.two_pow_pos _

theorem count_eq : type.count = 2 * type.sign := by
  have split : type.width = type.width - 1 + 1 := by
    have := type.positive
    omega
  rw [count, sign, split, pow_succ, Nat.add_sub_cancel, Nat.mul_comm]

theorem widthMask_eq : type.widthMask = type.count - 1 := by
  unfold widthMask count maxU64
  split
  · rename_i wide
    rw [wide]
  · rfl

theorem normalize_eq (raw : Nat) : type.normalize raw = raw % type.count := by
  rw [normalize, widthMask_eq, count, Nat.and_two_pow_sub_one_eq_mod]

theorem normalize_lt (raw : Nat) : type.normalize raw < type.count := by
  rw [normalize_eq]
  exact Nat.mod_lt _ type.count_pos

theorem normalize_of_lt {raw : Nat} (small : raw < type.count) : type.normalize raw = raw := by
  rw [normalize_eq, Nat.mod_eq_of_lt small]

theorem normalize_normalize (raw : Nat) :
    type.normalize (type.normalize raw) = type.normalize raw :=
  type.normalize_of_lt (type.normalize_lt raw)

theorem normalize_add_mul (raw k : Nat) : type.normalize (raw + type.count * k) = type.normalize raw := by
  rw [normalize_eq, normalize_eq, Nat.add_mul_mod_self_left]

/-- Flipping a bit that is clear adds it. -/
theorem xor_two_pow {low k : Nat} (small : low < 2 ^ k) : low ^^^ 2 ^ k = 2 ^ k + low := by
  refine Nat.eq_of_testBit_eq fun i => ?_
  rw [Nat.testBit_xor, Nat.testBit_two_pow]
  rcases Nat.lt_trichotomy i k with below | rfl | above
  · rw [Nat.testBit_two_pow_add_gt below]
    simp only [below.ne', decide_false, Bool.xor_false]
  · rw [Nat.testBit_two_pow_add_eq, decide_eq_true rfl, Bool.xor_true]
  · have small' : low < 2 ^ i := small.trans (Nat.pow_lt_pow_right (by decide) above)
    have sum : 2 ^ k + low < 2 ^ i := by
      have twice : 2 ^ (k + 1) ≤ 2 ^ i := Nat.pow_le_pow_right (by decide) above
      rw [pow_succ] at twice
      omega
    rw [Nat.testBit_lt_two_pow small', Nat.testBit_lt_two_pow sum]
    simp only [above.ne, decide_false, Bool.xor_false]

/-- Flipping the sign bit exchanges the lower and the upper half of the values. -/
theorem xor_sign {raw : Nat} (small : raw < type.count) :
    raw ^^^ type.sign = if raw < type.sign then type.sign + raw else raw - type.sign := by
  rw [count_eq] at small
  split
  · rename_i low
    exact xor_two_pow low
  · have low : raw - type.sign < type.sign := by omega
    have back : raw = (raw - type.sign) ^^^ type.sign := by
      have flipped := xor_two_pow low
      rw [show 2 ^ (type.width - 1) = type.sign from rfl] at flipped
      omega
    calc raw ^^^ type.sign = (raw - type.sign) ^^^ type.sign ^^^ type.sign := by rw [← back]
      _ = raw - type.sign := by rw [Nat.xor_assoc, Nat.xor_self, Nat.xor_zero]

/-! ### Ordered values -/

/-- `ordered_raw` by cases. -/
theorem orderedRaw_eq (raw : Nat) :
    type.orderedRaw raw =
      if type.isSigned then
        if type.normalize raw < type.sign then type.sign + type.normalize raw
        else type.normalize raw - type.sign
      else type.normalize raw := by
  rw [orderedRaw, xor_sign type (type.normalize_lt raw)]

theorem orderedRaw_lt (raw : Nat) : type.orderedRaw raw < type.count := by
  have small := type.normalize_lt raw
  have half := type.count_eq
  rw [orderedRaw_eq]
  split
  · split <;> omega
  · exact small

theorem orderedRaw_le_max (raw : Nat) : type.orderedRaw raw ≤ maxU64 := by
  have small := type.orderedRaw_lt raw
  have bound := type.count_le
  rw [maxU64]
  omega

@[simp] theorem orderedRaw_normalize (raw : Nat) :
    type.orderedRaw (type.normalize raw) = type.orderedRaw raw := by
  rw [orderedRaw, orderedRaw, normalize_normalize]

/-- Two raw values with one ordered value are the same value. -/
theorem orderedRaw_inj {left right : Nat} :
    type.orderedRaw left = type.orderedRaw right ↔ type.normalize left = type.normalize right := by
  have smallLeft := type.normalize_lt left
  have smallRight := type.normalize_lt right
  have half := type.count_eq
  rw [orderedRaw_eq, orderedRaw_eq]
  split
  · split <;> split <;> omega
  · rfl

theorem fromOrderedRaw_orderedRaw (raw : Nat) :
    type.fromOrderedRaw (type.orderedRaw raw) = type.normalize raw := by
  rw [fromOrderedRaw, orderedRaw]
  split
  · rw [Nat.xor_assoc, Nat.xor_self, Nat.xor_zero, normalize_normalize]
  · rw [normalize_normalize]

theorem fromOrderedRaw_lt (ordered : Nat) : type.fromOrderedRaw ordered < type.count :=
  type.normalize_lt _

theorem orderedRaw_fromOrderedRaw {ordered : Nat} (small : ordered < type.count) :
    type.orderedRaw (type.fromOrderedRaw ordered) = ordered := by
  have half := type.count_eq
  rw [fromOrderedRaw, orderedRaw_normalize, orderedRaw]
  split
  · have flipped : ordered ^^^ type.sign < type.count := by
      rw [xor_sign type small]
      split <;> omega
    rw [normalize_of_lt _ flipped, Nat.xor_assoc, Nat.xor_self, Nat.xor_zero]
  · exact type.normalize_of_lt small

/-! ### Signed values -/

/-- Copying the sign bit of a narrow type upwards. -/
theorem or_not_widthMask {raw : Nat} (small : raw < type.count) :
    raw ||| (maxU64 ^^^ type.widthMask) = 2 ^ 64 - type.count + raw := by
  have upper : maxU64 ^^^ type.widthMask = 2 ^ type.width * (2 ^ (64 - type.width) - 1) := by
    rw [widthMask_eq, count]
    refine Nat.eq_of_testBit_eq fun i => ?_
    rw [maxU64, Nat.testBit_xor, Nat.testBit_two_pow_sub_one, Nat.testBit_two_pow_sub_one,
      Nat.testBit_two_pow_mul, Nat.testBit_two_pow_sub_one]
    have bound := type.bounded
    by_cases low : i < type.width
    · simp only [low, show i < 64 by omega, decide_true, Bool.xor_self, not_le.mpr low,
        decide_false, Bool.false_and]
    · simp only [low, not_lt.mp low, decide_false, Bool.xor_false, decide_true, Bool.true_and,
        decide_eq_decide]
      omega
  have power : 2 ^ type.width * 2 ^ (64 - type.width) = 2 ^ 64 := by
    rw [← pow_add, Nat.add_sub_cancel' type.bounded]
  rw [count] at small ⊢
  rw [upper, Nat.or_comm, ← Nat.two_pow_add_eq_or_of_lt small, Nat.mul_sub, power, Nat.mul_one]

/-- The sign bit is set in the upper half of the values. -/
theorem and_sign_ne_zero {raw : Nat} (small : raw < type.count) :
    raw &&& type.sign ≠ 0 ↔ type.sign ≤ raw := by
  have positive : type.sign ≠ 0 := (Nat.two_pow_pos _).ne'
  by_cases high : type.sign ≤ raw
  · have bit : raw.testBit (type.width - 1) = true := by
      refine Nat.testBit_of_two_pow_le_and_two_pow_add_one_gt high ?_
      rw [pow_succ, Nat.mul_comm]
      rw [count_eq] at small
      exact small
    have masked : raw &&& type.sign = type.sign := by
      rw [sign, Nat.and_two_pow, bit, Bool.toNat_true, Nat.one_mul]
    rw [masked]
    exact iff_of_true positive high
  · have bit : raw.testBit (type.width - 1) = false := Nat.testBit_lt_two_pow (not_le.mp high)
    have masked : raw &&& type.sign = 0 := by
      rw [sign, Nat.and_two_pow, bit, Bool.toNat_false, Nat.zero_mul]
    rw [masked]
    exact iff_of_false (fun nonzero => nonzero rfl) high

/-- `signed_raw` of a signed type is the value in two's complement. -/
theorem signedRaw_eq (signed : type.isSigned = true) (raw : Nat) :
    type.signedRaw raw =
      if type.normalize raw < type.sign then (type.normalize raw : Int)
      else (type.normalize raw : Int) - type.count := by
  have small := type.normalize_lt raw
  have half := type.count_eq
  unfold signedRaw
  simp only [signed, Bool.not_true, Bool.false_or, beq_iff_eq]
  by_cases wide : type.width = 64
  · have countWide : type.count = 2 ^ 64 := by rw [count, wide]
    rw [if_pos wide, bitCastSigned, countWide]
    have halfWide : type.sign = 2 ^ 63 := by omega
    rw [halfWide]
    rfl
  · have narrow : type.width ≤ 63 := by
      have := type.bounded
      omega
    have countNarrow : type.count ≤ 2 ^ 63 := Nat.pow_le_pow_right (by decide) narrow
    rw [if_neg wide]
    by_cases high : type.sign ≤ type.normalize raw
    · rw [if_pos ((bne_iff_ne).mpr ((type.and_sign_ne_zero small).mpr high)),
        if_neg (not_lt.mpr high), or_not_widthMask type small, bitCastSigned, if_neg (by omega)]
      omega
    · have clear : ¬ (type.normalize raw &&& type.sign) ≠ 0 := fun set =>
        high ((type.and_sign_ne_zero small).mp set)
      rw [if_neg (fun set => clear (bne_iff_ne.mp set)), if_pos (not_le.mp high), bitCastSigned,
        if_pos (by omega)]

/-- The signed values of a signed type are in the order of the ordered values. -/
theorem signedRaw_eq_orderedRaw (signed : type.isSigned = true) (raw : Nat) :
    type.signedRaw raw = (type.orderedRaw raw : Int) - type.sign := by
  have small := type.normalize_lt raw
  have half := type.count_eq
  rw [signedRaw_eq type signed, orderedRaw_eq, if_pos signed]
  split
  · push_cast
    omega
  · omega

@[simp] theorem signedRaw_normalize (raw : Nat) :
    type.signedRaw (type.normalize raw) = type.signedRaw raw := by
  unfold signedRaw
  rw [normalize_normalize]

/-- `bit_cast<uint64_t>` then `normalize` is reduction modulo the number of values. -/
theorem normalize_bitCastUnsigned (value : Int) :
    (type.normalize (bitCastUnsigned value) : Int) = value % type.count := by
  have nonneg : 0 ≤ value % 2 ^ 64 := Int.emod_nonneg _ (by decide)
  have divides : (type.count : Int) ∣ 2 ^ 64 := by exact_mod_cast type.count_dvd
  rw [normalize_eq, bitCastUnsigned, Int.natCast_mod, Int.toNat_of_nonneg nonneg,
    Int.emod_emod_of_dvd _ divides]

end ScalarType

end Cpptb.Randomize
