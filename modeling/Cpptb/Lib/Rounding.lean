/-
Rounding to an integer.

* `truncate` drops the fraction, toward zero;
* `nearestEven` takes the nearest integer, the even one where two are equally near; it is the only
  integer with that property (`IsNearestEven.unique`), and everything else about it follows from
  that;
* both are monotone, odd, and leave an integer as it is;
* `clamp` is the nearest point of an interval of integers.

The quotient and the remainder of a division by a power of two decide both roundings
(`truncate_div`, `nearestEven_div`).
-/

import Mathlib

namespace Cpptb.Rounding

section Modes

variable {K : Type*} [Field K] [LinearOrder K] [IsStrictOrderedRing K] [FloorRing K]

/-- The fraction is dropped. -/
def truncate (x : K) : ℤ := if 0 ≤ x then ⌊x⌋ else ⌈x⌉

/-- The nearest integer, the even one of two that are equally near. -/
def nearestEven (x : K) : ℤ :=
  if Int.fract x < 1 / 2 then ⌊x⌋
  else if 1 / 2 < Int.fract x then ⌊x⌋ + 1
  else if Even ⌊x⌋ then ⌊x⌋ else ⌊x⌋ + 1

/-- `n` is at most half away from `x`, and even where it is exactly half away. -/
structure IsNearestEven (x : K) (n : ℤ) : Prop where
  near : |x - n| ≤ 1 / 2
  even : |x - n| = 1 / 2 → Even n

theorem truncate_neg (x : K) : truncate (-x) = -truncate x := by
  unfold truncate
  rcases lt_trichotomy x 0 with negative | rfl | positive
  · rw [if_pos (by linarith), if_neg (by linarith), Int.floor_neg]
  · simp
  · rw [if_neg (by linarith), if_pos (by linarith), Int.ceil_neg]

theorem truncate_intCast (n : ℤ) : truncate (n : K) = n := by
  unfold truncate
  split <;> simp

theorem truncate_mono : Monotone (truncate (K := K)) := by
  intro x y le
  unfold truncate
  split_ifs with hx hy hy
  · exact Int.floor_mono le
  · exact absurd (hx.trans le) hy
  · have nonpos : ⌈x⌉ ≤ 0 := Int.ceil_le.mpr (by push_cast; linarith)
    exact nonpos.trans (Int.floor_nonneg.mpr hy)
  · exact Int.ceil_mono le

/-- Two integers at most half away from one point differ by at most one. -/
theorem IsNearestEven.le_add_one {x : K} {n m : ℤ} (hn : IsNearestEven x n)
    (hm : IsNearestEven x m) : n ≤ m + 1 := by
  have left := abs_le.mp hn.near
  have right := abs_le.mp hm.near
  have cast : (n : K) ≤ (m : K) + 1 := by linarith [left.1, left.2, right.1, right.2]
  exact_mod_cast cast

/-- Where two neighbours are both at most half away, both are exactly half away, so both would be
even. -/
theorem IsNearestEven.ne_add_one {x : K} {n : ℤ} (hn : IsNearestEven x n) :
    ¬ IsNearestEven x (n + 1) := by
  intro hm
  have left := abs_le.mp hn.near
  have right := abs_le.mp hm.near
  push_cast at right
  have half : x - n = 1 / 2 := by linarith [left.1, left.2, right.1, right.2]
  have half' : x - ((n + 1 : ℤ) : K) = -(1 / 2) := by push_cast; linarith
  have even : Even n := hn.even (by rw [half]; norm_num)
  have even' : Even (n + 1) := hm.even (by rw [half', abs_neg]; norm_num)
  exact absurd even (by simpa [Int.even_add_one] using even')

theorem IsNearestEven.unique {x : K} {n m : ℤ} (hn : IsNearestEven x n)
    (hm : IsNearestEven x m) : n = m := by
  have le := hn.le_add_one hm
  have ge := hm.le_add_one hn
  rcases lt_trichotomy n m with below | rfl | above
  · have next : m = n + 1 := by omega
    exact absurd (next ▸ hm) hn.ne_add_one
  · rfl
  · have next : n = m + 1 := by omega
    exact absurd (next ▸ hn) hm.ne_add_one

omit [IsStrictOrderedRing K] [FloorRing K] in
theorem IsNearestEven.neg {x : K} {n : ℤ} (h : IsNearestEven x n) : IsNearestEven (-x) (-n) := by
  have distance : |(-x) - ((-n : ℤ) : K)| = |x - n| := by
    rw [Int.cast_neg, ← neg_sub', abs_neg]
  exact ⟨distance ▸ h.near, fun half => (h.even (distance ▸ half)).neg⟩

/-- The definition finds the nearest integer. -/
theorem nearestEven_spec (x : K) : IsNearestEven x (nearestEven x) := by
  have nonneg := Int.fract_nonneg x
  have below := Int.fract_lt_one x
  have split : x = ⌊x⌋ + Int.fract x := (Int.floor_add_fract x).symm
  have down : x - ⌊x⌋ = Int.fract x := by linarith
  have up : x - ((⌊x⌋ + 1 : ℤ) : K) = -(1 - Int.fract x) := by push_cast; linarith
  unfold nearestEven
  split_ifs with small large even
  · rw [← down] at small nonneg
    exact ⟨by rw [abs_of_nonneg nonneg]; exact small.le,
      fun half => absurd half (by rw [abs_of_nonneg nonneg]; exact small.ne)⟩
  · have distance : |x - ((⌊x⌋ + 1 : ℤ) : K)| = 1 - Int.fract x := by
      rw [up, abs_neg, abs_of_nonneg (by linarith)]
    exact ⟨by rw [distance]; linarith, fun half => by rw [distance] at half; linarith⟩
  · exact ⟨by rw [down, abs_of_nonneg nonneg]; linarith, fun _ => even⟩
  · have distance : |x - ((⌊x⌋ + 1 : ℤ) : K)| = 1 - Int.fract x := by
      rw [up, abs_neg, abs_of_nonneg (by linarith)]
    exact ⟨by rw [distance]; linarith, fun _ => by simpa [Int.even_add_one] using even⟩

theorem nearestEven_eq {x : K} {n : ℤ} (h : IsNearestEven x n) : nearestEven x = n :=
  (nearestEven_spec x).unique h

theorem nearestEven_neg (x : K) : nearestEven (-x) = -nearestEven x :=
  nearestEven_eq (nearestEven_spec x).neg

theorem nearestEven_intCast (n : ℤ) : nearestEven (n : K) = n :=
  nearestEven_eq ⟨by simp, fun half => by simp at half⟩

theorem nearestEven_mono : Monotone (nearestEven (K := K)) := by
  intro x y le
  by_contra! above
  have left := abs_le.mp (nearestEven_spec x).near
  have right := abs_le.mp (nearestEven_spec y).near
  have cast : ((nearestEven y + 1 : ℤ) : K) ≤ (nearestEven x : K) := by exact_mod_cast above
  push_cast at cast
  -- the two results are half away from a common point, so they are one integer
  have same : x = y := by linarith [left.1, left.2, right.1, right.2]
  rw [same] at above
  exact lt_irrefl _ above

end Modes

section Quotients

variable (K : Type*) [Field K] [LinearOrder K] [IsStrictOrderedRing K] [FloorRing K]

theorem floor_div (m d : ℕ) : ⌊(m : K) / d⌋ = ((m / d : ℕ) : ℤ) := by
  rw [← Int.natCast_floor_eq_floor (by positivity), Nat.floor_div_eq_div]

theorem truncate_div (m d : ℕ) : truncate ((m : K) / d) = ((m / d : ℕ) : ℤ) := by
  rw [truncate, if_pos (by positivity), floor_div]

theorem fract_div {m d : ℕ} (positive : 0 < d) :
    Int.fract ((m : K) / d) = ((m % d : ℕ) : K) / d := by
  have nonzero : (d : K) ≠ 0 := by exact_mod_cast positive.ne'
  have parts : (m : K) = d * ((m / d : ℕ) : K) + ((m % d : ℕ) : K) := by
    exact_mod_cast (Nat.div_add_mod m d).symm
  rw [Int.fract, floor_div, Int.cast_natCast, sub_eq_iff_eq_add, div_eq_iff nonzero, add_mul,
    div_mul_cancel₀ _ nonzero]
  linarith

/-- The remainder against half of the divisor, and the last bit of the quotient. -/
theorem nearestEven_div {m half : ℕ} (positive : 0 < half) :
    nearestEven ((m : K) / (2 * half : ℕ)) =
      if half < m % (2 * half) ∨ (m % (2 * half) = half ∧ m / (2 * half) % 2 ≠ 0) then
        ((m / (2 * half) + 1 : ℕ) : ℤ) else ((m / (2 * half) : ℕ) : ℤ) := by
  have wide : 0 < 2 * half := by omega
  have cast : (0 : K) < half := by exact_mod_cast positive
  have below : ∀ r : ℕ, ((r : K) / (2 * half : ℕ) < 1 / 2 ↔ r < half) := by
    intro r
    rw [div_lt_div_iff₀ (by positivity) (by norm_num)]
    push_cast
    constructor
    · intro lt
      exact_mod_cast (show (r : K) < half by linarith)
    · intro lt
      have : (r : K) < half := by exact_mod_cast lt
      linarith
  have above : ∀ r : ℕ, (1 / 2 < (r : K) / (2 * half : ℕ) ↔ half < r) := by
    intro r
    rw [div_lt_div_iff₀ (by norm_num) (by positivity)]
    push_cast
    constructor
    · intro lt
      exact_mod_cast (show (half : K) < r by linarith)
    · intro lt
      have : (half : K) < r := by exact_mod_cast lt
      linarith
  rw [nearestEven, fract_div K wide, floor_div]
  simp only [below, above, Int.even_coe_nat, Nat.even_iff]
  split_ifs <;> first | rfl | omega

end Quotients

section Clamp

/-- The nearest point of the interval from `low` to `high`. -/
def clamp (low high n : ℤ) : ℤ := max low (min high n)

theorem clamp_of_mem {low high n : ℤ} (above : low ≤ n) (below : n ≤ high) :
    clamp low high n = n := by
  simp [clamp, above, below]

theorem clamp_of_lt {low high n : ℤ} (lt : n < low) :
    clamp low high n = low := by
  unfold clamp
  omega

theorem clamp_of_gt {low high n : ℤ} (proper : low ≤ high) (gt : high < n) :
    clamp low high n = high := by
  unfold clamp
  omega

theorem clamp_mono (low high : ℤ) : Monotone (clamp low high) := by
  intro n m le
  exact max_le_max le_rfl (min_le_min le_rfl le)

end Clamp

end Cpptb.Rounding
