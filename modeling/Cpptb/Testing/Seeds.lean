/-
Seeds of random streams.

* `mixSeed_injective`: the mixing function of the source loses nothing of its 64 bits, since each of its
  steps (an addition, the exclusive or with a shifted copy, the product with an odd constant) can be
  undone.
* `deriveSeed_injective`: under one master seed, distinct streams have distinct seeds.
* `next_bijective`: a draw loses nothing of the state.
* `random_never_degenerate`: no seed and no number of draws leads to the state of zeros.
-/

import Cpptb.Randomize.Sampling

namespace Cpptb.Testing

open Randomize (Random)

/-! ### The functions of the source -/

/-- `mix_seed`. -/
def mixSeed (value : UInt64) : UInt64 :=
  let value := value + 0x9e3779b97f4a7c15
  let value := (value ^^^ (value >>> 30)) * 0xbf58476d1ce4e5b9
  let value := (value ^^^ (value >>> 27)) * 0x94d049bb133111eb
  value ^^^ (value >>> 31)

/-- `splitmix_next`: the word, and the state after it. -/
def splitmixNext (state : UInt64) : UInt64 × UInt64 :=
  let state := state + 0x9e3779b97f4a7c15
  let value := state
  let value := (value ^^^ (value >>> 30)) * 0xbf58476d1ce4e5b9
  let value := (value ^^^ (value >>> 27)) * 0x94d049bb133111eb
  (value ^^^ (value >>> 31), state)

/-- `derive_seed`. -/
def deriveSeed (masterSeed streamId : UInt64) : UInt64 :=
  mixSeed (masterSeed ^^^ (streamId * 0xd2b74407b1ce6e93))

/-- The state of a `Random` after `reseed`. -/
def reseed (seed : UInt64) : Random :=
  let (state0, state) := splitmixNext seed
  let (state1, state) := splitmixNext state
  let (state2, state) := splitmixNext state
  let (state3, _) := splitmixNext state
  if state0 ||| state1 ||| state2 ||| state3 = 0 then ⟨1, state1, state2, state3⟩
  else ⟨state0, state1, state2, state3⟩

/-- The four words that the loop of `reseed` writes. -/
def splitmixWords (seed : UInt64) : Random :=
  let (state0, state) := splitmixNext seed
  let (state1, state) := splitmixNext state
  let (state2, state) := splitmixNext state
  let (state3, _) := splitmixNext state
  ⟨state0, state1, state2, state3⟩

/-- `kDefaultRandomSeed`. -/
def defaultRandomSeed : UInt64 := 1

/-! ### Distinct streams -/

/-- A word that equals its own shifted copy is zero. -/
theorem eq_zero_of_shift_eq {word : BitVec 64} {shift : Nat} (positive : 0 < shift)
    (same : word = word >>> shift) : word = 0#64 := by
  have value : word.toNat = word.toNat / 2 ^ shift := by
    conv_lhs => rw [same]
    rw [BitVec.toNat_ushiftRight, Nat.shiftRight_eq_div_pow]
  have zero : word.toNat = 0 := by
    by_contra nonzero
    have smaller : word.toNat / 2 ^ shift < word.toNat :=
      Nat.div_lt_self (Nat.pos_of_ne_zero nonzero) (Nat.one_lt_two_pow positive.ne')
    omega
  exact BitVec.eq_of_toNat_eq zero

/-- Two equal exclusive ors, paired the other way. -/
theorem xor_eq_xor_swap {a b c d : BitVec 64} (same : a ^^^ b = c ^^^ d) : a ^^^ c = b ^^^ d :=
  calc a ^^^ c = a ^^^ (c ^^^ d) ^^^ d := by
        rw [BitVec.xor_assoc a, BitVec.xor_assoc c, BitVec.xor_self, BitVec.xor_zero]
    _ = a ^^^ (a ^^^ b) ^^^ d := by rw [same]
    _ = b ^^^ d := by rw [← BitVec.xor_assoc a a, BitVec.xor_self, BitVec.zero_xor]

/-- The same word on the left of two equal exclusive ors cancels. -/
theorem xor_cancel {a b c : BitVec 64} (same : a ^^^ b = a ^^^ c) : b = c := by
  have paired := xor_eq_xor_swap same
  rw [BitVec.xor_self] at paired
  exact BitVec.xor_eq_zero_iff.mp paired.symm

/-- The exclusive or of a word with its shifted copy determines the word. -/
theorem xor_shift_injective {shift : Nat} (positive : 0 < shift) :
    Function.Injective fun word : BitVec 64 => word ^^^ (word >>> shift) := by
  intro left right same
  have difference : left ^^^ right = (left ^^^ right) >>> shift := by
    rw [BitVec.ushiftRight_xor_distrib]
    exact xor_eq_xor_swap same
  exact BitVec.xor_eq_zero_iff.mp (eq_zero_of_shift_eq positive difference)

/-- A constant with an inverse can be divided out. -/
theorem mul_injective_of_inverse {factor : BitVec 64} (inverse : BitVec 64)
    (inverts : factor * inverse = 1#64) :
    Function.Injective fun word : BitVec 64 => word * factor := by
  intro left right same
  have undone : left * factor * inverse = right * factor * inverse := congrArg (· * inverse) same
  rwa [BitVec.mul_assoc, BitVec.mul_assoc, inverts, BitVec.mul_one, BitVec.mul_one] at undone

theorem toBitVec_mixSeed (value : UInt64) : (mixSeed value).toBitVec =
    (fun word : BitVec 64 => word ^^^ (word >>> 31))
      ((fun word : BitVec 64 => word * 0x94d049bb133111eb#64)
        ((fun word : BitVec 64 => word ^^^ (word >>> 27))
          ((fun word : BitVec 64 => word * 0xbf58476d1ce4e5b9#64)
            ((fun word : BitVec 64 => word ^^^ (word >>> 30))
              (value.toBitVec + 0x9e3779b97f4a7c15#64))))) :=
  rfl

/-- The mixing function loses nothing. -/
theorem mixSeed_injective : Function.Injective mixSeed := by
  intro left right same
  have bits : (mixSeed left).toBitVec = (mixSeed right).toBitVec := congrArg UInt64.toBitVec same
  rw [toBitVec_mixSeed, toBitVec_mixSeed] at bits
  have unshifted := xor_shift_injective (by decide) bits
  have divided := mul_injective_of_inverse 0x319642b2d24d8ec3#64 rfl unshifted
  have unshifted := xor_shift_injective (by decide) divided
  have divided := mul_injective_of_inverse 0x96de1b173f119089#64 rfl unshifted
  have unshifted := xor_shift_injective (by decide) divided
  exact UInt64.toBitVec_inj.mp (add_right_cancel unshifted)

/-- Under one master seed, distinct streams have distinct seeds. -/
theorem deriveSeed_injective (masterSeed : UInt64) : Function.Injective (deriveSeed masterSeed) := by
  intro left right same
  have mixed := congrArg UInt64.toBitVec (mixSeed_injective same)
  have multiplied : left.toBitVec * 0xd2b74407b1ce6e93#64 =
      right.toBitVec * 0xd2b74407b1ce6e93#64 :=
    xor_cancel mixed
  exact UInt64.toBitVec_inj.mp
    (mul_injective_of_inverse 0xf5f365bd212bdf9b#64 rfl multiplied)

/-! ### The state of the generator -/

section States

/-- Some word is not zero. -/
def Nonzero (random : Random) : Prop :=
  random.state0 ||| random.state1 ||| random.state2 ||| random.state3 ≠ 0

/-- The state after a draw. -/
def next (random : Random) : Random := random.nextU64.2

theorem nonzero_iff (random : Random) : Nonzero random ↔ random ≠ ⟨0, 0, 0, 0⟩ := by
  obtain ⟨state0, state1, state2, state3⟩ := random
  rw [Nonzero, Ne, Ne, not_iff_not, Random.mk.injEq, UInt64.or_eq_zero_iff, UInt64.or_eq_zero_iff,
    UInt64.or_eq_zero_iff, and_assoc, and_assoc]

/-- A word that equals its own copy shifted to the left is zero. -/
theorem eq_zero_of_shiftLeft_eq {word : BitVec 64} {shift : Nat} (positive : 0 < shift)
    (same : word = word <<< shift) : word = 0#64 := by
  have clear : ∀ bit, word.getLsbD bit = false := by
    intro bit
    induction bit using Nat.strong_induction_on with
    | _ bit ih =>
      rw [same, BitVec.getLsbD_shiftLeft]
      by_cases low : bit < shift
      · simp [low]
      · rw [ih (bit - shift) (by omega), Bool.and_false]
  ext bit inside
  rw [← BitVec.getLsbD_eq_getElem, clear bit, BitVec.getElem_zero]

/-- The exclusive or of a word with its copy shifted to the left determines the word. -/
theorem xor_shiftLeft_injective {shift : Nat} (positive : 0 < shift) :
    Function.Injective fun word : BitVec 64 => word ^^^ (word <<< shift) := by
  intro left right same
  have difference : left ^^^ right = (left ^^^ right) <<< shift := by
    rw [BitVec.shiftLeft_xor_distrib]
    exact xor_eq_xor_swap same
  exact BitVec.xor_eq_zero_iff.mp (eq_zero_of_shiftLeft_eq positive difference)

/-- The rotation of a draw is undone by the rest of a full turn. -/
theorem rotl_rotl (word : UInt64) : Randomize.rotl (Randomize.rotl word 45) 19 = word := by
  apply UInt64.toBitVec_inj.mp
  have turned : (Randomize.rotl (Randomize.rotl word 45) 19).toBitVec =
      ((word.toBitVec <<< 45 ||| word.toBitVec >>> 19) <<< 19) |||
        ((word.toBitVec <<< 45 ||| word.toBitVec >>> 19) >>> 45) := rfl
  rw [turned]
  ext bit inside
  simp only [← BitVec.getLsbD_eq_getElem, BitVec.getLsbD_or, BitVec.getLsbD_shiftLeft,
    BitVec.getLsbD_ushiftRight]
  by_cases low : bit < 19
  · have high : ¬45 + bit < 45 := by omega
    have inner : 45 + bit < 64 := by omega
    have outside : 64 ≤ 19 + (45 + bit) := by omega
    simp [low, inner, BitVec.getLsbD_of_ge _ _ outside]
  · have middle : bit - 19 < 45 := by omega
    have back : 19 + (bit - 19) = bit := by omega
    have outside : 64 ≤ 19 + (45 + bit) := by omega
    have wrapped : ¬45 + bit < 64 := by omega
    simp [low, inside, middle, back, wrapped, BitVec.getLsbD_of_ge _ _ outside]

theorem xor_xor_cancel (a t b : UInt64) : a ^^^ t ^^^ (t ^^^ b) = a ^^^ b := by
  rw [UInt64.xor_assoc, ← UInt64.xor_assoc t t, UInt64.xor_self, UInt64.zero_xor]

theorem xor_right_cancel {a b t : UInt64} (same : a ^^^ t = b ^^^ t) : a = b := by
  have undone := congrArg (· ^^^ t) same
  simpa only [UInt64.xor_assoc, UInt64.xor_self, UInt64.xor_zero] using undone

/-- **A draw loses nothing of the state.** -/
theorem next_injective : Function.Injective next := by
  rintro ⟨x0, x1, x2, x3⟩ ⟨y0, y1, y2, y3⟩ same
  obtain ⟨same0, same1, same2, same3⟩ := Random.mk.inj same
  have sum3 : x3 ^^^ x1 = y3 ^^^ y1 := by
    rw [← rotl_rotl (x3 ^^^ x1), same3, rotl_rotl]
  have equal0 : x0 = y0 := xor_right_cancel (sum3 ▸ same0)
  -- The exclusive or of two words leaves the second word with its shifted copy.
  have mixed : x1 ^^^ (x1 <<< 17) = y1 ^^^ (y1 <<< 17) :=
    calc x1 ^^^ (x1 <<< 17) = x1 ^^^ (x2 ^^^ x0) ^^^ (x2 ^^^ x0 ^^^ (x1 <<< 17)) :=
          (xor_xor_cancel x1 (x2 ^^^ x0) (x1 <<< 17)).symm
      _ = y1 ^^^ (y2 ^^^ y0) ^^^ (y2 ^^^ y0 ^^^ (y1 <<< 17)) := congrArg₂ (· ^^^ ·) same1 same2
      _ = y1 ^^^ (y1 <<< 17) := xor_xor_cancel y1 (y2 ^^^ y0) (y1 <<< 17)
  have equal1 : x1 = y1 :=
    UInt64.toBitVec_inj.mp (xor_shiftLeft_injective (by decide) (congrArg UInt64.toBitVec mixed))
  subst equal0 equal1
  have equal2 : x2 = y2 := by
    rw [UInt64.xor_comm x1, UInt64.xor_comm x1] at same1
    exact xor_right_cancel (xor_right_cancel same1)
  rw [equal2, xor_right_cancel sum3]

theorem finite_random : Finite Random := by
  let words : Random → BitVec 64 × BitVec 64 × BitVec 64 × BitVec 64 := fun random =>
    (random.state0.toBitVec, random.state1.toBitVec, random.state2.toBitVec, random.state3.toBitVec)
  refine Finite.of_injective words fun first second same => ?_
  obtain ⟨state0, state1, state2, state3⟩ := first
  simp only [words, Prod.mk.injEq, UInt64.toBitVec_inj] at same
  rw [same.1, same.2.1, same.2.2.1, same.2.2.2]

theorem next_bijective : Function.Bijective next :=
  haveI := finite_random
  Finite.injective_iff_bijective.mp next_injective

/-- No draw leads to the state of zeros, which is its own successor. -/
theorem nonzero_next {random : Random} (nonzero : Nonzero random) : Nonzero (next random) := by
  rw [nonzero_iff] at nonzero ⊢
  exact fun zero => nonzero (next_injective (zero.trans (show (⟨0, 0, 0, 0⟩ : Random) = next ⟨0, 0, 0, 0⟩ from rfl)))

theorem nonzero_iterate {random : Random} (nonzero : Nonzero random) (draws : ℕ) :
    Nonzero (next^[draws] random) := by
  induction draws with
  | zero => exact nonzero
  | succ draws ih =>
    rw [Function.iterate_succ_apply']
    exact nonzero_next ih

theorem splitmixWords_eq (seed : UInt64) : splitmixWords seed =
    ⟨mixSeed seed, mixSeed (seed + 0x9e3779b97f4a7c15),
      mixSeed (seed + 0x9e3779b97f4a7c15 + 0x9e3779b97f4a7c15),
      mixSeed (seed + 0x9e3779b97f4a7c15 + 0x9e3779b97f4a7c15 + 0x9e3779b97f4a7c15)⟩ := rfl

/-- The first two words of a seed differ, so they are not both zero. -/
theorem nonzero_splitmixWords (seed : UInt64) : Nonzero (splitmixWords seed) := by
  rw [nonzero_iff, splitmixWords_eq]
  intro zero
  obtain ⟨first, second, -⟩ := Random.mk.inj zero
  have same := mixSeed_injective (first.trans second.symm)
  have absent : (0 : UInt64) = 0x9e3779b97f4a7c15 :=
    UInt64.add_left_inj seed |>.mp (by rw [UInt64.add_comm, UInt64.add_zero, UInt64.add_comm]; exact same)
  exact absurd absent (by decide)

theorem reseed_eq (seed : UInt64) : reseed seed = splitmixWords seed :=
  if_neg (nonzero_splitmixWords seed)

theorem reseed_injective : Function.Injective reseed := by
  intro first second same
  rw [reseed_eq, reseed_eq] at same
  exact mixSeed_injective (congrArg Random.state0 same)

/-- **The generator never degenerates.** -/
theorem random_never_degenerate :
    (∀ seed, Nonzero (splitmixWords seed) ∧ reseed seed = splitmixWords seed ∧
      ∀ draws, Nonzero (next^[draws] (reseed seed))) ∧
    Function.Bijective next ∧ Function.Injective reseed := by
  refine ⟨fun seed => ⟨nonzero_splitmixWords seed, reseed_eq seed, fun draws => ?_⟩,
    next_bijective, reseed_injective⟩
  rw [reseed_eq]
  exact nonzero_iterate (nonzero_splitmixWords seed) draws

end States

end Cpptb.Testing
