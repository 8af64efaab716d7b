/-
`Bits<W>`: a packed value of `W` bits in 32-bit words, least significant first.

The bits of the last word above bit `W - 1` are zero; every constructor masks them. `Bits.toNat`
reads the words as the digits of one number. `from_words` and `from_uint128` keep that number modulo
`2 ^ W`, and `to_uint128` returns it where it fits.
-/

import Mathlib

namespace Cpptb.FixedPoint

/-- `std::uint32_t`. -/
abbrev Word := BitVec 32

/-- `uint128_t`. -/
abbrev UInt128 := BitVec 128

section Words

/-- The number whose digits are the words, the least significant first. -/
def wordsValue (words : List Word) : ℕ := Nat.ofDigits (2 ^ 32) (words.map BitVec.toNat)

@[simp] theorem wordsValue_nil : wordsValue [] = 0 := rfl

@[simp] theorem wordsValue_cons (word : Word) (words : List Word) :
    wordsValue (word :: words) = word.toNat + 2 ^ 32 * wordsValue words := by
  simp [wordsValue, Nat.ofDigits_cons]

theorem wordsValue_append (low high : List Word) :
    wordsValue (low ++ high) = wordsValue low + 2 ^ (32 * low.length) * wordsValue high := by
  rw [wordsValue, List.map_append, Nat.ofDigits_append, List.length_map, ← pow_mul]
  rfl

theorem wordsValue_replicate_zero (n : ℕ) : wordsValue (List.replicate n 0) = 0 := by
  induction n with
  | zero => rfl
  | succ n ih => rw [List.replicate_succ, wordsValue_cons, ih]; rfl

/-- The words of a value, one shift by 32 after the other. -/
def lowWords : ℕ → UInt128 → List Word
  | 0, _ => []
  | n + 1, value => value.setWidth 32 :: lowWords n (value >>> 32)

@[simp] theorem length_lowWords (n : ℕ) (value : UInt128) : (lowWords n value).length = n := by
  induction n generalizing value with
  | zero => rfl
  | succ n ih => rw [lowWords, List.length_cons, ih]

theorem wordsValue_lowWords (n : ℕ) (value : UInt128) :
    wordsValue (lowWords n value) = value.toNat % 2 ^ (32 * n) := by
  induction n generalizing value with
  | zero => rw [lowWords, wordsValue_nil, mul_zero, pow_zero, Nat.mod_one]
  | succ n ih =>
    rw [lowWords, wordsValue_cons, ih, BitVec.toNat_setWidth, BitVec.toNat_ushiftRight,
      Nat.shiftRight_eq_div_pow, Nat.mul_succ, Nat.add_comm (32 * n), pow_add, Nat.mod_mul]

end Words

section Width

/-- The words of a width. -/
def wordCount (W : ℕ) : ℕ := (W + 31) / 32

/-- The bits of the last word that belong to the value. -/
def topMask (W : ℕ) : Word := if W % 32 = 0 then BitVec.allOnes 32 else (1 : Word) <<< (W % 32) - 1

/-- `words_.back() &= top_mask()`. -/
def maskPadding (W : ℕ) : List Word → List Word
  | [] => []
  | [back] => [back &&& topMask W]
  | word :: next :: rest => word :: maskPadding W (next :: rest)

@[simp] theorem length_maskPadding (W : ℕ) (words : List Word) :
    (maskPadding W words).length = words.length := by
  induction words using maskPadding.induct with
  | case1 => rfl
  | case2 => rfl
  | case3 word next rest ih => rw [maskPadding, List.length_cons, ih]; rfl

theorem toNat_topMask {W : ℕ} (single : W ≤ 32) (positive : 0 < W) :
    (topMask W).toNat = 2 ^ W - 1 := by
  interval_cases W <;> rfl

/-- The mask depends on the bits of the last word alone. -/
theorem maskPadding_add (W : ℕ) (words : List Word) :
    maskPadding (W + 32) words = maskPadding W words := by
  have mask : topMask (W + 32) = topMask W := by rw [topMask, topMask, Nat.add_mod_right]
  induction words using maskPadding.induct with
  | case1 => rfl
  | case2 back => rw [maskPadding, maskPadding, mask]
  | case3 word next rest ih => rw [maskPadding, maskPadding, ih]

/-- Masking the last word takes the number modulo `2 ^ W`. -/
theorem wordsValue_maskPadding {W : ℕ} (positive : 0 < W) (words : List Word)
    (size : words.length = wordCount W) :
    wordsValue (maskPadding W words) = wordsValue words % 2 ^ W := by
  induction words using maskPadding.induct generalizing W with
  | case1 => rw [maskPadding, wordsValue_nil, Nat.zero_mod]
  | case2 back =>
    have single : W ≤ 32 := by
      unfold wordCount at size
      simp only [List.length_cons, List.length_nil] at size
      omega
    rw [maskPadding, wordsValue_cons, wordsValue_cons, wordsValue_nil, mul_zero, add_zero,
      add_zero, BitVec.toNat_and, toNat_topMask single positive, Nat.and_two_pow_sub_one_eq_mod]
  | case3 word next rest ih =>
    simp only [wordCount, List.length_cons] at size
    obtain ⟨V, rfl⟩ : ∃ V, W = V + 32 := ⟨W - 32, by omega⟩
    have step := ih (W := V) (by omega) (by rw [wordCount, List.length_cons]; omega)
    rw [maskPadding, wordsValue_cons, maskPadding_add, step, wordsValue_cons word,
      Nat.add_comm V, pow_add, Nat.mod_mul, Nat.add_mul_mod_self_left, Nat.mod_eq_of_lt word.isLt,
      Nat.add_mul_div_left _ _ (by norm_num), Nat.div_eq_of_lt word.isLt, zero_add]

end Width

/-- A packed value. No bit above `W - 1` is set. -/
structure Bits (W : ℕ) where
  words : List Word
  size : words.length = wordCount W
  padded : wordsValue words < 2 ^ W

namespace Bits

variable {W : ℕ}

/-- The packed value as a number. -/
def toNat (bits : Bits W) : ℕ := wordsValue bits.words

theorem toNat_lt (bits : Bits W) : bits.toNat < 2 ^ W := bits.padded

theorem wordsValue_maskPadding_lt (positive : 0 < W) (words : List Word)
    (size : words.length = wordCount W) : wordsValue (maskPadding W words) < 2 ^ W := by
  rw [wordsValue_maskPadding positive words size]
  exact Nat.mod_lt _ (by positivity)

def fromWords (positive : 0 < W) (words : List Word) (size : words.length = wordCount W) :
    Bits W where
  words := maskPadding W words
  size := by rw [length_maskPadding, size]
  padded := wordsValue_maskPadding_lt positive words size

/-- The words of a value, and `fill` in the words that it does not reach. -/
def copiedWords (W : ℕ) (fill : Word) (value : UInt128) : List Word :=
  lowWords (min (wordCount W) 4) value ++
    List.replicate (wordCount W - min (wordCount W) 4) fill

theorem length_copiedWords (fill : Word) (value : UInt128) :
    (copiedWords W fill value).length = wordCount W := by
  rw [copiedWords, List.length_append, length_lowWords, List.length_replicate]
  omega

def fromUInt128 (positive : 0 < W) (value : UInt128) : Bits W :=
  fromWords positive (copiedWords W 0 value) (length_copiedWords 0 value)

def toUInt128 (bits : Bits W) : UInt128 :=
  bits.words.foldr (fun word result => (result <<< 32) ||| word.setWidth 128) 0

theorem toNat_fromUInt128 (positive : 0 < W) (value : UInt128) :
    (fromUInt128 positive value).toNat = value.toNat % 2 ^ W := by
  show wordsValue (maskPadding W (copiedWords W 0 value)) = _
  rw [wordsValue_maskPadding positive _ (length_copiedWords 0 value), copiedWords,
    wordsValue_append, wordsValue_replicate_zero, mul_zero, add_zero, wordsValue_lowWords]
  rcases le_total (wordCount W) 4 with few | many
  · -- every word is copied, and the words hold at least the width
    rw [min_eq_left few]
    exact Nat.mod_mod_of_dvd _ (pow_dvd_pow 2 (by unfold wordCount; omega))
  · rw [min_eq_right many, Nat.mod_eq_of_lt (show value.toNat < 2 ^ (32 * 4) from value.isLt)]

/-- One step of the loop that packs the words. -/
theorem toNat_shift_or (result : UInt128) (word : Word) :
    ((result <<< 32) ||| word.setWidth 128).toNat
      = (word.toNat + 2 ^ 32 * result.toNat) % 2 ^ 128 := by
  have low : word.toNat < 2 ^ 32 := word.isLt
  have shifted : (result.toNat <<< 32) % 2 ^ 128 = (result.toNat % 2 ^ 96) <<< 32 := by
    rw [Nat.shiftLeft_eq, Nat.shiftLeft_eq, show 2 ^ 128 = 2 ^ 96 * 2 ^ 32 by norm_num,
      Nat.mul_mod_mul_right]
  rw [BitVec.toNat_or, BitVec.toNat_shiftLeft, shifted, BitVec.toNat_setWidth,
    Nat.mod_eq_of_lt (low.trans (by norm_num)), ← Nat.shiftLeft_add_eq_or_of_lt low,
    Nat.shiftLeft_eq]
  omega

/-- The words come back as one integer where they fit. -/
theorem toNat_toUInt128 (narrow : W ≤ 128) (bits : Bits W) :
    bits.toUInt128.toNat = bits.toNat := by
  have fold : ∀ words : List Word, (words.foldr
      (fun (word : Word) (result : UInt128) => (result <<< 32) ||| word.setWidth 128) 0).toNat
        = wordsValue words % 2 ^ 128 := by
    intro words
    induction words with
    | nil => rfl
    | cons word words ih =>
      rw [List.foldr_cons, toNat_shift_or, ih, wordsValue_cons, Nat.add_mod, Nat.mul_mod_mod,
        ← Nat.add_mod]
  rw [toUInt128, fold]
  exact Nat.mod_eq_of_lt (bits.toNat_lt.trans_le (Nat.pow_le_pow_right (by norm_num) narrow))

end Bits

end Cpptb.FixedPoint
