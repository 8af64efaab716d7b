/-
Slices of packed values.

* `testBit_wordsValue`: bit `i` of a value is bit `i % 32` of word `i / 32`.
* `fragment_spec`: 32 bits from any position on, out of two words.
* `copyWord_spec`, `copyWords_spec`: the loop of `set_slice` changes the bits of the slice and no others.
* `packed_slicing_exact`, with the mutators that keep the padding zero.

What the language leaves undefined is a fault of its own: a word outside the array, and a shift by 32 or
more.
-/

import Cpptb.FixedPoint.PackedBits

namespace Cpptb.FixedPoint

/-- Why an operation does not return: `fail` and `fail_index` abort, the other two are undefined. -/
inductive Fault
  | fail (message : String)
  | failIndex (operation : String) (index limit : ℕ)
  | outside (index : ℕ)
  | shift (count : ℕ)
  deriving DecidableEq, Repr

section Operations

/-- `words_[index]`. -/
def readWord (words : List Word) (index : ℕ) : Except Fault Word :=
  match words[index]? with
  | some word => return word
  | none => throw (.outside index)

/-- `words_[index] = value`. -/
def writeWord (words : List Word) (index : ℕ) (value : Word) : Except Fault (List Word) :=
  if index < words.length then return words.set index value else throw (.outside index)

/-- `value << count`. -/
def shiftWordLeft (value : Word) (count : ℕ) : Except Fault Word :=
  if count < 32 then return value <<< count else throw (.shift count)

/-- `value >> count`. -/
def shiftWordRight (value : Word) (count : ℕ) : Except Fault Word :=
  if count < 32 then return value >>> count else throw (.shift count)

/-- `low_mask`. -/
def lowMask (bitCount : ℕ) : Except Fault Word := do
  if bitCount = 32 then return BitVec.allOnes 32 else return (← shiftWordLeft 1 bitCount) - 1

/-- 32 bits from a position in a word on; those past the last word are zero. -/
def fragment (words : List Word) (sourceWord sourceShift : ℕ) : Except Fault Word := do
  let value ← shiftWordRight (← readWord words sourceWord) sourceShift
  if sourceShift ≠ 0 ∧ sourceWord + 1 < words.length then
    return value ||| (← shiftWordLeft (← readWord words (sourceWord + 1)) (32 - sourceShift))
  else return value

namespace Bits

variable {W K : ℕ}

/-- `bit`. -/
def bit (bits : Bits W) (index : ℕ) : Except Fault Bool := do
  if index ≥ W then throw (.failIndex "bit" index W)
  else return ((← shiftWordRight (← readWord bits.words (index / 32)) (index % 32)) &&& 1) != 0

/-- `slice`. -/
def slice (positive : 0 < K) (bits : Bits W) (lsb : ℕ) : Except Fault (Bits K) := do
  if lsb > W ∨ K > W - lsb then throw (.fail "Bits slice is out of bounds")
  else
    let resultWords ← Vector.ofFnM fun index : Fin (wordCount K) =>
      fragment bits.words (lsb / 32 + index) (lsb % 32)
    return fromWords positive resultWords.toList resultWords.length_toList

/-- One round of the loop of `set_slice`. -/
def copyWord (K lsb : ℕ) (sourceWords words : List Word) (destinationWord : ℕ) :
    Except Fault (List Word) := do
  let sliceEnd := lsb + K
  let destinationBegin := destinationWord * 32
  let overlapBegin := if lsb > destinationBegin then lsb else destinationBegin
  let destinationEnd := destinationBegin + 32
  let overlapEnd := if sliceEnd < destinationEnd then sliceEnd else destinationEnd
  let destinationShift := overlapBegin - destinationBegin
  let copiedBits := overlapEnd - overlapBegin
  let sourceOffset := overlapBegin - lsb
  let copied ← fragment sourceWords (sourceOffset / 32) (sourceOffset % 32)
  let copiedMask ← lowMask copiedBits
  let destinationMask ← shiftWordLeft copiedMask destinationShift
  let kept := (← readWord words destinationWord) &&& ~~~destinationMask
  writeWord words destinationWord (kept ||| (← shiftWordLeft (copied &&& copiedMask) destinationShift))

/-- `set_slice`: the words that it leaves. -/
def setSlice (bits : Bits W) (lsb : ℕ) (value : Bits K) : Except Fault (List Word) :=
  if lsb > W ∨ K > W - lsb then throw (.fail "Bits set_slice is out of bounds")
  else
    let first := lsb / 32
    let last := (lsb + K - 1) / 32
    (List.range' first (last + 1 - first)).foldlM (copyWord K lsb value.words) bits.words

/-- `set_word`. -/
def setWord (bits : Bits W) (index : ℕ) (value : Word) : Except Fault (List Word) := do
  if index ≥ wordCount W then throw (.failIndex "set_word" index (wordCount W))
  else return maskPadding W (← writeWord bits.words index value)

/-- `set_bit`. -/
def setBit (bits : Bits W) (index : ℕ) (value : Bool) : Except Fault (List Word) := do
  if index ≥ W then throw (.failIndex "set_bit" index W)
  else
    let mask ← shiftWordLeft 1 (index % 32)
    let word ← readWord bits.words (index / 32)
    writeWord bits.words (index / 32) (if value then word ||| mask else word &&& ~~~mask)

/-- The default constructor. -/
def zero (W : ℕ) : Bits W where
  words := List.replicate (wordCount W) 0
  size := List.length_replicate
  padded := by
    rw [wordsValue_replicate_zero]
    positivity

/-- The words of a 64-bit value, and zero in the words that it does not reach. -/
def uintWords (W : ℕ) (value : BitVec 64) : List Word :=
  [value.setWidth 32, (value >>> 32).setWidth 32].take (wordCount W)
    ++ List.replicate (wordCount W - 2) 0

theorem length_uintWords (positive : 0 < W) (value : BitVec 64) :
    (uintWords W value).length = wordCount W := by
  have : 0 < wordCount W := Nat.div_pos (by omega) (by omega)
  simp only [uintWords, List.length_append, List.length_take, List.length_cons, List.length_nil,
    List.length_replicate]
  omega

/-- `from_uint`. -/
def fromUInt (positive : 0 < W) (value : BitVec 64) : Bits W :=
  fromWords positive (uintWords W value) (length_uintWords positive value)

end Bits

end Operations

section Positions

/-- Bit `i` of a value is a bit of word `i / 32`. -/
theorem testBit_wordsValue (words : List Word) (i : ℕ) :
    (wordsValue words).testBit i = (words.getD (i / 32) 0).getLsbD (i % 32) := by
  induction words generalizing i with
  | nil => simp
  | cons word rest ih =>
    rw [wordsValue_cons, Nat.add_comm, Nat.testBit_two_pow_mul_add _ word.isLt]
    split
    next low =>
      rw [Nat.div_eq_of_lt low, Nat.mod_eq_of_lt low]
      rfl
    next high =>
      rw [ih, show i / 32 = (i - 32) / 32 + 1 by omega, show (i - 32) % 32 = i % 32 by omega]
      rfl

/-- The bit of a word at its position in the value. -/
theorem testBit_of_word (words : List Word) (index : ℕ) {j : ℕ} (inside : j < 32) :
    (wordsValue words).testBit (32 * index + j) = (words.getD index 0).getLsbD j := by
  rw [testBit_wordsValue, show (32 * index + j) / 32 = index by omega,
    show (32 * index + j) % 32 = j by omega]

/-- Words are determined by their bits. -/
theorem words_ext {left right : List Word} (length : left.length = right.length)
    (same : ∀ i, (wordsValue left).testBit i = (wordsValue right).testBit i) : left = right := by
  refine List.ext_getElem length fun index inLeft inRight => BitVec.eq_of_getLsbD_eq fun j inside => ?_
  have bits := same (32 * index + j)
  rwa [testBit_of_word _ _ inside, testBit_of_word _ _ inside, List.getD_eq_getElem _ _ inLeft,
    List.getD_eq_getElem _ _ inRight] at bits

/-- A value is below `2 ^ W` when it has no bit from `W` on. -/
theorem wordsValue_lt_of_bits {W : ℕ} {words : List Word}
    (zero : ∀ i, W ≤ i → (wordsValue words).testBit i = false) : wordsValue words < 2 ^ W :=
  Nat.lt_pow_two_of_testBit _ zero

theorem readWord_eq {words : List Word} {index : ℕ} (inside : index < words.length) :
    readWord words index = .ok (words.getD index 0) := by
  rw [readWord, List.getElem?_eq_getElem inside, List.getD_eq_getElem _ _ inside]
  rfl

theorem writeWord_eq {words : List Word} {index : ℕ} (inside : index < words.length) (value : Word) :
    writeWord words index value = .ok (words.set index value) := if_pos inside

theorem shiftWordLeft_eq (value : Word) {count : ℕ} (defined : count < 32) :
    shiftWordLeft value count = .ok (value <<< count) := if_pos defined

theorem shiftWordRight_eq (value : Word) {count : ℕ} (defined : count < 32) :
    shiftWordRight value count = .ok (value >>> count) := if_pos defined

/-- Writing a word changes its bits. -/
theorem testBit_set {words : List Word} {index : ℕ} (inside : index < words.length) (value : Word)
    (i : ℕ) : (wordsValue (words.set index value)).testBit i
      = if i / 32 = index then value.getLsbD (i % 32) else (wordsValue words).testBit i := by
  rw [testBit_wordsValue, testBit_wordsValue, List.getD_eq_getElem?_getD, List.getElem?_set]
  split
  next here =>
    rw [if_pos here.symm]
    rfl
  next elsewhere =>
    rw [if_neg (Ne.symm elsewhere), List.getD_eq_getElem?_getD]

/-- The mask of one bit. -/
theorem getLsbD_bitMask {count : ℕ} (defined : count < 32) (j : ℕ) :
    ((1 : Word) <<< count).getLsbD j = decide (j = count) := by
  show (BitVec.twoPow 32 count).getLsbD j = _
  rw [BitVec.getLsbD_twoPow, decide_eq_true defined, Bool.true_and]
  exact decide_eq_decide.mpr eq_comm

/-- The mask of the low bits. -/
theorem lowMask_spec {bitCount : ℕ} (positive : 0 < bitCount) (fits : bitCount ≤ 32) :
    ∃ mask, lowMask bitCount = .ok mask ∧ ∀ j < 32, mask.getLsbD j = decide (j < bitCount) := by
  unfold lowMask
  split
  next all =>
    refine ⟨_, rfl, fun j inside => ?_⟩
    rw [BitVec.getLsbD_allOnes, all]
  next notAll =>
    have defined : bitCount < 32 := by omega
    refine ⟨(1 : Word) <<< bitCount - 1, by rw [shiftWordLeft_eq 1 defined]; rfl, fun j inside => ?_⟩
    have value : ((1 : Word) <<< bitCount - 1).toNat = 2 ^ bitCount - 1 := by
      interval_cases bitCount <;> rfl
    rw [← BitVec.testBit_toNat, value, Nat.testBit_two_pow_sub_one]

/-- A fragment has the bits from its position on. -/
theorem fragment_spec {words : List Word} {sourceWord sourceShift : ℕ}
    (inside : sourceWord < words.length) (defined : sourceShift < 32) :
    ∃ value, fragment words sourceWord sourceShift = .ok value ∧ ∀ j < 32,
      value.getLsbD j = (wordsValue words).testBit (32 * sourceWord + sourceShift + j) := by
  unfold fragment
  rw [readWord_eq inside]
  simp only [bind, Except.bind]
  rw [shiftWordRight_eq _ defined]
  simp only
  have low : ∀ j, sourceShift + j < 32 → ((words.getD sourceWord 0) >>> sourceShift).getLsbD j
      = (wordsValue words).testBit (32 * sourceWord + sourceShift + j) := fun j within => by
    rw [BitVec.getLsbD_ushiftRight, Nat.add_assoc, testBit_of_word _ _ within]
  have above : ∀ j, ¬ sourceShift + j < 32 →
      ((words.getD sourceWord 0) >>> sourceShift).getLsbD j = false := fun j beyond => by
    rw [BitVec.getLsbD_ushiftRight]
    exact BitVec.getLsbD_of_ge _ _ (by omega)
  have next : ∀ j, j < 32 → ¬ sourceShift + j < 32 →
      (wordsValue words).testBit (32 * sourceWord + sourceShift + j)
        = (words.getD (sourceWord + 1) 0).getLsbD (sourceShift + j - 32) := fun j small beyond => by
    rw [← testBit_of_word _ _ (show sourceShift + j - 32 < 32 by omega)]
    congr 1
    omega
  split
  next more =>
    rw [readWord_eq more.2]
    simp only [shiftWordLeft_eq _ (show 32 - sourceShift < 32 by omega)]
    refine ⟨_, rfl, fun j small => ?_⟩
    rw [BitVec.getLsbD_or, BitVec.getLsbD_shiftLeft]
    by_cases within : sourceShift + j < 32
    · rw [low j within, decide_eq_true (show j < 32 - sourceShift by omega)]
      simp
    · rw [above j within, next j small within, decide_eq_true small,
        decide_eq_false (show ¬ j < 32 - sourceShift by omega),
        show j - (32 - sourceShift) = sourceShift + j - 32 by omega]
      simp
  next last =>
    refine ⟨_, rfl, fun j small => ?_⟩
    by_cases within : sourceShift + j < 32
    · exact low j within
    · have past : words.length ≤ sourceWord + 1 := by
        by_contra! more
        exact last ⟨by omega, more⟩
      rw [above j within, next j small within, List.getD_eq_default _ _ past]
      simp

end Positions

namespace Bits

variable {W K : ℕ}

/-- Bit `i` of the value. -/
def test (bits : Bits W) (i : ℕ) : Bool := bits.toNat.testBit i

theorem test_of_ge (bits : Bits W) {i : ℕ} (above : W ≤ i) : bits.test i = false :=
  Nat.testBit_lt_two_pow (bits.toNat_lt.trans_le (Nat.pow_le_pow_right (by decide) above))

theorem ext_test {left right : Bits W} (same : ∀ i, left.test i = right.test i) : left = right := by
  obtain ⟨leftWords, leftSize, leftPadded⟩ := left
  obtain ⟨rightWords, rightSize, rightPadded⟩ := right
  obtain rfl : leftWords = rightWords := words_ext (leftSize.trans rightSize.symm) same
  rfl

/-- The word of a bit is in the array. -/
theorem word_inside (bits : Bits W) {i : ℕ} (inside : i < W) : i / 32 < bits.words.length := by
  rw [bits.size, wordCount]
  omega

theorem bit_eq (bits : Bits W) {i : ℕ} (inside : i < W) : bits.bit i = .ok (bits.test i) := by
  have masked : ∀ word : Word, ((word >>> (i % 32)) &&& 1 != 0) = word.getLsbD (i % 32) := fun word => by
    have first : (word >>> (i % 32)).getLsbD 0 = word.getLsbD (i % 32) := by
      rw [BitVec.getLsbD_ushiftRight, Nat.add_zero]
    show ((word >>> (i % 32)) &&& 1#32 != 0) = _
    rw [BitVec.and_one_eq_setWidth_ofBool_getLsbD, first]
    cases word.getLsbD (i % 32) <;> rfl
  rw [bit, if_neg (Nat.not_le.mpr inside), readWord_eq (bits.word_inside inside)]
  simp only [bind, Except.bind]
  rw [shiftWordRight_eq _ (show i % 32 < 32 by omega)]
  simp only
  rw [masked, test, toNat, testBit_wordsValue]
  rfl

/-- Masking the padding drops the bits from the width on. -/
theorem test_fromWords (positive : 0 < W) (words : List Word) (size : words.length = wordCount W) (i : ℕ) :
    (fromWords positive words size).test i = (decide (i < W) && (wordsValue words).testBit i) := by
  show (wordsValue (maskPadding W words)).testBit i = _
  rw [wordsValue_maskPadding positive words size, Nat.testBit_mod_two_pow]

/-- A slice has the bits of its range. -/
theorem slice_spec (positive : 0 < K) (bits : Bits W) {lsb : ℕ} (accepted : lsb + K ≤ W) :
    ∃ part : Bits K, bits.slice positive lsb = .ok part ∧
      ∀ i, part.test i = (decide (i < K) && bits.test (lsb + i)) := by
  have inside : ∀ index : Fin (wordCount K), lsb / 32 + index < bits.words.length := fun index => by
    have small : index.val < (K + 31) / 32 := index.isLt
    rw [bits.size]
    show lsb / 32 + index.val < (W + 31) / 32
    omega
  choose value isValue atBit using fun index : Fin (wordCount K) =>
    fragment_spec (inside index) (Nat.mod_lt lsb (show 0 < 32 by decide))
  refine ⟨fromWords positive (Vector.ofFn value).toList Vector.length_toList, ?_, fun i => ?_⟩
  · have collected : Vector.ofFnM (fun index : Fin (wordCount K) =>
        fragment bits.words (lsb / 32 + index) (lsb % 32)) = .ok (Vector.ofFn value) := by
      simp only [isValue]
      exact Vector.ofFnM_pure
    rw [slice, if_neg (by omega), collected]
    rfl
  · rw [test_fromWords]
    by_cases small : i < K
    · rw [decide_eq_true small, Bool.true_and, Bool.true_and, testBit_wordsValue]
      have index : i / 32 < wordCount K := by
        rw [wordCount]
        omega
      rw [Vector.toList_ofFn, List.getD_eq_getElem _ _ (by rw [List.length_ofFn]; exact index),
        List.getElem_ofFn, atBit ⟨i / 32, index⟩ _ (Nat.mod_lt _ (by decide))]
      show _ = (wordsValue bits.words).testBit (lsb + i)
      congr 1
      show 32 * (lsb / 32 + i / 32) + lsb % 32 + i % 32 = lsb + i
      omega
    · rw [decide_eq_false small, Bool.false_and, Bool.false_and]

/-- One round changes the bits of the slice in its word. -/
theorem copyWord_spec {lsb : ℕ} (positive : 0 < K) {sourceWords words : List Word} {d : ℕ}
    (size : sourceWords.length = wordCount K) (fits : d < words.length) (first : lsb / 32 ≤ d)
    (last : d ≤ (lsb + K - 1) / 32) :
    ∃ words', copyWord K lsb sourceWords words d = .ok words' ∧ words'.length = words.length ∧
      ∀ i, (wordsValue words').testBit i = if lsb ≤ i ∧ i < lsb + K ∧ i / 32 = d
        then (wordsValue sourceWords).testBit (i - lsb) else (wordsValue words).testBit i := by
  let overlapBegin := if lsb > d * 32 then lsb else d * 32
  let overlapEnd := if lsb + K < d * 32 + 32 then lsb + K else d * 32 + 32
  have bounds : lsb ≤ overlapBegin ∧ d * 32 ≤ overlapBegin ∧ overlapBegin < overlapEnd ∧
      overlapEnd ≤ lsb + K ∧ overlapEnd ≤ d * 32 + 32 ∧
      (∀ i, overlapBegin ≤ i ∧ i < overlapEnd ↔ lsb ≤ i ∧ i < lsb + K ∧ i / 32 = d) := by
    simp only [overlapBegin, overlapEnd]
    split_ifs <;> refine ⟨by omega, by omega, by omega, by omega, by omega, fun i => by omega⟩
  obtain ⟨fromLsb, fromWord, nonempty, toEnd, toWord, overlap⟩ := bounds
  obtain ⟨copied, isCopied, copiedBits⟩ := fragment_spec
    (show (overlapBegin - lsb) / 32 < sourceWords.length by rw [size, wordCount]; omega)
    (Nat.mod_lt (overlapBegin - lsb) (show 0 < 32 by decide))
  obtain ⟨mask, isMask, maskBits⟩ := lowMask_spec
    (show 0 < overlapEnd - overlapBegin by omega) (show overlapEnd - overlapBegin ≤ 32 by omega)
  have shift : overlapBegin - d * 32 < 32 := by omega
  let new := (words.getD d 0 &&& ~~~(mask <<< (overlapBegin - d * 32))) |||
    ((copied &&& mask) <<< (overlapBegin - d * 32))
  refine ⟨words.set d new, ?_, List.length_set, fun i => ?_⟩
  · show (fragment sourceWords ((overlapBegin - lsb) / 32) ((overlapBegin - lsb) % 32) >>= fun copied =>
      lowMask (overlapEnd - overlapBegin) >>= fun copiedMask =>
      shiftWordLeft copiedMask (overlapBegin - d * 32) >>= fun destinationMask =>
      readWord words d >>= fun old =>
      shiftWordLeft (copied &&& copiedMask) (overlapBegin - d * 32) >>= fun shifted =>
      writeWord words d ((old &&& ~~~destinationMask) ||| shifted)) = _
    rw [isCopied]
    simp only [bind, Except.bind]
    rw [isMask]
    simp only
    rw [shiftWordLeft_eq _ shift]
    simp only
    rw [readWord_eq fits]
    simp only
    rw [shiftWordLeft_eq _ shift]
    exact writeWord_eq fits new
  · rw [testBit_set fits]
    by_cases here : i / 32 = d
    · rw [if_pos here]
      have small := Nat.mod_lt i (show 0 < 32 by decide)
      have old : (wordsValue words).testBit i = (words.getD d 0).getLsbD (i % 32) := by
        rw [testBit_wordsValue, here]
      simp only [new, BitVec.getLsbD_or, BitVec.getLsbD_and, BitVec.getLsbD_not, BitVec.getLsbD_shiftLeft]
      by_cases within : lsb ≤ i ∧ i < lsb + K ∧ i / 32 = d
      · obtain ⟨low, high⟩ := (overlap i).mpr within
        rw [if_pos within, copiedBits _ (by omega), maskBits _ (by omega), decide_eq_true small,
          decide_eq_false (show ¬ i % 32 < overlapBegin - d * 32 by omega),
          decide_eq_true (show i % 32 - (overlapBegin - d * 32) < overlapEnd - overlapBegin by omega),
          show 32 * ((overlapBegin - lsb) / 32) + (overlapBegin - lsb) % 32
            + (i % 32 - (overlapBegin - d * 32)) = i - lsb by omega]
        simp
      · have outside := mt (overlap i).mp within
        rw [if_neg within, old]
        by_cases below : i % 32 < overlapBegin - d * 32
        · simp [below, small]
        · rw [maskBits _ (by omega), decide_eq_false
            (show ¬ i % 32 - (overlapBegin - d * 32) < overlapEnd - overlapBegin by omega)]
          simp [small]
    · rw [if_neg here, if_neg fun within => here within.2.2]

/-- The rounds up to a word change the bits of the slice up to there. -/
theorem copyWords_spec {lsb : ℕ} (positive : 0 < K) {sourceWords words : List Word}
    (size : sourceWords.length = wordCount K) (fits : (lsb + K - 1) / 32 < words.length) (n : ℕ)
    (rounds : lsb / 32 + n ≤ (lsb + K - 1) / 32 + 1) :
    ∃ words', (List.range' (lsb / 32) n).foldlM (copyWord K lsb sourceWords) words = .ok words' ∧
      words'.length = words.length ∧
      ∀ i, (wordsValue words').testBit i = if lsb ≤ i ∧ i < lsb + K ∧ i / 32 < lsb / 32 + n
        then (wordsValue sourceWords).testBit (i - lsb) else (wordsValue words).testBit i := by
  induction n with
  | zero =>
    refine ⟨words, rfl, rfl, fun i => ?_⟩
    rw [if_neg (by omega)]
  | succ n ih =>
    obtain ⟨before, ran, length, bits⟩ := ih (by omega)
    obtain ⟨after, copied, length', bits'⟩ := copyWord_spec positive size
      (show lsb / 32 + n < before.length by omega) (Nat.le_add_right _ n)
      (show lsb / 32 + n ≤ (lsb + K - 1) / 32 by omega)
    refine ⟨after, ?_, length'.trans length, fun i => ?_⟩
    · rw [List.range'_1_concat, List.foldlM_append, ran]
      simp only [bind, Except.bind, List.foldlM_cons, List.foldlM_nil, copied]
      rfl
    · rw [bits', bits]
      by_cases here : lsb ≤ i ∧ i < lsb + K ∧ i / 32 = lsb / 32 + n
      · rw [if_pos here, if_pos (by omega)]
      · rw [if_neg here]
        exact if_congr (by omega) rfl rfl

/-- `set_slice` changes the bits of its range. -/
theorem setSlice_spec (positive : 0 < K) (bits : Bits W) (value : Bits K) {lsb : ℕ}
    (accepted : lsb + K ≤ W) : ∃ after : Bits W, bits.setSlice lsb value = .ok after.words ∧
      ∀ i, after.test i = if lsb ≤ i ∧ i < lsb + K then value.test (i - lsb) else bits.test i := by
  obtain ⟨words, ran, length, changed⟩ := copyWords_spec positive value.size
    (bits.word_inside (show lsb + K - 1 < W by omega)) ((lsb + K - 1) / 32 + 1 - lsb / 32) (by omega)
  have exact : ∀ i, (wordsValue words).testBit i
      = if lsb ≤ i ∧ i < lsb + K then value.test (i - lsb) else bits.test i := fun i => by
    rw [changed i]
    exact if_congr (by omega) rfl rfl
  refine ⟨⟨words, length.trans bits.size, wordsValue_lt_of_bits fun i above => ?_⟩, ?_, exact⟩
  · rw [exact i, if_neg (by omega)]
    exact bits.test_of_ge above
  · rw [setSlice, if_neg (by omega)]
    exact ran

/-- `set_word` changes the bits of its word, below the width. -/
theorem setWord_spec (positive : 0 < W) (bits : Bits W) {index : ℕ} (value : Word)
    (inside : index < wordCount W) : ∃ after : Bits W, bits.setWord index value = .ok after.words ∧
      ∀ i, after.test i
        = if i / 32 = index then decide (i < W) && value.getLsbD (i % 32) else bits.test i := by
  have fits : index < bits.words.length := by rwa [bits.size]
  refine ⟨fromWords positive (bits.words.set index value) (List.length_set.trans bits.size), ?_,
    fun i => ?_⟩
  · rw [setWord, if_neg (Nat.not_le.mpr inside), writeWord_eq fits]
    rfl
  · rw [test_fromWords, testBit_set fits]
    split
    next => rfl
    next =>
      by_cases small : i < W
      · rw [decide_eq_true small, Bool.true_and]
        rfl
      · rw [decide_eq_false small, Bool.false_and, bits.test_of_ge (Nat.le_of_not_lt small)]

/-- `set_bit` changes its bit. -/
theorem setBit_spec (bits : Bits W) {index : ℕ} (value : Bool) (inside : index < W) :
    ∃ after : Bits W, bits.setBit index value = .ok after.words ∧
      ∀ i, after.test i = if i = index then value else bits.test i := by
  have fits := bits.word_inside inside
  have defined : index % 32 < 32 := Nat.mod_lt _ (by decide)
  let old := bits.words.getD (index / 32) 0
  let mask : Word := (1 : Word) <<< (index % 32)
  let new := if value then old ||| mask else old &&& ~~~mask
  have newBits : ∀ j < 32, new.getLsbD j = if j = index % 32 then value else old.getLsbD j := by
    intro j small
    have bit : mask.getLsbD j = decide (j = index % 32) := getLsbD_bitMask defined j
    cases value
    · simp only [new, Bool.false_eq_true, if_false, BitVec.getLsbD_and, BitVec.getLsbD_not, bit,
        decide_eq_true small, Bool.true_and]
      split <;> simp [*]
    · simp only [new, if_true, BitVec.getLsbD_or, bit]
      split <;> simp [*]
  have changed : ∀ i, (wordsValue (bits.words.set (index / 32) new)).testBit i
      = if i = index then value else bits.test i := fun i => by
    rw [testBit_set fits]
    by_cases here : i / 32 = index / 32
    · rw [if_pos here, newBits _ (Nat.mod_lt _ (by decide)), test, toNat, testBit_wordsValue, here]
      exact if_congr (by omega) rfl rfl
    · rw [if_neg here, if_neg fun same => here (by rw [same])]
      rfl
  refine ⟨⟨bits.words.set (index / 32) new, List.length_set.trans bits.size,
    wordsValue_lt_of_bits fun i above => ?_⟩, ?_, changed⟩
  · rw [changed i, if_neg (by omega)]
    exact bits.test_of_ge above
  · rw [setBit, if_neg (Nat.not_le.mpr inside), shiftWordLeft_eq 1 defined]
    simp only [bind, Except.bind]
    rw [readWord_eq fits]
    exact writeWord_eq fits new

/-- The last word has no bit above the width. -/
theorem last_padded (bits : Bits W) {last : Word} (isLast : bits.words.getLast? = some last) (j : ℕ)
    (above : W ≤ 32 * (wordCount W - 1) + j) : last.getLsbD j = false := by
  rcases Nat.lt_or_ge j 32 with small | large
  · have word : bits.words.getD (wordCount W - 1) 0 = last := by
      rw [List.getLast?_eq_getElem?, bits.size] at isLast
      rw [List.getD_eq_getElem?_getD, isLast]
      rfl
    rw [← word, ← testBit_of_word _ _ small]
    exact bits.test_of_ge above
  · exact BitVec.getLsbD_of_ge _ _ large

end Bits

/-- **Slicing packed values is exact.** A slice of an accepted range has the bits of the range; setting a
slice changes these bits and no others; each undoes the other. Every constructor and mutator leaves a
value without bits above its width. No word outside the array is read or written, and no shift is by 32 or
more: these would be faults. -/
theorem packed_slicing_exact :
    (∀ {W K : ℕ} (positive : 0 < K) (bits : Bits W) (lsb : ℕ),
      (W < lsb + K →
        bits.slice positive lsb = .error (.fail "Bits slice is out of bounds") ∧
        ∀ value : Bits K,
          bits.setSlice lsb value = .error (.fail "Bits set_slice is out of bounds")) ∧
      (lsb + K ≤ W →
        (∃ part : Bits K, bits.slice positive lsb = .ok part ∧
          (∀ i, part.test i = (decide (i < K) && bits.test (lsb + i))) ∧
          bits.setSlice lsb part = .ok bits.words) ∧
        ∀ value : Bits K, ∃ after : Bits W, bits.setSlice lsb value = .ok after.words ∧
          (∀ i, after.test i = if lsb ≤ i ∧ i < lsb + K then value.test (i - lsb) else bits.test i) ∧
          after.slice positive lsb = .ok value)) ∧
    (∀ {W : ℕ}, 0 < W → ∀ bits : Bits W,
      (∀ i < W, bits.bit i = .ok (bits.test i)) ∧
      (∀ last, bits.words.getLast? = some last →
        ∀ j, W ≤ 32 * (wordCount W - 1) + j → last.getLsbD j = false) ∧
      (∀ index value, index < wordCount W → ∃ after : Bits W,
        bits.setWord index value = .ok after.words) ∧
      ∀ index value, index < W → ∃ after : Bits W, bits.setBit index value = .ok after.words) := by
  refine ⟨fun {W K} positive bits lsb => ⟨fun rejected => ⟨if_pos (by omega), fun value => if_pos (by omega)⟩,
    fun accepted => ⟨?_, fun value => ?_⟩⟩, fun {W} positive bits => ⟨fun i inside => bits.bit_eq inside,
    fun last isLast j above => bits.last_padded isLast j above, fun index value inside => ?_,
    fun index value inside => ?_⟩⟩
  · obtain ⟨part, sliced, has⟩ := bits.slice_spec positive accepted
    obtain ⟨after, written, changed⟩ := bits.setSlice_spec positive part accepted
    have same : after = bits := Bits.ext_test fun i => by
      rw [changed i]
      split
      next range =>
        rw [has, decide_eq_true (show i - lsb < K by omega), Bool.true_and, Nat.add_sub_cancel' range.1]
      next => rfl
    exact ⟨part, sliced, has, same ▸ written⟩
  · obtain ⟨after, written, changed⟩ := bits.setSlice_spec positive value accepted
    obtain ⟨part, sliced, has⟩ := after.slice_spec positive accepted
    have same : part = value := Bits.ext_test fun i => by
      rw [has i]
      by_cases small : i < K
      · rw [decide_eq_true small, Bool.true_and, changed, if_pos (by omega), Nat.add_sub_cancel_left]
      · rw [decide_eq_false small, Bool.false_and, value.test_of_ge (Nat.le_of_not_lt small)]
    exact ⟨after, written, changed, same ▸ sliced⟩
  · obtain ⟨after, written, -⟩ := bits.setWord_spec positive value inside
    exact ⟨after, written⟩
  · obtain ⟨after, written, -⟩ := bits.setBit_spec value inside
    exact ⟨after, written⟩

end Cpptb.FixedPoint
