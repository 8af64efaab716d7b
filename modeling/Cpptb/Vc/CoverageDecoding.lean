/-
Register access coverage decodes transfers as the register model does.

The coverage and the predictor read the same descriptors (`RegisterDescriptor.described`), each with its
own arithmetic.

* `overlapMask_spec`, `fieldTouched_iff`: the bits of a transfer that a field holds, by byte masks;
* `getLsbD_transferMask`: the bits the model predicts;
* `Split.touched_iff`: a field is touched when it has a bit among those that the model predicts;
* `scanning_alone`: the coverage of one register is constructed, and its lookups agree;
* `counts_as_predicted_iff`: what a transaction counts is what it predicts, unless the access width is the
  0 that means the whole register.
-/

import Cpptb.Vc.CoverageCounters
import Cpptb.Vc.CoverageLookup
import Cpptb.RegisterModel.Fields
import Cpptb.RegisterModel.Predictor

namespace Cpptb.RegisterModel

/-- A field descriptor as the coverage reads it. -/
def FieldDescriptor.described (field : FieldDescriptor) : Vc.RegisterFieldDescriptor where
  path := field.path
  lsb := UInt16.ofNat field.lsb
  width := UInt16.ofNat field.width
  access := field.access

/-- A register descriptor as the coverage reads it. -/
def RegisterDescriptor.described (descriptor : RegisterDescriptor) : Vc.RegisterDescriptor where
  path := descriptor.path
  address := descriptor.address
  width := UInt16.ofNat descriptor.width
  accessWidth := UInt16.ofNat descriptor.accessWidth
  endianness := descriptor.endianness
  fields := descriptor.fields.map (·.described)

end Cpptb.RegisterModel

namespace Cpptb.Vc

open RegisterModel (BusTypes RegisterHandle RegisterPredictor BusTransaction FieldDescriptor Word)

/-! ### Bits of a transfer -/

/-- Ones from a first to a last position. -/
theorem getLsbD_ones {first last : UInt64} (order : first.toNat ≤ last.toNat)
    (small : last.toNat < 63) {j : ℕ} (inWord : j < 64) :
    (((1 <<< (last - first + 1)) - 1) <<< first : UInt64).toBitVec.getLsbD j =
      (decide (first.toNat ≤ j) && decide (j ≤ last.toNat)) := by
  have difference : (last - first).toNat = last.toNat - first.toNat :=
    UInt64.toNat_sub_of_le _ _ (UInt64.le_iff_toNat_le.mpr order)
  have span : (last - first + 1).toNat = last.toNat - first.toNat + 1 := by
    rw [UInt64.toNat_add, difference, UInt64.toNat_one, Nat.mod_eq_of_lt (by omega)]
  have power : (1 <<< (last - first + 1) : UInt64).toNat = 2 ^ (last.toNat - first.toNat + 1) := by
    rw [UInt64.toNat_shiftLeft, span,
      Nat.mod_eq_of_lt (show last.toNat - first.toNat + 1 < 64 by omega), UInt64.toNat_one,
      Nat.one_shiftLeft]
    exact Nat.mod_eq_of_lt (Nat.pow_lt_pow_right (by decide) (by omega))
  have ones : ((1 <<< (last - first + 1) : UInt64) - 1).toNat =
      2 ^ (last.toNat - first.toNat + 1) - 1 := by
    rw [UInt64.toNat_sub_of_le _ _
      (UInt64.le_iff_toNat_le.mpr (by rw [power]; exact Nat.one_le_two_pow)), power]
    rfl
  rw [BitVec.getLsbD, UInt64.toNat_toBitVec, UInt64.toNat_shiftLeft, ones,
    Nat.mod_eq_of_lt (show first.toNat < 64 by omega), Nat.testBit_mod_two_pow, Nat.testBit_shiftLeft,
    Nat.testBit_two_pow_sub_one, decide_eq_true inWord, Bool.true_and]
  by_cases above : first.toNat ≤ j
  · simp only [above, decide_true, Bool.true_and]
    exact decide_eq_decide.mpr (by omega)
  · simp only [above, decide_false, Bool.false_and]

theorem toNat_max (a b : UInt64) : (max a b).toNat = max a.toNat b.toNat := by
  change (if a ≤ b then b else a).toNat = _
  split
  · rename_i order
    exact (max_eq_right (UInt64.le_iff_toNat_le.mp order)).symm
  · rename_i order
    exact (max_eq_left (UInt64.le_iff_toNat_le.mp (UInt64.le_of_lt (UInt64.not_le.mp order)))).symm

theorem toNat_min (a b : UInt64) : (min a b).toNat = min a.toNat b.toNat := by
  change (if a ≤ b then a else b).toNat = _
  split
  · rename_i order
    exact (min_eq_left (UInt64.le_iff_toNat_le.mp order)).symm
  · rename_i order
    exact (min_eq_right (UInt64.le_iff_toNat_le.mp (UInt64.le_of_lt (UInt64.not_le.mp order)))).symm

/-- The bytes of a transfer of a narrow register that a field overlaps. -/
theorem overlapMask_spec {field : RegisterFieldDescriptor} {transferLsb : UInt64}
    {transferWidth : UInt16} (fieldFits : field.lsb.toNat + field.width.toNat ≤ 64)
    (transferFits : transferLsb.toNat + transferWidth.toNat ≤ 64) :
    if max field.lsb.toNat transferLsb.toNat <
        min (field.lsb.toNat + field.width.toNat) (transferLsb.toNat + transferWidth.toNat) then
      ∃ mask, overlapMask field transferLsb transferWidth = some mask ∧
        ∀ j < 64, mask.toBitVec.getLsbD j =
          (decide ((max field.lsb.toNat transferLsb.toNat - transferLsb.toNat) / 8 ≤ j) &&
            decide (j ≤ (min (field.lsb.toNat + field.width.toNat)
              (transferLsb.toNat + transferWidth.toNat) - 1 - transferLsb.toNat) / 8))
    else overlapMask field transferLsb transferWidth = none := by
  have fieldEnd : (field.lsb.toUInt64 + field.width.toUInt64).toNat =
      field.lsb.toNat + field.width.toNat := by
    rw [UInt64.toNat_add, UInt16.toNat_toUInt64, UInt16.toNat_toUInt64, Nat.mod_eq_of_lt (by omega)]
  have transferEnd : (transferLsb + transferWidth.toUInt64).toNat =
      transferLsb.toNat + transferWidth.toNat := by
    rw [UInt64.toNat_add, UInt16.toNat_toUInt64, Nat.mod_eq_of_lt (by omega)]
  have first := toNat_max field.lsb.toUInt64 transferLsb
  have last := toNat_min (field.lsb.toUInt64 + field.width.toUInt64)
    (transferLsb + transferWidth.toUInt64)
  rw [UInt16.toNat_toUInt64] at first
  rw [fieldEnd, transferEnd] at last
  rw [← first, ← last]
  have inside : transferLsb.toNat ≤ (max field.lsb.toUInt64 transferLsb).toNat := by
    rw [first]
    exact le_max_right _ _
  have below : (min (field.lsb.toUInt64 + field.width.toUInt64)
      (transferLsb + transferWidth.toUInt64)).toNat ≤ 64 := by
    rw [last]
    omega
  unfold overlapMask
  simp only
  generalize max field.lsb.toUInt64 transferLsb = low at *
  generalize min (field.lsb.toUInt64 + field.width.toUInt64)
    (transferLsb + transferWidth.toUInt64) = high at *
  split
  case isFalse apart => exact if_pos (UInt64.le_iff_toNat_le.mpr (not_lt.mp apart))
  rename_i overlap
  have order : ¬ low ≥ high := fun above =>
    absurd (UInt64.le_iff_toNat_le.mp above) (not_le.mpr overlap)
  have start : (low - transferLsb).toNat = low.toNat - transferLsb.toNat :=
    UInt64.toNat_sub_of_le _ _ (UInt64.le_iff_toNat_le.mpr inside)
  have previous : (high - 1).toNat = high.toNat - 1 :=
    UInt64.toNat_sub_of_le _ _ (UInt64.le_iff_toNat_le.mpr (by rw [UInt64.toNat_one]; omega))
  have finish : (high - 1 - transferLsb).toNat = high.toNat - 1 - transferLsb.toNat := by
    rw [UInt64.toNat_sub_of_le _ _ (UInt64.le_iff_toNat_le.mpr (by omega)), previous]
  have firstByte : ((low - transferLsb) / 8).toNat = (low.toNat - transferLsb.toNat) / 8 := by
    rw [UInt64.toNat_div, start]
    rfl
  have lastByte : ((high - 1 - transferLsb) / 8).toNat = (high.toNat - 1 - transferLsb.toNat) / 8 := by
    rw [UInt64.toNat_div, finish]
    rfl
  have between : ((high - 1 - transferLsb) / 8 - (low - transferLsb) / 8).toNat =
      (high.toNat - 1 - transferLsb.toNat) / 8 - (low.toNat - transferLsb.toNat) / 8 := by
    rw [UInt64.toNat_sub_of_le _ _ (UInt64.le_iff_toNat_le.mpr (by omega)), firstByte, lastByte]
  have short : ¬ (high - 1 - transferLsb) / 8 - (low - transferLsb) / 8 + 1 ≥ 64 := by
    intro long
    have long := UInt64.le_iff_toNat_le.mp long
    rw [UInt64.toNat_add, between, UInt64.toNat_one, Nat.mod_eq_of_lt (by omega)] at long
    have : (64 : UInt64).toNat = 64 := rfl
    omega
  rw [if_neg order, if_neg short]
  refine ⟨_, rfl, fun j inWord => ?_⟩
  rw [getLsbD_ones (by omega) (by omega) inWord, firstByte, lastByte]

/-- The bit at a position lies in a field. -/
def RegisterFieldDescriptor.Holds (field : RegisterFieldDescriptor) (i : ℕ) : Prop :=
  field.lsb.toNat ≤ i ∧ i < field.lsb.toNat + field.width.toNat

/-- Two words have a bit in common. -/
theorem and_ne_zero_iff (left right : Word) :
    left &&& right ≠ 0 ↔ ∃ i < 64, left.getLsbD i = true ∧ right.getLsbD i = true := by
  rw [Ne, RegisterModel.and_eq_zero_iff]
  push Not
  simp only [Bool.not_eq_false]

theorem uint64_and_ne_zero_iff (left right : UInt64) : (left &&& right != 0) = true ↔
    ∃ i < 64, left.toBitVec.getLsbD i = true ∧ right.toBitVec.getLsbD i = true := by
  rw [bne_iff_ne, ← and_ne_zero_iff, Ne, ← UInt64.toBitVec_inj]
  rfl

/-- A field is touched when it holds a bit of the transfer, for a write one of an enabled byte. -/
theorem fieldTouched_iff {field : RegisterFieldDescriptor} {transferLsb : UInt64}
    {transferWidth : UInt16} (fieldFits : field.lsb.toNat + field.width.toNat ≤ 64)
    (transferFits : transferLsb.toNat + transferWidth.toNat ≤ 64) (operation : MemoryOperation)
    (byteEnable : UInt64) :
    fieldTouched field transferLsb transferWidth operation byteEnable = true ↔
      ∃ i, field.Holds i ∧ transferLsb.toNat ≤ i ∧ i < transferLsb.toNat + transferWidth.toNat ∧
        (operation = .write → byteEnable.toBitVec.getLsbD ((i - transferLsb.toNat) / 8) = true) := by
  have spec := overlapMask_spec fieldFits transferFits
  unfold RegisterFieldDescriptor.Holds
  split at spec
  case isFalse apart =>
    unfold fieldTouched
    rw [spec]
    refine iff_of_false (by cases operation <;> exact Bool.false_ne_true) ?_
    rintro ⟨i, inField, above, below, -⟩
    omega
  rename_i overlap
  obtain ⟨mask, found, bits⟩ := spec
  unfold fieldTouched
  rw [found]
  cases operation with
  | read =>
    refine iff_of_true rfl ⟨max field.lsb.toNat transferLsb.toNat, ⟨by omega, by omega⟩, by omega,
      by omega, nofun⟩
  | write =>
    simp only [uint64_and_ne_zero_iff, true_implies]
    constructor
    · rintro ⟨j, small, enabled, inMask⟩
      rw [bits j small, Bool.and_eq_true, decide_eq_true_eq, decide_eq_true_eq] at inMask
      -- the first common bit of the byte
      refine ⟨max (max field.lsb.toNat transferLsb.toNat) (transferLsb.toNat + 8 * j),
        ⟨by omega, by omega⟩, by omega, by omega, ?_⟩
      rw [show (max (max field.lsb.toNat transferLsb.toNat) (transferLsb.toNat + 8 * j) -
        transferLsb.toNat) / 8 = j by omega]
      exact enabled
    · rintro ⟨i, inField, above, below, enabled⟩
      refine ⟨(i - transferLsb.toNat) / 8, by omega, enabled, ?_⟩
      rw [bits _ (by omega), Bool.and_eq_true, decide_eq_true_eq, decide_eq_true_eq]
      omega

/-! ### Bits of a prediction -/

section Prediction

variable {bus : BusTypes} {h : RegisterHandle bus}

theorem getLsbD_enabledBytesMask (bytes : ℕ) (byteEnable : BitVec bus.byteEnableBits) {i : ℕ}
    (inWord : i < 64) : (RegisterHandle.enabledBytesMask bytes byteEnable).getLsbD i =
      (decide (i < 8 * bytes) && byteEnable.getLsbD (i / 8)) := by
  unfold RegisterHandle.enabledBytesMask
  induction bytes with
  | zero => simp
  | succ index ih =>
    have byte : ((0xff : Word) <<< (index * 8)).getLsbD i = decide (i / 8 = index) := by
      have ones : (0xff : Word) = RegisterModel.registerMask 8 := by decide
      rw [BitVec.getLsbD_shiftLeft, ones, decide_eq_true inWord, Bool.true_and]
      by_cases above : i < index * 8
      · rw [decide_eq_true above, Bool.not_true, Bool.false_and]
        exact (decide_eq_false (by omega)).symm
      · rw [decide_eq_false above, Bool.not_false, Bool.true_and,
          RegisterModel.getLsbD_registerMask 8 (by omega)]
        exact decide_eq_decide.mpr (by omega)
    rw [List.range_succ, List.foldl_append, List.foldl_cons, List.foldl_nil]
    by_cases enabled : byteEnable.getLsbD index = true
    · rw [if_pos enabled, BitVec.getLsbD_or, ih, byte]
      by_cases here : i / 8 = index
      · rw [here, enabled, decide_eq_true rfl, Bool.or_true, decide_eq_true (by omega)]
        rfl
      · rw [decide_eq_false here, Bool.or_false]
        exact congrArg (· && _) (decide_eq_decide.mpr (by omega))
    · rw [if_neg enabled, ih]
      by_cases here : i / 8 = index
      · rw [here, Bool.eq_false_of_not_eq_true enabled, Bool.and_false, Bool.and_false]
      · exact congrArg (· && _) (decide_eq_decide.mpr (by omega))

/-- The byte enables of a transfer that reach the handle. -/
theorem getLsbD_enables (supported : RegisterPredictor.Supported h) (wide : 8 ≤ bus.byteEnableBits)
    (byteEnable : UInt64) {j : ℕ} (inTransfer : j < h.descriptor.transferBytes) :
    (RegisterPredictor.enables h byteEnable).getLsbD j = byteEnable.toBitVec.getLsbD j := by
  have width := supported.width
  have transferWidth := supported.transferWidth
  have bytes : h.descriptor.transferBytes ≤ 8 := by
    unfold RegisterModel.RegisterDescriptor.transferBytes
    omega
  have power : 2 ^ h.descriptor.transferBytes ≤ 2 ^ 8 := Nat.pow_le_pow_right (by decide) bytes
  have allowed : (RegisterPredictor.allowedBytes h).toBitVec.getLsbD j = true := by
    rw [RegisterPredictor.allowedBytes, if_neg (by omega), BitVec.getLsbD, UInt64.toNat_toBitVec,
      UInt64.toNat_ofNat_of_lt' (show 2 ^ h.descriptor.transferBytes - 1 < 2 ^ 64 by omega),
      Nat.testBit_two_pow_sub_one]
    exact decide_eq_true inTransfer
  rw [RegisterPredictor.enables, BitVec.getLsbD_setWidth, decide_eq_true (by omega), Bool.true_and,
    UInt64.toBitVec_and, BitVec.getLsbD_and, allowed, Bool.and_true]

/-- The bits that a transaction transfers. -/
theorem getLsbD_transferMask (supported : RegisterPredictor.Supported h)
    (wide : 8 ≤ bus.byteEnableBits) (address : ℕ) (transaction : BusTransaction) {i : ℕ}
    (inWord : i < 64) :
    (RegisterPredictor.transferMask h address transaction).getLsbD i = true ↔
      RegisterPredictor.bitOffset h address ≤ i ∧
        i < RegisterPredictor.bitOffset h address + h.descriptor.transferWidth ∧
        (transaction.operation = .write → transaction.byteEnable.toBitVec.getLsbD
          ((i - RegisterPredictor.bitOffset h address) / 8) = true) := by
  have whole : h.descriptor.transferWidth = 8 * h.descriptor.transferBytes := by
    have := supported.transferWidth
    unfold RegisterModel.RegisterDescriptor.transferBytes
    omega
  unfold RegisterPredictor.transferMask
  generalize RegisterPredictor.bitOffset h address = offset
  by_cases above : i < offset
  · refine iff_of_false ?_ fun inside => absurd inside.1 (not_le.mpr above)
    cases transaction.operation <;> simp [above]
  have small : i - offset < 64 := by omega
  cases transaction.operation with
  | read =>
    simp only [BitVec.getLsbD_shiftLeft, inWord, above, decide_true, decide_false, Bool.not_false,
      Bool.true_and, RegisterHandle.chunkMask, RegisterModel.getLsbD_registerMask _ small,
      decide_eq_true_eq]
    constructor
    · exact fun inside => ⟨by omega, by omega, nofun⟩
    · exact fun inside => by omega
  | write =>
    simp only [BitVec.getLsbD_shiftLeft, inWord, above, decide_true, decide_false, Bool.not_false,
      Bool.true_and, getLsbD_enabledBytesMask _ _ small, Bool.and_eq_true, decide_eq_true_eq,
      true_implies]
    constructor
    · rintro ⟨inside, enabled⟩
      rw [getLsbD_enables supported wide _ (by omega)] at enabled
      exact ⟨by omega, by omega, enabled⟩
    · rintro ⟨-, inside, enabled⟩
      exact ⟨by omega, by rwa [getLsbD_enables supported wide _ (by omega)]⟩

/-! ### One transfer, decoded twice -/

/-- The layout of the fields of a constructed handle. -/
theorem layout_of_constructed {base : UInt64} (constructed : h.Constructed base) :
    RegisterModel.Layout h.descriptor := by
  obtain ⟨h₀, userEffects, hasBackdoor, made, -⟩ := constructed
  obtain ⟨-, made⟩ := RegisterModel.after_throwIf made
  obtain ⟨_, valid, -⟩ := RegisterModel.after_bind made
  exact RegisterModel.layout_of_validateFieldLayout valid

theorem toNat_ofNat16 {n : ℕ} (small : n ≤ 64) : (UInt16.ofNat n).toNat = n :=
  UInt16.toNat_ofNat_of_lt' (show n < 2 ^ 16 by omega)

/-- A register with an access width of its own. -/
structure Split (h : RegisterHandle bus) : Prop where
  supported : RegisterPredictor.Supported h
  own : h.descriptor.accessWidth ≠ 0

theorem Split.transferWidth (split : Split h) :
    h.descriptor.transferWidth = h.descriptor.accessWidth := if_neg split.own

theorem Split.accessWidth (split : Split h) :
    h.descriptor.described.accessWidth.toNat = h.descriptor.accessWidth := by
  have width := split.supported.width
  have transferWidth := split.supported.transferWidth
  rw [split.transferWidth] at transferWidth
  exact toNat_ofNat16 (by omega)

/-- The transfers fill the register. -/
theorem Split.count (split : Split h) :
    h.descriptor.transferCount * h.descriptor.accessWidth = h.descriptor.width := by
  have transferWidth := split.supported.transferWidth
  rw [RegisterModel.RegisterDescriptor.transferCount, split.transferWidth]
  rw [split.transferWidth] at transferWidth
  exact Nat.div_mul_cancel (Nat.dvd_of_mod_eq_zero transferWidth.2.2.2)

/-- The bytes of the transfers are those of the register. -/
theorem Split.bytes (split : Split h) : h.descriptor.transferBytes = h.descriptor.accessWidth / 8 ∧
    h.descriptor.width / 8 = h.descriptor.transferCount * h.descriptor.transferBytes := by
  have same : h.descriptor.transferBytes = h.descriptor.accessWidth / 8 := by
    rw [RegisterModel.RegisterDescriptor.transferBytes, split.transferWidth]
  have transferWidth := split.supported.transferWidth
  rw [split.transferWidth] at transferWidth
  have octets : h.descriptor.accessWidth = 8 * h.descriptor.transferBytes := by omega
  refine ⟨same, ?_⟩
  rw [← split.count, octets, Nat.mul_left_comm]
  exact Nat.mul_div_cancel_left _ (by decide)

/-- The first bit of a transfer, computed with and without wrapping. -/
theorem Split.bitLsb (split : Split h) {transfer : ℕ}
    (inside : transfer < h.descriptor.transferCount) :
    (bitLsb h.descriptor.described transfer).toNat = h.descriptor.transferBitOffset transfer ∧
      h.descriptor.transferBitOffset transfer + h.descriptor.accessWidth ≤ h.descriptor.width := by
  have width := split.supported.width
  have count := split.count
  have own := Nat.pos_of_ne_zero split.own
  have exact16 : h.descriptor.described.width.toNat = h.descriptor.width := toNat_ofNat16 width.2.2
  have few : h.descriptor.transferCount ≤ 64 :=
    (Nat.le_mul_of_pos_right _ own).trans (count ▸ width.2.2)
  -- the transfer and those after it
  have rest : (transfer + 1) * h.descriptor.accessWidth +
      (h.descriptor.transferCount - transfer - 1) * h.descriptor.accessWidth = h.descriptor.width := by
    rw [← Nat.add_mul, ← count]
    congr 1
    omega
  have upTo : (transfer + 1) * h.descriptor.accessWidth =
      transfer * h.descriptor.accessWidth + h.descriptor.accessWidth := Nat.succ_mul _ _
  have step : (UInt64.ofNat transfer).toNat = transfer :=
    UInt64.toNat_ofNat_of_lt' (show transfer < 2 ^ 64 by omega)
  have wide : h.descriptor.described.accessWidth.toUInt64.toNat = h.descriptor.accessWidth := by
    rw [UInt16.toNat_toUInt64, split.accessWidth]
  unfold Vc.bitLsb RegisterModel.RegisterDescriptor.transferBitOffset
  rw [split.transferWidth]
  cases order : h.descriptor.endianness with
  | little =>
    have same : h.descriptor.described.endianness = .little := order
    rw [same]
    refine ⟨?_, by simp only; omega⟩
    rw [UInt64.toNat_mul, step, wide, Nat.mod_eq_of_lt (by omega)]
  | big =>
    have same : h.descriptor.described.endianness = .big := order
    rw [same]
    refine ⟨?_, by simp only; omega⟩
    have next : (UInt64.ofNat transfer + 1).toNat = transfer + 1 := by
      rw [UInt64.toNat_add, step, UInt64.toNat_one, Nat.mod_eq_of_lt (by omega)]
    have product : ((UInt64.ofNat transfer + 1) *
        h.descriptor.described.accessWidth.toUInt64).toNat =
        (transfer + 1) * h.descriptor.accessWidth := by
      rw [UInt64.toNat_mul, next, wide, Nat.mod_eq_of_lt (by omega)]
    have whole : h.descriptor.described.width.toUInt64.toNat = h.descriptor.width := by
      rw [UInt16.toNat_toUInt64, exact16]
    rw [UInt64.toNat_sub_of_le _ _ (UInt64.le_iff_toNat_le.mpr (by rw [product, whole]; omega)),
      product, whole]
    simp only
    omega

/-- **A field is touched when it has a bit among those the model predicts.** -/
theorem Split.touched_iff (split : Split h) (layout : RegisterModel.Layout h.descriptor)
    (wide : 8 ≤ bus.byteEnableBits) {field : FieldDescriptor} (member : field ∈ h.descriptor.fields)
    {address : ℕ}
    (inside : (address - h.effectiveAddress) / h.descriptor.transferBytes <
      h.descriptor.transferCount) (transaction : BusTransaction) :
    fieldTouched field.described
        (Vc.bitLsb h.descriptor.described
          ((address - h.effectiveAddress) / h.descriptor.transferBytes))
        h.descriptor.described.accessWidth transaction.operation transaction.byteEnable = true ↔
      RegisterModel.registerFieldMask field &&&
        RegisterPredictor.transferMask h address transaction ≠ 0 := by
  have width := split.supported.width
  obtain ⟨-, fits⟩ := layout.inside field member
  obtain ⟨first, last⟩ := split.bitLsb inside
  have lsb : field.described.lsb.toNat = field.lsb := toNat_ofNat16 (by omega)
  have size : field.described.width.toNat = field.width := toNat_ofNat16 (by omega)
  have own := split.accessWidth
  rw [fieldTouched_iff (by omega) (by rw [first, own]; omega), and_ne_zero_iff, first, own]
  unfold RegisterFieldDescriptor.Holds
  rw [lsb, size]
  constructor
  · rintro ⟨i, inField, above, below, enabled⟩
    refine ⟨i, by omega, ?_, ?_⟩
    · rw [RegisterModel.getLsbD_registerFieldMask field (by omega)]
      exact decide_eq_true inField
    · rw [getLsbD_transferMask split.supported wide address transaction (by omega),
        split.transferWidth]
      exact ⟨above, below, enabled⟩
  · rintro ⟨i, inWord, inField, inMask⟩
    rw [RegisterModel.getLsbD_registerFieldMask field inWord, decide_eq_true_eq] at inField
    rw [getLsbD_transferMask split.supported wide address transaction inWord,
      split.transferWidth] at inMask
    exact ⟨i, inField, inMask⟩

end Prediction

/-! ### What a transaction counts -/

namespace RegisterAccessCoverage

section Decoding

variable {bus : BusTypes} {coverage : RegisterAccessCoverage} {entry : RegisterEntry}
  {p : RegisterPredictor bus} {h : RegisterHandle bus} {position : ℕ}

/-- The counters of the register and of its fields that have a bit among those transferred. -/
def countedIndices (entry : RegisterEntry) (h : RegisterHandle bus) (address : ℕ)
    (transaction : BusTransaction) : List ℕ :=
  entry.counter :: ((entry.fields.zip h.descriptor.fields).filter fun field =>
    decide (RegisterModel.registerFieldMask field.2 &&&
      RegisterPredictor.transferMask h address transaction ≠ 0)).map (·.1.counter)

/-- A transaction that the predictor predicts for a handle counts once, for the register and for the
fields with a transferred bit, where the direction is allowed; another leaves their counters alone. -/
structure CountsAsPredicted (coverage : RegisterAccessCoverage) (entry : RegisterEntry)
    (p : RegisterPredictor bus) (h : RegisterHandle bus) (position : ℕ)
    (transaction : BusTransaction) : Prop where
  counted : p.Predicts position transaction →
    ∀ address, normalizeAddress transaction.address = some address →
      (coverage.write transaction.toMemoryTransaction).samples = coverage.samples + 1 ∧
        (coverage.write transaction.toMemoryTransaction).cells =
          coverage.cells.mapIdx fun index cells =>
            cells.add transaction.operation .frontdoor
              (if coverage.allows transaction.operation index ∧
                index ∈ countedIndices entry h address transaction then 1 else 0)
  otherwise : ¬p.Predicts position transaction → ∀ index ∈ entry.indices,
    (coverage.write transaction.toMemoryTransaction).cells[index]? = coverage.cells[index]?

/-- The entry of the register of a handle. -/
structure EntryOf (coverage : RegisterAccessCoverage) (entry : RegisterEntry)
    (h : RegisterHandle bus) : Prop where
  member : entry ∈ coverage.registers
  descriptor : entry.descriptor = h.descriptor.described
  address : entry.address = h.effectiveAddress

theorem filter_zip {entries : List FieldEntry} {fields : List FieldDescriptor}
    {touched : RegisterFieldDescriptor → Bool} {hit : FieldDescriptor → Bool}
    (same : entries.map (·.descriptor) = fields.map (·.described))
    (agree : ∀ field ∈ fields, touched field.described = hit field) :
    (entries.filter fun field => touched field.descriptor).map (·.counter) =
      ((entries.zip fields).filter fun field => hit field.2).map (·.1.counter) := by
  induction entries generalizing fields with
  | nil => rfl
  | cons first rest ih =>
    cases fields with
    | nil => cases same
    | cons field others =>
      rw [List.map_cons, List.map_cons, List.cons.injEq] at same
      have later := ih same.2 fun other member => agree other (List.mem_cons_of_mem _ member)
      have here := agree field List.mem_cons_self
      rw [← same.1] at here
      rw [List.zip_cons_cons, List.filter_cons, List.filter_cons, here]
      cases hit field with
      | true => exact congrArg (first.counter :: ·) later
      | false => exact later

/-- The fields of the entry of a register. -/
theorem Numbered.fields (numbered : coverage.Numbered) (entryOf : EntryOf coverage entry h) :
    entry.fields.map (·.descriptor) = h.descriptor.fields.map (·.described) := by
  have labelled := (numbered.labelled entry entryOf.member).fields
  rw [entryOf.descriptor] at labelled
  rw [show h.descriptor.fields.map (·.described) = h.descriptor.described.fields from rfl]
  generalize h.descriptor.described.fields = described at labelled
  generalize entry.fields = entries at labelled
  induction labelled with
  | nil => rfl
  | cons same _ ih => rw [List.map_cons, same.1, ih]

/-- The counters of a transfer that the scan samples. -/
theorem sampledCounters_eq (split : Split h) (layout : RegisterModel.Layout h.descriptor)
    (wide : 8 ≤ bus.byteEnableBits) (numbered : coverage.Numbered)
    (entryOf : EntryOf coverage entry h) {address : ℕ}
    (inside : (address - h.effectiveAddress) / h.descriptor.transferBytes <
      h.descriptor.transferCount) (transaction : BusTransaction) :
    sampledCounters (entry, (address - h.effectiveAddress) / h.descriptor.transferBytes)
        transaction.operation transaction.byteEnable (ownFieldActions
          (entry, (address - h.effectiveAddress) / h.descriptor.transferBytes)) =
      countedIndices entry h address transaction := by
  have fields := numbered.fields entryOf
  refine congrArg (entry.counter :: ·) ?_
  rw [← touched_own]
  simp only [entryOf.descriptor]
  refine @filter_zip _ _
    (fun field => fieldTouched field (bitLsb h.descriptor.described
      ((address - h.effectiveAddress) / h.descriptor.transferBytes))
      h.descriptor.described.accessWidth transaction.operation transaction.byteEnable)
    (fun field => decide (RegisterModel.registerFieldMask field &&&
      RegisterPredictor.transferMask h address transaction ≠ 0)) fields fun field member => ?_
  exact Bool.eq_iff_iff.mpr
    ((split.touched_iff layout wide member inside transaction).trans decide_eq_true_iff.symm)

/-- Sampling distinct counters adds one to each that allows the operation. -/
theorem tallied_of_nodup {operation : MemoryOperation} {path : AccessPath} {indices : List ℕ}
    (distinct : indices.Nodup) : coverage.tallied operation path indices =
      coverage.cells.mapIdx fun index cells => cells.add operation path
        (if coverage.allows operation index ∧ index ∈ indices then 1 else 0) := by
  unfold tallied
  refine congrArg (List.mapIdx · coverage.cells) (funext fun index => funext fun cells => ?_)
  congr 1
  by_cases allowed : coverage.allows operation index = true
  · rw [if_pos allowed, distinct.count]
    exact if_congr (and_iff_right allowed).symm rfl rfl
  · rw [if_neg allowed, if_neg fun both => allowed both.1]

/-- Counters that are not sampled keep their cells. -/
theorem tallied_other {operation : MemoryOperation} {path : AccessPath} {indices : List ℕ} {index : ℕ}
    (other : index ∉ indices) :
    (coverage.tallied operation path indices)[index]? = coverage.cells[index]? := by
  rw [tallied, List.getElem?_mapIdx, List.count_eq_zero.mpr other, ite_self]
  cases coverage.cells[index]? with
  | none => rfl
  | some cells => exact congrArg some (CountCells.add_zero _ _ _)

/-- The counters of a transfer are among those of its register, in their order. -/
theorem sampledCounters_sublist (transfer : RegisterEntry × ℕ) (operation : MemoryOperation)
    (byteEnable : UInt64) :
    (sampledCounters transfer operation byteEnable (ownFieldActions transfer)).Sublist
      transfer.1.indices := by
  unfold sampledCounters RegisterEntry.indices
  rw [← touched_own]
  exact (List.filter_sublist.map _).cons_cons _

/-- Two registers have no counter in common. -/
theorem Numbered.register_apart (numbered : coverage.Numbered) {other : RegisterEntry}
    (member : entry ∈ coverage.registers) (member' : other ∈ coverage.registers)
    (different : other ≠ entry) {index : ℕ} (inside : index ∈ entry.indices) :
    index ∉ other.indices := by
  have pairwise := (List.nodup_flatMap.mp (List.nodup_append.mp numbered.distinct).1).2
  have symmetric : Std.Symm (Function.onFun List.Disjoint RegisterEntry.indices) :=
    ⟨fun _ _ disjoint => disjoint.symm⟩
  exact pairwise.forall member member' different.symm inside

/-- A memory has no counter of a register. -/
theorem Numbered.memory_apart (numbered : coverage.Numbered) {memory : MemoryEntry}
    (member : entry ∈ coverage.registers) (member' : memory ∈ coverage.memories) {index : ℕ}
    (inside : index ∈ entry.indices) : index ≠ memory.counter :=
  (List.nodup_append.mp numbered.distinct).2.2 index (List.mem_flatMap.mpr ⟨entry, member, inside⟩)
    memory.counter (List.mem_map_of_mem member')

/-- The bytes of a transfer, as the coverage counts them. -/
theorem EntryOf.transferBytes (entryOf : EntryOf coverage entry h) (entries : coverage.Entries)
    (supported : RegisterPredictor.Supported h) :
    entry.transferBytes = h.descriptor.accessWidth / 8 := by
  rw [(entries.registers entry entryOf.member).transferBytes, entryOf.descriptor]
  by_cases own : h.descriptor.accessWidth = 0
  · change (UInt16.ofNat h.descriptor.accessWidth).toNat / 8 = h.descriptor.accessWidth / 8
    rw [own]
    rfl
  · rw [Split.accessWidth ⟨supported, own⟩]

/-- The coverage and the handle agree on where the register ends. -/
theorem EntryOf.endAddress (entryOf : EntryOf coverage entry h) (entries : coverage.Entries)
    (supported : RegisterPredictor.Supported h) {base : UInt64} (constructed : h.Constructed base) :
    entry.endAddress = h.endAddress := by
  rw [(entries.registers entry entryOf.member).endAddress,
    RegisterPredictor.endAddress_eq constructed supported, entryOf.address, entryOf.descriptor]
  exact congrArg (h.effectiveAddress + · / 8) (toNat_ofNat16 supported.width.2.2)

/-- A transfer of the register, as the coverage splits it, is one of the handle. -/
theorem EntryOf.isTransfer (entryOf : EntryOf coverage entry h) (entries : coverage.Entries)
    (supported : RegisterPredictor.Supported h) {base : UInt64} (constructed : h.Constructed base)
    {transfer : ℕ} (member : (entry, transfer) ∈ coverage.transfers) :
    h.isTransferAddress (transferAddress (entry, transfer)) = true := by
  obtain ⟨-, sized, -, inside⟩ := Entries.mem_transfers member
  have bytes := entryOf.transferBytes entries supported
  have own : h.descriptor.accessWidth ≠ 0 := fun zero => sized (by rw [bytes, zero])
  have same : h.descriptor.transferBytes = entry.transferBytes := by
    rw [bytes, RegisterModel.RegisterDescriptor.transferBytes, Split.transferWidth ⟨supported, own⟩]
  unfold Inside RegisterEntry.range at inside
  simp only [entryOf.address, entryOf.endAddress entries supported constructed] at inside
  simp only [RegisterHandle.isTransferAddress, Bool.and_eq_true, decide_eq_true_eq, beq_iff_eq]
  refine ⟨inside, ?_⟩
  rw [transferAddress, entryOf.address, Nat.add_sub_cancel_left, same]
  exact Nat.mul_mod_left _ _

/-- A transfer of a handle with an access width of its own is one that the coverage has. -/
theorem EntryOf.transfer (entryOf : EntryOf coverage entry h) (entries : coverage.Entries)
    (split : Split h) {base : UInt64} (constructed : h.Constructed base) {address : ℕ}
    (isTransfer : h.isTransferAddress address = true) :
    (address - h.effectiveAddress) / h.descriptor.transferBytes < h.descriptor.transferCount ∧
      (entry, (address - h.effectiveAddress) / h.descriptor.transferBytes) ∈ coverage.transfers ∧
      transferAddress (entry, (address - h.effectiveAddress) / h.descriptor.transferBytes) =
        address := by
  simp only [RegisterHandle.isTransferAddress, Bool.and_eq_true, decide_eq_true_eq, beq_iff_eq]
    at isTransfer
  obtain ⟨inside, aligned⟩ := isTransfer
  have ends := RegisterPredictor.endAddress_eq constructed split.supported
  have same : h.descriptor.transferBytes = entry.transferBytes :=
    split.bytes.1.trans (entryOf.transferBytes entries split.supported).symm
  have whole : (address - h.effectiveAddress) / h.descriptor.transferBytes *
      h.descriptor.transferBytes = address - h.effectiveAddress :=
    Nat.div_mul_cancel (Nat.dvd_of_mod_eq_zero aligned)
  have sized := split.supported.transferBytes_ne_zero
  refine ⟨?_, Entries.transfer_mem entryOf.member ?_, ?_⟩
  · rw [Nat.div_lt_iff_lt_mul (Nat.pos_of_ne_zero sized), ← split.bytes.2]
    omega
  · rw [lt_transferCount_iff (same ▸ sized), ← same, whole,
      entryOf.endAddress entries split.supported constructed, entryOf.address]
    omega
  · rw [transferAddress]
    simp only
    rw [← same, whole, entryOf.address]
    omega

/-- What a transaction at none of the transfers of a register does to its counters: nothing. -/
theorem counts_otherwise (entries : coverage.Entries) (numbered : coverage.Numbered)
    (member : entry ∈ coverage.registers) {transaction : MemoryTransaction}
    (elsewhere : ∀ address, Entries.Looks transaction address →
      ∀ transfer, (entry, transfer) ∈ coverage.transfers → transferAddress (entry, transfer) ≠ address)
    {index : ℕ} (inside : index ∈ entry.indices) :
    (coverage.write transaction).cells[index]? = coverage.cells[index]? := by
  by_cases okay : memoryOkay transaction.status = true
  case neg =>
    unfold write
    simp only [okay, Bool.not_false, if_true]
  cases normal : normalizeAddress transaction.address with
  | none =>
    unfold write
    simp only [okay, normal, Bool.not_true, Bool.false_eq_true, if_false]
    rfl
  | some address =>
    have looks : Entries.Looks transaction address := ⟨okay, normal⟩
    cases Entries.target coverage address with
    | transfer earlier later transfer position here =>
      subst here
      have isTransfer : transfer ∈ coverage.transfers := by
        rw [position]
        exact List.mem_append_right _ List.mem_cons_self
      have different : transfer.1 ≠ entry := by
        rintro rfl
        exact elsewhere _ looks transfer.2 isTransfer rfl
      rw [entries.write_scan_transfer isTransfer looks]
      refine tallied_other fun sampled => ?_
      exact numbered.register_apart member (Entries.mem_transfers isTransfer).1 different inside
        ((sampledCounters_sublist _ _ _).subset sampled)
    | memory memory position found within =>
      have isMemory := (Entries.mem_of_zipIdx found).1
      have noTransfer : ∀ transfer ∈ coverage.transfers, transferAddress transfer ≠ address := by
        intro transfer isTransfer here
        obtain ⟨register, -, -, both⟩ := Entries.mem_transfers isTransfer
        rw [here] at both
        exact entries.register_memory_apart register isMemory both within
      rw [entries.write_scan looks, entries.scan_no_transfer noTransfer,
        entries.scan_memory isMemory within]
      simp only [sampledElement, sampleCounter_eq]
      refine tallied_other fun sampled => ?_
      exact numbered.memory_apart member isMemory inside (List.mem_singleton.mp sampled)
    | unmapped noTransfer noMemory =>
      rw [entries.write_scan looks, entries.scan_no_transfer noTransfer,
        Entries.scan_no_memory noMemory]
      rfl

/-- **One okay transaction, on the scan path.** -/
theorem counts_iff (entries : coverage.Entries) (numbered : coverage.Numbered)
    (entryOf : EntryOf coverage entry h) (predictor : p.Entries)
    (found : p.handles[position]? = some h) {base : UInt64} (constructed : h.Constructed base)
    (wide : 8 ≤ bus.byteEnableBits) {transaction : BusTransaction}
    (okay : memoryOkay transaction.status = true) :
    CountsAsPredicted coverage entry p h position transaction ↔
      (h.descriptor.accessWidth = 0 →
        normalizeAddress transaction.address ≠ some h.effectiveAddress) := by
  obtain ⟨e, -, ok⟩ := predictor.all position h found
  have supported := (RegisterPredictor.entryOf_ok ok).1
  have width := supported.width
  have ends := RegisterPredictor.endAddress_eq constructed supported
  have predicts := RegisterPredictor.predicts_iff predictor found transaction
  constructor
  · -- the coverage has no transfer of the register, the predictor one
    intro counts whole normal
    have bytes : h.descriptor.transferBytes = h.descriptor.width / 8 := by
      rw [RegisterModel.RegisterDescriptor.transferBytes,
        RegisterModel.RegisterDescriptor.transferWidth, if_pos whole]
    have isTransfer : h.isTransferAddress h.effectiveAddress = true := by
      simp only [RegisterHandle.isTransferAddress, Bool.and_eq_true, decide_eq_true_eq, beq_iff_eq,
        Nat.sub_self, Nat.zero_mod, and_true]
      omega
    have here : Inside h.effectiveAddress entry.range := by
      unfold Inside RegisterEntry.range
      simp only [entryOf.address, entryOf.endAddress entries supported constructed]
      omega
    have noTransfer : ∀ transfer ∈ coverage.transfers,
        transferAddress transfer ≠ h.effectiveAddress := by
      intro transfer member same
      obtain ⟨register, sized, -, inside⟩ := Entries.mem_transfers member
      rw [same] at inside
      have one := Entries.find_register entries register inside
      rw [Entries.find_register entries entryOf.member here, Option.some.injEq] at one
      rw [← one, entryOf.transferBytes entries supported, whole] at sized
      exact sized rfl
    have noMemory : ∀ memory ∈ coverage.memories, ¬Inside h.effectiveAddress memory.range :=
      fun memory member => entries.register_memory_apart entryOf.member member here
    have sampled := (counts.counted (predicts.mpr ⟨okay, _, normal, isTransfer⟩) _ normal).1
    rw [entries.write_scan ⟨okay, normal⟩, entries.scan_no_transfer noTransfer,
      Entries.scan_no_memory noMemory] at sampled
    exact Nat.succ_ne_self _ sampled.symm
  · intro own
    refine ⟨fun predicted address normal => ?_, fun missed index inside => ?_⟩
    · obtain ⟨-, target, normal', isTransfer⟩ := predicts.mp predicted
      obtain rfl := Option.some.inj (normal'.symm.trans normal)
      have split : Split h := by
        refine ⟨supported, fun whole => own whole ?_⟩
        -- the only transfer of a whole register is at its first byte
        have bytes : h.descriptor.transferBytes = h.descriptor.width / 8 := by
          rw [RegisterModel.RegisterDescriptor.transferBytes,
            RegisterModel.RegisterDescriptor.transferWidth, if_pos whole]
        simp only [RegisterHandle.isTransferAddress, Bool.and_eq_true, decide_eq_true_eq, beq_iff_eq,
          bytes] at isTransfer
        rw [Nat.mod_eq_of_lt (by omega)] at isTransfer
        rw [normal]
        exact congrArg some (by omega)
      obtain ⟨within, member, address⟩ := entryOf.transfer entries split constructed isTransfer
      have looks : Entries.Looks transaction.toMemoryTransaction (transferAddress
          (entry, (target - h.effectiveAddress) / h.descriptor.transferBytes)) :=
        ⟨okay, address.symm ▸ normal⟩
      have counters := sampledCounters_eq split (layout_of_constructed constructed) wide numbered
        entryOf within transaction
      have distinct := (sampledCounters_sublist
        (entry, (target - h.effectiveAddress) / h.descriptor.transferBytes) transaction.operation
        transaction.byteEnable).nodup ((List.nodup_flatMap.mp
          (List.nodup_append.mp numbered.distinct).1).1 entry entryOf.member)
      rw [entries.write_scan_transfer member looks, ← counters]
      exact ⟨rfl, tallied_of_nodup distinct⟩
    · refine counts_otherwise entries numbered entryOf.member (fun address looks transfer member here => ?_)
        inside
      refine missed (predicts.mpr ⟨okay, address, looks.normal, ?_⟩)
      exact here ▸ entryOf.isTransfer entries supported constructed member

end Decoding

section Alone

variable {bus : BusTypes} {h : RegisterHandle bus}

/-- The fields that a transfer overlaps, no more than it has bits. -/
theorem overlapping_le (layout : RegisterModel.Layout h.descriptor) (lsb : ℕ) :
    (h.descriptor.fields.filter fun field => decide (max field.lsb lsb <
      min (field.lsb + field.width) (lsb + h.descriptor.accessWidth))).length ≤
      h.descriptor.accessWidth := by
  generalize h.descriptor.accessWidth = width
  let first (field : FieldDescriptor) : ℕ := max field.lsb lsb
  -- the first bits that the fields have of the transfer
  have bits : ((h.descriptor.fields.filter fun field => decide (max field.lsb lsb <
      min (field.lsb + field.width) (lsb + width))).map first).Subperm (List.range' lsb width) := by
    refine List.Nodup.subperm ?_ fun bit member => ?_
    · rw [List.Nodup, List.pairwise_map]
      refine (layout.disjoint.sublist List.filter_sublist).imp_of_mem ?_
      intro field field' member member' disjoint same
      have overlap := of_decide_eq_true (List.mem_filter.mp member).2
      have overlap' := of_decide_eq_true (List.mem_filter.mp member').2
      have here : first field ∈ field.region :=
        ⟨le_max_left _ _, show max field.lsb lsb < _ by omega⟩
      have there : first field' ∈ field'.region :=
        ⟨le_max_left _ _, show max field'.lsb lsb < _ by omega⟩
      exact Set.disjoint_left.mp disjoint here (same ▸ there)
    · obtain ⟨field, inside, rfl⟩ := List.mem_map.mp member
      have overlap := of_decide_eq_true (List.mem_filter.mp inside).2
      exact List.mem_range'_1.mpr ⟨le_max_right _ _, show max field.lsb lsb < _ by omega⟩
  have few := bits.length_le
  rwa [List.length_map, List.length_range'] at few

/-- The field actions of a transfer, no more than it has bits. -/
theorem ownFieldActions_le (split : Split h) (layout : RegisterModel.Layout h.descriptor)
    {entry : RegisterEntry} (descriptor : entry.descriptor = h.descriptor.described)
    (fields : entry.fields.map (·.descriptor) = h.descriptor.fields.map (·.described)) {transfer : ℕ}
    (inside : transfer < h.descriptor.transferCount) :
    (ownFieldActions (entry, transfer)).length ≤ h.descriptor.accessWidth := by
  have width := split.supported.width
  obtain ⟨first, last⟩ := split.bitLsb inside
  have own := split.accessWidth
  refine le_trans (le_of_eq ?_) (overlapping_le layout
    (h.descriptor.transferBitOffset transfer))
  unfold ownFieldActions transferFieldActions
  simp only [descriptor]
  have within := layout.inside
  generalize entry.fields = entries at fields
  generalize h.descriptor.fields = list at fields within
  induction list generalizing entries with
  | nil =>
    obtain rfl := List.map_eq_nil_iff.mp fields
    rfl
  | cons field rest ih =>
    obtain ⟨one, others, rfl, same, later⟩ := List.map_eq_cons_iff.mp fields
    have lengths := ih others later fun other member => within other (List.mem_cons_of_mem _ member)
    obtain ⟨-, fits⟩ := within field List.mem_cons_self
    have lsb : field.described.lsb.toNat = field.lsb := toNat_ofNat16 (by omega)
    have size : field.described.width.toNat = field.width := toNat_ofNat16 (by omega)
    have spec := @overlapMask_spec field.described (bitLsb h.descriptor.described transfer)
      h.descriptor.described.accessWidth (by omega) (by rw [first, own]; omega)
    rw [lsb, size, first, own] at spec
    rw [List.filterMap_cons, List.filter_cons, same]
    split at spec
    next overlap =>
      obtain ⟨mask, found, -⟩ := spec
      rw [found, decide_eq_true overlap, if_pos rfl, Option.map_some, List.length_cons,
        List.length_cons, lengths]
    next apart =>
      rw [spec, decide_eq_false apart, if_neg Bool.false_ne_true]
      exact lengths

/-- The coverage of one register. -/
theorem scanning_one {base : UInt64} {name : String} (named : name.isEmpty = false)
    {descriptor : RegisterDescriptor}
    (fits : base.toNat + descriptor.address.toNat + descriptor.width.toNat / 8 ≤ 2 ^ 64 - 1) :
    ∃ coverage entry, scanning { registers := [descriptor] } base name = .ok coverage ∧
      coverage.registers = [entry] ∧ entry.descriptor = descriptor ∧
      entry.address = base.toNat + descriptor.address.toNat := by
  obtain ⟨middle, added⟩ : ∃ middle,
      addRegister base.toNat { name := name } descriptor = .ok middle := by
    have start : checkedAddress base.toNat descriptor.address.toNat descriptor.path =
        .ok (base.toNat + descriptor.address.toNat) := if_neg (by omega)
    have finish : checkedAddress (base.toNat + descriptor.address.toNat)
        (descriptor.width.toNat / 8) descriptor.path =
          .ok (base.toNat + descriptor.address.toNat + descriptor.width.toNat / 8) :=
      if_neg (by omega)
    cases added : addRegister base.toNat { name := name } descriptor with
    | ok middle => exact ⟨middle, rfl⟩
    | error message =>
      simp only [addRegister, start, finish, bind, Except.bind, pure, Except.pure] at added
      cases added
  obtain ⟨entry, registers, -, same, address, -⟩ := addRegister_numbered base.toNat_lt added
  let sorted : RegisterAccessCoverage :=
    { middle with
      registers := middle.registers.insertionSort fun left right => left.address ≤ right.address
      memories := middle.memories.insertionSort fun left right => left.address ≤ right.address }
  refine ⟨sorted, entry, ?_, ?_, same, address⟩
  · unfold scanning
    rw [named]
    simp only [Bool.false_eq_true, if_false, List.foldlM_cons, List.foldlM_nil, added, bind,
      Except.bind, pure, Except.pure]
    rfl
  · show middle.registers.insertionSort _ = _
    rw [registers]
    rfl

/-- **The coverage of one register is constructed, and its lookups agree.** -/
theorem scanning_alone (supported : RegisterPredictor.Supported h) {base : UInt64}
    (constructed : h.Constructed base) {name : String} (named : name.isEmpty = false) :
    ∃ coverage, scanning { registers := [h.descriptor.described] } base name = .ok coverage ∧
      coverage.LookupsAgree := by
  obtain ⟨placed, ends⟩ := constructed.effectiveAddress_eq
  have width := supported.width
  have ends := ends width.2.1
  have exact16 : h.descriptor.described.width.toNat = h.descriptor.width := toNat_ofNat16 width.2.2
  have fits : base.toNat + h.descriptor.described.address.toNat +
      h.descriptor.described.width.toNat / 8 ≤ 2 ^ 64 - 1 := by
    rw [exact16]
    show base.toNat + h.descriptor.address.toNat + _ ≤ _
    omega
  obtain ⟨coverage, entry, built, registers, descriptor, address⟩ := scanning_one named fits
  have member : entry ∈ coverage.registers := registers ▸ List.mem_singleton_self _
  have apart : RegisterBlockDescriptor.NonOverlapping { registers := [h.descriptor.described] } :=
    List.pairwise_singleton _ _
  have entries := scanning_entries built apart
  have numbered := (scanning_numbered built).1
  have entryOf : EntryOf coverage entry h := ⟨member, descriptor, address.trans placed.symm⟩
  have bytes := entryOf.transferBytes entries supported
  have last := entryOf.endAddress entries supported constructed
  rw [RegisterPredictor.endAddress_eq constructed supported] at last
  have transfers : coverage.transfers = entry.transfers := by
    rw [RegisterAccessCoverage.transfers, registers, List.flatMap_singleton]
  by_cases own : h.descriptor.accessWidth = 0
  · -- no transfers at all
    have none' : entry.transferCount = 0 := if_pos (by rw [bytes, own])
    refine ⟨coverage, built, fun _ => ⟨fun other inside => ?_, selectsOwn_of_few ?_⟩⟩
    · obtain rfl := List.mem_singleton.mp (registers ▸ inside)
      rw [RegisterEntry.StaysInside, none', entryOf.address]
      omega
    · rw [transfers, RegisterEntry.transfers, none']
      exact Nat.zero_le _
  · have split : Split h := ⟨supported, own⟩
    have total := split.count
    have fields := numbered.fields entryOf
    have sized : entry.transferBytes = h.descriptor.transferBytes := bytes.trans split.bytes.1.symm
    have positive := Nat.pos_of_ne_zero supported.transferBytes_ne_zero
    have count : entry.transferCount = h.descriptor.transferCount := by
      refine eq_of_forall_lt_iff fun transfer => ?_
      rw [lt_transferCount_iff (by omega), sized, last, entryOf.address, Nat.add_sub_cancel_left,
        split.bytes.2, Nat.mul_lt_mul_right positive]
    refine ⟨coverage, built, fun _ => ⟨fun other inside => ?_, selectsOwn_of_few ?_⟩⟩
    · obtain rfl := List.mem_singleton.mp (registers ▸ inside)
      rw [RegisterEntry.StaysInside, count, sized, ← split.bytes.2, entryOf.address]
      omega
    · have each : ∀ number ∈ (List.range h.descriptor.transferCount).map fun transfer =>
          (ownFieldActions (entry, transfer)).length, number ≤ h.descriptor.accessWidth := by
        intro number isNumber
        obtain ⟨transfer, within, rfl⟩ := List.mem_map.mp isNumber
        exact ownFieldActions_le split (layout_of_constructed constructed) descriptor fields
          (List.mem_range.mp within)
      have sum := List.sum_le_card_nsmul _ _ each
      rw [List.length_map, List.length_range, smul_eq_mul, split.count] at sum
      rw [transfers, RegisterEntry.transfers, count, List.length_flatMap, List.map_map]
      exact sum.trans (by omega)

end Alone

section Runs

variable {bus : BusTypes} {coverage : RegisterAccessCoverage} {h : RegisterHandle bus}

/-- No transaction changes the counter of a register or a field. -/
theorem counters_write (entries : coverage.Entries) (numbered : coverage.Numbered)
    {entry : RegisterEntry} (member : entry ∈ coverage.registers) (transaction : MemoryTransaction)
    {index : ℕ} (inside : index ∈ entry.indices) :
    (coverage.write transaction).counters[index]? = coverage.counters[index]? := by
  by_cases okay : memoryOkay transaction.status = true
  case neg =>
    unfold write
    simp only [okay, Bool.not_false, if_true]
  cases normal : normalizeAddress transaction.address with
  | none =>
    unfold write
    simp only [okay, normal, Bool.not_true, Bool.false_eq_true, if_false]
    rfl
  | some address =>
    have looks : Entries.Looks transaction address := ⟨okay, normal⟩
    cases Entries.target coverage address with
    | transfer earlier later transfer position here =>
      subst here
      have isTransfer : transfer ∈ coverage.transfers := by
        rw [position]
        exact List.mem_append_right _ List.mem_cons_self
      rw [entries.write_scan_transfer isTransfer looks]
      rfl
    | memory memory position found within =>
      have isMemory := (Entries.mem_of_zipIdx found).1
      have noTransfer : ∀ transfer ∈ coverage.transfers, transferAddress transfer ≠ address := by
        intro transfer isTransfer here
        obtain ⟨register, -, -, both⟩ := Entries.mem_transfers isTransfer
        rw [here] at both
        exact entries.register_memory_apart register isMemory both within
      rw [entries.write_scan looks, entries.scan_no_transfer noTransfer,
        entries.scan_memory isMemory within]
      simp only [sampledElement, sampleCounter_eq, sampleIndex, countSample]
      have other := (numbered.memory_apart member isMemory inside).symm
      simp only [List.getElem?_modify, if_neg other]
      exact id_map _
    | unmapped noTransfer noMemory =>
      rw [entries.write_scan looks, entries.scan_no_transfer noTransfer,
        Entries.scan_no_memory noMemory]
      rfl

theorem labelled_congr {entry : RegisterEntry} {counters counters' : List Counter}
    (labelled : entry.Labelled counters)
    (same : ∀ index ∈ entry.indices, counters'[index]? = counters[index]?) :
    entry.Labelled counters' := by
  refine ⟨(same _ List.mem_cons_self).trans labelled.register, ?_⟩
  refine List.forall₂_iff_get.mpr ⟨labelled.fields.length_eq, fun index bound bound' => ?_⟩
  obtain ⟨descriptor, counter⟩ := (List.forall₂_iff_get.mp labelled.fields).2 index bound bound'
  exact ⟨descriptor, (same _ (List.mem_cons_of_mem _
    (List.mem_map_of_mem (List.getElem_mem bound)))).trans counter⟩

/-- A transaction keeps the counters apart. -/
theorem Numbered.write (numbered : coverage.Numbered) (entries : coverage.Entries)
    (transaction : MemoryTransaction) : (coverage.write transaction).Numbered := by
  have same := entries.sameMap_write transaction
  have indices : (coverage.write transaction).indices = coverage.indices := by
    rw [RegisterAccessCoverage.indices, same.registers, same.memories]
    rfl
  refine ⟨indices ▸ numbered.distinct, ?_, fun entry member => ?_⟩
  · rw [indices, same.counters]
    exact numbered.below
  · rw [same.registers] at member
    exact labelled_congr (numbered.labelled entry member)
      fun index => counters_write entries numbered member transaction

/-- **What every sequence of transactions keeps of a coverage.** -/
theorem writes_same (entries : coverage.Entries) (numbered : coverage.Numbered)
    (transactions : List MemoryTransaction) :
    SameMap coverage (transactions.foldl RegisterAccessCoverage.write coverage) ∧
      (transactions.foldl RegisterAccessCoverage.write coverage).Numbered := by
  induction transactions generalizing coverage with
  | nil => exact ⟨SameMap.rfl', numbered⟩
  | cons transaction rest ih =>
    have same := entries.sameMap_write transaction
    obtain ⟨later, numbered'⟩ := ih (same.entries entries) (numbered.write entries transaction)
    exact ⟨same.trans later, numbered'⟩

/-- With the table, a transaction counts as on the scan path. -/
theorem countsAsPredicted_full (entries : coverage.Entries) (fits : coverage.TableFits)
    (all : coverage.AllSelectOwn) {entry : RegisterEntry} {p : RegisterPredictor bus} {position : ℕ}
    {transaction : BusTransaction} :
    CountsAsPredicted { coverage with table := coverage.fullTable } entry p h position transaction ↔
      CountsAsPredicted coverage entry p h position transaction := by
  have written := entries.write_full fits all transaction.toMemoryTransaction
  constructor
  · rintro ⟨counted, otherwise⟩
    rw [written] at counted otherwise
    exact ⟨counted, otherwise⟩
  · rintro ⟨counted, otherwise⟩
    refine ⟨?_, ?_⟩
    · rw [written]
      exact counted
    · rw [written]
      exact otherwise

/-- **Coverage counts what the register model predicts.** For every register that a handle accepts, at
any base address, alone or in a block whose lookup paths agree, after any transactions: the coverage
counts an okay transaction as the predictor predicts it, unless the access width is the 0 that means the
whole register and the transaction is at its first byte. -/
theorem counts_as_predicted_iff (wide : 8 ≤ bus.byteEnableBits) {handles : List (RegisterHandle bus)}
    {p : RegisterPredictor bus} (predictor : RegisterPredictor.make handles = .ok p)
    (constructed : ∀ h ∈ handles, ∃ base, h.Constructed base) {position : ℕ}
    (found : handles[position]? = some h) {base : UInt64} (placed : h.Constructed base)
    {name : String} (named : name.isEmpty = false) :
    (∃ coverage, scanning { registers := [h.descriptor.described] } base name = .ok coverage ∧
      coverage.LookupsAgree) ∧
    ∀ block coverage, block.NonOverlapping → h.descriptor.described ∈ block.registers →
      scanning block base name = .ok coverage → coverage.LookupsAgree →
      ∃ table entry, coverage.buildActionTable = some table ∧
        ∀ seen : List MemoryTransaction, ∀ followed : List BusTransaction, ∃ p' h',
          followed.foldlM RegisterPredictor.write p = .ok p' ∧ p'.handles[position]? = some h' ∧
          h'.descriptor = h.descriptor ∧ h'.effectiveAddress = h.effectiveAddress ∧
          EntryOf (seen.foldl write table) entry h' ∧
          entry.Labelled (seen.foldl write table).counters ∧
          ∀ transaction, memoryOkay transaction.status = true →
            (CountsAsPredicted (seen.foldl write table) entry p' h' position transaction ↔
              (h.descriptor.accessWidth = 0 →
                normalizeAddress transaction.address ≠ some h.effectiveAddress)) := by
  obtain ⟨known, rfl⟩ := RegisterPredictor.entries_of_make predictor constructed
  have supported : RegisterPredictor.Supported h := by
    obtain ⟨e, -, ok⟩ := known.all position h found
    exact (RegisterPredictor.entryOf_ok ok).1
  refine ⟨scanning_alone supported placed named, ?_⟩
  intro block coverage apart described built agree
  have entries := scanning_entries built apart
  obtain ⟨numbered, all⟩ := scanning_numbered built
  obtain ⟨entry, member, descriptor, address⟩ := all _ described
  -- the coverage that construction returns, after some transactions
  obtain ⟨table, made, kept⟩ : ∃ table, coverage.buildActionTable = some table ∧
      ∀ seen : List MemoryTransaction, ∃ added,
        seen.foldl write table = { seen.foldl write coverage with table := added } ∧
        ∀ (p' : RegisterPredictor bus) h' transaction,
          CountsAsPredicted (seen.foldl write table) entry p' h' position transaction ↔
            CountsAsPredicted (seen.foldl write coverage) entry p' h' position transaction := by
    by_cases fits : coverage.TableFits
    · obtain ⟨stays, own⟩ := agree fits
      refine ⟨_, (entries.buildActionTable_eq fits).trans (if_pos stays), fun seen => ?_⟩
      have full := entries.writes_full fits own seen
      obtain ⟨same, -⟩ := writes_same entries numbered seen
      refine ⟨_, full, fun p' h' transaction => ?_⟩
      rw [full, ← same.fullTable]
      exact countsAsPredicted_full (same.entries entries) (same.fits fits) (same.allSelectOwn own)
    · refine ⟨coverage, if_pos (not_not.mp fits), fun seen => ⟨_, rfl, fun _ _ _ => Iff.rfl⟩⟩
  refine ⟨table, entry, made, fun seen followed => ?_⟩
  obtain ⟨added, same, counts⟩ := kept seen
  obtain ⟨map, numbered'⟩ := writes_same entries numbered seen
  obtain ⟨p', written, registers⟩ := RegisterPredictor.writes_same known followed
  obtain ⟨h', found', descriptor', address'⟩ := registers.handle found
  have placed' : h'.Constructed base := by
    obtain ⟨h₀, userEffects, hasBackdoor, made, eq⟩ := placed
    exact ⟨h₀, userEffects, hasBackdoor, descriptor' ▸ made, address'.trans eq⟩
  have entryOf : EntryOf (seen.foldl write coverage) entry h' :=
    ⟨map.registers ▸ member, descriptor.trans (congrArg _ descriptor'.symm),
      address.trans ((placed.effectiveAddress_eq.1).symm.trans address'.symm)⟩
  refine ⟨p', h', written, found', descriptor', address', ?_, ?_, fun transaction okay => ?_⟩
  · rw [same]
    exact ⟨entryOf.member, entryOf.descriptor, entryOf.address⟩
  · rw [same]
    exact numbered'.labelled entry entryOf.member
  · rw [counts, ← descriptor', ← address']
    exact counts_iff (map.entries entries) numbered' entryOf (known.congr registers) found' placed'
      wide okay

/-- A bus of 32 bits. -/
def bus32 : BusTypes := ⟨32, 32, 8, by decide, by decide⟩

/-- The handle of a 32-bit register with one field, at address 0. -/
def control (accessWidth : ℕ) : RegisterHandle bus32 where
  descriptor :=
    { path := "control"
      width := 32
      accessWidth := accessWidth
      endianness := .big
      fields := [{ path := "mode", lsb := 12, width := 8 }] }
  userEffects := none
  hasBackdoor := false
  effectiveAddress := 0
  autoPredict := true
  staged := 0
  mirrored := 0
  stagedValidMask := 0
  mirroredValidMask := 0
  writtenOnceMask := 0

/-- The predictor of one handle. -/
def following (accessWidth bytes : ℕ) : RegisterPredictor bus32 where
  handles := [control accessWidth]
  entries := [{ address := 0, endAddress := 4, transferBytes := bytes, handle := 0 }]

/-- The block of one register. -/
def controlBlock (accessWidth : ℕ) : RegisterBlockDescriptor where
  registers := [(control accessWidth).descriptor.described]

/-- A register of two big-endian transfers: a write of its second one counts as predicted. -/
theorem counts_as_predicted_split : ∃ table entry,
    (scanned (controlBlock 16)).buildActionTable = some table ∧
      CountsAsPredicted table entry (following 16 2) (control 16) 0
        { operation := .write, address := 2, byteEnable := 3, data := 0xabcd } := by
  have constructed : (control 16).Constructed 0 :=
    ⟨control 16, none, false, by with_unfolding_all rfl, rfl⟩
  have predictor : RegisterPredictor.make [control 16] = .ok (following 16 2) := by
    with_unfolding_all rfl
  obtain ⟨-, all⟩ := @counts_as_predicted_iff bus32 (control 16) (by decide) [control 16]
    (following 16 2) predictor (fun _ member => ⟨0, List.mem_singleton.mp member ▸ constructed⟩) 0 rfl 0
    constructed "register_access" (by decide +kernel)
  obtain ⟨table, entry, made, runs⟩ := all (controlBlock 16) (scanned (controlBlock 16))
    (by decide +kernel) List.mem_cons_self (scanning_eq_scanned (by decide +kernel))
    (by decide +kernel)
  obtain ⟨p', h', same, here, -, -, -, -, counts⟩ := runs [] []
  obtain rfl := Except.ok.inj same
  obtain rfl := Option.some.inj here
  exact ⟨table, entry, made, (counts _ rfl).mpr fun zero => absurd zero (by decide)⟩

/-- With the access width 0, the predictor predicts a read of the register, and the coverage counts it as
unmapped. -/
theorem whole_register_unmapped : (control 0).Constructed 0 ∧
    RegisterPredictor.make [control 0] = .ok (following 0 4) ∧
    (following 0 4).Predicts 0 { address := 0 } ∧
    scanning (controlBlock 0) 0 "register_access" = .ok (scanned (controlBlock 0)) ∧
    (scanned (controlBlock 0)).buildActionTable.any (fun table =>
      (table.write { address := 0 }).samples = 0 ∧ (table.write { address := 0 }).unmapped = 1) =
        true := by
  refine ⟨⟨control 0, none, false, by with_unfolding_all rfl, rfl⟩, by with_unfolding_all rfl, ?_,
    scanning_eq_scanned (by decide +kernel), by decide +kernel⟩
  exact ⟨rfl, 0, rfl, _, rfl, rfl⟩

end Runs

end RegisterAccessCoverage

end Cpptb.Vc
