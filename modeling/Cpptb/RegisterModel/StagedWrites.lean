/-
The value that `update` writes for a staged value.

`staged_write_value` encodes the staged value of each field for its write effect, from the mirrored
value as far as that is known. `update` predicts what the written value makes of the mirror and warns
where this is not the staged value, with certainty. The encoding is sound and as good as possible:

* `hardware_of_makesStaged`: where the prediction makes the staged value, so does the hardware, for
  every hardware value that agrees with what is known of the mirror;
* `makesStaged_best`: if any written value makes the staged value, the encoded one does.

Both are assembled from the facts about one bit, `writeEffectBit_of_valid` and `stagedWriteBit_best`.
-/

import Cpptb.RegisterModel.Fields

namespace Cpptb.RegisterModel

open Cpptb.Vc (RegisterAccess registerReadable registerWritable)
open Cpptb.Regions (Local foldl_inside)

/-- What a write makes of the hardware: the declared effects of the writable fields, or the written
value where there are no fields. -/
def RegisterDescriptor.hardwareWrite (descriptor : RegisterDescriptor) (hardware written : Word) :
    Word :=
  if descriptor.fields.isEmpty then written
  else descriptor.fields.foldl (fun state field =>
    if registerWritable field.access then applyWriteEffect state written field else state) hardware

namespace RegisterHandle

variable {bus : BusTypes}

/-- The hardware agrees with what is known of the mirror. -/
def Knows (h : RegisterHandle bus) (hardware : Word) : Prop :=
  hardware &&& h.mirroredValidMask = h.mirrored &&& h.mirroredValidMask

/-- The prediction of a written value is the staged value, and known, on all writable bits. -/
structure MakesStaged (h : RegisterHandle bus) (written : Word) : Prop where
  value : (h.predictedWriteState written).value &&& h.writableMask = h.staged &&& h.writableMask
  valid : (h.predictedWriteState written).validMask &&& h.writableMask = h.writableMask

/-- The registers and staged values that the results are about: the effects are declared, the staged
value is known, and no field has been written once. -/
structure Stageable (h : RegisterHandle bus) : Prop where
  layout : Layout h.descriptor
  declared : ∀ field ∈ h.descriptor.fields, registerWritable field.access → field.writeEffect ≠ .user
  known : h.unknownStaged = 0
  unwritten : ∀ field ∈ h.descriptor.fields, h.writtenOnceMask &&& registerFieldMask field = 0

section Bits

variable {h : RegisterHandle bus} {field : FieldDescriptor} {i : ℕ}

/-- The staged write of a field has no bit outside the field. -/
theorem getLsbD_stagedFieldWrite_outside (outside : i ∉ field.region) (inWord : i < 64) :
    (h.stagedFieldWrite field).getLsbD i = false := by
  unfold stagedFieldWrite
  split
  next policy _ _ =>
    have placed := getLsbD_placed 0 (policy.encodeWriteField h.descriptor field
      ((h.mirrored >>> field.lsb) &&& registerMask field.width)
      ((h.mirroredValidMask >>> field.lsb) &&& registerMask field.width)
      ((h.staged >>> field.lsb) &&& registerMask field.width)) field inWord
    rw [if_neg outside, BitVec.getLsbD_or, getLsbD_zeroWord, Bool.or_eq_false_iff] at placed
    exact placed.2
  next => rw [getLsbD_encodeStagedWrite _ _ _ _ inWord, decide_eq_false outside, Bool.false_and]

theorem stagedWrite_local (h : RegisterHandle bus) (field : FieldDescriptor) :
    Local BitVec.getLsbD field.region fun written =>
      if registerWritable field.access then written ||| h.stagedFieldWrite field else written := by
  by_cases writable : registerWritable field.access
  · simp only [if_pos writable]
    constructor
    · intro written i outside
      rw [BitVec.getLsbD_or]
      rcases lt_or_ge i 64 with inWord | beyond
      · rw [getLsbD_stagedFieldWrite_outside outside inWord, Bool.or_false]
      · rw [BitVec.getLsbD_of_ge _ _ beyond, BitVec.getLsbD_of_ge _ _ beyond, Bool.or_false]
    · intro written written' same i inside
      show (written ||| h.stagedFieldWrite field).getLsbD i
        = (written' ||| h.stagedFieldWrite field).getLsbD i
      rw [BitVec.getLsbD_or, BitVec.getLsbD_or, same i inside]
  · simp only [if_neg writable]
    exact Local.id field.region

theorem applyWriteEffect_local (written : Word) (field : FieldDescriptor) :
    Local BitVec.getLsbD field.region fun hardware =>
      if registerWritable field.access then applyWriteEffect hardware written field else hardware := by
  by_cases writable : registerWritable field.access
  · simp only [if_pos writable]
    constructor
    · intro hardware i outside
      rcases lt_or_ge i 64 with inWord | beyond
      · rw [getLsbD_applyWriteEffect _ _ _ inWord, if_neg outside]
      · rw [BitVec.getLsbD_of_ge _ _ beyond, BitVec.getLsbD_of_ge _ _ beyond]
    · intro hardware hardware' same i inside
      show (applyWriteEffect hardware written field).getLsbD i
        = (applyWriteEffect hardware' written field).getLsbD i
      rcases lt_or_ge i 64 with inWord | beyond
      · rw [getLsbD_applyWriteEffect _ _ _ inWord, getLsbD_applyWriteEffect _ _ _ inWord, same i inside]
      · rw [BitVec.getLsbD_of_ge _ _ beyond, BitVec.getLsbD_of_ge _ _ beyond]
  · simp only [if_neg writable]
    exact Local.id field.region

theorem isEmpty_of_mem (member : field ∈ h.descriptor.fields) :
    ¬ h.descriptor.fields.isEmpty = true := by
  intro empty
  exact absurd (List.isEmpty_iff.mp empty ▸ member) List.not_mem_nil

variable (layout : Layout h.descriptor) (member : field ∈ h.descriptor.fields)
  (writable : registerWritable field.access) (inWord : i < 64) (inside : i ∈ field.region)

include layout member writable inWord inside

/-- A bit of the encoded write is its field's. -/
theorem getLsbD_stagedWriteValue (declared : field.writeEffect ≠ .user) :
    h.stagedWriteValue.getLsbD i = stagedWriteBit (h.mirrored.getLsbD i)
      (h.mirroredValidMask.getLsbD i) (h.staged.getLsbD i) field.writeEffect := by
  have encoded : h.stagedFieldWrite field
      = encodeStagedWrite h.mirrored h.mirroredValidMask h.staged field := by
    unfold stagedFieldWrite
    split
    next effect _ => exact absurd effect declared
    next => rfl
  rw [stagedWriteValue, if_neg (isEmpty_of_mem member),
    foldl_inside (fun g _ => h.stagedWrite_local g) layout.disjoint member
      inside, if_pos writable, BitVec.getLsbD_or, getLsbD_zeroWord, Bool.false_or, encoded,
    getLsbD_encodeStagedWrite _ _ _ _ inWord, decide_eq_true inside, Bool.true_and]

/-- A bit of the hardware after a write. -/
theorem getLsbD_hardwareWrite (hardware written : Word) :
    (h.descriptor.hardwareWrite hardware written).getLsbD i =
      writeEffectBit (hardware.getLsbD i) (written.getLsbD i) field.writeEffect := by
  rw [RegisterDescriptor.hardwareWrite, if_neg (isEmpty_of_mem member),
    foldl_inside (fun g _ => applyWriteEffect_local written g)
      layout.disjoint member inside, if_pos writable, getLsbD_applyWriteEffect _ _ _ inWord,
    if_pos inside]

/-- A bit of the predicted state. -/
theorem look_predictedWriteState (declared : field.writeEffect ≠ .user)
    (unwritten : h.writtenOnceMask &&& registerFieldMask field = 0) (written : Word) :
    look ((h.predictedWriteState written).value, (h.predictedWriteState written).validMask) i =
      (writeEffectBit (h.mirrored.getLsbD i) (written.getLsbD i) field.writeEffect,
        writeValidBit (h.mirroredValidMask.getLsbD i) (written.getLsbD i) field.writeEffect) := by
  have inRegister : h.widthMask.getLsbD i = true := by
    have below := (layout.inside field member).2
    have := inside.2
    rw [getLsbD_widthMask inWord, decide_eq_true (by omega)]
  have bit := look_predictedFields written (h.mirrored, h.mirroredValidMask) layout member inside
  rw [if_pos ⟨writable, unwritten⟩, look_effectedWrite h declared _ inWord inside] at bit
  rw [predictedWriteState, if_neg (isEmpty_of_mem member), ← bit, look, look, BitVec.getLsbD_and,
    BitVec.getLsbD_and, inRegister, Bool.and_true, Bool.and_true]

end Bits

section Results

variable {h : RegisterHandle bus}

/-- The writable bits of a register with fields are those of its writable fields. -/
theorem getLsbD_writableMask (fielded : ¬ h.descriptor.fields.isEmpty = true) {i : ℕ}
    (inWord : i < 64) : h.writableMask.getLsbD i = true ↔
      ∃ field ∈ h.descriptor.fields, registerWritable field.access = true ∧ i ∈ field.region := by
  rw [writableMask, if_neg fielded]
  exact getLsbD_fieldsMask _ _ inWord

/-- What makes the staged value, bit by bit. -/
theorem Stageable.makesStaged_iff (stageable : h.Stageable)
    (fielded : ¬ h.descriptor.fields.isEmpty = true) (written : Word) : h.MakesStaged written ↔
      ∀ field ∈ h.descriptor.fields, registerWritable field.access = true → ∀ i < 64, i ∈ field.region →
        writeEffectBit (h.mirrored.getLsbD i) (written.getLsbD i) field.writeEffect
            = h.staged.getLsbD i ∧
          writeValidBit (h.mirroredValidMask.getLsbD i) (written.getLsbD i) field.writeEffect
            = true := by
  have bit := fun field member writable i inWord inside =>
    look_predictedWriteState (i := i) stageable.layout member writable inWord inside
      (stageable.declared field member writable) (stageable.unwritten field member) written
  have allValid : ∀ valid : Word, valid &&& h.writableMask = h.writableMask ↔
      ∀ i < 64, h.writableMask.getLsbD i = true → valid.getLsbD i = true := by
    intro valid
    have ones := and_eq_and_iff h.writableMask valid (BitVec.allOnes 64)
    rw [BitVec.allOnes_and] at ones
    rw [ones]
    refine forall₃_congr fun i inWord _ => ?_
    rw [BitVec.getLsbD_allOnes, decide_eq_true inWord]
  constructor
  · rintro ⟨value, valid⟩ field member writable i inWord inside
    have set := (getLsbD_writableMask fielded inWord).mpr ⟨field, member, writable, inside⟩
    obtain ⟨left, right⟩ := Prod.mk.inj (bit field member writable i inWord inside)
    exact ⟨left.symm.trans ((and_eq_and_iff _ _ _).mp value i inWord set),
      right.symm.trans ((allValid _).mp valid i inWord set)⟩
  · intro same
    refine ⟨(and_eq_and_iff _ _ _).mpr ?_, (allValid _).mpr ?_⟩
    all_goals
      intro i inWord set
      obtain ⟨field, member, writable, inside⟩ := (getLsbD_writableMask fielded inWord).mp set
      obtain ⟨left, right⟩ := Prod.mk.inj (bit field member writable i inWord inside)
    · exact left.trans (same field member writable i inWord inside).1
    · exact right.trans (same field member writable i inWord inside).2

/-- Where the prediction makes the staged value the hardware does, whatever is unknown of it. -/
theorem hardware_of_makesStaged (stageable : h.Stageable) {written hardware : Word}
    (makes : h.MakesStaged written) (knows : h.Knows hardware) :
    h.descriptor.hardwareWrite hardware written &&& h.writableMask = h.staged &&& h.writableMask := by
  by_cases fieldless : h.descriptor.fields.isEmpty = true
  · have value := makes.value
    rw [predictedWriteState, if_pos fieldless] at value
    rw [RegisterDescriptor.hardwareWrite, if_pos fieldless]
    rw [writableMask, if_pos fieldless] at value ⊢
    rw [← value, BitVec.and_assoc, BitVec.and_self]
  · rw [and_eq_and_iff]
    intro i inWord set
    obtain ⟨field, member, writable, inside⟩ := (getLsbD_writableMask fieldless inWord).mp set
    obtain ⟨value, valid⟩ := (stageable.makesStaged_iff fieldless written).mp makes field member
      writable i inWord inside
    rw [getLsbD_hardwareWrite stageable.layout member writable inWord inside, ← value]
    exact writeEffectBit_of_valid (stageable.declared field member writable)
      (fun isValid => (and_eq_and_iff _ _ _).mp knows i inWord isValid) valid

/-- If any written value makes the staged value, the encoded one does. -/
theorem makesStaged_best (stageable : h.Stageable) {written : Word} (makes : h.MakesStaged written) :
    h.MakesStaged h.stagedWriteValue := by
  by_cases fieldless : h.descriptor.fields.isEmpty = true
  · constructor
    · rw [predictedWriteState, stagedWriteValue, if_pos fieldless, if_pos fieldless, writableMask,
        if_pos fieldless, BitVec.and_assoc, BitVec.and_self]
    · rw [predictedWriteState, if_pos fieldless, writableMask, if_pos fieldless, BitVec.and_self]
  · rw [stageable.makesStaged_iff fieldless] at makes ⊢
    intro field member writable i inWord inside
    obtain ⟨value, valid⟩ := makes field member writable i inWord inside
    rw [getLsbD_stagedWriteValue stageable.layout member writable inWord inside
      (stageable.declared field member writable)]
    exact stagedWriteBit_best value valid

/-- The test of `update` is whether the prediction makes the staged value. -/
theorem Stageable.reaches_iff (stageable : h.Stageable) (written : Word) :
    h.reaches (h.predictedWriteState written) = true ↔ h.MakesStaged written := by
  have whole : h.writableMask &&& h.stagedValidMask = h.writableMask := by
    have known := stageable.known
    rw [unknownStaged, and_eq_zero_iff] at known
    apply BitVec.eq_of_getLsbD_eq
    intro i inWord
    rw [BitVec.getLsbD_and]
    cases set : h.writableMask.getLsbD i with
    | false => rfl
    | true =>
      have clear := known i inWord set
      rw [BitVec.getLsbD_not, decide_eq_true inWord, Bool.true_and, Bool.not_eq_false'] at clear
      rw [clear, Bool.and_self]
  have differs : ∀ left right mask : Word, (left ^^^ right) &&& mask = 0 ↔
      left &&& mask = right &&& mask := by
    intro left right mask
    rw [BitVec.and_comm, and_eq_zero_iff, and_eq_and_iff]
    refine forall₃_congr fun i _ set => ?_
    rw [BitVec.getLsbD_xor]
    exact bne_eq_false_iff_eq
  rw [reaches, whole, Bool.and_eq_true_iff, decide_eq_true_iff, decide_eq_true_iff, differs]
  exact ⟨fun both => ⟨both.1, both.2⟩, fun makes => ⟨makes.value, makes.valid⟩⟩

/-- The warnings of an update that gets as far as its prediction. -/
theorem warnings_update (supported : h.requireSupportedAccess = .ok ()) (needs : h.needsUpdate = true)
    (known : h.unknownStaged = 0) (map : Option RegisterAddressMap)
    (respond : ℕ → WriteRequest bus → Option Unit) :
    (h.update map respond).warnings = [] ↔
      h.reaches (h.predictedWriteState h.stagedWriteValue) = true := by
  have warned : (h.update map respond).warnings =
      if h.reaches (h.predictedWriteState h.stagedWriteValue) then []
      else [h.unreachableWarning (h.predictedWriteState h.stagedWriteValue)] := by
    rw [update, supported]
    simp only [needs, Bool.not_true, Bool.false_eq_true, if_false, known, ne_eq, not_true_eq_false]
    cases h.enforceWriteAccess <;> rfl
  rw [warned]
  split
  next reached => exact ⟨fun _ => reached, fun _ => rfl⟩
  next missed => exact ⟨nofun, fun reached => absurd reached missed⟩

/-- Without a warning the hardware has the staged value after an update, whatever was unknown of it. -/
theorem hardware_of_update (stageable : h.Stageable) (supported : h.requireSupportedAccess = .ok ())
    (map : Option RegisterAddressMap) (respond : ℕ → WriteRequest bus → Option Unit)
    (silent : (h.update map respond).warnings = []) {hardware : Word} (knows : h.Knows hardware) :
    (if h.needsUpdate then h.descriptor.hardwareWrite hardware h.stagedWriteValue else hardware)
      &&& h.writableMask = h.staged &&& h.writableMask := by
  cases needs : h.needsUpdate with
  | true =>
    have reached := (warnings_update supported needs stageable.known map respond).mp silent
    exact hardware_of_makesStaged stageable ((stageable.reaches_iff _).mp reached) knows
  | false =>
    -- nothing is written: every writable bit is known, and staged as it is
    rw [needsUpdate, decide_eq_false_iff_not, not_not, and_eq_zero_iff] at needs
    rw [if_neg Bool.false_ne_true, and_eq_and_iff]
    intro i inWord set
    have known := (and_eq_zero_iff _ _).mp stageable.known i inWord set
    rw [BitVec.getLsbD_not, decide_eq_true inWord, Bool.true_and, Bool.not_eq_false'] at known
    have settled := needs i inWord (by rw [BitVec.getLsbD_and, known, set, Bool.and_self])
    rw [BitVec.getLsbD_or, BitVec.getLsbD_xor, BitVec.getLsbD_not, decide_eq_true inWord,
      Bool.true_and, Bool.or_eq_false_iff, Bool.not_eq_false'] at settled
    rw [(and_eq_and_iff _ _ _).mp knows i inWord settled.2]
    exact (bne_eq_false_iff_eq.mp settled.1).symm

/-- **The staged write is sound, and as good as possible**: without a warning the hardware has the
staged value after the update, and a warning says that no written value makes it for certain. -/
theorem staged_write_sound_and_best (h : RegisterHandle bus) (stageable : h.Stageable)
    (supported : h.requireSupportedAccess = .ok ()) (map : Option RegisterAddressMap)
    (respond : ℕ → WriteRequest bus → Option Unit) :
    ((h.update map respond).warnings = [] → ∀ hardware, h.Knows hardware →
      (if h.needsUpdate then h.descriptor.hardwareWrite hardware h.stagedWriteValue else hardware)
        &&& h.writableMask = h.staged &&& h.writableMask) ∧
    (∀ written, h.MakesStaged written → h.MakesStaged h.stagedWriteValue) ∧
    ((h.update map respond).warnings ≠ [] → ∀ written, ¬ h.MakesStaged written) := by
  refine ⟨fun silent hardware knows => hardware_of_update stageable supported map respond silent knows,
    fun written makes => makesStaged_best stageable makes, fun warned written makes => ?_⟩
  have best := (stageable.reaches_iff _).mpr (makesStaged_best stageable makes)
  cases needs : h.needsUpdate with
  | true => exact warned ((warnings_update supported needs stageable.known map respond).mpr best)
  | false =>
    refine warned ?_
    rw [update, supported]
    simp only [needs, Bool.not_false, if_true]

/-- A write-one-to-clear field of which the low half is unknown. -/
theorem staged_write_unknown_half : ∃ h : RegisterHandle ⟨32, 32, 4, by decide, by decide⟩,
    h.mirrored = 0xf0 ∧ h.mirroredValidMask = 0xf0 ∧ h.staged = 0x30 ∧ h.stagedWriteValue = 0xcf ∧
    ∀ hardware, h.Knows hardware →
      h.descriptor.hardwareWrite hardware 0xcf &&& h.writableMask = 0x30 := by
  let h : RegisterHandle ⟨32, 32, 4, by decide, by decide⟩ := {
    descriptor := {
      path := "status"
      fields := [{ path := "status.events", lsb := 0, width := 8, writeEffect := .writeOneClear }] }
    userEffects := none, hasBackdoor := false, effectiveAddress := 0, autoPredict := true
    staged := 0x30, mirrored := 0xf0, stagedValidMask := 0xff, mirroredValidMask := 0xf0
    writtenOnceMask := 0 }
  have stageable : h.Stageable :=
    ⟨layout_of_validateFieldLayout (by with_unfolding_all rfl), by decide, by decide +kernel,
      by decide +kernel⟩
  refine ⟨h, rfl, rfl, rfl, by decide +kernel, fun hardware knows => ?_⟩
  have staged := (staged_write_sound_and_best h stageable (by decide +kernel) none fun _ _ => some ()).1
    (by decide +kernel) hardware knows
  rw [if_pos (by decide +kernel), show h.stagedWriteValue = 0xcf by decide +kernel,
    show h.staged &&& h.writableMask = 0x30 by decide +kernel] at staged
  exact staged

end Results

end RegisterHandle

end Cpptb.RegisterModel
