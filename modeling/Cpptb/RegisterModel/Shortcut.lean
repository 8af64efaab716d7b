/-
The single-transfer shortcut of `update`.

An update of one transfer commits the state it has predicted for its warning
(`commitPredictedWriteState`), all other writes predict bit by bit (`predictWriteMasked`). The shortcut
leaves a field alone as soon as one of its bits has been written once, the general path leaves the
written bits alone. They agree exactly where that makes no difference (`shortcut_agrees_iff`): every
field that is partly written once keeps its unwritten bits, and nothing is staged outside the
register. In runs that never write a write-once field in parts they agree in every state
(`shortcut_agrees`).
-/

import Cpptb.Lib.Runs
import Cpptb.RegisterModel.Fields

namespace Cpptb.RegisterModel

open Cpptb.Vc (RegisterAccess registerReadable registerWritable)

namespace RegisterHandle

variable {bus : BusTypes}

section Agreement

/-- The written value leaves the bits of a field that have not been written once. -/
def KeepsUnwritten (h : RegisterHandle bus) (written : Word) (field : FieldDescriptor) : Prop :=
  ∀ i ∈ field.region, h.writtenOnceMask.getLsbD i = false →
    look (h.effectedWrite written (h.mirrored, h.mirroredValidMask) field) i
      = look (h.mirrored, h.mirroredValidMask) i

/-- What the shortcut needs: nothing is staged outside the register, and a writable field of which some
bit is written once keeps its other bits. -/
structure ShortcutSafe (h : RegisterHandle bus) (written : Word) : Prop where
  stagedInside : h.staged &&& ~~~h.widthMask = 0
  validInside : h.stagedValidMask &&& ~~~h.widthMask = 0
  partly : ∀ field ∈ h.descriptor.fields, registerWritable field.access →
    h.writtenOnceMask &&& registerFieldMask field ≠ 0 → h.KeepsUnwritten written field

variable {h : RegisterHandle bus}

theorem blend_and_mask (mask inside outside : Word) :
    blend mask inside outside &&& mask = inside &&& mask := by
  rw [and_eq_and_iff]
  intro i inWord set
  rw [getLsbD_blend _ _ _ inWord, set, if_pos rfl]

/-- A staged word after the general path and after the shortcut, where the predictions agree. -/
theorem staged_eq_iff {mask width next predicted staged : Word}
    (same : next &&& width = predicted &&& width) :
    blend (mask &&& width) (predicted &&& width) staged
        = blend (mask &&& (width &&& width)) next staged &&& width ↔
      staged &&& ~~~width = 0 := by
  rw [and_eq_and_iff] at same
  rw [and_eq_zero_iff]
  constructor
  · intro equal i inWord set
    have bit := congrArg (BitVec.getLsbD · i) equal
    simp only [getLsbD_blend _ _ _ inWord, BitVec.getLsbD_and] at bit
    rw [BitVec.getLsbD_not, decide_eq_true inWord]
    cases within : width.getLsbD i with
    | true => rfl
    | false => simp [within, set] at bit
  · intro inside
    apply BitVec.eq_of_getLsbD_eq
    intro i inWord
    simp only [getLsbD_blend _ _ _ inWord, BitVec.getLsbD_and, Bool.and_self]
    cases within : width.getLsbD i with
    | true => simp [same i inWord within]
    | false =>
      have clear : staged.getLsbD i = false := by
        by_contra set
        have beyond := inside i inWord (Bool.not_eq_false _ ▸ set)
        rw [BitVec.getLsbD_not, decide_eq_true inWord, within] at beyond
        exact absurd beyond (by decide)
      simp [clear]

/-- The two predictions agree on the register exactly where partly written fields are kept. -/
theorem look_predictions_eq_iff (layout : Layout h.descriptor) (narrow : h.descriptor.width ≤ 64)
    (written : Word) :
    (∀ i < h.descriptor.width,
      look (h.descriptor.fields.foldl (h.predictWriteField written (h.widthMask &&& h.widthMask))
        (h.mirrored, h.mirroredValidMask)) i
      = look (h.descriptor.fields.foldl (h.predictedField written)
        (h.mirrored, h.mirroredValidMask)) i) ↔
    ∀ field ∈ h.descriptor.fields, registerWritable field.access →
      h.writtenOnceMask &&& registerFieldMask field ≠ 0 → h.KeepsUnwritten written field := by
  have enabled : ∀ i < h.descriptor.width, (h.widthMask &&& h.widthMask).getLsbD i = true := by
    intro i inside
    rw [BitVec.getLsbD_and, getLsbD_widthMask (by omega), decide_eq_true inside, Bool.and_self]
  constructor
  · intro same field member writable partly i inside notWritten
    have inRegister : i < h.descriptor.width := by
      have := (layout.inside field member).2
      have := inside.2
      omega
    have bit := same i inRegister
    rw [look_predictWriteFields written _ _ layout member inside,
      look_predictedFields written _ layout member inside,
      if_pos ⟨writable, enabled i inRegister, notWritten⟩, if_neg (fun both => partly both.2)] at bit
    exact bit
  · intro kept i inRegister
    by_cases free : ∀ field ∈ h.descriptor.fields, i ∉ field.region
    · rw [look_predictWriteFields_outside _ _ _ free, look_predictedFields_outside _ _ free]
    push Not at free
    obtain ⟨field, member, inside⟩ := free
    rw [look_predictWriteFields written _ _ layout member inside,
      look_predictedFields written _ layout member inside]
    by_cases writable : registerWritable field.access
    · by_cases untouched : h.writtenOnceMask &&& registerFieldMask field = 0
      · have notWritten : h.writtenOnceMask.getLsbD i = false := by
          by_contra set
          have := (and_eq_zero_iff _ _).mp untouched i (by omega) (Bool.not_eq_false _ ▸ set)
          rw [getLsbD_registerFieldMask field (by omega)] at this
          exact of_decide_eq_false this inside
        rw [if_pos ⟨writable, enabled i inRegister, notWritten⟩, if_pos ⟨writable, untouched⟩]
      · rw [if_neg (fun both : _ ∧ h.writtenOnceMask &&& registerFieldMask field = 0 =>
          untouched both.2)]
        split
        next all => exact kept field member writable untouched i inside all.2.2
        next => rfl
    · rw [if_neg (fun all => writable all.1), if_neg (fun both => writable both.1)]

/-- Agreement of two predictions on the register, as words. -/
theorem look_eq_iff (next predicted : Word × Word) (narrow : h.descriptor.width ≤ 64) :
    (next.1 &&& h.widthMask = predicted.1 &&& h.widthMask ∧
      next.2 &&& h.widthMask = predicted.2 &&& h.widthMask) ↔
      ∀ i < h.descriptor.width, look next i = look predicted i := by
  rw [and_eq_and_iff, and_eq_and_iff]
  constructor
  · rintro ⟨value, valid⟩ i inside
    have set : h.widthMask.getLsbD i = true := by
      rw [getLsbD_widthMask (by omega), decide_eq_true inside]
    exact Prod.ext (value i (by omega) set) (valid i (by omega) set)
  · intro same
    have inside : ∀ i < 64, h.widthMask.getLsbD i = true → i < h.descriptor.width := by
      intro i inWord set
      rw [getLsbD_widthMask inWord] at set
      exact of_decide_eq_true set
    exact ⟨fun i inWord set => congrArg Prod.fst (same i (inside i inWord set)),
      fun i inWord set => congrArg Prod.snd (same i (inside i inWord set))⟩

/-- **The shortcut agrees with the general path** exactly where it is safe. -/
theorem shortcut_agrees_iff (layout : Layout h.descriptor) (narrow : h.descriptor.width ≤ 64)
    (written : Word) :
    h.commitPredictedWriteState (h.predictedWriteState written)
        = h.predictWriteMasked written h.widthMask ↔ h.ShortcutSafe written := by
  have stagedIff := fun next predicted : Word => @staged_eq_iff h.writableMask
    h.widthMask next predicted h.staged
  have validIff := fun next predicted : Word => @staged_eq_iff h.writableMask
    h.widthMask next predicted h.stagedValidMask
  by_cases fieldless : h.descriptor.fields.isEmpty
  · have none : h.descriptor.fields = [] := List.isEmpty_iff.mp fieldless
    have writable : h.writableMask = h.widthMask := if_pos fieldless
    have once : h.writtenOnceMask ||| (h.writeOnceMask &&& h.widthMask) = h.writtenOnceMask := by
      rw [writeOnceMask, none]
      show h.writtenOnceMask ||| (0#64 &&& h.widthMask) = h.writtenOnceMask
      rw [BitVec.zero_and, BitVec.or_zero]
    have known : (h.mirroredValidMask ||| h.widthMask) &&& h.widthMask = h.widthMask := by
      apply BitVec.eq_of_getLsbD_eq
      intro i inWord
      rw [BitVec.getLsbD_and, BitVec.getLsbD_or]
      cases h.widthMask.getLsbD i <;> simp
    have stagedIff := stagedIff written written rfl
    have validIff := validIff h.widthMask h.widthMask rfl
    rw [writable, BitVec.and_self, BitVec.and_self, blend_and_mask] at stagedIff validIff
    simp only [BitVec.and_self] at validIff
    simp only [commitPredictedWriteState, predictWriteMasked, predictedWriteState, if_pos fieldless,
      writable, mk.injEq, true_and, BitVec.and_assoc, BitVec.and_self, once, blend_and_mask, known,
      and_true]
    constructor
    · rintro ⟨staged, stagedValid⟩
      exact ⟨stagedIff.mp staged, validIff.mp stagedValid,
        fun field member => absurd (none ▸ member) List.not_mem_nil⟩
    · rintro ⟨stagedInside, validInside, -⟩
      exact ⟨stagedIff.mpr stagedInside, validIff.mpr validInside⟩
  · have predictions := look_predictions_eq_iff layout narrow written
    rw [← look_eq_iff _ _ narrow] at predictions
    simp only [commitPredictedWriteState, predictWriteMasked, predictedWriteState,
      if_neg fieldless, mk.injEq, true_and, BitVec.and_assoc, BitVec.and_self, and_true]
    simp only [BitVec.and_self] at stagedIff validIff predictions
    constructor
    · rintro ⟨staged, mirrored, stagedValid, mirroredValid⟩
      exact ⟨(stagedIff _ _ mirrored.symm).mp staged, (validIff _ _ mirroredValid.symm).mp stagedValid,
        predictions.mp ⟨mirrored.symm, mirroredValid.symm⟩⟩
    · rintro ⟨stagedInside, validInside, partly⟩
      obtain ⟨mirrored, mirroredValid⟩ := predictions.mpr partly
      exact ⟨(stagedIff _ _ mirrored).mpr stagedInside, mirrored.symm,
        (validIff _ _ mirroredValid).mpr validInside, mirroredValid.symm⟩

end Agreement

section Steps

/-- What changes a handle between two suspensions: the operations that do not suspend, and what an
access does to the handle when a transfer succeeds. -/
inductive Step (bus : BusTypes) where
  | setAutoPredict (enabled : Bool)
  | stage (value : Word)
  | stageField (field : FieldDescriptor) (value : Word)
  | predict (value : Word) (prediction : Prediction)
  | predictWrite (value : Word) (byteEnable : BitVec bus.byteEnableBits)
  | predictTransferRead (address : UInt64) (value : BitVec bus.dataBits)
  | predictTransferWrite (address : UInt64) (value : BitVec bus.dataBits)
      (byteEnable : BitVec bus.byteEnableBits)
  | reset
  | backdoorAccess (value : Word)
  | completeWrite (value : Word) (transfer : ℕ)
  | completeUpdate (predicted : PredictedWriteState)
  | completeRead (read : ReadData)

/-- A step that throws, or a transfer of an access that is refused, changes nothing. -/
def step (h : RegisterHandle bus) : Step bus → Option (RegisterHandle bus)
  | .setAutoPredict enabled => some { h with autoPredict := enabled }
  | .stage value => (h.stage value).toOption
  | .stageField field value => (h.stageField field value).toOption
  | .predict value prediction => (h.predict value prediction).toOption
  | .predictWrite value byteEnable => (h.predictWrite value byteEnable).toOption
  | .predictTransferRead address value => (h.predictTransferRead address value).toOption
  | .predictTransferWrite address value byteEnable =>
    (h.predictTransferWrite address value byteEnable).toOption
  | .reset => some h.reset
  | .backdoorAccess value => (h.backdoorAccess value).toOption
  | .completeWrite value transfer => h.requireSupportedAccess.toOption.map fun _ =>
    h.predictWriteMasked value (h.chunkMask <<< h.descriptor.transferBitOffset transfer)
  | .completeUpdate predicted => h.requireSupportedAccess.toOption.map fun _ =>
    h.commitPredictedWriteState predicted
  | .completeRead read => h.requireSupportedAccess.toOption.map fun _ =>
    h.predictReadMasked read.data read.validMask

/-- A handle that the constructor returns. -/
def Made (h : RegisterHandle bus) : Prop :=
  ∃ descriptor baseAddress userEffects hasBackdoor,
    make bus descriptor baseAddress userEffects hasBackdoor = .ok h

/-- A prediction of the enabled bits writes each write-once field as a whole: none of its bits, or all
that have not been written. -/
def WritesWhole (h : RegisterHandle bus) (enabled : Word) : Prop :=
  ∀ field ∈ h.descriptor.fields, registerWritable field.access → field.writeOnce →
    registerFieldMask field &&& (enabled &&& h.widthMask) = 0 ∨
      registerFieldMask field &&& ~~~(h.writtenOnceMask ||| (enabled &&& h.widthMask)) = 0

/-- The steps that keep the shortcut safe: write predictions that write whole fields, and staged fields
that lie in the register. -/
def Whole (h : RegisterHandle bus) : Step bus → Prop
  | .stageField field _ => field.lsb + field.width ≤ h.descriptor.width
  | .predictWrite _ byteEnable =>
    h.WritesWhole (enabledBytesMask (h.descriptor.width / 8) byteEnable)
  | .predictTransferWrite address _ byteEnable => ∀ transfer,
    h.requireTransferAddress address = .ok transfer →
      h.WritesWhole (enabledBytesMask h.descriptor.transferBytes byteEnable
        <<< h.descriptor.transferBitOffset transfer)
  | .completeWrite _ transfer =>
    h.WritesWhole (h.chunkMask <<< h.descriptor.transferBitOffset transfer)
  | _ => True

end Steps

section Soundness

/-- What every run of whole steps keeps. -/
structure WholeOnce (h : RegisterHandle bus) : Prop where
  layout : Layout h.descriptor
  stagedInside : h.staged &&& ~~~h.widthMask = 0
  validInside : h.stagedValidMask &&& ~~~h.widthMask = 0
  once : ∀ field ∈ h.descriptor.fields, registerWritable field.access →
    h.writtenOnceMask &&& registerFieldMask field = 0 ∨
      registerFieldMask field &&& ~~~h.writtenOnceMask = 0

variable {h : RegisterHandle bus}

theorem WholeOnce.shortcutSafe (whole : h.WholeOnce) (written : Word) : h.ShortcutSafe written where
  stagedInside := whole.stagedInside
  validInside := whole.validInside
  partly := by
    intro field member writable partly i inside notWritten
    rcases lt_or_ge i 64 with inWord | beyond
    · have all := (whole.once field member writable).resolve_left partly
      have covered := (and_eq_zero_iff _ _).mp all i inWord
        (by rw [getLsbD_registerFieldMask field inWord, decide_eq_true inside])
      rw [BitVec.getLsbD_not, notWritten, decide_eq_true inWord] at covered
      exact absurd covered (by decide)
    · rw [look_of_ge _ beyond, look_of_ge _ beyond]

/-- Inside a field the write-once bits are all of the field's, or none. -/
theorem getLsbD_writeOnceMask (layout : Layout h.descriptor) {field : FieldDescriptor}
    (member : field ∈ h.descriptor.fields) (writable : registerWritable field.access) {i : ℕ}
    (inWord : i < 64) (inside : i ∈ field.region) :
    h.writeOnceMask.getLsbD i = field.writeOnce := by
  rw [Bool.eq_iff_iff, writeOnceMask, getLsbD_fieldsMask _ _ inWord]
  constructor
  · rintro ⟨other, otherMember, selected, otherInside⟩
    have same : other = field := by
      by_contra distinct
      have : Std.Symm fun field field' : FieldDescriptor => Disjoint field.region field'.region :=
        ⟨fun _ _ apart => Disjoint.symm apart⟩
      have apart := layout.disjoint.forall otherMember member distinct
      exact Set.disjoint_left.mp apart otherInside inside
    rw [same] at selected
    exact (Bool.and_eq_true_iff.mp selected).2
  · intro once
    exact ⟨field, member, by rw [writable, once]; rfl, inside⟩

/-- None or all of a mask, carried over to a word that agrees with another on the mask. -/
theorem noneOrAll_congr {old new mask : Word}
    (same : ∀ i < 64, mask.getLsbD i = true → new.getLsbD i = old.getLsbD i)
    (noneOrAll : old &&& mask = 0 ∨ mask &&& ~~~old = 0) :
    new &&& mask = 0 ∨ mask &&& ~~~new = 0 := by
  rw [BitVec.and_comm, and_eq_zero_iff, and_eq_zero_iff] at noneOrAll ⊢
  refine noneOrAll.imp (fun clear i inWord set => ?_) (fun covered i inWord set => ?_)
  · rw [same i inWord set]
    exact clear i inWord set
  · have bit := covered i inWord set
    rw [BitVec.getLsbD_not] at bit ⊢
    rw [same i inWord set]
    exact bit

/-- A prediction that writes whole fields leaves no field partly written. -/
theorem once_of_writesWhole (whole : h.WholeOnce) {enabled : Word}
    (writes : h.WritesWhole enabled) : ∀ field ∈ h.descriptor.fields, registerWritable field.access →
    (h.writtenOnceMask ||| (h.writeOnceMask &&& (enabled &&& h.widthMask)))
        &&& registerFieldMask field = 0 ∨
      registerFieldMask field
        &&& ~~~(h.writtenOnceMask ||| (h.writeOnceMask &&& (enabled &&& h.widthMask))) = 0 := by
  intro field member writable
  have before := whole.once field member writable
  have onceBit : ∀ i < 64, (registerFieldMask field).getLsbD i = true →
      h.writeOnceMask.getLsbD i = field.writeOnce := by
    intro i inWord set
    rw [getLsbD_registerFieldMask field inWord] at set
    exact getLsbD_writeOnceMask whole.layout member writable inWord (of_decide_eq_true set)
  cases once : field.writeOnce with
  | false =>
    refine noneOrAll_congr (fun i inWord set => ?_) before
    rw [BitVec.getLsbD_or, BitVec.getLsbD_and, onceBit i inWord set, once, Bool.false_and,
      Bool.or_false]
  | true =>
    rcases writes field member writable once with none | all
    · refine noneOrAll_congr (fun i inWord set => ?_) before
      rw [BitVec.getLsbD_or, BitVec.getLsbD_and, (and_eq_zero_iff _ _).mp none i inWord set,
        Bool.and_false, Bool.or_false]
    · right
      rw [and_eq_zero_iff] at all ⊢
      intro i inWord set
      have covered := all i inWord set
      rw [BitVec.getLsbD_not, BitVec.getLsbD_or] at covered ⊢
      rw [BitVec.getLsbD_and, onceBit i inWord set, once, Bool.true_and]
      exact covered

/-- Nothing outside the register is staged by a word that is cut to its width. -/
theorem and_not_widthMask (value : Word) : (value &&& h.widthMask) &&& ~~~h.widthMask = 0 := by
  rw [and_eq_zero_iff]
  intro i inWord set
  rw [BitVec.getLsbD_and, Bool.and_eq_true_iff] at set
  rw [BitVec.getLsbD_not, set.2, Bool.not_true, Bool.and_false]

theorem or_and_not_widthMask {left right : Word} (leftInside : left &&& ~~~h.widthMask = 0)
    (rightInside : right &&& ~~~h.widthMask = 0) : (left ||| right) &&& ~~~h.widthMask = 0 := by
  rw [and_eq_zero_iff] at *
  intro i inWord set
  rw [BitVec.getLsbD_or, Bool.or_eq_true_iff] at set
  exact set.elim (leftInside i inWord) (rightInside i inWord)

theorem blend_and_not_widthMask {mask inside outside : Word}
    (maskInside : mask &&& ~~~h.widthMask = 0) (outsideInside : outside &&& ~~~h.widthMask = 0) :
    blend mask inside outside &&& ~~~h.widthMask = 0 := by
  rw [and_eq_zero_iff] at *
  intro i inWord set
  rw [getLsbD_blend _ _ _ inWord] at set
  split at set
  next inMask => exact maskInside i inWord inMask
  next => exact outsideInside i inWord set

/-- A field of the register has no bit outside. -/
theorem registerFieldMask_inside {field : FieldDescriptor}
    (inside : field.lsb + field.width ≤ h.descriptor.width) :
    registerFieldMask field &&& ~~~h.widthMask = 0 := by
  rw [and_eq_zero_iff]
  intro i inWord set
  rw [getLsbD_registerFieldMask field inWord] at set
  have below := (of_decide_eq_true set : i ∈ field.region).2
  rw [BitVec.getLsbD_not, getLsbD_widthMask inWord,
    decide_eq_true (show i < h.descriptor.width by omega), Bool.not_true, Bool.and_false]

theorem insertField_inside {field : FieldDescriptor} {value fieldValue : Word}
    (inside : field.lsb + field.width ≤ h.descriptor.width)
    (valueInside : value &&& ~~~h.widthMask = 0) :
    insertField value fieldValue field &&& ~~~h.widthMask = 0 :=
  blend_and_not_widthMask (registerFieldMask_inside inside) valueInside

theorem writableMask_inside (layout : Layout h.descriptor) :
    h.writableMask &&& ~~~h.widthMask = 0 := by
  unfold writableMask
  split
  · exact BitVec.and_not_self _
  · rw [and_eq_zero_iff]
    intro i inWord set
    obtain ⟨field, member, -, inside⟩ := (getLsbD_fieldsMask _ _ inWord).mp set
    exact (and_eq_zero_iff _ _).mp (registerFieldMask_inside (layout.inside field member).2) i inWord
      (by rw [getLsbD_registerFieldMask field inWord, decide_eq_true inside])

end Soundness

section Preservation

variable {h h' : RegisterHandle bus}

theorem WholeOnce.reset (layout : Layout h.descriptor) : h.reset.WholeOnce where
  layout := layout
  stagedInside := and_not_widthMask (h := h) _
  validInside := and_not_widthMask (h := h) _
  once _ _ _ := .inl BitVec.zero_and

theorem WholeOnce.predictWriteMasked (whole : h.WholeOnce) (value : Word) {enabled : Word}
    (writes : h.WritesWhole enabled) : (h.predictWriteMasked value enabled).WholeOnce := by
  unfold RegisterHandle.predictWriteMasked
  split
  · exact ⟨whole.layout, and_not_widthMask (h := h) _, and_not_widthMask (h := h) _, whole.once⟩
  · exact ⟨whole.layout, and_not_widthMask (h := h) _, and_not_widthMask (h := h) _,
      once_of_writesWhole whole writes⟩

theorem WholeOnce.predictReadMasked (whole : h.WholeOnce) (value enabled : Word) :
    (h.predictReadMasked value enabled).WholeOnce := by
  by_cases zero : enabled &&& h.widthMask = 0
  · simp only [RegisterHandle.predictReadMasked, if_pos zero]
    exact whole
  by_cases fieldless : h.descriptor.fields.isEmpty
  · have inside := and_not_widthMask (h := h) enabled
    simp only [RegisterHandle.predictReadMasked, if_neg zero, if_pos fieldless]
    exact ⟨whole.layout, blend_and_not_widthMask inside whole.stagedInside,
      or_and_not_widthMask whole.validInside inside, whole.once⟩
  · simp only [RegisterHandle.predictReadMasked, if_neg zero, if_neg fieldless]
    exact ⟨whole.layout, and_not_widthMask (h := h) _, and_not_widthMask (h := h) _, whole.once⟩

/-- Every bit of the register is written. -/
theorem writesWhole_widthMask (layout : Layout h.descriptor) : h.WritesWhole h.widthMask := by
  intro field member _ _
  right
  rw [BitVec.and_self, and_eq_zero_iff]
  intro i inWord set
  have inside := (and_eq_zero_iff _ _).mp (registerFieldMask_inside (layout.inside field member).2) i
    inWord set
  rw [BitVec.getLsbD_not, decide_eq_true inWord, Bool.true_and, Bool.not_eq_false'] at inside ⊢
  rw [BitVec.getLsbD_or, inside, Bool.or_true]

theorem WholeOnce.commitPredictedWriteState (whole : h.WholeOnce)
    (predicted : PredictedWriteState) : (h.commitPredictedWriteState predicted).WholeOnce := by
  have inside := and_not_widthMask (h := h) h.writableMask
  have once := once_of_writesWhole whole (writesWhole_widthMask whole.layout)
  rw [BitVec.and_self] at once
  exact ⟨whole.layout, blend_and_not_widthMask inside whole.stagedInside,
    blend_and_not_widthMask inside whole.validInside, once⟩

theorem ok_of_toOption {α : Type} {result : Except Error α} {value : α}
    (returned : result.toOption = some value) : result = .ok value := by
  cases result with
  | error error => cases returned
  | ok _ => exact congrArg Except.ok (Option.some.inj returned)

theorem WholeOnce.predict (whole : h.WholeOnce) {value : Word} {prediction : Prediction}
    (predicted : h.predict value prediction = .ok h') : h'.WholeOnce := by
  obtain ⟨-, -, returned⟩ := after_bind predicted
  split at returned
  · obtain rfl := Except.ok.inj returned
    exact ⟨whole.layout, and_not_widthMask (h := h) _, BitVec.and_not_self _, whole.once⟩
  split at returned
  · obtain rfl := Except.ok.inj returned
    exact whole.predictWriteMasked _ (writesWhole_widthMask whole.layout)
  · obtain rfl := Except.ok.inj returned
    exact whole.predictReadMasked _ _

theorem WholeOnce.stage (whole : h.WholeOnce) {value : Word} (staged : h.stage value = .ok h') :
    h'.WholeOnce := by
  obtain ⟨-, -, returned⟩ := after_bind staged
  split at returned
  · obtain rfl := Except.ok.inj returned
    exact ⟨whole.layout, and_not_widthMask (h := h) _, BitVec.and_not_self _, whole.once⟩
  · obtain rfl := Except.ok.inj returned
    refine ⟨whole.layout, ?_, or_and_not_widthMask whole.validInside (writableMask_inside whole.layout),
      whole.once⟩
    -- the loop inserts fields of the register
    have loop : ∀ fields ⊆ h.descriptor.fields, ∀ next : Word, next &&& ~~~h.widthMask = 0 →
        fields.foldl (fun next field => if registerWritable field.access then
          insertField next (value >>> field.lsb) field else next) next &&& ~~~h.widthMask = 0 := by
      intro fields
      induction fields with
      | nil => exact fun _ _ inside => inside
      | cons field rest ih =>
        intro sub next inside
        have inRegister := (whole.layout.inside field (sub List.mem_cons_self)).2
        refine ih (fun _ member => sub (List.mem_cons_of_mem field member)) _ ?_
        show (if registerWritable field.access then insertField next (value >>> field.lsb) field
          else next) &&& ~~~h.widthMask = 0
        split
        · exact insertField_inside inRegister inside
        · exact inside
    exact loop _ (List.Subset.refl _) _ whole.stagedInside

theorem WholeOnce.stageField (whole : h.WholeOnce) {field : FieldDescriptor} {value : Word}
    (inRegister : field.lsb + field.width ≤ h.descriptor.width)
    (staged : h.stageField field value = .ok h') : h'.WholeOnce := by
  obtain ⟨-, staged⟩ := after_throwIf staged
  obtain ⟨-, -, returned⟩ := after_bind staged
  obtain rfl := Except.ok.inj returned
  exact ⟨whole.layout, insertField_inside inRegister whole.stagedInside,
    or_and_not_widthMask whole.validInside (registerFieldMask_inside inRegister), whole.once⟩

/-- A whole step keeps the invariant. -/
theorem WholeOnce.step (whole : h.WholeOnce) {step : Step bus} (isWhole : h.Whole step)
    (stepped : h.step step = some h') : h'.WholeOnce := by
  cases step with
  | setAutoPredict enabled =>
    obtain rfl := Option.some.inj stepped
    exact ⟨whole.layout, whole.stagedInside, whole.validInside, whole.once⟩
  | stage value => exact whole.stage (ok_of_toOption stepped)
  | stageField field value => exact whole.stageField isWhole (ok_of_toOption stepped)
  | predict value prediction => exact whole.predict (ok_of_toOption stepped)
  | predictWrite value byteEnable =>
    obtain ⟨-, -, returned⟩ := after_bind (ok_of_toOption stepped)
    obtain rfl := Except.ok.inj returned
    exact whole.predictWriteMasked _ isWhole
  | predictTransferRead address value =>
    obtain ⟨transfer, -, returned⟩ := after_bind (ok_of_toOption stepped)
    obtain rfl := Except.ok.inj returned
    exact whole.predictReadMasked _ _
  | predictTransferWrite address value byteEnable =>
    obtain ⟨transfer, found, returned⟩ := after_bind (ok_of_toOption stepped)
    obtain rfl := Except.ok.inj returned
    exact whole.predictWriteMasked _ (isWhole transfer found)
  | reset =>
    obtain rfl := Option.some.inj stepped
    exact WholeOnce.reset whole.layout
  | backdoorAccess value =>
    obtain ⟨-, -, returned⟩ := after_bind (ok_of_toOption stepped)
    exact whole.predict returned
  | completeWrite value transfer =>
    obtain ⟨_, -, rfl⟩ := Option.map_eq_some_iff.mp stepped
    exact whole.predictWriteMasked _ isWhole
  | completeUpdate predicted =>
    obtain ⟨_, -, rfl⟩ := Option.map_eq_some_iff.mp stepped
    exact whole.commitPredictedWriteState predicted
  | completeRead read =>
    obtain ⟨_, -, rfl⟩ := Option.map_eq_some_iff.mp stepped
    exact whole.predictReadMasked _ _

end Preservation

section Runs

variable {h : RegisterHandle bus}

/-- The constructor checks the layout and resets. -/
theorem Made.wholeOnce (made : Made h) : h.WholeOnce := by
  obtain ⟨descriptor, baseAddress, userEffects, hasBackdoor, made⟩ := made
  obtain ⟨-, made⟩ := after_throwIf made
  obtain ⟨_, valid, made⟩ := after_bind made
  obtain ⟨-, made⟩ := after_throwIf made
  obtain ⟨-, made⟩ := after_throwIf made
  obtain rfl := Except.ok.inj made
  exact WholeOnce.reset (layout_of_validateFieldLayout valid)

/-- The states of the runs that meet a condition. -/
abbrev Reached (allowed : RegisterHandle bus → Step bus → Prop) : RegisterHandle bus → Prop :=
  Runs.Reach step allowed Made

theorem wholeOnce_of_reached (reached : Reached Whole h) : h.WholeOnce :=
  reached.invariant (fun _ => Made.wholeOnce) fun _ _ _ whole isWhole stepped =>
    whole.step isWhole stepped

/-- The parts of a handle that are fixed. -/
structure SameRegister (h h' : RegisterHandle bus) : Prop where
  descriptor : h'.descriptor = h.descriptor
  effectiveAddress : h'.effectiveAddress = h.effectiveAddress

theorem predictReadMasked_same (h : RegisterHandle bus) (value enabled : Word) :
    SameRegister h (h.predictReadMasked value enabled) := by
  simp only [predictReadMasked]
  split_ifs <;> exact ⟨rfl, rfl⟩

theorem predictWriteMasked_same (h : RegisterHandle bus) (value enabled : Word) :
    SameRegister h (h.predictWriteMasked value enabled) := by
  simp only [predictWriteMasked]
  split_ifs <;> exact ⟨rfl, rfl⟩

theorem predict_same {h' : RegisterHandle bus} {value : Word} {prediction : Prediction}
    (predicted : h.predict value prediction = .ok h') : SameRegister h h' := by
  obtain ⟨-, -, returned⟩ := after_bind predicted
  split at returned
  · obtain rfl := Except.ok.inj returned
    exact ⟨rfl, rfl⟩
  split at returned
  · obtain rfl := Except.ok.inj returned
    exact predictWriteMasked_same _ _ _
  · obtain rfl := Except.ok.inj returned
    exact predictReadMasked_same _ _ _

/-- No step changes the register of a handle. -/
theorem sameRegister_of_step {h' : RegisterHandle bus} {step : Step bus}
    (stepped : h.step step = some h') : SameRegister h h' := by
  cases step with
  | setAutoPredict enabled =>
    obtain rfl := Option.some.inj stepped
    exact ⟨rfl, rfl⟩
  | stage value =>
    obtain ⟨-, -, returned⟩ := after_bind (ok_of_toOption stepped)
    split at returned <;> (obtain rfl := Except.ok.inj returned; exact ⟨rfl, rfl⟩)
  | stageField field value =>
    obtain ⟨-, staged⟩ := after_throwIf (ok_of_toOption stepped)
    obtain ⟨-, -, returned⟩ := after_bind staged
    obtain rfl := Except.ok.inj returned
    exact ⟨rfl, rfl⟩
  | predict value prediction => exact predict_same (ok_of_toOption stepped)
  | predictWrite value byteEnable =>
    obtain ⟨-, -, returned⟩ := after_bind (ok_of_toOption stepped)
    obtain rfl := Except.ok.inj returned
    exact predictWriteMasked_same _ _ _
  | predictTransferRead address value =>
    obtain ⟨_, -, returned⟩ := after_bind (ok_of_toOption stepped)
    obtain rfl := Except.ok.inj returned
    exact predictReadMasked_same _ _ _
  | predictTransferWrite address value byteEnable =>
    obtain ⟨_, -, returned⟩ := after_bind (ok_of_toOption stepped)
    obtain rfl := Except.ok.inj returned
    exact predictWriteMasked_same _ _ _
  | reset =>
    obtain rfl := Option.some.inj stepped
    exact ⟨rfl, rfl⟩
  | backdoorAccess value =>
    obtain ⟨-, -, returned⟩ := after_bind (ok_of_toOption stepped)
    exact predict_same returned
  | completeWrite value transfer =>
    obtain ⟨_, -, rfl⟩ := Option.map_eq_some_iff.mp stepped
    exact predictWriteMasked_same _ _ _
  | completeUpdate predicted =>
    obtain ⟨_, -, rfl⟩ := Option.map_eq_some_iff.mp stepped
    exact ⟨rfl, rfl⟩
  | completeRead read =>
    obtain ⟨_, -, rfl⟩ := Option.map_eq_some_iff.mp stepped
    exact predictReadMasked_same _ _ _

theorem layout_of_reached {allowed : RegisterHandle bus → Step bus → Prop}
    (reached : Reached allowed h) : Layout h.descriptor :=
  reached.invariant (fun _ made => made.wholeOnce.layout) fun _ _ _ layout _ stepped =>
    (sameRegister_of_step stepped).descriptor ▸ layout

theorem narrow_of_supported (supported : h.requireSupportedAccess = .ok ()) :
    h.descriptor.width ≤ 64 := by
  obtain ⟨proper, -⟩ := after_throwIf supported
  omega

/-- The support of an access depends on the register alone. -/
theorem SameRegister.supported {h' : RegisterHandle bus} (same : SameRegister h h') :
    h'.requireSupportedAccess = h.requireSupportedAccess := by
  unfold requireSupportedAccess
  rw [same.descriptor, same.effectiveAddress]

section Accesses

variable (reached : Reached (fun _ _ => True) h)
  (map : Option RegisterAddressMap)

include reached

/-- The transfers of a write are steps of the run. -/
theorem reached_writeTransfers (value : Word)
    (respond : ℕ → WriteRequest bus → Option Unit)
    (predicted : ℕ → RegisterHandle bus → RegisterHandle bus)
    (isStep : ∀ transfer state, SameRegister h state →
      ∃ step : Step bus, state.step step = some (predicted transfer state)) :
    Reached (fun _ _ => True) (h.writeTransfers map value respond predicted).state := by
  have kept := transferLoop_state (P := fun state => Reached (fun _ _ => True) state ∧ SameRegister h state)
    (h.transferAddress map) (h.writeRequest value) respond
    (fun transfer _ state => if state.autoPredict then predicted transfer state else state)
    (by
      rintro transfer _ state ⟨before, same⟩
      show Reached _ (if state.autoPredict then predicted transfer state else state) ∧ _
      split
      · obtain ⟨step, stepped⟩ := isStep transfer state same
        have after := sameRegister_of_step stepped
        exact ⟨before.next step trivial stepped, after.descriptor.trans same.descriptor,
          after.effectiveAddress.trans same.effectiveAddress⟩
      · exact ⟨before, same⟩)
    h.descriptor.transferCount 0 h ⟨reached, rfl, rfl⟩
  exact kept.1

theorem reached_write (value : Word) (respond : ℕ → WriteRequest bus → Option Unit) :
    Reached (fun _ _ => True) (h.write value map respond).handle := by
  unfold write
  split
  · exact reached
  · exact reached
  next supported =>
    refine reached_writeTransfers reached map _ respond _ fun transfer state same =>
      ⟨.completeWrite (value &&& h.widthMask) transfer, ?_⟩
    rw [step, same.supported, supported, chunkMask, same.descriptor]
    rfl

theorem reached_update (respond : ℕ → WriteRequest bus → Option Unit) :
    Reached (fun _ _ => True) (h.update map respond).handle := by
  unfold update
  split
  · exact reached
  next supported =>
    split_ifs
    · exact reached
    · exact reached
    dsimp only
    split
    · exact reached
    refine reached_writeTransfers reached map _ respond _ fun transfer state same => ?_
    by_cases single : h.descriptor.transferCount = 1
    · refine ⟨.completeUpdate (h.predictedWriteState h.stagedWriteValue), ?_⟩
      rw [step, same.supported, supported, predictUpdate, same.descriptor, if_pos single]
      rfl
    · refine ⟨.completeWrite h.stagedWriteValue transfer, ?_⟩
      rw [step, same.supported, supported, predictUpdate, same.descriptor, if_neg single]
      rfl

theorem reached_read (respond : ℕ → ReadRequest bus → Option (BitVec bus.dataBits)) :
    Reached (fun _ _ => True) (h.read map respond).1.handle := by
  by_cases unreadable : (!h.descriptor.hasReadableField) = true
  · rw [read, if_pos unreadable]
    exact reached
  cases supported : h.requireSupportedAccess with
  | error error =>
    rw [read, if_neg unreadable, supported]
    exact reached
  | ok done =>
    have predicted : Reached (fun _ _ => True)
        (if h.autoPredict then h.predictReadMasked (h.readTransfers map respond).state.data
          (h.readTransfers map respond).state.validMask else h) := by
      split
      · exact reached.next (.completeRead (h.readTransfers map respond).state) trivial
          (by rw [step, supported]; rfl)
      · exact reached
    rw [read, if_neg unreadable, supported]
    dsimp only
    cases (h.readTransfers map respond).ending with
    | okay => exact predicted
    | failed address => exact predicted
    | threw error => exact reached

end Accesses

end Runs

end RegisterHandle

end Cpptb.RegisterModel
