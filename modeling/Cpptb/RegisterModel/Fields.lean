/-
The predictions of a handle, bit by bit.

The fields of a valid layout are disjoint and lie in the register (`Layout`,
`layout_of_validateFieldLayout`), so the loops of the handle over its fields are runs of local
updates: at a bit of a writable field they leave what that field's effect makes of the state before,
and all other bits stay (`getLsbD_predictWriteFields`, `getLsbD_predictedFields`).
-/

import Cpptb.Lib.Regions
import Cpptb.RegisterModel.Handle

namespace Cpptb.RegisterModel

open Cpptb.Vc (registerReadable registerWritable)
open Cpptb.Regions (Local foldl_inside foldl_outside)

section Layouts

/-- The fields lie in the register and are disjoint. -/
structure Layout (descriptor : RegisterDescriptor) : Prop where
  inside : ∀ field ∈ descriptor.fields, 0 < field.width ∧ field.lsb + field.width ≤ descriptor.width
  disjoint : descriptor.fields.Pairwise fun field field' => Disjoint field.region field'.region

theorem disjoint_region_iff {field field' : FieldDescriptor} (proper : 0 < field.width)
    (proper' : 0 < field'.width) : Disjoint field.region field'.region ↔
      ¬ (field'.lsb < field.lsb + field.width ∧ field.lsb < field'.lsb + field'.width) := by
  rw [Set.disjoint_left]
  constructor
  · rintro apart ⟨left, right⟩
    have inBoth : max field.lsb field'.lsb ∈ field.region := ⟨le_max_left _ _, by omega⟩
    exact apart inBoth ⟨le_max_right _ _, by omega⟩
  · rintro apart i ⟨above, below⟩ ⟨above', below'⟩
    exact apart ⟨by omega, by omega⟩

/-- What `validate_field_layout` has checked of the fields from `field` on. -/
theorem layout_of_validateFields {descriptor : RegisterDescriptor}
    (before fields : List FieldDescriptor)
    (proper : ∀ field ∈ before, 0 < field.width)
    (valid : descriptor.validateFields before fields = .ok ()) :
    (∀ field ∈ fields, 0 < field.width ∧ field.lsb + field.width ≤ descriptor.width) ∧
      (∀ field ∈ before, ∀ field' ∈ fields, Disjoint field.region field'.region) ∧
      fields.Pairwise fun field field' => Disjoint field.region field'.region := by
  induction fields generalizing before with
  | nil => simp
  | cons field rest ih =>
    rw [RegisterDescriptor.validateFields] at valid
    cases checked : descriptor.validateField before field with
    | error error => rw [checked] at valid; cases valid
    | ok _ =>
      rw [checked] at valid
      obtain ⟨outside, checked⟩ := after_throwIf checked
      cases found : before.find? fun previous => decide (field.lsb < previous.lsb + previous.width ∧
          previous.lsb < field.lsb + field.width) with
      | some previous => simp only [found] at checked; cases checked
      | none =>
        have positive : 0 < field.width := by omega
        have free : ∀ previous ∈ before, Disjoint previous.region field.region := by
          intro previous member
          rw [disjoint_region_iff (proper previous member) positive]
          simpa using List.find?_eq_none.mp found previous member
        obtain ⟨inside, apart, pairwise⟩ := ih (before ++ [field])
          (by
            intro previous member
            rcases List.mem_append.mp member with earlier | last
            · exact proper previous earlier
            · exact List.mem_singleton.mp last ▸ positive) valid
        refine ⟨?_, ?_, ?_⟩
        · intro field' member
          rcases List.mem_cons.mp member with rfl | later
          · exact ⟨positive, by omega⟩
          · exact inside field' later
        · intro previous earlier field' member
          rcases List.mem_cons.mp member with rfl | later
          · exact free previous earlier
          · exact apart previous (List.mem_append_left _ earlier) field' later
        · exact List.pairwise_cons.mpr
            ⟨fun field' later => apart field (List.mem_append_right _ (List.mem_singleton_self _))
              field' later, pairwise⟩

theorem layout_of_validateFieldLayout {descriptor : RegisterDescriptor}
    (valid : descriptor.validateFieldLayout = .ok ()) : Layout descriptor := by
  obtain ⟨inside, -, disjoint⟩ := layout_of_validateFields [] descriptor.fields
    (fun _ member => absurd member List.not_mem_nil) valid
  exact ⟨inside, disjoint⟩

end Layouts

section Looks

/-- A value and its valid bits at one position. -/
def look (state : Word × Word) (i : ℕ) : Bool × Bool := (state.1.getLsbD i, state.2.getLsbD i)

theorem getLsbD_blend (mask inside outside : Word) {i : ℕ} (inWord : i < 64) :
    (RegisterHandle.blend mask inside outside).getLsbD i =
      if mask.getLsbD i then inside.getLsbD i else outside.getLsbD i := by
  rw [RegisterHandle.blend, BitVec.getLsbD_or, BitVec.getLsbD_and, BitVec.getLsbD_and,
    BitVec.getLsbD_not, decide_eq_true inWord]
  cases mask.getLsbD i <;> simp

/-- Agreement on the bits of a mask, one by one. -/
theorem and_eq_and_iff (mask left right : Word) : left &&& mask = right &&& mask ↔
    ∀ i < 64, mask.getLsbD i = true → left.getLsbD i = right.getLsbD i := by
  constructor
  · intro same i _ set
    have bit := congrArg (BitVec.getLsbD · i) same
    simpa [set] using bit
  · intro same
    apply BitVec.eq_of_getLsbD_eq
    intro i inWord
    rw [BitVec.getLsbD_and, BitVec.getLsbD_and]
    cases set : mask.getLsbD i with
    | true => rw [same i inWord set]
    | false => rw [Bool.and_false, Bool.and_false]

theorem and_eq_zero_iff (left right : Word) : left &&& right = 0 ↔
    ∀ i < 64, left.getLsbD i = true → right.getLsbD i = false := by
  constructor
  · intro zero i _ set
    have bit := congrArg (BitVec.getLsbD · i) zero
    simpa [set] using bit
  · intro clear
    apply BitVec.eq_of_getLsbD_eq
    intro i inWord
    rw [BitVec.getLsbD_and, getLsbD_zeroWord]
    cases set : left.getLsbD i with
    | true => rw [clear i inWord set, Bool.and_false]
    | false => rw [Bool.false_and]

/-- A field of two values that agree on it. -/
theorem fieldValue_congr {field : FieldDescriptor} {value value' : Word}
    (same : ∀ i ∈ field.region, value.getLsbD i = value'.getLsbD i) :
    (value >>> field.lsb) &&& registerMask field.width
      = (value' >>> field.lsb) &&& registerMask field.width := by
  apply BitVec.eq_of_getLsbD_eq
  intro i inWord
  rw [BitVec.getLsbD_and, BitVec.getLsbD_and, getLsbD_registerMask _ inWord,
    BitVec.getLsbD_ushiftRight, BitVec.getLsbD_ushiftRight]
  by_cases inside : i < field.width
  · rw [same (field.lsb + i) ⟨by omega, by omega⟩]
  · simp [inside]

/-- A field put in place of another value's. -/
theorem getLsbD_placed (value fieldValue : Word) (field : FieldDescriptor) {i : ℕ} (inWord : i < 64) :
    ((value &&& ~~~registerFieldMask field) |||
      ((fieldValue &&& registerMask field.width) <<< field.lsb)).getLsbD i =
      if i ∈ field.region then fieldValue.getLsbD (i - field.lsb) else value.getLsbD i := by
  rw [BitVec.getLsbD_or, BitVec.getLsbD_and, BitVec.getLsbD_not, BitVec.getLsbD_shiftLeft,
    getLsbD_registerFieldMask field inWord, decide_eq_true inWord, BitVec.getLsbD_and,
    getLsbD_registerMask _ (by omega)]
  split
  next inside =>
    obtain ⟨above, below⟩ := inside
    simp [not_lt.mpr above, show i - field.lsb < field.width by omega,
      show field.lsb ≤ i ∧ i < field.lsb + field.width from ⟨above, below⟩, FieldDescriptor.region]
  next outside =>
    have low : i < field.lsb ∨ ¬ i - field.lsb < field.width := by
      by_contra! inside
      exact outside ⟨inside.1, by omega⟩
    rcases low with low | high
    · simp [outside, low]
    · simp [outside, high]

/-- The bits of some fields. -/
theorem getLsbD_fieldsMask (fields : List FieldDescriptor) (selected : FieldDescriptor → Bool) {i : ℕ}
    (inWord : i < 64) : (RegisterHandle.fieldsMask fields selected).getLsbD i = true ↔
      ∃ field ∈ fields, selected field = true ∧ i ∈ field.region := by
  have general : ∀ mask : Word, (fields.foldl (fun mask field =>
      if selected field then mask ||| registerFieldMask field else mask) mask).getLsbD i = true ↔
        mask.getLsbD i = true ∨ ∃ field ∈ fields, selected field = true ∧ i ∈ field.region := by
    induction fields with
    | nil => simp
    | cons field rest ih =>
      intro mask
      rw [List.foldl_cons, ih]
      by_cases taken : selected field
      · rw [if_pos taken, BitVec.getLsbD_or, getLsbD_registerFieldMask field inWord]
        simp [taken, or_assoc]
      · simp [taken]
  rw [RegisterHandle.fieldsMask, general, getLsbD_zeroWord]
  simp

end Looks

namespace RegisterHandle

variable {bus : BusTypes} (h : RegisterHandle bus)

theorem getLsbD_widthMask {h : RegisterHandle bus} {i : ℕ} (inWord : i < 64) :
    h.widthMask.getLsbD i = decide (i < h.descriptor.width) := getLsbD_registerMask _ inWord

/-- The bits beyond a word are clear in every state. -/
theorem look_of_ge (state : Word × Word) {i : ℕ} (beyond : 64 ≤ i) : look state i = (false, false) := by
  rw [look, BitVec.getLsbD_of_ge _ _ beyond, BitVec.getLsbD_of_ge _ _ beyond]

/-- The effect of a field reads and writes the bits of the field alone. -/
theorem effectedWrite_local (written : Word) (field : FieldDescriptor) :
    Local look field.region (h.effectedWrite written · field) := by
  -- either the policy places its answer to the field's bits, or the effect is bitwise
  by_cases user : field.writeEffect = .user ∧ h.userEffects.isSome
  · obtain ⟨effect, some⟩ := user
    obtain ⟨policy, policy_eq⟩ := Option.isSome_iff_exists.mp some
    have expand : ∀ state, h.effectedWrite written state field =
        ((state.1 &&& ~~~registerFieldMask field) |||
          (((policy.predictWriteField h.descriptor field
            ((state.1 >>> field.lsb) &&& registerMask field.width)
            ((state.2 >>> field.lsb) &&& registerMask field.width)
            ((written >>> field.lsb) &&& registerMask field.width)).1 &&& registerMask field.width)
              <<< field.lsb),
        (state.2 &&& ~~~registerFieldMask field) |||
          (((policy.predictWriteField h.descriptor field
            ((state.1 >>> field.lsb) &&& registerMask field.width)
            ((state.2 >>> field.lsb) &&& registerMask field.width)
            ((written >>> field.lsb) &&& registerMask field.width)).2 &&& registerMask field.width)
              <<< field.lsb)) := by
      intro state
      simp only [effectedWrite, effect, policy_eq]
    constructor
    · intro state i outside
      rcases lt_or_ge i 64 with inWord | beyond
      · simp only [look, expand]
        rw [getLsbD_placed _ _ _ inWord, getLsbD_placed _ _ _ inWord, if_neg outside, if_neg outside]
      · rw [look_of_ge _ beyond, look_of_ge _ beyond]
    · intro state state' same i inside
      have value := fieldValue_congr fun j inRegion => congrArg Prod.fst (same j inRegion)
      have valid := fieldValue_congr fun j inRegion => congrArg Prod.snd (same j inRegion)
      rcases lt_or_ge i 64 with inWord | beyond
      · simp only [look, expand]
        rw [getLsbD_placed _ _ _ inWord, getLsbD_placed _ _ _ inWord, getLsbD_placed _ _ _ inWord,
          getLsbD_placed _ _ _ inWord, if_pos inside, if_pos inside, if_pos inside, if_pos inside,
          value, valid]
      · rw [look_of_ge _ beyond, look_of_ge _ beyond]
  · have expand : ∀ state, h.effectedWrite written state field =
        (applyWriteEffect state.1 written field, applyWriteValidMask state.2 written field) := by
      intro state
      unfold effectedWrite
      split
      next effect policy_eq => exact absurd ⟨effect, by simp [policy_eq]⟩ user
      next => rfl
    constructor
    · intro state i outside
      rcases lt_or_ge i 64 with inWord | beyond
      · simp only [look, expand, getLsbD_applyWriteEffect _ _ _ inWord,
          getLsbD_applyWriteValidMask _ _ _ inWord, if_neg outside]
      · rw [look_of_ge _ beyond, look_of_ge _ beyond]
    · intro state state' same i inside
      have bit := same i inside
      rcases lt_or_ge i 64 with inWord | beyond
      · simp only [look, Prod.mk.injEq] at bit
        simp only [look, expand, getLsbD_applyWriteEffect _ _ _ inWord,
          getLsbD_applyWriteValidMask _ _ _ inWord, if_pos inside, bit.1, bit.2]
      · rw [look_of_ge _ beyond, look_of_ge _ beyond]

/-- A bit of a declared effect, without a policy's say. -/
theorem look_effectedWrite {written : Word} {field : FieldDescriptor} (declared : field.writeEffect ≠ .user)
    (state : Word × Word) {i : ℕ} (inWord : i < 64) (inside : i ∈ field.region) :
    look (h.effectedWrite written state field) i =
      (writeEffectBit (state.1.getLsbD i) (written.getLsbD i) field.writeEffect,
        writeValidBit (state.2.getLsbD i) (written.getLsbD i) field.writeEffect) := by
  have expand : h.effectedWrite written state field =
      (applyWriteEffect state.1 written field, applyWriteValidMask state.2 written field) := by
    unfold effectedWrite
    split
    next effect _ => exact absurd effect declared
    next => rfl
  rw [expand, look, getLsbD_applyWriteEffect _ _ _ inWord, getLsbD_applyWriteValidMask _ _ _ inWord,
    if_pos inside, if_pos inside]

section Steps

variable (value enabled : Word) (field : FieldDescriptor)

/-- The bits of the field that a prediction changes. -/
theorem look_predictWriteField (state : Word × Word) (i : ℕ) :
    look (h.predictWriteField value enabled state field) i =
      if registerWritable field.access ∧ i ∈ field.region ∧ enabled.getLsbD i ∧
          h.writtenOnceMask.getLsbD i = false then
        look (h.effectedWrite value state field) i
      else look state i := by
  rcases lt_or_ge i 64 with inWord | beyond
  · have bit : (registerFieldMask field &&& enabled &&& ~~~h.writtenOnceMask).getLsbD i = true ↔
        i ∈ field.region ∧ enabled.getLsbD i = true ∧ h.writtenOnceMask.getLsbD i = false := by
      rw [BitVec.getLsbD_and, BitVec.getLsbD_and, BitVec.getLsbD_not,
        getLsbD_registerFieldMask field inWord]
      simp [inWord, and_assoc]
    unfold predictWriteField
    by_cases writable : registerWritable field.access
    · by_cases zero : registerFieldMask field &&& enabled &&& ~~~h.writtenOnceMask = 0
      · have clear : ¬ (i ∈ field.region ∧ enabled.getLsbD i = true ∧
            h.writtenOnceMask.getLsbD i = false) := by
          rw [← bit, zero, getLsbD_zeroWord]
          exact Bool.false_ne_true
        rw [if_pos (.inr zero), if_neg (fun all => clear all.2)]
      · rw [if_neg (not_or.mpr ⟨by simp [writable], zero⟩)]
        simp only [look, getLsbD_blend _ _ _ inWord, bit, writable, true_and]
        split <;> rfl
    · rw [if_pos (by simp [writable]), if_neg (by simp [writable])]
  · rw [look_of_ge _ beyond, look_of_ge _ beyond, look_of_ge _ beyond, ite_self]

theorem predictWriteField_local :
    Local look field.region (h.predictWriteField value enabled · field) := by
  have effected := h.effectedWrite_local value field
  constructor
  · intro state i outside
    rw [look_predictWriteField, if_neg (fun all => outside all.2.1)]
  · intro state state' same i inside
    rw [look_predictWriteField, look_predictWriteField, same i inside,
      effected.congr state state' same i inside]

theorem predictedField_local :
    Local look field.region (h.predictedField value · field) := by
  unfold predictedField
  by_cases taken : registerWritable field.access ∧ h.writtenOnceMask &&& registerFieldMask field = 0
  · simp only [if_pos taken]
    exact h.effectedWrite_local value field
  · simp only [if_neg taken]
    exact Local.id field.region

end Steps

section Runs

variable {h} (value enabled : Word) (state : Word × Word) {i : ℕ}

/-- The prediction at a bit of no field. -/
theorem look_predictWriteFields_outside (outside : ∀ field ∈ h.descriptor.fields, i ∉ field.region) :
    look (h.descriptor.fields.foldl (h.predictWriteField value enabled) state) i = look state i :=
  foldl_outside (fun g _ => h.predictWriteField_local value enabled g) outside state

theorem look_predictedFields_outside (outside : ∀ field ∈ h.descriptor.fields, i ∉ field.region) :
    look (h.descriptor.fields.foldl (h.predictedField value) state) i = look state i :=
  foldl_outside (fun g _ => h.predictedField_local value g) outside state

variable (layout : Layout h.descriptor)

include layout

/-- The prediction at a bit of a field. -/
theorem look_predictWriteFields {field : FieldDescriptor} (member : field ∈ h.descriptor.fields)
    (inside : i ∈ field.region) :
    look (h.descriptor.fields.foldl (h.predictWriteField value enabled) state) i =
      if registerWritable field.access ∧ enabled.getLsbD i ∧ h.writtenOnceMask.getLsbD i = false then
        look (h.effectedWrite value state field) i
      else look state i := by
  rw [foldl_inside (fun g _ => h.predictWriteField_local value enabled g) layout.disjoint member
    inside state, look_predictWriteField]
  simp only [inside, true_and]

/-- The shortcut's prediction at a bit of a field. -/
theorem look_predictedFields {field : FieldDescriptor} (member : field ∈ h.descriptor.fields)
    (inside : i ∈ field.region) :
    look (h.descriptor.fields.foldl (h.predictedField value) state) i =
      if registerWritable field.access ∧ h.writtenOnceMask &&& registerFieldMask field = 0 then
        look (h.effectedWrite value state field) i
      else look state i := by
  rw [foldl_inside (fun g _ => h.predictedField_local value g) layout.disjoint member inside state,
    predictedField]
  split <;> rfl

end Runs

end RegisterHandle

end Cpptb.RegisterModel
