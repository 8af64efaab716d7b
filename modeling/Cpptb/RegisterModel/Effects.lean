/-
Field access and write effects of `register_model.hpp`.

A field is a run of bits of its register. The word functions (`applyWriteEffect`,
`applyWriteValidMask`, `encodeStagedWrite`, ...) compute on whole 64-bit words, for the registers of up
to 64 bits; the bit functions (`writeEffectBit`, `writeValidBit`, `stagedWriteBit`) are those of the
wide registers. The words agree with the bits at every position (`getLsbD_applyWriteEffect` and the
like), so what a write does is one question about three bits (`writeEffectBit_of_valid`,
`stagedWriteBit_best`, `stagedWriteBit_settled`).
-/

import Cpptb.Vc.RegisterCoverage

namespace Cpptb.RegisterModel

open Cpptb.Vc (RegisterAccess registerReadable registerWritable RegisterEndianness)

/-- `data_type` of a register of up to 64 bits. -/
abbrev Word := BitVec 64

/-- `RegisterReadEffect`. -/
inductive ReadEffect where
  | none
  | clear
  | set
  | user
  deriving DecidableEq, Repr

/-- `RegisterWriteEffect`. -/
inductive WriteEffect where
  | none
  | writeOneSet
  | writeOneClear
  | writeOneToggle
  | writeZeroSet
  | writeZeroClear
  | writeZeroToggle
  | clear
  | set
  | user
  deriving DecidableEq, Repr

/-- `RegisterFieldDescriptor`, as far as the handles read it. -/
structure FieldDescriptor where
  path : String
  lsb : ℕ
  width : ℕ
  access : RegisterAccess := .readWrite
  readEffect : ReadEffect := .none
  writeEffect : WriteEffect := .none
  volatileValue : Bool := false
  deriving DecidableEq, Repr

namespace FieldDescriptor

/-- The bits of a field. -/
def region (field : FieldDescriptor) : Set ℕ := {i | field.lsb ≤ i ∧ i < field.lsb + field.width}

instance (field : FieldDescriptor) (i : ℕ) : Decidable (i ∈ field.region) :=
  inferInstanceAs (Decidable (_ ∧ _))

def writeOnce (field : FieldDescriptor) : Bool :=
  field.access = .writeOnce || field.access = .readWriteOnce

end FieldDescriptor

section Words

/-- `register_mask`. -/
def registerMask (width : ℕ) : Word :=
  if 64 ≤ width then BitVec.allOnes 64
  else if width = 0 then 0 else (1 : Word) <<< width - 1

/-- `register_field_mask`. -/
def registerFieldMask (field : FieldDescriptor) : Word := registerMask field.width <<< field.lsb

def insertField (value fieldValue : Word) (field : FieldDescriptor) : Word :=
  let mask := registerFieldMask field
  (value &&& ~~~mask) ||| ((fieldValue <<< field.lsb) &&& mask)

def extractField (value : Word) (field : FieldDescriptor) : Word :=
  (value >>> field.lsb) &&& registerMask field.width

def applyWriteEffect (previous written : Word) (field : FieldDescriptor) : Word :=
  let mask := registerMask field.width
  let oldField := extractField previous field
  let writeField := extractField written field
  let next := match field.writeEffect with
    | .none => writeField
    | .writeOneSet => oldField ||| writeField
    | .writeOneClear => oldField &&& ~~~writeField
    | .writeOneToggle => oldField ^^^ writeField
    | .writeZeroSet => oldField ||| (~~~writeField &&& mask)
    | .writeZeroClear => oldField &&& writeField
    | .writeZeroToggle => oldField ^^^ (~~~writeField &&& mask)
    | .clear => 0
    | .set => mask
    | .user => writeField
  insertField previous next field

def applyWriteValidMask (previousValid written : Word) (field : FieldDescriptor) : Word :=
  let mask := registerMask field.width
  let oldValid := extractField previousValid field
  let writeField := extractField written field
  let nextValid := match field.writeEffect with
    | .none | .clear | .set => mask
    | .writeOneSet | .writeOneClear => oldValid ||| writeField
    | .writeOneToggle | .writeZeroToggle => oldValid
    | .writeZeroSet | .writeZeroClear => oldValid ||| (~~~writeField &&& mask)
    | .user => 0
  insertField previousValid nextValid field

def applyReadValidMask (previousValid : Word) (field : FieldDescriptor) : Word :=
  let nextValid := if field.readEffect = .user then 0 else registerMask field.width
  insertField previousValid nextValid field

/-- The overload of `encode_staged_write` that knows which previous bits are valid. -/
def encodeStagedWrite (previous previousValid staged : Word) (field : FieldDescriptor) : Word :=
  let mask := registerMask field.width
  let oldField := extractField previous field
  let oldValid := extractField previousValid field
  let stagedField := extractField staged field
  let written := match field.writeEffect with
    | .none | .user => stagedField
    | .writeOneSet => stagedField &&& (~~~oldField ||| ~~~oldValid)
    | .writeOneClear => ~~~stagedField &&& (oldField ||| ~~~oldValid)
    | .writeOneToggle => oldValid &&& (oldField ^^^ stagedField)
    | .writeZeroSet => (oldField &&& oldValid) ||| ~~~stagedField
    | .writeZeroClear => (~~~oldField &&& oldValid) ||| stagedField
    | .writeZeroToggle => (oldValid &&& ~~~(oldField ^^^ stagedField)) ||| ~~~oldValid
    | .clear | .set => 0
  insertField 0 (written &&& mask) field

def applyReadEffect (sampled : Word) (field : FieldDescriptor) : Word :=
  match field.readEffect with
  | .none | .user => sampled
  | .clear => insertField sampled 0 field
  | .set => insertField sampled (registerMask field.width) field

end Words

section Bits

def writeEffectBit (previous written : Bool) : WriteEffect → Bool
  | .none | .user => written
  | .writeOneSet => previous || written
  | .writeOneClear => previous && !written
  | .writeOneToggle => previous != written
  | .writeZeroSet => previous || !written
  | .writeZeroClear => previous && written
  | .writeZeroToggle => previous == written
  | .clear => false
  | .set => true

def writeValidBit (previousValid written : Bool) : WriteEffect → Bool
  | .none | .clear | .set => true
  | .writeOneSet | .writeOneClear => previousValid || written
  | .writeOneToggle | .writeZeroToggle => previousValid
  | .writeZeroSet | .writeZeroClear => previousValid || !written
  | .user => false

def stagedWriteBit (previous previousValid staged : Bool) : WriteEffect → Bool
  | .none | .user => staged
  | .writeOneSet => staged && (!previous || !previousValid)
  | .writeOneClear => !staged && (previous || !previousValid)
  | .writeOneToggle => previousValid && previous != staged
  | .writeZeroSet => (previous && previousValid) || !staged
  | .writeZeroClear => (!previous && previousValid) || staged
  | .writeZeroToggle => (previousValid && previous == staged) || !previousValid
  | .clear | .set => false

/-- A write whose result is valid does the same to every value that agrees with a valid previous
bit. -/
theorem writeEffectBit_of_valid {previous previousValid written hardware : Bool}
    {effect : WriteEffect} (declared : effect ≠ .user)
    (agrees : previousValid = true → hardware = previous)
    (valid : writeValidBit previousValid written effect = true) :
    writeEffectBit hardware written effect = writeEffectBit previous written effect := by
  cases previousValid with
  | true => rw [agrees rfl]
  | false => cases effect <;> simp_all [writeValidBit, writeEffectBit]

/-- If any written bit makes the staged bit, validly, the encoded one does. -/
theorem stagedWriteBit_best {previous previousValid staged written : Bool} {effect : WriteEffect}
    (reaches : writeEffectBit previous written effect = staged)
    (valid : writeValidBit previousValid written effect = true) :
    writeEffectBit previous (stagedWriteBit previous previousValid staged effect) effect = staged ∧
      writeValidBit previousValid (stagedWriteBit previous previousValid staged effect) effect
        = true := by
  revert previous previousValid staged written
  cases effect <;> decide

/-- Writing a staged bit that is already the valid mirrored one, and is not forced elsewhere, leaves
it. -/
theorem stagedWriteBit_settled {previous : Bool} {effect : WriteEffect} (declared : effect ≠ .user)
    (clears : effect = .clear → previous = false) (sets : effect = .set → previous = true) :
    writeEffectBit previous (stagedWriteBit previous true previous effect) effect = previous ∧
      writeValidBit true (stagedWriteBit previous true previous effect) effect = true := by
  cases effect <;> cases previous <;> simp_all [writeEffectBit, writeValidBit, stagedWriteBit]

end Bits

section Positions

variable {i : ℕ}

theorem getLsbD_zeroWord : (0 : Word).getLsbD i = false := BitVec.getLsbD_zero

theorem getLsbD_registerMask (width : ℕ) (inWord : i < 64) :
    (registerMask width).getLsbD i = decide (i < width) := by
  unfold registerMask
  split_ifs with wide zero
  · rw [BitVec.getLsbD_allOnes, decide_eq_true inWord, decide_eq_true (by omega)]
  · simp [zero]
  · show ((1 : Word) <<< width - 1).getLsbD i = _
    rw [BitVec.getLsbD, BitVec.toNat_sub_of_le, show (1 : Word) <<< width = BitVec.twoPow 64 width from
      (BitVec.twoPow_eq 64 width).symm, BitVec.toNat_twoPow_of_lt (by omega)]
    · exact Nat.testBit_two_pow_sub_one _ _
    · rw [BitVec.le_def, show (1 : Word) <<< width = BitVec.twoPow 64 width from
        (BitVec.twoPow_eq 64 width).symm, BitVec.toNat_twoPow_of_lt (by omega)]
      exact Nat.one_le_two_pow

theorem getLsbD_registerFieldMask (field : FieldDescriptor) (inWord : i < 64) :
    (registerFieldMask field).getLsbD i = decide (i ∈ field.region) := by
  unfold registerFieldMask FieldDescriptor.region
  rw [BitVec.getLsbD_shiftLeft, getLsbD_registerMask _ (by omega)]
  simp only [inWord, decide_true, Bool.true_and, Set.mem_ofPred_eq]
  rw [← decide_not, ← Bool.decide_and]
  exact decide_eq_decide.mpr (by omega)

theorem getLsbD_insertField (value fieldValue : Word) (field : FieldDescriptor) (inWord : i < 64) :
    (insertField value fieldValue field).getLsbD i =
      if i ∈ field.region then fieldValue.getLsbD (i - field.lsb) else value.getLsbD i := by
  simp only [insertField, BitVec.getLsbD_or, BitVec.getLsbD_and, BitVec.getLsbD_not,
    BitVec.getLsbD_shiftLeft, getLsbD_registerFieldMask field inWord, inWord, decide_true,
    Bool.true_and]
  split
  next inside => simp [inside, not_lt.mpr inside.1]
  next outside => simp [outside]

theorem getLsbD_extractField {field : FieldDescriptor} (value : Word) (inWord : i < 64)
    (inside : i ∈ field.region) :
    (extractField value field).getLsbD (i - field.lsb) = value.getLsbD i := by
  obtain ⟨above, below⟩ := inside
  rw [extractField, BitVec.getLsbD_and, BitVec.getLsbD_ushiftRight,
    getLsbD_registerMask _ (by omega), Nat.add_sub_cancel' above,
    decide_eq_true (show i - field.lsb < field.width by omega), Bool.and_true]

theorem getLsbD_mask_sub {field : FieldDescriptor} (inWord : i < 64) (inside : i ∈ field.region) :
    (registerMask field.width).getLsbD (i - field.lsb) = true := by
  obtain ⟨above, below⟩ := inside
  rw [getLsbD_registerMask _ (by omega), decide_eq_true (by omega)]

theorem getLsbD_applyWriteEffect (previous written : Word) (field : FieldDescriptor)
    (inWord : i < 64) :
    (applyWriteEffect previous written field).getLsbD i =
      if i ∈ field.region then
        writeEffectBit (previous.getLsbD i) (written.getLsbD i) field.writeEffect
      else previous.getLsbD i := by
  rw [applyWriteEffect, getLsbD_insertField _ _ _ inWord]
  split
  next inside =>
    have shifted : i - field.lsb < 64 := by omega
    have mask := getLsbD_mask_sub inWord inside
    have old := getLsbD_extractField previous inWord inside
    have write := getLsbD_extractField written inWord inside
    cases field.writeEffect <;>
      simp only [writeEffectBit, BitVec.getLsbD_or, BitVec.getLsbD_and, BitVec.getLsbD_xor,
        BitVec.getLsbD_not, getLsbD_zeroWord, mask, old, write, shifted, decide_true,
        Bool.true_and, Bool.and_true] <;>
      cases previous.getLsbD i <;> cases written.getLsbD i <;> rfl
  next => rfl

theorem getLsbD_applyWriteValidMask (previousValid written : Word) (field : FieldDescriptor)
    (inWord : i < 64) :
    (applyWriteValidMask previousValid written field).getLsbD i =
      if i ∈ field.region then
        writeValidBit (previousValid.getLsbD i) (written.getLsbD i) field.writeEffect
      else previousValid.getLsbD i := by
  rw [applyWriteValidMask, getLsbD_insertField _ _ _ inWord]
  split
  next inside =>
    have shifted : i - field.lsb < 64 := by omega
    have mask := getLsbD_mask_sub inWord inside
    have old := getLsbD_extractField previousValid inWord inside
    have write := getLsbD_extractField written inWord inside
    cases field.writeEffect <;>
      simp only [writeValidBit, BitVec.getLsbD_or, BitVec.getLsbD_and, BitVec.getLsbD_not,
        getLsbD_zeroWord, mask, old, write, shifted, decide_true, Bool.true_and, Bool.and_true]
  next => rfl

theorem getLsbD_encodeStagedWrite (previous previousValid staged : Word) (field : FieldDescriptor)
    (inWord : i < 64) :
    (encodeStagedWrite previous previousValid staged field).getLsbD i =
      (decide (i ∈ field.region) && stagedWriteBit (previous.getLsbD i) (previousValid.getLsbD i)
        (staged.getLsbD i) field.writeEffect) := by
  rw [encodeStagedWrite, getLsbD_insertField _ _ _ inWord]
  split
  next inside =>
    have shifted : i - field.lsb < 64 := by omega
    have mask := getLsbD_mask_sub inWord inside
    have old := getLsbD_extractField previous inWord inside
    have valid := getLsbD_extractField previousValid inWord inside
    have stage := getLsbD_extractField staged inWord inside
    rw [decide_eq_true inside, Bool.true_and, BitVec.getLsbD_and, mask, Bool.and_true]
    cases field.writeEffect <;>
      simp only [stagedWriteBit, BitVec.getLsbD_or, BitVec.getLsbD_and, BitVec.getLsbD_xor,
        BitVec.getLsbD_not, getLsbD_zeroWord, old, valid, stage, shifted, decide_true,
        Bool.true_and] <;>
      cases previous.getLsbD i <;> cases previousValid.getLsbD i <;> cases staged.getLsbD i <;> rfl
  next outside => simp [outside]

end Positions

end Cpptb.RegisterModel
