/-
Registers and memories between the exporters and the generated header.

* `Register`, `Memory`, `RegisterBlock`: what the exporters extract.
* `renderRegister`, `renderMemory`: the initialisers of the generated descriptors.
* `RegisterInit.compile`, `MemoryInit.compile`: the descriptors, unless a literal does not fit its member.
* `denotes_renderRegister`: a descriptor denotes its register.
* `widths_register`, `widths_memory`: the width checks of the handles.
-/

import Cpptb.Lib.Checked
import Cpptb.RegisterModel.HdlBackdoor
import Cpptb.RegisterModel.WideHandle

namespace Cpptb.RegisterModel.Codegen

open Cpptb.Vc (RegisterAccess RegisterEndianness)
open HdlBackdoor (BackdoorSlice)

/-! ### What is extracted -/

section Extracted

/-- `FieldEnumeration`, with the values of its members. -/
structure FieldEnumeration where
  name : String
  scope : String
  members : List (String × ℤ)
  deriving DecidableEq, Repr

/-- `Field`. -/
structure Field where
  name : String
  path : String
  lsb : ℕ
  width : ℕ
  access : RegisterAccess
  readEffect : ReadEffect
  writeEffect : WriteEffect
  resetValue : ℕ
  resetMask : ℕ
  volatileValue : Bool
  enumeration : Option FieldEnumeration := none
  backdoorSlices : List BackdoorSlice := []
  deriving DecidableEq, Repr

/-- `Register`, less its member name, which is made from its path. -/
structure Register where
  name : String
  path : String
  address : ℤ
  width : ℕ
  accessWidth : ℕ
  endianness : RegisterEndianness := .little
  resetValue : ℕ
  resetMask : ℕ
  fields : List Field
  backdoorSlices : List BackdoorSlice := []
  backdoorComplete : Bool := false
  deriving DecidableEq, Repr

/-- `Memory`, less its member name. -/
structure Memory where
  name : String
  path : String
  address : ℤ
  entries : ℕ
  width : ℕ
  accessWidth : ℕ
  access : RegisterAccess
  backdoorPath : Option String := none
  deriving DecidableEq, Repr

/-- `RegisterBlock`. -/
structure RegisterBlock where
  name : String
  registers : List Register
  memories : List Memory
  deriving DecidableEq, Repr

/-- The order of the registers and of the memories. -/
def inOrder (first second : ℤ × String) : Bool :=
  first.1 < second.1 || (first.1 = second.1 && first.2 ≤ second.2)

/-- The bits of a field. -/
def Field.Covers (field : Field) (bit : ℕ) : Prop := field.lsb ≤ bit ∧ bit < field.lsb + field.width

/-- Two fields without a common bit. -/
def Field.Apart (first second : Field) : Prop :=
  first.lsb + first.width ≤ second.lsb ∨ second.lsb + second.width ≤ first.lsb

/-- The union of the shifted values of the fields. -/
def unionOf (value : Field → ℕ) (fields : List Field) : ℕ :=
  fields.foldl (fun union field => union ||| value field <<< field.lsb) 0

theorem unionOf_append (value : Field → ℕ) (fields : List Field) (field : Field) :
    unionOf value (fields ++ [field]) = unionOf value fields ||| value field <<< field.lsb := by
  rw [unionOf, List.foldl_append]
  rfl

/-- Values that fit their fields are inside the register. -/
theorem unionOf_lt {value : Field → ℕ} {fields : List Field} {width : ℕ}
    (inside : ∀ field ∈ fields, field.lsb + field.width ≤ width)
    (fits : ∀ field ∈ fields, value field < 2 ^ field.width) : unionOf value fields < 2 ^ width := by
  induction fields using List.reverseRecOn with
  | nil => exact Nat.two_pow_pos width
  | append_singleton fields field ih =>
    rw [unionOf_append]
    have rest := ih (fun other mem => inside other (List.mem_append_left _ mem))
      fun other mem => fits other (List.mem_append_left _ mem)
    have here := fits field (by simp)
    refine Nat.or_lt_two_pow rest ?_
    calc value field <<< field.lsb = value field * 2 ^ field.lsb := Nat.shiftLeft_eq _ _
      _ < 2 ^ field.width * 2 ^ field.lsb := Nat.mul_lt_mul_of_pos_right here (Nat.two_pow_pos _)
      _ = 2 ^ (field.lsb + field.width) := by rw [← pow_add, add_comm]
      _ ≤ 2 ^ width := Nat.pow_le_pow_right (by decide) (inside field (by simp))

end Extracted

/-! ### What is rendered -/

section Rendering

/-- An integer literal of the header: in decimal digits, or the argument of `UINT64_C` or `UINT32_C`. -/
inductive Literal where
  | decimal (value : ℤ)
  | uint64 (value : ℤ)
  | uint32 (value : ℤ)
  deriving DecidableEq, Repr

/-- What a literal denotes. -/
def Literal.value : Literal → ℤ
  | decimal value | uint64 value | uint32 value => value

/-- A member of `bits` bits, initialised in braces: a value that does not fit is an error. -/
def Literal.compile (bits : ℕ) (literal : Literal) : Option (BitVec bits) :=
  if 0 ≤ literal.value ∧ literal.value < 2 ^ bits then some (BitVec.ofInt bits literal.value) else none

/-- The initialisers of a `RegisterFieldDescriptor`, less its backdoor slices. -/
structure FieldInit where
  name : String
  path : String
  lsb : Literal
  width : Literal
  access : RegisterAccess
  readEffect : ReadEffect
  writeEffect : WriteEffect
  resetValue : Literal
  resetMask : Literal
  volatileValue : Bool
  deriving DecidableEq, Repr

/-- The initialisers of a `RegisterDescriptor`, with the arrays they name, less its backdoor slices. -/
structure RegisterInit where
  name : String
  path : String
  address : Literal
  width : Literal
  accessWidth : Literal
  endianness : RegisterEndianness
  resetValue : Literal
  resetMask : Literal
  resetValueWords : List Literal
  resetMaskWords : List Literal
  fields : List FieldInit
  deriving DecidableEq, Repr

/-- The initialisers of a `RegisterMemoryDescriptor`. -/
structure MemoryInit where
  name : String
  path : String
  address : Literal
  entries : Literal
  width : Literal
  accessWidth : Literal
  access : RegisterAccess
  hdlPath : String
  deriving DecidableEq, Repr

def renderField (field : Field) : FieldInit where
  name := field.name
  path := field.path
  lsb := .decimal field.lsb
  width := .decimal field.width
  access := field.access
  readEffect := field.readEffect
  writeEffect := field.writeEffect
  resetValue := .uint64 (field.resetValue &&& (1 <<< 64 - 1) : ℕ)
  resetMask := .uint64 (field.resetMask &&& (1 <<< 64 - 1) : ℕ)
  volatileValue := field.volatileValue

/-- The words of a value. -/
def renderWords (width value : ℕ) : List Literal :=
  (List.range ((width + 31) / 32)).map fun word => .uint32 (value >>> (word * 32) &&& 0xffffffff : ℕ)

def renderRegister (register : Register) : RegisterInit where
  name := register.name
  path := register.path
  address := .uint64 register.address
  width := .decimal register.width
  accessWidth := .decimal register.accessWidth
  endianness := register.endianness
  resetValue := .uint64 (register.resetValue &&& (1 <<< 64 - 1) : ℕ)
  resetMask := .uint64 (register.resetMask &&& (1 <<< 64 - 1) : ℕ)
  resetValueWords := if 64 < register.width then renderWords register.width register.resetValue else []
  resetMaskWords := if 64 < register.width then renderWords register.width register.resetMask else []
  fields := register.fields.map renderField

def renderMemory (memory : Memory) : MemoryInit where
  name := memory.name
  path := memory.path
  address := .uint64 memory.address
  entries := .uint64 memory.entries
  width := .decimal memory.width
  accessWidth := .decimal memory.accessWidth
  access := memory.access
  hdlPath := memory.backdoorPath.getD ""

end Rendering

/-! ### What is compiled -/

section Compiling

/-- A `RegisterFieldDescriptor`. -/
structure FieldRecord where
  name : String
  descriptor : FieldDescriptor
  resetValue : Word
  resetMask : Word
  deriving DecidableEq, Repr

/-- A `RegisterDescriptor`; `descriptor` is what the handles read of it. -/
structure RegisterRecord where
  name : String
  descriptor : RegisterDescriptor
  fields : List FieldRecord
  deriving DecidableEq, Repr

def FieldInit.compile (init : FieldInit) : Option FieldRecord := do
  let lsb ← init.lsb.compile 16
  let width ← init.width.compile 16
  let resetValue ← init.resetValue.compile 64
  let resetMask ← init.resetMask.compile 64
  return {
    name := init.name
    descriptor := {
      path := init.path
      lsb := lsb.toNat
      width := width.toNat
      access := init.access
      readEffect := init.readEffect
      writeEffect := init.writeEffect
      volatileValue := init.volatileValue }
    resetValue
    resetMask }

def RegisterInit.compile (init : RegisterInit) : Option RegisterRecord := do
  let address ← init.address.compile 64
  let width ← init.width.compile 16
  let accessWidth ← init.accessWidth.compile 16
  let resetValue ← init.resetValue.compile 64
  let resetMask ← init.resetMask.compile 64
  let resetValueWords ← init.resetValueWords.mapM (Literal.compile 32)
  let resetMaskWords ← init.resetMaskWords.mapM (Literal.compile 32)
  let fields ← init.fields.mapM FieldInit.compile
  return {
    name := init.name
    descriptor := {
      path := init.path
      address := ⟨address⟩
      width := width.toNat
      accessWidth := accessWidth.toNat
      endianness := init.endianness
      resetValue
      resetMask
      resetValueWords
      resetMaskWords
      fields := fields.map FieldRecord.descriptor }
    fields }

def MemoryInit.compile (init : MemoryInit) : Option RegisterMemoryDescriptor := do
  let address ← init.address.compile 64
  let entries ← init.entries.compile 64
  let width ← init.width.compile 16
  let accessWidth ← init.accessWidth.compile 16
  return {
    path := init.path
    address := ⟨address⟩
    entries := ⟨entries⟩
    width := ⟨width⟩
    accessWidth := ⟨accessWidth⟩
    access := init.access }

/-- A descriptor of a field denotes it. -/
structure FieldDenotes (record : FieldRecord) (field : Field) : Prop where
  name : record.name = field.name
  path : record.descriptor.path = field.path
  lsb : record.descriptor.lsb = field.lsb
  width : record.descriptor.width = field.width
  access : record.descriptor.access = field.access
  readEffect : record.descriptor.readEffect = field.readEffect
  writeEffect : record.descriptor.writeEffect = field.writeEffect
  resetValue : record.resetValue.toNat = field.resetValue
  resetMask : record.resetMask.toNat = field.resetMask
  volatileValue : record.descriptor.volatileValue = field.volatileValue

/-- A descriptor denotes a register: up to 64 bits its resets are values, beyond they are the words that
`descriptor_bits` reads. -/
structure Denotes (record : RegisterRecord) (register : Register) : Prop where
  name : record.name = register.name
  path : record.descriptor.path = register.path
  address : (record.descriptor.address.toNat : ℤ) = register.address
  width : record.descriptor.width = register.width
  accessWidth : record.descriptor.accessWidth = register.accessWidth
  endianness : record.descriptor.endianness = register.endianness
  value : register.width ≤ 64 → record.descriptor.resetValue.toNat = register.resetValue ∧
    record.descriptor.resetMask.toNat = register.resetMask
  words : 64 < register.width →
    (WideRegisterHandle.descriptorBits register.width record.descriptor.resetValueWords
      record.descriptor.resetValue).toNat = register.resetValue ∧
    (WideRegisterHandle.descriptorBits register.width record.descriptor.resetMaskWords
      record.descriptor.resetMask).toNat = register.resetMask
  fields : List.Forall₂ FieldDenotes record.fields register.fields
  descriptors : record.descriptor.fields = record.fields.map FieldRecord.descriptor

/-- What the descriptor of a register has room for. -/
structure Representable (register : Register) : Prop where
  address : 0 ≤ register.address ∧ register.address < 2 ^ 64
  width : register.width < 2 ^ 16
  accessWidth : register.accessWidth ≤ register.width
  inside : ∀ field ∈ register.fields, field.lsb + field.width ≤ register.width
  resetValue : register.resetValue < 2 ^ register.width
  resetMask : register.resetMask < 2 ^ register.width
  resets : ∀ field ∈ register.fields, field.resetValue < 2 ^ 64 ∧ field.resetMask < 2 ^ 64

end Compiling

/-! ### Descriptors denote registers -/

section Denoting

theorem compile_of_lt {bits value : ℕ} {literal : Literal} (same : literal.value = value)
    (fits : value < 2 ^ bits) : literal.compile bits = some (BitVec.ofNat bits value) := by
  unfold Literal.compile
  rw [same, if_pos ⟨Int.natCast_nonneg _, by exact_mod_cast fits⟩]
  rfl

theorem toNat_of_compile {bits : ℕ} {literal : Literal} {value : BitVec bits}
    (compiled : literal.compile bits = some value) : (value.toNat : ℤ) = literal.value := by
  unfold Literal.compile at compiled
  split at compiled
  · next fits =>
    obtain rfl := Option.some.inj compiled
    obtain ⟨number, same⟩ := Int.eq_ofNat_of_zero_le fits.1
    rw [same] at fits ⊢
    rw [BitVec.ofInt_natCast, BitVec.toNat_ofNat, Nat.mod_eq_of_lt (by exact_mod_cast fits.2)]
  · cases compiled

/-- The lowest 64 bits of a value that has no more. -/
theorem low_of_lt {value : ℕ} (fits : value < 2 ^ 64) : value &&& (1 <<< 64 - 1) = value := by
  rw [Nat.one_shiftLeft, Nat.and_two_pow_sub_one_eq_mod, Nat.mod_eq_of_lt fits]

theorem low_lt (value : ℕ) : value &&& (1 <<< 64 - 1) < 2 ^ 64 := by
  rw [Nat.one_shiftLeft, Nat.and_two_pow_sub_one_eq_mod]
  exact Nat.mod_lt _ (Nat.two_pow_pos _)

/-- The word of a value at a position. -/
def wordAt (value word : ℕ) : BitVec 32 := BitVec.ofNat 32 (value >>> (word * 32) &&& 0xffffffff)

theorem getLsbD_wordAt (value word bit : ℕ) (inside : bit < 32) :
    (wordAt value word).getLsbD bit = value.testBit (word * 32 + bit) := by
  have mask : (0xffffffff : ℕ) = 2 ^ 32 - 1 := by decide
  rw [wordAt, BitVec.getLsbD_ofNat, decide_eq_true inside, Bool.true_and, mask, Nat.testBit_and,
    Nat.testBit_shiftRight, Nat.testBit_two_pow_sub_one, decide_eq_true inside, Bool.and_true]

theorem compile_renderWords (width value : ℕ) :
    (renderWords width value).mapM (Literal.compile 32) =
      some ((List.range ((width + 31) / 32)).map (wordAt value)) := by
  unfold renderWords
  induction List.range ((width + 31) / 32) with
  | nil => rfl
  | cons word words ih =>
    have fits : value >>> (word * 32) &&& 0xffffffff < 2 ^ 32 :=
      (Nat.and_le_right).trans_lt (by decide)
    rw [List.map_cons, List.mapM_cons, ih, compile_of_lt rfl fits]
    rfl

/-- The words of a value, put together. -/
theorem getLsbD_words (width value first count bit : ℕ) :
    (((List.range' first count).map (wordAt value)).foldr
      (fun word (rest : BitVec width) => word.setWidth width ||| (rest <<< 32)) 0).getLsbD bit =
      (decide (bit < width) && decide (bit < count * 32) && value.testBit (first * 32 + bit)) := by
  induction count generalizing first bit with
  | zero => simp
  | succ count ih =>
    rw [List.range'_succ, List.map_cons, List.foldr_cons, BitVec.getLsbD_or, BitVec.getLsbD_setWidth,
      BitVec.getLsbD_shiftLeft]
    by_cases low : bit < 32
    · rw [getLsbD_wordAt _ _ _ low, decide_eq_true low, decide_eq_true (by omega : bit < (count + 1) * 32)]
      simp
    · rw [BitVec.getLsbD_of_ge _ _ (not_lt.mp low), ih, decide_eq_false low]
      have inside : (bit < width ∧ bit - 32 < width ∧ bit - 32 < count * 32) ↔
          (bit < width ∧ bit < (count + 1) * 32) := by omega
      have place : (first + 1) * 32 + (bit - 32) = first * 32 + bit := by omega
      rw [place]
      by_cases here : bit < width
      · have there : bit - 32 < width := by omega
        have same : decide (bit - 32 < count * 32) = decide (bit < (count + 1) * 32) :=
          decide_eq_decide.mpr (by omega)
        simp [here, there, same]
      · simp [here]

/-- **Words denote their value.** -/
theorem descriptorBits_words {width value : ℕ} {fallback : Word} (wide : 0 < width)
    (fits : value < 2 ^ width) : (WideRegisterHandle.descriptorBits width
      ((List.range ((width + 31) / 32)).map (wordAt value)) fallback).toNat = value := by
  have length : ((List.range ((width + 31) / 32)).map (wordAt value)).length = (width + 31) / 32 := by
    simp
  unfold WideRegisterHandle.descriptorBits
  rw [if_neg (by rw [List.isEmpty_iff, ← List.length_eq_zero_iff, length]; omega),
    List.take_of_length_le length.le, List.range_eq_range']
  refine Nat.eq_of_testBit_eq fun bit => ?_
  rw [← BitVec.getLsbD, getLsbD_words, Nat.zero_mul, Nat.zero_add]
  by_cases inside : bit < width
  · rw [decide_eq_true inside, decide_eq_true (by omega), Bool.true_and, Bool.true_and]
  · rw [decide_eq_false inside, Bool.false_and, Bool.false_and]
    exact (Nat.testBit_lt_two_pow (fits.trans_le (Nat.pow_le_pow_right (by decide) (by omega)))).symm

theorem FieldInit.compile_some {init : FieldInit} {record : FieldRecord}
    (compiled : init.compile = some record) :
    ∃ (lsb width : BitVec 16) (resetValue resetMask : Word), init.lsb.compile 16 = some lsb ∧
      init.width.compile 16 = some width ∧ init.resetValue.compile 64 = some resetValue ∧
      init.resetMask.compile 64 = some resetMask ∧
      record = ⟨init.name, ⟨init.path, lsb.toNat, width.toNat, init.access, init.readEffect,
        init.writeEffect, init.volatileValue⟩, resetValue, resetMask⟩ := by
  obtain ⟨lsb, lsbRead, compiled⟩ := Option.bind_eq_some_iff.mp compiled
  obtain ⟨width, widthRead, compiled⟩ := Option.bind_eq_some_iff.mp compiled
  obtain ⟨resetValue, valueRead, compiled⟩ := Option.bind_eq_some_iff.mp compiled
  obtain ⟨resetMask, maskRead, compiled⟩ := Option.bind_eq_some_iff.mp compiled
  exact ⟨lsb, width, resetValue, resetMask, lsbRead, widthRead, valueRead, maskRead,
    (Option.some.inj compiled).symm⟩

/-- A field with resets of up to 64 bits is denoted by its descriptor. -/
theorem denotes_renderField {field : Field} (resetValue : field.resetValue < 2 ^ 64)
    (resetMask : field.resetMask < 2 ^ 64) {record : FieldRecord}
    (compiled : (renderField field).compile = some record) : FieldDenotes record field := by
  obtain ⟨lsb, width, value, mask, lsbRead, widthRead, valueRead, maskRead, rfl⟩ :=
    FieldInit.compile_some compiled
  have valueSame := toNat_of_compile valueRead
  have maskSame := toNat_of_compile maskRead
  simp only [renderField, Literal.value, low_of_lt resetValue, low_of_lt resetMask] at valueSame maskSame
  exact {
    name := rfl
    path := rfl
    lsb := Int.ofNat_inj.mp (toNat_of_compile lsbRead)
    width := Int.ofNat_inj.mp (toNat_of_compile widthRead)
    access := rfl
    readEffect := rfl
    writeEffect := rfl
    resetValue := Int.ofNat_inj.mp valueSame
    resetMask := Int.ofNat_inj.mp maskSame
    volatileValue := rfl }

theorem compile_renderField {field : Field} (lsb : field.lsb < 2 ^ 16) (width : field.width < 2 ^ 16) :
    ∃ record, (renderField field).compile = some record := by
  unfold FieldInit.compile
  rw [compile_of_lt rfl lsb, compile_of_lt rfl width, compile_of_lt rfl (low_lt _),
    compile_of_lt rfl (low_lt _)]
  exact ⟨_, rfl⟩

theorem RegisterInit.compile_some {init : RegisterInit} {record : RegisterRecord}
    (compiled : init.compile = some record) :
    ∃ (address : Word) (width accessWidth : BitVec 16) (resetValue resetMask : Word)
      (valueWords maskWords : List (BitVec 32)), init.address.compile 64 = some address ∧
      init.width.compile 16 = some width ∧ init.accessWidth.compile 16 = some accessWidth ∧
      init.resetValue.compile 64 = some resetValue ∧ init.resetMask.compile 64 = some resetMask ∧
      init.resetValueWords.mapM (Literal.compile 32) = some valueWords ∧
      init.resetMaskWords.mapM (Literal.compile 32) = some maskWords ∧
      init.fields.mapM FieldInit.compile = some record.fields ∧ record.name = init.name ∧
      record.descriptor = {
        path := init.path
        address := ⟨address⟩
        width := width.toNat
        accessWidth := accessWidth.toNat
        endianness := init.endianness
        resetValue
        resetMask
        resetValueWords := valueWords
        resetMaskWords := maskWords
        fields := record.fields.map FieldRecord.descriptor } := by
  obtain ⟨address, addressRead, compiled⟩ := Option.bind_eq_some_iff.mp compiled
  obtain ⟨width, widthRead, compiled⟩ := Option.bind_eq_some_iff.mp compiled
  obtain ⟨accessWidth, accessRead, compiled⟩ := Option.bind_eq_some_iff.mp compiled
  obtain ⟨resetValue, valueRead, compiled⟩ := Option.bind_eq_some_iff.mp compiled
  obtain ⟨resetMask, maskRead, compiled⟩ := Option.bind_eq_some_iff.mp compiled
  obtain ⟨valueWords, valuesRead, compiled⟩ := Option.bind_eq_some_iff.mp compiled
  obtain ⟨maskWords, masksRead, compiled⟩ := Option.bind_eq_some_iff.mp compiled
  obtain ⟨fields, fieldsRead, compiled⟩ := Option.bind_eq_some_iff.mp compiled
  obtain rfl := Option.some.inj compiled
  exact ⟨address, width, accessWidth, resetValue, resetMask, valueWords, maskWords, addressRead,
    widthRead, accessRead, valueRead, maskRead, valuesRead, masksRead, fieldsRead, rfl, rfl⟩

/-- **A register is denoted by its descriptor.** -/
theorem denotes_renderRegister {register : Register} (representable : Representable register)
    {record : RegisterRecord} (compiled : (renderRegister register).compile = some record) :
    Denotes record register := by
  obtain ⟨⟨address0, address1⟩, short, access, inside, value, mask, resets⟩ := representable
  obtain ⟨address, width, accessWidth, resetValue, resetMask, valueWords, maskWords, addressRead,
    widthRead, accessRead, valueRead, maskRead, valuesRead, masksRead, fieldsRead, name, descriptor⟩ :=
    RegisterInit.compile_some compiled
  have valueSame := Int.ofNat_inj.mp (toNat_of_compile valueRead)
  have maskSame := Int.ofNat_inj.mp (toNat_of_compile maskRead)
  have wordsSame : ∀ {reset : ℕ} {words : List (BitVec 32)} {fallback : Word}, 64 < register.width →
      reset < 2 ^ register.width →
      (if 64 < register.width then renderWords register.width reset else []).mapM (Literal.compile 32) =
        some words →
      (WideRegisterHandle.descriptorBits register.width words fallback).toNat = reset := by
    intro reset words fallback wide fits read
    rw [if_pos wide, compile_renderWords] at read
    rw [← Option.some.inj read]
    exact descriptorBits_words (by omega) fits
  have each := Checked.forall₂_of_mapM_some fieldsRead
  rw [renderRegister, List.forall₂_map_left_iff] at each
  refine {
    name := name
    path := by rw [descriptor]; rfl
    address := by rw [descriptor]; exact toNat_of_compile addressRead
    width := by rw [descriptor]; exact Int.ofNat_inj.mp (toNat_of_compile widthRead)
    accessWidth := by rw [descriptor]; exact Int.ofNat_inj.mp (toNat_of_compile accessRead)
    endianness := by rw [descriptor]; rfl
    value := fun narrow => ?_
    words := fun wide => ?_
    fields := ?_
    descriptors := by rw [descriptor] }
  · have room : 2 ^ register.width ≤ 2 ^ 64 := Nat.pow_le_pow_right (by decide) narrow
    rw [low_of_lt (value.trans_le room)] at valueSame
    rw [low_of_lt (mask.trans_le room)] at maskSame
    rw [descriptor]
    exact ⟨valueSame, maskSame⟩
  · rw [descriptor]
    exact ⟨wordsSame wide value valuesRead, wordsSame wide mask masksRead⟩
  · refine List.forall₂_iff_get.mpr ⟨each.length_eq.symm, fun index here there => ?_⟩
    have fits := resets _ (List.get_mem register.fields ⟨index, there⟩)
    exact denotes_renderField fits.1 fits.2 (List.Forall₂.get each there here)

/-- A register that fits its descriptor has one. -/
theorem compile_renderRegister {register : Register} (representable : Representable register) :
    ∃ record, (renderRegister register).compile = some record := by
  obtain ⟨⟨address0, address1⟩, short, access, inside, -, -, -⟩ := representable
  have address : ∃ number : ℕ, register.address = number := Int.eq_ofNat_of_zero_le address0
  obtain ⟨number, same⟩ := address
  have words : ∀ reset, ∃ words, (if 64 < register.width then renderWords register.width reset
      else []).mapM (Literal.compile 32) = some words := by
    intro reset
    split
    · exact ⟨_, compile_renderWords _ _⟩
    · exact ⟨[], rfl⟩
  obtain ⟨valueWords, values⟩ := words register.resetValue
  obtain ⟨maskWords, masks⟩ := words register.resetMask
  obtain ⟨fields, each⟩ : ∃ fields, (register.fields.map renderField).mapM FieldInit.compile =
      some fields := by
    refine Checked.exists_mapM_some fun init mem => ?_
    obtain ⟨field, mem', rfl⟩ := List.mem_map.mp mem
    have := inside field mem'
    exact compile_renderField (by omega) (by omega)
  have addressFits : (renderRegister register).address.compile 64 = some (BitVec.ofNat 64 number) :=
    compile_of_lt same (by omega)
  unfold RegisterInit.compile
  rw [addressFits, compile_of_lt rfl short, compile_of_lt rfl (access.trans_lt short),
    compile_of_lt rfl (low_lt _), compile_of_lt rfl (low_lt _)]
  simp only [renderRegister, values, masks, each]
  exact ⟨_, rfl⟩

end Denoting

/-! ### Width checks -/

section Widths

/-- Whole bytes, in transfers of whole bytes and up to 64 bits that divide the width. -/
structure WidthsUsable (width accessWidth : ℕ) : Prop where
  bytes : width % 8 = 0
  transferBytes : accessWidth % 8 = 0
  divides : width % accessWidth = 0
  transfer : accessWidth ≤ 64

/-- A bus at least as wide as the transfers, or as wide as a bus can be. -/
structure Carries (bus : BusTypes) (accessWidth : ℕ) : Prop where
  data : min accessWidth 64 ≤ bus.dataBits
  bytes : min accessWidth 64 / 8 ≤ bus.byteEnableBits

/-- A check that passes usable widths and refuses others, with the path. Addresses are checked later. -/
structure Answers (usable : Prop) (path : String) (widthTexts addressTexts : List String)
    (result : Except Error Unit) : Prop where
  passes : usable → result = .ok () ∨ ∃ text ∈ addressTexts, result = .error (.logicError (text ++ path))
  refuses : ¬usable → ∃ text ∈ widthTexts, result = .error (.logicError (text ++ path))

/-- The width checks of the handles of a register. -/
structure RegisterAnswers (descriptor : RegisterDescriptor) : Prop where
  narrow : descriptor.width ≤ 64 → ∀ (bus : BusTypes) (h : RegisterHandle bus),
    Carries bus descriptor.accessWidth → h.descriptor = descriptor →
    Answers (WidthsUsable descriptor.width descriptor.accessWidth) descriptor.path
      ["cpptb-vc: register must be byte-aligned and no wider than 64 bits: ",
        "cpptb-vc: register accesswidth must be byte-aligned, divide regwidth, and " ++
          "fit the frontdoor data width: "]
      ["cpptb-vc: split register transfer address exceeds the frontdoor address " ++ "width: "]
      h.requireSupportedAccess
  wide : 64 < descriptor.width → ∀ (bus : BusTypes) (h : WideRegisterHandle bus descriptor.width),
    Carries bus descriptor.accessWidth → h.descriptor = descriptor →
    Answers (WidthsUsable descriptor.width descriptor.accessWidth) descriptor.path
      ["cpptb-vc: wide register accesswidth must be byte-aligned, divide regwidth, be at " ++
        "most 64 bits, and fit the frontdoor data width: "]
      ["cpptb-vc: wide register transfer address exceeds the frontdoor address width: "]
      h.validateAccess

/-- The width checks of the handles of a memory. -/
structure MemoryAnswers (descriptor : RegisterMemoryDescriptor) : Prop where
  narrow : descriptor.width.toNat ≤ 64 → descriptor.accessWidth = descriptor.width ∧
    ∀ bus : BusTypes, Carries bus descriptor.accessWidth.toNat →
      Answers (WidthsUsable descriptor.width.toNat descriptor.accessWidth.toNat) descriptor.path
        ["cpptb-vc: register memory element must be byte-aligned and fit the model data " ++ "width: "] []
        (RegisterMemoryHandle.validateElement bus descriptor)
  wide : 64 < descriptor.width.toNat → ∀ bus : BusTypes, Carries bus descriptor.accessWidth.toNat →
    Answers (WidthsUsable descriptor.width.toNat descriptor.accessWidth.toNat) descriptor.path
      ["cpptb-vc: wide register memory requires a byte-aligned access width that divides " ++
        "the element and fits the frontdoor data width: "] []
      (WideRegisterMemoryHandle.validateElement bus descriptor.width.toNat descriptor)

theorem transferWidth_of_positive {descriptor : RegisterDescriptor} (positive : 0 < descriptor.accessWidth) :
    descriptor.transferWidth = descriptor.accessWidth := if_neg positive.ne'

/-- **The handles of a register accept its usable widths and no others.** -/
theorem registerAnswers {descriptor : RegisterDescriptor} (positive : 0 < descriptor.accessWidth)
    (within : descriptor.accessWidth ≤ descriptor.width) : RegisterAnswers descriptor where
  narrow short bus h carries same := by
    subst same
    have transfer := transferWidth_of_positive positive
    have data := carries.data
    unfold RegisterHandle.requireSupportedAccess
    rw [transfer]
    constructor
    · rintro ⟨bytes, transferBytes, divides, small⟩
      rw [throwIf_of_not (by omega), ok_bind, throwIf_of_not (by omega), ok_bind]
      unfold throwIf
      split
      · exact .inr ⟨_, List.mem_singleton_self _, rfl⟩
      · exact .inl rfl
    · intro unusable
      by_cases bytes : h.descriptor.width % 8 = 0
      · rw [throwIf_of_not (by omega), ok_bind, throwIf_of]
        · exact ⟨_, by simp, rfl⟩
        · by_contra fine
          push Not at fine
          exact unusable ⟨bytes, fine.2.1, fine.2.2.2.1, by omega⟩
      · rw [throwIf_of (by omega)]
        exact ⟨_, by simp, rfl⟩
  wide long bus h carries same := by
    have transfer := transferWidth_of_positive positive
    have data := carries.data
    unfold WideRegisterHandle.validateAccess
    rw [same, transfer]
    constructor
    · rintro ⟨bytes, transferBytes, divides, small⟩
      rw [throwIf_of_not (by omega), ok_bind]
      unfold throwIf
      split
      · exact .inr ⟨_, List.mem_singleton_self _, rfl⟩
      · exact .inl rfl
    · intro unusable
      rw [throwIf_of]
      · exact ⟨_, List.mem_singleton_self _, rfl⟩
      · by_contra fine
        push Not at fine
        exact unusable ⟨fine.1, fine.2.2.1, fine.2.2.2.1, fine.2.2.2.2.1⟩

/-- **The handles of a memory accept its usable widths and no others.** -/
theorem memoryAnswers {descriptor : RegisterMemoryDescriptor} (positive : 0 < descriptor.accessWidth.toNat)
    (whole : descriptor.width.toNat ≤ 64 → descriptor.accessWidth = descriptor.width) :
    MemoryAnswers descriptor where
  narrow short := by
    have equal := whole short
    refine ⟨equal, fun bus carries => ?_⟩
    have data := carries.data
    rw [equal] at data positive ⊢
    have zero : descriptor.width = 0 ↔ descriptor.width.toNat = 0 := by
      rw [← UInt16.toNat_inj, UInt16.toNat_zero]
    have bytes : descriptor.width % 8 ≠ 0 ↔ descriptor.width.toNat % 8 ≠ 0 := by
      rw [ne_eq, ← UInt16.toNat_inj, UInt16.toNat_mod]
      rfl
    unfold RegisterMemoryHandle.validateElement
    constructor
    · rintro ⟨whole, -, -, small⟩
      refine .inl (throwIf_of_not ?_)
      rw [zero, bytes]
      omega
    · intro unusable
      refine ⟨_, List.mem_singleton_self _, throwIf_of ?_⟩
      rw [zero, bytes]
      by_contra fine
      push Not at fine
      exact unusable ⟨fine.2.1, fine.2.1, Nat.mod_self _, short⟩
  wide long bus carries := by
    have data := carries.data
    have bytes := carries.bytes
    have bus64 := bus.data_le
    unfold WideRegisterMemoryHandle.validateElement
    dsimp only
    constructor
    · rintro ⟨wholeBytes, transferBytes, divides, small⟩
      rw [throwIf_of_not (by omega), ok_bind]
      exact .inl (throwIf_of_not (by omega))
    · intro unusable
      refine ⟨_, List.mem_singleton_self _, ?_⟩
      rw [throwIf_of]
      · rfl
      · by_contra fine
        push Not at fine
        exact unusable ⟨fine.1, fine.2.2.1, fine.2.2.2.2, by omega⟩

end Widths

/-! ### Exports -/

section Exports

/-- What the exporters make sure of. -/
structure Extracted (register : Register) : Prop where
  positive : 0 < register.accessWidth
  within : register.accessWidth ≤ register.width
  inside : ∀ field ∈ register.fields, field.lsb + field.width ≤ register.width
  value : register.resetValue = unionOf Field.resetValue register.fields
  mask : register.resetMask = unionOf Field.resetMask register.fields
  masks : ∀ field ∈ register.fields, field.resetMask < 2 ^ field.width

/-- An exported register: where its address, its width and the resets of its fields have room, it is
denoted by its descriptor, and the handles accept its usable widths and no others. -/
structure RegisterExported (register : Register) : Prop where
  denotes : 0 ≤ register.address → register.address < 2 ^ 64 → register.width < 2 ^ 16 →
    (∀ field ∈ register.fields, field.resetValue < 2 ^ field.width ∧ field.resetValue < 2 ^ 64 ∧
      field.resetMask < 2 ^ 64) →
    ∃ record, (renderRegister register).compile = some record ∧ Denotes record register
  answers : ∀ record, (renderRegister register).compile = some record →
    record.descriptor.width = register.width ∧ record.descriptor.accessWidth = register.accessWidth ∧
      RegisterAnswers record.descriptor

/-- An exported memory: the handles accept its usable widths and no others. -/
structure MemoryExported (memory : Memory) : Prop where
  denotes : 0 ≤ memory.address → memory.address < 2 ^ 64 → memory.entries < 2 ^ 64 →
    memory.width < 2 ^ 16 → ∃ descriptor, (renderMemory memory).compile = some descriptor
  answers : ∀ descriptor, (renderMemory memory).compile = some descriptor →
    descriptor.width.toNat = memory.width ∧ descriptor.accessWidth.toNat = memory.accessWidth ∧
      (descriptor.address.toNat : ℤ) = memory.address ∧ descriptor.entries.toNat = memory.entries ∧
      MemoryAnswers descriptor

theorem Extracted.exported {register : Register} (extracted : Extracted register) :
    RegisterExported register where
  denotes nonnegative small short resets := by
    have representable : Representable register := {
      address := ⟨nonnegative, small⟩
      width := short
      accessWidth := extracted.within
      inside := extracted.inside
      resetValue := extracted.value ▸ unionOf_lt extracted.inside fun field mem => (resets field mem).1
      resetMask := extracted.mask ▸ unionOf_lt extracted.inside extracted.masks
      resets := fun field mem => (resets field mem).2 }
    obtain ⟨record, compiled⟩ := compile_renderRegister representable
    exact ⟨record, compiled, denotes_renderRegister representable compiled⟩
  answers record compiled := by
    obtain ⟨_, width, accessWidth, _, _, _, _, _, widthRead, accessRead, _, _, _, _, _, _, descriptor⟩ :=
      RegisterInit.compile_some compiled
    have widthSame : record.descriptor.width = register.width := by
      rw [descriptor]
      exact Int.ofNat_inj.mp (toNat_of_compile widthRead)
    have accessSame : record.descriptor.accessWidth = register.accessWidth := by
      rw [descriptor]
      exact Int.ofNat_inj.mp (toNat_of_compile accessRead)
    exact ⟨widthSame, accessSame, registerAnswers (by rw [accessSame]; exact extracted.positive)
      (by rw [accessSame, widthSame]; exact extracted.within)⟩

theorem memoryExported {memory : Memory} (positive : 0 < memory.accessWidth)
    (within : memory.accessWidth ≤ memory.width)
    (whole : memory.width ≤ 64 → memory.accessWidth = memory.width) : MemoryExported memory where
  denotes nonnegative small entries short := by
    obtain ⟨number, same⟩ := Int.eq_ofNat_of_zero_le nonnegative
    have addressFits : (renderMemory memory).address.compile 64 = some (BitVec.ofNat 64 number) :=
      compile_of_lt same (by omega)
    unfold MemoryInit.compile
    rw [addressFits, compile_of_lt rfl entries, compile_of_lt rfl short,
      compile_of_lt rfl (within.trans_lt short)]
    exact ⟨_, rfl⟩
  answers descriptor compiled := by
    obtain ⟨address, addressRead, compiled⟩ := Option.bind_eq_some_iff.mp compiled
    obtain ⟨entries, entriesRead, compiled⟩ := Option.bind_eq_some_iff.mp compiled
    obtain ⟨width, widthRead, compiled⟩ := Option.bind_eq_some_iff.mp compiled
    obtain ⟨accessWidth, accessRead, compiled⟩ := Option.bind_eq_some_iff.mp compiled
    obtain rfl := Option.some.inj compiled
    have widthSame : width.toNat = memory.width := Int.ofNat_inj.mp (toNat_of_compile widthRead)
    have accessSame : accessWidth.toNat = memory.accessWidth :=
      Int.ofNat_inj.mp (toNat_of_compile accessRead)
    refine ⟨widthSame, accessSame, toNat_of_compile addressRead,
      Int.ofNat_inj.mp (toNat_of_compile entriesRead), memoryAnswers ?_ fun short => ?_⟩
    · show 0 < accessWidth.toNat
      rw [accessSame]
      exact positive
    · refine UInt16.toNat_inj.mp ?_
      exact accessSame.trans ((whole (widthSame ▸ short)).trans widthSame.symm)

end Exports

end Cpptb.RegisterModel.Codegen
