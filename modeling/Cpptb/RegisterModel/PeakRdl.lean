/-
Register blocks from elaborated SystemRDL trees.

* `BlockNode`: what the compiler reports of a tree.
* `extractRegister`, `extractMemory`, `extractRegisterBlock`: the extraction, with its errors.
* `extractRegister_ok`, `extractMemory_ok`: what is true of what was extracted.
-/

import Cpptb.RegisterModel.Codegen

namespace Cpptb.RegisterModel.PeakRdl

open Cpptb.Vc (RegisterAccess RegisterEndianness)
open Checked (bind_ok_iff)
open Codegen (Field FieldEnumeration Register Memory RegisterBlock inOrder unionOf unionOf_append)
open HdlBackdoor (BackdoorSlice RegisterCodegenError registerBackdoorSlices)

/-! ### Trees -/

section Trees

/-- A `reset` property. -/
inductive Reset where
  | none
  | value (value : ℤ)
  | reference
  deriving DecidableEq, Repr

/-- An `encode` property. -/
structure Encoding where
  typeName : String
  scopePath : String
  members : List (String × ℤ)
  deriving DecidableEq, Repr

/-- A field. The enumerated properties are the names of their values. -/
structure FieldNode where
  instName : String
  path : String
  low : ℕ
  width : ℕ
  reset : Reset := .none
  sw : Option String := some "rw"
  onread : Option String := none
  onwrite : Option String := none
  isVolatile : Bool := false
  encode : Option Encoding := none
  hdlPathSlice : List String := []
  deriving DecidableEq, Repr

/-- A register. The HDL parts are those of the register and its ancestors, the outermost first. -/
structure RegNode where
  instName : String
  path : String
  absoluteAddress : ℕ
  isAlias : Bool := false
  regwidth : ℕ
  accesswidth : ℕ
  fields : List FieldNode
  hdlPath : Option String := none
  hdlParts : List String := []
  deriving DecidableEq, Repr

/-- A memory. -/
structure MemNode where
  instName : String
  path : String
  absoluteAddress : ℕ
  memwidth : ℕ
  mementries : ℕ
  isSwReadable : Bool := true
  isSwWritable : Bool := true
  hdlPathSlice : List String := []
  hdlParts : List String := []
  deriving DecidableEq, Repr

/-- The block of a tree, as `_effective_top` selects it, with its unrolled descendants. -/
structure BlockNode where
  instName : String
  path : String
  registers : List RegNode
  memories : List MemNode := []
  deriving DecidableEq, Repr

/-- `_normalized_path`. -/
def normalizedPath (block : BlockNode) (path : String) : String :=
  let raw := path.toList
  let suffix := (if block.path.toList.isPrefixOf raw then raw.drop block.path.length else raw).dropWhile (· = '.')
  if suffix = [] then block.instName else s!"{block.instName}.{String.ofList suffix}"

end Trees

/-! ### Fields -/

section Fields

/-- `_ACCESS`. -/
def accesses : List (String × RegisterAccess) :=
  [("na", .none), ("r", .readOnly), ("w", .writeOnly), ("rw", .readWrite), ("w1", .writeOnce),
    ("rw1", .readWriteOnce)]

/-- `_READ_EFFECT`. -/
def readEffects : List (String × ReadEffect) :=
  [("", .none), ("rclr", .clear), ("rset", .set), ("ruser", .user)]

/-- `_WRITE_EFFECT`. -/
def writeEffects : List (String × WriteEffect) :=
  [("", .none), ("woset", .writeOneSet), ("woclr", .writeOneClear), ("wot", .writeOneToggle),
    ("wzs", .writeZeroSet), ("wzc", .writeZeroClear), ("wzt", .writeZeroToggle), ("wclr", .clear),
    ("wset", .set), ("wuser", .user)]

/-- `_mapped_property`. -/
def mappedProperty {α : Type} (mapping : List (String × α)) (value : Option String)
    (property path : String) : Except RegisterCodegenError α :=
  match mapping.find? fun entry => entry.1 = value.getD "" with
  | some entry => .ok entry.2
  | none =>
    let rendered := value.getD "None"
    .error s!"{path}: unsupported SystemRDL {property} value {rendered}"

/-- `_integer_reset`: the value and the mask. -/
def integerReset (field : FieldNode) : Except RegisterCodegenError (ℤ × ℕ) :=
  match field.reset with
  | .none => .ok (0, 0)
  | .value value => .ok (value, 1 <<< field.width - 1)
  | .reference =>
    .error s!"{field.path}: reset references are not supported; use an integer reset value"

/-- `_field_enumeration`. -/
def fieldEnumeration (field : FieldNode) (path : String) :
    Except RegisterCodegenError (Option FieldEnumeration) :=
  match field.encode with
  | none => .ok none
  | some encoded =>
    if 64 < field.width then
      .error (s!"{path}: encoded field width {field.width} cannot use the generated C++ enum API; " ++
        "encoded fields are limited to 64 bits")
    else
      match encoded.members.find? fun member => member.2 < 0 ∨ 2 ^ field.width ≤ member.2 with
      | some member =>
        .error (s!"{path}: enum member {member.1}={member.2} does not fit the {field.width}-bit " ++
          "encoded field")
      | none =>
        if encoded.members = [] then .error s!"{path}: encode enum has no members"
        else .ok (some ⟨encoded.typeName, encoded.scopePath, encoded.members⟩)

/-- What the loop over the fields keeps. -/
structure FieldState where
  fields : List Field := []
  resetValue : ℕ := 0
  resetMask : ℕ := 0

/-- One field. `field_reset >> 64` is not zero for negative values and for those of more bits. -/
def addField (block : BlockNode) (state : FieldState) (field : FieldNode) :
    Except RegisterCodegenError FieldState := do
  let path := normalizedPath block field.path
  let (reset, mask) ← integerReset field
  if reset < 0 ∨ 2 ^ 64 ≤ reset ∨ 2 ^ 64 ≤ mask then
    .error s!"{path}: reset metadata for fields wider than 64 bits is not representable"
  else do
    let access ← mappedProperty accesses field.sw "sw" field.path
    let readEffect ← mappedProperty readEffects field.onread "onread" field.path
    let writeEffect ← mappedProperty writeEffects field.onwrite "onwrite" field.path
    let enumeration ← fieldEnumeration field path
    return {
      fields := state.fields ++ [{
        name := field.instName
        path
        lsb := field.low
        width := field.width
        access
        readEffect
        writeEffect
        resetValue := reset.toNat
        resetMask := mask
        volatileValue := field.isVolatile
        enumeration }]
      resetValue := state.resetValue ||| reset.toNat <<< field.low
      resetMask := state.resetMask ||| mask <<< field.low }

end Fields

/-! ### Registers and memories -/

section Blocks

/-- `_require_model_width`. -/
def requireModelWidth (width : ℕ) (path kind : String) : Except RegisterCodegenError Unit :=
  if width = 0 ∨ 0xffff < width then
    .error (s!"{path}: {kind} width {width} cannot be represented by the current {0xffff}-bit " ++
      "descriptor")
  else
    .ok ()

/-- One register. -/
def extractRegister (block : BlockNode) (endianness : RegisterEndianness) (node : RegNode) :
    Except RegisterCodegenError Register := do
  let path := normalizedPath block node.path
  if node.isAlias then
    .error (s!"{path}: SystemRDL register aliases are not yet supported; use a RegisterAddressMap " ++
      "alias explicitly so all views share one logical mirror")
  else do
    requireModelWidth node.regwidth path "register"
    if node.accesswidth = 0 ∨ node.regwidth < node.accesswidth then
      .error s!"{path}: invalid accesswidth {node.accesswidth} for regwidth {node.regwidth}"
    else do
      let state ← node.fields.foldlM (addField block) {}
      let (backdoorSlices, backdoorComplete, fieldSlices) ← registerBackdoorSlices {
        hdlPath := node.hdlPath
        hdlParts := node.hdlParts
        regwidth := node.regwidth
        fields := node.fields.map fun field =>
          ⟨normalizedPath block field.path, field.low, field.width, field.hdlPathSlice⟩ }
      return {
        name := node.instName
        path
        address := node.absoluteAddress
        width := node.regwidth
        accessWidth := node.accesswidth
        endianness
        resetValue := state.resetValue
        resetMask := state.resetMask
        fields := state.fields.mapIdx fun index field =>
          { field with backdoorSlices := fieldSlices.getD index [] }
        backdoorSlices
        backdoorComplete }

/-- `_memory_backdoor_path`. -/
def memoryBackdoorPath (block : BlockNode) (node : MemNode) :
    Except RegisterCodegenError (Option String) :=
  match node.hdlPathSlice with
  | [] => .ok none
  | [path] => .ok (some (HdlBackdoor.joinHdlPath (node.hdlParts ++ [path])))
  | _ => .error (s!"{normalizedPath block node.path}: memory hdl_path_slice must contain one path " ++
      "naming the complete unpacked memory array")

/-- One memory. -/
def extractMemory (block : BlockNode) (node : MemNode) : Except RegisterCodegenError Memory := do
  let path := normalizedPath block node.path
  requireModelWidth node.memwidth path "memory element"
  let access : RegisterAccess :=
    if node.isSwReadable ∧ node.isSwWritable then .readWrite
    else if node.isSwReadable then .readOnly
    else if node.isSwWritable then .writeOnly
    else .none
  let backdoorPath ← memoryBackdoorPath block node
  return {
    name := node.instName
    path
    address := node.absoluteAddress
    entries := node.mementries
    width := node.memwidth
    accessWidth := min node.memwidth 64
    access
    backdoorPath }

/-- The frontdoor endianness of an option. -/
def endiannessOf (endianness : String) : Except RegisterCodegenError RegisterEndianness :=
  if endianness = "little" then .ok .little
  else if endianness = "big" then .ok .big
  else .error s!"unsupported register frontdoor endianness: {endianness}"

/-- `extract_register_block`. -/
def extractRegisterBlock (block : BlockNode) (endianness : String) :
    Except RegisterCodegenError RegisterBlock := do
  let endianness ← endiannessOf endianness
  let registers ← (block.registers.insertionSort fun first second =>
    inOrder (first.absoluteAddress, first.path) (second.absoluteAddress, second.path)).mapM
      (extractRegister block endianness)
  let memories ← (block.memories.insertionSort fun first second =>
    inOrder (first.absoluteAddress, first.path) (second.absoluteAddress, second.path)).mapM
      (extractMemory block)
  return { name := block.instName, registers, memories }

end Blocks

/-! ### What was extracted -/

section Extracted

variable {block : BlockNode}

/-- What the loop over the fields keeps of its state. -/
structure FieldsKept (nodes : List FieldNode) (state : FieldState) : Prop where
  placed : ∀ field ∈ state.fields, ∃ node ∈ nodes, field.lsb = node.low ∧ field.width = node.width
  resetValue : state.resetValue = unionOf Field.resetValue state.fields
  resetMask : state.resetMask = unionOf Field.resetMask state.fields
  masks : ∀ field ∈ state.fields, field.resetMask < 2 ^ field.width

theorem integerReset_mask {field : FieldNode} {reset : ℤ} {mask : ℕ}
    (ok : integerReset field = .ok (reset, mask)) : mask < 2 ^ field.width := by
  have positive := Nat.two_pow_pos field.width
  unfold integerReset at ok
  split at ok
  · obtain ⟨-, rfl⟩ := Prod.mk.inj (Except.ok.inj ok)
    exact positive
  · obtain ⟨-, rfl⟩ := Prod.mk.inj (Except.ok.inj ok)
    rw [Nat.one_shiftLeft]
    omega
  · cases ok

theorem addField_keeps {nodes : List FieldNode} {node : FieldNode} (mem : node ∈ nodes)
    {state state' : FieldState} (kept : FieldsKept nodes state)
    (ok : addField block state node = .ok state') : FieldsKept nodes state' := by
  obtain ⟨⟨reset, mask⟩, read, ok⟩ := bind_ok_iff.mp ok
  dsimp only at ok
  split at ok
  · cases ok
  obtain ⟨access, _, ok⟩ := bind_ok_iff.mp ok
  obtain ⟨readEffect, _, ok⟩ := bind_ok_iff.mp ok
  obtain ⟨writeEffect, _, ok⟩ := bind_ok_iff.mp ok
  obtain ⟨enumeration, _, ok⟩ := bind_ok_iff.mp ok
  obtain rfl := Except.ok.inj ok
  have small := integerReset_mask read
  refine ⟨fun field member => ?_, ?_, ?_, fun field member => ?_⟩
  · rcases List.mem_append.mp member with member | member
    · exact kept.placed field member
    · obtain rfl := List.mem_singleton.mp member
      exact ⟨node, mem, rfl, rfl⟩
  · rw [unionOf_append, ← kept.resetValue]
  · rw [unionOf_append, ← kept.resetMask]
  · rcases List.mem_append.mp member with member | member
    · exact kept.masks field member
    · obtain rfl := List.mem_singleton.mp member
      exact small

/-- A union does not depend on the backdoors. -/
theorem unionOf_backdoors (value : Field → ℕ) (slices : ℕ → List BackdoorSlice)
    (same : ∀ field slices, value { field with backdoorSlices := slices } = value field)
    (fields : List Field) : unionOf value (fields.mapIdx fun index field =>
      { field with backdoorSlices := slices index }) = unionOf value fields := by
  induction fields using List.reverseRecOn with
  | nil => rfl
  | append_singleton fields field ih =>
    rw [List.mapIdx_append, List.mapIdx_singleton, unionOf_append, ih, unionOf_append, same]

theorem requireModelWidth_ok {width : ℕ} {path kind : String}
    (ok : requireModelWidth width path kind = .ok ()) : 0 < width ∧ width ≤ 0xffff := by
  unfold requireModelWidth at ok
  split at ok
  · cases ok
  · omega

/-- **A register that was extracted.** -/
theorem extractRegister_ok {endianness : RegisterEndianness} {node : RegNode} {register : Register}
    (ok : extractRegister block endianness node = .ok register)
    (inside : ∀ field ∈ node.fields, field.low + field.width ≤ node.regwidth) :
    register.width ≤ 0xffff ∧ Codegen.Extracted register := by
  unfold extractRegister at ok
  dsimp only at ok
  split at ok
  · cases ok
  obtain ⟨_, width, ok⟩ := bind_ok_iff.mp ok
  split at ok
  · cases ok
  next access =>
  obtain ⟨state, loop, ok⟩ := bind_ok_iff.mp ok
  obtain ⟨⟨backdoorSlices, complete, fieldSlices⟩, _, ok⟩ := bind_ok_iff.mp ok
  obtain rfl := Except.ok.inj ok
  have kept : FieldsKept node.fields state := Checked.foldlM_keeps
    (fun _ mem _ _ kept step => addField_keeps mem kept step)
    ⟨fun _ mem => absurd mem List.not_mem_nil, rfl, rfl, fun _ mem => absurd mem List.not_mem_nil⟩ loop
  have short := requireModelWidth_ok width
  refine ⟨short.2, {
    positive := ?_
    within := ?_
    inside := fun field mem => ?_
    value := ?_
    mask := ?_
    masks := fun field mem => ?_ }⟩
  · dsimp only
    omega
  · dsimp only
    omega
  · obtain ⟨index, below, rfl⟩ := List.mem_mapIdx.mp mem
    obtain ⟨node', mem', lsb, width⟩ := kept.placed _ (List.getElem_mem below)
    have := inside node' mem'
    dsimp only
    omega
  · exact kept.resetValue.trans (unionOf_backdoors _ (fun index => fieldSlices.getD index [])
      (fun _ _ => rfl) _).symm
  · exact kept.resetMask.trans (unionOf_backdoors _ (fun index => fieldSlices.getD index [])
      (fun _ _ => rfl) _).symm
  · obtain ⟨index, below, rfl⟩ := List.mem_mapIdx.mp mem
    exact kept.masks state.fields[index] (List.getElem_mem below)

/-- **A memory that was extracted.** -/
theorem extractMemory_ok {node : MemNode} {memory : Memory}
    (ok : extractMemory block node = .ok memory) :
    0 < memory.width ∧ memory.width ≤ 0xffff ∧ memory.accessWidth = min memory.width 64 := by
  obtain ⟨_, width, ok⟩ := bind_ok_iff.mp ok
  obtain ⟨backdoorPath, _, ok⟩ := bind_ok_iff.mp ok
  obtain rfl := Except.ok.inj ok
  have short := requireModelWidth_ok width
  exact ⟨short.1, short.2, rfl⟩

end Extracted

end Cpptb.RegisterModel.PeakRdl
