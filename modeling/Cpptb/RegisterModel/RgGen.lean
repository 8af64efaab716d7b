/-
Register blocks from RgGen documents.

* `Value`: the documents, as they are loaded.
* `structureOf`, `childrenOf`: mappings and sequences.
* `arraySpec`, `arrayIndices`: arrays and their steps.
* `extractFields`: the fields of a register.
* `walk`: the registers, register files and memories of a container.
* `extractRgGenBlock`: a block of a document.
* `extractRgGenBlock_nested`: no document is nested too deeply.
-/

import Cpptb.Lib.Checked
import Cpptb.RegisterModel.Codegen

namespace Cpptb.RegisterModel.RgGen

open Cpptb.Vc (RegisterAccess)
open HdlBackdoor (BackdoorSlice)
open Codegen (Field Register Memory RegisterBlock inOrder)
open Checked (Avoids bind_ok_iff forall₂_of_mapM_ok)

/-! ### Documents -/

section Documents

/-- A loaded document. `other` stands for the remaining scalars, as `str` shows them. -/
inductive Value where
  | null
  | bool (value : Bool)
  | int (value : ℤ)
  | str (text : String)
  | other (text : String) (truthy : Bool)
  | list (items : List Value)
  | map (entries : List (String × Value))

/-- A mapping in the order of its keys. -/
abbrev Mapping := List (String × Value)

namespace Mapping

variable (mapping : Mapping)

def get? (key : String) : Option Value := (mapping.find? fun entry => entry.1 = key).map Prod.snd

def contains (key : String) : Bool := mapping.any fun entry => entry.1 = key

/-- `mapping[key] = value`: a key keeps its place. -/
def set (key : String) (value : Value) : Mapping :=
  if Mapping.contains mapping key then
    mapping.map fun entry => if entry.1 = key then (key, value) else entry
  else
    mapping ++ [(key, value)]

end Mapping

/-- The truth of a value. -/
def Value.truthy : Value → Bool
  | null => false
  | bool value => value
  | int value => value ≠ 0
  | str text => text ≠ ""
  | other _ truthy => truthy
  | list items => !items.isEmpty
  | map entries => !entries.isEmpty

/-- Why a document is not accepted: an `RgGenCodegenError`, or a nesting beyond the bound of the walk,
which `extractRgGenBlock_nested` excludes. -/
inductive Failure where
  | codegen (text : String)
  | nesting
  deriving DecidableEq, Repr

abbrev Result (α : Type) : Type := Except Failure α

/-- `_fail`. -/
def fail {α : Type} (path message : String) : Result α := .error (.codegen s!"{path}: {message}")

/-- `str` of a value, over the `repr` of the containers. -/
def Value.text (pyRepr : Value → String) : Value → String
  | null => "None"
  | bool true => "True"
  | bool false => "False"
  | int value => toString value
  | str text => text
  | other text _ => text
  | list items => pyRepr (list items)
  | map entries => pyRepr (map entries)

/-- `str(value or default)`, where a missing value is `None`. -/
def textOr (pyRepr : Value → String) (value : Option Value) (default : String) : String :=
  match value with
  | some value => if value.truthy then value.text pyRepr else default
  | none => default

end Documents

/-! ### Integers -/

section Integers

def digitOf (character : Char) : Option ℕ :=
  if '0' ≤ character ∧ character ≤ '9' then some (character.toNat - '0'.toNat)
  else if 'a' ≤ character ∧ character ≤ 'f' then some (character.toNat - 'a'.toNat + 10)
  else if 'A' ≤ character ∧ character ≤ 'F' then some (character.toNat - 'A'.toNat + 10)
  else none

def digitsOf (base : ℕ) (text : List Char) : Option ℕ :=
  if text = [] then none
  else text.foldlM (fun value character => do
    let digit ← digitOf character
    if digit < base then some (value * base + digit) else none) 0

/-- The magnitude of `int(text, 0)`: decimal numbers have no leading zeros. -/
def magnitudeOf : List Char → Option ℕ
  | '0' :: 'x' :: digits | '0' :: 'X' :: digits => digitsOf 16 digits
  | '0' :: 'o' :: digits | '0' :: 'O' :: digits => digitsOf 8 digits
  | '0' :: 'b' :: digits | '0' :: 'B' :: digits => digitsOf 2 digits
  | '0' :: digits => if digits.all (· = '0') then some 0 else none
  | digits => digitsOf 10 digits

/-- `int(text.replace("_", ""), 0)`. -/
def parseInteger (text : String) : Option ℤ :=
  let plain := text.toList.filter (· ≠ '_')
  let trimmed := ((plain.dropWhile Char.isWhitespace).reverse.dropWhile Char.isWhitespace).reverse
  match trimmed with
  | '-' :: digits => (magnitudeOf digits).map fun value => -(value : ℤ)
  | '+' :: digits => (magnitudeOf digits).map Int.ofNat
  | digits => (magnitudeOf digits).map Int.ofNat

/-- A mapping stands for its default. -/
def defaultOf : Value → Value
  | .map entries => (Mapping.get? entries "default").getD (.map entries)
  | value => value

/-- `_integer`. -/
def integer (pyRepr : Value → String) (value : Value) (path what : String) : Result ℤ :=
  match defaultOf value with
  | .bool _ => fail path s!"RgGen {what} must be an integer"
  | .int value => .ok value
  | .str text =>
    match parseInteger text with
    | some value => .ok value
    | none => fail path (s!"unsupported RgGen {what} value " ++ pyRepr (.str text))
  | value => fail path (s!"unsupported RgGen {what} value " ++ pyRepr value)

end Integers

/-! ### Mappings and sequences -/

section Structures

def groupedKeys : List String :=
  ["register", "registers", "register_file", "register_files", "bit_field", "bit_fields"]

/-- `result.setdefault(plural, []).extend(values)`. -/
def extend (result : Mapping) (plural : String) (values : List Value) : Mapping :=
  match result.get? plural with
  | some (.list before) => result.set plural (.list (before ++ values))
  | _ => result.set plural (.list values)

/-- One entry of an item of a sequence. -/
def addEntry (result : Mapping) (entry : String × Value) : Mapping :=
  let (key, child) := entry
  if key ∈ groupedKeys then
    let plural := if key.endsWith "s" then key else key ++ "s"
    let values := match child with
      | .list items => if key.endsWith "s" then items else [child]
      | _ => [child]
    extend result plural values
  else
    result.set key child

/-- `_structure`. -/
def structureOf (value : Value) (path : String) : Result Mapping :=
  match value with
  | .map entries => .ok entries
  | .list items => items.foldlM (fun result item =>
      match item with
      | .map entries => .ok (entries.foldl addEntry result)
      | _ => fail path "RgGen structure sequence contains a non-mapping item") []
  | _ => fail path "RgGen structure must be a mapping or sequence"

/-- The values under the singular and the plural of a name. -/
def childValues (node : Mapping) (singular : String) : List Value :=
  (node.get? singular).toList ++
    match node.get? (singular ++ "s") with
    | some (.list items) => items
    | some value => [value]
    | none => []

/-- `_children`. -/
def childrenOf (node : Mapping) (singular path : String) : Result (List Mapping) :=
  ((childValues node singular).mapIdx fun index value => (index, value)).mapM fun (index, value) =>
    structureOf value s!"{path}.{singular}[{index}]"

/-- `_root_blocks`. -/
def rootBlocks : Value → Result (List Mapping)
  | .map entries => childrenOf entries "register_block" "<root>"
  | .list items => do
    let blocks ← (items.mapIdx fun index item => (index, item)).mapM fun (index, item) =>
      match item with
      | .map entries => childrenOf entries "register_block" "<root>"
      | _ => fail "<root>" s!"item {index} is not a mapping"
    return blocks.flatten
  | _ => fail "<root>" "RgGen document must contain register_block metadata"

end Structures

/-! ### Arrays -/

section Arrays

variable (pyRepr : Value → String)

/-- One item of a size: a dimension, or the step. -/
def addSizeItem (path : String) (sizes : List ℤ × Option ℤ) (item : Value) :
    Result (List ℤ × Option ℤ) := do
  let (dimensions, step) := sizes
  match item with
  | .map entries =>
    if Mapping.contains entries "step" then
      if entries.length ≠ 1 ∨ step.isSome then
        fail path "RgGen size has malformed or duplicate step metadata"
      else
        let step ← integer pyRepr ((Mapping.get? entries "step").getD .null) path "size.step"
        return (dimensions, some step)
    else
      return (dimensions ++ [← integer pyRepr item path "size"], step)
  | item => return (dimensions ++ [← integer pyRepr item path "size"], step)

/-- `_array_spec`: the dimensions, which are positive, and the step. -/
def arraySpec (value : Option Value) (path : String) : Result (List ℕ × Option ℤ) := do
  match value with
  | none | some .null => return ([1], none)
  | some value =>
    let items := match value with
      | .list items => items
      | value => [value]
    let (dimensions, step) ← items.foldlM (addSizeItem pyRepr path) ([], none)
    if dimensions = [] ∨ ∃ size ∈ dimensions, size ≤ 0 then
      fail path "RgGen size dimensions must be greater than zero"
    else if ∃ size ∈ step, size ≤ 0 then
      fail path "RgGen size step must be greater than zero"
    else
      return (dimensions.map Int.toNat, step)

/-- `_array_indices`. -/
def arrayIndices : List ℕ → List (List ℕ)
  | [] => [[]]
  | size :: dimensions =>
    (List.range size).flatMap fun index => (arrayIndices dimensions).map (index :: ·)

/-- `_indexed_name`. -/
def indexedName (name : String) (indices dimensions : List ℕ) : String :=
  if dimensions.prod = 1 then name
  else name ++ String.join (indices.map fun index => s!"[{index}]")

end Arrays

/-! ### Fields -/

section Fields

variable (pyRepr : Value → String)

/-- `_FIELD_TYPES`, with `_ACCESS`, `_READ_EFFECT` and `_WRITE_EFFECT`. -/
def fieldTypes : List (String × RegisterAccess × ReadEffect × WriteEffect × Bool) :=
  [("rw", .readWrite, .none, .none, false),
    ("rwtrg", .readWrite, .none, .none, false),
    ("ro", .readOnly, .none, .none, true),
    ("rotrg", .readOnly, .none, .none, true),
    ("rof", .readOnly, .none, .none, false),
    ("rohw", .readOnly, .none, .none, true),
    ("wo", .writeOnly, .none, .none, false),
    ("wotrg", .writeOnly, .none, .none, false),
    ("w1trg", .writeOnly, .none, .none, false),
    ("w0trg", .writeOnly, .none, .none, false),
    ("wrc", .readWrite, .clear, .none, false),
    ("wrs", .readWrite, .set, .none, false),
    ("w0s", .readWrite, .none, .writeZeroSet, false),
    ("w1s", .readWrite, .none, .writeOneSet, false),
    ("ws", .readWrite, .none, .set, false),
    ("wos", .writeOnly, .none, .set, false),
    ("w0c", .readWrite, .none, .writeZeroClear, false),
    ("w1c", .readWrite, .none, .writeOneClear, false),
    ("wc", .readWrite, .none, .clear, false),
    ("woc", .writeOnly, .none, .clear, false),
    ("w0t", .readWrite, .none, .writeZeroToggle, false),
    ("w1t", .readWrite, .none, .writeOneToggle, false),
    ("rwc", .readWrite, .none, .none, true),
    ("rws", .readWrite, .none, .none, true),
    ("rwe", .readWrite, .none, .none, true)]

/-- The first item of a list, or the value itself. -/
def firstOf : Option Value → Option Value
  | some (.list (item :: _)) => some item
  | value => value

/-- `_field_type`. -/
def fieldType (value : Option Value) (path : String) :
    Result (RegisterAccess × ReadEffect × WriteEffect × Bool) :=
  let name := textOr pyRepr (firstOf value) "rw"
  match fieldTypes.find? fun entry => entry.1 = name with
  | some entry => .ok entry.2
  | none => fail path ("unsupported RgGen bit field type " ++ pyRepr (.str name))

/-- `_reset_value`. -/
def initialValue (value : Option Value) (path : String) (index : ℕ) : Result (ℤ × Bool) := do
  match value with
  | none | some .null => return (0, false)
  | some (.list items) =>
    match items[index]? with
    | some item => return (← integer pyRepr item path "initial_value", true)
    | none => fail path "RgGen initial_value array is shorter than the field sequence"
  | some value => return (← integer pyRepr value path "initial_value", true)

/-- What the loops over the fields keep. -/
structure FieldState where
  fields : List Field := []
  resetValue : ℕ := 0
  resetMask : ℕ := 0
  registerSlices : List BackdoorSlice := []
  nextLsb : ℤ := 0
  occupiedMask : ℕ := 0

/-- A bit assignment, with what is the same for a whole sequence of fields. -/
structure FieldSequence where
  lsb : ℤ
  width : ℕ
  size : ℕ
  step : ℤ
  name : String
  access : RegisterAccess
  readEffect : ReadEffect
  writeEffect : WriteEffect
  volatileValue : Bool
  initial : Option Value
  hdlPath : Option Value

/-- The bit assignment of a field. -/
def fieldSequence (rawField : Mapping) (registerPath registerName : String) (nextLsb : ℤ) :
    Result FieldSequence :=
  match rawField.get? "bit_assignment" with
  | some (.map assignment) => do
    let lsb ← integer pyRepr ((Mapping.get? assignment "lsb").getD (.int nextLsb)) registerPath
      "bit_assignment.lsb"
    let width ← integer pyRepr ((Mapping.get? assignment "width").getD (.int 1)) registerPath
      "bit_assignment.width"
    let size ← integer pyRepr ((Mapping.get? assignment "sequence_size").getD (.int 1)) registerPath
      "bit_assignment.sequence_size"
    let step ← integer pyRepr ((Mapping.get? assignment "step").getD (.int width)) registerPath
      "bit_assignment.step"
    if width ≤ 0 ∨ size ≤ 0 ∨ step ≤ 0 then
      fail registerPath "RgGen bit assignment values must be greater than zero"
    else do
      let name := textOr pyRepr (rawField.get? "name") registerName
      let (access, readEffect, writeEffect, volatileValue) ←
        fieldType pyRepr (rawField.get? "type") s!"{registerPath}.{name}"
      return {
        lsb, step, name, access, readEffect, writeEffect, volatileValue
        width := width.toNat
        size := size.toNat
        initial := rawField.get? "initial_value"
        hdlPath := rawField.get? "cpptb_hdl_path" }
  | _ => fail registerPath "RgGen bit field is missing bit_assignment"

/-- A HDL path, unless it is missing or empty. -/
def hdlPathOf (value : Option Value) : Option String :=
  value.bind fun value => if value.truthy then some (value.text pyRepr) else none

/-- The slices of a field: in the HDL path of its register, or in its own. -/
def slicesOf (registerHdlPath fieldHdlPath : Option String) (lsb width : ℕ) : List BackdoorSlice :=
  match registerHdlPath, fieldHdlPath with
  | some path, _ => [⟨path, lsb, width⟩]
  | none, some path => [⟨path, lsb, width⟩]
  | none, none => []

/-- One field of a sequence. `initial & ~mask` is not zero for the negative values and those of more
bits. -/
def addField (registerPath : String) (registerHdlPath : Option String) (width : ℕ)
    (sequence : FieldSequence) (state : FieldState) (sequenceIndex : ℕ) : Result FieldState := do
  let selectedLsb := sequence.lsb + sequenceIndex * sequence.step
  let fieldName :=
    if sequence.size = 1 then sequence.name else s!"{sequence.name}[{sequenceIndex}]"
  let fieldPath := s!"{registerPath}.{fieldName}"
  if selectedLsb < 0 ∨ selectedLsb + sequence.width > width then
    fail fieldPath "RgGen bit assignment exceeds the register width"
  else do
    let (initial, hasReset) ← initialValue pyRepr sequence.initial fieldPath sequenceIndex
    let lsb := selectedLsb.toNat
    let mask := 2 ^ sequence.width - 1
    let positionedMask := mask <<< lsb
    if state.occupiedMask &&& positionedMask ≠ 0 then
      fail fieldPath "RgGen bit assignment overlaps another bit field"
    else if initial < 0 ∨ 2 ^ sequence.width ≤ initial then
      fail fieldPath "RgGen initial_value does not fit the bit field"
    else
      let slices := slicesOf registerHdlPath (hdlPathOf pyRepr sequence.hdlPath) lsb sequence.width
      return {
        state with
        fields := state.fields ++ [{
          name := fieldName
          path := fieldPath
          lsb
          width := sequence.width
          access := sequence.access
          readEffect := sequence.readEffect
          writeEffect := sequence.writeEffect
          resetValue := initial.toNat
          resetMask := if hasReset then mask else 0
          volatileValue := sequence.volatileValue
          backdoorSlices := slices }]
        resetValue := state.resetValue ||| (initial.toNat <<< lsb)
        resetMask := if hasReset then state.resetMask ||| positionedMask else state.resetMask
        registerSlices :=
          if registerHdlPath.isSome then state.registerSlices else state.registerSlices ++ slices
        occupiedMask := state.occupiedMask ||| positionedMask }

/-- One `bit_field` of a document. -/
def addSequence (registerPath registerName : String) (registerHdlPath : Option String) (width : ℕ)
    (state : FieldState) (rawField : Mapping) : Result FieldState := do
  let sequence ← fieldSequence pyRepr rawField registerPath registerName state.nextLsb
  let state ← (List.range sequence.size).foldlM
    (addField pyRepr registerPath registerHdlPath width sequence) state
  return { state with nextLsb := max state.nextLsb (sequence.lsb + sequence.size * sequence.step) }

/-- What `_extract_fields` returns. -/
structure ExtractedFields where
  fields : List Field
  resetValue : ℕ
  resetMask : ℕ
  backdoorSlices : List BackdoorSlice
  backdoorComplete : Bool
  deriving DecidableEq, Repr

/-- `_extract_fields`. -/
def extractFields (node : Mapping) (registerPath registerName : String) (width : ℕ) :
    Result ExtractedFields := do
  let registerHdlPath := hdlPathOf pyRepr (node.get? "cpptb_hdl_path")
  let state ← (← childrenOf node "bit_field" registerPath).foldlM
    (addSequence pyRepr registerPath registerName registerHdlPath width) {}
  return {
    fields := state.fields
    resetValue := state.resetValue
    resetMask := state.resetMask
    backdoorSlices := match registerHdlPath with
      | some path => [⟨path, 0, width⟩]
      | none => state.registerSlices
    backdoorComplete := registerHdlPath.isSome ||
      (!state.fields.isEmpty && state.fields.all fun field => !field.backdoorSlices.isEmpty) }

end Fields

/-! ### Registers -/

section Registers

variable (pyRepr : Value → String)

/-- What the walk has found, and the end of what it has placed. -/
structure Found where
  registers : List Register := []
  memories : List Memory := []
  cursor : ℤ := 0

/-- `_register_type`. -/
def registerType (value : Option Value) (path : String) : Result String :=
  let name := textOr pyRepr (firstOf value) "default"
  if name = "indirect" then
    fail path "RgGen indirect register selection is not yet representable"
  else if name ∉ ["default", "rw", "external"] then
    fail path ("unsupported RgGen register type " ++ pyRepr (.str name))
  else
    .ok name

/-- Where a register or a register file is placed. -/
structure Placement where
  offset : ℤ
  dimensions : List ℕ
  step : Option ℤ
  deriving DecidableEq, Repr

/-- The offset, the dimensions and the step of a register. -/
def registerPlacement (raw : Mapping) (registerPath : String) (cursor : ℤ) (registerBytes : ℕ) :
    Result (ℤ × List ℕ × ℤ) := do
  let offset ← integer pyRepr ((raw.get? "offset_address").getD (.int cursor)) registerPath
    "offset_address"
  let (dimensions, sizeStep) ← arraySpec pyRepr (raw.get? "size") registerPath
  let step ← integer pyRepr ((raw.get? "step").getD (.int (sizeStep.getD registerBytes))) registerPath
    "step"
  if offset < 0 ∨ step ≤ 0 then
    fail registerPath
      "RgGen register offset must be non-negative and step must be positive"
  else
    return (offset, dimensions, step)

/-- The register of one element. -/
def elementRegister (busWidth : ℕ) (raw : Mapping) (path rawName : String) (dimensions : List ℕ)
    (address : ℤ) (indices : List ℕ) : Result Register := do
  let selectedName := indexedName rawName indices dimensions
  let selectedPath := s!"{path}.{selectedName}"
  let extracted ← extractFields pyRepr raw selectedPath selectedName busWidth
  return {
    name := selectedName
    path := selectedPath
    address
    width := busWidth
    accessWidth := busWidth
    resetValue := extracted.resetValue
    resetMask := extracted.resetMask
    fields := extracted.fields
    backdoorSlices := extracted.backdoorSlices
    backdoorComplete := extracted.backdoorComplete }

/-- One `register` of a container. -/
def addRegister (busWidth : ℕ) (path : String) (baseAddress : ℤ) (found : Found) (raw : Mapping) :
    Result Found := do
  let rawName := textOr pyRepr (raw.get? "name") ""
  let shown := if rawName = "" then "<unnamed>" else rawName
  let registerPath := s!"{path}.{shown}"
  if rawName = "" then
    fail registerPath "RgGen register has no name"
  else do
    let type ← registerType pyRepr (raw.get? "type") registerPath
    let (offset, dimensions, step) ←
      registerPlacement pyRepr raw registerPath found.cursor (busWidth / 8)
    let count := dimensions.prod
    let rawFields ← childrenOf raw "bit_field" registerPath
    let cursor := max found.cursor (offset + count * step)
    if type = "external" ∧ rawFields = [] ∧ 1 < count then
      return {
        found with
        memories := found.memories ++ [{
          name := rawName
          path := registerPath
          address := baseAddress + offset
          entries := count
          width := busWidth
          accessWidth := busWidth
          access := .readWrite
          backdoorPath := hdlPathOf pyRepr (raw.get? "cpptb_hdl_path") }]
        cursor }
    else do
      let registers ← ((arrayIndices dimensions).mapIdx fun linearIndex indices =>
        (linearIndex, indices)).mapM fun (linearIndex, indices) =>
          elementRegister pyRepr busWidth raw path rawName dimensions
            (baseAddress + offset + linearIndex * step) indices
      return { found with registers := found.registers ++ registers, cursor }

/-- One `register_file` of a container, over the walk of its elements. -/
def addFile (walk : Mapping → String → ℤ → Result Found) (path : String) (baseAddress : ℤ)
    (found : Found) (rawFile : Mapping) : Result Found := do
  let fileName := textOr pyRepr (rawFile.get? "name") ""
  let shown := if fileName = "" then "<unnamed>" else fileName
  let filePath := s!"{path}.{shown}"
  if fileName = "" then
    fail filePath "RgGen register file has no name"
  else do
    let offset ← integer pyRepr ((rawFile.get? "offset_address").getD (.int found.cursor)) filePath
      "offset_address"
    let (dimensions, sizeStep) ← arraySpec pyRepr (rawFile.get? "size") filePath
    let elementAt (indices : List ℕ) (address : ℤ) : Result Found :=
      walk rawFile s!"{path}.{indexedName fileName indices dimensions}" address
    match arrayIndices dimensions with
    | [] => return found
    | first :: others => do
      let element ← elementAt first (baseAddress + offset)
      let firstSpan := element.cursor
      let explicitStep := (rawFile.get? "step").getD ((sizeStep.map Value.int).getD .null)
      let stride ← match explicitStep with
        | .null => Except.ok firstSpan
        | step => integer pyRepr step filePath "step"
      if stride ≤ 0 then
        fail filePath "RgGen arrayed register file has no address span"
      else if stride < firstSpan then
        fail filePath "RgGen register file step overlaps an array element"
      else do
        let elements ← (others.mapIdx fun index indices => (index + 1, indices)).mapM
          fun (linearIndex, indices) =>
            elementAt indices (baseAddress + offset + linearIndex * stride)
        return {
          registers := found.registers ++ element.registers ++ elements.flatMap Found.registers
          memories := found.memories ++ element.memories ++ elements.flatMap Found.memories
          cursor := max found.cursor (offset + others.length * stride + firstSpan) }

/-- `walk`, for containers nested up to a depth. -/
def walk (busWidth : ℕ) : ℕ → Mapping → String → ℤ → Result Found
  | 0, _, _, _ => .error .nesting
  | depth + 1, container, path, baseAddress => do
    let found ← (← childrenOf container "register" path).foldlM
      (addRegister pyRepr busWidth path baseAddress) {}
    (← childrenOf container "register_file" path).foldlM
      (addFile pyRepr (walk busWidth depth) path baseAddress) found

end Registers

/-! ### Blocks -/

section Blocks

variable (pyRepr : Value → String)

mutual

/-- How deep a value is nested. -/
def Value.depth : Value → ℕ
  | .list items => depthOfItems items + 1
  | .map entries => depthOfEntries entries + 1
  | _ => 0

def depthOfItems : List Value → ℕ
  | [] => 0
  | item :: items => max item.depth (depthOfItems items)

def depthOfEntries : List (String × Value) → ℕ
  | [] => 0
  | (_, value) :: entries => max value.depth (depthOfEntries entries)

end

/-- The block a document is read as, and its name. -/
def selectBlock (document : Value) (blockName : Option String) : Result (Mapping × String) := do
  let blocks ← rootBlocks document
  let nameOf (block : Mapping) (missing : Value) : String := ((block.get? "name").getD missing).text pyRepr
  let selected := match blockName with
    | some name => blocks.filter fun block => nameOf block .null = name
    | none => blocks
  match selected with
  | [root] =>
    let name := textOr pyRepr (root.get? "name") ""
    if name = "" then fail "<root>" "RgGen register block has no name" else return (root, name)
  | blocks =>
    let names := ", ".intercalate (blocks.map fun block => nameOf block (.str "<unnamed>"))
    fail "<root>" ("select exactly one RgGen register block with --block" ++
      if names = "" then "" else s!"; available blocks: {names}")

/-- `extract_rggen_block`. -/
def extractRgGenBlock (document : Value) (blockName : Option String) : Result RegisterBlock := do
  let (root, name) ← selectBlock pyRepr document blockName
  let busWidth ← integer pyRepr ((root.get? "bus_width").getD (.int 32)) name "bus_width"
  if busWidth ≤ 0 ∨ busWidth % 8 ≠ 0 then
    fail name "RgGen bus_width must be a positive multiple of eight"
  else do
    let found ← walk pyRepr busWidth.toNat (document.depth + 1) root name 0
    return {
      name
      registers := found.registers.insertionSort fun first second =>
        inOrder (first.address, first.path) (second.address, second.path)
      memories := found.memories.insertionSort fun first second =>
        inOrder (first.address, first.path) (second.address, second.path) }

end Blocks

/-! ### Nesting -/

section Nesting

theorem depth_le_of_mem {item : Value} {items : List Value} (mem : item ∈ items) :
    item.depth ≤ depthOfItems items := by
  induction items with
  | nil => exact absurd mem List.not_mem_nil
  | cons head tail ih =>
    rw [depthOfItems]
    rcases List.mem_cons.mp mem with rfl | mem
    · exact le_max_left _ _
    · exact (ih mem).trans (le_max_right _ _)

theorem depthOfItems_le {items : List Value} {bound : ℕ}
    (each : ∀ item ∈ items, item.depth ≤ bound) : depthOfItems items ≤ bound := by
  induction items with
  | nil => exact Nat.zero_le _
  | cons head tail ih =>
    rw [depthOfItems]
    exact max_le (each head List.mem_cons_self)
      (ih fun item mem => each item (List.mem_cons_of_mem _ mem))

theorem depth_le_of_entry {entry : String × Value} {entries : Mapping} (mem : entry ∈ entries) :
    entry.2.depth ≤ depthOfEntries entries := by
  induction entries with
  | nil => exact absurd mem List.not_mem_nil
  | cons head tail ih =>
    rw [depthOfEntries]
    rcases List.mem_cons.mp mem with rfl | mem
    · exact le_max_left _ _
    · exact (ih mem).trans (le_max_right _ _)

theorem depthOfEntries_le {entries : Mapping} {bound : ℕ}
    (each : ∀ entry ∈ entries, entry.2.depth ≤ bound) : depthOfEntries entries ≤ bound := by
  induction entries with
  | nil => exact Nat.zero_le _
  | cons head tail ih =>
    rw [depthOfEntries]
    exact max_le (each head List.mem_cons_self)
      (ih fun entry mem => each entry (List.mem_cons_of_mem _ mem))

theorem depth_le_of_get? {mapping : Mapping} {key : String} {value : Value}
    (found : mapping.get? key = some value) : value.depth ≤ depthOfEntries mapping := by
  obtain ⟨entry, hit, rfl⟩ := Option.map_eq_some_iff.mp found
  exact depth_le_of_entry (List.mem_of_find?_eq_some hit)

theorem depthOfEntries_set {mapping : Mapping} {key : String} {value : Value} {bound : ℕ}
    (before : depthOfEntries mapping ≤ bound) (fits : value.depth ≤ bound) :
    depthOfEntries (mapping.set key value) ≤ bound := by
  have each : ∀ entry ∈ mapping, entry.2.depth ≤ bound :=
    fun entry mem => (depth_le_of_entry mem).trans before
  refine depthOfEntries_le fun entry mem => ?_
  unfold Mapping.set at mem
  split at mem
  · obtain ⟨entry', mem', rfl⟩ := List.mem_map.mp mem
    split
    · exact fits
    · exact each entry' mem'
  · rcases List.mem_append.mp mem with mem | mem
    · exact each entry mem
    · obtain rfl := List.mem_singleton.mp mem
      exact fits

theorem depthOfEntries_extend {result : Mapping} {plural : String} {values : List Value} {bound : ℕ}
    (before : depthOfEntries result ≤ bound) (fits : ∀ value ∈ values, value.depth + 1 ≤ bound)
    (positive : 1 ≤ bound) : depthOfEntries (extend result plural values) ≤ bound := by
  have listed : ∀ values : List Value, (∀ value ∈ values, value.depth + 1 ≤ bound) →
      (Value.list values).depth ≤ bound := by
    intro values fits
    rw [Value.depth]
    have := @depthOfItems_le _ (bound - 1) fun value mem => by have := fits value mem; omega
    omega
  unfold extend
  split
  · next items found =>
    have inner := (depth_le_of_get? found).trans before
    rw [Value.depth] at inner
    refine depthOfEntries_set before (listed _ fun value mem => ?_)
    rcases List.mem_append.mp mem with mem | mem
    · have := depth_le_of_mem mem
      omega
    · exact fits value mem
  · exact depthOfEntries_set before (listed _ fits)

theorem depthOfEntries_addEntry {result : Mapping} {entry : String × Value} {bound : ℕ}
    (before : depthOfEntries result ≤ bound) (fits : entry.2.depth + 1 ≤ bound) :
    depthOfEntries (addEntry result entry) ≤ bound := by
  obtain ⟨key, child⟩ := entry
  dsimp only at fits
  unfold addEntry
  dsimp only
  split
  · refine depthOfEntries_extend before (fun value mem => ?_) (by omega)
    have single : value ∈ [child] → value.depth + 1 ≤ bound := fun mem => by
      obtain rfl := List.mem_singleton.mp mem
      exact fits
    split at mem
    · next items =>
      split at mem
      · have := depth_le_of_mem mem
        rw [Value.depth] at fits
        omega
      · exact single mem
    · exact single mem
  · exact depthOfEntries_set before (by omega)

/-- What a structure holds is nested less deeply than its value. -/
theorem depthOfEntries_structureOf {value : Value} {path : String} {entries : Mapping}
    (read : structureOf value path = .ok entries) : depthOfEntries entries + 1 ≤ value.depth := by
  unfold structureOf at read
  split at read
  · obtain rfl := Except.ok.inj read
    rw [Value.depth]
  · next items =>
    rw [Value.depth]
    refine Nat.succ_le_succ (Checked.foldlM_keeps
      (I := fun result => depthOfEntries result ≤ depthOfItems items) ?_ (Nat.zero_le _) read)
    intro item mem result result' before step
    have inner := depth_le_of_mem mem
    split at step
    · next entries' =>
      obtain rfl := Except.ok.inj step
      rw [Value.depth] at inner
      clear read mem step
      have each : ∀ entry ∈ entries', entry.2.depth + 1 ≤ depthOfItems items :=
        fun entry mem => by have := depth_le_of_entry mem; omega
      clear inner
      induction entries' generalizing result with
      | nil => exact before
      | cons head tail ih =>
        exact ih _ (depthOfEntries_addEntry before (each head List.mem_cons_self))
          fun entry mem => each entry (List.mem_cons_of_mem _ mem)
    · cases step
  · cases read

theorem depth_childValues {node : Mapping} {singular : String} {value : Value}
    (mem : value ∈ childValues node singular) : value.depth ≤ depthOfEntries node := by
  unfold childValues at mem
  rcases List.mem_append.mp mem with mem | mem
  · exact depth_le_of_get? (Option.mem_toList.mp mem)
  · split at mem
    · next items found =>
      have outer := depth_le_of_get? found
      have := depth_le_of_mem mem
      rw [Value.depth] at outer
      omega
    · next value' found =>
      obtain rfl := List.mem_singleton.mp mem
      exact depth_le_of_get? found
    · exact absurd mem List.not_mem_nil

/-- The children of a node, each the structure of its value. -/
theorem childrenOf_ok {node : Mapping} {singular path : String} {children : List Mapping}
    (read : childrenOf node singular path = .ok children) :
    List.Forall₂ (fun value child => ∃ path, structureOf value path = .ok child)
      (childValues node singular) children :=
  (Checked.forall₂_of_numbered (forall₂_of_mapM_ok read)).imp fun _ _ ⟨_, read⟩ => ⟨_, read⟩

theorem depth_childrenOf {node : Mapping} {singular path : String} {children : List Mapping}
    (read : childrenOf node singular path = .ok children) {child : Mapping} (mem : child ∈ children) :
    depthOfEntries child < depthOfEntries node := by
  obtain ⟨value, mem', path, structured⟩ := Checked.exists_of_forall₂ (childrenOf_ok read) mem
  exact (depthOfEntries_structureOf structured).trans (depth_childValues mem')

section Readers

variable {pyRepr : Value → String} {path : String}

theorem fail_avoids {α : Type} {message : String} :
    Avoids .nesting (fail path message : Result α) := fun same => by cases same

theorem integer_avoids {value : Value} {what : String} :
    Avoids .nesting (integer pyRepr value path what) := by
  unfold integer
  split
  · exact fail_avoids
  · exact Avoids.pure _
  · split
    · exact Avoids.pure _
    · exact fail_avoids
  · exact fail_avoids

theorem structureOf_avoids {value : Value} : Avoids .nesting (structureOf value path) := by
  unfold structureOf
  split
  · exact Avoids.pure _
  · refine Avoids.foldlM (fun item _ result => ?_) _
    split
    · exact Avoids.pure _
    · exact fail_avoids
  · exact fail_avoids

theorem childrenOf_avoids {node : Mapping} {singular : String} :
    Avoids .nesting (childrenOf node singular path) :=
  Avoids.mapM fun _ _ => structureOf_avoids

theorem rootBlocks_avoids {document : Value} : Avoids .nesting (rootBlocks document) := by
  unfold rootBlocks
  split
  · exact childrenOf_avoids
  · refine (Avoids.mapM fun item _ => ?_).bind fun _ _ => Avoids.pure _
    dsimp only
    split
    · exact childrenOf_avoids
    · exact fail_avoids
  · exact fail_avoids

theorem addSizeItem_avoids {sizes : List ℤ × Option ℤ} {item : Value} :
    Avoids .nesting (addSizeItem pyRepr path sizes item) := by
  unfold addSizeItem
  dsimp only
  split
  · refine Avoids.ite (fun _ => Avoids.ite (fun _ => fail_avoids) fun _ => ?_) fun _ => ?_
    · exact integer_avoids.bind fun _ _ => Avoids.pure _
    · exact integer_avoids.bind fun _ _ => Avoids.pure _
  · exact integer_avoids.bind fun _ _ => Avoids.pure _

theorem arraySpec_avoids {value : Option Value} : Avoids .nesting (arraySpec pyRepr value path) := by
  unfold arraySpec
  split
  · exact Avoids.pure _
  · exact Avoids.pure _
  · refine (Avoids.foldlM (fun _ _ _ => addSizeItem_avoids) _).bind fun _ _ => ?_
    exact Avoids.ite (fun _ => fail_avoids) fun _ => Avoids.ite (fun _ => fail_avoids) fun _ =>
      Avoids.pure _

theorem fieldSequence_avoids {rawField : Mapping} {name : String} {nextLsb : ℤ} :
    Avoids .nesting (fieldSequence pyRepr rawField path name nextLsb) := by
  unfold fieldSequence
  split
  · refine integer_avoids.bind fun _ _ => integer_avoids.bind fun _ _ => integer_avoids.bind fun _ _ =>
      integer_avoids.bind fun _ _ => Avoids.ite (fun _ => fail_avoids) fun _ =>
        Avoids.bind ?_ fun _ _ => Avoids.pure _
    unfold fieldType
    dsimp only
    split
    · exact Avoids.pure _
    · exact fail_avoids
  · exact fail_avoids

theorem initialValue_avoids {value : Option Value} {index : ℕ} :
    Avoids .nesting (initialValue pyRepr value path index) := by
  unfold initialValue
  split
  · exact Avoids.pure _
  · exact Avoids.pure _
  · split
    · exact integer_avoids.bind fun _ _ => Avoids.pure _
    · exact fail_avoids
  · exact integer_avoids.bind fun _ _ => Avoids.pure _

theorem extractFields_avoids {node : Mapping} {name : String} {width : ℕ} :
    Avoids .nesting (extractFields pyRepr node path name width) := by
  refine childrenOf_avoids.bind fun _ _ => (Avoids.foldlM (fun rawField _ state => ?_) _).bind
    fun _ _ => Avoids.pure _
  refine fieldSequence_avoids.bind fun _ _ => (Avoids.foldlM (fun index _ state => ?_) _).bind
    fun _ _ => Avoids.pure _
  refine Avoids.ite (fun _ => fail_avoids) fun _ => initialValue_avoids.bind fun _ _ => ?_
  exact Avoids.ite (fun _ => fail_avoids) fun _ => Avoids.ite (fun _ => fail_avoids) fun _ =>
    Avoids.pure _

theorem addRegister_avoids {busWidth : ℕ} {baseAddress : ℤ} {found : Found} {raw : Mapping} :
    Avoids .nesting (addRegister pyRepr busWidth path baseAddress found raw) := by
  have typed : ∀ {path : String}, Avoids .nesting (registerType pyRepr (raw.get? "type") path) := by
    intro path
    exact Avoids.ite (fun _ => fail_avoids) fun _ => Avoids.ite (fun _ => fail_avoids) fun _ =>
      Avoids.pure _
  have placed : ∀ {path : String} {cursor : ℤ} {bytes : ℕ},
      Avoids .nesting (registerPlacement pyRepr raw path cursor bytes) := by
    intro path cursor bytes
    exact integer_avoids.bind fun _ _ => arraySpec_avoids.bind fun _ _ => integer_avoids.bind
      fun _ _ => Avoids.ite (fun _ => fail_avoids) fun _ => Avoids.pure _
  refine Avoids.ite (fun _ => fail_avoids) fun _ => typed.bind fun _ _ => placed.bind fun _ _ =>
    childrenOf_avoids.bind fun _ _ => Avoids.ite (fun _ => Avoids.pure _) fun _ => ?_
  exact (Avoids.mapM fun _ _ => extractFields_avoids.bind fun _ _ => Avoids.pure _).bind
    fun _ _ => Avoids.pure _

theorem addFile_avoids {walk : Mapping → String → ℤ → Result Found} {baseAddress : ℤ} {found : Found}
    {rawFile : Mapping} (inner : ∀ path address, Avoids .nesting (walk rawFile path address)) :
    Avoids .nesting (addFile pyRepr walk path baseAddress found rawFile) := by
  refine Avoids.ite (fun _ => fail_avoids) fun _ => integer_avoids.bind fun _ _ =>
    arraySpec_avoids.bind fun spec _ => ?_
  dsimp only
  split
  · exact Avoids.pure _
  · refine (inner _ _).bind fun _ _ => ?_
    split
    · exact (Avoids.pure _).bind fun _ _ => Avoids.ite (fun _ => fail_avoids) fun _ =>
        Avoids.ite (fun _ => fail_avoids) fun _ => (Avoids.mapM fun _ _ => inner _ _).bind
          fun _ _ => Avoids.pure _
    · exact integer_avoids.bind fun _ _ => Avoids.ite (fun _ => fail_avoids) fun _ =>
        Avoids.ite (fun _ => fail_avoids) fun _ => (Avoids.mapM fun _ _ => inner _ _).bind
          fun _ _ => Avoids.pure _

theorem walk_avoids {busWidth depth : ℕ} {container : Mapping} {baseAddress : ℤ}
    (shallow : depthOfEntries container < depth) :
    Avoids .nesting (walk pyRepr busWidth depth container path baseAddress) := by
  induction depth generalizing container path baseAddress with
  | zero => exact absurd shallow (Nat.not_lt_zero _)
  | succ depth ih =>
    refine childrenOf_avoids.bind fun _ _ => (Avoids.foldlM (fun _ _ _ => addRegister_avoids) _).bind
      fun _ _ => childrenOf_avoids.bind fun files read => Avoids.foldlM (fun file mem found => ?_) _
    have deeper := depth_childrenOf read mem
    exact addFile_avoids fun path address => ih (by omega)

end Readers

/-- A block that is selected is nested less deeply than the document. -/
theorem depth_rootBlocks {document : Value} {blocks : List Mapping}
    (read : rootBlocks document = .ok blocks) {block : Mapping} (mem : block ∈ blocks) :
    depthOfEntries block < document.depth := by
  unfold rootBlocks at read
  split at read
  · rw [Value.depth]
    exact (depth_childrenOf read mem).trans (Nat.lt_succ_self _)
  · next items =>
    obtain ⟨lists, each, ok⟩ := bind_ok_iff.mp read
    obtain rfl := Except.ok.inj ok
    obtain ⟨children, among, mem⟩ := List.mem_flatten.mp mem
    obtain ⟨item, mem', index, read⟩ := Checked.exists_of_forall₂
      (Checked.forall₂_of_numbered (forall₂_of_mapM_ok each)) among
    have outer := depth_le_of_mem mem'
    cases item with
    | map entries =>
      have inner := depth_childrenOf read mem
      rw [Value.depth] at outer
      rw [Value.depth]
      omega
    | _ => cases read
  · cases read

theorem selectBlock_ok {pyRepr : Value → String} {document : Value} {blockName : Option String}
    {root : Mapping} {name : String} (selected : selectBlock pyRepr document blockName = .ok (root, name)) :
    depthOfEntries root < document.depth := by
  obtain ⟨blocks, read, selected⟩ := bind_ok_iff.mp selected
  dsimp only at selected
  have among : ∀ {block others}, (match blockName with
      | some name => blocks.filter fun block => ((Mapping.get? block "name").getD .null).text pyRepr = name
      | none => blocks) = block :: others → block ∈ blocks := by
    intro block others same
    split at same
    · have mem := same ▸ List.mem_cons_self
      exact List.mem_of_mem_filter mem
    · exact same ▸ List.mem_cons_self
  split at selected
  · next root' same =>
    split at selected
    · cases selected
    · obtain ⟨rfl, _⟩ := Prod.mk.inj (Except.ok.inj selected)
      exact depth_rootBlocks read (among same)
  · cases selected

/-- **No document is nested beyond the bound of the walk.** -/
theorem extractRgGenBlock_nested (pyRepr : Value → String) (document : Value)
    (blockName : Option String) : extractRgGenBlock pyRepr document blockName ≠ .error .nesting := by
  have selects : Avoids .nesting (selectBlock pyRepr document blockName) := by
    refine rootBlocks_avoids.bind fun blocks _ => ?_
    dsimp only
    generalize (match blockName with
      | some name => blocks.filter fun block => ((Mapping.get? block "name").getD .null).text pyRepr = name
      | none => blocks) = selected
    split
    · exact Avoids.ite (fun _ => fail_avoids) fun _ => Avoids.pure _
    · exact fail_avoids
  refine selects.bind fun selected found => integer_avoids.bind fun busWidth _ =>
    Avoids.ite (fun _ => fail_avoids) fun _ => (walk_avoids ?_).bind fun _ _ => Avoids.pure _
  exact (@selectBlock_ok _ _ _ _ selected.2 found).trans (Nat.lt_succ_self _)

end Nesting

end Cpptb.RegisterModel.RgGen
