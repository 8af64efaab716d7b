/-
`WideRegisterHandle`: the mirror of one register of more than 64 bits.

The operations are those of `RegisterHandle`, but each goes through the fields bit by bit: the state of a
prediction is the handle itself, and one bit of a field is one step. A write leaves the bits that have
been written once as they are, staged value included, and there is no shortcut for one transfer.
-/

import Cpptb.RegisterModel.MemoryHandles

namespace Cpptb.RegisterModel

open Cpptb.Vc (RegisterAccess registerReadable registerWritable RegisterEndianness wrap)

/-- `RegisterUserEffectPolicy`, by its bit functions. The arguments are the register, the field, the
position in the field, the previous bit, whether it is valid, and the bit that is written, staged or
read. -/
structure UserEffectBits where
  encodeWrite : RegisterDescriptor → FieldDescriptor → ℕ → Bool → Bool → Bool → Bool
  predictWrite : RegisterDescriptor → FieldDescriptor → ℕ → Bool → Bool → Bool → Bool × Bool
  predictRead : RegisterDescriptor → FieldDescriptor → ℕ → Bool → Bool → Bool → Bool × Bool

/-- What a handle knows of its register. -/
structure WideRegisterHandle (bus : BusTypes) (Width : ℕ) where
  descriptor : RegisterDescriptor
  userEffects : Option UserEffectBits
  hasBackdoor : Bool
  effectiveAddress : ℕ
  autoPredict : Bool
  staged : BitVec Width
  mirrored : BitVec Width
  stagedValidMask : BitVec Width
  mirroredValidMask : BitVec Width
  writtenOnceMask : BitVec Width

namespace WideRegisterHandle

variable {bus : BusTypes} {Width : ℕ}

section Metadata

variable (h : WideRegisterHandle bus Width)

/-- `for_each_field_bit`: the bits of a field, in order. -/
def fieldBits (Width : ℕ) (field : FieldDescriptor) : List ℕ :=
  List.range' field.lsb (min Width (field.lsb + field.width) - field.lsb)

/-- The bits of the fields that satisfy a predicate. -/
def fieldsMask (Width : ℕ) (fields : List FieldDescriptor) (selected : FieldDescriptor → Bool) :
    BitVec Width :=
  fields.foldl (fun mask field =>
    if selected field then (fieldBits Width field).foldl (fun mask bit => setBit mask bit true) mask
    else mask) 0

def writableMask : BitVec Width :=
  if h.descriptor.fields.isEmpty then BitVec.allOnes Width
  else fieldsMask Width h.descriptor.fields fun field => registerWritable field.access

def nonvolatileMask : BitVec Width :=
  if h.descriptor.fields.isEmpty then BitVec.allOnes Width
  else fieldsMask Width h.descriptor.fields fun field =>
    registerReadable field.access && !field.volatileValue

/-- The bits of one transfer. -/
def transferMask (transfer : ℕ) : BitVec Width :=
  (List.range h.descriptor.transferWidth).foldl (fun enabled bit =>
    setBit enabled (h.descriptor.transferBitOffset transfer + bit) true) 0

def allBytes : BitVec bus.byteEnableBits := BitVec.ofNat _ (2 ^ h.descriptor.transferBytes - 1)

def transferAddress (map : Option RegisterAddressMap) (transfer : ℕ) : Except Error ℕ := do
  let base ← match map with
    | some map => map.effectiveAddress bus h.descriptor
    | none => pure h.effectiveAddress
  pure (wrap (base + transfer * h.descriptor.transferBytes))

def enforceWriteAccess : Except Error Unit := do
  throwIf (!h.descriptor.hasWritableField)
    (.logicError ("cpptb-vc: register is not writable: " ++ h.descriptor.path))
  throwIf ((List.range Width).any h.writtenOnceMask.getLsbD ∧ h.descriptor.writeOnceOnly)
    (.logicError ("cpptb-vc: write-once register was already written: " ++ h.descriptor.path))

def validateAccess : Except Error Unit := do
  throwIf (Width % 8 ≠ 0 ∨ h.descriptor.transferWidth = 0 ∨ h.descriptor.transferWidth % 8 ≠ 0 ∨
      Width % h.descriptor.transferWidth ≠ 0 ∨ 64 < h.descriptor.transferWidth ∨
      bus.dataBits < h.descriptor.transferWidth)
    (.logicError ("cpptb-vc: wide register accesswidth must be byte-aligned, divide regwidth, be at " ++
      "most 64 bits, and fit the frontdoor data width: " ++ h.descriptor.path))
  throwIf (bus.addressMax <
      wrap (h.effectiveAddress + (h.descriptor.transferCount - 1) * h.descriptor.transferBytes))
    (.logicError ("cpptb-vc: wide register transfer address exceeds the frontdoor address width: " ++
      h.descriptor.path))

def requireBackdoor : Except Error Unit :=
  throwIf (!h.hasBackdoor)
    (.logicError ("cpptb-vc: wide register has no backdoor: " ++ h.descriptor.path))

end Metadata

section Construction

/-- `descriptor_bits`: the words of a wide value, or a value of 64 bits. -/
def descriptorBits (Width : ℕ) (words : List (BitVec 32)) (fallback : Word) : BitVec Width :=
  if words.isEmpty then fallback.setWidth Width
  else (words.take ((Width + 31) / 32)).foldr (fun word rest =>
    word.setWidth Width ||| (rest <<< 32)) 0

def reset (h : WideRegisterHandle bus Width) : WideRegisterHandle bus Width :=
  let value := descriptorBits Width h.descriptor.resetValueWords h.descriptor.resetValue
  let valid := descriptorBits Width h.descriptor.resetMaskWords h.descriptor.resetMask
  { h with
    staged := value
    mirrored := value
    stagedValidMask := valid
    mirroredValidMask := valid
    writtenOnceMask := 0 }

/-- The constructor. -/
def make (bus : BusTypes) (Width : ℕ) (descriptor : RegisterDescriptor) (baseAddress : UInt64)
    (userEffects : Option UserEffectBits) (hasBackdoor : Bool) :
    Except Error (WideRegisterHandle bus Width) := do
  throwIf (descriptor.width ≠ Width)
    (.invalidArgument ("cpptb-vc: generated wide register width does not match its descriptor: " ++
      descriptor.path))
  descriptor.validateFieldLayout
  throwIf (2 ^ 64 - 1 - descriptor.address.toNat < baseAddress.toNat)
    (.invalidArgument ("cpptb-vc: register base plus offset overflows: " ++ descriptor.path))
  let effectiveAddress := wrap (baseAddress.toNat + descriptor.address.toNat)
  throwIf (2 ^ 64 - 1 - effectiveAddress < Width / 8)
    (.invalidArgument ("cpptb-vc: wide register address range overflows: " ++ descriptor.path))
  let h : WideRegisterHandle bus Width :=
    { descriptor, userEffects, hasBackdoor, effectiveAddress
      autoPredict := true
      staged := 0
      mirrored := 0
      stagedValidMask := 0
      mirroredValidMask := 0
      writtenOnceMask := 0 }
  h.validateAccess
  pure h.reset

end Construction

section Prediction

/-- One bit that has been predicted: the staged value follows the mirrored one. -/
def setPredicted (h : WideRegisterHandle bus Width) (bit : ℕ) (next valid : Bool) :
    WideRegisterHandle bus Width :=
  { h with
    mirrored := setBit h.mirrored bit next
    staged := setBit h.staged bit next
    mirroredValidMask := setBit h.mirroredValidMask bit valid
    stagedValidMask := setBit h.stagedValidMask bit valid }

/-- What a write makes of one bit of a field, and whether that is known. -/
def effectedWrite (h : WideRegisterHandle bus Width) (written : BitVec Width) (field : FieldDescriptor)
    (bit : ℕ) : Bool × Bool :=
  match field.writeEffect, h.userEffects with
  | .user, some policy => policy.predictWrite h.descriptor field (bit - field.lsb)
      (h.mirrored.getLsbD bit) (h.mirroredValidMask.getLsbD bit) (written.getLsbD bit)
  | _, _ => (writeEffectBit (h.mirrored.getLsbD bit) (written.getLsbD bit) field.writeEffect,
      writeValidBit (h.mirroredValidMask.getLsbD bit) (written.getLsbD bit) field.writeEffect)

def predictWriteBit (value enabled : BitVec Width) (field : FieldDescriptor)
    (h : WideRegisterHandle bus Width) (bit : ℕ) : WideRegisterHandle bus Width :=
  if !enabled.getLsbD bit || h.writtenOnceMask.getLsbD bit then h
  else
    let result := h.effectedWrite value field bit
    let next := h.setPredicted bit result.1 result.2
    if field.writeOnce then { next with writtenOnceMask := setBit h.writtenOnceMask bit true } else next

/-- What has been written, or read, of a register without fields. -/
def predictPlain (h : WideRegisterHandle bus Width) (value enabled : BitVec Width) :
    WideRegisterHandle bus Width :=
  (List.range Width).foldl (fun h bit =>
    if enabled.getLsbD bit then h.setPredicted bit (value.getLsbD bit) true else h) h

def predictWriteField (value enabled : BitVec Width) (h : WideRegisterHandle bus Width)
    (field : FieldDescriptor) : WideRegisterHandle bus Width :=
  if registerWritable field.access then
    (fieldBits Width field).foldl (predictWriteBit value enabled field) h
  else h

def predictWriteMasked (h : WideRegisterHandle bus Width) (value enabled : BitVec Width) :
    WideRegisterHandle bus Width :=
  if h.descriptor.fields.isEmpty then h.predictPlain value enabled
  else h.descriptor.fields.foldl (predictWriteField value enabled) h

/-- What a read makes of one bit of a field, and whether that is known. -/
def effectedRead (h : WideRegisterHandle bus Width) (value : BitVec Width) (field : FieldDescriptor)
    (bit : ℕ) : Bool × Bool :=
  match field.readEffect, h.userEffects with
  | .user, some policy => policy.predictRead h.descriptor field (bit - field.lsb)
      (h.mirrored.getLsbD bit) (h.mirroredValidMask.getLsbD bit) (value.getLsbD bit)
  | .user, none => (value.getLsbD bit, false)
  | .clear, _ => (false, true)
  | .set, _ => (true, true)
  | .none, _ => (value.getLsbD bit, true)

def predictReadField (value enabled : BitVec Width) (h : WideRegisterHandle bus Width)
    (field : FieldDescriptor) : WideRegisterHandle bus Width :=
  if registerReadable field.access then
    (fieldBits Width field).foldl (fun h bit =>
      if enabled.getLsbD bit then
        h.setPredicted bit (h.effectedRead value field bit).1 (h.effectedRead value field bit).2
      else h) h
  else h

def predictReadMasked (h : WideRegisterHandle bus Width) (value enabled : BitVec Width) :
    WideRegisterHandle bus Width :=
  if h.descriptor.fields.isEmpty then h.predictPlain value enabled
  else h.descriptor.fields.foldl (predictReadField value enabled) h

def predict (h : WideRegisterHandle bus Width) (value : BitVec Width) :
    RegisterHandle.Prediction → WideRegisterHandle bus Width
  | .direct => { h with
      staged := value
      mirrored := value
      stagedValidMask := BitVec.allOnes Width
      mirroredValidMask := BitVec.allOnes Width }
  | .read => h.predictReadMasked value (BitVec.allOnes Width)
  | .write => h.predictWriteMasked value (BitVec.allOnes Width)

end Prediction

section Staging

def needsUpdate (h : WideRegisterHandle bus Width) : Bool :=
  (List.range Width).any fun bit => h.writableMask.getLsbD bit && h.stagedValidMask.getLsbD bit &&
    (!h.mirroredValidMask.getLsbD bit || h.staged.getLsbD bit != h.mirrored.getLsbD bit)

def stage (h : WideRegisterHandle bus Width) (value : BitVec Width) : WideRegisterHandle bus Width :=
  if h.descriptor.fields.isEmpty then
    { h with staged := value, stagedValidMask := BitVec.allOnes Width }
  else h.descriptor.fields.foldl (fun h field =>
    if registerWritable field.access then
      (fieldBits Width field).foldl (fun h bit =>
        { h with
          staged := setBit h.staged bit (value.getLsbD bit)
          stagedValidMask := setBit h.stagedValidMask bit true }) h
    else h) h

/-- One bit of the staged write. -/
def stagedBit (h : WideRegisterHandle bus Width) (field : FieldDescriptor) (bit : ℕ) : Bool :=
  match field.writeEffect, h.userEffects with
  | .user, some policy => policy.encodeWrite h.descriptor field (bit - field.lsb)
      (h.mirrored.getLsbD bit) (h.mirroredValidMask.getLsbD bit) (h.staged.getLsbD bit)
  | _, _ => stagedWriteBit (h.mirrored.getLsbD bit) (h.mirroredValidMask.getLsbD bit)
      (h.staged.getLsbD bit) field.writeEffect

def stagedWriteField (h : WideRegisterHandle bus Width) (written : BitVec Width)
    (field : FieldDescriptor) : BitVec Width :=
  if registerWritable field.access then
    (fieldBits Width field).foldl (fun written bit => setBit written bit (h.stagedBit field bit)) written
  else written

def stagedWriteValue (h : WideRegisterHandle bus Width) : BitVec Width :=
  if h.descriptor.fields.isEmpty then h.staged
  else h.descriptor.fields.foldl h.stagedWriteField 0

/-- The bits of a mirrored word that a write predicts: the writable ones that are not written once. -/
def predictedWord (h : WideRegisterHandle bus Width) (mirror : BitVec Width)
    (predicted : FieldDescriptor → ℕ → Bool) : BitVec Width :=
  h.descriptor.fields.foldl (fun result field =>
    if registerWritable field.access then
      (fieldBits Width field).foldl (fun result bit =>
        if h.writtenOnceMask.getLsbD bit then result else setBit result bit (predicted field bit)) result
    else result) mirror

def predictedWriteValue (h : WideRegisterHandle bus Width) (written : BitVec Width) : BitVec Width :=
  if h.descriptor.fields.isEmpty then written
  else h.predictedWord h.mirrored fun field bit => (h.effectedWrite written field bit).1

def predictedWriteValidMask (h : WideRegisterHandle bus Width) (written : BitVec Width) :
    BitVec Width :=
  if h.descriptor.fields.isEmpty then BitVec.allOnes Width
  else h.predictedWord h.mirroredValidMask fun field bit => (h.effectedWrite written field bit).2

end Staging

section Frontdoor

/-- What a frontdoor operation leaves. -/
structure Access (bus : BusTypes) (Width : ℕ) (R : Type) where
  handle : WideRegisterHandle bus Width
  requests : List R
  completed : ℕ
  ending : Ending
  warnings : List String := []

def threw {R : Type} (h : WideRegisterHandle bus Width) (error : Error) (warnings : List String := []) :
    Access bus Width R := ⟨h, [], 0, .threw error, warnings⟩

/-- The transfer of a chunk of a value. -/
def writeRequest (h : WideRegisterHandle bus Width) (value : BitVec Width) (transfer target : ℕ) :
    WriteRequest bus where
  address := BitVec.ofNat _ target
  data := ((List.range h.descriptor.transferWidth).foldl (fun chunk bit =>
    if value.getLsbD (h.descriptor.transferBitOffset transfer + bit) then
      chunk ||| ((1 : Word) <<< bit) else chunk) 0).setWidth _
  byteEnable := h.allBytes

/-- The transfers of a written value. -/
def writeTransfers (h : WideRegisterHandle bus Width) (map : Option RegisterAddressMap)
    (value : BitVec Width) (respond : ℕ → WriteRequest bus → Option Unit) :
    Transfers (WriteRequest bus) (WideRegisterHandle bus Width) :=
  transferLoop (h.transferAddress map) (h.writeRequest value) respond
    (fun transfer _ state =>
      if state.autoPredict then state.predictWriteMasked value (h.transferMask transfer) else state)
    h.descriptor.transferCount 0 h

/-- `write_unlocked`. -/
def write (h : WideRegisterHandle bus Width) (value : BitVec Width) (map : Option RegisterAddressMap)
    (respond : ℕ → WriteRequest bus → Option Unit) : Access bus Width (WriteRequest bus) :=
  match h.enforceWriteAccess with
  | .error error => threw h error
  | .ok () =>
    let transfers := h.writeTransfers map value respond
    ⟨transfers.state, transfers.requests, transfers.completed, transfers.ending, []⟩

/-- Some writable bit is not known to be staged. -/
def unknownStaged (h : WideRegisterHandle bus Width) : Bool :=
  (List.range Width).any fun bit => h.writableMask.getLsbD bit && !h.stagedValidMask.getLsbD bit

/-- Some writable bit is not predicted as it is staged, or not known. -/
def unreachable (h : WideRegisterHandle bus Width) (written : BitVec Width) : Bool :=
  (List.range Width).any fun bit => h.writableMask.getLsbD bit &&
    ((h.predictedWriteValue written).getLsbD bit != h.staged.getLsbD bit ||
      !(h.predictedWriteValidMask written).getLsbD bit)

/-- `format_bits`. -/
def formatBits (value : BitVec Width) : String := toString Width ++ "'h" ++ value.toHex

def unreachableWarning (h : WideRegisterHandle bus Width) (written : BitVec Width) : String :=
  "register update cannot reach the requested staged state: " ++ h.descriptor.path ++ " requested=" ++
    formatBits h.staged ++ " reachable=" ++ formatBits (h.predictedWriteValue written)

/-- `update_unlocked`. -/
def update (h : WideRegisterHandle bus Width) (map : Option RegisterAddressMap)
    (respond : ℕ → WriteRequest bus → Option Unit) : Access bus Width (WriteRequest bus) :=
  if !h.needsUpdate then ⟨h, [], 0, .okay, []⟩
  else if h.unknownStaged then
    threw h (.logicError ("cpptb-vc: register update has unknown staged writable bits: " ++
      h.descriptor.path ++ "; set the register, read it, or predict it first"))
  else
    let writeValue := h.stagedWriteValue
    let warnings := if h.unreachable writeValue then [h.unreachableWarning writeValue] else []
    { h.write writeValue map respond with warnings }

/-- The data of a read and which of its bits are known. -/
structure ReadData (Width : ℕ) where
  data : BitVec Width
  validMask : BitVec Width

/-- `frontdoor_read`. -/
def readTransfers (h : WideRegisterHandle bus Width) (map : Option RegisterAddressMap)
    (respond : ℕ → ReadRequest bus → Option (BitVec bus.dataBits)) :
    Transfers (ReadRequest bus) (ReadData Width) :=
  transferLoop (h.transferAddress map) (fun _ target => ⟨BitVec.ofNat _ target⟩) respond
    (fun transfer data read =>
      let bitOffset := h.descriptor.transferBitOffset transfer
      (List.range h.descriptor.transferWidth).foldl (fun read bit =>
        ⟨setBit read.data (bitOffset + bit) ((data.setWidth 64).getLsbD bit),
          setBit read.validMask (bitOffset + bit) true⟩) read)
    h.descriptor.transferCount 0 ⟨0, 0⟩

/-- `read`, and `mirror` without its check. -/
def read (h : WideRegisterHandle bus Width) (map : Option RegisterAddressMap)
    (respond : ℕ → ReadRequest bus → Option (BitVec bus.dataBits)) :
    Access bus Width (ReadRequest bus) × ReadData Width :=
  if !h.descriptor.hasReadableField then
    (threw h (.logicError ("cpptb-vc: register is not readable: " ++ h.descriptor.path)), ⟨0, 0⟩)
  else
    let transfers := h.readTransfers map respond
    let predicted := match transfers.ending with
      | .threw _ => h
      | .okay | .failed _ =>
        if h.autoPredict then h.predictReadMasked transfers.state.data transfers.state.validMask else h
    (⟨predicted, transfers.requests, transfers.completed, transfers.ending, []⟩, transfers.state)

/-- `peek` and `poke`: the value that the backdoor has read, or writes. -/
def backdoorAccess (h : WideRegisterHandle bus Width) (value : BitVec Width) :
    Except Error (WideRegisterHandle bus Width) := do
  h.requireBackdoor
  pure (h.predict value .direct)

end Frontdoor

section Passive

variable (h : WideRegisterHandle bus Width)

def endAddress : ℕ := wrap (h.effectiveAddress + Width / 8)

def isTransferAddress (address : ℕ) : Bool :=
  decide (h.effectiveAddress ≤ address) && decide (address < h.endAddress) &&
    (address - h.effectiveAddress) % h.descriptor.transferBytes == 0

def requireTransferAddress (address : UInt64) : Except Error ℕ := do
  throwIf (!h.isTransferAddress address.toNat)
    (.outOfRange ("cpptb-vc: wide register predictor address is not a transfer of: " ++
      h.descriptor.path ++ " address=" ++ toString address.toNat))
  pure ((address.toNat - h.effectiveAddress) / h.descriptor.transferBytes)

/-- A transfer's value at its place in the register, and its bits that are taken. -/
def expand (transfer : ℕ) (value : BitVec bus.dataBits) (taken : ℕ → Bool) :
    BitVec Width × BitVec Width :=
  let bitOffset := h.descriptor.transferBitOffset transfer
  (List.range h.descriptor.transferWidth).foldl (fun state bit =>
    if taken bit then
      (setBit state.1 (bitOffset + bit) ((value.setWidth 64).getLsbD bit),
        setBit state.2 (bitOffset + bit) true)
    else state) (0, 0)

def predictTransferRead (address : UInt64) (value : BitVec bus.dataBits) :
    Except Error (WideRegisterHandle bus Width) := do
  let transfer ← h.requireTransferAddress address
  let expanded := h.expand transfer value fun _ => true
  pure (h.predictReadMasked expanded.1 expanded.2)

def predictTransferWrite (address : UInt64) (value : BitVec bus.dataBits)
    (byteEnable : BitVec bus.byteEnableBits) : Except Error (WideRegisterHandle bus Width) := do
  let transfer ← h.requireTransferAddress address
  let expanded := h.expand transfer value fun bit => (byteEnable.setWidth 64).getLsbD (bit / 8)
  pure (h.predictWriteMasked expanded.1 expanded.2)

end Passive

end WideRegisterHandle

end Cpptb.RegisterModel
