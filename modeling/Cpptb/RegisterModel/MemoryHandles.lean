/-
`RegisterMemoryHandle` and `WideRegisterMemoryHandle`: the frontdoors of memories.

A memory has elements of `element_bytes` bytes, addressed by index, by byte offset or by absolute
address; all three come down to an index that has passed a range test (`MemoryRange`). All arithmetic is
that of `uint64_t`. An access issues one burst of transfers for each element: one transfer for a narrow
memory, `transfer_count` of `access_width` bits for a wide one. The master answers with a state of its
own; a frontdoor of a route answers in its place.
-/

import Cpptb.Lib.Bursts
import Cpptb.RegisterModel.Handle

namespace Cpptb.RegisterModel

open Cpptb.Vc (RegisterAccess registerReadable registerWritable)
open Cpptb.Bursts (Burst burst bursts)

section Descriptors

/-- `RegisterMemoryDescriptor`. `object` tells descriptors apart, as their addresses do. -/
structure RegisterMemoryDescriptor where
  object : ℕ := 0
  path : String
  address : UInt64 := 0
  entries : UInt64 := 0
  width : UInt16 := 0
  accessWidth : UInt16 := 0
  access : RegisterAccess := .readWrite
  deriving DecidableEq, Repr

/-- `width / 8`. -/
def RegisterMemoryDescriptor.bytes (descriptor : RegisterMemoryDescriptor) : UInt64 :=
  UInt64.ofNat (descriptor.width.toNat / 8)

/-- `std::numeric_limits<uint64_t>::max()`. -/
def uint64Max : UInt64 := 0xffffffffffffffff

/-- `effective_address` of an element. -/
def RegisterAddressMap.elementAddress (bus : BusTypes) (map : RegisterAddressMap)
    (descriptor : RegisterMemoryDescriptor) (index : UInt64) : Except Error UInt64 := do
  throwIf (descriptor.width = 0 ∨ descriptor.width % 8 ≠ 0)
    (.logicError ("cpptb-vc: register memory has invalid element width: " ++ descriptor.path))
  throwIf (descriptor.entries ≤ index)
    (.outOfRange ("cpptb-vc: register memory address-map index out of bounds: " ++ descriptor.path ++
      " in map " ++ map.name))
  let offset := offset map.memoryRoutes descriptor.object descriptor.address
  let bytes := descriptor.bytes
  throwIf ((uint64Max - offset) / bytes < index ∨ uint64Max - map.baseAddress < offset + index * bytes)
    (.overflowError ("cpptb-vc: register memory address map overflows for " ++ descriptor.path ++
      " in map " ++ map.name))
  let address := map.baseAddress + offset + index * bytes
  throwIf (bus.addressMax < address.toNat)
    (.overflowError ("cpptb-vc: register memory address exceeds frontdoor width for " ++
      descriptor.path ++ " in map " ++ map.name))
  pure address

/-- Who answers the requests. -/
structure Master (bus : BusTypes) (S : Type) where
  read : S → ReadRequest bus → Option (BitVec bus.dataBits) × S
  write : S → WriteRequest bus → Option Unit × S

/-- The requests of an access, what it has gathered, and how it ends: with the index of the element whose
transfer failed. -/
abbrev MemoryAccess (R V S : Type) := Burst R V S Error UInt64

/-- An access after a check that may throw. -/
def checked {R V S α : Type} (check : Except Error α) (values : V) (responder : S)
    (rest : α → MemoryAccess R V S) : MemoryAccess R V S :=
  match check with
  | .error error => ⟨[], 0, values, responder, .threw error⟩
  | .ok value => rest value

end Descriptors

section Ranges

/-- The texts of the errors, which the two handles have of their own. -/
structure MemoryTexts where
  range : String → String
  unalignedOffset : String → UInt64 → String
  unalignedAbsolute : String → UInt64 → String
  absoluteRange : String → UInt64 → String
  addressOverflow : String → String
  notReadable : String → String
  notWritable : String → String

def narrowTexts : MemoryTexts where
  range path := "cpptb-vc: register memory range out of bounds: " ++ path
  unalignedOffset path offset := "cpptb-vc: register memory byte offset is not element-aligned: " ++ path ++
    " offset=" ++ toString offset.toNat
  unalignedAbsolute path address := "cpptb-vc: register memory absolute address is not element-aligned: " ++
    path ++ " address=" ++ toString address.toNat
  absoluteRange path address := "cpptb-vc: register memory absolute address is out of bounds: " ++ path ++
    " address=" ++ toString address.toNat
  addressOverflow path := "cpptb-vc: register memory indexed address overflows: " ++ path
  notReadable path := "cpptb-vc: register memory is not readable: " ++ path
  notWritable path := "cpptb-vc: register memory is not writable: " ++ path

def wideTexts : MemoryTexts where
  range path := "cpptb-vc: wide register memory range out of bounds: " ++ path
  unalignedOffset path _ := "cpptb-vc: wide register memory byte offset is not element-aligned: " ++ path
  unalignedAbsolute path _ :=
    "cpptb-vc: wide register memory absolute address is not element-aligned: " ++ path
  absoluteRange path address := "cpptb-vc: wide register memory absolute address is out of bounds: " ++
    path ++ " address=" ++ toString address.toNat
  addressOverflow path := "cpptb-vc: wide register memory indexed address overflows: " ++ path
  notReadable path := "cpptb-vc: wide register memory is not readable: " ++ path
  notWritable path := "cpptb-vc: wide register memory is not writable: " ++ path

/-- What the index and range tests of a handle use. -/
structure MemoryRange where
  texts : MemoryTexts
  descriptor : RegisterMemoryDescriptor
  baseAddress : UInt64
  elementBytes : UInt64

namespace MemoryRange

variable (m : MemoryRange)

def requireRange (firstIndex count : UInt64) : Except Error Unit :=
  throwIf (m.descriptor.entries < firstIndex ∨ m.descriptor.entries - firstIndex < count ∨
      (count ≠ 0 ∧ firstIndex = m.descriptor.entries))
    (.outOfRange (m.texts.range m.descriptor.path))

def indexFromOffsetForRange (byteOffset count : UInt64) : Except Error UInt64 := do
  throwIf (byteOffset % m.elementBytes ≠ 0)
    (.invalidArgument (m.texts.unalignedOffset m.descriptor.path byteOffset))
  let index := byteOffset / m.elementBytes
  m.requireRange index count
  pure index

def indexFromAbsoluteForRange (absoluteAddress count : UInt64) : Except Error UInt64 := do
  throwIf (absoluteAddress < m.baseAddress)
    (.outOfRange (m.texts.absoluteRange m.descriptor.path absoluteAddress))
  let byteOffset := absoluteAddress - m.baseAddress
  throwIf (byteOffset % m.elementBytes ≠ 0)
    (.invalidArgument (m.texts.unalignedAbsolute m.descriptor.path absoluteAddress))
  let index := byteOffset / m.elementBytes
  throwIf (m.descriptor.entries < index ∨ m.descriptor.entries - index < count ∨
      (count ≠ 0 ∧ index = m.descriptor.entries))
    (.outOfRange (m.texts.absoluteRange m.descriptor.path absoluteAddress))
  pure index

def indexFromOffset (byteOffset : UInt64) : Except Error UInt64 := m.indexFromOffsetForRange byteOffset 1

def indexFromAbsolute (absoluteAddress : UInt64) : Except Error UInt64 :=
  m.indexFromAbsoluteForRange absoluteAddress 1

def addressAfterRangeCheck (index : UInt64) : Except Error UInt64 := do
  throwIf ((uint64Max - m.baseAddress) / m.elementBytes < index)
    (.overflowError (m.texts.addressOverflow m.descriptor.path))
  pure (m.baseAddress + index * m.elementBytes)

/-- `address`. -/
def address (index : UInt64) : Except Error UInt64 := do
  m.requireRange index 1
  m.addressAfterRangeCheck index

def frontdoorAddress (bus : BusTypes) (map : Option RegisterAddressMap) (index : UInt64) :
    Except Error UInt64 :=
  match map with
  | some map => map.elementAddress bus m.descriptor index
  | none => m.addressAfterRangeCheck index

/-- `require_read`. -/
def requireRead (firstIndex count : UInt64) : Except Error Unit := do
  m.requireRange firstIndex count
  throwIf (!registerReadable m.descriptor.access) (.logicError (m.texts.notReadable m.descriptor.path))

/-- `require_write`. -/
def requireWrite (firstIndex count : UInt64) : Except Error Unit := do
  m.requireRange firstIndex count
  throwIf (!registerWritable m.descriptor.access) (.logicError (m.texts.notWritable m.descriptor.path))

end MemoryRange

/-- The checks of both constructors, with the texts of the two errors. -/
def requireMemoryRange (descriptor : RegisterMemoryDescriptor) (baseAddress : UInt64)
    (basePlusOffset addressRange : String) (validateElement : Except Error Unit)
    (elementBytes : UInt64) : Except Error UInt64 := do
  throwIf (uint64Max - descriptor.address < baseAddress)
    (.invalidArgument (basePlusOffset ++ descriptor.path))
  let base := baseAddress + descriptor.address
  validateElement
  throwIf ((uint64Max - base) / elementBytes < descriptor.entries)
    (.invalidArgument (addressRange ++ descriptor.path))
  pure base

end Ranges

section Narrow

structure RegisterMemoryHandle (bus : BusTypes) where
  descriptor : RegisterMemoryDescriptor
  baseAddress : UInt64
  deriving DecidableEq, Repr

namespace RegisterMemoryHandle

variable {bus : BusTypes} {S : Type}

def validateElement (bus : BusTypes) (descriptor : RegisterMemoryDescriptor) : Except Error Unit :=
  throwIf (descriptor.width = 0 ∨ descriptor.width % 8 ≠ 0 ∨ bus.dataBits < descriptor.width.toNat)
    (.logicError ("cpptb-vc: register memory element must be byte-aligned and fit the model data " ++
      "width: " ++ descriptor.path))

/-- The constructor. -/
def make (bus : BusTypes) (descriptor : RegisterMemoryDescriptor) (baseAddress : UInt64) :
    Except Error (RegisterMemoryHandle bus) := do
  let base ← requireMemoryRange descriptor baseAddress
    "cpptb-vc: register memory base plus offset overflows: "
    "cpptb-vc: register memory address range overflows: "
    (validateElement bus descriptor) descriptor.bytes
  pure ⟨descriptor, base⟩

variable (h : RegisterMemoryHandle bus)

def range : MemoryRange := ⟨narrowTexts, h.descriptor, h.baseAddress, h.descriptor.bytes⟩

def allBytes : BitVec bus.byteEnableBits :=
  let bytes := h.descriptor.width.toNat / 8
  BitVec.ofNat _ (if 64 ≤ bytes then 2 ^ 64 - 1 else 2 ^ bytes - 1)

def requireFrontdoorSupported (map : Option RegisterAddressMap) : Except Error Unit := do
  throwIf (h.descriptor.accessWidth ≠ 0 ∧ h.descriptor.accessWidth ≠ h.descriptor.width)
    (.logicError ("cpptb-vc: split register-memory accesses are not supported: " ++ h.descriptor.path))
  if h.descriptor.entries ≠ 0 then
    let last ← h.range.frontdoorAddress bus map (h.descriptor.entries - 1)
    throwIf (bus.addressMax < last.toNat)
      (.logicError ("cpptb-vc: register memory exceeds the frontdoor address width: " ++
        h.descriptor.path))

/-- The transfer of one element. -/
def writeElement (master : Master bus S) (map : Option RegisterAddressMap) (index : UInt64)
    (value : BitVec bus.dataBits) (responder : S) : MemoryAccess (WriteRequest bus) Unit S :=
  burst (fun _ => h.range.frontdoorAddress bus map index)
    (fun _ target => ⟨BitVec.ofNat _ target.toNat, value, h.allBytes⟩) master.write (fun _ _ _ => ()) index
    1 0 () responder

def readElement (master : Master bus S) (map : Option RegisterAddressMap) (index : UInt64)
    (value : BitVec bus.dataBits) (responder : S) :
    MemoryAccess (ReadRequest bus) (BitVec bus.dataBits) S :=
  burst (fun _ => h.range.frontdoorAddress bus map index)
    (fun _ target => ⟨BitVec.ofNat _ target.toNat⟩) master.read (fun _ data _ => data) index 1 0 value
    responder

/-- `write` and `frontdoor_write` of several elements; of one element they do the same. -/
def write (master : Master bus S) (map : Option RegisterAddressMap) (firstIndex : UInt64)
    (values : List (BitVec bus.dataBits)) (responder : S) : MemoryAccess (WriteRequest bus) Unit S :=
  checked (h.range.requireWrite firstIndex (UInt64.ofNat values.length)) () responder fun _ =>
    if values.isEmpty then ⟨[], 0, (), responder, .okay⟩
    else checked (h.requireFrontdoorSupported map) () responder fun _ =>
      bursts (fun offset _ => h.writeElement master map (firstIndex + UInt64.ofNat offset)
        (values.getD offset 0)) values.length 0 () responder

/-- `read_into` and `frontdoor_read` of several elements; of one element they do the same. The caller's
values are filled one by one. -/
def read (master : Master bus S) (map : Option RegisterAddressMap) (firstIndex : UInt64)
    (values : List (BitVec bus.dataBits)) (responder : S) :
    MemoryAccess (ReadRequest bus) (List (BitVec bus.dataBits)) S :=
  checked (h.range.requireRead firstIndex (UInt64.ofNat values.length)) values responder fun _ =>
    if values.isEmpty then ⟨[], 0, values, responder, .okay⟩
    else checked (h.requireFrontdoorSupported map) values responder fun _ =>
      bursts (fun offset values responder =>
        let element := h.readElement master map (firstIndex + UInt64.ofNat offset) (values.getD offset 0)
          responder
        ⟨element.requests, element.completed, values.set offset element.values, element.responder,
          element.ending⟩) values.length 0 values responder

end RegisterMemoryHandle

end Narrow

section Wide

/-- `Bits::set_bit`. -/
def setBit {n : ℕ} (value : BitVec n) (index : ℕ) (bit : Bool) : BitVec n :=
  if bit then value ||| BitVec.twoPow n index else value &&& ~~~BitVec.twoPow n index

structure WideRegisterMemoryHandle (bus : BusTypes) (Width : ℕ) where
  descriptor : RegisterMemoryDescriptor
  baseAddress : UInt64
  deriving DecidableEq, Repr

namespace WideRegisterMemoryHandle

variable {bus : BusTypes} {Width : ℕ} {S : Type}

def validateElement (bus : BusTypes) (Width : ℕ) (descriptor : RegisterMemoryDescriptor) :
    Except Error Unit := do
  let accessWidth := descriptor.accessWidth.toNat
  throwIf (Width % 8 ≠ 0 ∨ accessWidth = 0 ∨ accessWidth % 8 ≠ 0 ∨ bus.dataBits < accessWidth ∨
      Width % accessWidth ≠ 0)
    (.logicError ("cpptb-vc: wide register memory requires a byte-aligned access width that divides " ++
      "the element and fits the frontdoor data width: " ++ descriptor.path))
  throwIf (bus.byteEnableBits < accessWidth / 8)
    (.logicError ("cpptb-vc: wide register memory access width exceeds the frontdoor byte-enable " ++
      "width: " ++ descriptor.path))

/-- The constructor. -/
def make (bus : BusTypes) (Width : ℕ) (descriptor : RegisterMemoryDescriptor) (baseAddress : UInt64) :
    Except Error (WideRegisterMemoryHandle bus Width) := do
  throwIf (descriptor.width.toNat ≠ Width)
    (.invalidArgument ("cpptb-vc: generated wide memory width does not match its descriptor: " ++
      descriptor.path))
  let base ← requireMemoryRange descriptor baseAddress
    "cpptb-vc: wide register memory base plus offset overflows: "
    "cpptb-vc: wide register memory address range overflows: "
    (validateElement bus Width descriptor) (UInt64.ofNat (Width / 8))
  pure ⟨descriptor, base⟩

variable (h : WideRegisterMemoryHandle bus Width)

def range : MemoryRange := ⟨wideTexts, h.descriptor, h.baseAddress, UInt64.ofNat (Width / 8)⟩

def accessWidth : ℕ := h.descriptor.accessWidth.toNat

def transferCount : ℕ := Width / h.accessWidth

def transferBytes : ℕ := h.accessWidth / 8

def allTransferBytes : BitVec bus.byteEnableBits := BitVec.ofNat _ (2 ^ h.transferBytes - 1)

def transferValue (value : BitVec Width) (transfer : ℕ) : BitVec bus.dataBits :=
  let first := transfer * h.accessWidth
  ((List.range h.accessWidth).foldl (fun result bit =>
    if value.getLsbD (first + bit) then result ||| ((1 : Word) <<< bit) else result) 0).setWidth _

def setTransferValue (value : BitVec Width) (transfer : ℕ) (source : BitVec bus.dataBits) : BitVec Width :=
  let first := transfer * h.accessWidth
  (List.range h.accessWidth).foldl (fun value bit =>
    setBit value (first + bit) ((source.setWidth 64).getLsbD bit)) value

/-- The address of one transfer of an element. -/
def transferAddress (map : Option RegisterAddressMap) (index : UInt64) (transfer : ℕ) :
    Except Error UInt64 := do
  let base ← h.range.frontdoorAddress bus map index
  pure (base + UInt64.ofNat transfer * UInt64.ofNat h.transferBytes)

/-- The transfers of one element. -/
def writeElement (master : Master bus S) (map : Option RegisterAddressMap) (index : UInt64)
    (value : BitVec Width) (responder : S) : MemoryAccess (WriteRequest bus) Unit S :=
  burst (h.transferAddress map index)
    (fun transfer target =>
      ⟨BitVec.ofNat _ target.toNat, h.transferValue value transfer, h.allTransferBytes⟩)
    master.write (fun _ _ _ => ()) index h.transferCount 0 () responder

def readElement (master : Master bus S) (map : Option RegisterAddressMap) (index : UInt64)
    (responder : S) : MemoryAccess (ReadRequest bus) (BitVec Width) S :=
  burst (h.transferAddress map index) (fun _ target => ⟨BitVec.ofNat _ target.toNat⟩) master.read
    (fun transfer data value => h.setTransferValue value transfer data) index h.transferCount 0 0
    responder

/-- `write` and `frontdoor_write` of several elements; of one element they do the same. -/
def write (master : Master bus S) (map : Option RegisterAddressMap) (firstIndex : UInt64)
    (values : List (BitVec Width)) (responder : S) : MemoryAccess (WriteRequest bus) Unit S :=
  checked (h.range.requireWrite firstIndex (UInt64.ofNat values.length)) () responder fun _ =>
    bursts (fun offset _ => h.writeElement master map (firstIndex + UInt64.ofNat offset)
      (values.getD offset 0)) values.length 0 () responder

/-- `read_into` and `frontdoor_read` of several elements; of one element they do the same. An element of
the caller's values is filled when all its transfers have succeeded. -/
def read (master : Master bus S) (map : Option RegisterAddressMap) (firstIndex : UInt64)
    (values : List (BitVec Width)) (responder : S) :
    MemoryAccess (ReadRequest bus) (List (BitVec Width)) S :=
  checked (h.range.requireRead firstIndex (UInt64.ofNat values.length)) values responder fun _ =>
    bursts (fun offset values responder =>
      let element := h.readElement master map (firstIndex + UInt64.ofNat offset) responder
      ⟨element.requests, element.completed,
        if element.ending = .okay then values.set offset element.values else values,
        element.responder, element.ending⟩) values.length 0 values responder

/-- `write_offset`. -/
def writeOffset (master : Master bus S) (byteOffset : UInt64) (values : List (BitVec Width))
    (responder : S) : MemoryAccess (WriteRequest bus) Unit S :=
  checked (h.range.indexFromOffsetForRange byteOffset (UInt64.ofNat values.length)) () responder
    fun firstIndex => h.write master none firstIndex values responder

/-- `write_absolute`. -/
def writeAbsolute (master : Master bus S) (absoluteAddress : UInt64) (values : List (BitVec Width))
    (responder : S) : MemoryAccess (WriteRequest bus) Unit S :=
  checked (h.range.indexFromAbsoluteForRange absoluteAddress (UInt64.ofNat values.length)) () responder
    fun firstIndex => h.write master none firstIndex values responder

/-- `read_offset`. -/
def readOffset (master : Master bus S) (byteOffset : UInt64) (values : List (BitVec Width))
    (responder : S) : MemoryAccess (ReadRequest bus) (List (BitVec Width)) S :=
  checked (h.range.indexFromOffsetForRange byteOffset (UInt64.ofNat values.length)) values responder
    fun firstIndex => h.read master none firstIndex values responder

/-- `read_absolute`. -/
def readAbsolute (master : Master bus S) (absoluteAddress : UInt64) (values : List (BitVec Width))
    (responder : S) : MemoryAccess (ReadRequest bus) (List (BitVec Width)) S :=
  checked (h.range.indexFromAbsoluteForRange absoluteAddress (UInt64.ofNat values.length)) values responder
    fun firstIndex => h.read master none firstIndex values responder

end WideRegisterMemoryHandle

end Wide

end Cpptb.RegisterModel
