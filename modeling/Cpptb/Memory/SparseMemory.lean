/-
The sparse memory model.

`SparseMemory` holds the data of `cpptb::vc::SparseMemory` without a callback. `regions_` is the list
of the regions in the order of their bases, which are its keys; `bytes`, an unordered map, is a
partial function. A `uint64_t` is a `BitVec 64`, so that address computations wrap where the source's
would; the size of a span is a natural number. A function that throws leaves the memory unchanged and
returns the `MemoryError`.

`MemoryCall` lists the public functions, and `SparseMemory.perform` calls one.
-/

import Cpptb.Lib.Ranges

namespace Cpptb.Memory

open Function (update)

/-- `uint8_t`. -/
abbrev Byte := BitVec 8

/-- `uint64_t`. -/
abbrev Address := BitVec 64

/-- `std::numeric_limits<uint64_t>::max()`. Subtracting an address from it cannot wrap. -/
def maxAddress : Nat := 2 ^ 64 - 1

/-- `MemoryPermission`. -/
inductive MemoryPermission
  | none
  | read
  | write
  | readWrite
  deriving DecidableEq, Repr

/-- `memory_readable`. -/
def MemoryPermission.readable : MemoryPermission → Bool
  | .read | .readWrite => true
  | .none | .write => false

/-- `memory_writable`. -/
def MemoryPermission.writable : MemoryPermission → Bool
  | .write | .readWrite => true
  | .none | .read => false

/-- `MemoryByteOrder`. -/
inductive MemoryByteOrder
  | littleEndian
  | bigEndian
  deriving DecidableEq, Repr

/-- `MemoryStatus`. -/
inductive MemoryStatus
  | okay
  | slaveError
  | decodeError
  | timeout
  deriving DecidableEq, Repr

/-- `MemoryRegionConfig`. -/
structure MemoryRegionConfig where
  name : String
  base : Address := 0
  size : Address := 0
  permission : MemoryPermission := .readWrite
  byteOrder : MemoryByteOrder := .littleEndian
  fill : Byte := 0
  deriving DecidableEq, Repr

/-- `MemoryBytesResult`. -/
structure MemoryBytesResult where
  data : List Byte
  status : MemoryStatus := .okay
  deriving DecidableEq, Repr

/-- `MemoryWriteResponse`. -/
structure MemoryWriteResponse where
  status : MemoryStatus := .okay
  waitCycles : Nat := 0
  deriving DecidableEq, Repr

/-- `MemoryReadResponse` of a word of `n` bytes. -/
structure MemoryReadResponse (n : Nat) where
  data : BitVec (8 * n) := 0
  status : MemoryStatus := .okay
  waitCycles : Nat := 0
  deriving DecidableEq, Repr

/-- The exceptions. -/
inductive MemoryError
  | emptyName
  | emptySize
  | rangeOverflow
  | overlap
  | byteEnableCount
  | negativeAddress
  | notContained
  deriving DecidableEq, Repr

/-- The text of an exception. -/
def MemoryError.what : MemoryError → String
  | emptyName => "cpptb-vc: memory region name must not be empty"
  | emptySize => "cpptb-vc: memory region size must be greater than zero"
  | rangeOverflow => "cpptb-vc: memory region address range overflows"
  | overlap => "cpptb-vc: memory region overlaps an existing region"
  | byteEnableCount => "cpptb-vc: byte-enable count must match write size"
  | negativeAddress => "cpptb-vc: memory address must not be negative"
  | notContained => "cpptb-vc: memory range is not contained in one region"

/-! ### Regions -/

/-- `Region`. -/
structure Region where
  config : MemoryRegionConfig
  bytes : Address → Option Byte

namespace Region

/-- `end`. -/
def stop (region : Region) : Address := region.config.base + region.config.size

/-- The offset of the byte at `index` of an access. -/
def offset (region : Region) (address : Address) (index : Nat) : Address :=
  address - region.config.base + BitVec.ofNat 64 index

/-- `store_byte`. -/
def storeByte (region : Region) (address : Address) (index : Nat) (value : Byte) : Region :=
  { region with
    bytes := update region.bytes (region.offset address index)
      (if value = region.config.fill then none else some value) }

/-- The loop of the writes, from an index on. -/
def storeFrom (region : Region) (address : Address) (byteEnable : List Byte) :
    Nat → List Byte → Region
  | _, [] => region
  | index, value :: rest =>
      (if byteEnable ≠ [] ∧ byteEnable.getD index 0 = 0 then region
        else region.storeByte address index value).storeFrom address byteEnable (index + 1) rest

/-- The byte the reads find. -/
def loadByte (region : Region) (address : Address) (index : Nat) : Byte :=
  (region.bytes (region.offset address index)).getD region.config.fill

/-- The loop of the reads. -/
def loadAll (region : Region) (address : Address) (size : Nat) : List Byte :=
  (List.range size).map (region.loadByte address)

end Region

/-- `SparseMemory`. -/
structure SparseMemory where
  regions : List Region := []

namespace SparseMemory

/-- The key of a region in the map; keys are ordered as numbers. -/
def key (region : Region) : Nat := region.config.base.toNat

/-! ### Regions of the memory -/

/-- `add_region`. -/
def addRegion (m : SparseMemory) (config : MemoryRegionConfig) :
    Except MemoryError SparseMemory :=
  if config.name.isEmpty then .error .emptyName
  else if config.size = 0 then .error .emptySize
  else if maxAddress - config.size.toNat < config.base.toNat then .error .rangeOverflow
  else
    let stop := config.base + config.size
    let next := (Ranges.onwards key config.base.toNat m.regions).head?
    let previous := (Ranges.before key config.base.toNat m.regions).getLast?
    if next.any fun region => region.config.base < stop then .error .overlap
    else if previous.any fun region => config.base < region.stop then .error .overlap
    else .ok { m with
      regions := Ranges.insert key { config := config, bytes := fun _ => none } m.regions }

/-- `find_region`. -/
def findRegion (m : SparseMemory) (address : Address) (size : Nat) : Option Region :=
  if maxAddress - address.toNat < size then none
  else
    let stop := address + BitVec.ofNat 64 size
    match (Ranges.upTo key address.toNat m.regions).getLast? with
    | none => none
    | some candidate =>
        if address < candidate.config.base ∨ candidate.stop < stop then none else some candidate

/-- `require_region`. -/
def requireRegion (m : SparseMemory) (address : Address) (size : Nat) :
    Except MemoryError Region :=
  match m.findRegion address size with
  | some region => .ok region
  | none => .error .notContained

/-- Write a region back. -/
def setRegion (m : SparseMemory) (region : Region) : SparseMemory :=
  { m with regions := m.regions.map fun other => if key other = key region then region else other }

/-! ### Bytes -/

/-- `read_into`, for a span that holds `data`: what it holds afterwards, and the status. -/
def readInto (m : SparseMemory) (address : Address) (data : List Byte) :
    List Byte × MemoryStatus :=
  match m.findRegion address data.length with
  | none => (data, .decodeError)
  | some region =>
      if region.config.permission.readable then (region.loadAll address data.length, .okay)
      else (data, .slaveError)

/-- `read_bytes`. -/
def readBytes (m : SparseMemory) (address : Address) (size : Nat) : MemoryBytesResult :=
  let after := m.readInto address (List.replicate size 0)
  { data := after.1, status := after.2 }

/-- `write_without_callback`. -/
def write (m : SparseMemory) (address : Address) (data byteEnable : List Byte) :
    SparseMemory × MemoryWriteResponse :=
  match m.findRegion address data.length with
  | none => (m, { status := .decodeError })
  | some region =>
      if region.config.permission.writable then
        (m.setRegion (region.storeFrom address byteEnable 0 data), {})
      else (m, { status := .slaveError })

/-- `write_bytes`. -/
def writeBytes (m : SparseMemory) (address : Address) (data byteEnable : List Byte) :
    Except MemoryError (SparseMemory × MemoryWriteResponse) :=
  if byteEnable ≠ [] ∧ byteEnable.length ≠ data.length then .error .byteEnableCount
  else .ok (m.write address data byteEnable)

/-- `load`. -/
def load (m : SparseMemory) (address : Address) (data : List Byte) :
    Except MemoryError SparseMemory :=
  (m.requireRegion address data.length).map fun region =>
    m.setRegion (region.storeFrom address [] 0 data)

/-- `fill`. -/
def fill (m : SparseMemory) (address : Address) (size : Nat) (value : Byte) :
    Except MemoryError SparseMemory :=
  (m.requireRegion address size).map fun region =>
    m.setRegion (region.storeFrom address [] 0 (List.replicate size value))

/-- `inspect`. -/
def inspect (m : SparseMemory) (address : Address) (size : Nat) : Except MemoryError (List Byte) :=
  (m.requireRegion address size).map fun region => region.loadAll address size

/-! ### Words -/

/-- `normalize_address`. -/
def normalizeAddress (address : Int) : Except MemoryError Address :=
  if address < 0 then .error .negativeAddress else .ok (BitVec.ofInt 64 address)

/-- `byte_order`. -/
def byteOrder (m : SparseMemory) (address : Address) (size : Nat) : MemoryByteOrder :=
  match m.findRegion address size with
  | some region => region.config.byteOrder
  | none => .littleEndian

/-- The value lane of an address lane. -/
def shiftIndex (order : MemoryByteOrder) (n index : Nat) : Nat :=
  match order with
  | .littleEndian => index
  | .bigEndian => n - 1 - index

/-- The loop of `read_word`. -/
def wordOfBytes (order : MemoryByteOrder) (n : Nat) (bytes : List Byte) : BitVec (8 * n) :=
  (List.range n).foldl (fun value index =>
    value ||| ((bytes.getD index 0).setWidth (8 * n) <<< (shiftIndex order n index * 8))) 0

/-- The bytes `write_word` writes. -/
def bytesOfWord (order : MemoryByteOrder) (n : Nat) (value : BitVec (8 * n)) : List Byte :=
  (List.range n).map fun index => (value >>> (shiftIndex order n index * 8)).setWidth 8

/-- The byte enables `write_word` writes. -/
def enablesOfWord (n byteEnable : Nat) : List Byte :=
  (List.range n).map fun index => BitVec.ofNat 8 ((byteEnable >>> index) &&& 1)

/-- `read_word` of `n` bytes. -/
def readWord (m : SparseMemory) (n : Nat) (address : Int) :
    Except MemoryError (MemoryReadResponse n) :=
  (normalizeAddress address).map fun normalized =>
    let after := m.readInto normalized (List.replicate n 0)
    { data := wordOfBytes (m.byteOrder normalized n) n after.1, status := after.2 }

/-- `write_word` of `n` bytes with byte enables. -/
def writeWord (m : SparseMemory) (n : Nat) (address : Int) (value : BitVec (8 * n))
    (byteEnable : Nat) : Except MemoryError (SparseMemory × MemoryWriteResponse) :=
  (normalizeAddress address).map fun normalized =>
    m.write normalized (bytesOfWord (m.byteOrder normalized n) n value)
      (enablesOfWord n byteEnable)

/-- `all_bytes` of the `write_word` without byte enables. -/
def allBytes (n : Nat) : Nat := if 64 ≤ n then 2 ^ 64 - 1 else 2 ^ n - 1

end SparseMemory

/-! ### Runs -/

/-- A call of a public function. -/
inductive MemoryCall
  | addRegion (config : MemoryRegionConfig)
  | readBytes (address : Address) (size : Nat)
  | writeBytes (address : Address) (data byteEnable : List Byte)
  | readWord (n : Nat) (address : Int)
  | writeWord (n : Nat) (address : Int) (value : BitVec (8 * n)) (byteEnable : Nat)
  | load (address : Address) (data : List Byte)
  | fill (address : Address) (size : Nat) (value : Byte)
  | inspect (address : Address) (size : Nat)

/-- What a call returns. -/
inductive MemoryReply
  | done
  | bytes (result : MemoryBytesResult)
  | written (response : MemoryWriteResponse)
  | word (n : Nat) (response : MemoryReadResponse n)
  | inspected (data : List Byte)
  deriving DecidableEq

namespace SparseMemory

/-- The memory and the reply of a call that may have thrown. -/
def settle {ρ : Type} (m : SparseMemory) (memory : ρ → SparseMemory) (reply : ρ → MemoryReply) :
    Except MemoryError ρ → SparseMemory × Except MemoryError MemoryReply
  | .ok result => (memory result, .ok (reply result))
  | .error error => (m, .error error)

/-- Make a call. -/
def perform (m : SparseMemory) : MemoryCall → SparseMemory × Except MemoryError MemoryReply
  | .addRegion config => m.settle id (fun _ => .done) (m.addRegion config)
  | .readBytes address size => (m, .ok (.bytes (m.readBytes address size)))
  | .writeBytes address data byteEnable =>
      m.settle Prod.fst (fun after => .written after.2) (m.writeBytes address data byteEnable)
  | .readWord n address => m.settle (fun _ => m) (.word n) (m.readWord n address)
  | .writeWord n address value byteEnable =>
      m.settle Prod.fst (fun after => .written after.2) (m.writeWord n address value byteEnable)
  | .load address data => m.settle id (fun _ => .done) (m.load address data)
  | .fill address size value => m.settle id (fun _ => .done) (m.fill address size value)
  | .inspect address size => m.settle (fun _ => m) .inspected (m.inspect address size)

/-- Make calls in order. -/
def performAll (m : SparseMemory) (calls : List MemoryCall) : SparseMemory :=
  calls.foldl (fun m call => (m.perform call).1) m

end SparseMemory

end Cpptb.Memory
