/-
Register access coverage.

`RegisterAccessCoverage` counts, for each register, field and memory of a block, the transactions that
reach it. `write` finds the target of a transaction either by a scan of the entries
(`sampleRegisterTransfer`, `sampleMemoryTransfer`) or, when the block spans no more than
`actionTableLimit` bytes, in a table with an action for each byte address (`buildActionTable`).

The addresses are the 64-bit values of the source; a sum or difference that it does not check before is
reduced by `wrap`. `undefined` behaviour (a write past the end of the table) is `none`.
-/

import Mathlib

namespace Cpptb.Vc

/-! ### The register map -/

/-- `RegisterAccess`. -/
inductive RegisterAccess
  | none
  | readOnly
  | writeOnly
  | readWrite
  | writeOnce
  | readWriteOnce
  deriving DecidableEq, Repr

/-- `register_readable`. -/
def registerReadable : RegisterAccess → Bool
  | .readOnly | .readWrite | .readWriteOnce => true
  | .none | .writeOnly | .writeOnce => false

/-- `register_writable`. -/
def registerWritable : RegisterAccess → Bool
  | .writeOnly | .readWrite | .writeOnce | .readWriteOnce => true
  | .none | .readOnly => false

/-- `RegisterEndianness`. -/
inductive RegisterEndianness
  | little
  | big
  deriving DecidableEq, Repr

/-- `RegisterFieldDescriptor`. -/
structure RegisterFieldDescriptor where
  path : String
  lsb : UInt16 := 0
  width : UInt16 := 0
  access : RegisterAccess := .readWrite
  deriving DecidableEq, Repr

/-- `RegisterDescriptor`. -/
structure RegisterDescriptor where
  path : String
  address : UInt64 := 0
  width : UInt16 := 32
  accessWidth : UInt16 := 32
  endianness : RegisterEndianness := .little
  fields : List RegisterFieldDescriptor := []
  deriving DecidableEq, Repr

/-- `RegisterMemoryDescriptor`. -/
structure RegisterMemoryDescriptor where
  path : String
  address : UInt64 := 0
  entries : UInt64 := 0
  width : UInt16 := 0
  access : RegisterAccess := .readWrite
  deriving DecidableEq, Repr

/-- `RegisterBlockDescriptor`. -/
structure RegisterBlockDescriptor where
  registers : List RegisterDescriptor := []
  memories : List RegisterMemoryDescriptor := []
  deriving DecidableEq, Repr

/-! ### The transactions -/

/-- `MemoryOperation`. -/
inductive MemoryOperation
  | read
  | write
  deriving DecidableEq, Repr

/-- `MemoryStatus`. -/
inductive MemoryStatus
  | okay
  | slaveError
  | decodeError
  | timeout
  deriving DecidableEq, Repr

/-- `memory_okay`. -/
def memoryOkay (status : MemoryStatus) : Bool :=
  status == .okay

/-- `AccessPath`. -/
inductive AccessPath
  | frontdoor
  | backdoor
  deriving DecidableEq, Repr

/-- What `write` reads of a `MemoryTransaction`. The address is a value of any integral type. -/
structure MemoryTransaction where
  operation : MemoryOperation := .read
  address : Int := 0
  byteEnable : UInt64 := 0xFFFFFFFFFFFFFFFF
  status : MemoryStatus := .okay
  deriving DecidableEq, Repr

/-! ### The counters -/

/-- `RegisterCoverageKind`. -/
inductive RegisterCoverageKind
  | register
  | field
  | memory
  deriving DecidableEq, Repr

/-- `IndexSet`: a bitmap for a memory of at most `kBitmapLimit` entries, otherwise a set. -/
structure IndexSet where
  bitmap : List UInt64 := []
  sparse : List Nat := []
  unique : Nat := 0
  deriving DecidableEq, Repr

namespace IndexSet

/-- `kBitmapLimit`. -/
def bitmapLimit : Nat := 2 ^ 20

/-- `configure`. -/
def configure (entries : Nat) (indices : IndexSet) : IndexSet :=
  if entries ≤ bitmapLimit then { indices with bitmap := List.replicate ((entries + 63) / 64) 0 }
  else indices

/-- `insert`. -/
def insert (index : Nat) (indices : IndexSet) : IndexSet :=
  if indices.bitmap = [] then
    if index ∈ indices.sparse then indices
    else { indices with sparse := index :: indices.sparse, unique := indices.unique + 1 }
  else
    let bit : UInt64 := 1 <<< UInt64.ofNat (index % 64)
    let word := indices.bitmap.getD (index / 64) 0
    { indices with
      bitmap := indices.bitmap.set (index / 64) (word ||| bit)
      unique := indices.unique + if word &&& bit = 0 then 1 else 0 }

end IndexSet

/-- `CountCells`: `counts[operation is write][path is backdoor]`. -/
structure CountCells where
  frontdoorReads : Nat := 0
  frontdoorWrites : Nat := 0
  backdoorReads : Nat := 0
  backdoorWrites : Nat := 0
  deriving DecidableEq, Repr

/-- One addition to `counts`. -/
def CountCells.add (operation : MemoryOperation) (path : AccessPath) (amount : Nat)
    (cells : CountCells) : CountCells :=
  match operation, path with
  | .read, .frontdoor => { cells with frontdoorReads := cells.frontdoorReads + amount }
  | .write, .frontdoor => { cells with frontdoorWrites := cells.frontdoorWrites + amount }
  | .read, .backdoor => { cells with backdoorReads := cells.backdoorReads + amount }
  | .write, .backdoor => { cells with backdoorWrites := cells.backdoorWrites + amount }

/-- `Counter`. -/
structure Counter where
  path : String
  kind : RegisterCoverageKind := .register
  readable : Bool := false
  writable : Bool := false
  readIndices : IndexSet := {}
  writtenIndices : IndexSet := {}
  deriving DecidableEq, Repr

/-- `operation_allowed`. -/
def operationAllowed (counter : Counter) : MemoryOperation → Bool
  | .read => counter.readable
  | .write => counter.writable

/-! ### The entries and the actions -/

/-- `FieldEntry`. -/
structure FieldEntry where
  descriptor : RegisterFieldDescriptor
  counter : Nat
  deriving DecidableEq, Repr

/-- `RegisterEntry`. -/
structure RegisterEntry where
  descriptor : RegisterDescriptor
  address : Nat
  endAddress : Nat
  counter : Nat
  transferBytes : Nat
  transferShift : Nat
  transferPow2 : Bool
  fields : List FieldEntry
  deriving DecidableEq, Repr

/-- `MemoryEntry`. -/
structure MemoryEntry where
  descriptor : RegisterMemoryDescriptor
  address : Nat
  endAddress : Nat
  counter : Nat
  elementBytes : Nat
  elementShift : Nat
  elementPow2 : Bool
  deriving DecidableEq, Repr

/-- `FieldAction`. -/
structure FieldAction where
  counter : Nat
  writeByteMask : UInt64
  readTouched : Bool
  deriving DecidableEq, Repr

/-- Whether a transaction touches the field of a field action. -/
def FieldAction.touched (operation : MemoryOperation) (byteEnable : UInt64) (field : FieldAction) : Bool :=
  match operation with
  | .write => byteEnable &&& field.writeByteMask != 0
  | .read => field.readTouched

/-- `Action::Kind`. -/
inductive ActionKind
  | none
  | register
  | memory
  deriving DecidableEq, Repr

/-- `Action`. The position and the number of its field actions are 8-bit values. -/
structure Action where
  kind : ActionKind := .none
  counter : Nat := 0
  memoryIndex : Nat := 0
  memoryEntry : Nat := 0
  fieldBegin : UInt8 := 0
  fieldCount : UInt8 := 0
  deriving DecidableEq, Repr

/-- The field actions an action selects, with `field_begin + f` as an index. -/
def Action.selected (fieldActions : List FieldAction) (action : Action) : List FieldAction :=
  (fieldActions.drop action.fieldBegin.toNat).take action.fieldCount.toNat

/-- `table_base_`, `actions_` and `field_actions_`. -/
structure ActionTable where
  tableBase : Nat := 0
  actions : List Action := []
  fieldActions : List FieldAction := []
  deriving DecidableEq, Repr

/-- `RegisterAccessCoverage`. -/
structure RegisterAccessCoverage where
  name : String
  table : ActionTable := {}
  counters : List Counter := []
  cells : List CountCells := []
  registers : List RegisterEntry := []
  memories : List MemoryEntry := []
  samples : Nat := 0
  failed : Nat := 0
  unmapped : Nat := 0
  deriving DecidableEq, Repr

/-! ### Addresses and fields -/

/-- A `uint64_t` value. -/
def wrap (value : Nat) : Nat :=
  value % 2 ^ 64

/-- `normalize_address`. -/
def normalizeAddress (address : Int) : Option Nat :=
  if address < 0 then none else some (wrap address.toNat)

/-- `checked_address`. -/
def checkedAddress (base offset : Nat) (path : String) : Except String Nat :=
  if offset > 2 ^ 64 - 1 - base then
    .error s!"cpptb-vc: register access coverage address overflows: {path}"
  else .ok (base + offset)

/-- `checked_product`. -/
def checkedProduct (left right : Nat) (path : String) : Except String Nat :=
  if left ≠ 0 ∧ right > (2 ^ 64 - 1) / left then
    .error s!"cpptb-vc: register access coverage memory size overflows: {path}"
  else .ok (left * right)

/-- `log2_exact`, whose loop ends before the shift reaches the bound. -/
def log2Exact (value : Nat) : Nat :=
  ((List.range 64).find? fun shift => value ≤ 2 ^ shift).getD 64

/-- Whether a size is a power of two, as the constructors of the entries test it. -/
def isPow2 (bytes : Nat) : Bool :=
  bytes != 0 && bytes &&& (bytes - 1) == 0

/-- `bit_lsb` of a transfer, a 64-bit computation that may wrap. -/
def bitLsb (descriptor : RegisterDescriptor) (transfer : Nat) : UInt64 :=
  match descriptor.endianness with
  | .little => UInt64.ofNat transfer * descriptor.accessWidth.toUInt64
  | .big => descriptor.width.toUInt64 - (UInt64.ofNat transfer + 1) * descriptor.accessWidth.toUInt64

/-- The bytes of a transfer that a field overlaps, if any: the computation that `field_touched` and
`build_action_table` both write out. A shift by 64 or more takes its amount modulo 64. -/
def overlapMask (field : RegisterFieldDescriptor) (transferLsb : UInt64) (transferWidth : UInt16) :
    Option UInt64 :=
  let fieldEnd := field.lsb.toUInt64 + field.width.toUInt64
  let transferEnd := transferLsb + transferWidth.toUInt64
  let first := max field.lsb.toUInt64 transferLsb
  let last := min fieldEnd transferEnd
  if first ≥ last then none
  else
    let firstByte := (first - transferLsb) / 8
    let lastByte := (last - 1 - transferLsb) / 8
    let span := lastByte - firstByte + 1
    some (if span ≥ 64 then 0xFFFFFFFFFFFFFFFF else ((1 <<< span) - 1) <<< firstByte)

/-- `field_touched`. -/
def fieldTouched (field : RegisterFieldDescriptor) (transferLsb : UInt64) (transferWidth : UInt16)
    (operation : MemoryOperation) (byteEnable : UInt64) : Bool :=
  match overlapMask field transferLsb transferWidth, operation with
  | none, _ => false
  | some _, .read => true
  | some mask, .write => byteEnable &&& mask != 0

/-- The field actions of one transfer of a register. -/
def transferFieldActions (entry : RegisterEntry) (transfer : Nat) : List FieldAction :=
  entry.fields.filterMap fun field =>
    (overlapMask field.descriptor (bitLsb entry.descriptor transfer) entry.descriptor.accessWidth).map
      fun mask => { counter := field.counter, writeByteMask := mask, readTouched := true }

/-! ### The action table -/

namespace ActionTable

/-- `actions_[address - table_base_] = action`, undefined past the end. -/
def place (address : Nat) (action : Action) (table : ActionTable) : Option ActionTable :=
  let index := wrap (address + 2 ^ 64 - table.tableBase)
  if index < table.actions.length then
    some { table with actions := table.actions.set index action }
  else none

/-- One turn of the loop over the transfers of a register. -/
def placeTransfer (entry : RegisterEntry) (offset : Nat) (table : ActionTable) : Option ActionTable :=
  let touched := transferFieldActions entry (offset / entry.transferBytes)
  let action : Action :=
    { kind := .register
      counter := entry.counter
      fieldBegin := UInt8.ofNat table.fieldActions.length
      fieldCount := UInt8.ofNat touched.length }
  { table with fieldActions := table.fieldActions ++ touched }.place (wrap (entry.address + offset)) action

/-- The loop over the transfers of a register. Each turn that goes on has placed an action further up
the table, so that the loop is over before a fuel above its length is used up. -/
def placeTransfers (entry : RegisterEntry) : Nat → Nat → ActionTable → Option ActionTable
  | 0, _, _ => none
  | fuel + 1, offset, table =>
      if wrap (entry.address + offset) < entry.endAddress then
        (table.placeTransfer entry offset).bind
          (placeTransfers entry fuel (wrap (offset + entry.transferBytes)))
      else some table

/-- The table with the actions of a register. -/
def addRegister (table : ActionTable) (entry : RegisterEntry) : Option ActionTable :=
  if entry.transferBytes = 0 then some table
  else placeTransfers entry (table.actions.length + 1) 0 table

/-- The loop over the bytes of a memory element; the first number counts the bytes that are left. -/
def placeBytes (entry : MemoryEntry) (action : Action) : Nat → Nat → ActionTable → Option ActionTable
  | 0, _, table => some table
  | left + 1, offset, table =>
      if wrap (entry.address + offset) < entry.endAddress then
        (table.place (wrap (entry.address + offset)) action).bind
          (placeBytes entry action left (offset + 1))
      else some table

/-- The loop over the elements of a memory, with fuel as in `placeTransfers`. -/
def placeElements (entry : MemoryEntry) (position : Nat) :
    Nat → Nat → Nat → ActionTable → Option ActionTable
  | 0, _, _, _ => none
  | fuel + 1, index, offset, table =>
      if wrap (entry.address + offset) < entry.endAddress then
        let action : Action :=
          { kind := .memory, counter := entry.counter, memoryIndex := index, memoryEntry := position }
        (table.placeBytes entry action entry.elementBytes offset).bind
          (placeElements entry position fuel (index + 1) (wrap (offset + entry.elementBytes)))
      else some table

/-- The table with the actions of the memory at a position of `memories_`. -/
def addMemory (table : ActionTable) (placed : MemoryEntry × Nat) : Option ActionTable :=
  if placed.1.elementBytes = 0 then some table
  else placeElements placed.1 placed.2 (table.actions.length + 1) 0 0 table

end ActionTable

namespace RegisterAccessCoverage

/-- `kActionTableLimit`. -/
def actionTableLimit : Nat := 2 ^ 20

/-- `low`, the lowest address of an entry. -/
def low (coverage : RegisterAccessCoverage) : Nat :=
  (coverage.registers.map (·.address) ++ coverage.memories.map (·.address)).foldl min (2 ^ 64 - 1)

/-- `high`, the highest end address of an entry. -/
def high (coverage : RegisterAccessCoverage) : Nat :=
  (coverage.registers.map (·.endAddress) ++ coverage.memories.map (·.endAddress)).foldl max 0

/-- `build_action_table`. -/
def buildActionTable (coverage : RegisterAccessCoverage) : Option RegisterAccessCoverage :=
  let low := coverage.low
  let high := coverage.high
  if high ≤ low ∨ high - low > actionTableLimit then some coverage
  else do
    let table : ActionTable := { tableBase := low, actions := List.replicate (high - low) {} }
    let table ← coverage.registers.foldlM ActionTable.addRegister table
    let table ← coverage.memories.zipIdx.foldlM ActionTable.addMemory table
    some { coverage with table := table }

/-! ### Construction -/

/-- `descriptor_readable`. -/
def descriptorReadable (descriptor : RegisterDescriptor) : Bool :=
  descriptor.fields.isEmpty || descriptor.fields.any fun field => registerReadable field.access

/-- `descriptor_writable`. -/
def descriptorWritable (descriptor : RegisterDescriptor) : Bool :=
  descriptor.fields.isEmpty || descriptor.fields.any fun field => registerWritable field.access

/-- `add_counter`; the new counter is the last one. -/
def addCounter (path : String) (kind : RegisterCoverageKind) (readable writable : Bool)
    (coverage : RegisterAccessCoverage) : RegisterAccessCoverage :=
  { coverage with
    counters := coverage.counters ++
      [{ path := path, kind := kind, readable := readable, writable := writable }]
    cells := coverage.cells ++ [{}] }

/-- The counters and the entries of the fields of a register. -/
def addFields (coverage : RegisterAccessCoverage) :
    List RegisterFieldDescriptor → RegisterAccessCoverage × List FieldEntry
  | [] => (coverage, [])
  | field :: rest =>
      let added := coverage.addCounter field.path .field (registerReadable field.access)
        (registerWritable field.access)
      let (filled, entries) := addFields added rest
      (filled, { descriptor := field, counter := coverage.counters.length } :: entries)

/-- The loop of `build_entries` over the registers. -/
def addRegister (baseAddress : Nat) (coverage : RegisterAccessCoverage) (descriptor : RegisterDescriptor) :
    Except String RegisterAccessCoverage := do
  let address ← checkedAddress baseAddress descriptor.address.toNat descriptor.path
  let transferBytes := descriptor.accessWidth.toNat / 8
  let endAddress ← checkedAddress address (descriptor.width.toNat / 8) descriptor.path
  let counted := coverage.addCounter descriptor.path .register (descriptorReadable descriptor)
    (descriptorWritable descriptor)
  let (filled, fields) := addFields counted descriptor.fields
  let entry : RegisterEntry :=
    { descriptor := descriptor
      address := address
      endAddress := endAddress
      counter := coverage.counters.length
      transferBytes := transferBytes
      transferShift := log2Exact (if transferBytes = 0 then 1 else transferBytes)
      transferPow2 := isPow2 transferBytes
      fields := fields }
  return { filled with registers := filled.registers ++ [entry] }

/-- The loop of `build_entries` over the memories. -/
def addMemory (baseAddress : Nat) (coverage : RegisterAccessCoverage)
    (descriptor : RegisterMemoryDescriptor) : Except String RegisterAccessCoverage := do
  let address ← checkedAddress baseAddress descriptor.address.toNat descriptor.path
  let bytes ← checkedProduct descriptor.entries.toNat (descriptor.width.toNat / 8) descriptor.path
  let elementBytes := descriptor.width.toNat / 8
  let endAddress ← checkedAddress address bytes descriptor.path
  let counter : Counter :=
    { path := descriptor.path
      kind := .memory
      readable := registerReadable descriptor.access
      writable := registerWritable descriptor.access
      readIndices := IndexSet.configure descriptor.entries.toNat {}
      writtenIndices := IndexSet.configure descriptor.entries.toNat {} }
  let entry : MemoryEntry :=
    { descriptor := descriptor
      address := address
      endAddress := endAddress
      counter := coverage.counters.length
      elementBytes := elementBytes
      elementShift := log2Exact (if elementBytes = 0 then 1 else elementBytes)
      elementPow2 := isPow2 elementBytes }
  return { coverage with
    counters := coverage.counters ++ [counter]
    cells := coverage.cells ++ [{}]
    memories := coverage.memories ++ [entry] }

/-- The entries of `build_entries`, before the table: this coverage takes the scan path. -/
def scanning (block : RegisterBlockDescriptor) (baseAddress : UInt64) (name : String) :
    Except String RegisterAccessCoverage := do
  if name.isEmpty then .error "cpptb-vc: register access coverage name is empty"
  let coverage ← block.registers.foldlM (addRegister baseAddress.toNat) { name := name }
  let coverage ← block.memories.foldlM (addMemory baseAddress.toNat) coverage
  return { coverage with
    registers := coverage.registers.insertionSort fun left right => left.address ≤ right.address
    memories := coverage.memories.insertionSort fun left right => left.address ≤ right.address }

/-! ### Sampling -/

/-- `sample_counter`, which adds nothing when the operation is not allowed. -/
def sampleCounter (operation : MemoryOperation) (path : AccessPath) (coverage : RegisterAccessCoverage)
    (index : Nat) : RegisterAccessCoverage :=
  match coverage.counters[index]? with
  | none => coverage
  | some counter =>
      let amount := if operationAllowed counter operation then 1 else 0
      { coverage with cells := coverage.cells.modify index (CountCells.add operation path amount) }

/-- `sample_index`. -/
def sampleIndex (entry : MemoryEntry) (index : Nat) (operation : MemoryOperation)
    (coverage : RegisterAccessCoverage) : RegisterAccessCoverage :=
  let record (counter : Counter) : Counter :=
    match operation with
    | .read => { counter with readIndices := counter.readIndices.insert index }
    | .write => { counter with writtenIndices := counter.writtenIndices.insert index }
  { coverage with counters := coverage.counters.modify entry.counter record }

/-- `++samples_`. -/
def countSample (coverage : RegisterAccessCoverage) : RegisterAccessCoverage :=
  { coverage with samples := coverage.samples + 1 }

/-- `++unmapped_`. -/
def countUnmapped (coverage : RegisterAccessCoverage) : RegisterAccessCoverage :=
  { coverage with unmapped := coverage.unmapped + 1 }

/-- The transfer of a register at an offset, if it is aligned. -/
def transferAt (entry : RegisterEntry) (offset : Nat) : Option Nat :=
  if entry.transferBytes = 0 then none
  else if entry.transferPow2 then
    if offset &&& (entry.transferBytes - 1) ≠ 0 then none else some (offset >>> entry.transferShift)
  else if offset % entry.transferBytes ≠ 0 then none
  else some (offset / entry.transferBytes)

/-- `sample_register_transfer`; `none` for the answer `false`. -/
def sampleRegisterTransfer (address : Nat) (operation : MemoryOperation) (byteEnable : UInt64)
    (coverage : RegisterAccessCoverage) : Option RegisterAccessCoverage := do
  let entry ← coverage.registers.find? fun entry =>
    entry.address ≤ address && address < entry.endAddress
  let transfer ← transferAt entry (address - entry.address)
  let touched := entry.fields.filter fun field =>
    fieldTouched field.descriptor (bitLsb entry.descriptor transfer) entry.descriptor.accessWidth
      operation byteEnable
  return (touched.map (·.counter)).foldl (sampleCounter operation .frontdoor)
    (coverage.sampleCounter operation .frontdoor entry.counter)

/-- `sample_memory_transfer`; `none` for the answer `false`. -/
def sampleMemoryTransfer (address : Nat) (operation : MemoryOperation)
    (coverage : RegisterAccessCoverage) : Option RegisterAccessCoverage := do
  let entry ← coverage.memories.find? fun entry =>
    entry.address ≤ address && address < entry.endAddress
  let offset := address - entry.address
  let index := if entry.elementPow2 then offset >>> entry.elementShift else offset / entry.elementBytes
  return (coverage.sampleCounter operation .frontdoor entry.counter).sampleIndex entry index operation

/-- What `write` does for an action of the table. -/
def sampleAction (action : Action) (operation : MemoryOperation) (byteEnable : UInt64)
    (coverage : RegisterAccessCoverage) : RegisterAccessCoverage :=
  match action.kind with
  | .register =>
      let touched := (action.selected coverage.table.fieldActions).filter
        (FieldAction.touched operation byteEnable)
      ((touched.map (·.counter)).foldl (sampleCounter operation .frontdoor)
        (coverage.sampleCounter operation .frontdoor action.counter)).countSample
  | .memory =>
      let sampled := coverage.sampleCounter operation .frontdoor action.counter
      match sampled.memories[action.memoryEntry]? with
      | none => sampled.countSample
      | some entry => (sampled.sampleIndex entry action.memoryIndex operation).countSample
  | .none => coverage.countUnmapped

/-- `write` of a transaction. -/
def write (coverage : RegisterAccessCoverage) (transaction : MemoryTransaction) :
    RegisterAccessCoverage :=
  if !memoryOkay transaction.status then { coverage with failed := coverage.failed + 1 }
  else
    match normalizeAddress transaction.address with
    | none => coverage.countUnmapped
    | some address =>
        if coverage.table.actions ≠ [] then
          let offset := wrap (address + 2 ^ 64 - coverage.table.tableBase)
          match coverage.table.actions[offset]? with
          | some action => coverage.sampleAction action transaction.operation transaction.byteEnable
          | none => coverage.countUnmapped
        else
          match coverage.sampleRegisterTransfer address transaction.operation transaction.byteEnable with
          | some sampled => sampled.countSample
          | none =>
              match coverage.sampleMemoryTransfer address transaction.operation with
              | some sampled => sampled.countSample
              | none => coverage.countUnmapped

/-! ### The snapshot -/

/-- `RegisterAccessCoverageEntrySnapshot`. -/
structure EntrySnapshot where
  path : String
  kind : RegisterCoverageKind
  readable : Bool
  writable : Bool
  frontdoorReads : Nat
  frontdoorWrites : Nat
  backdoorReads : Nat
  backdoorWrites : Nat
  uniqueReadIndices : Nat
  uniqueWrittenIndices : Nat
  deriving DecidableEq, Repr

/-- `RegisterAccessCoverageSnapshot`. -/
structure Snapshot where
  name : String
  samples : Nat
  failed : Nat
  unmapped : Nat
  entries : List EntrySnapshot
  deriving DecidableEq, Repr

/-- One entry of `snapshot`. -/
def entrySnapshot (counter : Counter) (cells : CountCells) : EntrySnapshot where
  path := counter.path
  kind := counter.kind
  readable := counter.readable
  writable := counter.writable
  frontdoorReads := cells.frontdoorReads
  frontdoorWrites := cells.frontdoorWrites
  backdoorReads := cells.backdoorReads
  backdoorWrites := cells.backdoorWrites
  uniqueReadIndices := counter.readIndices.unique
  uniqueWrittenIndices := counter.writtenIndices.unique

/-- `snapshot`. -/
def snapshot (coverage : RegisterAccessCoverage) : Snapshot where
  name := coverage.name
  samples := coverage.samples
  failed := coverage.failed
  unmapped := coverage.unmapped
  entries := List.zipWith entrySnapshot coverage.counters coverage.cells

end RegisterAccessCoverage

end Cpptb.Vc
