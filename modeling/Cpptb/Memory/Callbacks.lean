/-
The sparse memory with a callback.

A `MemoryAccessCallback` is called before and after each read and write, and may rewrite the event it
is given: the bytes and the byte enables of the spans, and the status. Its own state is the `σ` that
runs through the accesses. The operations here are those of `SparseMemory` in its words, with the
callback that `set_callback` installs; without one they are the operations of the sparse memory.

* `storeMutableFrom_eq` — the loop over the copied byte enables writes as the loop over the given ones;
* `writeMutable_transparent`, `readIntoWith_transparent` — one access under a callback that leaves
  events as they are;
* `performWith_transparent` — one call;
* `callback_transparent` — a run of calls.
-/

import Cpptb.Memory.SparseMemory

namespace Cpptb.Memory

open SparseMemory

/-- `MemoryOperation`. -/
inductive MemoryOperation
  | read
  | write
  deriving DecidableEq, Repr

/-- `MemoryAccessEvent`. -/
structure MemoryAccessEvent where
  operation : MemoryOperation := .read
  address : Address := 0
  data : List Byte
  byteEnable : List Byte
  status : MemoryStatus := .okay
  region : String
  deriving DecidableEq, Repr

/-- Two events with spans of the same sizes. -/
def MemoryAccessEvent.SameSizes (event event' : MemoryAccessEvent) : Prop :=
  event.data.length = event'.data.length ∧ event.byteEnable.length = event'.byteEnable.length

/-- `MemoryAccessCallback`. It writes through the spans of an event, which keep their sizes. -/
structure MemoryAccessCallback (σ : Type) where
  beforeAccess : σ → MemoryAccessEvent → σ × MemoryAccessEvent
  afterAccess : σ → MemoryAccessEvent → σ × MemoryAccessEvent
  before_sizes : ∀ s event, (beforeAccess s event).2.SameSizes event
  after_sizes : ∀ s event, (afterAccess s event).2.SameSizes event

namespace MemoryAccessCallback

variable {σ : Type}

/-- The callback leaves every event as it is. What it keeps for itself may change. -/
def Transparent (callback : MemoryAccessCallback σ) : Prop :=
  ∀ s event, (callback.beforeAccess s event).2 = event ∧ (callback.afterAccess s event).2 = event

/-- The callback of the base class. -/
def base : MemoryAccessCallback Unit where
  beforeAccess s event := (s, event)
  afterAccess s event := (s, event)
  before_sizes _ _ := ⟨rfl, rfl⟩
  after_sizes _ _ := ⟨rfl, rfl⟩

theorem base_transparent : base.Transparent := fun _ _ => ⟨rfl, rfl⟩

/-- A callback that counts its calls. -/
def counting : MemoryAccessCallback Nat where
  beforeAccess s event := (s + 1, event)
  afterAccess s event := (s + 1, event)
  before_sizes _ _ := ⟨rfl, rfl⟩
  after_sizes _ _ := ⟨rfl, rfl⟩

theorem counting_transparent : counting.Transparent := fun _ _ => ⟨rfl, rfl⟩

end MemoryAccessCallback

/-- The loop of `write_mutable`, from an index on. -/
def Region.storeMutableFrom (region : Region) (address : Address) (byteEnable : List Byte) :
    Nat → List Byte → Region
  | _, [] => region
  | index, value :: rest =>
      (if byteEnable.getD index 0 = 0 then region
        else region.storeByte address index value).storeMutableFrom address byteEnable (index + 1) rest

/-- The name of the region of an event. -/
def eventRegion : Option Region → String
  | some region => region.config.name
  | none => ""

namespace SparseMemory

variable {σ : Type}

/-! ### Bytes -/

/-- `read_into`. -/
def readIntoWith (m : SparseMemory) (callback : Option (MemoryAccessCallback σ)) (s : σ)
    (address : Address) (data : List Byte) : σ × List Byte × MemoryStatus :=
  match callback with
  | none => (s, m.readInto address data)
  | some callback =>
      let region := m.findRegion address data.length
      let (s, event) := callback.beforeAccess s
        { operation := .read, address := address, data := data, byteEnable := []
          region := eventRegion region }
      let event :=
        if event.status = .okay then
          match region with
          | none => { event with status := .decodeError }
          | some region =>
              if region.config.permission.readable then
                { event with data := region.loadAll address data.length }
              else { event with status := .slaveError }
        else event
      let (s, event) := callback.afterAccess s event
      (s, event.data, event.status)

/-- `read_bytes`. -/
def readBytesWith (m : SparseMemory) (callback : Option (MemoryAccessCallback σ)) (s : σ)
    (address : Address) (size : Nat) : σ × MemoryBytesResult :=
  let (s, data, status) := m.readIntoWith callback s address (List.replicate size 0)
  (s, { data := data, status := status })

/-- `write_mutable`. -/
def writeMutable (m : SparseMemory) (callback : MemoryAccessCallback σ) (s : σ) (address : Address)
    (data byteEnable : List Byte) : σ × SparseMemory × MemoryWriteResponse :=
  let region := m.findRegion address data.length
  let (s, event) := callback.beforeAccess s
    { operation := .write, address := address, data := data, byteEnable := byteEnable
      region := eventRegion region }
  let (m, event) :=
    if event.status = .okay then
      match region with
      | none => (m, { event with status := .decodeError })
      | some region =>
          if region.config.permission.writable then
            (m.setRegion (region.storeMutableFrom address event.byteEnable 0 event.data), event)
          else (m, { event with status := .slaveError })
    else (m, event)
  let (s, event) := callback.afterAccess s event
  (s, m, { status := event.status })

/-- `mutable_enable` of `write_bytes`. -/
def mutableEnable (data byteEnable : List Byte) : List Byte :=
  if byteEnable = [] then List.replicate data.length 1
  else byteEnable.map fun enable => if enable ≠ 0 then 1 else 0

/-- `write_bytes`. -/
def writeBytesWith (m : SparseMemory) (callback : Option (MemoryAccessCallback σ)) (s : σ)
    (address : Address) (data byteEnable : List Byte) :
    Except MemoryError (σ × SparseMemory × MemoryWriteResponse) :=
  if byteEnable ≠ [] ∧ byteEnable.length ≠ data.length then .error .byteEnableCount
  else
    match callback with
    | none => .ok (s, m.write address data byteEnable)
    | some callback =>
        .ok (m.writeMutable callback s address data (mutableEnable data byteEnable))

/-! ### Words -/

/-- `read_word` of `n` bytes. -/
def readWordWith (m : SparseMemory) (callback : Option (MemoryAccessCallback σ)) (s : σ) (n : Nat)
    (address : Int) : Except MemoryError (σ × MemoryReadResponse n) :=
  (normalizeAddress address).map fun normalized =>
    let (s, bytes, status) := m.readIntoWith callback s normalized (List.replicate n 0)
    (s, { data := wordOfBytes (m.byteOrder normalized n) n bytes, status := status })

/-- `write_word` of `n` bytes with byte enables. -/
def writeWordWith (m : SparseMemory) (callback : Option (MemoryAccessCallback σ)) (s : σ) (n : Nat)
    (address : Int) (value : BitVec (8 * n)) (byteEnable : Nat) :
    Except MemoryError (σ × SparseMemory × MemoryWriteResponse) :=
  (normalizeAddress address).map fun normalized =>
    let bytes := bytesOfWord (m.byteOrder normalized n) n value
    let enables := enablesOfWord n byteEnable
    match callback with
    | none => (s, m.write normalized bytes enables)
    | some callback => m.writeMutable callback s normalized bytes enables

/-! ### Runs -/

/-- Make a call. The calls that are no accesses do not reach the callback. -/
def performWith (callback : Option (MemoryAccessCallback σ)) (s : σ) (m : SparseMemory) :
    MemoryCall → σ × SparseMemory × Except MemoryError MemoryReply
  | .readBytes address size =>
      let (s, result) := m.readBytesWith callback s address size
      (s, m, .ok (.bytes result))
  | .writeBytes address data byteEnable =>
      match m.writeBytesWith callback s address data byteEnable with
      | .ok (s, m, response) => (s, m, .ok (.written response))
      | .error error => (s, m, .error error)
  | .readWord n address =>
      match m.readWordWith callback s n address with
      | .ok (s, response) => (s, m, .ok (.word n response))
      | .error error => (s, m, .error error)
  | .writeWord n address value byteEnable =>
      match m.writeWordWith callback s n address value byteEnable with
      | .ok (s, m, response) => (s, m, .ok (.written response))
      | .error error => (s, m, .error error)
  | call => (s, m.perform call)

/-- The replies of calls made in order, and the memory after them. -/
def replies (m : SparseMemory) : List MemoryCall →
    SparseMemory × List (Except MemoryError MemoryReply)
  | [] => (m, [])
  | call :: rest =>
      let (after, reply) := m.perform call
      let (last, replies) := after.replies rest
      (last, reply :: replies)

/-- The replies of calls made in order under a callback, and the memory after them. -/
def repliesWith (callback : Option (MemoryAccessCallback σ)) (s : σ) (m : SparseMemory) :
    List MemoryCall → SparseMemory × List (Except MemoryError MemoryReply)
  | [] => (m, [])
  | call :: rest =>
      let (s, after, reply) := m.performWith callback s call
      let (last, replies) := after.repliesWith callback s rest
      (last, reply :: replies)

end SparseMemory

/-! ### Byte enables -/

/-- A byte of the copy is disabled when the given byte enables disable it. -/
theorem mutableEnable_eq_zero_iff {data byteEnable : List Byte}
    (sizes : ¬(byteEnable ≠ [] ∧ byteEnable.length ≠ data.length)) {index : Nat}
    (inside : index < data.length) :
    (mutableEnable data byteEnable).getD index 0 = 0 ↔
      byteEnable ≠ [] ∧ byteEnable.getD index 0 = 0 := by
  unfold mutableEnable
  by_cases empty : byteEnable = []
  · rw [if_pos empty, List.getD_eq_getElem _ _ (by rwa [List.length_replicate]),
      List.getElem_replicate]
    exact iff_of_false (by decide) fun disabled => disabled.1 empty
  · have same : byteEnable.length = data.length := by
      by_contra different
      exact sizes ⟨empty, different⟩
    have bound : index < byteEnable.length := same ▸ inside
    rw [if_neg empty, List.getD_eq_getElem _ _ (by rwa [List.length_map]), List.getElem_map,
      List.getD_eq_getElem _ _ bound]
    by_cases zero : byteEnable[index] = 0 <;> simp [zero, empty]

theorem enablesOfWord_length (n byteEnable : Nat) : (enablesOfWord n byteEnable).length = n := by
  rw [enablesOfWord, List.length_map, List.length_range]

/-- The loop of `write_mutable` writes as the loop of `write_without_callback` does, when the two
lists of byte enables disable the same bytes. -/
theorem storeMutableFrom_eq (address : Address) (enables byteEnable : List Byte) (data : List Byte)
    (region : Region) (index : Nat)
    (agree : ∀ i, index ≤ i → i < index + data.length →
      (enables.getD i 0 = 0 ↔ byteEnable ≠ [] ∧ byteEnable.getD i 0 = 0)) :
    region.storeMutableFrom address enables index data =
      region.storeFrom address byteEnable index data := by
  induction data generalizing region index with
  | nil => rfl
  | cons value rest ih =>
    have here := agree index le_rfl (by rw [List.length_cons]; omega)
    have later : ∀ i, index + 1 ≤ i → i < index + 1 + rest.length →
        (enables.getD i 0 = 0 ↔ byteEnable ≠ [] ∧ byteEnable.getD i 0 = 0) := fun i above below =>
      agree i (by omega) (by rw [List.length_cons]; omega)
    rw [Region.storeMutableFrom, Region.storeFrom, ih _ _ later]
    congr 1
    exact if_congr here rfl rfl

/-! ### One access -/

section Transparent

variable {σ : Type} {callback : MemoryAccessCallback σ} (transparent : callback.Transparent)

include transparent

theorem before_event (s : σ) (event : MemoryAccessEvent) :
    (callback.beforeAccess s event).2 = event := (transparent s event).1

theorem after_event (s : σ) (event : MemoryAccessEvent) :
    (callback.afterAccess s event).2 = event := (transparent s event).2

/-- A read fills the span and returns the status as without the callback, whatever the span held. -/
theorem readIntoWith_transparent (m : SparseMemory) (s : σ) (address : Address)
    (data : List Byte) :
    (m.readIntoWith (some callback) s address data).2 = m.readInto address data := by
  simp only [readIntoWith, before_event transparent, after_event transparent, readInto]
  cases found : m.findRegion address data.length with
  | none => rfl
  | some region =>
    by_cases readable : region.config.permission.readable = true
    · simp only [readable, if_true]
    · simp only [readable, if_true]
      rfl

/-- A write through the mutable spans stores and returns what the plain write does. -/
theorem writeMutable_transparent (m : SparseMemory) (s : σ) (address : Address)
    (data enables byteEnable : List Byte)
    (agree : ∀ i < data.length,
      (enables.getD i 0 = 0 ↔ byteEnable ≠ [] ∧ byteEnable.getD i 0 = 0)) :
    (m.writeMutable callback s address data enables).2 = m.write address data byteEnable := by
  simp only [writeMutable, before_event transparent, after_event transparent, write]
  cases found : m.findRegion address data.length with
  | none => rfl
  | some region =>
    have stored : region.storeMutableFrom address enables 0 data =
        region.storeFrom address byteEnable 0 data :=
      storeMutableFrom_eq address enables byteEnable data region 0 fun i _ below =>
        agree i (by omega)
    by_cases writable : region.config.permission.writable = true
    · simp only [writable, if_true, stored]
    · simp only [writable, if_true]
      rfl

theorem readBytesWith_transparent (m : SparseMemory) (s : σ) (address : Address) (size : Nat) :
    (m.readBytesWith (some callback) s address size).2 = m.readBytes address size := by
  have same := readIntoWith_transparent transparent m s address (List.replicate size 0)
  simp only [readBytesWith, readBytes, same]

theorem writeBytesWith_transparent (m : SparseMemory) (s : σ) (address : Address)
    (data byteEnable : List Byte) :
    (m.writeBytesWith (some callback) s address data byteEnable).map Prod.snd =
      m.writeBytes address data byteEnable := by
  unfold writeBytesWith writeBytes
  by_cases sizes : byteEnable ≠ [] ∧ byteEnable.length ≠ data.length
  · rw [if_pos sizes, if_pos sizes]
    rfl
  · rw [if_neg sizes, if_neg sizes]
    exact congrArg Except.ok <| writeMutable_transparent transparent m s address data _ byteEnable
      fun i below => mutableEnable_eq_zero_iff sizes below

theorem readWordWith_transparent (m : SparseMemory) (s : σ) (n : Nat) (address : Int) :
    (m.readWordWith (some callback) s n address).map Prod.snd = m.readWord n address := by
  unfold readWordWith readWord
  cases normalizeAddress address with
  | error error => rfl
  | ok normalized =>
    have same := readIntoWith_transparent transparent m s normalized (List.replicate n 0)
    simp only [Except.map, same]

theorem writeWordWith_transparent (m : SparseMemory) (s : σ) (n : Nat) (address : Int)
    (value : BitVec (8 * n)) (byteEnable : Nat) :
    (m.writeWordWith (some callback) s n address value byteEnable).map Prod.snd =
      m.writeWord n address value byteEnable := by
  unfold writeWordWith writeWord
  cases normalizeAddress address with
  | error error => rfl
  | ok normalized =>
    refine congrArg Except.ok (writeMutable_transparent transparent m s normalized _ _ _ ?_)
    intro i below
    have long : (enablesOfWord n byteEnable) ≠ [] := by
      intro empty
      have none : n = 0 := by rw [← enablesOfWord_length n byteEnable, empty, List.length_nil]
      rw [bytesOfWord, List.length_map, List.length_range] at below
      omega
    exact (and_iff_right long).symm

/-! ### Calls -/

/-- A call changes the memory and replies as without the callback. -/
theorem performWith_transparent (m : SparseMemory) (s : σ) (call : MemoryCall) :
    (m.performWith (some callback) s call).2 = m.perform call := by
  cases call with
  | readBytes address size =>
    simp only [performWith, perform, readBytesWith_transparent transparent]
  | writeBytes address data byteEnable =>
    have same := writeBytesWith_transparent transparent m s address data byteEnable
    simp only [performWith, perform, ← same]
    cases m.writeBytesWith (some callback) s address data byteEnable <;> rfl
  | readWord n address =>
    have same := readWordWith_transparent transparent m s n address
    simp only [performWith, perform, ← same]
    cases m.readWordWith (some callback) s n address <;> rfl
  | writeWord n address value byteEnable =>
    have same := writeWordWith_transparent transparent m s n address value byteEnable
    simp only [performWith, perform, ← same]
    cases m.writeWordWith (some callback) s n address value byteEnable <;> rfl
  | addRegion config => rfl
  | load address data => rfl
  | fill address size value => rfl
  | inspect address size => rfl

theorem repliesWith_transparent (calls : List MemoryCall) (m : SparseMemory) (s : σ) :
    m.repliesWith (some callback) s calls = m.replies calls := by
  induction calls generalizing m s with
  | nil => rfl
  | cons call rest ih =>
    have same := performWith_transparent transparent m s call
    simp only [repliesWith, replies, same, ih]

end Transparent

/-! ### Without a callback -/

section Without

variable {σ : Type}

theorem performWith_none (m : SparseMemory) (s : σ) (call : MemoryCall) :
    m.performWith none s call = (s, m.perform call) := by
  cases call with
  | readBytes address size => rfl
  | writeBytes address data byteEnable =>
    simp only [performWith, perform, writeBytesWith, writeBytes]
    by_cases sizes : byteEnable ≠ [] ∧ byteEnable.length ≠ data.length
    · rw [if_pos sizes, if_pos sizes]
      rfl
    · rw [if_neg sizes, if_neg sizes]
      rfl
  | readWord n address =>
    simp only [performWith, perform, readWordWith, readWord]
    cases normalizeAddress address <;> rfl
  | writeWord n address value byteEnable =>
    simp only [performWith, perform, writeWordWith, writeWord]
    cases normalizeAddress address <;> rfl
  | addRegion config => rfl
  | load address data => rfl
  | fill address size value => rfl
  | inspect address size => rfl

theorem repliesWith_none (calls : List MemoryCall) (m : SparseMemory) (s : σ) :
    m.repliesWith none s calls = m.replies calls := by
  induction calls generalizing m s with
  | nil => rfl
  | cons call rest ih => simp only [repliesWith, replies, performWith_none, ih]

end Without

/-- **A callback that leaves its events as they are changes nothing.** From every memory, a read into
any span fills it and returns its status as without the callback, every call changes the memory and
replies as without it, exceptions included, and so does every run of calls. -/
theorem callback_transparent {σ : Type} (callback : MemoryAccessCallback σ)
    (transparent : callback.Transparent) (m : SparseMemory) (s : σ) :
    (∀ address data, (m.readIntoWith (some callback) s address data).2 =
      (m.readIntoWith none s address data).2) ∧
    (∀ call, (m.performWith (some callback) s call).2 = (m.performWith none s call).2) ∧
    ∀ calls, m.repliesWith (some callback) s calls = m.repliesWith none s calls := by
  refine ⟨fun address data => readIntoWith_transparent transparent m s address data, ?_, ?_⟩
  · intro call
    rw [performWith_transparent transparent, performWith_none]
  · intro calls
    rw [repliesWith_transparent transparent, repliesWith_none]

/-- Disabled bytes, the other byte order, an access beyond the region and a wrong number of byte
enables, under a callback that counts. -/
theorem callback_transparent_counting :
    let calls : List MemoryCall :=
      [.addRegion { name := "ram", base := 0x40, size := 8, byteOrder := .bigEndian },
        .writeWord 4 0x40 0x12345678 5, .readWord 4 0x40, .writeBytes 0x44 [1, 2] [0, 7],
        .writeBytes 0x44 [1, 2] [7], .readBytes 0x44 8]
    SparseMemory.repliesWith (some MemoryAccessCallback.counting) 0 {} calls =
      SparseMemory.repliesWith none 0 {} calls :=
  (callback_transparent _ MemoryAccessCallback.counting_transparent {} 0).2.2 _

end Cpptb.Memory
