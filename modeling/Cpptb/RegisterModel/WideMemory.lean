/-
Wide memories on a byte-addressable bus.

The bus memory (`BusMemory`) stores the enabled bytes of each write at its address and reads the bytes
from an address on; any of its transfers may fail. Over it a wide memory is what its element addresses
say: a write leaves the bits of each element in increasing address order, from the address of the
element on, and changes no byte outside (`write_spec`); a read returns the elements that are stored
(`read_spec`), so that values that are written are read back (`read_write`). A failed transfer reports
the element it belongs to, and all earlier elements are written, or read.
-/

import Cpptb.RegisterModel.Addresses

namespace Cpptb.RegisterModel

open Cpptb.Vc (registerReadable registerWritable)
open Cpptb.Bursts

section Bus

/-- Byte-addressable memory behind a bus, and the number of requests it has answered. -/
structure BusMemory where
  bytes : ℕ → BitVec 8
  answered : ℕ

namespace BusMemory

/-- Byte `k` of a value. -/
def byteAt {n : ℕ} (value : BitVec n) (k : ℕ) : BitVec 8 := (value >>> (8 * k)).setWidth 8

/-- The bytes after a write of the enabled bytes of `data` at an address. -/
def store (bytes : ℕ → BitVec 8) (address : ℕ) {n k : ℕ} (data : BitVec n) (byteEnable : BitVec k) :
    ℕ → BitVec 8 := fun a =>
  if address ≤ a ∧ byteEnable.getLsbD (a - address) then byteAt data (a - address) else bytes a

/-- The word of `n` bits from an address on. -/
def load (n : ℕ) (bytes : ℕ → BitVec 8) (address : ℕ) : BitVec n :=
  BitVec.ofFnLE fun i : Fin n => (bytes (address + i / 8)).getLsbD (i % 8)

/-- The memory as a master: `okay` says which of its answers succeed. A transfer that fails does
nothing. -/
def master (bus : BusTypes) (okay : ℕ → Bool) : Master bus BusMemory where
  read memory request :=
    (if okay memory.answered then some (load bus.dataBits memory.bytes request.address.toNat) else none,
      { memory with answered := memory.answered + 1 })
  write memory request :=
    if okay memory.answered then
      (some (), ⟨store memory.bytes request.address.toNat request.data request.byteEnable,
        memory.answered + 1⟩)
    else (none, { memory with answered := memory.answered + 1 })

variable {bus : BusTypes} {okay : ℕ → Bool} {memory after : BusMemory}

theorem write_answered {request : WriteRequest bus} {data : Unit}
    (answered : (master bus okay).write memory request = (some data, after)) :
    after.bytes = store memory.bytes request.address.toNat request.data request.byteEnable := by
  simp only [master] at answered
  split at answered
  · rw [← (Prod.mk.inj answered).2]
  · exact absurd (Prod.mk.inj answered).1 nofun

theorem write_failed {request : WriteRequest bus}
    (answered : (master bus okay).write memory request = (none, after)) :
    after.bytes = memory.bytes := by
  simp only [master] at answered
  split at answered
  · exact absurd (Prod.mk.inj answered).1 nofun
  · rw [← (Prod.mk.inj answered).2]

theorem read_answered {request : ReadRequest bus} {data : BitVec bus.dataBits}
    (answered : (master bus okay).read memory request = (some data, after)) :
    data = load bus.dataBits memory.bytes request.address.toNat ∧ after.bytes = memory.bytes := by
  simp only [master] at answered
  obtain ⟨answer, same⟩ := Prod.mk.inj answered
  split at answer
  · exact ⟨(Option.some.inj answer).symm, by rw [← same]⟩
  · exact absurd answer nofun

theorem read_failed {request : ReadRequest bus}
    (answered : (master bus okay).read memory request = (none, after)) :
    after.bytes = memory.bytes := by
  simp only [master] at answered
  rw [← (Prod.mk.inj answered).2]

/-- A memory of which no transfer fails. -/
theorem master_answers (fine : ∀ n, okay n = true) :
    (∀ memory request, ((master bus okay).write memory request).1 ≠ none) ∧
      ∀ memory request, ((master bus okay).read memory request).1 ≠ none := by
  simp [master, fine]

end BusMemory

/-- A value is stored from an address on: its bits in increasing address order. -/
def Stored {Width : ℕ} (bytes : ℕ → BitVec 8) (address : ℕ) (value : BitVec Width) : Prop :=
  ∀ i < Width, (bytes (address + i / 8)).getLsbD (i % 8) = value.getLsbD i

end Bus

section Bits

variable {n : ℕ}

theorem getLsbD_setBit (value : BitVec n) (index : ℕ) (bit : Bool) {i : ℕ} (inside : i < n) :
    (setBit value index bit).getLsbD i = if i = index then bit else value.getLsbD i := by
  unfold setBit
  cases bit with
  | true =>
    rw [if_pos rfl, BitVec.getLsbD_or, BitVec.getLsbD_twoPow]
    by_cases here : i = index
    · simp [here, here ▸ inside]
    · simp [here, Ne.symm here]
  | false =>
    rw [if_neg Bool.false_ne_true, BitVec.getLsbD_and, BitVec.getLsbD_not, BitVec.getLsbD_twoPow]
    by_cases here : i = index
    · simp [here, here ▸ inside]
    · simp [here, Ne.symm here, inside]

/-- A word of which the first bits have been set one by one. -/
theorem getLsbD_gathered (bits : ℕ → Bool) {count i : ℕ} (inWord : i < 64) :
    ((List.range count).foldl (fun result bit =>
      if bits bit then result ||| ((1 : Word) <<< bit) else result) 0).getLsbD i
      = (decide (i < count) && bits i) := by
  induction count with
  | zero => simp
  | succ count ih =>
    rw [List.range_succ, List.foldl_append, List.foldl_cons, List.foldl_nil]
    have one : ((1 : Word) <<< count).getLsbD i = decide (i = count) := by
      rw [BitVec.getLsbD_shiftLeft, decide_eq_true inWord, Bool.true_and]
      by_cases below : i < count
      · simp [below, below.ne]
      · simp [below]
        omega
    by_cases set : bits count = true
    · rw [if_pos set, BitVec.getLsbD_or, ih, one]
      by_cases here : i = count
      · simp [here, set]
      · simp [here, show i < count + 1 ↔ i < count by omega]
    · rw [if_neg set, ih]
      by_cases here : i = count
      · simp [here, Bool.not_eq_true _ ▸ set]
      · simp [show i < count + 1 ↔ i < count by omega]

/-- The bits of a value after some of them have been set one by one. -/
theorem getLsbD_setBits (bits : ℕ → Bool) (first : ℕ) (value : BitVec n) {count i : ℕ} (inside : i < n) :
    ((List.range count).foldl (fun value bit => setBit value (first + bit) (bits bit)) value).getLsbD i
      = if first ≤ i ∧ i < first + count then bits (i - first) else value.getLsbD i := by
  induction count with
  | zero =>
    rw [if_neg (by omega)]
    rfl
  | succ count ih =>
    rw [List.range_succ, List.foldl_append, List.foldl_cons, List.foldl_nil, getLsbD_setBit _ _ _ inside,
      ih]
    by_cases here : i = first + count
    · rw [if_pos here, if_pos (by omega), here, Nat.add_sub_cancel_left]
    · rw [if_neg here]
      by_cases earlier : first ≤ i ∧ i < first + count
      · rw [if_pos earlier, if_pos (by omega)]
      · rw [if_neg earlier, if_neg (by omega)]

theorem getLsbD_byteAt (value : BitVec n) (k : ℕ) {r : ℕ} (inByte : r < 8) :
    (BusMemory.byteAt value k).getLsbD r = value.getLsbD (8 * k + r) := by
  rw [BusMemory.byteAt, BitVec.getLsbD_setWidth, decide_eq_true inByte, Bool.true_and,
    BitVec.getLsbD_ushiftRight]

end Bits

section Counts

variable {m : MemoryRange} {firstIndex : UInt64} {count : ℕ}

/-- A count of elements that are there is one of 64 bits. -/
theorem toNat_count {first : ℕ} {entries : UInt64} (inRange : first + count ≤ entries.toNat) :
    count < 2 ^ 64 ∧ (UInt64.ofNat count).toNat = count := by
  have := entries.toNat_lt
  exact ⟨by omega, by rw [UInt64.toNat_ofNat', Nat.mod_eq_of_lt (by omega)]⟩

theorem MemoryRange.requireRange_of (inRange : firstIndex.toNat + count ≤ m.descriptor.entries.toNat) :
    m.requireRange firstIndex (UInt64.ofNat count) = .ok () :=
  (requireRange_iff _ _).mpr (by rw [(toNat_count inRange).2]; exact inRange)

theorem MemoryRange.requireWrite_of (inRange : firstIndex.toNat + count ≤ m.descriptor.entries.toNat)
    (writable : registerWritable m.descriptor.access = true) :
    m.requireWrite firstIndex (UInt64.ofNat count) = .ok () := by
  rw [requireWrite, requireRange_of inRange, ok_bind, throwIf_ok_iff, writable]
  exact nofun

theorem MemoryRange.requireRead_of (inRange : firstIndex.toNat + count ≤ m.descriptor.entries.toNat)
    (readable : registerReadable m.descriptor.access = true) :
    m.requireRead firstIndex (UInt64.ofNat count) = .ok () := by
  rw [requireRead, requireRange_of inRange, ok_bind, throwIf_ok_iff, readable]
  exact nofun

end Counts

namespace WideRegisterMemoryHandle

variable {bus : BusTypes} {Width : ℕ} {h : WideRegisterMemoryHandle bus Width}

section Transfers

theorem Shape.chunk_eq (shape : h.Shape) : h.accessWidth = 8 * h.transferBytes :=
  (Nat.mul_div_cancel' (Nat.dvd_of_mod_eq_zero shape.chunkAligned)).symm

/-- The transfers of an element are its bytes. -/
theorem Shape.transfers_eq (shape : h.Shape) : h.transferCount * h.transferBytes = Width / 8 := by
  have whole : h.transferCount * h.accessWidth = Width :=
    Nat.div_mul_cancel (Nat.dvd_of_mod_eq_zero shape.divides)
  rw [shape.chunk_eq, Nat.mul_left_comm] at whole
  omega

/-- The bits of one transfer. -/
theorem getLsbD_transferValue (shape : h.Shape) (value : BitVec Width) (transfer : ℕ) {b : ℕ}
    (inside : b < h.accessWidth) :
    (h.transferValue value transfer).getLsbD b = value.getLsbD (transfer * h.accessWidth + b) := by
  have carried := shape.carried
  have word := bus.data_le
  rw [transferValue, BitVec.getLsbD_setWidth, decide_eq_true (by omega), Bool.true_and]
  exact (getLsbD_gathered (fun bit => value.getLsbD (transfer * h.accessWidth + bit)) (by omega)).trans
    (by rw [decide_eq_true inside, Bool.true_and])

theorem getLsbD_setTransferValue (value : BitVec Width) (transfer : ℕ) (source : BitVec bus.dataBits)
    {i : ℕ} (inside : i < Width) : (h.setTransferValue value transfer source).getLsbD i =
      if transfer * h.accessWidth ≤ i ∧ i < transfer * h.accessWidth + h.accessWidth then
        (source.setWidth 64).getLsbD (i - transfer * h.accessWidth)
      else value.getLsbD i :=
  getLsbD_setBits (fun bit => (source.setWidth 64).getLsbD bit) _ value inside

theorem getLsbD_allTransferBytes (shape : h.Shape) (j : ℕ) :
    h.allTransferBytes.getLsbD j = decide (j < h.transferBytes) := by
  have enabled := shape.enabled
  rw [allTransferBytes, BitVec.getLsbD_ofNat, Nat.testBit_two_pow_sub_one]
  by_cases inside : j < h.transferBytes
  · simp [inside, show j < bus.byteEnableBits by omega]
  · simp [inside]

/-- The bytes after `count` bytes of a value have been written from an address on. -/
def written (bytes : ℕ → BitVec 8) (start count : ℕ) (value : BitVec Width) : ℕ → BitVec 8 := fun a =>
  if start ≤ a ∧ a < start + count then BusMemory.byteAt value (a - start) else bytes a

/-- One transfer writes the next bytes of its element. -/
theorem store_transfer (shape : h.Shape) (bytes : ℕ → BitVec 8) (start : ℕ) (value : BitVec Width)
    (transfer : ℕ) :
    BusMemory.store (written bytes start (transfer * h.transferBytes) value)
        (start + transfer * h.transferBytes) (h.transferValue value transfer) h.allTransferBytes
      = written bytes start ((transfer + 1) * h.transferBytes) value := by
  have chunk := shape.chunk_eq
  funext a
  simp only [BusMemory.store, getLsbD_allTransferBytes shape, decide_eq_true_eq, Nat.succ_mul, written]
  generalize before_eq : transfer * h.transferBytes = before
  by_cases here : start + before ≤ a ∧ a - (start + before) < h.transferBytes
  · rw [if_pos here, if_pos (by omega)]
    apply BitVec.eq_of_getLsbD_eq
    intro r inByte
    rw [getLsbD_byteAt _ _ inByte, getLsbD_byteAt _ _ inByte,
      getLsbD_transferValue shape _ _ (by omega)]
    congr 1
    rw [chunk, Nat.mul_left_comm, before_eq]
    omega
  · rw [if_neg here]
    by_cases earlier : start ≤ a ∧ a < start + before
    · rw [if_pos earlier, if_pos (by omega)]
    · rw [if_neg earlier, if_neg (by omega)]

/-- A whole element that has been written is stored. -/
theorem stored_written (aligned : Width % 8 = 0) (bytes : ℕ → BitVec 8) (start : ℕ)
    (value : BitVec Width) : Stored (written bytes start (Width / 8) value) start value := by
  intro i inside
  have inElement : start ≤ start + i / 8 ∧ start + i / 8 < start + Width / 8 := by omega
  rw [written, if_pos inElement, getLsbD_byteAt _ _ (by omega)]
  congr 1
  omega

/-- What is stored does not change where its bytes do not. -/
theorem Stored.congr {bytes bytes' : ℕ → BitVec 8} {start : ℕ} {value : BitVec Width}
    (aligned : Width % 8 = 0) (stored : Stored bytes start value)
    (same : ∀ a, start ≤ a → a < start + Width / 8 → bytes' a = bytes a) :
    Stored bytes' start value := by
  intro i inside
  rw [same _ (by omega) (by omega)]
  exact stored i inside

/-- A read of one transfer returns the bits that are stored. -/
theorem getLsbD_load (bytes : ℕ → BitVec 8) (address n : ℕ) {b : ℕ} (inside : b < n) :
    (BusMemory.load n bytes address).getLsbD b = (bytes (address + b / 8)).getLsbD (b % 8) := by
  rw [BusMemory.load, BitVec.getLsbD_eq_getElem inside, BitVec.getElem_ofFnLE]

end Transfers

section Elements

/-- Where the elements of a constructed memory are: at exact addresses that fit the bus. -/
structure Placed (h : WideRegisterMemoryHandle bus Width) (base : UInt64)
    (map : Option RegisterAddressMap) : Prop where
  positive : 0 < Width
  shape : h.Shape
  bytes : UInt64.ofNat (Width / 8) = h.descriptor.bytes
  valid : h.range.Valid
  base_eq : h.baseAddress.toNat = base.toNat + h.descriptor.address.toNat
  room : exactElement h.descriptor base map h.descriptor.entries.toNat ≤ 2 ^ bus.addressBits

variable {base : UInt64} {map : Option RegisterAddressMap}

theorem Placed.start_succ (placed : h.Placed base map) (index : ℕ) :
    exactElement h.descriptor base map (index + 1)
      = exactElement h.descriptor base map index + Width / 8 := by
  have width := placed.shape.width
  cases map with
  | none =>
    show _ + (index + 1) * (h.descriptor.width.toNat / 8) = _
    rw [width, Nat.succ_mul, ← Nat.add_assoc]
    exact congrArg (fun w => base.toNat + h.descriptor.address.toNat + index * (w / 8) + Width / 8)
      width.symm
  | some map =>
    show RegisterAddressMap.exactElement _ _ _ = RegisterAddressMap.exactElement _ _ _ + _
    rw [RegisterAddressMap.exactElement, RegisterAddressMap.exactElement, width, Nat.succ_mul,
      ← Nat.add_assoc]

theorem Placed.start_eq (placed : h.Placed base map) (index k : ℕ) :
    exactElement h.descriptor base map (index + k)
      = exactElement h.descriptor base map index + k * (Width / 8) := by
  induction k with
  | zero => simp
  | succ k ih => rw [← Nat.add_assoc, placed.start_succ, ih, Nat.succ_mul, Nat.add_assoc]

theorem Placed.start_mono (placed : h.Placed base map) {index index' : ℕ} (le : index ≤ index') :
    exactElement h.descriptor base map index ≤ exactElement h.descriptor base map index' := by
  induction le with
  | refl => exact le_rfl
  | step _ ih =>
    rw [placed.start_succ]
    omega

/-- The elements follow each other. -/
theorem Placed.start_add (placed : h.Placed base map) {index index' : ℕ} (lt : index < index') :
    exactElement h.descriptor base map index + Width / 8 ≤ exactElement h.descriptor base map index' := by
  rw [← placed.start_succ]
  exact placed.start_mono lt

/-- The address of a transfer of an element. -/
theorem Placed.transferAddress_eq (placed : h.Placed base map) {index : UInt64} {transfer : ℕ}
    (inside : index.toNat < h.descriptor.entries.toNat) (inElement : transfer < h.transferCount) :
    ∃ target, h.transferAddress map index transfer = .ok target ∧
      (BitVec.ofNat bus.addressBits target.toNat).toNat
        = exactElement h.descriptor base map index.toNat + transfer * h.transferBytes := by
  have bound := addressMax_lt bus
  have max : bus.addressMax = 2 ^ bus.addressBits - 1 := rfl
  have room := (placed.start_add inside).trans placed.room
  have ends : (transfer + 1) * h.transferBytes ≤ Width / 8 :=
    placed.shape.transfers_eq ▸ Nat.mul_le_mul_right _ inElement
  have chunk : 0 < h.transferBytes := by
    have := placed.shape.chunk
    have := placed.shape.chunk_eq
    omega
  rw [Nat.succ_mul] at ends
  obtain ⟨address, found, exact⟩ := frontdoorAddress_found bus (m := h.range) map index placed.valid
    placed.bytes (placed.shape.proper placed.positive) placed.base_eq inside
    (show exactElement h.descriptor base map index.toNat ≤ bus.addressMax by omega)
  have exact : address.toNat = exactElement h.descriptor base map index.toNat := exact
  refine ⟨_, by rw [transferAddress, found, ok_bind]; rfl, ?_⟩
  rw [RegisterModel.transferAddress_eq, UInt64.toNat_ofNat', exact, Nat.mod_eq_of_lt (by omega),
    toNat_address (by omega)]

/-- What a write of one element leaves: its first bytes, and all of them when no transfer failed. -/
theorem Placed.writeElement_spec (placed : h.Placed base map) (okay : ℕ → Bool) {index : UInt64}
    (inside : index.toNat < h.descriptor.entries.toNat) (value : BitVec Width) (memory : BusMemory) :
    let result := h.writeElement (BusMemory.master bus okay) map index value memory
    ∃ count ≤ Width / 8, result.responder.bytes
        = written memory.bytes (exactElement h.descriptor base map index.toNat) count value ∧
      ((result.ending = .okay ∧ count = Width / 8) ∨ result.ending = .failed index) := by
  intro result
  let start := exactElement h.descriptor base map index.toNat
  have invariant : result.responder.bytes
        = written memory.bytes start ((0 + result.completed) * h.transferBytes) value ∧
      ((result.ending = .okay ∧ result.completed = h.transferCount) ∨
        (result.ending = .failed index ∧ result.completed < h.transferCount)) := by
    refine burst_invariant (P := fun transfer _ (after : BusMemory) =>
      after.bytes = written memory.bytes start (transfer * h.transferBytes) value)
      h.transferCount 0 ?_ ?_ ?_ ?_
    · intro transfer _ inElement target values before data after found answered holds
      obtain ⟨exact, exactly, address⟩ := placed.transferAddress_eq inside
        (show transfer < h.transferCount by omega)
      obtain rfl : exact = target := Except.ok.inj (exactly.symm.trans found)
      rw [BusMemory.write_answered answered, holds, address]
      exact store_transfer placed.shape memory.bytes start value transfer
    · intro transfer _ _ target values before after _ answered holds
      exact (BusMemory.write_failed answered).trans holds
    · intro transfer _ inElement
      obtain ⟨target, found, -⟩ := placed.transferAddress_eq inside
        (show transfer < h.transferCount by omega)
      exact ⟨target, found⟩
    · show memory.bytes = _
      funext a
      rw [written, if_neg (by omega)]
  obtain ⟨bytes, ended⟩ := invariant
  rw [Nat.zero_add] at bytes
  have all := placed.shape.transfers_eq
  rcases ended with ⟨okay, completed⟩ | ⟨failed, fewer⟩
  · exact ⟨Width / 8, le_rfl, by rw [bytes, completed, all], .inl ⟨okay, rfl⟩⟩
  · exact ⟨_, all ▸ Nat.mul_le_mul_right _ fewer.le, bytes, .inr failed⟩

/-- What a read of one element returns: the element that is stored, when no transfer failed. -/
theorem Placed.readElement_spec (placed : h.Placed base map) (okay : ℕ → Bool) {index : UInt64}
    (inside : index.toNat < h.descriptor.entries.toNat) (memory : BusMemory) :
    let result := h.readElement (BusMemory.master bus okay) map index memory
    result.responder.bytes = memory.bytes ∧
      ((result.ending = .okay ∧
        Stored memory.bytes (exactElement h.descriptor base map index.toNat) result.values) ∨
        result.ending = .failed index) := by
  intro result
  let start := exactElement h.descriptor base map index.toNat
  have chunk := placed.shape.chunk_eq
  have carried := placed.shape.carried
  have word := bus.data_le
  have invariant : (result.responder.bytes = memory.bytes ∧
        ∀ i < Width, i < (0 + result.completed) * h.accessWidth →
          (memory.bytes (start + i / 8)).getLsbD (i % 8) = result.values.getLsbD i) ∧
      ((result.ending = .okay ∧ result.completed = h.transferCount) ∨
        (result.ending = .failed index ∧ result.completed < h.transferCount)) := by
    refine burst_invariant (P := fun transfer (value : BitVec Width) (after : BusMemory) =>
      after.bytes = memory.bytes ∧ ∀ i < Width, i < transfer * h.accessWidth →
        (memory.bytes (start + i / 8)).getLsbD (i % 8) = value.getLsbD i)
      h.transferCount 0 ?_ ?_ ?_ ?_
    · rintro transfer - inElement target value before data after found answered ⟨same, gathered⟩
      obtain ⟨exact, exactly, address⟩ := placed.transferAddress_eq inside
        (show transfer < h.transferCount by omega)
      obtain rfl : exact = target := Except.ok.inj (exactly.symm.trans found)
      obtain ⟨loaded, kept⟩ := BusMemory.read_answered answered
      refine ⟨kept.trans same, fun i inValue below => ?_⟩
      rw [getLsbD_setTransferValue _ _ _ inValue]
      rw [Nat.succ_mul] at below
      split
      next here =>
        rw [loaded, address, same, BitVec.getLsbD_setWidth, decide_eq_true (by omega), Bool.true_and,
          getLsbD_load _ _ _ (by omega)]
        -- the transfer starts at a whole byte
        have first : transfer * h.accessWidth = 8 * (transfer * h.transferBytes) := by
          rw [chunk, Nat.mul_left_comm]
        rw [first] at here ⊢
        generalize transfer * h.transferBytes = before at here ⊢
        have byte : start + i / 8 = start + before + (i - 8 * before) / 8 := by omega
        have bit : i % 8 = (i - 8 * before) % 8 := by omega
        rw [byte, bit]
      next outside => exact gathered i inValue (by omega)
    · rintro transfer - - target value before after - answered ⟨same, gathered⟩
      exact ⟨(BusMemory.read_failed answered).trans same, gathered⟩
    · intro transfer _ inElement
      obtain ⟨target, found, -⟩ := placed.transferAddress_eq inside
        (show transfer < h.transferCount by omega)
      exact ⟨target, found⟩
    · exact ⟨rfl, fun i _ below => absurd below (by omega)⟩
  obtain ⟨⟨same, gathered⟩, ended⟩ := invariant
  refine ⟨same, ended.imp (fun done => ⟨done.1, fun i inValue => ?_⟩) And.left⟩
  have whole : h.transferCount * h.accessWidth = Width :=
    Nat.div_mul_cancel (Nat.dvd_of_mod_eq_zero placed.shape.divides)
  exact gathered i inValue (by rw [Nat.zero_add, done.2, whole]; exact inValue)

end Elements

section Spans

variable {base : UInt64} {map : Option RegisterAddressMap} (placed : h.Placed base map)
  (okay : ℕ → Bool) {firstIndex : UInt64} {values : List (BitVec Width)}

include placed

/-- **What a write leaves.** All values are stored, each at the address of its element, or one transfer
failed, and all elements before the reported one are stored. No byte before the first element changes,
and none after the last one, or after the reported one. -/
theorem Placed.write_spec (inRange : firstIndex.toNat + values.length ≤ h.descriptor.entries.toNat)
    (writable : registerWritable h.descriptor.access = true) (memory : BusMemory) :
    let result := h.write (BusMemory.master bus okay) map firstIndex values memory
    let start := fun k => exactElement h.descriptor base map (firstIndex.toNat + k)
    ((result.ending = .okay ∧
        (∀ k < values.length, Stored result.responder.bytes (start k) (values.getD k 0)) ∧
        ∀ a, a < start 0 ∨ start values.length ≤ a → result.responder.bytes a = memory.bytes a) ∨
      ∃ k < values.length, result.ending = .failed (firstIndex + UInt64.ofNat k) ∧
        (∀ j < k, Stored result.responder.bytes (start j) (values.getD j 0)) ∧
        ∀ a, a < start 0 ∨ start (k + 1) ≤ a → result.responder.bytes a = memory.bytes a) := by
  intro result start
  have aligned := placed.shape.aligned
  have follows : ∀ {j k : ℕ}, j < k → start j + Width / 8 ≤ start k := fun less =>
    placed.start_add (Nat.add_lt_add_left less _)
  have first : ∀ k, start 0 ≤ start k := fun k => placed.start_mono (Nat.add_le_add_left (Nat.zero_le k) _)
  -- the next element is written, in part or as a whole, and nothing before it changes
  have elements := bursts_invariant
    (fun offset (_ : Unit) => h.writeElement (BusMemory.master bus okay) map
      (firstIndex + UInt64.ofNat offset) (values.getD offset 0))
    (fun k _ after => (∀ j < k, Stored after.bytes (start j) (values.getD j 0)) ∧
      ∀ a, a < start 0 ∨ start k ≤ a → after.bytes a = memory.bytes a)
    (fun k _ after ending => ending = .failed (firstIndex + UInt64.ofNat k) ∧
      (∀ j < k, Stored after.bytes (start j) (values.getD j 0)) ∧
      ∀ a, a < start 0 ∨ start (k + 1) ≤ a → after.bytes a = memory.bytes a)
    values.length 0 (by
      rintro k - inValues ⟨⟩ before ⟨earlier, outside⟩
      rw [Nat.zero_add] at inValues
      obtain ⟨exact, inside⟩ := toNat_index (toNat_count inRange).1
        ((toNat_count inRange).2.symm ▸ inRange) inValues
      obtain ⟨count, within, bytes, ended⟩ := placed.writeElement_spec okay (exact ▸ inside)
        (values.getD k 0) before
      rw [exact] at bytes
      have next : start (k + 1) = start k + Width / 8 := placed.start_succ (firstIndex.toNat + k)
      have kept : (∀ j < k, Stored (written before.bytes (start k) count (values.getD k 0)) (start j)
            (values.getD j 0)) ∧ ∀ a, a < start 0 ∨ start (k + 1) ≤ a →
              written before.bytes (start k) count (values.getD k 0) a = memory.bytes a := by
        refine ⟨fun j less => Stored.congr aligned (earlier j less) fun a _ inElement => ?_, fun a out => ?_⟩
        · have := follows less
          rw [written, if_neg (by omega)]
        · have := first k
          rw [written, if_neg (by omega)]
          exact outside a (by omega)
      rw [← bytes] at kept
      rcases ended with ⟨okay, rfl⟩ | failed
      · refine .inl ⟨okay, fun j less => ?_, kept.2⟩
        rcases Nat.lt_succ_iff_lt_or_eq.mp less with less | rfl
        · exact kept.1 j less
        · rw [bytes]
          exact stored_written aligned before.bytes _ _
      · exact .inr ⟨by rw [failed]; nofun, failed, kept⟩)
    () memory ⟨fun j less => absurd less (Nat.not_lt_zero j), fun _ _ => rfl⟩
  have run : result = bursts (fun offset (_ : Unit) => h.writeElement (BusMemory.master bus okay) map
      (firstIndex + UInt64.ofNat offset) (values.getD offset 0)) values.length 0 () memory := by
    show checked _ _ _ _ = _
    rw [MemoryRange.requireWrite_of (m := h.range) inRange writable]
    rfl
  rw [← run, Nat.zero_add] at elements
  rcases elements with ⟨okay, all⟩ | ⟨-, k, -, inValues, failed⟩
  · exact .inl ⟨okay, all⟩
  · exact .inr ⟨k, inValues, failed⟩

/-- **What a read returns.** All values are those stored, each at the address of its element, or one
transfer failed, and all elements before the reported one have been read. The memory does not change. -/
theorem Placed.read_spec (inRange : firstIndex.toNat + values.length ≤ h.descriptor.entries.toNat)
    (readable : registerReadable h.descriptor.access = true) (memory : BusMemory) :
    let result := h.read (BusMemory.master bus okay) map firstIndex values memory
    let start := fun k => exactElement h.descriptor base map (firstIndex.toNat + k)
    (result.responder.bytes = memory.bytes ∧ result.values.length = values.length) ∧
      ((result.ending = .okay ∧
          ∀ k < values.length, Stored memory.bytes (start k) (result.values.getD k 0)) ∨
        ∃ k < values.length, result.ending = .failed (firstIndex + UInt64.ofNat k) ∧
          ∀ j < k, Stored memory.bytes (start j) (result.values.getD j 0)) := by
  intro result start
  let part := fun offset (values : List (BitVec Width)) (responder : BusMemory) =>
    let element := h.readElement (BusMemory.master bus okay) map (firstIndex + UInt64.ofNat offset) responder
    (⟨element.requests, element.completed,
      if element.ending = .okay then values.set offset element.values else values,
      element.responder, element.ending⟩ :
        MemoryAccess (ReadRequest bus) (List (BitVec Width)) BusMemory)
  let read := fun k (values' : List (BitVec Width)) (after : BusMemory) =>
    (after.bytes = memory.bytes ∧ values'.length = values.length) ∧
      ∀ j < k, Stored memory.bytes (start j) (values'.getD j 0)
  have elements := bursts_invariant part read
    (fun k values' after ending => ending = .failed (firstIndex + UInt64.ofNat k) ∧ read k values' after)
    values.length 0 (by
      rintro k - inValues values' before ⟨⟨same, length⟩, earlier⟩
      rw [Nat.zero_add] at inValues
      obtain ⟨exact, inside⟩ := toNat_index (toNat_count inRange).1
        ((toNat_count inRange).2.symm ▸ inRange) inValues
      obtain ⟨unchanged, ended⟩ := placed.readElement_spec okay (exact ▸ inside) before
      rcases ended with ⟨okay, stored⟩ | failed
      · refine .inl ⟨okay, ⟨unchanged.trans same, ?_⟩, fun j less => ?_⟩
        · show (if _ then _ else _ : List _).length = _
          rw [if_pos okay, List.length_set, length]
        · show Stored _ _ ((if _ then _ else _ : List _).getD j 0)
          rw [if_pos okay]
          rcases Nat.lt_succ_iff_lt_or_eq.mp less with less | rfl
          · rw [List.getD_eq_getElem?_getD, List.getElem?_set_ne (by omega),
              ← List.getD_eq_getElem?_getD]
            exact earlier j less
          · rw [List.getD_eq_getElem?_getD, List.getElem?_set_self (by omega), Option.getD_some]
            rw [exact, same] at stored
            exact stored
      · refine .inr ⟨fun okay => absurd (failed.symm.trans okay) nofun, failed,
          ⟨unchanged.trans same, ?_⟩, fun j less => ?_⟩
        · show (if _ then _ else _ : List _).length = _
          rw [if_neg (by rw [failed]; nofun), length]
        · show Stored _ _ ((if _ then _ else _ : List _).getD j 0)
          rw [if_neg (by rw [failed]; nofun)]
          exact earlier j less)
    values memory ⟨⟨rfl, rfl⟩, fun j less => absurd less (Nat.not_lt_zero j)⟩
  have run : result = bursts part values.length 0 values memory := by
    show checked _ _ _ _ = _
    rw [MemoryRange.requireRead_of (m := h.range) inRange readable]
    rfl
  rw [← run, Nat.zero_add] at elements
  rcases elements with ⟨okay, kept, all⟩ | ⟨-, k, -, inValues, failed, kept, earlier⟩
  · exact ⟨kept, .inl ⟨okay, all⟩⟩
  · exact ⟨kept, .inr ⟨k, inValues, failed, earlier⟩⟩

end Spans

section Answers

variable {base : UInt64} {map : Option RegisterAddressMap} (placed : h.Placed base map)
  {okay : ℕ → Bool} (fine : ∀ n, okay n = true) {firstIndex : UInt64} {values : List (BitVec Width)}

include placed fine

theorem Placed.write_okay (inRange : firstIndex.toNat + values.length ≤ h.descriptor.entries.toNat)
    (writable : registerWritable h.descriptor.access = true) (memory : BusMemory) :
    (h.write (BusMemory.master bus okay) map firstIndex values memory).ending = .okay := by
  rw [write, MemoryRange.requireWrite_of (m := h.range) inRange writable, checked]
  refine bursts_okay _ _ (fun k _ inValues _ before => ?_) _ _
  rw [Nat.zero_add] at inValues
  obtain ⟨exact, inside⟩ := toNat_index (toNat_count inRange).1
    ((toNat_count inRange).2.symm ▸ inRange) inValues
  refine burst_okay (BusMemory.master_answers fine).1 _ _ (fun transfer _ inElement => ?_) _ _
  obtain ⟨target, found, -⟩ := placed.transferAddress_eq (exact ▸ inside)
    (show transfer < h.transferCount by omega)
  exact ⟨target, found⟩

theorem Placed.read_okay (inRange : firstIndex.toNat + values.length ≤ h.descriptor.entries.toNat)
    (readable : registerReadable h.descriptor.access = true) (memory : BusMemory) :
    (h.read (BusMemory.master bus okay) map firstIndex values memory).ending = .okay := by
  rw [read, MemoryRange.requireRead_of (m := h.range) inRange readable, checked]
  refine bursts_okay _ _ (fun k _ inValues _ before => ?_) _ _
  rw [Nat.zero_add] at inValues
  obtain ⟨exact, inside⟩ := toNat_index (toNat_count inRange).1
    ((toNat_count inRange).2.symm ▸ inRange) inValues
  refine burst_okay (BusMemory.master_answers fine).2 _ _ (fun transfer _ inElement => ?_) _ _
  obtain ⟨target, found, -⟩ := placed.transferAddress_eq (exact ▸ inside)
    (show transfer < h.transferCount by omega)
  exact ⟨target, found⟩

end Answers

section RoundTrips

variable {base : UInt64} {map : Option RegisterAddressMap}

/-- One value is stored at one place. -/
theorem Stored.unique {bytes : ℕ → BitVec 8} {start : ℕ} {value value' : BitVec Width}
    (stored : Stored bytes start value) (stored' : Stored bytes start value') : value = value' := by
  ext i inside
  rw [← BitVec.getLsbD_eq_getElem inside, ← BitVec.getLsbD_eq_getElem inside, ← stored i inside,
    ← stored' i inside]

/-- **Values that are written are read back**, whatever the memory and the values before were. -/
theorem Placed.read_write (placed : h.Placed base map) (okay okay' : ℕ → Bool) {firstIndex : UInt64}
    {values initial : List (BitVec Width)} (same : initial.length = values.length)
    (inRange : firstIndex.toNat + values.length ≤ h.descriptor.entries.toNat)
    (writable : registerWritable h.descriptor.access = true)
    (readable : registerReadable h.descriptor.access = true) (memory : BusMemory) :
    let written := h.write (BusMemory.master bus okay) map firstIndex values memory
    let result := h.read (BusMemory.master bus okay') map firstIndex initial written.responder
    written.ending = .okay → result.ending = .okay → result.values = values := by
  intro written result writes reads
  have stored : ∀ k < values.length, Stored written.responder.bytes
      (exactElement h.descriptor base map (firstIndex.toNat + k)) (values.getD k 0) := by
    rcases placed.write_spec okay inRange writable memory with ⟨-, all, -⟩ | ⟨_, -, failed, -⟩
    · exact all
    · exact absurd (failed.symm.trans writes) nofun
  obtain ⟨⟨-, length⟩, ended⟩ := placed.read_spec okay' (same ▸ inRange) readable written.responder
  rcases ended with ⟨-, found⟩ | ⟨_, -, failed, -⟩
  · refine List.ext_getElem (length.trans same) fun k inResult inValues => ?_
    have once := Stored.unique (found k (same ▸ inValues)) (stored k inValues)
    rwa [List.getD_eq_getElem _ _ inResult, List.getD_eq_getElem _ _ inValues] at once
  · exact absurd (failed.symm.trans reads) nofun

end RoundTrips

section Forms

/-- An access that throws before it issues a request. -/
def Rejected {R V S : Type} (access : MemoryAccess R V S) (responder : S) : Prop :=
  access.requests = [] ∧ access.responder = responder ∧ ∃ error, access.ending = .threw error

theorem rejected_checked {R V S α : Type} {check : Except Error α} (fails : ∀ value, check ≠ .ok value)
    (values : V) (responder : S) (rest : α → MemoryAccess R V S) :
    Rejected (checked check values responder rest) responder := by
  cases check with
  | error error => exact ⟨rfl, rfl, error, rfl⟩
  | ok value => exact absurd rfl (fails value)

variable {S : Type} (master : Master bus S) (responder : S) (values : List (BitVec Width))

/-- Accesses by index are rejected beyond the last element. -/
theorem rejected_of_beyond (map : Option RegisterAddressMap) {firstIndex : UInt64}
    (size : values.length < 2 ^ 64)
    (beyond : h.descriptor.entries.toNat < firstIndex.toNat + values.length) :
    Rejected (h.write master map firstIndex values responder) responder ∧
      Rejected (h.read master map firstIndex values responder) responder := by
  have fails : h.range.requireRange firstIndex (UInt64.ofNat values.length) ≠ .ok () := fun inRange => by
    have inside := (MemoryRange.requireRange_iff _ _).mp inRange
    rw [UInt64.toNat_ofNat', Nat.mod_eq_of_lt size] at inside
    exact absurd inside (Nat.not_le.mpr beyond)
  refine ⟨rejected_checked (fun _ passes => ?_) _ _ _, rejected_checked (fun _ passes => ?_) _ _ _⟩
  · obtain ⟨_, inRange, -⟩ := after_bind passes
    exact fails inRange
  · obtain ⟨_, inRange, -⟩ := after_bind passes
    exact fails inRange

/-- A byte offset names `count` elements from an index on. -/
def OffsetOf (h : WideRegisterMemoryHandle bus Width) (count : ℕ) (byteOffset index : UInt64) : Prop :=
  byteOffset.toNat = index.toNat * (Width / 8) ∧ index.toNat + count ≤ h.descriptor.entries.toNat

/-- An absolute address names `count` elements from an index on. -/
def AddressOf (h : WideRegisterMemoryHandle bus Width) (count : ℕ) (address index : UInt64) : Prop :=
  address.toNat = h.baseAddress.toNat + index.toNat * (Width / 8) ∧
    index.toNat + count ≤ h.descriptor.entries.toNat

variable (h) in
/-- Accesses by offset and by absolute address are those by index, or rejected. -/
structure FormsSelect : Prop where
  beyond : ∀ {S : Type} (master : Master bus S) (responder : S) (values : List (BitVec Width)) map
    (firstIndex : UInt64), values.length < 2 ^ 64 →
    h.descriptor.entries.toNat < firstIndex.toNat + values.length →
    Rejected (h.write master map firstIndex values responder) responder ∧
      Rejected (h.read master map firstIndex values responder) responder
  offset : ∀ {S : Type} (master : Master bus S) (responder : S) (values : List (BitVec Width))
    (byteOffset : UInt64), values.length < 2 ^ 64 →
    (∀ index, h.OffsetOf values.length byteOffset index →
      h.writeOffset master byteOffset values responder = h.write master none index values responder ∧
      h.readOffset master byteOffset values responder = h.read master none index values responder) ∧
    ((¬ ∃ index, h.OffsetOf values.length byteOffset index) →
      Rejected (h.writeOffset master byteOffset values responder) responder ∧
      Rejected (h.readOffset master byteOffset values responder) responder)
  absolute : ∀ {S : Type} (master : Master bus S) (responder : S) (values : List (BitVec Width))
    (address : UInt64), values.length < 2 ^ 64 →
    (∀ index, h.AddressOf values.length address index →
      h.writeAbsolute master address values responder = h.write master none index values responder ∧
      h.readAbsolute master address values responder = h.read master none index values responder) ∧
    ((¬ ∃ index, h.AddressOf values.length address index) →
      Rejected (h.writeAbsolute master address values responder) responder ∧
      Rejected (h.readAbsolute master address values responder) responder)

theorem formsSelect (valid : h.range.Valid) (bytes : h.range.elementBytes.toNat = Width / 8) :
    h.FormsSelect where
  beyond master responder values map _ size beyond :=
    rejected_of_beyond master responder values map size beyond
  offset master responder values byteOffset size := by
    have count : (UInt64.ofNat values.length).toNat = values.length := by
      rw [UInt64.toNat_ofNat', Nat.mod_eq_of_lt size]
    have selects : ∀ index, h.range.indexFromOffsetForRange byteOffset (UInt64.ofNat values.length)
        = .ok index ↔ h.OffsetOf values.length byteOffset index := fun index => by
      rw [MemoryRange.indexFromOffset_iff valid, bytes, count]
      rfl
    refine ⟨fun index named => ?_, fun unnamed => ?_⟩
    · rw [writeOffset, readOffset, (selects index).mpr named]
      exact ⟨rfl, rfl⟩
    · have fails := fun index found => unnamed ⟨index, (selects index).mp found⟩
      exact ⟨rejected_checked fails _ _ _, rejected_checked fails _ _ _⟩
  absolute master responder values address size := by
    have count : (UInt64.ofNat values.length).toNat = values.length := by
      rw [UInt64.toNat_ofNat', Nat.mod_eq_of_lt size]
    have selects : ∀ index, h.range.indexFromAbsoluteForRange address (UInt64.ofNat values.length)
        = .ok index ↔ h.AddressOf values.length address index := fun index => by
      rw [MemoryRange.indexFromAbsolute_iff valid, bytes, count]
      rfl
    refine ⟨fun index named => ?_, fun unnamed => ?_⟩
    · rw [writeAbsolute, readAbsolute, (selects index).mpr named]
      exact ⟨rfl, rfl⟩
    · have fails := fun index found => unnamed ⟨index, (selects index).mp found⟩
      exact ⟨rejected_checked fails _ _ _, rejected_checked fails _ _ _⟩

end Forms

section Accesses

/-- What accesses to `values.length` elements from an index on do, whichever transfers fail: `first` is
the address of the first element. -/
structure RoundTrips (h : WideRegisterMemoryHandle bus Width) (map : Option RegisterAddressMap)
    (first : ℕ) (firstIndex : UInt64) (values : List (BitVec Width)) : Prop where
  writes : registerWritable h.descriptor.access = true → ∀ okay memory,
    let result := h.write (BusMemory.master bus okay) map firstIndex values memory
    (result.ending = .okay ∧
        (∀ k < values.length,
          Stored result.responder.bytes (first + k * (Width / 8)) (values.getD k 0)) ∧
        ∀ a, a < first ∨ first + values.length * (Width / 8) ≤ a →
          result.responder.bytes a = memory.bytes a) ∨
      ∃ k < values.length, result.ending = .failed (firstIndex + UInt64.ofNat k) ∧
        (∀ j < k, Stored result.responder.bytes (first + j * (Width / 8)) (values.getD j 0)) ∧
        ∀ a, a < first ∨ first + (k + 1) * (Width / 8) ≤ a → result.responder.bytes a = memory.bytes a
  reads : registerReadable h.descriptor.access = true → ∀ okay memory,
    let result := h.read (BusMemory.master bus okay) map firstIndex values memory
    (result.responder.bytes = memory.bytes ∧ result.values.length = values.length) ∧
      ((result.ending = .okay ∧
          ∀ k < values.length,
            Stored memory.bytes (first + k * (Width / 8)) (result.values.getD k 0)) ∨
        ∃ k < values.length, result.ending = .failed (firstIndex + UInt64.ofNat k) ∧
          ∀ j < k, Stored memory.bytes (first + j * (Width / 8)) (result.values.getD j 0))
  readBack : registerWritable h.descriptor.access = true → registerReadable h.descriptor.access = true →
    ∀ okay okay' memory (initial : List (BitVec Width)), initial.length = values.length →
    let written := h.write (BusMemory.master bus okay) map firstIndex values memory
    let result := h.read (BusMemory.master bus okay') map firstIndex initial written.responder
    (written.ending = .okay → result.ending = .okay → result.values = values) ∧
      ((∀ n, okay n = true) → written.ending = .okay) ∧ ((∀ n, okay' n = true) → result.ending = .okay)

variable {base : UInt64} {map : Option RegisterAddressMap}

theorem Placed.roundTrips (placed : h.Placed base map) {firstIndex : UInt64}
    {values : List (BitVec Width)}
    (inRange : firstIndex.toNat + values.length ≤ h.descriptor.entries.toNat) :
    h.RoundTrips map (exactElement h.descriptor base map firstIndex.toNat) firstIndex values where
  writes writable okay memory := by
    have spec := placed.write_spec okay inRange writable memory
    simp only [placed.start_eq, Nat.zero_mul, Nat.add_zero] at spec
    exact spec
  reads readable okay memory := by
    have spec := placed.read_spec okay inRange readable memory
    simp only [placed.start_eq] at spec
    exact spec
  readBack writable readable okay okay' memory initial same :=
    ⟨placed.read_write okay okay' same inRange writable readable memory,
      fun fine => placed.write_okay fine inRange writable memory,
      fun fine => placed.read_okay fine (same ▸ inRange) readable _⟩

end Accesses

end WideRegisterMemoryHandle

/-- The index, offset and absolute forms of a memory agree, and no range test wraps. -/
structure MemoryRange.FormsAgree (m : MemoryRange) : Prop where
  range : ∀ firstIndex count, m.requireRange firstIndex count = .ok () ↔
    firstIndex.toNat + count.toNat ≤ m.descriptor.entries.toNat
  offset : ∀ byteOffset count index, m.indexFromOffsetForRange byteOffset count = .ok index ↔
    byteOffset.toNat = index.toNat * m.elementBytes.toNat ∧
      index.toNat + count.toNat ≤ m.descriptor.entries.toNat
  absolute : ∀ absoluteAddress count index,
    m.indexFromAbsoluteForRange absoluteAddress count = .ok index ↔
      absoluteAddress.toNat = m.baseAddress.toNat + index.toNat * m.elementBytes.toNat ∧
        index.toNat + count.toNat ≤ m.descriptor.entries.toNat
  address : ∀ index address, m.address index = .ok address ↔
    index.toNat < m.descriptor.entries.toNat ∧
      address.toNat = m.baseAddress.toNat + index.toNat * m.elementBytes.toNat
  agree : ∀ index address, m.address index = .ok address →
    m.indexFromOffset (index * m.elementBytes) = .ok index ∧ m.indexFromAbsolute address = .ok index

theorem MemoryRange.Valid.formsAgree {m : MemoryRange} (valid : m.Valid) : m.FormsAgree where
  range := requireRange_iff
  offset := indexFromOffset_iff valid
  absolute := indexFromAbsolute_iff valid
  address := address_iff valid
  agree index address found := by
    obtain ⟨inside, exact⟩ := (address_iff valid index address).mp found
    have fits := valid.fits
    have product := Nat.mul_le_mul_right m.elementBytes.toNat inside.le
    refine ⟨(indexFromOffset_iff valid _ 1 index).mpr ⟨?_, inside⟩,
      (indexFromAbsolute_iff valid _ 1 index).mpr ⟨exact, inside⟩⟩
    rw [UInt64.toNat_mul, Nat.mod_eq_of_lt (by omega)]

/-- **Wide memories round-trip through the bus.** Whenever the memory ends within the bus, a write
stores its values from the address of the first element on and changes nothing else, a read returns what
is stored, a failed transfer reports its element, and values that are written are read back. The three
ways to name elements, of wide and of narrow memories, agree and reject everything else. -/
theorem wide_memory_round_trips (bus : BusTypes) :
    (∀ (Width : ℕ) (descriptor : RegisterMemoryDescriptor) (base : UInt64)
      (h : WideRegisterMemoryHandle bus Width), 0 < Width →
      WideRegisterMemoryHandle.make bus Width descriptor base = .ok h →
      h.range.FormsAgree ∧ h.FormsSelect ∧
      (∀ index address, h.range.address index = .ok address →
        address.toNat = exactElement descriptor base none index.toNat) ∧
      ∀ map, exactElement descriptor base map descriptor.entries.toNat ≤ 2 ^ bus.addressBits →
        ∀ (firstIndex : UInt64) (values : List (BitVec Width)),
        firstIndex.toNat + values.length ≤ descriptor.entries.toNat →
        h.RoundTrips map (exactElement descriptor base map firstIndex.toNat) firstIndex values) ∧
    (∀ (descriptor : RegisterMemoryDescriptor) (base : UInt64) (h : RegisterMemoryHandle bus),
      RegisterMemoryHandle.make bus descriptor base = .ok h → h.range.FormsAgree) := by
  refine ⟨fun Width descriptor base h positive made => ?_, fun descriptor base h made => ?_⟩
  · obtain ⟨rfl, sum, shape, bytes, valid⟩ := WideRegisterMemoryHandle.valid_of_make positive made
    have elementBytes : h.range.elementBytes.toNat = Width / 8 :=
      (congrArg UInt64.toNat bytes).trans ((toNat_bytes _).trans (by rw [shape.width]))
    refine ⟨valid.formsAgree, WideRegisterMemoryHandle.formsSelect valid elementBytes,
      fun index address found => ?_, fun map room firstIndex values inRange => ?_⟩
    · rw [((MemoryRange.address_iff valid _ _).mp found).2, elementBytes]
      show h.baseAddress.toNat + _ = base.toNat + _ + index.toNat * (h.descriptor.width.toNat / 8)
      rw [sum, shape.width]
    · exact WideRegisterMemoryHandle.Placed.roundTrips ⟨positive, shape, bytes, valid, sum, room⟩ inRange
  · exact (RegisterMemoryHandle.valid_of_make made).2.2.2.formsAgree

end Cpptb.RegisterModel
