/-
The entries of register access coverage.

* `NonOverlapping`: the registers and memories of a block have no address in common.
* `Entries`, `scanning_entries`: what construction establishes of the entries of such a block, with the
  sizes as the constructors compute them and the ranges moved up by the base address.
-/

import Cpptb.Vc.RegisterCoverage

namespace Cpptb.Vc

/-! ### Address ranges -/

/-- The bytes of a register, from its first to before its last. -/
def RegisterDescriptor.range (descriptor : RegisterDescriptor) : Nat × Nat :=
  (descriptor.address.toNat, descriptor.address.toNat + descriptor.width.toNat / 8)

/-- The bytes of a memory. -/
def RegisterMemoryDescriptor.range (descriptor : RegisterMemoryDescriptor) : Nat × Nat :=
  (descriptor.address.toNat,
    descriptor.address.toNat + descriptor.entries.toNat * (descriptor.width.toNat / 8))

/-- Two ranges without a common address. -/
def Apart (left right : Nat × Nat) : Prop :=
  min left.2 right.2 ≤ max left.1 right.1

instance : DecidableRel Apart := fun left right =>
  inferInstanceAs (Decidable (min left.2 right.2 ≤ max left.1 right.1))

/-- The address ranges of a block do not overlap. -/
def RegisterBlockDescriptor.NonOverlapping (block : RegisterBlockDescriptor) : Prop :=
  (block.registers.map (·.range) ++ block.memories.map (·.range)).Pairwise Apart

instance (block : RegisterBlockDescriptor) : Decidable block.NonOverlapping :=
  inferInstanceAs (Decidable (List.Pairwise _ _))

/-- An address inside a range. -/
def Inside (address : Nat) (range : Nat × Nat) : Prop :=
  range.1 ≤ address ∧ address < range.2

theorem Apart.not_inside {left right : Nat × Nat} (apart : Apart left right) {address : Nat}
    (inside : Inside address left) : ¬Inside address right := by
  unfold Apart Inside at *
  omega

theorem Apart.symm {left right : Nat × Nat} (apart : Apart left right) : Apart right left := by
  unfold Apart at *
  omega

/-- The only entry with an address inside its range is the one a search finds. -/
theorem find_inside {E : Type} (range : E → Nat × Nat) {entries : List E}
    (apart : (entries.map range).Pairwise Apart) {entry : E} (member : entry ∈ entries) {address : Nat}
    (inside : Inside address (range entry)) :
    entries.find? (fun entry => (range entry).1 ≤ address && address < (range entry).2) = some entry := by
  rw [List.pairwise_map] at apart
  have test : ∀ other,
      ((decide ((range other).1 ≤ address) && decide (address < (range other).2)) = true) ↔
        Inside address (range other) := by
    intro other
    simp [Inside]
  cases found : entries.find? (fun entry => (range entry).1 ≤ address && address < (range entry).2) with
  | none => exact absurd ((test entry).mpr inside) (List.find?_eq_none.mp found entry member)
  | some other =>
      have symmetric : Std.Symm fun left right : E => Apart (range left) (range right) :=
        ⟨fun _ _ apart => apart.symm⟩
      have here : Inside address (range other) := by
        have := List.find?_some found
        exact (test other).mp this
      by_contra different
      have separate := apart.forall (List.mem_of_find?_eq_some found) member
        fun same => different (by rw [same])
      exact separate.not_inside here inside

theorem find_outside {E : Type} (range : E → Nat × Nat) {entries : List E} {address : Nat}
    (outside : ∀ entry ∈ entries, ¬Inside address (range entry)) :
    entries.find? (fun entry => (range entry).1 ≤ address && address < (range entry).2) = none := by
  refine List.find?_eq_none.mpr fun entry member inside => outside entry member ?_
  simpa [Inside] using inside

/-- A range moved up. -/
def moved (base : Nat) (range : Nat × Nat) : Nat × Nat :=
  (base + range.1, base + range.2)

theorem Apart.moved {left right : Nat × Nat} (apart : Apart left right) (base : Nat) :
    Apart (moved base left) (moved base right) := by
  simp only [Apart, Vc.moved] at *
  omega

/-- The range of an entry. -/
def RegisterEntry.range (entry : RegisterEntry) : Nat × Nat :=
  (entry.address, entry.endAddress)

/-- The range of a memory entry. -/
def MemoryEntry.range (entry : MemoryEntry) : Nat × Nat :=
  (entry.address, entry.endAddress)

/-! ### What construction establishes -/

/-- A register entry as `build_entries` makes it. -/
structure RegisterEntry.Built (entry : RegisterEntry) : Prop where
  endAddress : entry.endAddress = entry.address + entry.descriptor.width.toNat / 8
  top : entry.endAddress < 2 ^ 64
  transferBytes : entry.transferBytes = entry.descriptor.accessWidth.toNat / 8
  transferShift : entry.transferShift = log2Exact (if entry.transferBytes = 0 then 1 else entry.transferBytes)
  transferPow2 : entry.transferPow2 = isPow2 entry.transferBytes
  distinct : (entry.fields.map (·.counter)).Nodup

/-- A memory entry as `build_entries` makes it. -/
structure MemoryEntry.Built (entry : MemoryEntry) : Prop where
  endAddress :
    entry.endAddress = entry.address + entry.descriptor.entries.toNat * (entry.descriptor.width.toNat / 8)
  top : entry.endAddress < 2 ^ 64
  elementBytes : entry.elementBytes = entry.descriptor.width.toNat / 8
  elementShift : entry.elementShift = log2Exact (if entry.elementBytes = 0 then 1 else entry.elementBytes)
  elementPow2 : entry.elementPow2 = isPow2 entry.elementBytes

namespace RegisterAccessCoverage

variable {coverage next : RegisterAccessCoverage}

/-- A coverage without a table whose entries are those of a block at non-overlapping addresses. -/
structure Entries (coverage : RegisterAccessCoverage) : Prop where
  registers : ∀ entry ∈ coverage.registers, entry.Built
  memories : ∀ entry ∈ coverage.memories, entry.Built
  apart : (coverage.registers.map (·.range) ++ coverage.memories.map (·.range)).Pairwise Apart
  cells : coverage.cells.length = coverage.counters.length
  table : coverage.table = {}

theorem checkedAddress_ok {base offset address : Nat} {path : String}
    (ok : checkedAddress base offset path = .ok address) (small : base < 2 ^ 64) :
    address = base + offset ∧ address < 2 ^ 64 := by
  unfold checkedAddress at ok
  split at ok
  · cases ok
  · cases ok
    exact ⟨rfl, by omega⟩

theorem checkedProduct_ok {left right product : Nat} {path : String}
    (ok : checkedProduct left right path = .ok product) : product = left * right := by
  unfold checkedProduct at ok
  split at ok
  · cases ok
  · cases ok
    rfl

/-- The counters of the fields of a register are new, and in order. -/
theorem addFields_spec (fields : List RegisterFieldDescriptor) (coverage : RegisterAccessCoverage) :
    ((coverage.addFields fields).2.map (·.counter)).Nodup ∧
      (∀ entry ∈ (coverage.addFields fields).2, coverage.counters.length ≤ entry.counter) ∧
      ∃ counters cells, counters.length = cells.length ∧
        (coverage.addFields fields).1 =
          { coverage with counters := coverage.counters ++ counters, cells := coverage.cells ++ cells } := by
  induction fields generalizing coverage with
  | nil =>
      refine ⟨List.nodup_nil, fun entry member => (List.not_mem_nil member).elim, [], [], rfl, ?_⟩
      simp [addFields]
  | cons field rest ih =>
      obtain ⟨distinct, above, counters, cells, lengths, same⟩ :=
        ih (coverage.addCounter field.path .field (registerReadable field.access)
          (registerWritable field.access))
      have more : ∀ entry ∈ ((coverage.addCounter field.path .field (registerReadable field.access)
          (registerWritable field.access)).addFields rest).2, coverage.counters.length < entry.counter := by
        intro entry member
        have := above entry member
        simp only [addCounter, List.length_append, List.length_singleton] at this
        omega
      let counter : Counter :=
        { path := field.path
          kind := .field
          readable := registerReadable field.access
          writable := registerWritable field.access }
      refine ⟨?_, ?_, counter :: counters, {} :: cells, by simp [lengths], ?_⟩
      · simp only [addFields, List.map_cons, List.nodup_cons, List.mem_map, not_exists, not_and]
        refine ⟨fun entry member equal => ?_, distinct⟩
        have := more entry member
        omega
      · intro entry member
        simp only [addFields, List.mem_cons] at member
        rcases member with rfl | member
        · exact le_refl _
        · exact (more entry member).le
      · simp only [addFields, same]
        simp [addCounter, counter]

/-- One register adds one entry, at its address. -/
theorem addRegister_spec {base : Nat} {descriptor : RegisterDescriptor} (small : base < 2 ^ 64)
    (ok : addRegister base coverage descriptor = .ok next) :
    ∃ entry : RegisterEntry, entry.Built ∧ entry.range = moved base descriptor.range ∧
      next.registers = coverage.registers ++ [entry] ∧ next.memories = coverage.memories ∧
      next.table = coverage.table ∧
      (coverage.cells.length = coverage.counters.length → next.cells.length = next.counters.length) := by
  unfold addRegister at ok
  cases atAddress : checkedAddress base descriptor.address.toNat descriptor.path with
  | error message => rw [atAddress] at ok; cases ok
  | ok address =>
      rw [atAddress] at ok
      obtain ⟨here, below⟩ := checkedAddress_ok atAddress small
      cases atEnd : checkedAddress address (descriptor.width.toNat / 8) descriptor.path with
      | error message => simp only [atEnd, bind, Except.bind] at ok; cases ok
      | ok endAddress =>
          obtain ⟨last, top⟩ := checkedAddress_ok atEnd below
          simp only [atEnd, bind, Except.bind, pure, Except.pure] at ok
          obtain ⟨distinct, -, counters, cells, lengths, same⟩ := addFields_spec descriptor.fields
            (coverage.addCounter descriptor.path .register (descriptorReadable descriptor)
              (descriptorWritable descriptor))
          injection ok with ok
          subst ok
          refine ⟨_, ⟨last, top, rfl, rfl, rfl, distinct⟩, ?_, by rw [same]; rfl, by rw [same]; rfl,
            by rw [same]; rfl, fun equal => ?_⟩
          · simp only [RegisterEntry.range, moved, RegisterDescriptor.range, last, here]
            rw [Nat.add_assoc]
          · rw [same]
            simp [addCounter, lengths, equal]

/-- One memory adds one entry, at its address. -/
theorem addMemory_spec {base : Nat} {descriptor : RegisterMemoryDescriptor} (small : base < 2 ^ 64)
    (ok : addMemory base coverage descriptor = .ok next) :
    ∃ entry : MemoryEntry, entry.Built ∧ entry.range = moved base descriptor.range ∧
      next.memories = coverage.memories ++ [entry] ∧ next.registers = coverage.registers ∧
      next.table = coverage.table ∧
      (coverage.cells.length = coverage.counters.length → next.cells.length = next.counters.length) := by
  unfold addMemory at ok
  cases atAddress : checkedAddress base descriptor.address.toNat descriptor.path with
  | error message => rw [atAddress] at ok; cases ok
  | ok address =>
      obtain ⟨here, below⟩ := checkedAddress_ok atAddress small
      cases product : checkedProduct descriptor.entries.toNat (descriptor.width.toNat / 8) descriptor.path with
      | error message => simp only [atAddress, product, bind, Except.bind] at ok; cases ok
      | ok bytes =>
          have size := checkedProduct_ok product
          cases atEnd : checkedAddress address bytes descriptor.path with
          | error message => simp only [atAddress, product, atEnd, bind, Except.bind] at ok; cases ok
          | ok endAddress =>
              obtain ⟨last, top⟩ := checkedAddress_ok atEnd below
              simp only [atAddress, product, atEnd, bind, Except.bind, pure, Except.pure] at ok
              injection ok with ok
              subst ok
              refine ⟨_, ⟨by rw [last, size], top, rfl, rfl, rfl⟩, ?_, rfl, rfl, rfl, fun equal => ?_⟩
              · simp only [MemoryEntry.range, moved, RegisterMemoryDescriptor.range, last, here, size]
                rw [Nat.add_assoc]
              · simp [equal]

theorem foldlM_addRegister {base : Nat} (small : base < 2 ^ 64) {descriptors : List RegisterDescriptor}
    (ok : descriptors.foldlM (addRegister base) coverage = .ok next) :
    ∃ entries : List RegisterEntry, (∀ entry ∈ entries, entry.Built) ∧
      entries.map (·.range) = descriptors.map (fun descriptor => moved base descriptor.range) ∧
      next.registers = coverage.registers ++ entries ∧ next.memories = coverage.memories ∧
      next.table = coverage.table ∧
      (coverage.cells.length = coverage.counters.length → next.cells.length = next.counters.length) := by
  induction descriptors generalizing coverage with
  | nil =>
      cases ok
      exact ⟨[], by simp, rfl, by simp, rfl, rfl, id⟩
  | cons descriptor rest ih =>
      rw [List.foldlM_cons] at ok
      cases one : addRegister base coverage descriptor with
      | error message => rw [one] at ok; cases ok
      | ok middle =>
          rw [one] at ok
          obtain ⟨entry, built, range, registers, memories, table, cells⟩ := addRegister_spec small one
          obtain ⟨entries, builts, ranges, registers', memories', table', cells'⟩ := ih ok
          refine ⟨entry :: entries, ?_, ?_, ?_, memories'.trans memories, table'.trans table,
            fun equal => cells' (cells equal)⟩
          · intro other member
            rcases List.mem_cons.mp member with rfl | member
            · exact built
            · exact builts other member
          · rw [List.map_cons, List.map_cons, range, ranges]
          · rw [registers', registers, List.append_assoc, List.singleton_append]

theorem foldlM_addMemory {base : Nat} (small : base < 2 ^ 64) {descriptors : List RegisterMemoryDescriptor}
    (ok : descriptors.foldlM (addMemory base) coverage = .ok next) :
    ∃ entries : List MemoryEntry, (∀ entry ∈ entries, entry.Built) ∧
      entries.map (·.range) = descriptors.map (fun descriptor => moved base descriptor.range) ∧
      next.memories = coverage.memories ++ entries ∧ next.registers = coverage.registers ∧
      next.table = coverage.table ∧
      (coverage.cells.length = coverage.counters.length → next.cells.length = next.counters.length) := by
  induction descriptors generalizing coverage with
  | nil =>
      cases ok
      exact ⟨[], by simp, rfl, by simp, rfl, rfl, id⟩
  | cons descriptor rest ih =>
      rw [List.foldlM_cons] at ok
      cases one : addMemory base coverage descriptor with
      | error message => rw [one] at ok; cases ok
      | ok middle =>
          rw [one] at ok
          obtain ⟨entry, built, range, memories, registers, table, cells⟩ := addMemory_spec small one
          obtain ⟨entries, builts, ranges, memories', registers', table', cells'⟩ := ih ok
          refine ⟨entry :: entries, ?_, ?_, ?_, registers'.trans registers, table'.trans table,
            fun equal => cells' (cells equal)⟩
          · intro other member
            rcases List.mem_cons.mp member with rfl | member
            · exact built
            · exact builts other member
          · rw [List.map_cons, List.map_cons, range, ranges]
          · rw [memories', memories, List.append_assoc, List.singleton_append]

/-- The entries of a constructed coverage. -/
theorem scanning_entries {block : RegisterBlockDescriptor} {baseAddress : UInt64} {name : String}
    (built : scanning block baseAddress name = .ok coverage) (apart : block.NonOverlapping) :
    coverage.Entries := by
  have small : baseAddress.toNat < 2 ^ 64 := baseAddress.toNat_lt
  unfold scanning at built
  by_cases empty : name.isEmpty = true
  · rw [if_pos empty] at built
    cases built
  rw [if_neg empty] at built
  cases first : block.registers.foldlM (addRegister baseAddress.toNat) { name := name } with
  | error message => simp only [first, bind, Except.bind] at built; cases built
  | ok middle =>
      cases second : block.memories.foldlM (addMemory baseAddress.toNat) middle with
      | error message => simp only [first, second, bind, Except.bind] at built; cases built
      | ok last =>
          simp only [first, second, bind, Except.bind, pure, Except.pure] at built
          obtain ⟨registers, registersBuilt, registerRanges, sameRegisters, noMemories, noTable, cells⟩ :=
            foldlM_addRegister small first
          obtain ⟨memories, memoriesBuilt, memoryRanges, sameMemories, keptRegisters, keptTable, cells'⟩ :=
            foldlM_addMemory small second
          injection built with built
          subst built
          have sortedRegisters := List.perm_insertionSort
            (fun left right : RegisterEntry => left.address ≤ right.address) last.registers
          have sortedMemories := List.perm_insertionSort
            (fun left right : MemoryEntry => left.address ≤ right.address) last.memories
          have allRegisters : last.registers = registers := by rw [keptRegisters, sameRegisters]; rfl
          have allMemories : last.memories = memories := by rw [sameMemories, noMemories]; rfl
          refine ⟨fun entry member => ?_, fun entry member => ?_, ?_, cells' (cells rfl),
            keptTable.trans noTable⟩
          · rw [sortedRegisters.mem_iff, allRegisters] at member
            exact registersBuilt entry member
          · rw [sortedMemories.mem_iff, allMemories] at member
            exact memoriesBuilt entry member
          · have same := (sortedRegisters.map (·.range)).append (sortedMemories.map (·.range))
            rw [same.pairwise_iff Apart.symm, allRegisters, allMemories, registerRanges, memoryRanges]
            have inBlock := List.Pairwise.map (moved baseAddress.toNat)
              (fun left right (separate : Apart left right) => separate.moved baseAddress.toNat) apart
            rw [List.map_append, List.map_map, List.map_map] at inBlock
            exact inBlock

end RegisterAccessCoverage

end Cpptb.Vc
