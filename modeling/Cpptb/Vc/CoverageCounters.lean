/-
The counters of register access coverage.

`build_entries` gives each register, each of its fields and each memory a counter of its own.

* `RegisterEntry.Labelled`: the counters of an entry carry the paths and the directions of its register
  and fields.
* `Numbered`, `scanning_numbered`: no two of them are the same.
-/

import Cpptb.Vc.RegisterEntries

namespace Cpptb.Vc

/-- The counter of a register. -/
def RegisterDescriptor.counter (descriptor : RegisterDescriptor) : Counter where
  path := descriptor.path
  kind := .register
  readable := RegisterAccessCoverage.descriptorReadable descriptor
  writable := RegisterAccessCoverage.descriptorWritable descriptor

/-- The counter of a field. -/
def RegisterFieldDescriptor.counter (field : RegisterFieldDescriptor) : Counter where
  path := field.path
  kind := .field
  readable := registerReadable field.access
  writable := registerWritable field.access

/-- The positions of the counters of a register and its fields. -/
def RegisterEntry.indices (entry : RegisterEntry) : List Nat :=
  entry.counter :: entry.fields.map (·.counter)

/-- The counters of an entry are those of its register and fields. -/
structure RegisterEntry.Labelled (entry : RegisterEntry) (counters : List Counter) : Prop where
  register : counters[entry.counter]? = some entry.descriptor.counter
  fields : List.Forall₂ (fun (field : FieldEntry) descriptor => field.descriptor = descriptor ∧
    counters[field.counter]? = some descriptor.counter) entry.fields entry.descriptor.fields

theorem getElem?_of_initial {α : Type} {first second : List α} (same : first <+: second) {index : Nat}
    {a : α} (found : first[index]? = some a) : second[index]? = some a := by
  obtain ⟨rest, rfl⟩ := same
  have inside : index < first.length := (List.getElem?_eq_some_iff.mp found).1
  rw [List.getElem?_append_left inside, found]

theorem RegisterEntry.Labelled.mono {entry : RegisterEntry} {counters counters' : List Counter}
    (labelled : entry.Labelled counters) (more : counters <+: counters') : entry.Labelled counters' :=
  ⟨getElem?_of_initial more labelled.register,
    labelled.fields.imp fun _ _ same => ⟨same.1, getElem?_of_initial more same.2⟩⟩

namespace RegisterAccessCoverage

variable {coverage next : RegisterAccessCoverage}

/-- The positions of all counters of entries. -/
def indices (coverage : RegisterAccessCoverage) : List Nat :=
  coverage.registers.flatMap (·.indices) ++ coverage.memories.map (·.counter)

/-- Every entry has its own counters. -/
structure Numbered (coverage : RegisterAccessCoverage) : Prop where
  distinct : coverage.indices.Nodup
  below : ∀ index ∈ coverage.indices, index < coverage.counters.length
  labelled : ∀ entry ∈ coverage.registers, entry.Labelled coverage.counters

/-- The fields of a register get the next counters. -/
theorem addFields_numbered (fields : List RegisterFieldDescriptor) (coverage : RegisterAccessCoverage) :
    (coverage.addFields fields).1.counters = coverage.counters ++ fields.map (·.counter) ∧
      (coverage.addFields fields).2.map (·.counter) =
        List.range' coverage.counters.length fields.length ∧
      (coverage.addFields fields).2.map (·.descriptor) = fields := by
  induction fields generalizing coverage with
  | nil => exact ⟨(List.append_nil _).symm, rfl, rfl⟩
  | cons field rest ih =>
      obtain ⟨counters, positions, descriptors⟩ :=
        ih (coverage.addCounter field.path .field (registerReadable field.access)
          (registerWritable field.access))
      refine ⟨?_, ?_, ?_⟩
      · rw [addFields, counters, addCounter, List.append_assoc]
        rfl
      · rw [addFields, List.map_cons, positions, List.length_cons, List.range'_succ, addCounter,
          List.length_append, List.length_singleton]
      · rw [addFields, List.map_cons, descriptors]

/-- The entries of fields at the positions of their counters. -/
theorem forall₂_numbered {fields : List RegisterFieldDescriptor} {entries : List FieldEntry}
    {before : List Counter}
    (positions : entries.map (·.counter) = List.range' before.length fields.length)
    (descriptors : entries.map (·.descriptor) = fields) :
    List.Forall₂ (fun (field : FieldEntry) descriptor => field.descriptor = descriptor ∧
      (before ++ fields.map (·.counter))[field.counter]? = some descriptor.counter) entries fields := by
  have lengths : entries.length = fields.length := by rw [← descriptors, List.length_map]
  refine List.forall₂_iff_get.mpr ⟨lengths, fun index bound bound' => ?_⟩
  have position : (entries.get ⟨index, bound⟩).counter = before.length + index := by
    have here := congrArg (·[index]?) positions
    simp only [List.getElem?_map, List.getElem?_eq_getElem bound, Option.map_some,
      List.getElem?_range' bound', one_mul] at here
    exact Option.some.inj here
  have descriptor : (entries.get ⟨index, bound⟩).descriptor = fields.get ⟨index, bound'⟩ := by
    have here := congrArg (·[index]?) descriptors
    simp only [List.getElem?_map, List.getElem?_eq_getElem bound, Option.map_some,
      List.getElem?_eq_getElem bound'] at here
    exact Option.some.inj here
  refine ⟨descriptor, ?_⟩
  rw [position, List.getElem?_append_right (Nat.le_add_right _ _), Nat.add_sub_cancel_left,
    List.getElem?_map, List.getElem?_eq_getElem bound']
  rfl

/-- One register. -/
theorem addRegister_numbered {base : Nat} {descriptor : RegisterDescriptor} (small : base < 2 ^ 64)
    (ok : addRegister base coverage descriptor = .ok next) :
    ∃ entry : RegisterEntry, next.registers = coverage.registers ++ [entry] ∧
      next.memories = coverage.memories ∧ entry.descriptor = descriptor ∧
      entry.address = base + descriptor.address.toNat ∧
      coverage.counters <+: next.counters ∧ entry.Labelled next.counters ∧
      entry.indices = List.range' coverage.counters.length (descriptor.fields.length + 1) ∧
      next.counters.length = coverage.counters.length + (descriptor.fields.length + 1) := by
  unfold addRegister at ok
  cases atAddress : checkedAddress base descriptor.address.toNat descriptor.path with
  | error message => rw [atAddress] at ok; cases ok
  | ok address =>
      rw [atAddress] at ok
      obtain ⟨here, -⟩ := checkedAddress_ok atAddress small
      cases atEnd : checkedAddress address (descriptor.width.toNat / 8) descriptor.path with
      | error message => simp only [atEnd, bind, Except.bind] at ok; cases ok
      | ok endAddress =>
          simp only [atEnd, bind, Except.bind, pure, Except.pure] at ok
          obtain ⟨counters, positions, descriptors⟩ := addFields_numbered descriptor.fields
            (coverage.addCounter descriptor.path .register (descriptorReadable descriptor)
              (descriptorWritable descriptor))
          obtain ⟨-, -, counters', cells, -, same⟩ := addFields_spec descriptor.fields
            (coverage.addCounter descriptor.path .register (descriptorReadable descriptor)
              (descriptorWritable descriptor))
          have first : (coverage.addCounter descriptor.path .register (descriptorReadable descriptor)
              (descriptorWritable descriptor)).counters = coverage.counters ++ [descriptor.counter] := rfl
          injection ok with ok
          subst ok
          refine ⟨_, by rw [same]; rfl, by rw [same]; rfl, rfl, here, ?_, ⟨?_, ?_⟩, ?_, ?_⟩
          · rw [counters, first, List.append_assoc]
            exact List.prefix_append _ _
          · rw [counters, first, List.append_assoc, List.getElem?_append_right (le_refl _),
              Nat.sub_self]
            rfl
          · rw [counters]
            exact forall₂_numbered positions descriptors
          · rw [RegisterEntry.indices, positions, first, List.length_append, List.length_singleton]
            rfl
          · rw [counters, first, List.length_append, List.length_append, List.length_map,
              List.length_singleton]
            omega

/-- Counters that are all new. -/
theorem nodup_append_range' {indices : List Nat} {start count : Nat} (distinct : indices.Nodup)
    (below : ∀ index ∈ indices, index < start) :
    (indices ++ List.range' start count).Nodup := by
  refine List.nodup_append.mpr ⟨distinct, List.nodup_range', fun old inside index new same => ?_⟩
  have above := (List.mem_range'_1.mp new).1
  have := below old inside
  omega

theorem Numbered.addRegister {base : Nat} {descriptor : RegisterDescriptor} (small : base < 2 ^ 64)
    (numbered : coverage.Numbered) (ok : addRegister base coverage descriptor = .ok next) :
    next.Numbered := by
  obtain ⟨entry, registers, memories, -, -, counters, labelled, positions, lengths⟩ :=
    addRegister_numbered small ok
  have perm : next.indices.Perm (coverage.indices ++ entry.indices) := by
    rw [indices, indices, registers, memories, List.flatMap_append, List.flatMap_singleton,
      List.append_assoc, List.append_assoc]
    exact List.perm_append_comm.append_left _
  refine ⟨perm.symm.nodup ?_, fun index member => ?_, fun other member => ?_⟩
  · rw [positions]
    exact nodup_append_range' numbered.distinct numbered.below
  · rcases List.mem_append.mp (perm.subset member) with old | new
    · exact (numbered.below index old).trans_le counters.length_le
    · rw [positions] at new
      exact lengths ▸ (List.mem_range'_1.mp new).2
  · rw [registers] at member
    rcases List.mem_append.mp member with old | new
    · exact (numbered.labelled other old).mono counters
    · exact List.mem_singleton.mp new ▸ labelled

/-- One memory. -/
theorem addMemory_numbered {base : Nat} {descriptor : RegisterMemoryDescriptor}
    (ok : addMemory base coverage descriptor = .ok next) :
    ∃ entry : MemoryEntry, next.registers = coverage.registers ∧
      next.memories = coverage.memories ++ [entry] ∧ entry.counter = coverage.counters.length ∧
      ∃ counter, next.counters = coverage.counters ++ [counter] := by
  unfold addMemory at ok
  cases atAddress : checkedAddress base descriptor.address.toNat descriptor.path with
  | error message => rw [atAddress] at ok; cases ok
  | ok address =>
      cases product : checkedProduct descriptor.entries.toNat (descriptor.width.toNat / 8)
          descriptor.path with
      | error message => simp only [atAddress, product, bind, Except.bind] at ok; cases ok
      | ok bytes =>
          cases atEnd : checkedAddress address bytes descriptor.path with
          | error message => simp only [atAddress, product, atEnd, bind, Except.bind] at ok; cases ok
          | ok endAddress =>
              simp only [atAddress, product, atEnd, bind, Except.bind, pure, Except.pure] at ok
              injection ok with ok
              subst ok
              exact ⟨_, rfl, rfl, rfl, _, rfl⟩

theorem Numbered.addMemory {base : Nat} {descriptor : RegisterMemoryDescriptor}
    (numbered : coverage.Numbered) (ok : addMemory base coverage descriptor = .ok next) :
    next.Numbered := by
  obtain ⟨entry, registers, memories, position, counter, counters⟩ := addMemory_numbered ok
  have same : next.indices = coverage.indices ++ List.range' coverage.counters.length 1 := by
    rw [indices, indices, registers, memories, List.map_append, List.append_assoc, List.range'_one,
      List.map_singleton, position]
  refine ⟨?_, fun index member => ?_, fun other member => ?_⟩
  · rw [same]
    exact nodup_append_range' numbered.distinct numbered.below
  · rw [counters, List.length_append, List.length_singleton]
    rcases List.mem_append.mp (same ▸ member) with old | new
    · exact (numbered.below index old).trans (Nat.lt_succ_self _)
    · exact (List.mem_range'_1.mp new).2
  · rw [registers] at member
    rw [counters]
    exact (numbered.labelled other member).mono (List.prefix_append _ _)

/-- The entries of some registers. -/
theorem foldlM_addRegister_numbered {base : Nat} (small : base < 2 ^ 64)
    {descriptors : List RegisterDescriptor} (numbered : coverage.Numbered)
    (ok : descriptors.foldlM (addRegister base) coverage = .ok next) :
    next.Numbered ∧ (∀ entry ∈ coverage.registers, entry ∈ next.registers) ∧
      ∀ descriptor ∈ descriptors, ∃ entry ∈ next.registers, entry.descriptor = descriptor ∧
        entry.address = base + descriptor.address.toNat := by
  induction descriptors generalizing coverage with
  | nil =>
      cases ok
      exact ⟨numbered, fun _ => id, nofun⟩
  | cons first rest ih =>
      rw [List.foldlM_cons] at ok
      cases one : addRegister base coverage first with
      | error message => rw [one] at ok; cases ok
      | ok middle =>
          rw [one] at ok
          obtain ⟨entry, registers, -, descriptor, address, -⟩ := addRegister_numbered small one
          obtain ⟨numbered', kept, all⟩ := ih (numbered.addRegister small one) ok
          refine ⟨numbered', fun other member => kept other ?_, fun wanted member => ?_⟩
          · rw [registers]
            exact List.mem_append_left _ member
          · rcases List.mem_cons.mp member with rfl | later
            · refine ⟨entry, kept entry ?_, descriptor, address⟩
              rw [registers]
              exact List.mem_append_right _ (List.mem_singleton_self _)
            · exact all wanted later

theorem foldlM_addMemory_numbered {base : Nat} {descriptors : List RegisterMemoryDescriptor}
    (numbered : coverage.Numbered) (ok : descriptors.foldlM (addMemory base) coverage = .ok next) :
    next.Numbered ∧ next.registers = coverage.registers := by
  induction descriptors generalizing coverage with
  | nil =>
      cases ok
      exact ⟨numbered, rfl⟩
  | cons first rest ih =>
      rw [List.foldlM_cons] at ok
      cases one : addMemory base coverage first with
      | error message => rw [one] at ok; cases ok
      | ok middle =>
          rw [one] at ok
          obtain ⟨entry, registers, -⟩ := addMemory_numbered one
          obtain ⟨numbered', kept⟩ := ih (numbered.addMemory one) ok
          exact ⟨numbered', kept.trans registers⟩

/-- **The counters of a constructed coverage**, and the entry of each register of the block. -/
theorem scanning_numbered {block : RegisterBlockDescriptor} {baseAddress : UInt64} {name : String}
    (built : scanning block baseAddress name = .ok coverage) :
    coverage.Numbered ∧ ∀ descriptor ∈ block.registers, ∃ entry ∈ coverage.registers,
      entry.descriptor = descriptor ∧
        entry.address = baseAddress.toNat + descriptor.address.toNat := by
  have small : baseAddress.toNat < 2 ^ 64 := baseAddress.toNat_lt
  unfold scanning at built
  by_cases empty : name.isEmpty = true
  · rw [if_pos empty] at built
    cases built
  rw [if_neg empty] at built
  cases first : block.registers.foldlM (RegisterAccessCoverage.addRegister baseAddress.toNat)
      { name := name } with
  | error message => simp only [first, bind, Except.bind] at built; cases built
  | ok middle =>
      cases second : block.memories.foldlM (RegisterAccessCoverage.addMemory baseAddress.toNat)
          middle with
      | error message => simp only [first, second, bind, Except.bind] at built; cases built
      | ok last =>
          simp only [first, second, bind, Except.bind, pure, Except.pure] at built
          have start : Numbered { name := name } := ⟨.nil, nofun, nofun⟩
          obtain ⟨numbered, -, all⟩ := foldlM_addRegister_numbered small start first
          obtain ⟨numbered', kept⟩ := foldlM_addMemory_numbered numbered second
          injection built with built
          subst built
          have registers := List.perm_insertionSort
            (fun left right : RegisterEntry => left.address ≤ right.address) last.registers
          have memories := List.perm_insertionSort
            (fun left right : MemoryEntry => left.address ≤ right.address) last.memories
          have perm := (registers.flatMap_right (·.indices)).append (memories.map (·.counter))
          refine ⟨⟨perm.symm.nodup numbered'.distinct,
            fun index member => numbered'.below index (perm.subset member),
            fun entry member => numbered'.labelled entry (registers.subset member)⟩, ?_⟩
          intro descriptor member
          obtain ⟨entry, inside, same, address⟩ := all descriptor member
          exact ⟨entry, registers.symm.subset (kept ▸ inside), same, address⟩

end RegisterAccessCoverage

end Cpptb.Vc
