/-
The sparse memory refines the flat byte map.

`Represents m f` relates the two: the regions of `m` are those of `f`, in order and disjoint, no
region reaches `2 ^ 64`, and what a region stores, with its fill value elsewhere, are the bytes of
`f`. `Sparse` says that no region stores its fill value.

* `findRegion_iff` — the lookup finds the region that contains the range of an access;
* `storeFrom_byteAt` — a write changes the enabled bytes of its range;
* `perform_refines` — every call keeps `Represents`, and the replies of the two memories agree for
  an access of at least one byte;
* `sparse_memory_refines` — so do runs from the empty memories.
-/

import Cpptb.Memory.FlatMemory

namespace Cpptb.Memory

open Function (update)
open SparseMemory

/-- The first address after a region, as a number. -/
def finish (region : Region) : Nat := region.config.last

/-- What a region holds at an offset. -/
def Region.byteAt (region : Region) (index : Nat) : Byte :=
  (region.bytes (BitVec.ofNat 64 index)).getD region.config.fill

/-- The region ends before the end of the address space. -/
def Region.Bounded (region : Region) : Prop := region.config.last < 2 ^ 64

/-- No stored byte is the fill value. -/
def Region.Sparse (region : Region) : Prop :=
  ∀ offset value, region.bytes offset = some value → value ≠ region.config.fill

/-- The regions of a memory are disjoint and bounded, and store no fill value. -/
structure SparseMemory.Ok (m : SparseMemory) : Prop where
  apart : Ranges.Apart key finish m.regions
  bounded : ∀ region ∈ m.regions, region.Bounded
  sparse : ∀ region ∈ m.regions, region.Sparse

/-- The flat memory has the regions of the sparse one, and its bytes. -/
structure Represents (m : SparseMemory) (f : FlatMemory) : Prop where
  ok : m.Ok
  regions : ∀ config, config ∈ f.regions ↔ ∃ region ∈ m.regions, region.config = config
  bytes : ∀ region ∈ m.regions, ∀ index < region.config.size.toNat,
    region.byteAt index = f.byte (region.config.first + index)

/-! ### Addresses -/

/-- A number below `2 ^ 64` is its address. -/
theorem ofNat_toNat {x : Nat} (small : x < 2 ^ 64) : (BitVec.ofNat 64 x).toNat = x := by
  rw [BitVec.toNat_ofNat]
  exact Nat.mod_eq_of_lt small

theorem ofNat_inj {x y : Nat} (small : x < 2 ^ 64) (small' : y < 2 ^ 64) :
    BitVec.ofNat 64 x = BitVec.ofNat 64 y ↔ x = y := by
  constructor
  · intro same
    rw [← ofNat_toNat small, same, ofNat_toNat small']
  · rintro rfl
    rfl

/-- The end of an access that the lookup computes does not wrap. -/
theorem toNat_end {address : Address} {size : Nat}
    (fits : ¬ maxAddress - address.toNat < size) :
    (address + BitVec.ofNat 64 size).toNat = address.toNat + size ∧
      address.toNat + size < 2 ^ 64 := by
  have small := address.isLt
  unfold maxAddress at fits
  rw [BitVec.toNat_add, ofNat_toNat (by omega)]
  omega

/-- The end of a bounded region does not wrap. -/
theorem toNat_stop {region : Region} (bounded : region.Bounded) :
    region.stop.toNat = region.config.last := by
  unfold Region.stop
  rw [BitVec.toNat_add]
  exact Nat.mod_eq_of_lt bounded

/-- The offset of a byte inside a bounded region does not wrap. -/
theorem toNat_offset {region : Region} (bounded : region.Bounded) {address : Address} {size : Nat}
    (contains : region.config.Contains address.toNat size) {index : Nat} (inside : index < size) :
    (region.offset address index).toNat = address.toNat - region.config.first + index ∧
      region.offset address index =
        BitVec.ofNat 64 (address.toNat - region.config.first + index) ∧
      address.toNat - region.config.first + index < region.config.size.toNat := by
  unfold MemoryRegionConfig.Contains MemoryRegionConfig.first MemoryRegionConfig.last at contains
  unfold Region.Bounded MemoryRegionConfig.last at bounded
  have small := address.isLt
  have distance : (address - region.config.base).toNat =
      address.toNat - region.config.base.toNat := by
    rw [BitVec.toNat_sub]
    omega
  have number : (region.offset address index).toNat =
      address.toNat - region.config.base.toNat + index := by
    unfold Region.offset
    rw [BitVec.toNat_add, distance, ofNat_toNat (by omega)]
    omega
  refine ⟨number, ?_, ?_⟩
  · refine BitVec.eq_of_toNat_eq ?_
    rw [number, ofNat_toNat]
    · rfl
    · unfold MemoryRegionConfig.first
      omega
  · unfold MemoryRegionConfig.first
    omega

/-! ### The lookup -/

section Lookup

variable {m : SparseMemory} {address : Address} {size : Nat}

/-- A region that is found contains the range. -/
theorem contains_of_findRegion (ok : m.Ok) {region : Region}
    (found : m.findRegion address size = some region) :
    region ∈ m.regions ∧ region.config.Contains address.toNat size ∧
      (Ranges.upTo key address.toNat m.regions).getLast? = some region := by
  unfold findRegion at found
  split at found
  · cases found
  · rename_i fits
    simp only at found
    split at found
    · cases found
    · rename_i candidate last
      split at found
      · cases found
      · rename_i inside
        obtain rfl := Option.some.inj found
        obtain ⟨member, started⟩ := Ranges.mem_upTo (List.mem_of_getLast? last)
        rw [not_or, BitVec.lt_def, BitVec.lt_def, (toNat_end fits).1,
          toNat_stop (ok.bounded candidate member)] at inside
        exact ⟨member, ⟨started, Nat.le_of_not_lt inside.2⟩, last⟩

/-- The lookup finds the region that contains the range of an access. -/
theorem findRegion_iff (ok : m.Ok) (some_byte : 1 ≤ size) {region : Region} :
    m.findRegion address size = some region ↔
      region ∈ m.regions ∧ region.config.Contains address.toNat size := by
  constructor
  · intro found
    obtain ⟨member, contains, -⟩ := contains_of_findRegion ok found
    exact ⟨member, contains⟩
  · rintro ⟨member, contains⟩
    have bounded := ok.bounded region member
    have inside : key region ≤ address.toNat ∧ address.toNat < finish region :=
      ⟨contains.1, by have := contains.2; unfold finish; omega⟩
    have last := ((Ranges.last_upTo_iff ok.apart).mpr ⟨member, inside⟩).1
    have fits : ¬ maxAddress - address.toNat < size := by
      have small := address.isLt
      have reach := contains.2
      unfold Region.Bounded at bounded
      unfold maxAddress
      omega
    unfold findRegion
    rw [if_neg fits, last]
    simp only
    refine if_neg ?_
    rw [not_or, BitVec.lt_def, BitVec.lt_def, (toNat_end fits).1, toNat_stop bounded]
    exact ⟨Nat.not_lt.mpr contains.1, Nat.not_lt.mpr contains.2⟩

/-- The two lookups agree. -/
theorem region_eq {f : FlatMemory} (rep : Represents m f) (some_byte : 1 ≤ size) :
    f.region address.toNat size = (m.findRegion address size).map Region.config := by
  unfold FlatMemory.region
  cases found : m.findRegion address size with
  | none =>
      refine List.find?_eq_none.mpr fun config member contains => ?_
      obtain ⟨region, inside, rfl⟩ := (rep.regions config).mp member
      have here := (findRegion_iff rep.ok some_byte).mpr ⟨inside, of_decide_eq_true contains⟩
      rw [here] at found
      cases found
  | some region =>
      obtain ⟨member, contains⟩ := (findRegion_iff rep.ok some_byte).mp found
      have known : region.config ∈ f.regions := (rep.regions _).mpr ⟨region, member, rfl⟩
      have some : (f.regions.find? fun config => config.Contains address.toNat size).isSome :=
        List.find?_isSome.mpr ⟨region.config, known, by simpa using contains⟩
      obtain ⟨config, first⟩ := Option.isSome_iff_exists.mp some
      rw [first, Option.map_some]
      obtain ⟨region', member', rfl⟩ := (rep.regions config).mp (List.mem_of_find?_eq_some first)
      have contains' : region'.config.Contains address.toNat size := by
        simpa using List.find?_some first
      have same := (findRegion_iff rep.ok some_byte).mpr ⟨member', contains'⟩
      rw [found] at same
      rw [Option.some.inj same]

end Lookup

/-! ### Storing -/

section Storing

variable {region : Region} {address : Address} {byteEnable : List Byte}

theorem storeFrom_config (index : Nat) (data : List Byte) :
    (region.storeFrom address byteEnable index data).config = region.config := by
  induction data generalizing region index with
  | nil => rfl
  | cons value rest ih =>
      unfold Region.storeFrom
      rw [ih]
      split <;> rfl

theorem sparse_storeByte (sparse : region.Sparse) (index : Nat) (value : Byte) :
    (region.storeByte address index value).Sparse := by
  intro offset stored here
  unfold Region.storeByte at here ⊢
  simp only at here ⊢
  by_cases same : offset = region.offset address index
  · rw [same, Function.update_self] at here
    split at here
    · cases here
    · rename_i other
      obtain rfl := Option.some.inj here
      exact other
  · rw [Function.update_of_ne same] at here
    exact sparse offset stored here

theorem sparse_storeFrom (sparse : region.Sparse) (address : Address) (byteEnable : List Byte)
    (index : Nat) (data : List Byte) :
    (region.storeFrom address byteEnable index data).Sparse := by
  induction data generalizing region index with
  | nil => exact sparse
  | cons value rest ih =>
      unfold Region.storeFrom
      split
      · exact ih sparse _
      · exact ih (sparse_storeByte sparse index value) _

/-- A stored byte is the byte at its offset. -/
theorem storeByte_byteAt (bounded : region.Bounded) {size : Nat}
    (contains : region.config.Contains address.toNat size) {index : Nat} (inside : index < size)
    (value : Byte) {x : Nat} (small : x < region.config.size.toNat) :
    (region.storeByte address index value).byteAt x =
      if x = address.toNat - region.config.first + index then value else region.byteAt x := by
  obtain ⟨-, offset, less⟩ := toNat_offset bounded contains inside
  have room := region.config.size.isLt
  unfold Region.byteAt Region.storeByte
  simp only [offset]
  by_cases here : x = address.toNat - region.config.first + index
  · rw [here, Function.update_self, if_pos rfl]
    split
    · rename_i isFill
      exact isFill.symm
    · rfl
  · have other : BitVec.ofNat 64 x ≠
        BitVec.ofNat 64 (address.toNat - region.config.first + index) :=
      fun same => here ((ofNat_inj (by omega) (by omega)).mp same)
    rw [Function.update_of_ne other, if_neg here]

theorem lanes_iff (byteEnable : List Byte) (index : Nat) :
    FlatMemory.lanes byteEnable index = true ↔
      ¬ (byteEnable ≠ [] ∧ byteEnable.getD index 0 = 0) := by
  unfold FlatMemory.lanes
  rw [Bool.or_eq_true, List.isEmpty_iff, bne_iff_ne]
  tauto

/-- A write changes the enabled bytes of its range and no others. -/
theorem storeFrom_byteAt (bounded : region.Bounded) (data : List Byte) {size index : Nat}
    (contains : region.config.Contains address.toNat size) (inside : index + data.length ≤ size)
    {x : Nat} (small : x < region.config.size.toNat) :
    (region.storeFrom address byteEnable index data).byteAt x =
      if address.toNat - region.config.first + index ≤ x ∧
          x < address.toNat - region.config.first + index + data.length ∧
          FlatMemory.lanes byteEnable (x - (address.toNat - region.config.first)) then
        data.getD (x - (address.toNat - region.config.first + index)) 0
      else region.byteAt x := by
  induction data generalizing region index with
  | nil =>
      unfold Region.storeFrom
      rw [if_neg]
      simp only [List.length_nil]
      omega
  | cons value rest ih =>
      have room : index < size := by
        rw [List.length_cons] at inside
        omega
      have later : index + 1 + rest.length ≤ size := by
        rw [List.length_cons] at inside
        omega
      unfold Region.storeFrom
      generalize distance : address.toNat - region.config.first = d at *
      split
      · -- the lane is disabled
        rename_i disabled
        rw [ih bounded contains later small, distance]
        by_cases here : x = d + index
        · have off : FlatMemory.lanes byteEnable (x - d) = false := by
            rw [Bool.eq_false_iff, Ne, lanes_iff, show x - d = index by omega]
            exact not_not.mpr disabled
          rw [if_neg (by rw [off]; simp), if_neg (by rw [off]; simp)]
        · have range : d + (index + 1) ≤ x ∧ x < d + (index + 1) + rest.length ∧
              FlatMemory.lanes byteEnable (x - d) = true ↔
              d + index ≤ x ∧ x < d + index + (value :: rest).length ∧
              FlatMemory.lanes byteEnable (x - d) = true := by
            rw [List.length_cons]
            constructor <;> rintro ⟨low, high, on⟩ <;> exact ⟨by omega, by omega, on⟩
          rw [if_congr range rfl rfl]
          split
          · rename_i within
            rw [show x - (d + index) = x - (d + (index + 1)) + 1 by omega, List.getD_cons_succ]
          · rfl
      · rename_i enabled
        have stored := storeByte_byteAt bounded contains room value small
        have next := @ih (region.storeByte address index value) bounded (index + 1) contains later
          small
        rw [show (region.storeByte address index value).config = region.config from rfl,
          distance] at next
        rw [next]
        rw [distance] at stored
        by_cases here : x = d + index
        · have on : FlatMemory.lanes byteEnable (x - d) = true := by
            rw [lanes_iff, show x - d = index by omega]
            exact enabled
          rw [if_neg (by omega), stored, if_pos here, if_pos ⟨by omega, by
            rw [List.length_cons]; omega, on⟩, here, Nat.sub_self, List.getD_cons_zero]
        · have range : d + (index + 1) ≤ x ∧ x < d + (index + 1) + rest.length ∧
              FlatMemory.lanes byteEnable (x - d) = true ↔
              d + index ≤ x ∧ x < d + index + (value :: rest).length ∧
              FlatMemory.lanes byteEnable (x - d) = true := by
            rw [List.length_cons]
            constructor <;> rintro ⟨low, high, on⟩ <;> exact ⟨by omega, by omega, on⟩
          rw [if_congr range rfl rfl, stored, if_neg here]
          split
          · rw [show x - (d + index) = x - (d + (index + 1)) + 1 by omega, List.getD_cons_succ]
          · rfl

end Storing

/-! ### Writing and reading -/

section Access

variable {m : SparseMemory} {f : FlatMemory} {address : Address} {region : Region}

/-- Writing a region back changes that region. -/
theorem mem_setRegion (ok : m.Ok) {stored : Region} (member : region ∈ m.regions)
    (same : stored.config = region.config) {other : Region} :
    other ∈ (m.setRegion stored).regions ↔
      other = stored ∨ other ∈ m.regions ∧ other ≠ region ∧ key other ≠ key region := by
  have keys : key stored = key region := by
    unfold key
    rw [same]
  unfold setRegion
  simp only [List.mem_map, keys]
  constructor
  · rintro ⟨old, inside, rfl⟩
    split
    · exact .inl rfl
    · rename_i elsewhere
      exact .inr ⟨inside, fun equal => elsewhere (by rw [equal]), elsewhere⟩
  · rintro (rfl | ⟨inside, -, elsewhere⟩)
    · exact ⟨region, member, if_pos rfl⟩
    · exact ⟨other, inside, if_neg elsewhere⟩

theorem ok_setRegion (ok : m.Ok) {stored : Region} (member : region ∈ m.regions)
    (same : stored.config = region.config) (sparse : stored.Sparse) : (m.setRegion stored).Ok := by
  have keys : key stored = key region := by
    unfold key
    rw [same]
  refine ⟨ok.apart.map fun other inside => ?_, fun other inside => ?_, fun other inside => ?_⟩
  · split
    · rename_i here
      have old := ok.apart.start_injective inside member (here.trans keys)
      unfold finish key
      rw [old, same]
      exact ⟨rfl, rfl⟩
    · exact ⟨rfl, rfl⟩
  · rcases (mem_setRegion ok member same).mp inside with rfl | ⟨old, -, -⟩
    · unfold Region.Bounded
      rw [same]
      exact ok.bounded region member
    · exact ok.bounded other old
  · rcases (mem_setRegion ok member same).mp inside with rfl | ⟨old, -, -⟩
    · exact sparse
    · exact ok.sparse other old

/-- A write to a region that contains its range. -/
theorem represents_store (rep : Represents m f) (data byteEnable : List Byte)
    (member : region ∈ m.regions)
    (contains : region.config.Contains address.toNat data.length) :
    Represents (m.setRegion (region.storeFrom address byteEnable 0 data))
      (f.put address.toNat data (FlatMemory.lanes byteEnable)) := by
  have same : (region.storeFrom address byteEnable 0 data).config = region.config :=
    storeFrom_config 0 data
  have sparse := sparse_storeFrom (rep.ok.sparse region member) address byteEnable 0 data
  refine ⟨ok_setRegion rep.ok member same sparse, fun config => ?_, fun other inside x small => ?_⟩
  · refine (rep.regions config).trans ⟨?_, ?_⟩
    · rintro ⟨old, here, rfl⟩
      by_cases this : key old = key region
      · refine ⟨_, (mem_setRegion rep.ok member same).mpr (.inl rfl), ?_⟩
        rw [same, rep.ok.apart.start_injective here member this]
      · refine ⟨old, (mem_setRegion rep.ok member same).mpr (.inr ⟨here, ?_, this⟩), rfl⟩
        rintro rfl
        exact this rfl
    · rintro ⟨other, here, rfl⟩
      rcases (mem_setRegion rep.ok member same).mp here with rfl | ⟨old, -, -⟩
      · exact ⟨region, member, same.symm⟩
      · exact ⟨other, old, rfl⟩
  · rcases (mem_setRegion rep.ok member same).mp inside with rfl | ⟨old, -, elsewhere⟩
    · rw [same] at small ⊢
      have bounded := rep.ok.bounded region member
      have low := contains.1
      rw [storeFrom_byteAt bounded data contains (Nat.le_of_eq (Nat.zero_add _)) small,
        rep.bytes region member x small]
      unfold FlatMemory.put
      simp only
      have distance : region.config.first + x - address.toNat =
          x - (address.toNat - region.config.first) := by omega
      rw [distance, Nat.add_zero]
      refine if_congr ?_ rfl rfl
      constructor <;> rintro ⟨low', high, on⟩ <;> exact ⟨by omega, by omega, on⟩
    · rw [rep.bytes other old x small]
      unfold FlatMemory.put
      simp only
      refine (if_neg ?_).symm
      rintro ⟨low, high, -⟩
      -- the address would lie in two regions
      have here : key region ≤ other.config.first + x ∧ other.config.first + x < finish region :=
        ⟨contains.1.trans low, lt_of_lt_of_le high contains.2⟩
      have there : key other ≤ other.config.first + x ∧ other.config.first + x < finish other :=
        ⟨Nat.le_add_right _ _, by
          unfold finish MemoryRegionConfig.last MemoryRegionConfig.first
          omega⟩
      exact elsewhere (by rw [rep.ok.apart.unique old member there here])

/-- A read of a region that contains its range. -/
theorem loadAll_eq (rep : Represents m f) {size : Nat} (member : region ∈ m.regions)
    (contains : region.config.Contains address.toNat size) :
    region.loadAll address size = f.get address.toNat size := by
  unfold Region.loadAll FlatMemory.get
  refine List.map_congr_left fun index inside => ?_
  obtain ⟨-, offset, less⟩ :=
    toNat_offset (rep.ok.bounded region member) contains (List.mem_range.mp inside)
  have here := rep.bytes region member _ less
  unfold Region.loadByte
  rw [offset]
  refine here.trans (congrArg f.byte ?_)
  have low := contains.1
  omega

/-- A write of no byte changes nothing. -/
theorem setRegion_self (ok : m.Ok) (member : region ∈ m.regions) : m.setRegion region = m := by
  unfold setRegion
  have same : ∀ other ∈ m.regions, (if key other = key region then region else other) = other := by
    intro other inside
    split
    · rename_i here
      exact (ok.apart.start_injective inside member here).symm
    · rfl
  rw [List.map_congr_left same, List.map_id']

theorem put_nil (f : FlatMemory) (x : Nat) (enabled : Nat → Bool) : f.put x [] enabled = f := by
  unfold FlatMemory.put
  have none : ∀ y, ¬ (x ≤ y ∧ y < x + ([] : List Byte).length ∧ enabled (y - x)) := by
    rintro y ⟨low, high, -⟩
    rw [List.length_nil] at high
    omega
  simp only [if_neg (none _)]

/-- Storing bytes in the region that is found, in both memories. -/
theorem represents_found (rep : Represents m f) (data byteEnable : List Byte)
    (found : m.findRegion address data.length = some region) :
    Represents (m.setRegion (region.storeFrom address byteEnable 0 data))
      (f.put address.toNat data (FlatMemory.lanes byteEnable)) := by
  obtain ⟨member, contains, -⟩ := contains_of_findRegion rep.ok found
  exact represents_store rep data byteEnable member contains

theorem status_eq (rep : Represents m f) (address : Address) {size : Nat} (some_byte : 1 ≤ size)
    (needed : MemoryPermission → Bool) :
    f.status needed address.toNat size =
      match m.findRegion address size with
      | none => .decodeError
      | some region => if needed region.config.permission then .okay else .slaveError := by
  unfold FlatMemory.status
  rw [region_eq rep some_byte]
  cases m.findRegion address size <;> rfl

/-- The two writes agree. -/
theorem write_refines (rep : Represents m f) (address : Address) (data byteEnable : List Byte) :
    Represents (m.write address data byteEnable).1 (f.write address.toNat data byteEnable).1 ∧
      (1 ≤ data.length →
        (m.write address data byteEnable).2 = (f.write address.toNat data byteEnable).2) := by
  cases data with
  | nil =>
      refine ⟨?_, fun impossible => absurd impossible (by simp)⟩
      have flat : (f.write address.toNat [] byteEnable).1 = f := by
        unfold FlatMemory.write
        simp only [put_nil, ite_self]
      rw [flat]
      unfold SparseMemory.write
      cases found : m.findRegion address ([] : List Byte).length with
      | none => exact rep
      | some region =>
          simp only
          split
          · rw [show region.storeFrom address byteEnable 0 [] = region from rfl,
              setRegion_self rep.ok (contains_of_findRegion rep.ok found).1]
            exact rep
          · exact rep
  | cons value rest =>
      have some_byte : 1 ≤ (value :: rest).length := by simp
      have status := status_eq rep address some_byte MemoryPermission.writable
      unfold SparseMemory.write FlatMemory.write
      simp only [status]
      cases found : m.findRegion address (value :: rest).length with
      | none => exact ⟨rep, fun _ => rfl⟩
      | some region =>
          rcases Bool.eq_false_or_eq_true region.config.permission.writable with on | off
          · simp only [on, if_true]
            exact ⟨represents_found rep _ byteEnable found, fun _ => trivial⟩
          · simp only [off, Bool.false_eq_true, if_false]
            exact ⟨rep, fun _ => trivial⟩

/-- The two reads agree, where the span holds zeros before. -/
theorem readInto_refines (rep : Represents m f) {size : Nat} (some_byte : 1 ≤ size) :
    m.readInto address (List.replicate size 0) = f.read address.toNat size := by
  have status := status_eq rep address some_byte MemoryPermission.readable
  unfold SparseMemory.readInto FlatMemory.read
  rw [List.length_replicate]
  simp only [status]
  cases found : m.findRegion address size with
  | none => rfl
  | some region =>
      obtain ⟨member, contains, -⟩ := contains_of_findRegion rep.ok found
      rcases Bool.eq_false_or_eq_true region.config.permission.readable with on | off
      · simp only [on, if_true, loadAll_eq rep member contains]
      · simp only [off, Bool.false_eq_true, if_false]
        rfl

theorem byteOrder_eq (rep : Represents m f) {size : Nat} (some_byte : 1 ≤ size) :
    m.byteOrder address size = f.byteOrder address.toNat size := by
  unfold SparseMemory.byteOrder FlatMemory.byteOrder
  rw [region_eq rep some_byte]
  cases m.findRegion address size <;> rfl

theorem isSome_region (rep : Represents m f) (address : Address) {size : Nat}
    (some_byte : 1 ≤ size) :
    (f.region address.toNat size).isSome = (m.findRegion address size).isSome := by
  rw [region_eq rep some_byte, Option.isSome_map]

end Access

/-! ### Adding a region -/

/-- Two regions that are not empty meet, or are disjoint. -/
theorem disjoint_iff {region other : Region} (proper : key region < finish region)
    (proper' : key other < finish other) :
    Ranges.Disjoint key finish region other ↔ ¬ region.config.Meets other.config := by
  unfold MemoryRegionConfig.Meets
  constructor
  · rintro disjoint ⟨low, high⟩
    refine disjoint (max (key region) (key other)) ⟨⟨le_max_left _ _, ?_⟩, le_max_right _ _, ?_⟩
    · exact max_lt proper high
    · exact max_lt low proper'
  · rintro apart x ⟨⟨low, high⟩, low', high'⟩
    exact apart ⟨lt_of_le_of_lt low high', lt_of_le_of_lt low' high⟩

section Adding

variable {m : SparseMemory} {f : FlatMemory} {config : MemoryRegionConfig}

/-- The two tests of `add_region` for an overlap say whether the region fits. -/
theorem overlap_iff (ok : m.Ok) (bounded : config.last < 2 ^ 64) :
    (¬ ((Ranges.onwards key config.base.toNat m.regions).head?.any fun region =>
        region.config.base < config.base + config.size) = true ∧
      ¬ ((Ranges.before key config.base.toNat m.regions).getLast?.any fun region =>
        config.base < region.stop) = true) ↔
    Ranges.Fits key finish { config := config, bytes := fun _ => none } m.regions := by
  let added : Region := { config := config, bytes := fun _ => none }
  have stop : (config.base + config.size).toNat = config.last :=
    @toNat_stop added bounded
  unfold Ranges.Fits
  refine and_congr ?_ ?_
  · show _ ↔ ∀ next, (Ranges.onwards key config.base.toNat m.regions).head? = some next →
      config.last ≤ key next
    cases (Ranges.onwards key config.base.toNat m.regions).head? with
    | none => simp
    | some next =>
        simp only [Option.any_some, decide_eq_true_eq, Option.some.injEq, forall_eq',
          BitVec.lt_def, stop]
        exact Nat.not_lt
  · show _ ↔ ∀ previous, (Ranges.before key config.base.toNat m.regions).getLast? =
      some previous → finish previous ≤ config.base.toNat
    cases last : (Ranges.before key config.base.toNat m.regions).getLast? with
    | none => simp
    | some previous =>
        have inside := (Ranges.mem_before (List.mem_of_getLast? last)).1
        simp only [Option.any_some, decide_eq_true_eq, Option.some.injEq, forall_eq',
          BitVec.lt_def, toNat_stop (ok.bounded previous inside)]
        exact Nat.not_lt

theorem represents_insert (rep : Represents m f) (size : config.size ≠ 0)
    (bounded : config.last < 2 ^ 64)
    (fits : Ranges.Fits key finish { config := config, bytes := fun _ => none } m.regions) :
    Represents
      { regions := Ranges.insert key { config := config, bytes := fun _ => none } m.regions }
      { regions := config :: f.regions
        byte := fun x => if config.first ≤ x ∧ x < config.last then config.fill else f.byte x } := by
  have positive : 0 < config.size.toNat :=
    Nat.pos_of_ne_zero fun zero => size (BitVec.eq_of_toNat_eq zero)
  have proper : key { config := config, bytes := fun _ => none } <
      finish { config := config, bytes := fun _ => none } := by
    show config.base.toNat < config.base.toNat + config.size.toNat
    omega
  refine ⟨⟨rep.ok.apart.insert proper fits, fun region member => ?_, fun region member => ?_⟩,
    fun other => ?_, fun region member x small => ?_⟩
  · rcases Ranges.mem_insert.mp member with rfl | old
    · exact bounded
    · exact rep.ok.bounded region old
  · rcases Ranges.mem_insert.mp member with rfl | old
    · exact fun _ _ => (nomatch ·)
    · exact rep.ok.sparse region old
  · rw [List.mem_cons, rep.regions]
    simp only [Ranges.mem_insert]
    constructor
    · rintro (rfl | ⟨region, old, rfl⟩)
      · exact ⟨_, .inl rfl, rfl⟩
      · exact ⟨region, .inr old, rfl⟩
    · rintro ⟨region, rfl | old, rfl⟩
      · exact .inl rfl
      · exact .inr ⟨region, old, rfl⟩
  · rcases Ranges.mem_insert.mp member with rfl | old
    · refine Eq.symm (if_pos ⟨Nat.le_add_right _ _, ?_⟩)
      unfold MemoryRegionConfig.first MemoryRegionConfig.last
      exact Nat.add_lt_add_left small _
    · rw [rep.bytes region old x small]
      refine (if_neg fun both => ?_).symm
      -- the new region does not meet the old one
      have apart := (Ranges.fits_iff rep.ok.apart proper).mp fits region old
      refine apart (region.config.first + x) ⟨both, Nat.le_add_right _ _, ?_⟩
      exact Nat.add_lt_add_left small _

theorem addRegion_refines (rep : Represents m f) (config : MemoryRegionConfig) :
    (∃ error, m.addRegion config = .error error ∧ f.addRegion config = .error error) ∨
      ∃ m' f', m.addRegion config = .ok m' ∧ f.addRegion config = .ok f' ∧ Represents m' f' := by
  unfold SparseMemory.addRegion FlatMemory.addRegion
  split
  · exact .inl ⟨_, rfl, rfl⟩
  split
  · exact .inl ⟨_, rfl, rfl⟩
  rename_i size
  have range : maxAddress - config.size.toNat < config.base.toNat ↔ 2 ^ 64 ≤ config.last := by
    unfold MemoryRegionConfig.last maxAddress
    have := config.size.isLt
    omega
  rw [if_congr range rfl rfl]
  split
  · exact .inl ⟨_, rfl, rfl⟩
  rename_i bounded
  rw [Nat.not_le] at bounded
  have fitting := overlap_iff rep.ok bounded
  have positive : 0 < config.size.toNat :=
    Nat.pos_of_ne_zero fun zero => size (BitVec.eq_of_toNat_eq zero)
  have proper : key { config := config, bytes := fun _ => none } <
      finish { config := config, bytes := fun _ => none } := by
    show config.base.toNat < config.base.toNat + config.size.toNat
    omega
  have meets : Ranges.Fits key finish { config := config, bytes := fun _ => none } m.regions ↔
      ¬ (f.regions.any fun other => config.Meets other) = true := by
    rw [Ranges.fits_iff rep.ok.apart proper, List.any_eq_true]
    constructor
    · rintro apart ⟨other, member, met⟩
      obtain ⟨region, inside, rfl⟩ := (rep.regions other).mp member
      exact (disjoint_iff proper (rep.ok.apart.proper region inside)).mp (apart region inside)
        (of_decide_eq_true met)
    · intro none region inside
      refine (disjoint_iff proper (rep.ok.apart.proper region inside)).mpr fun met => none ?_
      exact ⟨region.config, (rep.regions _).mpr ⟨region, inside, rfl⟩, decide_eq_true met⟩
  by_cases fits : Ranges.Fits key finish { config := config, bytes := fun _ => none } m.regions
  · obtain ⟨after, earlier⟩ := fitting.mpr fits
    simp only [if_neg after, if_neg earlier, if_neg (meets.mp fits)]
    exact .inr ⟨_, _, rfl, rfl, represents_insert rep size bounded fits⟩
  · have met := not_not.mp (fits ∘ meets.mpr)
    simp only [if_pos met]
    refine .inl ⟨.overlap, ?_, rfl⟩
    split
    · rfl
    · rename_i after
      split
      · rfl
      · rename_i earlier
        exact absurd (fitting.mp ⟨after, earlier⟩) fits

end Adding

/-! ### Calls -/

section Calls

variable {m : SparseMemory} {f : FlatMemory}

/-- Two calls that throw together, or return related results. -/
theorem settle_refines {ρ ρ' : Type} (rep : Represents m f) {result : Except MemoryError ρ}
    {result' : Except MemoryError ρ'} {memory : ρ → SparseMemory} {memory' : ρ' → FlatMemory}
    {reply : ρ → MemoryReply} {reply' : ρ' → MemoryReply} {counts : Prop}
    (both : (∃ error, result = .error error ∧ result' = .error error) ∨
      ∃ x y, result = .ok x ∧ result' = .ok y ∧ Represents (memory x) (memory' y) ∧
        (counts → reply x = reply' y)) :
    Represents (m.settle memory reply result).1 (f.settle memory' reply' result').1 ∧
      (counts →
        (m.settle memory reply result).2 = (f.settle memory' reply' result').2) := by
  rcases both with ⟨error, rfl, rfl⟩ | ⟨x, y, rfl, rfl, related, same⟩
  · exact ⟨rep, fun _ => rfl⟩
  · exact ⟨related, fun here => congrArg Except.ok (same here)⟩

theorem normalizeAddress_cases (address : Int) :
    (∃ error, normalizeAddress address = .error error) ∨
      ∃ normalized, normalizeAddress address = .ok normalized := by
  unfold normalizeAddress
  split
  · exact .inl ⟨_, rfl⟩
  · exact .inr ⟨_, rfl⟩

/-- Reading or writing a range through `require_region`. -/
theorem within_refines {ρ ρ' : Type} (rep : Represents m f) (address : Address) (size : Nat)
    (get : Region → ρ) (put : ρ') (memory : ρ → SparseMemory) (memory' : ρ' → FlatMemory)
    (reply : ρ → MemoryReply) (reply' : ρ' → MemoryReply)
    (nothing : size = 0 → Represents m (memory' put) ∧
      ∀ region, m.findRegion address size = some region → Represents (memory (get region)) f ∧
        Represents (memory (get region)) (memory' put))
    (related : ∀ region, m.findRegion address size = some region →
      Represents (memory (get region)) (memory' put) ∧ reply (get region) = reply' put) :
    Represents (m.settle memory reply ((m.requireRegion address size).map get)).1
        (f.settle memory' reply' (f.within address.toNat size put)).1 ∧
      (1 ≤ size →
        (m.settle memory reply ((m.requireRegion address size).map get)).2 =
          (f.settle memory' reply' (f.within address.toNat size put)).2) := by
  rcases Nat.eq_zero_or_pos size with none | positive
  · refine ⟨?_, fun impossible => absurd impossible (by omega)⟩
    obtain ⟨kept, found⟩ := nothing none
    unfold requireRegion FlatMemory.within
    cases lookup : m.findRegion address size with
    | none =>
        cases (f.region address.toNat size).isSome with
        | true => exact kept
        | false => exact rep
    | some region =>
        cases (f.region address.toNat size).isSome with
        | true => exact (found region lookup).2
        | false => exact (found region lookup).1
  · refine settle_refines rep ?_
    have here := isSome_region rep address positive
    unfold requireRegion FlatMemory.within
    rw [here]
    cases lookup : m.findRegion address size with
    | none => exact .inl ⟨_, rfl, rfl⟩
    | some region =>
        exact .inr ⟨_, _, rfl, rfl, (related region lookup).1, fun _ => (related region lookup).2⟩

/-- The two memories make the same call. -/
theorem perform_refines (rep : Represents m f) (call : MemoryCall) :
    Represents (m.perform call).1 (f.perform call).1 ∧
      (call.accessed ≠ some 0 → (m.perform call).2 = (f.perform call).2) := by
  have positive {size : Nat} (accessed : some size ≠ some 0) : 1 ≤ size :=
    Nat.one_le_iff_ne_zero.mpr fun zero => accessed (by rw [zero])
  cases call with
  | addRegion config =>
      refine settle_refines rep ?_
      rcases addRegion_refines rep config with failed | ⟨m', f', added, added', related⟩
      · exact .inl failed
      · exact .inr ⟨m', f', added, added', related, fun _ => rfl⟩
  | readBytes address size =>
      refine ⟨rep, fun accessed => ?_⟩
      show Except.ok (MemoryReply.bytes (m.readBytes address size)) = _
      unfold readBytes
      rw [readInto_refines rep (positive accessed)]
      rfl
  | writeBytes address data byteEnable =>
      obtain ⟨related, same⟩ := write_refines rep address data byteEnable
      by_cases mismatch : byteEnable ≠ [] ∧ byteEnable.length ≠ data.length
      · have thrown : m.writeBytes address data byteEnable = .error .byteEnableCount :=
          if_pos mismatch
        have thrown' : f.perform (.writeBytes address data byteEnable) =
            (f, .error .byteEnableCount) := if_pos mismatch
        unfold SparseMemory.perform
        simp only [thrown, thrown']
        exact ⟨rep, fun _ => rfl⟩
      · have written : m.writeBytes address data byteEnable =
            .ok (m.write address data byteEnable) := if_neg mismatch
        have written' : f.perform (.writeBytes address data byteEnable) =
            ((f.write address.toNat data byteEnable).1,
              .ok (.written (f.write address.toNat data byteEnable).2)) := if_neg mismatch
        unfold SparseMemory.perform
        simp only [written, written']
        refine ⟨related, fun accessed => ?_⟩
        show Except.ok (MemoryReply.written _) = Except.ok (MemoryReply.written _)
        rw [same (positive accessed)]
  | readWord n address =>
      refine settle_refines rep ?_
      unfold readWord
      rcases normalizeAddress_cases address with ⟨error, failed⟩ | ⟨normalized, found⟩
      · rw [failed]
        exact .inl ⟨error, rfl, rfl⟩
      · rw [found]
        refine .inr ⟨_, _, rfl, rfl, rep, fun accessed => ?_⟩
        simp only [readInto_refines rep (positive accessed),
          byteOrder_eq rep (positive accessed)]
  | writeWord n address value byteEnable =>
      refine settle_refines rep ?_
      unfold writeWord
      rcases normalizeAddress_cases address with ⟨error, failed⟩ | ⟨normalized, found⟩
      · rw [failed]
        exact .inl ⟨error, rfl, rfl⟩
      · rw [found]
        have length : ∀ order, (bytesOfWord order n value).length = n := fun order => by
          unfold bytesOfWord
          rw [List.length_map, List.length_range]
        rcases Nat.eq_zero_or_pos n with none | some_byte
        · subst none
          obtain ⟨related, -⟩ := write_refines rep normalized
            (bytesOfWord (m.byteOrder normalized 0) 0 value) (enablesOfWord 0 byteEnable)
          refine .inr ⟨_, _, rfl, rfl, ?_, fun accessed => absurd rfl accessed⟩
          exact related
        · obtain ⟨related, same⟩ := write_refines rep normalized
            (bytesOfWord (m.byteOrder normalized n) n value) (enablesOfWord n byteEnable)
          rw [length] at same
          refine .inr ⟨_, _, rfl, rfl, ?_, fun _ => ?_⟩
          · simp only [← byteOrder_eq rep some_byte]
            exact related
          · simp only [← byteOrder_eq rep some_byte, same some_byte]
  | load address data =>
      have store : ∀ region, m.findRegion address data.length = some region →
          Represents (m.setRegion (region.storeFrom address [] 0 data))
            (f.put address.toNat data fun _ => true) :=
        fun region found => represents_found rep data [] found
      obtain ⟨related, same⟩ := within_refines rep address data.length
        (fun region => m.setRegion (region.storeFrom address [] 0 data))
        (f.put address.toNat data fun _ => true) id id (fun _ => .done) (fun _ => .done)
        (fun none => by
          have empty := List.eq_nil_of_length_eq_zero none
          subst empty
          rw [put_nil]
          refine ⟨rep, fun region found => ?_⟩
          have same := setRegion_self rep.ok (contains_of_findRegion rep.ok found).1
          rw [show region.storeFrom address [] 0 [] = region from rfl, same]
          exact ⟨rep, rep⟩)
        (fun region found => ⟨store region found, rfl⟩)
      exact ⟨related, fun accessed => same (positive accessed)⟩
  | fill address size value =>
      have length : (List.replicate size value).length = size := List.length_replicate
      have store : ∀ region, m.findRegion address size = some region →
          Represents (m.setRegion (region.storeFrom address [] 0 (List.replicate size value)))
            (f.put address.toNat (List.replicate size value) fun _ => true) :=
        fun region found => represents_found rep _ [] (length.symm ▸ found)
      obtain ⟨related, same⟩ := within_refines rep address size
        (fun region => m.setRegion (region.storeFrom address [] 0 (List.replicate size value)))
        (f.put address.toNat (List.replicate size value) fun _ => true) id id (fun _ => .done)
        (fun _ => .done)
        (fun none => by
          subst none
          rw [show List.replicate 0 value = [] from rfl, put_nil]
          refine ⟨rep, fun region found => ?_⟩
          have same := setRegion_self rep.ok (contains_of_findRegion rep.ok found).1
          rw [show region.storeFrom address [] 0 [] = region from rfl, same]
          exact ⟨rep, rep⟩)
        (fun region found => ⟨store region found, rfl⟩)
      exact ⟨related, fun accessed => same (positive accessed)⟩
  | inspect address size =>
      obtain ⟨related, same⟩ := within_refines rep address size
        (fun region => region.loadAll address size) (f.get address.toNat size) (fun _ => m)
        (fun _ => f) .inspected .inspected (fun _ => ⟨rep, fun _ _ => ⟨rep, rep⟩⟩)
        (fun region found => ⟨rep, by
          obtain ⟨member, contains, -⟩ := contains_of_findRegion rep.ok found
          rw [loadAll_eq rep member contains]⟩)
      exact ⟨related, fun accessed => same (positive accessed)⟩

end Calls

end Cpptb.Memory
