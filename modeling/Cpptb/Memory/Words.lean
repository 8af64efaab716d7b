/-
What the sparse memory promises.

* `wordOfBytes_bytesOfWord` — a word is the word of its bytes, for both byte orders;
* `Faithful` — the promises, for a memory and the flat memory it refines;
* `sparse_memory_refines` — they hold after every sequence of calls.
-/

import Cpptb.Memory.Refinement

namespace Cpptb.Memory

open SparseMemory

/-! ### Words -/

/-- A bit of a word that is assembled by disjunctions. -/
theorem getLsbD_foldl_or {w : Nat} (part : Nat → BitVec w) (indices : List Nat) (value : BitVec w)
    (k : Nat) :
    (indices.foldl (fun value index => value ||| part index) value).getLsbD k =
      (value.getLsbD k || indices.any fun index => (part index).getLsbD k) := by
  induction indices generalizing value with
  | nil => simp
  | cons index rest ih =>
      rw [List.foldl_cons, ih, BitVec.getLsbD_or, List.any_cons, Bool.or_assoc]

/-- The value lane of a lane is a lane, and its value lane is the lane. -/
theorem shiftIndex_spec (order : MemoryByteOrder) {n index : Nat} (inside : index < n) :
    shiftIndex order n index < n ∧ shiftIndex order n (shiftIndex order n index) = index := by
  cases order with
  | littleEndian => exact ⟨inside, rfl⟩
  | bigEndian =>
      unfold shiftIndex
      simp only
      omega

/-- A bit of the word of a list of bytes. -/
theorem getLsbD_wordOfBytes (order : MemoryByteOrder) (n : Nat) (bytes : List Byte) {k : Nat}
    (small : k < 8 * n) :
    (wordOfBytes order n bytes).getLsbD k =
      (bytes.getD (shiftIndex order n (k / 8)) 0).getLsbD (k % 8) := by
  have lane : k / 8 < n := by omega
  obtain ⟨inside, back⟩ := shiftIndex_spec order lane
  have zero : (0 : BitVec (8 * n)).getLsbD k = false := BitVec.getLsbD_zero
  unfold wordOfBytes
  rw [getLsbD_foldl_or, zero, Bool.false_or, Bool.eq_iff_iff, List.any_eq_true]
  have bit : ∀ index, (((bytes.getD index 0).setWidth (8 * n)) <<<
      (shiftIndex order n index * 8)).getLsbD k = true ↔
      shiftIndex order n index * 8 ≤ k ∧
        (bytes.getD index 0).getLsbD (k - shiftIndex order n index * 8) = true := by
    intro index
    rw [BitVec.getLsbD_shiftLeft, BitVec.getLsbD_setWidth]
    simp only [small, decide_true, Bool.true_and, Bool.and_eq_true, Bool.not_eq_true',
      decide_eq_false_iff_not, Nat.not_lt, decide_eq_true_eq]
    constructor
    · rintro ⟨low, -, here⟩
      exact ⟨low, here⟩
    · rintro ⟨low, here⟩
      exact ⟨low, by omega, here⟩
  constructor
  · rintro ⟨index, member, here⟩
    obtain ⟨low, here⟩ := (bit index).mp here
    have high := BitVec.lt_of_getLsbD here
    have same : shiftIndex order n index = k / 8 := by omega
    have known : index = shiftIndex order n (k / 8) := by
      rw [← same]
      exact (shiftIndex_spec order (List.mem_range.mp member)).2.symm
    rw [← known, show k % 8 = k - shiftIndex order n index * 8 by omega]
    exact here
  · intro here
    refine ⟨shiftIndex order n (k / 8), List.mem_range.mpr inside, (bit _).mpr ⟨?_, ?_⟩⟩
    · rw [back]
      omega
    · rw [back, show k - k / 8 * 8 = k % 8 by omega]
      exact here

theorem getD_bytesOfWord (order : MemoryByteOrder) {n : Nat} (value : BitVec (8 * n))
    {index : Nat} (inside : index < n) :
    (bytesOfWord order n value).getD index 0 =
      (value >>> (shiftIndex order n index * 8)).setWidth 8 := by
  unfold bytesOfWord
  rw [List.getD_eq_getElem?_getD, List.getElem?_map, List.getElem?_range inside]
  rfl

/-- A word is the word of its bytes. -/
theorem wordOfBytes_bytesOfWord (order : MemoryByteOrder) (n : Nat) (value : BitVec (8 * n)) :
    wordOfBytes order n (bytesOfWord order n value) = value := by
  refine BitVec.eq_of_getLsbD_eq fun k small => ?_
  obtain ⟨inside, back⟩ := shiftIndex_spec (n := n) order (show k / 8 < n by omega)
  rw [getLsbD_wordOfBytes order n _ small, getD_bytesOfWord order value inside, back,
    BitVec.getLsbD_setWidth, BitVec.getLsbD_ushiftRight, show k / 8 * 8 + k % 8 = k by omega]
  have lane : k % 8 < 8 := Nat.mod_lt _ (by decide)
  simp only [lane, decide_true, Bool.true_and]

/-- The lanes a mask enables. -/
theorem lanes_enablesOfWord (n byteEnable : Nat) {index : Nat} (inside : index < n) :
    FlatMemory.lanes (enablesOfWord n byteEnable) index = byteEnable.testBit index := by
  have some_lane : (enablesOfWord n byteEnable).isEmpty = false := by
    unfold enablesOfWord
    rw [List.isEmpty_eq_false_iff, Ne, List.map_eq_nil_iff, List.range_eq_nil]
    omega
  have lane : (enablesOfWord n byteEnable).getD index 0 =
      BitVec.ofNat 8 ((byteEnable >>> index) &&& 1) := by
    unfold enablesOfWord
    rw [List.getD_eq_getElem?_getD, List.getElem?_map, List.getElem?_range inside]
    rfl
  unfold FlatMemory.lanes
  rw [some_lane, lane, Bool.false_or, Nat.and_one_is_mod, Nat.testBit, Nat.and_comm,
    Nat.and_one_is_mod]
  rcases Nat.mod_two_eq_zero_or_one (byteEnable >>> index) with even | odd
  · rw [even]
    rfl
  · rw [odd]
    rfl

theorem testBit_allBytes {n index : Nat} (few : n ≤ 64) (inside : index < n) :
    (allBytes n).testBit index = true := by
  unfold allBytes
  split
  · rw [Nat.testBit_two_pow_sub_one]
    exact decide_eq_true (by omega)
  · rw [Nat.testBit_two_pow_sub_one]
    exact decide_eq_true inside

/-! ### The promises -/

/-- The call has thrown, or returned a status other than `Okay`. -/
def failed : Except MemoryError MemoryReply → Bool
  | .error _ => true
  | .ok (.bytes result) => result.status != .okay
  | .ok (.written response) => response.status != .okay
  | .ok (.word _ response) => response.status != .okay
  | .ok .done | .ok (.inspected _) => false

/-- What the memory promises, where `f` is the flat memory it refines. -/
structure Faithful (m : SparseMemory) (f : FlatMemory) : Prop where
  /-- The accepted regions are disjoint, and are those of the flat memory. -/
  disjoint : m.regions.Pairwise fun left right => ¬ left.config.Meets right.config
  regions : ∀ config, config ∈ f.regions ↔ ∃ region ∈ m.regions, region.config = config
  /-- An access of at least one byte is answered as by the flat memory. -/
  replies : ∀ call, call.accessed ≠ some 0 → (m.perform call).2 = (f.perform call).2
  /-- It succeeds exactly when its range lies in one region with the permission. -/
  okay : ∀ needed address size, f.status needed address size = .okay ↔
    ∃ config, f.region address size = some config ∧ needed config.permission = true
  slaveError : ∀ needed address size, f.status needed address size = .slaveError ↔
    ∃ config, f.region address size = some config ∧ needed config.permission = false
  decodeError : ∀ needed address size, f.status needed address size = .decodeError ↔
    ∀ config ∈ f.regions, ¬ config.Contains address size
  contained : ∀ address size config, 1 ≤ size →
    (f.region address size = some config ↔ config ∈ f.regions ∧ config.Contains address size)
  /-- A call that fails changes nothing. -/
  unchanged : ∀ call, failed (m.perform call).2 = true → (m.perform call).1 = m
  /-- No stored byte is the fill value of its region. -/
  sparse : ∀ region ∈ m.regions, region.Sparse
  /-- A word that was written in every lane is read back. -/
  words : ∀ n address value byteEnable m', 1 ≤ n →
    m.writeWord n address value byteEnable = .ok (m', {}) →
    (∀ index < n, byteEnable.testBit index = true) →
    ∀ response, m'.readWord n address = .ok response → response.status = .okay →
      response.data = value
  allLanes : ∀ n ≤ 64, ∀ index < n, (allBytes n).testBit index = true
  /-- An enabled lane holds its byte of the word, and a disabled one what it held before. -/
  lanes : ∀ n address value byteEnable m', 1 ≤ n →
    m.writeWord n address value byteEnable = .ok (m', {}) →
    ∃ normalized old new, normalizeAddress address = .ok normalized ∧
      m.inspect normalized n = .ok old ∧ m'.inspect normalized n = .ok new ∧
      ∀ index < n, new.getD index 0 =
        if byteEnable.testBit index then
          (bytesOfWord (m.byteOrder normalized n) n value).getD index 0
        else old.getD index 0
  /-- The end of a region, the end of an access and the offset of a byte do not wrap. -/
  ends : ∀ region ∈ m.regions,
    region.stop.toNat = region.config.base.toNat + region.config.size.toNat
  additions : ∀ config : MemoryRegionConfig, ¬ maxAddress - config.size.toNat < config.base.toNat →
    (config.base + config.size).toNat = config.base.toNat + config.size.toNat
  accesses : ∀ (address : Address) size, ¬ maxAddress - address.toNat < size →
    (address + BitVec.ofNat 64 size).toNat = address.toNat + size
  offsets : ∀ (address : Address) size region, m.findRegion address size = some region →
    ∀ index < size, (region.offset address index).toNat + region.config.base.toNat =
      address.toNat + index

/-! ### Failures -/

/-- A write that fails changes nothing. -/
theorem write_unchanged (m : SparseMemory) (address : Address) (data byteEnable : List Byte)
    (status : (m.write address data byteEnable).2.status ≠ .okay) :
    (m.write address data byteEnable).1 = m := by
  unfold SparseMemory.write at status ⊢
  cases found : m.findRegion address data.length with
  | none => rfl
  | some region =>
      rw [found] at status
      rcases Bool.eq_false_or_eq_true region.config.permission.writable with on | off
      · simp only [on, if_true] at status
        exact absurd rfl status
      · simp only [off, Bool.false_eq_true, if_false]

theorem perform_unchanged (m : SparseMemory) (call : MemoryCall)
    (fails : failed (m.perform call).2 = true) : (m.perform call).1 = m := by
  have written {result : Except MemoryError (SparseMemory × MemoryWriteResponse)}
      (fails : failed (m.settle Prod.fst (fun after => .written after.2) result).2 = true)
      (kept : ∀ after, result = .ok after → after.2.status ≠ .okay → after.1 = m) :
      (m.settle Prod.fst (fun after => MemoryReply.written after.2) result).1 = m := by
    cases result with
    | error _ => rfl
    | ok after => exact kept after rfl (bne_iff_ne.mp fails)
  have thrown {result : Except MemoryError SparseMemory}
      (fails : failed (m.settle id (fun _ => .done) result).2 = true) :
      (m.settle id (fun _ => .done) result).1 = m := by
    cases result with
    | error _ => rfl
    | ok _ => cases fails
  have read {ρ : Type} (reply : ρ → MemoryReply) (result : Except MemoryError ρ) :
      (m.settle (fun _ => m) reply result).1 = m := by
    cases result <;> rfl
  cases call with
  | addRegion config => exact thrown fails
  | readBytes address size => rfl
  | writeBytes address data byteEnable =>
      refine written fails fun after here status => ?_
      unfold writeBytes at here
      split at here
      · cases here
      · cases here
        exact write_unchanged m address data byteEnable status
  | readWord n address => exact read _ _
  | writeWord n address value byteEnable =>
      refine written fails fun after here status => ?_
      unfold writeWord at here
      rcases normalizeAddress_cases address with ⟨error, bad⟩ | ⟨normalized, good⟩
      · rw [bad] at here
        cases here
      · rw [good] at here
        cases here
        exact write_unchanged m normalized _ _ status
  | load address data => exact thrown fails
  | fill address size value => exact thrown fails
  | inspect address size => exact read _ _

/-! ### The status of an access -/

section Status

variable (f : FlatMemory) (needed : MemoryPermission → Bool) (address size : Nat)

theorem status_okay : f.status needed address size = .okay ↔
    ∃ config, f.region address size = some config ∧ needed config.permission = true := by
  unfold FlatMemory.status
  cases f.region address size with
  | none => simp
  | some config => cases allowed : needed config.permission <;> simp [allowed]

theorem status_slaveError : f.status needed address size = .slaveError ↔
    ∃ config, f.region address size = some config ∧ needed config.permission = false := by
  unfold FlatMemory.status
  cases f.region address size with
  | none => simp
  | some config => cases allowed : needed config.permission <;> simp [allowed]

theorem status_decodeError : f.status needed address size = .decodeError ↔
    ∀ config ∈ f.regions, ¬ config.Contains address size := by
  have none : f.region address size = none ↔
      ∀ config ∈ f.regions, ¬ config.Contains address size := by
    unfold FlatMemory.region
    simp only [List.find?_eq_none, decide_eq_true_eq]
  rw [← none]
  unfold FlatMemory.status
  cases f.region address size with
  | none => simp
  | some config => cases allowed : needed config.permission <;> simp [allowed]

end Status

/-! ### Words in memory -/

section Memory

variable {m m' : SparseMemory} {f : FlatMemory}

/-- A word that was written, in the flat memory. -/
theorem writeWord_okay (rep : Represents m f) {n : Nat} {address : Int} {value : BitVec (8 * n)}
    {byteEnable : Nat} (written : m.writeWord n address value byteEnable = .ok (m', {})) :
    ∃ normalized region, normalizeAddress address = .ok normalized ∧
      m.findRegion normalized n = some region ∧
      Represents m' (f.put normalized.toNat (bytesOfWord (m.byteOrder normalized n) n value)
        (FlatMemory.lanes (enablesOfWord n byteEnable))) := by
  unfold writeWord at written
  rcases normalizeAddress_cases address with ⟨error, bad⟩ | ⟨normalized, good⟩
  · rw [bad] at written
    cases written
  · rw [good] at written
    have result := Except.ok.inj written
    have length : (bytesOfWord (m.byteOrder normalized n) n value).length = n := by
      unfold bytesOfWord
      rw [List.length_map, List.length_range]
    unfold SparseMemory.write at result
    simp only [length] at result
    cases found : m.findRegion normalized n with
    | none =>
        rw [found] at result
        have status : MemoryStatus.decodeError = .okay :=
          congrArg (fun after : SparseMemory × MemoryWriteResponse => after.2.status) result
        cases status
    | some region =>
        rw [found] at result
        refine ⟨normalized, region, good, found, ?_⟩
        rcases Bool.eq_false_or_eq_true region.config.permission.writable with on | off
        · simp only [on, if_true] at result
          have stored := congrArg Prod.fst result
          simp only at stored
          rw [← stored]
          exact represents_found rep _ _ (length.symm ▸ found)
        · simp only [off, Bool.false_eq_true, if_false] at result
          have status : MemoryStatus.slaveError = .okay :=
            congrArg (fun after : SparseMemory × MemoryWriteResponse => after.2.status) result
          cases status

theorem getD_get (f : FlatMemory) (address : Nat) {size index : Nat} (inside : index < size) :
    (f.get address size).getD index 0 = f.byte (address + index) := by
  unfold FlatMemory.get
  rw [List.getD_eq_getElem?_getD, List.getElem?_map, List.getElem?_range inside]
  rfl

/-- A byte of the range of a write. -/
theorem byte_put (f : FlatMemory) (address : Nat) (data : List Byte) (enabled : Nat → Bool)
    {index : Nat} (inside : index < data.length) :
    (f.put address data enabled).byte (address + index) =
      if enabled index then data.getD index 0 else f.byte (address + index) := by
  unfold FlatMemory.put
  simp only [Nat.add_sub_cancel_left]
  refine if_congr ⟨fun here => here.2.2, fun on => ⟨by omega, by omega, on⟩⟩ rfl rfl

theorem inspect_eq (rep : Represents m f) {address : Address} {size : Nat} {region : Region}
    (found : m.findRegion address size = some region) :
    m.inspect address size = .ok (f.get address.toNat size) := by
  obtain ⟨member, contains, -⟩ := contains_of_findRegion rep.ok found
  unfold inspect requireRegion
  rw [found]
  exact congrArg Except.ok (loadAll_eq rep member contains)

/-- A range that is found stays found when its region has been written. -/
theorem findRegion_of_represents (rep : Represents m f) (rep' : Represents m' f')
    (same : f'.regions = f.regions) (address : Address) {size : Nat} (some_byte : 1 ≤ size) :
    (m'.findRegion address size).map Region.config =
      (m.findRegion address size).map Region.config := by
  rw [← region_eq rep some_byte, ← region_eq rep' some_byte]
  unfold FlatMemory.region
  rw [same]

theorem lanes_of_represents (rep : Represents m f) {n : Nat} {address : Int}
    {value : BitVec (8 * n)} {byteEnable : Nat} (some_byte : 1 ≤ n)
    (written : m.writeWord n address value byteEnable = .ok (m', {})) :
    ∃ normalized old new, normalizeAddress address = .ok normalized ∧
      m.inspect normalized n = .ok old ∧ m'.inspect normalized n = .ok new ∧
      (∀ index < n, new.getD index 0 =
        if byteEnable.testBit index then
          (bytesOfWord (m.byteOrder normalized n) n value).getD index 0
        else old.getD index 0) ∧
      new.length = n ∧ m'.byteOrder normalized n = m.byteOrder normalized n ∧
      ∀ response, m'.readWord n address = .ok response → response.status = .okay →
        response.data = wordOfBytes (m.byteOrder normalized n) n new := by
  obtain ⟨normalized, region, good, found, rep'⟩ := writeWord_okay rep written
  have length : (bytesOfWord (m.byteOrder normalized n) n value).length = n := by
    unfold bytesOfWord
    rw [List.length_map, List.length_range]
  have kept := findRegion_of_represents rep rep' rfl normalized some_byte
  rw [found] at kept
  obtain ⟨region', found', same⟩ := Option.map_eq_some_iff.mp kept
  have order : m'.byteOrder normalized n = m.byteOrder normalized n := by
    unfold byteOrder
    rw [found, found']
    show region'.config.byteOrder = region.config.byteOrder
    rw [same]
  refine ⟨normalized, _, _, good, inspect_eq rep found, inspect_eq rep' found',
    fun index inside => ?_, ?_, order, fun response read okay => ?_⟩
  · rw [getD_get _ _ inside, getD_get _ _ inside, byte_put f _ _ _ (length.symm ▸ inside),
      lanes_enablesOfWord n byteEnable inside]
  · unfold FlatMemory.get
    rw [List.length_map, List.length_range]
  · unfold readWord at read
    rw [good] at read
    obtain rfl := Except.ok.inj read
    simp only [readInto_refines rep' some_byte] at okay ⊢
    rw [order]
    unfold FlatMemory.read at okay ⊢
    simp only at okay ⊢
    rw [if_pos okay]

end Memory

/-! ### Runs -/

namespace FlatMemory

/-- Make calls in order. -/
def performAll (f : FlatMemory) (calls : List MemoryCall) : FlatMemory :=
  calls.foldl (fun f call => (f.perform call).1) f

end FlatMemory

theorem represents_empty : Represents {} {} :=
  ⟨⟨.nil, fun _ => (nomatch ·), fun _ => (nomatch ·)⟩,
    fun _ => ⟨(nomatch ·), fun ⟨_, member, _⟩ => nomatch member⟩, fun _ => (nomatch ·)⟩

theorem performAll_represents {m : SparseMemory} {f : FlatMemory} (rep : Represents m f)
    (calls : List MemoryCall) : Represents (m.performAll calls) (f.performAll calls) := by
  induction calls generalizing m f with
  | nil => exact rep
  | cons call rest ih => exact ih (perform_refines rep call).1

theorem faithful_of_represents {m : SparseMemory} {f : FlatMemory} (rep : Represents m f) :
    Faithful m f where
  disjoint := by
    refine rep.ok.apart.ordered.imp_of_mem fun {left right} member member' ordered => ?_
    rintro ⟨-, overlap⟩
    exact absurd (lt_of_le_of_lt ordered overlap) (lt_irrefl _)
  regions := rep.regions
  replies call := (perform_refines rep call).2
  okay := status_okay f
  slaveError := status_slaveError f
  decodeError := status_decodeError f
  contained address size config some_byte := by
    have parts : f.region address size = some config →
        config ∈ f.regions ∧ config.Contains address size := by
      intro found
      unfold FlatMemory.region at found
      exact ⟨List.mem_of_find?_eq_some found, by simpa using List.find?_some found⟩
    refine ⟨parts, fun ⟨member, contains⟩ => ?_⟩
    have some : (f.region address size).isSome :=
      List.find?_isSome.mpr ⟨config, member, by simpa using contains⟩
    obtain ⟨other, found⟩ := Option.isSome_iff_exists.mp some
    unfold FlatMemory.region at found ⊢
    have member' := List.mem_of_find?_eq_some found
    have contains' : other.Contains address size := by simpa using List.find?_some found
    obtain ⟨region, inside, rfl⟩ := (rep.regions config).mp member
    obtain ⟨region', inside', rfl⟩ := (rep.regions other).mp member'
    have point : ∀ region : Region, region.config.Contains address size →
        key region ≤ address ∧ address < finish region := fun region here =>
      ⟨here.1, by have := here.2; unfold finish; omega⟩
    rw [found, rep.ok.apart.unique inside inside' (point region contains) (point region' contains')]
  unchanged := perform_unchanged m
  sparse := rep.ok.sparse
  words n address value byteEnable m' some_byte written enabled response read okay := by
    obtain ⟨normalized, old, new, -, -, -, bytes, length, -, word⟩ :=
      lanes_of_represents rep some_byte written
    have same : new = bytesOfWord (m.byteOrder normalized n) n value := by
      have length' : (bytesOfWord (m.byteOrder normalized n) n value).length = n := by
        unfold bytesOfWord
        rw [List.length_map, List.length_range]
      refine List.ext_getElem (length.trans length'.symm) fun index inside inside' => ?_
      have here := bytes index (length ▸ inside)
      rw [if_pos (enabled index (length ▸ inside))] at here
      rwa [List.getD_eq_getElem _ _ inside, List.getD_eq_getElem _ _ inside'] at here
    rw [word response read okay, same]
    exact wordOfBytes_bytesOfWord _ n value
  allLanes n few index inside := testBit_allBytes few inside
  lanes n address value byteEnable m' some_byte written := by
    obtain ⟨normalized, old, new, good, before, after, bytes, -⟩ :=
      lanes_of_represents rep some_byte written
    exact ⟨normalized, old, new, good, before, after, bytes⟩
  ends region member := toNat_stop (rep.ok.bounded region member)
  additions config fits := by
    have small := config.size.isLt
    unfold maxAddress at fits
    rw [BitVec.toNat_add]
    exact Nat.mod_eq_of_lt (by omega)
  accesses _ _ fits := (toNat_end fits).1
  offsets address size region found index inside := by
    obtain ⟨member, contains, -⟩ := contains_of_findRegion rep.ok found
    have low := contains.1
    unfold MemoryRegionConfig.first at low
    rw [(toNat_offset (rep.ok.bounded region member) contains inside).1]
    unfold MemoryRegionConfig.first
    omega

/-- After every sequence of calls the sparse memory is the flat byte map. -/
theorem sparse_memory_refines (calls : List MemoryCall) :
    Faithful (SparseMemory.performAll {} calls) (FlatMemory.performAll {} calls) :=
  faithful_of_represents (performAll_represents represents_empty calls)

end Cpptb.Memory
