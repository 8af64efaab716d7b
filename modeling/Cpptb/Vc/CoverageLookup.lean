/-
The two lookup paths of register access coverage.

* `foldl_sampleCounter`: sampling some counters adds to each the number of times it is sampled, if its
  descriptor allows the operation.
* `SelectsOwn`: the field actions at the 8-bit position and of the 8-bit number of a transfer count like
  the transfer's own.
* `table_matches_scan_iff`: construction ends, and the table and the scan give the same snapshots for all
  transactions, exactly when no register steps out of the address space and every transfer selects its own.
* `selectsOwn_of_few`: with at most 255 field actions every transfer does.
-/

import Cpptb.Vc.ActionTable

namespace Cpptb.Vc

/-! ### Counting -/

@[simp] theorem CountCells.add_zero (operation : MemoryOperation) (path : AccessPath) (cells : CountCells) :
    cells.add operation path 0 = cells := by
  cases operation <;> cases path <;> rfl

theorem CountCells.add_add (operation : MemoryOperation) (path : AccessPath) (first second : Nat)
    (cells : CountCells) :
    (cells.add operation path first).add operation path second = cells.add operation path (first + second) := by
  cases operation <;> cases path <;> simp [CountCells.add, Nat.add_assoc]

theorem CountCells.add_injective {operation : MemoryOperation} {path : AccessPath} {first second : Nat}
    {cells : CountCells} (same : cells.add operation path first = cells.add operation path second) :
    first = second := by
  cases operation <;> cases path <;> simpa [CountCells.add] using same

namespace RegisterAccessCoverage

variable {coverage next : RegisterAccessCoverage}

/-- Whether a counter exists and counts an operation. -/
def allows (coverage : RegisterAccessCoverage) (operation : MemoryOperation) (index : Nat) : Bool :=
  coverage.counters[index]?.any (operationAllowed · operation)

/-- The cells after some counters have been sampled. -/
def tallied (coverage : RegisterAccessCoverage) (operation : MemoryOperation) (path : AccessPath)
    (indices : List Nat) : List CountCells :=
  coverage.cells.mapIdx fun index cells =>
    cells.add operation path (if coverage.allows operation index then indices.count index else 0)

theorem sampleCounter_eq (operation : MemoryOperation) (path : AccessPath) (index : Nat) :
    coverage.sampleCounter operation path index =
      { coverage with cells := coverage.tallied operation path [index] } := by
  unfold sampleCounter
  cases found : coverage.counters[index]? with
  | none =>
      have same : coverage.tallied operation path [index] = coverage.cells := by
        refine List.ext_getElem? fun position => ?_
        rw [tallied, List.getElem?_mapIdx]
        cases coverage.cells[position]? with
        | none => rfl
        | some cells =>
            by_cases here : position = index
            · subst here
              simp [allows, found]
            · simp [Ne.symm here]
      rw [same]
  | some counter =>
      simp only
      congr 1
      refine List.ext_getElem? fun position => ?_
      rw [tallied, List.getElem?_mapIdx, List.getElem?_modify]
      by_cases here : index = position
      · subst here
        simp [allows, found]
      · cases coverage.cells[position]? with
        | none => rfl
        | some cells => simp [here]

/-- Sampling some counters adds up. -/
theorem foldl_sampleCounter (operation : MemoryOperation) (path : AccessPath) (indices : List Nat) :
    indices.foldl (sampleCounter operation path) coverage =
      { coverage with cells := coverage.tallied operation path indices } := by
  induction indices generalizing coverage with
  | nil =>
      have same : coverage.tallied operation path [] = coverage.cells := by
        refine List.ext_getElem? fun position => ?_
        rw [tallied, List.getElem?_mapIdx]
        cases coverage.cells[position]? <;> simp
      rw [List.foldl_nil, same]
  | cons index rest ih =>
      rw [List.foldl_cons, ih, sampleCounter_eq]
      congr 1
      refine List.ext_getElem? fun position => ?_
      simp only [tallied, allows, List.getElem?_mapIdx, Option.map_map]
      cases coverage.cells[position]? with
      | none => rfl
      | some cells =>
          simp only [Option.map_some, Function.comp, CountCells.add_add, List.count_cons, List.count_nil]
          by_cases allowed : coverage.counters[position]?.any (operationAllowed · operation) = true
          · simp [allowed, Nat.add_comm]
          · simp [allowed]

/-- The same counts are the same cells, and the other way round. -/
theorem tallied_eq_iff {operation : MemoryOperation} {path : AccessPath} {first second : List Nat} :
    coverage.tallied operation path first = coverage.tallied operation path second ↔
      ∀ index < coverage.cells.length, coverage.allows operation index = true →
        first.count index = second.count index := by
  constructor
  · intro same index inside allowed
    have cells := congrArg (·[index]?) same
    simp only [tallied, List.getElem?_mapIdx, List.getElem?_eq_getElem inside, Option.map_some,
      Option.some.injEq, allowed, if_true] at cells
    exact CountCells.add_injective cells
  · intro counts
    refine List.ext_getElem? fun position => ?_
    simp only [tallied, List.getElem?_mapIdx]
    by_cases inside : position < coverage.cells.length
    · by_cases allowed : coverage.allows operation position = true
      · rw [if_pos allowed, if_pos allowed, counts position inside allowed]
      · rw [if_neg allowed, if_neg allowed]
    · rw [List.getElem?_eq_none (by omega)]
      rfl

/-- The field actions whose counters count an operation. -/
def counted (coverage : RegisterAccessCoverage) (operation : MemoryOperation)
    (fields : List FieldAction) : List FieldAction :=
  fields.filter fun field => coverage.allows operation field.counter

theorem count_counted (operation : MemoryOperation) (fields : List FieldAction) (index : Nat) :
    ((coverage.counted operation fields).map (·.counter)).count index =
      if coverage.allows operation index then (fields.map (·.counter)).count index else 0 := by
  induction fields with
  | nil => simp [counted]
  | cons field rest ih =>
      unfold counted at ih ⊢
      rw [List.filter_cons, List.map_cons, List.count_cons]
      by_cases allowed : coverage.allows operation field.counter = true
      · rw [if_pos allowed, List.map_cons, List.count_cons, ih]
        by_cases here : field.counter = index
        · subst here
          simp [allowed]
        · simp [here]
      · rw [if_neg allowed, ih]
        by_cases here : field.counter = index
        · subst here
          simp [allowed]
        · simp [here]

/-- Field actions that count alike. -/
theorem tallied_eq_iff_perm (lengths : coverage.cells.length = coverage.counters.length)
    {operation : MemoryOperation} {path : AccessPath} {first second : List FieldAction} :
    coverage.tallied operation path (first.map (·.counter)) =
        coverage.tallied operation path (second.map (·.counter)) ↔
      ((coverage.counted operation first).map (·.counter)).Perm
        ((coverage.counted operation second).map (·.counter)) := by
  rw [tallied_eq_iff, List.perm_iff_count]
  simp only [count_counted]
  constructor
  · intro counts index
    by_cases allowed : coverage.allows operation index = true
    · rw [if_pos allowed, if_pos allowed]
      refine counts index ?_ allowed
      by_contra outside
      rw [allows, List.getElem?_eq_none (by omega)] at allowed
      cases allowed
    · rw [if_neg allowed, if_neg allowed]
  · intro counts index _ allowed
    have := counts index
    rwa [if_pos allowed, if_pos allowed] at this

end RegisterAccessCoverage

/-! ### Decoding an address -/

/-- `log2_exact` of a power of two. -/
theorem log2Exact_two_pow {exponent : Nat} (small : exponent < 64) : log2Exact (2 ^ exponent) = exponent := by
  have found : (List.range 64).find? (fun shift => decide (2 ^ exponent ≤ 2 ^ shift)) = some exponent := by
    rw [List.find?_range_eq_some]
    refine ⟨by simp, List.mem_range.mpr small, fun shift below => ?_⟩
    have := Nat.pow_lt_pow_right (by decide : 1 < 2) below
    simp only [Bool.not_eq_true', decide_eq_false_iff_not]
    omega
  rw [log2Exact, found, Option.getD_some]

/-- The mask and the shift that the entries use are the remainder and the quotient. -/
theorem pow2_division {bytes : Nat} (power : isPow2 bytes = true) (small : bytes < 2 ^ 64) (offset : Nat) :
    offset &&& (bytes - 1) = offset % bytes ∧
      offset >>> log2Exact (if bytes = 0 then 1 else bytes) = offset / bytes := by
  unfold isPow2 at power
  simp only [Bool.and_eq_true, bne_iff_ne, ne_eq, beq_iff_eq] at power
  obtain ⟨exponent, rfl⟩ := (Nat.and_sub_one_eq_zero_iff_isPowerOfTwo power.1).mp power.2
  have below : exponent < 64 := (Nat.pow_lt_pow_iff_right (by decide)).mp small
  rw [if_neg power.1, log2Exact_two_pow below, Nat.and_two_pow_sub_one_eq_mod, Nat.shiftRight_eq_div_pow]
  exact ⟨rfl, rfl⟩

/-- The transfer of a register at an offset. -/
theorem transferAt_eq {entry : RegisterEntry} (built : entry.Built) (offset : Nat) :
    RegisterAccessCoverage.transferAt entry offset =
      if entry.transferBytes = 0 ∨ offset % entry.transferBytes ≠ 0 then none
      else some (offset / entry.transferBytes) := by
  have width := entry.descriptor.accessWidth.toNat_lt
  have bytes := built.transferBytes
  unfold RegisterAccessCoverage.transferAt
  by_cases sized : entry.transferBytes = 0
  · rw [if_pos sized, if_pos (Or.inl sized)]
  · rw [if_neg sized]
    cases power : entry.transferPow2 with
    | true =>
        rw [built.transferPow2] at power
        obtain ⟨remainder, quotient⟩ := pow2_division power (by omega) offset
        have shifted : offset >>> entry.transferShift = offset / entry.transferBytes := by
          rw [built.transferShift]
          exact quotient
        simp only [if_true, remainder, shifted, sized, false_or]
    | false => simp only [Bool.false_eq_true, if_false, sized, false_or]

/-- The element of a memory at an offset. -/
theorem element_eq {entry : MemoryEntry} (built : entry.Built) (offset : Nat) :
    (if entry.elementPow2 then offset >>> entry.elementShift else offset / entry.elementBytes) =
      offset / entry.elementBytes := by
  have width := entry.descriptor.width.toNat_lt
  have bytes := built.elementBytes
  cases power : entry.elementPow2 with
  | true =>
      rw [built.elementPow2] at power
      rw [if_pos rfl, built.elementShift, (pow2_division power (by omega) offset).2]
  | false => rw [if_neg Bool.false_ne_true]

/-- The fields that the scan finds touched are those of the transfer's own field actions. -/
theorem touched_own (entry : RegisterEntry) (transfer : Nat) (operation : MemoryOperation)
    (byteEnable : UInt64) :
    (entry.fields.filter fun field =>
        fieldTouched field.descriptor (bitLsb entry.descriptor transfer) entry.descriptor.accessWidth
          operation byteEnable).map (·.counter) =
      ((ownFieldActions (entry, transfer)).filter (FieldAction.touched operation byteEnable)).map
        (·.counter) := by
  unfold ownFieldActions transferFieldActions
  induction entry.fields with
  | nil => rfl
  | cons field rest ih =>
      rw [List.filter_cons, List.filterMap_cons]
      unfold fieldTouched
      cases overlap : overlapMask field.descriptor (bitLsb entry.descriptor transfer)
          entry.descriptor.accessWidth with
      | none =>
          simp only [Option.map_none, Bool.false_eq_true, if_false]
          exact ih
      | some mask =>
          simp only [Option.map_some, List.filter_cons]
          cases operation with
          | read =>
              simp only [FieldAction.touched, if_true, List.map_cons]
              exact congrArg (field.counter :: ·) ih
          | write =>
              simp only [FieldAction.touched]
              by_cases hit : (byteEnable &&& mask != 0) = true
              · simp only [hit, if_true, List.map_cons]
                exact congrArg (field.counter :: ·) ih
              · simp only [hit]
                exact ih

/-- Some ones, shifted, are not zero. -/
theorem shifted_ones_ne_zero {span shift : UInt64} (one : 1 ≤ span) (small : span < 64) :
    ((1 <<< span) - 1) <<< shift ≠ (0 : UInt64) := by
  have lower : 1 ≤ span.toNat := UInt64.le_iff_toNat_le.mp one
  have upper : span.toNat < 64 := UInt64.lt_iff_toNat_lt.mp small
  have power : (1 <<< span : UInt64).toNat = 2 ^ span.toNat := by
    rw [UInt64.toNat_shiftLeft, Nat.mod_eq_of_lt upper, UInt64.toNat_one, Nat.one_shiftLeft]
    exact Nat.mod_eq_of_lt (Nat.pow_lt_pow_right (by decide) upper)
  have positive : 1 ≤ 2 ^ span.toNat := Nat.one_le_two_pow
  have ones : ((1 <<< span : UInt64) - 1).toNat = 2 ^ span.toNat - 1 := by
    rw [UInt64.toNat_sub_of_le _ _ (UInt64.le_iff_toNat_le.mpr (by rw [power]; exact positive)), power]
    rfl
  intro zero
  have value := congrArg UInt64.toNat zero
  rw [UInt64.toNat_shiftLeft, ones, UInt64.toNat_zero] at value
  have below : shift.toNat % 64 < 64 := Nat.mod_lt _ (by decide)
  have bit : ((2 ^ span.toNat - 1) <<< (shift.toNat % 64) % 2 ^ 64).testBit (shift.toNat % 64) = true := by
    rw [Nat.testBit_mod_two_pow, Nat.testBit_shiftLeft, Nat.sub_self, Nat.testBit_two_pow_sub_one]
    simp only [below, decide_true, Bool.true_and, ge_iff_le, le_refl, decide_eq_true_eq]
    omega
  rw [value, Nat.zero_testBit] at bit
  cases bit

/-- A mask has at least the bit of the first byte. -/
theorem overlapMask_ne_zero {field : RegisterFieldDescriptor} {transferLsb mask : UInt64}
    {transferWidth : UInt16} (overlap : overlapMask field transferLsb transferWidth = some mask) :
    mask ≠ 0 := by
  unfold overlapMask at overlap
  simp only at overlap
  split at overlap
  · cases overlap
  rename_i overlapping
  injection overlap with overlap
  subst overlap
  have lower : transferLsb ≤ max field.lsb.toUInt64 transferLsb := by
    change transferLsb ≤ ite (field.lsb.toUInt64 ≤ transferLsb) transferLsb field.lsb.toUInt64
    split
    · exact UInt64.le_refl _
    · rename_i above
      exact UInt64.le_of_lt (UInt64.not_le.mp above)
  generalize max field.lsb.toUInt64 transferLsb = first at *
  generalize min (field.lsb.toUInt64 + field.width.toUInt64) (transferLsb + transferWidth.toUInt64) = last at *
  have order : first < last := UInt64.not_le.mp overlapping
  have below : transferLsb.toNat ≤ first.toNat := UInt64.le_iff_toNat_le.mp lower
  have strict : first.toNat < last.toNat := UInt64.lt_iff_toNat_lt.mp order
  have bound := last.toNat_lt
  have start : (first - transferLsb).toNat = first.toNat - transferLsb.toNat :=
    UInt64.toNat_sub_of_le _ _ lower
  have previous : (last - 1).toNat = last.toNat - 1 :=
    UInt64.toNat_sub_of_le _ _ (UInt64.le_iff_toNat_le.mpr (by rw [UInt64.toNat_one]; omega))
  have finish : (last - 1 - transferLsb).toNat = last.toNat - 1 - transferLsb.toNat := by
    rw [UInt64.toNat_sub_of_le _ _ (UInt64.le_iff_toNat_le.mpr (by omega)), previous]
  have firstByte : ((first - transferLsb) / 8).toNat = (first.toNat - transferLsb.toNat) / 8 := by
    rw [UInt64.toNat_div, start]
    rfl
  have lastByte : ((last - 1 - transferLsb) / 8).toNat = (last.toNat - 1 - transferLsb.toNat) / 8 := by
    rw [UInt64.toNat_div, finish]
    rfl
  generalize (first - transferLsb) / 8 = lowest at *
  generalize (last - 1 - transferLsb) / 8 = highest at *
  have between : (highest - lowest).toNat = highest.toNat - lowest.toNat :=
    UInt64.toNat_sub_of_le _ _ (UInt64.le_iff_toNat_le.mpr (by omega))
  have span : (highest - lowest + 1).toNat = highest.toNat - lowest.toNat + 1 := by
    rw [UInt64.toNat_add, between, UInt64.toNat_one, Nat.mod_eq_of_lt (by omega)]
  split
  · decide
  · rename_i small
    exact shifted_ones_ne_zero (UInt64.le_iff_toNat_le.mpr (by rw [span, UInt64.toNat_one]; omega))
      (UInt64.not_le.mp small)

/-! ### The field actions a transfer selects -/

/-- Every field action has a mask. -/
theorem mask_ne_zero {transfer : RegisterEntry × Nat} {field : FieldAction}
    (member : field ∈ ownFieldActions transfer) : field.readTouched = true ∧ field.writeByteMask ≠ 0 := by
  obtain ⟨entry, -, made⟩ := List.mem_filterMap.mp member
  obtain ⟨mask, overlap, rfl⟩ := Option.map_eq_some_iff.mp made
  exact ⟨rfl, overlapMask_ne_zero overlap⟩

/-- The own field actions of a transfer have different counters. -/
theorem own_distinct {transfer : RegisterEntry × Nat} (built : transfer.1.Built) :
    ((ownFieldActions transfer).map (·.counter)).Nodup := by
  refine List.Nodup.sublist ?_ built.distinct
  unfold ownFieldActions transferFieldActions
  induction transfer.1.fields with
  | nil => exact List.Sublist.refl _
  | cons field rest ih =>
      rw [List.filterMap_cons, List.map_cons]
      cases overlapMask field.descriptor (bitLsb transfer.1.descriptor transfer.2)
          transfer.1.descriptor.accessWidth with
      | none => exact ih.cons _
      | some mask => exact ih.cons_cons _

/-- Two masks that every byte enable meets alike are equal. -/
theorem mask_ext {first second : UInt64}
    (alike : ∀ byteEnable : UInt64, byteEnable &&& first = 0 ↔ byteEnable &&& second = 0) :
    first = second := by
  have one := (alike (~~~second)).mpr (by rw [UInt64.and_comm]; exact UInt64.and_not_self)
  have two := (alike (~~~first)).mp (by rw [UInt64.and_comm]; exact UInt64.and_not_self)
  apply UInt64.toBitVec_inj.mp
  have oneBits := congrArg UInt64.toBitVec one
  have twoBits := congrArg UInt64.toBitVec two
  simp only [UInt64.toBitVec_and, UInt64.toBitVec_not, UInt64.toBitVec_zero] at oneBits twoBits
  refine BitVec.eq_of_getLsbD_eq fun index inside => ?_
  have oneBit := congrArg (BitVec.getLsbD · index) oneBits
  have twoBit := congrArg (BitVec.getLsbD · index) twoBits
  simp only [BitVec.getLsbD_and, BitVec.getLsbD_not, BitVec.getLsbD_zero, inside, decide_true,
    Bool.true_and] at oneBit twoBit
  generalize first.toBitVec.getLsbD index = left at *
  generalize second.toBitVec.getLsbD index = right at *
  cases left <;> cases right <;> simp_all

/-- Field actions that every byte enable touches alike, counter by counter, are the same. -/
theorem perm_of_touched {first second : List FieldAction}
    (firstMasks : ∀ field ∈ first, field.readTouched = true ∧ field.writeByteMask ≠ 0)
    (secondMasks : ∀ field ∈ second, field.readTouched = true ∧ field.writeByteMask ≠ 0)
    (distinct : (second.map (·.counter)).Nodup)
    (alike : ∀ byteEnable : UInt64,
      ((first.filter (FieldAction.touched .write byteEnable)).map (·.counter)).Perm
        ((second.filter (FieldAction.touched .write byteEnable)).map (·.counter))) :
    first.Perm second := by
  have everything : ∀ fields : List FieldAction,
      (∀ field ∈ fields, field.readTouched = true ∧ field.writeByteMask ≠ 0) →
        fields.filter (FieldAction.touched .write 0xFFFFFFFFFFFFFFFF) = fields := by
    intro fields masks
    refine List.filter_eq_self.mpr fun field member => ?_
    have ones : (0xFFFFFFFFFFFFFFFF : UInt64) = -1 := by decide
    have mask : (0xFFFFFFFFFFFFFFFF : UInt64) &&& field.writeByteMask = field.writeByteMask := by
      rw [ones, UInt64.neg_one_and]
    simp only [FieldAction.touched, mask, bne_iff_ne, ne_eq]
    exact (masks field member).2
  have counters := alike 0xFFFFFFFFFFFFFFFF
  rw [everything first firstMasks, everything second secondMasks] at counters
  have firstDistinct : (first.map (·.counter)).Nodup := counters.nodup_iff.mpr distinct
  -- a field action is touched exactly when its counter is among the touched ones
  have touchedIff : ∀ fields : List FieldAction, (fields.map (·.counter)).Nodup → ∀ field ∈ fields,
      ∀ byteEnable, (field.counter ∈
        (fields.filter (FieldAction.touched .write byteEnable)).map (·.counter) ↔
          byteEnable &&& field.writeByteMask ≠ 0) := by
    intro fields once field member byteEnable
    constructor
    · intro inside
      obtain ⟨other, found, same⟩ := List.mem_map.mp inside
      have here := List.mem_filter.mp found
      have equal : other = field := List.inj_on_of_nodup_map once here.1 member same
      rw [equal] at here
      simpa [FieldAction.touched] using here.2
    · intro hit
      exact List.mem_map_of_mem (List.mem_filter.mpr ⟨member, by simpa [FieldAction.touched] using hit⟩)
  have same : ∀ left ∈ first, ∀ right ∈ second, left.counter = right.counter → left = right := by
    intro left inFirst right inSecond counter
    have mask : left.writeByteMask = right.writeByteMask := by
      refine mask_ext fun byteEnable => not_iff_not.mp ?_
      have leftTouched := touchedIff first firstDistinct left inFirst byteEnable
      have rightTouched := touchedIff second distinct right inSecond byteEnable
      rw [counter] at leftTouched
      exact (leftTouched.symm.trans (alike byteEnable).mem_iff).trans rightTouched
    cases left
    cases right
    have one := (firstMasks _ inFirst).1
    have two := (secondMasks _ inSecond).1
    simp only at counter mask one two
    rw [counter, mask, one, two]
  rw [List.perm_ext_iff_of_nodup firstDistinct.of_map distinct.of_map]
  intro field
  constructor
  · intro member
    obtain ⟨other, found, counter⟩ := List.mem_map.mp (counters.mem_iff.mp (List.mem_map_of_mem member))
    rw [same field member other found counter.symm]
    exact found
  · intro member
    obtain ⟨other, found, counter⟩ := List.mem_map.mp (counters.mem_iff.mpr (List.mem_map_of_mem member))
    rw [← same other found field member counter]
    exact found

namespace RegisterAccessCoverage

variable {coverage : RegisterAccessCoverage}

/-- The field actions at a position, up to a number, both of 8 bits. -/
def window (coverage : RegisterAccessCoverage) (position number : Nat) : List FieldAction :=
  ((coverage.transfers.flatMap ownFieldActions).drop (position % 2 ^ 8)).take (number % 2 ^ 8)

/-- With so many field actions before it, a transfer selects field actions that count like its own: the
same counters of reads, and of writes also with the same masks. -/
def SelectsOwn (coverage : RegisterAccessCoverage) (before : Nat) (transfer : RegisterEntry × Nat) : Prop :=
  let own := ownFieldActions transfer
  let window := coverage.window before own.length
  ((coverage.counted .read window).map (·.counter)).Perm ((coverage.counted .read own).map (·.counter)) ∧
    (coverage.counted .write window).Perm (coverage.counted .write own)

instance (coverage : RegisterAccessCoverage) (before : Nat) (transfer : RegisterEntry × Nat) :
    Decidable (coverage.SelectsOwn before transfer) :=
  inferInstanceAs (Decidable (_ ∧ _))

/-- Every transfer of the block selects its own field actions. -/
def AllSelectOwn (coverage : RegisterAccessCoverage) : Prop :=
  ∀ index, (inside : index < coverage.transfers.length) →
    coverage.SelectsOwn ((coverage.transfers.take index).flatMap ownFieldActions).length
      coverage.transfers[index]

instance (coverage : RegisterAccessCoverage) : Decidable coverage.AllSelectOwn :=
  inferInstanceAs (Decidable (∀ _, (_ : _ < _) → _))

theorem allSelectOwn_iff : coverage.AllSelectOwn ↔
    ∀ earlier transfer later, coverage.transfers = earlier ++ transfer :: later →
      coverage.SelectsOwn (earlier.flatMap ownFieldActions).length transfer := by
  constructor
  · intro all earlier transfer later position
    have inside : earlier.length < coverage.transfers.length := by
      rw [position, List.length_append, List.length_cons]
      omega
    have one := all earlier.length inside
    have here : coverage.transfers[earlier.length] = transfer := by
      simp [position]
    have front : coverage.transfers.take earlier.length = earlier := by
      rw [position, List.take_left]
    rwa [here, front] at one
  · intro all index inside
    refine all _ _ (coverage.transfers.drop (index + 1)) ?_
    rw [← List.drop_eq_getElem_cons inside, List.take_append_drop]

theorem counted_filter (operation : MemoryOperation) (test : FieldAction → Bool) (fields : List FieldAction) :
    coverage.counted operation (fields.filter test) = (coverage.counted operation fields).filter test :=
  List.filter_comm _ _ _

theorem mem_window {before number : Nat} {field : FieldAction} (member : field ∈ coverage.window before number) :
    field.readTouched = true ∧ field.writeByteMask ≠ 0 := by
  obtain ⟨transfer, -, inside⟩ := List.mem_flatMap.mp (List.mem_of_mem_drop (List.mem_of_mem_take member))
  exact mask_ne_zero inside

/-- Selecting its own field actions is what every transaction needs. -/
theorem selectsOwn_iff (lengths : coverage.cells.length = coverage.counters.length) {before : Nat}
    {transfer : RegisterEntry × Nat} (built : transfer.1.Built) :
    coverage.SelectsOwn before transfer ↔
      ∀ operation byteEnable,
        coverage.tallied operation .frontdoor
            (((coverage.window before (ownFieldActions transfer).length).filter
              (FieldAction.touched operation byteEnable)).map (·.counter)) =
          coverage.tallied operation .frontdoor
            (((ownFieldActions transfer).filter (FieldAction.touched operation byteEnable)).map
              (·.counter)) := by
  have reads : ∀ fields : List FieldAction, (∀ field ∈ fields, field.readTouched = true) → ∀ byteEnable,
      fields.filter (FieldAction.touched .read byteEnable) = fields :=
    fun fields touched byteEnable => List.filter_eq_self.mpr touched
  have readWindow := reads (coverage.window before (ownFieldActions transfer).length)
    fun field member => (mem_window member).1
  have readOwn := reads (ownFieldActions transfer) fun field member => (mask_ne_zero member).1
  simp only [tallied_eq_iff_perm lengths]
  constructor
  · rintro ⟨sameReads, sameWrites⟩ operation byteEnable
    cases operation with
    | read => rwa [readWindow, readOwn]
    | write =>
        rw [counted_filter, counted_filter]
        exact (sameWrites.filter _).map _
  · intro alike
    refine ⟨?_, ?_⟩
    · have := alike .read 0
      rwa [readWindow, readOwn] at this
    · refine perm_of_touched (fun field member => mem_window (List.mem_of_mem_filter member))
        (fun field member => mask_ne_zero (List.mem_of_mem_filter member))
        (List.Nodup.sublist (List.filter_sublist.map _) (own_distinct built)) fun byteEnable => ?_
      rw [← counted_filter, ← counted_filter]
      exact alike .write byteEnable

/-! ### The two paths -/

/-- The coverage after sampling some counters through the front door. -/
def sampled (coverage : RegisterAccessCoverage) (operation : MemoryOperation) (indices : List Nat) :
    RegisterAccessCoverage :=
  { coverage with cells := coverage.tallied operation .frontdoor indices }

/-- The counters that a transfer samples through some field actions. -/
def sampledCounters (transfer : RegisterEntry × Nat) (operation : MemoryOperation) (byteEnable : UInt64)
    (fields : List FieldAction) : List Nat :=
  transfer.1.counter :: (fields.filter (FieldAction.touched operation byteEnable)).map (·.counter)

/-- The coverage after a memory element has been sampled. -/
def sampledElement (coverage : RegisterAccessCoverage) (entry : MemoryEntry) (operation : MemoryOperation)
    (index : Nat) : RegisterAccessCoverage :=
  (coverage.sampleCounter operation .frontdoor entry.counter).sampleIndex entry index operation

theorem tallied_cons_iff {operation : MemoryOperation} {path : AccessPath} {index : Nat}
    {first second : List Nat} :
    coverage.tallied operation path (index :: first) = coverage.tallied operation path (index :: second) ↔
      coverage.tallied operation path first = coverage.tallied operation path second := by
  simp only [tallied_eq_iff, List.count_cons, Nat.add_right_cancel_iff]

namespace Entries

theorem find_register (entries : coverage.Entries) {entry : RegisterEntry}
    (member : entry ∈ coverage.registers) {address : Nat} (inside : Inside address entry.range) :
    coverage.registers.find? (fun entry => entry.address ≤ address && address < entry.endAddress) =
      some entry :=
  find_inside RegisterEntry.range (List.pairwise_append.mp entries.apart).1 member inside

theorem find_no_register {address : Nat}
    (outside : ∀ entry ∈ coverage.registers, ¬Inside address entry.range) :
    coverage.registers.find? (fun entry => entry.address ≤ address && address < entry.endAddress) = none :=
  find_outside RegisterEntry.range outside

theorem find_memory (entries : coverage.Entries) {entry : MemoryEntry}
    (member : entry ∈ coverage.memories) {address : Nat} (inside : Inside address entry.range) :
    coverage.memories.find? (fun entry => entry.address ≤ address && address < entry.endAddress) =
      some entry :=
  find_inside MemoryEntry.range (List.pairwise_append.mp entries.apart).2.1 member inside

theorem find_no_memory {address : Nat} (outside : ∀ entry ∈ coverage.memories, ¬Inside address entry.range) :
    coverage.memories.find? (fun entry => entry.address ≤ address && address < entry.endAddress) = none :=
  find_outside MemoryEntry.range outside

/-- What an address is. -/
inductive Target (coverage : RegisterAccessCoverage) (address : Nat) : Prop
  | transfer (earlier later : List (RegisterEntry × Nat)) (transfer : RegisterEntry × Nat)
      (position : coverage.transfers = earlier ++ transfer :: later)
      (here : transferAddress transfer = address)
  | memory (entry : MemoryEntry) (position : Nat) (found : (entry, position) ∈ coverage.memories.zipIdx)
      (inside : Inside address entry.range)
  | unmapped (noTransfer : ∀ transfer ∈ coverage.transfers, transferAddress transfer ≠ address)
      (noMemory : ∀ memory ∈ coverage.memories, ¬Inside address memory.range)

theorem target (coverage : RegisterAccessCoverage) (address : Nat) : Target coverage address := by
  by_cases transfers : ∃ transfer ∈ coverage.transfers, transferAddress transfer = address
  · obtain ⟨transfer, member, here⟩ := transfers
    obtain ⟨earlier, later, position⟩ := List.mem_iff_append.mp member
    exact .transfer earlier later transfer position here
  · by_cases memories : ∃ one ∈ coverage.memories.zipIdx, Inside address one.1.range
    · obtain ⟨one, found, inside⟩ := memories
      exact .memory one.1 one.2 found inside
    · refine .unmapped (fun transfer member here => transfers ⟨transfer, member, here⟩)
        fun memory member inside => memories ?_
      rw [← List.zipIdx_map_fst 0 coverage.memories] at member
      obtain ⟨one, found, rfl⟩ := List.mem_map.mp member
      exact ⟨one, found, inside⟩

/-- The scan of a transfer's address. -/
theorem scan_transfer (entries : coverage.Entries) {transfer : RegisterEntry × Nat}
    (member : transfer ∈ coverage.transfers) (operation : MemoryOperation) (byteEnable : UInt64) :
    coverage.sampleRegisterTransfer (transferAddress transfer) operation byteEnable =
      some (coverage.sampled operation
        (sampledCounters transfer operation byteEnable (ownFieldActions transfer))) := by
  obtain ⟨register, sized, -, inside⟩ := mem_transfers member
  have offset : transferAddress transfer - transfer.1.address = transfer.2 * transfer.1.transferBytes :=
    Nat.add_sub_cancel_left _ _
  have aligned : transfer.2 * transfer.1.transferBytes % transfer.1.transferBytes = 0 := Nat.mul_mod_left _ _
  have index : transfer.2 * transfer.1.transferBytes / transfer.1.transferBytes = transfer.2 :=
    Nat.mul_div_cancel _ (Nat.pos_of_ne_zero sized)
  unfold sampleRegisterTransfer
  rw [find_register entries register inside]
  simp only [Option.bind_eq_bind, Option.bind_some]
  rw [offset, transferAt_eq (entries.registers _ register), aligned, index,
    if_neg (by simp [sized]), Option.bind_some, touched_own, ← List.foldl_cons, foldl_sampleCounter]
  rfl

/-- The scan of any other address finds no register. -/
theorem scan_no_transfer (entries : coverage.Entries) {address : Nat}
    (noTransfer : ∀ transfer ∈ coverage.transfers, transferAddress transfer ≠ address)
    (operation : MemoryOperation) (byteEnable : UInt64) :
    coverage.sampleRegisterTransfer address operation byteEnable = none := by
  unfold sampleRegisterTransfer
  by_cases registers : ∃ entry ∈ coverage.registers, Inside address entry.range
  · obtain ⟨entry, member, inside⟩ := registers
    rw [find_register entries member inside]
    simp only [Option.bind_eq_bind, Option.bind_some]
    rw [transferAt_eq (entries.registers _ member)]
    unfold Inside RegisterEntry.range at inside
    simp only at inside
    by_cases aligned : entry.transferBytes = 0 ∨ (address - entry.address) % entry.transferBytes ≠ 0
    · rw [if_pos aligned]
      rfl
    · -- an aligned offset is a transfer
      rw [not_or, not_not] at aligned
      have whole : (address - entry.address) / entry.transferBytes * entry.transferBytes =
          address - entry.address := Nat.div_mul_cancel (Nat.dvd_of_mod_eq_zero aligned.2)
      have counted : (address - entry.address) / entry.transferBytes < entry.transferCount := by
        rw [lt_transferCount_iff aligned.1, whole]
        omega
      refine absurd ?_ (noTransfer _ (transfer_mem member counted))
      unfold transferAddress
      simp only [whole]
      omega
  · rw [find_no_register fun entry member inside => registers ⟨entry, member, inside⟩]
    rfl

theorem mem_of_zipIdx {entry : MemoryEntry} {position : Nat}
    (found : (entry, position) ∈ coverage.memories.zipIdx) :
    entry ∈ coverage.memories ∧ coverage.memories[position]? = some entry := by
  have at' := List.mem_zipIdx_iff_getElem?.mp found
  exact ⟨List.mem_of_getElem? at', at'⟩

/-- The scan of a byte of a memory. -/
theorem scan_memory (entries : coverage.Entries) {entry : MemoryEntry} (member : entry ∈ coverage.memories)
    {address : Nat} (inside : Inside address entry.range) (operation : MemoryOperation) :
    coverage.sampleMemoryTransfer address operation =
      some (coverage.sampledElement entry operation ((address - entry.address) / entry.elementBytes)) := by
  unfold sampleMemoryTransfer
  rw [find_memory entries member inside]
  simp only [Option.bind_eq_bind, Option.bind_some, element_eq (entries.memories _ member)]
  rfl

theorem scan_no_memory {address : Nat} (outside : ∀ entry ∈ coverage.memories, ¬Inside address entry.range)
    (operation : MemoryOperation) : coverage.sampleMemoryTransfer address operation = none := by
  unfold sampleMemoryTransfer
  rw [find_no_memory outside]
  rfl

/-! ### One transaction -/

/-- A transaction that reaches the lookup, with its address. -/
structure Looks (transaction : MemoryTransaction) (address : Nat) : Prop where
  okay : memoryOkay transaction.status = true
  normal : normalizeAddress transaction.address = some address

theorem Looks.small {transaction : MemoryTransaction} {address : Nat} (looks : Looks transaction address) :
    address < 2 ^ 64 := by
  have normal := looks.normal
  unfold normalizeAddress wrap at normal
  split at normal
  · cases normal
  · injection normal with normal
    omega

/-- `write` on the scan path. -/
theorem write_scan (entries : coverage.Entries) {transaction : MemoryTransaction} {address : Nat}
    (looks : Looks transaction address) :
    coverage.write transaction =
      match coverage.sampleRegisterTransfer address transaction.operation transaction.byteEnable with
      | some sampled => sampled.countSample
      | none =>
          match coverage.sampleMemoryTransfer address transaction.operation with
          | some sampled => sampled.countSample
          | none => coverage.countUnmapped := by
  unfold write
  rw [looks.okay, looks.normal, entries.table]
  rfl

theorem fullTable_length (coverage : RegisterAccessCoverage) :
    coverage.fullTable.actions.length = coverage.high - coverage.low := by
  rw [fullTable_actions, Tables.length_fill, Tables.length_fill, List.length_replicate]

/-- `write` with the table, inside its span. -/
theorem write_table {transaction : MemoryTransaction} {address : Nat} (looks : Looks transaction address)
    (above : coverage.low ≤ address) {action : Action}
    (found : coverage.fullTable.actions[address - coverage.low]? = some action) :
    ({ coverage with table := coverage.fullTable } : RegisterAccessCoverage).write transaction =
      ({ coverage with table := coverage.fullTable } : RegisterAccessCoverage).sampleAction action
        transaction.operation transaction.byteEnable := by
  have index : wrap (address + 2 ^ 64 - coverage.fullTable.tableBase) = address - coverage.low := by
    have := looks.small
    change (address + 2 ^ 64 - coverage.low) % 2 ^ 64 = _
    omega
  have filled : coverage.fullTable.actions ≠ [] := by
    intro empty
    rw [empty] at found
    cases found
  unfold write
  simp only [looks.okay, looks.normal, index, found, filled, Bool.not_true, Bool.false_eq_true, if_false,
    ne_eq, not_false_eq_true, if_true]

/-- `write` with the table, outside its span. -/
theorem write_table_outside (entries : coverage.Entries) (fits : coverage.TableFits)
    {transaction : MemoryTransaction} {address : Nat} (looks : Looks transaction address)
    (outside : ¬(coverage.low ≤ address ∧ address < coverage.high)) :
    ({ coverage with table := coverage.fullTable } : RegisterAccessCoverage).write transaction =
      ({ coverage with table := coverage.fullTable } : RegisterAccessCoverage).countUnmapped := by
  have top := entries.high_lt
  unfold TableFits at fits
  have length := fullTable_length coverage
  have index : coverage.high - coverage.low ≤ wrap (address + 2 ^ 64 - coverage.fullTable.tableBase) := by
    have := looks.small
    change _ ≤ (address + 2 ^ 64 - coverage.low) % 2 ^ 64
    omega
  have missing : coverage.fullTable.actions[wrap (address + 2 ^ 64 - coverage.fullTable.tableBase)]? =
      none := List.getElem?_eq_none (by rw [length]; exact index)
  have filled : coverage.fullTable.actions ≠ [] := by
    intro empty
    rw [empty, List.length_nil] at length
    omega
  unfold write
  simp only [looks.okay, looks.normal, missing, filled, Bool.not_true, Bool.false_eq_true, if_false,
    ne_eq, not_false_eq_true, if_true]

/-- What a transaction at a transfer samples on the scan path. -/
theorem write_scan_transfer (entries : coverage.Entries) {transaction : MemoryTransaction}
    {transfer : RegisterEntry × Nat} (member : transfer ∈ coverage.transfers)
    (looks : Looks transaction (transferAddress transfer)) :
    coverage.write transaction =
      (coverage.sampled transaction.operation (sampledCounters transfer transaction.operation
        transaction.byteEnable (ownFieldActions transfer))).countSample := by
  rw [write_scan entries looks, scan_transfer entries member]

/-- What it samples with the table. -/
theorem write_table_transfer (entries : coverage.Entries) {transaction : MemoryTransaction}
    {earlier later : List (RegisterEntry × Nat)} {transfer : RegisterEntry × Nat}
    (position : coverage.transfers = earlier ++ transfer :: later)
    (looks : Looks transaction (transferAddress transfer)) :
    ({ coverage with table := coverage.fullTable } : RegisterAccessCoverage).write transaction =
      { (coverage.sampled transaction.operation (sampledCounters transfer transaction.operation
          transaction.byteEnable (coverage.window (earlier.flatMap ownFieldActions).length
            (ownFieldActions transfer).length))).countSample with table := coverage.fullTable } := by
  have member : transfer ∈ coverage.transfers := by
    rw [position]
    exact List.mem_append_right _ List.mem_cons_self
  obtain ⟨register, -, -, inside⟩ := mem_transfers member
  have above : coverage.low ≤ transferAddress transfer := (low_le_register register).1.trans inside.1
  rw [write_table looks above (action_of_transfer entries position)]
  have selects : (transferAction (earlier.flatMap ownFieldActions).length transfer).selected
      coverage.fullTable.fieldActions =
        coverage.window (earlier.flatMap ownFieldActions).length (ownFieldActions transfer).length := by
    unfold Action.selected window transferAction
    rw [fullTable_fieldActions]
    simp only [UInt8.toNat_ofNat']
  unfold sampleAction
  simp only [transferAction] at selects ⊢
  rw [selects, ← List.foldl_cons, foldl_sampleCounter]
  rfl

/-- **One transaction, with the table and on the scan path.** -/
theorem write_full (entries : coverage.Entries) (fits : coverage.TableFits) (all : coverage.AllSelectOwn)
    (transaction : MemoryTransaction) :
    ({ coverage with table := coverage.fullTable } : RegisterAccessCoverage).write transaction =
      { coverage.write transaction with table := coverage.fullTable } := by
  by_cases okay : memoryOkay transaction.status = true
  case neg =>
    unfold write
    simp only [okay, Bool.not_false, if_true]
  cases normal : normalizeAddress transaction.address with
  | none =>
      unfold write
      simp only [okay, normal, Bool.not_true, Bool.false_eq_true, if_false]
      rfl
  | some address =>
      have looks : Looks transaction address := ⟨okay, normal⟩
      cases target coverage address with
      | transfer earlier later transfer position here =>
          subst here
          have member : transfer ∈ coverage.transfers := by
            rw [position]
            exact List.mem_append_right _ List.mem_cons_self
          have built := entries.registers _ (mem_transfers member).1
          have selects := (selectsOwn_iff entries.cells built).mp
            (allSelectOwn_iff.mp all earlier transfer later position)
          rw [write_table_transfer entries position looks, write_scan_transfer entries member looks]
          unfold sampled sampledCounters
          rw [tallied_cons_iff.mpr (selects _ _)]
      | memory entry position found inside =>
          obtain ⟨member, atPosition⟩ := mem_of_zipIdx found
          have above : coverage.low ≤ address := (low_le_memory member).1.trans inside.1
          have noTransfer : ∀ transfer ∈ coverage.transfers, transferAddress transfer ≠ address := by
            intro transfer isTransfer here
            obtain ⟨register, -, -, both⟩ := mem_transfers isTransfer
            rw [here] at both
            exact register_memory_apart entries register member both inside
          rw [write_table looks above (action_of_memory entries found inside),
            write_scan entries looks, scan_no_transfer entries noTransfer,
            scan_memory entries member inside]
          unfold sampleAction memoryAction
          simp only [sampleCounter_eq, atPosition]
          unfold sampledElement
          rw [sampleCounter_eq]
          rfl
      | unmapped noTransfer noMemory =>
          rw [write_scan entries looks, scan_no_transfer entries noTransfer, scan_no_memory noMemory]
          by_cases span : coverage.low ≤ address ∧ address < coverage.high
          · rw [write_table looks span.1 (action_of_none span.1 span.2 noTransfer noMemory)]
            rfl
          · rw [write_table_outside entries fits looks span]
            rfl

end Entries

/-! ### All transactions -/

/-- The same entries, with counters that count the same operations. -/
structure SameMap (coverage next : RegisterAccessCoverage) : Prop where
  registers : next.registers = coverage.registers
  memories : next.memories = coverage.memories
  table : next.table = coverage.table
  cells : next.cells.length = coverage.cells.length
  counters : next.counters.length = coverage.counters.length
  allows : ∀ operation index, next.allows operation index = coverage.allows operation index

namespace SameMap

variable {next last : RegisterAccessCoverage}

theorem rfl' : SameMap coverage coverage := ⟨rfl, rfl, rfl, rfl, rfl, fun _ _ => rfl⟩

theorem trans (first : SameMap coverage next) (second : SameMap next last) : SameMap coverage last where
  registers := second.registers.trans first.registers
  memories := second.memories.trans first.memories
  table := second.table.trans first.table
  cells := second.cells.trans first.cells
  counters := second.counters.trans first.counters
  allows operation index := (second.allows operation index).trans (first.allows operation index)

theorem countSample : SameMap coverage coverage.countSample := ⟨rfl, rfl, rfl, rfl, rfl, fun _ _ => rfl⟩

theorem countUnmapped : SameMap coverage coverage.countUnmapped := ⟨rfl, rfl, rfl, rfl, rfl, fun _ _ => rfl⟩

theorem sampled (operation : MemoryOperation) (indices : List Nat) :
    SameMap coverage (coverage.sampled operation indices) :=
  ⟨rfl, rfl, rfl, List.length_mapIdx, rfl, fun _ _ => rfl⟩

theorem sampleIndex (entry : MemoryEntry) (index : Nat) (operation : MemoryOperation) :
    SameMap coverage (coverage.sampleIndex entry index operation) where
  registers := rfl
  memories := rfl
  table := rfl
  cells := rfl
  counters := List.length_modify _ _ _
  allows wanted position := by
    unfold RegisterAccessCoverage.sampleIndex RegisterAccessCoverage.allows
    simp only [List.getElem?_modify]
    cases coverage.counters[position]? with
    | none => rfl
    | some counter => cases operation <;> cases wanted <;> by_cases here : entry.counter = position <;> simp [here, operationAllowed]

theorem sampledElement (entry : MemoryEntry) (operation : MemoryOperation) (index : Nat) :
    SameMap coverage (coverage.sampledElement entry operation index) := by
  unfold RegisterAccessCoverage.sampledElement
  rw [sampleCounter_eq]
  exact (sampled operation [entry.counter]).trans (sampleIndex _ _ _)

theorem entries (same : SameMap coverage next) (entries : coverage.Entries) : next.Entries where
  registers := by rw [same.registers]; exact entries.registers
  memories := by rw [same.memories]; exact entries.memories
  apart := by rw [same.registers, same.memories]; exact entries.apart
  cells := by rw [same.cells, same.counters]; exact entries.cells
  table := same.table.trans entries.table

theorem span (same : SameMap coverage next) : next.low = coverage.low ∧ next.high = coverage.high := by
  unfold low high
  rw [same.registers, same.memories]
  exact ⟨rfl, rfl⟩

theorem fits (same : SameMap coverage next) (fits : coverage.TableFits) : next.TableFits := by
  unfold TableFits
  rw [same.span.1, same.span.2]
  exact fits

theorem transfers (same : SameMap coverage next) : next.transfers = coverage.transfers := by
  unfold RegisterAccessCoverage.transfers
  rw [same.registers]

theorem fullTable (same : SameMap coverage next) : next.fullTable = coverage.fullTable := by
  unfold RegisterAccessCoverage.fullTable freshTable
  rw [same.transfers, same.span.1, same.span.2, same.memories]

theorem allSelectOwn (same : SameMap coverage next) (all : coverage.AllSelectOwn) : next.AllSelectOwn := by
  rw [allSelectOwn_iff] at all ⊢
  intro earlier transfer later position
  rw [same.transfers] at position
  have one := all earlier transfer later position
  unfold SelectsOwn window counted at one ⊢
  simp only [same.allows, same.transfers]
  exact one

end SameMap

/-- A transaction on the scan path keeps the entries. -/
theorem Entries.sameMap_write (entries : coverage.Entries) (transaction : MemoryTransaction) :
    SameMap coverage (coverage.write transaction) := by
  by_cases okay : memoryOkay transaction.status = true
  case neg =>
    unfold write
    simp only [okay, Bool.not_false, if_true]
    exact ⟨rfl, rfl, rfl, rfl, rfl, fun _ _ => rfl⟩
  cases normal : normalizeAddress transaction.address with
  | none =>
      unfold write
      simp only [okay, normal, Bool.not_true, Bool.false_eq_true, if_false]
      exact SameMap.countUnmapped
  | some address =>
      have looks : Entries.Looks transaction address := ⟨okay, normal⟩
      cases Entries.target coverage address with
      | transfer earlier later transfer position here =>
          subst here
          have member : transfer ∈ coverage.transfers := by
            rw [position]
            exact List.mem_append_right _ List.mem_cons_self
          rw [entries.write_scan_transfer member looks]
          exact (SameMap.sampled _ _).trans SameMap.countSample
      | memory entry position found inside =>
          have member := (Entries.mem_of_zipIdx found).1
          have noTransfer : ∀ transfer ∈ coverage.transfers, transferAddress transfer ≠ address := by
            intro transfer isTransfer here
            obtain ⟨register, -, -, both⟩ := Entries.mem_transfers isTransfer
            rw [here] at both
            exact entries.register_memory_apart register member both inside
          rw [entries.write_scan looks, entries.scan_no_transfer noTransfer, entries.scan_memory member inside]
          exact (SameMap.sampledElement _ _ _).trans SameMap.countSample
      | unmapped noTransfer noMemory =>
          rw [entries.write_scan looks, entries.scan_no_transfer noTransfer, Entries.scan_no_memory noMemory]
          exact SameMap.countUnmapped

/-- **All transactions, with the table and on the scan path.** -/
theorem Entries.writes_full (entries : coverage.Entries) (fits : coverage.TableFits)
    (all : coverage.AllSelectOwn) (transactions : List MemoryTransaction) :
    transactions.foldl write { coverage with table := coverage.fullTable } =
      { transactions.foldl write coverage with table := coverage.fullTable } := by
  induction transactions generalizing coverage with
  | nil => rfl
  | cons transaction rest ih =>
      have same := entries.sameMap_write transaction
      rw [List.foldl_cons, List.foldl_cons, entries.write_full fits all, ← same.fullTable,
        ih (same.entries entries) (same.fits fits) (same.allSelectOwn all)]

/-- The snapshot shows the cells. -/
theorem cells_of_snapshot {cells : List CountCells} (lengths : coverage.cells.length = coverage.counters.length)
    (others : cells.length = coverage.counters.length)
    (same : ({ coverage with cells := cells } : RegisterAccessCoverage).snapshot = coverage.snapshot) :
    cells = coverage.cells := by
  have entries := congrArg Snapshot.entries same
  simp only [snapshot] at entries
  refine List.ext_getElem (others.trans lengths.symm) fun index inside inside' => ?_
  have one := congrArg (·[index]?) entries
  have counter : index < coverage.counters.length := by omega
  simp only [List.getElem?_zipWith, List.getElem?_eq_getElem inside, List.getElem?_eq_getElem inside',
    List.getElem?_eq_getElem counter, Option.some.injEq, entrySnapshot, EntrySnapshot.mk.injEq,
    true_and, and_true] at one
  obtain ⟨reads, writes, backReads, backWrites⟩ := one
  cases left : cells[index]
  cases right : coverage.cells[index]
  rw [left, right] at reads writes backReads backWrites
  simp only at reads writes backReads backWrites
  rw [reads, writes, backReads, backWrites]

/-- The lookup paths agree: without a table, or when no transfer step leaves the address space and every
transfer selects its own field actions. -/
def LookupsAgree (coverage : RegisterAccessCoverage) : Prop :=
  coverage.TableFits →
    (∀ entry ∈ coverage.registers, entry.StaysInside) ∧ coverage.AllSelectOwn

instance (coverage : RegisterAccessCoverage) : Decidable coverage.LookupsAgree :=
  inferInstanceAs (Decidable (_ → _))

/-- **The table and the scan.** Construction ends, and every sequence of transactions gives the snapshot of
the scan, exactly when the lookup paths agree. -/
theorem table_matches_scan_iff {block : RegisterBlockDescriptor} {baseAddress : UInt64} {name : String}
    {coverage : RegisterAccessCoverage} (built : scanning block baseAddress name = .ok coverage)
    (apart : block.NonOverlapping) :
    (∃ table, coverage.buildActionTable = some table ∧ ∀ transactions : List MemoryTransaction,
        (transactions.foldl write table).snapshot = (transactions.foldl write coverage).snapshot) ↔
      coverage.LookupsAgree := by
  have entries := scanning_entries built apart
  by_cases fits : coverage.TableFits
  case neg =>
    have unchanged : coverage.buildActionTable = some coverage := by
      unfold TableFits at fits
      rw [not_not] at fits
      unfold buildActionTable
      simp only
      rw [if_pos fits]
    exact ⟨fun _ wanted => absurd wanted fits, fun _ => ⟨coverage, unchanged, fun _ => rfl⟩⟩
  rw [entries.buildActionTable_eq fits]
  constructor
  · rintro ⟨table, made, agree⟩ -
    split at made
    case isFalse => cases made
    rename_i stays
    injection made with made
    subst made
    refine ⟨stays, allSelectOwn_iff.mpr fun earlier transfer later position => ?_⟩
    have member : transfer ∈ coverage.transfers := by
      rw [position]
      exact List.mem_append_right _ List.mem_cons_self
    obtain ⟨register, -, -, inside⟩ := Entries.mem_transfers member
    have top := (entries.registers _ register).top
    rw [selectsOwn_iff entries.cells (entries.registers _ register)]
    intro operation byteEnable
    -- one transaction at the transfer shows what it samples
    let transaction : MemoryTransaction :=
      { operation := operation, address := (transferAddress transfer : Nat), byteEnable := byteEnable }
    have looks : Entries.Looks transaction (transferAddress transfer) := by
      refine ⟨rfl, ?_⟩
      unfold Inside RegisterEntry.range at inside
      simp only at inside
      unfold normalizeAddress wrap
      change (if (transferAddress transfer : Int) < 0 then none
        else some ((transferAddress transfer : Int).toNat % 2 ^ 64)) = _
      rw [if_neg (by omega), Int.toNat_natCast, Nat.mod_eq_of_lt (by omega)]
    have one := agree [transaction]
    rw [List.foldl_cons, List.foldl_nil, List.foldl_cons, List.foldl_nil,
      Entries.write_table_transfer entries position looks, entries.write_scan_transfer member looks] at one
    rw [← tallied_cons_iff]
    exact @cells_of_snapshot (coverage.sampled operation _).countSample _
      (List.length_mapIdx.trans entries.cells) (List.length_mapIdx.trans entries.cells) one
  · intro agree
    obtain ⟨stays, all⟩ := agree fits
    refine ⟨_, if_pos stays, fun transactions => ?_⟩
    rw [entries.writes_full fits all]
    rfl

/-- With at most 255 field actions, every transfer selects its own. -/
theorem selectsOwn_of_few (few : (coverage.transfers.flatMap ownFieldActions).length ≤ 255) :
    coverage.AllSelectOwn := by
  rw [allSelectOwn_iff]
  intro earlier transfer later position
  have window : coverage.window (earlier.flatMap ownFieldActions).length (ownFieldActions transfer).length =
      ownFieldActions transfer := by
    rw [position, List.flatMap_append, List.flatMap_cons, List.length_append, List.length_append] at few
    unfold RegisterAccessCoverage.window
    rw [Nat.mod_eq_of_lt (by omega), Nat.mod_eq_of_lt (by omega), position, List.flatMap_append,
      List.flatMap_cons, List.drop_left, List.take_left]
  unfold SelectsOwn
  simp only [window]
  exact ⟨List.Perm.refl _, List.Perm.refl _⟩

/-! ### Nine registers of 32 fields -/

/-- Nine registers of 32 one-bit fields each: the last transfer has 256 field actions before it. -/
def nineRegisters : RegisterBlockDescriptor where
  registers := (List.range 9).map fun index =>
    { path := "r"
      address := UInt64.ofNat (4 * index)
      fields := (List.range 32).map fun bit => { path := "f", lsb := UInt16.ofNat bit, width := 1 } }

/-- The coverage of a block, or an empty one when construction throws. -/
def scanned (block : RegisterBlockDescriptor) : RegisterAccessCoverage :=
  match scanning block 0 "register_access" with
  | .ok coverage => coverage
  | .error _ => { name := "" }

theorem scanning_eq_scanned {block : RegisterBlockDescriptor}
    (ok : (scanning block 0 "register_access").isOk = true) :
    scanning block 0 "register_access" = .ok (scanned block) := by
  unfold scanned
  cases found : scanning block 0 "register_access" with
  | ok coverage => rfl
  | error message =>
      rw [found] at ok
      cases ok

/-- A read of the ninth register counts for the fields of the first. -/
theorem table_counts_first_register :
    nineRegisters.NonOverlapping ∧
      scanning nineRegisters 0 "register_access" = .ok (scanned nineRegisters) ∧
      ∃ table, (scanned nineRegisters).buildActionTable = some table ∧
        (table.write { address := 32 }).snapshot ≠
          ((scanned nineRegisters).write { address := 32 }).snapshot := by
  refine ⟨by decide +kernel, scanning_eq_scanned (by decide +kernel), ?_⟩
  have differs : (scanned nineRegisters).buildActionTable.any (fun table =>
      decide ((table.write { address := 32 }).snapshot ≠
        ((scanned nineRegisters).write { address := 32 }).snapshot)) = true := by
    decide +kernel
  obtain ⟨table, made, different⟩ := (Option.any_eq_true _ _).mp differs
  exact ⟨table, made, of_decide_eq_true different⟩

/-- A small block, whose lookup paths agree. -/
def smallBlock : RegisterBlockDescriptor where
  registers := [{ path := "r", fields := [{ path := "f", lsb := 4, width := 8 }] }]
  memories := [{ path := "m", address := 16, entries := 4, width := 32 }]

theorem table_matches_scan_small :
    ∃ table, (scanned smallBlock).buildActionTable = some table ∧
      ∀ transactions : List MemoryTransaction,
        (transactions.foldl write table).snapshot =
          (transactions.foldl write (scanned smallBlock)).snapshot :=
  (table_matches_scan_iff (scanning_eq_scanned (by decide +kernel)) (by decide +kernel)).mpr
    (by decide +kernel)

end RegisterAccessCoverage

end Cpptb.Vc
