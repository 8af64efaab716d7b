/-
The action table of register access coverage.

* `registerWrites`, `memoryWrites`: the actions in the order `build_action_table` places them.
* `buildActionTable_eq`: it ends with a table exactly when no transfer step leaves the address space, and
  the table then holds these actions.
* `action_of_transfer`, `action_of_memory`, `action_of_none`: what the table holds for an address.
-/

import Cpptb.Lib.Tables
import Cpptb.Vc.RegisterEntries

namespace Cpptb.Vc

open Tables

/-! ### Transfers -/

/-- The number of transfers of a register. -/
def RegisterEntry.transferCount (entry : RegisterEntry) : Nat :=
  if entry.transferBytes = 0 then 0
  else (entry.endAddress - entry.address + entry.transferBytes - 1) / entry.transferBytes

/-- The transfers of a register. -/
def RegisterEntry.transfers (entry : RegisterEntry) : List (RegisterEntry × Nat) :=
  (List.range entry.transferCount).map (entry, ·)

/-- The step behind the last transfer is still an address. -/
def RegisterEntry.StaysInside (entry : RegisterEntry) : Prop :=
  entry.address + entry.transferCount * entry.transferBytes < 2 ^ 64

instance (entry : RegisterEntry) : Decidable entry.StaysInside :=
  inferInstanceAs (Decidable (_ < _))

/-- The field actions of a transfer. -/
def ownFieldActions (transfer : RegisterEntry × Nat) : List FieldAction :=
  transferFieldActions transfer.1 transfer.2

/-- The action of a transfer with so many field actions before it. -/
def transferAction (before : Nat) (transfer : RegisterEntry × Nat) : Action where
  kind := .register
  counter := transfer.1.counter
  fieldBegin := UInt8.ofNat before
  fieldCount := UInt8.ofNat (ownFieldActions transfer).length

/-- The address of a transfer. -/
def transferAddress (transfer : RegisterEntry × Nat) : Nat :=
  transfer.1.address + transfer.2 * transfer.1.transferBytes

/-- The actions of some transfers, in order, with the indices they are placed at. -/
def registerWrites (base : Nat) : Nat → List (RegisterEntry × Nat) → List (Nat × Action)
  | _, [] => []
  | before, transfer :: rest =>
      (transferAddress transfer - base, transferAction before transfer) ::
        registerWrites base (before + (ownFieldActions transfer).length) rest

/-- The action of an element of the memory at a position. -/
def memoryAction (placed : MemoryEntry × Nat) (index : Nat) : Action where
  kind := .memory
  counter := placed.1.counter
  memoryIndex := index
  memoryEntry := placed.2

/-- The actions of the bytes of a memory from an offset on. -/
def memoryWrites (base : Nat) (placed : MemoryEntry × Nat) (offset count : Nat) : List (Nat × Action) :=
  (List.range' offset count).map fun byte =>
    (placed.1.address + byte - base, memoryAction placed (byte / placed.1.elementBytes))

section Transfers

variable {entry : RegisterEntry}

theorem lt_transferCount_iff (sized : entry.transferBytes ≠ 0) (transfer : Nat) :
    transfer < entry.transferCount ↔
      transfer * entry.transferBytes < entry.endAddress - entry.address := by
  unfold RegisterEntry.transferCount
  rw [if_neg sized, ← Nat.add_one_le_iff, Nat.le_div_iff_mul_le (Nat.pos_of_ne_zero sized), Nat.add_mul]
  omega

theorem registerWrites_append (base before : Nat) (first second : List (RegisterEntry × Nat)) :
    registerWrites base before (first ++ second) =
      registerWrites base before first ++
        registerWrites base (before + (first.flatMap ownFieldActions).length) second := by
  induction first generalizing before with
  | nil => rfl
  | cons transfer rest ih =>
      rw [List.cons_append, registerWrites, ih, registerWrites, List.cons_append, List.flatMap_cons,
        List.length_append, Nat.add_assoc]

theorem map_fst_registerWrites (base before : Nat) (transfers : List (RegisterEntry × Nat)) :
    (registerWrites base before transfers).map Prod.fst =
      transfers.map fun transfer => transferAddress transfer - base := by
  induction transfers generalizing before with
  | nil => rfl
  | cons transfer rest ih => rw [registerWrites, List.map_cons, ih, List.map_cons]

/-- The action of the transfer behind some others. -/
theorem mem_registerWrites (base : Nat) (earlier later : List (RegisterEntry × Nat))
    (transfer : RegisterEntry × Nat) :
    (transferAddress transfer - base,
      transferAction (earlier.flatMap ownFieldActions).length transfer) ∈
        registerWrites base 0 (earlier ++ transfer :: later) := by
  rw [registerWrites_append, Nat.zero_add, registerWrites]
  exact List.mem_append_right _ List.mem_cons_self

end Transfers

namespace ActionTable

variable {table : ActionTable}

/-! ### Placing -/

theorem place_eq {address : Nat} (above : table.tableBase ≤ address) (small : address < 2 ^ 64)
    (inside : address - table.tableBase < table.actions.length) (action : Action) :
    table.place address action =
      some { table with actions := table.actions.set (address - table.tableBase) action } := by
  have index : wrap (address + 2 ^ 64 - table.tableBase) = address - table.tableBase := by
    unfold wrap
    omega
  unfold place
  simp only [index]
  rw [if_pos inside]

/-- The table with the actions of some transfers. -/
def withTransfers (table : ActionTable) (transfers : List (RegisterEntry × Nat)) : ActionTable where
  tableBase := table.tableBase
  actions := fill (registerWrites table.tableBase table.fieldActions.length transfers) table.actions
  fieldActions := table.fieldActions ++ transfers.flatMap ownFieldActions

@[simp] theorem withTransfers_tableBase (transfers : List (RegisterEntry × Nat)) :
    (table.withTransfers transfers).tableBase = table.tableBase := rfl

@[simp] theorem withTransfers_length (transfers : List (RegisterEntry × Nat)) :
    (table.withTransfers transfers).actions.length = table.actions.length :=
  length_fill _ _

theorem withTransfers_append (first second : List (RegisterEntry × Nat)) :
    table.withTransfers (first ++ second) = (table.withTransfers first).withTransfers second := by
  unfold withTransfers
  simp only [registerWrites_append, fill_append, List.length_append, List.flatMap_append,
    List.append_assoc]

theorem withTransfers_nil : table.withTransfers [] = table := by
  simp [withTransfers, registerWrites]

/-- A table with an action for every byte of a range. -/
structure Covers (table : ActionTable) (range : Nat × Nat) : Prop where
  above : table.tableBase ≤ range.1
  inside : range.2 - table.tableBase ≤ table.actions.length
  limit : table.actions.length ≤ 2 ^ 20
  fits : table.tableBase + table.actions.length ≤ 2 ^ 64

theorem Covers.withTransfers {range : Nat × Nat} (covers : table.Covers range)
    (transfers : List (RegisterEntry × Nat)) : (table.withTransfers transfers).Covers range where
  above := covers.above
  inside := by rw [withTransfers_length]; exact covers.inside
  limit := by rw [withTransfers_length]; exact covers.limit
  fits := by rw [withTransfers_length]; exact covers.fits

/-- One transfer of a register. -/
theorem placeTransfer_eq {entry : RegisterEntry} (sized : entry.transferBytes ≠ 0) {transfer : Nat}
    (above : table.tableBase ≤ transferAddress (entry, transfer))
    (small : transferAddress (entry, transfer) < 2 ^ 64)
    (inside : transferAddress (entry, transfer) - table.tableBase < table.actions.length) :
    placeTransfer entry (transfer * entry.transferBytes) table =
      some (table.withTransfers [(entry, transfer)]) := by
  have index : transfer * entry.transferBytes / entry.transferBytes = transfer :=
    Nat.mul_div_cancel _ (Nat.pos_of_ne_zero sized)
  have here : wrap (entry.address + transfer * entry.transferBytes) = transferAddress (entry, transfer) :=
    Nat.mod_eq_of_lt small
  have own : [(entry, transfer)].flatMap ownFieldActions = ownFieldActions (entry, transfer) :=
    List.append_nil _
  unfold placeTransfer withTransfers
  simp only [here, index, own, registerWrites]
  exact @place_eq { table with fieldActions := table.fieldActions ++ ownFieldActions (entry, transfer) }
    _ above small inside _

section OneRegister

variable {entry : RegisterEntry}

/-- The step to the next transfer, as long as there is one. -/
theorem placeTransfers_step (built : entry.Built) (sized : entry.transferBytes ≠ 0)
    (covers : table.Covers entry.range) {transfer : Nat} (more : transfer < entry.transferCount)
    (fuel : Nat) :
    placeTransfers entry (fuel + 1) (transfer * entry.transferBytes) table =
      placeTransfers entry fuel ((transfer + 1) * entry.transferBytes)
        (table.withTransfers [(entry, transfer)]) := by
  have inside := (lt_transferCount_iff sized transfer).mp more
  have top := built.top
  have above := covers.above
  have room := covers.inside
  have width := entry.descriptor.accessWidth.toNat_lt
  have bytes := built.transferBytes
  have ends := built.endAddress
  have size := entry.descriptor.width.toNat_lt
  simp only [RegisterEntry.range] at above room
  have address : transferAddress (entry, transfer) = entry.address + transfer * entry.transferBytes := rfl
  have here : wrap (entry.address + transfer * entry.transferBytes) =
      entry.address + transfer * entry.transferBytes := Nat.mod_eq_of_lt (by omega)
  have next : wrap (transfer * entry.transferBytes + entry.transferBytes) =
      (transfer + 1) * entry.transferBytes := by
    rw [Nat.add_mul, Nat.one_mul]
    exact Nat.mod_eq_of_lt (by omega)
  rw [placeTransfers, here, if_pos (by omega), next,
    placeTransfer_eq sized (by omega) (by omega) (by omega), Option.bind_some]

/-- The table after the transfers of a register that stays inside. -/
theorem placeTransfers_eq (built : entry.Built) (sized : entry.transferBytes ≠ 0)
    (covers : table.Covers entry.range) (stays : entry.StaysInside)
    {transfer left fuel : Nat} (all : transfer + left = entry.transferCount) (enough : left < fuel) :
    placeTransfers entry fuel (transfer * entry.transferBytes) table =
      some (table.withTransfers ((List.range' transfer left).map (entry, ·))) := by
  induction left generalizing transfer fuel table with
  | zero =>
      obtain ⟨fuel, rfl⟩ := Nat.exists_eq_add_of_lt enough
      rw [Nat.add_zero] at all
      have stop : ¬transfer * entry.transferBytes < entry.endAddress - entry.address := by
        rw [← lt_transferCount_iff sized, all]
        exact lt_irrefl _
      unfold RegisterEntry.StaysInside at stays
      rw [← all] at stays
      have here : wrap (entry.address + transfer * entry.transferBytes) =
          entry.address + transfer * entry.transferBytes := Nat.mod_eq_of_lt stays
      rw [Nat.zero_add, placeTransfers, here, if_neg (by omega)]
      exact congrArg some withTransfers_nil.symm
  | succ left ih =>
      obtain ⟨fuel, rfl⟩ := Nat.exists_eq_add_of_lt enough
      rw [show left + 1 + fuel + 1 = (left + fuel + 1) + 1 by omega,
        placeTransfers_step built sized covers (by omega),
        ih (covers.withTransfers _) (by omega) (by omega), ← withTransfers_append, List.range'_succ,
        List.map_cons, List.singleton_append]

/-- A register whose last step leaves the address space is placed past the end of the table. -/
theorem placeTransfers_none (built : entry.Built) (sized : entry.transferBytes ≠ 0)
    (covers : table.Covers entry.range) (leaves : ¬entry.StaysInside)
    {transfer left : Nat} (all : transfer + left = entry.transferCount) (fuel : Nat) :
    placeTransfers entry fuel (transfer * entry.transferBytes) table = none := by
  induction left generalizing transfer fuel table with
  | zero =>
      cases fuel with
      | zero => rfl
      | succ fuel =>
          rw [Nat.add_zero] at all
          have stop : ¬transfer * entry.transferBytes < entry.endAddress - entry.address := by
            rw [← lt_transferCount_iff sized, all]
            exact lt_irrefl _
          unfold RegisterEntry.StaysInside at leaves
          rw [← all] at leaves
          have width := entry.descriptor.accessWidth.toNat_lt
          have size := entry.descriptor.width.toNat_lt
          have bytes := built.transferBytes
          have ends := built.endAddress
          have top := built.top
          have above := covers.above
          have room := covers.inside
          have limit := covers.limit
          have fits := covers.fits
          simp only [RegisterEntry.range] at above room
          -- the last transfer starts inside the register, so that the step overshoots by less than its size
          have last : transfer * entry.transferBytes <
              entry.endAddress - entry.address + entry.transferBytes := by
            cases transfer with
            | zero => omega
            | succ previous =>
                have before : previous < entry.transferCount := by omega
                have := (lt_transferCount_iff sized previous).mp before
                rw [Nat.add_mul, Nat.one_mul]
                omega
          have here : wrap (entry.address + transfer * entry.transferBytes) =
              entry.address + transfer * entry.transferBytes - 2 ^ 64 := by
            unfold wrap
            omega
          have outside : ¬wrap (wrap (entry.address + transfer * entry.transferBytes) + 2 ^ 64 -
              table.tableBase) < table.actions.length := by
            rw [here]
            unfold wrap
            omega
          rw [placeTransfers, here, if_pos (by omega)]
          unfold placeTransfer place
          simp only
          rw [if_neg outside]
          rfl
  | succ left ih =>
      cases fuel with
      | zero => rfl
      | succ fuel =>
          rw [placeTransfers_step built sized covers (by omega)]
          exact ih (covers.withTransfers _) (by omega) fuel

theorem addRegister_eq (built : entry.Built) (covers : table.Covers entry.range) :
    table.addRegister entry =
      if entry.StaysInside then some (table.withTransfers entry.transfers) else none := by
  unfold addRegister
  by_cases sized : entry.transferBytes = 0
  · have empty : entry.transferCount = 0 := if_pos sized
    have stays : entry.StaysInside := by
      have := built.top
      have := built.endAddress
      unfold RegisterEntry.StaysInside
      rw [empty]
      omega
    rw [if_pos sized, if_pos stays, RegisterEntry.transfers, empty, List.range_zero, List.map_nil,
      withTransfers_nil]
  · rw [if_neg sized]
    by_cases stays : entry.StaysInside
    · have fits : entry.transferCount < table.actions.length + 1 := by
        by_contra beyond
        have inside := (lt_transferCount_iff sized (entry.transferCount - 1)).mp (by omega)
        have step : entry.transferCount - 1 ≤ (entry.transferCount - 1) * entry.transferBytes :=
          Nat.le_mul_of_pos_right _ (Nat.pos_of_ne_zero sized)
        have above := covers.above
        have room := covers.inside
        simp only [RegisterEntry.range] at above room
        omega
      have placed := placeTransfers_eq built sized covers stays (Nat.zero_add entry.transferCount) fits
      rw [Nat.zero_mul] at placed
      rw [if_pos stays, placed, RegisterEntry.transfers, List.range_eq_range']
    · have placed := placeTransfers_none built sized covers stays (Nat.zero_add entry.transferCount)
        (table.actions.length + 1)
      rw [Nat.zero_mul] at placed
      rw [if_neg stays, placed]

end OneRegister

/-- The table with the actions of the registers. -/
theorem foldlM_addRegister {entries : List RegisterEntry} (built : ∀ entry ∈ entries, entry.Built)
    (covers : ∀ entry ∈ entries, table.Covers entry.range) :
    entries.foldlM addRegister table =
      if ∀ entry ∈ entries, entry.StaysInside then
        some (table.withTransfers (entries.flatMap (·.transfers)))
      else none := by
  induction entries generalizing table with
  | nil => simp [withTransfers_nil]
  | cons entry rest ih =>
      rw [List.foldlM_cons, addRegister_eq (built entry List.mem_cons_self) (covers entry List.mem_cons_self)]
      by_cases stays : entry.StaysInside
      · rw [if_pos stays, Option.bind_eq_bind, Option.bind_some,
          ih (fun other member => built other (List.mem_cons_of_mem _ member))
            (fun other member => (covers other (List.mem_cons_of_mem _ member)).withTransfers _)]
        simp only [List.forall_mem_cons, stays, true_and, List.flatMap_cons, withTransfers_append]
      · rw [if_neg stays, if_neg fun all => stays (all entry List.mem_cons_self)]
        rfl

/-! ### The memories -/

/-- The table with the actions of some bytes of a memory. -/
def withBytes (table : ActionTable) (placed : MemoryEntry × Nat) (offset count : Nat) : ActionTable :=
  { table with actions := fill (memoryWrites table.tableBase placed offset count) table.actions }

theorem withBytes_append (placed : MemoryEntry × Nat) (offset first second : Nat) :
    table.withBytes placed offset (first + second) =
      (table.withBytes placed offset first).withBytes placed (offset + first) second := by
  have split : List.range' offset (first + second) =
      List.range' offset first ++ List.range' (offset + first) second := by
    rw [List.range'_append_1]
  unfold withBytes memoryWrites
  rw [split, List.map_append, fill_append]

theorem withBytes_zero (placed : MemoryEntry × Nat) (offset : Nat) :
    table.withBytes placed offset 0 = table := rfl

theorem Covers.withBytes {range : Nat × Nat} (covers : table.Covers range) (placed : MemoryEntry × Nat)
    (offset count : Nat) : (table.withBytes placed offset count).Covers range where
  above := covers.above
  inside := by rw [ActionTable.withBytes, length_fill]; exact covers.inside
  limit := by rw [ActionTable.withBytes, length_fill]; exact covers.limit
  fits := by rw [ActionTable.withBytes, length_fill]; exact covers.fits

section OneMemory

variable {entry : MemoryEntry}

/-- The bytes of one element. -/
theorem placeBytes_eq (top : entry.endAddress < 2 ^ 64) (covers : table.Covers entry.range)
    (position : Nat) {index offset left : Nat} (first : index * entry.elementBytes ≤ offset)
    (last : offset + left ≤ (index + 1) * entry.elementBytes)
    (inside : entry.address + (offset + left) ≤ entry.endAddress) :
    placeBytes entry (memoryAction (entry, position) index) left offset table =
      some (table.withBytes (entry, position) offset left) := by
  induction left generalizing offset table with
  | zero => exact congrArg some (withBytes_zero (entry, position) offset).symm
  | succ left ih =>
      have here : wrap (entry.address + offset) = entry.address + offset := Nat.mod_eq_of_lt (by omega)
      have element : offset / entry.elementBytes = index := by
        apply Nat.div_eq_of_lt_le
        · exact first
        · rw [Nat.add_mul, Nat.one_mul] at last ⊢
          omega
      have above := covers.above
      have room := covers.inside
      simp only [MemoryEntry.range] at above room
      have one : table.withBytes (entry, position) offset 1 =
          { table with
            actions := table.actions.set (entry.address + offset - table.tableBase)
              (memoryAction (entry, position) index) } := by
        simp [withBytes, memoryWrites, element]
      rw [placeBytes, here, if_pos (by omega), place_eq (by omega) (by omega) (by omega),
        Option.bind_some, ← one, ih (covers.withBytes _ _ _) (by omega) (by omega) (by omega),
        Nat.add_comm left 1, withBytes_append]

/-- The elements of a memory. -/
theorem placeElements_eq (built : entry.Built) (sized : entry.elementBytes ≠ 0)
    (covers : table.Covers entry.range) (position : Nat) {index left fuel : Nat}
    (all : index + left = entry.descriptor.entries.toNat) (enough : left < fuel) :
    placeElements entry position fuel index (index * entry.elementBytes) table =
      some (table.withBytes (entry, position) (index * entry.elementBytes) (left * entry.elementBytes)) := by
  have ends : entry.endAddress = entry.address + entry.descriptor.entries.toNat * entry.elementBytes := by
    rw [built.elementBytes]
    exact built.endAddress
  have top := built.top
  induction left generalizing index fuel table with
  | zero =>
      obtain ⟨fuel, rfl⟩ := Nat.exists_eq_add_of_lt enough
      rw [Nat.add_zero] at all
      have here : wrap (entry.address + index * entry.elementBytes) =
          entry.address + index * entry.elementBytes := by
        rw [all, ← ends]
        exact Nat.mod_eq_of_lt top
      rw [Nat.zero_add, placeElements, here, all, ← ends, if_neg (lt_irrefl _), Nat.zero_mul,
        withBytes_zero]
  | succ left ih =>
      obtain ⟨fuel, rfl⟩ := Nat.exists_eq_add_of_lt enough
      have bound : (index + 1) * entry.elementBytes ≤
          entry.descriptor.entries.toNat * entry.elementBytes := Nat.mul_le_mul_right _ (by omega)
      have more : (index + 1) * entry.elementBytes = index * entry.elementBytes + entry.elementBytes := by
        rw [Nat.add_mul, Nat.one_mul]
      have here : wrap (entry.address + index * entry.elementBytes) =
          entry.address + index * entry.elementBytes := Nat.mod_eq_of_lt (by omega)
      have next : wrap (index * entry.elementBytes + entry.elementBytes) =
          (index + 1) * entry.elementBytes := by
        rw [← more]
        exact Nat.mod_eq_of_lt (by omega)
      have bytes := placeBytes_eq top covers position (le_refl (index * entry.elementBytes))
        (by omega) (by omega : entry.address + (index * entry.elementBytes + entry.elementBytes) ≤ _)
      rw [show left + 1 + fuel + 1 = (left + fuel + 1) + 1 by omega, placeElements, here,
        if_pos (by omega), next]
      simp only [memoryAction] at bytes
      simp only [bytes, Option.bind_some]
      rw [ih (covers.withBytes _ _ _) (by omega) (by omega), Nat.add_mul left, Nat.one_mul,
        Nat.add_comm (left * entry.elementBytes), withBytes_append, more]

/-- The table with the actions of all the bytes of a memory. -/
def withMemory (table : ActionTable) (placed : MemoryEntry × Nat) : ActionTable :=
  table.withBytes placed 0 (placed.1.endAddress - placed.1.address)

theorem addMemory_eq (built : entry.Built) (covers : table.Covers entry.range) (position : Nat) :
    table.addMemory (entry, position) = some (table.withMemory (entry, position)) := by
  have ends : entry.endAddress - entry.address =
      entry.descriptor.entries.toNat * entry.elementBytes := by
    rw [built.elementBytes, built.endAddress, Nat.add_sub_cancel_left]
  unfold addMemory withMemory
  simp only [ends]
  by_cases sized : entry.elementBytes = 0
  · rw [if_pos sized, sized, Nat.mul_zero, withBytes_zero]
  · have above := covers.above
    have room := covers.inside
    simp only [MemoryEntry.range] at above room
    have size : entry.descriptor.entries.toNat ≤ entry.descriptor.entries.toNat * entry.elementBytes :=
      Nat.le_mul_of_pos_right _ (Nat.pos_of_ne_zero sized)
    have placed := placeElements_eq built sized covers position
      (Nat.zero_add entry.descriptor.entries.toNat)
      (by omega : entry.descriptor.entries.toNat < table.actions.length + 1)
    rw [Nat.zero_mul] at placed
    rw [if_neg sized, placed]

end OneMemory

/-- The table with the actions of some memories. -/
def withMemories (table : ActionTable) (placed : List (MemoryEntry × Nat)) : ActionTable :=
  { table with
    actions := fill (placed.flatMap fun one =>
      memoryWrites table.tableBase one 0 (one.1.endAddress - one.1.address)) table.actions }

theorem foldlM_addMemory {placed : List (MemoryEntry × Nat)} (built : ∀ one ∈ placed, one.1.Built)
    (covers : ∀ one ∈ placed, table.Covers one.1.range) :
    placed.foldlM addMemory table = some (table.withMemories placed) := by
  induction placed generalizing table with
  | nil => rfl
  | cons one rest ih =>
      rw [List.foldlM_cons, addMemory_eq (built one List.mem_cons_self) (covers one List.mem_cons_self),
        Option.bind_eq_bind, Option.bind_some,
        @ih (table.withMemory one) (fun other member => built other (List.mem_cons_of_mem _ member))
          (fun other member => (covers other (List.mem_cons_of_mem _ member)).withBytes _ _ _)]
      simp only [withMemories, withMemory, withBytes, List.flatMap_cons, fill_append]

end ActionTable

/-! ### The whole table -/

theorem foldl_min_le {start : Nat} {values : List Nat} :
    values.foldl min start ≤ start ∧ ∀ value ∈ values, values.foldl min start ≤ value := by
  induction values generalizing start with
  | nil => simp
  | cons value rest ih =>
      obtain ⟨below, each⟩ := @ih (min start value)
      rw [List.foldl_cons]
      refine ⟨by omega, fun other member => ?_⟩
      rcases List.mem_cons.mp member with rfl | member
      · omega
      · exact each other member

theorem le_foldl_max {start : Nat} {values : List Nat} :
    start ≤ values.foldl max start ∧ ∀ value ∈ values, value ≤ values.foldl max start := by
  induction values generalizing start with
  | nil => simp
  | cons value rest ih =>
      obtain ⟨below, each⟩ := @ih (max start value)
      rw [List.foldl_cons]
      refine ⟨by omega, fun other member => ?_⟩
      rcases List.mem_cons.mp member with rfl | member
      · omega
      · exact each other member

theorem foldl_max_lt {bound start : Nat} {values : List Nat} (first : start < bound)
    (each : ∀ value ∈ values, value < bound) : values.foldl max start < bound := by
  induction values generalizing start with
  | nil => exact first
  | cons value rest ih =>
      rw [List.foldl_cons]
      exact ih (max_lt first (each value List.mem_cons_self))
        fun other member => each other (List.mem_cons_of_mem _ member)

namespace RegisterAccessCoverage

variable {coverage : RegisterAccessCoverage}

/-- The transfers of all registers. -/
def transfers (coverage : RegisterAccessCoverage) : List (RegisterEntry × Nat) :=
  coverage.registers.flatMap (·.transfers)

/-- The block needs a table, and one of the permitted size. -/
def TableFits (coverage : RegisterAccessCoverage) : Prop :=
  ¬(coverage.high ≤ coverage.low ∨ coverage.high - coverage.low > actionTableLimit)

instance (coverage : RegisterAccessCoverage) : Decidable coverage.TableFits :=
  inferInstanceAs (Decidable (¬_))

/-- The table before the first action. -/
def freshTable (coverage : RegisterAccessCoverage) : ActionTable where
  tableBase := coverage.low
  actions := List.replicate (coverage.high - coverage.low) {}

/-- The table with all the actions. -/
def fullTable (coverage : RegisterAccessCoverage) : ActionTable :=
  (coverage.freshTable.withTransfers coverage.transfers).withMemories coverage.memories.zipIdx

theorem low_le_register {entry : RegisterEntry} (member : entry ∈ coverage.registers) :
    coverage.low ≤ entry.address ∧ entry.endAddress ≤ coverage.high :=
  ⟨foldl_min_le.2 _ (List.mem_append_left _ (List.mem_map_of_mem member)),
    le_foldl_max.2 _ (List.mem_append_left _ (List.mem_map_of_mem member))⟩

theorem low_le_memory {entry : MemoryEntry} (member : entry ∈ coverage.memories) :
    coverage.low ≤ entry.address ∧ entry.endAddress ≤ coverage.high :=
  ⟨foldl_min_le.2 _ (List.mem_append_right _ (List.mem_map_of_mem member)),
    le_foldl_max.2 _ (List.mem_append_right _ (List.mem_map_of_mem member))⟩

namespace Entries

theorem high_lt (entries : coverage.Entries) : coverage.high < 2 ^ 64 := by
  refine foldl_max_lt (by decide) fun value member => ?_
  rcases List.mem_append.mp member with member | member
  · obtain ⟨entry, found, rfl⟩ := List.mem_map.mp member
    exact (entries.registers entry found).top
  · obtain ⟨entry, found, rfl⟩ := List.mem_map.mp member
    exact (entries.memories entry found).top

theorem fresh_covers (entries : coverage.Entries) (fits : coverage.TableFits) {range : Nat × Nat}
    (above : coverage.low ≤ range.1) (below : range.2 ≤ coverage.high) :
    coverage.freshTable.Covers range := by
  have top := entries.high_lt
  unfold TableFits actionTableLimit at fits
  exact
    { above := above
      inside := by simp only [freshTable, List.length_replicate]; omega
      limit := by simp only [freshTable, List.length_replicate]; omega
      fits := by simp only [freshTable, List.length_replicate]; omega }

/-- **The table that construction builds.** -/
theorem buildActionTable_eq (entries : coverage.Entries) (fits : coverage.TableFits) :
    coverage.buildActionTable =
      if ∀ entry ∈ coverage.registers, entry.StaysInside then
        some { coverage with table := coverage.fullTable }
      else none := by
  have registers := ActionTable.foldlM_addRegister entries.registers fun entry member =>
    entries.fresh_covers fits (low_le_register member).1 (low_le_register member).2
  have memberOf : ∀ one ∈ coverage.memories.zipIdx, one.1 ∈ coverage.memories := by
    intro one member
    rw [← List.zipIdx_map_fst 0 coverage.memories]
    exact List.mem_map_of_mem member
  have memories := @ActionTable.foldlM_addMemory (coverage.freshTable.withTransfers coverage.transfers)
    coverage.memories.zipIdx (fun one member => entries.memories _ (memberOf one member))
    (fun one member => (entries.fresh_covers fits (low_le_memory (memberOf one member)).1
      (low_le_memory (memberOf one member)).2).withTransfers _)
  unfold buildActionTable
  simp only
  rw [if_neg fits]
  change (coverage.registers.foldlM ActionTable.addRegister coverage.freshTable).bind _ = _
  rw [registers]
  split
  · rw [Option.bind_some]
    change (coverage.memories.zipIdx.foldlM ActionTable.addMemory
      (coverage.freshTable.withTransfers coverage.transfers)).bind _ = _
    rw [memories]
    rfl
  · rfl

/-! ### What the table holds -/

/-- The writes of the registers into the table. -/
def registerPart (coverage : RegisterAccessCoverage) : List (Nat × Action) :=
  registerWrites coverage.low 0 coverage.transfers

/-- The writes of the memories into the table. -/
def memoryPart (coverage : RegisterAccessCoverage) : List (Nat × Action) :=
  coverage.memories.zipIdx.flatMap fun one =>
    memoryWrites coverage.low one 0 (one.1.endAddress - one.1.address)

theorem fullTable_actions (coverage : RegisterAccessCoverage) :
    coverage.fullTable.actions =
      fill (memoryPart coverage)
        (fill (registerPart coverage) (List.replicate (coverage.high - coverage.low) {})) := rfl

theorem fullTable_fieldActions (coverage : RegisterAccessCoverage) :
    coverage.fullTable.fieldActions = coverage.transfers.flatMap ownFieldActions :=
  List.nil_append _

/-- A transfer starts inside its register. -/
theorem mem_transfers {transfer : RegisterEntry × Nat} (member : transfer ∈ coverage.transfers) :
    transfer.1 ∈ coverage.registers ∧ transfer.1.transferBytes ≠ 0 ∧
      transfer.2 < transfer.1.transferCount ∧ Inside (transferAddress transfer) transfer.1.range := by
  obtain ⟨entry, found, inner⟩ := List.mem_flatMap.mp member
  obtain ⟨index, inside, rfl⟩ := List.mem_map.mp inner
  rw [List.mem_range] at inside
  have sized : entry.transferBytes ≠ 0 := by
    intro zero
    rw [RegisterEntry.transferCount, if_pos zero] at inside
    omega
  have := (lt_transferCount_iff sized index).mp inside
  refine ⟨found, sized, inside, ?_⟩
  unfold Inside transferAddress RegisterEntry.range
  simp only
  omega

theorem transfer_mem {entry : RegisterEntry} (member : entry ∈ coverage.registers) {index : Nat}
    (inside : index < entry.transferCount) : (entry, index) ∈ coverage.transfers :=
  List.mem_flatMap.mpr ⟨entry, member, List.mem_map_of_mem (List.mem_range.mpr inside)⟩

/-- No two transfers start at one address. -/
theorem registerPart_nodup (entries : coverage.Entries) :
    ((registerPart coverage).map Prod.fst).Nodup := by
  have separate := (List.pairwise_append.mp entries.apart).1
  rw [List.pairwise_map] at separate
  unfold registerPart transfers
  rw [map_fst_registerWrites, List.map_flatMap]
  have above : ∀ entry ∈ coverage.registers, coverage.low ≤ entry.address :=
    fun entry member => (low_le_register member).1
  refine nodup_keys_flatMap (fun entry member key found => ?_) (fun entry member => ?_)
    (separate.imp fun apart key => @Apart.not_inside _ _ apart (key + coverage.low))
  · obtain ⟨transfer, inner, rfl⟩ := List.mem_map.mp found
    have here := (mem_transfers (List.mem_flatMap.mpr ⟨entry, member, inner⟩)).2.2.2
    obtain ⟨index, -, rfl⟩ := List.mem_map.mp inner
    have := above entry member
    unfold Inside transferAddress RegisterEntry.range at *
    simp only at *
    omega
  · unfold RegisterEntry.transfers
    rw [List.map_map]
    refine List.Nodup.map_on (fun left inLeft right inRight same => ?_) List.nodup_range
    rw [List.mem_range] at inLeft
    have sized : entry.transferBytes ≠ 0 := (mem_transfers (transfer_mem member inLeft)).2.1
    have := above entry member
    simp only [Function.comp, transferAddress] at same
    have equal : left * entry.transferBytes = right * entry.transferBytes := by omega
    exact Nat.eq_of_mul_eq_mul_right (Nat.pos_of_ne_zero sized) equal

theorem mem_memoryPart {key : Nat} (member : key ∈ (memoryPart coverage).map Prod.fst) :
    ∃ entry ∈ coverage.memories, Inside (key + coverage.low) entry.range := by
  obtain ⟨write, inner, rfl⟩ := List.mem_map.mp member
  obtain ⟨one, found, inside⟩ := List.mem_flatMap.mp inner
  obtain ⟨byte, range, rfl⟩ := List.mem_map.mp inside
  have memory : one.1 ∈ coverage.memories := by
    rw [← List.zipIdx_map_fst 0 coverage.memories]
    exact List.mem_map_of_mem found
  have above := (low_le_memory memory).1
  rw [List.mem_range'_1] at range
  refine ⟨one.1, memory, ?_⟩
  unfold Inside MemoryEntry.range
  simp only
  omega

/-- No two bytes of memories have one address. -/
theorem memoryPart_nodup (entries : coverage.Entries) :
    ((memoryPart coverage).map Prod.fst).Nodup := by
  have separate := (List.pairwise_append.mp entries.apart).2.1
  rw [← List.zipIdx_map_fst 0 coverage.memories, List.map_map, List.pairwise_map] at separate
  unfold memoryPart
  rw [List.map_flatMap]
  have above : ∀ one ∈ coverage.memories.zipIdx, coverage.low ≤ one.1.address := by
    intro one member
    refine (low_le_memory ?_).1
    rw [← List.zipIdx_map_fst 0 coverage.memories]
    exact List.mem_map_of_mem member
  refine nodup_keys_flatMap (fun one member key found => ?_) (fun one member => ?_)
    (separate.imp fun apart key => @Apart.not_inside _ _ apart (key + coverage.low))
  · obtain ⟨write, inner, rfl⟩ := List.mem_map.mp found
    obtain ⟨byte, range, rfl⟩ := List.mem_map.mp inner
    have := above one member
    rw [List.mem_range'_1] at range
    unfold Inside MemoryEntry.range
    simp only [Function.comp]
    omega
  · unfold memoryWrites
    rw [List.map_map]
    refine List.Nodup.map_on (fun left inLeft right inRight same => ?_) List.nodup_range'
    have := above one member
    simp only [Function.comp] at same
    omega

/-- A register and a memory have no address in common. -/
theorem register_memory_apart (entries : coverage.Entries) {entry : RegisterEntry}
    (member : entry ∈ coverage.registers) {memory : MemoryEntry} (found : memory ∈ coverage.memories)
    {address : Nat} (inside : Inside address entry.range) : ¬Inside address memory.range :=
  ((List.pairwise_append.mp entries.apart).2.2 _ (List.mem_map_of_mem member) _
    (List.mem_map_of_mem found)).not_inside inside

/-- The action of a transfer selects from the number of field actions before it. -/
theorem action_of_transfer (entries : coverage.Entries) {earlier later : List (RegisterEntry × Nat)}
    {transfer : RegisterEntry × Nat} (position : coverage.transfers = earlier ++ transfer :: later) :
    coverage.fullTable.actions[transferAddress transfer - coverage.low]? =
      some (transferAction (earlier.flatMap ownFieldActions).length transfer) := by
  have member : transfer ∈ coverage.transfers := by
    rw [position]
    exact List.mem_append_right _ List.mem_cons_self
  obtain ⟨register, -, -, inside⟩ := mem_transfers member
  have above := low_le_register register
  have notMemory : transferAddress transfer - coverage.low ∉ (memoryPart coverage).map Prod.fst := by
    intro claimed
    obtain ⟨memory, found, both⟩ := mem_memoryPart claimed
    have same : transferAddress transfer - coverage.low + coverage.low = transferAddress transfer := by
      unfold Inside RegisterEntry.range at inside
      simp only at inside
      omega
    rw [same] at both
    exact register_memory_apart entries register found inside both
  rw [fullTable_actions, getElem?_fill_of_not_mem notMemory]
  refine getElem?_fill_of_mem (registerPart_nodup entries) ?_ ?_
  · unfold registerPart
    rw [position]
    exact mem_registerWrites _ _ _ _
  · unfold Inside RegisterEntry.range at inside
    simp only at inside
    rw [List.length_replicate]
    omega

/-- The action of a byte of a memory. -/
theorem action_of_memory (entries : coverage.Entries) {memory : MemoryEntry} {position : Nat}
    (found : (memory, position) ∈ coverage.memories.zipIdx) {address : Nat}
    (inside : Inside address memory.range) :
    coverage.fullTable.actions[address - coverage.low]? =
      some (memoryAction (memory, position) ((address - memory.address) / memory.elementBytes)) := by
  have member : memory ∈ coverage.memories := by
    rw [← List.zipIdx_map_fst 0 coverage.memories]
    exact List.mem_map_of_mem found
  have bounds := low_le_memory member
  unfold Inside MemoryEntry.range at inside
  simp only at inside
  rw [fullTable_actions]
  refine getElem?_fill_of_mem (memoryPart_nodup entries) ?_ ?_
  · refine List.mem_flatMap.mpr ⟨_, found, List.mem_map.mpr ⟨address - memory.address, ?_, ?_⟩⟩
    · rw [List.mem_range'_1]
      change 0 ≤ address - memory.address ∧
        address - memory.address < 0 + (memory.endAddress - memory.address)
      omega
    · simp only [Prod.mk.injEq, and_true]
      omega
  · rw [length_fill, List.length_replicate]
    omega

/-- The action of an address where nothing starts. -/
theorem action_of_none {address : Nat} (above : coverage.low ≤ address) (below : address < coverage.high)
    (noTransfer : ∀ transfer ∈ coverage.transfers, transferAddress transfer ≠ address)
    (noMemory : ∀ memory ∈ coverage.memories, ¬Inside address memory.range) :
    coverage.fullTable.actions[address - coverage.low]? = some {} := by
  have notMemory : address - coverage.low ∉ (memoryPart coverage).map Prod.fst := by
    intro claimed
    obtain ⟨memory, found, inside⟩ := mem_memoryPart claimed
    rw [Nat.sub_add_cancel above] at inside
    exact noMemory memory found inside
  have notRegister : address - coverage.low ∉ (registerPart coverage).map Prod.fst := by
    unfold registerPart
    rw [map_fst_registerWrites]
    intro claimed
    obtain ⟨transfer, member, same⟩ := List.mem_map.mp claimed
    obtain ⟨register, -, -, inside⟩ := mem_transfers member
    have := (low_le_register register).1
    unfold Inside RegisterEntry.range at inside
    simp only at inside
    exact noTransfer transfer member (by omega)
  rw [fullTable_actions, getElem?_fill_of_not_mem notMemory, getElem?_fill_of_not_mem notRegister,
    List.getElem?_replicate, if_pos (by omega)]

end Entries

end RegisterAccessCoverage

end Cpptb.Vc
