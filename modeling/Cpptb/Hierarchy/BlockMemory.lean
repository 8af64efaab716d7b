/-
**Block accesses to a memory, against accesses element by element.**

* `exportedGetBlock4`, `exportedDepositBlock4`: the exported functions for up to four elements.
* `HierarchyTransport.getSpan`, `HierarchyTransport.depositSpan`: the loops over blocks.
* `Memory.getInto`, `Memory.depositAll`: the calls of a testbench.
* `getSpan_spec`, `depositSpan_spec`: what the blocks move.
* `getInto_iff`, `depositAll_iff`, `blocks_iff`: when a block access is the accesses of its elements.
-/

import Mathlib.Data.List.Range
import Cpptb.Hierarchy.Transport

namespace Cpptb.Hierarchy

/-! ### Memories -/

section Memories

/-- `Memory` and `SelectedMemory`: a signal with one unpacked dimension. They differ only in whether the
signal is fixed at compile time. -/
structure Memory where
  signal : HierarchySignal
  dimension : Dimension
  shape : signal.unpacked = [dimension]

/-- `value_type`: the raw value, or a user's type with `from_transport` and `to_transport`. -/
inductive ValueType (width : ℕ) : Type → Type 1
  | raw : ValueType width (Value width)
  | user {α : Type} (fromTransport : Value width → α) (toTransport : α → Value width) :
      ValueType width α

def ValueType.fromTransport {width : ℕ} {α : Type} : ValueType width α → Value width → α
  | raw => id
  | user fromTransport _ => fromTransport

def ValueType.toTransport {width : ℕ} {α : Type} : ValueType width α → α → Value width
  | raw => id
  | user _ toTransport => toTransport

/-- The signals that have a case in `get_span` or `deposit_span`. -/
def blockSignals (catalog : List HierarchySignal) (operation : Operation) : List HierarchySignal :=
  catalog.filter fun signal =>
    signal.selected operation && signal.unpacked.length = 1 && signal.width ≤ 64

/-- The `static_assert` in every case: one instance of the function is compiled for one width, with the
cases of all signals. -/
def SpanCompiles (catalog : List HierarchySignal) (operation : Operation) (width : ℕ) : Prop :=
  width ≤ 64 → ∀ signal ∈ blockSignals catalog operation, signal.width = width

instance (catalog : List HierarchySignal) (operation : Operation) (width : ℕ) :
    Decidable (SpanCompiles catalog operation width) := by
  unfold SpanCompiles
  infer_instance

end Memories

/-! ### Blocks -/

section Blocks

/-- The bits of an element in a block. -/
def slotWidth (width : ℕ) : ℕ := if width ≤ 32 then 32 else 64

/-- `values[low +: width]`. -/
def slice {payload : ℕ} (values : BitVec payload) (low width : ℕ) : BitVec width :=
  values.extractLsb' low width

/-- `values[low +: width] = element`. -/
def setSlice {payload width : ℕ} (values : BitVec payload) (low : ℕ) (element : BitVec width) :
    BitVec payload :=
  values &&& ~~~((BitVec.allOnes width).setWidth payload <<< low) |||
    (element.setWidth payload <<< low)

/-- The words of a bit vector, as they cross the language boundary. -/
def payloadWords {payload : ℕ} (values : BitVec payload) (word : ℕ) : BitVec 32 :=
  values.extractLsb' (32 * word) 32

def payloadOfWords (payload : ℕ) (words : ℕ → BitVec 32) : BitVec payload :=
  (BitVec.ofBoolListLE ((List.range payload).map fun bit =>
    (words (bit / 32)).getLsbD (bit % 32))).setWidth payload

theorem getLsbD_payloadOfWords {payload bit : ℕ} (words : ℕ → BitVec 32) (inside : bit < payload) :
    (payloadOfWords payload words).getLsbD bit = (words (bit / 32)).getLsbD (bit % 32) := by
  have here : bit < ((List.range payload).map fun bit =>
      (words (bit / 32)).getLsbD (bit % 32)).length := by
    rwa [List.length_map, List.length_range]
  rw [payloadOfWords, BitVec.getLsbD_setWidth, decide_eq_true inside, Bool.true_and,
    BitVec.getLsbD_ofBoolListLE, List.getD_eq_getElem _ _ here, List.getElem_map, List.getElem_range]

variable {World : Type} (signal : HierarchySignal) (simulator : Simulator World signal.width)

/-- `get_block4`. -/
def exportedGetBlock4 (first : ℤ) (count : ℕ) :
    Access World signal.width (BitVec (slotWidth signal.width * 4)) :=
  (List.range count).foldlM (fun values (offset : ℕ) => do
    let element ← signal.element (first + offset)
    return setSlice values (offset * slotWidth signal.width)
      (simulator.read (← MonadState.get).world element)) 0

/-- `deposit_block4`. -/
def exportedDepositBlock4 (first : ℤ) (count : ℕ) (values : BitVec (slotWidth signal.width * 4)) :
    Access World signal.width Unit :=
  (List.range count).forM fun (offset : ℕ) =>
    exportedChange signal (first + offset) fun world element =>
      simulator.write world element (slice values (offset * slotWidth signal.width) signal.width)

/-- An element of a block, from its word or its two words. -/
def valueOfWords (width : ℕ) (words : ℕ → BitVec 32) (word : ℕ) : Value width :=
  if width ≤ 32 then
    (words word).setWidth _
  else
    ((words (word * 2)).setWidth 64 ||| ((words (word * 2 + 1)).setWidth 64 <<< 32)).setWidth _

/-- The words of a block. -/
def wordsOfValues {width : ℕ} (values : List (Value width)) (word : ℕ) : BitVec 32 :=
  if width ≤ 32 then
    (values.getD word 0).setWidth 32
  else if word % 2 = 0 then
    ((values.getD (word / 2) 0).setWidth 64).setWidth 32
  else
    ((values.getD (word / 2) 0).setWidth 64 >>> 32).setWidth 32

/-- The loop of `get_span`. -/
def getBlocks (first : ℤ) (size offset : ℕ) : Access World signal.width (List (Value signal.width)) :=
  if offset < size then do
    let count := min 4 (size - offset)
    let words := payloadWords (← exportedGetBlock4 signal simulator (first + offset) count)
    let values ← getBlocks first size (offset + 4)
    return (List.range count).map (valueOfWords signal.width words) ++ values
  else
    return []
termination_by size - offset

/-- The loop of `deposit_span`, over the values that are left. -/
def depositBlocks (first : ℤ) (values : List (Value signal.width)) (offset : ℕ) :
    Access World signal.width Unit :=
  if offset < values.length then do
    let count := min 4 (values.length - offset)
    let words := wordsOfValues ((values.drop offset).take count)
    exportedDepositBlock4 signal simulator (first + offset) count (payloadOfWords _ words)
    depositBlocks first values (offset + 4)
  else
    return ()
termination_by values.length - offset

/-- `get_span`: there are no cases for signals of more than 64 bits. -/
def HierarchyTransport.getSpan (first : ℤ) (count : ℕ) :
    Access World signal.width (List (Value signal.width)) :=
  if signal.width ≤ 64 then do
    requireSelected signal .get
    getBlocks signal simulator first count 0
  else
    throw .notSelected

/-- `deposit_span`. -/
def HierarchyTransport.depositSpan (first : ℤ) (values : List (Value signal.width)) :
    Access World signal.width Unit :=
  if signal.width ≤ 64 then do
    requireSelected signal .deposit
    depositBlocks signal simulator first values 0
  else
    throw .notSelected

end Blocks

/-! ### Calls -/

section Calls

variable {World : Type} (catalog : List HierarchySignal) (memory : Memory)
  (simulator : Simulator World memory.signal.width)

namespace Memory

/-- The condition of `check_range`. -/
def RangeAvailable (first : ℤ) (count : ℕ) : Prop :=
  memory.dimension.low ≤ first ∧
    count ≤ if first ≤ memory.dimension.high then (memory.dimension.high - first + 1).toNat else 0

instance (first : ℤ) (count : ℕ) : Decidable (memory.RangeAvailable first count) := by
  unfold RangeAvailable
  infer_instance

/-- `check_range`. -/
def checkRange (first : ℤ) (count : ℕ) : Access World memory.signal.width Unit :=
  if memory.RangeAvailable first count then pure () else throw .outOfBounds

/-- A program that is not compiled does nothing. -/
def requireCompiled (operation : Operation) : Access World memory.signal.width Unit :=
  if SpanCompiles catalog operation memory.signal.width then pure () else throw .illFormed

variable {α : Type} (type : ValueType memory.signal.width α)

/-- `Element::get`, with its value type. -/
def elementGet (index : ℤ) : Access World memory.signal.width α := do
  return type.fromTransport (← Element.get memory.signal simulator index)

/-- `Element::deposit`, with its value type. -/
def elementDeposit (index : ℤ) (value : α) : Access World memory.signal.width Unit :=
  Element.deposit memory.signal simulator index (type.toTransport value)

/-- The elements one after the other. -/
def elementsGet (first : ℤ) (count : ℕ) : Access World memory.signal.width (List α) :=
  (List.range count).mapM fun (offset : ℕ) => memory.elementGet simulator type (first + offset)

/-- The element deposits in order. -/
def elementsDeposit (first : ℤ) : List α → Access World memory.signal.width Unit
  | [] => pure ()
  | value :: values => do
    memory.elementDeposit simulator type first value
    elementsDeposit (first + 1) values

/-- `get_into`. The raw value type takes the blocks: the transport always has a `get_span`. -/
def getInto (first : ℤ) (count : ℕ) : Access World memory.signal.width (List α) :=
  match type with
  | .raw => do
    memory.requireCompiled catalog .get
    memory.checkRange first count
    if count = 0 then
      return []
    else do
      requireCallback
      let values ← HierarchyTransport.getSpan memory.signal simulator first count
      return if memory.signal.width ≠ 32 ∧ memory.signal.width ≠ 64 then values.map normalize
        else values
  | type => do
    memory.checkRange first count
    if count = 0 then
      return []
    else do
      requireCallback
      memory.elementsGet simulator type first count

/-- `deposit` of a span. -/
def depositAll (first : ℤ) (values : List α) : Access World memory.signal.width Unit :=
  match α, type with
  | _, .raw => do
    memory.requireCompiled catalog .deposit
    memory.checkRange first values.length
    if values = [] then
      return ()
    else do
      requireWriteCallback
      HierarchyTransport.depositSpan memory.signal simulator first values
  | _, type => do
    memory.checkRange first values.length
    if values.length = 0 then
      return ()
    else do
      requireWriteCallback
      memory.elementsDeposit simulator type first values

end Memory

end Calls

/-! ### What a block moves -/

section Payloads

variable {width : ℕ}

theorem getLsbD_setSlice {payload : ℕ} (values : BitVec payload) (low : ℕ) (element : BitVec width)
    {bit : ℕ} (inside : bit < payload) : (setSlice values low element).getLsbD bit =
      if low ≤ bit ∧ bit < low + width then element.getLsbD (bit - low) else values.getLsbD bit := by
  simp only [setSlice, BitVec.getLsbD_or, BitVec.getLsbD_and, BitVec.getLsbD_not,
    BitVec.getLsbD_shiftLeft, BitVec.getLsbD_setWidth, BitVec.getLsbD_allOnes, inside, decide_true,
    Bool.true_and]
  have shifted : bit - low < payload := by omega
  by_cases here : low ≤ bit
  · have above : ¬bit < low := by omega
    by_cases short : bit < low + width
    · have fits : bit - low < width := by omega
      simp only [here, short, and_self, if_true, above, shifted, fits, decide_true, decide_false,
        Bool.not_false, Bool.true_and, Bool.not_true, Bool.and_false, Bool.false_or]
    · have beyond : ¬bit - low < width := by omega
      simp only [here, short, and_false, if_false, above, shifted, beyond, decide_true, decide_false,
        Bool.not_false, Bool.and_false, Bool.and_true, Bool.or_false,
        BitVec.getLsbD_of_ge element (bit - low) (not_lt.mp beyond)]
  · have below : bit < low := by omega
    simp only [here, false_and, if_false, below, decide_true, Bool.not_true, Bool.false_and,
      Bool.not_false, Bool.and_true, Bool.or_false]

theorem le_slotWidth (narrow : width ≤ 64) : width ≤ slotWidth width := by
  unfold slotWidth
  split <;> omega

/-- The bits of a slot are those from its offset on. -/
theorem slot_iff {slot offset count bit : ℕ} (inside : bit < slot) (fits : width ≤ slot) :
    (count * slot ≤ offset * slot + bit ∧ offset * slot + bit < count * slot + width) ↔
      offset = count ∧ bit < width := by
  constructor
  · rintro ⟨lower, upper⟩
    rcases lt_trichotomy offset count with before | rfl | after
    · have := Nat.mul_le_mul_right slot (Nat.succ_le_of_lt before)
      rw [Nat.succ_mul] at this
      omega
    · exact ⟨rfl, by omega⟩
    · have := Nat.mul_le_mul_right slot (Nat.succ_le_of_lt after)
      rw [Nat.succ_mul] at this
      omega
  · rintro ⟨rfl, short⟩
    omega

/-- A block filled with elements. -/
def blockOf (elements : ℕ → BitVec width) (count : ℕ) : BitVec (slotWidth width * 4) :=
  (List.range count).foldl (fun values offset =>
    setSlice values (offset * slotWidth width) (elements offset)) 0

theorem getLsbD_blockOf (narrow : width ≤ 64) (elements : ℕ → BitVec width) {count offset bit : ℕ}
    (few : offset < 4) (inside : bit < slotWidth width) :
    (blockOf elements count).getLsbD (offset * slotWidth width + bit) =
      (decide (offset < count) && (elements offset).getLsbD bit) := by
  induction count with
  | zero => simp [blockOf]
  | succ count ih =>
    have room : offset * slotWidth width + bit < slotWidth width * 4 := by
      have := Nat.mul_le_mul_right (slotWidth width) (Nat.succ_le_of_lt few)
      rw [Nat.succ_mul] at this
      omega
    rw [blockOf, List.range_succ, List.foldl_append, List.foldl_cons, List.foldl_nil,
      getLsbD_setSlice _ _ _ room]
    simp only [slot_iff inside (le_slotWidth narrow)]
    by_cases last : offset = count
    · subst last
      simp only [true_and, Nat.add_sub_cancel_left, Nat.lt_succ_self, decide_true, Bool.true_and]
      split
      · rfl
      · next beyond =>
        rw [BitVec.getLsbD_of_ge _ bit (not_lt.mp beyond)]
        refine ih.trans ?_
        rw [BitVec.getLsbD_of_ge _ bit (not_lt.mp beyond), Bool.and_false]
    · rw [if_neg (fun both => last both.1)]
      refine ih.trans ?_
      congr 2
      exact propext ⟨fun less => by omega, fun less => by omega⟩

/-- **An element read from a block.** -/
theorem valueOfWords_blockOf (narrow : width ≤ 64) (elements : ℕ → BitVec width) {count offset : ℕ}
    (few : count ≤ 4) (here : offset < count) :
    valueOfWords width (payloadWords (blockOf elements count)) offset =
      (elements offset).setWidth _ := by
  have bits : ∀ bit < slotWidth width, (blockOf elements count).getLsbD
      (offset * slotWidth width + bit) = (elements offset).getLsbD bit := by
    intro bit inside
    rw [getLsbD_blockOf narrow elements (by omega) inside, decide_eq_true here, Bool.true_and]
  refine BitVec.eq_of_getLsbD_eq fun bit inside => ?_
  unfold valueOfWords
  by_cases small : width ≤ 32
  · have slot : slotWidth width = 32 := if_pos small
    have storage : valueBits width = 32 := if_pos small
    rw [storage] at inside
    rw [if_pos small]
    simp only [BitVec.getLsbD_setWidth, payloadWords, BitVec.getLsbD_extractLsb', storage, inside,
      decide_true, Bool.true_and]
    have place : offset * slotWidth width + bit = 32 * offset + bit := by rw [slot, Nat.mul_comm]
    rw [← bits bit (by omega), place]
  · have slot : slotWidth width = 64 := if_neg small
    have storage : valueBits width = 64 := (if_neg small).trans (if_pos narrow)
    rw [storage] at inside
    rw [if_neg small]
    simp only [BitVec.getLsbD_setWidth, payloadWords, BitVec.getLsbD_extractLsb', storage, inside,
      decide_true, Bool.true_and, BitVec.getLsbD_or, BitVec.getLsbD_shiftLeft]
    have place : offset * slotWidth width + bit = offset * 64 + bit := by rw [slot]
    rw [← bits bit (by omega), place]
    by_cases lower : bit < 32
    · simp only [lower, decide_true, Bool.true_and, Bool.not_true, Bool.false_and, Bool.or_false]
      congr 1
      omega
    · have upper : bit - 32 < 32 := by omega
      have within : bit - 32 < 64 := by omega
      simp only [lower, upper, within, decide_false, decide_true, Bool.false_and, Bool.not_false,
        Bool.true_and, Bool.false_or]
      congr 1
      omega

/-- **An element written through a block.** -/
theorem slice_payloadOfWords (narrow : width ≤ 64) (values : List (Value width)) {offset : ℕ}
    (few : offset < 4) :
    slice (payloadOfWords (slotWidth width * 4) (wordsOfValues values)) (offset * slotWidth width)
      width = (values.getD offset 0).setWidth width := by
  refine BitVec.eq_of_getLsbD_eq fun bit inside => ?_
  have room : offset * slotWidth width + bit < slotWidth width * 4 := by
    have fits := le_slotWidth narrow
    have := Nat.mul_le_mul_right (slotWidth width) (Nat.succ_le_of_lt few)
    rw [Nat.succ_mul] at this
    omega
  simp only [slice, BitVec.getLsbD_extractLsb', inside, decide_true, Bool.true_and,
    getLsbD_payloadOfWords _ room, BitVec.getLsbD_setWidth, wordsOfValues]
  by_cases small : width ≤ 32
  · have slot : slotWidth width = 32 := if_pos small
    have bit32 : bit < 32 := by omega
    have word : (offset * slotWidth width + bit) / 32 = offset := by rw [slot]; omega
    have rest : (offset * slotWidth width + bit) % 32 = bit := by rw [slot]; omega
    rw [if_pos small, word, rest, BitVec.getLsbD_setWidth, decide_eq_true bit32, Bool.true_and]
  · have slot : slotWidth width = 64 := if_neg small
    rw [if_neg small]
    by_cases lower : bit < 32
    · have word : (offset * slotWidth width + bit) / 32 = offset * 2 := by rw [slot]; omega
      have rest : (offset * slotWidth width + bit) % 32 = bit := by rw [slot]; omega
      have half : offset * 2 / 2 = offset := by omega
      have bit64 : bit < 64 := by omega
      rw [word, rest, if_pos (by omega), half]
      simp only [BitVec.getLsbD_setWidth, lower, bit64, decide_true, Bool.true_and]
    · have word : (offset * slotWidth width + bit) / 32 = offset * 2 + 1 := by rw [slot]; omega
      have rest : (offset * slotWidth width + bit) % 32 = bit - 32 := by rw [slot]; omega
      have half : (offset * 2 + 1) / 2 = offset := by omega
      have upper : bit - 32 < 32 := by omega
      have bit64 : 32 + (bit - 32) < 64 := by omega
      have whole : 32 + (bit - 32) = bit := by omega
      rw [word, rest, if_neg (by omega), half]
      simp only [BitVec.getLsbD_setWidth, BitVec.getLsbD_ushiftRight, upper, bit64, decide_true,
        Bool.true_and]
      rw [whole]

end Payloads

/-! ### The loops -/

section Loops

variable {World : Type}

section Generic

variable {width : ℕ} {α β : Type} {state : State World width}

theorem foldlM_of_ok {step : β → α → Access World width β} {move : β → α → β} {items : List α}
    (done : ∀ item ∈ items, ∀ value, step value item state = .ok (move value item) state)
    (start : β) : items.foldlM step start state = .ok (items.foldl move start) state := by
  induction items generalizing start with
  | nil => rfl
  | cons item later ih =>
    rw [List.foldlM_cons, bind_of_ok (done item List.mem_cons_self start), List.foldl_cons]
    exact ih (fun item' mem => done item' (List.mem_cons_of_mem _ mem)) _

theorem mapM_of_ok {read : α → Access World width β} {value : α → β} {items : List α}
    (done : ∀ item ∈ items, read item state = .ok (value item) state) :
    items.mapM read state = .ok (items.map value) state := by
  induction items with
  | nil => rfl
  | cons item later ih =>
    rw [List.mapM_cons, bind_of_ok (done item List.mem_cons_self),
      bind_of_ok (ih fun item' mem => done item' (List.mem_cons_of_mem _ mem)), List.map_cons]
    rfl

theorem forM_of_ok {act : α → Access World width Unit} {move : State World width → α → State World width}
    {items : List α} (done : ∀ item ∈ items, ∀ state, act item state = .ok () (move state item))
    (state : State World width) : items.forM act state = .ok () (items.foldl move state) := by
  induction items generalizing state with
  | nil => rfl
  | cons item later ih =>
    refine (bind_of_ok (done item List.mem_cons_self state)).trans ?_
    exact ih (fun item' mem => done item' (List.mem_cons_of_mem _ mem)) _

end Generic

variable {signal : HierarchySignal} {simulator : Simulator World signal.width}
  {state : State World signal.width}

/-- The exported read of a block. -/
theorem exportedGetBlock4_spec {first : ℤ} {count : ℕ}
    (bounds : ∀ offset < count, signal.InBounds (first + (offset : ℕ))) :
    exportedGetBlock4 signal simulator first count state =
      .ok (blockOf (fun offset => simulator.read state.world (first + offset)) count) state := by
  refine foldlM_of_ok (fun offset mem values => ?_) 0
  rw [element_of_inBounds (bounds offset (List.mem_range.mp mem))]
  rfl

/-- **The loop of `get_span`** reads the elements from its offset on. -/
theorem getBlocks_spec (narrow : signal.width ≤ 64) {first : ℤ} {size : ℕ}
    (bounds : ∀ offset < size, signal.InBounds (first + (offset : ℕ))) (offset : ℕ) :
    getBlocks signal simulator first size offset state =
      .ok ((List.range' offset (size - offset)).map fun here =>
        (simulator.read state.world (first + (here : ℕ))).setWidth _) state := by
  fun_induction getBlocks signal simulator first size offset with
  | case1 offset more count ih =>
    have block : exportedGetBlock4 signal simulator (first + offset) count state =
        .ok (blockOf (fun here => simulator.read state.world (first + offset + here)) count) state :=
      exportedGetBlock4_spec fun here less => by
        rw [add_assoc, ← Nat.cast_add]
        exact bounds _ (by omega)
    rw [bind_of_ok block, bind_of_ok ih]
    refine congrArg (EStateM.Result.ok · state) ?_
    -- the block, then what the rest of the loop reads
    have first_part : (List.range count).map (valueOfWords signal.width (payloadWords
        (blockOf (fun here => simulator.read state.world (first + offset + (here : ℕ))) count))) =
        (List.range' offset count).map fun here =>
          (simulator.read state.world (first + (here : ℕ))).setWidth _ := by
      rw [List.range'_eq_map_range, List.map_map]
      refine List.map_congr_left fun here mem => ?_
      rw [valueOfWords_blockOf narrow _ (Nat.min_le_left _ _) (List.mem_range.mp mem),
        Function.comp_apply, Nat.cast_add, add_assoc]
    rw [first_part, ← List.map_append]
    congr 1
    by_cases full : offset + 4 ≤ size
    · have four : count = 4 := by omega
      rw [four, List.range'_append_1]
      congr 1
      omega
    · have none : size - (offset + 4) = 0 := by omega
      have all : count = size - offset := by omega
      rw [none, all, List.range'_zero, List.append_nil]
  | case2 offset done =>
    have none : size - offset = 0 := by omega
    rw [none]
    rfl

/-- Writes of consecutive elements. -/
def writeAll {width : ℕ} (simulator : Simulator World width) (world : World) (first : ℤ) :
    List (BitVec width) → World
  | [] => world
  | element :: later => writeAll simulator (simulator.write world first element) (first + 1) later

theorem writeAll_append {width : ℕ} (simulator : Simulator World width) (world : World) (first : ℤ)
    (elements later : List (BitVec width)) : writeAll simulator world first (elements ++ later) =
      writeAll simulator (writeAll simulator world first elements) (first + elements.length) later := by
  induction elements generalizing world first with
  | nil => rw [List.nil_append, List.length_nil, Nat.cast_zero, add_zero, writeAll]
  | cons element elements ih =>
    rw [List.cons_append, writeAll, writeAll, ih, List.length_cons]
    congr 1
    push_cast
    ring

theorem foldl_write {width : ℕ} (simulator : Simulator World width) (elements : ℕ → BitVec width)
    (world : World) (first : ℤ) (count : ℕ) :
    (List.range count).foldl (fun world (offset : ℕ) =>
        simulator.write world (first + offset) (elements offset)) world =
      writeAll simulator world first ((List.range count).map elements) := by
  induction count with
  | zero => rfl
  | succ count ih =>
    rw [List.range_succ, List.foldl_append, ih, List.map_append, writeAll_append]
    simp only [List.foldl_cons, List.foldl_nil, List.map_cons, List.map_nil, List.length_map,
      List.length_range, writeAll]

/-- A fold that changes the simulation only. -/
theorem foldl_world {width : ℕ} {α : Type} (change : World → α → World) (items : List α)
    (state : State World width) :
    items.foldl (fun state item => { state with world := change state.world item }) state =
      { state with world := items.foldl change state.world } := by
  induction items generalizing state with
  | nil => rfl
  | cons item later ih => exact ih _

/-- The exported write of a block. -/
theorem exportedDepositBlock4_spec (narrow : signal.width ≤ 64) {first : ℤ}
    {values : List (Value signal.width)} (few : values.length ≤ 4)
    (bounds : ∀ offset < values.length, signal.InBounds (first + (offset : ℕ))) :
    exportedDepositBlock4 signal simulator first values.length
        (payloadOfWords _ (wordsOfValues values)) state =
      .ok () { state with
        world := writeAll simulator state.world first (values.map fun value => value.setWidth _) } := by
  refine (forM_of_ok (fun offset mem state => exportedChange_of_inBounds
    (bounds offset (List.mem_range.mp mem)) _) state).trans ?_
  rw [foldl_world (fun world (offset : ℕ) => simulator.write world (first + offset)
    (slice (payloadOfWords _ (wordsOfValues values)) (offset * slotWidth signal.width) signal.width)),
    foldl_write simulator]
  have elements : ((List.range values.length).map fun offset =>
      slice (payloadOfWords (slotWidth signal.width * 4) (wordsOfValues values))
        (offset * slotWidth signal.width) signal.width) =
      values.map fun value => value.setWidth _ := by
    refine List.ext_getElem (by simp) fun offset inside inside' => ?_
    have here : offset < values.length := by simpa using inside'
    rw [List.getElem_map, List.getElem_map, List.getElem_range,
      slice_payloadOfWords narrow values (by omega), List.getD_eq_getElem values 0 here]
  rw [elements]

/-- **The loop of `deposit_span`** writes the values from its offset on. -/
theorem depositBlocks_spec (narrow : signal.width ≤ 64) {first : ℤ}
    {values : List (Value signal.width)}
    (bounds : ∀ offset < values.length, signal.InBounds (first + (offset : ℕ))) (offset : ℕ) :
    depositBlocks signal simulator first values offset state =
      .ok () { state with
        world := writeAll simulator state.world (first + offset)
          ((values.drop offset).map fun value => value.setWidth _) } := by
  fun_induction depositBlocks signal simulator first values offset generalizing state with
  | case1 offset more count words =>
    rename_i ih
    have length : ((values.drop offset).take count).length = count := by
      rw [List.length_take, List.length_drop]
      omega
    have block : exportedDepositBlock4 signal simulator (first + offset) count
        (payloadOfWords _ words) state = .ok () { state with
          world := writeAll simulator state.world (first + offset)
            (((values.drop offset).take count).map fun value => value.setWidth _) } := by
      have spec := @exportedDepositBlock4_spec _ _ simulator state narrow (first + offset)
        ((values.drop offset).take count) (by omega)
        fun here less => by
          rw [add_assoc, ← Nat.cast_add]
          exact bounds _ (by omega)
      rw [length] at spec
      exact spec
    rw [bind_of_ok block, ih]
    refine congrArg (fun world => EStateM.Result.ok () { state with world }) ?_
    dsimp only
    have rest : values.drop (offset + 4) = (values.drop offset).drop count := by
      rw [List.drop_drop]
      by_cases full : offset + 4 ≤ values.length
      · congr 1
        omega
      · rw [List.drop_eq_nil_of_le (by omega), List.drop_eq_nil_of_le (by omega)]
    have place : writeAll simulator (writeAll simulator state.world (first + offset)
          (((values.drop offset).take count).map fun value => value.setWidth _))
          (first + (offset + 4 : ℕ)) ((values.drop (offset + 4)).map fun value => value.setWidth _) =
        writeAll simulator (writeAll simulator state.world (first + offset)
          (((values.drop offset).take count).map fun value => value.setWidth _))
          (first + offset + count) (((values.drop offset).drop count).map fun value =>
            value.setWidth _) := by
      rw [rest]
      by_cases full : offset + 4 ≤ values.length
      · have four : count = 4 := by omega
        rw [four]
        congr 1
        push_cast
        ring
      · have none : (values.drop offset).drop count = [] :=
          List.drop_eq_nil_of_le (by rw [List.length_drop]; omega)
        rw [none]
        rfl
    rw [place]
    conv_rhs => rw [← List.take_append_drop count (values.drop offset), List.map_append,
      writeAll_append, List.length_map, length]
  | case2 offset done =>
    rw [List.drop_eq_nil_of_le (by omega)]
    rfl

end Loops

/-! ### Ranges and callbacks -/

section Ranges

variable {World : Type} {memory : Memory} {simulator : Simulator World memory.signal.width}
  {state : State World memory.signal.width}

/-- The elements of a range are inside the bounds. -/
def Memory.InRange (memory : Memory) (first : ℤ) (count : ℕ) : Prop :=
  memory.dimension.low ≤ first ∧ first + count ≤ memory.dimension.high + 1

theorem Memory.inBounds_iff {index : ℤ} : memory.signal.InBounds index ↔
    memory.dimension.low ≤ index ∧ index ≤ memory.dimension.high := by
  unfold HierarchySignal.InBounds
  rw [memory.shape]

theorem Memory.InRange.inBounds {first : ℤ} {count : ℕ} (inside : memory.InRange first count)
    {offset : ℕ} (here : offset < count) : memory.signal.InBounds (first + offset) := by
  obtain ⟨lower, upper⟩ := inside
  exact Memory.inBounds_iff.mpr ⟨by omega, by omega⟩

/-- `check_range` accepts the ranges inside the bounds, and every empty range above the lower one. -/
theorem Memory.rangeAvailable_iff {first : ℤ} {count : ℕ} : memory.RangeAvailable first count ↔
    memory.dimension.low ≤ first ∧ (0 < count → memory.InRange first count) := by
  unfold Memory.RangeAvailable Memory.InRange
  split
  · constructor
    · rintro ⟨lower, upper⟩
      exact ⟨lower, fun _ => ⟨lower, by omega⟩⟩
    · rintro ⟨lower, inside⟩
      refine ⟨lower, ?_⟩
      rcases Nat.eq_zero_or_pos count with rfl | some
      · exact Nat.zero_le _
      · have := (inside some).2
        omega
  · constructor
    · rintro ⟨lower, upper⟩
      exact ⟨lower, fun some => absurd upper (by omega)⟩
    · rintro ⟨lower, inside⟩
      refine ⟨lower, ?_⟩
      rcases Nat.eq_zero_or_pos count with rfl | some
      · exact Nat.zero_le _
      · have := (inside some).2
        omega

variable {α β : Type}

theorem check_bind_of {width : ℕ} {condition : Prop} [Decidable condition] {failure : Failure}
    (holds : condition) (next : Access World width β) :
    ((if condition then pure () else throw failure : Access World width Unit) >>= fun _ => next) =
      next := by
  rw [if_pos holds]
  rfl

theorem check_bind_of_not {width : ℕ} {condition : Prop} [Decidable condition] {failure : Failure}
    (fails : ¬condition) (next : Access World width β) (state : State World width) :
    ((if condition then pure () else throw failure : Access World width Unit) >>= fun _ => next)
      state = .error failure state := by
  rw [if_neg fails]
  rfl

theorem requireCallback_inside {width : ℕ} {state : State World width}
    (inside : state.callback.scopes ≠ []) (next : Access World width β) :
    (requireCallback >>= fun _ => next) state = next state := by
  simp only [requireCallback, MonadState.get, getThe, MonadStateOf.get, bind, EStateM.bind,
    EStateM.get, if_neg inside, pure, EStateM.pure]

theorem requireCallback_outside {width : ℕ} {state : State World width}
    (outside : state.callback.scopes = []) (next : Access World width β) :
    (requireCallback >>= fun _ => next) state = .error .outsideCallback state := by
  simp only [requireCallback, MonadState.get, getThe, MonadStateOf.get, bind, EStateM.bind,
    EStateM.get, if_pos outside]
  rfl

theorem requireWriteAllowed_of {width : ℕ} {state : State World width}
    (phase : state.callback.phase ≠ .readOnly) (next : Access World width β) :
    (requireWriteAllowed >>= fun _ => next) state = next state := by
  have holds : state.callback.scopes = [] ∨ state.callback.phase ≠ .readOnly := .inr phase
  simp only [requireWriteAllowed, MonadState.get, getThe, MonadStateOf.get, bind, EStateM.bind,
    EStateM.get, if_pos holds, pure, EStateM.pure]

theorem requireWriteAllowed_readOnly {width : ℕ} {state : State World width}
    (inside : state.callback.scopes ≠ []) (phase : state.callback.phase = .readOnly)
    (next : Access World width β) :
    (requireWriteAllowed >>= fun _ => next) state = .error .writeNotAllowed state := by
  have fails : ¬(state.callback.scopes = [] ∨ state.callback.phase ≠ .readOnly) := by
    rintro (outside | other)
    · exact inside outside
    · exact other phase
  simp only [requireWriteAllowed, MonadState.get, getThe, MonadStateOf.get, bind, EStateM.bind,
    EStateM.get, if_neg fails]
  rfl

/-- The callbacks in which a memory can be written. -/
def Callback.Writable (callback : Callback) : Prop :=
  callback.scopes ≠ [] ∧ callback.phase ≠ .readOnly

theorem requireWriteCallback_bind {width : ℕ} (next : Access World width β) :
    (requireWriteCallback >>= fun _ => next) =
      (requireCallback >>= fun _ => requireWriteAllowed >>= fun _ => next) :=
  bind_assoc ..

end Ranges

/-! ### Element by element -/

section Elementwise

variable {World : Type} {memory : Memory} {simulator : Simulator World memory.signal.width}
  {state : State World memory.signal.width} {α : Type} {type : ValueType memory.signal.width α}

/-- The elements of a range, read inside a callback. -/
theorem elementsGet_inside (selected : memory.signal.selected .get = true) {first : ℤ} {count : ℕ}
    (inside : memory.InRange first count) (callback : state.callback.scopes ≠ []) :
    memory.elementsGet simulator type first count state =
      .ok ((List.range count).map fun (offset : ℕ) => type.fromTransport
        (normalize (transportBits memory.signal simulator state (first + offset)))) state := by
  refine mapM_of_ok fun offset mem => ?_
  have read : Element.get memory.signal simulator (first + offset) state =
      .ok (normalize (transportBits memory.signal simulator state (first + offset))) state :=
    (get_ok_iff false).mpr ⟨⟨inside.inBounds (List.mem_range.mp mem), callback, trivial, trivial,
      selected⟩, rfl, rfl⟩
  exact bind_of_ok read

/-- Outside of a callback the first element ends the access. -/
theorem elementsGet_outside {first : ℤ} {count : ℕ} (some : 0 < count)
    (inside : memory.InRange first count) (callback : state.callback.scopes = []) :
    memory.elementsGet simulator type first count state = .error .outsideCallback state := by
  obtain ⟨rest, rfl⟩ := Nat.exists_eq_succ_of_ne_zero some.ne'
  have bounds : memory.signal.InBounds (first + (0 : ℕ)) := inside.inBounds some
  have read : memory.elementGet simulator type (first + (0 : ℕ)) state =
      .error .outsideCallback state := by
    refine bind_of_error ?_
    refine (congrFun (check_bind_of bounds _) state).trans ?_
    exact requireCallback_outside callback _
  rw [Memory.elementsGet, List.range_succ_eq_map, List.mapM_cons]
  exact bind_of_error read

/-- The elements of a range, written inside a callback. -/
theorem elementsDeposit_writable (selected : memory.signal.selected .deposit = true) {values : List α}
    {first : ℤ} (inside : memory.InRange first values.length) (writable : state.callback.Writable) :
    memory.elementsDeposit simulator type first values state =
      .ok () { state with
        world := writeAll simulator state.world first
          (values.map fun value => (type.toTransport value).setWidth _) } := by
  induction values generalizing first state with
  | nil => rfl
  | cons value values ih =>
    have bounds : memory.signal.InBounds (first + (0 : ℕ)) :=
      inside.inBounds (by rw [List.length_cons]; omega)
    rw [Nat.cast_zero, add_zero] at bounds
    have write : memory.elementDeposit simulator type first value state = .ok () _ :=
      (@perform_ok_iff _ _ _ false _ _ (.deposit first _) ()).mpr
        ⟨⟨bounds, writable.1, writable.2, trivial, selected⟩, rfl⟩
    refine (bind_of_ok write).trans ?_
    have later : memory.InRange (first + 1) values.length := by
      obtain ⟨lower, upper⟩ := inside
      rw [List.length_cons] at upper
      exact ⟨by omega, by omega⟩
    have still : (settled memory.signal simulator state
      (.deposit first (type.toTransport value))).callback.Writable := writable
    refine (ih later still).trans ?_
    simp only [settled, setWidth_normalize, List.map_cons, writeAll]

/-- Where nothing can be written the first element ends the access, as the check of a block does. -/
theorem elementsDeposit_not_writable {values : List α} {first : ℤ} (some : values ≠ [])
    (inside : memory.InRange first values.length) (locked : ¬state.callback.Writable)
    (next : Access World memory.signal.width Unit) :
    (requireWriteCallback >>= fun _ => next) state =
      memory.elementsDeposit simulator type first values state := by
  obtain ⟨value, rest, rfl⟩ := List.exists_cons_of_ne_nil some
  have bounds : memory.signal.InBounds (first + (0 : ℕ)) :=
    inside.inBounds (by rw [List.length_cons]; omega)
  rw [Nat.cast_zero, add_zero] at bounds
  rw [requireWriteCallback_bind]
  by_cases callback : state.callback.scopes = []
  · have write : memory.elementDeposit simulator type first value state =
        .error .outsideCallback state := by
      refine (congrFun (check_bind_of bounds _) state).trans ?_
      exact requireCallback_outside callback _
    rw [requireCallback_outside callback]
    exact (bind_of_error write).symm
  · have phase : state.callback.phase = .readOnly := by
      by_contra other
      exact locked ⟨callback, other⟩
    have write : memory.elementDeposit simulator type first value state =
        .error .writeNotAllowed state := by
      refine (congrFun (check_bind_of bounds _) state).trans ?_
      refine (requireCallback_inside callback _).trans ?_
      exact requireWriteAllowed_readOnly callback phase _
    rw [requireCallback_inside callback, requireWriteAllowed_readOnly callback phase]
    exact (bind_of_error write).symm

end Elementwise

/-! ### Blocks and elements -/

section Agreement

variable {World : Type} (catalog : List HierarchySignal) (memory : Memory)
  (simulator : Simulator World memory.signal.width) (state : State World memory.signal.width)
  {α : Type} (type : ValueType memory.signal.width α)

/-- What `get_into` is for: it reads what its elements read, an empty range does nothing, and another
range touches nothing. -/
structure ReadsElements (first : ℤ) (count : ℕ) : Prop where
  empty : count = 0 → memory.getInto catalog simulator type first count state = .ok [] state
  outside : 0 < count → ¬memory.InRange first count →
    memory.getInto catalog simulator type first count state = .error .outOfBounds state
  elements : 0 < count → memory.InRange first count →
    memory.getInto catalog simulator type first count state =
      memory.elementsGet simulator type first count state

/-- What `deposit` of a span is for. -/
structure WritesElements (first : ℤ) (values : List α) : Prop where
  empty : values = [] → memory.depositAll catalog simulator type first values state = .ok () state
  outside : values ≠ [] → ¬memory.InRange first values.length →
    memory.depositAll catalog simulator type first values state = .error .outOfBounds state
  elements : values ≠ [] → memory.InRange first values.length →
    memory.depositAll catalog simulator type first values state =
      memory.elementsDeposit simulator type first values state

/-- The elements of a range whose forced value is remembered are those the simulator shows as forced. -/
def ForcesVisible (first : ℤ) (count : ℕ) : Prop :=
  memory.signal.immediateForceGet = true → ∀ offset < count,
    state.bitCache.hit state.callback.epoch (first + (offset : ℕ)) = true →
      normalize state.bitCache.value =
        (simulator.read state.world (first + offset)).setWidth (valueBits memory.signal.width)

variable {catalog memory simulator state type}

/-- A remembered value matters to the elements only. -/
theorem forcesVisible_iff {first : ℤ} {count : ℕ} :
    ForcesVisible memory simulator state first count ↔ ∀ offset < count,
      normalize (transportBits memory.signal simulator state (first + (offset : ℕ))) =
        (simulator.read state.world (first + offset)).setWidth _ := by
  unfold ForcesVisible transportBits
  constructor
  · intro visible offset here
    split
    · next hit =>
      obtain ⟨cached, hit⟩ := Bool.and_eq_true_iff.mp hit
      exact visible cached offset here hit
    · exact normalize_setWidth _
  · intro same cached offset here hit
    have := same offset here
    rwa [cached, hit, Bool.and_self, if_pos rfl] at this

/-- The check of the range, in front of a block access. -/
theorem checkRange_bind_empty {β : Type} {first : ℤ} {result : β}
    (next : Access World memory.signal.width β) (empty : next state = .ok result state) :
    (memory.checkRange first 0 >>= fun _ => next) state = .ok result state ↔
      memory.dimension.low ≤ first := by
  have available : memory.RangeAvailable first 0 ↔ memory.dimension.low ≤ first := by
    rw [Memory.rangeAvailable_iff]
    exact and_iff_left fun none => absurd none (lt_irrefl 0)
  rw [← available]
  by_cases passes : memory.RangeAvailable first 0
  · exact iff_of_true ((congrFun (check_bind_of passes next) state).trans empty) passes
  · refine iff_of_false (fun done => ?_) passes
    rw [show (memory.checkRange first 0 >>= fun _ => next) state = .error .outOfBounds state from
      check_bind_of_not passes next state] at done
    cases done

theorem checkRange_bind_outside {β : Type} {first : ℤ} {count : ℕ} (some : 0 < count)
    (outside : ¬memory.InRange first count) (next : Access World memory.signal.width β) :
    (memory.checkRange first count >>= fun _ => next) state = .error .outOfBounds state :=
  check_bind_of_not (fun available => outside ((Memory.rangeAvailable_iff.mp available).2 some)) next
    state

theorem checkRange_bind_inside {β : Type} {first : ℤ} {count : ℕ}
    (inside : memory.InRange first count) (next : Access World memory.signal.width β) :
    (memory.checkRange first count >>= fun _ => next) = next :=
  check_bind_of (Memory.rangeAvailable_iff.mpr ⟨inside.1, fun _ => inside⟩) next

/-- What `get_into` does with raw values after its checks. -/
def readRaw (memory : Memory) (simulator : Simulator World memory.signal.width) (first : ℤ)
    (count : ℕ) : Access World memory.signal.width (List (Value memory.signal.width)) :=
  if count = 0 then
    pure []
  else do
    requireCallback
    let values ← HierarchyTransport.getSpan memory.signal simulator first count
    return if memory.signal.width ≠ 32 ∧ memory.signal.width ≠ 64 then values.map normalize
      else values

/-- What `deposit` does with raw values after its checks. -/
def writeRaw (memory : Memory) (simulator : Simulator World memory.signal.width) (first : ℤ)
    (values : List (Value memory.signal.width)) : Access World memory.signal.width Unit :=
  if values = [] then
    pure ()
  else do
    requireWriteCallback
    HierarchyTransport.depositSpan memory.signal simulator first values

theorem getInto_raw {first : ℤ} {count : ℕ}
    (compiles : SpanCompiles catalog .get memory.signal.width) :
    memory.getInto catalog simulator .raw first count =
      (memory.checkRange first count >>= fun _ => readRaw memory simulator first count) :=
  check_bind_of compiles _

theorem getInto_raw_ill_formed {first : ℤ} {count : ℕ}
    (illFormed : ¬SpanCompiles catalog .get memory.signal.width) :
    memory.getInto catalog simulator .raw first count state = .error .illFormed state :=
  check_bind_of_not illFormed _ state

theorem depositAll_raw {first : ℤ} {values : List (Value memory.signal.width)}
    (compiles : SpanCompiles catalog .deposit memory.signal.width) :
    memory.depositAll catalog simulator .raw first values =
      (memory.checkRange first values.length >>= fun _ => writeRaw memory simulator first values) :=
  check_bind_of compiles _

theorem depositAll_raw_ill_formed {first : ℤ} {values : List (Value memory.signal.width)}
    (illFormed : ¬SpanCompiles catalog .deposit memory.signal.width) :
    memory.depositAll catalog simulator .raw first values state = .error .illFormed state :=
  check_bind_of_not illFormed _ state

/-- The block of a range inside a callback: what the simulator shows. -/
theorem readRaw_narrow (selected : memory.signal.selected .get = true)
    (narrow : memory.signal.width ≤ 64) {first : ℤ} {count : ℕ} (some : 0 < count)
    (inside : memory.InRange first count) (callback : state.callback.scopes ≠ []) :
    readRaw memory simulator first count state =
      .ok ((List.range count).map fun (offset : ℕ) =>
        (simulator.read state.world (first + offset)).setWidth _) state := by
  have span : HierarchyTransport.getSpan memory.signal simulator first count state =
      .ok ((List.range count).map fun (offset : ℕ) =>
        (simulator.read state.world (first + offset)).setWidth _) state := by
    unfold HierarchyTransport.getSpan
    rw [if_pos narrow]
    refine requireSelected_bind_ok_iff.mpr ⟨selected, ?_⟩
    have blocks := @getBlocks_spec _ _ simulator state narrow _ _
      (fun offset here => inside.inBounds here) 0
    rw [Nat.sub_zero, ← List.range_eq_range'] at blocks
    exact blocks
  unfold readRaw
  rw [if_neg some.ne', requireCallback_inside callback, bind_of_ok span]
  split
  · rw [List.map_map]
    refine congrArg (EStateM.Result.ok · state) (List.map_congr_left fun offset _ => ?_)
    exact normalize_setWidth _
  · rfl

/-- There are no blocks for wide signals. -/
theorem readRaw_wide (wide : ¬memory.signal.width ≤ 64) {first : ℤ} {count : ℕ} (some : 0 < count)
    (callback : state.callback.scopes ≠ []) :
    readRaw memory simulator first count state = .error .notSelected state := by
  unfold readRaw HierarchyTransport.getSpan
  rw [if_neg some.ne', requireCallback_inside callback, if_neg wide]
  rfl

/-- **A range of raw values, read**: the block is the elements. -/
theorem getInto_raw_iff (selected : memory.signal.selected .get = true) {first : ℤ} {count : ℕ} :
    ReadsElements catalog memory simulator state .raw first count ↔
      SpanCompiles catalog .get memory.signal.width ∧
      (count = 0 → memory.dimension.low ≤ first) ∧
      (0 < count → memory.InRange first count → state.callback.scopes ≠ [] →
        memory.signal.width ≤ 64 ∧ ForcesVisible memory simulator state first count) := by
  by_cases compiles : SpanCompiles catalog .get memory.signal.width
  · rw [and_iff_right compiles]
    constructor
    · intro reads
      refine ⟨fun none => ?_, fun some inside callback => ?_⟩
      · subst none
        have := reads.empty rfl
        rw [getInto_raw compiles] at this
        exact (checkRange_bind_empty _ rfl).mp this
      · have agree := reads.elements some inside
        rw [getInto_raw compiles, checkRange_bind_inside inside,
          elementsGet_inside selected inside callback] at agree
        by_cases narrow : memory.signal.width ≤ 64
        · refine ⟨narrow, forcesVisible_iff.mpr fun offset here => ?_⟩
          rw [readRaw_narrow selected narrow some inside callback] at agree
          have same := (EStateM.Result.ok.inj agree).1
          exact (List.map_inj_left.mp same offset (List.mem_range.mpr here)).symm
        · rw [readRaw_wide narrow some callback] at agree
          cases agree
    · rintro ⟨empty, blocks⟩
      refine ⟨fun none => ?_, fun some outside => ?_, fun some inside => ?_⟩
      · subst none
        rw [getInto_raw compiles]
        exact (checkRange_bind_empty _ rfl).mpr (empty rfl)
      · rw [getInto_raw compiles]
        exact checkRange_bind_outside some outside _
      · rw [getInto_raw compiles, checkRange_bind_inside inside]
        by_cases callback : state.callback.scopes = []
        · rw [elementsGet_outside some inside callback, readRaw, if_neg some.ne',
            requireCallback_outside callback]
        · obtain ⟨narrow, visible⟩ := blocks some inside callback
          rw [readRaw_narrow selected narrow some inside callback,
            elementsGet_inside selected inside callback]
          refine congrArg (EStateM.Result.ok · state) (List.map_congr_left fun offset mem => ?_)
          exact (forcesVisible_iff.mp visible offset (List.mem_range.mp mem)).symm
  · refine iff_of_false (fun reads => ?_) fun all => compiles all.1
    have fails := @getInto_raw_ill_formed _ _ _ simulator state first count compiles
    rcases Nat.eq_zero_or_pos count with none | some
    · cases fails.symm.trans (reads.empty none)
    · by_cases inside : memory.InRange first count
      · have agree := fails.symm.trans (reads.elements some inside)
        by_cases callback : state.callback.scopes = []
        · rw [elementsGet_outside some inside callback] at agree
          cases agree
        · rw [elementsGet_inside selected inside callback] at agree
          cases agree
      · cases fails.symm.trans (reads.outside some inside)

/-- The same for the values of a user's type, which are read one by one. -/
theorem getInto_user_iff {fromTransport : Value memory.signal.width → α}
    {toTransport : α → Value memory.signal.width} {first : ℤ} {count : ℕ} :
    ReadsElements catalog memory simulator state (.user fromTransport toTransport) first count ↔
      (count = 0 → memory.dimension.low ≤ first) := by
  constructor
  · intro reads none
    subst none
    exact (checkRange_bind_empty _ rfl).mp (reads.empty rfl)
  · intro empty
    refine ⟨fun none => ?_, fun some outside => ?_, fun some inside => ?_⟩
    · subst none
      exact (checkRange_bind_empty _ rfl).mpr (empty rfl)
    · exact checkRange_bind_outside some outside _
    · refine (congrFun (checkRange_bind_inside inside _) state).trans ?_
      rw [if_neg some.ne']
      by_cases callback : state.callback.scopes = []
      · rw [elementsGet_outside some inside callback, requireCallback_outside callback]
      · exact requireCallback_inside callback _

/-- The blocks of a range that can be written. -/
theorem writeRaw_narrow (selected : memory.signal.selected .deposit = true)
    (narrow : memory.signal.width ≤ 64) {first : ℤ} {values : List (Value memory.signal.width)}
    (some : values ≠ []) (inside : memory.InRange first values.length)
    (writable : state.callback.Writable) :
    writeRaw memory simulator first values state =
      memory.elementsDeposit simulator .raw first values state := by
  rw [elementsDeposit_writable selected inside writable, writeRaw, if_neg some,
    requireWriteCallback_bind, requireCallback_inside writable.1, requireWriteAllowed_of writable.2,
    HierarchyTransport.depositSpan, if_pos narrow]
  refine requireSelected_bind_ok_iff.mpr ⟨selected, ?_⟩
  have blocks := @depositBlocks_spec _ _ simulator state narrow _ _
    (fun offset here => inside.inBounds here) 0
  rw [List.drop_zero, Nat.cast_zero, add_zero] at blocks
  exact blocks

theorem writeRaw_wide (wide : ¬memory.signal.width ≤ 64) {first : ℤ}
    {values : List (Value memory.signal.width)} (some : values ≠ [])
    (writable : state.callback.Writable) :
    writeRaw memory simulator first values state = .error .notSelected state := by
  rw [writeRaw, if_neg some, requireWriteCallback_bind, requireCallback_inside writable.1,
    requireWriteAllowed_of writable.2, HierarchyTransport.depositSpan, if_neg wide]
  rfl

/-- **A range of raw values, written**: the blocks are the elements. -/
theorem depositAll_raw_iff (selected : memory.signal.selected .deposit = true) {first : ℤ}
    {values : List (Value memory.signal.width)} :
    WritesElements catalog memory simulator state .raw first values ↔
      SpanCompiles catalog .deposit memory.signal.width ∧
      (values = [] → memory.dimension.low ≤ first) ∧
      (values ≠ [] → memory.InRange first values.length → state.callback.Writable →
        memory.signal.width ≤ 64) := by
  by_cases compiles : SpanCompiles catalog .deposit memory.signal.width
  · rw [and_iff_right compiles]
    constructor
    · intro writes
      refine ⟨fun none => ?_, fun some inside writable => ?_⟩
      · subst none
        have := writes.empty rfl
        rw [depositAll_raw compiles] at this
        exact (checkRange_bind_empty _ rfl).mp this
      · by_contra wide
        have agree := writes.elements some inside
        rw [depositAll_raw compiles, checkRange_bind_inside inside,
          elementsDeposit_writable selected inside writable, writeRaw_wide wide some writable] at agree
        cases agree
    · rintro ⟨empty, blocks⟩
      refine ⟨fun none => ?_, fun some outside => ?_, fun some inside => ?_⟩
      · subst none
        rw [depositAll_raw compiles]
        exact (checkRange_bind_empty _ rfl).mpr (empty rfl)
      · rw [depositAll_raw compiles]
        exact checkRange_bind_outside (List.length_pos_iff.mpr some) outside _
      · rw [depositAll_raw compiles, checkRange_bind_inside inside]
        by_cases writable : state.callback.Writable
        · exact writeRaw_narrow selected (blocks some inside writable) some inside writable
        · rw [writeRaw, if_neg some]
          exact elementsDeposit_not_writable some inside writable _
  · refine iff_of_false (fun writes => ?_) fun all => compiles all.1
    have fails := @depositAll_raw_ill_formed _ _ _ simulator state first values compiles
    by_cases none : values = []
    · cases fails.symm.trans (writes.empty none)
    · by_cases inside : memory.InRange first values.length
      · have agree := fails.symm.trans (writes.elements none inside)
        by_cases writable : state.callback.Writable
        · rw [elementsDeposit_writable selected inside writable] at agree
          cases agree
        · rw [← elementsDeposit_not_writable none inside writable (pure ()),
            requireWriteCallback_bind] at agree
          by_cases callback : state.callback.scopes = []
          · rw [requireCallback_outside callback] at agree
            cases agree
          · have phase : state.callback.phase = .readOnly := by
              by_contra other
              exact writable ⟨callback, other⟩
            rw [requireCallback_inside callback, requireWriteAllowed_readOnly callback phase] at agree
            cases agree
      · cases fails.symm.trans (writes.outside none inside)

theorem depositAll_user_iff {fromTransport : Value memory.signal.width → α}
    {toTransport : α → Value memory.signal.width} {first : ℤ} {values : List α} :
    WritesElements catalog memory simulator state (.user fromTransport toTransport) first values ↔
      (values = [] → memory.dimension.low ≤ first) := by
  constructor
  · intro writes none
    subst none
    exact (checkRange_bind_empty _ rfl).mp (writes.empty rfl)
  · intro empty
    refine ⟨fun none => ?_, fun some outside => ?_, fun some inside => ?_⟩
    · subst none
      exact (checkRange_bind_empty _ rfl).mpr (empty rfl)
    · exact checkRange_bind_outside (List.length_pos_iff.mpr some) outside _
    · refine (congrFun (checkRange_bind_inside inside _) state).trans ?_
      rw [if_neg (List.length_pos_iff.mpr some).ne']
      by_cases writable : state.callback.Writable
      · rw [requireWriteCallback_bind, requireCallback_inside writable.1,
          requireWriteAllowed_of writable.2]
      · exact elementsDeposit_not_writable some inside writable _

end Agreement

/-! ### Block accesses -/

section BlockAccesses

variable {World : Type}

/-- **When a block access is the accesses of its elements.** Values of a user's type always are, but for
an empty range below the lower bound, which is an error. Raw values are when, besides, every memory of up
to 64 bits in the access plan has this width, and then for a range inside the bounds when the width is
at most 64 and, for a read, the simulator already shows the remembered value of a forced element. -/
theorem blocks_iff (catalog : List HierarchySignal) (memory : Memory)
    (simulator : Simulator World memory.signal.width) (state : State World memory.signal.width) :
    (memory.signal.selected .get = true → ∀ first count,
      (ReadsElements catalog memory simulator state .raw first count ↔
        SpanCompiles catalog .get memory.signal.width ∧
        (count = 0 → memory.dimension.low ≤ first) ∧
        (0 < count → memory.InRange first count → state.callback.scopes ≠ [] →
          memory.signal.width ≤ 64 ∧ ForcesVisible memory simulator state first count)) ∧
      ∀ (α : Type) (fromTransport : Value memory.signal.width → α)
        (toTransport : α → Value memory.signal.width),
        (ReadsElements catalog memory simulator state (.user fromTransport toTransport) first count ↔
          (count = 0 → memory.dimension.low ≤ first))) ∧
    (memory.signal.selected .deposit = true → ∀ first,
      (∀ values, WritesElements catalog memory simulator state .raw first values ↔
        SpanCompiles catalog .deposit memory.signal.width ∧
        (values = [] → memory.dimension.low ≤ first) ∧
        (values ≠ [] → memory.InRange first values.length → state.callback.Writable →
          memory.signal.width ≤ 64)) ∧
      ∀ (α : Type) (fromTransport : Value memory.signal.width → α)
        (toTransport : α → Value memory.signal.width) (values : List α),
        (WritesElements catalog memory simulator state (.user fromTransport toTransport) first values ↔
          (values = [] → memory.dimension.low ≤ first))) :=
  ⟨fun selected _ _ => ⟨getInto_raw_iff selected, fun _ _ _ => getInto_user_iff⟩,
    fun selected _ => ⟨fun _ => depositAll_raw_iff selected, fun _ _ _ _ => depositAll_user_iff⟩⟩

/-- A memory of a width, with four elements from -2 on and every access. -/
def fourElements (width : ℕ) (positive : 0 < width) : Memory where
  signal := {
    width
    unpacked := [⟨1, -2⟩]
    selected _ := true
    positive }
  dimension := ⟨1, -2⟩
  shape := rfl

/-- A byte memory alone in the access plan, inside a callback without forces: a block read of three
elements. -/
theorem blocks_bytes (simulator : Simulator Unit 8) :
    ReadsElements [(fourElements 8 (by decide)).signal] (fourElements 8 (by decide)) simulator
      { world := (), callback := Callback.enter {} .evaluation } .raw (-2) 3 := by
  refine (((blocks_iff [(fourElements 8 (by decide)).signal] (fourElements 8 (by decide)) simulator
    { world := (), callback := Callback.enter {} .evaluation }).1 rfl (-2) 3).1.mpr
      ⟨by decide, fun none => absurd none (by decide), fun _ _ _ => ⟨by decide, ?_⟩⟩)
  intro _ offset _ hit
  cases hit

/-- A memory of 128 bits: the elements can be read, the block cannot. -/
theorem blocks_wide : ¬∀ simulator : Simulator Unit 128,
    ReadsElements [(fourElements 128 (by decide)).signal] (fourElements 128 (by decide)) simulator
      { world := (), callback := Callback.enter {} .evaluation } .raw (-2) 1 := by
  intro reads
  let simulator : Simulator Unit 128 := ⟨fun _ _ => 5, fun _ _ _ => (), fun _ _ _ => (),
    fun _ _ => (), fun _ _ => ⟨5, 0⟩, fun _ _ _ => (), fun _ _ _ => ()⟩
  have agree := (reads simulator).elements (by decide) ⟨by decide, by decide⟩
  have block : (fourElements 128 (by decide)).getInto [(fourElements 128 (by decide)).signal] simulator
      .raw (-2) 1 { world := (), callback := Callback.enter {} .evaluation } =
      .error .notSelected { world := (), callback := Callback.enter {} .evaluation } := by
    with_unfolding_all rfl
  have elements : (fourElements 128 (by decide)).elementsGet simulator .raw (-2) 1
      { world := (), callback := Callback.enter {} .evaluation } =
      .ok [5] { world := (), callback := Callback.enter {} .evaluation } := by
    with_unfolding_all rfl
  rw [block, elements] at agree
  cases agree

end BlockAccesses

end Cpptb.Hierarchy
