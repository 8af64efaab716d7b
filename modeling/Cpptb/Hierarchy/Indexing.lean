/-
Indexing memories and port arrays of several dimensions.

`MemoryND` and `SelectedMemoryND` fold one index for each dimension into a linear index;
`StaticPackedFixedArray` and `StaticOnDemandFixedArray` fold it into the first word of an element. A
`Dimension` has a constant `high - low + 1`, so that a program in which that overflows is ill-formed.

* `level_eq`, `offset_eq`: one level, in machine arithmetic.
* `Levels.indexed_inside`: all levels, for indices within their bounds.
* `Levels.indexed_outside`: an index outside of its bounds aborts, at any level.
* `tiles_words`: the words of the elements.
* `indexing_bijective`: the elements in row-major order.
-/

import Cpptb.Lib.MixedRadix
import Cpptb.Hierarchy.Transport

namespace Cpptb.Hierarchy.Indexing

/-! ### Machine arithmetic -/

section Arithmetic

/-- Why an index leads to no element: an abort with its message, or arithmetic that is undefined. -/
inductive Failure where
  | aborted (message : String)
  | overflow
  deriving DecidableEq

/-- A result of `int32_t` arithmetic. -/
def int32 (value : ℤ) : Except Failure ℤ :=
  if -2 ^ 31 ≤ value ∧ value < 2 ^ 31 then .ok value else .error .overflow

/-- A conversion to `size_t`. -/
def sizeT (value : ℤ) : ℤ := value % 2 ^ 64

/-- A conversion to `int32_t`. -/
def toInt32 (value : ℤ) : ℤ := Int.bmod value (2 ^ 32)

/-- The steps of a chain of indices, each on what the last one returned. -/
def indexed {σ ρ : Type} (step : σ → ℤ → Except Failure (σ ⊕ ρ)) : σ → List ℤ → Except Failure (σ ⊕ ρ)
  | start, [] => .ok (.inl start)
  | start, index :: indices => do
    match ← step start index with
    | .inl next => indexed step next indices
    | .inr element => .ok (.inr element)

end Arithmetic

/-! ### Memories -/

section Memories

/-- The message of `fail_index` and of `check_index`. -/
def memoryMessage (path : String) (index left right : ℤ) : String :=
  s!"cpptb: hierarchy memory '{path}' index {index} is out of bounds [{left}:{right}]\n"

/-- The check of `MemoryND`. -/
def failIndex (path : String) (dimension : Dimension) (index : ℤ) : Except Failure Unit :=
  if index < dimension.low ∨ index > dimension.high then
    .error (.aborted (memoryMessage path index dimension.left dimension.right))
  else .ok ()

/-- `SelectedMemoryND::check_index`. -/
def checkIndex (path : String) (index left right : ℤ) : Except Failure Unit :=
  let low := if left < right then left else right
  let high := if left < right then right else left
  if index ≥ low ∧ index ≤ high then .ok ()
  else .error (.aborted (memoryMessage path index left right))

/-- The linear index of a `Selection` and one more index. -/
def level (linear : ℤ) (current : Dimension) (index : ℤ) : Except Failure ℤ := do
  let distance ← int32 (index - current.low)
  .ok (toInt32 (sizeT (sizeT (sizeT linear * current.size) + sizeT distance)))

/-- `MemoryND` or `SelectedMemoryND`. -/
structure MemoryND where
  path : String
  dimensions : List Dimension
  several : 1 < dimensions.length

/-- The memory itself, or a `Selection<NextDimension>`. -/
inductive Selection where
  | memory
  | selection (nextDimension : ℕ) (linear : ℤ)

/-- `at` of a memory and of its selections, with the check of its class. -/
def MemoryND.atWith (check : Dimension → ℤ → Except Failure Unit) (memory : MemoryND) :
    Selection → ℤ → Except Failure (Selection ⊕ ℤ)
  | .memory, index =>
    let first := memory.dimensions.getD 0 ⟨0, 0⟩
    do
      check first index
      let linear ← int32 (index - first.low)
      .ok (.inl (.selection 1 linear))
  | .selection nextDimension linear, index =>
    let current := memory.dimensions.getD nextDimension ⟨0, 0⟩
    do
      check current index
      let linear ← level linear current index
      if nextDimension + 1 = memory.dimensions.length then .ok (.inr linear)
      else .ok (.inl (.selection (nextDimension + 1) linear))

/-- `MemoryND::at`, `MemoryND::Selection::at`. -/
def MemoryND.at (memory : MemoryND) : Selection → ℤ → Except Failure (Selection ⊕ ℤ) :=
  memory.atWith (failIndex memory.path)

/-- `SelectedMemoryND::operator[]`, `SelectedMemoryND::Selection::operator[]`. -/
def MemoryND.selectedAt (memory : MemoryND) : Selection → ℤ → Except Failure (Selection ⊕ ℤ) :=
  memory.atWith fun dimension index => checkIndex memory.path index dimension.left dimension.right

end Memories

/-! ### Port arrays -/

section Arrays

/-- `static_array_element_count_v`. -/
def elementCount (dimensions : List Dimension) : ℕ :=
  dimensions.foldr (fun dimension count => dimension.size * count % 2 ^ 64) 1

/-- `element_word_count`. -/
def elementWordCount (elementWidth : ℕ) : ℕ := (elementWidth + 31) % 2 ^ 64 / 32

/-- `word_count`. -/
def wordCount (elementWidth : ℕ) (dimensions : List Dimension) : ℕ :=
  elementCount dimensions * elementWordCount elementWidth % 2 ^ 64

/-- `check_bounds`. -/
def checkBounds (name : String) (dimensionIndex : ℕ) (dimension : Dimension) (index : ℤ) :
    Except Failure Unit :=
  if index ≥ dimension.low ∧ index ≤ dimension.high then .ok ()
  else .error (.aborted (s!"cpptb: unpacked array '{name}' dimension {dimensionIndex + 1} index {index} " ++
    s!"is out of bounds [{dimension.left}:{dimension.right}]\n"))

/-- The first word of the elements of an index, counted from that of the array. -/
def offset (elementWidth : ℕ) (dimension : Dimension) (remaining : List Dimension) (index : ℤ) :
    Except Failure UInt32 := do
  let distance ← int32 (index - dimension.low)
  let strideWords := UInt32.ofNat (elementWordCount elementWidth * elementCount remaining % 2 ^ 64)
  .ok (UInt32.ofInt distance * strideWords)

/-- `StaticPackedFixedArray`. -/
structure StaticPackedFixedArray where
  elementWidth : ℕ
  baseId : UInt32
  baseTransportOffset : UInt32
  dimensionIndex : ℕ
  dimension : Dimension
  remainingDimensions : List Dimension
  name : String
  idOffset : UInt32
  transportOffsetDelta : UInt32

/-- `StaticPackedRef`, its first word. -/
structure PackedElement where
  id : UInt32
  transportOffset : UInt32

/-- `StaticPackedFixedArray::at`. -/
def StaticPackedFixedArray.at (array : StaticPackedFixedArray) (index : ℤ) :
    Except Failure (StaticPackedFixedArray ⊕ PackedElement) := do
  checkBounds array.name array.dimensionIndex array.dimension index
  let offset ← offset array.elementWidth array.dimension array.remainingDimensions index
  match array.remainingDimensions with
  | next :: others =>
    .ok (.inl { array with
      dimensionIndex := array.dimensionIndex + 1
      dimension := next
      remainingDimensions := others
      idOffset := array.idOffset + offset
      transportOffsetDelta := array.transportOffsetDelta + offset })
  | [] => .ok (.inr ⟨array.baseId + array.idOffset + offset,
      array.baseTransportOffset + array.transportOffsetDelta + offset⟩)

/-- `StaticOnDemandFixedArray`. -/
structure StaticOnDemandFixedArray where
  elementWidth : ℕ
  baseId : UInt32
  dimensionIndex : ℕ
  dimension : Dimension
  remainingDimensions : List Dimension
  name : String
  idOffset : UInt32
  wordOffsetDelta : UInt32

/-- `StaticOnDemandRef`, its first word. -/
structure OnDemandElement where
  id : UInt32
  wordOffset : UInt32

/-- `StaticOnDemandFixedArray::at`. -/
def StaticOnDemandFixedArray.at (array : StaticOnDemandFixedArray) (index : ℤ) :
    Except Failure (StaticOnDemandFixedArray ⊕ OnDemandElement) := do
  checkBounds array.name array.dimensionIndex array.dimension index
  let offset ← offset array.elementWidth array.dimension array.remainingDimensions index
  match array.remainingDimensions with
  | next :: others =>
    .ok (.inl { array with
      dimensionIndex := array.dimensionIndex + 1
      dimension := next
      remainingDimensions := others
      idOffset := array.idOffset + offset
      wordOffsetDelta := array.wordOffsetDelta + offset })
  | [] => .ok (.inr ⟨array.baseId + array.idOffset + offset, array.wordOffsetDelta + offset⟩)

end Arrays

/-! ### All levels -/

section Levels

variable {σ ρ : Type} {step : σ → ℤ → Except Failure (σ ⊕ ρ)}

/-- An index within the bounds of its dimension. -/
def Within (index : ℤ) (dimension : Dimension) : Prop := dimension.low ≤ index ∧ index ≤ dimension.high

/-- The number of elements. -/
def total (dimensions : List Dimension) : ℕ := (dimensions.map Dimension.size).prod

/-- The position of indices in row-major order, by their distances from the low bounds. -/
def position (dimensions : List Dimension) (indices : List ℤ) : ℕ :=
  MixedRadix.rank (dimensions.map Dimension.size)
    (List.zipWith (fun dimension index => (index - dimension.low).toNat) dimensions indices)

/-- All indices within bounds, the first varying slowest, each from its low bound on. -/
def rowMajor (dimensions : List Dimension) : List (List ℤ) :=
  MixedRadix.tuples (dimensions.map fun dimension =>
    (List.range dimension.size).map fun distance : ℕ => dimension.low + (distance : ℤ))

/-- Steps that fold one index after the other: `At dimensions linear state` says which dimensions a state
has yet to come, and the linear index of what it has seen. -/
structure Levels (step : σ → ℤ → Except Failure (σ ⊕ ρ)) (At : List Dimension → ℕ → σ → Prop)
    (element : ℕ → ρ) : Prop where
  last : ∀ {dimension linear state index}, At [dimension] linear state → Within index dimension →
    step state index = .ok (.inr (element (linear * dimension.size + (index - dimension.low).toNat)))
  inner : ∀ {dimension next rest linear state index}, At (dimension :: next :: rest) linear state →
    Within index dimension → ∃ state', step state index = .ok (.inl state') ∧
      At (next :: rest) (linear * dimension.size + (index - dimension.low).toNat) state'
  outside : ∀ {dimension rest linear state index}, At (dimension :: rest) linear state →
    ¬Within index dimension → ∃ message, step state index = .error (.aborted message)

theorem size_pos (dimension : Dimension) : 0 < dimension.size := by
  unfold Dimension.size Dimension.low Dimension.high
  split_ifs <;> omega

theorem distance_lt {index : ℤ} {dimension : Dimension} (within : Within index dimension) :
    (index - dimension.low).toNat < dimension.size := by
  have := within.1
  have := within.2
  unfold Dimension.size
  omega

theorem position_cons {dimension : Dimension} {rest : List Dimension} {index : ℤ} {indices : List ℤ}
    (same : indices.length = rest.length) : position (dimension :: rest) (index :: indices) =
      (index - dimension.low).toNat * total rest + position rest indices := by
  unfold position total
  rw [List.map_cons, List.zipWith_cons_cons, MixedRadix.rank_cons]
  rw [List.length_zipWith, List.length_map, same, min_self]

theorem mem_rowMajor {dimensions : List Dimension} {indices : List ℤ} :
    indices ∈ rowMajor dimensions ↔ List.Forall₂ Within indices dimensions := by
  unfold rowMajor
  rw [MixedRadix.mem_tuples, List.forall₂_map_right_iff]
  refine ⟨fun all => all.imp fun index dimension mem => ?_, fun all => all.imp fun index dimension within => ?_⟩
  · obtain ⟨distance, inside, rfl⟩ := List.mem_map.mp mem
    have := List.mem_range.mp inside
    unfold Dimension.size at this
    exact ⟨by omega, by omega⟩
  · refine List.mem_map.mpr ⟨_, List.mem_range.mpr (distance_lt within), ?_⟩
    have := within.1
    omega

/-- **The positions of the indices, in row-major order.** -/
theorem map_position (dimensions : List Dimension) :
    (rowMajor dimensions).map (position dimensions) = List.range (total dimensions) := by
  induction dimensions with
  | nil => rfl
  | cons dimension rest ih =>
    rw [rowMajor, List.map_cons, MixedRadix.tuples, List.map_flatMap, List.flatMap_map, total, List.map_cons,
      List.prod_cons, ← MixedRadix.flatMap_range]
    refine List.flatMap_congr fun distance _ => ?_
    rw [show (rest.map Dimension.size).prod = total rest from rfl, ← ih, List.map_map, List.map_map]
    refine List.map_congr_left fun indices mem => ?_
    have same := (mem_rowMajor.mp mem).length_eq
    rw [Function.comp_apply, Function.comp_apply, position_cons same, add_sub_cancel_left, Int.toNat_natCast]

/-- **Indices within their bounds lead to the element of their position.** -/
theorem Levels.indexed_inside {At : List Dimension → ℕ → σ → Prop} {element : ℕ → ρ}
    (levels : Levels step At element) {dimensions : List Dimension} {linear : ℕ} {state : σ}
    (start : At dimensions linear state) (some : dimensions ≠ []) {indices : List ℤ}
    (within : List.Forall₂ Within indices dimensions) :
    indexed step state indices = .ok (.inr (element (linear * total dimensions + position dimensions indices))) := by
  induction within generalizing linear state with
  | nil => exact absurd rfl some
  | @cons index dimension indices rest here others ih =>
    rw [position_cons others.length_eq, total, List.map_cons, List.prod_cons]
    cases others with
    | nil =>
      rw [indexed, levels.last start here]
      refine congrArg (fun linear => Except.ok (Sum.inr (element linear))) ?_
      unfold total position
      simp [MixedRadix.rank]
    | @cons _ next _ rest _ _ =>
      obtain ⟨state', moved, start'⟩ := levels.inner start here
      rw [indexed, moved]
      refine (ih start' (List.cons_ne_nil _ _)).trans ?_
      refine congrArg (fun linear => Except.ok (Sum.inr (element linear))) ?_
      unfold total
      ring

/-- **An index outside of its bounds aborts**, at any level. -/
theorem Levels.indexed_outside {At : List Dimension → ℕ → σ → Prop} {element : ℕ → ρ}
    (levels : Levels step At element) {before after : List ℤ} {dimensions rest : List Dimension}
    {dimension : Dimension} {linear : ℕ} {state : σ} (start : At (dimensions ++ dimension :: rest) linear state)
    (within : List.Forall₂ Within before dimensions) {index : ℤ} (outside : ¬Within index dimension) :
    ∃ message, indexed step state (before ++ index :: after) = .error (.aborted message) := by
  induction within generalizing linear state with
  | nil =>
    obtain ⟨message, aborts⟩ := levels.outside start outside
    exact ⟨message, by rw [List.nil_append, indexed, aborts]; rfl⟩
  | @cons first dimension' before dimensions here others ih =>
    obtain ⟨next, rest', same⟩ : ∃ next rest', dimensions ++ dimension :: rest = next :: rest' :=
      List.exists_cons_of_ne_nil (by simp)
    rw [List.cons_append, same] at start
    obtain ⟨state', moved, start'⟩ := levels.inner start here
    rw [← same] at start'
    obtain ⟨message, aborts⟩ := ih start'
    exact ⟨message, by rw [List.cons_append, indexed, moved]; exact aborts⟩

/-- The elements in row-major order. -/
theorem Levels.map_rowMajor {At : List Dimension → ℕ → σ → Prop} {element : ℕ → ρ}
    (levels : Levels step At element) {dimensions : List Dimension} {state : σ}
    (start : At dimensions 0 state) (some : dimensions ≠ []) :
    (rowMajor dimensions).map (indexed step state) =
      (List.range (total dimensions)).map fun linear => .ok (.inr (element linear)) := by
  rw [← map_position, List.map_map]
  refine List.map_congr_left fun indices mem => ?_
  rw [levels.indexed_inside start some (mem_rowMajor.mp mem), Nat.zero_mul, Nat.zero_add]
  rfl

end Levels

/-! ### Memories -/

section MemoryLevels

theorem int32_distance {index : ℤ} {dimension : Dimension} (within : Within index dimension)
    (small : dimension.size < 2 ^ 31) : int32 (index - dimension.low) = .ok (index - dimension.low) := by
  have := distance_lt within
  have := within.1
  exact if_pos ⟨by omega, by omega⟩

theorem toInt32_of_lt {value : ℤ} (positive : 0 ≤ value) (small : value < 2 ^ 31) : toInt32 value = value := by
  unfold toInt32
  rw [Int.bmod_eq_of_le] <;> omega

theorem sizeT_of_lt {value : ℤ} (positive : 0 ≤ value) (small : value < 2 ^ 31) : sizeT value = value :=
  Int.emod_eq_of_lt positive (by omega)

/-- One level, where the linear index does not leave `int32_t`. -/
theorem level_eq {linear : ℕ} {dimension : Dimension} {index : ℤ} (within : Within index dimension)
    (fits : (linear + 1) * dimension.size < 2 ^ 31) :
    level linear dimension index =
      .ok ((linear * dimension.size + (index - dimension.low).toNat : ℕ) : ℤ) := by
  have distance := distance_lt within
  have low := within.1
  have grown : linear * dimension.size + dimension.size < 2 ^ 31 := by rwa [Nat.succ_mul] at fits
  have start : linear < 2 ^ 31 := by
    have := Nat.le_mul_of_pos_right linear (size_pos dimension)
    omega
  have product : ((linear : ℤ) * dimension.size) = ((linear * dimension.size : ℕ) : ℤ) := (Nat.cast_mul _ _).symm
  have distance : sizeT (index - dimension.low) = index - dimension.low := sizeT_of_lt (by omega) (by omega)
  rw [level, int32_distance within (by omega)]
  show Except.ok _ = _
  rw [sizeT_of_lt (Int.natCast_nonneg linear) (by omega), product,
    sizeT_of_lt (Int.natCast_nonneg _) (by omega), distance,
    sizeT_of_lt (by omega) (by omega), toInt32_of_lt (by omega) (by omega)]
  congr 1
  omega

/-- The state of a memory before its next dimension. -/
def MemoryAt (memory : MemoryND) (dimensions : List Dimension) (linear : ℕ) (state : Selection) : Prop :=
  (linear + 1) * total dimensions < 2 ^ 31 ∧
    ((state = .memory ∧ linear = 0 ∧ dimensions = memory.dimensions) ∨
      ∃ next, state = .selection next linear ∧ 0 < next ∧ memory.dimensions.drop next = dimensions)

/-- A check lets through what is within bounds. -/
structure Checks (check : Dimension → ℤ → Except Failure Unit) : Prop where
  within : ∀ {index dimension}, Within index dimension → check dimension index = .ok ()
  outside : ∀ {index dimension}, ¬Within index dimension →
    ∃ message, check dimension index = .error (.aborted message)

theorem checks_failIndex (path : String) : Checks (failIndex path) where
  within inside := if_neg fun either => either.elim (not_lt.mpr inside.1) (not_lt.mpr inside.2)
  outside outside := ⟨_, if_pos (by unfold Within at outside; omega)⟩

theorem checks_checkIndex (path : String) :
    Checks fun dimension index => checkIndex path index dimension.left dimension.right where
  within inside := if_pos inside
  outside outside := ⟨_, if_neg outside⟩

theorem total_cons (dimension : Dimension) (rest : List Dimension) :
    total (dimension :: rest) = dimension.size * total rest := List.prod_cons

theorem total_pos (dimensions : List Dimension) : 0 < total dimensions := by
  unfold total
  refine List.prod_pos fun size mem => ?_
  obtain ⟨dimension, -, rfl⟩ := List.mem_map.mp mem
  exact size_pos dimension

/-- The bound on the elements, one level further. -/
theorem bound_level {linear : ℕ} {index : ℤ} {dimension : Dimension} {rest : List Dimension}
    (within : Within index dimension) (fits : (linear + 1) * total (dimension :: rest) < 2 ^ 31) :
    (linear * dimension.size + (index - dimension.low).toNat + 1) * total rest < 2 ^ 31 := by
  refine lt_of_le_of_lt ?_ fits
  rw [total_cons, ← Nat.mul_assoc, Nat.succ_mul linear]
  exact Nat.mul_le_mul_right _ (Nat.add_lt_add_left (distance_lt within) _)

/-- What is dropped up to an item. -/
theorem drop_cons {α : Type} {items rest : List α} {item : α} {n : ℕ} (left : items.drop n = item :: rest) :
    items[n]? = some item ∧ items.drop (n + 1) = rest ∧ items.length = n + 1 + rest.length := by
  have sizes := congrArg List.length left
  rw [List.length_drop, List.length_cons] at sizes
  refine ⟨?_, ?_, by omega⟩
  · rw [← List.head?_drop, left, List.head?_cons]
  · rw [← List.tail_drop, left, List.tail_cons]

theorem levels_memory (memory : MemoryND) {check : Dimension → ℤ → Except Failure Unit}
    (checks : Checks check) : Levels (memory.atWith check) (MemoryAt memory) (Nat.cast : ℕ → ℤ) := by
  have several := memory.several
  have fits' : ∀ {linear dimension rest}, (linear + 1) * total (dimension :: rest) < 2 ^ 31 →
      (linear + 1) * dimension.size < 2 ^ 31 := fun {linear dimension rest} fits => by
    rw [total_cons] at fits
    exact lt_of_le_of_lt (Nat.mul_le_mul_left _ (Nat.le_mul_of_pos_right _ (total_pos rest))) fits
  refine ⟨?_, ?_, ?_⟩
  · rintro dimension linear state index ⟨fits, ⟨rfl, rfl, alone⟩ | ⟨next, rfl, -, left⟩⟩ within
    · rw [← alone] at several
      exact absurd several (by simp)
    · obtain ⟨here, -, sizes⟩ := drop_cons left
      rw [MemoryND.atWith, List.getD_eq_getElem?_getD, here, Option.getD_some, checks.within within, level_eq within (fits' fits)]
      exact if_pos sizes.symm
  · rintro dimension next rest linear state index ⟨fits, ⟨rfl, rfl, whole⟩ | ⟨level, rfl, -, left⟩⟩ within
    · have first : memory.dimensions.getD 0 ⟨0, 0⟩ = dimension := by rw [← whole]; rfl
      have small : dimension.size < 2 ^ 31 := by
        have := fits' fits
        omega
      refine ⟨.selection 1 (index - dimension.low), ?_, ?_, .inr ⟨1, ?_, Nat.one_pos, by rw [← whole]; rfl⟩⟩
      · rw [MemoryND.atWith, first]
        rw [checks.within within, int32_distance within small]
        rfl
      · exact bound_level within fits
      · have := within.1
        refine congrArg (Selection.selection 1) ?_
        omega
    · obtain ⟨here, later, sizes⟩ := drop_cons left
      have inner : ¬level + 1 = memory.dimensions.length := by
        rw [sizes, List.length_cons]
        omega
      refine ⟨_, ?_, bound_level within fits, .inr ⟨level + 1, rfl, Nat.succ_pos _, later⟩⟩
      rw [MemoryND.atWith, List.getD_eq_getElem?_getD, here, Option.getD_some, checks.within within, level_eq within (fits' fits)]
      exact if_neg inner
  · rintro dimension rest linear state index ⟨-, ⟨rfl, -, whole⟩ | ⟨next, rfl, -, left⟩⟩ outside
    · have first : memory.dimensions.getD 0 ⟨0, 0⟩ = dimension := by rw [← whole]; rfl
      obtain ⟨message, aborts⟩ := checks.outside outside
      exact ⟨message, by rw [MemoryND.atWith, first, aborts]; rfl⟩
    · obtain ⟨here, -, -⟩ := drop_cons left
      obtain ⟨message, aborts⟩ := checks.outside outside
      exact ⟨message, by
        rw [MemoryND.atWith, List.getD_eq_getElem?_getD, here, Option.getD_some, aborts]; rfl⟩

end MemoryLevels

/-! ### Port arrays -/

section ArrayLevels

theorem elementCount_eq {dimensions : List Dimension} (few : total dimensions < 2 ^ 31) :
    elementCount dimensions = total dimensions := by
  induction dimensions with
  | nil => rfl
  | cons dimension rest ih =>
    have smaller : total rest ≤ total (dimension :: rest) := by
      rw [total_cons]
      exact Nat.le_mul_of_pos_left _ (size_pos dimension)
    have inner := ih (by omega)
    unfold elementCount at inner ⊢
    rw [List.foldr_cons, inner, ← total_cons, Nat.mod_eq_of_lt (by omega)]

theorem checkBounds_within {name : String} {dimensionIndex : ℕ} {dimension : Dimension} {index : ℤ}
    (within : Within index dimension) : checkBounds name dimensionIndex dimension index = .ok () :=
  if_pos within

theorem checkBounds_outside {name : String} {dimensionIndex : ℕ} {dimension : Dimension} {index : ℤ}
    (outside : ¬Within index dimension) :
    ∃ message, checkBounds name dimensionIndex dimension index = .error (.aborted message) :=
  ⟨_, if_neg outside⟩

theorem ofNat_mod_two_pow (value : ℕ) : UInt32.ofNat (value % 2 ^ 64) = UInt32.ofNat value := by
  apply UInt32.toNat_inj.mp
  rw [UInt32.toNat_ofNat', UInt32.toNat_ofNat']
  exact Nat.mod_mod_of_dvd value (by decide)

/-- The words before the elements of an index. -/
theorem offset_eq {elementWidth : ℕ} {dimension : Dimension} {remaining : List Dimension} {index : ℤ}
    (within : Within index dimension) (few : total (dimension :: remaining) < 2 ^ 31) :
    offset elementWidth dimension remaining index = .ok (UInt32.ofNat
      ((index - dimension.low).toNat * total remaining * elementWordCount elementWidth)) := by
  have both := total_cons dimension remaining
  have size := Nat.le_mul_of_pos_right dimension.size (total_pos remaining)
  have inner := Nat.le_mul_of_pos_left (total remaining) (size_pos dimension)
  have distance : UInt32.ofInt (index - dimension.low) = UInt32.ofNat (index - dimension.low).toNat := by
    have := within.1
    obtain ⟨value, same⟩ := Int.eq_ofNat_of_zero_le (show 0 ≤ index - dimension.low by omega)
    have wrapped : ((value : ℤ) % 2 ^ 32).toNat = value % 2 ^ 32 := by omega
    apply UInt32.toNat_inj.mp
    rw [same, Int.toNat_natCast, UInt32.ofInt, wrapped, UInt32.toNat_ofNat', UInt32.toNat_ofNat', Nat.mod_mod]
  rw [offset, int32_distance within (by omega), elementCount_eq (by omega)]
  refine congrArg Except.ok ?_
  rw [distance, ofNat_mod_two_pow, ← UInt32.ofNat_mul]
  congr 1
  ring

/-- The words of a position among the dimensions that are left. -/
theorem words_level {linear distance size words : ℕ} {rest : ℕ} :
    UInt32.ofNat (linear * (size * rest) * words) + UInt32.ofNat (distance * rest * words) =
      UInt32.ofNat ((linear * size + distance) * rest * words) := by
  rw [← UInt32.ofNat_add]
  congr 1
  ring

/-- An array while it is indexed. -/
def PackedAt (whole : StaticPackedFixedArray) :
    List Dimension → ℕ → StaticPackedFixedArray → Prop
  | [], _, _ => False
  | dimension :: remaining, linear, array =>
    (linear + 1) * total (dimension :: remaining) < 2 ^ 31 ∧ ∃ number, array = { whole with
      dimensionIndex := number
      dimension := dimension
      remainingDimensions := remaining
      idOffset :=
        .ofNat (linear * total (dimension :: remaining) * elementWordCount whole.elementWidth)
      transportOffsetDelta :=
        .ofNat (linear * total (dimension :: remaining) * elementWordCount whole.elementWidth) }

theorem total_lt {linear : ℕ} {dimensions : List Dimension} (fits : (linear + 1) * total dimensions < 2 ^ 31) :
    total dimensions < 2 ^ 31 := lt_of_le_of_lt (Nat.le_mul_of_pos_left _ (Nat.succ_pos _)) fits

theorem levels_packed (whole : StaticPackedFixedArray) :
    Levels StaticPackedFixedArray.at (PackedAt whole) fun linear =>
      ⟨whole.baseId + UInt32.ofNat (linear * elementWordCount whole.elementWidth),
        whole.baseTransportOffset + UInt32.ofNat (linear * elementWordCount whole.elementWidth)⟩ := by
  refine ⟨?_, ?_, ?_⟩
  · rintro dimension linear array index ⟨fits, number, rfl⟩ within
    rw [StaticPackedFixedArray.at]
    dsimp only
    rw [checkBounds_within within, offset_eq within (total_lt fits)]
    refine congrArg (fun element => Except.ok (Sum.inr element)) ?_
    rw [total_cons, PackedElement.mk.injEq, UInt32.add_assoc, UInt32.add_assoc, words_level]
    simp [total]
  · rintro dimension next rest linear array index ⟨fits, number, rfl⟩ within
    refine ⟨_, ?_, bound_level within fits, number + 1, rfl⟩
    rw [StaticPackedFixedArray.at]
    dsimp only
    rw [checkBounds_within within, offset_eq within (total_lt fits), ← words_level, ← total_cons]
    rfl
  · rintro dimension rest linear array index ⟨-, number, rfl⟩ outside
    obtain ⟨message, aborts⟩ := checkBounds_outside outside
    exact ⟨message, by rw [StaticPackedFixedArray.at, aborts]; rfl⟩

/-- An on-demand array while it is indexed. -/
def OnDemandAt (whole : StaticOnDemandFixedArray) :
    List Dimension → ℕ → StaticOnDemandFixedArray → Prop
  | [], _, _ => False
  | dimension :: remaining, linear, array =>
    (linear + 1) * total (dimension :: remaining) < 2 ^ 31 ∧ ∃ number, array = { whole with
      dimensionIndex := number
      dimension := dimension
      remainingDimensions := remaining
      idOffset :=
        .ofNat (linear * total (dimension :: remaining) * elementWordCount whole.elementWidth)
      wordOffsetDelta :=
        .ofNat (linear * total (dimension :: remaining) * elementWordCount whole.elementWidth) }

theorem levels_onDemand (whole : StaticOnDemandFixedArray) :
    Levels StaticOnDemandFixedArray.at (OnDemandAt whole) fun linear =>
      ⟨whole.baseId + UInt32.ofNat (linear * elementWordCount whole.elementWidth),
        UInt32.ofNat (linear * elementWordCount whole.elementWidth)⟩ := by
  refine ⟨?_, ?_, ?_⟩
  · rintro dimension linear array index ⟨fits, number, rfl⟩ within
    rw [StaticOnDemandFixedArray.at]
    dsimp only
    rw [checkBounds_within within, offset_eq within (total_lt fits)]
    refine congrArg (fun element => Except.ok (Sum.inr element)) ?_
    rw [total_cons, OnDemandElement.mk.injEq, UInt32.add_assoc, words_level]
    simp [total]
  · rintro dimension next rest linear array index ⟨fits, number, rfl⟩ within
    refine ⟨_, ?_, bound_level within fits, number + 1, rfl⟩
    rw [StaticOnDemandFixedArray.at]
    dsimp only
    rw [checkBounds_within within, offset_eq within (total_lt fits), ← words_level, ← total_cons]
    rfl
  · rintro dimension rest linear array index ⟨-, number, rfl⟩ outside
    obtain ⟨message, aborts⟩ := checkBounds_outside outside
    exact ⟨message, by rw [StaticOnDemandFixedArray.at, aborts]; rfl⟩

end ArrayLevels

/-! ### Words -/

section Words

/-- The words of an element. -/
def wordsOf (first : UInt32) (count : ℕ) : Set UInt32 := {word | ∃ k < count, word = first + UInt32.ofNat k}

/-- Ranges of words, one after the other, that are disjoint and make up a whole one. Words are counted
modulo `2 ^ 32`; where the whole range does not wrap, they are those of an interval. -/
structure Tiles (base : UInt32) (firsts : List UInt32) (each whole : ℕ) : Prop where
  disjoint : firsts.Pairwise fun first second => Disjoint (wordsOf first each) (wordsOf second each)
  covers : ∀ word, word ∈ wordsOf base whole ↔ ∃ first ∈ firsts, word ∈ wordsOf first each
  distinct : ∀ k < whole, ∀ k' < whole, base + UInt32.ofNat k = base + UInt32.ofNat k' → k = k'
  interval : base.toNat + whole ≤ 2 ^ 32 →
    ∀ word, word ∈ wordsOf base whole ↔ base.toNat ≤ word.toNat ∧ word.toNat < base.toNat + whole

theorem add_ofNat_inj {base : UInt32} {k k' : ℕ} (small : k < 2 ^ 32) (small' : k' < 2 ^ 32)
    (same : base + UInt32.ofNat k = base + UInt32.ofNat k') : k = k' := by
  have equal := (UInt32.add_right_inj base).mp same
  have values := congrArg UInt32.toNat equal
  rwa [UInt32.toNat_ofNat_of_lt' small, UInt32.toNat_ofNat_of_lt' small'] at values

theorem mem_interval {base : UInt32} {whole : ℕ} (fits : base.toNat + whole ≤ 2 ^ 32) (word : UInt32) :
    word ∈ wordsOf base whole ↔ base.toNat ≤ word.toNat ∧ word.toNat < base.toNat + whole := by
  constructor
  · rintro ⟨k, inside, rfl⟩
    have value : (base + UInt32.ofNat k).toNat = base.toNat + k := by
      rw [UInt32.toNat_add, UInt32.toNat_ofNat_of_lt' (show k < 2 ^ 32 by omega), Nat.mod_eq_of_lt (by omega)]
    omega
  · rintro ⟨low, high⟩
    refine ⟨word.toNat - base.toNat, by omega, UInt32.toNat_inj.mp ?_⟩
    rw [UInt32.toNat_add, UInt32.toNat_ofNat_of_lt' (show word.toNat - base.toNat < 2 ^ 32 by omega),
      Nat.mod_eq_of_lt (by omega)]
    omega

/-- **The words of the elements**, one element after the other. -/
theorem tiles_words (base : UInt32) {count each : ℕ} (few : count * each < 2 ^ 31) :
    Tiles base ((List.range count).map fun linear => base + UInt32.ofNat (linear * each)) each
      (count * each) := by
  have place : ∀ linear k, base + UInt32.ofNat (linear * each) + UInt32.ofNat k =
      base + UInt32.ofNat (linear * each + k) := fun linear k => by
    rw [UInt32.add_assoc, ← UInt32.ofNat_add]
  have bound : ∀ linear < count, ∀ k < each, linear * each + k < count * each := by
    intro linear inside k small
    have := Nat.mul_le_mul_right each (Nat.succ_le_of_lt inside)
    rw [Nat.succ_mul] at this
    omega
  refine ⟨?_, fun word => ?_, fun k small k' small' => add_ofNat_inj (by omega) (by omega),
    fun fits => mem_interval fits⟩
  · rw [List.pairwise_map]
    refine List.pairwise_lt_range.imp_of_mem fun {first second} memFirst memSecond less => ?_
    refine Set.disjoint_left.mpr ?_
    rintro word ⟨k, inside, rfl⟩ ⟨k', inside', same⟩
    have inFirst := bound first (List.mem_range.mp memFirst) k inside
    have inSecond := bound second (List.mem_range.mp memSecond) k' inside'
    rw [place, place] at same
    have equal := add_ofNat_inj (by omega) (by omega) same
    have apart := Nat.mul_le_mul_right each (Nat.succ_le_of_lt less)
    rw [Nat.succ_mul] at apart
    omega
  · simp only [List.mem_map, List.mem_range]
    constructor
    · rintro ⟨k, inside, rfl⟩
      have positive : 0 < each := Nat.pos_of_mul_pos_left (by omega : 0 < count * each)
      refine ⟨_, ⟨k / each, Nat.div_lt_of_lt_mul (by rwa [Nat.mul_comm]), rfl⟩, k % each,
        Nat.mod_lt _ positive, ?_⟩
      rw [place, Nat.mul_comm, Nat.div_add_mod]
    · rintro ⟨_, ⟨linear, inside, rfl⟩, k, small, rfl⟩
      exact ⟨linear * each + k, bound linear inside k small, place linear k⟩

end Words

/-! ### Elements in row-major order -/

section Results

/-- The steps enumerate elements: every list of indices within the bounds leads to the element of its
position, the positions are different and in row-major order, and any other index aborts. -/
structure Enumerates {σ ρ : Type} (step : σ → ℤ → Except Failure (σ ⊕ ρ)) (start : σ)
    (dimensions : List Dimension) (element : ℕ → ρ) : Prop where
  inside : ∀ indices, List.Forall₂ Within indices dimensions → position dimensions indices < total dimensions ∧
    indexed step start indices = .ok (.inr (element (position dimensions indices)))
  distinct : ∀ indices indices', List.Forall₂ Within indices dimensions →
    List.Forall₂ Within indices' dimensions →
      position dimensions indices = position dimensions indices' → indices = indices'
  listed : ∀ indices, indices ∈ rowMajor dimensions ↔ List.Forall₂ Within indices dimensions
  ordered : (rowMajor dimensions).map (indexed step start) =
    (List.range (total dimensions)).map fun linear => .ok (.inr (element linear))
  outside : ∀ before after first dimension rest index, dimensions = first ++ dimension :: rest →
    List.Forall₂ Within before first → ¬Within index dimension →
      ∃ message, indexed step start (before ++ index :: after) = .error (.aborted message)

theorem Levels.enumerates {σ ρ : Type} {step : σ → ℤ → Except Failure (σ ⊕ ρ)}
    {At : List Dimension → ℕ → σ → Prop} {element : ℕ → ρ} (levels : Levels step At element)
    {dimensions : List Dimension} {start : σ} (begins : At dimensions 0 start) (some : dimensions ≠ []) :
    Enumerates step start dimensions element where
  inside indices within := by
    have mem : position dimensions indices ∈ List.range (total dimensions) := by
      rw [← map_position]
      exact List.mem_map_of_mem (mem_rowMajor.mpr within)
    refine ⟨List.mem_range.mp mem, ?_⟩
    rw [levels.indexed_inside begins some within, Nat.zero_mul, Nat.zero_add]
  distinct indices indices' within within' same := by
    have apart : ((rowMajor dimensions).map (position dimensions)).Nodup := by
      rw [map_position]
      exact List.nodup_range
    exact List.inj_on_of_nodup_map apart (mem_rowMajor.mpr within) (mem_rowMajor.mpr within') same
  listed _ := mem_rowMajor
  ordered := levels.map_rowMajor begins some
  outside before after first dimension rest index split within outside := by
    subst split
    exact levels.indexed_outside begins within outside

/-- **Indexing is a bijection.** The linear indices of a memory are those below its number of elements;
the words of the elements of a port array tile those of the array. -/
theorem indexing_bijective (dimensions : List Dimension) (few : total dimensions < 2 ^ 31) :
    (∀ memory : MemoryND, memory.dimensions = dimensions →
      Enumerates memory.at .memory dimensions (Nat.cast : ℕ → ℤ) ∧
      Enumerates memory.selectedAt .memory dimensions (Nat.cast : ℕ → ℤ)) ∧
    (∀ array : StaticPackedFixedArray, array.dimension :: array.remainingDimensions = dimensions →
      array.idOffset = 0 → array.transportOffsetDelta = 0 →
      total dimensions * elementWordCount array.elementWidth < 2 ^ 31 →
      Enumerates StaticPackedFixedArray.at array dimensions (fun linear =>
        ⟨array.baseId + UInt32.ofNat (linear * elementWordCount array.elementWidth),
          array.baseTransportOffset + UInt32.ofNat (linear * elementWordCount array.elementWidth)⟩) ∧
      ∀ base, Tiles base ((List.range (total dimensions)).map fun linear =>
        base + UInt32.ofNat (linear * elementWordCount array.elementWidth))
          (elementWordCount array.elementWidth) (wordCount array.elementWidth dimensions)) ∧
    (∀ array : StaticOnDemandFixedArray, array.dimension :: array.remainingDimensions = dimensions →
      array.idOffset = 0 → array.wordOffsetDelta = 0 →
      total dimensions * elementWordCount array.elementWidth < 2 ^ 31 →
      Enumerates StaticOnDemandFixedArray.at array dimensions (fun linear =>
        ⟨array.baseId + UInt32.ofNat (linear * elementWordCount array.elementWidth),
          UInt32.ofNat (linear * elementWordCount array.elementWidth)⟩) ∧
      ∀ base, Tiles base ((List.range (total dimensions)).map fun linear =>
        base + UInt32.ofNat (linear * elementWordCount array.elementWidth))
          (elementWordCount array.elementWidth) (wordCount array.elementWidth dimensions)) := by
  have begins : (0 + 1) * total dimensions < 2 ^ 31 := by rwa [Nat.zero_add, Nat.one_mul]
  have tiles : ∀ width, total dimensions * elementWordCount width < 2 ^ 31 → ∀ base,
      Tiles base ((List.range (total dimensions)).map fun linear =>
        base + UInt32.ofNat (linear * elementWordCount width)) (elementWordCount width)
        (wordCount width dimensions) := by
    intro width small base
    rw [wordCount, elementCount_eq few, Nat.mod_eq_of_lt (by omega)]
    exact tiles_words base small
  refine ⟨fun memory same => ?_, fun array same idOffset delta small => ⟨?_, tiles _ small⟩,
    fun array same idOffset delta small => ⟨?_, tiles _ small⟩⟩
  · have some : dimensions ≠ [] := by
      rintro rfl
      have several := memory.several
      rw [same] at several
      exact absurd several (by decide)
    exact ⟨(levels_memory memory (checks_failIndex _)).enumerates ⟨begins, .inl ⟨rfl, rfl, same.symm⟩⟩ some,
      (levels_memory memory (checks_checkIndex _)).enumerates ⟨begins, .inl ⟨rfl, rfl, same.symm⟩⟩ some⟩
  · subst same
    refine (levels_packed array).enumerates ⟨begins, array.dimensionIndex, ?_⟩ (List.cons_ne_nil _ _)
    cases array
    dsimp only at idOffset delta
    rw [idOffset, delta, Nat.zero_mul, Nat.zero_mul]
    rfl
  · subst same
    refine (levels_onDemand array).enumerates ⟨begins, array.dimensionIndex, ?_⟩ (List.cons_ne_nil _ _)
    cases array
    dsimp only at idOffset delta
    rw [idOffset, delta, Nat.zero_mul, Nat.zero_mul]
    rfl

/-- A memory `[3:0][-2:1]`, and an array of the same shape with elements of two words. -/
theorem indexing_bijective_descending :
    (∃ memory : MemoryND, memory.dimensions = [⟨3, 0⟩, ⟨-2, 1⟩] ∧
      indexed memory.at .memory [2, -1] = .ok (.inr 9) ∧
      ∃ message, indexed memory.selectedAt .memory [2, 2] = .error (.aborted message)) ∧
    Tiles 7 ((List.range 16).map fun linear => 7 + UInt32.ofNat (linear * 2)) 2 32 := by
  obtain ⟨memories, arrays, -⟩ := indexing_bijective [⟨3, 0⟩, ⟨-2, 1⟩] (by decide)
  refine ⟨⟨⟨"mem", [⟨3, 0⟩, ⟨-2, 1⟩], by decide⟩, rfl, ?_, ?_⟩, ?_⟩
  · exact ((memories ⟨"mem", [⟨3, 0⟩, ⟨-2, 1⟩], by decide⟩ rfl).1.inside [2, -1]
      (.cons ⟨by decide, by decide⟩ (.cons ⟨by decide, by decide⟩ .nil))).2
  · exact (memories ⟨"mem", [⟨3, 0⟩, ⟨-2, 1⟩], by decide⟩ rfl).2.outside [2] [] [⟨3, 0⟩] ⟨-2, 1⟩ [] 2 rfl
      (.cons ⟨by decide, by decide⟩ .nil) fun within => absurd within.2 (by decide)
  · exact (arrays ⟨40, 7, 0, 0, ⟨3, 0⟩, [⟨-2, 1⟩], "port", 0, 0⟩ rfl rfl rfl (by decide)).2 7

end Results

end Cpptb.Hierarchy.Indexing
