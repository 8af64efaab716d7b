/-
Random numbers, and drawing a value of a variable.

`Random` is the generator of the source. Everything that draws from it takes a `Generator`, a state with
its `next_u64`, so that what is proved of a search holds for every stream of random words. The loop of
`uniform_below` may reject words without end: it takes the number of words it may draw, and a
computation in `Draw` that needs more is `unfinished`.

A drawn value lies in the domain of its variable, and in an entry of its distribution with a positive
weight (`sampleVariable_contains`).
-/

import Cpptb.Lib.Ensures
import Cpptb.Randomize.Domains

namespace Cpptb.Randomize

open Segments

/-! ### Random words -/

/-- `Random`, without its seed. -/
structure Random where
  state0 : UInt64
  state1 : UInt64
  state2 : UInt64
  state3 : UInt64
  deriving DecidableEq, Repr

/-- `std::rotl`. -/
def rotl (word : UInt64) (count : UInt64) : UInt64 :=
  (word <<< count) ||| (word >>> (64 - count))

/-- `next_u64`. -/
def Random.nextU64 (random : Random) : UInt64 × Random :=
  let result := rotl (random.state1 * 5) 7 * 9
  let shifted := random.state1 <<< 17
  let state2 := random.state2 ^^^ random.state0
  let state3 := random.state3 ^^^ random.state1
  let state1 := random.state1 ^^^ state2
  let state0 := random.state0 ^^^ state3
  let state2 := state2 ^^^ shifted
  let state3 := rotl state3 45
  (result, ⟨state0, state1, state2, state3⟩)

/-- A source of random words, and the number of words that one `uniform_below` may draw. -/
structure Generator (ρ : Type) where
  nextU64 : ρ → UInt64 × ρ
  patience : Nat

/-- The generator of the source. -/
def Random.generator (patience : Nat) : Generator Random := ⟨Random.nextU64, patience⟩

/-- A computation that draws random words. -/
abbrev Draw (ρ : Type) := StateT ρ (Except SearchError)

variable {ρ : Type} (random : Generator ρ)

namespace Generator

/-- `next_u64`. -/
def draw : Draw ρ Nat := fun state =>
  let (word, state') := random.nextU64 state
  .ok (word.toNat, state')

/-- The loop of `uniform_below`, for at most `words` words. -/
def drawAtLeast (threshold bound : Nat) : (words : Nat) → Draw ρ Nat
  | 0 => throw .unfinished
  | words + 1 => do
      let value ← random.draw
      if value ≥ threshold then return value % bound
      else drawAtLeast threshold bound words

/-- `uniform_below<uint64_t>`. -/
def uniformBelow (bound : Nat) : Draw ρ Nat :=
  if bound = 0 then random.draw
  else random.drawAtLeast ((2 ^ 64 - bound) % bound) bound random.patience

/-- `randint<uint64_t>`. -/
def randint (minimum maximum : Nat) : Draw ρ Nat :=
  if minimum > maximum then
    throw (.invalidArgument "cpptb::Random::randint minimum exceeds maximum")
  else do
    let span := (maximum - minimum + 1) % 2 ^ 64
    let offset ← random.uniformBelow span
    return (minimum + offset) % 2 ^ 64

/-- `random_offset`. The size of an empty domain wraps in `size - 1`. -/
def offset (size : Nat) : Draw ρ Nat :=
  if size = 2 ^ 64 then random.draw
  else random.randint 0 ((size + (2 ^ 128 - 1)) % 2 ^ 64)

end Generator

/-! ### Distributions -/

/-- `WeightedRange`. -/
structure WeightedRange where
  range : RawRange
  weight : Nat := 0
  deriving DecidableEq, Repr

/-- `Distribution`. -/
structure Distribution where
  variableIndex : Nat := 0
  entries : List WeightedRange
  deriving DecidableEq, Repr

/-- `NamedDistribution`. -/
structure NamedDistribution where
  label : String := ""
  expression : Distribution
  enabled : Bool := true
  deriving DecidableEq, Repr

/-- The range of an entry in ordered values. -/
def WeightedRange.ordered (entry : WeightedRange) (type : ScalarType) : RawRange :=
  ⟨type.orderedRaw entry.range.minimum, type.orderedRaw entry.range.maximum⟩

/-- `distribution_entry_size`. -/
def distributionEntrySize (entry : WeightedRange) (domain : CandidateDomain) (type : ScalarType) :
    Nat :=
  ((clip (entry.ordered type) domain.ranges).map fun range =>
    inclusiveSize range.minimum range.maximum).sum

/-- The entry has a positive weight and a value in the domain. -/
def WeightedRange.supports (entry : WeightedRange) (domain : CandidateDomain) (type : ScalarType) :
    Bool :=
  entry.weight != 0 && distributionEntrySize entry domain type != 0

/-- `distribution_contains`. -/
def distributionContains (distribution : Option NamedDistribution) (domain : CandidateDomain)
    (type : ScalarType) (ordered : Nat) : Bool :=
  match distribution with
  | none => domainContains domain ordered
  | some distribution =>
      domainContains domain ordered &&
        distribution.expression.entries.any fun entry =>
          entry.weight != 0 &&
            (ordered ≥ type.orderedRaw entry.range.minimum &&
              ordered ≤ type.orderedRaw entry.range.maximum)

/-! ### Drawing a value -/

/-- The loop over the ranges that finds the range of an offset. -/
def pickOffset (overflow : String) : List RawRange → Nat → Draw ρ Nat
  | [], _ => throw (.logicError overflow)
  | range :: rest, offset =>
      let size := inclusiveSize range.minimum range.maximum
      if offset < size then return range.minimum + offset
      else pickOffset overflow rest (offset - size)

/-- `sample_domain`. -/
def sampleDomain (domain : CandidateDomain) : Draw ρ Nat := do
  let offset ← random.offset (domainSize domain)
  pickOffset "cpptb random domain sampling overflow" domain.ranges offset

/-- `sample_distribution_entry`. -/
def sampleDistributionEntry (entry : WeightedRange) (domain : CandidateDomain) (type : ScalarType) :
    Draw ρ Nat := do
  let offset ← random.offset (distributionEntrySize entry domain type)
  pickOffset "cpptb distribution sampling overflow" (clip (entry.ordered type) domain.ranges) offset

/-- The total weight of the supported entries. -/
def totalWeight (domain : CandidateDomain) (type : ScalarType) (entries : List WeightedRange) : Nat :=
  entries.foldl
    (fun total entry => if entry.supports domain type then (total + entry.weight) % 2 ^ 64 else total) 0

/-- The loop of `sample_variable` that finds the entry of a selected weight. -/
def selectEntry (domain : CandidateDomain) (type : ScalarType) : List WeightedRange → Nat → Draw ρ Nat
  | [], _ => throw (.logicError "cpptb distribution selection overflow")
  | entry :: rest, selected =>
      if !entry.supports domain type then selectEntry domain type rest selected
      else if selected < entry.weight then sampleDistributionEntry random entry domain type
      else selectEntry domain type rest (selected - entry.weight)

/-- `sample_variable`. -/
def sampleVariable (domain : CandidateDomain) (distribution : Option NamedDistribution)
    (type : ScalarType) : Draw ρ Nat :=
  match distribution with
  | none => sampleDomain random domain
  | some distribution => do
      let entries := distribution.expression.entries
      let selected ← random.randint 0 ((2 ^ 64 + totalWeight domain type entries - 1) % 2 ^ 64)
      selectEntry random domain type entries selected

/-! ### What is drawn -/

theorem pickOffset_covered (overflow : String) (ranges : List RawRange) (offset : Nat)
    (proper : ∀ range ∈ ranges, range.minimum ≤ range.maximum) :
    Ensures (pickOffset overflow ranges offset : Draw ρ Nat) (Covers ranges) := by
  induction ranges generalizing offset with
  | nil => exact Ensures.throw _
  | cons range rest ih =>
      refine Ensures.ite (fun inside => Ensures.pure ?_) fun _ => ?_
      · have ordered := proper range List.mem_cons_self
        rw [inclusiveSize] at inside
        exact ⟨range, List.mem_cons_self, Nat.le_add_right _ _, by omega⟩
      · exact (ih _ fun other member => proper other (List.mem_cons_of_mem _ member)).weaken
          fun _ covered => covers_cons.mpr (Or.inr covered)

/-- What `distribution_contains` says when the variable has a distribution. -/
theorem distributionContains_some {distribution : NamedDistribution} {domain : CandidateDomain}
    {type : ScalarType} {ordered : Nat} :
    distributionContains (some distribution) domain type ordered = true ↔
      Covers domain.ranges ordered ∧ ∃ entry ∈ distribution.expression.entries,
        entry.weight ≠ 0 ∧ (entry.ordered type).Has ordered := by
  simp only [distributionContains, Bool.and_eq_true, domainContains, covers_iff, List.any_eq_true,
    bne_iff_ne, decide_eq_true_eq, Segment.Has, WeightedRange.ordered, ge_iff_le]

theorem distributionContains_none {domain : CandidateDomain} {type : ScalarType} {ordered : Nat} :
    distributionContains none domain type ordered = true ↔ Covers domain.ranges ordered :=
  covers_iff

theorem selectEntry_contains (domain : CandidateDomain) (type : ScalarType)
    (entries : List WeightedRange) (selected : Nat) :
    Ensures (selectEntry random domain type entries selected) fun ordered =>
      Covers domain.ranges ordered ∧ ∃ entry ∈ entries,
        entry.weight ≠ 0 ∧ (entry.ordered type).Has ordered := by
  induction entries generalizing selected with
  | nil => exact Ensures.throw _
  | cons entry rest ih =>
      have later : ∀ selected, Ensures (selectEntry random domain type rest selected) fun ordered =>
          Covers domain.ranges ordered ∧ ∃ other ∈ entry :: rest,
            other.weight ≠ 0 ∧ (other.ordered type).Has ordered := fun selected =>
        (ih selected).weaken fun ordered ⟨covered, other, member, holds⟩ =>
          ⟨covered, other, List.mem_cons_of_mem _ member, holds⟩
      refine Ensures.ite (fun _ => later selected) fun supported => ?_
      refine Ensures.ite (fun _ => Ensures.bind_any _ fun offset => ?_) fun _ => later _
      have positive : entry.weight ≠ 0 := by
        simp only [WeightedRange.supports, Bool.not_eq_true', Bool.not_eq_false, Bool.and_eq_true,
          bne_iff_ne] at supported
        exact supported.1
      refine (pickOffset_covered _ _ offset fun range => proper_of_mem_clip).weaken fun ordered covered => ?_
      obtain ⟨inEntry, inDomain⟩ := covers_clip.mp covered
      exact ⟨inDomain, entry, List.mem_cons_self, positive, inEntry⟩

/-- A value drawn for a variable lies in its domain and in an entry of positive weight. -/
theorem sampleVariable_contains (domain : CandidateDomain)
    (proper : ∀ range ∈ domain.ranges, range.minimum ≤ range.maximum)
    (distribution : Option NamedDistribution) (type : ScalarType) :
    Ensures (sampleVariable random domain distribution type) fun ordered =>
      distributionContains distribution domain type ordered = true := by
  cases distribution with
  | none =>
      refine Ensures.bind_any _ fun offset => ?_
      exact (pickOffset_covered _ _ offset proper).weaken fun ordered => distributionContains_none.mpr
  | some distribution =>
      refine Ensures.bind_any _ fun selected => ?_
      exact (selectEntry_contains random domain type _ selected).weaken fun ordered =>
        distributionContains_some.mpr

end Cpptb.Randomize
