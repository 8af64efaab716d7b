/-
Merging coverage against sampling it in one run.

* `CoverageSnapshot.add` adds up every counter of two snapshots. A covergroup is a counter
  (`counting_sample`): its samples add to its snapshot, so the snapshots of two runs add up to the
  snapshot of one run over both (`add_snapshot`).
* `merge` adds up every counter but the illegal hits of the crosses: `merge_eq_add_iff`.
* `merge_homomorphism_iff`: merging the snapshots of two runs gives the snapshot of one run if and only
  if the second run has no illegal hits in a cross; two snapshots of one model merge to the same counters
  in both orders if and only if they have the same illegal hits in every cross; merging is associative,
  and a merge that is rejected changes nothing.
-/

import Cpptb.Lib.Counters
import Cpptb.Coverage.Covergroup

namespace Cpptb.Coverage

open Counters

variable {σ : Type}

/-! ### Adding snapshots -/

/-- The hits of two bins. -/
def CoverageBinSnapshot.add (bin incoming : CoverageBinSnapshot) : CoverageBinSnapshot :=
  { bin with hits := bin.hits + incoming.hits }

/-- The hits of two cross bins. -/
def CoverageCrossBinSnapshot.add (bin incoming : CoverageCrossBinSnapshot) :
    CoverageCrossBinSnapshot :=
  { bin with hits := bin.hits + incoming.hits }

/-- Every counter of two crosses. -/
def CoverageCrossSnapshot.add (cross incoming : CoverageCrossSnapshot) : CoverageCrossSnapshot :=
  { cross with
    illegalHits := cross.illegalHits + incoming.illegalHits
    bins := List.zipWith CoverageCrossBinSnapshot.add cross.bins incoming.bins }

namespace CoverageSnapshot

/-- Every counter of two snapshots. -/
def add (target other : CoverageSnapshot) : CoverageSnapshot :=
  { target with
    samples := target.samples + other.samples
    illegalHits := target.illegalHits + other.illegalHits
    points := List.zipWith mergePoint target.points other.points
    crosses := List.zipWith CoverageCrossSnapshot.add target.crosses other.crosses }

/-- What `merge` leaves when it finds the models to be the same. -/
def mergeCounters (target other : CoverageSnapshot) : CoverageSnapshot :=
  { target with
    samples := target.samples + other.samples
    illegalHits := target.illegalHits + other.illegalHits
    points := List.zipWith mergePoint target.points other.points
    crosses := List.zipWith mergeCross target.crosses other.crosses }

end CoverageSnapshot

open CoverageSnapshot (mergePoint mergeCross mergeCounters)

theorem CoverageBinSnapshot.add_assoc (a b c : CoverageBinSnapshot) :
    (a.add b).add c = a.add (b.add c) := by
  simp only [CoverageBinSnapshot.add, UInt64.add_assoc]

theorem CoverageCrossBinSnapshot.add_assoc (a b c : CoverageCrossBinSnapshot) :
    (a.add b).add c = a.add (b.add c) := by
  simp only [CoverageCrossBinSnapshot.add, UInt64.add_assoc]

theorem mergePoint_eq (point incoming : CoveragePointSnapshot) :
    mergePoint point incoming =
      { point with
        samples := point.samples + incoming.samples
        illegalHits := point.illegalHits + incoming.illegalHits
        bins := List.zipWith CoverageBinSnapshot.add point.bins incoming.bins } :=
  rfl

theorem mergeCross_eq (cross incoming : CoverageCrossSnapshot) :
    mergeCross cross incoming =
      { cross with bins := List.zipWith CoverageCrossBinSnapshot.add cross.bins incoming.bins } :=
  rfl

theorem mergePoint_assoc (a b c : CoveragePointSnapshot) :
    mergePoint (mergePoint a b) c = mergePoint a (mergePoint b c) := by
  simp only [mergePoint_eq, UInt64.add_assoc, zipWith_assoc_of CoverageBinSnapshot.add_assoc]

theorem mergeCross_assoc (a b c : CoverageCrossSnapshot) :
    mergeCross (mergeCross a b) c = mergeCross a (mergeCross b c) := by
  simp only [mergeCross_eq, zipWith_assoc_of CoverageCrossBinSnapshot.add_assoc]

theorem CoverageCrossSnapshot.add_assoc (a b c : CoverageCrossSnapshot) :
    (a.add b).add c = a.add (b.add c) := by
  simp only [CoverageCrossSnapshot.add, UInt64.add_assoc,
    zipWith_assoc_of CoverageCrossBinSnapshot.add_assoc]

theorem CoverageSnapshot.add_assoc (a b c : CoverageSnapshot) :
    (a.add b).add c = a.add (b.add c) := by
  simp only [CoverageSnapshot.add, UInt64.add_assoc, zipWith_assoc_of mergePoint_assoc,
    zipWith_assoc_of CoverageCrossSnapshot.add_assoc]

theorem mergeCounters_assoc (a b c : CoverageSnapshot) :
    (a.mergeCounters b).mergeCounters c = a.mergeCounters (b.mergeCounters c) := by
  simp only [mergeCounters, UInt64.add_assoc, zipWith_assoc_of mergePoint_assoc,
    zipWith_assoc_of mergeCross_assoc]

/-! ### Models -/

/-- A cross without its counters. -/
def CoverageCrossSnapshot.model (cross : CoverageCrossSnapshot) : CoverageCrossSnapshot :=
  { cross with illegalHits := 0, bins := cross.bins.map fun bin => { bin with hits := 0 } }

/-- A coverpoint without its counters. -/
def CoveragePointSnapshot.model (point : CoveragePointSnapshot) : CoveragePointSnapshot :=
  { point with
    samples := 0
    illegalHits := 0
    bins := point.bins.map fun bin => { bin with hits := 0 } }

/-- A snapshot without its counters and the place of its declaration, which `merge` does not compare. -/
def CoverageSnapshot.model (snapshot : CoverageSnapshot) : CoverageSnapshot :=
  { name := snapshot.name
    samples := 0
    illegalHits := 0
    points := snapshot.points.map (·.model)
    crosses := snapshot.crosses.map (·.model) }

/-- A snapshot without the place of its declaration. -/
def CoverageSnapshot.counters (snapshot : CoverageSnapshot) : CoverageSnapshot :=
  { snapshot with sourceFile := "", sourceLine := 0 }

theorem compatible_bin_iff (a b : CoverageBinSnapshot) : a.compatible b = true ↔
    ({ a with hits := 0 } : CoverageBinSnapshot) = { b with hits := 0 } := by
  simp [CoverageBinSnapshot.compatible]

theorem compatible_point_iff (a b : CoveragePointSnapshot) :
    a.compatible b = true ↔ a.model = b.model := by
  unfold CoveragePointSnapshot.compatible CoveragePointSnapshot.model
  rw [Bool.and_eq_true, Bool.and_eq_true, decide_eq_true_eq, decide_eq_true_eq, and_assoc,
    all_zipWith_iff compatible_bin_iff]
  simp

theorem compatible_crossBin_iff (a b : CoverageCrossBinSnapshot) : a.compatible b = true ↔
    ({ a with hits := 0 } : CoverageCrossBinSnapshot) = { b with hits := 0 } := by
  simp [CoverageCrossBinSnapshot.compatible]

theorem compatible_cross_iff (a b : CoverageCrossSnapshot) :
    a.compatible b = true ↔ a.model = b.model := by
  have bins := all_zipWith_iff compatible_crossBin_iff a.bins b.bins
  unfold CoverageCrossSnapshot.compatible CoverageCrossSnapshot.model
  simp only [Bool.and_eq_true, decide_eq_true_eq, and_assoc, bins]
  simp

theorem compatible_iff (a b : CoverageSnapshot) : a.compatible b = true ↔ a.model = b.model := by
  have points := all_zipWith_iff compatible_point_iff a.points b.points
  have crosses := all_zipWith_iff compatible_cross_iff a.crosses b.crosses
  unfold CoverageSnapshot.compatible CoverageSnapshot.model
  simp only [Bool.and_eq_true, decide_eq_true_eq, CoverageSnapshot.mk.injEq, true_and]
  rw [← points, ← crosses]
  tauto

theorem merge_of_compatible {a b : CoverageSnapshot} (compatible : a.compatible b = true) :
    a.merge b = (a.mergeCounters b, .ok ()) :=
  if_pos compatible

/-- Only the illegal hits of the crosses are not merged. -/
theorem mergeCross_eq_add_iff (a b : CoverageCrossSnapshot) :
    mergeCross a b = a.add b ↔ b.illegalHits = 0 := by
  rw [mergeCross_eq, CoverageCrossSnapshot.add]
  simp

/-! ### Coverpoints count -/

/-- A bin without its hits. -/
def Bin.zeroed (bin : Bin) : Bin := { bin with hits := 0 }

/-- The hits of two bins. -/
def Bin.add (bin other : Bin) : Bin := { bin with hits := bin.hits + other.hits }

theorem Bin.zeroed_hitIf (bin : Bin) (condition : Bool) :
    (bin.hitIf condition).zeroed = bin.zeroed := by
  cases condition <;> rfl

namespace Coverpoint

/-- A coverpoint without what its samples leave. -/
def zeroed (point : Coverpoint σ) : Coverpoint σ :=
  { point with
    bins := point.bins.map Bin.zeroed
    samples := 0
    illegalHits := 0
    previous := none
    lastOrdinaryHits := []
    sampled := false }

/-- No transition bins and no default sequences. -/
def Plain (point : Coverpoint σ) : Prop :=
  ∀ bin ∈ point.bins, bin.kind ≠ .transition ∧ bin.defaultSequence = false

/-- The illegal bins that take a value. -/
def illegalCount (point : Coverpoint σ) (value : Int) : Nat :=
  point.bins.countP fun bin => bin.excludes value && bin.kind = .illegal

/-- No ignore bin and no illegal bin takes the value. -/
def counts (point : Coverpoint σ) (value : Int) : Bool :=
  !(point.bins.any fun bin => bin.excludes value && bin.kind = .ignore) &&
    UInt32.ofNat (point.illegalCount value) == 0

/-- What a sample does to a bin of a coverpoint without transitions. -/
def stepBin (counts : Bool) (value : Int) (bin : Bin) : Bin :=
  (bin.hitIf (bin.excludes value)).hitIf
    (counts && (bin.kind = .ordinary && bin.matchesFrom value))

theorem hitIf_hitIf_eq_add (bin : Bin) (first second : Bool) :
    (bin.hitIf first).hitIf second = bin.add ((bin.zeroed.hitIf first).hitIf second) := by
  cases first <;> cases second <;> simp [Bin.hitIf, Bin.add, Bin.zeroed, UInt64.add_assoc]

theorem stepBin_eq_add (counts : Bool) (value : Int) (bin : Bin) :
    stepBin counts value bin = bin.add (stepBin counts value bin.zeroed) :=
  hitIf_hitIf_eq_add bin _ _

theorem zeroed_stepBin (counts : Bool) (value : Int) (bin : Bin) :
    (stepBin counts value bin).zeroed = bin.zeroed := by
  rw [stepBin, Bin.zeroed_hitIf, Bin.zeroed_hitIf]

/-- A sample of a coverpoint without transitions whose guard lets it pass. -/
theorem sample_of_plain {point : Coverpoint σ} (plain : point.Plain) {sample : σ}
    (passes : point.guard.map (· sample) ≠ some false) :
    point.sample sample =
      ({ point with
        sampled := true
        samples := point.samples + 1
        previous := some (point.extractor sample)
        illegalHits := point.illegalHits +
          UInt64.ofNat (point.illegalCount (point.extractor sample))
        bins := point.bins.map
          (stepBin (point.counts (point.extractor sample)) (point.extractor sample))
        lastOrdinaryHits := if point.counts (point.extractor sample) then
          point.ordinaryHits (point.extractor sample) else [] },
        UInt32.ofNat (point.illegalCount (point.extractor sample))) := by
  unfold Coverpoint.sample
  dsimp only
  rw [if_neg passes]
  change (if point.counts (point.extractor sample) = true then _ else _) = _
  cases counted : point.counts (point.extractor sample) with
  | false =>
      rw [if_neg Bool.false_ne_true]
      refine Prod.ext ?_ rfl
      dsimp only
      congr 1
  | true =>
      rw [if_pos rfl]
      have noTransition : ((point.bins.map fun bin =>
          bin.hitIf (bin.excludes (point.extractor sample))).map fun bin =>
            bin.hitIf (bin.covers point.previous (point.extractor sample))).any
              (·.kind = .transition) = false := by
        simp only [List.any_map, List.any_eq_false, Function.comp_apply, decide_eq_true_eq]
        intro bin member
        simpa [Bin.hitIf, apply_ite Bin.kind] using (plain bin member).1
      have noMore64 (n : UInt64) : n + UInt64.ofNat 0 = n := UInt64.add_zero n
      have noMore32 (n : UInt32) : n + UInt32.ofNat 0 = n := UInt32.add_zero n
      simp only [noTransition, Bool.false_and, Bool.false_eq_true, if_false, noMore64, noMore32]
      refine Prod.ext ?_ rfl
      dsimp only
      congr 1
      simp only [List.map_map]
      refine List.map_congr_left fun bin member => ?_
      have takesNone (condition : Bool) :
          (bin.hitIf condition).takes point.previous (point.extractor sample) = false := by
        simp [Bin.takes, Bin.hitIf, apply_ite Bin.kind, (plain bin member).1]
      simp only [Function.comp_apply, Bin.covers, takesNone, Bool.or_false, stepBin, Bool.true_and]
      cases bin.excludes (point.extractor sample) <;> rfl

theorem sample_of_blocked {point : Coverpoint σ} {sample : σ}
    (blocked : point.guard.map (· sample) = some false) :
    point.sample sample = ({ point with sampled := true, lastOrdinaryHits := [] }, 0) :=
  if_pos blocked

theorem plain_zeroed {point : Coverpoint σ} (plain : point.Plain) : point.zeroed.Plain := by
  intro bin member
  obtain ⟨bin', member', rfl⟩ := List.mem_map.mp member
  exact plain bin' member'

theorem zeroed_zeroed (point : Coverpoint σ) : point.zeroed.zeroed = point.zeroed := by
  unfold zeroed
  congr 1
  rw [List.map_map]
  rfl

theorem illegalCount_zeroed (point : Coverpoint σ) (value : Int) :
    point.zeroed.illegalCount value = point.illegalCount value := by
  unfold illegalCount zeroed
  rw [List.countP_map]
  rfl

theorem counts_zeroed (point : Coverpoint σ) (value : Int) :
    point.zeroed.counts value = point.counts value := by
  unfold counts
  rw [illegalCount_zeroed]
  unfold zeroed
  rw [List.any_map]
  rfl

theorem ordinaryBins_zeroed (point : Coverpoint σ) :
    point.zeroed.ordinaryBins = point.ordinaryBins.map Bin.zeroed := by
  unfold ordinaryBins zeroed
  rw [List.filter_map]
  rfl

theorem ordinaryHits_zeroed (point : Coverpoint σ) (value : Int) :
    point.zeroed.ordinaryHits value = point.ordinaryHits value := by
  simp only [ordinaryHits, ordinaryBinCount, ordinaryBins_zeroed, List.length_map, List.getElem?_map,
    Option.map_map]
  rfl

theorem base_zeroed (point : Coverpoint σ) : point.zeroed.base = point.base := by
  simp only [base, ordinaryBinCount, ordinaryBins_zeroed, List.length_map, List.getElem?_map,
    Option.map_map]
  rfl

/-- What a cross sees of a coverpoint depends on what no sample changes. -/
theorem base_of_zeroed {point other : Coverpoint σ} (same : point.zeroed = other.zeroed) :
    point.base = other.base := by
  rw [← base_zeroed point, same, base_zeroed]

theorem zeroed_sample {point : Coverpoint σ} (plain : point.Plain) (sample : σ) :
    (point.sample sample).1.zeroed = point.zeroed := by
  by_cases blocked : point.guard.map (· sample) = some false
  · rw [sample_of_blocked blocked]
    rfl
  · rw [sample_of_plain plain blocked]
    unfold zeroed
    congr 1
    rw [List.map_map]
    exact List.map_congr_left fun bin _ => zeroed_stepBin _ _ bin

theorem plain_sample {point : Coverpoint σ} (plain : point.Plain) (sample : σ) :
    (point.sample sample).1.Plain := by
  have kept := plain_zeroed plain
  rw [← zeroed_sample plain sample] at kept
  intro bin member
  exact kept bin.zeroed (List.mem_map_of_mem member)

/-- A sample hits the same bins and reports the same illegal hits whatever was counted before. -/
theorem outcome_sample {point : Coverpoint σ} (plain : point.Plain) (sample : σ) :
    (point.sample sample).2 = (point.zeroed.sample sample).2 ∧
      (point.sample sample).1.lastOrdinaryHits =
        (point.zeroed.sample sample).1.lastOrdinaryHits := by
  by_cases blocked : point.guard.map (· sample) = some false
  · rw [sample_of_blocked blocked, sample_of_blocked (show point.zeroed.guard.map _ = _ from blocked)]
    exact ⟨rfl, rfl⟩
  · rw [sample_of_plain plain blocked, sample_of_plain (plain_zeroed plain) blocked]
    dsimp only
    change _ = UInt32.ofNat (point.zeroed.illegalCount (point.extractor sample)) ∧ _ =
      if point.zeroed.counts (point.extractor sample) = true then
        point.zeroed.ordinaryHits (point.extractor sample) else []
    rw [illegalCount_zeroed, counts_zeroed, ordinaryHits_zeroed]
    exact ⟨rfl, rfl⟩

/-- What a snapshot shows of a bin. -/
def binSnapshot (bin : Bin) : CoverageBinSnapshot := ⟨bin.name, bin.kind, bin.hits⟩

/-- Adding the snapshot of a coverpoint that has counted nothing. -/
theorem mergePoint_zeroed (point : Coverpoint σ) :
    mergePoint point.snapshot point.zeroed.snapshot = point.snapshot := by
  rw [mergePoint_eq]
  unfold snapshot zeroed
  dsimp only
  rw [UInt64.add_zero, UInt64.add_zero, List.map_map]
  congr 1
  rw [List.zipWith_map, List.zipWith_self]
  exact List.map_congr_left fun bin _ => by simp [CoverageBinSnapshot.add, Bin.zeroed]

/-- A sample adds to the counters of a coverpoint what it adds to those of a fresh one. -/
theorem snapshot_sample {point : Coverpoint σ} (plain : point.Plain) (sample : σ) :
    (point.sample sample).1.snapshot =
      mergePoint point.snapshot (point.zeroed.sample sample).1.snapshot := by
  by_cases blocked : point.guard.map (· sample) = some false
  · rw [sample_of_blocked blocked, sample_of_blocked (show point.zeroed.guard.map _ = _ from blocked)]
    exact (mergePoint_zeroed point).symm
  · rw [sample_of_plain plain blocked, sample_of_plain (plain_zeroed plain) blocked, mergePoint_eq]
    have bins : (point.bins.map
        (stepBin (point.counts (point.extractor sample)) (point.extractor sample))).map binSnapshot =
        List.zipWith CoverageBinSnapshot.add (point.bins.map binSnapshot)
          (((point.bins.map Bin.zeroed).map
            (stepBin (point.counts (point.extractor sample)) (point.extractor sample))).map
              binSnapshot) := by
      rw [map_eq_zipWith (stepBin_eq_add _ _), List.map_zipWith, List.zipWith_map]
      rfl
    change CoveragePointSnapshot.mk point.name (point.samples + 1)
        (point.illegalHits + UInt64.ofNat (point.illegalCount (point.extractor sample))) _ =
      CoveragePointSnapshot.mk point.name (point.samples + (0 + 1))
        (point.illegalHits +
          (0 + UInt64.ofNat (point.zeroed.illegalCount (point.extractor sample))))
        (List.zipWith CoverageBinSnapshot.add (point.bins.map binSnapshot)
          (((point.bins.map Bin.zeroed).map (stepBin
            (point.zeroed.counts (point.extractor sample)) (point.extractor sample))).map
              binSnapshot))
    rw [illegalCount_zeroed, counts_zeroed, ← bins, UInt64.zero_add, UInt64.zero_add]
    rfl

end Coverpoint

/-! ### Crosses count -/

/-- A filter without its hits. -/
def Filter.zeroed (filter : Filter) : Filter := { filter with hits := 0 }

/-- The hits of two filters. -/
def Filter.add (filter other : Filter) : Filter := { filter with hits := filter.hits + other.hits }

namespace Cross

/-- A cross without what its samples leave. -/
def zeroed (cross : Cross σ) : Cross σ :=
  { cross with
    hits := cross.hits.map fun _ => 0
    filters := cross.filters.map Filter.zeroed
    illegalHits := 0 }

/-- Every counter of two crosses, and of two samples of them. -/
def add (state other : Cross σ × UInt32) : Cross σ × UInt32 :=
  ({ state.1 with
    hits := List.zipWith (· + ·) state.1.hits other.1.hits
    filters := List.zipWith Filter.add state.1.filters other.1.filters
    illegalHits := state.1.illegalHits + other.1.illegalHits }, state.2 + other.2)

theorem excludedBy_zeroed (cross : Cross σ) (points : List (Nat × CoverpointBase)) (bins : List Nat) :
    cross.zeroed.excludedBy points bins = cross.excludedBy points bins := by
  simp only [excludedBy, zeroed, List.findIdx?_map]
  rfl

theorem illegal_zeroed (cross : Cross σ) (index : Nat) :
    (cross.zeroed.filters[index]?.map (·.illegal)) = cross.filters[index]?.map (·.illegal) := by
  simp only [zeroed, List.getElem?_map, Option.map_map]
  rfl

theorem zeroed_zeroed (cross : Cross σ) : cross.zeroed.zeroed = cross.zeroed := by
  unfold zeroed
  congr 1
  · rw [List.map_map]
    rfl
  · rw [List.map_map]
    rfl

/-- Stepping one counter of a list does not change the list without its counters. -/
theorem map_modify_of {α β : Type} (f : α → β) {step : α → α} (keeps : ∀ a, f (step a) = f a)
    (l : List α) (index : Nat) : (l.modify index step).map f = l.map f := by
  induction l generalizing index with
  | nil => simp
  | cons a l ih => cases index <;> simp [keeps, ih]

theorem zeroed_count (points : List (Nat × CoverpointBase)) (state : Cross σ × UInt32)
    (bins : List Nat) : (count points state bins).1.zeroed = state.1.zeroed := by
  unfold count
  dsimp only
  have hits (index : Nat) : (state.1.hits.modify index (· + 1)).map (fun _ => (0 : UInt64)) =
      state.1.hits.map fun _ => 0 := map_modify_of _ (by intro; rfl) _ index
  have filters (index : Nat) : (state.1.filters.modify index Filter.hit).map Filter.zeroed =
      state.1.filters.map Filter.zeroed := map_modify_of _ (by intro; rfl) _ index
  cases state.1.excludedBy points bins with
  | none => simp only [zeroed, hits]
  | some index =>
      dsimp only
      split
      · simp only [zeroed, filters]
      · simp only [zeroed, filters]

theorem count_eq_add (points : List (Nat × CoverpointBase)) (state : Cross σ × UInt32)
    (bins : List Nat) :
    count points state bins = add state (count points (state.1.zeroed, 0) bins) := by
  obtain ⟨cross, illegal⟩ := state
  have sameHits : List.zipWith (· + ·) cross.hits (cross.hits.map fun _ => (0 : UInt64)) =
      cross.hits := zipWith_right_of (fun n => UInt64.add_zero n) _
  have sameFilters : List.zipWith Filter.add cross.filters (cross.filters.map Filter.zeroed) =
      cross.filters :=
    zipWith_right_of (fun filter => by simp [Filter.add, Filter.zeroed]) _
  have stepHits (index : Nat) : cross.hits.modify index (· + 1) =
      List.zipWith (· + ·) cross.hits ((cross.hits.map fun _ => 0).modify index (· + 1)) :=
    modify_eq_zipWith (fun n => UInt64.add_zero n) (fun n => by simp) cross.hits index
  have stepFilters (index : Nat) : cross.filters.modify index Filter.hit =
      List.zipWith Filter.add cross.filters
        ((cross.filters.map Filter.zeroed).modify index Filter.hit) :=
    modify_eq_zipWith (fun filter => by simp [Filter.add, Filter.zeroed])
      (fun filter => by simp [Filter.add, Filter.zeroed, Filter.hit]) cross.filters index
  unfold count
  dsimp only
  rw [excludedBy_zeroed]
  cases cross.excludedBy points bins with
  | none =>
      unfold add
      simp only [zeroed, sameFilters, UInt64.add_zero, UInt32.add_zero, ← stepHits]
  | some index =>
      dsimp only
      rw [illegal_zeroed]
      split
      · unfold add
        simp only [zeroed, sameHits, UInt64.zero_add, UInt32.zero_add, ← stepFilters]
      · unfold add
        simp only [zeroed, sameHits, UInt64.add_zero, UInt32.add_zero, ← stepFilters]

theorem add_assoc (a b c : Cross σ × UInt32) : add (add a b) c = add a (add b c) := by
  have filters (l m n : List Filter) : List.zipWith Filter.add (List.zipWith Filter.add l m) n =
      List.zipWith Filter.add l (List.zipWith Filter.add m n) :=
    zipWith_assoc_of (fun f g h => by simp only [Filter.add, UInt64.add_assoc]) l m n
  simp only [add, UInt64.add_assoc, UInt32.add_assoc, filters,
    zipWith_assoc_of (fun l m n : UInt64 => UInt64.add_assoc l m n)]

/-- The combinations of a sample are counted one by one. -/
theorem counting_count (points : List (Nat × CoverpointBase)) :
    Counting (count points) (fun state : Cross σ × UInt32 => (state.1.zeroed, 0)) id add
      (fun _ => True) where
  assoc := add_assoc
  ok_shape := fun _ _ => trivial
  ok_step := fun _ _ _ => trivial
  shape_shape := fun state => by simp only [zeroed_zeroed]
  shape_step := fun state bins _ => by simp only [zeroed_count]
  read_shape := fun state _ => by
    have hits : List.zipWith (· + ·) state.1.hits (state.1.hits.map fun _ => (0 : UInt64)) =
        state.1.hits := zipWith_right_of (fun n => UInt64.add_zero n) _
    have filters : List.zipWith Filter.add state.1.filters (state.1.filters.map Filter.zeroed) =
        state.1.filters := zipWith_right_of (fun filter => by simp [Filter.add, Filter.zeroed]) _
    simp only [id, add, zeroed, hits, filters, UInt64.add_zero, UInt32.add_zero]
  read_step := fun state bins _ => count_eq_add points state bins

theorem crossed_congr (cross : Cross σ) {points points' : List (Coverpoint σ)}
    (bases : points.map (·.base) = points'.map (·.base)) :
    cross.crossed points = cross.crossed points' := by
  have same (index : Nat) : points[index]?.map (·.base) = points'[index]?.map (·.base) := by
    rw [← List.getElem?_map, bases, List.getElem?_map]
  have paired (l : List (Coverpoint σ)) (index : Nat) :
      l[index]?.map (fun point => (index, point.base)) =
        (l[index]?.map (·.base)).map fun base => (index, base) := by
    rw [Option.map_map]
    rfl
  unfold crossed
  simp only [paired, same]

theorem lastOrdinaryHits_congr (cross : Cross σ) {points points' : List (Coverpoint σ)}
    (lasts : points.map (·.lastOrdinaryHits) = points'.map (·.lastOrdinaryHits)) :
    cross.lastOrdinaryHits points = cross.lastOrdinaryHits points' := by
  have same (index : Nat) :
      points[index]?.map (·.lastOrdinaryHits) = points'[index]?.map (·.lastOrdinaryHits) := by
    rw [← List.getElem?_map, lasts, List.getElem?_map]
  unfold lastOrdinaryHits
  simp only [same]

/-- A sample adds to the counters of a cross what it adds to those of a fresh one. -/
theorem sample_eq_add (cross : Cross σ) {points points' : List (Coverpoint σ)}
    (bases : points.map (·.base) = points'.map (·.base))
    (lasts : points.map (·.lastOrdinaryHits) = points'.map (·.lastOrdinaryHits)) (sample : σ) :
    cross.sample points sample = add (cross, 0) (cross.zeroed.sample points' sample) := by
  have counting := counting_count (σ := σ) (cross.crossed points)
  unfold Cross.sample
  by_cases blocked : cross.guard.map (· sample) = some false
  · rw [if_pos blocked, if_pos (show cross.zeroed.guard.map _ = _ from blocked)]
    exact (counting.read_shape (cross, 0) trivial).symm
  · rw [if_neg blocked, if_neg (show ¬ cross.zeroed.guard.map _ = _ from blocked)]
    have crossed : cross.zeroed.crossed points' = cross.crossed points :=
      (crossed_congr cross bases).symm
    have hits : cross.zeroed.lastOrdinaryHits points' = cross.lastOrdinaryHits points :=
      (lastOrdinaryHits_congr cross lasts).symm
    rw [crossed, hits]
    exact counting.foldl trivial _

theorem zeroed_sample (cross : Cross σ) (points : List (Coverpoint σ)) (sample : σ) :
    (cross.sample points sample).1.zeroed = cross.zeroed := by
  unfold Cross.sample
  split
  · rfl
  · exact congrArg Prod.fst ((counting_count _).shape_foldl (x := (cross, 0)) trivial _)

/-! #### Snapshots -/

/-- The combinations that no filter removes. -/
def combinations (cross : Cross σ) (points : List (Coverpoint σ)) : List (List Nat) :=
  (walk ((cross.crossed points).map fun entry => List.range entry.2.ordinaryBinCount)).filter
    fun bins => cross.excludedBy (cross.crossed points) bins = none

/-- What a snapshot shows of a combination. -/
def binSnapshot (crossed : List (Nat × CoverpointBase)) (hits : List UInt64) (bins : List Nat) :
    CoverageCrossBinSnapshot :=
  { bins := (crossed.zip bins).map fun entry => entry.1.2.ordinaryBinName entry.2
    hits := (hits[indexOf crossed bins]?).getD 0 }

theorem bins_snapshot (cross : Cross σ) (points : List (Coverpoint σ)) :
    (cross.snapshot points).bins =
      (cross.combinations points).map (binSnapshot (cross.crossed points) cross.hits) :=
  rfl

/-- The descriptions of the filters of one kind. -/
theorem described_zeroed (filters : List Filter) (kind : Filter → Bool)
    (keeps : ∀ filter : Filter, kind filter.zeroed = kind filter) :
    ((filters.map Filter.zeroed).filter kind).map (fun filter =>
        filter.name ++ " = " ++ filter.select.describe) =
      (filters.filter kind).map fun filter => filter.name ++ " = " ++ filter.select.describe := by
  have same : kind ∘ Filter.zeroed = kind := funext keeps
  rw [List.filter_map, same, List.map_map]
  rfl

/-- Two crosses that differ in their counters have snapshots that differ in theirs. -/
theorem snapshot_of_zeroed {cross other : Cross σ} (same : cross.zeroed = other.zeroed)
    {points points' : List (Coverpoint σ)} (bases : points.map (·.base) = points'.map (·.base)) :
    cross.snapshot points =
      { other.snapshot points' with
        illegalHits := cross.illegalHits
        bins := (other.combinations points').map
          (binSnapshot (other.crossed points') cross.hits) } := by
  have sameName : cross.name = other.name := congrArg (·.name) same
  have samePoints : cross.points = other.points := congrArg (·.points) same
  have crossed : cross.crossed points = other.crossed points' := by
    rw [crossed_congr cross bases]
    unfold Cross.crossed
    rw [samePoints]
  have filters : cross.filters.map Filter.zeroed = other.filters.map Filter.zeroed :=
    congrArg (·.filters) same
  have excluded (bins : List Nat) : cross.excludedBy (other.crossed points') bins =
      other.excludedBy (other.crossed points') bins := by
    rw [← excludedBy_zeroed, same, excludedBy_zeroed]
  have described (kind : Filter → Bool)
      (keeps : ∀ filter : Filter, kind filter.zeroed = kind filter) :
      (cross.filters.filter kind).map (fun filter =>
          filter.name ++ " = " ++ filter.select.describe) =
        (other.filters.filter kind).map fun filter =>
          filter.name ++ " = " ++ filter.select.describe := by
    rw [← described_zeroed _ kind keeps, filters, described_zeroed _ kind keeps]
  unfold snapshot combinations binSnapshot
  simp only [crossed, excluded, sameName, described (!·.illegal) (fun _ => rfl),
    described (·.illegal) (fun _ => rfl)]

theorem zeroed_eq_iff (cross : Cross σ) : cross.zeroed = cross ↔
    cross.hits.map (fun _ => 0) = cross.hits ∧ cross.filters.map Filter.zeroed = cross.filters ∧
      cross.illegalHits = 0 := by
  cases cross
  simp only [zeroed, Cross.mk.injEq, true_and, eq_comm]

theorem zeroed_add {cross other : Cross σ} (same : other.zeroed = cross.zeroed) (n m : UInt32) :
    (add (cross, n) (other, m)).1.zeroed = cross.zeroed := by
  have hits : other.hits.map (fun _ => (0 : UInt64)) = cross.hits.map fun _ => 0 :=
    congrArg (·.hits) same
  have filters : other.filters.map Filter.zeroed = cross.filters.map Filter.zeroed :=
    congrArg (·.filters) same
  have sameHits : (List.zipWith (· + ·) cross.hits other.hits).map (fun _ => (0 : UInt64)) =
      cross.hits.map fun _ => 0 := by
    have lengths : other.hits.length = cross.hits.length := by
      simpa using congrArg List.length hits
    simp only [List.map_const', List.length_zipWith, lengths, Nat.min_self]
  have sameFilters : (List.zipWith Filter.add cross.filters other.filters).map Filter.zeroed =
      cross.filters.map Filter.zeroed := by
    have lengths : cross.filters.length ≤ other.filters.length := by
      have equal : other.filters.length = cross.filters.length := by
        simpa using congrArg List.length filters
      exact equal.ge
    rw [List.map_zipWith]
    exact zipWith_left_of Filter.zeroed lengths
  simp only [add, zeroed, sameHits, sameFilters]

/-- The snapshots of two crosses of one model add up. -/
theorem snapshot_add {cross other : Cross σ} (same : other.zeroed = cross.zeroed) (n m : UInt32)
    {points points' points'' : List (Coverpoint σ)}
    (bases : points.map (·.base) = points'.map (·.base))
    (bases' : points''.map (·.base) = points'.map (·.base)) :
    (add (cross, n) (other, m)).1.snapshot points =
      (cross.snapshot points').add (other.snapshot points'') := by
  have lengths : cross.hits.length = other.hits.length := by
    simpa [zeroed] using (congrArg (·.hits.length) same).symm
  rw [snapshot_of_zeroed (zeroed_add same n m) bases, snapshot_of_zeroed same bases',
    CoverageCrossSnapshot.add]
  dsimp only
  congr 1
  rw [bins_snapshot, List.zipWith_map, List.zipWith_self]
  refine List.map_congr_left fun bins _ => ?_
  unfold binSnapshot CoverageCrossBinSnapshot.add add
  dsimp only
  congr 1
  rw [List.getElem?_zipWith]
  rcases Nat.lt_or_ge (indexOf (cross.crossed points') bins) cross.hits.length with inside | outside
  · rw [List.getElem?_eq_getElem inside, List.getElem?_eq_getElem (lengths ▸ inside)]
    rfl
  · rw [List.getElem?_eq_none outside, List.getElem?_eq_none (lengths ▸ outside)]
    rfl

end Cross

/-! ### Covergroups count -/

namespace Covergroup

/-- A covergroup without what its samples leave. -/
def zeroed (group : Covergroup σ) : Covergroup σ :=
  { group with
    points := group.points.map (·.zeroed)
    crosses := group.crosses.map (·.zeroed)
    samples := 0
    illegalHits := 0
    sampled := false }

/-- No transition bins and no default sequences. -/
def Plain (group : Covergroup σ) : Prop := ∀ point ∈ group.points, point.Plain

/-- The coverpoints after a sample. -/
def sampledPoints (group : Covergroup σ) (sample : σ) : List (Coverpoint σ) :=
  group.points.map fun point => (point.sample sample).1

theorem bases_zeroed (group : Covergroup σ) :
    group.zeroed.points.map (·.base) = group.points.map (·.base) := by
  unfold zeroed
  rw [List.map_map]
  exact List.map_congr_left fun point _ => point.base_zeroed

theorem plain_zeroed {group : Covergroup σ} (plain : group.Plain) : group.zeroed.Plain := by
  intro point member
  obtain ⟨point', member', rfl⟩ := List.mem_map.mp member
  exact Coverpoint.plain_zeroed (plain point' member')

section

variable {group : Covergroup σ} (plain : group.Plain) (sample : σ)

include plain

theorem zeroed_sampledPoints : (group.sampledPoints sample).map (·.zeroed) =
    group.points.map (·.zeroed) := by
  unfold sampledPoints
  rw [List.map_map]
  exact List.map_congr_left fun point member => Coverpoint.zeroed_sample (plain point member) sample

theorem bases_sampledPoints : (group.sampledPoints sample).map (·.base) =
    group.points.map (·.base) := by
  unfold sampledPoints
  rw [List.map_map]
  exact List.map_congr_left fun point member =>
    Coverpoint.base_of_zeroed (Coverpoint.zeroed_sample (plain point member) sample)

theorem lasts_sampledPoints : (group.sampledPoints sample).map (·.lastOrdinaryHits) =
    (group.zeroed.sampledPoints sample).map (·.lastOrdinaryHits) := by
  unfold sampledPoints zeroed
  simp only [List.map_map]
  exact List.map_congr_left fun point member =>
    (Coverpoint.outcome_sample (plain point member) sample).2

theorem bases_sampledPoints_zeroed : (group.sampledPoints sample).map (·.base) =
    (group.zeroed.sampledPoints sample).map (·.base) := by
  rw [bases_sampledPoints plain, bases_sampledPoints (plain_zeroed plain), bases_zeroed]

end

/-- The illegal hits of a sample. -/
def illegalOf (group : Covergroup σ) (sample : σ) : UInt32 :=
  (group.points.map fun point => (point.sample sample).2).sum +
    (group.crosses.map fun cross => (cross.sample (group.sampledPoints sample) sample).2).sum

theorem sample_eq (group : Covergroup σ) (sample : σ) : group.sample sample =
    { group with
      sampled := true
      samples := group.samples + 1
      points := group.sampledPoints sample
      crosses := group.crosses.map fun cross =>
        (cross.sample (group.sampledPoints sample) sample).1
      illegalHits := group.illegalHits + (group.illegalOf sample).toUInt64 } := by
  simp only [Covergroup.sample, sampledPoints, illegalOf, List.map_map, Function.comp_def]

theorem illegalOf_zeroed {group : Covergroup σ} (plain : group.Plain) (sample : σ) :
    group.zeroed.illegalOf sample = group.illegalOf sample := by
  have points : (group.zeroed.points.map fun point => (point.sample sample).2) =
      group.points.map fun point => (point.sample sample).2 := by
    unfold zeroed
    rw [List.map_map]
    exact List.map_congr_left fun point member =>
      (Coverpoint.outcome_sample (plain point member) sample).1.symm
  have crosses : (group.zeroed.crosses.map fun cross =>
        (cross.sample (group.zeroed.sampledPoints sample) sample).2) =
      group.crosses.map fun cross => (cross.sample (group.sampledPoints sample) sample).2 := by
    change (group.crosses.map Cross.zeroed).map _ = _
    rw [List.map_map]
    refine List.map_congr_left fun cross _ => ?_
    rw [cross.sample_eq_add (bases_sampledPoints_zeroed plain sample)
      (lasts_sampledPoints plain sample)]
    exact (UInt32.zero_add _).symm
  rw [illegalOf, points, crosses, illegalOf]

/-- Adding the snapshots of the coverpoints and crosses after a step. -/
theorem snapshot_points {group : Covergroup σ} (plain : group.Plain) (sample : σ) :
    (group.sampledPoints sample).map (·.snapshot) =
      List.zipWith mergePoint (group.points.map (·.snapshot))
        ((group.zeroed.sampledPoints sample).map (·.snapshot)) := by
  unfold sampledPoints zeroed
  simp only [List.map_map]
  rw [List.zipWith_map, List.zipWith_self]
  exact List.map_congr_left fun point member =>
    Coverpoint.snapshot_sample (plain point member) sample

theorem snapshot_crosses {group : Covergroup σ} (plain : group.Plain) (sample : σ) :
    (group.crosses.map fun cross =>
        (cross.sample (group.sampledPoints sample) sample).1.snapshot
          (group.sampledPoints sample)) =
      List.zipWith CoverageCrossSnapshot.add (group.crosses.map (·.snapshot group.points))
        (group.crosses.map fun cross =>
          (cross.zeroed.sample (group.zeroed.sampledPoints sample) sample).1.snapshot
            (group.zeroed.sampledPoints sample)) := by
  rw [List.zipWith_map, List.zipWith_self]
  refine List.map_congr_left fun cross _ => ?_
  have stepped := cross.sample_eq_add (bases_sampledPoints_zeroed plain sample)
    (lasts_sampledPoints plain sample) sample
  have same : (cross.zeroed.sample (group.zeroed.sampledPoints sample) sample).1.zeroed =
      cross.zeroed := by
    rw [Cross.zeroed_sample, Cross.zeroed_zeroed]
  have bases := bases_sampledPoints plain sample
  rw [stepped]
  exact Cross.snapshot_add same 0 _ bases ((bases_sampledPoints_zeroed plain sample).symm.trans bases)

/-- A covergroup only adds to its snapshot. -/
theorem counting_sample :
    Counting Covergroup.sample zeroed snapshot CoverageSnapshot.add (Plain (σ := σ)) where
  assoc := CoverageSnapshot.add_assoc
  ok_shape := fun _ plain => plain_zeroed plain
  ok_step := fun group sample plain point member => by
    obtain ⟨point', member', rfl⟩ := List.mem_map.mp member
    obtain ⟨point'', member'', rfl⟩ := List.mem_map.mp member'
    exact Coverpoint.plain_sample (plain point'' member'') sample
  shape_shape := fun group => by
    simp only [zeroed, List.map_map, Function.comp_def, Coverpoint.zeroed_zeroed,
      Cross.zeroed_zeroed]
  shape_step := fun group sample plain => by
    have crosses : (group.crosses.map fun cross =>
        (cross.sample (group.sampledPoints sample) sample).1).map (·.zeroed) =
          group.crosses.map (·.zeroed) := by
      rw [List.map_map]
      exact List.map_congr_left fun cross _ => cross.zeroed_sample _ sample
    rw [sample_eq]
    simp only [zeroed, crosses, zeroed_sampledPoints plain]
  read_shape := fun group plain => by
    have points : List.zipWith mergePoint (group.points.map (·.snapshot))
        ((group.points.map (·.zeroed)).map (·.snapshot)) = group.points.map (·.snapshot) := by
      rw [List.map_map, List.zipWith_map, List.zipWith_self]
      exact List.map_congr_left fun point _ => point.mergePoint_zeroed
    have crosses : List.zipWith CoverageCrossSnapshot.add
        (group.crosses.map (·.snapshot group.points))
        ((group.crosses.map (·.zeroed)).map (·.snapshot group.zeroed.points)) =
          group.crosses.map (·.snapshot group.points) := by
      rw [List.map_map, List.zipWith_map, List.zipWith_self]
      refine List.map_congr_left fun cross _ => ?_
      have whole : Cross.add (cross, 0) (cross.zeroed, 0) = (cross, 0) :=
        (Cross.counting_count []).read_shape (cross, 0) trivial
      have added : (Cross.add (cross, 0) (cross.zeroed, 0)).1.snapshot group.points =
          (cross.snapshot group.points).add (cross.zeroed.snapshot group.zeroed.points) :=
        Cross.snapshot_add cross.zeroed_zeroed 0 0 rfl (bases_zeroed group)
      rw [whole] at added
      exact added.symm
    unfold snapshot CoverageSnapshot.add
    dsimp only
    rw [show group.zeroed.points.map (·.snapshot) =
      (group.points.map (·.zeroed)).map (·.snapshot) from rfl, points,
      show group.zeroed.crosses.map (·.snapshot group.zeroed.points) =
        (group.crosses.map (·.zeroed)).map (·.snapshot group.zeroed.points) from rfl, crosses]
    simp only [zeroed, UInt64.add_zero]
  read_step := fun group sample plain => by
    rw [sample_eq, sample_eq]
    unfold snapshot CoverageSnapshot.add
    dsimp only
    rw [snapshot_points plain, List.map_map, Function.comp_def, snapshot_crosses plain,
      illegalOf_zeroed plain]
    have samples : group.zeroed.samples = 0 := rfl
    have illegalHits : group.zeroed.illegalHits = 0 := rfl
    have crosses : group.zeroed.crosses = group.crosses.map (·.zeroed) := rfl
    rw [samples, illegalHits, crosses, UInt64.zero_add, UInt64.zero_add, List.map_map, List.map_map]
    rfl

/-- Nothing has been counted. -/
structure Fresh (group : Covergroup σ) : Prop where
  points : ∀ point ∈ group.points, point.zeroed = point
  crosses : ∀ cross ∈ group.crosses, cross.zeroed = cross
  samples : group.samples = 0
  illegalHits : group.illegalHits = 0
  sampled : group.sampled = false

theorem Fresh.zeroed {group : Covergroup σ} (fresh : group.Fresh) : group.zeroed = group := by
  have points : group.points.map (·.zeroed) = group.points :=
    (List.map_congr_left fresh.points).trans (List.map_id' _)
  have crosses : group.crosses.map (·.zeroed) = group.crosses :=
    (List.map_congr_left fresh.crosses).trans (List.map_id' _)
  obtain ⟨-, -, samples, illegalHits, sampled⟩ := fresh
  cases group
  simp_all [Covergroup.zeroed]

theorem fresh_create {name sourceFile : String} {sourceLine : Nat} {group : Covergroup σ}
    (created : Covergroup.create name sourceFile sourceLine = .ok group) : group.Fresh := by
  unfold Covergroup.create at created
  split at created
  · exact nomatch created
  · obtain rfl := Except.ok.inj created
    exact ⟨fun _ member => (List.not_mem_nil member).elim,
      fun _ member => (List.not_mem_nil member).elim, rfl, rfl, rfl⟩

theorem fresh_coverpoint {group group' : Covergroup σ} (fresh : group.Fresh) {name : String}
    {type : ValueType} {extractor : σ → Int}
    (added : group.coverpoint name type extractor = .ok group') : group'.Fresh := by
  unfold Covergroup.coverpoint at added
  split_ifs at added
  obtain rfl := Except.ok.inj added
  refine ⟨fun point member => ?_, fresh.crosses, fresh.samples, fresh.illegalHits, fresh.sampled⟩
  rcases List.mem_append.mp member with old | new
  · exact fresh.points point old
  · rw [List.mem_singleton.mp new]
    rfl

theorem fresh_setPoint {group : Covergroup σ} (fresh : group.Fresh) (index : Nat)
    {point : Coverpoint σ} (same : point.zeroed = point) : (group.setPoint index point).Fresh := by
  refine ⟨fun other member => ?_, fresh.crosses, fresh.samples, fresh.illegalHits, fresh.sampled⟩
  rcases List.mem_or_eq_of_mem_set member with old | rfl
  · exact fresh.points other old
  · exact same

theorem zeroed_eq_iff (point : Coverpoint σ) : point.zeroed = point ↔
    point.bins.map Bin.zeroed = point.bins ∧ point.samples = 0 ∧ point.illegalHits = 0 ∧
      point.previous = none ∧ point.lastOrdinaryHits = [] ∧ point.sampled = false := by
  cases point
  simp [Coverpoint.zeroed, eq_comm]

theorem zeroed_addBin {point point' : Coverpoint σ} (same : point.zeroed = point) {bin : Bin}
    (added : point.addBin bin = .ok point') : point'.zeroed = point' := by
  unfold Coverpoint.addBin at added
  split_ifs at added
  obtain rfl := Except.ok.inj added
  rw [zeroed_eq_iff] at same ⊢
  refine ⟨?_, same.2⟩
  rw [List.map_append, same.1]
  rfl

/-- A coverpoint or cross that is changed in place, where it stays without counts. -/
theorem zeroed_of_mem_modify {α : Type} {zero step : α → α} (keeps : ∀ a, zero a = a → zero (step a) = step a)
    {l : List α} (all : ∀ a ∈ l, zero a = a) (index : Nat) : ∀ a ∈ l.modify index step, zero a = a := by
  induction l generalizing index with
  | nil => simp
  | cons a l ih =>
      have rest := ih fun b member => all b (List.mem_cons_of_mem _ member)
      cases index with
      | zero =>
          rw [List.modify_zero_cons]
          intro b member
          rcases List.mem_cons.mp member with rfl | old
          · exact keeps a (all a List.mem_cons_self)
          · exact all b (List.mem_cons_of_mem _ old)
      | succ index =>
          rw [List.modify_succ_cons]
          intro b member
          rcases List.mem_cons.mp member with rfl | old
          · exact all b List.mem_cons_self
          · exact rest index b old

/-- Sealing the coverpoints of a cross one by one. -/
theorem zeroed_sealed (indices : List Nat) {points : List (Coverpoint σ)}
    (all : ∀ point ∈ points, point.zeroed = point) :
    ∀ point ∈ indices.foldl (fun points index => points.modify index fun point =>
      { point with isSealed := true }) points, point.zeroed = point := by
  induction indices generalizing points with
  | nil => exact all
  | cons index rest ih =>
      refine ih (zeroed_of_mem_modify (fun point same => ?_) all index)
      rw [zeroed_eq_iff] at same ⊢
      exact same

theorem fresh_cross {group group' : Covergroup σ} (fresh : group.Fresh) {name : String}
    {points : List Nat} (added : group.cross name points = .ok group') : group'.Fresh := by
  unfold Covergroup.cross at added
  split_ifs at added
  obtain rfl := Except.ok.inj added
  refine ⟨zeroed_sealed points fresh.points, fun cross member => ?_, fresh.samples,
    fresh.illegalHits, fresh.sampled⟩
  rcases List.mem_append.mp member with old | new
  · exact fresh.crosses cross old
  · rw [List.mem_singleton.mp new]
    unfold Cross.zeroed
    dsimp only
    rw [List.map_replicate]
    rfl

theorem fresh_modifyCross {group : Covergroup σ} (fresh : group.Fresh) (index : Nat)
    {step : Cross σ → Cross σ} (keeps : ∀ cross, cross.zeroed = cross → (step cross).zeroed = step cross) :
    ({ group with crosses := group.crosses.modify index step } : Covergroup σ).Fresh :=
  ⟨fresh.points, zeroed_of_mem_modify keeps fresh.crosses index, fresh.samples, fresh.illegalHits,
    fresh.sampled⟩

/-- A covergroup that has been declared has counted nothing. -/
theorem fresh_of_declared {group : Covergroup σ} (declared : Declared group) : group.Fresh := by
  induction declared with
  | create created => exact fresh_create created
  | coverpoint _ added ih => exact fresh_coverpoint ih added
  | addBin _ found added ih =>
      exact fresh_setPoint ih _ (zeroed_addBin (ih.points _ (List.mem_of_getElem? found)) added)
  | @iff group index point guard _ found ih =>
      have same := ih.points _ (List.mem_of_getElem? found)
      refine fresh_setPoint ih _ ?_
      rw [zeroed_eq_iff] at same ⊢
      exact same
  | cross _ _ added ih => exact fresh_cross ih added
  | filter _ added ih =>
      unfold Covergroup.filter at added
      split_ifs at added
      obtain rfl := Except.ok.inj added
      refine fresh_modifyCross ih _ fun cross same => ?_
      rw [Cross.zeroed_eq_iff] at same ⊢
      refine ⟨same.1, ?_, same.2.2⟩
      rw [List.map_append, same.2.1]
      rfl
  | crossIff _ ih =>
      refine fresh_modifyCross ih _ fun cross same => ?_
      rw [Cross.zeroed_eq_iff] at same ⊢
      exact same

/-- The snapshots of two runs add up to that of one run over both. -/
theorem add_snapshot {group : Covergroup σ} (fresh : group.Fresh) (plain : group.Plain)
    (before after : List σ) :
    (group.sampleAll before).snapshot.add (group.sampleAll after).snapshot =
      (group.sampleAll (before ++ after)).snapshot :=
  counting_sample.append plain fresh.zeroed before after

/-- The model of a snapshot is the snapshot of a group that has counted nothing. -/
theorem model_snapshot (group : Covergroup σ) :
    group.snapshot.model = group.zeroed.snapshot.counters := by
  have points : (group.points.map (·.snapshot)).map (·.model) =
      (group.points.map (·.zeroed)).map (·.snapshot) := by
    rw [List.map_map, List.map_map]
    refine List.map_congr_left fun point _ => ?_
    simp [CoveragePointSnapshot.model, Coverpoint.snapshot, Coverpoint.zeroed, Bin.zeroed]
  have crosses : (group.crosses.map (·.snapshot group.points)).map (·.model) =
      (group.crosses.map (·.zeroed)).map (·.snapshot group.zeroed.points) := by
    rw [List.map_map, List.map_map]
    refine List.map_congr_left fun cross _ => ?_
    have zeros (index : Nat) : ((cross.hits.map fun _ => (0 : UInt64))[index]?).getD 0 = 0 := by
      rw [List.getElem?_map]
      cases cross.hits[index]? <;> rfl
    have shown (crossed : List (Nat × CoverpointBase)) (bins : List Nat) :
        Cross.binSnapshot crossed (cross.hits.map fun _ => 0) bins =
          { Cross.binSnapshot crossed cross.hits bins with hits := 0 } := by
      simp only [Cross.binSnapshot, zeros]
    dsimp only [Function.comp_apply]
    rw [Cross.snapshot_of_zeroed cross.zeroed_zeroed (bases_zeroed group),
      CoverageCrossSnapshot.model, Cross.bins_snapshot, List.map_map]
    congr 1
    exact List.map_congr_left fun bins _ => (shown _ bins).symm
  unfold CoverageSnapshot.model CoverageSnapshot.counters snapshot
  dsimp only
  rw [points, crosses]
  rfl

theorem compatible_runs {group : Covergroup σ} (plain : group.Plain) (before after : List σ) :
    (group.sampleAll before).snapshot.compatible (group.sampleAll after).snapshot = true := by
  rw [compatible_iff, model_snapshot, model_snapshot]
  have same (samples : List σ) : (group.sampleAll samples).zeroed = group.zeroed :=
    counting_sample.shape_foldl plain samples
  rw [same, same]

end Covergroup

/-! ### Merging -/

/-- Merging is adding exactly when the incoming crosses have no illegal hits. -/
theorem mergeCounters_eq_add_iff {a b : CoverageSnapshot}
    (lengths : a.crosses.length = b.crosses.length) :
    a.mergeCounters b = a.add b ↔ ∀ cross ∈ b.crosses, cross.illegalHits = 0 := by
  have lists : ∀ l m : List CoverageCrossSnapshot, l.length = m.length →
      (List.zipWith mergeCross l m = List.zipWith CoverageCrossSnapshot.add l m ↔
        ∀ cross ∈ m, cross.illegalHits = 0) := by
    intro l
    induction l with
    | nil =>
        intro m same
        obtain rfl : m = [] := List.length_eq_zero_iff.mp same.symm
        simp
    | cons a l ih =>
        intro m same
        cases m with
        | nil => exact nomatch same
        | cons b m =>
            rw [List.zipWith_cons_cons, List.zipWith_cons_cons, List.cons.injEq,
              mergeCross_eq_add_iff, ih m (Nat.succ.inj same), List.forall_mem_cons]
  rw [← lists a.crosses b.crosses lengths]
  simp [mergeCounters, CoverageSnapshot.add]

theorem mergeCross_comm {a b : CoverageCrossSnapshot} (model : a.model = b.model)
    (illegal : a.illegalHits = b.illegalHits) : mergeCross a b = mergeCross b a := by
  have bins : a.bins.map (fun bin => { bin with hits := 0 }) =
      b.bins.map fun bin => ({ bin with hits := 0 } : CoverageCrossBinSnapshot) :=
    congrArg (·.bins) model
  rw [mergeCross_eq, mergeCross_eq, zipWith_comm_of (fun left right same => ?_) bins]
  · cases a
    cases b
    simp_all [CoverageCrossSnapshot.model]
  · have name := congrArg CoverageCrossBinSnapshot.bins same
    simp only [CoverageCrossBinSnapshot.add, UInt64.add_comm, CoverageCrossBinSnapshot.mk.injEq,
      and_true]
    exact name

theorem mergePoint_comm {a b : CoveragePointSnapshot} (model : a.model = b.model) :
    mergePoint a b = mergePoint b a := by
  have bins : a.bins.map (fun bin => { bin with hits := 0 }) =
      b.bins.map fun bin => ({ bin with hits := 0 } : CoverageBinSnapshot) :=
    congrArg (·.bins) model
  rw [mergePoint_eq, mergePoint_eq, zipWith_comm_of (fun left right same => ?_) bins]
  · have name : a.name = b.name := congrArg (·.name) model
    rw [name, UInt64.add_comm a.samples, UInt64.add_comm a.illegalHits]
  · have name := congrArg CoverageBinSnapshot.name same
    have kind := congrArg CoverageBinSnapshot.kind same
    simp only [CoverageBinSnapshot.add, UInt64.add_comm, CoverageBinSnapshot.mk.injEq, and_true]
    exact ⟨name, kind⟩

/-- Two snapshots of one model merge to the same counters in both orders exactly when their crosses
have the same illegal hits. -/
theorem mergeCounters_comm_iff {a b : CoverageSnapshot} (model : a.model = b.model) :
    (a.mergeCounters b).counters = (b.mergeCounters a).counters ↔
      a.crosses.map (·.illegalHits) = b.crosses.map (·.illegalHits) := by
  have crosses : a.crosses.map (·.model) = b.crosses.map (·.model) := congrArg (·.crosses) model
  have points : a.points.map (·.model) = b.points.map (·.model) := congrArg (·.points) model
  have name : a.name = b.name := congrArg (·.name) model
  have lengths : a.crosses.length = b.crosses.length := by simpa using congrArg List.length crosses
  constructor
  · intro same
    have merged : List.zipWith mergeCross a.crosses b.crosses =
        List.zipWith mergeCross b.crosses a.crosses := congrArg (·.crosses) same
    have read := congrArg (List.map (·.illegalHits)) merged
    rw [List.map_zipWith, List.map_zipWith] at read
    have left (l m : List CoverageCrossSnapshot) (same : l.length ≤ m.length) :
        List.zipWith (fun cross other => (mergeCross cross other).illegalHits) l m =
          l.map (·.illegalHits) := zipWith_left_of (·.illegalHits) same
    rwa [left _ _ lengths.le, left _ _ lengths.ge] at read
  · intro illegal
    have both : a.crosses.map (fun cross => (cross.model, cross.illegalHits)) =
        b.crosses.map fun cross => (cross.model, cross.illegalHits) := by
      have zipped (l : List CoverageCrossSnapshot) :
          l.map (fun cross => (cross.model, cross.illegalHits)) =
            (l.map (·.model)).zip (l.map (·.illegalHits)) := by
        rw [List.zip_map']
      rw [zipped, zipped, crosses, illegal]
    have mergedPoints : List.zipWith mergePoint a.points b.points =
        List.zipWith mergePoint b.points a.points :=
      zipWith_comm_of (by exact fun _ _ same => mergePoint_comm same) points
    have commutes (x y : CoverageCrossSnapshot)
        (same : (x.model, x.illegalHits) = (y.model, y.illegalHits)) :
        mergeCross x y = mergeCross y x :=
      mergeCross_comm (Prod.mk.inj same).1 (Prod.mk.inj same).2
    have mergedCrosses : List.zipWith mergeCross a.crosses b.crosses =
        List.zipWith mergeCross b.crosses a.crosses :=
      zipWith_comm_of commutes both
    unfold CoverageSnapshot.counters mergeCounters
    dsimp only
    rw [mergedPoints, mergedCrosses, name, UInt64.add_comm a.samples,
      UInt64.add_comm a.illegalHits]

theorem model_mergePoint {a b : CoveragePointSnapshot} (model : a.model = b.model) :
    (mergePoint a b).model = a.model := by
  have bins : a.bins.map (fun bin => { bin with hits := 0 }) =
      b.bins.map fun bin => ({ bin with hits := 0 } : CoverageBinSnapshot) :=
    congrArg (·.bins) model
  rw [mergePoint_eq, CoveragePointSnapshot.model, CoveragePointSnapshot.model]
  congr 1
  exact map_zipWith_of (by exact fun _ _ _ => rfl) bins

theorem model_mergeCross {a b : CoverageCrossSnapshot} (model : a.model = b.model) :
    (mergeCross a b).model = a.model := by
  have bins : a.bins.map (fun bin => { bin with hits := 0 }) =
      b.bins.map fun bin => ({ bin with hits := 0 } : CoverageCrossBinSnapshot) :=
    congrArg (·.bins) model
  rw [mergeCross_eq, CoverageCrossSnapshot.model, CoverageCrossSnapshot.model]
  congr 1
  exact map_zipWith_of (by exact fun _ _ _ => rfl) bins

/-- A merge keeps the model. -/
theorem model_mergeCounters {a b : CoverageSnapshot} (model : a.model = b.model) :
    (a.mergeCounters b).model = a.model := by
  have points : (List.zipWith mergePoint a.points b.points).map (·.model) =
      a.points.map (·.model) :=
    map_zipWith_of (by exact fun _ _ same => model_mergePoint same) (congrArg (·.points) model)
  have crosses : (List.zipWith mergeCross a.crosses b.crosses).map (·.model) =
      a.crosses.map (·.model) :=
    map_zipWith_of (by exact fun _ _ same => model_mergeCross same) (congrArg (·.crosses) model)
  unfold mergeCounters CoverageSnapshot.model
  dsimp only
  rw [points, crosses]

/-- Merging the snapshots of two runs gives the snapshot of one run over both exactly when the second
run has no illegal hits in a cross; two snapshots of one model merge to the same counters in both orders
exactly when their crosses have the same illegal hits; merging is associative on snapshots of one model;
and a merge that throws leaves its target unchanged. -/
theorem merge_homomorphism_iff (group : Covergroup σ) (declared : Declared group)
    (plain : group.Plain) :
    (∀ before after,
      (group.sampleAll before).snapshot.merge (group.sampleAll after).snapshot =
          ((group.sampleAll (before ++ after)).snapshot, .ok ()) ↔
        ∀ cross ∈ (group.sampleAll after).snapshot.crosses, cross.illegalHits = 0) ∧
    (∀ a b : CoverageSnapshot, a.compatible b = true →
      ((a.merge b).1.counters = (b.merge a).1.counters ↔
        a.crosses.map (·.illegalHits) = b.crosses.map (·.illegalHits))) ∧
    (∀ a b c : CoverageSnapshot, a.compatible b = true → b.compatible c = true →
      ((a.merge b).1.merge c) = (a.merge (b.merge c).1)) ∧
    ∀ a b : CoverageSnapshot, (a.merge b).2 ≠ .ok () → (a.merge b).1 = a := by
  refine ⟨fun before after => ?_, fun a b compatible => ?_, fun a b c first second => ?_,
    fun a b rejected => ?_⟩
  · have compatible := Covergroup.compatible_runs plain before after
    have fresh := Covergroup.fresh_of_declared declared
    have lengths : (group.sampleAll before).snapshot.crosses.length =
        (group.sampleAll after).snapshot.crosses.length := by
      have model := (compatible_iff _ _).mp compatible
      simpa [CoverageSnapshot.model] using congrArg (·.crosses.length) model
    rw [merge_of_compatible compatible, ← Covergroup.add_snapshot fresh plain, Prod.mk.injEq,
      mergeCounters_eq_add_iff lengths]
    exact and_iff_left rfl
  · have model := (compatible_iff a b).mp compatible
    rw [merge_of_compatible compatible, merge_of_compatible ((compatible_iff b a).mpr model.symm)]
    exact mergeCounters_comm_iff model
  · have modelAB := (compatible_iff a b).mp first
    have modelBC := (compatible_iff b c).mp second
    have left : (a.mergeCounters b).compatible c = true :=
      (compatible_iff _ _).mpr ((model_mergeCounters modelAB).trans (modelAB.trans modelBC))
    have right : a.compatible (b.mergeCounters c) = true :=
      (compatible_iff _ _).mpr (modelAB.trans (model_mergeCounters modelBC).symm)
    rw [merge_of_compatible first, merge_of_compatible second]
    dsimp only
    rw [merge_of_compatible left, merge_of_compatible right, mergeCounters_assoc]
  · unfold CoverageSnapshot.merge at rejected ⊢
    split at rejected
    · exact absurd rfl rejected
    · next incompatible => rw [if_neg incompatible]

/-- A covergroup of reads and writes in two regions, where a write to the second region is illegal. -/
def accessGroup : Covergroup (Nat × Nat) where
  name := "access"
  points :=
    [{ name := "kind"
       type := .integral 8 false
       bins := [{ name := "read", fromRanges := [⟨0, 0⟩] }, { name := "write", fromRanges := [⟨1, 1⟩] }]
       isSealed := true
       extractor := fun sample => sample.1 },
      { name := "region"
        type := .integral 8 false
        bins := [{ name := "low", fromRanges := [⟨0, 3⟩] }, { name := "high", fromRanges := [⟨4, 7⟩] }]
        isSealed := true
        extractor := fun sample => sample.2 }]
  crosses :=
    [{ name := "access"
       points := [0, 1]
       hits := [0, 0, 0, 0]
       filters :=
         [{ name := "rom"
            illegal := true
            select := .binary true (.binsOf 0 "kind" [1]) (.binsOf 1 "region" [4]) }] }]

theorem declared_accessGroup : Declared accessGroup := by
  have created := @Declared.create (Nat × Nat) "access" "" 0 _ rfl
  have kind := @Declared.coverpoint _ _ _ "kind" (.integral 8 false) (fun sample => sample.1)
    created rfl
  have read := @Declared.addBin _ _ 0 _ _ { name := "read", fromRanges := [⟨0, 0⟩] } kind rfl rfl
  have write := @Declared.addBin _ _ 0 _ _ { name := "write", fromRanges := [⟨1, 1⟩] } read rfl rfl
  have region := @Declared.coverpoint _ _ _ "region" (.integral 8 false) (fun sample => sample.2)
    write rfl
  have low := @Declared.addBin _ _ 1 _ _ { name := "low", fromRanges := [⟨0, 3⟩] } region rfl rfl
  have high := @Declared.addBin _ _ 1 _ _ { name := "high", fromRanges := [⟨4, 7⟩] } low rfl rfl
  have crossed := @Declared.cross _ _ _ "access" [0, 1] high (by decide) rfl
  exact @Declared.filter _ _ _ 0 "rom"
    (.binary true (.binsOf 0 "kind" [1]) (.binsOf 1 "region" [4])) true crossed rfl

theorem plain_accessGroup : accessGroup.Plain := by
  unfold Covergroup.Plain Coverpoint.Plain
  decide

/-- A read in the first run and a legal write in the second. -/
theorem merge_homomorphism_iff_access :
    (accessGroup.sampleAll [(0, 2)]).snapshot.merge (accessGroup.sampleAll [(1, 3)]).snapshot =
      ((accessGroup.sampleAll ([(0, 2)] ++ [(1, 3)])).snapshot, .ok ()) :=
  ((merge_homomorphism_iff accessGroup declared_accessGroup plain_accessGroup).1 _ _).mpr
    (by decide)

/-- An illegal write in the second run. -/
theorem merge_drops_illegal_cross :
    ¬ ∀ group : Covergroup (Nat × Nat), Declared group → group.Plain →
      ∀ before after,
        (group.sampleAll before).snapshot.merge (group.sampleAll after).snapshot =
          ((group.sampleAll (before ++ after)).snapshot, .ok ()) := by
  intro all
  have merged := congrArg (fun outcome => outcome.1.crosses.map (·.illegalHits))
    (all accessGroup declared_accessGroup plain_accessGroup [] [(1, 5)])
  revert merged
  decide

end Cpptb.Coverage
