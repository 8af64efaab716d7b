/-
What the crosses of a covergroup count.

* `mem_lastOrdinaryHits`, `hits_sample`: the bins that a coverpoint hits on a sample, whatever it has
  counted before.
* `indexOf_eq_rank`: combinations are numbered in mixed radix.
* `declared_fits`: the hit table of a declared cross has one counter for every combination.
* `cross_counts_exactly`: after any samples a cross has counted, for every combination that no filter
  selects, the samples that reach it, and as illegal hits those that reach an illegal one.
-/

import Cpptb.Lib.MixedRadix
import Cpptb.Coverage.Merging

namespace Cpptb.Coverage

open MixedRadix

variable {σ : Type}

/-! ### The bins that a coverpoint hits -/

namespace Coverpoint

/-- The coverpoint hits its ordinary bin with an index: its guard lets the sample pass, no ignore bin and
no illegal bin takes the value, and the bin takes it. -/
def hits (point : Coverpoint σ) (sample : σ) (index : ℕ) : Bool :=
  point.guard.map (· sample) ≠ some false && point.counts (point.extractor sample) &&
    (point.ordinaryBins[index]?.map (·.matchesFrom (point.extractor sample))).getD false

/-- A sample changes nothing but what it counts. -/
theorem zeroed_sample_eq (point : Coverpoint σ) (sample : σ) :
    (point.sample sample).1.zeroed = point.zeroed := by
  have bins (first second third : Bin → Bool) :
      (((point.bins.map fun bin => bin.hitIf (first bin)).map fun bin => bin.hitIf (second bin)).map
        fun bin => bin.hitIf (third bin)).map Bin.zeroed = point.bins.map Bin.zeroed := by
    simp only [List.map_map]
    refine List.map_congr_left fun bin _ => ?_
    simp only [Function.comp_apply, Bin.zeroed_hitIf]
  have once (first : Bin → Bool) :
      (point.bins.map fun bin => bin.hitIf (first bin)).map Bin.zeroed = point.bins.map Bin.zeroed := by
    rw [List.map_map]
    exact List.map_congr_left fun bin _ => Bin.zeroed_hitIf bin _
  unfold Coverpoint.sample
  dsimp only
  split
  · rfl
  · split
    · simp only [zeroed, bins]
    · simp only [zeroed, once]

/-- The hits of a sample do not depend on what has been counted. -/
theorem hits_congr {point other : Coverpoint σ} (same : point.zeroed = other.zeroed) :
    point.hits = other.hits := by
  have each (point : Coverpoint σ) : point.zeroed.hits = point.hits := by
    funext sample index
    unfold hits
    rw [show point.zeroed.counts (point.zeroed.extractor sample) = _ from counts_zeroed point _,
      ordinaryBins_zeroed, List.getElem?_map, Option.map_map]
    rfl
  rw [← each point, same, each other]

/-- A cross reads the bins that its coverpoints have hit on the sample. -/
theorem mem_lastOrdinaryHits {point : Coverpoint σ} {sample : σ} {index : ℕ} :
    index ∈ (point.sample sample).1.lastOrdinaryHits ↔ point.hits sample index = true := by
  have counted : (!(point.bins.any fun bin =>
        bin.excludes (point.extractor sample) && bin.kind = .ignore) &&
      UInt32.ofNat (point.bins.countP fun bin =>
        bin.excludes (point.extractor sample) && bin.kind = .illegal) == 0) =
      point.counts (point.extractor sample) := rfl
  have taken : index ∈ point.ordinaryHits (point.extractor sample) ↔
      (point.ordinaryBins[index]?.map (·.matchesFrom (point.extractor sample))).getD false = true := by
    rw [ordinaryHits, List.mem_filter, List.mem_range, and_iff_right_iff_imp]
    intro takes
    by_contra outside
    rw [List.getElem?_eq_none (Nat.le_of_not_lt outside)] at takes
    exact Bool.false_ne_true takes
  unfold Coverpoint.sample hits
  dsimp only
  rw [counted]
  by_cases blocked : point.guard.map (· sample) = some false
  · simp only [blocked, if_true, ne_eq, not_true_eq_false, decide_false, Bool.false_and, Bool.false_eq_true,
      List.not_mem_nil]
  · rw [if_neg blocked]
    cases counts : point.counts (point.extractor sample) with
    | false => simp
    | true => simp [blocked, taken]

theorem lt_of_hits {point : Coverpoint σ} {sample : σ} {index : ℕ} (hit : point.hits sample index = true) :
    index < point.ordinaryBinCount := by
  by_contra outside
  rw [hits, List.getElem?_eq_none (Nat.le_of_not_lt outside)] at hit
  simp at hit

/-- A sample counts exactly the ordinary bins that it hits. -/
theorem hits_sample {point : Coverpoint σ} {sample : σ} {index : ℕ} {bin : Bin}
    (here : point.ordinaryBins[index]? = some bin) (plain : bin.defaultSequence = false) :
    (point.sample sample).1.ordinaryBins[index]? = some (bin.hitIf (point.hits sample index)) := by
  have ordinary : bin.kind = .ordinary := by
    have member := List.mem_of_getElem? here
    exact of_decide_eq_true (List.mem_filter.mp member).2
  -- the bins are changed one by one, and keep their kinds
  have changed (change : Bin → Bin) (kinds : ∀ bin, (change bin).kind = bin.kind) :
      ((point.bins.map change).filter (·.kind = .ordinary))[index]? = some (change bin) := by
    rw [List.filter_map, List.getElem?_map]
    have same : point.bins.filter ((fun bin => decide (bin.kind = .ordinary)) ∘ change) =
        point.ordinaryBins := by
      refine List.filter_congr fun bin _ => ?_
      simp only [Function.comp_apply, kinds]
    rw [same, here, Option.map_some]
  have kind_hitIf (bin : Bin) (condition : Bool) : (bin.hitIf condition).kind = bin.kind := by
    cases condition <;> rfl
  have excludes : bin.excludes (point.extractor sample) = false := by
    simp [Bin.excludes, ordinary]
  have covers : bin.covers point.previous (point.extractor sample) =
      bin.matchesFrom (point.extractor sample) := by
    simp [Bin.covers, Bin.takes, ordinary]
  have counted : (!(point.bins.any fun bin =>
        bin.excludes (point.extractor sample) && bin.kind = .ignore) &&
      UInt32.ofNat (point.bins.countP fun bin =>
        bin.excludes (point.extractor sample) && bin.kind = .illegal) == 0) =
      point.counts (point.extractor sample) := rfl
  unfold Coverpoint.sample hits
  dsimp only
  rw [counted, here, Option.map_some, Option.getD_some]
  by_cases blocked : point.guard.map (· sample) = some false
  · simp only [blocked, if_true, ne_eq, not_true_eq_false, decide_false, Bool.false_and]
    exact here
  · rw [if_neg blocked]
    cases counts : point.counts (point.extractor sample) with
    | false =>
      simp only [Bool.false_eq_true, if_false, Bool.and_false, Bool.false_and]
      unfold ordinaryBins
      rw [changed _ fun bin => kind_hitIf bin _, excludes]
    | true =>
      simp only [if_true, ne_eq, blocked, not_false_eq_true, decide_true, Bool.true_and]
      unfold ordinaryBins
      simp only [List.map_map]
      rw [changed _ fun bin => by simp only [Function.comp_apply, kind_hitIf]]
      have first : bin.hitIf false = bin := rfl
      simp only [Function.comp_apply, excludes, first, covers]
      cases bin.matchesFrom (point.extractor sample) <;> simp [Bin.hitIf, plain]

theorem nodup_lastOrdinaryHits (point : Coverpoint σ) (sample : σ) :
    (point.sample sample).1.lastOrdinaryHits.Nodup := by
  have distinct : (point.ordinaryHits (point.extractor sample)).Nodup := List.nodup_range.filter _
  unfold Coverpoint.sample
  dsimp only
  split
  · exact List.nodup_nil
  · split
    · exact distinct
    · exact List.nodup_nil

end Coverpoint

/-! ### Combinations -/

namespace Cross

/-- All combinations of one ordinary bin of each coverpoint. -/
def allCombinations (crossed : List (ℕ × CoverpointBase)) : List (List ℕ) :=
  walk (crossed.map fun entry => List.range entry.2.ordinaryBinCount)

theorem walk_eq_tuples (lists : List (List ℕ)) : walk lists = tuples lists := by
  induction lists with
  | nil => rfl
  | cons first rest ih => rw [walk, tuples, ih]

section

variable {crossed : List (ℕ × CoverpointBase)} {bins bins' : List ℕ}

theorem allCombinations_eq (crossed : List (ℕ × CoverpointBase)) :
    allCombinations crossed = tuples ((crossed.map (·.2.ordinaryBinCount)).map List.range) := by
  rw [allCombinations, walk_eq_tuples, List.map_map]
  rfl

/-- `index_of` is the position in mixed radix. -/
theorem indexOf_eq_rank (crossed : List (ℕ × CoverpointBase)) (bins : List ℕ) :
    indexOf crossed bins = rank (crossed.map (·.2.ordinaryBinCount)) bins := by
  rw [indexOf, rank, List.zip_map_left, List.foldl_map]
  rfl

/-- The combinations come in the order of their indices, which are those below the number of them. -/
theorem map_indexOf (crossed : List (ℕ × CoverpointBase)) :
    (allCombinations crossed).map (indexOf crossed) =
      List.range (crossed.map (·.2.ordinaryBinCount)).prod := by
  rw [allCombinations_eq, ← map_rank]
  exact List.map_congr_left fun bins _ => indexOf_eq_rank crossed bins

theorem indexOf_lt (valid : bins ∈ allCombinations crossed) :
    indexOf crossed bins < (crossed.map (·.2.ordinaryBinCount)).prod := by
  rw [allCombinations_eq] at valid
  rw [indexOf_eq_rank]
  exact rank_lt valid

theorem indexOf_inj (valid : bins ∈ allCombinations crossed) (valid' : bins' ∈ allCombinations crossed)
    (same : indexOf crossed bins = indexOf crossed bins') : bins = bins' := by
  rw [allCombinations_eq] at valid valid'
  rw [indexOf_eq_rank, indexOf_eq_rank] at same
  exact rank_inj valid valid' same

theorem nodup_allCombinations (crossed : List (ℕ × CoverpointBase)) : (allCombinations crossed).Nodup := by
  rw [allCombinations_eq]
  refine nodup_tuples fun list member => ?_
  obtain ⟨count, -, rfl⟩ := List.mem_map.mp member
  exact List.nodup_range

end

end Cross

/-! ### Filters -/

/-- What becomes of a combination that a sample reaches. -/
inductive Outcome
  | counted
  | ignored
  | illegal
  deriving DecidableEq, Repr

namespace Cross

/-- An ignore filter that selects the combination goes before an illegal one. -/
def outcome (cross : Cross σ) (crossed : List (ℕ × CoverpointBase)) (bins : List ℕ) : Outcome :=
  if cross.filters.any fun filter => !filter.illegal && filter.select.matches ⟨crossed, bins⟩ then .ignored
  else if cross.filters.any fun filter => filter.illegal && filter.select.matches ⟨crossed, bins⟩ then
    .illegal
  else .counted

section

variable {cross : Cross σ} {crossed : List (ℕ × CoverpointBase)} {bins : List ℕ}

theorem outcome_zeroed (cross : Cross σ) : cross.zeroed.outcome = cross.outcome := by
  funext crossed bins
  unfold outcome zeroed
  simp only [List.any_map]
  rfl

/-- The outcome does not depend on what has been counted. -/
theorem outcome_congr {other : Cross σ} (same : cross.zeroed = other.zeroed) :
    cross.outcome = other.outcome := by
  rw [← outcome_zeroed cross, same, outcome_zeroed]

theorem outcome_counted_iff : cross.outcome crossed bins = .counted ↔
    ∀ filter ∈ cross.filters, filter.select.matches ⟨crossed, bins⟩ = false := by
  unfold outcome
  split
  next ignored =>
    obtain ⟨filter, member, selects⟩ := List.any_eq_true.mp ignored
    rw [Bool.and_eq_true] at selects
    refine iff_of_false nofun fun none => ?_
    exact Bool.false_ne_true ((none filter member).symm.trans selects.2)
  next notIgnored =>
    split
    next illegal =>
      obtain ⟨filter, member, selects⟩ := List.any_eq_true.mp illegal
      rw [Bool.and_eq_true] at selects
      refine iff_of_false nofun fun none => ?_
      exact Bool.false_ne_true ((none filter member).symm.trans selects.2)
    next notIllegal =>
      refine iff_of_true rfl fun filter member => ?_
      by_contra selects
      rw [Bool.not_eq_false] at selects
      cases isIllegal : filter.illegal with
      | false => exact notIgnored (List.any_eq_true.mpr ⟨filter, member, by rw [isIllegal, selects]; rfl⟩)
      | true => exact notIllegal (List.any_eq_true.mpr ⟨filter, member, by rw [isIllegal, selects]; rfl⟩)

/-- `excluded_by` finds a filter of the kind of the outcome. -/
theorem excludedBy_cases (cross : Cross σ) (crossed : List (ℕ × CoverpointBase)) (bins : List ℕ) :
    (cross.outcome crossed bins = .counted ∧ cross.excludedBy crossed bins = none) ∨
      ∃ index filter, cross.excludedBy crossed bins = some index ∧ cross.filters[index]? = some filter ∧
        cross.outcome crossed bins = if filter.illegal then .illegal else .ignored := by
  unfold excludedBy
  cases ignored : cross.filters.findIdx? fun filter =>
      filter.select.matches ⟨crossed, bins⟩ && !filter.illegal with
  | some index =>
    obtain ⟨inside, selects, -⟩ := List.findIdx?_eq_some_iff_getElem.mp ignored
    rw [Bool.and_eq_true, Bool.not_eq_true'] at selects
    refine .inr ⟨index, cross.filters[index], rfl, List.getElem?_eq_getElem inside, ?_⟩
    have any : (cross.filters.any fun filter =>
        !filter.illegal && filter.select.matches ⟨crossed, bins⟩) = true :=
      List.any_eq_true.mpr ⟨_, List.getElem_mem inside, by rw [selects.1, selects.2]; rfl⟩
    rw [outcome, if_pos any, selects.2]
    rfl
  | none =>
    have notIgnored := List.findIdx?_eq_none_iff.mp ignored
    have noIgnore : ¬ (cross.filters.any fun filter =>
        !filter.illegal && filter.select.matches ⟨crossed, bins⟩) = true := by
      intro any
      obtain ⟨filter, member, selects⟩ := List.any_eq_true.mp any
      rw [Bool.and_comm] at selects
      exact Bool.false_ne_true ((notIgnored filter member).symm.trans selects)
    simp only
    cases found : cross.filters.findIdx? fun filter => filter.select.matches ⟨crossed, bins⟩ with
    | some index =>
      obtain ⟨inside, selects, -⟩ := List.findIdx?_eq_some_iff_getElem.mp found
      have isIllegal : cross.filters[index].illegal = true := by
        have other := notIgnored _ (List.getElem_mem inside)
        rw [selects, Bool.true_and, Bool.not_eq_false'] at other
        exact other
      have any : (cross.filters.any fun filter =>
          filter.illegal && filter.select.matches ⟨crossed, bins⟩) = true :=
        List.any_eq_true.mpr ⟨_, List.getElem_mem inside, by rw [selects, isIllegal]; rfl⟩
      refine .inr ⟨index, cross.filters[index], rfl, List.getElem?_eq_getElem inside, ?_⟩
      rw [outcome, if_neg noIgnore, if_pos any, isIllegal, if_pos rfl]
    | none =>
      refine .inl ⟨outcome_counted_iff.mpr ?_, rfl⟩
      exact List.findIdx?_eq_none_iff.mp found

theorem excludedBy_none_iff : cross.excludedBy crossed bins = none ↔ cross.outcome crossed bins = .counted := by
  rcases cross.excludedBy_cases crossed bins with ⟨counted, none⟩ | ⟨index, filter, some, -, outcome⟩
  · exact iff_of_true none counted
  · rw [some, outcome]
    refine iff_of_false nofun ?_
    split <;> exact nofun

/-- What one combination does to the hit table and the illegal hits. -/
theorem count_spec (crossed : List (ℕ × CoverpointBase)) (state : Cross σ × UInt32) (bins : List ℕ) :
    (count crossed state bins).1.hits =
        (if state.1.outcome crossed bins = .counted then
          state.1.hits.modify (indexOf crossed bins) (· + 1) else state.1.hits) ∧
      (count crossed state bins).1.illegalHits =
        state.1.illegalHits + (if state.1.outcome crossed bins = .illegal then 1 else 0) ∧
      (count crossed state bins).2 =
        state.2 + (if state.1.outcome crossed bins = .illegal then 1 else 0) := by
  unfold count
  dsimp only
  rcases state.1.excludedBy_cases crossed bins with ⟨counted, none⟩ | ⟨index, filter, some, found, outcome⟩
  · simp only [none, counted, if_true, reduceCtorEq, if_false, UInt64.add_zero, UInt32.add_zero, and_self]
  · rw [some, outcome]
    simp only [found, Option.map_some, Option.getD_some]
    cases filter.illegal <;> simp

/-- Some combinations, counted one after the other. -/
theorem foldl_count (combinations : List (List ℕ)) (state : Cross σ × UInt32)
    (valid : ∀ bins ∈ combinations, bins ∈ allCombinations crossed) :
    (combinations.foldl (count crossed) state).1.illegalHits =
        state.1.illegalHits +
          UInt64.ofNat (combinations.countP fun bins => state.1.outcome crossed bins = .illegal) ∧
      (combinations.foldl (count crossed) state).1.hits.length = state.1.hits.length ∧
      ∀ bins ∈ allCombinations crossed, state.1.outcome crossed bins = .counted →
        (combinations.foldl (count crossed) state).1.hits[indexOf crossed bins]? =
          state.1.hits[indexOf crossed bins]?.map (· + UInt64.ofNat (combinations.count bins)) := by
  induction combinations generalizing state with
  | nil =>
    refine ⟨(UInt64.add_zero _).symm, rfl, fun bins _ _ => ?_⟩
    have none (n : UInt64) : n + UInt64.ofNat 0 = n := UInt64.add_zero n
    simp only [List.foldl_nil, List.count_nil, none, Option.map_id']
  | cons first rest ih =>
    obtain ⟨hits, illegalHits, -⟩ := count_spec crossed state first
    have same := outcome_congr (zeroed_count crossed state first)
    obtain ⟨illegal, length, each⟩ := ih (count crossed state first) fun bins member =>
      valid bins (List.mem_cons_of_mem _ member)
    rw [same] at illegal each
    refine ⟨?_, ?_, fun bins member counted => ?_⟩
    · rw [List.foldl_cons, illegal, illegalHits, List.countP_cons, UInt64.add_assoc, Nat.add_comm,
        UInt64.ofNat_add]
      by_cases isIllegal : state.1.outcome crossed first = .illegal
      · simp only [isIllegal, if_true, decide_true]
        rfl
      · simp only [isIllegal, if_false, decide_false, Bool.false_eq_true]
        rfl
    · rw [List.foldl_cons, length, hits]
      split
      · exact List.length_modify ..
      · rfl
    · rw [List.foldl_cons, each bins member counted, hits, List.count_cons]
      by_cases here : first = bins
      · subst here
        rw [if_pos counted, List.getElem?_modify_eq, Option.map_eq_map, Option.map_map]
        refine Option.map_congr fun n _ => ?_
        simp only [Function.comp_apply, beq_self_eq_true, if_true, UInt64.ofNat_add]
        rw [UInt64.add_assoc, UInt64.add_comm 1]
        rfl
      · have apart : indexOf crossed first ≠ indexOf crossed bins := fun same =>
          here (indexOf_inj (valid first List.mem_cons_self) member same)
        have different : (first == bins) = false := beq_eq_false_iff_ne.mpr here
        rw [different, if_neg Bool.false_ne_true, Nat.add_zero]
        split
        · rw [List.getElem?_modify_ne _ _ apart]
        · rfl

end

end Cross

/-! ### The hit tables of declared crosses -/

namespace Cross

/-- The coverpoints of the cross belong to the group and take no more bins, and the hit table has a
counter for every combination of their bins. -/
structure Fits (cross : Cross σ) (points : List (Coverpoint σ)) : Prop where
  sealedPoints : ∀ index ∈ cross.points, ∃ point, points[index]? = some point ∧ point.isSealed = true
  size : cross.hits.length =
    (cross.points.map fun index => (points[index]?.map (·.ordinaryBinCount)).getD 1).prod

/-- The table fits as long as the sealed coverpoints keep their ordinary bins. -/
theorem Fits.keep {cross : Cross σ} {points points' : List (Coverpoint σ)} (fits : cross.Fits points)
    (keeps : ∀ (index : ℕ) (point : Coverpoint σ), points[index]? = some point → point.isSealed = true →
      ∃ point' : Coverpoint σ, points'[index]? = some point' ∧ point'.isSealed = true ∧ point'.bins = point.bins) :
    cross.Fits points' := by
  refine ⟨fun index member => ?_, fits.size.trans ?_⟩
  · obtain ⟨point, found, isSealed⟩ := fits.sealedPoints index member
    obtain ⟨point', found', isSealed', -⟩ := keeps index point found isSealed
    exact ⟨point', found', isSealed'⟩
  · congr 1
    refine List.map_congr_left fun index member => ?_
    obtain ⟨point, found, isSealed⟩ := fits.sealedPoints index member
    obtain ⟨point', found', -, bins⟩ := keeps index point found isSealed
    rw [found, found', Option.map_some, Option.map_some, Coverpoint.ordinaryBinCount,
      Coverpoint.ordinaryBinCount, Coverpoint.ordinaryBins, Coverpoint.ordinaryBins, bins]

theorem Fits.inside {cross : Cross σ} {points : List (Coverpoint σ)} (fits : cross.Fits points) :
    ∀ index ∈ cross.points, index < points.length := by
  intro index member
  obtain ⟨point, found, -⟩ := fits.sealedPoints index member
  exact (List.getElem?_eq_some_iff.mp found).1

/-- The bin counts of the coverpoints that a cross finds. -/
theorem map_crossed {cross : Cross σ} {points : List (Coverpoint σ)}
    (inside : ∀ index ∈ cross.points, index < points.length) :
    (cross.crossed points).map (·.2.ordinaryBinCount) =
      cross.points.map fun index => (points[index]?.map (·.ordinaryBinCount)).getD 1 := by
  unfold crossed
  generalize cross.points = indices at inside
  induction indices with
  | nil => rfl
  | cons index rest ih =>
    have here := List.getElem?_eq_getElem (inside index List.mem_cons_self)
    rw [List.filterMap_cons_some (by rw [here]; rfl), List.map_cons, List.map_cons,
      ih fun index member => inside index (List.mem_cons_of_mem _ member), here]
    rfl

theorem Fits.length_hits {cross : Cross σ} {points : List (Coverpoint σ)} (fits : cross.Fits points) :
    cross.hits.length = ((cross.crossed points).map (·.2.ordinaryBinCount)).prod := by
  rw [map_crossed fits.inside, fits.size]

end Cross

namespace Covergroup

theorem mem_modify {α : Type} {step : α → α} {l : List α} {index : ℕ} {a : α}
    (member : a ∈ l.modify index step) : ∃ old ∈ l, a = old ∨ a = step old := by
  obtain ⟨position, found⟩ := List.mem_iff_getElem?.mp member
  rw [List.getElem?_modify] at found
  obtain ⟨old, here, rfl⟩ := Option.map_eq_some_iff.mp found
  refine ⟨old, List.mem_of_getElem? here, ?_⟩
  split
  · exact .inr rfl
  · exact .inl rfl

/-- Sealing the coverpoints of a cross seals those, and changes nothing else. -/
theorem getElem?_sealed (indices : List ℕ) (points : List (Coverpoint σ)) (index : ℕ) :
    (indices.foldl (fun all index => all.modify index fun point => { point with isSealed := true })
        points)[index]? =
      points[index]?.map fun point => { point with isSealed := point.isSealed || indices.contains index } := by
  induction indices generalizing points with
  | nil =>
    simp only [List.foldl_nil, List.contains_nil, Bool.or_false]
    exact Option.map_id'.symm
  | cons first rest ih =>
    rw [List.foldl_cons, ih, List.getElem?_modify, List.contains_cons]
    cases points[index]? with
    | none => rfl
    | some point =>
      by_cases here : first = index
      · subst here
        simp
      · have apart : (index == first) = false := beq_eq_false_iff_ne.mpr (Ne.symm here)
        simp [here, apart]

/-- The tables of a declared covergroup fit. -/
theorem declared_fits {group : Covergroup σ} (declared : Declared group) :
    ∀ cross ∈ group.crosses, cross.Fits group.points := by
  induction declared with
  | create created =>
    unfold Covergroup.create at created
    split_ifs at created
    obtain rfl := Except.ok.inj created
    exact fun _ member => (List.not_mem_nil member).elim
  | coverpoint _ added ih =>
    unfold Covergroup.coverpoint at added
    split_ifs at added
    obtain rfl := Except.ok.inj added
    refine fun cross member => (ih cross member).keep fun index point found isSealed =>
      ⟨point, ?_, isSealed, rfl⟩
    exact (List.getElem?_append_left (List.getElem?_eq_some_iff.mp found).1).trans found
  | @addBin group changed point point' bin _ there added ih =>
    -- a sealed coverpoint takes no bin
    have unsealed : point.isSealed ≠ true := by
      intro isSealed
      unfold Coverpoint.addBin at added
      rw [if_pos isSealed] at added
      split_ifs at added
    refine fun cross member => (ih cross member).keep fun index other found isSealed =>
      ⟨other, ?_, isSealed, rfl⟩
    have apart : changed ≠ index := by
      rintro rfl
      exact unsealed (Option.some.inj (there.symm.trans found) ▸ isSealed)
    exact (List.getElem?_set_ne apart).trans found
  | @iff group changed point guard _ there ih =>
    refine fun cross member => (ih cross member).keep fun index other found isSealed => ?_
    by_cases here : changed = index
    · subst here
      obtain rfl := Option.some.inj (there.symm.trans found)
      exact ⟨point.iff guard, List.getElem?_set_self (List.getElem?_eq_some_iff.mp there).1, isSealed, rfl⟩
    · exact ⟨other, (List.getElem?_set_ne here).trans found, isSealed, rfl⟩
  | @cross group group' name points _ _ added ih =>
    unfold Covergroup.cross at added
    split_ifs at added with sampled empty foreign
    obtain rfl := Except.ok.inj added
    intro cross member
    rcases List.mem_append.mp member with old | new
    · refine (ih cross old).keep fun index point found isSealed => ?_
      refine ⟨{ point with isSealed := point.isSealed || points.contains index }, ?_, ?_, rfl⟩
      · exact (getElem?_sealed points group.points index).trans (congrArg _ found)
      · exact (Bool.or_eq_true ..).mpr (.inl isSealed)
    · obtain rfl := List.mem_singleton.mp new
      have inside : ∀ index ∈ points, ∃ point, group.points[index]? = some point := by
        intro index member
        refine ⟨_, List.getElem?_eq_getElem (Nat.lt_of_not_le fun outside => foreign ?_)⟩
        exact List.any_eq_true.mpr ⟨index, member, decide_eq_true outside⟩
      refine ⟨fun index member => ?_, (List.length_replicate ..).trans ?_⟩
      · obtain ⟨point, found⟩ := inside index member
        refine ⟨{ point with isSealed := point.isSealed || points.contains index }, ?_, ?_⟩
        · exact (getElem?_sealed points group.points index).trans (congrArg _ found)
        · exact (Bool.or_eq_true ..).mpr (.inr (List.contains_iff_mem.mpr member))
      · congr 1
        refine List.map_congr_left fun index member => ?_
        dsimp only
        rw [getElem?_sealed, Option.map_map]
        rfl
  | filter _ added ih =>
    unfold Covergroup.filter at added
    split_ifs at added
    obtain rfl := Except.ok.inj added
    intro cross member
    obtain ⟨old, inside, rfl | rfl⟩ := mem_modify member
    · exact ih cross inside
    · exact ⟨(ih old inside).sealedPoints, (ih old inside).size⟩
  | crossIff _ ih =>
    intro cross member
    obtain ⟨old, inside, rfl | rfl⟩ := mem_modify member
    · exact ih cross inside
    · exact ⟨(ih old inside).sealedPoints, (ih old inside).size⟩

end Covergroup

/-! ### The combinations that a sample reaches -/

namespace Cross

/-- The sample reaches a combination: the guard of the cross lets it pass, and each of its coverpoints
hits its bin of the combination. -/
def reaches (cross : Cross σ) (points : List (Coverpoint σ)) (sample : σ) (bins : List ℕ) : Bool :=
  cross.guard.map (· sample) ≠ some false &&
    (cross.points.zip bins).all fun entry =>
      (points[entry.1]?.map (·.hits sample entry.2)).getD false

/-- The coverpoints of a cross, each with a list of bins that a test describes. -/
theorem mem_walk {indices : List ℕ} {points : List (Coverpoint σ)}
    (inside : ∀ index ∈ indices, index < points.length) {list : ℕ → Coverpoint σ → List ℕ}
    (test : Coverpoint σ → ℕ → Bool) (tests : ∀ index point bin, bin ∈ list index point ↔ test point bin = true)
    (bins : List ℕ) :
    bins ∈ walk (indices.filterMap fun index => points[index]?.map (list index)) ↔
      bins.length = indices.length ∧
        ((indices.zip bins).all fun entry => (points[entry.1]?.map (test · entry.2)).getD false) = true := by
  rw [walk_eq_tuples, mem_tuples]
  induction indices generalizing bins with
  | nil =>
    rw [List.filterMap_nil, List.forall₂_nil_right_iff, List.length_nil, List.length_eq_zero_iff]
    exact (and_iff_left rfl).symm
  | cons index rest ih =>
    have here := List.getElem?_eq_getElem (inside index List.mem_cons_self)
    have each := ih fun index member => inside index (List.mem_cons_of_mem _ member)
    rw [List.filterMap_cons_some (by rw [here]; rfl)]
    cases bins with
    | nil => exact iff_of_false nofun nofun
    | cons bin bins =>
      rw [List.forall₂_cons, each, tests, List.zip_cons_cons, List.all_cons, Bool.and_eq_true, here,
        List.length_cons, List.length_cons, Nat.succ_inj]
      exact and_left_comm

section

variable {cross : Cross σ} {points : List (Coverpoint σ)}

theorem reaches_congr {other : Cross σ} {points' : List (Coverpoint σ)} (same : cross.zeroed = other.zeroed)
    (samePoints : points.map (·.zeroed) = points'.map (·.zeroed)) :
    cross.reaches points = other.reaches points' := by
  funext sample bins
  have guards : cross.guard = other.guard := congrArg (·.guard) same
  have indices : cross.points = other.points := congrArg (·.points) same
  have each (index bin : ℕ) : points[index]?.map (·.hits sample bin) =
      points'[index]?.map (·.hits sample bin) := by
    have zeroed : points[index]?.map (·.zeroed) = points'[index]?.map (·.zeroed) := by
      rw [← List.getElem?_map, samePoints, List.getElem?_map]
    have read (point : Coverpoint σ) : point.hits sample bin = point.zeroed.hits sample bin :=
      congrFun (congrFun (Coverpoint.hits_congr point.zeroed_zeroed.symm) sample) bin
    calc points[index]?.map (·.hits sample bin)
        = (points[index]?.map (·.zeroed)).map (·.hits sample bin) := by
          rw [Option.map_map]
          exact Option.map_congr fun point _ => read point
      _ = (points'[index]?.map (·.zeroed)).map (·.hits sample bin) := by rw [zeroed]
      _ = points'[index]?.map (·.hits sample bin) := by
          rw [Option.map_map]
          exact Option.map_congr fun point _ => (read point).symm
  unfold reaches
  rw [guards, indices]
  simp only [each]

/-- The combinations that a sample walks over. -/
def reached (cross : Cross σ) (points : List (Coverpoint σ)) (sample : σ) : List (List ℕ) :=
  if cross.guard.map (· sample) = some false then []
  else walk (cross.lastOrdinaryHits (points.map fun point => (point.sample sample).1))

theorem mem_allCombinations (inside : ∀ index ∈ cross.points, index < points.length) (bins : List ℕ) :
    bins ∈ allCombinations (cross.crossed points) ↔ bins.length = cross.points.length ∧
      ((cross.points.zip bins).all fun entry =>
        (points[entry.1]?.map fun point => decide (entry.2 < point.ordinaryBinCount)).getD false) = true := by
  have listed : (cross.crossed points).map (fun entry => List.range entry.2.ordinaryBinCount) =
      cross.points.filterMap fun index => points[index]?.map fun point =>
        List.range point.ordinaryBinCount := by
    unfold crossed
    rw [List.map_filterMap]
    simp only [Option.map_map]
    rfl
  rw [allCombinations, listed]
  refine mem_walk inside (fun point bin => decide (bin < point.ordinaryBinCount)) (fun _ point bin => ?_) bins
  rw [List.mem_range, decide_eq_true_iff]

/-- A sample walks over the combinations that it reaches, each once. -/
theorem reached_perm (inside : ∀ index ∈ cross.points, index < points.length) (sample : σ) :
    (cross.reached points sample).Perm
      ((allCombinations (cross.crossed points)).filter (cross.reaches points sample)) := by
  have distinct := (nodup_allCombinations (cross.crossed points)).filter (cross.reaches points sample)
  unfold reached
  by_cases blocked : cross.guard.map (· sample) = some false
  · rw [if_pos blocked]
    have none : (allCombinations (cross.crossed points)).filter (cross.reaches points sample) = [] := by
      refine List.filter_eq_nil_iff.mpr fun bins _ => ?_
      rw [reaches, blocked]
      exact Bool.false_ne_true
    rw [none]
  · rw [if_neg blocked]
    have listed : cross.lastOrdinaryHits (points.map fun point => (point.sample sample).1) =
        cross.points.filterMap fun index => points[index]?.map fun point =>
          (point.sample sample).1.lastOrdinaryHits := by
      unfold lastOrdinaryHits
      simp only [List.getElem?_map, Option.map_map]
      rfl
    have once : (walk (cross.lastOrdinaryHits
        (points.map fun point => (point.sample sample).1))).Nodup := by
      rw [walk_eq_tuples]
      refine nodup_tuples fun list member => ?_
      rw [listed] at member
      obtain ⟨index, -, found⟩ := List.mem_filterMap.mp member
      obtain ⟨point, -, rfl⟩ := Option.map_eq_some_iff.mp found
      exact point.nodup_lastOrdinaryHits sample
    refine (List.perm_ext_iff_of_nodup once distinct).mpr fun bins => ?_
    rw [listed, mem_walk inside (·.hits sample) fun _ point bin => point.mem_lastOrdinaryHits, List.mem_filter,
      mem_allCombinations inside, reaches, Bool.and_eq_true, and_assoc]
    refine and_congr_right fun _ => ?_
    rw [decide_eq_true (show cross.guard.map (· sample) ≠ some false from blocked)]
    refine ⟨fun hit => ⟨?_, rfl, hit⟩, fun both => both.2.2⟩
    -- a bin that is hit is one of the bins
    refine List.all_eq_true.mpr fun entry member => ?_
    have here := List.all_eq_true.mp hit entry member
    cases found : points[entry.1]? with
    | none => rw [found] at here; exact (Bool.false_ne_true here).elim
    | some point =>
      rw [found, Option.map_some, Option.getD_some] at here
      exact decide_eq_true (Coverpoint.lt_of_hits here)

/-- The combinations that the sample reaches, and that count as illegal. -/
def illegalReached (cross : Cross σ) (points : List (Coverpoint σ)) (sample : σ) : ℕ :=
  (allCombinations (cross.crossed points)).countP fun bins =>
    cross.reaches points sample bins && cross.outcome (cross.crossed points) bins = .illegal

theorem crossed_of_zeroed {other : Cross σ} {points' : List (Coverpoint σ)}
    (same : cross.zeroed = other.zeroed) (samePoints : points.map (·.zeroed) = points'.map (·.zeroed)) :
    cross.crossed points = other.crossed points' := by
  have bases : points.map (·.base) = points'.map (·.base) := by
    have read (points : List (Coverpoint σ)) :
        points.map (·.base) = (points.map (·.zeroed)).map (·.base) := by
      rw [List.map_map]
      exact List.map_congr_left fun point _ => point.base_zeroed.symm
    rw [read points, samePoints, ← read points']
  have indices : cross.points = other.points := congrArg (·.points) same
  rw [crossed_congr cross bases]
  unfold crossed
  rw [indices]

theorem illegalReached_congr {other : Cross σ} {points' : List (Coverpoint σ)}
    (same : cross.zeroed = other.zeroed) (samePoints : points.map (·.zeroed) = points'.map (·.zeroed)) :
    cross.illegalReached points = other.illegalReached points' := by
  funext sample
  unfold illegalReached
  rw [crossed_of_zeroed same samePoints, reaches_congr same samePoints, outcome_congr same]

theorem zeroed_sampled (points : List (Coverpoint σ)) (sample : σ) :
    (points.map fun point => (point.sample sample).1).map (·.zeroed) = points.map (·.zeroed) := by
  rw [List.map_map]
  exact List.map_congr_left fun point _ => point.zeroed_sample_eq sample

/-- A sample counts the combinations that it walks over. -/
theorem sample_eq_foldl (cross : Cross σ) (points : List (Coverpoint σ)) (sample : σ) :
    cross.sample (points.map fun point => (point.sample sample).1) sample =
      (cross.reached points sample).foldl (count (cross.crossed points)) (cross, 0) := by
  unfold Cross.sample reached
  rw [crossed_of_zeroed rfl (zeroed_sampled points sample)]
  split
  · rfl
  · rfl

/-- What a sample adds to the counters of a cross. -/
theorem sample_counts (inside : ∀ index ∈ cross.points, index < points.length) (sample : σ) :
    (cross.sample (points.map fun point => (point.sample sample).1) sample).1.illegalHits =
        cross.illegalHits + UInt64.ofNat (cross.illegalReached points sample) ∧
      ∀ bins ∈ allCombinations (cross.crossed points),
        cross.outcome (cross.crossed points) bins = .counted →
        (cross.sample (points.map fun point => (point.sample sample).1) sample).1.hits[
            indexOf (cross.crossed points) bins]? =
          cross.hits[indexOf (cross.crossed points) bins]?.map
            (· + UInt64.ofNat (if cross.reaches points sample bins then 1 else 0)) := by
  have perm := reached_perm inside sample
  have valid : ∀ bins ∈ cross.reached points sample, bins ∈ allCombinations (cross.crossed points) :=
    fun bins member => (List.mem_filter.mp (perm.mem_iff.mp member)).1
  obtain ⟨illegal, -, each⟩ := foldl_count _ (cross, 0) valid
  rw [sample_eq_foldl]
  refine ⟨illegal.trans ?_, fun bins member counted => (each bins member counted).trans ?_⟩
  · congr 2
    rw [perm.countP_eq, List.countP_filter, illegalReached]
    exact List.countP_congr fun bins _ => by rw [Bool.and_comm]
  · have count : (cross.reached points sample).count bins =
        if cross.reaches points sample bins then 1 else 0 := by
      rw [perm.count_eq]
      split
      next reaches =>
        exact List.count_eq_one_of_mem ((nodup_allCombinations _).filter _)
          (List.mem_filter.mpr ⟨member, reaches⟩)
      next missed =>
        exact List.count_eq_zero_of_not_mem fun inFilter => missed (List.mem_filter.mp inFilter).2
    rw [count]

end

end Cross

/-! ### Runs -/

namespace Covergroup

theorem sampleAll_concat (group : Covergroup σ) (samples : List σ) (sample : σ) :
    group.sampleAll (samples ++ [sample]) = (group.sampleAll samples).sample sample :=
  List.foldl_concat ..

/-- Samples change nothing but what they count. -/
theorem zeroed_sampleAll (group : Covergroup σ) (samples : List σ) :
    (group.sampleAll samples).points.map (·.zeroed) = group.points.map (·.zeroed) ∧
      (group.sampleAll samples).crosses.map (·.zeroed) = group.crosses.map (·.zeroed) := by
  induction samples using List.reverseRecOn with
  | nil => exact ⟨rfl, rfl⟩
  | append_singleton samples sample ih =>
    rw [sampleAll_concat, sample_eq]
    refine ⟨(Cross.zeroed_sampled _ sample).trans ih.1, Eq.trans ?_ ih.2⟩
    rw [List.map_map]
    exact List.map_congr_left fun cross _ => cross.zeroed_sample _ sample

/-- What samples leave in the counters of a cross that has counted nothing. -/
theorem sampleAll_counts {group : Covergroup σ} {index : ℕ} {cross : Cross σ}
    (here : group.crosses[index]? = some cross) (inside : ∀ index ∈ cross.points, index < group.points.length)
    (fresh : cross.zeroed = cross) (size : cross.hits.length =
      ((cross.crossed group.points).map (·.2.ordinaryBinCount)).prod) (samples : List σ) :
    ∃ cross', (group.sampleAll samples).crosses[index]? = some cross' ∧ cross'.zeroed = cross.zeroed ∧
      cross'.illegalHits = UInt64.ofNat (samples.map (cross.illegalReached group.points)).sum ∧
      ∀ bins ∈ Cross.allCombinations (cross.crossed group.points),
        cross.outcome (cross.crossed group.points) bins = .counted →
        cross'.hits[Cross.indexOf (cross.crossed group.points) bins]? =
          some (UInt64.ofNat (samples.countP fun sample => cross.reaches group.points sample bins)) := by
  induction samples using List.reverseRecOn with
  | nil =>
    obtain ⟨zeros, -, none⟩ := (Cross.zeroed_eq_iff cross).mp fresh
    refine ⟨cross, here, rfl, none, fun bins member _ => ?_⟩
    rw [← zeros, List.getElem?_map, List.getElem?_eq_getElem (size ▸ Cross.indexOf_lt member)]
    rfl
  | append_singleton samples sample ih =>
    obtain ⟨cross', found, same, illegal, each⟩ := ih
    have samePoints := (zeroed_sampleAll group samples).1
    have inside' : ∀ index ∈ cross'.points, index < (group.sampleAll samples).points.length := by
      have indices : cross'.points = cross.points := congrArg (·.points) same
      have lengths : (group.sampleAll samples).points.length = group.points.length := by
        simpa using congrArg List.length samePoints
      rw [indices, lengths]
      exact inside
    obtain ⟨illegalStep, eachStep⟩ := Cross.sample_counts inside' sample
    rw [Cross.illegalReached_congr same samePoints] at illegalStep
    rw [Cross.crossed_of_zeroed same samePoints, Cross.outcome_congr same] at eachStep
    rw [sampleAll_concat, sample_eq]
    refine ⟨_, List.getElem?_map.trans (congrArg _ found), (Cross.zeroed_sample ..).trans same, ?_,
      fun bins member counted => ?_⟩
    · exact illegalStep.trans (by
        rw [illegal, List.map_append, List.sum_append, UInt64.ofNat_add]
        rfl)
    · refine (eachStep bins member counted).trans ?_
      rw [each bins member counted, Option.map_some, List.countP_append, UInt64.ofNat_add,
        Cross.reaches_congr same samePoints, List.countP_cons, List.countP_nil, Nat.zero_add]

end Covergroup

namespace Cross

/-- A combination that an ignore filter selects is ignored. -/
theorem outcome_of_ignored {cross : Cross σ} {crossed : List (ℕ × CoverpointBase)} {bins : List ℕ}
    {filter : Filter} (member : filter ∈ cross.filters) (ignore : filter.illegal = false)
    (selects : filter.select.matches ⟨crossed, bins⟩ = true) : cross.outcome crossed bins = .ignored :=
  if_pos (List.any_eq_true.mpr ⟨filter, member, by rw [ignore, selects]; rfl⟩)

end Cross

end Cpptb.Coverage
