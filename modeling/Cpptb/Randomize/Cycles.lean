/-
`RandC` never repeats early.

* `sinceReset`: the values a history has accepted for a variable since the last reset of its cycle.
* `cycleComplete_exhausts`: a cycle found complete has accepted every value of the effective support.
* `randc_cycles`: in every history the values accepted between two resets are distinct, a cycle is
  reset only when its effective support is exhausted, and what a `RandC` has seen is what the history
  has accepted for it, whatever happened to the other variables.
-/

import Cpptb.Randomize.Randomized
import Cpptb.Randomize.Soundness

namespace Cpptb.Randomize

open Segments

/-! ### Cycles of a history -/

/-- The values accepted since the last reset, after one more event. -/
def seenAfter (index : Nat) (seen : List Nat) : CycleEvent → List Nat
  | .accepted other raw => if other = index then seen ++ [raw] else seen
  | .reset other => if other = index then [] else seen

/-- The values accepted for a variable since the last reset of its cycle. -/
def sinceReset (index : Nat) (events : List CycleEvent) : List Nat :=
  events.foldl (seenAfter index) []

/-- The variable of an event. -/
def CycleEvent.variableIndex : CycleEvent → Nat
  | .accepted index _ => index
  | .reset index => index

/-- Between two resets no value is accepted twice: in every part of the history from its start. -/
def Distinct (index : Nat) (events : List CycleEvent) : Prop :=
  ∀ before, before <+: events → (sinceReset index before).Nodup

section

variable {index : Nat} {events new : List CycleEvent}

theorem sinceReset_append : sinceReset index (events ++ new) =
    new.foldl (seenAfter index) (sinceReset index events) :=
  List.foldl_append

theorem sinceReset_concat (event : CycleEvent) :
    sinceReset index (events ++ [event]) = seenAfter index (sinceReset index events) event :=
  sinceReset_append

/-- Events of other variables do not change a cycle. -/
theorem foldl_seenAfter_of_ne {seen : List Nat} (others : ∀ event ∈ new, event.variableIndex ≠ index) :
    new.foldl (seenAfter index) seen = seen := by
  induction new generalizing seen with
  | nil => rfl
  | cons event rest ih =>
      have other := others event List.mem_cons_self
      have same : seenAfter index seen event = seen := by
        cases event with
        | accepted _ _ => exact if_neg other
        | reset _ => exact if_neg other
      rw [List.foldl_cons, same]
      exact ih fun event' member => others event' (List.mem_cons_of_mem _ member)

theorem sinceReset_of_ne (others : ∀ event ∈ new, event.variableIndex ≠ index) :
    sinceReset index (events ++ new) = sinceReset index events := by
  rw [sinceReset_append, foldl_seenAfter_of_ne others]

/-- A history stays distinct while only fresh values are accepted. -/
theorem Distinct.append (distinct : Distinct index events)
    (fresh : ∀ before raw after, new = before ++ .accepted index raw :: after →
      raw ∉ sinceReset index (events ++ before)) : Distinct index (events ++ new) := by
  induction new generalizing events with
  | nil =>
      rw [List.append_nil]
      exact distinct
  | cons event rest ih =>
      have step : Distinct index (events ++ [event]) := by
        intro before isPrefix
        rcases List.prefix_concat_iff.mp isPrefix with rfl | earlier
        · have old := distinct events (List.prefix_refl _)
          rw [sinceReset_concat]
          cases event with
          | accepted other raw =>
              simp only [seenAfter]
              split
              · rename_i same
                have notSeen := fresh [] raw rest (by rw [same, List.nil_append])
                rw [List.append_nil] at notSeen
                exact List.Nodup.append old (List.nodup_singleton raw)
                  (List.disjoint_singleton.mpr notSeen)
              · exact old
          | reset other =>
              simp only [seenAfter]
              split
              · exact List.nodup_nil
              · exact old
        · exact distinct before earlier
      rw [← List.singleton_append, ← List.append_assoc]
      refine ih step fun before raw after same => ?_
      rw [List.append_assoc, List.singleton_append]
      exact fresh (event :: before) raw after (by rw [same, List.cons_append])

/-- Accepting values in the order of the variables. -/
theorem accepted_split {values : List Nat} {start raw : Nat} {before after : List CycleEvent}
    (split : (values.zipIdx start).map (fun (raw, index) => CycleEvent.accepted index raw) =
      before ++ .accepted index raw :: after) :
    (∃ offset, index = start + offset ∧ values[offset]? = some raw) ∧
      ∀ event ∈ before, event.variableIndex < index := by
  induction values generalizing start before with
  | nil => exact absurd split (by simp)
  | cons value rest ih =>
      rw [List.zipIdx_cons, List.map_cons] at split
      cases before with
      | nil =>
          rw [List.nil_append, List.cons.injEq, CycleEvent.accepted.injEq] at split
          obtain ⟨⟨rfl, rfl⟩, -⟩ := split
          exact ⟨⟨0, rfl, rfl⟩, fun _ member => (List.not_mem_nil member).elim⟩
      | cons first before =>
          rw [List.cons_append, List.cons.injEq] at split
          obtain ⟨isFirst, later⟩ := split
          obtain ⟨⟨offset, rfl, found⟩, below⟩ := ih later
          refine ⟨⟨offset + 1, by omega, found⟩, fun event member => ?_⟩
          rcases List.mem_cons.mp member with rfl | inBefore
          · rw [← isFirst, CycleEvent.variableIndex]
            omega
          · exact below event inBefore

theorem foldl_acceptEvents (values : List Nat) (start : Nat) (seen : List Nat) :
    ((values.zipIdx start).map fun (raw, index) => CycleEvent.accepted index raw).foldl
        (seenAfter index) seen =
      if start ≤ index then seen ++ values[index - start]?.toList else seen := by
  induction values generalizing start seen with
  | nil =>
      simp only [List.zipIdx_nil, List.map_nil, List.foldl_nil, List.getElem?_nil, Option.toList_none,
        List.append_nil, ite_self]
  | cons value rest ih =>
      rw [List.zipIdx_cons, List.map_cons, List.foldl_cons, ih]
      simp only [seenAfter]
      rcases Nat.lt_trichotomy start index with below | rfl | above
      · rw [if_neg below.ne, if_pos (show start + 1 ≤ index from below), if_pos below.le,
          show index - start = index - (start + 1) + 1 by omega, List.getElem?_cons_succ]
      · rw [if_pos rfl, if_neg (show ¬ start + 1 ≤ start by omega), if_pos (Nat.le_refl _),
          Nat.sub_self, List.getElem?_cons_zero, Option.toList_some]
      · rw [if_neg above.ne', if_neg (show ¬ start + 1 ≤ index by omega),
          if_neg (show ¬ start ≤ index by omega)]

/-- Accepting an assignment gives every variable one value. -/
theorem sinceReset_acceptEvents (values : List Nat) :
    sinceReset index (events ++ Randomized.acceptEvents values) =
      sinceReset index events ++ values[index]?.toList := by
  rw [sinceReset_append, Randomized.acceptEvents, foldl_acceptEvents, if_pos (Nat.zero_le _),
    Nat.sub_zero]

/-- Resetting some cycles. -/
theorem sinceReset_resets (indices : List Nat) :
    sinceReset index (events ++ indices.map CycleEvent.reset) =
      if index ∈ indices then [] else sinceReset index events := by
  rw [sinceReset_append]
  generalize sinceReset index events = seen
  induction indices generalizing seen with
  | nil => rfl
  | cons first rest ih =>
      rw [List.map_cons, List.foldl_cons, ih]
      simp only [seenAfter, List.mem_cons]
      by_cases later : index ∈ rest
      · rw [if_pos later, if_pos (Or.inr later)]
      · by_cases here : first = index
        · rw [if_neg later, if_pos here, if_pos (Or.inl here.symm)]
        · rw [if_neg later, if_neg here, if_neg (not_or.mpr ⟨Ne.symm here, later⟩)]

end

/-! ### Complete cycles -/

/-- A value that the declared range, tightened by the hard constraints of the problem, and the
distribution of the variable leave. -/
def EffectiveSupport (problem : ConstraintProblem) (index ordered : Nat) : Prop :=
  ∃ (collected : Collected) (descriptor : VariableDescriptor) (domain : CandidateDomain),
    collectConstraints false problem.constraints 0
      { domains := problem.vars.map VariableDescriptor.domain } = .ok collected ∧
    problem.vars[index]? = some descriptor ∧ collected.domains[index]? = some domain ∧
    domain.Allows ordered ∧
    ∀ distribution ∈ problem.distributions, distribution.expression.variableIndex = index →
      ∃ entry ∈ distribution.expression.entries,
        entry.weight ≠ 0 ∧ (entry.ordered descriptor.type).Has ordered

/-- The open range of the scan is the last of the merged ranges. -/
structure Scans (scan : SupportScan) (merged : List RawRange) : Prop where
  sizes : scan.total = total merged
  current : scan.current = merged.getLast?

theorem Scans.step {scan : SupportScan} {merged : List RawRange} (scans : Scans scan merged)
    (range : RawRange) : Scans (scanRange scan range) (mergeRange merged range) := by
  have size_eq : ∀ segment : Segment, segment.size = inclusiveSize segment.minimum segment.maximum :=
    fun _ => rfl
  have sizes := scans.sizes
  unfold scanRange mergeRange
  rw [scans.current]
  cases found : merged.getLast? with
  | none =>
      rw [SupportScan.total, scans.current, found, List.getLast?_eq_none_iff.mp found] at sizes
      refine ⟨?_, rfl⟩
      simp only at sizes ⊢
      rw [SupportScan.total, sizes, total_cons, size_eq, Nat.add_comm]
  | some back =>
      rw [SupportScan.total, scans.current, found] at sizes
      obtain ⟨front, rfl⟩ := List.getLast?_eq_some_iff.mp found
      rw [total_concat, size_eq] at sizes
      simp only at sizes ⊢
      by_cases touching : back.maximum = maxU64 ∨ range.minimum ≤ back.maximum + 1
      · rw [if_pos touching, if_neg (by omega), List.dropLast_concat]
        refine ⟨?_, (List.getLast?_concat ..).symm⟩
        rw [total_concat, size_eq, SupportScan.total]
        simp only
        omega
      · rw [if_neg touching, if_pos (by omega)]
        refine ⟨?_, (List.getLast?_concat ..).symm⟩
        rw [total_concat, total_concat, size_eq, size_eq, SupportScan.total]
        simp only
        omega

theorem Scans.foldl {scan : SupportScan} {merged : List RawRange} (scans : Scans scan merged)
    (ranges : List RawRange) :
    Scans (ranges.foldl scanRange scan) (ranges.foldl mergeRange merged) := by
  induction ranges generalizing scan merged with
  | nil => exact scans
  | cons range rest ih => exact ih (scans.step range)

namespace Candidate

variable {candidate : Candidate}

theorem covers_support {entries : List WeightedRange} {ordered : Nat} :
    Covers (candidate.support entries) ordered ↔
      Covers candidate.domain.ranges ordered ∧
        ∃ entry ∈ entries, entry.weight ≠ 0 ∧ (entry.ordered candidate.type).Has ordered := by
  have flat : Covers (candidate.support entries) ordered ↔
      ∃ entry ∈ entries, entry.weight ≠ 0 ∧
        Covers (clip (entry.ordered candidate.type) candidate.domain.ranges) ordered := by
    simp only [support, Covers, List.mem_flatMap, List.mem_filter, bne_iff_ne]
    constructor
    · rintro ⟨range, ⟨entry, ⟨member, positive⟩, inside⟩, has⟩
      exact ⟨entry, member, positive, range, inside, has⟩
    · rintro ⟨entry, member, positive, range, inside, has⟩
      exact ⟨range, ⟨entry, ⟨member, positive⟩, inside⟩, has⟩
  rw [flat]
  simp only [covers_clip]
  constructor
  · rintro ⟨entry, member, positive, has, covered⟩
    exact ⟨covered, entry, member, positive, has⟩
  · rintro ⟨covered, entry, member, positive, has⟩
    exact ⟨entry, member, positive, has, covered⟩

/-- The support of a candidate as ranges whose sizes add up to `support_size`. -/
theorem exists_support (candidate : Candidate) : ∃ ranges : List RawRange, total ranges = candidate.supportSize ∧
    ∀ ordered, Covers ranges ordered ↔ candidate.contains ordered = true := by
  unfold supportSize
  cases isDistribution : candidate.distribution with
  | none =>
      refine ⟨candidate.domain.ranges, rfl, fun ordered => ?_⟩
      rw [contains, isDistribution, distributionContains_none]
  | some distribution =>
      have begun : Scans {} ([] : List RawRange) := ⟨rfl, rfl⟩
      refine ⟨(sortRanges (candidate.support distribution.expression.entries)).foldl mergeRange [],
        (begun.foldl _).sizes.symm, fun ordered => ?_⟩
      rw [covers_merge_sort, contains, isDistribution, distributionContains_some, covers_support]
      intro range member
      obtain ⟨entry, -, inClip⟩ := List.mem_flatMap.mp member
      have proper := proper_of_mem_clip inClip
      obtain ⟨inMap, -⟩ := List.mem_filter.mp inClip
      obtain ⟨old, -, rfl⟩ := List.mem_map.mp inMap
      have bound := candidate.type.orderedRaw_le_max entry.range.maximum
      simp only [Segment.meet, WeightedRange.ordered] at proper ⊢
      omega

/-- What the loop over the excluded values keeps. -/
theorem uniqueExcluded_spec (candidate : Candidate) :
    candidate.uniqueExcluded.Nodup ∧ ∀ ordered ∈ candidate.uniqueExcluded,
      candidate.contains ordered = true ∧
        ∃ raw ∈ candidate.descriptor.excludedRaw, candidate.type.orderedRaw raw = ordered := by
  have loop : ∀ (raws unique : List Nat) (_ : ∀ raw ∈ raws, raw ∈ candidate.descriptor.excludedRaw)
      (_ : unique.Nodup ∧ ∀ ordered ∈ unique, candidate.contains ordered = true ∧
        ∃ raw ∈ candidate.descriptor.excludedRaw, candidate.type.orderedRaw raw = ordered),
      (raws.foldl (fun unique raw =>
        let ordered := candidate.type.orderedRaw raw
        if !candidate.contains ordered || unique.contains ordered then unique
        else unique ++ [ordered]) unique).Nodup ∧
      ∀ ordered ∈ raws.foldl (fun unique raw =>
        let ordered := candidate.type.orderedRaw raw
        if !candidate.contains ordered || unique.contains ordered then unique
        else unique ++ [ordered]) unique, candidate.contains ordered = true ∧
        ∃ raw ∈ candidate.descriptor.excludedRaw, candidate.type.orderedRaw raw = ordered := by
    intro raws
    induction raws with
    | nil => exact fun unique _ good => good
    | cons raw rest ih =>
        intro unique within good
        refine ih _ (fun other member => within other (List.mem_cons_of_mem _ member)) ?_
        simp only
        split
        · exact good
        · rename_i keep
          rw [Bool.or_eq_true, not_or, Bool.not_eq_true', Bool.not_eq_false, List.contains_iff_mem]
            at keep
          refine ⟨List.Nodup.append good.1 (List.nodup_singleton _)
            (List.disjoint_singleton.mpr keep.2), fun ordered member => ?_⟩
          rcases List.mem_append.mp member with old | here
          · exact good.2 ordered old
          · rw [List.mem_singleton] at here
            exact here ▸ ⟨keep.1, raw, within raw List.mem_cons_self, rfl⟩
  exact loop candidate.descriptor.excludedRaw [] (fun _ member => member)
    ⟨List.nodup_nil, fun _ member => (List.not_mem_nil member).elim⟩

/-- A cycle found complete has excluded every value that could be drawn. -/
theorem cycleComplete_exhausts (complete : candidate.cycleComplete = true) {ordered : Nat}
    (contains : candidate.contains ordered = true) :
    ∃ raw ∈ candidate.descriptor.excludedRaw, candidate.type.orderedRaw raw = ordered := by
  obtain ⟨ranges, size, covered⟩ := candidate.exists_support
  obtain ⟨distinct, each⟩ := candidate.uniqueExcluded_spec
  simp only [cycleComplete, Bool.and_eq_true, decide_eq_true_eq, ge_iff_le] at complete
  have all := exhausts_of_total_le distinct
    (fun x member => (covered x).mpr (each x member).1) (size ▸ complete.2.2)
    ((covered ordered).mpr contains)
  exact (each ordered all).2

end Candidate

/-- The effective support of a variable is what its candidate contains. -/
theorem contains_iff_effectiveSupport {problem : ConstraintProblem} {collected : Collected}
    {distributions : List (Option NamedDistribution)}
    (configured : Configured problem false collected distributions) {index : Nat}
    {candidate : Candidate}
    (here : (problem.candidates collected distributions)[index]? = some candidate) {ordered : Nat} :
    EffectiveSupport problem index ordered ↔ candidate.contains ordered = true := by
  obtain ⟨isVariable, ⟨domain, found, -⟩, -⟩ := candidate_at.mp here
  rw [Candidate.contains_iff, configured.covers_candidate here found]
  constructor
  · rintro ⟨collected', descriptor, domain', ran, isVariable', found', allows, weighted⟩
    obtain rfl := Except.ok.inj (configured.ran.symm.trans ran)
    obtain rfl := Option.some.inj (found.symm.trans found')
    obtain rfl := Option.some.inj (isVariable.symm.trans isVariable')
    refine ⟨allows, fun distribution same => ?_⟩
    obtain ⟨member, target⟩ := (configured.distribution_iff here).mp same
    exact weighted distribution member target
  · rintro ⟨allows, weighted⟩
    exact ⟨collected, candidate.descriptor, domain, configured.ran, isVariable, found, allows,
      fun distribution member target =>
        weighted distribution ((configured.distribution_iff here).mpr ⟨member, target⟩)⟩

/-- A cycle that a search reports complete has excluded its whole effective support. -/
theorem completedCycles_exhaust {problem : ConstraintProblem} {result : RandomizeResult}
    (sound : Sound problem result) (status : result.status = .cycleExhausted) {index : Nat}
    (member : index ∈ result.cycleVariables) :
    ∃ descriptor, problem.vars[index]? = some descriptor ∧ descriptor.cyclic = true ∧
      ∀ ordered, EffectiveSupport problem index ordered →
        ∃ raw ∈ descriptor.excludedRaw, descriptor.type.orderedRaw raw = ordered := by
  obtain ⟨collected, distributions, configured, cycles⟩ := sound.exhausted status
  rw [cycles] at member
  obtain ⟨⟨candidate, position⟩, found, isIndex⟩ := List.mem_filterMap.mp member
  have here := List.mem_zipIdx_iff_getElem?.mp found
  simp only at isIndex here
  split at isIndex
  · rename_i complete
    obtain rfl := Option.some.inj isIndex
    refine ⟨candidate.descriptor, (candidate_at.mp here).1, ?_, fun ordered supports => ?_⟩
    · simp only [Candidate.cycleComplete, Bool.and_eq_true] at complete
      exact complete.1.1
    · exact Candidate.cycleComplete_exhausts complete
        ((contains_iff_effectiveSupport configured here).mp supports)
  · cases isIndex

/-! ### The kept problem -/

namespace Randomized

/-- The problem of the enabled constraints and distributions, and the inline constraints. -/
def activeProblem (object : Randomized) (inlineConstraints : List NamedConstraint) :
    ConstraintProblem where
  vars := object.descriptors
  constraints := object.constraints.filter NamedConstraint.enabled ++ inlineConstraints
  distributions := object.distributions.filter NamedDistribution.enabled

/-- The kept problem is up to date when its revision is, and has the variables when it is
initialized. -/
structure Cached (object : Randomized) : Prop where
  revision : object.problemControlRevision ≤ object.controlRevision
  constraints : object.problemControlRevision = object.controlRevision →
    object.problem.constraints.take object.baseConstraintCount =
      object.constraints.filter NamedConstraint.enabled
  count : object.problemControlRevision = object.controlRevision →
    object.baseConstraintCount = (object.constraints.filter NamedConstraint.enabled).length
  distributions : object.problemControlRevision = object.controlRevision →
    object.problem.distributions = object.distributions.filter NamedDistribution.enabled
  initialized : object.problemInitialized = true → object.problem.vars.length = object.rands.length

/-- The object but for its kept problem. -/
structure SameModel (object object' : Randomized) : Prop where
  rands : object'.rands = object.rands
  constraints : object'.constraints = object.constraints
  distributions : object'.distributions = object.distributions

theorem length_descriptors (object : Randomized) : object.descriptors.length = object.rands.length := by
  rw [descriptors, List.length_map, List.length_zipIdx]

/-- `prepare_problem` builds the active problem, and keeps it up to date. -/
theorem prepareProblem_spec {object : Randomized} (cached : object.Cached)
    (inlineConstraints : List NamedConstraint) :
    (object.prepareProblem inlineConstraints).problem = object.activeProblem inlineConstraints ∧
      (object.prepareProblem inlineConstraints).Cached ∧
      SameModel object (object.prepareProblem inlineConstraints) := by
  have vars : (if !object.problemInitialized then object.descriptors
      else overwritten object.problem.vars object.descriptors) = object.descriptors := by
    rcases Bool.eq_false_or_eq_true object.problemInitialized with kept | fresh
    · simp only [kept, Bool.not_true, Bool.false_eq_true, if_false]
      rw [overwritten, object.length_descriptors, ← cached.initialized kept, List.drop_length,
        List.append_nil]
    · simp only [fresh, Bool.not_false, if_true]
  unfold prepareProblem
  simp only [vars]
  by_cases stale : object.problemControlRevision ≠ object.controlRevision
  · simp only [if_pos stale, List.take_length]
    exact ⟨rfl, ⟨Nat.le_refl _, fun _ => List.take_left, fun _ => rfl, fun _ => rfl,
      fun _ => object.length_descriptors⟩, rfl, rfl, rfl⟩
  · have current := not_not.mp stale
    simp only [if_neg stale, cached.constraints current]
    refine ⟨?_, ⟨cached.revision, fun _ => ?_, cached.count, cached.distributions,
      fun _ => object.length_descriptors⟩, rfl, rfl, rfl⟩
    · simp only [activeProblem, cached.distributions current]
    · simp only [cached.count current]
      exact List.take_left

/-- A change of the variables' values and cycles. -/
theorem Cached.of_rands {object : Randomized} (cached : object.Cached) {rands : List RandVariable}
    (length : rands.length = object.rands.length) : ({ object with rands := rands }).Cached :=
  ⟨cached.revision, cached.constraints, cached.count, cached.distributions,
    fun kept => (cached.initialized kept).trans length.symm⟩

/-- A change that raises the revision. -/
theorem Cached.of_revision {object object' : Randomized} (cached : object.Cached)
    (raised : object'.controlRevision = object.controlRevision + 1)
    (kept : object'.problemControlRevision = object.problemControlRevision)
    (initialized : object'.problemInitialized = true →
      object'.problem.vars.length = object'.rands.length) : object'.Cached := by
  have revision := cached.revision
  have behind : object'.problemControlRevision ≠ object'.controlRevision := by omega
  exact ⟨by omega, fun same => absurd same behind, fun same => absurd same behind,
    fun same => absurd same behind, initialized⟩

/-- The expressions of the object are built over its variables. -/
def BuiltOver (object : Randomized) (constraints : List NamedConstraint) : Prop :=
  ∀ constraint ∈ constraints, ∀ node, constraint.expression = some node →
    ConstraintExpr object.types node

theorem types_activeProblem (object : Randomized) (inlineConstraints : List NamedConstraint) :
    (object.activeProblem inlineConstraints).types = object.types := by
  rw [ConstraintProblem.types, types, activeProblem, descriptors, List.map_map]
  conv_rhs => rw [← List.zipIdx_map_fst 0 object.rands, List.map_map]
  rfl

/-- The active problem is well formed. -/
theorem activeProblem_wellFormed {object : Randomized} (built : object.BuiltOver object.constraints)
    {inlineConstraints : List NamedConstraint} (builtInline : object.BuiltOver inlineConstraints)
    (enabled : ∀ constraint ∈ inlineConstraints, constraint.enabled = true) :
    (object.activeProblem inlineConstraints).WellFormed where
  built := fun constraint member => by
    rw [types_activeProblem]
    rcases List.mem_append.mp member with old | new
    · exact built constraint (List.mem_filter.mp old).1
    · exact builtInline constraint new
  enabled := fun constraint member => by
    rcases List.mem_append.mp member with old | new
    · exact (List.mem_filter.mp old).2
    · exact enabled constraint new
  active := fun distribution member => (List.mem_filter.mp member).2

theorem descriptor_at {object : Randomized} {inlineConstraints : List NamedConstraint} {index : Nat}
    {descriptor : VariableDescriptor} :
    (object.activeProblem inlineConstraints).vars[index]? = some descriptor ↔
      ∃ rand, object.rands[index]? = some rand ∧ rand.descriptor index = descriptor := by
  simp only [activeProblem, descriptors, List.getElem?_map, List.getElem?_zipIdx, Option.map_map,
    Option.map_eq_some_iff, Function.comp_apply, Nat.zero_add]

/-! ### Histories -/

/-- The cycles of the variables are those of the history. -/
structure Tracks (object : Randomized) (events : List CycleEvent) : Prop where
  known : ∀ event ∈ events, event.variableIndex < object.rands.length
  seen : ∀ (index : Nat) (rand : RandVariable), object.rands[index]? = some rand →
    rand.cyclic = true → rand.seen = sinceReset index events
  normal : ∀ (index : Nat) (rand : RandVariable), object.rands[index]? = some rand →
    ∀ raw ∈ rand.seen, raw < rand.type.count
  distinct : ∀ (index : Nat) (rand : RandVariable), object.rands[index]? = some rand →
    rand.cyclic = true → Distinct index events

theorem acceptValues_at {rands : List RandVariable} {values : List Nat} {index : Nat}
    {rand : RandVariable} : (acceptValues rands values)[index]? = some rand ↔
      ∃ old raw, rands[index]? = some old ∧ values[index]? = some raw ∧
        (old.setRaw raw).acceptCycleValue raw = rand := by
  simp only [acceptValues, List.getElem?_map, Option.map_eq_some_iff, List.getElem?_zip_eq_some,
    Prod.exists, and_assoc]

theorem acceptCycleValue_type (rand : RandVariable) (raw : Nat) :
    ((rand.setRaw raw).acceptCycleValue raw).type = rand.type ∧
      ((rand.setRaw raw).acceptCycleValue raw).cyclic = rand.cyclic := by
  unfold RandVariable.acceptCycleValue
  split <;> exact ⟨rfl, rfl⟩

/-- An accepted assignment extends the history by one fresh value for every `RandC`. -/
theorem Tracks.accept {object : Randomized} {events : List CycleEvent} (tracks : object.Tracks events)
    {inlineConstraints : List NamedConstraint} {values : List Nat}
    (satisfies : Satisfies (object.activeProblem inlineConstraints) values) :
    ({ object with rands := acceptValues object.rands values }).Tracks
      (events ++ acceptEvents values) := by
  have length : values.length = object.rands.length := by
    rw [satisfies.length, activeProblem, length_descriptors]
  have length' : (acceptValues object.rands values).length = object.rands.length := by
    rw [acceptValues, List.length_map, List.length_zip, length, Nat.min_self]
  have fits : ∀ {index raw : Nat} {rand : RandVariable}, object.rands[index]? = some rand →
      values[index]? = some raw → rand.type.normalize raw = raw ∧
        (rand.cyclic = true → raw ∉ rand.seen) := by
    intro index raw rand here value
    have isVariable : (object.activeProblem inlineConstraints).vars[index]? =
        some (rand.descriptor index) := descriptor_at.mpr ⟨rand, here, rfl⟩
    have same : values.getD index 0 = raw := by
      rw [List.getD_eq_getElem?_getD, value, Option.getD_some]
    have normal := satisfies.normal index _ isVariable
    have fresh := satisfies.excluded index _ isVariable
    rw [same] at normal fresh
    refine ⟨rand.type.normalize_of_lt normal, fun cyclic => ?_⟩
    simp only [RandVariable.descriptor, cyclic, if_true] at fresh
    exact fresh
  refine ⟨fun event member => ?_, fun index rand here cyclic => ?_, fun index rand here => ?_,
    fun index rand here cyclic => ?_⟩
  · rw [length']
    rcases List.mem_append.mp member with old | new
    · exact tracks.known event old
    · obtain ⟨⟨raw, index⟩, found, rfl⟩ := List.mem_map.mp new
      have value := List.mem_zipIdx_iff_getElem?.mp found
      rw [← length]
      exact (List.getElem?_eq_some_iff.mp value).1
  · obtain ⟨old, raw, isOld, value, rfl⟩ := acceptValues_at.mp here
    rw [(acceptCycleValue_type old raw).2] at cyclic
    have extended : ((old.setRaw raw).acceptCycleValue raw).seen =
        old.seen ++ [old.type.normalize raw] := by
      rw [RandVariable.acceptCycleValue, if_pos (show (old.setRaw raw).cyclic = true from cyclic)]
      rfl
    rw [extended, (fits isOld value).1, tracks.seen index old isOld cyclic, sinceReset_acceptEvents,
      value, Option.toList_some]
  · obtain ⟨old, raw, isOld, value, rfl⟩ := acceptValues_at.mp here
    intro other member
    rw [(acceptCycleValue_type old raw).1]
    unfold RandVariable.acceptCycleValue at member
    split at member
    · rcases List.mem_append.mp member with before | now
      · exact tracks.normal index old isOld other before
      · rw [List.mem_singleton] at now
        exact now ▸ old.type.normalize_lt raw
    · exact tracks.normal index old isOld other member
  · obtain ⟨old, raw, isOld, value, rfl⟩ := acceptValues_at.mp here
    rw [(acceptCycleValue_type old raw).2] at cyclic
    refine (tracks.distinct index old isOld cyclic).append fun before raw' after split => ?_
    obtain ⟨⟨offset, isIndex, value'⟩, below⟩ := accepted_split split
    rw [Nat.zero_add] at isIndex
    rw [← isIndex] at value'
    rw [sinceReset_of_ne fun event member => (below event member).ne, ← tracks.seen index old isOld cyclic]
    exact Option.some.inj (value.symm.trans value') ▸ (fits isOld value).2 cyclic

/-- The cycles of `done` are reset, and nothing else is changed. -/
structure Resets (object : Randomized) (indices done : List Nat)
    (outcome : Bool × Randomized × List CycleEvent) : Prop where
  events : outcome.2.2 = done.map CycleEvent.reset
  within : ∀ index ∈ done, index ∈ indices ∧ index < object.rands.length
  rest : outcome.2.1 = { object with rands := outcome.2.1.rands }
  length : outcome.2.1.rands.length = object.rands.length
  each : ∀ index : Nat, outcome.2.1.rands[index]? =
    object.rands[index]?.map fun rand => if index ∈ done then rand.resetCycle else rand

theorem Resets.none (object : Randomized) (indices : List Nat) (valid : Bool) :
    Resets object indices [] (valid, object, []) where
  events := rfl
  within := fun _ member => (List.not_mem_nil member).elim
  rest := rfl
  length := rfl
  each := fun index => by
    simp only [List.not_mem_nil, if_false, Option.map_id']

theorem resetCycles_spec (indices : List Nat) (object : Randomized) :
    ∃ done, Resets object indices done (resetCycles object indices) := by
  induction indices generalizing object with
  | nil => exact ⟨[], .none object [] true⟩
  | cons first rest ih =>
      unfold resetCycles
      cases found : object.rands[first]? with
      | none => exact ⟨[], .none object _ false⟩
      | some rand =>
          simp only
          by_cases empty : (!rand.hasCycleValues) = true
          · rw [if_pos empty]
            exact ⟨[], .none object _ false⟩
          · rw [if_neg empty]
            obtain ⟨done, resets⟩ :=
              ih { object with rands := object.rands.modify first RandVariable.resetCycle }
            have length := resets.length
            have within := resets.within
            simp only [List.length_modify] at within length
            refine ⟨first :: done, congrArg _ resets.events, fun index member => ?_, resets.rest, length,
              fun index => ?_⟩
            · rcases List.mem_cons.mp member with rfl | later
              · exact ⟨List.mem_cons_self, (List.getElem?_eq_some_iff.mp found).1⟩
              · exact ⟨List.mem_cons_of_mem _ (within index later).1, (within index later).2⟩
            · rw [show (_ : Bool × Randomized × List CycleEvent).2.1.rands[index]? = _ from
                resets.each index, List.getElem?_modify, Option.map_eq_map, Option.map_map]
              refine Option.map_congr fun old _ => ?_
              have twice : old.resetCycle.resetCycle = old.resetCycle := by
                unfold RandVariable.resetCycle
                split <;> rename_i cyclic <;> simp [cyclic]
              simp only [Function.comp_apply, List.mem_cons, @eq_comm _ index first]
              by_cases here : first = index
              · by_cases later : index ∈ done
                · rw [if_pos here, if_pos later, if_pos (Or.inl here)]
                  exact twice
                · rw [if_pos here, if_neg later, if_pos (Or.inl here)]
              · by_cases later : index ∈ done
                · rw [if_neg here, if_pos later, if_pos (Or.inr later)]
                · rw [if_neg here, if_neg later, if_neg (not_or.mpr ⟨here, later⟩)]

/-- Resetting some cycles extends the history by the resets. -/
theorem Tracks.resetCycles {object : Randomized} {events : List CycleEvent}
    (tracks : object.Tracks events) (indices : List Nat) :
    (resetCycles object indices).2.1.Tracks (events ++ (resetCycles object indices).2.2) := by
  obtain ⟨done, isEvents, within, -, length, each⟩ := resetCycles_spec indices object
  rw [isEvents]
  have old : ∀ {index : Nat} {rand : RandVariable},
      (Randomized.resetCycles object indices).2.1.rands[index]? = some rand →
      ∃ before, object.rands[index]? = some before ∧
        (if index ∈ done then before.resetCycle else before) = rand := by
    intro index rand here
    rw [each index, Option.map_eq_some_iff] at here
    exact here
  have unchanged : ∀ before : RandVariable, before.resetCycle.cyclic = before.cyclic ∧
      before.resetCycle.type = before.type := by
    intro before
    unfold RandVariable.resetCycle
    split <;> exact ⟨rfl, rfl⟩
  refine ⟨fun event member => ?_, fun index rand here cyclic => ?_, fun index rand here => ?_,
    fun index rand here cyclic => ?_⟩
  · rw [length]
    rcases List.mem_append.mp member with before | now
    · exact tracks.known event before
    · obtain ⟨index, inDone, rfl⟩ := List.mem_map.mp now
      exact (within index inDone).2
  · obtain ⟨before, isBefore, rfl⟩ := old here
    rw [sinceReset_resets]
    by_cases reset : index ∈ done
    · rw [if_pos reset] at cyclic ⊢
      rw [if_pos reset, RandVariable.resetCycle, if_pos ((unchanged before).1 ▸ cyclic)]
    · rw [if_neg reset] at cyclic ⊢
      rw [if_neg reset]
      exact tracks.seen index before isBefore cyclic
  · obtain ⟨before, isBefore, rfl⟩ := old here
    intro raw member
    split at member
    · rename_i reset
      rw [if_pos reset, (unchanged before).2]
      unfold RandVariable.resetCycle at member
      split at member
      · exact (List.not_mem_nil member).elim
      · exact tracks.normal index before isBefore raw member
    · rename_i reset
      rw [if_neg reset]
      exact tracks.normal index before isBefore raw member
  · obtain ⟨before, isBefore, rfl⟩ := old here
    have cyclic' : before.cyclic = true := by
      split at cyclic
      · exact (unchanged before).1 ▸ cyclic
      · exact cyclic
    refine (tracks.distinct index before isBefore cyclic').append fun front raw after split => ?_
    have inMap : CycleEvent.accepted index raw ∈ done.map CycleEvent.reset := by
      rw [split]
      exact List.mem_append_right _ List.mem_cons_self
    obtain ⟨other, -, differs⟩ := List.mem_map.mp inMap
    cases differs

/-! ### What every call keeps -/

/-- What holds of an object and its history between calls. -/
structure Invariant (object : Randomized) (events : List CycleEvent) : Prop where
  cached : object.Cached
  built : object.BuiltOver object.constraints
  tracks : object.Tracks events

/-- New values and cycles of the same variables keep the model. -/
theorem Invariant.of_rands {object : Randomized} {events events' : List CycleEvent}
    (invariant : object.Invariant events) {rands : List RandVariable}
    (types : rands.map RandVariable.type = object.rands.map RandVariable.type)
    (tracks : ({ object with rands := rands }).Tracks events') :
    ({ object with rands := rands }).Invariant events' := by
  have length : rands.length = object.rands.length := by
    rw [← List.length_map RandVariable.type, types, List.length_map]
  refine ⟨invariant.cached.of_rands length, fun constraint member node expression => ?_, tracks⟩
  have built := invariant.built constraint member node expression
  rw [Randomized.types, ← types] at built
  exact built

theorem Invariant.prepare {object : Randomized} {events : List CycleEvent}
    (invariant : object.Invariant events) (inlineConstraints : List NamedConstraint) :
    (object.prepareProblem inlineConstraints).Invariant events ∧
      (object.prepareProblem inlineConstraints).activeProblem inlineConstraints =
        object.activeProblem inlineConstraints ∧
      (object.prepareProblem inlineConstraints).types = object.types ∧
      (object.prepareProblem inlineConstraints).problem = object.activeProblem inlineConstraints := by
  obtain ⟨problem, cached, same⟩ := prepareProblem_spec invariant.cached inlineConstraints
  refine ⟨⟨cached, ?_, ?_⟩, ?_, congrArg (List.map RandVariable.type) same.rands, problem⟩
  · have built := invariant.built
    unfold BuiltOver types at built ⊢
    rw [same.rands, same.constraints]
    exact built
  · obtain ⟨known, seen, normal, distinct⟩ := invariant.tracks
    rw [← same.rands] at known seen normal distinct
    exact ⟨known, seen, normal, distinct⟩
  · simp only [activeProblem, descriptors, same.rands, same.constraints, same.distributions]

theorem Invariant.accept {object : Randomized} {events : List CycleEvent}
    (invariant : object.Invariant events) {inlineConstraints : List NamedConstraint}
    {result : RandomizeResult} (sound : Sound (object.activeProblem inlineConstraints) result)
    (name : String) :
    (object.accept name result).1.Invariant (events ++ (object.accept name result).2.1) := by
  unfold Randomized.accept
  split
  · rw [List.append_nil]
    exact invariant
  · rename_i solved
    split
    · rw [List.append_nil]
      exact invariant
    · rename_i length
      have satisfies := sound.solved (not_not.mp solved)
      refine invariant.of_rands ?_ (invariant.tracks.accept satisfies)
      refine List.ext_getElem? fun index => ?_
      rw [List.getElem?_map, List.getElem?_map]
      cases here : object.rands[index]? with
      | none =>
          have outside := List.getElem?_eq_none_iff.mp here
          rw [List.getElem?_eq_none_iff.mpr (by
            rw [acceptValues, List.length_map, List.length_zip]
            omega), Option.map_none]
      | some rand =>
          have inside : index < result.values.length := by
            rw [not_not.mp length]
            exact (List.getElem?_eq_some_iff.mp here).1
          have accepted := acceptValues_at.mpr ⟨rand, _, here, List.getElem?_eq_getElem inside, rfl⟩
          rw [accepted, Option.map_some, Option.map_some, (acceptCycleValue_type rand _).1]

theorem resetCycles_types (object : Randomized) (indices : List Nat) :
    (Randomized.resetCycles object indices).2.1.types = object.types := by
  obtain ⟨done, resets⟩ := resetCycles_spec indices object
  refine List.ext_getElem? fun index => ?_
  rw [types, types, List.getElem?_map, List.getElem?_map, resets.each index, Option.map_map]
  refine Option.map_congr fun rand _ => ?_
  simp only [Function.comp_apply]
  split
  · unfold RandVariable.resetCycle
    split <;> rfl
  · rfl

theorem Invariant.resetCycles {object : Randomized} {events : List CycleEvent}
    (invariant : object.Invariant events) (indices : List Nat) :
    (resetCycles object indices).2.1.Invariant
      (events ++ (Randomized.resetCycles object indices).2.2) := by
  have tracks := invariant.tracks.resetCycles indices
  have types := resetCycles_types object indices
  obtain ⟨done, resets⟩ := resetCycles_spec indices object
  rw [resets.rest] at tracks types ⊢
  exact invariant.of_rands types tracks

end Randomized

theorem Sound.congr {problem : ConstraintProblem} {result result' : RandomizeResult}
    (sound : Sound problem result) (status : result'.status = result.status)
    (values : result'.values = result.values)
    (cycles : result'.cycleVariables = result.cycleVariables) : Sound problem result' := by
  refine ⟨fun solved => ?_, fun unsatisfiable => ?_, fun exhausted => ?_⟩
  · rw [values]
    exact sound.solved (status.symm.trans solved)
  · exact sound.unsatisfiable (status.symm.trans unsatisfiable)
  · rw [cycles]
    exact sound.exhausted (status.symm.trans exhausted)

section

variable {ρ : Type} (random : Generator ρ)

theorem BuiltInBackend.solve_sound (backend : BuiltInBackend) {problem : ConstraintProblem}
    (wellFormed : problem.WellFormed) : Ensures (backend.solve random problem) (Sound problem) := by
  refine Ensures.bind (randomSearch_sound random wellFormed backend.attempts) fun result sound => ?_
  exact Ensures.ite (fun _ => Ensures.pure (sound.congr rfl rfl rfl))
    fun _ => Ensures.pure (sound.congr rfl rfl rfl)

/-- The cycle of a variable has accepted its whole effective support. -/
def Exhausted (object : Randomized) (inlineConstraints : List NamedConstraint)
    (events : List CycleEvent) (index : Nat) : Prop :=
  ∃ rand, object.rands[index]? = some rand ∧ rand.cyclic = true ∧
    ∀ ordered, EffectiveSupport (object.activeProblem inlineConstraints) index ordered →
      rand.type.fromOrderedRaw ordered ∈ sinceReset index events

/-- A complete cycle of the active problem has accepted its whole effective support. -/
theorem exhausted_of_complete {object : Randomized} {events : List CycleEvent}
    (tracks : object.Tracks events) {inlineConstraints : List NamedConstraint}
    {result : RandomizeResult} (sound : Sound (object.activeProblem inlineConstraints) result)
    (status : result.status = .cycleExhausted) {index : Nat} (member : index ∈ result.cycleVariables) :
    Exhausted object inlineConstraints events index := by
  obtain ⟨descriptor, isVariable, cyclic, all⟩ := completedCycles_exhaust sound status member
  obtain ⟨rand, here, rfl⟩ := Randomized.descriptor_at.mp isVariable
  refine ⟨rand, here, cyclic, fun ordered supports => ?_⟩
  obtain ⟨raw, excluded, same⟩ := all ordered supports
  have isCyclic : rand.cyclic = true := cyclic
  simp only [RandVariable.descriptor, isCyclic, if_true] at excluded same
  rw [← same, rand.type.fromOrderedRaw_orderedRaw,
    rand.type.normalize_of_lt (tracks.normal index rand here raw excluded),
    ← tracks.seen index rand here isCyclic]
  exact excluded

/-- One call of `randomize_impl`. -/
theorem randomizeImpl_step {object : Randomized} {events : List CycleEvent}
    (invariant : object.Invariant events) (backend : BuiltInBackend)
    {inlineConstraints : List NamedConstraint} (built : object.BuiltOver inlineConstraints)
    (enabled : ∀ constraint ∈ inlineConstraints, constraint.enabled = true) (state : ρ) :
    (object.randomizeImpl random backend inlineConstraints state).object.Invariant
        (events ++ (object.randomizeImpl random backend inlineConstraints state).events) ∧
      ∀ index, CycleEvent.reset index ∈
        (object.randomizeImpl random backend inlineConstraints state).events →
          Exhausted object inlineConstraints events index := by
  obtain ⟨prepared, active, types, problem⟩ := invariant.prepare inlineConstraints
  have solves := backend.solve_sound random
    (Randomized.activeProblem_wellFormed invariant.built built enabled)
  unfold Randomized.randomizeImpl
  simp only [problem]
  generalize object.prepareProblem inlineConstraints = ready at prepared active types
  have noReset : ∀ (values : List Nat) (index : Nat),
      CycleEvent.reset index ∉ Randomized.acceptEvents values := by
    intro values index member
    obtain ⟨pair, -, differs⟩ := List.mem_map.mp member
    cases differs
  have accepts : ∀ (other : Randomized) (result : RandomizeResult) (index : Nat),
      CycleEvent.reset index ∉ (other.accept backend.name result).2.1 := by
    intro other result index member
    unfold Randomized.accept at member
    split at member
    · exact List.not_mem_nil member
    · split at member
      · exact List.not_mem_nil member
      · exact noReset _ index member
  cases ran : (backend.solve random (object.activeProblem inlineConstraints)).run state with
  | error error =>
      refine ⟨?_, fun index member => (List.not_mem_nil member).elim⟩
      rw [List.append_nil]
      exact prepared
  | ok outcome =>
      obtain ⟨result, state'⟩ := outcome
      have sound := solves state result state' ran
      simp only
      split
      · rename_i status
        have exhausted : ∀ index ∈ result.cycleVariables,
            Exhausted object inlineConstraints events index := fun index member =>
          exhausted_of_complete invariant.tracks sound status member
        have reset := prepared.resetCycles result.cycleVariables
        obtain ⟨done, resets⟩ := Randomized.resetCycles_spec result.cycleVariables ready
        have inResets : ∀ index, CycleEvent.reset index ∈
            (Randomized.resetCycles ready result.cycleVariables).2.2 →
              Exhausted object inlineConstraints events index := by
          intro index member
          rw [resets.events] at member
          obtain ⟨other, inDone, same⟩ := List.mem_map.mp member
          obtain rfl := CycleEvent.reset.inj same
          exact exhausted other (resets.within other inDone).1
        have types' := Randomized.resetCycles_types ready result.cycleVariables
        generalize Randomized.resetCycles ready result.cycleVariables = outcome at reset inResets types' ⊢
        obtain ⟨valid, object', resetEvents⟩ := outcome
        simp only at reset inResets types'
        cases valid with
        | false => exact ⟨reset, inResets⟩
        | true =>
            have built' : object'.BuiltOver inlineConstraints := by
              unfold Randomized.BuiltOver at built ⊢
              rw [types'.trans types]
              exact built
            obtain ⟨prepared', active', -, problem'⟩ := reset.prepare inlineConstraints
            have solves' := backend.solve_sound random
              (Randomized.activeProblem_wellFormed reset.built built' enabled)
            simp only [problem']
            cases ran' : (backend.solve random (object'.activeProblem inlineConstraints)).run state' with
            | error error => exact ⟨prepared', inResets⟩
            | ok outcome' =>
                have sound' := solves' state' outcome'.1 outcome'.2 ran'
                rw [← active'] at sound'
                refine ⟨?_, fun index member => ?_⟩
                · rw [← List.append_assoc]
                  exact prepared'.accept sound' backend.name
                · rcases List.mem_append.mp member with inReset | inAccept
                  · exact inResets index inReset
                  · exact (accepts _ _ index inAccept).elim
      · refine ⟨?_, fun index member => (accepts _ _ index member).elim⟩
        rw [← active] at sound
        exact prepared.accept sound backend.name

/-! ### Histories -/

theorem ValueExpr.mono {types : List ScalarType} (more : List ScalarType) {type : ScalarType}
    {node : ExprNode} (built : ValueExpr types type node) : ValueExpr (types ++ more) type node := by
  induction built with
  | constant raw => exact .constant raw
  | var declared =>
      refine .var ?_
      rw [List.getElem?_append_left (List.getElem?_eq_some_iff.mp declared).1]
      exact declared
  | arithmetic op _ _ lhs rhs => exact .arithmetic op lhs rhs

/-- An expression stays built when variables are added. -/
theorem ConstraintExpr.mono {types : List ScalarType} (more : List ScalarType) {node : ExprNode}
    (built : ConstraintExpr types node) : ConstraintExpr (types ++ more) node := by
  induction built with
  | compare op lhs rhs => exact .compare op (lhs.mono more) (rhs.mono more)
  | logicalAnd _ _ lhs rhs => exact .logicalAnd lhs rhs
  | logicalOr _ _ lhs rhs => exact .logicalOr lhs rhs
  | logicalNot _ lhs => exact .logicalNot lhs
  | inside lhs ranges => exact .inside (lhs.mono more) ranges

namespace Randomized

variable {object : Randomized} {events : List CycleEvent}

/-- A variable that is registered starts a cycle of its own. -/
theorem Invariant.register (invariant : object.Invariant events) (rand : RandVariable) :
    (object.registerVariable { rand with seen := [] }).Invariant events := by
  have fresh : ∀ before, before <+: events → sinceReset object.rands.length before = [] := by
    intro before isPrefix
    refine foldl_seenAfter_of_ne fun event member => ?_
    exact (invariant.tracks.known event (isPrefix.subset member)).ne
  have cases : ∀ {index : Nat} {other : RandVariable},
      (object.rands ++ [{ rand with seen := [] }])[index]? = some other →
      object.rands[index]? = some other ∨ (index = object.rands.length ∧ other.seen = []) := by
    intro index other here
    rcases Nat.lt_or_ge index object.rands.length with inside | outside
    · rw [List.getElem?_append_left inside] at here
      exact Or.inl here
    · rw [List.getElem?_append_right outside, List.getElem?_singleton] at here
      split at here
      · exact Or.inr ⟨by omega, Option.some.inj here ▸ rfl⟩
      · cases here
  refine ⟨invariant.cached.of_revision rfl rfl fun initialized => ?_,
    fun constraint member node expression => ?_, fun event member => ?_, fun index other here cyclic => ?_,
    fun index other here => ?_, fun index other here cyclic => ?_⟩
  · exact Bool.noConfusion initialized
  · have built := (invariant.built constraint member node expression).mono [rand.type]
    simpa only [types, registerVariable, invalidateStructure, List.map_append, List.map_cons,
      List.map_nil] using built
  · have old := invariant.tracks.known event member
    simp only [registerVariable, invalidateStructure, List.length_append, List.length_singleton]
    omega
  · rcases cases here with old | ⟨rfl, new⟩
    · exact invariant.tracks.seen index other old cyclic
    · rw [new, fresh events (List.prefix_refl _)]
  · rcases cases here with old | ⟨-, new⟩
    · exact invariant.tracks.normal index other old
    · rw [new]
      exact fun _ member => (List.not_mem_nil member).elim
  · rcases cases here with old | ⟨rfl, -⟩
    · exact invariant.tracks.distinct index other old cyclic
    · intro before isPrefix
      rw [fresh before isPrefix]
      exact List.nodup_nil

theorem Invariant.addConstraint (invariant : object.Invariant events) {node : ExprNode}
    (built : ConstraintExpr object.types node) (label : String) (soft : Bool) :
    (object.addConstraint node label soft).Invariant events := by
  refine ⟨invariant.cached.of_revision rfl rfl Bool.noConfusion, fun constraint member other expression => ?_,
    invariant.tracks.known, invariant.tracks.seen, invariant.tracks.normal, invariant.tracks.distinct⟩
  rcases List.mem_append.mp member with old | new
  · exact invariant.built constraint old other expression
  · rw [List.mem_singleton] at new
    rw [new] at expression
    exact Option.some.inj expression ▸ built

theorem Invariant.addDistribution (invariant : object.Invariant events) (expression : Distribution)
    (label : String) : (object.addDistribution expression label).Invariant events :=
  ⟨invariant.cached.of_revision rfl rfl Bool.noConfusion, invariant.built,
    invariant.tracks.known, invariant.tracks.seen, invariant.tracks.normal, invariant.tracks.distinct⟩

theorem Invariant.setEnabled (invariant : object.Invariant events) (kind : ConstraintControlKind)
    (index : Nat) (enabled : Bool) : (object.setConstraintEnabled kind index enabled).Invariant events := by
  have tracks := invariant.tracks
  unfold setConstraintEnabled
  split
  · exact invariant
  · cases kind with
    | expression =>
        refine ⟨invariant.cached.of_revision rfl rfl invariant.cached.initialized,
          fun constraint member node expression => ?_, tracks.known, tracks.seen, tracks.normal,
          tracks.distinct⟩
        obtain ⟨position, found⟩ := List.mem_iff_getElem?.mp member
        rw [List.getElem?_modify, Option.map_eq_map, Option.map_eq_some_iff] at found
        obtain ⟨old, isOld, rfl⟩ := found
        refine invariant.built old (List.mem_of_getElem? isOld) node ?_
        split at expression <;> exact expression
    | distribution =>
        exact ⟨invariant.cached.of_revision rfl rfl invariant.cached.initialized, invariant.built,
          tracks.known, tracks.seen, tracks.normal, tracks.distinct⟩

theorem Invariant.assign (invariant : object.Invariant events) (index raw : Nat) :
    (object.assign index raw).Invariant events := by
  have tracks := invariant.tracks
  have old : ∀ {position : Nat} {rand : RandVariable},
      (object.rands.modify index (·.setRaw raw))[position]? = some rand →
      ∃ before, object.rands[position]? = some before ∧ rand.seen = before.seen ∧
        rand.cyclic = before.cyclic ∧ rand.type = before.type := by
    intro position rand here
    rw [List.getElem?_modify, Option.map_eq_map, Option.map_eq_some_iff] at here
    obtain ⟨before, isBefore, rfl⟩ := here
    refine ⟨before, isBefore, ?_⟩
    split <;> exact ⟨rfl, rfl, rfl⟩
  refine invariant.of_rands ?_ ⟨fun event member => ?_, fun position rand here cyclic => ?_,
    fun position rand here => ?_, fun position rand here cyclic => ?_⟩
  · refine List.ext_getElem? fun position => ?_
    rw [List.getElem?_map, List.getElem?_map, List.getElem?_modify, Option.map_eq_map, Option.map_map]
    refine Option.map_congr fun rand _ => ?_
    simp only [Function.comp_apply]
    split <;> rfl
  · simp only [List.length_modify]
    exact tracks.known event member
  · obtain ⟨before, isBefore, seen, same, -⟩ := old here
    rw [seen]
    exact tracks.seen position before isBefore (same ▸ cyclic)
  · obtain ⟨before, isBefore, seen, -, type⟩ := old here
    rw [seen, type]
    exact tracks.normal position before isBefore
  · obtain ⟨before, isBefore, -, same, -⟩ := old here
    exact tracks.distinct position before isBefore (same ▸ cyclic)

end Randomized

/-- The constraint of `randomize_with` is built over the variables, and enabled. -/
theorem inlineConstraint_built {object : Randomized} {node : ExprNode}
    (built : ConstraintExpr object.types node) :
    object.BuiltOver [Randomized.inlineConstraint node] ∧
      ∀ constraint ∈ [Randomized.inlineConstraint node], constraint.enabled = true := by
  refine ⟨fun constraint member other expression => ?_, fun constraint member => ?_⟩
  · rw [List.mem_singleton] at member
    rw [member] at expression
    exact Option.some.inj expression ▸ built
  · rw [List.mem_singleton] at member
    exact member ▸ rfl

/-- One call keeps the invariant, and resets exhausted cycles only. -/
theorem perform_step {object : Randomized} {events : List CycleEvent}
    (invariant : object.Invariant events) (call : RandomizedCall ρ) (built : call.BuiltOver object.types) :
    (call.perform random object).1.Invariant (events ++ (call.perform random object).2) ∧
      ∀ index, CycleEvent.reset index ∈ (call.perform random object).2 →
        ∃ inlineConstraints, call.inlineConstraints = some inlineConstraints ∧
          Exhausted object inlineConstraints events index := by
  have quiet : ∀ {object' : Randomized}, object'.Invariant events →
      object'.Invariant (events ++ []) ∧ ∀ index, CycleEvent.reset index ∈ ([] : List CycleEvent) →
        ∃ inlineConstraints, call.inlineConstraints = some inlineConstraints ∧
          Exhausted object inlineConstraints events index := fun kept =>
    ⟨(List.append_nil events).symm ▸ kept, fun _ member => (List.not_mem_nil member).elim⟩
  cases call with
  | register rand => exact quiet (invariant.register rand)
  | constraint node label soft => exact quiet (invariant.addConstraint built label soft)
  | distribution expression label => exact quiet (invariant.addDistribution expression label)
  | setEnabled kind index enabled => exact quiet (invariant.setEnabled kind index enabled)
  | assign index raw => exact quiet (invariant.assign index raw)
  | randomize backend state =>
      obtain ⟨kept, resets⟩ := randomizeImpl_step random invariant backend
        (fun _ member => (List.not_mem_nil member).elim)
        (fun _ member => (List.not_mem_nil member).elim) state
      exact ⟨kept, fun index member => ⟨[], rfl, resets index member⟩⟩
  | randomizeWith node backend state =>
      obtain ⟨builtInline, enabled⟩ := inlineConstraint_built built
      obtain ⟨kept, resets⟩ := randomizeImpl_step random invariant backend builtInline enabled state
      exact ⟨kept, fun index member => ⟨_, rfl, resets index member⟩⟩

theorem History.invariant {object : Randomized} {events : List CycleEvent}
    (history : History random object events) : object.Invariant events := by
  induction history with
  | start =>
      refine ⟨⟨Nat.zero_le _, fun same => absurd same (by decide), fun same => absurd same (by decide),
        fun same => absurd same (by decide), fun initialized => Bool.noConfusion initialized⟩,
        fun _ member => (List.not_mem_nil member).elim,
        fun _ member => (List.not_mem_nil member).elim, fun _ _ => (nomatch ·), fun _ _ => (nomatch ·),
        fun _ _ => (nomatch ·)⟩
  | call _ call built invariant => exact (perform_step random invariant call built).1

/-- `RandC` never repeats early. In every history the values accepted for a `RandC` between two resets
of its cycle are distinct; a call resets a cycle only when it randomizes and the cycle has accepted
every value of its effective support; and the cycle of a variable is what the history has accepted for
it, which no event of another variable changes. -/
theorem randc_cycles {object : Randomized} {events : List CycleEvent}
    (history : History random object events) :
    (∀ (index : Nat) (rand : RandVariable), object.rands[index]? = some rand → rand.cyclic = true →
      Distinct index events) ∧
    (∀ call : RandomizedCall ρ, call.BuiltOver object.types → ∀ index,
      CycleEvent.reset index ∈ (call.perform random object).2 →
        ∃ inlineConstraints, call.inlineConstraints = some inlineConstraints ∧
          Exhausted object inlineConstraints events index) ∧
    (∀ (index : Nat) (rand : RandVariable), object.rands[index]? = some rand → rand.cyclic = true →
      rand.seen = sinceReset index events) ∧
    ∀ (index : Nat) (others : List CycleEvent), (∀ event ∈ others, event.variableIndex ≠ index) →
      sinceReset index (events ++ others) = sinceReset index events := by
  have invariant := history.invariant
  exact ⟨invariant.tracks.distinct, fun call built => (perform_step random invariant call built).2,
    invariant.tracks.seen, fun index others apart => sinceReset_of_ne apart⟩

end

/-- The object and the history after some more calls. -/
def performAll {ρ : Type} (random : Generator ρ) (calls : List (RandomizedCall ρ))
    (run : Randomized × List CycleEvent) : Randomized × List CycleEvent :=
  calls.foldl
    (fun run call => ((call.perform random run.1).1, run.2 ++ (call.perform random run.1).2)) run

/-- Calls of `randomize` need no condition. -/
theorem History.randomizes {ρ : Type} {random : Generator ρ} (run : Randomized × List CycleEvent)
    (history : History random run.1 run.2) (backend : BuiltInBackend) (states : List ρ) :
    History random (performAll random (states.map (.randomize backend)) run).1
      (performAll random (states.map (.randomize backend)) run).2 := by
  induction states generalizing run with
  | nil => exact history
  | cons state rest ih => exact ih _ (history.call (.randomize backend state) trivial)

/-- A tag that is 1 or 3, and a byte. -/
def taggedByte : Randomized :=
  ((({} : Randomized).registerVariable { name := "tag", type := uint8, maximumRaw := 15, cyclic := true }
    ).registerVariable { name := "byte", type := uint8, maximumRaw := 255, cyclic := true }
    ).addConstraint (.inside (.var uint8 0) (some [⟨1, 1⟩, ⟨3, 3⟩])) "tags" false

/-- Three calls of `randomize` with the generators of some seeds. -/
def taggedRun : Randomized × List CycleEvent :=
  performAll (Random.generator 4)
    ([⟨1, 2, 3, 4⟩, ⟨5, 6, 7, 8⟩, ⟨9, 10, 11, 12⟩].map (.randomize { attempts := 64 })) (taggedByte, [])

theorem taggedRun_history : History (Random.generator 4) taggedRun.1 taggedRun.2 := by
  have tag := (History.start : History (Random.generator 4) {} []).call
    (.register { name := "tag", type := uint8, maximumRaw := 15, cyclic := true }) trivial
  have byte := tag.call
    (.register { name := "byte", type := uint8, maximumRaw := 255, cyclic := true }) trivial
  have limited := byte.call (.constraint (.inside (.var uint8 0) (some [⟨1, 1⟩, ⟨3, 3⟩])) "tags" false)
    (.inside (.var rfl) _)
  exact History.randomizes (taggedByte, []) limited { attempts := 64 } _

/-- The run goes once through the tags 1 and 3, and resets the tag's cycle but not that of the byte. -/
theorem randc_cycles_tag :
    taggedRun.2 = [.accepted 0 1, .accepted 1 0, .accepted 0 3, .accepted 1 66, .reset 0,
      .accepted 0 1, .accepted 1 128] ∧ Distinct 0 taggedRun.2 ∧ Distinct 1 taggedRun.2 := by
  have cycles := (randc_cycles _ taggedRun_history).1
  obtain ⟨tag, tagHere, tagCyclic⟩ := Option.map_eq_some_iff.mp
    (by decide +kernel : Option.map RandVariable.cyclic taggedRun.1.rands[0]? = some true)
  obtain ⟨byte, byteHere, byteCyclic⟩ := Option.map_eq_some_iff.mp
    (by decide +kernel : Option.map RandVariable.cyclic taggedRun.1.rands[1]? = some true)
  exact ⟨by decide +kernel, cycles 0 tag tagHere tagCyclic, cycles 1 byte byteHere byteCyclic⟩

end Cpptb.Randomize
