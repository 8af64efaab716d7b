/-
Which cycles a search finds complete, and what the next call makes of them.

* `tightens_iff`: what a constraint folds into the domain of a variable does not depend on the domain.
* `cycleComplete_iff`: a cycle is complete when every value that the search counts has been used.
* `randomizeImpl_finished`: a call begins the complete cycles anew, and is then the call on the object
  that is left.
* `exhausted_cycle_begins_anew`: the complete cycles are those that are reset; when no other cycle has
  begun, the call succeeds when it does on a fresh object.
-/

import Cpptb.Randomize.Backends
import Cpptb.Randomize.Uniformity

namespace Cpptb.Randomize

open Segments

/-! ### What constraints fold into the domains -/

/-- What `tightenDomain` makes of a constraint for one value of a variable. -/
def Folds (index ordered : ℕ) : ExprNode → Prop
  | .logicalAnd left right => Folds index ordered left ∧ Folds index ordered right
  | .inside (.var type other) (some ranges) =>
    other = index → Covers
      (ranges.map fun range => ⟨type.orderedRaw range.minimum, type.orderedRaw range.maximum⟩) ordered
  | .compare op left right =>
    match comparedVariable op left right with
    | none => True
    | some (type, other, raw, operation) =>
      operation ≠ .notEqual → other = index → operation.apply ordered (type.orderedRaw raw) = true
  | _ => True

/-- The domains of the variables, after the values without a property are dropped. -/
def Drops (P : ℕ → ℕ → Prop) (before after : List CandidateDomain) : Prop :=
  after.length = before.length ∧
    ∀ (index : ℕ) (domain domain' : CandidateDomain), before[index]? = some domain →
      after[index]? = some domain' → ∀ ordered ≤ maxU64,
        (domain'.Allows ordered ↔ domain.Allows ordered ∧ P index ordered)

theorem drops_refl {P : ℕ → ℕ → Prop} (all : ∀ index ordered, P index ordered)
    (domains : List CandidateDomain) : Drops P domains domains := by
  refine ⟨rfl, fun index domain domain' found found' ordered _ => ?_⟩
  obtain rfl : domain = domain' := Option.some.inj (found.symm.trans found')
  exact (and_iff_left (all index ordered)).symm

theorem Drops.trans {P Q : ℕ → ℕ → Prop} {first second third : List CandidateDomain}
    (one : Drops P first second) (two : Drops Q second third) :
    Drops (fun index ordered => P index ordered ∧ Q index ordered) first third := by
  refine ⟨two.1.trans one.1, fun index domain domain' found found' ordered small => ?_⟩
  have inside : index < second.length := by
    rw [one.1]
    exact (List.getElem?_eq_some_iff.mp found).1
  have between := List.getElem?_eq_getElem inside
  rw [two.2 index _ _ between found' ordered small, one.2 index _ _ found between ordered small, and_assoc]

theorem Drops.congr {P Q : ℕ → ℕ → Prop} {before after : List CandidateDomain} (drops : Drops P before after)
    (same : ∀ index ordered, P index ordered ↔ Q index ordered) : Drops Q before after := by
  refine ⟨drops.1, fun index domain domain' found found' ordered small => ?_⟩
  rw [drops.2 index domain domain' found found' ordered small, same]

/-- Changing one domain drops the values of one variable. -/
theorem drops_changeAt {domains domains' : List CandidateDomain} {index : ℕ}
    {change : CandidateDomain → CandidateDomain} {Q : ℕ → Prop}
    (exact : ∀ (domain : CandidateDomain) (ordered : ℕ), ordered ≤ maxU64 →
      ((change domain).Allows ordered ↔ domain.Allows ordered ∧ Q ordered))
    (changed : changeAt domains index change = .ok domains') :
    Drops (fun other ordered => index = other → Q ordered) domains domains' := by
  unfold changeAt at changed
  split at changed
  · obtain rfl := Except.ok.inj changed
    refine ⟨List.length_modify .., fun other domain domain' found found' ordered small => ?_⟩
    rw [List.getElem?_modify, found, Option.map_eq_map, Option.map_some, Option.some.injEq] at found'
    rw [← found']
    by_cases here : index = other
    · rw [if_pos here, exact domain ordered small]
      exact and_congr_right fun _ => ⟨fun holds _ => holds, fun holds => holds here⟩
    · rw [if_neg here]
      exact (and_iff_left fun same => absurd same here).symm
  · cases changed

/-- What a constraint folds into the domains does not depend on the domains. -/
theorem tightens_iff (node : ExprNode) (domains : List CandidateDomain) {absorbed : Bool}
    {domains' : List CandidateDomain} (ran : tightenDomain node domains = .ok (absorbed, domains')) :
    Drops (fun index ordered => Folds index ordered node) domains domains' := by
  fun_induction tightenDomain node domains generalizing absorbed domains' with
  | case1 left right domains first second =>
    cases ranLeft : tightenDomain left domains with
    | error error =>
      rw [ranLeft] at ran
      cases ran
    | ok result =>
      obtain ⟨absorbedLeft, middle⟩ := result
      rw [ranLeft] at ran
      simp only [bind, Except.bind] at ran
      cases ranRight : tightenDomain right middle with
      | error error =>
        rw [ranRight] at ran
        cases ran
      | ok result' =>
        obtain ⟨absorbedRight, last⟩ := result'
        rw [ranRight] at ran
        obtain ⟨rfl, rfl⟩ := Prod.mk.inj (Except.ok.inj ran)
        exact (first ranLeft).trans (second middle ranRight)
  | case2 type index ranges domains =>
    cases changed : changeAt domains index
        (·.restrict (ranges.map fun range =>
          ⟨type.orderedRaw range.minimum, type.orderedRaw range.maximum⟩)) with
    | error error =>
      rw [changed] at ran
      cases ran
    | ok after =>
      rw [changed] at ran
      obtain ⟨rfl, rfl⟩ := Prod.mk.inj (Except.ok.inj ran)
      exact drops_changeAt (fun domain ordered _ => CandidateDomain.allows_restrict _) changed
  | case3 op left right domains unrecognised =>
    obtain ⟨rfl, rfl⟩ := Prod.mk.inj (Except.ok.inj ran)
    refine drops_refl (fun index ordered => ?_) domains
    rw [Folds, unrecognised]
    trivial
  | case4 op left right domains type index raw recognised =>
    obtain ⟨rfl, rfl⟩ := Prod.mk.inj (Except.ok.inj ran)
    refine drops_refl (fun index ordered => ?_) domains
    rw [Folds, recognised]
    exact fun differs => absurd rfl differs
  | case5 op left right domains type index raw operation recognised bounds =>
    cases changed : changeAt domains index (·.bound operation (type.orderedRaw raw)) with
    | error error =>
      rw [changed] at ran
      cases ran
    | ok after =>
      rw [changed] at ran
      obtain ⟨rfl, rfl⟩ := Prod.mk.inj (Except.ok.inj ran)
      refine (drops_changeAt (fun domain ordered small =>
        CandidateDomain.allows_bound operation bounds _ small) changed).congr fun other ordered => ?_
      rw [Folds, recognised]
      exact ⟨fun holds _ => holds, fun holds => holds bounds⟩
  | case6 node domains noAnd noInside noCompare =>
    obtain ⟨rfl, rfl⟩ := Prod.mk.inj (Except.ok.inj ran)
    refine drops_refl (fun index ordered => ?_) domains
    unfold Folds
    split
    · exact absurd rfl (noAnd _ _)
    · exact absurd rfl (noInside _ _ _)
    · exact absurd rfl (noCompare _ _ _)
    · trivial

/-- The values that the constraints which apply leave. -/
def FoldsAll (requireSoft : Bool) (constraints : List NamedConstraint) (index ordered : ℕ) : Prop :=
  ∀ constraint ∈ constraints, constraint.Applies requireSoft →
    ∀ node, constraint.expression = some node → Folds index ordered node

theorem collectConstraint_iff {requireSoft : Bool} {position : ℕ} {constraint : NamedConstraint}
    {before after : Collected}
    (collected : collectConstraint requireSoft position constraint before = .ok after) :
    Drops (FoldsAll requireSoft [constraint]) before.domains after.domains := by
  have single : ∀ index ordered, FoldsAll requireSoft [constraint] index ordered ↔
      (constraint.Applies requireSoft → ∀ node, constraint.expression = some node →
        Folds index ordered node) := fun index ordered => by
    simp only [FoldsAll, List.mem_singleton, forall_eq]
  unfold collectConstraint at collected
  cases expression : constraint.expression with
  | none =>
    rw [expression] at collected
    cases collected
  | some node =>
    rw [expression] at collected
    simp only at collected
    generalize started : (if constraint.soft = true then
      { before with soft := before.soft ++ [position] } else before) = start at collected
    have startDomains : start.domains = before.domains := by
      rw [← started]
      split <;> rfl
    rw [startDomains] at collected
    split at collected
    next skipped =>
      obtain rfl := Except.ok.inj collected
      rw [startDomains]
      refine drops_refl (fun index ordered => (single index ordered).mpr fun applies => ?_) before.domains
      rw [Bool.and_eq_true, Bool.not_eq_true'] at skipped
      exact absurd (applies skipped.1) (by rw [skipped.2]; decide)
    next applying =>
      have applies : constraint.Applies requireSoft := by
        intro soft
        rw [soft, Bool.true_and, Bool.not_eq_true', Bool.not_eq_false] at applying
        exact applying
      have folded : ∀ index ordered, Folds index ordered node ↔
          FoldsAll requireSoft [constraint] index ordered := fun index ordered => by
        rw [single, expression]
        simp only [Option.some.injEq, forall_eq', forall_prop_of_true applies]
      cases ran : tightenDomain node before.domains with
      | error error =>
        rw [ran] at collected
        cases collected
      | ok result =>
        obtain ⟨absorbed, domains'⟩ := result
        rw [ran] at collected
        have drops := (tightens_iff node before.domains ran).congr folded
        simp only at collected
        split at collected
        · obtain rfl := Except.ok.inj collected
          exact drops
        · obtain rfl := Except.ok.inj collected
          exact drops

/-- The collected domains allow what the declared ranges and the folded constraints leave. -/
theorem collectConstraints_iff {requireSoft : Bool} {constraints : List NamedConstraint} {position : ℕ}
    {before after : Collected}
    (collected : collectConstraints requireSoft constraints position before = .ok after) :
    Drops (FoldsAll requireSoft constraints) before.domains after.domains := by
  induction constraints generalizing position before with
  | nil =>
    obtain rfl := Except.ok.inj collected
    exact drops_refl (fun _ _ _ member => absurd member List.not_mem_nil) before.domains
  | cons constraint rest ih =>
    rw [collectConstraints] at collected
    cases first : collectConstraint requireSoft position constraint before with
    | error stop =>
      rw [first] at collected
      cases collected
    | ok middle =>
      rw [first] at collected
      refine ((collectConstraint_iff first).trans (ih collected)).congr fun index ordered => ?_
      simp only [FoldsAll, List.forall_mem_cons, List.mem_singleton, forall_eq]

/-! ### Complete cycles -/

namespace Candidate

variable {candidate : Candidate}

/-- The ranges of a candidate start before they stop, and come in order. -/
structure Sorted (candidate : Candidate) : Prop where
  proper : ∀ range ∈ candidate.domain.ranges, range.minimum ≤ range.maximum
  ascending : Ascending candidate.domain.ranges

/-- The size of the support is at most the length of a list with all its values. -/
theorem supportSize_le (sorted : candidate.Sorted) {numbers : List ℕ}
    (all : ∀ ordered, candidate.contains ordered = true → ordered ∈ numbers) :
    candidate.supportSize ≤ numbers.length := by
  unfold supportSize
  cases isDistribution : candidate.distribution with
  | none =>
    refine total_le_length sorted.proper sorted.ascending fun ordered covered => all ordered ?_
    rw [contains, isDistribution, distributionContains_none]
    exact covered
  | some distribution =>
    have begun : Scans {} ([] : List RawRange) := ⟨rfl, rfl⟩
    have small : ∀ range ∈ candidate.support distribution.expression.entries,
        range.minimum ≤ range.maximum ∧ range.minimum ≤ maxU64 := by
      intro range member
      obtain ⟨entry, -, inClip⟩ := List.mem_flatMap.mp member
      have proper := proper_of_mem_clip inClip
      obtain ⟨inMap, -⟩ := List.mem_filter.mp inClip
      obtain ⟨old, -, rfl⟩ := List.mem_map.mp inMap
      have bound := candidate.type.orderedRaw_le_max entry.range.maximum
      simp only [Segment.meet, WeightedRange.ordered] at proper ⊢
      omega
    have perm := perm_sortRanges (candidate.support distribution.expression.entries)
    show ((sortRanges _).foldl scanRange {}).total ≤ _
    rw [(begun.foldl _).sizes]
    refine total_le_length ?_ ?_ fun ordered covered => all ordered ?_
    · exact proper_foldl_mergeRange (fun _ => List.not_mem_nil.elim)
        fun range member => (small range (perm.mem_iff.mp member)).1
    · refine (separated_foldl_mergeRange (sorted_sortRanges _) ?_ List.Pairwise.nil).ascending
      exact fun back found => absurd found (Option.some_ne_none back).symm
    · rw [covers_merge_sort fun range member => (small range member).2, covers_support] at covered
      rw [contains, isDistribution, distributionContains_some]
      exact covered

/-- The loop over the excluded values keeps every value that could be drawn. -/
theorem mem_uniqueExcluded (candidate : Candidate) :
    candidate.uniqueExcluded.length ≤ candidate.descriptor.excludedRaw.length ∧
      ∀ raw ∈ candidate.descriptor.excludedRaw, candidate.contains (candidate.type.orderedRaw raw) = true →
        candidate.type.orderedRaw raw ∈ candidate.uniqueExcluded := by
  have loop : ∀ raws unique : List ℕ,
      (raws.foldl (fun unique raw =>
        let ordered := candidate.type.orderedRaw raw
        if !candidate.contains ordered || unique.contains ordered then unique
        else unique ++ [ordered]) unique).length ≤ unique.length + raws.length ∧
      ∀ ordered, (ordered ∈ unique ∨ ∃ raw ∈ raws, candidate.type.orderedRaw raw = ordered ∧
          candidate.contains ordered = true) →
        ordered ∈ raws.foldl (fun unique raw =>
          let ordered := candidate.type.orderedRaw raw
          if !candidate.contains ordered || unique.contains ordered then unique
          else unique ++ [ordered]) unique := by
    intro raws
    induction raws with
    | nil =>
      refine fun unique => ⟨Nat.le_refl _, fun ordered kept => kept.resolve_right ?_⟩
      rintro ⟨raw, member, -⟩
      exact List.not_mem_nil member
    | cons raw rest ih =>
      intro unique
      rw [List.foldl_cons]
      generalize isNext : (if (!candidate.contains (candidate.type.orderedRaw raw) ||
        unique.contains (candidate.type.orderedRaw raw)) = true then unique
        else unique ++ [candidate.type.orderedRaw raw]) = next
      obtain ⟨short, keeps⟩ := ih next
      have step : next.length ≤ unique.length + 1 ∧ (∀ ordered ∈ unique, ordered ∈ next) ∧
          (candidate.contains (candidate.type.orderedRaw raw) = true →
            candidate.type.orderedRaw raw ∈ next) := by
        rw [← isNext]
        split
        next skip =>
          refine ⟨Nat.le_succ _, fun _ member => member, fun contains => ?_⟩
          rw [contains, Bool.not_true, Bool.false_or, List.contains_iff_mem] at skip
          exact skip
        next =>
          rw [List.length_append, List.length_singleton]
          exact ⟨Nat.le_refl _, fun _ member => List.mem_append_left _ member,
            fun _ => List.mem_append_right _ List.mem_cons_self⟩
      refine ⟨?_, fun ordered kept => keeps ordered ?_⟩
      · simp only [List.length_cons] at short ⊢
        omega
      · rcases kept with old | ⟨other, member, rfl, contains⟩
        · exact .inl (step.2.1 ordered old)
        · rcases List.mem_cons.mp member with rfl | later
          · exact .inl (step.2.2 contains)
          · exact .inr ⟨other, later, rfl, contains⟩
  obtain ⟨short, keeps⟩ := loop candidate.descriptor.excludedRaw []
  rw [List.length_nil, Nat.zero_add] at short
  exact ⟨short, fun raw member contains => keeps _ (.inr ⟨raw, member, rfl, contains⟩)⟩

/-- A cycle is complete when it has begun and has had every value that the search counts. -/
theorem cycleComplete_iff (sorted : candidate.Sorted) :
    candidate.cycleComplete = true ↔ candidate.descriptor.cyclic = true ∧
      candidate.descriptor.excludedRaw ≠ [] ∧
      ∀ ordered, candidate.contains ordered = true →
        ∃ raw ∈ candidate.descriptor.excludedRaw, candidate.type.orderedRaw raw = ordered := by
  constructor
  · intro complete
    refine ⟨?_, ?_, fun ordered contains => cycleComplete_exhausts complete contains⟩
    · simp only [cycleComplete, Bool.and_eq_true] at complete
      exact complete.1.1
    · rintro empty
      simp only [cycleComplete, empty, List.isEmpty_nil, Bool.not_true, Bool.and_false, Bool.false_and,
        Bool.false_eq_true] at complete
  · rintro ⟨cyclic, begun, all⟩
    obtain ⟨short, keeps⟩ := candidate.mem_uniqueExcluded
    have counted : candidate.supportSize ≤ candidate.uniqueExcluded.length :=
      supportSize_le sorted fun ordered contains => by
        obtain ⟨raw, member, rfl⟩ := all ordered contains
        exact keeps raw member contains
    simp only [cycleComplete, cyclic, Bool.true_and, Bool.and_eq_true, Bool.not_eq_true',
      List.isEmpty_eq_false_iff, decide_eq_true_eq, ge_iff_le]
    exact ⟨begun, counted.trans short, counted⟩

/-- A candidate that passes the check of `configure` contains a value. -/
theorem exists_contains (sorted : candidate.Sorted) (supported : candidate.unsupported = none) :
    ∃ ordered, candidate.contains ordered = true := by
  unfold unsupported at supported
  split at supported
  next => cases supported
  next nonempty =>
    split at supported
    next isNone =>
      obtain ⟨range, member⟩ := List.exists_mem_of_ne_nil _ (mt List.isEmpty_iff.mpr nonempty)
      refine ⟨range.minimum, contains_iff.mpr
        ⟨⟨range, member, Nat.le_refl _, sorted.proper range member⟩, fun distribution same => ?_⟩⟩
      rw [isNone] at same
      cases same
    next distribution isDistribution =>
      split at supported
      next some =>
        obtain ⟨entry, member, supports⟩ := List.any_eq_true.mp some
        rw [WeightedRange.supports, Bool.and_eq_true, bne_iff_ne, bne_iff_ne] at supports
        have meets : clip (entry.ordered candidate.type) candidate.domain.ranges ≠ [] := fun empty =>
          supports.2 (by rw [distributionEntrySize_eq, empty]; rfl)
        obtain ⟨range, inside⟩ := List.exists_mem_of_ne_nil _ meets
        obtain ⟨has, covered⟩ := covers_clip.mp
          ⟨range, inside, Nat.le_refl range.minimum, proper_of_mem_clip inside⟩
        refine ⟨range.minimum, contains_iff.mpr ⟨covered, fun other same => ?_⟩⟩
        obtain rfl : distribution = other := Option.some.inj (isDistribution.symm.trans same)
        exact ⟨entry, member, supports.1, has⟩
      next => cases supported

end Candidate

/-- The positions of the complete cycles are distinct. -/
theorem nodup_completedCycles (candidates : List Candidate) : (completedCycles candidates).Nodup := by
  have positions : completedCycles candidates =
      (candidates.zipIdx.filter (·.1.cycleComplete)).map Prod.snd := by
    unfold completedCycles
    induction candidates.zipIdx with
    | nil => rfl
    | cons first rest ih =>
      obtain ⟨candidate, index⟩ := first
      rw [List.filterMap_cons, List.filter_cons, ih]
      by_cases complete : candidate.cycleComplete = true
      · simp only [complete, if_true, List.map_cons]
      · simp only [complete, if_false, Bool.false_eq_true]
  rw [positions]
  refine ((List.filter_sublist).map Prod.snd).nodup ?_
  rw [List.zipIdx_map_snd]
  exact List.nodup_range'

theorem mem_completedCycles {candidates : List Candidate} {index : ℕ} :
    index ∈ completedCycles candidates ↔
      ∃ candidate, candidates[index]? = some candidate ∧ candidate.cycleComplete = true := by
  unfold completedCycles
  rw [List.mem_filterMap]
  constructor
  · rintro ⟨⟨candidate, position⟩, member, found⟩
    simp only at found
    split at found
    next complete =>
      obtain rfl := Option.some.inj found
      exact ⟨candidate, List.mem_zipIdx_iff_getElem?.mp member, complete⟩
    next => cases found
  · rintro ⟨candidate, here, complete⟩
    exact ⟨(candidate, index), List.mem_zipIdx_iff_getElem?.mpr here, if_pos complete⟩

/-! ### Settling the domains -/

/-- `configure` up to its check of the cycles. -/
def settle (problem : ConstraintProblem) (requireSoft : Bool) :
    Except Stop (Collected × List (Option NamedDistribution)) := do
  let collected ← collectConstraints requireSoft problem.constraints 0
    { domains := problem.vars.map VariableDescriptor.domain }
  let distributions ← problem.distributions.foldlM (assignDistribution problem)
    (List.replicate problem.vars.length none)
  match (problem.candidates collected distributions).findSome? Candidate.unsupported with
  | some result => throw (.returned result)
  | none => return (collected, distributions)

/-- The result for complete cycles. -/
def ConstraintProblem.finished (problem : ConstraintProblem) (completed : List ℕ) : RandomizeResult where
  status := .cycleExhausted
  cycleVariables := completed
  message := "random cycle complete for " ++
    ", ".intercalate (completed.map fun index => "'" ++ problem.names.getD index "" ++ "'")

/-- `configure` settles the domains, and then checks the cycles. -/
theorem configure_eq (problem : ConstraintProblem) (requireSoft : Bool) :
    configure problem requireSoft = (settle problem requireSoft >>= fun (collected, distributions) =>
      if (completedCycles (problem.candidates collected distributions)).isEmpty then
        .ok ⟨problem.candidates collected distributions, collected.required, collected.soft⟩
      else
        .error (.returned
          (problem.finished (completedCycles (problem.candidates collected distributions))))) := by
  unfold configure settle
  cases collectConstraints requireSoft problem.constraints 0
      { domains := problem.vars.map VariableDescriptor.domain } with
  | error stop => rfl
  | ok collected =>
    simp only [bind, Except.bind]
    cases problem.distributions.foldlM (assignDistribution problem)
        (List.replicate problem.vars.length none) with
    | error stop => rfl
    | ok distributions =>
      simp only [ConstraintProblem.candidates]
      cases (candidatesOf problem.vars (collected.domains.map finalizeDomain) distributions).findSome?
          Candidate.unsupported with
      | some result => rfl
      | none =>
        simp only [pure, Except.pure]
        split
        next empty => exact (if_pos empty).symm
        next some => exact (if_neg some).symm

/-- The variable with no value used. -/
def VariableDescriptor.unused (descriptor : VariableDescriptor) : VariableDescriptor :=
  { descriptor with excludedRaw := [] }

/-- The problems differ in the used values alone. -/
structure SameButExclusions (problem problem' : ConstraintProblem) : Prop where
  vars : problem'.vars.map VariableDescriptor.unused = problem.vars.map VariableDescriptor.unused
  constraints : problem'.constraints = problem.constraints
  distributions : problem'.distributions = problem.distributions

namespace SameButExclusions

variable {problem problem' : ConstraintProblem}

theorem length (same : SameButExclusions problem problem') :
    problem'.vars.length = problem.vars.length := by
  rw [← List.length_map VariableDescriptor.unused, same.vars, List.length_map]

/-- What does not depend on the used values is the same. -/
theorem map_vars (same : SameButExclusions problem problem') {α : Type} (f : VariableDescriptor → α)
    (blind : ∀ descriptor : VariableDescriptor, f descriptor.unused = f descriptor) :
    problem'.vars.map f = problem.vars.map f := by
  have through : f = f ∘ VariableDescriptor.unused := funext fun descriptor => (blind descriptor).symm
  rw [through, ← List.map_map, same.vars, List.map_map]

theorem wellFormed (same : SameButExclusions problem problem') (wellFormed : problem.WellFormed) :
    problem'.WellFormed where
  built := by
    rw [same.constraints, ConstraintProblem.types, same.map_vars VariableDescriptor.type fun _ => rfl]
    exact wellFormed.built
  enabled := by
    rw [same.constraints]
    exact wellFormed.enabled
  active := by
    rw [same.distributions]
    exact wellFormed.active

theorem findSome?_unsupported (same : SameButExclusions problem problem') (collected : Collected)
    (distributions : List (Option NamedDistribution)) :
    (problem'.candidates collected distributions).findSome? Candidate.unsupported =
      (problem.candidates collected distributions).findSome? Candidate.unsupported := by
  have each : ∀ other : ConstraintProblem,
      (other.candidates collected distributions).findSome? Candidate.unsupported =
        (candidatesOf (other.vars.map VariableDescriptor.unused)
          (collected.domains.map finalizeDomain) distributions).findSome? Candidate.unsupported := by
    intro other
    simp only [ConstraintProblem.candidates, candidatesOf, List.zip_map_left, List.findSome?_map,
      List.map_map]
    rfl
  rw [each, each, same.vars]

/-- Settling does not read the used values. -/
theorem settle_eq (same : SameButExclusions problem problem') (requireSoft : Bool) :
    settle problem' requireSoft = settle problem requireSoft := by
  have assign : assignDistribution problem' = assignDistribution problem := by
    funext assigned distribution
    unfold assignDistribution ConstraintProblem.names
    rw [same.map_vars VariableDescriptor.name fun _ => rfl]
  unfold settle
  rw [same.constraints, same.distributions, same.length, assign,
    same.map_vars VariableDescriptor.domain fun _ => rfl]
  simp only [same.findSome?_unsupported]

end SameButExclusions

/-- What settled domains and distributions are. -/
structure Settled (problem : ConstraintProblem) (requireSoft : Bool) (collected : Collected)
    (distributions : List (Option NamedDistribution)) : Prop where
  configured : Configured problem requireSoft collected distributions
  assigned : problem.distributions.foldlM (assignDistribution problem)
    (List.replicate problem.vars.length none) = .ok distributions
  supported : ∀ candidate ∈ problem.candidates collected distributions, candidate.unsupported = none

theorem settle_iff {problem : ConstraintProblem} (wellFormed : problem.WellFormed) {requireSoft : Bool}
    {collected : Collected} {distributions : List (Option NamedDistribution)} :
    settle problem requireSoft = .ok (collected, distributions) ↔
      Settled problem requireSoft collected distributions := by
  have same : (problem.vars.map VariableDescriptor.domain).length = problem.types.length := by
    rw [ConstraintProblem.types, List.length_map, List.length_map]
  unfold settle
  constructor
  · intro ran
    cases collecting : collectConstraints requireSoft problem.constraints 0
        { domains := problem.vars.map VariableDescriptor.domain } with
    | error stop =>
      rw [collecting] at ran
      cases ran
    | ok collected' =>
      rw [collecting] at ran
      simp only [bind, Except.bind] at ran
      cases assigning : problem.distributions.foldlM (assignDistribution problem)
          (List.replicate problem.vars.length none) with
      | error stop =>
        rw [assigning] at ran
        cases ran
      | ok distributions' =>
        rw [assigning] at ran
        simp only at ran
        split at ran
        · cases ran
        · rename_i supported
          obtain ⟨rfl, rfl⟩ := Prod.mk.inj (Except.ok.inj ran)
          exact ⟨⟨collecting, collectConstraints_collects wellFormed (List.drop_zero ..) same collecting,
            foldlM_assigns assigning⟩, assigning, List.findSome?_eq_none_iff.mp supported⟩
  · rintro ⟨configured, assigned, supported⟩
    rw [configured.ran]
    simp only [bind, Except.bind, assigned]
    rw [List.findSome?_eq_none_iff.mpr supported]
    rfl

/-- Settling ends early with an error of the backend, or with a variable that has no value. -/
theorem settle_returned {problem : ConstraintProblem} {requireSoft : Bool} {result : RandomizeResult}
    (stopped : settle problem requireSoft = .error (.returned result)) :
    result.status = .backendError ∨ result.status = .unsatisfiable := by
  unfold settle at stopped
  cases collecting : collectConstraints requireSoft problem.constraints 0
      { domains := problem.vars.map VariableDescriptor.domain } with
  | error stop =>
    rw [collecting] at stopped
    obtain rfl := Except.error.inj stopped
    exact .inl (collectConstraints_returned collecting)
  | ok collected =>
    rw [collecting] at stopped
    simp only [bind, Except.bind] at stopped
    cases assigning : problem.distributions.foldlM (assignDistribution problem)
        (List.replicate problem.vars.length none) with
    | error stop =>
      rw [assigning] at stopped
      obtain rfl := Except.error.inj stopped
      exact .inl (foldlM_assign_returned assigning)
    | ok distributions =>
      rw [assigning] at stopped
      simp only at stopped
      split at stopped
      · rename_i checked
        obtain ⟨candidate, -, empty⟩ := List.exists_of_findSome?_eq_some checked
        obtain rfl := Stop.returned.inj (Except.error.inj stopped)
        exact .inr (status_of_unsupported empty)
      · cases stopped

/-- Collecting built constraints ends early at an empty expression only. -/
theorem collectConstraints_ok {types : List ScalarType} (requireSoft : Bool)
    {constraints : List NamedConstraint} {position : ℕ} {before : Collected}
    (built : ∀ constraint ∈ constraints, ∀ node, constraint.expression = some node →
      ConstraintExpr types node)
    (present : ∀ constraint ∈ constraints, constraint.expression ≠ none)
    (same : before.domains.length = types.length) :
    ∃ after, collectConstraints requireSoft constraints position before = .ok after := by
  induction constraints generalizing position before with
  | nil => exact ⟨before, rfl⟩
  | cons constraint rest ih =>
    have step : ∃ middle, collectConstraint requireSoft position constraint before = .ok middle := by
      unfold collectConstraint
      cases expression : constraint.expression with
      | none => exact absurd expression (present constraint List.mem_cons_self)
      | some node =>
        obtain ⟨absorbed, domains', tightened, -⟩ :=
          tighten_exact (built constraint List.mem_cons_self node expression) same
        simp only
        have kept : (if constraint.soft = true then
            { before with soft := before.soft ++ [position] } else before).domains = before.domains := by
          split <;> rfl
        rw [kept, tightened]
        split
        · exact ⟨_, rfl⟩
        · cases absorbed <;> exact ⟨_, rfl⟩
    obtain ⟨middle, first⟩ := step
    rw [collectConstraints, first]
    exact ih (fun other member => built other (List.mem_cons_of_mem _ member))
      (fun other member => present other (List.mem_cons_of_mem _ member))
      ((collectConstraint_iff first).1.trans same)

/-! ### The search -/

section Search

variable {problem : ConstraintProblem} {requireSoft : Bool} {collected collected' : Collected}
  {distributions : List (Option NamedDistribution)} {index : ℕ} {candidate candidate' : Candidate}

theorem sorted_candidate (here : (problem.candidates collected distributions)[index]? = some candidate) :
    candidate.Sorted := by
  obtain ⟨-, ⟨domain, -, finalized⟩, -⟩ := candidate_at.mp here
  refine ⟨Configured.proper here, ?_⟩
  rw [← finalized]
  exact (separated_finalizeDomain domain).ascending

/-- A candidate contains what the declared range, the folded constraints and its distribution leave. -/
theorem contains_iff_folds (configured : Configured problem requireSoft collected distributions)
    (here : (problem.candidates collected distributions)[index]? = some candidate) {ordered : ℕ} :
    candidate.contains ordered = true ↔
      candidate.descriptor.domain.Allows ordered ∧
        FoldsAll requireSoft problem.constraints index ordered ∧
        ∀ distribution, candidate.distribution = some distribution →
          ∃ entry ∈ distribution.expression.entries,
            entry.weight ≠ 0 ∧ (entry.ordered candidate.type).Has ordered := by
  obtain ⟨isVariable, ⟨domain, found, -⟩, -⟩ := candidate_at.mp here
  have declared : (problem.vars.map VariableDescriptor.domain)[index]? =
      some candidate.descriptor.domain := by
    rw [List.getElem?_map, isVariable, Option.map_some]
  have bound := candidate.descriptor.type.orderedRaw_le_max candidate.descriptor.maximumRaw
  have drops := (collectConstraints_iff configured.ran).2 index _ _ declared found
  rw [Candidate.contains_iff, configured.covers_candidate here found]
  constructor
  · rintro ⟨allows, weighted⟩
    have small : ordered ≤ maxU64 := allows.high.trans ((configured.high_le isVariable found).trans bound)
    obtain ⟨initially, folds⟩ := (drops ordered small).mp allows
    exact ⟨initially, folds, weighted⟩
  · rintro ⟨initially, folds, weighted⟩
    have small : ordered ≤ maxU64 := initially.high.trans bound
    exact ⟨(drops ordered small).mpr ⟨initially, folds⟩, weighted⟩

/-- What is left with the soft constraints is left without them. -/
theorem contains_hard (soft : Configured problem true collected distributions)
    (hard : Configured problem false collected' distributions)
    (here : (problem.candidates collected distributions)[index]? = some candidate)
    (here' : (problem.candidates collected' distributions)[index]? = some candidate') {ordered : ℕ}
    (contains : candidate.contains ordered = true) :
    candidate'.descriptor = candidate.descriptor ∧ candidate'.contains ordered = true := by
  obtain ⟨isVariable, -, isDistribution⟩ := candidate_at.mp here
  obtain ⟨isVariable', -, isDistribution'⟩ := candidate_at.mp here'
  have descriptor : candidate'.descriptor = candidate.descriptor :=
    Option.some.inj (isVariable'.symm.trans isVariable)
  have distribution : candidate'.distribution = candidate.distribution :=
    Option.some.inj (isDistribution'.symm.trans isDistribution)
  obtain ⟨initially, folds, weighted⟩ := (contains_iff_folds soft here).mp contains
  refine ⟨descriptor, (contains_iff_folds hard here').mpr ⟨descriptor ▸ initially, ?_, ?_⟩⟩
  · exact fun constraint member _ => folds constraint member fun _ => rfl
  · rw [distribution, Candidate.type, descriptor]
    exact weighted

/-- The candidates of two configurations stand at the same positions. -/
theorem candidate_beside (configured : Configured problem requireSoft collected distributions)
    (here : (problem.candidates collected' distributions)[index]? = some candidate') :
    ∃ candidate, (problem.candidates collected distributions)[index]? = some candidate := by
  obtain ⟨candidate, found, -⟩ := configured.candidate_of (candidate_at.mp here).1
  exact ⟨candidate, found⟩

/-- The domains settle without the soft constraints when they do with them. -/
theorem settle_hard (wellFormed : problem.WellFormed)
    (soft : Settled problem true collected distributions) :
    ∃ collected', Settled problem false collected' distributions := by
  have same : (problem.vars.map VariableDescriptor.domain).length = problem.types.length := by
    rw [ConstraintProblem.types, List.length_map, List.length_map]
  obtain ⟨collected', ran⟩ : ∃ after, collectConstraints false problem.constraints 0
      { domains := problem.vars.map VariableDescriptor.domain } = .ok after :=
    collectConstraints_ok false wellFormed.built soft.configured.collects.present same
  have configured : Configured problem false collected' distributions :=
    ⟨ran, collectConstraints_collects wellFormed (List.drop_zero ..) same ran, soft.configured.assigns⟩
  refine ⟨collected', configured, soft.assigned, fun candidate member => ?_⟩
  obtain ⟨index, here⟩ := List.mem_iff_getElem?.mp member
  obtain ⟨beside, found⟩ := candidate_beside soft.configured here
  obtain ⟨ordered, contains⟩ := Candidate.exists_contains (sorted_candidate found)
    (soft.supported beside (List.mem_of_getElem? found))
  have kept := (contains_hard soft.configured configured found here contains).2
  cases unsupported : candidate.unsupported with
  | none => rfl
  | some result => exact absurd kept (not_contains_of_unsupported unsupported ordered)

/-- With the soft constraints the domains settle as well, or one of them has no value left. -/
theorem settle_soft (wellFormed : problem.WellFormed)
    (hard : Settled problem false collected distributions) :
    (∃ collected', Settled problem true collected' distributions) ∨
      ∃ result, settle problem true = .error (.returned result) ∧ result.status = .unsatisfiable := by
  have same : (problem.vars.map VariableDescriptor.domain).length = problem.types.length := by
    rw [ConstraintProblem.types, List.length_map, List.length_map]
  obtain ⟨collected', ran⟩ : ∃ after, collectConstraints true problem.constraints 0
      { domains := problem.vars.map VariableDescriptor.domain } = .ok after :=
    collectConstraints_ok true wellFormed.built hard.configured.collects.present same
  cases checked : (problem.candidates collected' distributions).findSome? Candidate.unsupported with
  | none =>
    refine .inl ⟨collected', ⟨ran, collectConstraints_collects wellFormed (List.drop_zero ..) same ran,
      hard.configured.assigns⟩, hard.assigned, List.findSome?_eq_none_iff.mp checked⟩
  | some result =>
    obtain ⟨candidate, -, empty⟩ := List.exists_of_findSome?_eq_some checked
    refine .inr ⟨result, ?_, status_of_unsupported empty⟩
    unfold settle
    rw [ran]
    simp only [bind, Except.bind, hard.assigned, checked]
    rfl

/-- The cycles that `configure` finds complete under the hard constraints. -/
def ConstraintProblem.completeCycles (problem : ConstraintProblem) : List ℕ :=
  match settle problem false with
  | .ok (collected, distributions) => completedCycles (problem.candidates collected distributions)
  | .error _ => []

/-- A complete cycle is complete under the soft constraints too. -/
theorem completedCycles_soft (soft : Configured problem true collected distributions)
    (hard : Configured problem false collected' distributions)
    (member : index ∈ completedCycles (problem.candidates collected' distributions)) :
    index ∈ completedCycles (problem.candidates collected distributions) := by
  obtain ⟨candidate', here', complete⟩ := mem_completedCycles.mp member
  obtain ⟨candidate, here⟩ := candidate_beside soft here'
  have descriptor : candidate'.descriptor = candidate.descriptor :=
    Option.some.inj ((candidate_at.mp here').1.symm.trans (candidate_at.mp here).1)
  refine mem_completedCycles.mpr ⟨candidate, here, ?_⟩
  obtain ⟨cyclic, begun, all⟩ := (Candidate.cycleComplete_iff (sorted_candidate here')).mp complete
  rw [descriptor] at cyclic begun
  refine (Candidate.cycleComplete_iff (sorted_candidate here)).mpr ⟨cyclic, begun, fun ordered contains => ?_⟩
  have used := all ordered (contains_hard soft hard here here' contains).2
  rw [Candidate.type, descriptor] at used
  exact used

variable {ρ : Type} (random : Generator ρ)

/-- A search with complete cycles says which, and draws nothing. -/
theorem randomSearch_finished (wellFormed : problem.WellFormed) (some : problem.completeCycles ≠ [])
    (attempts : ℕ) :
    randomSearch random problem attempts = pure (problem.finished problem.completeCycles) := by
  cases settled : settle problem false with
  | error stop =>
    rw [ConstraintProblem.completeCycles, settled] at some
    exact absurd rfl some
  | ok result =>
    obtain ⟨collected, distributions⟩ := result
    have complete : problem.completeCycles =
        completedCycles (problem.candidates collected distributions) := by
      rw [ConstraintProblem.completeCycles, settled]
    rw [complete] at some ⊢
    have hard := (settle_iff wellFormed).mp settled
    have ends : ∀ {requireSoft : Bool} {collected : Collected},
        settle problem requireSoft = .ok (collected, distributions) →
        completedCycles (problem.candidates collected distributions) ≠ [] →
        configure problem requireSoft = .error (.returned
          (problem.finished (completedCycles (problem.candidates collected distributions)))) := by
      intro requireSoft collected settled some
      rw [configure_eq, settled]
      exact if_neg (mt List.isEmpty_iff.mp some)
    have withHard : searchHard random problem attempts =
        pure (problem.finished (completedCycles (problem.candidates collected distributions))) := by
      rw [searchHard, ends settled some]
    unfold randomSearch
    split
    next =>
      rcases settle_soft wellFormed hard with ⟨collected', soft⟩ | ⟨result, stopped, status⟩
      · obtain ⟨index, member⟩ := List.exists_mem_of_ne_nil _ some
        have same := completedCycles_soft soft.configured hard.configured member
        rw [ends ((settle_iff wellFormed).mpr soft) (List.ne_nil_of_mem same), withHard]
        rfl
      · rw [configure_eq, stopped]
        simp only [bind, Except.bind]
        rw [if_neg (by rw [status]; decide), withHard]
    next => exact withHard

/-- A search that solves has settled domains, and one that reports cycles has complete ones. -/
theorem randomSearch_ends (wellFormed : problem.WellFormed) (attempts : ℕ) :
    Ensures (randomSearch random problem attempts) fun result =>
      (result.status = .solved → ∃ settled, settle problem false = .ok settled) ∧
        (result.status = .cycleExhausted → problem.completeCycles ≠ []) := by
  have other : ∀ {result : RandomizeResult}, result.status = .backendError ∨ result.status = .unsatisfiable →
      (result.status = .solved → ∃ settled, settle problem false = .ok settled) ∧
        (result.status = .cycleExhausted → problem.completeCycles ≠ []) := by
    rintro result (status | status) <;> rw [status] <;> exact ⟨nofun, nofun⟩
  have phase : ∀ {result : RandomizeResult} (settled : ∃ settled, settle problem false = .ok settled),
      (result.status = .solved ∧ Satisfies problem result.values) ∨ result.status = .searchExhausted →
      (result.status = .solved → ∃ settled, settle problem false = .ok settled) ∧
        (result.status = .cycleExhausted → problem.completeCycles ≠ []) := by
    rintro result settled (⟨status, -⟩ | status) <;> rw [status] <;> exact ⟨fun _ => settled, nofun⟩
  have hard : Ensures (searchHard random problem attempts) fun result =>
      (result.status = .solved → ∃ settled, settle problem false = .ok settled) ∧
        (result.status = .cycleExhausted → problem.completeCycles ≠ []) := by
    unfold searchHard
    rw [configure_eq]
    cases settled : settle problem false with
    | error stop =>
      cases stop with
      | threw error => exact Ensures.throw error
      | returned result =>
        rw [settled] at other
        exact Ensures.pure (other (settle_returned settled))
    | ok result =>
      obtain ⟨collected, distributions⟩ := result
      have complete : problem.completeCycles =
          completedCycles (problem.candidates collected distributions) := by
        rw [ConstraintProblem.completeCycles, settled]
      simp only [bind, Except.bind]
      split
      next error stopped => split at stopped <;> cases stopped
      next result stopped =>
        split at stopped
        next => cases stopped
        next some =>
          obtain rfl := Stop.returned.inj (Except.error.inj stopped)
          refine Ensures.pure ⟨nofun, fun _ => ?_⟩
          rw [complete]
          exact mt List.isEmpty_iff.mpr some
      next scratch ready =>
        split at ready
        next =>
          obtain rfl := Except.ok.inj ready
          refine (runPhase_ensures random wellFormed ((settle_iff wellFormed).mp settled).configured
            problem.hasSoft attempts).weaken fun result ended => ?_
          rw [settled] at phase
          exact phase ⟨_, rfl⟩ ended
        next => cases ready
  unfold randomSearch
  refine Ensures.ite (fun _ => ?_) fun _ => hard
  rw [configure_eq]
  cases settled : settle problem true with
  | error stop =>
    cases stop with
    | threw error => exact Ensures.throw error
    | returned result =>
      exact Ensures.ite (fun failed => Ensures.pure (other (settle_returned settled))) fun _ => hard
  | ok result =>
    obtain ⟨collected, distributions⟩ := result
    have soft := (settle_iff wellFormed).mp settled
    obtain ⟨collected', settledHard⟩ := settle_hard wellFormed soft
    simp only [bind, Except.bind]
    split
    next error stopped => split at stopped <;> cases stopped
    next result stopped =>
      split at stopped
      next => cases stopped
      next some =>
        obtain rfl := Stop.returned.inj (Except.error.inj stopped)
        refine Ensures.ite (fun failed => absurd failed ?_) fun _ => hard
        exact (by decide : RandomizeStatus.cycleExhausted ≠ .backendError)
    next scratch ready =>
      split at ready
      next =>
        obtain rfl := Except.ok.inj ready
        refine Ensures.bind (runPhase_ensures random wellFormed soft.configured false attempts)
          fun preferred ended => ?_
        refine Ensures.ite (fun _ => Ensures.pure ?_) fun _ => hard
        exact phase ⟨_, (settle_iff wellFormed).mpr settledHard⟩ ended
      next => cases ready

end Search

/-! ### Calls -/

namespace Randomized

variable {object object' : Randomized}

/-- The object with no cycle begun. -/
def fresh (object : Randomized) : Randomized :=
  { object with rands := object.rands.map fun rand => { rand with seen := [] } }

/-- All cycles are reset when all of them have values. -/
theorem resetCycles_valid {indices : List ℕ} (distinct : indices.Nodup)
    (valid : ∀ index ∈ indices, ∃ rand, object.rands[index]? = some rand ∧ rand.hasCycleValues = true) :
    resetCycles object indices = (true, object.withoutCycles indices, indices.map CycleEvent.reset) := by
  have ends : (resetCycles object indices).1 = true := by
    induction indices generalizing object with
    | nil => rfl
    | cons first rest ih =>
      obtain ⟨others, distinctRest⟩ := List.nodup_cons.mp distinct
      obtain ⟨rand, found, hasValues⟩ := valid first List.mem_cons_self
      unfold resetCycles
      simp only [found, hasValues, Bool.not_true, Bool.false_eq_true, if_false]
      refine ih distinctRest fun index member => ?_
      obtain ⟨other, isOther, otherValues⟩ := valid index (List.mem_cons_of_mem _ member)
      refine ⟨other, ?_, otherValues⟩
      rw [List.getElem?_modify_ne _ _ (ne_of_mem_of_not_mem member others).symm]
      exact isOther
  obtain ⟨done, events, -, -, all⟩ := resetCycles_prefix indices object
  obtain ⟨done', left, -, -, all'⟩ := resetCycles_eq object indices
  rw [all ends] at events
  rw [all' ends] at left
  exact Prod.ext ends (Prod.ext left events)

theorem SameDeclarations.sameButExclusions (same : SameDeclarations object object')
    (inlineConstraints : List NamedConstraint) :
    SameButExclusions (object.activeProblem inlineConstraints)
      (object'.activeProblem inlineConstraints) where
  vars := by
    have each : ∀ other : Randomized, other.descriptors.map VariableDescriptor.unused =
        (other.rands.map RandVariable.declared).zipIdx.map fun declared =>
          declared.1.descriptor declared.2 := by
      intro other
      rw [descriptors, List.map_map, List.zipIdx_map, List.map_map]
      refine List.map_congr_left fun entry _ => ?_
      rcases entry with ⟨rand, id⟩
      rcases rand with ⟨name, type, minimumRaw, maximumRaw, _ | _, valueRaw, seen⟩ <;> rfl
    show object'.descriptors.map VariableDescriptor.unused = object.descriptors.map _
    rw [each, each, same.rands]
  constraints := by
    show object'.constraints.filter _ ++ _ = object.constraints.filter _ ++ _
    rw [same.constraints]
  distributions := by
    show object'.distributions.filter _ = object.distributions.filter _
    rw [same.distributions]

theorem fresh_declared (cached : object.Cached) :
    object.fresh.Cached ∧ SameDeclarations object object.fresh := by
  refine cached.of_declared ?_
  rw [List.map_map]
  rfl

/-- What `accept` returns depends on the number of the variables alone. -/
theorem accept_congr (length : object'.rands.length = object.rands.length) (name : String)
    (result : RandomizeResult) : (object'.accept name result).2 = (object.accept name result).2 := by
  unfold accept
  rw [length]
  split
  · rfl
  · split <;> rfl

variable {ρ : Type} (random : Generator ρ)

/-- The events and the result of a call that solves a problem once. -/
def solveOnce (object : Randomized) (backend : BuiltInBackend) (problem : ConstraintProblem) (state : ρ) :
    List CycleEvent × Except SearchError RandomizeResult :=
  match (backend.solve random problem).run state with
  | .error error => ([], .error error)
  | .ok (result, _) =>
    ((object.accept backend.name result).2.1, .ok (object.accept backend.name result).2.2)

theorem solveOnce_congr (length : object'.rands.length = object.rands.length) (backend : BuiltInBackend)
    (problem : ConstraintProblem) (state : ρ) :
    object'.solveOnce random backend problem state = object.solveOnce random backend problem state := by
  unfold solveOnce
  simp only [accept_congr length]

/-- No cycle is reset by a call that solves once. -/
theorem reset_not_mem_solveOnce (object : Randomized) (backend : BuiltInBackend)
    (problem : ConstraintProblem) (state : ρ) (index : ℕ) :
    CycleEvent.reset index ∉ (object.solveOnce random backend problem state).1 := by
  intro member
  unfold solveOnce at member
  split at member
  next => exact List.not_mem_nil member
  next =>
    unfold accept at member
    split at member
    next => exact List.not_mem_nil member
    next =>
      split at member
      next => exact List.not_mem_nil member
      next =>
        obtain ⟨pair, -, differs⟩ := List.mem_map.mp member
        cases differs

variable {inlineConstraints : List NamedConstraint}

theorem solve_ends {problem : ConstraintProblem} (wellFormed : problem.WellFormed)
    (backend : BuiltInBackend) :
    Ensures (backend.solve random problem) fun result =>
      (result.status = .solved → ∃ settled, settle problem false = .ok settled) ∧
        (result.status = .cycleExhausted → problem.completeCycles ≠ []) := by
  refine Ensures.bind (randomSearch_ends random wellFormed backend.attempts) fun result ends => ?_
  exact Ensures.ite (fun _ => Ensures.pure ends) fun _ => Ensures.pure ends

/-- A call solves once when no cycle is complete. -/
theorem randomizeImpl_unfinished (cached : object.Cached)
    (wellFormed : (object.activeProblem inlineConstraints).WellFormed)
    (none : (object.activeProblem inlineConstraints).completeCycles = []) (backend : BuiltInBackend)
    (state : ρ) :
    let once := object.solveOnce random backend (object.activeProblem inlineConstraints) state
    (object.randomizeImpl random backend inlineConstraints state).events = once.1 ∧
      (object.randomizeImpl random backend inlineConstraints state).result = once.2 := by
  obtain ⟨problem, -, same⟩ := prepareProblem_spec cached inlineConstraints
  have ends := solve_ends random wellFormed backend state
  rw [← solveOnce_congr random (congrArg List.length same.rands)]
  unfold randomizeImpl solveOnce
  simp only [problem]
  cases ran : (backend.solve random (object.activeProblem inlineConstraints)).run state with
  | error error => exact ⟨rfl, rfl⟩
  | ok outcome =>
    obtain ⟨result, state'⟩ := outcome
    have unfinished : result.status ≠ .cycleExhausted := fun status =>
      (ends result state' ran).2 status none
    simp only [if_neg unfinished]
    exact ⟨trivial, trivial⟩

/-- No cycle is complete after the complete ones are begun anew. -/
theorem completeCycles_withoutCycles (cached : object.Cached) :
    ((object.withoutCycles (object.activeProblem inlineConstraints).completeCycles).activeProblem
      inlineConstraints).completeCycles = [] := by
  generalize isDone : (object.activeProblem inlineConstraints).completeCycles = done
  have same := (withoutCycles_declared cached done).2.sameButExclusions inlineConstraints
  rw [ConstraintProblem.completeCycles] at isDone ⊢
  rw [same.settle_eq]
  cases settled : settle (object.activeProblem inlineConstraints) false with
  | error stop => rfl
  | ok result =>
    obtain ⟨collected, distributions⟩ := result
    rw [settled] at isDone
    simp only at isDone ⊢
    refine List.eq_nil_iff_forall_not_mem.mpr fun index member => ?_
    obtain ⟨candidate, here, complete⟩ := mem_completedCycles.mp member
    obtain ⟨isVariable, domain, distribution⟩ := candidate_at.mp here
    obtain ⟨rand, isRand, descriptor⟩ := descriptor_at.mp isVariable
    rw [withoutCycles_at, Option.map_eq_some_iff] at isRand
    obtain ⟨before, isBefore, rfl⟩ := isRand
    split at descriptor
    next =>
      have begun := ((Candidate.cycleComplete_iff (sorted_candidate here)).mp complete).2.1
      rw [← descriptor] at begun
      simp only [RandVariable.descriptor, ite_self, ne_eq, not_true_eq_false] at begun
    next notDone =>
      refine notDone ?_
      rw [← isDone]
      exact mem_completedCycles.mpr
        ⟨candidate, candidate_at.mpr ⟨descriptor_at.mpr ⟨before, isBefore, descriptor⟩, domain, distribution⟩,
          complete⟩

/-- A complete cycle has values. -/
theorem hasCycleValues_of_complete {index : ℕ}
    (member : index ∈ (object.activeProblem inlineConstraints).completeCycles) :
    ∃ rand, object.rands[index]? = some rand ∧ rand.hasCycleValues = true := by
  rw [ConstraintProblem.completeCycles] at member
  split at member
  next collected distributions settled =>
    obtain ⟨candidate, here, complete⟩ := mem_completedCycles.mp member
    obtain ⟨isVariable, -, -⟩ := candidate_at.mp here
    obtain ⟨rand, isRand, descriptor⟩ := descriptor_at.mp isVariable
    obtain ⟨cyclic, begun, -⟩ := (Candidate.cycleComplete_iff (sorted_candidate here)).mp complete
    rw [← descriptor] at cyclic begun
    have isCyclic : rand.cyclic = true := cyclic
    simp only [RandVariable.descriptor, isCyclic, if_true] at begun
    refine ⟨rand, isRand, ?_⟩
    rw [RandVariable.hasCycleValues, isCyclic, Bool.true_and, Bool.not_eq_true',
      List.isEmpty_eq_false_iff]
    exact begun
  next => exact absurd member List.not_mem_nil

/-- A call begins the complete cycles anew, and is then the call on the object that is left. -/
theorem randomizeImpl_finished (cached : object.Cached)
    (wellFormed : (object.activeProblem inlineConstraints).WellFormed) (backend : BuiltInBackend)
    (state : ρ) :
    let done := (object.activeProblem inlineConstraints).completeCycles
    let call := object.randomizeImpl random backend inlineConstraints state
    let again := (object.withoutCycles done).randomizeImpl random backend inlineConstraints state
    call.events = done.map CycleEvent.reset ++ again.events ∧ call.result = again.result := by
  have none : ((object.withoutCycles (object.activeProblem inlineConstraints).completeCycles).activeProblem
      inlineConstraints).completeCycles = [] := completeCycles_withoutCycles cached
  have valid : ∀ index ∈ (object.activeProblem inlineConstraints).completeCycles,
      ∃ rand, object.rands[index]? = some rand ∧ rand.hasCycleValues = true :=
    fun _ member => hasCycleValues_of_complete member
  have distinct : (object.activeProblem inlineConstraints).completeCycles.Nodup := by
    rw [ConstraintProblem.completeCycles]
    split
    · exact nodup_completedCycles _
    · exact List.nodup_nil
  have search := fun some => randomSearch_finished random wellFormed some backend.attempts
  generalize (object.activeProblem inlineConstraints).completeCycles = done at none valid distinct search
  intro _ call again
  by_cases empty : done = []
  · subst empty
    have same : again = call := by
      show (object.withoutCycles []).randomizeImpl random backend inlineConstraints state = call
      rw [withoutCycles_nil]
    rw [same]
    exact ⟨rfl, rfl⟩
  · obtain ⟨problem, cached', same⟩ := prepareProblem_spec cached inlineConstraints
    rw [← same.rands] at valid
    have resets := resetCycles_valid distinct valid
    obtain ⟨problem', -, same'⟩ :=
      prepareProblem_spec (withoutCycles_declared cached' done).1 inlineConstraints
    have left : ((object.prepareProblem inlineConstraints).withoutCycles done).activeProblem
        inlineConstraints = (object.withoutCycles done).activeProblem inlineConstraints := by
      unfold activeProblem descriptors withoutCycles
      rw [same.rands, same.constraints, same.distributions]
    obtain ⟨cachedLeft, declared⟩ := withoutCycles_declared cached done
    have once := randomizeImpl_unfinished random cachedLeft
      ((declared.sameButExclusions inlineConstraints).wellFormed wellFormed) none backend state
    have ran : (backend.solve random (object.activeProblem inlineConstraints)).run state =
        .ok ({ (object.activeProblem inlineConstraints).finished done with engine := .sampling }, state) := by
      unfold BuiltInBackend.solve
      rw [search empty, pure_bind]
      simp only [ConstraintProblem.finished, reduceCtorEq, decide_false, Bool.and_false, Bool.false_eq_true,
        if_false]
      rfl
    show (object.randomizeImpl random backend inlineConstraints state).events = _ ++ again.events ∧
      (object.randomizeImpl random backend inlineConstraints state).result = again.result
    rw [once.1, once.2]
    unfold randomizeImpl solveOnce
    simp only [problem, ran, ConstraintProblem.finished, if_true, resets, problem', left]
    cases (backend.solve random ((object.withoutCycles done).activeProblem inlineConstraints)).run
        state with
    | error error => exact ⟨(List.append_nil _).symm, rfl⟩
    | ok outcome =>
      have length : (((object.prepareProblem inlineConstraints).withoutCycles done).prepareProblem
          inlineConstraints).rands.length = (object.withoutCycles done).rands.length := by
        rw [same'.rands]
        unfold withoutCycles
        rw [same.rands]
      simp only [accept_congr length]
      exact ⟨rfl, trivial⟩

end Randomized

/-- The call solved. -/
def Randomized.Randomization.Solved (call : Randomized.Randomization) : Prop :=
  ∃ result, call.result = .ok result ∧ result.status = .solved

/-- Every value of the variable that the constraints, the ranges and the distributions allow has been
used since the last reset of its cycle. -/
def AllUsed (object : Randomized) (inlineConstraints : List NamedConstraint) (events : List CycleEvent)
    (index : ℕ) : Prop :=
  ∀ values, Satisfies (object.fresh.activeProblem inlineConstraints) values →
    values.getD index 0 ∈ sinceReset index events

section

variable {object : Randomized} {events : List CycleEvent} {inlineConstraints : List NamedConstraint}

/-- Without used values no cycle is complete. -/
theorem completeCycles_eq_nil {problem : ConstraintProblem}
    (unused : ∀ descriptor ∈ problem.vars, descriptor.excludedRaw = []) : problem.completeCycles = [] := by
  rw [ConstraintProblem.completeCycles]
  split
  next collected distributions settled =>
    refine List.eq_nil_iff_forall_not_mem.mpr fun index member => ?_
    obtain ⟨candidate, here, complete⟩ := mem_completedCycles.mp member
    have begun := ((Candidate.cycleComplete_iff (sorted_candidate here)).mp complete).2.1
    exact begun (unused _ (List.mem_of_getElem? (candidate_at.mp here).1))
  next => rfl

theorem unused_fresh (object : Randomized) (inlineConstraints : List NamedConstraint) :
    ∀ descriptor ∈ (object.fresh.activeProblem inlineConstraints).vars, descriptor.excludedRaw = [] := by
  intro descriptor member
  obtain ⟨index, here⟩ := List.mem_iff_getElem?.mp member
  obtain ⟨rand, isRand, rfl⟩ := Randomized.descriptor_at.mp here
  obtain ⟨before, -, rfl⟩ := List.mem_map.mp (List.mem_of_getElem? isRand)
  exact ite_self []

/-- What satisfies a problem satisfies it without the used values. -/
theorem Satisfies.of_sameButExclusions {problem problem' : ConstraintProblem}
    (same : SameButExclusions problem problem') {values : List ℕ} (satisfies : Satisfies problem' values)
    (unused : ∀ descriptor ∈ problem.vars, descriptor.excludedRaw = []) : Satisfies problem values := by
  have beside : ∀ {index : ℕ} {descriptor : VariableDescriptor}, problem.vars[index]? = some descriptor →
      ∃ descriptor', problem'.vars[index]? = some descriptor' ∧ descriptor'.type = descriptor.type ∧
        descriptor'.minimumRaw = descriptor.minimumRaw ∧
        descriptor'.maximumRaw = descriptor.maximumRaw := by
    intro index descriptor here
    have found := congrArg (·[index]?) same.vars
    simp only [List.getElem?_map, here, Option.map_some, Option.map_eq_some_iff] at found
    obtain ⟨descriptor', here', agree⟩ := found
    simp only [VariableDescriptor.unused, VariableDescriptor.mk.injEq] at agree
    exact ⟨descriptor', here', agree.2.2.1, agree.2.2.2.1, agree.2.2.2.2.1⟩
  refine ⟨satisfies.length.trans same.length, fun index descriptor here => ?_,
    fun index descriptor here => ?_, ?_, fun distribution member enabled descriptor here => ?_,
    fun index descriptor here => ?_⟩
  · obtain ⟨descriptor', here', types, -, -⟩ := beside here
    rw [← types]
    exact satisfies.normal index descriptor' here'
  · obtain ⟨descriptor', here', types, low, high⟩ := beside here
    rw [← types, ← low, ← high]
    exact satisfies.declared index descriptor' here'
  · rw [← same.constraints]
    exact satisfies.hard
  · obtain ⟨descriptor', here', types, -, -⟩ := beside here
    rw [← types]
    exact satisfies.weighted distribution (same.distributions ▸ member) enabled descriptor' here'
  · rw [unused descriptor (List.mem_of_getElem? here)]
    exact List.not_mem_nil

/-- The complete cycles are those with every counted value used. -/
theorem mem_completeCycles_iff (tracks : object.Tracks events)
    (wellFormed : (object.activeProblem inlineConstraints).WellFormed) {collected : Collected}
    {distributions : List (Option NamedDistribution)}
    (settled : settle (object.activeProblem inlineConstraints) false = .ok (collected, distributions))
    {index : ℕ} :
    index ∈ (object.activeProblem inlineConstraints).completeCycles ↔
      Exhausted object inlineConstraints events index := by
  have isSettled := (settle_iff wellFormed).mp settled
  rw [ConstraintProblem.completeCycles, settled]
  simp only [mem_completedCycles]
  constructor
  · rintro ⟨candidate, here, complete⟩
    obtain ⟨rand, isRand, descriptor⟩ := Randomized.descriptor_at.mp (candidate_at.mp here).1
    obtain ⟨cyclic, -, all⟩ := (Candidate.cycleComplete_iff (sorted_candidate here)).mp complete
    rw [← descriptor] at cyclic
    have isCyclic : rand.cyclic = true := cyclic
    refine ⟨rand, isRand, isCyclic, fun ordered supports => ?_⟩
    obtain ⟨raw, used, same⟩ :=
      all ordered ((contains_iff_effectiveSupport isSettled.configured here).mp supports)
    rw [Candidate.type, ← descriptor] at same
    rw [← descriptor] at used
    simp only [RandVariable.descriptor, isCyclic, if_true] at used same
    rw [← same, rand.type.fromOrderedRaw_orderedRaw,
      rand.type.normalize_of_lt (tracks.normal index rand isRand raw used),
      ← tracks.seen index rand isRand isCyclic]
    exact used
  · rintro ⟨rand, isRand, isCyclic, all⟩
    obtain ⟨candidate, here, descriptor⟩ := isSettled.configured.candidate_of
      (Randomized.descriptor_at.mpr ⟨rand, isRand, rfl⟩)
    have type : candidate.type = rand.type := congrArg VariableDescriptor.type descriptor
    have excluded : candidate.descriptor.excludedRaw = rand.seen := by
      rw [descriptor]
      simp only [RandVariable.descriptor, isCyclic, if_true]
    have used : ∀ ordered, candidate.contains ordered = true →
        ∃ raw ∈ candidate.descriptor.excludedRaw, candidate.type.orderedRaw raw = ordered := by
      intro ordered contains
      have small := isSettled.configured.lt_count here (Candidate.contains_iff.mp contains).1
      refine ⟨candidate.type.fromOrderedRaw ordered, ?_, candidate.type.orderedRaw_fromOrderedRaw small⟩
      rw [excluded, tracks.seen index rand isRand isCyclic, type]
      exact all ordered ((contains_iff_effectiveSupport isSettled.configured here).mpr contains)
    refine ⟨candidate, here, (Candidate.cycleComplete_iff (sorted_candidate here)).mpr ⟨?_, ?_, used⟩⟩
    · rw [descriptor]
      exact isCyclic
    · obtain ⟨ordered, contains⟩ := Candidate.exists_contains (sorted_candidate here)
        (isSettled.supported candidate (List.mem_of_getElem? here))
      obtain ⟨raw, member, -⟩ := used ordered contains
      exact List.ne_nil_of_mem member

variable {ρ : Type} (random : Generator ρ)

/-- A solved call has solved its problem. -/
theorem solved_of_solveOnce {backend : BuiltInBackend} {problem : ConstraintProblem} {state : ρ}
    {result : RandomizeResult} (isResult : (object.solveOnce random backend problem state).2 = .ok result)
    (solved : result.status = .solved) :
    ∃ first state', (backend.solve random problem).run state = .ok (first, state') ∧
      first.status = .solved := by
  unfold Randomized.solveOnce at isResult
  split at isResult
  next => cases isResult
  next first state' ran =>
    refine ⟨first, state', ran, ?_⟩
    obtain rfl := Except.ok.inj isResult
    unfold Randomized.accept at solved
    split at solved
    next unsolved => exact absurd solved unsolved
    next isSolved => exact not_not.mp isSolved

/-- A call without complete cycles solves when its search finds an assignment, which satisfies the problem. -/
theorem solved_unfinished (cached : object.Cached)
    (wellFormed : (object.activeProblem inlineConstraints).WellFormed)
    (none : (object.activeProblem inlineConstraints).completeCycles = []) {backend : BuiltInBackend}
    {state : ρ} (solved : (object.randomizeImpl random backend inlineConstraints state).Solved) :
    (∃ values, Satisfies (object.activeProblem inlineConstraints) values) ∧
      ∃ settled, settle (object.activeProblem inlineConstraints) false = .ok settled := by
  obtain ⟨result, isResult, isSolved⟩ := solved
  obtain ⟨-, once⟩ := Randomized.randomizeImpl_unfinished random cached wellFormed none backend state
  obtain ⟨first, state', ran, firstSolved⟩ :=
    solved_of_solveOnce random (once.symm.trans isResult) isSolved
  have sound := backend.solve_sound random wellFormed state first state' ran
  have ends := Randomized.solve_ends random wellFormed backend state first state' ran
  exact ⟨⟨first.values, sound.solved firstSolved⟩, ends.1 firstSolved⟩

/-- When no other cycle has begun than the complete ones, the object that is left is as good as fresh. -/
theorem activeProblem_withoutCycles (done : List ℕ)
    (begun : ∀ (index : ℕ) (rand : RandVariable), object.rands[index]? = some rand →
      rand.cyclic = true → rand.seen ≠ [] → index ∈ done) :
    (object.withoutCycles done).activeProblem inlineConstraints =
      object.fresh.activeProblem inlineConstraints := by
  have descriptors : (object.withoutCycles done).descriptors = object.fresh.descriptors := by
    refine List.ext_getElem? fun index => ?_
    unfold Randomized.descriptors
    rw [List.getElem?_map, List.getElem?_map, List.getElem?_zipIdx, List.getElem?_zipIdx,
      Randomized.withoutCycles_at, Randomized.fresh, List.getElem?_map]
    cases here : object.rands[index]? with
    | none => rfl
    | some rand =>
      simp only [Option.map_some, Option.some.injEq]
      split
      next => rfl
      next notDone =>
        by_cases cyclic : rand.cyclic = true
        · have empty : rand.seen = [] := by
            by_contra some
            exact notDone (begun index rand here cyclic some)
          simp only [RandVariable.descriptor, empty]
        · simp only [RandVariable.descriptor, if_neg cyclic]
  unfold Randomized.activeProblem
  rw [descriptors]
  rfl

/-- A call resets the complete cycles. -/
theorem reset_mem_iff (cached : object.Cached)
    (wellFormed : (object.activeProblem inlineConstraints).WellFormed) (backend : BuiltInBackend) (state : ρ)
    {index : ℕ} :
    CycleEvent.reset index ∈ (object.randomizeImpl random backend inlineConstraints state).events ↔
      index ∈ (object.activeProblem inlineConstraints).completeCycles := by
  have none : ((object.withoutCycles (object.activeProblem inlineConstraints).completeCycles).activeProblem
      inlineConstraints).completeCycles = [] := Randomized.completeCycles_withoutCycles cached
  obtain ⟨isEvents, -⟩ := Randomized.randomizeImpl_finished random cached wellFormed backend state
  generalize (object.activeProblem inlineConstraints).completeCycles = done at isEvents none ⊢
  obtain ⟨cachedLeft, declared⟩ := Randomized.withoutCycles_declared cached done
  obtain ⟨onceEvents, -⟩ := Randomized.randomizeImpl_unfinished random cachedLeft
    ((declared.sameButExclusions inlineConstraints).wellFormed wellFormed) none backend state
  rw [isEvents, onceEvents, List.mem_append]
  refine ⟨fun member => ?_, fun member => .inl (List.mem_map_of_mem member)⟩
  obtain ⟨other, inDone, same⟩ := List.mem_map.mp
    (member.resolve_right (Randomized.reset_not_mem_solveOnce random _ _ _ _ _))
  exact CycleEvent.reset.inj same ▸ inDone

/-- A call fails when all values of a `RandC` are used and its cycle is not complete. -/
theorem not_solved_of_incomplete (cached : object.Cached)
    (wellFormed : (object.activeProblem inlineConstraints).WellFormed) (tracks : object.Tracks events)
    {index : ℕ} {rand : RandVariable} (here : object.rands[index]? = some rand) (cyclic : rand.cyclic = true)
    (used : AllUsed object inlineConstraints events index)
    (incomplete : index ∉ (object.activeProblem inlineConstraints).completeCycles)
    (backend : BuiltInBackend) (state : ρ) :
    ¬ (object.randomizeImpl random backend inlineConstraints state).Solved := by
  intro solved
  have none : ((object.withoutCycles (object.activeProblem inlineConstraints).completeCycles).activeProblem
      inlineConstraints).completeCycles = [] := Randomized.completeCycles_withoutCycles cached
  obtain ⟨-, isResult⟩ := Randomized.randomizeImpl_finished random cached wellFormed backend state
  generalize (object.activeProblem inlineConstraints).completeCycles = done at incomplete isResult none
  obtain ⟨cachedLeft, declaredLeft⟩ := Randomized.withoutCycles_declared cached done
  obtain ⟨-, declaredFresh⟩ := Randomized.fresh_declared cached
  unfold Randomized.Randomization.Solved at solved
  rw [isResult] at solved
  obtain ⟨⟨values, satisfies⟩, -⟩ := solved_unfinished random cachedLeft
    ((declaredLeft.sameButExclusions inlineConstraints).wellFormed wellFormed) none solved
  -- the assignment takes a value that the cycle has not had
  have isLeft : ((object.withoutCycles done).activeProblem inlineConstraints).vars[index]? =
      some (rand.descriptor index) := by
    refine Randomized.descriptor_at.mpr ⟨rand, ?_, rfl⟩
    rw [Randomized.withoutCycles_at, here, Option.map_some, if_neg incomplete]
  have unused := satisfies.excluded index _ isLeft
  simp only [RandVariable.descriptor, cyclic, if_true, tracks.seen index rand here cyclic] at unused
  have beside : object.fresh.SameDeclarations (object.withoutCycles done) :=
    ⟨rfl, rfl, rfl, declaredLeft.rands.trans declaredFresh.rands.symm⟩
  exact unused (used values (satisfies.of_sameButExclusions
    (beside.sameButExclusions inlineConstraints) (unused_fresh object inlineConstraints)))

end

/-- A tag that has had both of its values, and the history of the calls. -/
def usedTag (node : ExprNode) : Randomized × List CycleEvent :=
  performAll (Random.generator 4)
    [.register { name := "tag", type := uint8, maximumRaw := 3, cyclic := true },
      .constraint node "tags" false, .randomize {} ⟨1, 2, 3, 4⟩, .randomize {} ⟨5, 6, 7, 8⟩] ({}, [])

theorem usedTag_history {node : ExprNode} (built : ConstraintExpr [uint8] node) :
    History (Random.generator 4) (usedTag node).1 (usedTag node).2 := by
  have empty : History (Random.generator 4) {} [] := .start
  have tag := empty.call (.register { name := "tag", type := uint8, maximumRaw := 3, cyclic := true }) trivial
  have limited := tag.call (.constraint node "tags" false) built
  exact (limited.call (.randomize {} ⟨1, 2, 3, 4⟩) trivial).call (.randomize {} ⟨5, 6, 7, 8⟩) trivial

/-- The tag is even. -/
def even : ExprNode :=
  .compare .equal (.arithmetic .remainder uint8 (.var uint8 0) (.constant uint8 2)) (.constant uint8 0)

/-- The tag is 1 or 3. -/
def oneOrThree : ExprNode := .inside (.var uint8 0) (some [⟨1, 1⟩, ⟨3, 3⟩])

/-- The tag without a cycle. -/
def tagDescriptor : VariableDescriptor := { name := "tag", type := uint8, maximumRaw := 3, cyclic := true }

/-- A tag has had all its values when it has had those that satisfy its constraint. -/
theorem allUsed_of_tag {object : Randomized} {events : List CycleEvent} {node : ExprNode} {label : String}
    (isProblem : object.fresh.activeProblem [] = {
      vars := [tagDescriptor], constraints := [{ label := label, expression := some node }] })
    (holds : ∀ values : List ℕ, values.getD 0 0 ≤ 3 → (evaluateNode values node).raw ≠ 0 →
      values.getD 0 0 ∈ sinceReset 0 events) : AllUsed object [] events 0 := by
  intro values satisfies
  rw [isProblem] at satisfies
  have normal : values.getD 0 0 < uint8.count := satisfies.normal 0 tagDescriptor rfl
  have bound : uint8.orderedRaw (values.getD 0 0) ≤ uint8.orderedRaw 3 :=
    (satisfies.declared 0 tagDescriptor rfl).2
  have hard := satisfies.hard _ List.mem_cons_self rfl rfl node rfl
  refine holds values ?_ hard
  rw [ScalarType.orderedRaw, if_neg (by decide), uint8.normalize_of_lt normal] at bound
  exact bound.trans (by decide)

theorem solved_of_status {call : Randomized.Randomization}
    (status : call.result.map RandomizeResult.status = .ok .solved) : call.Solved := by
  unfold Randomized.Randomization.Solved
  cases isResult : call.result with
  | error error =>
    rw [isResult] at status
    cases status
  | ok result =>
    rw [isResult] at status
    exact ⟨result, rfl, Except.ok.inj status⟩

end Cpptb.Randomize
