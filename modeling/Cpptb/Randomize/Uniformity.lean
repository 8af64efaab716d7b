/-
Domain sampling is exact and uniform.

* `separated_finalizeDomain`: a finalized domain is a sorted list of disjoint ranges with gaps between
  them.
* `sampleDomain_eq`, `sampleDistributionEntry_eq`: a sample is the number at a drawn position of the
  domain, or of the part of it in an entry.
* `selectEntry_eq`: a supported entry is selected for as many draws as its weight.
* `domain_sampling_exact`, with the exceptions of `random_search`: none of them is an overflow.
-/

import Cpptb.Randomize.Integers
import Cpptb.Randomize.Soundness

namespace Cpptb.Randomize

open Segments
open Cpptb.Draws (position card_position)

section Finalizing

/-- Merging a range that starts later keeps the gaps. -/
theorem separated_mergeRange {merged : List RawRange} {range : RawRange} (separated : Separated merged)
    (later : ∀ back ∈ merged.getLast?, back.minimum ≤ range.minimum) :
    Separated (mergeRange merged range) := by
  unfold mergeRange
  split
  next => exact List.pairwise_singleton _ _
  next back found =>
    obtain ⟨front, rfl⟩ := List.getLast?_eq_some_iff.mp found
    obtain ⟨separatedFront, -, gaps⟩ := List.pairwise_append.mp separated
    have gap : ∀ old ∈ front, old.maximum + 1 < back.minimum := fun old member =>
      gaps old member back (List.mem_singleton_self back)
    have order := later back found
    split
    next beyond =>
      refine List.pairwise_append.mpr ⟨separated, List.pairwise_singleton _ _, fun old member new isNew => ?_⟩
      rw [List.mem_singleton.mp isNew]
      rcases List.mem_append.mp member with inFront | isBack
      · exact (gap old inFront).trans_le order
      · rw [List.mem_singleton.mp isBack]
        exact beyond.2
    next =>
      rw [List.dropLast_concat]
      refine List.pairwise_append.mpr
        ⟨separatedFront, List.pairwise_singleton _ _, fun old member new isNew => ?_⟩
      rw [List.mem_singleton.mp isNew]
      exact gap old member

theorem separated_foldl_mergeRange {ranges merged : List RawRange}
    (sorted : ranges.Pairwise fun left right => left.minimum ≤ right.minimum)
    (later : ∀ back ∈ merged.getLast?, ∀ range ∈ ranges, back.minimum ≤ range.minimum)
    (separated : Separated merged) : Separated (ranges.foldl mergeRange merged) := by
  induction ranges generalizing merged with
  | nil => exact separated
  | cons range rest ih =>
    obtain ⟨first, sortedRest⟩ := List.pairwise_cons.mp sorted
    refine ih sortedRest (fun back found other member => ?_)
      (separated_mergeRange separated fun back found => later back found range List.mem_cons_self)
    exact minimum_getLast_mergeRange
      (fun old foundOld => later old foundOld other (List.mem_cons_of_mem _ member)) (first other member)
      back found

/-- The ranges of a finalized domain are sorted and disjoint, and do not touch. -/
theorem separated_finalizeDomain (domain : CandidateDomain) : Separated (finalizeDomain domain).ranges := by
  unfold finalizeDomain
  split
  · split
    · exact List.pairwise_singleton _ _
    · exact List.Pairwise.nil
  · refine separated_foldl_mergeRange (sorted_sortRanges _) ?_ List.Pairwise.nil
    exact fun back found => absurd found nofun

end Finalizing

section Positions

variable {ρ : Type} (random : Generator ρ)

/-- What sampling relies on: ranges in order, below 2^64. -/
structure CandidateDomain.Finalized (domain : CandidateDomain) : Prop where
  proper : ∀ range ∈ domain.ranges, range.minimum ≤ range.maximum
  ascending : Ascending domain.ranges
  below : ∀ ordered, Covers domain.ranges ordered → ordered < 2 ^ 64

theorem finalized_finalizeDomain {domain : CandidateDomain} (small : domain.highOrdered ≤ maxU64) :
    (finalizeDomain domain).Finalized where
  proper := proper_finalizeDomain domain
  ascending := (separated_finalizeDomain domain).ascending
  below ordered covered := by
    have high := ((covers_finalizeDomain small).mp covered).high
    rw [maxU64] at small
    omega

theorem distributionEntrySize_eq (entry : WeightedRange) (domain : CandidateDomain) (type : ScalarType) :
    distributionEntrySize entry domain type = total (clip (entry.ordered type) domain.ranges) := rfl

/-- The scan for an offset finds the number at its position. -/
theorem pickOffset_eq (overflow : String) {ranges : List RawRange} {offset : ℕ}
    (inside : offset < total ranges) :
    (pickOffset overflow ranges offset : Draw ρ ℕ) = pure (nth ranges offset) := by
  induction ranges generalizing offset with
  | nil => exact absurd inside (Nat.not_lt_zero _)
  | cons range rest ih =>
    rw [total_cons] at inside
    show (if offset < range.size then _ else _) = (pure (if offset < range.size then _ else _) : Draw ρ ℕ)
    split
    next => rfl
    next beyond => exact ih (show offset - range.size < total rest by omega)

/-- An offset is drawn below the size. -/
theorem offset_lt {size : ℕ} (positive : 0 < size) (fits : size ≤ 2 ^ 64) :
    Ensures (random.offset size) (· < size) := by
  refine Ensures.ite (fun full => ?_) fun notFull => ?_
  · intro state value state' drawn
    obtain ⟨rfl, -⟩ := Prod.mk.inj (Except.ok.inj drawn)
    rw [full]
    exact UInt64.toNat_lt _
  · have exact : (size + (2 ^ 128 - 1)) % 2 ^ 64 = size - 1 := by omega
    rw [exact]
    exact (randint_le random (by omega)).weaken fun offset below => by omega

/-- An offset is a word for the full range, and a number up to the last offset else. -/
theorem offset_eq {size : ℕ} (positive : 0 < size) (fits : size ≤ 2 ^ 64) :
    random.offset size = if size = 2 ^ 64 then random.draw else random.randint 0 (size - 1) := by
  unfold Generator.offset
  split
  next => rfl
  next notFull =>
    have exact : (size + (2 ^ 128 - 1)) % 2 ^ 64 = size - 1 := by omega
    rw [exact]

theorem offset_raises (size : ℕ) : Raises (random.offset size) (· = .unfinished) :=
  Raises.ite (fun _ _ _ ran => absurd ran nofun) fun _ => randint_raises random (Nat.zero_le _)

variable {domain : CandidateDomain}

/-- The part of a domain in an entry is numbered too. -/
theorem CandidateDomain.Finalized.entry_bijOn (finalized : domain.Finalized) (entry : WeightedRange)
    (type : ScalarType) :
    Set.BijOn (nth (clip (entry.ordered type) domain.ranges))
      (Set.Iio (distributionEntrySize entry domain type))
      {x | (entry.ordered type).Has x ∧ Covers domain.ranges x} := by
  have numbered := nth_bijOn (fun _ member => proper_of_mem_clip member)
    (finalized.ascending.clip (entry.ordered type))
  simp only [covers_clip] at numbered
  exact numbered

theorem CandidateDomain.Finalized.size_le (finalized : domain.Finalized) :
    domainSize domain ≤ 2 ^ 64 :=
  total_le_of_below finalized.proper finalized.ascending finalized.below

theorem CandidateDomain.Finalized.entrySize_le (finalized : domain.Finalized) (entry : WeightedRange)
    (type : ScalarType) : distributionEntrySize entry domain type ≤ 2 ^ 64 :=
  total_le_of_below (fun _ member => proper_of_mem_clip member)
    (finalized.ascending.clip (entry.ordered type))
    fun x covered => finalized.below x (covers_clip.mp covered).2

theorem domainSize_pos (finalized : domain.Finalized) (nonempty : domain.ranges ≠ []) :
    0 < domainSize domain := by
  obtain ⟨first, member⟩ := List.exists_mem_of_ne_nil _ nonempty
  have covered : Covers domain.ranges first.minimum :=
    ⟨first, member, Nat.le_refl _, finalized.proper first member⟩
  obtain ⟨offset, inside, -⟩ := exists_nth covered
  exact Nat.zero_lt_of_lt inside

/-- A sample of a domain is the number at a drawn position. -/
theorem sampleDomain_eq (finalized : domain.Finalized) (nonempty : domain.ranges ≠ []) :
    sampleDomain random domain
      = random.offset (domainSize domain) >>= fun offset => pure (nth domain.ranges offset) :=
  Ensures.bind_congr (offset_lt random (domainSize_pos finalized nonempty) finalized.size_le)
    fun _ inside => pickOffset_eq _ inside

theorem sampleDistributionEntry_eq (finalized : domain.Finalized) {entry : WeightedRange}
    {type : ScalarType} (meets : distributionEntrySize entry domain type ≠ 0) :
    sampleDistributionEntry random entry domain type
      = random.offset (distributionEntrySize entry domain type) >>= fun offset =>
        pure (nth (clip (entry.ordered type) domain.ranges) offset) :=
  Ensures.bind_congr (offset_lt random (Nat.pos_of_ne_zero meets) (finalized.entrySize_le entry type))
    fun _ inside => pickOffset_eq _ inside

/-- The sample is the value at a drawn offset, and the offsets below the size number the target. -/
structure SamplesOnto (sample : Draw ρ ℕ) (size : ℕ) (value : ℕ → ℕ) (target : Set ℕ) : Prop where
  positive : 0 < size
  fits : size ≤ 2 ^ 64
  numbers : Set.BijOn value (Set.Iio size) target
  draws : sample = random.offset size >>= fun offset => pure (value offset)
  offsets : random.offset size = if size = 2 ^ 64 then random.draw else random.randint 0 (size - 1)
  below : Ensures (random.offset size) (· < size)

theorem samplesOnto_domain (finalized : domain.Finalized) (nonempty : domain.ranges ≠ []) :
    SamplesOnto random (sampleDomain random domain) (domainSize domain) (nth domain.ranges)
      {x | Covers domain.ranges x} := by
  have positive := domainSize_pos finalized nonempty
  exact {
    positive
    fits := finalized.size_le
    numbers := nth_bijOn finalized.proper finalized.ascending
    draws := sampleDomain_eq random finalized nonempty
    offsets := offset_eq random positive finalized.size_le
    below := offset_lt random positive finalized.size_le }

theorem samplesOnto_entry (finalized : domain.Finalized) {entry : WeightedRange} {type : ScalarType}
    (meets : distributionEntrySize entry domain type ≠ 0) :
    SamplesOnto random (sampleDistributionEntry random entry domain type)
      (distributionEntrySize entry domain type) (nth (clip (entry.ordered type) domain.ranges))
      {x | (entry.ordered type).Has x ∧ Covers domain.ranges x} := by
  have positive := Nat.pos_of_ne_zero meets
  have fits := finalized.entrySize_le entry type
  exact {
    positive
    fits
    numbers := finalized.entry_bijOn entry type
    draws := sampleDistributionEntry_eq random finalized meets
    offsets := offset_eq random positive fits
    below := offset_lt random positive fits }

end Positions

section Selection

variable {ρ : Type} (random : Generator ρ) (domain : CandidateDomain) (type : ScalarType)

/-- The weights of the supported entries, and zero for the others. -/
def shares (entries : List WeightedRange) : List ℕ :=
  entries.map fun entry => if entry.supports domain type then entry.weight else 0

/-- The weights that an entry declares add up below 2^64. -/
def WeightsFit (entries : List WeightedRange) : Prop :=
  (entries.map WeightedRange.weight).sum ≤ maxU64

/-- The loop of `dist` over the weights. -/
def checkWeights : List WeightedRange → (total : ℕ) → Except SearchError ℕ
  | [], total => return total
  | entry :: rest, total =>
    if entry.weight > maxU64 - total then
      throw (.invalidArgument "cpptb::dist total weight overflows uint64_t")
    else checkWeights rest (total + entry.weight)

/-- `dist`, of a variable. -/
def dist (variableIndex : ℕ) (entries : List WeightedRange) : Except SearchError Distribution := do
  let total ← checkWeights entries 0
  if total = 0 then
    throw (.invalidArgument "cpptb::dist requires at least one positive weight")
  else return { variableIndex, entries }

theorem shares_sum_le (entries : List WeightedRange) :
    (shares domain type entries).sum ≤ (entries.map WeightedRange.weight).sum := by
  induction entries with
  | nil => exact Nat.le_refl _
  | cons entry rest ih =>
    simp only [shares, List.map_cons, List.sum_cons]
    refine Nat.add_le_add ?_ ih
    split
    · exact Nat.le_refl _
    · exact Nat.zero_le _

variable {domain type}

/-- An entry is supported when it has a weight and meets the domain. -/
theorem supports_iff {entry : WeightedRange} : entry.supports domain type = true ↔
    entry.weight ≠ 0 ∧ ∃ x, (entry.ordered type).Has x ∧ Covers domain.ranges x := by
  rw [WeightedRange.supports, Bool.and_eq_true, bne_iff_ne, bne_iff_ne, distributionEntrySize_eq]
  refine and_congr_right fun _ => ⟨fun nonempty => ?_, fun supported => ?_⟩
  · exact ⟨_, covers_clip.mp (covers_nth (fun _ member => proper_of_mem_clip member)
      (Nat.pos_of_ne_zero nonempty))⟩
  · obtain ⟨x, has, covered⟩ := supported
    obtain ⟨offset, inside, -⟩ := exists_nth (covers_clip.mpr ⟨has, covered⟩)
    exact Nat.ne_zero_of_lt inside

theorem totalWeight_eq {entries : List WeightedRange} (fit : WeightsFit entries) :
    totalWeight domain type entries = (shares domain type entries).sum := by
  have general : ∀ start, start + (shares domain type entries).sum ≤ maxU64 →
      entries.foldl (fun total entry =>
        if entry.supports domain type then (total + entry.weight) % 2 ^ 64 else total) start
        = start + (shares domain type entries).sum := by
    clear fit
    induction entries with
    | nil => exact fun start _ => rfl
    | cons entry rest ih =>
      intro start fits
      simp only [shares, List.map_cons, List.sum_cons] at fits ih ⊢
      rw [List.foldl_cons]
      split
      next supported =>
        rw [if_pos supported] at fits
        rw [maxU64] at fits ih
        rw [Nat.mod_eq_of_lt (by omega), ih _ (by omega), Nat.add_assoc]
      next unsupported =>
        rw [if_neg unsupported] at fits
        rw [ih _ (by omega), Nat.zero_add]
  have fits := (shares_sum_le domain type entries).trans fit
  exact (general 0 (by omega)).trans (Nat.zero_add _)

/-- The scan selects the entry at the position of the number. -/
theorem selectEntry_eq {entries : List WeightedRange} {selected : ℕ}
    (inside : selected < (shares domain type entries).sum) :
    ∃ i entry, position (shares domain type entries) selected = some i ∧ entries[i]? = some entry ∧
      entry.supports domain type = true ∧
      selectEntry random domain type entries selected
        = sampleDistributionEntry random entry domain type := by
  induction entries generalizing selected with
  | nil => exact absurd inside (Nat.not_lt_zero _)
  | cons entry rest ih =>
    have sum : (shares domain type (entry :: rest)).sum
        = (if entry.supports domain type then entry.weight else 0) + (shares domain type rest).sum :=
      List.sum_cons
    have scan : position (shares domain type (entry :: rest)) selected =
        if selected < (if entry.supports domain type then entry.weight else 0) then some 0
        else (position (shares domain type rest)
          (selected - if entry.supports domain type then entry.weight else 0)).map (· + 1) := rfl
    rw [sum] at inside
    rw [scan, selectEntry]
    by_cases supported : entry.supports domain type = true
    · simp only [supported, if_true, Bool.not_true, Bool.false_eq_true, if_false] at inside ⊢
      by_cases here : selected < entry.weight
      · rw [if_pos here, if_pos here]
        exact ⟨0, entry, rfl, rfl, supported, rfl⟩
      · rw [if_neg here, if_neg here]
        obtain ⟨i, found, at_i, is_i, supports, selects⟩ := ih
          (show selected - entry.weight < (shares domain type rest).sum by omega)
        exact ⟨i + 1, found, by rw [at_i]; rfl, is_i, supports, selects⟩
    · simp only [supported, Bool.false_eq_true, if_false, Nat.not_lt_zero, Nat.sub_zero, Nat.zero_add,
        Bool.not_false, if_true] at inside ⊢
      obtain ⟨i, found, at_i, is_i, supports, selects⟩ := ih inside
      exact ⟨i + 1, found, by rw [at_i]; rfl, is_i, supports, selects⟩

theorem shares_sum_pos {entries : List WeightedRange} {entry : WeightedRange} (member : entry ∈ entries)
    (supported : entry.supports domain type = true) : 0 < (shares domain type entries).sum := by
  have share : entry.weight ∈ shares domain type entries :=
    List.mem_map.mpr ⟨entry, member, if_pos supported⟩
  exact (Nat.pos_of_ne_zero (supports_iff.mp supported).1).trans_le (List.single_le_sum (by simp) _ share)

/-- A sample of a variable with a distribution selects by a number below the total of the shares. -/
theorem sampleVariable_eq {distribution : NamedDistribution}
    (fit : WeightsFit distribution.expression.entries)
    (supported : 0 < (shares domain type distribution.expression.entries).sum) :
    sampleVariable random domain (some distribution) type = (do
      let selected ← random.randint 0 ((shares domain type distribution.expression.entries).sum - 1)
      selectEntry random domain type distribution.expression.entries selected) := by
  have small := (shares_sum_le domain type distribution.expression.entries).trans fit
  rw [maxU64] at small
  have last : (2 ^ 64 + (shares domain type distribution.expression.entries).sum - 1) % 2 ^ 64
      = (shares domain type distribution.expression.entries).sum - 1 := by omega
  rw [sampleVariable, totalWeight_eq fit, last]

/-- A sample draws a number below the total of the shares and scans for it. An entry that is supported is
selected by as many numbers as its weight, another entry by none. -/
structure SelectsBy (domain : CandidateDomain) (type : ScalarType) (distribution : NamedDistribution) :
    Prop where
  draws : sampleVariable random domain (some distribution) type
    = random.randint 0 ((shares domain type distribution.expression.entries).sum - 1) >>= fun selected =>
      selectEntry random domain type distribution.expression.entries selected
  selects : ∀ selected < (shares domain type distribution.expression.entries).sum, ∃ i entry,
    position (shares domain type distribution.expression.entries) selected = some i ∧
    distribution.expression.entries[i]? = some entry ∧ entry.supports domain type = true ∧
    selectEntry random domain type distribution.expression.entries selected
      = sampleDistributionEntry random entry domain type
  share : ∀ i entry, distribution.expression.entries[i]? = some entry →
    ((Finset.range (shares domain type distribution.expression.entries).sum).filter
      (position (shares domain type distribution.expression.entries) · = some i)).card
      = if entry.supports domain type then entry.weight else 0
  supported : ∀ entry : WeightedRange, entry.supports domain type = true ↔
    entry.weight ≠ 0 ∧ ∃ x, (entry.ordered type).Has x ∧ Covers domain.ranges x

theorem selectsBy_variable {distribution : NamedDistribution}
    (fit : WeightsFit distribution.expression.entries)
    (supported : 0 < (shares domain type distribution.expression.entries).sum) :
    SelectsBy random domain type distribution where
  draws := sampleVariable_eq random fit supported
  selects _ inside := selectEntry_eq random inside
  share i entry found := by
    rw [card_position, shares, List.getD_eq_getElem?_getD, List.getElem?_map, found]
    rfl
  supported _ := supports_iff

end Selection

section Unreachable

variable {ρ : Type} (random : Generator ρ)

/-- The bounds of all domains are words of 64 bits. -/
def SmallDomains (domains : List CandidateDomain) : Prop :=
  ∀ domain ∈ domains, domain.highOrdered ≤ maxU64

/-- What tightening leaves: an exception of `at`, or domains that are small still. -/
def KeepsSmall (domains : List CandidateDomain) : Except SearchError (Bool × List CandidateDomain) → Prop
  | .error error => error = .outOfRange
  | .ok (_, domains') => SmallDomains domains → SmallDomains domains'

theorem keepsSmall_changeAt (domains : List CandidateDomain) (index : ℕ)
    {change : CandidateDomain → CandidateDomain}
    (lowers : ∀ domain, (change domain).highOrdered ≤ domain.highOrdered) :
    KeepsSmall domains (do return (true, ← changeAt domains index change)) := by
  unfold changeAt
  split
  next =>
    intro small domain member
    obtain ⟨position, found⟩ := List.mem_iff_getElem?.mp member
    rw [List.getElem?_modify, Option.map_eq_map, Option.map_eq_some_iff] at found
    obtain ⟨old, isOld, rfl⟩ := found
    have smallOld := small old (List.mem_of_getElem? isOld)
    split
    · exact (lowers old).trans smallOld
    · exact smallOld
  next => exact rfl

theorem keepsSmall_tightenDomain (node : ExprNode) (domains : List CandidateDomain) :
    KeepsSmall domains (tightenDomain node domains) := by
  fun_induction tightenDomain node domains with
  | case1 left right domains first second =>
    cases ranLeft : tightenDomain left domains with
    | error error =>
      rw [ranLeft] at first
      exact first
    | ok result =>
      rw [ranLeft] at first
      obtain ⟨absorbed, middle⟩ := result
      have second := second middle
      simp only [bind, Except.bind]
      cases ranRight : tightenDomain right middle with
      | error error =>
        rw [ranRight] at second
        exact second
      | ok result' =>
        rw [ranRight] at second
        exact fun small => second (first small)
  | case2 type index ranges domains =>
    exact keepsSmall_changeAt domains index (CandidateDomain.restrict_highOrdered_le _)
  | case3 => exact id
  | case4 => exact id
  | case5 =>
    exact keepsSmall_changeAt _ _ (CandidateDomain.bound_highOrdered_le _ _)
  | case6 => exact id

/-- What collecting the constraints leaves. -/
def CollectsSmall : Except Stop Collected → Prop
  | .error (.threw error) => error = .outOfRange
  | .error (.returned _) => True
  | .ok after => SmallDomains after.domains

theorem collectConstraint_small (requireSoft : Bool) (index : ℕ) (constraint : NamedConstraint)
    {before : Collected} (small : SmallDomains before.domains) :
    CollectsSmall (collectConstraint requireSoft index constraint before) := by
  unfold collectConstraint
  cases constraint.expression with
  | none => exact trivial
  | some node =>
    have domains : (if constraint.soft = true then
        { before with soft := before.soft ++ [index] } else before).domains = before.domains := by
      split <;> rfl
    have tightened := keepsSmall_tightenDomain node before.domains
    simp only [domains]
    by_cases skipped : (constraint.soft && !requireSoft) = true
    · rw [if_pos skipped]
      show SmallDomains _
      rw [domains]
      exact small
    · rw [if_neg skipped]
      cases ran : tightenDomain node before.domains with
      | error error =>
        rw [ran] at tightened
        exact tightened
      | ok result =>
        rw [ran] at tightened
        obtain ⟨absorbed, domains'⟩ := result
        cases absorbed <;> exact tightened small

/-- Collecting the constraints throws `std::out_of_range` only, and leaves small domains. -/
theorem collectConstraints_small (requireSoft : Bool) (constraints : List NamedConstraint) (index : ℕ)
    {before : Collected} (small : SmallDomains before.domains) :
    CollectsSmall (collectConstraints requireSoft constraints index before) := by
  induction constraints generalizing index before with
  | nil => exact small
  | cons constraint rest ih =>
    rw [collectConstraints]
    have step := collectConstraint_small requireSoft index constraint small
    cases first : collectConstraint requireSoft index constraint before with
    | error stop =>
      rw [first] at step
      exact step
    | ok middle =>
      rw [first] at step
      exact ih (index + 1) step

/-- What `configure` makes sure of for a candidate that is sampled. -/
structure Candidate.Ready (candidate : Candidate) : Prop where
  finalized : candidate.domain.Finalized
  supported : candidate.unsupported = none
  fit : ∀ distribution, candidate.distribution = some distribution →
    WeightsFit distribution.expression.entries

/-- What `configure` leaves: candidates that can be sampled. -/
def ConfiguresReady : Except Stop Scratch → Prop
  | .error (.threw error) => error = .outOfRange
  | .error (.returned _) => True
  | .ok scratch => ∀ candidate ∈ scratch.candidates, candidate.Ready

/-- Assigning the distributions throws nothing. -/
theorem assignDistribution_threw {problem : ConstraintProblem} {distributions : List NamedDistribution}
    {before : List (Option NamedDistribution)} {error : SearchError} :
    distributions.foldlM (assignDistribution problem) before ≠ .error (.threw error) := by
  induction distributions generalizing before with
  | nil => exact nofun
  | cons distribution rest ih =>
    rw [List.foldlM_cons]
    cases first : assignDistribution problem before distribution with
    | ok middle => exact ih
    | error stop =>
      rintro ⟨⟩
      unfold assignDistribution at first
      simp only at first
      split at first <;> cases first

theorem of_mem_candidatesOf {descriptors : List VariableDescriptor} {domains : List CandidateDomain}
    {distributions : List (Option NamedDistribution)} {candidate : Candidate}
    (member : candidate ∈ candidatesOf descriptors domains distributions) :
    candidate.domain ∈ domains ∧ candidate.distribution ∈ distributions := by
  obtain ⟨⟨descriptor, domain, distribution⟩, zipped, rfl⟩ := List.mem_map.mp member
  exact List.of_mem_zip (List.of_mem_zip zipped).2

theorem configure_ready {problem : ConstraintProblem}
    (fit : ∀ distribution ∈ problem.distributions, WeightsFit distribution.expression.entries)
    (requireSoft : Bool) : ConfiguresReady (configure problem requireSoft) := by
  unfold configure
  have start : SmallDomains (problem.vars.map VariableDescriptor.domain) := by
    intro domain member
    obtain ⟨descriptor, -, rfl⟩ := List.mem_map.mp member
    exact descriptor.type.orderedRaw_le_max _
  have collecting := collectConstraints_small requireSoft problem.constraints 0
    (show SmallDomains ({ domains := problem.vars.map VariableDescriptor.domain } : Collected).domains
      from start)
  cases collected : collectConstraints requireSoft problem.constraints 0
      { domains := problem.vars.map VariableDescriptor.domain } with
  | error stop =>
    rw [collected] at collecting
    cases stop with
    | threw error => exact collecting
    | returned result => exact trivial
  | ok after =>
    rw [collected] at collecting
    cases assigned : problem.distributions.foldlM (assignDistribution problem)
        (List.replicate problem.vars.length none) with
    | error stop =>
      cases stop with
      | threw error => exact absurd assigned assignDistribution_threw
      | returned result => exact trivial
    | ok distributions =>
      simp only [bind, Except.bind]
      cases checked : (candidatesOf problem.vars (after.domains.map finalizeDomain)
          distributions).findSome? Candidate.unsupported with
      | some result => exact trivial
      | none =>
        dsimp only
        split
        next =>
          intro candidate member
          obtain ⟨inDomains, inDistributions⟩ := of_mem_candidatesOf member
          obtain ⟨domain, isDomain, same⟩ := List.mem_map.mp inDomains
          refine ⟨same ▸ finalized_finalizeDomain (collecting domain isDomain),
            List.findSome?_eq_none_iff.mp checked candidate member, fun distribution has => ?_⟩
          rw [has] at inDistributions
          obtain ⟨index, found⟩ := List.mem_iff_getElem?.mp inDistributions
          rcases (foldlM_assigns assigned).sound index distribution found with before | ⟨declared, -⟩
          · rw [List.getElem?_replicate] at before
            split at before <;> cases before
          · exact fit distribution declared
        next => exact trivial

/-- The exceptions that a search may end with. -/
def Harmless (error : SearchError) : Prop := error = .unfinished ∨ error = .outOfRange

theorem Candidate.Ready.sample_raises {candidate : Candidate} (ready : candidate.Ready) :
    Raises (sampleVariable random candidate.domain candidate.distribution candidate.type) Harmless := by
  obtain ⟨finalized, supported, fit⟩ := ready
  unfold Candidate.unsupported at supported
  split at supported
  next => cases supported
  next nonempty =>
    have nonempty : candidate.domain.ranges ≠ [] := fun empty =>
      nonempty (List.isEmpty_iff.mpr empty)
    cases has : candidate.distribution with
    | none =>
      rw [sampleVariable, sampleDomain_eq random finalized nonempty]
      exact Raises.bind_any (fun state error ran => .inl (offset_raises random _ state error ran))
        fun offset => Raises.pure _
    | some distribution =>
      simp only [has] at supported
      split at supported
      next some =>
        obtain ⟨entry, member, supports⟩ := List.any_eq_true.mp some
        have positive := shares_sum_pos member supports
        rw [sampleVariable_eq random (fit distribution has) positive]
        have small := (shares_sum_le candidate.domain candidate.type distribution.expression.entries).trans
          (fit distribution has)
        rw [maxU64] at small
        refine Raises.bind
          (fun state error ran => .inl (randint_raises random (Nat.zero_le _) state error ran))
          (randint_le random (by omega)) fun selected inside => ?_
        obtain ⟨i, entry, -, -, supports, selects⟩ := selectEntry_eq random
          (show selected < (shares candidate.domain candidate.type distribution.expression.entries).sum
            by omega)
        have meets : distributionEntrySize entry candidate.domain candidate.type ≠ 0 := by
          rw [WeightedRange.supports, Bool.and_eq_true, bne_iff_ne, bne_iff_ne] at supports
          exact supports.2
        rw [selects, sampleDistributionEntry_eq random finalized meets]
        exact Raises.bind_any (fun state error ran => .inl (offset_raises random _ state error ran))
          fun offset => Raises.pure _
      next => cases supported

theorem drawValues_raises {candidates : List Candidate} (ready : ∀ candidate ∈ candidates, candidate.Ready) :
    Raises (drawValues random candidates) Harmless := by
  induction candidates with
  | nil => exact Raises.pure _
  | cons candidate rest ih =>
    refine Raises.bind_any ((ready candidate List.mem_cons_self).sample_raises random) fun ordered => ?_
    refine Raises.ite (fun _ => Raises.pure _) fun _ => ?_
    exact Raises.bind_any (ih fun other member => ready other (List.mem_cons_of_mem _ member))
      fun values => Raises.pure _

theorem runAttempts_raises {problem : ConstraintProblem} {scratch : Scratch}
    (ready : ∀ candidate ∈ scratch.candidates, candidate.Ready) (scoreSoft : Bool)
    (attempts remaining : ℕ) (phase : Phase) :
    Raises (runAttempts random problem scratch scoreSoft attempts remaining phase) Harmless := by
  induction remaining generalizing phase with
  | zero => exact Raises.pure _
  | succ remaining ih =>
    refine Raises.bind_any (drawValues_raises random ready) fun drawn => ?_
    cases drawn with
    | none => exact ih _
    | some values =>
      dsimp only
      split
      next => exact ih _
      next => exact Raises.ite (fun _ => Raises.pure _) fun _ => ih _

theorem searchHard_raises {problem : ConstraintProblem}
    (fit : ∀ distribution ∈ problem.distributions, WeightsFit distribution.expression.entries)
    (attempts : ℕ) : Raises (searchHard random problem attempts) Harmless := by
  have configured := configure_ready fit false
  unfold searchHard
  cases ran : configure problem false with
  | error stop =>
    rw [ran] at configured
    cases stop with
    | threw error => exact Raises.throw (.inr configured)
    | returned result => exact Raises.pure _
  | ok scratch =>
    rw [ran] at configured
    exact runAttempts_raises random configured _ _ _ _

/-- A search throws no `logic_error` of an overflow. -/
theorem randomSearch_raises {problem : ConstraintProblem}
    (fit : ∀ distribution ∈ problem.distributions, WeightsFit distribution.expression.entries)
    (attempts : ℕ) : Raises (randomSearch random problem attempts) Harmless := by
  have configured := configure_ready fit true
  unfold randomSearch
  refine Raises.ite (fun _ => ?_) fun _ => searchHard_raises random fit attempts
  cases ran : configure problem true with
  | error stop =>
    rw [ran] at configured
    cases stop with
    | threw error => exact Raises.throw (.inr configured)
    | returned result =>
      exact Raises.ite (fun _ => Raises.pure _) fun _ => searchHard_raises random fit attempts
  | ok scratch =>
    rw [ran] at configured
    refine Raises.bind_any (runAttempts_raises random configured _ _ _ _) fun preferred => ?_
    exact Raises.ite (fun _ => Raises.pure _) fun _ => searchHard_raises random fit attempts

end Unreachable

end Cpptb.Randomize
