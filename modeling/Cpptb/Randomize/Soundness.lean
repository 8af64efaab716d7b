/-
What the built-in search returns.

* `configure_exact`: an assignment drawn from the configured candidates that satisfies the remaining
  constraints satisfies every constraint, although the absorbed ones are not evaluated again.
* `random_search_sound`: a solved search returns an assignment with every property that was asked for,
  and a search that returns `Unsatisfiable` has no such assignment.
-/

import Cpptb.Randomize.Search

namespace Cpptb.Randomize

open Segments

/-! ### Problems and their solutions -/

/-- A problem as `prepare_problem` builds it: the operators built its expressions over its variables,
and only what is enabled is in it. -/
structure ConstraintProblem.WellFormed (problem : ConstraintProblem) : Prop where
  built : ∀ constraint ∈ problem.constraints, ∀ node, constraint.expression = some node →
    ConstraintExpr problem.types node
  enabled : ∀ constraint ∈ problem.constraints, constraint.enabled = true
  active : ∀ distribution ∈ problem.distributions, distribution.enabled = true

/-- The assignment has every property that the problem asks for. -/
structure Satisfies (problem : ConstraintProblem) (values : List Nat) : Prop where
  length : values.length = problem.vars.length
  /-- Every value is a raw value of its variable's type. -/
  normal : ∀ (index : Nat) (descriptor : VariableDescriptor), problem.vars[index]? = some descriptor →
    values.getD index 0 < descriptor.type.count
  /-- Every variable lies in its declared range. -/
  declared : ∀ (index : Nat) (descriptor : VariableDescriptor),
    problem.vars[index]? = some descriptor →
    descriptor.type.orderedRaw descriptor.minimumRaw ≤ orderedValue descriptor.type values index ∧
      orderedValue descriptor.type values index ≤ descriptor.type.orderedRaw descriptor.maximumRaw
  /-- Every enabled hard constraint is nonzero. -/
  hard : ∀ constraint ∈ problem.constraints, constraint.enabled = true → constraint.soft = false →
    ∀ node, constraint.expression = some node → (evaluateNode values node).raw ≠ 0
  /-- A variable with a distribution has a value of positive weight. -/
  weighted : ∀ distribution ∈ problem.distributions, distribution.enabled = true →
    ∀ descriptor, problem.vars[distribution.expression.variableIndex]? = some descriptor →
      ∃ entry ∈ distribution.expression.entries, entry.weight ≠ 0 ∧
        (entry.ordered descriptor.type).Has
          (orderedValue descriptor.type values distribution.expression.variableIndex)
  /-- No excluded value is chosen. -/
  excluded : ∀ (index : Nat) (descriptor : VariableDescriptor),
    problem.vars[index]? = some descriptor → values.getD index 0 ∉ descriptor.excludedRaw

/-! ### Collecting the constraints -/

/-- The constraint is one that this configuration requires. -/
def NamedConstraint.Applies (constraint : NamedConstraint) (requireSoft : Bool) : Prop :=
  constraint.soft = true → requireSoft = true

/-- What the loop over the constraints has done when it stands at `after`. -/
structure Collects (problem : ConstraintProblem) (requireSoft : Bool)
    (constraints : List NamedConstraint) (before after : Collected) : Prop where
  length : after.domains.length = before.domains.length
  lowers : ∀ (index : Nat) (domain domain' : CandidateDomain), before.domains[index]? = some domain →
    after.domains[index]? = some domain' → domain'.highOrdered ≤ domain.highOrdered
  narrows : ∀ values, Allowed problem.types after.domains values →
    Allowed problem.types before.domains values
  keeps : ∀ values, Allowed problem.types before.domains values →
    (∀ constraint ∈ constraints, constraint.Applies requireSoft →
      evaluateConstraint constraint.expression values = true) →
    Allowed problem.types after.domains values
  required : ∀ position ∈ before.required, position ∈ after.required
  present : ∀ constraint ∈ constraints, constraint.expression ≠ none
  holds : ∀ values, Allowed problem.types after.domains values →
    (∀ position ∈ after.required, evaluateConstraint (problem.constraintAt position) values = true) →
    ∀ constraint ∈ constraints, constraint.Applies requireSoft →
      evaluateConstraint constraint.expression values = true

theorem Collects.nil (problem : ConstraintProblem) (requireSoft : Bool) (collected : Collected) :
    Collects problem requireSoft [] collected collected where
  length := rfl
  lowers := fun _ _ _ found found' => by
    rw [Option.some.inj (found.symm.trans found')]
  narrows := fun _ allowed => allowed
  keeps := fun _ allowed _ => allowed
  required := fun _ member => member
  present := fun _ member => (List.not_mem_nil member).elim
  holds := fun _ _ _ _ member => (List.not_mem_nil member).elim

theorem Collects.append {problem : ConstraintProblem} {requireSoft : Bool}
    {left right : List NamedConstraint} {before middle after : Collected}
    (first : Collects problem requireSoft left before middle)
    (second : Collects problem requireSoft right middle after) :
    Collects problem requireSoft (left ++ right) before after where
  length := second.length.trans first.length
  lowers := fun index domain domain' found found' => by
    have inside : index < middle.domains.length := by
      rw [first.length]
      exact (List.getElem?_eq_some_iff.mp found).1
    have between := List.getElem?_eq_getElem inside
    exact (second.lowers index _ _ between found').trans (first.lowers index _ _ found between)
  narrows := fun values allowed => first.narrows values (second.narrows values allowed)
  keeps := fun values allowed holds => by
    have inLeft := first.keeps values allowed fun constraint member =>
      holds constraint (List.mem_append_left _ member)
    exact second.keeps values inLeft fun constraint member =>
      holds constraint (List.mem_append_right _ member)
  required := fun position member => second.required position (first.required position member)
  present := fun constraint member => by
    rcases List.mem_append.mp member with inLeft | inRight
    · exact first.present constraint inLeft
    · exact second.present constraint inRight
  holds := fun values allowed positions constraint member applies => by
    rcases List.mem_append.mp member with inLeft | inRight
    · exact first.holds values (second.narrows values allowed)
        (fun position earlier => positions position (second.required position earlier))
        constraint inLeft applies
    · exact second.holds values allowed positions constraint inRight applies

/-- One constraint: it is skipped, absorbed or required. -/
theorem collectConstraint_collects {problem : ConstraintProblem} {requireSoft : Bool} {index : Nat}
    {constraint : NamedConstraint} {before after : Collected}
    (here : problem.constraints[index]? = some constraint)
    (built : ∀ node, constraint.expression = some node → ConstraintExpr problem.types node)
    (same : before.domains.length = problem.types.length)
    (collected : collectConstraint requireSoft index constraint before = .ok after) :
    Collects problem requireSoft [constraint] before after := by
  have single : ∀ {P : NamedConstraint → Prop}, P constraint → ∀ other ∈ [constraint], P other :=
    fun holds other member => by
      rw [List.mem_singleton] at member
      exact member ▸ holds
  unfold collectConstraint at collected
  cases expression : constraint.expression with
  | none =>
      rw [expression] at collected
      cases collected
  | some node =>
      have present : constraint.expression ≠ none := expression ▸ Option.some_ne_none node
      rw [expression] at collected
      simp only at collected
      -- the soft index is recorded, and nothing else, when the constraint is skipped
      generalize started : (if constraint.soft = true then
        { before with soft := before.soft ++ [index] } else before) = start at collected
      have startDomains : start.domains = before.domains := by
        rw [← started]
        split <;> rfl
      have startRequired : start.required = before.required := by
        rw [← started]
        split <;> rfl
      rw [startDomains] at collected
      split at collected
      · rename_i skipped
        rw [Bool.and_eq_true, Bool.not_eq_true'] at skipped
        obtain rfl := Except.ok.inj collected
        have skips : ¬ constraint.Applies requireSoft := fun applies =>
          absurd (applies skipped.1) (by rw [skipped.2]; decide)
        exact
          { length := by rw [startDomains]
            lowers := fun _ _ _ found found' => by
              rw [startDomains] at found'
              rw [Option.some.inj (found.symm.trans found')]
            narrows := fun _ allowed => startDomains ▸ allowed
            keeps := fun _ allowed _ => startDomains ▸ allowed
            required := fun _ member => startRequired ▸ member
            present := single present
            holds := fun _ _ _ => single fun applies => (skips applies).elim }
      · rename_i applying
        have applies : constraint.Applies requireSoft := by
          intro soft
          rw [soft, Bool.true_and, Bool.not_eq_true', Bool.not_eq_false] at applying
          exact applying
        obtain ⟨absorbed, domains', tightened, tightens⟩ := tighten_exact (built node expression) same
        rw [tightened] at collected
        simp only at collected
        have evaluated : ∀ values, evaluateConstraint constraint.expression values =
            (evaluateNode values node).boolean := fun values => by
          rw [expression]
          rfl
        have keeps : ∀ values, Allowed problem.types before.domains values →
            (∀ other ∈ [constraint], other.Applies requireSoft →
              evaluateConstraint other.expression values = true) →
            Allowed problem.types domains' values := fun values allowed holds => by
          have held := holds constraint List.mem_cons_self applies
          rw [evaluated] at held
          exact tightens.keeps values allowed held
        split at collected
        · rename_i isAbsorbed
          obtain rfl := Except.ok.inj collected
          exact
            { length := tightens.length
              lowers := tightens.lowers
              narrows := tightens.narrows
              keeps := keeps
              required := fun _ member => startRequired ▸ member
              present := single present
              holds := fun values allowed _ => single fun _ => by
                rw [evaluated]
                exact tightens.holds isAbsorbed values allowed }
        · obtain rfl := Except.ok.inj collected
          exact
            { length := tightens.length
              lowers := tightens.lowers
              narrows := tightens.narrows
              keeps := keeps
              required := fun _ member => List.mem_append_left _ (startRequired ▸ member)
              present := single present
              holds := fun values allowed positions => single fun _ => by
                have held := positions index (List.mem_append_right _ List.mem_cons_self)
                rw [ConstraintProblem.constraintAt, here, Option.bind_some] at held
                exact held }

theorem collectConstraints_collects {problem : ConstraintProblem} (wellFormed : problem.WellFormed)
    {requireSoft : Bool} {constraints : List NamedConstraint} {index : Nat}
    {before after : Collected} (suffix : problem.constraints.drop index = constraints)
    (same : before.domains.length = problem.types.length)
    (collected : collectConstraints requireSoft constraints index before = .ok after) :
    Collects problem requireSoft constraints before after := by
  induction constraints generalizing index before with
  | nil =>
      obtain rfl := Except.ok.inj collected
      exact Collects.nil problem requireSoft before
  | cons constraint rest ih =>
      have here : problem.constraints[index]? = some constraint := by
        rw [← List.head?_drop, suffix, List.head?_cons]
      have rests : problem.constraints.drop (index + 1) = rest := by
        rw [← List.tail_drop, suffix, List.tail_cons]
      rw [collectConstraints] at collected
      cases first : collectConstraint requireSoft index constraint before with
      | error stop =>
          rw [first] at collected
          cases collected
      | ok middle =>
          rw [first] at collected
          have step := collectConstraint_collects here
            (wellFormed.built constraint (List.mem_of_getElem? here)) same first
          exact step.append (ih rests (step.length.trans same) collected)

/-- Ending early while collecting constraints is a backend error. -/
theorem collectConstraints_returned {requireSoft : Bool} {constraints : List NamedConstraint}
    {index : Nat} {before : Collected} {result : RandomizeResult}
    (stopped : collectConstraints requireSoft constraints index before = .error (.returned result)) :
    result.status = .backendError := by
  induction constraints generalizing index before with
  | nil => cases stopped
  | cons constraint rest ih =>
      rw [collectConstraints] at stopped
      cases first : collectConstraint requireSoft index constraint before with
      | ok middle =>
          rw [first] at stopped
          exact ih stopped
      | error stop =>
          rw [first] at stopped
          obtain rfl := Except.error.inj stopped
          unfold collectConstraint at first
          split at first
          · rw [Except.error.injEq, Stop.returned.injEq] at first
            exact first ▸ rfl
          · simp only at first
            split at first
            · cases first
            · split at first
              · cases first
              · split at first <;> cases first

/-! ### Assigning the distributions -/

/-- The distributions assigned to the variables after some more of them. -/
structure Assigns (distributions : List NamedDistribution)
    (before after : List (Option NamedDistribution)) : Prop where
  length : after.length = before.length
  keeps : ∀ (index : Nat) (distribution : NamedDistribution),
    before[index]? = some (some distribution) → after[index]? = some (some distribution)
  assigned : ∀ distribution ∈ distributions,
    after[distribution.expression.variableIndex]? = some (some distribution)
  sound : ∀ (index : Nat) (distribution : NamedDistribution),
    after[index]? = some (some distribution) → before[index]? = some (some distribution) ∨
      (distribution ∈ distributions ∧ distribution.expression.variableIndex = index)

theorem assignDistribution_assigns {problem : ConstraintProblem}
    {before after : List (Option NamedDistribution)} {distribution : NamedDistribution}
    (assigned : assignDistribution problem before distribution = .ok after) :
    Assigns [distribution] before after := by
  unfold assignDistribution at assigned
  simp only at assigned
  split at assigned
  · cases assigned
  · cases assigned
  · rename_i free
    obtain rfl := Except.ok.inj assigned
    obtain ⟨inside, -⟩ := List.getElem?_eq_some_iff.mp free
    refine ⟨List.length_set .., fun index other found => ?_, fun other member => ?_,
      fun index other found => ?_⟩
    · have apart : distribution.expression.variableIndex ≠ index := by
        rintro rfl
        rw [free] at found
        cases found
      rw [List.getElem?_set_ne apart]
      exact found
    · rw [List.mem_singleton] at member
      rw [member]
      exact List.getElem?_set_self inside
    · by_cases here : distribution.expression.variableIndex = index
      · rw [here, List.getElem?_set_self (here ▸ inside)] at found
        obtain rfl := Option.some.inj (Option.some.inj found)
        exact Or.inr ⟨List.mem_cons_self, here⟩
      · rw [List.getElem?_set_ne here] at found
        exact Or.inl found

theorem foldlM_assigns {problem : ConstraintProblem} {distributions : List NamedDistribution}
    {before after : List (Option NamedDistribution)}
    (assigned : distributions.foldlM (assignDistribution problem) before = .ok after) :
    Assigns distributions before after := by
  induction distributions generalizing before with
  | nil =>
      obtain rfl := Except.ok.inj assigned
      exact ⟨rfl, fun _ _ found => found, fun _ member => (List.not_mem_nil member).elim,
        fun _ _ found => Or.inl found⟩
  | cons distribution rest ih =>
      rw [List.foldlM_cons] at assigned
      cases first : assignDistribution problem before distribution with
      | error stop =>
          rw [first] at assigned
          cases assigned
      | ok middle =>
          rw [first] at assigned
          have step := assignDistribution_assigns first
          have steps := ih assigned
          refine ⟨steps.length.trans step.length, fun index other found => ?_,
            fun other member => ?_, fun index other found => ?_⟩
          · exact steps.keeps index other (step.keeps index other found)
          · rcases List.mem_cons.mp member with rfl | later
            · exact steps.keeps _ _ (step.assigned _ List.mem_cons_self)
            · exact steps.assigned other later
          · rcases steps.sound index other found with earlier | ⟨later, here⟩
            · rcases step.sound index other earlier with old | ⟨new, here⟩
              · exact Or.inl old
              · rw [List.mem_singleton] at new
                exact Or.inr ⟨new ▸ List.mem_cons_self, here⟩
            · exact Or.inr ⟨List.mem_cons_of_mem _ later, here⟩

/-- Ending early while assigning distributions is a backend error. -/
theorem foldlM_assign_returned {problem : ConstraintProblem} {distributions : List NamedDistribution}
    {before : List (Option NamedDistribution)} {result : RandomizeResult}
    (stopped : distributions.foldlM (assignDistribution problem) before = .error (.returned result)) :
    result.status = .backendError := by
  induction distributions generalizing before with
  | nil => cases stopped
  | cons distribution rest ih =>
      rw [List.foldlM_cons] at stopped
      cases first : assignDistribution problem before distribution with
      | ok middle =>
          rw [first] at stopped
          exact ih stopped
      | error stop =>
          rw [first] at stopped
          obtain rfl := Except.error.inj stopped
          unfold assignDistribution at first
          simp only at first
          split at first
          · rw [Except.error.injEq, Stop.returned.injEq] at first
            exact first ▸ rfl
          · rw [Except.error.injEq, Stop.returned.injEq] at first
            exact first ▸ rfl
          · cases first

/-! ### Configuring -/

/-- The domains and the distributions with which `configure` reaches its checks. -/
structure Configured (problem : ConstraintProblem) (requireSoft : Bool) (collected : Collected)
    (distributions : List (Option NamedDistribution)) : Prop where
  ran : collectConstraints requireSoft problem.constraints 0
    { domains := problem.vars.map VariableDescriptor.domain } = .ok collected
  collects : Collects problem requireSoft problem.constraints
    { domains := problem.vars.map VariableDescriptor.domain } collected
  assigns : Assigns problem.distributions (List.replicate problem.vars.length none) distributions

/-- The candidates of a configuration. -/
def ConstraintProblem.candidates (problem : ConstraintProblem) (collected : Collected)
    (distributions : List (Option NamedDistribution)) : List Candidate :=
  candidatesOf problem.vars (collected.domains.map finalizeDomain) distributions

/-- How `configure` ends, in terms of the candidates. -/
inductive Configuration (problem : ConstraintProblem) (requireSoft : Bool) : Except Stop Scratch → Prop
  | threw (error : SearchError) : Configuration problem requireSoft (.error (.threw error))
  | failed {result : RandomizeResult} (status : result.status = .backendError) :
      Configuration problem requireSoft (.error (.returned result))
  | unsupported {collected : Collected} {distributions : List (Option NamedDistribution)}
      (configured : Configured problem requireSoft collected distributions) {candidate : Candidate}
      {result : RandomizeResult} (member : candidate ∈ problem.candidates collected distributions)
      (empty : candidate.unsupported = some result) :
      Configuration problem requireSoft (.error (.returned result))
  | complete {collected : Collected} {distributions : List (Option NamedDistribution)}
      (configured : Configured problem requireSoft collected distributions) {result : RandomizeResult}
      (status : result.status = .cycleExhausted)
      (cycles : result.cycleVariables = completedCycles (problem.candidates collected distributions)) :
      Configuration problem requireSoft (.error (.returned result))
  | ready {collected : Collected} {distributions : List (Option NamedDistribution)}
      (configured : Configured problem requireSoft collected distributions) :
      Configuration problem requireSoft
        (.ok ⟨problem.candidates collected distributions, collected.required, collected.soft⟩)

theorem configure_cases {problem : ConstraintProblem} (wellFormed : problem.WellFormed)
    (requireSoft : Bool) : Configuration problem requireSoft (configure problem requireSoft) := by
  unfold configure
  cases collecting : collectConstraints requireSoft problem.constraints 0
      { domains := problem.vars.map VariableDescriptor.domain } with
  | error stop =>
      cases stop with
      | threw error => exact .threw error
      | returned result => exact .failed (collectConstraints_returned collecting)
  | ok collected =>
      cases assigning : problem.distributions.foldlM (assignDistribution problem)
          (List.replicate problem.vars.length none) with
      | error stop =>
          cases stop with
          | threw error => exact .threw error
          | returned result => exact .failed (foldlM_assign_returned assigning)
      | ok distributions =>
          have same : (problem.vars.map VariableDescriptor.domain).length = problem.types.length := by
            rw [ConstraintProblem.types, List.length_map, List.length_map]
          have configured : Configured problem requireSoft collected distributions :=
            ⟨collecting, collectConstraints_collects wellFormed (List.drop_zero ..) same collecting,
              foldlM_assigns assigning⟩
          simp only [bind, Except.bind]
          cases checked : (problem.candidates collected distributions).findSome?
              Candidate.unsupported with
          | some result =>
              obtain ⟨candidate, member, empty⟩ := List.exists_of_findSome?_eq_some checked
              rw [ConstraintProblem.candidates] at checked
              simp only [checked]
              exact .unsupported configured member empty
          | none =>
              rw [ConstraintProblem.candidates] at checked
              simp only [checked]
              split
              · exact .ready configured
              · exact .complete configured rfl rfl

/-! ### Candidates -/

theorem typeAt {problem : ConstraintProblem} {index : Nat} {type : ScalarType} :
    problem.types[index]? = some type ↔
      ∃ descriptor, problem.vars[index]? = some descriptor ∧ descriptor.type = type := by
  rw [ConstraintProblem.types, List.getElem?_map, Option.map_eq_some_iff]

/-- The domains before any constraint allow the declared ranges. -/
theorem allowed_declared {problem : ConstraintProblem} {values : List Nat} :
    Allowed problem.types (problem.vars.map VariableDescriptor.domain) values ↔
      ∀ (index : Nat) (descriptor : VariableDescriptor), problem.vars[index]? = some descriptor →
        descriptor.type.orderedRaw descriptor.minimumRaw ≤ orderedValue descriptor.type values index ∧
          orderedValue descriptor.type values index ≤
            descriptor.type.orderedRaw descriptor.maximumRaw := by
  constructor
  · intro allowed index descriptor found
    have allows := allowed index descriptor.type descriptor.domain (typeAt.mpr ⟨descriptor, found, rfl⟩)
      (by rw [List.getElem?_map, found, Option.map_some])
    exact ⟨allows.low, allows.high⟩
  · intro declared index type domain typed found
    obtain ⟨descriptor, here, rfl⟩ := typeAt.mp typed
    rw [List.getElem?_map, here, Option.map_some, Option.some.injEq] at found
    obtain ⟨low, high⟩ := declared index descriptor here
    rw [← found]
    exact ⟨low, high, fun restricted => Bool.noConfusion restricted⟩

theorem candidate_at {problem : ConstraintProblem} {collected : Collected}
    {distributions : List (Option NamedDistribution)} {index : Nat} {candidate : Candidate} :
    (problem.candidates collected distributions)[index]? = some candidate ↔
      problem.vars[index]? = some candidate.descriptor ∧
        (∃ domain, collected.domains[index]? = some domain ∧
          finalizeDomain domain = candidate.domain) ∧
        distributions[index]? = some candidate.distribution := by
  obtain ⟨descriptor, domain, distribution⟩ := candidate
  simp only [ConstraintProblem.candidates, candidatesOf, List.getElem?_map, Option.map_eq_some_iff,
    List.getElem?_zip_eq_some, Prod.exists, Candidate.mk.injEq]
  constructor
  · rintro ⟨_, _, _, ⟨here, ⟨domain', found, rfl⟩, assigned⟩, rfl, rfl, rfl⟩
    exact ⟨here, ⟨domain', found, rfl⟩, assigned⟩
  · rintro ⟨here, ⟨domain', found, finalized⟩, assigned⟩
    exact ⟨_, _, _, ⟨here, ⟨domain', found, finalized⟩, assigned⟩, rfl, rfl, rfl⟩

namespace Configured

variable {problem : ConstraintProblem} {requireSoft : Bool} {collected : Collected}
  {distributions : List (Option NamedDistribution)}

theorem domains_length (configured : Configured problem requireSoft collected distributions) :
    collected.domains.length = problem.vars.length := by
  rw [configured.collects.length, List.length_map]

theorem distributions_length (configured : Configured problem requireSoft collected distributions) :
    distributions.length = problem.vars.length := by
  rw [configured.assigns.length, List.length_replicate]

theorem candidates_length (configured : Configured problem requireSoft collected distributions) :
    (problem.candidates collected distributions).length = problem.vars.length := by
  simp only [ConstraintProblem.candidates, candidatesOf, List.length_map, List.length_zip,
    configured.domains_length, configured.distributions_length, Nat.min_self]

/-- Every variable has a candidate. -/
theorem candidate_of (configured : Configured problem requireSoft collected distributions)
    {index : Nat} {descriptor : VariableDescriptor} (here : problem.vars[index]? = some descriptor) :
    ∃ candidate, (problem.candidates collected distributions)[index]? = some candidate ∧
      candidate.descriptor = descriptor := by
  have inside : index < (problem.candidates collected distributions).length := by
    rw [configured.candidates_length]
    exact (List.getElem?_eq_some_iff.mp here).1
  have found := List.getElem?_eq_getElem inside
  exact ⟨_, found, Option.some.inj ((candidate_at.mp found).1.symm.trans here)⟩

/-- A collected domain lies in the declared range. -/
theorem high_le (configured : Configured problem requireSoft collected distributions) {index : Nat}
    {descriptor : VariableDescriptor} {domain : CandidateDomain}
    (here : problem.vars[index]? = some descriptor)
    (found : collected.domains[index]? = some domain) :
    domain.highOrdered ≤ descriptor.type.orderedRaw descriptor.maximumRaw := by
  refine configured.collects.lowers index descriptor.domain domain ?_ found
  rw [List.getElem?_map, here, Option.map_some]

/-- The ranges of a candidate cover exactly what its collected domain allows. -/
theorem covers_candidate (configured : Configured problem requireSoft collected distributions)
    {index : Nat} {candidate : Candidate} {domain : CandidateDomain}
    (here : (problem.candidates collected distributions)[index]? = some candidate)
    (found : collected.domains[index]? = some domain) {ordered : Nat} :
    Covers candidate.domain.ranges ordered ↔ domain.Allows ordered := by
  obtain ⟨descriptor, ⟨domain', found', finalized⟩, -⟩ := candidate_at.mp here
  obtain rfl := Option.some.inj (found.symm.trans found')
  rw [← finalized]
  exact covers_finalizeDomain
    ((configured.high_le descriptor found).trans (candidate.descriptor.type.orderedRaw_le_max _))

/-- The collected domains allow an assignment exactly when the candidates cover it. -/
theorem allowed_iff (configured : Configured problem requireSoft collected distributions)
    {values : List Nat} :
    Allowed problem.types collected.domains values ↔
      ∀ (index : Nat) (candidate : Candidate),
        (problem.candidates collected distributions)[index]? = some candidate →
        Covers candidate.domain.ranges (orderedValue candidate.type values index) := by
  constructor
  · intro allowed index candidate here
    obtain ⟨descriptor, ⟨domain, found, -⟩, -⟩ := candidate_at.mp here
    exact (configured.covers_candidate here found).mpr
      (allowed index candidate.type domain (typeAt.mpr ⟨_, descriptor, rfl⟩) found)
  · intro covered index type domain typed found
    obtain ⟨descriptor, here, rfl⟩ := typeAt.mp typed
    obtain ⟨candidate, isCandidate, rfl⟩ := configured.candidate_of here
    exact (configured.covers_candidate isCandidate found).mp (covered index candidate isCandidate)

/-- The values that a candidate covers are ordered values of its type. -/
theorem lt_count (configured : Configured problem requireSoft collected distributions) {index : Nat}
    {candidate : Candidate}
    (here : (problem.candidates collected distributions)[index]? = some candidate) {ordered : Nat}
    (covered : Covers candidate.domain.ranges ordered) : ordered < candidate.type.count := by
  obtain ⟨descriptor, ⟨domain, found, -⟩, -⟩ := candidate_at.mp here
  have allows := (configured.covers_candidate here found).mp covered
  exact (allows.high.trans (configured.high_le descriptor found)).trans_lt
    (candidate.type.orderedRaw_lt _)

theorem proper {index : Nat} {candidate : Candidate}
    (here : (problem.candidates collected distributions)[index]? = some candidate) :
    ∀ range ∈ candidate.domain.ranges, range.minimum ≤ range.maximum := by
  obtain ⟨-, ⟨domain, -, finalized⟩, -⟩ := candidate_at.mp here
  rw [← finalized]
  exact proper_finalizeDomain domain

/-- A candidate has the distribution that targets its variable. -/
theorem distribution_iff (configured : Configured problem requireSoft collected distributions)
    {index : Nat} {candidate : Candidate}
    (here : (problem.candidates collected distributions)[index]? = some candidate)
    {distribution : NamedDistribution} :
    candidate.distribution = some distribution ↔
      distribution ∈ problem.distributions ∧ distribution.expression.variableIndex = index := by
  obtain ⟨-, -, found⟩ := candidate_at.mp here
  constructor
  · intro same
    rcases configured.assigns.sound index distribution (found.trans (congrArg some same)) with
      old | new
    · obtain ⟨-, free⟩ := List.mem_replicate.mp (List.mem_of_getElem? old)
      cases free
    · exact new
  · rintro ⟨member, rfl⟩
    exact Option.some.inj (found.symm.trans (configured.assigns.assigned distribution member))

end Configured

/-- The assignment could be drawn from the candidates. -/
structure Drawn (candidates : List Candidate) (values : List Nat) : Prop where
  length : values.length = candidates.length
  normal : ∀ (index : Nat) (candidate : Candidate), candidates[index]? = some candidate →
    values.getD index 0 < candidate.type.count
  excluded : ∀ (index : Nat) (candidate : Candidate), candidates[index]? = some candidate →
    values.getD index 0 ∉ candidate.descriptor.excludedRaw
  contains : ∀ (index : Nat) (candidate : Candidate), candidates[index]? = some candidate →
    candidate.contains (orderedValue candidate.type values index) = true

/-- A candidate contains a value when its domain covers it and its distribution gives it a weight. -/
theorem Candidate.contains_iff {candidate : Candidate} {ordered : Nat} :
    candidate.contains ordered = true ↔
      Covers candidate.domain.ranges ordered ∧
        ∀ distribution, candidate.distribution = some distribution →
          ∃ entry ∈ distribution.expression.entries,
            entry.weight ≠ 0 ∧ (entry.ordered candidate.type).Has ordered := by
  unfold contains
  cases distribution : candidate.distribution with
  | none =>
      rw [distributionContains_none]
      exact ⟨fun covered => ⟨covered, fun _ => (nomatch ·)⟩, And.left⟩
  | some distribution =>
      rw [distributionContains_some]
      simp only [Option.some.injEq, forall_eq']

/-- A drawn assignment that satisfies the required constraints satisfies the problem. -/
theorem configure_exact {problem : ConstraintProblem} (wellFormed : problem.WellFormed)
    {requireSoft : Bool} {collected : Collected} {distributions : List (Option NamedDistribution)}
    (configured : Configured problem requireSoft collected distributions) {values : List Nat}
    (drawn : Drawn (problem.candidates collected distributions) values)
    (holds : ∀ position ∈ collected.required,
      evaluateConstraint (problem.constraintAt position) values = true) :
    Satisfies problem values := by
  have allowed : Allowed problem.types collected.domains values :=
    configured.allowed_iff.mpr fun index candidate here =>
      (Candidate.contains_iff.mp (drawn.contains index candidate here)).1
  refine ⟨drawn.length.trans configured.candidates_length, fun index descriptor here => ?_,
    allowed_declared.mp (configured.collects.narrows values allowed),
    fun constraint member _ hard node expression => ?_,
    fun distribution member _ descriptor here => ?_, fun index descriptor here => ?_⟩
  · obtain ⟨candidate, isCandidate, rfl⟩ := configured.candidate_of here
    exact drawn.normal index candidate isCandidate
  · have held := configured.collects.holds values allowed holds constraint member
      fun soft => absurd (hard.symm.trans soft) (by decide)
    rw [expression] at held
    exact ((wellFormed.built constraint member node expression).raw_ne_zero_iff values).mpr held
  · obtain ⟨candidate, isCandidate, rfl⟩ := configured.candidate_of here
    have contains := drawn.contains _ candidate isCandidate
    exact (Candidate.contains_iff.mp contains).2 distribution
      ((configured.distribution_iff isCandidate).mpr ⟨member, rfl⟩)
  · obtain ⟨candidate, isCandidate, rfl⟩ := configured.candidate_of here
    exact drawn.excluded index candidate isCandidate

/-- An assignment that satisfies the problem lies in every candidate of the hard constraints. -/
theorem contains_of_satisfies {problem : ConstraintProblem} (wellFormed : problem.WellFormed)
    {collected : Collected} {distributions : List (Option NamedDistribution)}
    (configured : Configured problem false collected distributions) {values : List Nat}
    (satisfies : Satisfies problem values) {index : Nat} {candidate : Candidate}
    (here : (problem.candidates collected distributions)[index]? = some candidate) :
    candidate.contains (orderedValue candidate.type values index) = true := by
  have initially := allowed_declared.mpr satisfies.declared
  have allowed : Allowed problem.types collected.domains values := by
    refine configured.collects.keeps values initially fun constraint member applies => ?_
    have hard : constraint.soft = false := by
      rcases Bool.eq_false_or_eq_true constraint.soft with soft | hard
      · exact absurd (applies soft) (by decide)
      · exact hard
    cases expression : constraint.expression with
    | none => exact absurd expression (configured.collects.present constraint member)
    | some node =>
        have nonzero := satisfies.hard constraint member (wellFormed.enabled constraint member) hard
          node expression
        exact ((wellFormed.built constraint member node expression).raw_ne_zero_iff values).mp nonzero
  refine Candidate.contains_iff.mpr ⟨configured.allowed_iff.mp allowed index candidate here,
    fun distribution same => ?_⟩
  obtain ⟨member, rfl⟩ := (configured.distribution_iff here).mp same
  exact satisfies.weighted distribution member (wellFormed.active distribution member)
    candidate.descriptor (candidate_at.mp here).1

theorem status_of_unsupported {candidate : Candidate} {result : RandomizeResult}
    (unsupported : candidate.unsupported = some result) : result.status = .unsatisfiable := by
  unfold Candidate.unsupported at unsupported
  split at unsupported
  · exact Option.some.inj unsupported ▸ rfl
  · split at unsupported
    · cases unsupported
    · split at unsupported
      · cases unsupported
      · exact Option.some.inj unsupported ▸ rfl

/-- A candidate that fails the check of `configure` contains no value. -/
theorem not_contains_of_unsupported {candidate : Candidate} {result : RandomizeResult}
    (unsupported : candidate.unsupported = some result) (ordered : Nat) :
    ¬ candidate.contains ordered = true := by
  intro contains
  obtain ⟨covered, weighted⟩ := Candidate.contains_iff.mp contains
  unfold Candidate.unsupported at unsupported
  split at unsupported
  · rename_i empty
    rw [List.isEmpty_iff.mp empty] at covered
    exact covers_nil covered
  · split at unsupported
    · cases unsupported
    · rename_i distribution same
      obtain ⟨entry, member, positive, has⟩ := weighted distribution same
      have supports : entry.supports candidate.domain candidate.type = true := by
        obtain ⟨range, inside, -⟩ := covers_clip.mpr ⟨has, covered⟩
        have large : inclusiveSize range.minimum range.maximum ≤
            distributionEntrySize entry candidate.domain candidate.type :=
          List.le_sum_of_mem (List.mem_map_of_mem inside)
        rw [WeightedRange.supports, Bool.and_eq_true, bne_iff_ne, bne_iff_ne]
        refine ⟨positive, ?_⟩
        rw [inclusiveSize] at large
        omega
      rw [if_pos (List.any_eq_true.mpr ⟨entry, member, supports⟩)] at unsupported
      cases unsupported

/-! ### Drawing assignments -/

theorem Drawn.nil : Drawn [] [] :=
  ⟨rfl, fun _ _ => (nomatch ·), fun _ _ => (nomatch ·), fun _ _ => (nomatch ·)⟩

theorem Drawn.cons {candidate : Candidate} {rest : List Candidate} {raw : Nat} {values : List Nat}
    (normal : raw < candidate.type.count) (excluded : raw ∉ candidate.descriptor.excludedRaw)
    (contains : candidate.contains (candidate.type.orderedRaw raw) = true)
    (drawn : Drawn rest values) : Drawn (candidate :: rest) (raw :: values) where
  length := congrArg (· + 1) drawn.length
  normal := fun index other here => by
    cases index with
    | zero => exact Option.some.inj here ▸ normal
    | succ index => exact drawn.normal index other here
  excluded := fun index other here => by
    cases index with
    | zero => exact Option.some.inj here ▸ excluded
    | succ index => exact drawn.excluded index other here
  contains := fun index other here => by
    cases index with
    | zero => exact Option.some.inj here ▸ contains
    | succ index => exact drawn.contains index other here

section

variable {ρ : Type} (random : Generator ρ)

theorem drawValues_drawn {candidates : List Candidate}
    (proper : ∀ candidate ∈ candidates, ∀ range ∈ candidate.domain.ranges,
      range.minimum ≤ range.maximum)
    (small : ∀ candidate ∈ candidates, ∀ ordered, Covers candidate.domain.ranges ordered →
      ordered < candidate.type.count) :
    Ensures (drawValues random candidates) fun result =>
      ∀ values, result = some values → Drawn candidates values := by
  induction candidates with
  | nil => exact Ensures.pure fun values same => Option.some.inj same ▸ Drawn.nil
  | cons candidate rest ih =>
      refine Ensures.bind
        (sampleVariable_contains random candidate.domain (proper candidate List.mem_cons_self)
          candidate.distribution candidate.type) fun ordered contains => ?_
      refine Ensures.ite (fun _ => Ensures.pure fun _ => (nomatch ·)) fun fresh => ?_
      have later := ih (fun other member => proper other (List.mem_cons_of_mem _ member))
        fun other member => small other (List.mem_cons_of_mem _ member)
      refine Ensures.bind later fun result drawn => Ensures.pure fun values same => ?_
      obtain ⟨others, isResult, rfl⟩ := Option.map_eq_some_iff.mp same
      have covered := (Candidate.contains_iff.mp contains).1
      have back := candidate.type.orderedRaw_fromOrderedRaw
        (small candidate List.mem_cons_self ordered covered)
      exact Drawn.cons (candidate.type.fromOrderedRaw_lt ordered) fresh (back.symm ▸ contains)
        (drawn others isResult)

/-- No required constraint is violated. -/
theorem firstViolated_none {problem : ConstraintProblem} {required values : List Nat}
    (none : firstViolated problem required values = none) :
    ∀ position ∈ required, evaluateConstraint (problem.constraintAt position) values = true := by
  intro position member
  have holds := List.findIdx?_eq_none_iff.mp none position member
  rwa [Bool.not_eq_false'] at holds

/-- The loop returns assignments with a property that every accepted one has. -/
theorem runAttempts_ensures {problem : ConstraintProblem} {scratch : Scratch} {Good : List Nat → Prop}
    (accepts : Ensures (drawValues random scratch.candidates) fun result =>
      ∀ values, result = some values →
        (∀ position ∈ scratch.required,
          evaluateConstraint (problem.constraintAt position) values = true) → Good values)
    (scoreSoft : Bool) (attempts remaining : Nat) (phase : Phase)
    (best : ∀ values soft, phase.best = some (values, soft) → Good values) :
    Ensures (runAttempts random problem scratch scoreSoft attempts remaining phase) fun result =>
      (result.status = .solved ∧ Good result.values) ∨ result.status = .searchExhausted := by
  induction remaining generalizing phase with
  | zero =>
      refine Ensures.pure ?_
      unfold Phase.exhausted
      split
      · rename_i values soft found
        exact Or.inl ⟨rfl, best values soft found⟩
      · exact Or.inr rfl
  | succ remaining ih =>
      refine Ensures.bind accepts fun result good => ?_
      cases result with
      | none => exact ih _ best
      | some values =>
          cases violated : firstViolated problem scratch.required values with
          | some position =>
              simp only [violated]
              exact ih _ best
          | none =>
              simp only [violated]
              have accepted := good values rfl (firstViolated_none violated)
              refine Ensures.ite (fun _ => Ensures.pure (Or.inl ⟨rfl, accepted⟩)) fun _ => ih _ ?_
              intro others soft found
              unfold Phase.score at found
              split at found
              · simp only [Option.some.injEq, Prod.mk.injEq] at found
                exact found.1 ▸ accepted
              · split at found
                · simp only [Option.some.injEq, Prod.mk.injEq] at found
                  exact found.1 ▸ accepted
                · exact best others soft found

/-- A phase over a configuration solves the problem or gives up. -/
theorem runPhase_ensures {problem : ConstraintProblem} (wellFormed : problem.WellFormed)
    {requireSoft : Bool} {collected : Collected} {distributions : List (Option NamedDistribution)}
    (configured : Configured problem requireSoft collected distributions) (scoreSoft : Bool)
    (attempts : Nat) :
    Ensures
      (runPhase random problem
        ⟨problem.candidates collected distributions, collected.required, collected.soft⟩
        scoreSoft attempts)
      fun result =>
        (result.status = .solved ∧ Satisfies problem result.values) ∨
          result.status = .searchExhausted := by
  refine runAttempts_ensures random ?_ scoreSoft attempts attempts _ fun _ _ => (nomatch ·)
  refine (drawValues_drawn random (fun candidate member => ?_) fun candidate member => ?_).weaken
    fun result drawn values same holds => configure_exact wellFormed configured (drawn values same) holds
  · obtain ⟨index, here⟩ := List.mem_iff_getElem?.mp member
    exact Configured.proper here
  · obtain ⟨index, here⟩ := List.mem_iff_getElem?.mp member
    exact fun ordered => configured.lt_count here

/-- What is true of a result of the search. -/
structure Sound (problem : ConstraintProblem) (result : RandomizeResult) : Prop where
  solved : result.status = .solved → Satisfies problem result.values
  unsatisfiable : result.status = .unsatisfiable → ∀ values, ¬ Satisfies problem values
  exhausted : result.status = .cycleExhausted → ∃ collected distributions,
    Configured problem false collected distributions ∧
      result.cycleVariables = completedCycles (problem.candidates collected distributions)

/-- A status that says nothing of the assignments. -/
theorem Sound.of_status {problem : ConstraintProblem} {result : RandomizeResult}
    {status : RandomizeStatus} (same : result.status = status)
    (other : status ≠ .solved ∧ status ≠ .unsatisfiable ∧ status ≠ .cycleExhausted) :
    Sound problem result :=
  ⟨fun solved => absurd (same.symm.trans solved) other.1,
    fun unsatisfiable => absurd (same.symm.trans unsatisfiable) other.2.1,
    fun exhausted => absurd (same.symm.trans exhausted) other.2.2⟩

theorem Sound.of_phase {problem : ConstraintProblem} {result : RandomizeResult}
    (ended : (result.status = .solved ∧ Satisfies problem result.values) ∨
      result.status = .searchExhausted) : Sound problem result := by
  rcases ended with ⟨solved, satisfies⟩ | exhausted
  · exact ⟨fun _ => satisfies, fun unsatisfiable => absurd (solved.symm.trans unsatisfiable) (by decide),
      fun exhausted => absurd (solved.symm.trans exhausted) (by decide)⟩
  · exact .of_status exhausted (by decide)

theorem searchHard_sound {problem : ConstraintProblem} (wellFormed : problem.WellFormed)
    (attempts : Nat) : Ensures (searchHard random problem attempts) (Sound problem) := by
  have cases := configure_cases wellFormed false
  unfold searchHard
  generalize configure problem false = outcome at cases
  cases cases with
  | threw error => exact Ensures.throw error
  | failed status => exact Ensures.pure (.of_status status (by decide))
  | @unsupported collected distributions configured candidate result member empty =>
      -- some variable has no value left, so that no assignment satisfies the problem
      have status := status_of_unsupported empty
      refine Ensures.pure ⟨fun solved => absurd (status.symm.trans solved) (by decide),
        fun _ values satisfies => ?_, fun exhausted => absurd (status.symm.trans exhausted) (by decide)⟩
      · obtain ⟨index, here⟩ := List.mem_iff_getElem?.mp member
        exact not_contains_of_unsupported empty _
          (contains_of_satisfies wellFormed configured satisfies here)
  | @complete collected distributions configured result status cycles =>
      exact Ensures.pure ⟨fun solved => absurd (status.symm.trans solved) (by decide),
        fun unsatisfiable => absurd (status.symm.trans unsatisfiable) (by decide),
        fun _ => ⟨collected, distributions, configured, cycles⟩⟩
  | ready configured =>
      exact (runPhase_ensures random wellFormed configured problem.hasSoft attempts).weaken
        fun result => Sound.of_phase

theorem randomSearch_sound {problem : ConstraintProblem} (wellFormed : problem.WellFormed)
    (attempts : Nat) : Ensures (randomSearch random problem attempts) (Sound problem) := by
  unfold randomSearch
  refine Ensures.ite (fun _ => ?_) fun _ => searchHard_sound random wellFormed attempts
  have cases := configure_cases wellFormed true
  generalize configure problem true = outcome at cases
  have hard := searchHard_sound random wellFormed attempts
  have returns : ∀ result : RandomizeResult,
      Ensures (if result.status = .backendError then pure result
        else searchHard random problem attempts) (Sound problem) := fun result =>
    Ensures.ite (fun failed => Ensures.pure (.of_status failed (by decide))) fun _ => hard
  cases cases with
  | threw error => exact Ensures.throw error
  | failed status => exact returns _
  | unsupported configured member empty => exact returns _
  | complete configured status => exact returns _
  | ready configured =>
      refine Ensures.bind (runPhase_ensures random wellFormed configured false attempts)
        fun preferred ended => ?_
      exact Ensures.ite (fun _ => Ensures.pure (.of_phase ended)) fun _ => hard

/-- The built-in search is sound: a solved search returns an assignment that satisfies the problem, and
an unsatisfiable problem has none. -/
theorem random_search_sound {problem : ConstraintProblem} (wellFormed : problem.WellFormed)
    (attempts : Nat) (state state' : ρ) (result : RandomizeResult)
    (ran : (randomSearch random problem attempts).run state = .ok (result, state')) :
    (result.status = .solved → Satisfies problem result.values) ∧
      (result.status = .unsatisfiable → ∀ values, ¬ Satisfies problem values) := by
  have sound := randomSearch_sound random wellFormed attempts state result state' ran
  exact ⟨sound.solved, sound.unsatisfiable⟩

end

theorem uint16_positive : 0 < 16 := by decide

theorem uint16_bounded : 16 ≤ 64 := by decide

/-- `uint16_t`. -/
def uint16 : ScalarType := ⟨16, false, uint16_positive, uint16_bounded⟩

theorem uint8_positive : 0 < 8 := by decide

theorem uint8_bounded : 8 ≤ 64 := by decide

/-- `uint8_t`. -/
def uint8 : ScalarType := ⟨8, false, uint8_positive, uint8_bounded⟩

/-- A packet with a length of whole words, weighted towards short ones, and a tag that has been 3. -/
def packet : ConstraintProblem where
  vars := [
    { id := 0, name := "length", type := uint16, minimumRaw := 64, maximumRaw := 1500 },
    { id := 1, name := "tag", type := uint8, maximumRaw := 15, excludedRaw := [3], cyclic := true }]
  constraints := [
    { label := "word length"
      expression := some (.compare .equal
        (.arithmetic .remainder uint16 (.var uint16 0) (.constant uint16 4)) (.constant uint16 0)) },
    { label := "tags", expression := some (.inside (.var uint8 1) (some [⟨1, 1⟩, ⟨3, 3⟩])) }]
  distributions := [
    { expression := { variableIndex := 0, entries := [⟨⟨64, 127⟩, 3⟩, ⟨⟨1024, 1500⟩, 1⟩] } }]

theorem packet_wellFormed : packet.WellFormed where
  built := fun constraint member node expression => by
    simp only [packet, List.mem_cons, List.not_mem_nil, or_false] at member
    rcases member with rfl | rfl
    · obtain rfl := Option.some.inj expression
      exact .compare .equal (.arithmetic .remainder (.var rfl) (.constant 4)) (.constant 0)
    · obtain rfl := Option.some.inj expression
      exact .inside (.var rfl) _
  enabled := by decide
  active := by decide

/-- The search solves the packet. -/
theorem random_search_sound_packet : Satisfies packet [64, 1] :=
  (random_search_sound (Random.generator 4) packet_wellFormed 64 ⟨1, 2, 3, 4⟩
    ⟨211106635448322, 211106232532999, 211140593188866, 9223547958715220736⟩
    { status := .solved, values := [64, 1] } (by rfl)).1 rfl

end Cpptb.Randomize
