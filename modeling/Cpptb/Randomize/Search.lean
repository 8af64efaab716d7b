/-
The built-in search backend.

`randomSearch` follows `random_search`. `configure` tightens the domains by the constraints, and ends
early when a domain or a distribution leaves no value or a `RandC` cycle is complete; `runPhase` draws
assignments until one satisfies the constraints that no domain has absorbed. The parallel arrays of
domains and distributions are one list of `Candidate`s.
-/

import Cpptb.Randomize.Sampling

namespace Cpptb.Randomize

open Segments

/-! ### Problems and results -/

/-- `VariableDescriptor`. -/
structure VariableDescriptor where
  id : Nat := 0
  name : String := ""
  type : ScalarType
  minimumRaw : Nat := 0
  maximumRaw : Nat := 0
  excludedRaw : List Nat := []
  cyclic : Bool := false
  deriving DecidableEq, Repr

/-- `NamedConstraint`. -/
structure NamedConstraint where
  label : String := ""
  expression : Constraint
  soft : Bool := false
  enabled : Bool := true
  deriving DecidableEq, Repr

/-- `ConstraintProblem`, with `variables` as `vars`. -/
structure ConstraintProblem where
  vars : List VariableDescriptor := []
  constraints : List NamedConstraint := []
  distributions : List NamedDistribution := []
  deriving DecidableEq, Repr

/-- `RandomizeStatus`. -/
inductive RandomizeStatus
  | solved
  | unsatisfiable
  | cycleExhausted
  | searchExhausted
  | backendError
  deriving DecidableEq, Repr

/-- `RandomizeEngine`. -/
inductive RandomizeEngine
  | none
  | sampling
  | solver
  deriving DecidableEq, Repr

/-- `RandomizeResult`. -/
structure RandomizeResult where
  status : RandomizeStatus := .backendError
  engine : RandomizeEngine := .none
  values : List Nat := []
  cycleVariables : List Nat := []
  message : String := ""
  deriving DecidableEq, Repr

/-- Why `configure` does not reach its end: an exception, or a result of its own. -/
inductive Stop
  | threw (error : SearchError)
  | returned (result : RandomizeResult)
  deriving DecidableEq, Repr

namespace ConstraintProblem

variable (problem : ConstraintProblem)

/-- The types of the variables. -/
def types : List ScalarType := problem.vars.map VariableDescriptor.type

/-- The names of the variables. -/
def names : List String := problem.vars.map VariableDescriptor.name

/-- The expression of a constraint. -/
def constraintAt (index : Nat) : Constraint := problem.constraints[index]?.bind NamedConstraint.expression

/-- `constraint_name`. -/
def constraintName (constraint : NamedConstraint) : String :=
  if constraint.label.isEmpty then (constraint.expression.map (formatNode problem.names)).getD ""
  else constraint.label

end ConstraintProblem

/-! ### Tightening the domains -/

/-- The domain of a variable before any constraint. -/
def VariableDescriptor.domain (descriptor : VariableDescriptor) : CandidateDomain where
  lowOrdered := descriptor.type.orderedRaw descriptor.minimumRaw
  highOrdered := descriptor.type.orderedRaw descriptor.maximumRaw

/-- `domains`, `required_constraints` and `soft_constraints`. -/
structure Collected where
  domains : List CandidateDomain
  required : List Nat := []
  soft : List Nat := []
  deriving DecidableEq, Repr

/-- One round of the loop of `configure` over the constraints. -/
def collectConstraint (requireSoft : Bool) (index : Nat) (constraint : NamedConstraint)
    (collected : Collected) : Except Stop Collected :=
  match constraint.expression with
  | none =>
      .error (.returned {
        message := "deterministic search received an empty constraint expression" })
  | some node =>
      let collected :=
        if constraint.soft then { collected with soft := collected.soft ++ [index] } else collected
      if constraint.soft && !requireSoft then .ok collected
      else
        match tightenDomain node collected.domains with
        | .error error => .error (.threw error)
        | .ok (absorbed, domains) =>
            if absorbed then .ok { collected with domains := domains }
            else .ok { collected with domains := domains, required := collected.required ++ [index] }

/-- The loop of `configure` over the constraints. -/
def collectConstraints (requireSoft : Bool) :
    List NamedConstraint → (index : Nat) → Collected → Except Stop Collected
  | [], _, collected => .ok collected
  | constraint :: rest, index, collected => do
      let collected ← collectConstraint requireSoft index constraint collected
      collectConstraints requireSoft rest (index + 1) collected

/-- One round of the loop of `configure` over the distributions. -/
def assignDistribution (problem : ConstraintProblem) (assigned : List (Option NamedDistribution))
    (distribution : NamedDistribution) : Except Stop (List (Option NamedDistribution)) :=
  let target := distribution.expression.variableIndex
  match assigned[target]? with
  | none =>
      .error (.returned {
        message := "distribution '" ++ distribution.label ++ "' references an unknown variable" })
  | some (some _) =>
      .error (.returned {
        message := "multiple active distributions target '" ++ problem.names.getD target "" ++ "'" })
  | some none => .ok (assigned.set target (some distribution))

/-- A variable with its domain and its distribution. -/
structure Candidate where
  descriptor : VariableDescriptor
  domain : CandidateDomain
  distribution : Option NamedDistribution
  deriving DecidableEq, Repr

namespace Candidate

variable (candidate : Candidate)

/-- The type of the variable. -/
def type : ScalarType := candidate.descriptor.type

/-- The value is in the domain and has a positive weight. -/
def contains (ordered : Nat) : Bool :=
  distributionContains candidate.distribution candidate.domain candidate.type ordered

/-- The check of `configure` that a value is left. -/
def unsupported : Option RandomizeResult :=
  if candidate.domain.ranges.isEmpty then
    some {
      status := .unsatisfiable
      message := "constraint domain for '" ++ candidate.descriptor.name ++ "' is empty" }
  else
    match candidate.distribution with
    | none => none
    | some distribution =>
        if distribution.expression.entries.any fun entry =>
            entry.supports candidate.domain candidate.type then none
        else
          some {
            status := .unsatisfiable
            message := "distribution for '" ++ candidate.descriptor.name ++
              "' has no value in the active domain" }

/-! ### Complete cycles -/

/-- `support`: the parts of the domain in the entries with a weight. -/
def support (entries : List WeightedRange) : List RawRange :=
  (entries.filter fun entry => entry.weight != 0).flatMap fun entry =>
    clip (entry.ordered candidate.type) candidate.domain.ranges

end Candidate

/-- `support_size` and the range that the loop over the support has open. -/
structure SupportScan where
  size : Nat := 0
  current : Option RawRange := none
  deriving DecidableEq, Repr

/-- One round of the loop over the support. -/
def scanRange (scan : SupportScan) (range : RawRange) : SupportScan :=
  match scan.current with
  | none => { scan with current := some range }
  | some current =>
      if current.maximum = maxU64 ∨ range.minimum ≤ current.maximum + 1 then
        { scan with current := some (current.join range) }
      else
        { size := scan.size + inclusiveSize current.minimum current.maximum, current := some range }

/-- `support_size` after the loop. -/
def SupportScan.total (scan : SupportScan) : Nat :=
  match scan.current with
  | none => scan.size
  | some current => scan.size + inclusiveSize current.minimum current.maximum

namespace Candidate

variable (candidate : Candidate)

/-- `support_size`. -/
def supportSize : Nat :=
  match candidate.distribution with
  | none => domainSize candidate.domain
  | some distribution =>
      ((sortRanges (candidate.support distribution.expression.entries)).foldl scanRange {}).total

/-- `unique`: the excluded values that could be drawn, each once. -/
def uniqueExcluded : List Nat :=
  candidate.descriptor.excludedRaw.foldl
    (fun unique raw =>
      let ordered := candidate.type.orderedRaw raw
      if !candidate.contains ordered || unique.contains ordered then unique else unique ++ [ordered])
    []

/-- The check of `configure` that every value of the support is excluded. -/
def cycleComplete : Bool :=
  candidate.descriptor.cyclic && !candidate.descriptor.excludedRaw.isEmpty &&
    (candidate.supportSize ≤ candidate.descriptor.excludedRaw.length &&
      candidate.uniqueExcluded.length ≥ candidate.supportSize)

end Candidate

/-- What a phase of the search reads. -/
structure Scratch where
  candidates : List Candidate
  required : List Nat
  soft : List Nat
  deriving DecidableEq, Repr

/-- The arrays of variables, domains and distributions, side by side. -/
def candidatesOf (descriptors : List VariableDescriptor) (domains : List CandidateDomain)
    (distributions : List (Option NamedDistribution)) : List Candidate :=
  (descriptors.zip (domains.zip distributions)).map fun (descriptor, domain, distribution) =>
    ⟨descriptor, domain, distribution⟩

/-- The positions of the candidates whose cycle is complete. -/
def completedCycles (candidates : List Candidate) : List Nat :=
  candidates.zipIdx.filterMap fun (candidate, index) =>
    if candidate.cycleComplete then some index else none

/-- `configure`. -/
def configure (problem : ConstraintProblem) (requireSoft : Bool) : Except Stop Scratch := do
  let collected ← collectConstraints requireSoft problem.constraints 0
    { domains := problem.vars.map VariableDescriptor.domain }
  let distributions ← problem.distributions.foldlM (assignDistribution problem)
    (List.replicate problem.vars.length none)
  let candidates := candidatesOf problem.vars (collected.domains.map finalizeDomain) distributions
  match candidates.findSome? Candidate.unsupported with
  | some result => throw (.returned result)
  | none =>
      let completed := completedCycles candidates
      if completed.isEmpty then return ⟨candidates, collected.required, collected.soft⟩
      else
        throw (.returned {
          status := .cycleExhausted
          cycleVariables := completed
          message := "random cycle complete for " ++
            ", ".intercalate (completed.map fun index => "'" ++ problem.names.getD index "" ++ "'") })

/-! ### Drawing assignments -/

section

variable {ρ : Type} (random : Generator ρ)

/-- A value for every candidate, or `none` when an excluded value comes up. -/
def drawValues : List Candidate → Draw ρ (Option (List Nat))
  | [] => return some []
  | candidate :: rest => do
      let ordered ← sampleVariable random candidate.domain candidate.distribution candidate.type
      let raw := candidate.type.fromOrderedRaw ordered
      if raw ∈ candidate.descriptor.excludedRaw then return none
      else
        let values ← drawValues rest
        return values.map (raw :: ·)

/-- The locals of `run_phase`. -/
structure Phase where
  best : Option (List Nat × List Bool) := none
  excludedRejections : Nat := 0
  rejectionCounts : List Nat
  deriving DecidableEq, Repr

/-- `better`: the first soft constraint on which they differ holds of the candidate. -/
def betterSoft : (candidateSoft bestSoft : List Bool) → Bool
  | holds :: candidateSoft, held :: bestSoft =>
      if holds = held then betterSoft candidateSoft bestSoft else holds
  | _, _ => false

/-- The best assignment so far, after one more. -/
def Phase.score (phase : Phase) (values : List Nat) (candidateSoft : List Bool) : Phase :=
  match phase.best with
  | none => { phase with best := some (values, candidateSoft) }
  | some (_, bestSoft) =>
      if betterSoft candidateSoft bestSoft then { phase with best := some (values, candidateSoft) }
      else phase

/-- The rejections of the constraints that rejected an assignment. -/
def rejectionText (problem : ConstraintProblem) (required counts : List Nat) : String :=
  (required.zip counts).foldl
    (fun text (index, count) =>
      if count = 0 then text
      else
        text ++ "; '" ++ (problem.constraints[index]?.map problem.constraintName).getD "" ++
          "' rejected " ++ toString count)
    ""

/-- The result of a phase that runs out of attempts. -/
def Phase.exhausted (problem : ConstraintProblem) (required : List Nat) (attempts : Nat)
    (phase : Phase) : RandomizeResult :=
  match phase.best with
  | some (values, _) => { status := .solved, values := values }
  | none =>
      { status := .searchExhausted
        message := "deterministic candidate search exhausted after " ++ toString attempts ++ " attempts" ++
          (if phase.excludedRejections ≠ 0 then
            "; RandC exclusions rejected " ++ toString phase.excludedRejections
          else "") ++
          rejectionText problem required phase.rejectionCounts ++
          "; try Z3RandomBackend for tightly coupled constraints" }

/-- The position of the first required constraint that an assignment violates. -/
def firstViolated (problem : ConstraintProblem) (required values : List Nat) : Option Nat :=
  required.findIdx? fun index => !evaluateConstraint (problem.constraintAt index) values

/-- The loop of `run_phase`, with the attempts that remain. -/
def runAttempts (problem : ConstraintProblem) (scratch : Scratch) (scoreSoft : Bool) (attempts : Nat) :
    (remaining : Nat) → Phase → Draw ρ RandomizeResult
  | 0, phase => return phase.exhausted problem scratch.required attempts
  | remaining + 1, phase => do
      match ← drawValues random scratch.candidates with
      | none =>
          runAttempts problem scratch scoreSoft attempts remaining
            { phase with excludedRejections := phase.excludedRejections + 1 }
      | some values =>
          match firstViolated problem scratch.required values with
          | some position =>
              runAttempts problem scratch scoreSoft attempts remaining
                { phase with rejectionCounts := phase.rejectionCounts.modify position (· + 1) }
          | none =>
              let candidateSoft := scratch.soft.map fun index =>
                evaluateConstraint (problem.constraintAt index) values
              if !scoreSoft || scratch.soft.isEmpty || candidateSoft.all id then
                return { status := .solved, values := values }
              else
                runAttempts problem scratch scoreSoft attempts remaining
                  (phase.score values candidateSoft)

/-- `run_phase`. -/
def runPhase (problem : ConstraintProblem) (scratch : Scratch) (scoreSoft : Bool) (attempts : Nat) :
    Draw ρ RandomizeResult :=
  runAttempts random problem scratch scoreSoft attempts attempts
    { rejectionCounts := scratch.required.map fun _ => 0 }

/-- `has_soft`. -/
def ConstraintProblem.hasSoft (problem : ConstraintProblem) : Bool :=
  problem.constraints.any NamedConstraint.soft

/-- The last part of `random_search`, with the hard constraints only. -/
def searchHard (problem : ConstraintProblem) (attempts : Nat) : Draw ρ RandomizeResult :=
  match configure problem false with
  | .error (.threw error) => throw error
  | .error (.returned result) => return result
  | .ok scratch => runPhase random problem scratch problem.hasSoft attempts

/-- `random_search`. -/
def randomSearch (problem : ConstraintProblem) (attempts : Nat) : Draw ρ RandomizeResult :=
  if problem.hasSoft then
    match configure problem true with
    | .error (.threw error) => throw error
    | .error (.returned result) =>
        if result.status = .backendError then return result
        else searchHard random problem attempts
    | .ok scratch => do
        let preferred ← runPhase random problem scratch false attempts
        if preferred.status = .solved then return preferred
        else searchHard random problem attempts
  else searchHard random problem attempts

end

end Cpptb.Randomize
