/-
Randomized objects and their `RandC` cycles.

`Randomized` is a root object with its variables, its constraints and the problem it keeps between
solves. `randomizeImpl` follows `randomize_impl` with a built-in backend; the values it accepts and the
cycles it resets are recorded as `CycleEvent`s, in the order of the calls of `accept_cycle_value` and
`reset_cycle`. The hooks of a call come before its first and after its last step, so that what they do
to the object is a call of its own in a run; so are the calls made through nested objects, which keep
their variables and constraints in the root.
-/

import Cpptb.Randomize.Search

namespace Cpptb.Randomize

/-- A `Rand` or, when `cyclic`, a `RandC`. -/
structure RandVariable where
  name : String := ""
  type : ScalarType
  minimumRaw : Nat := 0
  maximumRaw : Nat := 0
  cyclic : Bool := false
  valueRaw : Nat := 0
  seen : List Nat := []
  deriving DecidableEq, Repr

namespace RandVariable

/-- `descriptor`. -/
def descriptor (rand : RandVariable) (id : Nat) : VariableDescriptor where
  id := id
  name := rand.name
  type := rand.type
  minimumRaw := rand.minimumRaw
  maximumRaw := rand.maximumRaw
  excludedRaw := if rand.cyclic then rand.seen else []
  cyclic := rand.cyclic

/-- `set_raw`. -/
def setRaw (rand : RandVariable) (raw : Nat) : RandVariable :=
  { rand with valueRaw := rand.type.normalize raw }

/-- `accept_cycle_value`. -/
def acceptCycleValue (rand : RandVariable) (raw : Nat) : RandVariable :=
  if rand.cyclic then { rand with seen := rand.seen ++ [rand.type.normalize raw] } else rand

/-- `has_cycle_values`. -/
def hasCycleValues (rand : RandVariable) : Bool := rand.cyclic && !rand.seen.isEmpty

/-- `reset_cycle`. -/
def resetCycle (rand : RandVariable) : RandVariable :=
  if rand.cyclic then { rand with seen := [] } else rand

end RandVariable

/-- What happens to the cycle of a variable. -/
inductive CycleEvent
  | accepted (index raw : Nat)
  | reset (index : Nat)
  deriving DecidableEq, Repr

/-- `RandomSearchBackend`, or `AdaptiveConstraintBackend` without a fallback. -/
structure BuiltInBackend where
  adaptive : Bool := true
  attempts : Nat := 4096
  deriving DecidableEq, Repr

/-- `name`. -/
def BuiltInBackend.name (backend : BuiltInBackend) : String :=
  if backend.adaptive then "adaptive" else "deterministic-search"

/-- `solve`. -/
def BuiltInBackend.solve {ρ : Type} (random : Generator ρ) (backend : BuiltInBackend)
    (problem : ConstraintProblem) : Draw ρ RandomizeResult := do
  let result ← randomSearch random problem backend.attempts
  let result := { result with engine := .sampling }
  if backend.adaptive && result.status = .searchExhausted then
    return { result with
      message := result.message ++ "; adaptive backend has no solver fallback configured" }
  else return result

/-- `Randomized`, a root object. -/
structure Randomized where
  rands : List RandVariable := []
  constraints : List NamedConstraint := []
  distributions : List NamedDistribution := []
  problem : ConstraintProblem := {}
  baseConstraintCount : Nat := 0
  controlRevision : Nat := 1
  problemControlRevision : Nat := 0
  problemInitialized : Bool := false
  deriving DecidableEq, Repr

/-- `ConstraintControlKind`. -/
inductive ConstraintControlKind
  | expression
  | distribution
  deriving DecidableEq, Repr

namespace Randomized

variable (object : Randomized)

/-- `invalidate_structure`. -/
def invalidateStructure : Randomized :=
  { object with problemInitialized := false, controlRevision := object.controlRevision + 1 }

/-- `register_variable`. -/
def registerVariable (rand : RandVariable) : Randomized :=
  invalidateStructure { object with rands := object.rands ++ [rand] }

/-- `add_constraint`, of an expression with a node. -/
def addConstraint (node : ExprNode) (label : String) (soft : Bool) : Randomized :=
  invalidateStructure { object with
    constraints := object.constraints ++
      [{ label := label, expression := some node, soft := soft, enabled := true }] }

/-- `constraint(Distribution, ...)`, of a distribution with entries. -/
def addDistribution (expression : Distribution) (label : String) : Randomized :=
  invalidateStructure { object with
    distributions := object.distributions ++
      [{ label := label, expression := expression, enabled := true }] }

/-- `constraint_enabled`. -/
def constraintEnabled (kind : ConstraintControlKind) (index : Nat) : Option Bool :=
  match kind with
  | .expression => object.constraints[index]?.map NamedConstraint.enabled
  | .distribution => object.distributions[index]?.map NamedDistribution.enabled

/-- `set_constraint_enabled`. A handle has the index of a constraint or a distribution. -/
def setConstraintEnabled (kind : ConstraintControlKind) (index : Nat) (enabled : Bool) : Randomized :=
  if object.constraintEnabled kind index = some enabled then object
  else
    match kind with
    | .expression =>
        { object with
          constraints := object.constraints.modify index ({ · with enabled := enabled })
          controlRevision := object.controlRevision + 1 }
    | .distribution =>
        { object with
          distributions := object.distributions.modify index ({ · with enabled := enabled })
          controlRevision := object.controlRevision + 1 }

/-- `Rand::operator=`. -/
def assign (index raw : Nat) : Randomized :=
  { object with rands := object.rands.modify index (·.setRaw raw) }

/-- The descriptors of the variables. -/
def descriptors : List VariableDescriptor :=
  object.rands.zipIdx.map fun (rand, id) => rand.descriptor id

/-- The descriptors written over the first ones of the kept problem. -/
def overwritten (kept descriptors : List VariableDescriptor) : List VariableDescriptor :=
  descriptors ++ kept.drop descriptors.length

/-- `prepare_problem`. -/
def prepareProblem (inlineConstraints : List NamedConstraint) : Randomized :=
  let vars :=
    if !object.problemInitialized then object.descriptors
    else overwritten object.problem.vars object.descriptors
  let object := { object with
    problem := { object.problem with vars := vars }
    problemInitialized := true }
  let object :=
    if object.problemControlRevision ≠ object.controlRevision then
      let constraints := object.constraints.filter NamedConstraint.enabled
      { object with
        problem := { object.problem with
          constraints := constraints
          distributions := object.distributions.filter NamedDistribution.enabled }
        baseConstraintCount := constraints.length
        problemControlRevision := object.controlRevision }
    else object
  { object with
    problem := { object.problem with
      constraints := object.problem.constraints.take object.baseConstraintCount ++ inlineConstraints } }

/-- The loop that resets the cycles a backend has found complete, until one has no values. -/
def resetCycles (object : Randomized) : List Nat → Bool × Randomized × List CycleEvent
  | [] => (true, object, [])
  | index :: rest =>
      match object.rands[index]? with
      | none => (false, object, [])
      | some rand =>
          if !rand.hasCycleValues then (false, object, [])
          else
            let (valid, object, events) := resetCycles
              { object with rands := object.rands.modify index RandVariable.resetCycle } rest
            (valid, object, .reset index :: events)

/-- The loop that gives the variables their values. -/
def acceptValues (rands : List RandVariable) (values : List Nat) : List RandVariable :=
  (rands.zip values).map fun (rand, raw) => (rand.setRaw raw).acceptCycleValue raw

/-- The events of that loop. -/
def acceptEvents (values : List Nat) : List CycleEvent :=
  values.zipIdx.map fun (raw, index) => .accepted index raw

/-- The part of `randomize_impl` after the last solve. -/
def accept (name : String) (result : RandomizeResult) :
    Randomized × List CycleEvent × RandomizeResult :=
  if result.status ≠ .solved then
    (object, [], { result with
      message :=
        if result.message.isEmpty then "constraint backend '" ++ name ++ "' failed"
        else result.message })
  else if result.values.length ≠ object.rands.length then
    (object, [], {
      message := "constraint backend '" ++ name ++ "' returned the wrong assignment size" })
  else
    ({ object with rands := acceptValues object.rands result.values }, acceptEvents result.values,
      result)

/-- A call of `randomize_impl`: the object and the events it leaves, and its result or exception. -/
structure Randomization where
  object : Randomized
  events : List CycleEvent
  result : Except SearchError RandomizeResult

section

variable {ρ : Type} (random : Generator ρ)

/-- `randomize_impl`, with the state of the generator that is passed in. -/
def randomizeImpl (backend : BuiltInBackend) (inlineConstraints : List NamedConstraint) (state : ρ) :
    Randomization :=
  let object := object.prepareProblem inlineConstraints
  match (backend.solve random object.problem).run state with
  | .error error => ⟨object, [], .error error⟩
  | .ok (result, state) =>
      if result.status = .cycleExhausted then
        match resetCycles object result.cycleVariables with
        | (false, object, events) =>
            ⟨object, events, .ok {
              message := "constraint backend '" ++ backend.name ++ "' reported an invalid RandC cycle" }⟩
        | (true, object, events) =>
            let object := object.prepareProblem inlineConstraints
            match (backend.solve random object.problem).run state with
            | .error error => ⟨object, events, .error error⟩
            | .ok (result, _) =>
                let (object, accepted, result) := object.accept backend.name result
                ⟨object, events ++ accepted, .ok result⟩
      else
        let (object, accepted, result) := object.accept backend.name result
        ⟨object, accepted, .ok result⟩

end

/-- The constraint of `randomize_with`. -/
def inlineConstraint (node : ExprNode) : NamedConstraint :=
  { label := "inline constraint", expression := some node, soft := false, enabled := true }

end Randomized

/-! ### Calls -/

/-- A call on a randomized object. Every `randomize` brings the generator of its own. -/
inductive RandomizedCall (ρ : Type)
  | register (rand : RandVariable)
  | constraint (node : ExprNode) (label : String) (soft : Bool)
  | distribution (expression : Distribution) (label : String)
  | setEnabled (kind : ConstraintControlKind) (index : Nat) (enabled : Bool)
  | assign (index raw : Nat)
  | randomize (backend : BuiltInBackend) (state : ρ)
  | randomizeWith (node : ExprNode) (backend : BuiltInBackend) (state : ρ)

namespace RandomizedCall

variable {ρ : Type}

/-- The constraints that a call adds for one solve. -/
def inlineConstraints : RandomizedCall ρ → Option (List NamedConstraint)
  | .randomize .. => some []
  | .randomizeWith node .. => some [Randomized.inlineConstraint node]
  | .register .. | .constraint .. | .distribution .. | .setEnabled .. | .assign .. => none

/-- The operators built the expression of the call over variables of the types. -/
def BuiltOver (types : List ScalarType) : RandomizedCall ρ → Prop
  | .constraint node .. => ConstraintExpr types node
  | .randomizeWith node .. => ConstraintExpr types node
  | .register .. | .distribution .. | .setEnabled .. | .assign .. | .randomize .. => True

/-- The object after the call, and the events of the call. A variable starts a cycle when it is
registered. -/
def perform (random : Generator ρ) (object : Randomized) :
    RandomizedCall ρ → Randomized × List CycleEvent
  | .register rand => (object.registerVariable { rand with seen := [] }, [])
  | .constraint node label soft => (object.addConstraint node label soft, [])
  | .distribution expression label => (object.addDistribution expression label, [])
  | .setEnabled kind index enabled => (object.setConstraintEnabled kind index enabled, [])
  | .assign index raw => (object.assign index raw, [])
  | .randomize backend state =>
      let call := object.randomizeImpl random backend [] state
      (call.object, call.events)
  | .randomizeWith node backend state =>
      let call := object.randomizeImpl random backend [Randomized.inlineConstraint node] state
      (call.object, call.events)

end RandomizedCall

/-- The types of the variables. -/
def Randomized.types (object : Randomized) : List ScalarType := object.rands.map RandVariable.type

/-- A randomized object after some calls, with the events of all of them. -/
inductive History {ρ : Type} (random : Generator ρ) : Randomized → List CycleEvent → Prop
  | start : History random {} []
  | call {object : Randomized} {events : List CycleEvent} (before : History random object events)
      (call : RandomizedCall ρ) (built : call.BuiltOver object.types) :
      History random (call.perform random object).1 (events ++ (call.perform random object).2)

end Cpptb.Randomize
