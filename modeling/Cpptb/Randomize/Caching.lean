/-
The kept problem and the models of Z3 are up to date.

* `cachedModel` follows `cached_model` of the Z3 backend, and `buildModel` what it caches.
* `buildModel_congr`: a cached model depends on the declarations of the variables, the persistent
  constraints and the distributions alone.
* `World.Fresh`: what every call keeps of some objects that share a Z3 backend.
* `cached_problem_fresh`: in every run the problems that are handed over are those built from nothing, an
  identity and a revision determine what is persistent of them, and the backend uses the model that it
  would build.

The hooks of a call and the calls through nested objects are calls of their own, and the revision counts
without a bound.
-/

import Cpptb.Randomize.Backends
import Cpptb.Randomize.Z3Backend

namespace Cpptb.Randomize

open Smt

/-! ### The models of Z3 -/

/-- `SoftExpression`. -/
structure SoftExpression where
  constraintIndex : ℕ
  expression : Term
  label : String

/-- `CachedModel`: what the solver is asked, in place of the solver. -/
structure CachedModel where
  identity : ℕ
  revision : ℕ
  persistentConstraintCount : ℕ
  constants : List Term
  assertions : List Term
  trackingLabels : List String
  hardIndices : List ℕ := []
  softExpressions : List SoftExpression := []

/-- The label of a distribution. -/
def distributionLabel (problem : ConstraintProblem) (distribution : NamedDistribution) : String :=
  if distribution.label.isEmpty then
    "distribution for " ++ problem.names.getD distribution.expression.variableIndex ""
  else distribution.label

/-- One round of the loop of `build_model` over the persistent constraints. -/
def addPersistent (problem : ConstraintProblem) (model : CachedModel) (entry : NamedConstraint × ℕ) :
    Except String CachedModel :=
  let (constraint, index) := entry
  match constraint.expression with
  | none => .error "Z3 received an empty constraint expression"
  | some node =>
    let expression := translateNode model.constants node
    let label := problem.constraintName constraint
    if constraint.soft then
      .ok { model with softExpressions := model.softExpressions ++ [⟨index, expression, label⟩] }
    else
      .ok { model with
        hardIndices := model.hardIndices ++ [index]
        trackingLabels := model.trackingLabels ++ [label]
        assertions := model.assertions ++ [expression] }

/-- `build_model`. -/
def buildModel (handed : HandedProblem) : Except String CachedModel := do
  let problem := handed.problem
  let (_, supports) ← problem.distributions.foldlM (addDistribution problem)
    (List.replicate problem.vars.length false, [])
  let count := min handed.persistentConstraintCount problem.constraints.length
  (problem.constraints.take count).zipIdx.foldlM (addPersistent problem) {
    identity := handed.modelIdentity
    revision := handed.modelRevision
    persistentConstraintCount := count
    constants := z3Constants problem.types
    assertions := rangeAssertions problem ++ supports
    trackingLabels := problem.distributions.map (distributionLabel problem) }

/-- The loop of `cached_model`: the model of the problem, and the models that stay. -/
def findModel (expired : ℕ → Bool) (handed : HandedProblem) :
    List CachedModel → Option CachedModel × List CachedModel
  | [] => (none, [])
  | model :: rest =>
    if expired model.identity then findModel expired handed rest
    else if model.identity = handed.modelIdentity then
      if model.revision = handed.modelRevision then (some model, model :: rest)
      else findModel expired handed rest
    else
      let (found, kept) := findModel expired handed rest
      (found, model :: kept)

/-- `cached_model`: the model that is used, or the exception of building it, and the cache. -/
def cachedModel (expired : ℕ → Bool) (handed : HandedProblem) (cache : List CachedModel) :
    Except String CachedModel × List CachedModel :=
  match findModel expired handed cache with
  | (some model, cache) => (.ok model, cache)
  | (none, cache) =>
    match buildModel handed with
    | .error error => (.error error, cache)
    | .ok model => (.ok model, cache ++ [model])

/-- What of a problem an identity and a revision stand for: everything but the exclusions and the inline
constraints. -/
def HandedProblem.persistent (handed : HandedProblem) : HandedProblem :=
  { handed with
    problem := {
      vars := handed.problem.vars.map fun descriptor => { descriptor with excludedRaw := [] }
      constraints := handed.problem.constraints.take handed.persistentConstraintCount
      distributions := handed.problem.distributions } }

section Building

variable {handed handed' : HandedProblem}

theorem persistent_types (handed : HandedProblem) :
    handed.persistent.problem.types = handed.problem.types := by
  unfold HandedProblem.persistent ConstraintProblem.types
  rw [List.map_map]
  rfl

theorem persistent_names (handed : HandedProblem) :
    handed.persistent.problem.names = handed.problem.names := by
  unfold HandedProblem.persistent ConstraintProblem.names
  rw [List.map_map]
  rfl

theorem persistent_length (handed : HandedProblem) :
    handed.persistent.problem.vars.length = handed.problem.vars.length := List.length_map _

theorem rangeAssertions_persistent (handed : HandedProblem) :
    rangeAssertions handed.persistent.problem = rangeAssertions handed.problem := by
  unfold rangeAssertions
  rw [persistent_types]
  show ((handed.problem.vars.map _).zipIdx).flatMap _ = _
  rw [List.zipIdx_map, List.flatMap_map]
  rfl

theorem addDistribution_persistent (handed : HandedProblem) :
    addDistribution handed.persistent.problem = addDistribution handed.problem := by
  funext ⟨distributed, terms⟩ distribution
  unfold addDistribution
  rw [persistent_types, persistent_names]
  have vars : handed.persistent.problem.vars[distribution.expression.variableIndex]?
      = handed.problem.vars[distribution.expression.variableIndex]?.map
        fun descriptor => { descriptor with excludedRaw := [] } := List.getElem?_map
  simp only [vars]
  cases handed.problem.vars[distribution.expression.variableIndex]? with
  | none => rfl
  | some descriptor =>
    rcases distributed[distribution.expression.variableIndex]? with _ | _ | _ <;> rfl

theorem addPersistent_persistent (handed : HandedProblem) :
    addPersistent handed.persistent.problem = addPersistent handed.problem := by
  funext model ⟨constraint, index⟩
  unfold addPersistent ConstraintProblem.constraintName
  rw [persistent_names]

/-- A model is built from what is persistent of the problem. -/
theorem buildModel_persistent (handed : HandedProblem) : buildModel handed.persistent = buildModel handed := by
  have labels : distributionLabel handed.persistent.problem = distributionLabel handed.problem := by
    funext distribution
    rw [distributionLabel, distributionLabel, persistent_names]
  have taken : handed.persistent.problem.constraints.take
        (min handed.persistentConstraintCount handed.problem.constraints.length)
      = handed.problem.constraints.take
        (min handed.persistentConstraintCount handed.problem.constraints.length) := by
    show (handed.problem.constraints.take _).take _ = _
    rw [List.take_take]
    congr 1
    omega
  have count : min handed.persistentConstraintCount handed.persistent.problem.constraints.length
      = min handed.persistentConstraintCount handed.problem.constraints.length := by
    show min _ (handed.problem.constraints.take _).length = _
    rw [List.length_take]
    omega
  have distributions : handed.persistent.problem.distributions = handed.problem.distributions := rfl
  have revision : handed.persistent.modelRevision = handed.modelRevision := rfl
  have identity : handed.persistent.modelIdentity = handed.modelIdentity := rfl
  have persistentCount : handed.persistent.persistentConstraintCount = handed.persistentConstraintCount :=
    rfl
  unfold buildModel
  simp only [persistentCount, taken, count, distributions, revision, identity, labels, persistent_types,
    persistent_length, rangeAssertions_persistent, addDistribution_persistent, addPersistent_persistent]

theorem buildModel_congr (same : handed.persistent = handed'.persistent) :
    buildModel handed = buildModel handed' := by
  rw [← buildModel_persistent handed, same, buildModel_persistent]

/-- A model has the identity and the revision of its problem. -/
theorem buildModel_identity {model : CachedModel} (built : buildModel handed = .ok model) :
    model.identity = handed.modelIdentity ∧ model.revision = handed.modelRevision := by
  have step : ∀ (entries : List (NamedConstraint × ℕ)) {before after : CachedModel},
      entries.foldlM (addPersistent handed.problem) before = .ok after →
      after.identity = before.identity ∧ after.revision = before.revision := by
    intro entries
    induction entries with
    | nil =>
      intro before after ran
      obtain rfl := Except.ok.inj ran
      exact ⟨rfl, rfl⟩
    | cons entry rest ih =>
      intro before after ran
      rw [List.foldlM_cons] at ran
      cases first : addPersistent handed.problem before entry with
      | error message =>
        rw [first] at ran
        cases ran
      | ok middle =>
        rw [first] at ran
        obtain ⟨identity, revision⟩ := ih ran
        have kept : middle.identity = before.identity ∧ middle.revision = before.revision := by
          unfold addPersistent at first
          simp only at first
          split at first
          · cases first
          · split at first <;> (obtain rfl := Except.ok.inj first; exact ⟨rfl, rfl⟩)
        exact ⟨identity.trans kept.1, revision.trans kept.2⟩
  unfold buildModel at built
  simp only [bind, Except.bind] at built
  split at built
  · cases built
  · exact step _ built

end Building

/-! ### Objects that share a backend -/

/-- Some objects, by their identities, and a Z3 backend; with what the objects have handed over, and with
what the backend has been asked and has used. -/
structure World where
  objects : List Randomized := []
  destroyed : List ℕ := []
  cache : List CachedModel := []
  log : List HandedProblem := []
  consulted : List (HandedProblem × Except String CachedModel) := []

/-- A call in a world. The Z3 backend may be the one of the call or not, and asks for its model or not:
`consults` says so of each solve. -/
inductive WorldCall (ε : Type)
  | create
  | destroy (identity : ℕ)
  | clearCache
  | call (identity : ℕ) (call : ModelCall ε) (consults : ℕ → Bool)

namespace World

variable {ε : Type}

/-- One consultation of the cache. -/
def consult (world : World) (handed : HandedProblem) : World :=
  let (model, cache) := cachedModel (· ∈ world.destroyed) handed world.cache
  { world with cache := cache, consulted := world.consulted ++ [(handed, model)] }

/-- The consultations of a call. -/
def consultAll (consults : ℕ → Bool) (world : World) (handed : List HandedProblem) : World :=
  handed.zipIdx.foldl
    (fun world (problem, solve) => if consults solve then world.consult problem else world) world

/-- A call on one of the objects. -/
def callOn (world : World) (identity : ℕ) (call : ModelCall ε) (consults : ℕ → Bool) : World :=
  match world.objects[identity]? with
  | none => world
  | some object =>
    if identity ∈ world.destroyed then world
    else
      let performed := call.perform identity object
      consultAll consults
        { world with
          objects := world.objects.set identity performed.1
          log := world.log ++ performed.2 } performed.2

/-- The world after a call. -/
def perform (world : World) : WorldCall ε → World
  | .create => { world with objects := world.objects ++ [{}] }
  | .destroy identity => { world with destroyed := identity :: world.destroyed }
  | .clearCache => { world with cache := [] }
  | .call identity call consults => world.callOn identity call consults

/-- A world after some calls. -/
def run (calls : List (WorldCall ε)) : World := calls.foldl perform {}

end World

section Persistent

variable {object object' : Randomized}

/-- The inline constraints of a call are not persistent. -/
theorem persistent_rebuilt (object : Randomized) (identity : ℕ)
    (inlineConstraints : List NamedConstraint) :
    (object.rebuilt identity inlineConstraints).persistent = (object.rebuilt identity []).persistent := by
  have constraints : ∀ inlineConstraints : List NamedConstraint,
      (object.constraints.filter NamedConstraint.enabled ++ inlineConstraints).take
        (object.constraints.filter NamedConstraint.enabled).length
      = object.constraints.filter NamedConstraint.enabled := fun _ => List.take_left
  unfold Randomized.rebuilt HandedProblem.persistent Randomized.activeProblem
  simp only [constraints]

theorem descriptor_declared (rand : RandVariable) (position : ℕ) :
    rand.declared.descriptor position = { rand.descriptor position with excludedRaw := [] } := by
  have empty : (if rand.declared.cyclic = true then ([] : List ℕ) else []) = [] := ite_self []
  unfold RandVariable.descriptor
  rw [show rand.declared.seen = [] from rfl, empty]
  rfl

/-- The values and the cycles of the variables are not persistent. -/
theorem persistent_congr (same : Randomized.SameDeclarations object object') (identity : ℕ)
    (inlineConstraints : List NamedConstraint) :
    (object'.rebuilt identity inlineConstraints).persistent
      = (object.rebuilt identity inlineConstraints).persistent := by
  have stripped : ∀ object : Randomized,
      object.descriptors.map (fun descriptor => { descriptor with excludedRaw := [] })
        = (object.rands.map RandVariable.declared).zipIdx.map fun declared =>
            declared.1.descriptor declared.2 := by
    intro object
    unfold Randomized.descriptors
    rw [List.zipIdx_map, List.map_map, List.map_map]
    exact List.map_congr_left fun entry _ => (descriptor_declared entry.1 entry.2).symm
  unfold Randomized.rebuilt HandedProblem.persistent Randomized.activeProblem
  simp only [stripped, same.rands, same.constraints, same.distributions, same.revision]

/-- A call raises the revision and hands over nothing, or keeps the declarations and hands over problems
of the revision. -/
theorem perform_kinds {ε : Type} (cached : object.Cached) (identity : ℕ) (call : ModelCall ε) :
    ((call.perform identity object).2 = [] ∧
      object.controlRevision < (call.perform identity object).1.controlRevision) ∨
    (Randomized.SameDeclarations object (call.perform identity object).1 ∧
      ∀ handed ∈ (call.perform identity object).2, handed.modelIdentity = identity ∧
        handed.modelRevision = object.controlRevision ∧
        handed.persistent = (object.rebuilt identity []).persistent) := by
  have none : ∀ handed ∈ ([] : List HandedProblem), handed.modelIdentity = identity ∧
      handed.modelRevision = object.controlRevision ∧
      handed.persistent = (object.rebuilt identity []).persistent := fun _ member =>
    absurd member List.not_mem_nil
  have same : Randomized.SameDeclarations object object := .refl object
  have randomizes : ∀ (backend : Backend ε) (inlineConstraints : List NamedConstraint),
      Randomized.SameDeclarations object (object.randomizeBy backend identity inlineConstraints).object ∧
      ∀ handed ∈ (object.randomizeBy backend identity inlineConstraints).handed,
        handed.modelIdentity = identity ∧ handed.modelRevision = object.controlRevision ∧
        handed.persistent = (object.rebuilt identity []).persistent := by
    intro backend inlineConstraints
    obtain ⟨-, declared, done, -, -, handedOver, -⟩ :=
      Randomized.randomizeBy_spec cached backend identity inlineConstraints
    obtain ⟨-, reset⟩ := Randomized.withoutCycles_declared cached done
    refine ⟨declared, fun handed member => ?_⟩
    have either : handed = object.rebuilt identity inlineConstraints ∨
        handed = (object.withoutCycles done).rebuilt identity inlineConstraints := by
      rcases handedOver with once | twice
      · rw [once, List.mem_singleton] at member
        exact .inl member
      · rw [twice, List.mem_pair] at member
        exact member
    rcases either with rfl | rfl
    · exact ⟨rfl, rfl, persistent_rebuilt object identity inlineConstraints⟩
    · exact ⟨rfl, rfl, (persistent_congr reset identity inlineConstraints).trans
        (persistent_rebuilt object identity inlineConstraints)⟩
  cases call with
  | register rand => exact .inl ⟨rfl, Nat.lt_succ_self _⟩
  | constraint expression label soft =>
    cases expression with
    | none => exact .inr ⟨same, none⟩
    | some node => exact .inl ⟨rfl, Nat.lt_succ_self _⟩
  | distribution expression label =>
    rw [ModelCall.perform]
    split
    · exact .inr ⟨same, none⟩
    · exact .inl ⟨rfl, Nat.lt_succ_self _⟩
  | setEnabled kind index enabled =>
    show (_ ∧ object.controlRevision < (object.setConstraintEnabled kind index enabled).controlRevision) ∨
      (Randomized.SameDeclarations object (object.setConstraintEnabled kind index enabled) ∧ _)
    unfold Randomized.setConstraintEnabled
    split
    · exact .inr ⟨same, none⟩
    · cases kind
      · exact .inl ⟨rfl, Nat.lt_succ_self _⟩
      · exact .inl ⟨rfl, Nat.lt_succ_self _⟩
  | assign index raw => exact .inr ⟨(cached.assign index raw).2, none⟩
  | randomize backend => exact .inr (randomizes backend [])
  | randomizeWith expression backend =>
    cases expression with
    | none => exact .inr ⟨same, none⟩
    | some node => exact .inr (randomizes backend _)

end Persistent

/-- A model that is found has the identity and the revision; those that stay were there. -/
theorem findModel_spec (expired : ℕ → Bool) (handed : HandedProblem) (cache : List CachedModel) :
    (∀ model, (findModel expired handed cache).1 = some model → model ∈ cache ∧
      model.identity = handed.modelIdentity ∧ model.revision = handed.modelRevision) ∧
    ∀ model ∈ (findModel expired handed cache).2, model ∈ cache := by
  induction cache with
  | nil => exact ⟨nofun, fun _ member => member⟩
  | cons first rest ih =>
    have later : (∀ model, (findModel expired handed rest).1 = some model → model ∈ first :: rest ∧
        model.identity = handed.modelIdentity ∧ model.revision = handed.modelRevision) ∧
        ∀ model ∈ (findModel expired handed rest).2, model ∈ first :: rest :=
      ⟨fun model found => ⟨List.mem_cons_of_mem _ (ih.1 model found).1, (ih.1 model found).2⟩,
        fun model member => List.mem_cons_of_mem _ (ih.2 model member)⟩
    unfold findModel
    split
    next => exact later
    next =>
      split
      next here =>
        split
        next current =>
          refine ⟨fun model found => ?_, fun _ member => member⟩
          obtain rfl := Option.some.inj found
          exact ⟨List.mem_cons_self, here, current⟩
        next => exact later
      next =>
        refine ⟨later.1, fun model member => ?_⟩
        rcases List.mem_cons.mp member with rfl | stays
        · exact List.mem_cons_self
        · exact later.2 model stays

namespace World

variable {ε : Type} {world : World}

/-- What holds between calls. -/
structure Fresh (world : World) : Prop where
  cached : ∀ object ∈ world.objects, object.Cached
  current : ∀ handed ∈ world.log, ∃ object, world.objects[handed.modelIdentity]? = some object ∧
    handed.modelRevision ≤ object.controlRevision ∧
    (handed.modelRevision = object.controlRevision →
      handed.persistent = (object.rebuilt handed.modelIdentity []).persistent)
  determined : ∀ handed ∈ world.log, ∀ handed' ∈ world.log,
    handed.modelIdentity = handed'.modelIdentity → handed.modelRevision = handed'.modelRevision →
    handed.persistent = handed'.persistent
  models : ∀ model ∈ world.cache, ∃ handed ∈ world.log, buildModel handed = .ok model
  used : ∀ entry ∈ world.consulted, entry.1 ∈ world.log ∧ entry.2 = buildModel entry.1

/-- The backend uses the model that it would build. -/
theorem Fresh.consult (fresh : world.Fresh) {handed : HandedProblem} (logged : handed ∈ world.log) :
    (world.consult handed).Fresh := by
  obtain ⟨found, stays⟩ := findModel_spec (· ∈ world.destroyed) handed world.cache
  have answer : (cachedModel (· ∈ world.destroyed) handed world.cache).1 = buildModel handed ∧
      ∀ model ∈ (cachedModel (· ∈ world.destroyed) handed world.cache).2,
        ∃ handed ∈ world.log, buildModel handed = .ok model := by
    unfold cachedModel
    rcases ran : findModel (· ∈ world.destroyed) handed world.cache with ⟨_ | model, kept⟩
    · rw [ran] at stays
      cases built : buildModel handed with
      | error message => exact ⟨rfl, fun model member => fresh.models model (stays model member)⟩
      | ok model =>
        refine ⟨rfl, fun other member => ?_⟩
        rcases List.mem_append.mp member with old | new
        · exact fresh.models other (stays other old)
        · exact ⟨handed, logged, List.mem_singleton.mp new ▸ built⟩
    · rw [ran] at found stays
      obtain ⟨member, identity, revision⟩ := found model rfl
      obtain ⟨earlier, logged', built⟩ := fresh.models model member
      obtain ⟨identity', revision'⟩ := buildModel_identity built
      have same := fresh.determined earlier logged' handed logged (identity'.symm.trans identity)
        (revision'.symm.trans revision)
      exact ⟨built.symm.trans (buildModel_congr same),
        fun other member => fresh.models other (stays other member)⟩
  refine ⟨fresh.cached, fresh.current, fresh.determined, answer.2, fun entry member => ?_⟩
  rcases List.mem_append.mp member with old | new
  · exact fresh.used entry old
  · obtain rfl := List.mem_singleton.mp new
    exact ⟨logged, answer.1⟩

theorem Fresh.consultAll (fresh : world.Fresh) (consults : ℕ → Bool) {handed : List HandedProblem}
    (logged : ∀ problem ∈ handed, problem ∈ world.log) : (consultAll consults world handed).Fresh := by
  have general : ∀ (entries : List (HandedProblem × ℕ)) {world : World}, world.Fresh →
      (∀ entry ∈ entries, entry.1 ∈ world.log) →
      (entries.foldl (fun world (problem, solve) =>
        if consults solve then world.consult problem else world) world).Fresh := by
    intro entries
    induction entries with
    | nil => exact fun fresh _ => fresh
    | cons entry rest ih =>
      intro world fresh logged
      rw [List.foldl_cons]
      refine ih ?_ fun other member => ?_
      · show (if consults entry.2 = true then world.consult entry.1 else world).Fresh
        split
        · exact fresh.consult (logged entry List.mem_cons_self)
        · exact fresh
      · show other.1 ∈ (if consults entry.2 = true then world.consult entry.1 else world).log
        have before := logged other (List.mem_cons_of_mem _ member)
        split <;> exact before
  refine general _ fresh fun entry member => logged entry.1 ?_
  exact (List.mem_zipIdx' member).2 ▸ List.getElem_mem _

/-- A call on an object keeps the world fresh. -/
theorem Fresh.callOn (fresh : world.Fresh) (identity : ℕ) (call : ModelCall ε) (consults : ℕ → Bool) :
    (world.callOn identity call consults).Fresh := by
  unfold World.callOn
  split
  next => exact fresh
  next object found =>
    split
    next => exact fresh
    next =>
      have cached := fresh.cached object (List.mem_of_getElem? found)
      have here : (world.objects.set identity (call.perform identity object).1)[identity]?
          = some (call.perform identity object).1 :=
        List.getElem?_set_self (List.getElem?_eq_some_iff.mp found).1
      have elsewhere : ∀ other, other ≠ identity →
          (world.objects.set identity (call.perform identity object).1)[other]? = world.objects[other]? :=
        fun other differs => List.getElem?_set_ne (Ne.symm differs)
      -- what is logged of the object before the call
      have before : ∀ handed ∈ world.log, handed.modelIdentity = identity →
          handed.modelRevision ≤ object.controlRevision ∧
          (handed.modelRevision = object.controlRevision →
            handed.persistent = (object.rebuilt identity []).persistent) := by
        intro handed logged same
        obtain ⟨other, isOther, current⟩ := fresh.current handed logged
        rw [same] at isOther current
        exact Option.some.inj (isOther.symm.trans found) ▸ current
      have middle : Fresh { world with
          objects := world.objects.set identity (call.perform identity object).1
          log := world.log ++ (call.perform identity object).2 } := by
        refine ⟨fun other member => ?_, fun handed logged => ?_, fun handed logged handed' logged' => ?_,
          fun model member => ?_, fun entry member => ?_⟩
        · rcases List.mem_or_eq_of_mem_set member with old | rfl
          · exact fresh.cached other old
          · exact cached_perform cached call
        · by_cases same : handed.modelIdentity = identity
          · refine ⟨(call.perform identity object).1, by rw [same]; exact here, ?_⟩
            rcases perform_kinds cached identity call with ⟨nothing, raised⟩ | ⟨kept, new⟩
            · rw [nothing, List.append_nil] at logged
              have old := (before handed logged same).1
              exact ⟨old.trans raised.le, fun equal => by omega⟩
            · have declared := persistent_congr kept identity []
              rw [kept.revision, same, declared]
              rcases List.mem_append.mp logged with old | now
              · exact before handed old same
              · exact ⟨(new handed now).2.1.le, fun _ => (new handed now).2.2⟩
          · rcases List.mem_append.mp logged with old | now
            · obtain ⟨other, isOther, current⟩ := fresh.current handed old
              exact ⟨other, (elsewhere _ same).trans isOther, current⟩
            · rcases perform_kinds cached identity call with ⟨nothing, -⟩ | ⟨-, new⟩
              · rw [nothing] at now
                exact absurd now List.not_mem_nil
              · exact absurd (new handed now).1 same
        · intro sameIdentity sameRevision
          rcases perform_kinds cached identity call with ⟨nothing, -⟩ | ⟨-, new⟩
          · rw [nothing, List.append_nil] at logged logged'
            exact fresh.determined handed logged handed' logged' sameIdentity sameRevision
          · rcases List.mem_append.mp logged with old | now <;>
              rcases List.mem_append.mp logged' with old' | now'
            · exact fresh.determined handed old handed' old' sameIdentity sameRevision
            · obtain ⟨identity', revision', persistent'⟩ := new handed' now'
              exact ((before handed old (sameIdentity.trans identity')).2
                (sameRevision.trans revision')).trans persistent'.symm
            · obtain ⟨identity', revision', persistent'⟩ := new handed now
              exact persistent'.trans ((before handed' old' (sameIdentity.symm.trans identity')).2
                (sameRevision.symm.trans revision')).symm
            · exact (new handed now).2.2.trans (new handed' now').2.2.symm
        · obtain ⟨handed, logged, built⟩ := fresh.models model member
          exact ⟨handed, List.mem_append_left _ logged, built⟩
        · exact ⟨List.mem_append_left _ (fresh.used entry member).1, (fresh.used entry member).2⟩
      exact middle.consultAll consults fun problem member => List.mem_append_right _ member

/-- Every call keeps the world fresh. -/
theorem Fresh.perform (fresh : world.Fresh) (call : WorldCall ε) : (world.perform call).Fresh := by
  cases call with
  | create =>
    refine ⟨fun object member => ?_, fun handed logged => ?_, fresh.determined, fresh.models, fresh.used⟩
    · rcases List.mem_append.mp member with old | new
      · exact fresh.cached object old
      · exact List.mem_singleton.mp new ▸ Randomized.cached_start
    · obtain ⟨object, found, current⟩ := fresh.current handed logged
      refine ⟨object, ?_, current⟩
      show (world.objects ++ [({} : Randomized)])[handed.modelIdentity]? = some object
      rw [List.getElem?_append_left (List.getElem?_eq_some_iff.mp found).1]
      exact found
  | destroy identity => exact ⟨fresh.cached, fresh.current, fresh.determined, fresh.models, fresh.used⟩
  | clearCache =>
    exact ⟨fresh.cached, fresh.current, fresh.determined, fun _ member => absurd member List.not_mem_nil,
      fresh.used⟩
  | call identity call consults => exact fresh.callOn identity call consults

theorem fresh_run (calls : List (WorldCall ε)) : (run calls).Fresh := by
  have general : ∀ (calls : List (WorldCall ε)) {world : World}, world.Fresh →
      (calls.foldl World.perform world).Fresh := by
    intro calls
    induction calls with
    | nil => exact fun fresh => fresh
    | cons call rest ih => exact fun fresh => ih (fresh.perform call)
  refine general calls ⟨?_, ?_, ?_, ?_, ?_⟩ <;>
    exact fun _ member => absurd member List.not_mem_nil

end World

/-- **The cached problem is always fresh.** After every run of calls on some objects, a call hands over
the problem built from nothing for its object: the current descriptors with their exclusions, the enabled
constraints in order and then the inline ones of this call, the enabled distributions, and the number of
the persistent constraints; and once more after the reported cycles are reset. Two problems of one
identity and revision have the same persistent constraints and distributions, and the Z3 backend never
used another model than the one it would have built. -/
theorem cached_problem_fresh {ε : Type} (calls : List (WorldCall ε)) :
    (∀ (identity : ℕ) (object : Randomized), (World.run calls).objects[identity]? = some object →
      ∀ (backend : Backend ε) (inlineConstraints : List NamedConstraint), ∃ done,
        (done = [] ∨ ∃ result,
          backend.solve false (object.rebuilt identity inlineConstraints) = .ok result ∧
          result.status = .cycleExhausted ∧ done <+: result.cycleVariables) ∧
        ((object.randomizeBy backend identity inlineConstraints).handed
            = [object.rebuilt identity inlineConstraints] ∨
          (object.randomizeBy backend identity inlineConstraints).handed
            = [object.rebuilt identity inlineConstraints,
              (object.withoutCycles done).rebuilt identity inlineConstraints])) ∧
    (∀ handed ∈ (World.run calls).log, ∀ handed' ∈ (World.run calls).log,
      handed.modelIdentity = handed'.modelIdentity → handed.modelRevision = handed'.modelRevision →
      handed.problem.constraints.take handed.persistentConstraintCount
          = handed'.problem.constraints.take handed'.persistentConstraintCount ∧
        handed.problem.distributions = handed'.problem.distributions) ∧
    ∀ entry ∈ (World.run calls).consulted, entry.2 = buildModel entry.1 := by
  have fresh := World.fresh_run calls
  refine ⟨fun identity object found backend inlineConstraints => ?_,
    fun handed logged handed' logged' sameIdentity sameRevision => ?_,
    fun entry member => (fresh.used entry member).2⟩
  · obtain ⟨-, -, done, -, reported, handedOver, -⟩ := Randomized.randomizeBy_spec
      (fresh.cached object (List.mem_of_getElem? found)) backend identity inlineConstraints
    exact ⟨done, reported, handedOver⟩
  · have same := fresh.determined handed logged handed' logged' sameIdentity sameRevision
    exact ⟨congrArg (·.problem.constraints) same, congrArg (·.problem.distributions) same⟩

end Cpptb.Randomize
