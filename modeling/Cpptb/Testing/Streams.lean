/-
The random streams of the processes of a test.

Every process draws from a generator of its own, which is made of the master seed and the number of the process when
it draws for the first time, and dropped when the process is released.

* `createProcess`, `releaseProcess`, `currentRandom`, `setRandom`: the functions of the source.
* `Streamed`, `Streamed.step`: every generator is as far as its process has drawn.
* `random_streams_isolated`: what a process draws depends on the master seed and its number alone.
-/

import Cpptb.Testing.RunState

namespace Cpptb.Testing

open Coro (ProcessExecutionContext SourceLocation)
open Randomize (Random)
open Function (update)

/-! ### The functions of the source -/

/-- The generator a process starts with. -/
def processRandom (masterSeed : UInt64) (id : Nat) : Random := reseed (deriveSeed masterSeed (UInt64.ofNat id))

namespace TestRunState

/-- `create_process`. -/
def createProcess (s : TestRunState) (m : Moment) (description : String) (location : SourceLocation) :
    TestRunState × ProcessExecutionContext :=
  ({ s with nextProcessId := s.nextProcessId + 1 },
    { owner := s.address
      id := s.nextProcessId
      parentId := ((s.currentProcess m).map ProcessExecutionContext.id).getD 0
      description := description
      declaration := location })

/-- `release_process`. -/
def releaseProcess (s : TestRunState) (process : ProcessExecutionContext) : TestRunState :=
  if process.owner = s.address then { s with processRandoms := update s.processRandoms process.id none } else s

/-- `current_random`: the generator that is found, or made. -/
def currentRandom (s : TestRunState) (m : Moment) : Random :=
  match s.currentProcess m with
  | some process => (s.processRandoms process.id).getD (processRandom s.masterRandomSeed process.id)
  | none => s.fallbackRandom

/-- What is drawn from `current_random` changes it in place. -/
def setRandom (s : TestRunState) (m : Moment) (random : Random) : TestRunState :=
  match s.currentProcess m with
  | some process => { s with processRandoms := update s.processRandoms process.id (some random) }
  | none => { s with fallbackRandom := random }

end TestRunState

/-! ### Runs -/

/-- The state of a test, and the words each process has drawn from its generator, oldest first. -/
structure RandomStreams where
  state : TestRunState
  drawn : Nat → List UInt64 := fun _ => []

/-- What happens to the streams: a process is created, a word is drawn in some context, or a process is
released. The other calls do not touch them. -/
inductive StreamAction
  | create (m : Moment) (description : String) (location : SourceLocation)
  | draw (m : Moment)
  | release (process : ProcessExecutionContext)

/-- One action. -/
def RandomStreams.step (s : RandomStreams) : StreamAction → RandomStreams
  | .create m description location => { s with state := (s.state.createProcess m description location).1 }
  | .draw m =>
      let drawn := (s.state.currentRandom m).nextU64
      { state := s.state.setRandom m drawn.2
        drawn := match s.state.currentProcess m with
          | some process => update s.drawn process.id (s.drawn process.id ++ [drawn.1])
          | none => s.drawn }
  | .release process =>
      { state := s.state.releaseProcess process
        drawn := if process.owner = s.state.address then update s.drawn process.id [] else s.drawn }

/-- The first words of a generator. -/
def firstWords (random : Random) (count : Nat) : List UInt64 :=
  (List.range count).map fun k => (next^[k] random).nextU64.1

/-- The master seed of a test. -/
def Start.seed : Start → UInt64
  | .constructed => defaultRandomSeed
  | .selected _ _ _ _ randomSeed => randomSeed

/-! ### The invariant -/

/-- Every generator is as far as its process has drawn, and gave it the words it drew. -/
structure Streamed (seed : UInt64) (s : RandomStreams) : Prop where
  seeded : s.state.masterRandomSeed = seed
  random : ∀ id, (s.state.processRandoms id).getD (processRandom seed id) =
    next^[(s.drawn id).length] (processRandom seed id)
  drawn : ∀ id, s.drawn id = firstWords (processRandom seed id) (s.drawn id).length

/-- A generator that is not made yet stands where it starts. -/
theorem getD_processRandom (seed : UInt64) (id : Nat) : (none : Option Random).getD (processRandom seed id) =
    next^[([] : List UInt64).length] (processRandom seed id) := by
  rw [Option.getD_none, List.length_nil, Function.iterate_zero_apply]

/-- An action keeps the invariant: a generator that is dropped is made again where it started. -/
theorem Streamed.step {seed : UInt64} {s : RandomStreams} (ok : Streamed seed s) (action : StreamAction) :
    Streamed seed (s.step action) := by
  cases action with
  | create m description location => exact ⟨ok.seeded, ok.random, ok.drawn⟩
  | release process =>
    unfold RandomStreams.step TestRunState.releaseProcess
    dsimp only
    split
    · refine ⟨ok.seeded, fun id => ?_, fun id => ?_⟩
      · by_cases same : id = process.id
        · subst same
          simp only [Function.update_self]
          exact getD_processRandom seed _
        · simp only [Function.update_of_ne same]
          exact ok.random id
      · by_cases same : id = process.id
        · subst same
          simp only [Function.update_self]
          rfl
        · simp only [Function.update_of_ne same]
          exact ok.drawn id
    · exact ⟨ok.seeded, ok.random, ok.drawn⟩
  | draw m =>
    cases context : s.state.currentProcess m with
    | none =>
      have drawn : s.step (.draw m) =
          { s with state := { s.state with fallbackRandom := (s.state.currentRandom m).nextU64.2 } } := by
        unfold RandomStreams.step TestRunState.setRandom
        dsimp only
        rw [context]
      rw [drawn]
      exact ⟨ok.seeded, ok.random, ok.drawn⟩
    | some process =>
      have current : s.state.currentRandom m =
          next^[(s.drawn process.id).length] (processRandom seed process.id) := by
        unfold TestRunState.currentRandom
        rw [context, ← ok.random, ok.seeded]
      have drawn : s.step (.draw m) =
          { state := { s.state with
              processRandoms := update s.state.processRandoms process.id (some (s.state.currentRandom m).nextU64.2) }
            drawn := update s.drawn process.id (s.drawn process.id ++ [(s.state.currentRandom m).nextU64.1]) } := by
        unfold RandomStreams.step TestRunState.setRandom
        dsimp only
        rw [context]
      rw [drawn, current]
      refine ⟨ok.seeded, fun id => ?_, fun id => ?_⟩
      · by_cases same : id = process.id
        · subst same
          simp only [Function.update_self, List.length_append, List.length_singleton]
          rw [Function.iterate_succ_apply', next, Option.getD_some]
        · simp only [Function.update_of_ne same]
          exact ok.random id
      · by_cases same : id = process.id
        · subst same
          simp only [Function.update_self, List.length_append, List.length_singleton]
          unfold firstWords
          rw [List.range_succ, List.map_append]
          exact congrArg (· ++ _) (ok.drawn process.id)
        · simp only [Function.update_of_ne same]
          exact ok.drawn id

/-- **The streams of the processes are isolated.** In every run the words that a process has drawn since its
generator was made are the first words of the generator of its number, whatever other processes draw, start or end
in between; and different numbers have different generators. -/
theorem random_streams_isolated (start : Start) (address : Nat) (hasSink : Bool) (level : LogLevel)
    (actions : List StreamAction) :
    (∀ id, let drawn := (actions.foldl RandomStreams.step { state := start.state address hasSink level }).drawn id
      drawn = firstWords (processRandom start.seed id) drawn.length) ∧
      Set.InjOn (processRandom start.seed) {id | id < 2 ^ 64} := by
  refine ⟨fun id => ?_, fun id inside id' inside' same => ?_⟩
  · have begun : Streamed start.seed { state := start.state address hasSink level } := by
      cases start with
      | constructed => exact ⟨rfl, getD_processRandom _, fun _ => rfl⟩
      | selected result m name metadata randomSeed =>
        cases hasSink with
        | false => exact ⟨rfl, getD_processRandom _, fun _ => rfl⟩
        | true => exact ⟨rfl, getD_processRandom _, fun _ => rfl⟩
    have all : Streamed start.seed
        (actions.foldl RandomStreams.step { state := start.state address hasSink level }) := by
      generalize ({ state := start.state address hasSink level } : RandomStreams) = s at begun
      induction actions generalizing s with
      | nil => exact begun
      | cons action rest ih => exact ih _ (begun.step action)
    exact all.drawn id
  · have numbers := congrArg UInt64.toNat (deriveSeed_injective start.seed (reseed_injective same))
    rwa [UInt64.toNat_ofNat_of_lt' inside, UInt64.toNat_ofNat_of_lt' inside'] at numbers

end Cpptb.Testing
