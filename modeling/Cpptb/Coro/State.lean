/-
The coroutine scheduler, part 1: what it stores.

`Scheduler` holds the data of `cpptb::coro::Scheduler`, of the promises in the coroutine frames and
of the `JoinState` and `ProcessControl` objects it points to. Vectors indexed by a state index, a
signal or a queue index are total functions with the source's default beyond the end; the length is
kept where the source reads it. Generations, sequence numbers and coroutine ids are unbounded (the
source counts them in 64 bits from zero, one per wait); a deadline saturates at `maxTime` as it does
there.

The counters the scheduler maintains incrementally (`size_t` members that are only ever stepped up
and down) are integers: a decrement below zero, which the source would wrap, shows as a negative
value instead of being cut off.

* A coroutine frame is named by the id `adopt` gives it, and `TaskPromise` is the frame's promise.
* `history` is a ghost: it records what happened, newest first, and no function reads it.
* `fault` is set where the source prints a diagnostic and aborts.
-/

import Mathlib

namespace Cpptb.Coro

open Function (update)

/-! ### Kinds of waits -/

/-- `EdgeKind`. -/
inductive EdgeKind
  | rising
  | falling
  | any
  deriving DecidableEq, Repr

/-- `static_cast<size_t>(edge)`. -/
def EdgeKind.index : EdgeKind → Nat
  | .rising => 0
  | .falling => 1
  | .any => 2

/-- The `WaitKind`s that are simulator phases. -/
inductive Phase
  | readWrite
  | readOnly
  | nextTimeStep
  deriving DecidableEq, Repr

/-- `SimulationPhase`. -/
inductive SimulationPhase
  | evaluation
  | readWrite
  | readOnly
  | nextTimeStep
  deriving DecidableEq, Repr

/-- `simulation_phase`. -/
def Phase.simulationPhase : Phase → SimulationPhase
  | .readWrite => .readWrite
  | .readOnly => .readOnly
  | .nextTimeStep => .nextTimeStep

/-- `WaitRequest`: a signal edge, a delay in femtoseconds or a simulator phase. -/
inductive WaitRequest
  | edge (signal : Nat) (kind : EdgeKind)
  | delay (femtoseconds : Nat)
  | phase (kind : Phase)
  deriving DecidableEq, Repr

/-- The bits of an `EdgeInterest` mask. -/
structure EdgeInterest where
  rising : Bool := false
  falling : Bool := false
  deriving DecidableEq, Repr

namespace EdgeInterest

/-- `kEdgeInterestNone`. -/
def none : EdgeInterest := {}

/-- `left | right`. -/
def union (left right : EdgeInterest) : EdgeInterest :=
  ⟨left.rising || right.rising, left.falling || right.falling⟩

/-- `left & ~right`. -/
def minus (left right : EdgeInterest) : EdgeInterest :=
  ⟨left.rising && !right.rising, left.falling && !right.falling⟩

/-- Every bit of `left` is set in `right`. -/
def Within (left right : EdgeInterest) : Prop :=
  (left.rising → right.rising) ∧ (left.falling → right.falling)

instance (left right : EdgeInterest) : Decidable (left.Within right) :=
  inferInstanceAs (Decidable (_ ∧ _))

end EdgeInterest

/-- `WaitReason`. -/
inductive WaitReason
  | none | task | process | join | risingEdge | fallingEdge | edge | delay
  | readWrite | readOnly | nextTimeStep | event | queueGet | queuePut
  | semaphore | lock | timeout | first
  deriving DecidableEq, Repr

/-- A `std::source_location`: file name and line (zero when default constructed). -/
structure SourceLocation where
  file : String := ""
  line : Nat := 0
  deriving DecidableEq, Repr

/-- `WaitDiagnostic`. -/
structure WaitDiagnostic where
  reason : WaitReason := .none
  resource : String := ""
  resourceType : String := ""
  location : SourceLocation := {}
  resourceDeclaration : SourceLocation := {}
  deriving DecidableEq, Repr

/-- The bits of `wait_progress`. -/
structure WaitProgress where
  internal : Bool := false
  time : Bool := false
  simulator : Bool := false
  deriving DecidableEq, Repr

/-- The progress bit `begin_wait` derives from the reason of a wait. -/
def WaitReason.progress : WaitReason → WaitProgress
  | .delay | .timeout => { time := true }
  | .risingEdge | .fallingEdge | .edge | .readWrite | .readOnly | .nextTimeStep =>
      { simulator := true }
  | .none | .task | .process | .join | .event | .queueGet | .queuePut | .semaphore | .lock
  | .first => { internal := true }

/-- `std::numeric_limits<uint64_t>::max()`. -/
def maxTime : Nat := 18446744073709551615

/-! ### Registrations and per-coroutine records -/

/-- `WaitRegistration`. `winner` is the address of the `First` awaiter's winner slot. -/
structure WaitRegistration where
  stateIndex : Nat
  generation : Nat
  winner : Option Nat := none
  winnerIndex : Nat := 0
  deriving DecidableEq, Repr

/-- `TimerRegistration`. -/
structure TimerRegistration where
  deadline : Nat
  sequence : Nat
  wait : WaitRegistration
  deriving DecidableEq, Repr

/-- `CoroutineState`: one slot of `states_`. -/
structure CoroutineState where
  handle : Option Nat := none
  waitGeneration : Nat := 0
  edgeWaitCount : Nat := 0
  fallingEdgeWaitCount : Nat := 0
  waiting : Bool := false
  ready : Bool := false
  done : Bool := false
  deriving DecidableEq, Repr

/-- `CoroutineDiagnosticState`. -/
structure CoroutineDiagnosticState where
  wait : WaitDiagnostic := {}
  id : Nat := 0
  waitStarted : Nat := 0
  waitDeadline : Nat := maxTime
  waitProgress : WaitProgress := {}
  hasWait : Bool := false
  deriving DecidableEq, Repr

/-! ### Frames, joins and processes -/

/-- A `void*` execution context: a caller's pointer, or the context inside an owned control. -/
inductive ExecutionContext
  | pointer (address : Nat)
  | owned (control : Nat)
  deriving DecidableEq, Repr

/-- `ProcessExecutionContext`. -/
structure ProcessExecutionContext where
  owner : Nat := 0
  id : Nat := 0
  parentId : Nat := 0
  description : String := ""
  declaration : SourceLocation := {}
  deriving DecidableEq, Repr

/-- `TaskPromiseBase`. An exception is named by a number. -/
structure TaskPromise where
  continuation : Option Nat := none
  joinState : Option Nat := none
  exception : Option Nat := none
  executionContext : Option ExecutionContext := none
  stateIndex : Nat := 0
  deriving DecidableEq, Repr

/-- `JoinState`. `parent` and `generation` are ghosts: the coroutine that started it and the wait it
was started for. -/
structure JoinState where
  remaining : Nat := 0
  parentIndex : Nat := 0
  exception : Option Nat := none
  parent : Nat := 0
  generation : Nat := 0
  deriving DecidableEq, Repr

/-- `ProcessControl` and the context of an `OwnedProcessControl`. `attached` says that the
`scheduler` pointer is set; `handlerOwner` is the completion handler's owner, which for an owned
process is its own context, named by the control. -/
structure ProcessControl where
  attached : Bool := false
  completionWaiter : Option WaitRegistration := none
  extraCompletionWaiters : List WaitRegistration := []
  exception : Option Nat := none
  handlerOwner : Option Nat := none
  stateIndex : Option Nat := none
  schedulerSlot : Option Nat := none
  done : Bool := false
  cancelled : Bool := false
  cancellationRequested : Bool := false
  context : Option ProcessExecutionContext := none
  deriving DecidableEq, Repr

/-! ### The tables -/

/-- The edge queues and the edge-interest bookkeeping. `underflow` is the abort of
`remove_edge_interests`. -/
structure EdgeTable where
  waiters : Nat → List WaitRegistration := fun _ => []
  queueCount : Nat := 0
  waitIndicesByState : Nat → List Nat := fun _ => []
  interestCounts : Nat → Nat → Nat := fun _ _ => 0
  changePending : Nat → Bool := fun _ => false
  staticSources : Nat → Bool := fun _ => false
  stickySources : Nat → Bool := fun _ => false
  stickyInterest : Nat → EdgeInterest := fun _ => .none
  changes : List Nat := []
  interestGeneration : Nat := 0
  fallingRegistrations : Int := 0
  queueEntries : Int := 0
  staleRegistrations : Int := 0
  underflow : Bool := false

/-- The phase queues and their counters. `underflow` is the abort of `end_wait`. -/
structure PhaseTable where
  waiters : Phase → List WaitRegistration := fun _ => []
  waiterCounts : Phase → Nat := fun _ => 0
  waitCountsByState : Nat → Phase → Nat := fun _ _ => 0
  underflow : Bool := false

/-- `timer_waiters_` in the order its priority queue pops it, and the timer cached in front. -/
structure TimerTable where
  waiters : List TimerRegistration := []
  next : Option TimerRegistration := none
  nextSequence : Nat := 0
  scheduleChanged : Bool := false

/-- `ready_`, `ready_cursor_` and `live_ready_count_`. -/
structure ReadyQueue where
  queue : List Nat := []
  cursor : Nat := 0
  liveCount : Int := 0

/-- Why a coroutine was made ready. -/
inductive ReadyCause
  | started
  | deferred
  | registration (r : WaitRegistration)
  | joined (generation : Nat)
  deriving DecidableEq, Repr

/-- What a registration waits for: a delay has a deadline and a sequence number. -/
inductive WaitSource
  | edge (signal : Nat) (kind : EdgeKind)
  | delay (deadline sequence : Nat)
  | phase (kind : Phase)
  | process (control : Nat)
  deriving DecidableEq, Repr

/-- What happened, for the ghost history. `overtakes` says that an entry already in the ready queue
will resume the coroutine before one that was made ready earlier. -/
inductive Event
  | began (handle stateIndex generation : Nat)
  | ended (generation : Nat)
  | registered (source : WaitSource) (r : WaitRegistration)
  | parkedExternal (r : WaitRegistration)
  | fired (r : WaitRegistration)
  | joinCompleted (generation : Nat)
  | readied (handle : Nat) (cause : ReadyCause) (overtakes : Bool)
  | unreadied (handle : Nat)
  | resumed (handle : Nat)
  deriving DecidableEq, Repr

/-- The diagnostics the scheduler aborts with. -/
inductive Fault
  | phaseAfterReadOnly
  | zeroDelay
  | delayNotRepresentable
  | notRegistered
  | invalidProcess
  | unhandledException
  | awaitedNotComplete
  | timedTaskNotOwned
  | lateEdgeSourceConfiguration
  deriving DecidableEq, Repr

/-- The scheduler. -/
structure Scheduler where
  states : Nat → CoroutineState := fun _ => {}
  stateCount : Nat := 0
  diagnosticStates : Nat → CoroutineDiagnosticState := fun _ => {}
  freeStates : List Nat := []
  finishedStates : List (Option Nat) := []
  finishedRootStates : List (Option Nat) := []
  promises : Nat → TaskPromise := fun _ => {}
  joinStates : Nat → JoinState := fun _ => {}
  nextJoinState : Nat := 0
  controls : Nat → ProcessControl := fun _ => {}
  nextControl : Nat := 0
  processByState : Nat → Option Nat := fun _ => none
  processControls : Nat → Option Nat := fun _ => none
  processControlCount : Nat := 0
  freeProcessSlots : List Nat := []
  pendingCancellations : List Nat := []
  edges : EdgeTable := {}
  phases : PhaseTable := {}
  timers : TimerTable := {}
  ready : ReadyQueue := {}
  winners : Nat → Option Nat := fun _ => none
  inlineProcessDepth : Nat := 0
  now : Nat := 0
  nextWaitGeneration : Nat := 0
  nextCoroutineId : Nat := 0
  currentExecutionContext : Option ExecutionContext := none
  currentStateIndex : Option Nat := none
  activeCoroutines : Int := 0
  femtosecondsPerTick : Nat := 1000000
  currentPhase : SimulationPhase := .evaluation
  draining : Bool := false
  reclaiming : Bool := false
  waitRegistered : Bool := false
  history : List Event := []
  fault : Option Fault := none

/-- `registration_valid`, on the states. -/
def registrationValid (states : Nat → CoroutineState) (r : WaitRegistration) : Bool :=
  (states r.stateIndex).handle.isSome && !(states r.stateIndex).done &&
    (states r.stateIndex).waiting && (states r.stateIndex).waitGeneration == r.generation

/-- `external_wait_alive`, on the states, for a scheduler that has not been destroyed. -/
def externalWaitAlive (states : Nat → CoroutineState) (r : WaitRegistration) : Bool :=
  (states r.stateIndex).handle.isSome && !(states r.stateIndex).done &&
    (states r.stateIndex).waitGeneration == r.generation

namespace Scheduler

/-- The state of a new `Scheduler` of the given precision. -/
def create (femtosecondsPerTick : Nat) : Scheduler :=
  { femtosecondsPerTick := femtosecondsPerTick }

/-- Append to the ghost history. -/
def record (s : Scheduler) (event : Event) : Scheduler :=
  { s with history := event :: s.history }

/-- The program has aborted. -/
def aborted (s : Scheduler) : Bool := s.fault.isSome || s.edges.underflow || s.phases.underflow

end Scheduler

end Cpptb.Coro
