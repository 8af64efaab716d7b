/-
The coroutine scheduler, part 4: who is running.

Coroutine bodies, destructors and the host are user code: they call the scheduler, and the scheduler
calls them back (`resume()`, `destroy()`), to any depth. `Machine` makes the C++ activation stack
explicit. A `Frame` is one activation, innermost first; an empty stack is the host. `Machine.step`
performs one action: a call made by the user code on top (`Call`), a suspension or the end of the
coroutine on top (`Suspension`), the return of a destructor, or one deterministic step of the
scheduler function on top (`tick`). User code chooses its actions freely, so the runs of `step` are
the runs of every program.

`Frame.object` is the return address inside a synchronization primitive; it is resumed by the
primitive's own model, never by `tick`.
-/

import Cpptb.Coro.Processes

namespace Cpptb.Coro

open Function (update)

/-- The awaiter a suspended coroutine is suspended in; `none` before its first resume. -/
inductive Awaiter
  | none
  | trigger
  | join (joinState : Nat)
  | task (child : Nat)
  | timeout (child : Nat)
  | process (control : Nat)
  | external (r : WaitRegistration)
  deriving DecidableEq, Repr

/-- The three calls of `scheduler_boundary`. -/
inductive BoundaryStage
  | roots
  | states
  | compact
  deriving DecidableEq, Repr

/-- One activation. `entering` marks a body that has been resumed and has yet to run the
`await_resume` of its awaiter. -/
inductive Frame (κ : Type)
  | body (handle : Nat) (entering : Bool)
  | destroying (handle : Nat)
  | drain (resuming : Option (Option ExecutionContext × Option Nat))
  | collect (roots : Bool) (position : Nat)
  | reclaimed
  | boundary (stage : BoundaryStage)
  | inlineRun (parent control : Nat) (context : Option ExecutionContext) (state : Option Nat)
  | inlineEnd (parent control : Nat)
  | timeoutStart (parent generation femtoseconds : Nat)
  | object (continuation : κ)
  deriving DecidableEq, Repr

/-- A call any user code may make. -/
inductive Call
  | spawn (executionContext : Option ExecutionContext) (handlerOwner : Option Nat)
  | spawnOwned (context : ProcessExecutionContext)
  | spawnDetached (executionContext : Option ExecutionContext)
  | cancel (control : Nat)
  | notifyEdge (signal : Nat) (kind : EdgeKind)
  | setTime (time : Nat)
  | notifyPhase (phase : Phase)
  | wakeExternal (r : WaitRegistration)
  | flushExternalWakes
  | consumeEdgeInterestChange
  | consumeTimerScheduleChanged
  | nextTimerDeadline
  | configureStaticEdgeSource (signal : Nat)
  | configureStickyEdgeSource (signal : Nat)
  deriving DecidableEq, Repr

/-- What ends the run of a coroutine body: a `co_await`, or its final suspension. -/
inductive Suspension
  | trigger (request : WaitRequest) (resource : String) (location : SourceLocation)
  | first (requests : List WaitRequest) (winner : Nat) (location : SourceLocation)
  | external (diagnostic : WaitDiagnostic)
  | join (childCount : Nat)
  | timeout (femtoseconds : Nat) (location : SourceLocation)
  | task
  | process (control : Nat)
  | finish (exception : Option Nat) (requests : List Nat)
  deriving DecidableEq, Repr

/-- One action of the machine. -/
inductive Action
  | call (call : Call)
  | suspend (suspension : Suspension)
  | destroyed
  | tick
  deriving DecidableEq, Repr

/-- The machine. -/
structure Machine (κ : Type) where
  sched : Scheduler
  stack : List (Frame κ) := []
  awaiters : Nat → Awaiter := fun _ => .none

namespace Scheduler

/-- `wake_external`. -/
def wakeExternal (s : Scheduler) (r : WaitRegistration) : Scheduler :=
  if registrationValid s.states r then s.resumeRegistration r else s

/-- `configure_static_edge_source`. -/
def configureStaticEdgeSource (s : Scheduler) (signal : Nat) : Scheduler :=
  if s.waitRegistered then { s with fault := some .lateEdgeSourceConfiguration }
  else
    let edges := s.edges
    { s with edges := { edges with staticSources := update edges.staticSources signal true } }

/-- `configure_sticky_edge_source`. -/
def configureStickyEdgeSource (s : Scheduler) (signal : Nat) : Scheduler :=
  if s.waitRegistered then { s with fault := some .lateEdgeSourceConfiguration }
  else
    let edges := s.edges
    { s with edges := { edges with stickySources := update edges.stickySources signal true } }

/-- `consume_edge_interest_change`, without its result. -/
def consumeEdgeInterestChange (s : Scheduler) : Scheduler :=
  { s with edges := s.edges.consumeEdgeInterestChange.1 }

/-- `consume_timer_schedule_changed`, without its result. -/
def consumeTimerScheduleChanged (s : Scheduler) : Scheduler :=
  { s with timers := { s.timers with scheduleChanged := false } }

/-- Take the next entry of the ready queue, compacting the queue as `drain_ready_queue` does. -/
def takeReadyEntry (s : Scheduler) : Scheduler :=
  let cursor := s.ready.cursor + 1
  if 1024 ≤ cursor ∧ s.ready.queue.length ≤ cursor * 2 then
    { s with ready := { s.ready with queue := s.ready.queue.drop cursor, cursor := 0 } }
  else { s with ready := { s.ready with cursor := cursor } }

/-- Enter a ready coroutine: it is no longer ready, and it is the current state. -/
def enterState (s : Scheduler) (index : Nat) : Scheduler :=
  { s with
    states := update s.states index { s.states index with ready := false }
    ready := { s.ready with liveCount := s.ready.liveCount - 1 }
    currentExecutionContext := (s.promises (s.handleAt index)).executionContext
    currentStateIndex := some index
    history := .resumed (s.handleAt index) :: s.history }

/-- Restore what was current before a resume. -/
def restoreCurrent (s : Scheduler) (context : Option ExecutionContext) (state : Option Nat) :
    Scheduler :=
  { s with currentExecutionContext := context, currentStateIndex := state }

/-- Drop the remaining entries of the ready queue, as `run_process_if_only_ready` does. -/
def dropReadyEntries (s : Scheduler) : Scheduler :=
  { s with
    ready := { s.ready with
      queue := if s.ready.queue.length = s.ready.cursor + 1 then s.ready.queue.dropLast
        else s.ready.queue.take s.ready.cursor } }

/-- The slot `run_process_if_only_ready` resumes, when its guards let it. -/
def inlineTarget (s : Scheduler) (control : Nat) : Option Nat :=
  let process := s.controls control
  match process.stateIndex with
  | none => none
  | some index =>
      if s.draining ∧ process.attached ∧ process.done = false ∧ index < s.stateCount ∧
          s.inlineProcessDepth < 64 ∧ (s.states index).handle.isSome ∧ (s.states index).ready ∧
          (s.states index).done = false ∧ s.ready.liveCount = 1 then some index
      else none

/-- `wait_diagnostic` of a trigger; only an edge names its signal. -/
def waitDiagnostic (request : WaitRequest) (resource : String) (location : SourceLocation) :
    WaitDiagnostic :=
  match request with
  | .edge _ kind =>
      let reason : WaitReason := match kind with
        | .rising => .risingEdge
        | .falling => .fallingEdge
        | .any => .edge
      { reason := reason, resource := resource, resourceType := "signal", location := location }
  | .delay _ => { reason := .delay, location := location }
  | .phase phase =>
      let reason : WaitReason := match phase with
        | .readWrite => .readWrite
        | .readOnly => .readOnly
        | .nextTimeStep => .nextTimeStep
      { reason := reason, location := location }

/-- The diagnostic of a process wait. -/
def processDiagnostic (s : Scheduler) (control : Nat) : WaitDiagnostic :=
  match (s.controls control).context with
  | none => { reason := .process }
  | some context =>
      { reason := .process, resource := context.description, location := context.declaration }

end Scheduler

namespace Machine

variable {κ : Type}

/-- The machine of a new scheduler, with the host running. -/
def create (femtosecondsPerTick : Nat) : Machine κ := { sched := .create femtosecondsPerTick }

/-- Replace the scheduler. -/
def withSched (m : Machine κ) (s : Scheduler) : Machine κ := { m with sched := s }

/-- Replace the stack. -/
def withStack (m : Machine κ) (stack : List (Frame κ)) : Machine κ := { m with stack := stack }

/-- Set the awaiter of a frame. -/
def setAwaiter (m : Machine κ) (handle : Nat) (awaiter : Awaiter) : Machine κ :=
  { m with awaiters := update m.awaiters handle awaiter }

/-! ### Calls into the scheduler that enter user code -/

/-- `drain_ready`: enter the loop, unless it is already running. -/
def drainReady (m : Machine κ) : Machine κ :=
  if m.sched.draining then m
  else { m with
    sched := { m.sched with draining := true, ready := { m.sched.ready with cursor := 0 } }
    stack := .drain none :: m.stack }

/-- `collect_finished`: enter the loop, unless frames are already being reclaimed. -/
def collectFinished (m : Machine κ) (roots : Bool) : Machine κ :=
  if m.sched.reclaiming then m
  else { m with
    sched := { m.sched with reclaiming := true }
    stack := .collect roots 0 :: m.stack }

/-- `scheduler_boundary`. -/
def schedulerBoundary (m : Machine κ) : Machine κ := m.withStack (.boundary .roots :: m.stack)

/-- The end of `resume_edge`, `advance_time` and `resume_phase`. -/
def drainOrBoundary (m : Machine κ) (resumed : Bool) : Machine κ :=
  if resumed then m.drainReady else m.schedulerBoundary

/-! ### Scheduler steps -/

/-- One iteration of `drain_ready_queue` up to `resume()`, or the end of `drain_ready`. -/
def drainNext (m : Machine κ) (rest : List (Frame κ)) : Machine κ :=
  let s := m.sched
  match s.ready.queue[s.ready.cursor]? with
  | none =>
      { m with
        sched := { s with ready := { s.ready with queue := [], cursor := 0 }, draining := false }
        stack := .boundary .roots :: rest }
  | some index =>
      let s := s.takeReadyEntry
      match (s.states index).handle with
      | none => m.withSched s
      | some handle =>
          if s.stateCount ≤ index ∨ (s.states index).done ∨ (s.states index).ready = false then
            m.withSched s
          else { m with
            sched := s.enterState index
            stack := .body handle true ::
              .drain (some (s.currentExecutionContext, s.currentStateIndex)) :: rest }

/-- The rest of the iteration, after `resume()` has returned. -/
def drainResumed (m : Machine κ) (rest : List (Frame κ)) (context : Option ExecutionContext)
    (state : Option Nat) : Machine κ :=
  (({ m with
      sched := (m.sched.restoreCurrent context state).applyPendingCancellations
      stack := .drain none :: rest } : Machine κ)).collectFinished true

/-- One iteration of `collect_finished`, or its end. -/
def collectNext (m : Machine κ) (rest : List (Frame κ)) (roots : Bool) (position : Nat) :
    Machine κ :=
  let finished := if roots then m.sched.finishedRootStates else m.sched.finishedStates
  match finished[position]? with
  | none =>
      { m with
        sched := { m.sched with
          finishedRootStates := if roots then [] else m.sched.finishedRootStates
          finishedStates := if roots then m.sched.finishedStates else []
          reclaiming := false }
        stack := rest }
  | some entry =>
      let after := m.sched.reclaimFinishedState entry
      { m with
        sched := after.1
        stack := match after.2 with
          | none => .collect roots (position + 1) :: rest
          | some handle => .destroying handle :: .collect roots (position + 1) :: rest }

/-- `run_process_if_only_ready`, after `resume()` has returned. -/
def inlineReturned (m : Machine κ) (rest : List (Frame κ)) (parent control : Nat)
    (context : Option ExecutionContext) (state : Option Nat) : Machine κ :=
  let s := { m.sched with inlineProcessDepth := m.sched.inlineProcessDepth - 1 }.restoreCurrent
    context state
  let process := s.controls control
  if process.done ∧ process.stateIndex.isSome ∧ s.finishedRootStates = [process.stateIndex] then
    let after := { s with finishedRootStates := [], reclaiming := true }.reclaimFinishedState
      process.stateIndex
    { m with
      sched := after.1
      stack := match after.2 with
        | none => .reclaimed :: .inlineEnd parent control :: rest
        | some handle => .destroying handle :: .reclaimed :: .inlineEnd parent control :: rest }
  else
    ({ m with sched := s, stack := .inlineEnd parent control :: rest } : Machine κ).collectFinished
      true

/-- `await_suspend` of a process awaiter whose parent is not deferred. -/
def awaitProcessSuspend (m : Machine κ) (rest : List (Frame κ)) (parent control : Nat) :
    Machine κ :=
  let s := m.sched
  if (s.controls control).attached = false then
    m.withSched { s with fault := some .invalidProcess }
  else
    ({ m with
      sched := s.parkProcess (s.promises parent).stateIndex control (s.processDiagnostic control)
      stack := rest } : Machine κ).setAwaiter parent (.process control)

/-- The end of `run_process_if_only_ready` after a resume, and the suspension of the parent that
follows it. -/
def inlineEnded (m : Machine κ) (rest : List (Frame κ)) (parent control : Nat) : Machine κ :=
  let s := m.sched
  let process := s.controls control
  if process.done then
    if process.exception.isSome ∨ s.pendingCancellations ≠ [] ∨ s.ready.liveCount ≠ 0 then
      ({ m with
        sched := s.makeReady (s.promises parent).stateIndex .deferred
        stack := rest } : Machine κ).setAwaiter parent (.process control)
    else m.withStack (.body parent false :: rest)
  else m.awaitProcessSuspend rest parent control

/-- `await_resume` of the awaiter the coroutine was suspended in. -/
def enter (m : Machine κ) (rest : List (Frame κ)) (handle : Nat) : Machine κ :=
  let entered := m.setAwaiter handle .none
  match m.awaiters handle with
  | .task child =>
      { entered with
        sched := m.sched.reclaimAwaited child
        stack := .destroying child :: .body handle false :: rest }
  | .timeout child =>
      if m.sched.awaitedDone child then
        { entered with
          sched := m.sched.reclaimAwaited child
          stack := .destroying child :: .body handle false :: rest }
      else
        { entered with
          sched := m.sched.cancelAwaited child
          stack := .body handle false :: rest }
  | _ => entered.withStack (.body handle false :: rest)

/-- The end of `start_timeout`, after `child.resume()` has returned. -/
def timeoutStarted (m : Machine κ) (rest : List (Frame κ)) (parent generation femtoseconds : Nat) :
    Machine κ :=
  let s := m.sched
  let r : WaitRegistration :=
    { stateIndex := (s.promises parent).stateIndex, generation := generation }
  { m with
    sched := if registrationValid s.states r then s.registerWait (.delay femtoseconds) r else s
    stack := rest }

/-- One step of the scheduler function on top of the stack. -/
def tick (m : Machine κ) : Option (Machine κ) :=
  match m.stack with
  | .body handle true :: rest => some (m.enter rest handle)
  | .drain none :: rest => some (m.drainNext rest)
  | .drain (some (context, state)) :: rest => some (m.drainResumed rest context state)
  | .collect roots position :: rest => some (m.collectNext rest roots position)
  | .reclaimed :: rest =>
      some { m with sched := { m.sched with reclaiming := false }, stack := rest }
  | .boundary .roots :: rest =>
      some ((m.withStack (.boundary .states :: rest)).collectFinished true)
  | .boundary .states :: rest =>
      some ((m.withStack (.boundary .compact :: rest)).collectFinished false)
  | .boundary .compact :: rest =>
      some { m with sched := m.sched.compactStaleEdgeQueues, stack := rest }
  | .inlineRun parent control context state :: rest =>
      some (m.inlineReturned rest parent control context state)
  | .inlineEnd parent control :: rest => some (m.inlineEnded rest parent control)
  | .timeoutStart parent generation femtoseconds :: rest =>
      some (m.timeoutStarted rest parent generation femtoseconds)
  | _ => none

/-! ### Calls of user code -/

/-- The stack's top is user code that may call the scheduler. -/
def userCode (m : Machine κ) : Bool :=
  match m.stack with
  | [] => true
  | .body _ false :: _ => true
  | .destroying _ :: _ => true
  | _ => false

/-- One call of user code. User code holds the external registrations `park_external` has handed
out, and no others. -/
def perform (m : Machine κ) : Call → Option (Machine κ)
  | .spawn executionContext handlerOwner =>
      some (m.withSched (m.sched.spawn executionContext handlerOwner)).drainReady
  | .spawnOwned context =>
      some (m.withSched (m.sched.spawnOwned context)).drainReady
  | .spawnDetached executionContext =>
      some (m.withSched (m.sched.spawnDetached executionContext)).drainReady
  | .cancel control =>
      if (m.sched.controls control).attached = false ∨ (m.sched.controls control).done then some m
      else if m.sched.draining then some (m.withSched (m.sched.requestCancellation control))
      else some (m.withSched (m.sched.cancelProcess control)).drainReady
  | .notifyEdge signal kind =>
      let after := { m.sched with currentPhase := .evaluation }.resumeEdgeQueues signal kind
      some ((m.withSched after.1).drainOrBoundary after.2)
  | .setTime time =>
      let after := m.sched.advanceTimers time
      if after.2.2 then some ((m.withSched after.1).drainOrBoundary after.2.1)
      else some (m.withSched after.1)
  | .notifyPhase phase =>
      let after := { m.sched with currentPhase := phase.simulationPhase }.resumePhaseQueue phase
      some ((m.withSched after.1).drainOrBoundary after.2)
  | .wakeExternal r =>
      if Event.parkedExternal r ∈ m.sched.history then some (m.withSched (m.sched.wakeExternal r))
      else none
  | .flushExternalWakes => some m.drainReady
  | .consumeEdgeInterestChange => some (m.withSched m.sched.consumeEdgeInterestChange)
  | .consumeTimerScheduleChanged => some (m.withSched m.sched.consumeTimerScheduleChanged)
  | .nextTimerDeadline => some (m.withSched m.sched.nextTimerDeadline.1)
  | .configureStaticEdgeSource signal =>
      some (m.withSched (m.sched.configureStaticEdgeSource signal))
  | .configureStickyEdgeSource signal =>
      some (m.withSched (m.sched.configureStickyEdgeSource signal))

/-! ### Suspensions -/

/-- `await_ready` and `await_suspend` of a process awaiter. -/
def awaitProcess (m : Machine κ) (rest : List (Frame κ)) (handle control : Nat) : Machine κ :=
  let s := m.sched
  match s.inlineTarget control with
  | some index =>
      { m with
        sched := { s.dropReadyEntries.enterState index with
          inlineProcessDepth := s.inlineProcessDepth + 1 }
        stack := .body (s.handleAt index) true ::
          .inlineRun handle control s.currentExecutionContext s.currentStateIndex :: rest }
  | none =>
      if (s.controls control).done then m.withStack (.body handle false :: rest)
      else m.awaitProcessSuspend rest handle control

/-- `FinalAwaiter::await_suspend`. -/
def finish (m : Machine κ) (rest : List (Frame κ)) (handle : Nat) (exception : Option Nat)
    (requests : List Nat) : Machine κ :=
  let s := m.sched.finish handle exception requests
  let promise := s.promises handle
  match promise.joinState with
  | some joinState =>
      { m with sched := s.finishJoinChild joinState promise.exception, stack := rest }
  | none =>
      { m with
        sched := s
        stack := match promise.continuation with
          | some parent => .body parent true :: rest
          | none => rest }

/-- One suspension of the body on top of the stack. A join has at least two children and a `First`
at least two triggers; `with_timeout` awaits its task from its own coroutine, which its caller
awaits. -/
def suspend (m : Machine κ) (rest : List (Frame κ)) (handle : Nat) :
    Suspension → Option (Machine κ)
  | .trigger request resource location =>
      let index := (m.sched.promises handle).stateIndex
      let diagnostic := Scheduler.waitDiagnostic request resource location
      some (({ m with
        sched := match request with
          | .edge signal kind => m.sched.parkEdge index signal kind diagnostic
          | _ => m.sched.park index request diagnostic
        stack := rest } : Machine κ).setAwaiter handle .trigger)
  | .first requests winner location =>
      if requests.length < 2 then none
      else some (({ m with
        sched := m.sched.parkFirst (m.sched.promises handle).stateIndex requests winner
          { reason := .first, location := location }
        stack := rest } : Machine κ).setAwaiter handle .trigger)
  | .external diagnostic =>
      let index := (m.sched.promises handle).stateIndex
      let s := m.sched.parkExternal index diagnostic
      some (({ m with sched := s, stack := rest } : Machine κ).setAwaiter handle
        (.external (s.currentRegistration index)))
  | .join childCount =>
      if childCount < 2 then none
      else some (({ m with
        sched := m.sched.startJoin (m.sched.promises handle).stateIndex childCount
          { reason := .join }
        stack := rest } : Machine κ).setAwaiter handle (.join m.sched.nextJoinState))
  | .timeout femtoseconds location =>
      if (m.sched.promises handle).continuation = none then none
      else match m.sched.validateDelay femtoseconds with
        | some fault => some (m.withSched { m.sched with fault := some fault })
        | none =>
            some (({ m with
              sched := m.sched.startTimeout (m.sched.promises handle).stateIndex
                { reason := .timeout, location := location }
              stack := .body m.sched.adoptHandle true ::
                .timeoutStart handle (m.sched.nextWaitGeneration + 1) femtoseconds ::
                rest } : Machine κ).setAwaiter handle (.timeout m.sched.adoptHandle))
  | .task =>
      some (({ m with
        sched := m.sched.adopt
          { continuation := some handle
            executionContext := (m.sched.promises handle).executionContext }
        stack := .body m.sched.adoptHandle true :: rest } : Machine κ).setAwaiter handle
          (.task m.sched.adoptHandle))
  | .process control =>
      if m.sched.nextControl ≤ control then none else some (m.awaitProcess rest handle control)
  | .finish exception requests => some (m.finish rest handle exception requests)

/-! ### The step -/

/-- One action. There is none after an abort. -/
def step (m : Machine κ) (action : Action) : Option (Machine κ) :=
  if m.sched.aborted then none
  else match action with
    | .call call => if m.userCode then m.perform call else none
    | .suspend suspension =>
        match m.stack with
        | .body handle false :: rest =>
            if m.sched.stateMatches handle then m.suspend rest handle suspension
            else some (m.withSched { m.sched with fault := some .notRegistered })
        | _ => none
    | .destroyed =>
        match m.stack with
        | .destroying _ :: rest => some (m.withStack rest)
        | _ => none
    | .tick => m.tick

end Machine

end Cpptb.Coro
