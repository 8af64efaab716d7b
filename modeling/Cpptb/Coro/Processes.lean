/-
The coroutine scheduler, part 3: adopting, finishing, cancelling and reclaiming coroutines.

A frame's destructors are user code, so the functions that destroy a frame stop there: they return
the frame, and the machine of part 4 runs its destructors. A completion callback runs inside
`complete_process`; the only scheduler call it may make is a cancellation request, which is deferred
because a coroutine finishes inside a drain (`requests` lists them).
-/

import Cpptb.Coro.Waits

namespace Cpptb.Coro

open Function (update)

namespace Scheduler

/-! ### Adopting and spawning -/

/-- The slot `adopt` takes: the last freed one, or a new one. -/
def adoptIndex (s : Scheduler) : Nat :=
  match s.freeStates with
  | [] => s.stateCount
  | index :: _ => index

/-- The frame `adopt` gives a name to. -/
def adoptHandle (s : Scheduler) : Nat := s.nextCoroutineId + 1

/-- `adopt`, for a frame whose promise the caller has filled in. -/
def adopt (s : Scheduler) (promise : TaskPromise) : Scheduler :=
  { s with
    states := update s.states s.adoptIndex { handle := some s.adoptHandle }
    stateCount := if s.freeStates.isEmpty then s.stateCount + 1 else s.stateCount
    freeStates := s.freeStates.tail
    diagnosticStates := update s.diagnosticStates s.adoptIndex { id := s.adoptHandle }
    promises := update s.promises s.adoptHandle { promise with stateIndex := s.adoptIndex }
    nextCoroutineId := s.adoptHandle
    activeCoroutines := s.activeCoroutines + 1 }

/-- Enter a control into `process_controls_` and `process_by_state_`. -/
def createControl (s : Scheduler) (index : Nat) (control : ProcessControl) : Scheduler :=
  let slot := match s.freeProcessSlots with
    | [] => s.processControlCount
    | slot :: _ => slot
  { s with
    controls := update s.controls s.nextControl
      { control with attached := true, stateIndex := some index, schedulerSlot := some slot }
    nextControl := s.nextControl + 1
    processControls := update s.processControls slot (some s.nextControl)
    processControlCount := if s.freeProcessSlots.isEmpty then s.processControlCount + 1
      else s.processControlCount
    freeProcessSlots := s.freeProcessSlots.tail
    processByState := update s.processByState index (some s.nextControl) }

/-- `spawn`, up to `drain_ready`. -/
def spawn (s : Scheduler) (executionContext : Option ExecutionContext)
    (handlerOwner : Option Nat) : Scheduler :=
  ((s.adopt { executionContext := executionContext }).createControl s.adoptIndex
    { handlerOwner := handlerOwner }).makeReady s.adoptIndex .started

/-- `spawn_owned`, up to `drain_ready`. -/
def spawnOwned (s : Scheduler) (context : ProcessExecutionContext) : Scheduler :=
  ((s.adopt { executionContext := some (.owned s.nextControl) }).createControl s.adoptIndex
    { handlerOwner := some s.nextControl, context := some context }).makeReady s.adoptIndex .started

/-- `spawn_detached`, up to `drain_ready`. -/
def spawnDetached (s : Scheduler) (executionContext : Option ExecutionContext) : Scheduler :=
  (s.adopt { executionContext := executionContext }).makeReady s.adoptIndex .started

/-- `state_matches`. -/
def stateMatches (s : Scheduler) (handle : Nat) : Bool :=
  (s.states (s.promises handle).stateIndex).handle == some handle

/-! ### Parking -/

/-- The registration of the wait a slot has just begun, with no winner slot. -/
def currentRegistration (s : Scheduler) (index : Nat) : WaitRegistration :=
  { stateIndex := index, generation := s.nextWaitGeneration }

/-- `park`. -/
def park (s : Scheduler) (index : Nat) (request : WaitRequest) (diagnostic : WaitDiagnostic) :
    Scheduler :=
  let s := s.beginWait index diagnostic
  s.registerWait request (s.currentRegistration index)

/-- `park_edge`. -/
def parkEdge (s : Scheduler) (index signal : Nat) (kind : EdgeKind) (diagnostic : WaitDiagnostic) :
    Scheduler :=
  let s := s.beginWait index diagnostic
  s.registerEdgeWait signal kind (s.currentRegistration index)

/-- The loop of `park_first`: the triggers from position `winnerIndex` on. -/
def registerFirst (s : Scheduler) (index winner : Nat) : Nat → List WaitRequest → Scheduler
  | _, [] => s
  | winnerIndex, request :: rest =>
      let r := { s.currentRegistration index with winner := some winner, winnerIndex := winnerIndex }
      (s.registerWait request r).registerFirst index winner (winnerIndex + 1) rest

/-- `park_first`. -/
def parkFirst (s : Scheduler) (index : Nat) (requests : List WaitRequest) (winner : Nat)
    (diagnostic : WaitDiagnostic) : Scheduler :=
  (s.beginWait index diagnostic).registerFirst index winner 0 requests

/-- `park_external`; the registration it returns is `currentRegistration` of the result. -/
def parkExternal (s : Scheduler) (index : Nat) (diagnostic : WaitDiagnostic) : Scheduler :=
  let s := s.beginWait index diagnostic
  s.record (.parkedExternal (s.currentRegistration index))

/-- `park_process` on a process that is not done: its second test of `done` follows statements that
do not change it. -/
def parkProcess (s : Scheduler) (index control : Nat) (diagnostic : WaitDiagnostic) : Scheduler :=
  let s := s.beginWait index diagnostic
  let r := s.currentRegistration index
  let process := s.controls control
  let process := match process.completionWaiter with
    | none => { process with completionWaiter := some r }
    | some _ => { process with extraCompletionWaiters := process.extraCompletionWaiters ++ [r] }
  { s with
    controls := update s.controls control process
    history := .registered (.process control) r :: s.history }

/-- The loop of `start_join`: adopt the children and make them ready. -/
def startChildren (s : Scheduler) (joinState : Nat) (executionContext : Option ExecutionContext) :
    Nat → Scheduler
  | 0 => s
  | count + 1 =>
      let index := s.adoptIndex
      ((s.adopt { joinState := some joinState, executionContext := executionContext }).makeReady
        index .started).startChildren joinState executionContext count

/-- Allocate a `JoinState` for the wait a slot has just begun. -/
def createJoinState (s : Scheduler) (index remaining : Nat) : Scheduler :=
  { s with
    joinStates := update s.joinStates s.nextJoinState
      { remaining := remaining, parentIndex := index
        parent := s.handleAt index, generation := s.nextWaitGeneration }
    nextJoinState := s.nextJoinState + 1 }

/-- `start_join`, for children that are valid tasks. -/
def startJoin (s : Scheduler) (index childCount : Nat) (diagnostic : WaitDiagnostic) : Scheduler :=
  let executionContext := (s.promises (s.handleAt index)).executionContext
  let joinState := s.nextJoinState
  ((s.beginWait index diagnostic).createJoinState index childCount).startChildren joinState
    executionContext childCount

/-- `start_timeout`, up to `child.resume()`. -/
def startTimeout (s : Scheduler) (index : Nat) (diagnostic : WaitDiagnostic) : Scheduler :=
  let executionContext := (s.promises (s.handleAt index)).executionContext
  let joinState := s.nextJoinState
  ((s.beginWait index diagnostic).createJoinState index 1).adopt
    { joinState := some joinState, executionContext := executionContext }

/-! ### Completing -/

/-- Change one process control. -/
def modifyControl (s : Scheduler) (control : Nat) (change : ProcessControl → ProcessControl) :
    Scheduler :=
  { s with controls := update s.controls control (change (s.controls control)) }

/-- `cancel_process` while the scheduler is draining. -/
def requestCancellation (s : Scheduler) (control : Nat) : Scheduler :=
  let process := s.controls control
  if !process.attached || process.done || process.cancellationRequested then s
  else { s with
    controls := update s.controls control { process with cancellationRequested := true }
    pendingCancellations := s.pendingCancellations ++ [control] }

/-- `resume_completion_waiters`. -/
def resumeCompletionWaiters (s : Scheduler) (control : Nat) : Scheduler :=
  let process := s.controls control
  let s := match process.completionWaiter with
    | some r => s.resumeRegistration r
    | none => s
  let s := (s.resumeAll process.extraCompletionWaiters).1
  s.modifyControl control fun process =>
    { process with completionWaiter := none, extraCompletionWaiters := [] }

/-- The completion callback runs: always if the process is not owned, else only for an exception of
a process that was not cancelled. -/
def callbackRuns (process : ProcessControl) (cancelled : Bool) : Bool :=
  process.handlerOwner.isSome &&
    (process.context.isNone || (!cancelled && process.exception.isSome))

/-- The first statements of `complete_process`: the process is done. -/
def endProcess (s : Scheduler) (control : Nat) (cancelled : Bool) : Scheduler :=
  s.modifyControl control fun process =>
    { process with
      done := true, cancelled := cancelled, cancellationRequested := false
      handlerOwner := if process.context.isNone then none else process.handlerOwner }

/-- `complete_process`, with the cancellations its callback requests. -/
def completeProcess (s : Scheduler) (control : Nat) (cancelled : Bool) (requests : List Nat) :
    Scheduler :=
  let process := s.controls control
  if process.done then s
  else
    let s := s.endProcess control cancelled
    let s := if callbackRuns process cancelled then requests.foldl requestCancellation s else s
    s.resumeCompletionWaiters control

/-- The statements `finish` and `cancel_state` share: the state is done and no longer active. -/
def markDone (s : Scheduler) (index : Nat) : Scheduler :=
  { s with
    states := update s.states index { s.states index with done := true }
    activeCoroutines := if s.activeCoroutines ≠ 0 then s.activeCoroutines - 1
      else s.activeCoroutines }

/-- A coroutine awaited by another, or by a join or a timeout. -/
def isChild (promise : TaskPromise) : Bool := promise.continuation.isSome || promise.joinState.isSome

/-- Store the exception that ended a frame in its promise. -/
def setException (s : Scheduler) (handle : Nat) (exception : Option Nat) : Scheduler :=
  { s with promises := update s.promises handle { s.promises handle with exception := exception } }

/-- The part of `finish` for a frame nobody awaits. -/
def finishRoot (s : Scheduler) (index : Nat) (exception : Option Nat) (requests : List Nat) :
    Scheduler :=
  match s.processByState index with
  | some control =>
      (s.modifyControl control fun process => { process with exception := exception })
        |>.completeProcess control false requests
  | none => if exception.isSome then { s with fault := some .unhandledException } else s

/-- `finish`, for a frame that left its body with the given exception. -/
def finish (s : Scheduler) (handle : Nat) (exception : Option Nat) (requests : List Nat) :
    Scheduler :=
  let s := s.setException handle exception
  let promise := s.promises handle
  let index := promise.stateIndex
  if (s.states index).handle ≠ some handle then s
  else
    let s := if (s.states index).waiting then s.endWait index else s
    let s := (s.clearReady index).markDone index
    if isChild promise then { s with finishedStates := s.finishedStates ++ [some index] }
    else
      let s := s.finishRoot index exception requests
      { s with finishedRootStates := s.finishedRootStates ++ [some index] }

/-- One child of a join is finished. -/
def countOff (s : Scheduler) (joinState : Nat) (exception : Option Nat) : Scheduler :=
  let join := s.joinStates joinState
  { s with
    joinStates := update s.joinStates joinState
      { join with
        exception := join.exception.or exception, remaining := join.remaining - 1 } }

/-- The end of `finish_join_child`, when no child is left. -/
def resumeParent (s : Scheduler) (join : JoinState) : Scheduler :=
  let s := s.record (.joinCompleted join.generation)
  let parent := s.states join.parentIndex
  if s.stateCount ≤ join.parentIndex then s
  else if parent.done || !parent.waiting then s
  else (s.endWait join.parentIndex).makeReady join.parentIndex (.joined join.generation)

/-- `finish_join_child`. -/
def finishJoinChild (s : Scheduler) (joinState : Nat) (exception : Option Nat) : Scheduler :=
  if (s.joinStates joinState).remaining = 0 then s
  else
    let s := s.countOff joinState exception
    let join := s.joinStates joinState
    if join.remaining ≠ 0 then s else s.resumeParent join

/-! ### Cancelling -/

/-- The children `cancel_state` collects: the live coroutines whose continuation is this slot's frame
or whose join parent is this slot. -/
def childrenOf (s : Scheduler) (index : Nat) : List Nat :=
  (List.range s.stateCount).filter fun candidate =>
    candidate != index &&
      match (s.states candidate).handle with
      | none => false
      | some handle =>
          !(s.states candidate).done &&
            ((s.promises handle).continuation == (s.states index).handle ||
              match (s.promises handle).joinState with
              | some joinState => (s.joinStates joinState).parentIndex == index
              | none => false)

/-- The statements of `cancel_state` on the state: it stops waiting, is not ready and is done. -/
def retireState (s : Scheduler) (index : Nat) : Scheduler :=
  let s := s.endWait index
  let generation := s.nextWaitGeneration + 1
  let s := { s with
    states := update s.states index { s.states index with waitGeneration := generation }
    nextWaitGeneration := generation }
  (s.clearReady index).markDone index

/-- Nobody awaits the frame any more. -/
def orphan (s : Scheduler) (handle : Nat) : Scheduler :=
  { s with
    promises := update s.promises handle
      { s.promises handle with continuation := none, joinState := none } }

/-- The part of `cancel_state` after its children are cancelled. -/
def retire (s : Scheduler) (index : Nat) : Scheduler :=
  let s := s.retireState index
  let handle := s.handleAt index
  let child := isChild (s.promises handle)
  let s := s.orphan handle
  let s := match s.processByState index with
    | some control => s.completeProcess control true []
    | none => s
  if child then { s with finishedStates := s.finishedStates ++ [some index] }
  else { s with finishedRootStates := s.finishedRootStates ++ [some index] }

/-- `cancel_state`, to the given depth. -/
def cancelStateTo : Nat → Scheduler → Nat → Scheduler
  | 0, s, _ => s
  | depth + 1, s, index =>
      if s.stateCount ≤ index then s
      else if (s.states index).done then s
      else ((s.childrenOf index).foldl (cancelStateTo depth) s).retire index

/-- `cancel_state`. A child is adopted after its parent, so the ids bound the depth. -/
def cancelState (s : Scheduler) (index : Nat) : Scheduler :=
  cancelStateTo (s.nextCoroutineId + 1) s index

/-- The host must look at the timers again. -/
def touchTimers (s : Scheduler) : Scheduler :=
  { s with timers := { s.timers with scheduleChanged := true } }

/-- `cancel_process` outside a drain, up to `drain_ready`. -/
def cancelProcess (s : Scheduler) (control : Nat) : Scheduler :=
  let process := s.controls control
  let s := s.modifyControl control fun process => { process with cancellationRequested := true }
  match process.stateIndex with
  | some index => (s.cancelState index).touchTimers
  | none => s.touchTimers

/-- One iteration of `apply_pending_cancellations`. -/
def applyCancellation (s : Scheduler) (control : Nat) : Scheduler :=
  let process := s.controls control
  if !process.attached || process.done then s
  else
    match process.stateIndex with
    | some index => (s.cancelState index).touchTimers
    | none => s.touchTimers

/-- `apply_pending_cancellations`. -/
def applyPendingCancellations (s : Scheduler) : Scheduler :=
  { s.pendingCancellations.foldl applyCancellation s with pendingCancellations := [] }

/-- `cancel_awaited`. -/
def cancelAwaited (s : Scheduler) (handle : Nat) : Scheduler :=
  if !s.stateMatches handle then { s with fault := some .timedTaskNotOwned }
  else
    let index := (s.promises handle).stateIndex
    if (s.states index).done then s else (s.cancelState index).touchTimers

/-! ### Reclaiming -/

/-- Free a slot. -/
def freeState (s : Scheduler) (index : Nat) : Scheduler :=
  { s with states := update s.states index {}, freeStates := index :: s.freeStates }

/-- The first entry for a state becomes the sentinel. -/
def forgetFinished (index : Nat) : List (Option Nat) → List (Option Nat)
  | [] => []
  | entry :: rest => if entry = some index then none :: rest else entry :: forgetFinished index rest

/-- `awaited_done`. -/
def awaitedDone (s : Scheduler) (handle : Nat) : Bool :=
  s.stateMatches handle && (s.states (s.promises handle).stateIndex).done

/-- `reclaim_awaited`, up to the destruction of the frame. -/
def reclaimAwaited (s : Scheduler) (handle : Nat) : Scheduler :=
  let index := (s.promises handle).stateIndex
  if !s.awaitedDone handle then { s with fault := some .awaitedNotComplete }
  else
    let finished := if s.finishedStates.getLast? = some (some index) then s.finishedStates.dropLast
      else forgetFinished index s.finishedStates
    ({ s with finishedStates := finished }).freeState index

/-- The part of `reclaim_finished_state` that detaches a control. -/
def detachControl (s : Scheduler) (control : Nat) : Scheduler :=
  let process := s.controls control
  let s := s.modifyControl control fun process =>
    { process with
      attached := false, stateIndex := none, schedulerSlot := none
      handlerOwner := if process.context.isSome then none else process.handlerOwner }
  match process.schedulerSlot with
  | none => s
  | some slot =>
      if s.processControls slot = some control then { s with
        processControls := update s.processControls slot none
        freeProcessSlots := slot :: s.freeProcessSlots }
      else s

/-- `reclaim_finished_state`, up to the destruction of the frame, which it returns. -/
def reclaimFinishedState (s : Scheduler) (entry : Option Nat) : Scheduler × Option Nat :=
  match entry with
  | none => (s, none)
  | some index =>
      match (s.states index).handle with
      | none => (s, none)
      | some handle =>
          if !(s.states index).done then (s, none)
          else
            let control := s.processByState index
            let s := ({ s with
              processByState := update s.processByState index none }).freeState index
            let s := match control with
              | some control => s.detachControl control
              | none => s
            (s, some handle)

end Scheduler

end Cpptb.Coro
