/-
The coroutine scheduler, part 2: beginning, registering, resuming and ending waits.

Every function here runs to its end without entering user code. A function that ranges over a queue
is written with the fold the source's loop is; `resumeAll` is the loop
`resumed |= resume_registration(entry)` shared by the edge and the phase queues.
-/

import Cpptb.Coro.State

namespace Cpptb.Coro

open Function (update)

/-! ### Edge interest -/

namespace EdgeTable

/-- `edge_queue_index`. -/
def queueIndex (signal : Nat) (kind : EdgeKind) : Nat := signal * 3 + kind.index

/-- `interest_mask`. -/
def interestMask (counts : Nat → Nat) : EdgeInterest where
  rising := counts EdgeKind.rising.index != 0 || counts EdgeKind.any.index != 0
  falling := counts EdgeKind.falling.index != 0 || counts EdgeKind.any.index != 0

/-- `edge_interest`. -/
def edgeInterest (e : EdgeTable) (signal : Nat) : EdgeInterest :=
  interestMask (e.interestCounts signal)

/-- The end of `record_edge_interest_change`: count the change and queue the signal once. -/
def publish (e : EdgeTable) (signal : Nat) : EdgeTable :=
  let e := { e with interestGeneration := e.interestGeneration + 1 }
  if e.changePending signal then e
  else { e with
    changePending := update e.changePending signal true
    changes := e.changes ++ [signal] }

/-- `record_edge_interest_change`. -/
def recordEdgeInterestChange (e : EdgeTable) (signal : Nat) (previous : EdgeInterest) : EdgeTable :=
  let current := e.edgeInterest signal
  if e.stickySources signal then
    let newInterest := current.minus (e.stickyInterest signal)
    if newInterest = .none then e
    else publish { e with
      stickyInterest := update e.stickyInterest signal
        ((e.stickyInterest signal).union newInterest) } signal
  else if current = previous then e
  else publish e signal

/-- Overwrite one counter of `edge_interest_counts_`. -/
def setCount (e : EdgeTable) (signal edge count : Nat) : EdgeTable :=
  { e with
    interestCounts := update e.interestCounts signal (update (e.interestCounts signal) edge count) }

/-- `add_edge_interest`. -/
def addEdgeInterest (e : EdgeTable) (stateIndex queueIndex : Nat) : EdgeTable :=
  let signal := queueIndex / 3
  let edge := queueIndex % 3
  if e.staticSources signal then e
  else
    let previous := e.edgeInterest signal
    let e := e.setCount signal edge (e.interestCounts signal edge + 1)
    let e := { e with
      waitIndicesByState := update e.waitIndicesByState stateIndex
        (e.waitIndicesByState stateIndex ++ [queueIndex]) }
    e.recordEdgeInterestChange signal previous

/-- One iteration of the loop of `remove_edge_interests`. -/
def dropInterest (e : EdgeTable) (queueIndex : Nat) : EdgeTable :=
  let signal := queueIndex / 3
  let edge := queueIndex % 3
  let previous := e.edgeInterest signal
  if e.interestCounts signal edge = 0 then { e with underflow := true }
  else (e.setCount signal edge (e.interestCounts signal edge - 1)).recordEdgeInterestChange
    signal previous

/-- `remove_edge_interests`. -/
def removeEdgeInterests (e : EdgeTable) (stateIndex : Nat) : EdgeTable :=
  let e := (e.waitIndicesByState stateIndex).foldl dropInterest e
  { e with waitIndicesByState := update e.waitIndicesByState stateIndex [] }

/-- The edge part of `end_wait`, for the counts of the state that stops waiting. -/
def endWait (e : EdgeTable) (stateIndex edgeWaitCount fallingEdgeWaitCount : Nat) : EdgeTable :=
  let e := e.removeEdgeInterests stateIndex
  { e with
    staleRegistrations := e.staleRegistrations + edgeWaitCount
    fallingRegistrations := e.fallingRegistrations - fallingEdgeWaitCount }

/-- The table part of `register_edge_wait`. -/
def registerEdgeWait (e : EdgeTable) (signal : Nat) (kind : EdgeKind) (r : WaitRegistration) :
    EdgeTable :=
  let index := queueIndex signal kind
  let e := { e with
    queueCount := max e.queueCount (index + 1)
    waiters := update e.waiters index (e.waiters index ++ [r])
    queueEntries := e.queueEntries + 1 }
  let e := e.addEdgeInterest r.stateIndex index
  if kind = .rising then e
  else { e with fallingRegistrations := e.fallingRegistrations + 1 }

/-- `consume_edge_interest_change`. -/
def consumeEdgeInterestChange (e : EdgeTable) : EdgeTable × Option (Nat × EdgeInterest) :=
  match e.changes with
  | [] => (e, none)
  | signal :: rest =>
      ({ e with changes := rest, changePending := update e.changePending signal false },
        some (signal, e.edgeInterest signal))

end EdgeTable

/-! ### Phase counters -/

namespace PhaseTable

/-- One iteration of the phase loop of `end_wait`. -/
def endPhase (t : PhaseTable) (stateIndex : Nat) (phase : Phase) : PhaseTable :=
  let count := t.waitCountsByState stateIndex phase
  if t.waiterCounts phase < count then { t with underflow := true }
  else { t with
    waiterCounts := update t.waiterCounts phase (t.waiterCounts phase - count)
    waitCountsByState := update t.waitCountsByState stateIndex
      (update (t.waitCountsByState stateIndex) phase 0) }

/-- The phase part of `end_wait`. -/
def endWait (t : PhaseTable) (stateIndex : Nat) : PhaseTable :=
  ((t.endPhase stateIndex .readWrite).endPhase stateIndex .readOnly).endPhase stateIndex
    .nextTimeStep

/-- The phase part of `register_wait`. -/
def register (t : PhaseTable) (phase : Phase) (r : WaitRegistration) : PhaseTable :=
  { t with
    waiters := update t.waiters phase (t.waiters phase ++ [r])
    waiterCounts := update t.waiterCounts phase (t.waiterCounts phase + 1)
    waitCountsByState := update t.waitCountsByState r.stateIndex
      (update (t.waitCountsByState r.stateIndex) phase
        (t.waitCountsByState r.stateIndex phase + 1)) }

/-- No phase wait of this state is counted. -/
def Idle (t : PhaseTable) (stateIndex : Nat) : Prop :=
  t.waitCountsByState stateIndex .readWrite = 0 ∧ t.waitCountsByState stateIndex .readOnly = 0 ∧
    t.waitCountsByState stateIndex .nextTimeStep = 0

instance (t : PhaseTable) (stateIndex : Nat) : Decidable (t.Idle stateIndex) :=
  inferInstanceAs (Decidable (_ ∧ _))

end PhaseTable

/-! ### Timers -/

namespace TimerRegistration

/-- The order the timers are popped in: `TimerRegistrationLater` with its arguments exchanged. -/
def Before (left right : TimerRegistration) : Prop :=
  left.deadline < right.deadline ∨
    (left.deadline = right.deadline ∧ left.sequence ≤ right.sequence)

instance : DecidableRel Before := fun _ _ => inferInstanceAs (Decidable (_ ∨ _))

end TimerRegistration

namespace TimerTable

/-- The loop of `discard_stale_timers` on the cached timer, the heap and the changed flag. -/
def discardFrom (valid : WaitRegistration → Bool) :
    Option TimerRegistration → List TimerRegistration → Bool → TimerTable → TimerTable
  | some timer, waiters, changed, t =>
      if valid timer.wait then
        { t with next := some timer, waiters := waiters, scheduleChanged := changed }
      else
        match waiters with
        | [] => { t with next := none, waiters := [], scheduleChanged := true }
        | earliest :: rest => discardFrom valid (some earliest) rest true t
  | none, [], changed, t => { t with next := none, waiters := [], scheduleChanged := changed }
  | none, earliest :: rest, changed, t => discardFrom valid (some earliest) rest changed t

/-- `discard_stale_timers`. -/
def discardStaleTimers (t : TimerTable) (valid : WaitRegistration → Bool) : TimerTable :=
  discardFrom valid t.next t.waiters t.scheduleChanged t

/-- `next_timer_deadline`: the deadline, after the stale timers are discarded. -/
def deadline (t : TimerTable) : Nat :=
  match t.next with
  | none => maxTime
  | some timer => timer.deadline

/-- `push_timer`. -/
def push (t : TimerTable) (timer : TimerRegistration) : TimerTable :=
  match t.next with
  | none => { t with next := some timer }
  | some next =>
      if next.Before timer then
        { t with waiters := t.waiters.orderedInsert TimerRegistration.Before timer }
      else
        { t with
          next := some timer
          waiters := t.waiters.orderedInsert TimerRegistration.Before next }

/-- The delay case of `register_wait`, after the delay is validated. -/
def register (t : TimerTable) (valid : WaitRegistration → Bool) (deadline : Nat)
    (r : WaitRegistration) : TimerTable :=
  let t := t.discardStaleTimers valid
  let previous := t.deadline
  let t := ({ t with nextSequence := t.nextSequence + 1 }).push ⟨deadline, t.nextSequence, r⟩
  if deadline < previous then { t with scheduleChanged := true } else t

end TimerTable

namespace Scheduler

/-! ### Readiness -/

/-- The coroutine in a slot. -/
def handleAt (s : Scheduler) (index : Nat) : Nat := ((s.states index).handle).getD 0

/-- The entries `drain_ready_queue` has yet to take. -/
def readyEntries (s : Scheduler) : List Nat := s.ready.queue.drop s.ready.cursor

/-- An entry of this slot lies before the first entry of a ready coroutine. -/
def overtakes (s : Scheduler) (index : Nat) : Bool :=
  (s.readyEntries.dropWhile (· != index)).any fun other =>
    (s.states other).ready && !(s.readyEntries.takeWhile (· != index)).contains other

/-- `make_ready`. The cause is a ghost. -/
def makeReady (s : Scheduler) (index : Nat) (cause : ReadyCause) : Scheduler :=
  if s.stateCount ≤ index then s
  else if (s.states index).done || (s.states index).ready then s
  else { s with
    states := update s.states index { s.states index with ready := true }
    ready := { s.ready with
      liveCount := s.ready.liveCount + 1, queue := s.ready.queue ++ [index] }
    history := .readied (s.handleAt index) cause (s.overtakes index) :: s.history }

/-- `clear_ready`. -/
def clearReady (s : Scheduler) (index : Nat) : Scheduler :=
  if (s.states index).ready then { s with
    states := update s.states index { s.states index with ready := false }
    ready := { s.ready with liveCount := s.ready.liveCount - 1 }
    history := .unreadied (s.handleAt index) :: s.history }
  else s

/-! ### Beginning and ending a wait -/

/-- `end_wait`. -/
def endWait (s : Scheduler) (index : Nat) : Scheduler :=
  let state := s.states index
  if state.waiting then
    let s := { s with
      states := update s.states index { state with waiting := false }
      diagnosticStates := update s.diagnosticStates index
        { s.diagnosticStates index with
          hasWait := false, waitDeadline := maxTime, waitProgress := {} }
      history := .ended state.waitGeneration :: s.history }
    if state.edgeWaitCount = 0 ∧ s.phases.Idle index then s
    else { s with
      states := update s.states index
        { state with waiting := false, edgeWaitCount := 0, fallingEdgeWaitCount := 0 }
      edges := s.edges.endWait index state.edgeWaitCount state.fallingEdgeWaitCount
      phases := s.phases.endWait index }
  else s

/-- `begin_wait`. The generation it returns is `nextWaitGeneration` of the result. -/
def beginWait (s : Scheduler) (index : Nat) (diagnostic : WaitDiagnostic) : Scheduler :=
  let s := if (s.states index).waiting then s.endWait index else s
  let s := s.clearReady index
  let generation := s.nextWaitGeneration + 1
  { s with
    states := update s.states index
      { s.states index with waiting := true, waitGeneration := generation }
    diagnosticStates := update s.diagnosticStates index
      { s.diagnosticStates index with
        wait := diagnostic, hasWait := true, waitStarted := s.now, waitDeadline := maxTime
        waitProgress := diagnostic.reason.progress }
    nextWaitGeneration := generation
    history := .began (s.handleAt index) index generation :: s.history }

/-! ### Registering -/

/-- `validate_delay`: the diagnostic it aborts with, if any. -/
def validateDelay (s : Scheduler) (femtoseconds : Nat) : Option Fault :=
  if femtoseconds = 0 then some .zeroDelay
  else if femtoseconds % s.femtosecondsPerTick ≠ 0 then some .delayNotRepresentable
  else none

/-- The deadline of a delay that starts now. -/
def deadlineAfter (s : Scheduler) (femtoseconds : Nat) : Nat :=
  let ticks := femtoseconds / s.femtosecondsPerTick
  if maxTime - s.now < ticks then maxTime else s.now + ticks

/-- Change the diagnostic state of one slot. -/
def modifyDiagnostic (s : Scheduler) (index : Nat)
    (change : CoroutineDiagnosticState → CoroutineDiagnosticState) : Scheduler :=
  { s with diagnosticStates := update s.diagnosticStates index (change (s.diagnosticStates index)) }

/-- `register_edge_wait`. -/
def registerEdgeWait (s : Scheduler) (signal : Nat) (kind : EdgeKind) (r : WaitRegistration) :
    Scheduler :=
  let state := s.states r.stateIndex
  { s with
    waitRegistered := true
    edges := s.edges.registerEdgeWait signal kind r
    states := update s.states r.stateIndex { state with
      edgeWaitCount := state.edgeWaitCount + 1
      fallingEdgeWaitCount := state.fallingEdgeWaitCount + (if kind = .rising then 0 else 1) }
    history := .registered (.edge signal kind) r :: s.history }

/-- The delay case of `register_wait`. -/
def registerDelay (s : Scheduler) (femtoseconds : Nat) (r : WaitRegistration) : Scheduler :=
  match s.validateDelay femtoseconds with
  | some fault => { s with fault := some fault }
  | none =>
      let deadline := s.deadlineAfter femtoseconds
      let s := s.modifyDiagnostic r.stateIndex fun d =>
        { d with
          waitProgress := { d.waitProgress with time := true }
          waitDeadline := min d.waitDeadline deadline }
      { s with
        waitRegistered := true
        timers := s.timers.register (registrationValid s.states) deadline r
        history := .registered (.delay deadline s.timers.nextSequence) r :: s.history }

/-- The phase case of `register_wait`. -/
def registerPhase (s : Scheduler) (phase : Phase) (r : WaitRegistration) : Scheduler :=
  if s.currentPhase = .readOnly ∧ phase ≠ .nextTimeStep then
    { s with fault := some .phaseAfterReadOnly }
  else
    let s := s.modifyDiagnostic r.stateIndex fun d =>
      { d with waitProgress := { d.waitProgress with simulator := true } }
    { s with
      waitRegistered := true
      phases := s.phases.register phase r
      history := .registered (.phase phase) r :: s.history }

/-- `register_wait`. -/
def registerWait (s : Scheduler) (request : WaitRequest) (r : WaitRegistration) : Scheduler :=
  match request with
  | .edge signal kind =>
      (s.modifyDiagnostic r.stateIndex fun d =>
        { d with waitProgress := { d.waitProgress with simulator := true } }).registerEdgeWait
        signal kind r
  | .delay femtoseconds => s.registerDelay femtoseconds r
  | .phase phase => s.registerPhase phase r

/-! ### Resuming -/

/-- Tell the `First` awaiter of a registration which trigger it was. -/
def setWinner (s : Scheduler) (r : WaitRegistration) : Scheduler :=
  match r.winner with
  | some slot => { s with winners := update s.winners slot (some r.winnerIndex) }
  | none => s

/-- `resume_registration`; it returns `registrationValid` of the states it was called in. -/
def resumeRegistration (s : Scheduler) (r : WaitRegistration) : Scheduler :=
  let s := s.record (.fired r)
  if registrationValid s.states r then
    ((s.endWait r.stateIndex).setWinner r).makeReady r.stateIndex (.registration r)
  else s

/-- Resume every registration of a list, in order. -/
def resumeAll (s : Scheduler) : List WaitRegistration → Scheduler × Bool
  | [] => (s, false)
  | r :: rest =>
      let after := (s.resumeRegistration r).resumeAll rest
      (after.1, registrationValid s.states r || after.2)

/-- Take one entry out of the two edge-queue counters, as the loop of `resume_edge_queue` does. -/
def uncountEdgeEntry (s : Scheduler) : Scheduler :=
  let stale := s.edges.staleRegistrations
  { s with
    edges := { s.edges with
      queueEntries := s.edges.queueEntries - 1
      staleRegistrations := if stale ≠ 0 then stale - 1 else stale } }

/-- The loop of `resume_edge_queue`. -/
def resumeEdgeEntries (s : Scheduler) : List WaitRegistration → Scheduler × Bool
  | [] => (s, false)
  | r :: rest =>
      let after := (s.resumeRegistration r).uncountEdgeEntry.resumeEdgeEntries rest
      (after.1, registrationValid s.states r || after.2)

/-- `resume_edge_queue`. -/
def resumeEdgeQueue (s : Scheduler) (queueIndex : Nat) : Scheduler × Bool :=
  if s.edges.queueCount ≤ queueIndex then (s, false)
  else
    let after := s.resumeEdgeEntries (s.edges.waiters queueIndex)
    let edges := after.1.edges
    ({ after.1 with edges := { edges with waiters := update edges.waiters queueIndex [] } }, after.2)

/-- The queues of `resume_edge`: the edge's own, and for a specific edge the any-edge queue. -/
def resumeEdgeQueues (s : Scheduler) (signal : Nat) (kind : EdgeKind) : Scheduler × Bool :=
  let specific := s.resumeEdgeQueue (EdgeTable.queueIndex signal kind)
  if kind = .any then specific
  else
    let any := specific.1.resumeEdgeQueue (EdgeTable.queueIndex signal .any)
    (any.1, specific.2 || any.2)

/-- The loop of `resume_phase` and the removal of the entries it resumed. -/
def resumePhaseQueue (s : Scheduler) (phase : Phase) : Scheduler × Bool :=
  let queue := s.phases.waiters phase
  let after := s.resumeAll queue
  let phases := after.1.phases
  let rest := (phases.waiters phase).drop queue.length
  ({ after.1 with phases := { phases with waiters := update phases.waiters phase rest } }, after.2)

/-- `compact_stale_edge_queues`. -/
def compactStaleEdgeQueues (s : Scheduler) : Scheduler :=
  if s.edges.staleRegistrations < 64 ∨
      s.edges.staleRegistrations * 2 < s.edges.queueEntries then s
  else
    let kept := fun index => (s.edges.waiters index).filter (registrationValid s.states)
    let removed : Nat := ((List.range s.edges.queueCount).map fun index =>
      (s.edges.waiters index).length - (kept index).length).sum
    { s with
      edges := { s.edges with
        waiters := fun index =>
          if index < s.edges.queueCount then kept index else s.edges.waiters index
        queueEntries := s.edges.queueEntries - removed
        staleRegistrations := s.edges.staleRegistrations - removed } }

/-! ### Time -/

/-- `discard_stale_timers`. -/
def discardStaleTimers (s : Scheduler) : Scheduler :=
  { s with timers := s.timers.discardStaleTimers (registrationValid s.states) }

/-- `next_timer_deadline`. -/
def nextTimerDeadline (s : Scheduler) : Scheduler × Nat :=
  let s := s.discardStaleTimers
  (s, s.timers.deadline)

/-- The loop of `advance_time`, at most `fuel` times: the scheduler, `popped` and `resumed`. -/
def advanceLoop : Nat → Scheduler → Bool → Bool → Scheduler × Bool × Bool
  | 0, s, popped, resumed => (s, popped, resumed)
  | fuel + 1, s, popped, resumed =>
      let s := s.discardStaleTimers
      match s.timers.next with
      | none => (s, popped, resumed)
      | some timer =>
          if s.now < timer.deadline then (s, popped, resumed)
          else
            let s := { s with timers := { s.timers with next := none } }
            advanceLoop fuel (s.resumeRegistration timer.wait) true
              (resumed || registrationValid s.states timer.wait)

/-- `advance_time` up to its last statement. The third component is false when it returned early,
the second is `resumed`. Each iteration takes one timer, so the fuel is their number. -/
def advanceTimers (s : Scheduler) (time : Nat) : Scheduler × Bool × Bool :=
  let s := { s with currentPhase := .evaluation, now := time }
  match s.timers.next with
  | none => (s, false, false)
  | some timer =>
      if s.now < timer.deadline then (s, false, false)
      else
        let after := s.advanceLoop (s.timers.waiters.length + 2) false false
        let s := if after.2.1 then
            { after.1 with timers := { after.1.timers with scheduleChanged := true } }
          else after.1
        (s, after.2.2, true)

end Scheduler

end Cpptb.Coro
