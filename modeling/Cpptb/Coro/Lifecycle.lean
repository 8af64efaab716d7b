/-
What the waits do to the coroutines.

`Slot` is the part of a `CoroutineState` that says what its coroutine is doing, `Posted` the
registrations in the queues, and `Surroundings` everything that resuming, ending or beginning a wait
leaves alone. Each function of part 2 is described by its effect on the slots (`slot_endWait`,
`slot_resumeRegistration_self`, ...), by the equality of the surroundings, and by the registrations
its history hands out (`Handed`).
-/

import Cpptb.Coro.Machine

namespace Cpptb.Coro

open Function (update)

/-- What the coroutine of a slot is doing. -/
structure Slot where
  handle : Option Nat
  generation : Nat
  waiting : Bool
  ready : Bool
  done : Bool
  deriving DecidableEq

/-- The slot part of a coroutine state. -/
def CoroutineState.slot (state : CoroutineState) : Slot :=
  ⟨state.handle, state.waitGeneration, state.waiting, state.ready, state.done⟩

/-- The registrations in the queues. -/
structure Posted where
  edges : Nat → List WaitRegistration
  phases : Phase → List WaitRegistration
  timers : TimerTable

/-- The event hands a registration to a queue or to user code. -/
def Event.handsOut : Event → Bool
  | .registered _ _ | .parkedExternal _ => true
  | _ => false

/-- What resuming, ending or beginning a wait does not change. -/
structure Surroundings where
  posted : Posted
  handouts : List Event
  stateCount : Nat
  freeStates : List Nat
  finishedStates : List (Option Nat)
  finishedRootStates : List (Option Nat)
  promises : Nat → TaskPromise
  joinStates : Nat → JoinState
  nextJoinState : Nat
  controls : Nat → ProcessControl
  nextControl : Nat
  processByState : Nat → Option Nat
  pendingCancellations : List Nat
  nextCoroutineId : Nat
  draining : Bool

/-! ### The queues and the counters -/

namespace EdgeTable

theorem waiters_recordEdgeInterestChange (e : EdgeTable) (signal : Nat) (previous : EdgeInterest) :
    (e.recordEdgeInterestChange signal previous).waiters = e.waiters := by
  unfold recordEdgeInterestChange publish
  simp only
  split
  · split
    · rfl
    · split <;> rfl
  · split
    · rfl
    · split <;> rfl

theorem waiters_dropInterest (e : EdgeTable) (queueIndex : Nat) :
    (e.dropInterest queueIndex).waiters = e.waiters := by
  unfold dropInterest
  simp only
  split
  · rfl
  · exact waiters_recordEdgeInterestChange _ _ _

theorem waiters_dropInterests (indices : List Nat) (e : EdgeTable) :
    (indices.foldl dropInterest e).waiters = e.waiters := by
  induction indices generalizing e with
  | nil => rfl
  | cons index rest ih => exact (ih (e.dropInterest index)).trans (waiters_dropInterest e index)

theorem waiters_endWait (e : EdgeTable) (stateIndex edgeWaitCount fallingEdgeWaitCount : Nat) :
    (e.endWait stateIndex edgeWaitCount fallingEdgeWaitCount).waiters = e.waiters :=
  waiters_dropInterests (e.waitIndicesByState stateIndex) e

end EdgeTable

namespace PhaseTable

theorem waiters_endPhase (t : PhaseTable) (stateIndex : Nat) (phase : Phase) :
    (t.endPhase stateIndex phase).waiters = t.waiters := by
  unfold endPhase
  simp only
  split <;> rfl

theorem waiters_endWait (t : PhaseTable) (stateIndex : Nat) :
    (t.endWait stateIndex).waiters = t.waiters := by
  unfold endWait
  simp only [waiters_endPhase]

end PhaseTable

namespace Scheduler

/-- The slot at an index. -/
def slot (s : Scheduler) (index : Nat) : Slot := (s.states index).slot

/-- The registrations in the queues of a scheduler. -/
def posted (s : Scheduler) : Posted := ⟨s.edges.waiters, s.phases.waiters, s.timers⟩

/-- The registrations handed out so far. -/
def handouts (s : Scheduler) : List Event := s.history.filter Event.handsOut

/-- The surroundings of a scheduler. -/
def surroundings (s : Scheduler) : Surroundings where
  posted := s.posted
  handouts := s.handouts
  stateCount := s.stateCount
  freeStates := s.freeStates
  finishedStates := s.finishedStates
  finishedRootStates := s.finishedRootStates
  promises := s.promises
  joinStates := s.joinStates
  nextJoinState := s.nextJoinState
  controls := s.controls
  nextControl := s.nextControl
  processByState := s.processByState
  pendingCancellations := s.pendingCancellations
  nextCoroutineId := s.nextCoroutineId
  draining := s.draining

/-- A coroutine that has been adopted and is not done. -/
def Live (s : Scheduler) (index : Nat) : Prop :=
  (s.slot index).handle.isSome ∧ (s.slot index).done = false

/-- A queue was given this registration. -/
def Registered (s : Scheduler) (r : WaitRegistration) : Prop :=
  ∃ source, Event.registered source r ∈ s.handouts

/-- User code was given this registration. -/
def External (s : Scheduler) (r : WaitRegistration) : Prop := Event.parkedExternal r ∈ s.handouts

/-- The registration was handed out. -/
def Handed (s : Scheduler) (r : WaitRegistration) : Prop := s.Registered r ∨ s.External r

theorem registrationValid_iff (s : Scheduler) (r : WaitRegistration) :
    registrationValid s.states r = true ↔
      s.Live r.stateIndex ∧ (s.slot r.stateIndex).waiting = true ∧
        (s.slot r.stateIndex).generation = r.generation := by
  simp only [registrationValid, Live, slot, CoroutineState.slot, Bool.and_eq_true,
    Bool.not_eq_true', beq_iff_eq, and_assoc]

theorem externalWaitAlive_iff (s : Scheduler) (r : WaitRegistration) :
    externalWaitAlive s.states r = true ↔
      s.Live r.stateIndex ∧ (s.slot r.stateIndex).generation = r.generation := by
  simp only [externalWaitAlive, Live, slot, CoroutineState.slot, Bool.and_eq_true,
    Bool.not_eq_true', beq_iff_eq]

/-! ### The functions of part 2 on slots -/

/-- Writing one state, seen through its slot. -/
theorem slot_update (states : Nat → CoroutineState) (index k : Nat) (state : CoroutineState) :
    (update states index state k).slot = if k = index then state.slot else (states k).slot := by
  by_cases same : k = index
  · subst same
    rw [Function.update_self, if_pos rfl]
  · rw [Function.update_of_ne same, if_neg same]

theorem slot_endWait (s : Scheduler) (index k : Nat) :
    (s.endWait index).slot k =
      if k = index then { s.slot index with waiting := false } else s.slot k := by
  unfold endWait
  by_cases waiting : (s.states index).waiting = true
  · simp only [waiting, if_true]
    split
    · exact slot_update _ _ _ _
    · refine (slot_update _ _ _ _).trans ?_
      by_cases same : k = index
      · rw [if_pos same, if_pos same]
        rfl
      · rw [if_neg same, if_neg same]
        exact (slot_update _ _ _ _).trans (if_neg same)
  · simp only [waiting]
    by_cases same : k = index
    · subst same
      simp [slot, CoroutineState.slot, waiting]
    · simp [same]

theorem surroundings_endWait (s : Scheduler) (index : Nat) :
    (s.endWait index).surroundings = s.surroundings := by
  unfold endWait
  simp only
  split
  · split
    · rfl
    · simp only [surroundings, posted, EdgeTable.waiters_endWait, PhaseTable.waiters_endWait]
      rfl
  · rfl

theorem slot_clearReady (s : Scheduler) (index k : Nat) :
    (s.clearReady index).slot k =
      if k = index then { s.slot index with ready := false } else s.slot k := by
  unfold clearReady
  by_cases ready : (s.states index).ready = true
  · simp only [ready, if_true]
    exact slot_update _ _ _ _
  · simp only [ready]
    by_cases same : k = index
    · subst same
      simp [slot, CoroutineState.slot, ready]
    · simp [same]

theorem surroundings_clearReady (s : Scheduler) (index : Nat) :
    (s.clearReady index).surroundings = s.surroundings := by
  unfold clearReady
  split <;> rfl

theorem slot_makeReady_of_ne (s : Scheduler) {index k : Nat} (cause : ReadyCause)
    (other : k ≠ index) : (s.makeReady index cause).slot k = s.slot k := by
  unfold makeReady
  split
  · rfl
  · split
    · rfl
    · exact (slot_update _ _ _ _).trans (if_neg other)

theorem slot_makeReady_self (s : Scheduler) {index : Nat} (cause : ReadyCause)
    (inside : index < s.stateCount) (live : (s.slot index).done = false) :
    (s.makeReady index cause).slot index = { s.slot index with ready := true } := by
  have notDone : (s.states index).done = false := live
  unfold makeReady
  rw [if_neg (Nat.not_le.mpr inside)]
  cases ready : (s.states index).ready with
  | true => simp [slot, CoroutineState.slot, ready, notDone]
  | false =>
      rw [if_neg (by simp [notDone])]
      exact (slot_update _ _ _ _).trans (if_pos rfl)

theorem surroundings_makeReady (s : Scheduler) (index : Nat) (cause : ReadyCause) :
    (s.makeReady index cause).surroundings = s.surroundings := by
  unfold makeReady
  split
  · rfl
  · split <;> rfl

theorem surroundings_beginWait (s : Scheduler) (index : Nat) (diagnostic : WaitDiagnostic) :
    (s.beginWait index diagnostic).surroundings = s.surroundings := by
  unfold beginWait
  simp only
  split
  · exact (surroundings_clearReady _ _).trans (surroundings_endWait _ _)
  · exact surroundings_clearReady _ _

theorem nextWaitGeneration_endWait (s : Scheduler) (index : Nat) :
    (s.endWait index).nextWaitGeneration = s.nextWaitGeneration := by
  unfold endWait
  simp only
  split
  · split <;> rfl
  · rfl

theorem nextWaitGeneration_clearReady (s : Scheduler) (index : Nat) :
    (s.clearReady index).nextWaitGeneration = s.nextWaitGeneration := by
  unfold clearReady
  split <;> rfl

theorem nextWaitGeneration_makeReady (s : Scheduler) (index : Nat) (cause : ReadyCause) :
    (s.makeReady index cause).nextWaitGeneration = s.nextWaitGeneration := by
  unfold makeReady
  split
  · rfl
  · split <;> rfl

theorem nextWaitGeneration_beginWait (s : Scheduler) (index : Nat) (diagnostic : WaitDiagnostic) :
    (s.beginWait index diagnostic).nextWaitGeneration = s.nextWaitGeneration + 1 := by
  unfold beginWait
  simp only [nextWaitGeneration_clearReady]
  split
  · rw [nextWaitGeneration_endWait]
  · rfl

theorem slot_beginWait (s : Scheduler) (index k : Nat) (diagnostic : WaitDiagnostic) :
    (s.beginWait index diagnostic).slot k =
      if k = index then
        { s.slot index with
          waiting := true, ready := false, generation := s.nextWaitGeneration + 1 }
      else s.slot k := by
  have ended : ∀ j, (if (s.states index).waiting then s.endWait index else s).slot j =
      if j = index then { s.slot index with waiting := false } else s.slot j := by
    intro j
    by_cases waiting : (s.states index).waiting = true
    · rw [if_pos waiting]
      exact slot_endWait s index j
    · rw [if_neg waiting]
      by_cases same : j = index
      · subst same
        simp [slot, CoroutineState.slot, waiting]
      · rw [if_neg same]
  have kept : (if (s.states index).waiting then s.endWait index else s).nextWaitGeneration =
      s.nextWaitGeneration := by
    split
    · exact nextWaitGeneration_endWait s index
    · rfl
  unfold beginWait
  simp only
  refine (slot_update _ _ _ _).trans ?_
  by_cases same : k = index
  · subst same
    rw [if_pos rfl, if_pos rfl]
    have cleared := slot_clearReady (if (s.states k).waiting then s.endWait k else s) k k
    rw [if_pos rfl, ended k, if_pos rfl] at cleared
    have handle := congrArg Slot.handle cleared
    have done := congrArg Slot.done cleared
    have ready := congrArg Slot.ready cleared
    simp only [slot, CoroutineState.slot] at handle done ready
    simp only [CoroutineState.slot, slot, handle, done, ready, nextWaitGeneration_clearReady, kept]
  · rw [if_neg same, if_neg same]
    exact (slot_clearReady _ _ _).trans ((if_neg same).trans ((ended k).trans (if_neg same)))

theorem slot_registerEdgeWait (s : Scheduler) (signal : Nat) (kind : EdgeKind)
    (r : WaitRegistration) (k : Nat) : (s.registerEdgeWait signal kind r).slot k = s.slot k := by
  refine (slot_update _ _ _ _).trans ?_
  split
  · rename_i same
    subst same
    rfl
  · rfl

theorem slot_registerWait (s : Scheduler) (request : WaitRequest) (r : WaitRegistration)
    (k : Nat) : (s.registerWait request r).slot k = s.slot k := by
  cases request with
  | edge signal kind => exact slot_registerEdgeWait _ signal kind r k
  | delay femtoseconds =>
      unfold registerWait registerDelay
      simp only
      split <;> rfl
  | phase phase =>
      unfold registerWait registerPhase
      simp only
      split <;> rfl

theorem surroundings_registerWait (s : Scheduler) (request : WaitRequest) (r : WaitRegistration) :
    (s.registerWait request r).surroundings =
      { s.surroundings with
        posted := (s.registerWait request r).posted
        handouts := (s.registerWait request r).handouts } := by
  cases request with
  | edge signal kind => rfl
  | delay femtoseconds =>
      unfold registerWait registerDelay
      simp only
      split <;> rfl
  | phase phase =>
      unfold registerWait registerPhase
      simp only
      split <;> rfl

theorem nextWaitGeneration_registerWait (s : Scheduler) (request : WaitRequest)
    (r : WaitRegistration) :
    (s.registerWait request r).nextWaitGeneration = s.nextWaitGeneration := by
  cases request with
  | edge signal kind => rfl
  | delay femtoseconds =>
      unfold registerWait registerDelay
      simp only
      split <;> rfl
  | phase phase =>
      unfold registerWait registerPhase
      simp only
      split <;> rfl

theorem slot_setWinner (s : Scheduler) (r : WaitRegistration) (k : Nat) :
    (s.setWinner r).slot k = s.slot k := by
  unfold setWinner
  split <;> rfl

theorem surroundings_setWinner (s : Scheduler) (r : WaitRegistration) :
    (s.setWinner r).surroundings = s.surroundings := by
  unfold setWinner
  split <;> rfl

theorem nextWaitGeneration_setWinner (s : Scheduler) (r : WaitRegistration) :
    (s.setWinner r).nextWaitGeneration = s.nextWaitGeneration := by
  unfold setWinner
  split <;> rfl

theorem surroundings_resumeRegistration (s : Scheduler) (r : WaitRegistration) :
    (s.resumeRegistration r).surroundings = s.surroundings := by
  unfold resumeRegistration
  simp only
  split
  · rw [surroundings_makeReady, surroundings_setWinner, surroundings_endWait]
    rfl
  · rfl

theorem nextWaitGeneration_resumeRegistration (s : Scheduler) (r : WaitRegistration) :
    (s.resumeRegistration r).nextWaitGeneration = s.nextWaitGeneration := by
  unfold resumeRegistration
  simp only
  split
  · rw [nextWaitGeneration_makeReady, nextWaitGeneration_setWinner, nextWaitGeneration_endWait]
    rfl
  · rfl

theorem resumeRegistration_of_invalid (s : Scheduler) (r : WaitRegistration)
    (invalid : registrationValid s.states r = false) :
    s.resumeRegistration r = s.record (.fired r) := by
  unfold resumeRegistration
  exact if_neg (by simp [record, invalid])

theorem slot_resumeRegistration_of_ne (s : Scheduler) (r : WaitRegistration) {k : Nat}
    (other : k ≠ r.stateIndex) : (s.resumeRegistration r).slot k = s.slot k := by
  unfold resumeRegistration
  simp only
  split
  · rw [slot_makeReady_of_ne _ _ other, slot_setWinner, slot_endWait, if_neg other]
    rfl
  · rfl

theorem slot_resumeRegistration_self (s : Scheduler) (r : WaitRegistration)
    (inside : r.stateIndex < s.stateCount) (valid : registrationValid s.states r = true) :
    (s.resumeRegistration r).slot r.stateIndex =
      { s.slot r.stateIndex with waiting := false, ready := true } := by
  have live := ((registrationValid_iff s r).mp valid).1
  have ended : (((s.record (.fired r)).endWait r.stateIndex).setWinner r).slot r.stateIndex =
      { s.slot r.stateIndex with waiting := false } := by
    rw [slot_setWinner, slot_endWait, if_pos rfl]
    rfl
  have count : (((s.record (.fired r)).endWait r.stateIndex).setWinner r).stateCount =
      s.stateCount :=
    congrArg Surroundings.stateCount
      ((surroundings_setWinner _ r).trans (surroundings_endWait (s.record (.fired r)) _))
  unfold resumeRegistration
  simp only
  rw [if_pos (show registrationValid (s.record (.fired r)).states r = true from valid),
    slot_makeReady_self _ _ (count.symm ▸ inside) (ended.symm ▸ live.2), ended]

theorem controls_modifyControl_self (s : Scheduler) (k : Nat)
    (change : ProcessControl → ProcessControl) :
    (s.modifyControl k change).controls k = change (s.controls k) :=
  Function.update_self ..

theorem controls_modifyControl_of_ne (s : Scheduler) {k k' : Nat}
    (change : ProcessControl → ProcessControl) (other : k' ≠ k) :
    (s.modifyControl k change).controls k' = s.controls k' :=
  Function.update_of_ne other ..

end Scheduler

end Cpptb.Coro
