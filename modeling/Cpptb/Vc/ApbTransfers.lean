/-
APB transfers: master, monitor and checker agree.

While the clock is low, monitor and checker have sampled the cycle behind them; while it is high, each of
master, monitor and checker has either still to sample the present cycle or has done so, all of them at one
moment, so that they saw the same inputs.

* `LockOk`: who holds the lock, and who waits for it.
* `LowAt`, `HighAt`, `Cycle`: how the frame of the holder, the signals and the observers fit together.
* `apb_agree`: the claims about every run.
-/

import Cpptb.Vc.ApbCycles

set_option linter.unusedSectionVars false

namespace Cpptb.Vc

open Clocked
open Function (update)

variable {K A D B : Type}

/-- A frame, and whether its task is about to run. -/
abbrev ApbSpot (A D B : Type) := ApbFrame A D B × Bool

namespace ApbConfig

/-! ### The lock -/

/-- The request of a call that holds the lock. -/
def requestOf : ApbFrame A D B → Option (ApbRequest A D B)
  | .setup request | .hold request | .access request | .complete request _ | .decide request _
  | .finish request _ => some request
  | _ => none

/-- A caller outside the lock. -/
inductive Outside : ApbFrame A D B → Prop
  | idle : Outside .idle
  | queued (request : ApbRequest A D B) : Outside (.queued request)

/-- The lock and the callers, of which `holder` is inside. -/
structure LockOk (config : ApbConfig B) (lock : ApbLock K) (callers : K → ApbSpot A D B)
    (holder : Option K) : Prop where
  locked : lock.locked = (holder.isSome || lock.handoffPending)
  handed : lock.handoffPending = true → holder = none
  nodup : lock.waiters.Nodup
  queued : ∀ k, k ∈ lock.waiters ↔ ∃ request, (callers k).1 = .queued request
  fits : ∀ k request, (callers k).1 = .queued request → config.Fits request
  outside : ∀ k, holder ≠ some k → Outside (callers k).1
  inside : ∀ k, holder = some k → ¬Outside (callers k).1
  quiet : ∀ k, holder ≠ some k → (callers k).2 = true →
    lock.handoffPending = true ∧ lock.waiters.head? = some k

section Lock

variable {config : ApbConfig B} {lock : ApbLock K} {callers callers' : K → ApbSpot A D B}
  {holder : Option K} {k : K} {request : ApbRequest A D B}

/-- The frames outside stay, and nobody outside is woken. -/
theorem LockOk.congr (ok : LockOk config lock callers holder)
    (same : ∀ k, Outside (callers k).1 ∨ Outside (callers' k).1 → (callers' k).1 = (callers k).1)
    (woken : ∀ k, holder ≠ some k → (callers' k).2 = true → (callers k).2 = true) :
    LockOk config lock callers' holder where
  locked := ok.locked
  handed := ok.handed
  nodup := ok.nodup
  queued k := by
    rw [ok.queued]
    constructor
    · rintro ⟨request, here⟩
      exact ⟨request, (same k (.inl (here ▸ .queued request))).trans here⟩
    · rintro ⟨request, here⟩
      exact ⟨request, (same k (.inr (here ▸ .queued request))).symm.trans here⟩
  fits k request here :=
    ok.fits k request ((same k (.inr (here ▸ .queued request))).symm.trans here)
  outside k other := by
    have here := ok.outside k other
    exact same k (.inl here) ▸ here
  inside k isHolder here :=
    ok.inside k isHolder (same k (.inr here) ▸ here)
  quiet k other runs := ok.quiet k other (woken k other runs)

variable [DecidableEq K]

/-- The holder goes on. -/
theorem LockOk.move (ok : LockOk config lock callers (some k)) {spot : ApbSpot A D B}
    (inside : ¬Outside spot.1) : LockOk config lock (update callers k spot) (some k) := by
  refine ok.congr (fun other here => ?_) fun other away runs => ?_
  · by_cases same : other = k
    · subst same
      rw [Function.update_self] at here
      rcases here with here | here
      · exact absurd here (ok.inside other rfl)
      · exact absurd here inside
    · rw [Function.update_of_ne same]
  · have same : other ≠ k := fun same => away (by rw [same])
    rwa [Function.update_of_ne same] at runs

/-- A call that throws. -/
theorem LockOk.thrown (ok : LockOk config lock callers holder) (idle : (callers k).1 = .idle) :
    LockOk config lock (update callers k (.idle, false)) holder := by
  refine ok.congr (fun other here => ?_) fun other away runs => ?_
  · by_cases same : other = k
    · subst same
      rw [Function.update_self, idle]
    · rw [Function.update_of_ne same]
  · by_cases same : other = k
    · subst same
      rw [Function.update_self] at runs
      cases runs
    · rwa [Function.update_of_ne same] at runs

/-- A call that waits for the lock. -/
theorem LockOk.enqueue (ok : LockOk config lock callers holder) (idle : (callers k).1 = .idle)
    (fits : config.Fits request) :
    LockOk config { lock with waiters := lock.waiters ++ [k] } (update callers k (.queued request, false))
      holder := by
  have absent : k ∉ lock.waiters := by
    rw [ok.queued, idle]
    rintro ⟨_, none⟩
    cases none
  have away : holder ≠ some k := fun isHolder => ok.inside k isHolder (idle ▸ .idle)
  refine
    { locked := ok.locked
      handed := ok.handed
      nodup := ?_
      queued := fun other => ?_
      fits := fun other request' here => ?_
      outside := fun other away => ?_
      inside := fun other isHolder => ?_
      quiet := fun other away runs => ?_ }
  · rw [List.nodup_append]
    refine ⟨ok.nodup, List.nodup_singleton k, fun first member last same => ?_⟩
    rw [List.mem_singleton] at same
    rintro rfl
    exact absent (same ▸ member)
  · by_cases same : other = k
    · subst same
      simp
    · rw [Function.update_of_ne same, ← ok.queued]
      simp [same]
  · by_cases same : other = k
    · subst same
      rw [Function.update_self] at here
      cases here
      exact fits
    · rw [Function.update_of_ne same] at here
      exact ok.fits other request' here
  · by_cases same : other = k
    · subst same
      rw [Function.update_self]
      exact .queued request
    · rw [Function.update_of_ne same]
      exact ok.outside other away
  · have same : other ≠ k := fun same => away (same ▸ isHolder)
    rw [Function.update_of_ne same]
    exact ok.inside other isHolder
  · by_cases same : other = k
    · subst same
      rw [Function.update_self] at runs
      cases runs
    · rw [Function.update_of_ne same] at runs
      obtain ⟨handed, first⟩ := ok.quiet other away runs
      refine ⟨handed, ?_⟩
      rw [List.head?_append, first]
      rfl

/-- A free lock has no holder. -/
theorem LockOk.holder_of_free (ok : LockOk config lock callers holder) (free : lock.locked = false) :
    holder = none ∧ lock.handoffPending = false := by
  have locked := ok.locked
  rw [free] at locked
  cases holder with
  | none => exact ⟨rfl, by simpa using locked.symm⟩
  | some k => cases locked

/-- A call that finds the lock free. -/
theorem LockOk.acquire (ok : LockOk config lock callers none) (free : lock.locked = false)
    (idle : (callers k).1 = .idle) :
    LockOk config { lock with locked := true } (update callers k (.setup request, false)) (some k) := by
  have notHanded := (ok.holder_of_free free).2
  refine
    { locked := rfl
      handed := fun handed => absurd (notHanded.symm.trans handed) Bool.false_ne_true
      nodup := ok.nodup
      queued := fun other => ?_
      fits := fun other request' here => ?_
      outside := fun other away => ?_
      inside := fun other isHolder => ?_
      quiet := fun other away runs => ?_ }
  · by_cases same : other = k
    · subst same
      rw [Function.update_self, ok.queued, idle]
      simp
    · rw [Function.update_of_ne same]
      exact ok.queued other
  · by_cases same : other = k
    · subst same
      rw [Function.update_self] at here
      cases here
    · rw [Function.update_of_ne same] at here
      exact ok.fits other request' here
  · have same : other ≠ k := fun same => away (by rw [same])
    rw [Function.update_of_ne same]
    exact ok.outside other (by simp)
  · obtain rfl : k = other := Option.some.inj isHolder
    rw [Function.update_self]
    intro here
    cases here
  · have same : other ≠ k := fun same => away (by rw [same])
    rw [Function.update_of_ne same] at runs
    exact ok.quiet other (by simp) runs

/-- The first waiter takes the lock over. -/
theorem LockOk.takeOver (ok : LockOk config lock callers holder) (queued : (callers k).1 = .queued request)
    (runs : (callers k).2 = true) :
    holder = none ∧
      LockOk config (finishAcquire k lock) (update callers k (.setup request, false)) (some k) := by
  have away : holder ≠ some k := fun isHolder => ok.inside k isHolder (queued ▸ .queued request)
  obtain ⟨handed, first⟩ := ok.quiet k away runs
  have none := ok.handed handed
  refine ⟨none, ?_⟩
  have locked := ok.locked
  rw [none, handed] at locked
  refine
    { locked := locked
      handed := fun none => nomatch none
      nodup := ok.nodup.erase k
      queued := fun other => ?_
      fits := fun other request' here => ?_
      outside := fun other away => ?_
      inside := fun other isHolder => ?_
      quiet := fun other away' runs' => ?_ }
  · by_cases same : other = k
    · subst same
      rw [Function.update_self]
      simp [finishAcquire, ok.nodup.mem_erase_iff]
    · rw [Function.update_of_ne same, ← ok.queued]
      simp [finishAcquire, List.mem_erase_of_ne same]
  · by_cases same : other = k
    · subst same
      rw [Function.update_self] at here
      cases here
    · rw [Function.update_of_ne same] at here
      exact ok.fits other request' here
  · have same : other ≠ k := fun same => away (by rw [same])
    rw [Function.update_of_ne same]
    exact ok.outside other (by simp [none])
  · obtain rfl : k = other := Option.some.inj isHolder
    rw [Function.update_self]
    intro here
    cases here
  · have same : other ≠ k := fun same => away' (by rw [same])
    rw [Function.update_of_ne same] at runs'
    have second := (ok.quiet other (by simp [none]) runs').2
    rw [first] at second
    exact absurd (Option.some.inj second).symm same

/-- The holder releases the lock. -/
theorem LockOk.release (ok : LockOk config lock callers (some k)) (callers' : K → ApbSpot A D B)
    (same : ∀ other, (callers' other).1 = (update callers k (.idle, false) other).1)
    (woken : ∀ other, (callers' other).2 = true → (update callers k (.idle, false) other).2 = true ∨
      other ∈ (ApbConfig.release lock).2) :
    LockOk config (ApbConfig.release lock).1 callers' none := by
  have notHanded : lock.handoffPending = false := by
    by_contra handed
    cases ok.handed (by simpa using handed)
  have locked : lock.locked = true := ok.locked
  have waiters : (ApbConfig.release lock).1.waiters = lock.waiters := by
    unfold ApbConfig.release
    split <;> rfl
  have absent : k ∉ lock.waiters := by
    rw [ok.queued]
    rintro ⟨request, here⟩
    exact ok.inside k rfl (here ▸ .queued request)
  refine
    { locked := ?_
      handed := fun _ => rfl
      nodup := waiters ▸ ok.nodup
      queued := fun other => ?_
      fits := fun other request' here => ?_
      outside := fun other _ => ?_
      inside := fun other none => nomatch none
      quiet := fun other _ runs => ?_ }
  · unfold ApbConfig.release
    split
    · exact notHanded.symm
    · exact locked
  · rw [waiters, same]
    by_cases own : other = k
    · subst own
      rw [Function.update_self]
      simp [absent]
    · rw [Function.update_of_ne own]
      exact ok.queued other
  · rw [same] at here
    by_cases own : other = k
    · subst own
      rw [Function.update_self] at here
      cases here
    · rw [Function.update_of_ne own] at here
      exact ok.fits other request' here
  · rw [same]
    by_cases own : other = k
    · subst own
      rw [Function.update_self]
      exact .idle
    · rw [Function.update_of_ne own]
      exact ok.outside other fun isHolder => own (Option.some.inj isHolder).symm
  · rcases woken other runs with before | member
    · by_cases own : other = k
      · subst own
        rw [Function.update_self] at before
        cases before
      · rw [Function.update_of_ne own] at before
        have handed := (ok.quiet other (fun isHolder => own (Option.some.inj isHolder).symm) before).1
        rw [notHanded] at handed
        cases handed
    · unfold ApbConfig.release at member ⊢
      split at member
      · cases member
      · rename_i first rest shape
        rw [List.mem_singleton] at member
        rw [shape, member]
        exact ⟨rfl, rfl⟩

end Lock

/-! ### The cycle -/

/-- Whether a task has still to sample a cycle. -/
def pending : ApbSpot A D B → Bool
  | (.complete _ _, runs) | (.seek, runs) | (.track _, runs) | (.check _, runs) => runs
  | (.decide _ _, _) | (.inspect, _) | (.settle _, _) | (.examine _, _) => true
  | _ => false

/-- The holder of the lock while the clock is low. -/
inductive LowAt [Inhabited B] (config : ApbConfig B) (signals : ApbSignals A D B) :
    Option (ApbSpot A D B) → ApbSeen A D B → Prop
  | free : config.Shows signals .idle → LowAt config signals none .nothing
  | setup {request : ApbRequest A D B} {runs : Bool} : config.Fits request → config.Shows signals .idle →
      LowAt config signals (some (.setup request, runs)) .nothing
  | hold {request : ApbRequest A D B} : config.Shows signals (.setup request) →
      LowAt config signals (some (.hold request, false)) .nothing
  | access {request : ApbRequest A D B} : config.Shows signals (.setup request) →
      LowAt config signals (some (.access request, true)) (.transfer request 0 false)
  | complete {request : ApbRequest A D B} {waitCycles : UInt32} {waited : Bool} :
      config.Shows signals (.access request waitCycles waited) →
      LowAt config signals (some (.complete request waitCycles, false)) (.transfer request waitCycles waited)
  | finish {request : ApbRequest A D B} {response : ApbResponse D} :
      LowAt config signals (some (.finish request response, true)) .nothing

/-- The holder of the lock while the clock is high, in a phase whose sample sees some inputs. -/
inductive HighAt [Inhabited D] (config : ApbConfig B) (inputs : ApbInputs D) :
    Option (ApbSpot A D B) → ApbPhase A D B → Prop
  | free : HighAt config inputs none .idle
  | setup {request : ApbRequest A D B} : config.Fits request →
      HighAt config inputs (some (.setup request, false)) .idle
  | hold {request : ApbRequest A D B} : HighAt config inputs (some (.hold request, true)) (.setup request)
  | access {request : ApbRequest A D B} :
      HighAt config inputs (some (.access request, false)) (.setup request)
  | complete {request : ApbRequest A D B} {waitCycles : UInt32} {waited : Bool} :
      HighAt config inputs (some (.complete request waitCycles, true)) (.access request waitCycles waited)
  | decide {request : ApbRequest A D B} {waitCycles : UInt32} {waited runs : Bool} :
      HighAt config inputs (some (.decide request waitCycles, runs)) (.access request waitCycles waited)
  | again {request : ApbRequest A D B} {waitCycles : UInt32} {waited : Bool} : inputs.ready = false →
      HighAt config inputs (some (.complete request (waitCycles + 1), false))
        (.access request waitCycles waited)
  | finish {request : ApbRequest A D B} {waitCycles : UInt32} {waited : Bool} : inputs.ready = true →
      HighAt config inputs
        (some (.finish request (respond request (statusOf inputs) waitCycles inputs.readData), false))
        (.access request waitCycles waited)

/-- Whether the holder has sampled an access phase. -/
def decided : Option (ApbSpot A D B) → Bool
  | some (.complete _ _, runs) => !runs
  | some (.finish _ _, _) => true
  | _ => false

/-- The transactions of the calls that returned. -/
def transactions [Inhabited D] (config : ApbConfig B) (bus : ApbBus K A D B) : List (ApbTransaction A D B) :=
  bus.completed.map fun done => config.transactionOf done.1.2 done.2

/-- The transaction of a call that is about to return. -/
def finishing [Inhabited D] (config : ApbConfig B) :
    Option (ApbSpot A D B) → List (ApbTransaction A D B)
  | some (.finish request response, _) => [config.transactionOf request response]
  | _ => []

/-- The transaction that a cycle completes. -/
def completing [Inhabited D] (config : ApbConfig B) (inputs : ApbInputs D) (phase : ApbPhase A D B) :
    List (ApbTransaction A D B) :=
  ((completes inputs phase).map fun done => config.transactionOf done.1 done.2).toList

section Cycle

variable [Inhabited D] [Inhabited B]

/-- While the clock is low. -/
structure Low (config : ApbConfig B) (view : Option (ApbSpot A D B)) (monitor checker : ApbSpot A D B)
    (bus : ApbBus K A D B) (seen : ApbSeen A D B) : Prop where
  holderAt : LowAt config bus.signals view seen
  monitorAt : config.MonitorAt seen monitor.1 ∧ pending monitor = false ∧ monitor.2 = false
  checkerAt : ∃ state, checker = (.check state, false) ∧ config.CheckerAt seen state
  published : bus.observed.map ApbObservation.value = config.transactions bus ++ config.finishing view

/-- Some task has still to sample. -/
def Waits (view : Option (ApbSpot A D B)) (monitor checker : ApbSpot A D B) : Prop :=
  pending monitor = true ∨ pending checker = true ∨ ∃ spot, view = some spot ∧ pending spot = true

/-- While the clock is high; `past` says that the moment of the samples has come. -/
structure High (config : ApbConfig B) (past : Prop) (view : Option (ApbSpot A D B))
    (monitor checker : ApbSpot A D B) (bus : ApbBus K A D B) (phase : ApbPhase A D B)
    (inputs : ApbInputs D) : Prop where
  shown : config.Shows bus.signals phase
  holderAt : HighAt config inputs view phase
  monitorAt : config.MonitorAt (if pending monitor then phase.before else phase.after inputs) monitor.1
  checkerAt : ∃ state, (checker.1 = .check state ∨ checker.1 = .examine state) ∧
    config.CheckerAt (if pending checker then phase.before else phase.after inputs) state
  current : Waits view monitor checker → inputs = bus.signals.inputs
  sampled : Waits view monitor checker →
    pending monitor = false ∨ pending checker = false ∨ decided view = true → past
  published : bus.observed.map ApbObservation.value =
    config.transactions bus ++ if pending monitor then [] else config.completing inputs phase

/-- **The invariant of the cycle.** -/
inductive Cycle (config : ApbConfig B) (past : Prop) (view : Option (ApbSpot A D B))
    (monitor checker : ApbSpot A D B) (bus : ApbBus K A D B) : Bool → Prop
  | low (seen : ApbSeen A D B) : Low config view monitor checker bus seen →
      Cycle config past view monitor checker bus false
  | high (phase : ApbPhase A D B) (inputs : ApbInputs D) :
      High config past view monitor checker bus phase inputs →
      Cycle config past view monitor checker bus true

variable {config : ApbConfig B} {past : Prop} {view : Option (ApbSpot A D B)} {monitor checker : ApbSpot A D B}
  {bus : ApbBus K A D B} {seen : ApbSeen A D B} {phase : ApbPhase A D B} {inputs : ApbInputs D}

/-- A task behind an edge at which nothing ran. -/
def behindEdge (config : ApbConfig B) (edge : Wait) (frame : ApbFrame A D B) : ApbSpot A D B :=
  (frame, config.wait frame == edge)

/-- Behind its sample a monitor waits for the rising edge. -/
theorem quiet_of_monitor {frame : ApbFrame A D B} {runs : Bool} (here : config.MonitorAt seen frame)
    (still : pending (frame, runs) = false) :
    pending (config.behindEdge .falling frame) = false ∧ (config.behindEdge .falling frame).2 = false := by
  cases frame with
  | seek | track capture => exact ⟨rfl, rfl⟩
  | inspect | settle capture => cases still
  | _ => cases seen <;> exact here.elim

/-- **A rising edge.** -/
theorem Low.rise (low : Low config view monitor checker bus seen)
    (still : ∀ spot, view = some spot → spot.2 = false) (next : Prop) :
    Cycle config next (view.map fun spot => config.behindEdge .rising spot.1)
      (config.behindEdge .rising monitor.1) (config.behindEdge .rising checker.1) bus true := by
  obtain ⟨state, rfl, checks⟩ := low.checkerAt
  have monitorPending : pending (config.behindEdge .rising monitor.1) = true := by
    obtain ⟨here, quiet, -⟩ := low.monitorAt
    obtain ⟨frame, runs⟩ := monitor
    cases frame with
    | seek | track capture => rfl
    | inspect | settle capture => cases quiet
    | _ => cases seen <;> exact here.elim
  have published := low.published
  have step : ∃ phase, config.Shows bus.signals phase ∧ phase.before = seen ∧
      HighAt config bus.signals.inputs (view.map fun spot => config.behindEdge .rising spot.1) phase ∧
        config.finishing view = [] ∧
          decided (view.map fun spot => config.behindEdge .rising spot.1) = false := by
    cases low.holderAt with
    | free shows' => exact ⟨.idle, shows', rfl, .free, rfl, rfl⟩
    | setup fits shows' => exact ⟨.idle, shows', rfl, .setup fits, rfl, rfl⟩
    | hold shows' => exact ⟨.setup _, shows', rfl, .hold, rfl, rfl⟩
    | access shows' => cases still _ rfl
    | complete shows' => exact ⟨.access _ _ _, shows', rfl, .complete, rfl, rfl⟩
    | finish => cases still _ rfl
  obtain ⟨phase, shows', rfl, holder, none, fresh⟩ := step
  rw [none] at published
  refine .high phase bus.signals.inputs
    { shown := shows'
      holderAt := holder
      monitorAt := by rw [if_pos monitorPending]; exact low.monitorAt.1
      checkerAt := ⟨state, .inl rfl, checks⟩
      current := fun _ => rfl
      sampled := ?_
      published := by rw [if_pos monitorPending]; exact published }
  rintro - (notPending | notPending | sampled)
  · rw [monitorPending] at notPending
    cases notPending
  · cases notPending
  · rw [fresh] at sampled
    cases sampled

/-- **A falling edge.** -/
theorem High.fall (high : High config past view monitor checker bus phase inputs)
    (still : ∀ spot, view = some spot → pending spot = false ∧ spot.2 = false)
    (monitorStill : pending monitor = false) (checkerStill : pending checker = false) (next : Prop) :
    Cycle config next (view.map fun spot => config.behindEdge .falling spot.1)
      (config.behindEdge .falling monitor.1) (config.behindEdge .falling checker.1) bus false := by
  have here := high.monitorAt
  have published := high.published
  obtain ⟨state, frame, checks⟩ := high.checkerAt
  rw [monitorStill] at here published
  rw [checkerStill] at checks
  simp only [Bool.false_eq_true, if_false] at here published checks
  have step : LowAt config bus.signals (view.map fun spot => config.behindEdge .falling spot.1)
      (phase.after inputs) ∧
        config.finishing (view.map fun spot => config.behindEdge .falling spot.1) =
          config.completing inputs phase := by
    have shows' := high.shown
    cases high.holderAt with
    | free => exact ⟨.free shows', rfl⟩
    | setup fits => exact ⟨.setup fits shows', rfl⟩
    | hold => cases (still _ rfl).2
    | access => exact ⟨.access shows', rfl⟩
    | complete => cases (still _ rfl).2
    | decide => cases (still _ rfl).1
    | again notReady =>
        rw [ApbPhase.after, completing, completes, notReady]
        exact ⟨.complete shows', rfl⟩
    | finish ready =>
        rw [ApbPhase.after, completing, completes, ready]
        exact ⟨.finish, rfl⟩
  refine .low (phase.after inputs)
    { holderAt := step.1
      monitorAt := ⟨here, ?_, ?_⟩
      checkerAt := ⟨state, ?_, checks⟩
      published := by rw [step.2]; exact published }
  · exact (quiet_of_monitor here monitorStill).1
  · exact (quiet_of_monitor here monitorStill).2
  · rcases frame with same | same
    · rw [same]
      rfl
    · obtain ⟨frame, runs⟩ := checker
      subst same
      cases checkerStill

/-- **Time goes on**, and the slave drives its signals: a task in a sample delay samples later. -/
theorem Cycle.later {level : Bool} (cycle : Cycle config past view monitor checker bus level)
    (driven : ApbInputs D) {next : Prop} (goes : past → next)
    (early : Waits view monitor checker → ¬past) :
    Cycle config next view monitor checker (respondWith driven bus) level := by
  cases cycle with
  | low seen low =>
      refine .low seen
        { holderAt := ?_
          monitorAt := low.monitorAt
          checkerAt := low.checkerAt
          published := low.published }
      cases low.holderAt with
      | free shows' => exact .free (shows_inputs shows' _ _ _)
      | setup fits shows' => exact .setup fits (shows_inputs shows' _ _ _)
      | hold shows' => exact .hold (shows_inputs shows' _ _ _)
      | access shows' => exact .access (shows_inputs shows' _ _ _)
      | complete shows' => exact .complete (shows_inputs shows' _ _ _)
      | finish => exact .finish
  | high phase inputs high =>
      by_cases waits : Waits view monitor checker
      · -- nobody has sampled, so that the inputs of the sample may still be others
        have notYet := early waits
        have monitorWaits : pending monitor = true := by
          by_contra done
          exact notYet (high.sampled waits (.inl (by simpa using done)))
        have checkerWaits : pending checker = true := by
          by_contra done
          exact notYet (high.sampled waits (.inr (.inl (by simpa using done))))
        have undecided : decided view = false := by
          by_contra done
          exact notYet (high.sampled waits (.inr (.inr (by simpa using done))))
        have monitorAt := high.monitorAt
        have checkerAt := high.checkerAt
        have published := high.published
        rw [if_pos monitorWaits] at monitorAt published
        rw [if_pos checkerWaits] at checkerAt
        refine .high phase driven
          { shown := shows_inputs high.shown _ _ _
            holderAt := ?_
            monitorAt := by rw [if_pos monitorWaits]; exact monitorAt
            checkerAt := by rw [if_pos checkerWaits]; exact checkerAt
            current := fun _ => rfl
            sampled := fun _ done => goes (high.sampled waits done)
            published := by rw [if_pos monitorWaits]; exact published }
        cases high.holderAt with
        | free => exact .free
        | setup fits => exact .setup fits
        | hold => exact .hold
        | access => exact .access
        | complete => exact .complete
        | decide => exact .decide
        | again notReady => cases undecided
        | finish ready => cases undecided
      · exact .high phase inputs
          { shown := shows_inputs high.shown _ _ _
            holderAt := high.holderAt
            monitorAt := high.monitorAt
            checkerAt := high.checkerAt
            current := fun some => absurd some waits
            sampled := fun some => absurd some waits
            published := high.published }

/-- A task that is in its sample delay is woken. -/
theorem Cycle.woken {level : Bool} {view' : Option (ApbSpot A D B)} {monitor' checker' : ApbSpot A D B}
    (cycle : Cycle config past view monitor checker bus level)
    (sameView : view' = view ∨ ∃ request waitCycles runs, view = some (.decide request waitCycles, runs) ∧
      view' = some (.decide request waitCycles, true))
    (sameMonitor : monitor' = monitor ∨ monitor'.1 = monitor.1 ∧ monitor.1 = .inspect ∨
      monitor'.1 = monitor.1 ∧ ∃ capture, monitor.1 = .settle capture)
    (sameChecker : checker' = checker ∨ checker'.1 = checker.1 ∧ ∃ state, checker.1 = .examine state) :
    Cycle config past view' monitor' checker' bus level := by
  have monitorFrame : monitor'.1 = monitor.1 := by
    rcases sameMonitor with rfl | ⟨same, -⟩ | ⟨same, -⟩
    · rfl
    · exact same
    · exact same
  have monitorPending : pending monitor' = pending monitor := by
    obtain ⟨frame', runs'⟩ := monitor'
    obtain ⟨frame, runs⟩ := monitor
    rcases sameMonitor with same | ⟨same, here⟩ | ⟨same, capture, here⟩
    · rw [same]
    · simp only at same here
      rw [same, here]
      rfl
    · simp only at same here
      rw [same, here]
      rfl
  have checkerPending : pending checker' = pending checker ∧ checker'.1 = checker.1 := by
    obtain ⟨frame', runs'⟩ := checker'
    obtain ⟨frame, runs⟩ := checker
    rcases sameChecker with same | ⟨same, state, here⟩
    · rw [same]
      exact ⟨rfl, rfl⟩
    · simp only at same here
      rw [same, here]
      exact ⟨rfl, rfl⟩
  cases cycle with
  | low seen low =>
      have sameView : view' = view := by
        rcases sameView with same | ⟨request, waitCycles, runs, same, -⟩
        · exact same
        · have here := low.holderAt
          rw [same] at here
          cases here
      have sameMonitor : monitor' = monitor := by
        have here := low.monitorAt.2.1
        obtain ⟨frame, runs⟩ := monitor
        rcases sameMonitor with same | ⟨-, rfl⟩ | ⟨-, capture, rfl⟩
        · exact same
        · cases here
        · cases here
      have sameChecker : checker' = checker := by
        obtain ⟨state, here, -⟩ := low.checkerAt
        rcases sameChecker with same | ⟨-, state', other⟩
        · exact same
        · rw [here] at other
          cases other
      rw [sameView, sameMonitor, sameChecker]
      exact .low seen low
  | high phase inputs high =>
      have waits : Waits view' monitor' checker' → Waits view monitor checker := by
        unfold Waits
        rw [monitorPending, checkerPending.1]
        refine Or.imp_right (Or.imp_right ?_)
        rcases sameView with rfl | ⟨request, waitCycles, runs, same, -⟩
        · exact id
        · exact fun _ => ⟨_, same, rfl⟩
      have viewDecided : decided view' = decided view := by
        rcases sameView with rfl | ⟨request, waitCycles, runs, same, same'⟩
        · rfl
        · rw [same, same']
          rfl
      refine .high phase inputs
        { shown := high.shown
          holderAt := ?_
          monitorAt := by rw [monitorPending, monitorFrame]; exact high.monitorAt
          checkerAt := by rw [checkerPending.1, checkerPending.2]; exact high.checkerAt
          current := ?_
          sampled := ?_
          published := by rw [monitorPending]; exact high.published }
      · have here := high.holderAt
        rcases sameView with rfl | ⟨request, waitCycles, runs, rfl, rfl⟩
        · exact here
        · cases here
          exact .decide
      · exact fun some => high.current (waits some)
      · rw [monitorPending, checkerPending.1, viewDecided]
        exact fun some => high.sampled (waits some)

/-- A monitor that runs has still to sample. -/
theorem pending_of_monitor {frame : ApbFrame A D B} (here : config.MonitorAt seen frame) :
    pending (frame, true) = true := by
  cases frame with
  | seek | inspect | track capture | settle capture => rfl
  | _ => cases seen <;> exact here.elim

/-- A monitor that runs begins its sample delay or samples. -/
theorem observe_cases {frame : ApbFrame A D B} (here : config.MonitorAt seen frame) (now : Nat)
    (signals : ApbSignals A D B) :
    (∃ delayed, config.observe now frame signals = (delayed, []) ∧ pending (delayed, false) = true ∧
        config.MonitorAt seen delayed) ∨
      config.observe now frame signals = config.sampled now frame signals ∧
        (config.wait frame = .delay config.monitorDelay ∨
          config.wait frame = .rising ∧ config.monitorDelay = 0) := by
  cases frame with
  | seek =>
      by_cases delay : config.monitorDelay ≠ 0
      · exact .inl ⟨.inspect, if_pos delay, rfl, by cases seen <;> exact here⟩
      · exact .inr ⟨if_neg delay, .inr ⟨rfl, not_not.mp delay⟩⟩
  | track capture =>
      by_cases delay : config.monitorDelay ≠ 0
      · exact .inl ⟨.settle capture, if_pos delay, rfl, by cases seen <;> exact here⟩
      · exact .inr ⟨if_neg delay, .inr ⟨rfl, not_not.mp delay⟩⟩
  | inspect | settle capture => exact .inr ⟨rfl, .inl rfl⟩
  | _ => cases seen <;> exact here.elim

/-- Behind its sample a monitor does not sample again in the cycle. -/
theorem pending_sampled (now : Nat) (frame : ApbFrame A D B) (signals : ApbSignals A D B) :
    pending ((config.sampled now frame signals).1, false) = false := by
  have setup : pending (config.sampleSetup now signals, false) = false := by
    unfold sampleSetup
    split <;> rfl
  have access : ∀ capture, pending ((config.sampleAccess now capture signals).1, false) = false := by
    intro capture
    unfold sampleAccess
    repeat' split
    all_goals rfl
  unfold sampled
  cases frame with
  | track capture | settle capture => exact access capture
  | _ => exact setup

/-- **The monitor runs.** -/
theorem Cycle.observes {level : Bool} (cycle : Cycle config past view monitor checker bus level)
    (runs : monitor.2 = true) (now : Nat)
    (moment : config.wait monitor.1 = .delay config.monitorDelay ∨
      config.wait monitor.1 = .rising ∧ config.monitorDelay = 0 → past) :
    Cycle config past view ((config.observe now monitor.1 bus.signals).1, false) checker
      { bus with observed := bus.observed ++ (config.observe now monitor.1 bus.signals).2 } level := by
  cases cycle with
  | low seen low =>
      have still := low.monitorAt.2.2
      rw [runs] at still
      cases still
  | high phase inputs high =>
      obtain ⟨frame, runs'⟩ := monitor
      obtain rfl : runs' = true := runs
      have here := high.monitorAt
      have waits : pending (frame, true) = true := pending_of_monitor here
      have published := high.published
      rw [if_pos waits] at here published
      rw [List.append_nil] at published
      rcases observe_cases here now bus.signals with ⟨delayed, same, waits', here'⟩ | ⟨same, moment'⟩
      · rw [same]
        exact .high phase inputs
          { shown := high.shown
            holderAt := high.holderAt
            monitorAt := by rw [if_pos waits']; exact here'
            checkerAt := high.checkerAt
            current := fun _ => high.current (.inl waits)
            sampled := fun _ => by
              have sampled := high.sampled (.inl waits)
              rw [waits] at sampled
              rwa [waits']
            published := by rw [if_pos waits', List.append_nil, List.append_nil]; exact published }
      · rw [same]
        obtain rfl := high.current (.inl waits)
        obtain ⟨here', values⟩ := observe_spec now high.shown here
        have done : pending ((config.sampled now frame bus.signals).1, false) = false :=
          pending_sampled now frame bus.signals
        exact .high phase bus.signals.inputs
          { shown := high.shown
            holderAt := high.holderAt
            monitorAt := by rw [done]; exact here'
            checkerAt := high.checkerAt
            current := fun _ => rfl
            sampled := fun _ _ => moment moment'
            published := by
              rw [done, List.map_append, values, published]
              rfl }

/-- **The checker runs**, and reports nothing. -/
theorem Cycle.checks [DecidableEq A] [DecidableEq D] [DecidableEq B] {level : Bool}
    (cycle : Cycle config past view monitor checker bus level) (runs : checker.2 = true)
    (moment : config.wait checker.1 = .delay config.checkerDelay ∨
      config.wait checker.1 = .rising ∧ config.checkerDelay = 0 → past) :
    (config.checks checker.1 bus.signals).2 = [] ∧
      Cycle config past view monitor ((config.checks checker.1 bus.signals).1, false) bus level := by
  cases cycle with
  | low seen low =>
      obtain ⟨state, rfl, -⟩ := low.checkerAt
      cases runs
  | high phase inputs high =>
      obtain ⟨frame, runs'⟩ := checker
      obtain rfl : runs' = true := runs
      obtain ⟨state, frame', here⟩ := high.checkerAt
      have waits : pending (frame, true) = true := by
        rcases frame' with same | same <;> simp only at same <;> rw [same] <;> rfl
      rw [if_pos waits] at here
      have sampling : (config.sample state bus.signals).2 = [] ∧ (past →
          Cycle config past view monitor (.check (config.sample state bus.signals).1, false) bus true) := by
        obtain rfl := high.current (.inr (.inl waits))
        obtain ⟨here', silent⟩ := sample_spec high.shown here
        refine ⟨silent, fun moment => .high phase bus.signals.inputs
          { shown := high.shown
            holderAt := high.holderAt
            monitorAt := high.monitorAt
            checkerAt := ⟨_, .inl rfl, here'⟩
            current := fun _ => rfl
            sampled := fun _ _ => moment
            published := high.published }⟩
      rcases frame' with same | same
      · simp only at same
        subst same
        by_cases delay : config.checkerDelay ≠ 0
        · simp only [ApbConfig.checks, if_pos delay]
          refine ⟨trivial, .high phase inputs
            { shown := high.shown
              holderAt := high.holderAt
              monitorAt := high.monitorAt
              checkerAt := ⟨state, .inr rfl, here⟩
              current := fun _ => high.current (.inr (.inl rfl))
              sampled := fun _ => high.sampled (.inr (.inl rfl))
              published := high.published }⟩
        · simp only [ApbConfig.checks, if_neg delay]
          exact ⟨sampling.1, sampling.2 (moment (.inr ⟨rfl, not_not.mp delay⟩))⟩
      · simp only at same
        subst same
        exact ⟨sampling.1, sampling.2 (moment (.inl rfl))⟩

/-- A call that acquires the lock. -/
theorem Cycle.acquire {level : Bool} {request : ApbRequest A D B} (fits : config.Fits request)
    (cycle : Cycle config past none monitor checker bus level) :
    Cycle config past (some (.setup request, false)) monitor checker bus level := by
  cases cycle with
  | low seen low =>
      refine .low seen
        { holderAt := ?_, monitorAt := low.monitorAt, checkerAt := low.checkerAt
          published := low.published }
      cases low.holderAt with
      | free shows' => exact .setup fits shows'
  | high phase inputs high =>
      have waits : Waits (some (.setup request, false)) monitor checker → Waits none monitor checker := by
        rintro (some | some | ⟨spot, same, some⟩)
        · exact .inl some
        · exact .inr (.inl some)
        · cases same
          cases some
      refine .high phase inputs
        { shown := high.shown
          holderAt := ?_
          monitorAt := high.monitorAt
          checkerAt := high.checkerAt
          current := fun some => high.current (waits some)
          sampled := fun some => high.sampled (waits some)
          published := high.published }
      cases high.holderAt with
      | free => exact .setup fits

/-- The lock does not matter. -/
theorem Cycle.congr {level : Bool} {bus' : ApbBus K A D B}
    (cycle : Cycle config past view monitor checker bus level) (signals : bus'.signals = bus.signals)
    (observed : bus'.observed = bus.observed) (completed : bus'.completed = bus.completed) :
    Cycle config past view monitor checker bus' level := by
  have same : config.transactions bus' = config.transactions bus := by
    unfold transactions
    rw [completed]
  cases cycle with
  | low seen low =>
      exact .low seen
        { holderAt := signals ▸ low.holderAt
          monitorAt := low.monitorAt
          checkerAt := low.checkerAt
          published := by rw [observed, same]; exact low.published }
  | high phase inputs high =>
      exact .high phase inputs
        { shown := signals ▸ high.shown
          holderAt := high.holderAt
          monitorAt := high.monitorAt
          checkerAt := high.checkerAt
          current := signals ▸ high.current
          sampled := high.sampled
          published := by rw [observed, same]; exact high.published }

/-- **The holder of the lock runs**, but for the end of its call. -/
theorem Cycle.access {level : Bool} {frame : ApbFrame A D B} [DecidableEq K] (caller : K)
    (cycle : Cycle config past (some (frame, true)) monitor checker bus level)
    (unlimited : config.maxWaitCycles = 0)
    (goesOn : ∀ request response, frame ≠ .finish request response)
    (moment : config.wait frame = .delay config.sampleDelay ∨
      config.wait frame = .rising ∧ config.sampleDelay = 0 → past) :
    Cycle config past (some ((config.access caller frame bus).1, false)) monitor checker
        (config.access caller frame bus).2.1 level ∧
      (config.access caller frame bus).2.2 = [] ∧
      requestOf (config.access caller frame bus).1 = requestOf frame ∧
      ¬Outside (config.access caller frame bus).1 ∧
      (config.access caller frame bus).2.1 = { bus with
        signals := (config.access caller frame bus).2.1.signals } := by
  cases cycle with
  | low seen low =>
      have published := low.published
      have goes := low.holderAt
      have inside : ∀ {spot : ApbSpot A D B} {signals : ApbSignals A D B},
          LowAt config signals (some spot) seen → config.finishing (some spot) = [] →
            Cycle config past (some spot) monitor checker { bus with signals := signals } false :=
        fun here none => .low seen
          { holderAt := here
            monitorAt := low.monitorAt
            checkerAt := low.checkerAt
            published := by
              rw [none, List.append_nil]
              cases goes <;> first | exact published.trans (List.append_nil _) | exact absurd rfl (goesOn _ _) }
      cases goes with
      | setup fits shows' =>
          exact ⟨inside (.hold (shows_drive fits)) rfl, rfl, rfl, nofun, rfl⟩
      | access shows' =>
          exact ⟨inside (.complete (shows_enable shows' 0 false)) rfl, rfl, rfl, nofun, rfl⟩
      | finish => exact absurd rfl (goesOn _ _)
  | high phase inputs high =>
      have still : ∀ {frame' : ApbFrame A D B}, (pending (frame', false) = true → pending (frame, true) = true) →
          Waits (some (frame', false)) monitor checker → Waits (some (frame, true)) monitor checker := by
        rintro frame' waits (some | some | ⟨spot, same, some⟩)
        · exact .inl some
        · exact .inr (.inl some)
        · cases same
          exact .inr (.inr ⟨_, rfl, waits some⟩)
      have inside : ∀ {frame' : ApbFrame A D B}, HighAt config inputs (some (frame', false)) phase →
          (pending (frame', false) = true → pending (frame, true) = true) →
          (decided (some (frame', false)) = true → past) →
            Cycle config past (some (frame', false)) monitor checker bus true :=
        fun here waits sampled => .high phase inputs
          { shown := high.shown
            holderAt := here
            monitorAt := high.monitorAt
            checkerAt := high.checkerAt
            current := fun some => high.current (still waits some)
            sampled := by
              rintro some (done | done | done)
              · exact high.sampled (still waits some) (.inl done)
              · exact high.sampled (still waits some) (.inr (.inl done))
              · exact sampled done
            published := high.published }
      -- behind the sample delay
      have samples : ∀ (request : ApbRequest A D B) (waitCycles : UInt32) (waited : Bool),
          phase = .access request waitCycles waited → pending (frame, true) = true → past →
          Cycle config past (some (config.sampleReady request waitCycles bus.signals, false)) monitor checker
              bus true ∧
            requestOf (config.sampleReady request waitCycles bus.signals) = some request ∧
            ¬Outside (config.sampleReady request waitCycles bus.signals) := by
        intro request waitCycles waited same waits now
        subst same
        obtain rfl := high.current (.inr (.inr ⟨_, rfl, waits⟩))
        rw [sampleReady_spec unlimited]
        cases ready : bus.signals.inputs.ready with
        | false => exact ⟨inside (.again ready) (fun _ => waits) fun _ => now, rfl, nofun⟩
        | true => exact ⟨inside (.finish ready) (fun _ => waits) fun _ => now, rfl, nofun⟩
      cases here : high.holderAt with
      | hold => exact ⟨inside .access (fun none => nomatch none) (fun none => nomatch none), rfl, rfl, nofun, rfl⟩
      | complete =>
          by_cases delay : config.sampleDelay ≠ 0
          · simp only [ApbConfig.access, if_pos delay]
            exact ⟨inside .decide (fun _ => rfl) (fun none => nomatch none), trivial, rfl, nofun, trivial⟩
          · simp only [ApbConfig.access, if_neg delay]
            obtain ⟨next, request, inside'⟩ := samples _ _ _ rfl rfl (moment (.inr ⟨rfl, not_not.mp delay⟩))
            exact ⟨next, trivial, request, inside', trivial⟩
      | decide =>
          obtain ⟨next, request, inside'⟩ := samples _ _ _ rfl rfl (moment (.inl rfl))
          exact ⟨next, rfl, request, inside', rfl⟩

/-- **A call returns.** -/
theorem Cycle.finish {level : Bool} {request : ApbRequest A D B} {response : ApbResponse D} [DecidableEq K]
    (caller : K) (cycle : Cycle config past (some (.finish request response, true)) monitor checker bus level) :
    Cycle config past none monitor checker (config.access caller (.finish request response) bus).2.1
      level := by
  cases cycle with
  | low seen low =>
      cases low.holderAt with
      | finish =>
          refine .low .nothing
            { holderAt := .free ⟨rfl, rfl⟩
              monitorAt := low.monitorAt
              checkerAt := low.checkerAt
              published := ?_ }
          have published := low.published
          simp only [transactions, finishing, ApbConfig.access, List.map_append, List.map_cons, List.map_nil,
            List.append_nil] at published ⊢
          exact published
  | high phase inputs high => cases high.holderAt

/-- The frames in a sample delay. -/
theorem Cycle.delayed {level : Bool} {frame : ApbFrame A D B} {runs : Bool} {span : Nat}
    (cycle : Cycle config past (some (frame, runs)) monitor checker bus level)
    (delayed : config.wait frame = .delay span) :
    ∃ request waitCycles, frame = .decide request waitCycles := by
  cases cycle with
  | low seen low => cases low.holderAt <;> cases delayed
  | high phase inputs high =>
      cases high.holderAt with
      | decide => exact ⟨_, _, rfl⟩
      | _ => cases delayed

theorem Cycle.delayed_monitor {level : Bool} {span : Nat}
    (cycle : Cycle config past view monitor checker bus level)
    (delayed : config.wait monitor.1 = .delay span) :
    monitor.1 = .inspect ∨ ∃ capture, monitor.1 = .settle capture := by
  have here : ∃ seen, config.MonitorAt seen monitor.1 := by
    cases cycle with
    | low seen low => exact ⟨seen, low.monitorAt.1⟩
    | high phase inputs high => exact ⟨_, high.monitorAt⟩
  obtain ⟨seen, here⟩ := here
  generalize monitor.1 = frame at *
  cases frame with
  | inspect => exact .inl rfl
  | settle capture => exact .inr ⟨capture, rfl⟩
  | decide request waitCycles | examine state => cases seen <;> exact here.elim
  | _ => cases delayed

theorem Cycle.delayed_checker {level : Bool} {span : Nat}
    (cycle : Cycle config past view monitor checker bus level)
    (delayed : config.wait checker.1 = .delay span) : ∃ state, checker.1 = .examine state := by
  cases cycle with
  | low seen low =>
      obtain ⟨state, rfl, -⟩ := low.checkerAt
      cases delayed
  | high phase inputs high =>
      obtain ⟨state, same | same, -⟩ := high.checkerAt
      · rw [same] at delayed
        cases delayed
      · exact ⟨state, same⟩

end Cycle

/-! ### Runs -/

/-- The spot of a task. -/
def spotOf (task : Clocked.Task (ApbFrame A D B)) : ApbSpot A D B :=
  (task.frame, task.runnable)

/-- The callers of a system. -/
def callersOf (tasks : ApbTask K → Clocked.Task (ApbFrame A D B)) : K → ApbSpot A D B := fun k =>
  spotOf (tasks (.caller k))

/-- The call that holds the lock. -/
def held (callers : K → ApbSpot A D B) : Option K → List (K × ApbRequest A D B)
  | none => []
  | some k => ((requestOf (callers k).1).map fun request => (k, request)).toList

section Runs

variable [DecidableEq K] [DecidableEq A] [DecidableEq D] [DecidableEq B] [Inhabited A] [Inhabited D]
  [Inhabited B] {config : ApbConfig B} {s t : System K A D B}

/-- The invariant of a state, with the holder of the lock. -/
structure AgreedFor (config : ApbConfig B) (s : System K A D B) (holder : Option K) : Prop where
  lock : LockOk config s.shared.lock (callersOf s.tasks) holder
  acquired : s.shared.acquired = s.shared.completed.map Prod.fst ++ held (callersOf s.tasks) holder
  silent : s.shared.violations = []
  cycle : Cycle config (s.edge + config.sampleDelay ≤ s.now + config.half)
    (holder.map (callersOf s.tasks)) (spotOf (s.tasks .monitor)) (spotOf (s.tasks .checker)) s.shared s.level

/-- **The invariant.** -/
def Agreed (config : ApbConfig B) (s : System K A D B) : Prop :=
  ∃ holder, AgreedFor config s holder

/-- Sampling ends a delay. -/
theorem wait_sampleReady (request : ApbRequest A D B) (waitCycles : UInt32) (signals : ApbSignals A D B)
    (span : Nat) : config.wait (config.sampleReady request waitCycles signals) ≠ .delay span := by
  unfold sampleReady
  repeat' split
  all_goals exact nofun

theorem wait_sampleSetup (now : Nat) (signals : ApbSignals A D B) (span : Nat) :
    config.wait (config.sampleSetup now signals) ≠ .delay span := by
  unfold sampleSetup
  split <;> exact nofun

theorem wait_sampleAccess (now : Nat) (capture : ApbCapture A D B) (signals : ApbSignals A D B)
    (span : Nat) : config.wait (config.sampleAccess now capture signals).1 ≠ .delay span := by
  unfold sampleAccess
  repeat' split
  all_goals exact nofun

/-- The sample delays begin at rising edges and end before the falling ones. -/
theorem sampling (equal : config.Equal) :
    (config.program : Program (ApbTask K) (ApbFrame A D B) _ _ _).Sampling where
  positive := lt_of_le_of_lt (Nat.zero_le _) equal.short
  delays task now frame bus span delayed := by
    change config.wait (config.resume task now frame bus).1 = _ at delayed
    have short := equal.short
    cases task with
    | caller caller =>
        simp only [resume] at delayed
        cases frame with
        | complete request waitCycles =>
            refine ⟨rfl, ?_⟩
            simp only [access] at delayed
            split at delayed
            · cases delayed
              exact short
            · exact absurd delayed (wait_sampleReady _ _ _ _)
        | decide request waitCycles => exact absurd delayed (wait_sampleReady _ _ _ _)
        | _ => cases delayed
    | monitor =>
        simp only [resume] at delayed
        cases frame with
        | seek =>
            refine ⟨rfl, ?_⟩
            simp only [observe] at delayed
            split at delayed
            · cases delayed
              change config.monitorDelay < config.half
              rwa [equal.monitor]
            · exact absurd delayed (wait_sampleSetup _ _ _)
        | inspect => exact absurd delayed (wait_sampleSetup _ _ _)
        | track capture =>
            refine ⟨rfl, ?_⟩
            simp only [observe] at delayed
            split at delayed
            · cases delayed
              change config.monitorDelay < config.half
              rwa [equal.monitor]
            · exact absurd delayed (wait_sampleAccess _ _ _ _)
        | settle capture => exact absurd delayed (wait_sampleAccess _ _ _ _)
        | _ => cases delayed
    | checker =>
        simp only [resume] at delayed
        cases frame with
        | check checker =>
            refine ⟨rfl, ?_⟩
            simp only [ApbConfig.checks] at delayed
            split at delayed
            · cases delayed
              change config.checkerDelay < config.half
              rwa [equal.checker]
            · cases delayed
        | _ => cases delayed
  entries task request frame bus next span entered := by
    change config.enter task request frame bus = some next at entered
    cases task with
    | caller caller =>
        cases frame with
        | idle =>
            cases entered
            simp only [program, call]
            repeat' split
            all_goals exact nofun
        | _ => cases entered
    | monitor | checker => cases entered

theorem timely (equal : config.Equal) (reach : config.Reaches s) : Timely config.program s := by
  refine timely_of_reach (sampling equal) (fun s starts => ?_) reach
  obtain ⟨signals, -, -, before, -, -, quiet, callers, monitor, checker⟩ := starts
  have notDelayed : ∀ task span, config.wait (s.tasks task).frame ≠ .delay span := by
    intro task span
    cases task with
    | caller k => rw [callers]; exact nofun
    | monitor => rw [monitor]; exact nofun
    | checker => rw [checker]; exact nofun
  refine ⟨before, fun task runs => ?_, fun task span delayed => absurd delayed (notDelayed task span),
    fun task due atTime => ?_, fun task _ => (quiet task).2⟩
  · rw [(quiet task).1] at runs
    cases runs
  · rw [(quiet task).2] at atTime
    cases atTime

theorem callersOf_update (tasks : ApbTask K → Clocked.Task (ApbFrame A D B)) (k : K)
    (task : Clocked.Task (ApbFrame A D B)) :
    callersOf (update tasks (.caller k) task) = update (callersOf tasks) k (spotOf task) := by
  funext other
  by_cases same : other = k
  · subst same
    simp [callersOf]
  · have apart : ApbTask.caller other ≠ .caller k := fun equal => same (by injection equal)
    simp [callersOf, same, apart]

/-- A caller that has run. -/
theorem callersOf_suspended (config : ApbConfig B) (tasks : ApbTask K → Clocked.Task (ApbFrame A D B))
    (k : K) (now : Nat) (frame : ApbFrame A D B) :
    callersOf (update tasks (.caller k) ((config.program (K := K) (A := A) (D := D)).suspended now frame)) =
      update (callersOf tasks) k (frame, false) :=
  callersOf_update tasks k _

/-- Behind an edge at which nothing could run. -/
theorem spotOf_atEdge (settled : Settled s) (level : Bool) (task : ApbTask K) :
    spotOf (config.program.atEdge level s.tasks task) =
      config.behindEdge (Program.edgeOf level) (s.tasks task).frame := by
  have quiet := settled task
  have woken := @Program.atEdge_runnable _ _ _ _ _ _ (config.program (K := K) (A := A) (D := D)) level s.tasks task
  rw [quiet] at woken
  refine Prod.ext (Program.atEdge_frame level s.tasks task) ?_
  change (config.program.atEdge level s.tasks task).runnable = _
  rw [Bool.eq_iff_iff, woken]
  simp [behindEdge, program]

/-- A task that has still to sample is in its sample delay. -/
theorem wait_of_pending (equal : config.Equal) {frame : ApbFrame A D B}
    (waits : pending (frame, false) = true) : config.wait frame = .delay config.sampleDelay := by
  cases frame with
  | decide request waitCycles => rfl
  | inspect | settle capture => exact congrArg Wait.delay equal.monitor
  | examine checker => exact congrArg Wait.delay equal.checker
  | _ => cases waits

/-- A task samples at one moment. -/
theorem past_of_runs (timely : Timely config.program s) {task : ApbTask K} {span : Nat}
    (same : span = config.sampleDelay) (runs : (s.tasks task).runnable = true)
    (here : config.wait (s.tasks task).frame = .delay span ∨
      config.wait (s.tasks task).frame = .rising ∧ span = 0) :
    s.edge + config.sampleDelay ≤ s.now + config.half := by
  subst same
  exact le_of_eq (timely.at_sample runs here)

/-- **Time goes on.** -/
theorem Agreed.advance (equal : config.Equal) (timely : Timely config.program s) (agreed : Agreed config s)
    (time : Nat) (inputs : ApbInputs D)
    (allowed : Program.Allowed s (.advance (I := ApbTask K) (C := ApbRequest A D B) time inputs)) :
    Agreed config { s with now := time, shared := respondWith inputs s.shared } := by
  obtain ⟨holder, lock, acquired, silent, cycle⟩ := agreed
  obtain ⟨settled, later, -, pending'⟩ := allowed
  -- whatever has still to sample is due after this moment
  have notYet : ∀ task, pending (spotOf (s.tasks task)) = true →
      ¬s.edge + config.sampleDelay ≤ s.now + config.half := by
    intro task waits
    have delayed : config.wait (s.tasks task).frame = .delay config.sampleDelay := by
      refine wait_of_pending equal ?_
      rwa [spotOf, settled task] at waits
    rcases timely.due_eq delayed with ⟨none, -⟩ | ⟨due, atTime, ends⟩
    · have runs := ((timely.delayed task _ delayed).2.2 none).1
      rw [settled task] at runs
      cases runs
    · have := pending' task due atTime
      change s.edge + config.sampleDelay = due + config.half at ends
      omega
  refine ⟨holder, lock, acquired, silent, cycle.later inputs (fun past => ?_) ?_⟩
  · change s.edge + config.sampleDelay ≤ time + config.half
    omega
  · rintro (waits | waits | ⟨spot, same, waits⟩)
    · exact notYet .monitor waits
    · exact notYet .checker waits
    · obtain ⟨k, -, rfl⟩ := Option.map_eq_some_iff.mp same
      exact notYet (.caller k) waits

/-- **An edge.** -/
theorem Agreed.edge (equal : config.Equal) (timely : Timely config.program s) (agreed : Agreed config s)
    (settled : Settled s) (here : s.now = s.edge) {risings : List (ApbBus K A D B)} :
    Agreed config { s with
      level := !s.level
      edge := s.edge + config.half
      tasks := config.program.atEdge (!s.level) s.tasks
      risings := risings } := by
  obtain ⟨holder, lock, acquired, silent, cycle⟩ := agreed
  have callers : callersOf (config.program.atEdge (!s.level) s.tasks) = fun k =>
      config.behindEdge (Program.edgeOf !s.level) (callersOf s.tasks k).1 :=
    funext fun k => spotOf_atEdge settled (!s.level) (.caller k)
  refine ⟨holder, ?_, ?_, silent, ?_⟩
  · refine lock.congr (fun k _ => by rw [callers]; rfl) fun k away runs => ?_
    rw [callers] at runs
    have outside := lock.outside k away
    have waits : (config.wait (callersOf s.tasks k).1 == Program.edgeOf !s.level) = true := runs
    revert waits
    generalize (callersOf s.tasks k).1 = frame at outside
    cases outside <;> cases s.level <;> exact nofun
  · rw [callers]
    cases holder <;> exact acquired
  · have still : ∀ task, (spotOf (s.tasks task)).2 = false := settled
    have sampled : ∀ task, pending (spotOf (s.tasks task)) = false := by
      intro task
      by_contra waits
      have delayed : config.wait (s.tasks task).frame = .delay config.sampleDelay := by
        refine wait_of_pending equal ?_
        rw [spotOf, settled task] at waits
        simpa using waits
      exact timely.no_delay_at_edge settled here task _ delayed
    have view : holder.map (callersOf (config.program.atEdge (!s.level) s.tasks)) =
        (holder.map (callersOf s.tasks)).map fun spot =>
          config.behindEdge (Program.edgeOf !s.level) spot.1 := by
      rw [callers, Option.map_map]
      rfl
    simp only [view, spotOf_atEdge settled]
    generalize level : s.level = high at cycle
    cases cycle with
    | low seen low =>
        refine low.rise (fun spot same => ?_) _
        obtain ⟨k, -, rfl⟩ := Option.map_eq_some_iff.mp same
        exact still (.caller k)
    | high phase inputs high =>
        refine high.fall (fun spot same => ?_) (sampled .monitor) (sampled .checker) _
        obtain ⟨k, -, rfl⟩ := Option.map_eq_some_iff.mp same
        exact ⟨sampled (.caller k), still (.caller k)⟩

/-- **A sample delay ends.** -/
theorem Agreed.timer (agreed : Agreed config s) {task : ApbTask K} {span : Nat}
    (delayed : config.wait (s.tasks task).frame = .delay span) :
    Agreed config { s with
      tasks := update s.tasks task { (s.tasks task) with due := none, runnable := true } } := by
  obtain ⟨holder, lock, acquired, silent, cycle⟩ := agreed
  cases task with
  | caller k =>
      have isHolder : holder = some k := by
        by_contra away
        have outside : Outside (s.tasks (.caller k)).frame := lock.outside k away
        generalize (s.tasks (.caller k)).frame = frame at delayed outside
        cases outside <;> cases delayed
      subst isHolder
      obtain ⟨request, waitCycles, same⟩ := cycle.delayed delayed
      refine ⟨some k, ?_, ?_, silent, ?_⟩
      · rw [callersOf_update]
        refine lock.move ?_
        simp only [spotOf, same]
        exact nofun
      · simpa [callersOf_update, held, spotOf, callersOf] using acquired
      · simp only [callersOf_update, Option.map_some, Function.update_self,
          Function.update_of_ne (by simp : ApbTask.monitor ≠ .caller k),
          Function.update_of_ne (by simp : ApbTask.checker ≠ .caller k)]
        refine cycle.woken (.inr ⟨request, waitCycles, (s.tasks (.caller k)).runnable, ?_, ?_⟩) (.inl rfl)
          (.inl rfl)
        · simp [callersOf, spotOf, same]
        · simp [spotOf, same]
  | monitor =>
      refine ⟨holder, lock, acquired, silent, cycle.woken (.inl rfl) ?_ (.inl rfl)⟩
      rcases cycle.delayed_monitor delayed with same | same
      · exact .inr (.inl ⟨by simp [spotOf], same⟩)
      · exact .inr (.inr ⟨by simp [spotOf], same⟩)
  | checker =>
      refine ⟨holder, lock, acquired, silent, cycle.woken (.inl rfl) (.inl rfl) (.inr ⟨?_, ?_⟩)⟩
      · simp [spotOf]
      · exact cycle.delayed_checker delayed

/-- A call returns. -/
theorem AgreedFor.finish {k : K} {request : ApbRequest A D B} {response : ApbResponse D}
    (agreed : AgreedFor config s (some k)) (runs : (s.tasks (.caller k)).runnable = true)
    (frame : (s.tasks (.caller k)).frame = .finish request response) :
    AgreedFor config { s with
      tasks := (config.program (K := K) (A := A) (D := D)).wakeAll ((release s.shared.lock).2.map .caller)
        (update s.tasks (.caller k) ((config.program (K := K) (A := A) (D := D)).suspended s.now .idle))
      shared := (config.access k (.finish request response) s.shared).2.1 } none := by
  obtain ⟨lock, acquired, silent, cycle⟩ := agreed
  have spot : callersOf s.tasks k = (.finish request response, true) := Prod.ext frame runs
  have observers : ∀ task : ApbTask K, (∀ k, task ≠ .caller k) →
      (config.program (K := K) (A := A) (D := D)).wakeAll ((release s.shared.lock).2.map .caller)
        (update s.tasks (.caller k) ((config.program (K := K) (A := A) (D := D)).suspended s.now .idle)) task = s.tasks task := by
    intro task other
    unfold Program.wakeAll
    rw [if_neg, Function.update_of_ne (other k)]
    rintro ⟨member, -⟩
    obtain ⟨k', -, same⟩ := List.mem_map.mp member
    exact other k' same.symm
  refine ⟨lock.release _ (fun other => ?_) (fun other wakes => ?_), ?_, silent, ?_⟩
  · rw [← callersOf_suspended config _ _ s.now]
    exact Program.wakeAll_frame _ _ _
  · rw [← callersOf_suspended config _ _ s.now]
    rcases (Program.wakeAll_runnable _ _ _).mp wakes with before | ⟨member, -⟩
    · exact .inl before
    · obtain ⟨k', member', same⟩ := List.mem_map.mp member
      cases same
      exact .inr member'
  · simp only [held, spot, requestOf, Option.map_some, Option.toList_some] at acquired
    simp [held, access, acquired]
  · simp only [Option.map_some, spot] at cycle
    have returned := cycle.finish k
    simp only [observers .monitor nofun, observers .checker nofun]
    exact returned

/-- **A caller runs.** -/
theorem Agreed.runCaller (equal : config.Equal) (timely : Timely config.program s) (agreed : Agreed config s)
    {k : K} (runs : (s.tasks (.caller k)).runnable = true) :
    Agreed config { s with
      tasks := (config.program (K := K) (A := A) (D := D)).wakeAll
        ((config.access k (s.tasks (.caller k)).frame s.shared).2.2.map .caller)
        (update s.tasks (.caller k)
          ((config.program (K := K) (A := A) (D := D)).suspended s.now (config.access k (s.tasks (.caller k)).frame s.shared).1))
      shared := (config.access k (s.tasks (.caller k)).frame s.shared).2.1 } := by
  obtain ⟨holder, agreed⟩ := agreed
  have spot : callersOf s.tasks k = ((s.tasks (.caller k)).frame, true) := Prod.ext rfl runs
  by_cases isHolder : holder = some k
  · subst isHolder
    by_cases finishes : ∃ request response, (s.tasks (.caller k)).frame = .finish request response
    · obtain ⟨request, response, frame⟩ := finishes
      refine ⟨none, ?_⟩
      have returned := agreed.finish runs frame
      rw [frame]
      exact returned
    · obtain ⟨lock, acquired, silent, cycle⟩ := agreed
      simp only [Option.map_some, spot] at cycle
      obtain ⟨next, nobody, request, inside, same⟩ := cycle.access k equal.unlimited
        (fun request response frame => finishes ⟨request, response, frame⟩)
        (past_of_runs timely rfl runs)
      rw [nobody]
      simp only [List.map_nil, Program.wakeAll_nil]
      refine ⟨some k, ?_, ?_, ?_, ?_⟩
      · rw [callersOf_update, same]
        exact lock.move inside
      · rw [callersOf_update, same]
        simp only [held, Function.update_self, spot, spotOf, Program.suspended_frame, request] at acquired ⊢
        exact acquired
      · rw [same]
        exact silent
      · simp only [callersOf_update, Option.map_some, Function.update_self,
          Function.update_of_ne (by simp : ApbTask.monitor ≠ .caller k),
          Function.update_of_ne (by simp : ApbTask.checker ≠ .caller k)]
        exact next
  · obtain ⟨lock, acquired, silent, cycle⟩ := agreed
    -- outside the lock only the first waiter runs
    have first := lock.quiet k isHolder runs
    have member : k ∈ s.shared.lock.waiters := List.mem_of_mem_head? first.2
    obtain ⟨request, frame⟩ := (lock.queued k).mp member
    obtain ⟨rfl, taken⟩ := lock.takeOver frame runs
    have fits := lock.fits k request frame
    have frame' : (s.tasks (.caller k)).frame = .queued request := frame
    rw [frame']
    refine ⟨some k, ?_, ?_, silent, ?_⟩
    · simp only [access, List.map_nil, Program.wakeAll_nil, callersOf_update]
      exact taken
    · simp only [access, List.map_nil, Program.wakeAll_nil, callersOf_update, held, Function.update_self,
        spotOf, Program.suspended_frame, requestOf, Option.map_some, Option.toList_some]
      simpa [held] using acquired
    · simp only [access, List.map_nil, Program.wakeAll_nil, callersOf_update, Option.map_some,
        Function.update_self, Function.update_of_ne (by simp : ApbTask.monitor ≠ .caller k),
        Function.update_of_ne (by simp : ApbTask.checker ≠ .caller k)]
      exact (cycle.acquire fits).congr rfl rfl rfl

/-- **The monitor runs.** -/
theorem Agreed.runMonitor (equal : config.Equal) (timely : Timely config.program s)
    (agreed : Agreed config s) (runs : (s.tasks .monitor).runnable = true) :
    Agreed config { s with
      tasks := update s.tasks .monitor ((config.program (K := K) (A := A) (D := D)).suspended s.now
        (config.observe s.now (s.tasks .monitor).frame s.shared.signals).1)
      shared := { s.shared with observed := s.shared.observed ++
        (config.observe s.now (s.tasks .monitor).frame s.shared.signals).2 } } := by
  obtain ⟨holder, lock, acquired, silent, cycle⟩ := agreed
  exact ⟨holder, lock, acquired, silent,
    cycle.observes runs s.now (past_of_runs timely equal.monitor runs)⟩

/-- **The checker runs.** -/
theorem Agreed.runChecker (equal : config.Equal) (timely : Timely config.program s)
    (agreed : Agreed config s) (runs : (s.tasks .checker).runnable = true) :
    Agreed config { s with
      tasks := update s.tasks .checker ((config.program (K := K) (A := A) (D := D)).suspended s.now
        (config.checks (s.tasks .checker).frame s.shared.signals).1)
      shared := { s.shared with violations := s.shared.violations ++
        (config.checks (s.tasks .checker).frame s.shared.signals).2 } } := by
  obtain ⟨holder, lock, acquired, silent, cycle⟩ := agreed
  obtain ⟨quiet, next⟩ := cycle.checks runs (past_of_runs timely equal.checker runs)
  refine ⟨holder, lock, acquired, ?_, next.congr rfl rfl rfl⟩
  change s.shared.violations ++ (config.checks (spotOf (s.tasks .checker)).1 s.shared.signals).2 = []
  rw [silent, quiet]
  rfl

/-- A request that does not throw fits the bus. -/
theorem fits_of_partialWrite {request : ApbRequest A D B} (whole : config.partialWrite request = false) :
    config.Fits request := by
  rintro address data byteEnable rfl noStrobe
  simpa [partialWrite, noStrobe] using whole

/-- **A caller calls the master.** -/
theorem Agreed.call (agreed : Agreed config s) {k : K} (request : ApbRequest A D B)
    (frame : (s.tasks (.caller k)).frame = .idle) :
    Agreed config { s with
      tasks := update s.tasks (.caller k) ((config.program (K := K) (A := A) (D := D)).suspended s.now
        (config.call k request s.shared).1)
      shared := (config.call k request s.shared).2 } := by
  obtain ⟨holder, lock, acquired, silent, cycle⟩ := agreed
  have idle : (callersOf s.tasks k).1 = .idle := frame
  have away : holder ≠ some k := fun isHolder => lock.inside k isHolder (idle ▸ .idle)
  -- the caller is not the holder, so that the holder stays where it is
  have stays : ∀ spot : ApbSpot A D B, holder.map (update (callersOf s.tasks) k spot) =
      holder.map (callersOf s.tasks) ∧
        held (update (callersOf s.tasks) k spot) holder = held (callersOf s.tasks) holder := by
    intro spot
    cases holder with
    | none => exact ⟨rfl, rfl⟩
    | some other =>
        have same : other ≠ k := fun same => away (by rw [same])
        simp [held, same]
  unfold ApbConfig.call
  by_cases partly : config.partialWrite request = true
  · rw [if_pos partly]
    refine ⟨holder, ?_, ?_, silent, ?_⟩
    · rw [callersOf_suspended]
      exact lock.thrown idle
    · rw [callersOf_suspended, (stays _).2]
      exact acquired
    · rw [callersOf_suspended, (stays _).1]
      exact cycle.congr rfl rfl rfl
  have fits : config.Fits request := fits_of_partialWrite (by simpa using partly)
  rw [if_neg partly]
  by_cases locked : s.shared.lock.locked = true
  · rw [if_pos locked]
    refine ⟨holder, ?_, ?_, silent, ?_⟩
    · rw [callersOf_suspended]
      exact lock.enqueue idle fits
    · rw [callersOf_suspended, (stays _).2]
      exact acquired
    · rw [callersOf_suspended, (stays _).1]
      exact cycle.congr rfl rfl rfl
  · rw [if_neg locked]
    have free : s.shared.lock.locked = false := by simpa using locked
    obtain ⟨rfl, -⟩ := lock.holder_of_free free
    refine ⟨some k, ?_, ?_, silent, ?_⟩
    · rw [callersOf_suspended]
      exact lock.acquire free idle
    · rw [callersOf_suspended]
      simpa [held, requestOf] using acquired
    · rw [callersOf_suspended]
      simp only [Option.map_some, Function.update_self]
      exact (cycle.acquire fits).congr rfl rfl rfl

/-- **One step.** -/
theorem Agreed.step (equal : config.Equal) (timely : Timely config.program s) (agreed : Agreed config s)
    {a : Clocked.Action (ApbTask K) (ApbRequest A D B) (ApbInputs D)} (allowed : Program.Allowed s a)
    (stepped : config.program.step s a = some t) : Agreed config t := by
  cases a with
  | advance time inputs =>
      cases stepped
      exact agreed.advance equal timely time inputs allowed
  | clock =>
      cases stepped
      exact agreed.edge equal timely allowed.1 allowed.2
  | timer task =>
      obtain ⟨ended, rfl⟩ := Program.step_timer stepped
      obtain ⟨-, span, delayed, -⟩ := timely.due task s.now ended
      exact agreed.timer delayed
  | run task =>
      obtain ⟨runs, rfl⟩ := Program.step_run stepped
      cases task with
      | caller k => exact agreed.runCaller equal timely runs
      | monitor =>
          have next := agreed.runMonitor equal timely runs
          simp only [program, resume, Program.wakeAll_nil]
          exact next
      | checker =>
          have next := agreed.runChecker equal timely runs
          simp only [program, resume, Program.wakeAll_nil]
          exact next
  | start task request =>
      obtain ⟨next, entered, rfl⟩ := Program.step_start stepped
      change config.enter task request (s.tasks task).frame s.shared = some next at entered
      cases task with
      | caller k =>
          cases frame : (s.tasks (.caller k)).frame with
          | idle =>
              rw [frame] at entered
              cases entered
              exact agreed.call request frame
          | _ =>
              rw [frame] at entered
              cases entered
      | monitor | checker => cases entered

/-- Before the first edge. -/
theorem Starts.agreed (starts : Starts s) : Agreed config s := by
  obtain ⟨signals, select, enable, -, -, bus, quiet, callers, monitor, checker⟩ := starts
  have idle : ∀ k, callersOf s.tasks k = (.idle, false) := fun k => Prod.ext (callers k) (quiet _).1
  have monitorAt : spotOf (s.tasks .monitor) = (.seek, false) := Prod.ext monitor (quiet _).1
  have checkerAt : spotOf (s.tasks .checker) =
      (.check { address := default, writeData := default, strobe := default }, false) :=
    Prod.ext checker (quiet _).1
  refine ⟨none, ?_, ?_, ?_, ?_⟩
  · rw [bus]
    refine
      { locked := rfl
        handed := nofun
        nodup := List.nodup_nil
        queued := fun k => ?_
        fits := fun k request here => ?_
        outside := fun k _ => ?_
        inside := nofun
        quiet := fun k _ runs => ?_ }
    · rw [idle]
      simp
    · rw [idle] at here
      cases here
    · rw [idle]
      exact .idle
    · rw [idle] at runs
      cases runs
  · rw [bus]
    rfl
  · rw [bus]
  · rw [monitorAt, checkerAt, bus]
    cases s.level with
    | false =>
        exact .low .nothing
          { holderAt := .free ⟨select, enable⟩
            monitorAt := ⟨trivial, rfl, rfl⟩
            checkerAt := ⟨_, rfl, rfl, rfl⟩
            published := rfl }
    | true =>
        have nobody : ¬Waits (A := A) (D := D) (B := B) none (.seek, false)
            (.check { address := default, writeData := default, strobe := default }, false) := by
          rintro (none | none | ⟨spot, none, -⟩) <;> cases none
        exact .high .idle signals.inputs
          { shown := ⟨select, enable⟩
            holderAt := .free
            monitorAt := trivial
            checkerAt := ⟨_, .inl rfl, rfl, rfl⟩
            current := fun some => absurd some nobody
            sampled := fun some => absurd some nobody
            published := rfl }

/-- **Every reachable state.** -/
theorem agreed (equal : config.Equal) (reach : config.Reaches s) : Agreed config s :=
  Cpptb.Runs.Reach.invariant_of (fun _ (before : config.Reaches _) => timely equal before)
    (fun _ starts => starts.agreed)
    (fun _ _ _ timely _ agreed allowed stepped => agreed.step equal timely allowed stepped) reach

/-- What the components have done agrees. -/
structure Agrees (config : ApbConfig B) (s : System K A D B) : Prop where
  /-- The checker has found nothing. -/
  noViolation : s.shared.violations = []
  /-- The calls return in the order in which they acquired the lock, -/
  inOrder : s.shared.completed.map Prod.fst <+: s.shared.acquired
  /-- the next one behind the return of the last, -/
  exclusive : s.shared.acquired.length ≤ s.shared.completed.length + 1
  /-- each with a transaction of the monitor that equals call and response, in the same order. -/
  published : config.transactions s.shared <+: s.shared.observed.map ApbObservation.value
  /-- While the clock is low and nothing runs there are no other transactions, -/
  complete : Settled s → s.level = false →
    s.shared.observed.map ApbObservation.value = config.transactions s.shared
  /-- and never more than that of the call that is about to return. -/
  ahead : s.shared.observed.length ≤ s.shared.completed.length + 1

/-- **Master, monitor and checker agree**, in every run. -/
theorem apb_agree (equal : config.Equal) (reach : config.Reaches s) : config.Agrees s := by
  obtain ⟨holder, lock, acquired, silent, cycle⟩ := agreed equal reach
  have count : (config.transactions s.shared).length = s.shared.completed.length := List.length_map _
  have alone : (held (callersOf s.tasks) holder).length ≤ 1 := by
    cases holder with
    | none => exact Nat.zero_le 1
    | some k => simp [held, Option.length_toList_le]
  have extra : ∃ rest : List (ApbTransaction A D B),
      s.shared.observed.map ApbObservation.value = config.transactions s.shared ++ rest ∧
        rest.length ≤ 1 ∧ (Settled s → s.level = false → rest = []) := by
    generalize level : s.level = high at cycle
    cases cycle with
    | low seen low =>
        refine ⟨_, low.published, ?_, fun settled _ => ?_⟩
        · unfold finishing
          split <;> simp
        · have here := low.holderAt
          cases holder with
          | none => rfl
          | some k =>
              have still : (callersOf s.tasks k).2 = false := settled (.caller k)
              rw [Option.map_some] at here ⊢
              generalize callersOf s.tasks k = spot at here still
              cases here with
              | finish => cases still
              | _ => rfl
    | high phase inputs high =>
        refine ⟨_, high.published, ?_, fun _ low => nomatch low⟩
        split
        · exact Nat.zero_le 1
        · simp [completing, Option.length_toList_le]
  obtain ⟨rest, observed, few, none⟩ := extra
  refine
    { noViolation := silent
      inOrder := ⟨_, acquired.symm⟩
      exclusive := ?_
      published := ⟨rest, observed.symm⟩
      complete := fun settled low => ?_
      ahead := ?_ }
  · rw [acquired]
    simp only [List.length_append, List.length_map]
    omega
  · rw [observed, none settled low, List.append_nil]
  · have length := congrArg List.length observed
    simp only [List.length_append, List.length_map] at length
    omega

end Runs

/-! ### A run with two callers -/

/-- A bus with four strobes. -/
def fourLanes : ApbConfig Nat where
  half := 5
  sampleDelay := 1
  monitorDelay := 1
  checkerDelay := 1
  hasStrobe := true
  allBytes := 15

/-- Before the first edge, at time zero. -/
def resting : System Bool Nat Nat Nat where
  edge := 5
  tasks task := { frame := match task with
    | .caller _ => .idle
    | .monitor => .seek
    | .checker => .check { address := default, writeData := default, strobe := default } }
  shared := { signals := { address := 0, writeData := 0, readData := 0, strobe := 0 } }

/-- A cycle: some tasks run at its rising edge, some sample in it, and some run at its falling edge. -/
def cycleAt (time : Nat) (inputs : ApbInputs Nat) (early samplers late : List (ApbTask Bool)) :
    List (Clocked.Action (ApbTask Bool) (ApbRequest Nat Nat Nat) (ApbInputs Nat)) :=
  [.advance time inputs, .clock] ++ early.map .run ++ samplers.map .run ++ [.advance (time + 1) inputs] ++
    samplers.map .timer ++ samplers.map .run ++ [.advance (time + 5) inputs, .clock] ++ late.map .run

/-- A write with one wait cycle and an error, while a read waits for the lock. -/
def contended : List (Clocked.Action (ApbTask Bool) (ApbRequest Nat Nat Nat) (ApbInputs Nat)) :=
  [.start (.caller false) (.write 4 9 3), .start (.caller true) (.read 8)] ++
    cycleAt 5 ⟨true, false, 0⟩ [] [.monitor, .checker] [.caller false] ++
    cycleAt 15 ⟨true, false, 0⟩ [.caller false] [.checker, .monitor] [.caller false] ++
    cycleAt 25 ⟨false, true, 0⟩ [] [.caller false, .monitor, .checker] [] ++
    cycleAt 35 ⟨true, true, 7⟩ [] [.monitor, .caller false, .checker] [.caller false, .caller true]

set_option synthInstance.maxSize 512 in
theorem apb_agree_contended :
    ∃ s, fourLanes.Reaches s ∧
      s.shared.acquired = [(false, .write 4 9 3), (true, .read 8)] ∧
      s.shared.completed = [((false, .write 4 9 3), ⟨none, .slaveError, 1⟩)] ∧
      s.shared.observed = [⟨16, 36, ⟨.write, 4, 9, 3, .slaveError, 1⟩⟩] ∧ fourLanes.Agrees s := by
  have ran : (Runs.runAllowed fourLanes.program.step Program.Allowed resting contended).map
      (fun s => (s.shared.acquired, s.shared.completed, s.shared.observed)) =
        some ([(false, .write 4 9 3), (true, .read 8)],
          [((false, .write 4 9 3), ⟨none, .slaveError, 1⟩)],
          [⟨16, 36, ⟨.write, 4, 9, 3, .slaveError, 1⟩⟩]) := by
    decide +kernel
  obtain ⟨s, ended, values⟩ := Option.map_eq_some_iff.mp ran
  have starts : Starts resting :=
    ⟨_, rfl, rfl, by decide, rfl, rfl, fun _ => ⟨rfl, rfl⟩, fun _ => rfl, rfl, rfl⟩
  have reach : fourLanes.Reaches s := Cpptb.Runs.Reach.runAllowed (.start starts) contended ended
  exact ⟨s, reach, congrArg Prod.fst values, congrArg (·.2.1) values, congrArg (·.2.2) values,
    apb_agree ⟨by decide, rfl, rfl, rfl⟩ reach⟩

end ApbConfig

end Cpptb.Vc
