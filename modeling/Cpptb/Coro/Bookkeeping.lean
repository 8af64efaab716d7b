/-
The bookkeeping of the scheduler is exact.

* `Booked` — the counters of the waits fit the live registrations (`Counted`), and so do the edge
  queues and their two totals (`Listed`);
* `Tallied` — `live_ready_count_` and `active_coroutines_` fit the states;
* `booked_prim`, `tallied_prim` — every elementary change of the core keeps them;
* `bookkeeping_exact` — they hold in every reachable machine, and compaction removes no valid
  registration.
-/

import Cpptb.Coro.Interest

namespace Cpptb.Coro

open Function (update)
open Cpptb.Tally

variable {κ : Type}

/-! ### The edge queues -/

/-- The registrations of an edge queue among the live ones, oldest first. -/
def inQueue (live : List (WaitSource × WaitRegistration)) (q : Nat) : List WaitRegistration :=
  live.reverse.filterMap fun x => if x.1.queue == some q then some x.2 else none

/-- The edge queues hold the live edge registrations in order, and their totals are exact. -/
structure Listed (s : Scheduler) : Prop where
  queues : ∀ q, (s.edges.waiters q).filter (registrationValid s.states) = inQueue s.live q
  beyond : ∀ q, s.edges.queueCount ≤ q → s.edges.waiters q = []
  entries : s.edges.queueEntries =
    (∑ q ∈ Finset.range s.edges.queueCount, (s.edges.waiters q).length : Nat)
  stale : s.edges.staleRegistrations =
    (∑ q ∈ Finset.range s.edges.queueCount,
      (s.edges.waiters q).countP (fun r => !registrationValid s.states r) : Nat)
  posted : ∀ q, ∀ r ∈ s.edges.waiters q, s.Registered r

/-- The waits are booked. No edge was registered before the first wait. -/
structure Booked (s : Scheduler) : Prop where
  counted : Counted s.ledger s.live
  listed : Listed s
  early : s.waitRegistered = false → ∀ x ∈ s.registrations, x.1.queue = none

/-- `t` differs from `s` in nothing that is booked. -/
structure Unbooked (s t : Scheduler) : Prop where
  ledger : t.ledger = s.ledger
  registrations : t.registrations = s.registrations
  valid : ∀ r, s.Registered r → registrationValid t.states r = registrationValid s.states r
  waiters : t.edges.waiters = s.edges.waiters
  queueCount : t.edges.queueCount = s.edges.queueCount
  entries : t.edges.queueEntries = s.edges.queueEntries
  stale : t.edges.staleRegistrations = s.edges.staleRegistrations
  waited : t.waitRegistered = false → s.waitRegistered = false

theorem registered_iff_mem {s : Scheduler} {r : WaitRegistration} :
    s.Registered r ↔ ∃ source, (source, r) ∈ s.registrations :=
  exists_congr fun _ => Scheduler.mem_registrations.symm

theorem registered_congr {s t : Scheduler} (same : t.registrations = s.registrations)
    (r : WaitRegistration) : t.Registered r ↔ s.Registered r := by
  rw [registered_iff_mem, registered_iff_mem, same]

namespace Unbooked

variable {s t u : Scheduler}

theorem live (same : Unbooked s t) : t.live = s.live :=
  Scheduler.live_congr same.registrations fun _ member =>
    same.valid _ (Scheduler.registered_of_mem member)

theorem trans (first : Unbooked s t) (second : Unbooked t u) : Unbooked s u where
  ledger := second.ledger.trans first.ledger
  registrations := second.registrations.trans first.registrations
  valid r registered := (second.valid r ((registered_congr first.registrations r).mpr
    registered)).trans (first.valid r registered)
  waiters := second.waiters.trans first.waiters
  queueCount := second.queueCount.trans first.queueCount
  entries := second.entries.trans first.entries
  stale := second.stale.trans first.stale
  waited late := first.waited (second.waited late)

theorem listed (same : Unbooked s t) (ok : Listed s) : Listed t where
  queues q := by
    rw [same.waiters, same.live, ← ok.queues q]
    exact List.filter_congr fun r member => same.valid r (ok.posted q r member)
  beyond q := by
    rw [same.waiters, same.queueCount]
    exact ok.beyond q
  entries := by
    rw [same.entries, same.queueCount, same.waiters]
    exact ok.entries
  stale := by
    rw [same.stale, same.queueCount, same.waiters, ok.stale]
    congr 1
    refine Finset.sum_congr rfl fun q _ => List.countP_congr fun r member => ?_
    rw [same.valid r (ok.posted q r member)]
  posted q r member := by
    rw [same.waiters] at member
    exact (registered_congr same.registrations r).mpr (ok.posted q r member)

theorem booked (same : Unbooked s t) (ok : Booked s) : Booked t where
  counted := by
    rw [same.ledger, same.live]
    exact ok.counted
  listed := same.listed ok.listed
  early late := by
    rw [same.registrations]
    exact ok.early (same.waited late)

/-- A change outside the states, the queues and the counters. -/
theorem of_frame (states : t.states = s.states) (edges : t.edges = s.edges)
    (phases : t.phases.waiterCounts = s.phases.waiterCounts ∧
      t.phases.waitCountsByState = s.phases.waitCountsByState ∧
      t.phases.underflow = s.phases.underflow)
    (handouts : t.handouts = s.handouts)
    (waited : t.waitRegistered = false → s.waitRegistered = false) : Unbooked s t where
  ledger := by
    unfold Scheduler.ledger
    rw [states, edges, phases.1, phases.2.1, phases.2.2]
  registrations := by
    unfold Scheduler.registrations
    rw [handouts]
  valid r _ := by rw [states]
  waiters := by rw [edges]
  queueCount := by rw [edges]
  entries := by rw [edges]
  stale := by rw [edges]
  waited := waited

/-- One state changes, but not what it has counted. -/
theorem of_state {i : Nat} {state : CoroutineState} (states : t.states = update s.states i state)
    (edgeWaits : state.edgeWaitCount = (s.states i).edgeWaitCount)
    (fallingWaits : state.fallingEdgeWaitCount = (s.states i).fallingEdgeWaitCount)
    (valid : ∀ r, s.Registered r →
      registrationValid t.states r = registrationValid s.states r)
    (edges : t.edges = s.edges) (phases : t.phases = s.phases)
    (handouts : t.handouts = s.handouts) (waited : t.waitRegistered = s.waitRegistered) :
    Unbooked s t where
  ledger := by
    have waits : ∀ k, (t.states k).edgeWaitCount = (s.states k).edgeWaitCount ∧
        (t.states k).fallingEdgeWaitCount = (s.states k).fallingEdgeWaitCount := by
      intro k
      rw [states]
      by_cases same : k = i
      · subst same
        rw [Function.update_self]
        exact ⟨edgeWaits, fallingWaits⟩
      · rw [Function.update_of_ne same]
        exact ⟨rfl, rfl⟩
    unfold Scheduler.ledger
    rw [edges, phases, funext fun k => (waits k).1, funext fun k => (waits k).2]
  registrations := by
    unfold Scheduler.registrations
    rw [handouts]
  valid := valid
  waiters := by rw [edges]
  queueCount := by rw [edges]
  entries := by rw [edges]
  stale := by rw [edges]
  waited late := waited.symm.trans late

end Unbooked

/-! ### The functions of parts 2 and 3 -/

theorem unbooked_makeReady (s : Scheduler) (i : Nat) (cause : ReadyCause) :
    Unbooked s (s.makeReady i cause) := by
  have valid := Scheduler.valid_makeReady s i cause
  unfold Scheduler.makeReady at valid ⊢
  split
  · exact .of_frame rfl rfl ⟨rfl, rfl, rfl⟩ rfl id
  · rename_i inside
    rw [if_neg inside] at valid
    split
    · exact .of_frame rfl rfl ⟨rfl, rfl, rfl⟩ rfl id
    · rename_i active
      rw [if_neg active] at valid
      exact .of_state rfl rfl rfl (fun r _ => valid r) rfl rfl rfl rfl

theorem unbooked_clearReady (s : Scheduler) (i : Nat) : Unbooked s (s.clearReady i) := by
  have valid := Scheduler.valid_clearReady s i
  unfold Scheduler.clearReady at valid ⊢
  split
  · rename_i ready
    rw [if_pos ready] at valid
    exact .of_state rfl rfl rfl (fun r _ => valid r) rfl rfl rfl rfl
  · exact .of_frame rfl rfl ⟨rfl, rfl, rfl⟩ rfl id

theorem unbooked_enterState (s : Scheduler) (i : Nat) : Unbooked s (s.enterState i) :=
  .of_state rfl rfl rfl (fun r _ => Scheduler.valid_enterState s i r) rfl rfl rfl rfl

theorem unbooked_setWinner (s : Scheduler) (r : WaitRegistration) :
    Unbooked s (s.setWinner r) := by
  unfold Scheduler.setWinner
  split
  · exact .of_frame rfl rfl ⟨rfl, rfl, rfl⟩ rfl id
  · exact .of_frame rfl rfl ⟨rfl, rfl, rfl⟩ rfl id

theorem unbooked_record (s : Scheduler) (event : Event) (inside : event.handsOut = false) :
    Unbooked s (s.record event) := by
  refine .of_frame rfl rfl ⟨rfl, rfl, rfl⟩ ?_ id
  unfold Scheduler.handouts Scheduler.record
  rw [List.filter_cons_of_neg (by simp [inside])]

theorem unbooked_parkExternal (s : Scheduler) (r : WaitRegistration) :
    Unbooked s (s.record (.parkedExternal r)) where
  ledger := rfl
  registrations := rfl
  valid _ _ := rfl
  waiters := rfl
  queueCount := rfl
  entries := rfl
  stale := rfl
  waited := id

/-- A coroutine that does not wait is done. -/
theorem unbooked_markDone {s : Scheduler} {i : Nat} (still : (s.slot i).waiting = false) :
    Unbooked s (s.markDone i) := by
  refine .of_state rfl rfl rfl (fun r _ => ?_) rfl rfl rfl rfl
  refine Scheduler.valid_of_still (i := i) (fun k other => ?_) still ?_ r
  · rw [Scheduler.slot_markDone, if_neg other]
  · rw [Scheduler.slot_markDone, if_pos rfl]
    exact still

/-- A coroutine that does not wait gets another generation. -/
theorem unbooked_generation {s : Scheduler} {i : Nat} (still : (s.slot i).waiting = false)
    (generation : Nat) :
    Unbooked s { s with
      states := update s.states i { s.states i with waitGeneration := generation }
      nextWaitGeneration := generation } := by
  refine .of_state rfl rfl rfl (fun r _ => ?_) rfl rfl rfl rfl
  refine Scheduler.valid_of_still (i := i) (fun k other => ?_) still ?_ r
  · exact (Scheduler.slot_update _ _ _ _).trans (if_neg other)
  · exact (congrArg Slot.waiting ((Scheduler.slot_update _ _ _ _).trans (if_pos rfl))).trans still

/-- Nothing is counted for a state that does not wait. -/
theorem Booked.unwaited {s : Scheduler} (ok : Booked s) {i : Nat}
    (still : (s.slot i).waiting = false) :
    (s.states i).edgeWaitCount = 0 ∧ (s.states i).fallingEdgeWaitCount = 0 := by
  have none : ∀ p : WaitSource × WaitRegistration → Bool,
      (s.live.countP fun x => ofSlot i x && p x) = 0 := by
    intro p
    refine List.countP_eq_zero.mpr fun x member counted => ?_
    rw [Bool.and_eq_true] at counted
    exact Scheduler.stateIndex_ne_of_live still member (beq_iff_eq.mp counted.1)
  exact ⟨(ok.counted.edgeWaits i).trans (none _), (ok.counted.fallingWaits i).trans (none _)⟩

theorem unbooked_adopt {s : Scheduler} (ok : Booked s) (slots : SlotsOk s)
    (promise : TaskPromise) : Unbooked s (s.adopt promise) := by
  have still := (slots.vacant _ slots.adoptIndex_vacant).1
  obtain ⟨edgeWaits, fallingWaits⟩ := ok.unwaited still
  refine .of_state rfl edgeWaits.symm fallingWaits.symm (fun r _ => ?_) rfl rfl rfl rfl
  refine Scheduler.valid_of_still (i := s.adoptIndex) (fun k other => ?_) still ?_ r
  · exact (Scheduler.slot_adopt s promise k).trans (if_neg other)
  · rw [Scheduler.slot_adopt, if_pos rfl]

theorem unbooked_freeState {s : Scheduler} (ok : Booked s) {i : Nat}
    (still : (s.slot i).waiting = false) : Unbooked s (s.freeState i) := by
  obtain ⟨edgeWaits, fallingWaits⟩ := ok.unwaited still
  refine .of_state rfl edgeWaits.symm fallingWaits.symm (fun r _ => ?_) rfl rfl rfl rfl
  refine Scheduler.valid_of_still (i := i) (fun k other => ?_) still ?_ r
  · exact (slot_freeState s i k).trans (if_neg other)
  · rw [slot_freeState, if_pos rfl]

theorem unbooked_beginWait {s : Scheduler} {i : Nat} (still : (s.slot i).waiting = false)
    (unready : (s.slot i).ready = false)
    (older : ∀ r, s.Registered r → r.generation ≤ s.nextWaitGeneration)
    (diagnostic : WaitDiagnostic) : Unbooked s (s.beginWait i diagnostic) := by
  have valid : ∀ r, s.Registered r → registrationValid (s.beginWait i diagnostic).states r =
      registrationValid s.states r :=
    fun r registered => Scheduler.valid_beginWait still diagnostic (older r registered)
  have waiting : (s.states i).waiting = false := still
  unfold Scheduler.beginWait at valid ⊢
  simp only [waiting, Bool.false_eq_true, if_false, Scheduler.clearReady_of_unready unready]
    at valid ⊢
  exact .of_state rfl rfl rfl valid rfl rfl rfl rfl

/-! ### Ending a wait -/

theorem countP_inQueue (live : List (WaitSource × WaitRegistration)) (q : Nat)
    (p : WaitRegistration → Bool) :
    (inQueue live q).countP p = live.countP fun x => x.1.queue == some q && p x.2 := by
  unfold inQueue
  rw [List.countP_filterMap, List.countP_reverse]
  refine List.countP_congr fun x _ => ?_
  cases here : x.1.queue == some q <;> simp

/-- The edge queues hold every live edge registration below `queueCount`. -/
theorem Listed.inside {s : Scheduler} (ok : Listed s) {x : WaitSource × WaitRegistration}
    (member : x ∈ s.live) {q : Nat} (queue : x.1.queue = some q) : q < s.edges.queueCount := by
  by_contra outside
  have empty := ok.queues q
  rw [ok.beyond q (Nat.le_of_not_lt outside)] at empty
  have here : x.2 ∈ inQueue s.live q := by
    refine List.mem_filterMap.mpr ⟨x, List.mem_reverse.mpr member, ?_⟩
    rw [queue, beq_self_eq_true, if_pos rfl]
  rw [← empty] at here
  cases here

/-- The end of a wait leaves its edge registrations stale in the queues. -/
theorem edges_endWait {s : Scheduler} (ok : Booked s) (i : Nat) :
    (s.endWait i).edges.waiters = s.edges.waiters ∧
      (s.endWait i).edges.queueCount = s.edges.queueCount ∧
      (s.endWait i).edges.queueEntries = s.edges.queueEntries ∧
      (s.endWait i).edges.staleRegistrations =
        s.edges.staleRegistrations + (s.states i).edgeWaitCount ∧
      (s.endWait i).waitRegistered = s.waitRegistered := by
  refine ⟨congrArg Posted.edges (congrArg Surroundings.posted (Scheduler.surroundings_endWait s i)),
    Scheduler.queueCount_endWait s i, ?_⟩
  cases waiting : (s.states i).waiting with
  | false =>
      rw [Scheduler.endWait_of_still (i := i) waiting, (ok.unwaited (i := i) waiting).1]
      exact ⟨rfl, (Int.add_zero _).symm, rfl⟩
  | true =>
      unfold Scheduler.endWait
      simp only [waiting, if_true]
      split
      · rename_i idle
        rw [idle.1]
        exact ⟨rfl, (Int.add_zero _).symm, rfl⟩
      · obtain ⟨-, -, -, -, -, stale, entries⟩ :=
          EdgeTable.dropInterests_counters (s.edges.waitIndicesByState i) (ok.counted.enough i)
        exact ⟨entries, congrArg (· + ((s.states i).edgeWaitCount : Int)) stale, rfl⟩

theorem Booked.endWait {s : Scheduler} (ok : Booked s) (i : Nat) : Booked (s.endWait i) := by
  obtain ⟨waiters, queueCount, entries, stale, waited⟩ := edges_endWait ok i
  have registrations := Scheduler.registrations_endWait s i
  have valid : ∀ r, registrationValid (s.endWait i).states r =
      (r.stateIndex != i && registrationValid s.states r) :=
    Scheduler.valid_of_ended (fun k other => (Scheduler.slot_endWait s i k).trans (if_neg other))
      (by rw [Scheduler.slot_endWait, if_pos rfl])
  refine ⟨ok.counted.endWait i, ⟨fun q => ?_, fun q outside => ?_, ?_, ?_, fun q r member => ?_⟩,
    fun early => ?_⟩
  · rw [waiters, Scheduler.live_endWait, List.filter_congr fun r _ => valid r,
      ← List.filter_filter, ok.listed.queues]
    unfold inQueue
    rw [List.filter_filterMap, ← List.filter_reverse, List.filterMap_filter]
    refine List.filterMap_congr fun x _ => ?_
    cases here : x.1.queue == some q <;> cases other : x.2.stateIndex != i <;>
      simp [Option.filter, other]
  · rw [waiters]
    exact ok.listed.beyond q (queueCount ▸ outside)
  · rw [entries, queueCount, waiters]
    exact ok.listed.entries
  · -- the valid entries of the slot become stale
    have split : ∀ q, (s.edges.waiters q).countP (fun r => !registrationValid
        (s.endWait i).states r) =
        (s.edges.waiters q).countP (fun r => !registrationValid s.states r) +
          s.live.countP fun x => x.1.queue == some q && ofSlot i x := by
      intro q
      have here := countP_inQueue s.live q fun r => r.stateIndex == i
      rw [← ok.listed.queues q, List.countP_filter] at here
      have sum := countP_split (s.edges.waiters q)
        (fun r => !registrationValid (s.endWait i).states r) (registrationValid s.states)
      rw [List.countP_filter] at sum
      rw [sum, Nat.add_comm]
      congr 1
      · refine List.countP_congr fun r _ => ?_
        rw [valid]
        cases registrationValid s.states r <;> simp
      · refine Eq.trans ?_ here
        refine List.countP_congr fun r _ => ?_
        rw [valid]
        cases registrationValid s.states r <;> simp [bne]
    have total := sum_countP_key (n := s.edges.queueCount) s.live (fun x => x.1.queue)
      (ofSlot i) fun x member q queue => ok.listed.inside member queue
    rw [stale, queueCount, waiters, ok.listed.stale, show (s.states i).edgeWaitCount = _ from
      ok.counted.edgeWaits i, Finset.sum_congr rfl fun q _ => split q, Finset.sum_add_distrib,
      total, Nat.cast_add]
    congr 2
    refine List.countP_congr fun x _ => ?_
    rw [Bool.and_comm]
  · rw [waiters] at member
    exact (registered_congr registrations r).mpr (ok.listed.posted q r member)
  · rw [registrations]
    exact ok.early (waited ▸ early)

theorem Booked.resumeRegistration {s : Scheduler} (ok : Booked s) (r : WaitRegistration) :
    Booked (s.resumeRegistration r) := by
  unfold Scheduler.resumeRegistration
  simp only
  have recorded := (unbooked_record s (.fired r) rfl).booked ok
  split
  · have ended := recorded.endWait r.stateIndex
    exact (unbooked_makeReady _ _ _).booked ((unbooked_setWinner _ r).booked ended)
  · exact recorded

theorem Booked.completeJoin {s : Scheduler} (ok : Booked s) (i generation : Nat) :
    Booked (s.completeJoin i generation) := by
  have recorded := (unbooked_record s (.joinCompleted generation) rfl).booked ok
  exact (unbooked_makeReady _ _ _).booked (recorded.endWait i)

theorem Booked.retireState {s : Scheduler} (ok : Booked s) (i : Nat) : Booked (s.retireState i) := by
  have still : ((s.endWait i).slot i).waiting = false := by
    rw [Scheduler.slot_endWait, if_pos rfl]
  have numbered := (unbooked_generation still (s.nextWaitGeneration + 1)).booked (ok.endWait i)
  rw [← Scheduler.nextWaitGeneration_endWait s i] at numbered
  have cleared := (unbooked_clearReady _ i).booked numbered
  refine (unbooked_markDone ?_).booked cleared
  rw [Scheduler.slot_clearReady, if_pos rfl]
  exact (congrArg Slot.waiting ((Scheduler.slot_update _ _ _ _).trans (if_pos rfl))).trans still

/-! ### Handing out -/

/-- A valid registration that is no edge is handed out. -/
theorem Booked.registered {s t : Scheduler} (ok : Booked s) {source : WaitSource}
    {r : WaitRegistration} (slots : t.slot = s.slot)
    (handouts : t.handouts = (s.record (.registered source r)).handouts)
    (valid : registrationValid s.states r = true) (queue : source.queue = none)
    (counted : Counted t.ledger ((source, r) :: s.live)) (edges : t.edges = s.edges)
    (waited : t.waitRegistered = false → s.waitRegistered = false) : Booked t := by
  obtain ⟨registrations, live⟩ := Scheduler.live_registered slots handouts valid
  have same : ∀ x : WaitRegistration, registrationValid t.states x = registrationValid s.states x :=
    fun x => Scheduler.valid_congr (congrFun slots _)
  refine ⟨live.symm ▸ counted, ⟨fun q => ?_, fun q => ?_, ?_, ?_, fun q r' member => ?_⟩,
    fun early x member => ?_⟩
  · rw [edges, live, List.filter_congr fun x _ => same x, ok.listed.queues q]
    unfold inQueue
    simp [queue]
  · rw [edges]
    exact ok.listed.beyond q
  · rw [edges]
    exact ok.listed.entries
  · rw [edges, ok.listed.stale]
    congr 1
    exact Finset.sum_congr rfl fun q _ => List.countP_congr fun x _ => by rw [same]
  · rw [edges] at member
    obtain ⟨source', before⟩ := registered_iff_mem.mp (ok.listed.posted q r' member)
    exact registered_iff_mem.mpr ⟨source', registrations ▸ List.mem_cons_of_mem _ before⟩
  · rw [registrations] at member
    rcases List.mem_cons.mp member with rfl | before
    · exact queue
    · exact ok.early (waited early) x before

/-- An abort changes nothing else. -/
theorem Booked.fault {s : Scheduler} (ok : Booked s) (fault : Fault) :
    Booked { s with fault := some fault } := by
  have same : Unbooked s { s with fault := some fault } :=
    .of_frame rfl rfl ⟨rfl, rfl, rfl⟩ rfl id
  exact same.booked ok

theorem Booked.registerDelay {s : Scheduler} (ok : Booked s) (femtoseconds : Nat)
    {r : WaitRegistration} (valid : registrationValid s.states r = true) :
    Booked (s.registerDelay femtoseconds r) := by
  unfold Scheduler.registerDelay
  split
  · exact ok.fault _
  · exact ok.registered rfl rfl valid rfl (ok.counted.other rfl rfl fun _ => rfl) rfl
      fun early => by cases early

theorem Booked.registerPhase {s : Scheduler} (ok : Booked s) (phase : Phase)
    {r : WaitRegistration} (valid : registrationValid s.states r = true) :
    Booked (s.registerPhase phase r) := by
  unfold Scheduler.registerPhase
  split
  · exact ok.fault _
  · exact ok.registered rfl rfl valid rfl (Counted.registerPhase ok.counted phase r rfl) rfl
      fun early => by cases early

theorem Booked.registerProcess {s : Scheduler} (ok : Booked s) (control : Nat)
    {r : WaitRegistration} (valid : registrationValid s.states r = true) :
    Booked (s.record (.registered (.process control) r)) :=
  ok.registered rfl rfl valid rfl (ok.counted.other rfl rfl fun _ => rfl) rfl id

theorem edges_registerEdgeWait (s : Scheduler) (signal : Nat) (kind : EdgeKind)
    (r : WaitRegistration) :
    (s.registerEdgeWait signal kind r).edges.queueCount =
        max s.edges.queueCount (EdgeTable.queueIndex signal kind + 1) ∧
      (s.registerEdgeWait signal kind r).edges.queueEntries = s.edges.queueEntries + 1 ∧
      (s.registerEdgeWait signal kind r).edges.staleRegistrations =
        s.edges.staleRegistrations := by
  have queueCount : ∀ e : EdgeTable, ∀ i q, (e.addEdgeInterest i q).queueCount = e.queueCount := by
    intro e i q
    unfold EdgeTable.addEdgeInterest EdgeTable.recordEdgeInterestChange EdgeTable.publish
    simp only
    repeat' split
    all_goals rfl
  obtain ⟨-, -, -, -, -, stale, entries⟩ := EdgeTable.addEdgeInterest_counters
    { s.edges with
      queueCount := max s.edges.queueCount (EdgeTable.queueIndex signal kind + 1)
      waiters := update s.edges.waiters (EdgeTable.queueIndex signal kind)
        (s.edges.waiters (EdgeTable.queueIndex signal kind) ++ [r])
      queueEntries := s.edges.queueEntries + 1 } r.stateIndex (EdgeTable.queueIndex signal kind)
  unfold Scheduler.registerEdgeWait EdgeTable.registerEdgeWait
  simp only
  split
  · exact ⟨queueCount _ _ _, entries, stale⟩
  · exact ⟨queueCount _ _ _, entries, stale⟩

/-- The totals of the queues after one queue has changed, below a bound that may have grown. -/
theorem sum_queues {n m q : Nat} {waiters waiters' : Nat → List WaitRegistration}
    (f : List WaitRegistration → Nat) (nothing : f [] = 0) (less : n ≤ m) (inside : q < m)
    (beyond : ∀ k, n ≤ k → waiters k = []) (others : ∀ k, k ≠ q → waiters' k = waiters k) :
    ∑ k ∈ Finset.range m, f (waiters' k) + f (waiters q) =
      ∑ k ∈ Finset.range n, f (waiters k) + f (waiters' q) := by
  rw [← sum_range_extend (f := fun k => f (waiters k)) less fun k outside => by
    rw [beyond k outside, nothing]]
  exact sum_range_change (f := fun k => f (waiters k)) (g := fun k => f (waiters' k)) inside
    fun k other => congrArg f (others k other)

theorem Booked.registerEdge {s : Scheduler} (ok : Booked s) (signal : Nat) (kind : EdgeKind)
    {r : WaitRegistration} (valid : registrationValid s.states r = true) :
    Booked (s.registerEdgeWait signal kind r) := by
  obtain ⟨registrations, live⟩ := Scheduler.live_registered (t := s.registerEdgeWait signal kind r)
    (funext fun k => Scheduler.slot_registerEdgeWait s signal kind r k) rfl valid
  have same : ∀ x : WaitRegistration, registrationValid (s.registerEdgeWait signal kind r).states x =
      registrationValid s.states x :=
    fun x => Scheduler.valid_congr (Scheduler.slot_registerEdgeWait s signal kind r _)
  have waiters : (s.registerEdgeWait signal kind r).edges.waiters =
      update s.edges.waiters (EdgeTable.queueIndex signal kind)
        (s.edges.waiters (EdgeTable.queueIndex signal kind) ++ [r]) :=
    EdgeTable.waiters_registerEdgeWait s.edges signal kind r
  obtain ⟨queueCount, entries, stale⟩ := edges_registerEdgeWait s signal kind r
  have less : s.edges.queueCount ≤ max s.edges.queueCount (EdgeTable.queueIndex signal kind + 1) :=
    Nat.le_max_left ..
  have inside : EdgeTable.queueIndex signal kind <
      max s.edges.queueCount (EdgeTable.queueIndex signal kind + 1) := Nat.le_max_right ..
  have others : ∀ k, k ≠ EdgeTable.queueIndex signal kind →
      update s.edges.waiters (EdgeTable.queueIndex signal kind)
        (s.edges.waiters (EdgeTable.queueIndex signal kind) ++ [r]) k = s.edges.waiters k :=
    fun k other => Function.update_of_ne other ..
  refine ⟨live.symm ▸ Counted.registerEdge ok.counted signal kind r,
    ⟨fun q => ?_, fun q outside => ?_, ?_, ?_, fun q r' member => ?_⟩, fun early => ?_⟩
  · rw [waiters, live, List.filter_congr fun x _ => same x]
    have before := ok.listed.queues q
    unfold inQueue at before ⊢
    rw [List.reverse_cons, List.filterMap_append, ← before]
    by_cases here : q = EdgeTable.queueIndex signal kind
    · subst here
      rw [Function.update_self, List.filter_append]
      simp [WaitSource.queue, valid]
    · rw [Function.update_of_ne here]
      have other : EdgeTable.queueIndex signal kind ≠ q := fun h => here h.symm
      simp [WaitSource.queue, other]
  · rw [queueCount] at outside
    rw [waiters, Function.update_of_ne (by omega)]
    exact ok.listed.beyond q (by omega)
  · have total := sum_queues List.length rfl less inside ok.listed.beyond others
    rw [Function.update_self, List.length_append, List.length_singleton] at total
    rw [entries, queueCount, waiters, ok.listed.entries]
    omega
  · have total := sum_queues (List.countP fun x => !registrationValid s.states x) rfl less inside
      ok.listed.beyond others
    rw [Function.update_self, List.countP_append] at total
    have none : [r].countP (fun x => !registrationValid s.states x) = 0 := by simp [valid]
    have fresh : (fun x => !registrationValid (s.registerEdgeWait signal kind r).states x) =
        fun x => !registrationValid s.states x := funext fun x => by rw [same]
    rw [none] at total
    rw [stale, queueCount, waiters, ok.listed.stale, fresh]
    omega
  · obtain ⟨source', before⟩ : ∃ source', (source', r') ∈ s.registrations ∨ r' = r := by
      rw [waiters] at member
      by_cases here : q = EdgeTable.queueIndex signal kind
      · subst here
        rw [Function.update_self] at member
        rcases List.mem_append.mp member with before | new
        · obtain ⟨source', before⟩ := registered_iff_mem.mp (ok.listed.posted _ r' before)
          exact ⟨source', .inl before⟩
        · exact ⟨.edge signal kind, .inr (List.mem_singleton.mp new)⟩
      · rw [Function.update_of_ne here] at member
        obtain ⟨source', before⟩ := registered_iff_mem.mp (ok.listed.posted _ r' member)
        exact ⟨source', .inl before⟩
    rw [registered_iff_mem, registrations]
    rcases before with before | rfl
    · exact ⟨source', List.mem_cons_of_mem _ before⟩
    · exact ⟨.edge signal kind, List.mem_cons_self⟩
  · cases early

/-! ### Taking entries out of the queues -/

/-- A stale entry is taken out of a queue. -/
theorem Booked.dropEdge {s : Scheduler} (ok : Booked s) {q : Nat} {r : WaitRegistration}
    {rest : List WaitRegistration} (inside : q < s.edges.queueCount)
    (queue : s.edges.waiters q = r :: rest) (invalid : registrationValid s.states r = false) :
    Booked (s.uncountEdgeEntry.withQueue q rest) := by
  have others : ∀ k, k ≠ q → update s.edges.waiters q rest k = s.edges.waiters k :=
    fun k other => Function.update_of_ne other ..
  have lengths := sum_queues List.length rfl (Nat.le_refl _) inside ok.listed.beyond others
  have stales := sum_queues (List.countP fun x => !registrationValid s.states x) rfl
    (Nat.le_refl _) inside ok.listed.beyond others
  rw [Function.update_self, queue] at lengths stales
  rw [List.length_cons] at lengths
  rw [List.countP_cons_of_pos (by simp [invalid])] at stales
  have positive : s.edges.staleRegistrations ≠ 0 := by
    rw [ok.listed.stale]
    omega
  refine ⟨ok.counted, ⟨fun k => ?_, fun k outside => ?_, ?_, ?_, fun k r' member => ?_⟩, ok.early⟩
  · refine Eq.trans ?_ (ok.listed.queues k)
    show (update s.edges.waiters q rest k).filter _ = _
    by_cases same : k = q
    · subst same
      rw [Function.update_self, queue, List.filter_cons_of_neg (by simp [invalid])]
      rfl
    · rw [others k same]
      rfl
  · show update s.edges.waiters q rest k = []
    rw [others k fun same => absurd outside (Nat.not_le.mpr (same ▸ inside))]
    exact ok.listed.beyond k outside
  · show s.edges.queueEntries - 1 =
      (∑ k ∈ Finset.range s.edges.queueCount, (update s.edges.waiters q rest k).length : Nat)
    rw [ok.listed.entries]
    omega
  · show (if s.edges.staleRegistrations ≠ 0 then s.edges.staleRegistrations - 1
      else s.edges.staleRegistrations) = (∑ k ∈ Finset.range s.edges.queueCount,
        (update s.edges.waiters q rest k).countP fun x => !registrationValid s.states x : Nat)
    rw [if_pos positive, ok.listed.stale]
    omega
  · have here : r' ∈ update s.edges.waiters q rest k := member
    by_cases same : k = q
    · subst same
      rw [Function.update_self] at here
      exact ok.listed.posted k r' (queue ▸ List.mem_cons_of_mem _ here)
    · rw [others k same] at here
      exact ok.listed.posted k r' here

/-- What compaction removes are the stale entries. -/
theorem length_sub_filter (queue : List WaitRegistration) (valid : WaitRegistration → Bool) :
    queue.length - (queue.filter valid).length = queue.countP fun r => !valid r := by
  have all := List.length_eq_countP_add_countP valid (l := queue)
  rw [List.countP_eq_length_filter] at all
  have same : (queue.countP fun r => decide ¬valid r = true) = queue.countP fun r => !valid r :=
    List.countP_congr fun r _ => by cases valid r <;> simp
  omega

theorem removed_eq {s : Scheduler} (ok : Listed s) :
    ((((List.range s.edges.queueCount).map fun q => (s.edges.waiters q).length -
      ((s.edges.waiters q).filter (registrationValid s.states)).length).sum : Nat) : Int) =
        s.edges.staleRegistrations := by
  rw [ok.stale, sum_list_range]
  congr 1
  exact Finset.sum_congr rfl fun q _ => length_sub_filter _ _

theorem Booked.compact {s : Scheduler} (ok : Booked s) : Booked s.compactStaleEdgeQueues := by
  have removed := removed_eq ok.listed
  unfold Scheduler.compactStaleEdgeQueues
  split
  · exact ok
  · refine ⟨ok.counted, ⟨fun q => ?_, fun q outside => ?_, ?_, ?_, fun q r member => ?_⟩, ok.early⟩
    · refine Eq.trans ?_ (ok.listed.queues q)
      simp only
      split
      · rw [List.filter_filter]
        simp only [Bool.and_self]
      · rfl
    · simp only at outside ⊢
      rw [if_neg (Nat.not_lt.mpr outside)]
      exact ok.listed.beyond q outside
    · simp only
      rw [removed, ok.listed.entries, ok.listed.stale]
      have kept : ∀ q ∈ Finset.range s.edges.queueCount,
          (if q < s.edges.queueCount then
            (s.edges.waiters q).filter (registrationValid s.states)
          else s.edges.waiters q).length +
            (s.edges.waiters q).countP (fun r => !registrationValid s.states r) =
          (s.edges.waiters q).length := by
        intro q inside
        rw [if_pos (Finset.mem_range.mp inside), ← length_sub_filter]
        have fewer := List.length_filter_le (registrationValid s.states) (s.edges.waiters q)
        omega
      have total := Finset.sum_congr rfl kept
      rw [Finset.sum_add_distrib] at total
      omega
    · simp only
      rw [removed, Int.sub_self]
      symm
      refine Int.natCast_eq_zero.mpr (Finset.sum_eq_zero fun q inside => ?_)
      rw [if_pos (Finset.mem_range.mp inside)]
      refine List.countP_eq_zero.mpr fun r member => ?_
      rw [(List.mem_filter.mp member).2]
      exact Bool.false_ne_true
    · simp only at member
      refine ok.listed.posted q r ?_
      split at member
      · exact (List.mem_filter.mp member).1
      · exact member

/-! ### Every elementary change -/

theorem booked_create (femtosecondsPerTick : Nat) :
    Booked (.create femtosecondsPerTick) where
  counted :=
    ⟨fun _ _ => rfl, fun _ => rfl, rfl, fun _ => rfl, fun _ => rfl, fun _ => rfl, fun _ _ => rfl,
      rfl, rfl⟩
  listed := ⟨fun _ => rfl, fun _ _ => rfl, rfl, rfl, fun _ _ member => by cases member⟩
  early _ _ member := by cases member

/-- A source is made static before any edge is registered. -/
theorem Booked.configureStatic {s : Scheduler} (ok : Booked s) (signal : Nat) :
    Booked (s.configureStaticEdgeSource signal) := by
  unfold Scheduler.configureStaticEdgeSource
  split
  · exact ok.fault _
  · rename_i early
    have none := ok.early (Bool.not_eq_true _ ▸ early)
    have nothing : ∀ static : Nat → Bool, ∀ i,
        (s.live.filter (ofSlot i)).reverse.filterMap (countedQueue static) = [] := by
      intro static i
      refine List.filterMap_eq_nil_iff.mpr fun x member => ?_
      have here := (Scheduler.mem_live.mp (List.mem_filter.mp (List.mem_reverse.mp member)).1).1
      unfold countedQueue
      rw [none x here]
      rfl
    refine ⟨⟨fun q dynamic => ?_, fun i => ?_, ok.counted.falling, ok.counted.edgeWaits,
      ok.counted.fallingWaits, ok.counted.phases, ok.counted.phaseWaits, ok.counted.edgeUnderflow,
      ok.counted.phaseUnderflow⟩, ⟨ok.listed.queues, ok.listed.beyond, ok.listed.entries,
      ok.listed.stale, ok.listed.posted⟩, ok.early⟩
    · refine ok.counted.interest q ?_
      have here : update s.edges.staticSources signal true (q / 3) = false := dynamic
      by_cases same : q / 3 = signal
      · rw [same, Function.update_self] at here
        cases here
      · rwa [Function.update_of_ne same] at here
    · refine (ok.counted.indices i).trans ?_
      exact (nothing s.edges.staticSources i).trans (nothing _ i).symm

/-- Only the queue of changes and the sources of the edge table change. -/
theorem unbooked_edges {s t : Scheduler} (states : t.states = s.states)
    (phases : t.phases = s.phases) (handouts : t.handouts = s.handouts)
    (waited : t.waitRegistered = s.waitRegistered)
    (edges : ∃ changes pending sticky, t.edges = { s.edges with
      changes := changes, changePending := pending, stickySources := sticky }) :
    Unbooked s t := by
  obtain ⟨changes, pending, sticky, edges⟩ := edges
  refine ⟨?_, ?_, fun r _ => by rw [states], ?_, ?_, ?_, ?_, fun late => waited.symm.trans late⟩
  · unfold Scheduler.ledger
    rw [states, edges, phases]
  · unfold Scheduler.registrations
    rw [handouts]
  · rw [edges]
  · rw [edges]
  · rw [edges]
  · rw [edges]

theorem unbooked_consumeEdge (s : Scheduler) : Unbooked s s.consumeEdgeInterestChange := by
  refine unbooked_edges rfl rfl rfl rfl ?_
  unfold Scheduler.consumeEdgeInterestChange EdgeTable.consumeEdgeInterestChange
  simp only
  split
  · exact ⟨_, _, _, rfl⟩
  · exact ⟨_, _, _, rfl⟩

theorem unbooked_consumeTimer (s : Scheduler) : Unbooked s s.consumeTimerScheduleChanged :=
  .of_frame rfl rfl ⟨rfl, rfl, rfl⟩ rfl id

theorem unbooked_takeReadyEntry (s : Scheduler) : Unbooked s s.takeReadyEntry := by
  unfold Scheduler.takeReadyEntry
  simp only
  split
  · exact .of_frame rfl rfl ⟨rfl, rfl, rfl⟩ rfl id
  · exact .of_frame rfl rfl ⟨rfl, rfl, rfl⟩ rfl id

theorem unbooked_dropReadyEntries (s : Scheduler) : Unbooked s s.dropReadyEntries :=
  .of_frame rfl rfl ⟨rfl, rfl, rfl⟩ rfl id

theorem booked_prim {m : Machine κ} {t : Scheduler} (wf : Wf m) (ok : Booked m.sched)
    (prim : Prim m.sched t) : Booked t := by
  have frame : ∀ {t : Scheduler}, t.states = m.sched.states → t.edges = m.sched.edges →
      (t.phases.waiterCounts = m.sched.phases.waiterCounts ∧
        t.phases.waitCountsByState = m.sched.phases.waitCountsByState ∧
        t.phases.underflow = m.sched.phases.underflow) → t.handouts = m.sched.handouts →
      (t.waitRegistered = false → m.sched.waitRegistered = false) → Booked t :=
    fun states edges phases handouts waited =>
      (Unbooked.of_frame states edges phases handouts waited).booked ok
  cases prim with
  | adopt promise => exact (unbooked_adopt ok wf.slots promise).booked ok
  | beginWait index diagnostic still =>
      exact (unbooked_beginWait still.2.1 still.2.2 (fun _ => wf.older) diagnostic).booked ok
  | noteSimulator index => exact frame rfl rfl ⟨rfl, rfl, rfl⟩ rfl id
  | registerEdge signal kind r valid _ => exact ok.registerEdge signal kind valid
  | registerDelay femtoseconds r valid => exact ok.registerDelay femtoseconds valid
  | registerPhase phase r valid => exact ok.registerPhase phase valid
  | registerProcess control r valid => exact ok.registerProcess control valid
  | parkExternal r _ => exact (unbooked_parkExternal m.sched r).booked ok
  | resume r _ => exact ok.resumeRegistration r
  | joined index generation _ _ _ => exact ok.completeJoin index generation
  | joinMissed index generation _ _ _ => exact (unbooked_record m.sched _ rfl).booked ok
  | makeReady index cause _ _ => exact (unbooked_makeReady m.sched index cause).booked ok
  | finish index still => exact (unbooked_markDone still.2.1).booked ok
  | retire index _ => exact ok.retireState index
  | free index done => exact (unbooked_freeState ok (wf.slots.quiet index done).1).booked ok
  | dropEdge index r rest inside queue invalid => exact ok.dropEdge inside queue invalid
  | dropPhases phase _ => exact frame rfl rfl ⟨rfl, rfl, rfl⟩ rfl id
  | compact => exact ok.compact
  | discardStaleTimers => exact frame rfl rfl ⟨rfl, rfl, rfl⟩ rfl id
  | dropTimer timer _ _ => exact frame rfl rfl ⟨rfl, rfl, rfl⟩ rfl id
  | touchTimers => exact frame rfl rfl ⟨rfl, rfl, rfl⟩ rfl id
  | setTime time => exact frame rfl rfl ⟨rfl, rfl, rfl⟩ rfl id
  | configureStatic signal => exact ok.configureStatic signal
  | configureSticky signal =>
      unfold Scheduler.configureStickyEdgeSource
      split
      · exact ok.fault _
      · have same : Unbooked m.sched { m.sched with
            edges := { m.sched.edges with
              stickySources := update m.sched.edges.stickySources signal true } } :=
          unbooked_edges rfl rfl rfl rfl ⟨_, _, _, rfl⟩
        exact same.booked ok
  | startDrain _ => exact frame rfl rfl ⟨rfl, rfl, rfl⟩ rfl id
  | endDrain _ => exact frame rfl rfl ⟨rfl, rfl, rfl⟩ rfl id
  | skipEntry index _ _ => exact (unbooked_takeReadyEntry m.sched).booked ok
  | takeEntry index _ _ _ =>
      exact ((unbooked_takeReadyEntry m.sched).trans (unbooked_enterState _ index)).booked ok
  | takeOnly index _ _ _ =>
      exact ((unbooked_dropReadyEntries m.sched).trans (unbooked_enterState _ index)).booked ok

/-! ### Ready and active coroutines -/

namespace Slot

/-- The slot of a ready coroutine counts one. -/
def readyCount (slot : Slot) : Nat := if slot.ready then 1 else 0

/-- The slot of a coroutine that is not done counts one. -/
def activeCount (slot : Slot) : Nat := if slot.handle.isSome && !slot.done then 1 else 0

end Slot

/-- `live_ready_count_` and `active_coroutines_` are exact. -/
structure Tallied (s : Scheduler) : Prop where
  ready : s.ready.liveCount = (∑ i ∈ Finset.range s.stateCount, (s.slot i).readyCount : Nat)
  active : s.activeCoroutines = (∑ i ∈ Finset.range s.stateCount, (s.slot i).activeCount : Nat)

/-- The two totals and the number of slots. -/
structure Totals where
  ready : Int
  active : Int
  slots : Nat

/-- The totals of a scheduler. -/
def Scheduler.totals (s : Scheduler) : Totals :=
  ⟨s.ready.liveCount, s.activeCoroutines, s.stateCount⟩

namespace Tallied

variable {s t : Scheduler}

/-- One slot changes, and the totals with it. -/
theorem change (ok : Tallied s) {i : Nat} (inside : i < s.stateCount)
    (others : ∀ k, k ≠ i → t.slot k = s.slot k) (slots : t.stateCount = s.stateCount)
    (ready : t.ready.liveCount + (s.slot i).readyCount =
      s.ready.liveCount + (t.slot i).readyCount)
    (active : t.activeCoroutines + (s.slot i).activeCount =
      s.activeCoroutines + (t.slot i).activeCount) : Tallied t where
  ready := by
    have sum := sum_range_change (f := fun k => (s.slot k).readyCount)
      (g := fun k => (t.slot k).readyCount) inside fun k other => congrArg _ (others k other)
    have before := ok.ready
    rw [slots]
    omega
  active := by
    have sum := sum_range_change (f := fun k => (s.slot k).activeCount)
      (g := fun k => (t.slot k).activeCount) inside fun k other => congrArg _ (others k other)
    have before := ok.active
    rw [slots]
    omega

/-- No slot changes whether it is ready or active. -/
theorem same (ok : Tallied s) (totals : t.totals = s.totals)
    (ready : ∀ k, (t.slot k).ready = (s.slot k).ready)
    (handle : ∀ k, (t.slot k).handle = (s.slot k).handle)
    (done : ∀ k, (t.slot k).done = (s.slot k).done) : Tallied t where
  ready := by
    rw [show t.ready.liveCount = s.ready.liveCount from congrArg Totals.ready totals,
      show t.stateCount = s.stateCount from congrArg Totals.slots totals, ok.ready]
    congr 1
    refine Finset.sum_congr rfl fun k _ => ?_
    unfold Slot.readyCount
    rw [ready]
  active := by
    rw [show t.activeCoroutines = s.activeCoroutines from congrArg Totals.active totals,
      show t.stateCount = s.stateCount from congrArg Totals.slots totals, ok.active]
    congr 1
    refine Finset.sum_congr rfl fun k _ => ?_
    unfold Slot.activeCount
    rw [handle, done]

theorem frame (ok : Tallied s) (totals : t.totals = s.totals) (slots : t.slot = s.slot) :
    Tallied t :=
  ok.same totals (fun k => by rw [slots]) (fun k => by rw [slots]) fun k => by rw [slots]

theorem endWait (ok : Tallied s) (i : Nat) : Tallied (s.endWait i) := by
  have totals : (s.endWait i).totals = s.totals := by
    unfold Scheduler.endWait
    simp only
    repeat' split
    all_goals rfl
  have slots := Scheduler.slot_endWait s i
  refine ok.same totals (fun k => ?_) (fun k => ?_) fun k => ?_ <;> rw [slots] <;> split
  all_goals first | rfl | (rename_i here; rw [here])

theorem makeReady (ok : Tallied s) {i : Nat} (inside : i < s.stateCount) (cause : ReadyCause) :
    Tallied (s.makeReady i cause) := by
  have others : ∀ k, k ≠ i → (s.makeReady i cause).slot k = s.slot k :=
    fun _ other => Scheduler.slot_makeReady_of_ne s cause other
  unfold Scheduler.makeReady at others ⊢
  rw [if_neg (Nat.not_le.mpr inside)] at others ⊢
  split
  · exact ok
  · rename_i active
    rw [if_neg active] at others
    rw [Bool.or_eq_true, not_or, Bool.not_eq_true, Bool.not_eq_true] at active
    have self : ∀ state : CoroutineState, (update s.states i state i).slot = state.slot :=
      fun state => by rw [Function.update_self]
    refine ok.change inside others rfl ?_ ?_
    · unfold Scheduler.slot
      simp only [self]
      simp [Slot.readyCount, CoroutineState.slot, active.2]
    · unfold Scheduler.slot
      simp only [self]
      rfl

theorem unready (ok : Tallied s) {i : Nat} (inside : i < s.stateCount)
    (ready : (s.slot i).ready = true) (others : ∀ k, k ≠ i → t.slot k = s.slot k)
    (self : t.slot i = { s.slot i with ready := false })
    (totals : t.totals = { s.totals with ready := s.totals.ready - 1 }) : Tallied t := by
  have live : t.ready.liveCount = s.ready.liveCount - 1 := congrArg Totals.ready totals
  refine ok.change inside others (congrArg Totals.slots totals) ?_ ?_
  · rw [self, live]
    simp [Slot.readyCount, ready]
  · rw [self, show t.activeCoroutines = s.activeCoroutines from congrArg Totals.active totals]
    rfl

theorem clearReady (ok : Tallied s) {i : Nat} (inside : i < s.stateCount) :
    Tallied (s.clearReady i) := by
  have slots := Scheduler.slot_clearReady s i
  cases ready : (s.slot i).ready with
  | false =>
      rw [Scheduler.clearReady_of_unready ready]
      exact ok
  | true =>
      refine ok.unready inside ready (fun k other => (slots k).trans (if_neg other))
        ((slots i).trans (if_pos rfl)) ?_
      unfold Scheduler.clearReady
      rw [if_pos (show (s.states i).ready = true from ready)]
      rfl

theorem markDone (ok : Tallied s) {i : Nat} (inside : i < s.stateCount) (live : s.Live i) :
    Tallied (s.markDone i) := by
  have slots := Scheduler.slot_markDone s i
  have here : (s.slot i).activeCount = 1 := by
    unfold Slot.activeCount
    rw [live.1, live.2]
    rfl
  have positive : s.activeCoroutines ≠ 0 := by
    rw [ok.active, Int.natCast_ne_zero]
    have term := Finset.single_le_sum (f := fun k => (s.slot k).activeCount)
      (fun k _ => Nat.zero_le _) (Finset.mem_range.mpr inside)
    simp only [here] at term
    omega
  have active : (s.markDone i).activeCoroutines = s.activeCoroutines - 1 := if_pos positive
  have self := (slots i).trans (if_pos rfl)
  refine ok.change inside (fun k other => (slots k).trans (if_neg other)) rfl ?_ ?_
  · rw [self]
    rfl
  · rw [self, active, here]
    simp [Slot.activeCount]

end Tallied

section Slots

variable (s : Scheduler) (i : Nat)

theorem stateCount_endWait : (s.endWait i).stateCount = s.stateCount :=
  congrArg Surroundings.stateCount (Scheduler.surroundings_endWait s i)

theorem stateCount_clearReady : (s.clearReady i).stateCount = s.stateCount :=
  congrArg Surroundings.stateCount (Scheduler.surroundings_clearReady s i)

theorem stateCount_setWinner (r : WaitRegistration) : (s.setWinner r).stateCount = s.stateCount :=
  congrArg Surroundings.stateCount (Scheduler.surroundings_setWinner s r)

end Slots

theorem tallied_create (femtosecondsPerTick : Nat) : Tallied (.create femtosecondsPerTick) :=
  ⟨rfl, rfl⟩

/-- A vacant slot is taken. -/
theorem Tallied.adopt {s : Scheduler} (ok : Tallied s) (slots : SlotsOk s)
    (promise : TaskPromise) : Tallied (s.adopt promise) := by
  have vacant := slots.adoptIndex_vacant
  have unready := (slots.vacant _ vacant).2.1
  have taken := Scheduler.slot_adopt s promise
  have grown : s.stateCount ≤ (s.adopt promise).stateCount := by
    show s.stateCount ≤ if s.freeStates.isEmpty then s.stateCount + 1 else s.stateCount
    split <;> omega
  have inside : s.adoptIndex < (s.adopt promise).stateCount := by
    obtain ⟨held, live⟩ := (alive_adopt slots promise).mpr (.inl (rfl : s.adoptHandle = _))
    exact ((slots.adopt promise).bounds ⟨held, live⟩).2.trans_eq' (by
      rw [Scheduler.promises_adopt_self])
  -- the slots that are new hold no coroutine
  have beyond : ∀ k, s.stateCount ≤ k → (s.slot k).handle = none := by
    intro k outside
    cases handle : (s.slot k).handle with
    | none => rfl
    | some h => exact absurd (slots.named k h handle).2.2 (Nat.not_lt.mpr outside)
  have readyBefore := sum_range_extend (f := fun k => (s.slot k).readyCount) grown
    fun k outside => by
      unfold Slot.readyCount
      rw [(slots.vacant k (beyond k outside)).2.1]
      rfl
  have activeBefore := sum_range_extend (f := fun k => (s.slot k).activeCount) grown
    fun k outside => by
      unfold Slot.activeCount
      rw [beyond k outside]
      rfl
  have others : ∀ k, k ≠ s.adoptIndex → (s.adopt promise).slot k = s.slot k :=
    fun k other => (taken k).trans (if_neg other)
  have self := (taken s.adoptIndex).trans (if_pos rfl)
  have ready := sum_range_change (f := fun k => (s.slot k).readyCount)
    (g := fun k => ((s.adopt promise).slot k).readyCount) inside
    fun k other => congrArg _ (others k other)
  have active := sum_range_change (f := fun k => (s.slot k).activeCount)
    (g := fun k => ((s.adopt promise).slot k).activeCount) inside
    fun k other => congrArg _ (others k other)
  have notReady : (s.slot s.adoptIndex).readyCount = 0 := by
    unfold Slot.readyCount
    rw [unready]
    rfl
  have notActive : (s.slot s.adoptIndex).activeCount = 0 := by
    unfold Slot.activeCount
    rw [vacant]
    rfl
  rw [self] at ready active
  have readyNow : (⟨some s.adoptHandle, 0, false, false, false⟩ : Slot).readyCount = 0 := rfl
  have activeNow : (⟨some s.adoptHandle, 0, false, false, false⟩ : Slot).activeCount = 1 := rfl
  rw [readyNow] at ready
  rw [activeNow] at active
  constructor
  · show s.ready.liveCount = _
    rw [ok.ready]
    omega
  · show s.activeCoroutines + 1 = _
    rw [ok.active]
    omega

theorem Tallied.beginWait {s : Scheduler} (ok : Tallied s) {i : Nat}
    (still : (s.slot i).waiting = false) (unready : (s.slot i).ready = false)
    (diagnostic : WaitDiagnostic) : Tallied (s.beginWait i diagnostic) := by
  have slots := fun k => Scheduler.slot_beginWait s i k diagnostic
  have waiting : (s.states i).waiting = false := still
  have totals : (s.beginWait i diagnostic).totals = s.totals := by
    unfold Scheduler.beginWait
    simp only [waiting, Bool.false_eq_true, if_false, Scheduler.clearReady_of_unready unready]
    rfl
  refine ok.same totals (fun k => ?_) (fun k => ?_) fun k => ?_ <;> rw [slots] <;> split
  all_goals first | rfl | (rename_i here; rw [here]) | skip
  exact unready.symm

theorem Tallied.registerWait {s : Scheduler} (ok : Tallied s) (request : WaitRequest)
    (r : WaitRegistration) : Tallied (s.registerWait request r) := by
  refine ok.frame ?_ (funext fun k => Scheduler.slot_registerWait s request r k)
  unfold Scheduler.registerWait Scheduler.registerDelay Scheduler.registerPhase
  cases request with
  | edge signal kind => rfl
  | delay femtoseconds =>
      simp only
      split <;> rfl
  | phase phase =>
      simp only
      split <;> rfl

theorem inside_of_live {s : Scheduler} (slots : SlotsOk s) {i : Nat} (live : s.Live i) :
    i < s.stateCount := by
  obtain ⟨h, handle⟩ := Option.isSome_iff_exists.mp live.1
  exact (slots.named i h handle).2.2

theorem Tallied.resumeRegistration {s : Scheduler} (ok : Tallied s) (slots : SlotsOk s)
    (r : WaitRegistration) : Tallied (s.resumeRegistration r) := by
  unfold Scheduler.resumeRegistration
  simp only
  have recorded : Tallied (s.record (.fired r)) := ok.frame rfl rfl
  split
  · rename_i valid
    have inside := inside_of_live slots ((s.registrationValid_iff r).mp valid).1
    have ended := recorded.endWait r.stateIndex
    have totals : (((s.record (.fired r)).endWait r.stateIndex).setWinner r).totals =
        ((s.record (.fired r)).endWait r.stateIndex).totals := by
      unfold Scheduler.setWinner
      split <;> rfl
    have won := ended.frame totals (funext fun k => Scheduler.slot_setWinner _ r k)
    refine won.makeReady ?_ _
    rw [stateCount_setWinner, stateCount_endWait]
    exact inside
  · exact recorded

theorem Tallied.completeJoin {s : Scheduler} (ok : Tallied s) {i : Nat}
    (inside : i < s.stateCount) (generation : Nat) : Tallied (s.completeJoin i generation) := by
  have recorded : Tallied (s.record (.joinCompleted generation)) := ok.frame rfl rfl
  refine (recorded.endWait i).makeReady ?_ _
  rw [stateCount_endWait]
  exact inside

theorem Tallied.retireState {s : Scheduler} (ok : Tallied s) {i : Nat}
    (inside : i < s.stateCount) (live : s.Live i) : Tallied (s.retireState i) := by
  have count : (s.endWait i).stateCount = s.stateCount :=
    congrArg Surroundings.stateCount (Scheduler.surroundings_endWait s i)
  have slots := Scheduler.slot_endWait s i i
  rw [if_pos rfl] at slots
  have numbered : Tallied { s.endWait i with
      states := update (s.endWait i).states i { (s.endWait i).states i with
        waitGeneration := (s.endWait i).nextWaitGeneration + 1 }
      nextWaitGeneration := (s.endWait i).nextWaitGeneration + 1 } := by
    refine (ok.endWait i).same rfl (fun k => ?_) (fun k => ?_) fun k => ?_ <;>
      refine (congrArg _ (Scheduler.slot_update _ _ _ _)).trans ?_ <;> split
    all_goals first | rfl | (rename_i here; rw [here]; rfl)
  have cleared := numbered.clearReady (i := i) (count ▸ inside)
  refine cleared.markDone ?_ ?_
  · rw [stateCount_clearReady]
    exact count ▸ inside
  · unfold Scheduler.Live
    rw [Scheduler.slot_clearReady, if_pos rfl]
    have here : ((s.endWait i).slot i).handle.isSome ∧ ((s.endWait i).slot i).done = false := by
      rw [slots]
      exact live
    have updated := Scheduler.slot_update (s.endWait i).states i i { (s.endWait i).states i with
      waitGeneration := (s.endWait i).nextWaitGeneration + 1 }
    rw [if_pos rfl] at updated
    refine ⟨?_, ?_⟩
    · exact (congrArg (fun slot => slot.handle.isSome) updated).trans here.1
    · exact (congrArg Slot.done updated).trans here.2

/-- A ready coroutine is resumed. -/
theorem Tallied.enterState {s : Scheduler} (ok : Tallied s) {i : Nat} (inside : i < s.stateCount)
    (ready : (s.slot i).ready = true) : Tallied (s.enterState i) := by
  have slots : ∀ k, (s.enterState i).slot k =
      if k = i then { s.slot i with ready := false } else s.slot k :=
    fun k => Scheduler.slot_update _ _ _ _
  exact ok.unready inside ready (fun k other => (slots k).trans (if_neg other))
    ((slots i).trans (if_pos rfl)) rfl

theorem Tallied.takeReadyEntry {s : Scheduler} (ok : Tallied s) : Tallied s.takeReadyEntry := by
  unfold Scheduler.takeReadyEntry
  simp only
  split
  · exact ok.frame rfl rfl
  · exact ok.frame rfl rfl

theorem tallied_prim {m : Machine κ} {t : Scheduler} (wf : Wf m) (ok : Tallied m.sched)
    (prim : Prim m.sched t) : Tallied t := by
  have inside {i : Nat} (live : m.sched.Live i) := inside_of_live wf.slots live
  cases prim with
  | adopt promise => exact ok.adopt wf.slots promise
  | beginWait index diagnostic still => exact ok.beginWait still.2.1 still.2.2 diagnostic
  | noteSimulator index => exact ok.frame rfl rfl
  | registerEdge signal kind r _ _ =>
      exact ok.frame rfl (funext fun k => Scheduler.slot_registerEdgeWait m.sched signal kind r k)
  | registerDelay femtoseconds r _ => exact ok.registerWait (.delay femtoseconds) r
  | registerPhase phase r _ => exact ok.registerWait (.phase phase) r
  | registerProcess control r _ => exact ok.frame rfl rfl
  | parkExternal r _ => exact ok.frame rfl rfl
  | resume r _ => exact ok.resumeRegistration wf.slots r
  | joined index generation live _ _ => exact ok.completeJoin (inside live) generation
  | joinMissed index generation _ _ _ => exact ok.frame rfl rfl
  | makeReady index cause still _ => exact ok.makeReady (inside still.1) cause
  | finish index still => exact ok.markDone (inside still.1) still.1
  | retire index live => exact ok.retireState (inside live) live
  | free index done =>
      have unready := (wf.slots.quiet index done).2
      have freed := slot_freeState m.sched index
      by_cases known : index < m.sched.stateCount
      · refine ok.change known (fun k other => (freed k).trans (if_neg other)) rfl ?_ ?_
        · rw [freed, if_pos rfl]
          simp [Slot.readyCount, unready, Scheduler.freeState]
        · rw [freed, if_pos rfl]
          simp [Slot.activeCount, done, Scheduler.freeState]
      · -- a slot that is done holds a coroutine
        cases handle : (m.sched.slot index).handle with
        | none =>
            rw [(wf.slots.vacant index handle).2.2] at done
            cases done
        | some h => exact absurd (wf.slots.named index h handle).2.2 known
  | dropEdge index r rest _ _ _ => exact ok.frame rfl rfl
  | dropPhases phase _ => exact ok.frame rfl rfl
  | compact =>
      unfold Scheduler.compactStaleEdgeQueues
      split
      · exact ok
      · exact ok.frame rfl rfl
  | discardStaleTimers => exact ok.frame rfl rfl
  | dropTimer timer _ _ => exact ok.frame rfl rfl
  | touchTimers => exact ok.frame rfl rfl
  | setTime time => exact ok.frame rfl rfl
  | configureStatic signal =>
      unfold Scheduler.configureStaticEdgeSource
      split
      · exact ok.frame rfl rfl
      · exact ok.frame rfl rfl
  | configureSticky signal =>
      unfold Scheduler.configureStickyEdgeSource
      split
      · exact ok.frame rfl rfl
      · exact ok.frame rfl rfl
  | startDrain _ => exact ok.frame rfl rfl
  | endDrain _ => exact ok.frame rfl rfl
  | skipEntry index _ _ => exact ok.takeReadyEntry
  | takeEntry index _ live ready =>
      have slots : m.sched.takeReadyEntry.slot = m.sched.slot :=
        congrArg Skeleton.slot (takeReadyEntry_skeleton m.sched).1
      refine ok.takeReadyEntry.enterState ?_ (slots ▸ ready)
      rw [(takeReadyEntry_skeleton m.sched).2.2.1]
      exact inside live
  | takeOnly index live ready _ =>
      have dropped : Tallied m.sched.dropReadyEntries := ok.frame rfl rfl
      exact dropped.enterState (inside live) ready

/-! ### Reachable machines -/

theorem booked_congr {s t : Scheduler} (core : t.core = s.core) (ok : Booked s) : Booked t := by
  have edges : t.edges = s.edges := congrArg Core.edges core
  have phases : t.phases = s.phases := congrArg Core.phases core
  have history : t.history = s.history := congrArg Core.history core
  refine Unbooked.booked (.of_frame (congrArg Core.states core) edges
    ⟨by rw [phases], by rw [phases], by rw [phases]⟩ ?_ fun late =>
      (congrArg Core.waitRegistered core).symm.trans late) ok
  unfold Scheduler.handouts
  rw [history]

theorem tallied_congr {s t : Scheduler} (core : t.core = s.core) (ok : Tallied s) :
    Tallied t := by
  have ready : t.ready = s.ready := congrArg Core.ready core
  have states : t.states = s.states := congrArg Core.states core
  refine ok.frame ?_ ?_
  · unfold Scheduler.totals
    rw [ready, show t.activeCoroutines = s.activeCoroutines from congrArg Core.activeCoroutines core,
      show t.stateCount = s.stateCount from congrArg Core.stateCount core]
  · unfold Scheduler.slot
    rw [states]

theorem booked_of_reach {femtosecondsPerTick : Nat} {m : Machine κ}
    (reach : Reachable femtosecondsPerTick m) : Booked m.sched :=
  core_of_reach reach (fun _ _ => booked_congr) (fun _ _ => booked_prim)
    (fun s ok => ⟨(unbooked_consumeEdge s).booked ok,
      (unbooked_consumeTimer s).booked ok⟩) (booked_create _)

theorem tallied_of_reach {femtosecondsPerTick : Nat} {m : Machine κ}
    (reach : Reachable femtosecondsPerTick m) : Tallied m.sched :=
  core_of_reach reach (fun _ _ => tallied_congr) (fun _ _ => tallied_prim)
    (fun _ ok => ⟨ok.frame rfl rfl, ok.frame rfl rfl⟩) (tallied_create _)

/-- The bookkeeping of a scheduler is exact. -/
structure Exact (s : Scheduler) : Prop where
  interest : ∀ signal kind, s.edges.staticSources signal = false →
    s.edges.interestCounts signal kind.index =
      (s.live.filter fun x => x.1 = .edge signal kind).length
  falling : s.edges.fallingRegistrations = ((s.live.filter fun x => x.1.falls).length : Nat)
  phases : ∀ phase, s.phases.waiterCounts phase =
    (s.live.filter fun x => x.1 = .phase phase).length
  entries : s.edges.queueEntries =
    (∑ q ∈ Finset.range s.edges.queueCount, (s.edges.waiters q).length : Nat)
  stale : s.edges.staleRegistrations =
    (∑ q ∈ Finset.range s.edges.queueCount,
      ((s.edges.waiters q).filter fun r => !registrationValid s.states r).length : Nat)
  beyond : ∀ q, s.edges.queueCount ≤ q → s.edges.waiters q = []
  ready : s.ready.liveCount =
    (((Finset.range s.stateCount).filter fun i => (s.states i).ready = true).card : Nat)
  active : s.activeCoroutines = (((Finset.range s.stateCount).filter fun i =>
    (s.states i).handle.isSome = true ∧ (s.states i).done = false).card : Nat)
  noUnderflow : s.edges.underflow = false ∧ s.phases.underflow = false

theorem queue_eq_some {source : WaitSource} {signal : Nat} {kind : EdgeKind} :
    source.queue = some (EdgeTable.queueIndex signal kind) ↔ source = .edge signal kind := by
  constructor
  · intro queue
    cases source with
    | edge signal' kind' =>
        have same : EdgeTable.queueIndex signal' kind' = EdgeTable.queueIndex signal kind :=
          Option.some.inj queue
        have signals : signal' = signal := by
          rw [← queueIndex_div signal' kind', same, queueIndex_div]
        subst signals
        unfold EdgeTable.queueIndex at same
        cases kind <;> cases kind' <;> simp_all [EdgeKind.index]
    | delay _ _ => cases queue
    | phase _ => cases queue
    | process _ => cases queue
  · rintro rfl
    rfl

theorem exact_of_booked {s : Scheduler} (booked : Booked s) (tallied : Tallied s) : Exact s where
  interest signal kind dynamic := by
    have div := queueIndex_div signal kind
    have mod : EdgeTable.queueIndex signal kind % 3 = kind.index := by
      unfold EdgeTable.queueIndex
      cases kind <;> simp only [EdgeKind.index] <;> omega
    have counts := booked.counted.interest (EdgeTable.queueIndex signal kind)
      (div.symm ▸ dynamic)
    rw [div, mod] at counts
    refine counts.trans ?_
    rw [List.countP_eq_length_filter]
    congr 1
    refine List.filter_congr fun x _ => ?_
    rw [Bool.eq_iff_iff, beq_iff_eq, decide_eq_true_iff, queue_eq_some]
  falling := by
    rw [← List.countP_eq_length_filter]
    exact booked.counted.falling
  phases phase := by
    refine (booked.counted.phases phase).trans ?_
    rw [List.countP_eq_length_filter]
    congr 1
    refine List.filter_congr fun x _ => ?_
    cases source : x.1 <;> simp [WaitSource.inPhase]
  entries := booked.listed.entries
  stale := by
    rw [booked.listed.stale]
    congr 1
    exact Finset.sum_congr rfl fun q _ => List.countP_eq_length_filter
  beyond := booked.listed.beyond
  ready := by
    rw [tallied.ready, Finset.card_filter]
    rfl
  active := by
    rw [tallied.active, Finset.card_filter]
    congr 1
    refine Finset.sum_congr rfl fun i _ => ?_
    unfold Slot.activeCount Scheduler.slot CoroutineState.slot
    simp
  noUnderflow := ⟨booked.counted.edgeUnderflow, booked.counted.phaseUnderflow⟩

/-- Compaction keeps the valid entries of every queue, in order. -/
theorem compact_queue (s : Scheduler) (q : Nat) :
    (s.compactStaleEdgeQueues.edges.waiters q).Sublist (s.edges.waiters q) ∧
      (s.compactStaleEdgeQueues.edges.waiters q).filter (registrationValid s.states) =
        (s.edges.waiters q).filter (registrationValid s.states) := by
  unfold Scheduler.compactStaleEdgeQueues
  split
  · exact ⟨List.Sublist.refl _, rfl⟩
  · simp only
    split
    · refine ⟨List.filter_sublist, ?_⟩
      rw [List.filter_filter]
      simp only [Bool.and_self]
    · exact ⟨List.Sublist.refl _, rfl⟩

end Cpptb.Coro
