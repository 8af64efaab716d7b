/-
The counters of the waits.

`Ledger` is the part of the scheduler that counts live registrations: the edge interest of each
signal, what `end_wait` will take back for each state, the falling-edge registrations and the phase
counters. `Counted l live` says that every counter of the ledger `l` is the number of the live
registrations it stands for. It is kept when

* nothing is counted (`Scheduler.ledger_makeReady`, ...): the ledger is the same;
* a registration is handed out (`Counted.registerEdge`, `Counted.registerPhase`, `Counted.other`);
* a wait ends (`Counted.endWait`): what the state had counted is taken back, and no more, so neither
  abort of `remove_edge_interests` and `end_wait` is reached.
-/

import Cpptb.Lib.Tally
import Cpptb.Coro.Registrations

namespace Cpptb.Coro

open Function (update)
open Cpptb.Tally

/-! ### What a registration counts as -/

namespace WaitSource

/-- The edge queue of a registration. -/
def queue : WaitSource → Option Nat
  | .edge signal kind => some (EdgeTable.queueIndex signal kind)
  | _ => none

/-- A falling-edge or any-edge registration. -/
def falls : WaitSource → Bool
  | .edge _ kind => decide (kind ≠ .rising)
  | _ => false

/-- A registration for this phase. -/
def inPhase (phase : Phase) : WaitSource → Bool
  | .phase kind => decide (kind = phase)
  | _ => false

end WaitSource

/-- The registrations of one slot. -/
def ofSlot (i : Nat) (x : WaitSource × WaitRegistration) : Bool := x.2.stateIndex == i

/-- The edge queue whose interest a registration is counted in: none for a static source. -/
def countedQueue (static : Nat → Bool) (x : WaitSource × WaitRegistration) : Option Nat :=
  x.1.queue.filter fun q => !static (q / 3)

/-! ### The ledger -/

/-- The counters of live registrations. -/
structure Ledger where
  static : Nat → Bool
  interest : Nat → Nat → Nat
  indices : Nat → List Nat
  falling : Int
  edgeUnderflow : Bool
  edgeWaits : Nat → Nat
  fallingWaits : Nat → Nat
  phases : Phase → Nat
  phaseWaits : Nat → Phase → Nat
  phaseUnderflow : Bool

/-- The ledger of a scheduler. -/
def Scheduler.ledger (s : Scheduler) : Ledger where
  static := s.edges.staticSources
  interest := s.edges.interestCounts
  indices := s.edges.waitIndicesByState
  falling := s.edges.fallingRegistrations
  edgeUnderflow := s.edges.underflow
  edgeWaits := fun i => (s.states i).edgeWaitCount
  fallingWaits := fun i => (s.states i).fallingEdgeWaitCount
  phases := s.phases.waiterCounts
  phaseWaits := s.phases.waitCountsByState
  phaseUnderflow := s.phases.underflow

/-- Every counter is the number of the live registrations it stands for. -/
structure Counted (l : Ledger) (live : List (WaitSource × WaitRegistration)) : Prop where
  interest : ∀ q, l.static (q / 3) = false →
    l.interest (q / 3) (q % 3) = live.countP fun x => x.1.queue == some q
  indices : ∀ i, l.indices i = (live.filter (ofSlot i)).reverse.filterMap (countedQueue l.static)
  falling : l.falling = (live.countP fun x => x.1.falls : Nat)
  edgeWaits : ∀ i, l.edgeWaits i = live.countP fun x => ofSlot i x && x.1.queue.isSome
  fallingWaits : ∀ i, l.fallingWaits i = live.countP fun x => ofSlot i x && x.1.falls
  phases : ∀ p, l.phases p = live.countP fun x => x.1.inPhase p
  phaseWaits : ∀ i p, l.phaseWaits i p = live.countP fun x => ofSlot i x && x.1.inPhase p
  edgeUnderflow : l.edgeUnderflow = false
  phaseUnderflow : l.phaseUnderflow = false

/-! ### Edge interest -/

namespace EdgeTable

/-- `record_edge_interest_change` changes no counter. -/
theorem recordEdgeInterestChange_counters (e : EdgeTable) (signal : Nat) (previous : EdgeInterest) :
    (e.recordEdgeInterestChange signal previous).staticSources = e.staticSources ∧
      (e.recordEdgeInterestChange signal previous).interestCounts = e.interestCounts ∧
      (e.recordEdgeInterestChange signal previous).waitIndicesByState = e.waitIndicesByState ∧
      (e.recordEdgeInterestChange signal previous).fallingRegistrations =
        e.fallingRegistrations ∧
      (e.recordEdgeInterestChange signal previous).underflow = e.underflow ∧
      (e.recordEdgeInterestChange signal previous).staleRegistrations = e.staleRegistrations ∧
      (e.recordEdgeInterestChange signal previous).queueEntries = e.queueEntries := by
  unfold recordEdgeInterestChange publish
  simp only
  repeat' split
  all_goals exact ⟨rfl, rfl, rfl, rfl, rfl, rfl, rfl⟩

theorem setCount_same (e : EdgeTable) (q q' count : Nat) :
    (e.setCount (q / 3) (q % 3) count).interestCounts (q' / 3) (q' % 3) =
      if q' = q then count else e.interestCounts (q' / 3) (q' % 3) := by
  unfold setCount
  simp only
  by_cases signal : q' / 3 = q / 3
  · by_cases edge : q' % 3 = q % 3
    · have same : q' = q := by omega
      subst same
      rw [if_pos rfl, Function.update_self, Function.update_self]
    · have other : q' ≠ q := fun same => edge (same ▸ rfl)
      rw [if_neg other, signal, Function.update_self, Function.update_of_ne edge]
  · have other : q' ≠ q := fun same => signal (same ▸ rfl)
    rw [if_neg other, Function.update_of_ne signal]

/-- One interest is taken back. -/
theorem dropInterest_counters {e : EdgeTable} {q : Nat}
    (counted : 0 < e.interestCounts (q / 3) (q % 3)) :
    (e.dropInterest q).staticSources = e.staticSources ∧
      (∀ q', (e.dropInterest q).interestCounts (q' / 3) (q' % 3) =
        e.interestCounts (q' / 3) (q' % 3) - if q' = q then 1 else 0) ∧
      (e.dropInterest q).waitIndicesByState = e.waitIndicesByState ∧
      (e.dropInterest q).fallingRegistrations = e.fallingRegistrations ∧
      (e.dropInterest q).underflow = e.underflow ∧
      (e.dropInterest q).staleRegistrations = e.staleRegistrations ∧
      (e.dropInterest q).queueEntries = e.queueEntries := by
  unfold dropInterest
  simp only
  rw [if_neg (Nat.pos_iff_ne_zero.mp counted)]
  obtain ⟨static, interest, indices, falling, underflow, stale, entries⟩ :=
    recordEdgeInterestChange_counters (e.setCount (q / 3) (q % 3)
      (e.interestCounts (q / 3) (q % 3) - 1)) (q / 3) (e.edgeInterest (q / 3))
  refine ⟨static, fun q' => ?_, indices, falling, underflow, stale, entries⟩
  rw [interest, setCount_same]
  split
  · rename_i same
    rw [same]
  · rfl

/-- The interests of one state are taken back. -/
theorem dropInterests_counters (indices : List Nat) {e : EdgeTable}
    (counted : ∀ q, indices.count q ≤ e.interestCounts (q / 3) (q % 3)) :
    (indices.foldl dropInterest e).staticSources = e.staticSources ∧
      (∀ q, (indices.foldl dropInterest e).interestCounts (q / 3) (q % 3) =
        e.interestCounts (q / 3) (q % 3) - indices.count q) ∧
      (indices.foldl dropInterest e).waitIndicesByState = e.waitIndicesByState ∧
      (indices.foldl dropInterest e).fallingRegistrations = e.fallingRegistrations ∧
      (indices.foldl dropInterest e).underflow = e.underflow ∧
      (indices.foldl dropInterest e).staleRegistrations = e.staleRegistrations ∧
      (indices.foldl dropInterest e).queueEntries = e.queueEntries := by
  induction indices generalizing e with
  | nil => exact ⟨rfl, fun _ => rfl, rfl, rfl, rfl, rfl, rfl⟩
  | cons q rest ih =>
      have here : 0 < e.interestCounts (q / 3) (q % 3) := by
        have enough := counted q
        rw [List.count_cons_self] at enough
        omega
      obtain ⟨static, interest, indices, falling, underflow, stale, entries⟩ :=
        dropInterest_counters here
      have later : ∀ q', rest.count q' ≤ (e.dropInterest q).interestCounts (q' / 3) (q' % 3) := by
        intro q'
        have enough := counted q'
        rw [interest, List.count_cons] at *
        by_cases same : q' = q
        · rw [if_pos same]
          rw [if_pos (beq_iff_eq.mpr same.symm)] at enough
          omega
        · rw [if_neg same]
          omega
      obtain ⟨static', interest', indices', falling', underflow', stale', entries'⟩ := ih later
      refine ⟨static'.trans static, fun q' => ?_, indices'.trans indices, falling'.trans falling,
        underflow'.trans underflow, stale'.trans stale, entries'.trans entries⟩
      rw [List.foldl_cons, interest', interest, List.count_cons]
      by_cases same : q' = q
      · rw [if_pos same, if_pos (beq_iff_eq.mpr same.symm)]
        omega
      · rw [if_neg same, if_neg fun equal => same (beq_iff_eq.mp equal).symm]
        omega

end EdgeTable

/-! ### Phases -/

namespace PhaseTable

theorem endPhase_counters {t : PhaseTable} {i : Nat} {phase : Phase}
    (counted : t.waitCountsByState i phase ≤ t.waiterCounts phase) :
    (t.endPhase i phase).waiterCounts =
        update t.waiterCounts phase (t.waiterCounts phase - t.waitCountsByState i phase) ∧
      (t.endPhase i phase).waitCountsByState =
        update t.waitCountsByState i (update (t.waitCountsByState i) phase 0) ∧
      (t.endPhase i phase).underflow = t.underflow := by
  unfold endPhase
  simp only
  rw [if_neg (Nat.not_lt.mpr counted)]
  exact ⟨rfl, rfl, rfl⟩

/-- The phase waits of one state are taken back. -/
theorem endWait_counters {t : PhaseTable} {i : Nat}
    (counted : ∀ phase, t.waitCountsByState i phase ≤ t.waiterCounts phase) :
    (∀ phase, (t.endWait i).waiterCounts phase =
        t.waiterCounts phase - t.waitCountsByState i phase) ∧
      (t.endWait i).waitCountsByState = update t.waitCountsByState i (fun _ => 0) ∧
      (t.endWait i).underflow = t.underflow := by
  obtain ⟨counts, waits, underflow⟩ := endPhase_counters (counted .readWrite)
  have counted' : (t.endPhase i .readWrite).waitCountsByState i .readOnly ≤
      (t.endPhase i .readWrite).waiterCounts .readOnly := by
    rw [counts, waits]
    simpa using counted .readOnly
  obtain ⟨counts', waits', underflow'⟩ := endPhase_counters counted'
  have counted'' : ((t.endPhase i .readWrite).endPhase i .readOnly).waitCountsByState i
      .nextTimeStep ≤ ((t.endPhase i .readWrite).endPhase i .readOnly).waiterCounts
        .nextTimeStep := by
    rw [counts', waits', counts, waits]
    simpa using counted .nextTimeStep
  obtain ⟨counts'', waits'', underflow''⟩ := endPhase_counters counted''
  unfold endWait
  refine ⟨fun phase => ?_, ?_, underflow''.trans (underflow'.trans underflow)⟩
  · rw [counts'', counts', waits', counts, waits]
    cases phase <;> simp
  · rw [waits'', waits', waits]
    funext k phase
    by_cases same : k = i
    · subst same
      cases phase <;> simp
    · simp [Function.update_of_ne same]

end PhaseTable

/-! ### Counting the registrations of a slot -/

section Counting

variable (live : List (WaitSource × WaitRegistration)) (i : Nat)

/-- What is left when the registrations of a slot are gone. -/
theorem countP_rest (p : WaitSource × WaitRegistration → Bool) :
    live.countP p = (live.filter fun x => x.2.stateIndex != i).countP p +
      live.countP fun x => ofSlot i x && p x := by
  rw [countP_split live p fun x => x.2.stateIndex != i]
  congr 2
  funext x
  unfold ofSlot bne
  rw [Bool.not_not]

theorem countP_gone (p : WaitSource × WaitRegistration → Bool) :
    ((live.filter fun x => x.2.stateIndex != i).countP fun x => ofSlot i x && p x) = 0 := by
  refine List.countP_eq_zero.mpr fun x member => ?_
  have other := (List.mem_filter.mp member).2
  unfold ofSlot
  unfold bne at other
  rw [Bool.not_eq_true'] at other
  rw [other]
  exact Bool.false_ne_true

theorem countP_other {k : Nat} (other : k ≠ i) (p : WaitSource × WaitRegistration → Bool) :
    ((live.filter fun x => x.2.stateIndex != i).countP fun x => ofSlot k x && p x) =
      live.countP fun x => ofSlot k x && p x := by
  rw [List.countP_filter]
  congr 1
  funext x
  unfold ofSlot
  by_cases here : x.2.stateIndex = k
  · simp [here, other]
  · simp [here]

theorem filter_gone : (live.filter fun x => x.2.stateIndex != i).filter (ofSlot i) = [] := by
  refine List.filter_eq_nil_iff.mpr fun x member => ?_
  have other := (List.mem_filter.mp member).2
  unfold ofSlot
  simpa using other

theorem filter_other {k : Nat} (other : k ≠ i) :
    (live.filter fun x => x.2.stateIndex != i).filter (ofSlot k) = live.filter (ofSlot k) := by
  rw [List.filter_filter]
  refine List.filter_congr fun x _ => ?_
  unfold ofSlot
  by_cases here : x.2.stateIndex = k
  · simp [here, other]
  · simp [here]

theorem count_indices (static : Nat → Bool) (q : Nat) :
    ((live.filter (ofSlot i)).reverse.filterMap (countedQueue static)).count q =
      if static (q / 3) then 0 else live.countP fun x => ofSlot i x && x.1.queue == some q := by
  rw [List.count_filterMap, List.countP_reverse, List.countP_filter]
  cases isStatic : static (q / 3) with
  | true =>
      rw [if_pos rfl]
      refine List.countP_eq_zero.mpr fun x _ => ?_
      unfold countedQueue
      cases queue : x.1.queue with
      | none => simp
      | some q' =>
          by_cases same : q' = q
          · subst same
            simp [isStatic]
          · cases static' : static (q' / 3) <;> simp [Option.filter, static', same]
  | false =>
      rw [if_neg Bool.false_ne_true]
      congr 1
      funext x
      unfold countedQueue
      cases queue : x.1.queue with
      | none => simp
      | some q' =>
          by_cases same : q' = q
          · subst same
            simp [Option.filter, isStatic]
          · rw [Bool.and_comm]
            cases static' : static (q' / 3) <;> simp [Option.filter, static', same]

end Counting

/-! ### Keeping the ledger -/

namespace Counted

variable {l l' : Ledger} {live : List (WaitSource × WaitRegistration)}

/-- The registrations of a slot are gone, and so is what the slot had counted. -/
theorem drop (ok : Counted l live) (i : Nat) (static : l'.static = l.static)
    (interest : ∀ q, l.static (q / 3) = false →
      l'.interest (q / 3) (q % 3) = l.interest (q / 3) (q % 3) - (l.indices i).count q)
    (indices : l'.indices = update l.indices i [])
    (falling : l'.falling = l.falling - l.fallingWaits i)
    (edgeWaits : l'.edgeWaits = update l.edgeWaits i 0)
    (fallingWaits : l'.fallingWaits = update l.fallingWaits i 0)
    (phases : ∀ p, l'.phases p = l.phases p - l.phaseWaits i p)
    (phaseWaits : l'.phaseWaits = update l.phaseWaits i fun _ => 0)
    (edgeUnderflow : l'.edgeUnderflow = l.edgeUnderflow)
    (phaseUnderflow : l'.phaseUnderflow = l.phaseUnderflow) :
    Counted l' (live.filter fun x => x.2.stateIndex != i) where
  interest q dynamic := by
    rw [static] at dynamic
    rw [interest q dynamic, ok.interest q dynamic, ok.indices, count_indices, dynamic,
      if_neg Bool.false_ne_true, countP_rest live i]
    omega
  indices k := by
    rw [indices, static]
    by_cases same : k = i
    · subst same
      rw [Function.update_self, filter_gone]
      rfl
    · rw [Function.update_of_ne same, filter_other live i same]
      exact ok.indices k
  falling := by
    rw [falling, ok.falling, ok.fallingWaits, countP_rest live i]
    omega
  edgeWaits k := by
    rw [edgeWaits]
    by_cases same : k = i
    · subst same
      rw [Function.update_self, countP_gone]
    · rw [Function.update_of_ne same, countP_other live i same]
      exact ok.edgeWaits k
  fallingWaits k := by
    rw [fallingWaits]
    by_cases same : k = i
    · subst same
      rw [Function.update_self, countP_gone]
    · rw [Function.update_of_ne same, countP_other live i same]
      exact ok.fallingWaits k
  phases p := by
    rw [phases, ok.phases, ok.phaseWaits, countP_rest live i]
    omega
  phaseWaits k p := by
    rw [phaseWaits]
    by_cases same : k = i
    · subst same
      rw [Function.update_self, countP_gone]
    · rw [Function.update_of_ne same, countP_other live i same]
      exact ok.phaseWaits k p
  edgeUnderflow := edgeUnderflow.trans ok.edgeUnderflow
  phaseUnderflow := phaseUnderflow.trans ok.phaseUnderflow

/-- What a slot will take back has been counted. -/
theorem enough (ok : Counted l live) (i q : Nat) :
    (l.indices i).count q ≤ l.interest (q / 3) (q % 3) := by
  rw [ok.indices, count_indices]
  cases static : l.static (q / 3) with
  | true => exact Nat.zero_le _
  | false =>
      have whole := countP_rest live i fun x => x.1.queue == some q
      rw [if_neg Bool.false_ne_true, ok.interest q static]
      omega

theorem enoughPhases (ok : Counted l live) (i : Nat) (p : Phase) :
    l.phaseWaits i p ≤ l.phases p := by
  have whole := countP_rest live i fun x => x.1.inPhase p
  rw [ok.phases, ok.phaseWaits]
  omega

/-- A slot without edge waits has no interest to take back. -/
theorem noIndices (ok : Counted l live) {i : Nat} (none : l.edgeWaits i = 0) :
    l.indices i = [] ∧ l.fallingWaits i = 0 := by
  have empty := List.countP_eq_zero.mp ((ok.edgeWaits i).symm.trans none)
  constructor
  · rw [ok.indices]
    refine List.filterMap_eq_nil_iff.mpr fun x member => ?_
    obtain ⟨here, slot⟩ := List.mem_filter.mp (List.mem_reverse.mp member)
    have noQueue := empty x here
    rw [slot, Bool.true_and, Option.not_isSome_iff_eq_none] at noQueue
    unfold countedQueue
    rw [noQueue]
    rfl
  · rw [ok.fallingWaits]
    refine List.countP_eq_zero.mpr fun x member counted => empty x member ?_
    rw [Bool.and_eq_true] at counted ⊢
    refine ⟨counted.1, ?_⟩
    cases source : x.1 with
    | edge _ _ => rfl
    | delay _ _ => rw [source] at counted; cases counted.2
    | phase _ => rw [source] at counted; cases counted.2
    | process _ => rw [source] at counted; cases counted.2

end Counted

/-- The wait of a slot ends. -/
theorem Counted.endWait {s : Scheduler} (ok : Counted s.ledger s.live) (i : Nat) :
    Counted (s.endWait i).ledger (s.endWait i).live := by
  rw [Scheduler.live_endWait]
  cases waiting : (s.states i).waiting with
  | false =>
      have same : s.endWait i = s := Scheduler.endWait_of_still waiting
      have nothing : (s.live.filter fun x => x.2.stateIndex != i) = s.live :=
        List.filter_eq_self.mpr fun x member =>
          bne_iff_ne.mpr (Scheduler.stateIndex_ne_of_live waiting member)
      rw [same, nothing]
      exact ok
  | true =>
      unfold Scheduler.endWait
      simp only [waiting, if_true]
      split
      · -- nothing was counted for this state
        rename_i idle
        obtain ⟨noEdges, noPhases⟩ := idle
        obtain ⟨noIndices, noFalling⟩ := ok.noIndices noEdges
        have noPhase : ∀ p, s.ledger.phaseWaits i p = 0 := by
          intro p
          cases p with
          | readWrite => exact noPhases.1
          | readOnly => exact noPhases.2.1
          | nextTimeStep => exact noPhases.2.2
        have waits : ∀ k, (update s.states i { s.states i with waiting := false } k).edgeWaitCount =
            (s.states k).edgeWaitCount ∧
            (update s.states i { s.states i with waiting := false } k).fallingEdgeWaitCount =
              (s.states k).fallingEdgeWaitCount := by
          intro k
          by_cases same : k = i
          · subst same
            rw [Function.update_self]
            exact ⟨rfl, rfl⟩
          · rw [Function.update_of_ne same]
            exact ⟨rfl, rfl⟩
        refine ok.drop i rfl (fun q _ => ?_) ?_ ?_ ?_ ?_ (fun p => ?_) ?_ rfl rfl
        · rw [noIndices]
          rfl
        · exact (Function.update_eq_self_iff.mpr noIndices.symm).symm
        · rw [noFalling]
          exact (Int.sub_zero _).symm
        · refine (funext fun k => (waits k).1).trans ?_
          exact (Function.update_eq_self_iff.mpr noEdges.symm).symm
        · refine (funext fun k => (waits k).2).trans ?_
          exact (Function.update_eq_self_iff.mpr noFalling.symm).symm
        · rw [noPhase]
          rfl
        · exact (Function.update_eq_self_iff.mpr (funext noPhase).symm).symm
      · obtain ⟨static, interest, indices, falling, underflow, -, -⟩ :=
          EdgeTable.dropInterests_counters (s.edges.waitIndicesByState i) (ok.enough i)
        obtain ⟨phases, phaseWaits, phaseUnderflow⟩ :=
          PhaseTable.endWait_counters (t := s.phases) (ok.enoughPhases i)
        refine ok.drop i static (fun q _ => interest q) ?_ ?_ ?_ ?_ phases phaseWaits underflow
          phaseUnderflow
        · exact congrArg (fun waits => update waits i []) indices
        · exact congrArg (· - ((s.states i).fallingEdgeWaitCount : Int)) falling
        · funext k
          by_cases same : k = i
          · subst same
            simp [Scheduler.ledger]
          · simp [Scheduler.ledger, Function.update_of_ne same]
        · funext k
          by_cases same : k = i
          · subst same
            simp [Scheduler.ledger]
          · simp [Scheduler.ledger, Function.update_of_ne same]

/-! ### Handing out -/

/-- One registration is counted. -/
theorem Counted.add {l l' : Ledger} {live : List (WaitSource × WaitRegistration)}
    (ok : Counted l live) (x : WaitSource × WaitRegistration) (static : l'.static = l.static)
    (interest : ∀ q, l.static (q / 3) = false → l'.interest (q / 3) (q % 3) =
      l.interest (q / 3) (q % 3) + if x.1.queue == some q then 1 else 0)
    (indices : ∀ i, l'.indices i =
      l.indices i ++ if ofSlot i x then (countedQueue l.static x).toList else [])
    (falling : l'.falling = l.falling + if x.1.falls then 1 else 0)
    (edgeWaits : ∀ i, l'.edgeWaits i =
      l.edgeWaits i + if ofSlot i x && x.1.queue.isSome then 1 else 0)
    (fallingWaits : ∀ i, l'.fallingWaits i =
      l.fallingWaits i + if ofSlot i x && x.1.falls then 1 else 0)
    (phases : ∀ p, l'.phases p = l.phases p + if x.1.inPhase p then 1 else 0)
    (phaseWaits : ∀ i p, l'.phaseWaits i p =
      l.phaseWaits i p + if ofSlot i x && x.1.inPhase p then 1 else 0)
    (edgeUnderflow : l'.edgeUnderflow = l.edgeUnderflow)
    (phaseUnderflow : l'.phaseUnderflow = l.phaseUnderflow) : Counted l' (x :: live) where
  interest q dynamic := by
    rw [static] at dynamic
    rw [interest q dynamic, ok.interest q dynamic, List.countP_cons]
  indices i := by
    rw [indices, static, ok.indices]
    by_cases here : ofSlot i x = true
    · rw [if_pos here, List.filter_cons_of_pos here, List.reverse_cons, List.filterMap_append]
      cases counted : countedQueue l.static x <;> simp [counted]
    · rw [if_neg here, List.filter_cons_of_neg here, List.append_nil]
  falling := by
    rw [falling, ok.falling, List.countP_cons]
    split <;> simp
  edgeWaits i := by rw [edgeWaits, ok.edgeWaits, List.countP_cons]
  fallingWaits i := by rw [fallingWaits, ok.fallingWaits, List.countP_cons]
  phases p := by rw [phases, ok.phases, List.countP_cons]
  phaseWaits i p := by rw [phaseWaits, ok.phaseWaits, List.countP_cons]
  edgeUnderflow := edgeUnderflow.trans ok.edgeUnderflow
  phaseUnderflow := phaseUnderflow.trans ok.phaseUnderflow

/-- A registration that is neither an edge nor a phase is counted nowhere. -/
theorem Counted.other {l : Ledger} {live : List (WaitSource × WaitRegistration)}
    (ok : Counted l live) {source : WaitSource} {r : WaitRegistration}
    (queue : source.queue = none) (falls : source.falls = false)
    (inPhase : ∀ p, source.inPhase p = false) : Counted l ((source, r) :: live) := by
  refine ok.add (source, r) rfl (fun q _ => ?_) (fun i => ?_) ?_ (fun i => ?_) (fun i => ?_)
    (fun p => ?_) (fun i p => ?_) rfl rfl
  · simp [queue]
  · simp [countedQueue, queue]
  · simp [falls]
  · simp [queue]
  · simp [falls]
  · simp [inPhase]
  · simp [inPhase]

theorem EdgeTable.addEdgeInterest_counters (e : EdgeTable) (i q : Nat) :
    (e.addEdgeInterest i q).staticSources = e.staticSources ∧
      (∀ q', e.staticSources (q' / 3) = false →
        (e.addEdgeInterest i q).interestCounts (q' / 3) (q' % 3) =
          e.interestCounts (q' / 3) (q' % 3) + if q' = q then 1 else 0) ∧
      (∀ k, (e.addEdgeInterest i q).waitIndicesByState k =
        e.waitIndicesByState k ++
          if k = i ∧ e.staticSources (q / 3) = false then [q] else []) ∧
      (e.addEdgeInterest i q).fallingRegistrations = e.fallingRegistrations ∧
      (e.addEdgeInterest i q).underflow = e.underflow ∧
      (e.addEdgeInterest i q).staleRegistrations = e.staleRegistrations ∧
      (e.addEdgeInterest i q).queueEntries = e.queueEntries := by
  unfold addEdgeInterest
  simp only
  cases static : e.staticSources (q / 3) with
  | true =>
      refine ⟨rfl, fun q' dynamic => ?_, fun k => ?_, rfl, rfl, rfl, rfl⟩
      · have other : q' ≠ q := by
          rintro rfl
          rw [static] at dynamic
          cases dynamic
        rw [if_neg other]
        rfl
      · simp
  | false =>
      obtain ⟨static', interest, indices, falling, underflow, stale, entries⟩ :=
        recordEdgeInterestChange_counters
          { e.setCount (q / 3) (q % 3) (e.interestCounts (q / 3) (q % 3) + 1) with
            waitIndicesByState := update e.waitIndicesByState i (e.waitIndicesByState i ++ [q]) }
          (q / 3) (e.edgeInterest (q / 3))
      refine ⟨static', fun q' _ => ?_, fun k => ?_, falling, underflow, stale, entries⟩
      · refine (congrFun (congrFun interest _) _).trans ((setCount_same e q q' _).trans ?_)
        split
        · rename_i same
          rw [same]
        · rfl
      · refine (congrFun indices k).trans ?_
        by_cases same : k = i
        · subst same
          simp
        · simp [same]

theorem queueIndex_div (signal : Nat) (kind : EdgeKind) :
    EdgeTable.queueIndex signal kind / 3 = signal := by
  unfold EdgeTable.queueIndex
  cases kind <;> simp only [EdgeKind.index] <;> omega

theorem Counted.registerEdge {s : Scheduler} (ok : Counted s.ledger s.live) (signal : Nat)
    (kind : EdgeKind) (r : WaitRegistration) :
    Counted (s.registerEdgeWait signal kind r).ledger ((.edge signal kind, r) :: s.live) := by
  obtain ⟨static, interest, indices, falling, underflow, -, -⟩ :=
    EdgeTable.addEdgeInterest_counters
      { s.edges with
        queueCount := max s.edges.queueCount (EdgeTable.queueIndex signal kind + 1)
        waiters := update s.edges.waiters (EdgeTable.queueIndex signal kind)
          (s.edges.waiters (EdgeTable.queueIndex signal kind) ++ [r])
        queueEntries := s.edges.queueEntries + 1 } r.stateIndex (EdgeTable.queueIndex signal kind)
  have edges : (s.edges.registerEdgeWait signal kind r).staticSources = s.edges.staticSources ∧
      (∀ q, s.edges.staticSources (q / 3) = false →
        (s.edges.registerEdgeWait signal kind r).interestCounts (q / 3) (q % 3) =
          s.edges.interestCounts (q / 3) (q % 3) +
            if q = EdgeTable.queueIndex signal kind then 1 else 0) ∧
      (∀ k, (s.edges.registerEdgeWait signal kind r).waitIndicesByState k =
        s.edges.waitIndicesByState k ++
          if k = r.stateIndex ∧ s.edges.staticSources (EdgeTable.queueIndex signal kind / 3) = false
          then [EdgeTable.queueIndex signal kind] else []) ∧
      (s.edges.registerEdgeWait signal kind r).fallingRegistrations =
        s.edges.fallingRegistrations + (if kind = .rising then 0 else 1) ∧
      (s.edges.registerEdgeWait signal kind r).underflow = s.edges.underflow := by
    unfold EdgeTable.registerEdgeWait
    simp only
    split
    · exact ⟨static, interest, indices, falling.trans (Int.add_zero _).symm, underflow⟩
    · exact ⟨static, interest, indices, congrArg (· + 1) falling, underflow⟩
  obtain ⟨static, interest, indices, falling, underflow⟩ := edges
  refine ok.add (.edge signal kind, r) static (fun q dynamic => ?_) (fun i => ?_) ?_ (fun i => ?_)
    (fun i => ?_) (fun p => rfl) (fun i p => ?_) underflow rfl
  · refine (interest q dynamic).trans ?_
    congr 1
    by_cases same : q = EdgeTable.queueIndex signal kind
    · simp [WaitSource.queue, same]
    · have other : EdgeTable.queueIndex signal kind ≠ q := fun h => same h.symm
      simp [WaitSource.queue, same, other]
  · refine (indices i).trans ?_
    congr 1
    by_cases same : i = r.stateIndex
    · subst same
      cases static' : s.edges.staticSources (EdgeTable.queueIndex signal kind / 3) <;>
        simp [ofSlot, countedQueue, WaitSource.queue, Scheduler.ledger, static', Option.filter]
    · have other : r.stateIndex ≠ i := fun h => same h.symm
      simp [ofSlot, same, other]
  · refine falling.trans ?_
    congr 1
    cases kind <;> rfl
  · by_cases same : i = r.stateIndex
    · subst same
      simp [Scheduler.ledger, Scheduler.registerEdgeWait, ofSlot, WaitSource.queue]
    · have other : r.stateIndex ≠ i := fun h => same h.symm
      simp [Scheduler.ledger, Scheduler.registerEdgeWait, ofSlot, same, other]
  · by_cases same : i = r.stateIndex
    · subst same
      cases kind <;>
        simp [Scheduler.ledger, Scheduler.registerEdgeWait, ofSlot, WaitSource.falls]
    · have other : r.stateIndex ≠ i := fun h => same h.symm
      simp [Scheduler.ledger, Scheduler.registerEdgeWait, ofSlot, same, other]
  · simp [Scheduler.ledger, Scheduler.registerEdgeWait, WaitSource.inPhase]

theorem Counted.registerPhase {s t : Scheduler} (ok : Counted s.ledger s.live) (phase : Phase)
    (r : WaitRegistration)
    (ledger : t.ledger = { s.ledger with
      phases := (s.phases.register phase r).waiterCounts
      phaseWaits := (s.phases.register phase r).waitCountsByState }) :
    Counted t.ledger ((.phase phase, r) :: s.live) := by
  rw [ledger]
  refine ok.add (.phase phase, r) rfl (fun q _ => rfl) (fun i => ?_) (Int.add_zero _).symm
    (fun i => ?_) (fun i => ?_) (fun p => ?_) (fun i p => ?_) rfl rfl
  · simp [countedQueue, WaitSource.queue]
  · simp [WaitSource.queue]
  · simp [WaitSource.falls]
  · by_cases same : p = phase
    · subst same
      simp [PhaseTable.register, Scheduler.ledger, WaitSource.inPhase]
    · have other : phase ≠ p := fun h => same h.symm
      simp [PhaseTable.register, Scheduler.ledger, WaitSource.inPhase, same, other]
  · by_cases here : i = r.stateIndex
    · subst here
      by_cases same : p = phase
      · subst same
        simp [PhaseTable.register, Scheduler.ledger, WaitSource.inPhase, ofSlot]
      · have other : phase ≠ p := fun h => same h.symm
        simp [PhaseTable.register, Scheduler.ledger, WaitSource.inPhase, same, other]
    · have other : r.stateIndex ≠ i := fun h => here h.symm
      simp [PhaseTable.register, Scheduler.ledger, ofSlot, here, other]

end Cpptb.Coro
