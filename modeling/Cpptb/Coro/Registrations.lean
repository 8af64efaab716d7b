/-
The live registrations.

`registrations` lists what was given to the queues, newest first, with what each registration waits
for; `live` lists those that are still valid. Three things happen to the live registrations:

* a registration that is valid is handed out, and comes first (`live_registered`);
* a wait ends, and the registrations of its slot are gone (`live_endWait`);
* a coroutine that does not wait is adopted, readied, retired or freed, or begins a wait of a new
  generation, and nothing changes (`live_of_still`, `live_beginWait`).
-/

import Cpptb.Coro.Steps

namespace Cpptb.Coro

open Function (update)

variable {κ : Type}

/-- The registration an event gives to a queue. -/
def Event.registration : Event → Option (WaitSource × WaitRegistration)
  | .registered source r => some (source, r)
  | _ => none

namespace Scheduler

/-- What was given to the queues, newest first. -/
def registrations (s : Scheduler) : List (WaitSource × WaitRegistration) :=
  s.handouts.filterMap Event.registration

/-- What was given to the queues and is still valid, newest first. -/
def live (s : Scheduler) : List (WaitSource × WaitRegistration) :=
  s.registrations.filter fun x => registrationValid s.states x.2

theorem mem_registrations {s : Scheduler} {source : WaitSource} {r : WaitRegistration} :
    (source, r) ∈ s.registrations ↔ Event.registered source r ∈ s.handouts := by
  unfold registrations
  constructor
  · intro member
    obtain ⟨event, here, same⟩ := List.mem_filterMap.mp member
    cases event with
    | registered source' r' =>
        cases same
        exact here
    | began _ _ _ => cases same
    | ended _ => cases same
    | parkedExternal _ => cases same
    | fired _ => cases same
    | joinCompleted _ => cases same
    | readied _ _ _ => cases same
    | unreadied _ => cases same
    | resumed _ => cases same
  · exact fun here => List.mem_filterMap.mpr ⟨_, here, rfl⟩

theorem registered_of_mem {s : Scheduler} {x : WaitSource × WaitRegistration}
    (member : x ∈ s.registrations) : s.Registered x.2 :=
  ⟨x.1, mem_registrations.mp member⟩

theorem mem_live {s : Scheduler} {x : WaitSource × WaitRegistration} :
    x ∈ s.live ↔ x ∈ s.registrations ∧ registrationValid s.states x.2 = true :=
  List.mem_filter

/-! ### Validity and slots -/

theorem valid_congr {s t : Scheduler} {r : WaitRegistration}
    (same : t.slot r.stateIndex = s.slot r.stateIndex) :
    registrationValid t.states r = registrationValid s.states r := by
  rw [Bool.eq_iff_iff, t.registrationValid_iff, s.registrationValid_iff]
  unfold Live
  rw [same]

theorem not_valid_of_still {s : Scheduler} {r : WaitRegistration}
    (still : (s.slot r.stateIndex).waiting = false) : registrationValid s.states r = false := by
  rw [Bool.eq_false_iff]
  intro valid
  have waits := ((s.registrationValid_iff r).mp valid).2.1
  rw [still] at waits
  cases waits

/-- One slot that does not wait, before or after, changes. -/
theorem valid_of_still {s t : Scheduler} {i : Nat} (others : ∀ k, k ≠ i → t.slot k = s.slot k)
    (still : (s.slot i).waiting = false) (still' : (t.slot i).waiting = false)
    (r : WaitRegistration) : registrationValid t.states r = registrationValid s.states r := by
  by_cases same : r.stateIndex = i
  · rw [not_valid_of_still (s := t) (same ▸ still'), not_valid_of_still (s := s) (same ▸ still)]
  · exact valid_congr (others _ same)

/-- The wait of one slot ends. -/
theorem valid_of_ended {s t : Scheduler} {i : Nat} (others : ∀ k, k ≠ i → t.slot k = s.slot k)
    (ended : (t.slot i).waiting = false) (r : WaitRegistration) :
    registrationValid t.states r = (r.stateIndex != i && registrationValid s.states r) := by
  by_cases same : r.stateIndex = i
  · rw [not_valid_of_still (s := t) (same ▸ ended), same, bne_self_eq_false, Bool.false_and]
  · rw [valid_congr (others _ same), bne_iff_ne.mpr same, Bool.true_and]

/-! ### Live registrations -/

theorem live_congr {s t : Scheduler} (registrations : t.registrations = s.registrations)
    (valid : ∀ x ∈ s.registrations,
      registrationValid t.states x.2 = registrationValid s.states x.2) : t.live = s.live := by
  unfold live
  rw [registrations]
  exact List.filter_congr valid

theorem live_of_still {s t : Scheduler} {i : Nat}
    (registrations : t.registrations = s.registrations)
    (others : ∀ k, k ≠ i → t.slot k = s.slot k) (still : (s.slot i).waiting = false)
    (still' : (t.slot i).waiting = false) : t.live = s.live :=
  live_congr registrations fun _ _ => valid_of_still others still still' _

theorem live_of_ended {s t : Scheduler} {i : Nat}
    (registrations : t.registrations = s.registrations)
    (others : ∀ k, k ≠ i → t.slot k = s.slot k) (ended : (t.slot i).waiting = false) :
    t.live = s.live.filter fun x => x.2.stateIndex != i := by
  unfold live
  rw [registrations, List.filter_filter]
  exact List.filter_congr fun x _ => valid_of_ended others ended x.2

/-- Nothing is live in a slot that does not wait. -/
theorem stateIndex_ne_of_live {s : Scheduler} {i : Nat} (still : (s.slot i).waiting = false)
    {x : WaitSource × WaitRegistration} (member : x ∈ s.live) : x.2.stateIndex ≠ i := by
  rintro rfl
  have valid := (mem_live.mp member).2
  rw [not_valid_of_still still] at valid
  cases valid

theorem registrations_of_surroundings {s t : Scheduler} (same : t.surroundings = s.surroundings) :
    t.registrations = s.registrations := by
  unfold registrations
  rw [show t.handouts = s.handouts from congrArg Surroundings.handouts same]

theorem live_registered {s t : Scheduler} {source : WaitSource} {r : WaitRegistration}
    (slots : t.slot = s.slot)
    (handouts : t.handouts = (s.record (.registered source r)).handouts)
    (valid : registrationValid s.states r = true) :
    t.registrations = (source, r) :: s.registrations ∧ t.live = (source, r) :: s.live := by
  have registrations : t.registrations = (source, r) :: s.registrations := by
    unfold registrations
    rw [handouts]
    rfl
  refine ⟨registrations, ?_⟩
  have same : ∀ x : WaitRegistration, registrationValid t.states x = registrationValid s.states x :=
    fun x => valid_congr (congrFun slots _)
  unfold live
  rw [registrations]
  have here : registrationValid t.states r = true := (same r).trans valid
  simp only [List.filter_cons, here, if_true]
  exact congrArg _ (List.filter_congr fun x _ => same x.2)

/-! ### The functions of parts 2 and 3 -/

theorem registrations_endWait (s : Scheduler) (i : Nat) :
    (s.endWait i).registrations = s.registrations :=
  registrations_of_surroundings (surroundings_endWait s i)

theorem live_endWait (s : Scheduler) (i : Nat) :
    (s.endWait i).live = s.live.filter fun x => x.2.stateIndex != i :=
  live_of_ended (registrations_endWait s i)
    (fun k other => (slot_endWait s i k).trans (if_neg other))
    (by rw [slot_endWait, if_pos rfl])

theorem waiting_makeReady (s : Scheduler) (i k : Nat) (cause : ReadyCause) :
    ((s.makeReady i cause).slot k).waiting = (s.slot k).waiting ∧
      ((s.makeReady i cause).slot k).handle = (s.slot k).handle ∧
      ((s.makeReady i cause).slot k).done = (s.slot k).done ∧
      ((s.makeReady i cause).slot k).generation = (s.slot k).generation := by
  unfold makeReady
  split
  · exact ⟨rfl, rfl, rfl, rfl⟩
  · split
    · exact ⟨rfl, rfl, rfl, rfl⟩
    · have updated := slot_update s.states i k { s.states i with ready := true }
      unfold slot
      simp only
      rw [updated]
      by_cases same : k = i
      · subst same
        rw [if_pos rfl]
        exact ⟨rfl, rfl, rfl, rfl⟩
      · rw [if_neg same]
        exact ⟨rfl, rfl, rfl, rfl⟩

/-- Validity does not depend on readiness. -/
theorem valid_of_unready {s t : Scheduler} {r : WaitRegistration}
    (same : (t.slot r.stateIndex).waiting = (s.slot r.stateIndex).waiting ∧
      (t.slot r.stateIndex).handle = (s.slot r.stateIndex).handle ∧
      (t.slot r.stateIndex).done = (s.slot r.stateIndex).done ∧
      (t.slot r.stateIndex).generation = (s.slot r.stateIndex).generation) :
    registrationValid t.states r = registrationValid s.states r := by
  obtain ⟨waiting, handle, done, generation⟩ := same
  rw [Bool.eq_iff_iff, t.registrationValid_iff, s.registrationValid_iff]
  unfold Live
  rw [waiting, handle, done, generation]

theorem valid_makeReady (s : Scheduler) (i : Nat) (cause : ReadyCause) (r : WaitRegistration) :
    registrationValid (s.makeReady i cause).states r = registrationValid s.states r :=
  valid_of_unready (waiting_makeReady s i r.stateIndex cause)

theorem live_makeReady (s : Scheduler) (i : Nat) (cause : ReadyCause) :
    (s.makeReady i cause).live = s.live :=
  live_congr (registrations_of_surroundings (surroundings_makeReady s i cause))
    fun x _ => valid_makeReady s i cause x.2

theorem valid_clearReady (s : Scheduler) (i : Nat) (r : WaitRegistration) :
    registrationValid (s.clearReady i).states r = registrationValid s.states r := by
  refine valid_of_unready ?_
  rw [slot_clearReady]
  by_cases same : r.stateIndex = i
  · rw [if_pos same, same]
    exact ⟨rfl, rfl, rfl, rfl⟩
  · rw [if_neg same]
    exact ⟨rfl, rfl, rfl, rfl⟩

theorem live_clearReady (s : Scheduler) (i : Nat) : (s.clearReady i).live = s.live :=
  live_congr (registrations_of_surroundings (surroundings_clearReady s i))
    fun x _ => valid_clearReady s i x.2

theorem valid_enterState (s : Scheduler) (i : Nat) (r : WaitRegistration) :
    registrationValid (s.enterState i).states r = registrationValid s.states r := by
  have updated := slot_update s.states i r.stateIndex { s.states i with ready := false }
  refine valid_of_unready ?_
  unfold slot enterState
  simp only
  rw [updated]
  by_cases same : r.stateIndex = i
  · rw [if_pos same, same]
    exact ⟨rfl, rfl, rfl, rfl⟩
  · rw [if_neg same]
    exact ⟨rfl, rfl, rfl, rfl⟩

/-- A coroutine begins a wait of a generation no registration has. -/
theorem valid_beginWait {s : Scheduler} {i : Nat} (still : (s.slot i).waiting = false)
    (diagnostic : WaitDiagnostic) {r : WaitRegistration}
    (older : r.generation ≤ s.nextWaitGeneration) :
    registrationValid (s.beginWait i diagnostic).states r = registrationValid s.states r := by
  by_cases same : r.stateIndex = i
  · rw [not_valid_of_still (s := s) (same ▸ still), Bool.eq_false_iff]
    intro valid
    have generation := (((s.beginWait i diagnostic).registrationValid_iff r).mp valid).2.2
    rw [slot_beginWait, if_pos same] at generation
    have newer : s.nextWaitGeneration + 1 = r.generation := generation
    omega
  · exact valid_congr ((slot_beginWait s i _ diagnostic).trans (if_neg same))

end Scheduler

/-- Every registration was handed out at most as late as the newest wait. -/
theorem Wf.older {m : Machine κ} (wf : Wf m) {r : WaitRegistration}
    (registered : m.sched.Registered r) : r.generation ≤ m.sched.nextWaitGeneration :=
  wf.posts.bounded r (.inl (.inl registered))

theorem live_beginWait {m : Machine κ} (wf : Wf m) {i : Nat}
    (still : (m.sched.slot i).waiting = false) (diagnostic : WaitDiagnostic) :
    (m.sched.beginWait i diagnostic).live = m.sched.live :=
  Scheduler.live_congr
    (Scheduler.registrations_of_surroundings (Scheduler.surroundings_beginWait m.sched i diagnostic))
    fun _ member => Scheduler.valid_beginWait still diagnostic
      (wf.older (Scheduler.registered_of_mem member))

end Cpptb.Coro
