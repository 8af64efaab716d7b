/-
A step of the machine as a sequence of moves.

`Core` is the part of the scheduler the bookkeeping lives in, and `Prim` lists the changes that are
ever made to it: one constructor for each elementary function of parts 2 and 3, with what is true
where it is called. A `Move` changes the core by at most one `Prim` and keeps the invariant; a `Path`
is a sequence of moves.

* `Path.wf` — a path keeps the invariant;
* `Path.keeps` — a property of the core that every `Prim` keeps is kept by every path.

The functions of parts 2 and 3 are shown to be paths here (`path_resumeRegistration`, ...), and the
steps of the machine in the next module, so that each property of the core is proved for the `Prim`s
alone.
-/

import Cpptb.Coro.Turnover

namespace Cpptb.Coro

open Function (update)

variable {κ : Type}

/-! ### The core -/

/-- The part of the scheduler the bookkeeping lives in. -/
structure Core where
  states : Nat → CoroutineState
  stateCount : Nat
  diagnosticStates : Nat → CoroutineDiagnosticState
  freeStates : List Nat
  edges : EdgeTable
  phases : PhaseTable
  timers : TimerTable
  ready : ReadyQueue
  winners : Nat → Option Nat
  now : Nat
  nextWaitGeneration : Nat
  nextCoroutineId : Nat
  activeCoroutines : Int
  waitRegistered : Bool
  history : List Event

/-- The core of a scheduler. -/
def Scheduler.core (s : Scheduler) : Core where
  states := s.states
  stateCount := s.stateCount
  diagnosticStates := s.diagnosticStates
  freeStates := s.freeStates
  edges := s.edges
  phases := s.phases
  timers := s.timers
  ready := s.ready
  winners := s.winners
  now := s.now
  nextWaitGeneration := s.nextWaitGeneration
  nextCoroutineId := s.nextCoroutineId
  activeCoroutines := s.activeCoroutines
  waitRegistered := s.waitRegistered
  history := s.history

namespace Scheduler

/-- The coroutine in the slot is live and neither waiting nor ready. -/
def Still (s : Scheduler) (index : Nat) : Prop :=
  s.Live index ∧ (s.slot index).waiting = false ∧ (s.slot index).ready = false

/-- Replace one edge queue. -/
def withQueue (s : Scheduler) (index : Nat) (queue : List WaitRegistration) : Scheduler :=
  { s with edges := { s.edges with waiters := update s.edges.waiters index queue } }

/-- Replace the timers. -/
def withTimers (s : Scheduler) (timers : TimerTable) : Scheduler := { s with timers := timers }

/-- Replace one phase queue. -/
def withPhase (s : Scheduler) (phase : Phase) (queue : List WaitRegistration) : Scheduler :=
  { s with phases := { s.phases with waiters := update s.phases.waiters phase queue } }

/-- A wait makes progress with the simulator. -/
def noteSimulator (s : Scheduler) (index : Nat) : Scheduler :=
  s.modifyDiagnostic index fun d =>
    { d with waitProgress := { d.waitProgress with simulator := true } }

/-- A join is complete and its parent, if it is still waiting, is ready. -/
def completeJoin (s : Scheduler) (index generation : Nat) : Scheduler :=
  ((s.record (.joinCompleted generation)).endWait index).makeReady index (.joined generation)

end Scheduler

/-- The elementary changes of the core. -/
inductive Prim : Scheduler → Scheduler → Prop
  | adopt (s : Scheduler) (promise : TaskPromise) : Prim s (s.adopt promise)
  | beginWait (s : Scheduler) (index : Nat) (diagnostic : WaitDiagnostic) :
      s.Still index → Prim s (s.beginWait index diagnostic)
  | noteSimulator (s : Scheduler) (index : Nat) : Prim s (s.noteSimulator index)
  | registerEdge (s : Scheduler) (signal : Nat) (kind : EdgeKind) (r : WaitRegistration) :
      registrationValid s.states r = true →
      (s.diagnosticStates r.stateIndex).waitProgress.simulator = true →
      Prim s (s.registerEdgeWait signal kind r)
  | registerDelay (s : Scheduler) (femtoseconds : Nat) (r : WaitRegistration) :
      registrationValid s.states r = true → Prim s (s.registerDelay femtoseconds r)
  | registerPhase (s : Scheduler) (phase : Phase) (r : WaitRegistration) :
      registrationValid s.states r = true → Prim s (s.registerPhase phase r)
  | registerProcess (s : Scheduler) (control : Nat) (r : WaitRegistration) :
      registrationValid s.states r = true → Prim s (s.record (.registered (.process control) r))
  | parkExternal (s : Scheduler) (r : WaitRegistration) :
      registrationValid s.states r = true → Prim s (s.record (.parkedExternal r))
  | resume (s : Scheduler) (r : WaitRegistration) :
      s.Handed r → Prim s (s.resumeRegistration r)
  | joined (s : Scheduler) (index generation : Nat) :
      s.Live index → (s.slot index).generation = generation →
      (s.slot index).waiting = true → Prim s (s.completeJoin index generation)
  | joinMissed (s : Scheduler) (index generation : Nat) :
      s.Live index → (s.slot index).generation = generation →
      (s.slot index).waiting = false → Prim s (s.record (.joinCompleted generation))
  | makeReady (s : Scheduler) (index : Nat) (cause : ReadyCause) :
      s.Still index → cause = .started ∨ cause = .deferred → Prim s (s.makeReady index cause)
  | finish (s : Scheduler) (index : Nat) : s.Still index → Prim s (s.markDone index)
  | retire (s : Scheduler) (index : Nat) : s.Live index → Prim s (s.retireState index)
  | free (s : Scheduler) (index : Nat) : (s.slot index).done = true → Prim s (s.freeState index)
  | dropEdge (s : Scheduler) (index : Nat) (r : WaitRegistration) (rest : List WaitRegistration) :
      index < s.edges.queueCount → s.edges.waiters index = r :: rest →
      registrationValid s.states r = false → Prim s (s.uncountEdgeEntry.withQueue index rest)
  | dropPhases (s : Scheduler) (phase : Phase) :
      (∀ r ∈ s.phases.waiters phase, registrationValid s.states r = false) →
      Prim s (s.withPhase phase [])
  | compact (s : Scheduler) : Prim s s.compactStaleEdgeQueues
  | discardStaleTimers (s : Scheduler) : Prim s s.discardStaleTimers
  | dropTimer (s : Scheduler) (timer : TimerRegistration) :
      s.timers.next = some timer → registrationValid s.states timer.wait = false →
      Prim s (s.withTimers { s.timers with next := none })
  | touchTimers (s : Scheduler) : Prim s s.touchTimers
  | setTime (s : Scheduler) (time : Nat) : Prim s { s with now := time }
  | configureStatic (s : Scheduler) (signal : Nat) :
      Prim s (s.configureStaticEdgeSource signal)
  | configureSticky (s : Scheduler) (signal : Nat) :
      Prim s (s.configureStickyEdgeSource signal)
  | startDrain (s : Scheduler) :
      s.draining = false → Prim s { s with ready := { s.ready with cursor := 0 } }
  | endDrain (s : Scheduler) : s.ready.queue[s.ready.cursor]? = none →
      Prim s { s with ready := { s.ready with queue := [], cursor := 0 } }
  | skipEntry (s : Scheduler) (index : Nat) : s.ready.queue[s.ready.cursor]? = some index →
      (s.slot index).ready = false → Prim s s.takeReadyEntry
  | takeEntry (s : Scheduler) (index : Nat) : s.ready.queue[s.ready.cursor]? = some index →
      s.Live index → (s.slot index).ready = true → Prim s (s.takeReadyEntry.enterState index)
  | takeOnly (s : Scheduler) (index : Nat) : s.Live index → (s.slot index).ready = true →
      s.ready.liveCount = 1 → Prim s (s.dropReadyEntries.enterState index)

/-! ### Moves -/

/-- At most one elementary change of the core, which keeps the invariant. -/
structure Move (m m' : Machine κ) : Prop where
  core : ∃ t, (t = m.sched ∨ Prim m.sched t) ∧ m'.sched.core = t.core
  wf : Wf m → Wf m'

/-- A sequence of moves. -/
def Path : Machine κ → Machine κ → Prop := Relation.ReflTransGen Move

namespace Path

theorem refl (m : Machine κ) : Path m m := Relation.ReflTransGen.refl

theorem trans {m m' m'' : Machine κ} (first : Path m m') (second : Path m' m'') : Path m m'' :=
  Relation.ReflTransGen.trans first second

/-- A move outside the core. -/
theorem admin {m m' : Machine κ} (core : m'.sched.core = m.sched.core) (wf : Wf m → Wf m') :
    Path m m' :=
  .single ⟨⟨m.sched, .inl rfl, core⟩, wf⟩

/-- A move that changes the core. -/
theorem prim {m m' : Machine κ} {t : Scheduler} (prim : Prim m.sched t)
    (core : m'.sched.core = t.core) (wf : Wf m → Wf m') : Path m m' :=
  .single ⟨⟨t, .inr prim, core⟩, wf⟩

/-- A path keeps the invariant. -/
theorem wf {m m' : Machine κ} (path : Path m m') (wf : Wf m) : Wf m' := by
  induction path with
  | refl => exact wf
  | tail _ move ih => exact move.wf ih

/-- The rule for properties of the core. -/
theorem keeps {m m' : Machine κ} (path : Path m m') (wf : Wf m) {P : Scheduler → Prop}
    (congr : ∀ s t : Scheduler, t.core = s.core → P s → P t)
    (prims : ∀ (n : Machine κ) t, Wf n → P n.sched → Prim n.sched t → P t)
    (here : P m.sched) : P m'.sched := by
  induction path with
  | refl => exact here
  | @tail n n' before move ih =>
      obtain ⟨t, change, core⟩ := move.core
      refine congr t n'.sched core ?_
      rcases change with rfl | prim
      · exact ih
      · exact prims n t (Path.wf before wf) ih prim

/-- A change of the core outside the skeleton and the queues. -/
theorem quiet {m : Machine κ} {t : Scheduler} (prim : Prim m.sched t)
    (skeleton : t.skeleton = m.sched.skeleton) (posted : t.posted = m.sched.posted) :
    Path m (m.withSched t) := by
  refine .prim prim rfl fun wf => WfAt.congr skeleton (fun r queued => ?_) wf
  unfold Scheduler.Queued at queued ⊢
  rwa [posted] at queued

/-- A change outside the core and the skeleton. -/
theorem outside {m : Machine κ} {t : Scheduler} (core : t.core = m.sched.core)
    (skeleton : t.skeleton = m.sched.skeleton) : Path m (m.withSched t) := by
  refine admin core fun wf => WfAt.congr skeleton (fun r queued => ?_) wf
  have edges : t.edges = m.sched.edges := congrArg Core.edges core
  have phases : t.phases = m.sched.phases := congrArg Core.phases core
  have timers : t.timers = m.sched.timers := congrArg Core.timers core
  unfold Scheduler.Queued Scheduler.posted at queued ⊢
  rwa [edges, phases, timers] at queued

end Path

/-! ### Resuming -/

namespace Scheduler

theorem rewrites_resumeRegistration {s : Scheduler} {r : WaitRegistration}
    (inside : r.stateIndex < s.stateCount) (valid : registrationValid s.states r = true) :
    Rewrites s (s.resumeRegistration r) r.stateIndex where
  surroundings := surroundings_resumeRegistration s r
  others _ other := slot_resumeRegistration_of_ne s r other
  handle := by rw [slot_resumeRegistration_self s r inside valid]
  done := by rw [slot_resumeRegistration_self s r inside valid]
  generations := Nat.le_of_eq (nextWaitGeneration_resumeRegistration s r).symm

theorem handed_resumeRegistration (s : Scheduler) (r r' : WaitRegistration) :
    (s.resumeRegistration r).Handed r' ↔ s.Handed r' := by
  have handouts : (s.resumeRegistration r).handouts = s.handouts :=
    congrArg Surroundings.handouts (surroundings_resumeRegistration s r)
  unfold Handed Registered External
  rw [handouts]

/-- A registration that is valid afterwards was valid before. -/
theorem valid_of_resumeRegistration {s : Scheduler} (slots : SlotsOk s)
    {r r' : WaitRegistration}
    (valid : registrationValid (s.resumeRegistration r).states r' = true) :
    registrationValid s.states r' = true := by
  by_cases before : registrationValid s.states r = true
  · obtain ⟨live, -, -⟩ := (s.registrationValid_iff r).mp before
    obtain ⟨h, handle⟩ := Option.isSome_iff_exists.mp live.1
    have self := slot_resumeRegistration_self s r (slots.named _ h handle).2.2 before
    obtain ⟨live', waits, generation⟩ := ((s.resumeRegistration r).registrationValid_iff r').mp valid
    by_cases same : r'.stateIndex = r.stateIndex
    · rw [same, self] at waits
      cases waits
    · have other := slot_resumeRegistration_of_ne s r same
      unfold Live at live'
      rw [other] at live' waits generation
      exact (s.registrationValid_iff r').mpr ⟨live', waits, generation⟩
  · rw [Bool.not_eq_true] at before
    rw [resumeRegistration_of_invalid s r before] at valid
    exact valid

/-- A registration is spent once it has been resumed. -/
theorem invalid_resumeRegistration {s : Scheduler} (slots : SlotsOk s) (r : WaitRegistration) :
    registrationValid (s.resumeRegistration r).states r = false := by
  by_cases before : registrationValid s.states r = true
  · obtain ⟨live, -, -⟩ := (s.registrationValid_iff r).mp before
    obtain ⟨h, handle⟩ := Option.isSome_iff_exists.mp live.1
    have self := slot_resumeRegistration_self s r (slots.named _ h handle).2.2 before
    cases valid : registrationValid (s.resumeRegistration r).states r with
    | false => rfl
    | true =>
        have waits := (((s.resumeRegistration r).registrationValid_iff r).mp valid).2.1
        rw [self] at waits
        cases waits
  · rw [Bool.not_eq_true] at before
    rw [resumeRegistration_of_invalid s r before]
    exact before

end Scheduler

theorem wfAt_resumeRegistration {s : Scheduler} {stack : List (Frame κ)}
    {awaiters : Nat → Awaiter} (wf : WfAt s stack awaiters) {r : WaitRegistration}
    (handed : s.Handed r) : WfAt (s.resumeRegistration r) stack awaiters := by
  by_cases valid : registrationValid s.states r = true
  · obtain ⟨live, waits, -⟩ := (s.registrationValid_iff r).mp valid
    obtain ⟨h, handle⟩ := Option.isSome_iff_exists.mp live.1
    have inside := (wf.slots.named _ h handle).2.2
    have self := Scheduler.slot_resumeRegistration_self s r inside valid
    refine wf.rewrite_busy (Scheduler.rewrites_resumeRegistration inside valid) live (.inl waits)
      ?_ ?_ ?_ ?_ ?_
    · rw [self]
      exact fun _ => rfl
    · rw [self]
      exact fun waits' => absurd waits' Bool.false_ne_true
    · rw [self]
    · -- no registration that was handed out ends a join
      intro h' j c handle' inJoin _ _
      exact absurd inJoin (wf.posts.notJoin r h' j (issued_of_handed handed) valid handle')
    · rw [self]
      exact .inr rfl
  · rw [Bool.not_eq_true] at valid
    rw [Scheduler.resumeRegistration_of_invalid s r valid]
    have same : (s.record (.fired r)).skeleton = s.skeleton := rfl
    exact WfAt.congr same (fun _ queued => queued) wf

theorem path_resumeRegistration {m : Machine κ} {r : WaitRegistration}
    (handed : m.sched.Handed r) : Path m (m.withSched (m.sched.resumeRegistration r)) :=
  .prim (.resume m.sched r handed) rfl fun wf => wfAt_resumeRegistration wf handed

theorem path_resumeAll {m : Machine κ} (queue : List WaitRegistration)
    (handed : ∀ r ∈ queue, m.sched.Handed r) :
    Path m (m.withSched (m.sched.resumeAll queue).1) := by
  induction queue generalizing m with
  | nil => exact .refl m
  | cons r rest ih =>
      refine (path_resumeRegistration (handed r List.mem_cons_self)).trans ?_
      refine ih (m := m.withSched (m.sched.resumeRegistration r)) fun r' member => ?_
      exact (Scheduler.handed_resumeRegistration _ _ _).mpr
        (handed r' (List.mem_cons_of_mem _ member))

/-- Every registration of a queue is spent once the queue has been resumed. -/
theorem invalid_resumeAll {m : Machine κ} (wf : Wf m) (queue : List WaitRegistration)
    (handed : ∀ r ∈ queue, m.sched.Handed r) :
    (∀ r, registrationValid (m.sched.resumeAll queue).1.states r = true →
      registrationValid m.sched.states r = true) ∧
    ∀ r ∈ queue, registrationValid (m.sched.resumeAll queue).1.states r = false := by
  induction queue generalizing m with
  | nil => exact ⟨fun _ valid => valid, fun r member => by cases member⟩
  | cons r rest ih =>
      have next := (path_resumeRegistration (handed r List.mem_cons_self)).wf wf
      obtain ⟨fewer, spent⟩ := ih next fun r' member =>
        (Scheduler.handed_resumeRegistration _ _ _).mpr
          (handed r' (List.mem_cons_of_mem _ member))
      refine ⟨fun r' valid => ?_, fun r' member => ?_⟩
      · exact Scheduler.valid_of_resumeRegistration wf.slots (fewer r' valid)
      · rcases List.mem_cons.mp member with rfl | later
        · cases valid : registrationValid (m.sched.resumeAll (r' :: rest)).1.states r' with
          | false => rfl
          | true =>
              have still := fewer r' valid
              rw [show (m.withSched (m.sched.resumeRegistration r')).sched =
                m.sched.resumeRegistration r' from rfl,
                Scheduler.invalid_resumeRegistration wf.slots r'] at still
              cases still
        · exact spent r' later

end Cpptb.Coro
