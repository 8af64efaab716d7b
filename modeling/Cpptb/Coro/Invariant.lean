/-
The invariant of the machine.

`Wf m` is the conjunction of six invariants:

* `SlotsOk` — a slot and the frame it holds name each other, a free slot is vacant, and a coroutine
  is at most one of waiting, ready and done;
* `ControlsOk` — a process that is attached and not done is a live root coroutine;
* `PostsOk` — the queues hold registrations that were handed out; no registration ends a `join` wait;
  a registration user code holds shares its generation with no other;
* `StackOk` — a drain is on the stack exactly when the scheduler is draining, every coroutine body is
  above it and its coroutine is neither waiting nor ready;
* `TreeOk` — the parent of a live child is live, is older, and is suspended in that child;
* `AwaitedOk` — an awaited coroutine has been adopted, and is not the root of a process.

The lemmas after the definitions say which of them a change of one slot (`Rewrites`) keeps.
-/

import Cpptb.Coro.Lifecycle

namespace Cpptb.Coro

open Function (update)

variable {κ : Type}

/-! ### Coroutines -/

namespace Scheduler

/-- The slot of a coroutine. -/
def slotOf (s : Scheduler) (handle : Nat) : Slot := s.slot (s.promises handle).stateIndex

/-- The coroutine has a slot and is not done. -/
def Alive (s : Scheduler) (handle : Nat) : Prop :=
  (s.slotOf handle).handle = some handle ∧ (s.slotOf handle).done = false

/-- The coroutine is neither waiting nor ready: it runs, or waits for a child to transfer to it. -/
def Idle (s : Scheduler) (handle : Nat) : Prop :=
  s.Alive handle ∧ (s.slotOf handle).waiting = false ∧ (s.slotOf handle).ready = false

/-- The registration is in a queue. -/
def Queued (s : Scheduler) (r : WaitRegistration) : Prop :=
  (∃ index, r ∈ s.posted.edges index) ∨ (∃ phase, r ∈ s.posted.phases phase) ∨
    ∃ timer, (s.posted.timers.next = some timer ∨ timer ∈ s.posted.timers.waiters) ∧ timer.wait = r

end Scheduler

/-! ### The stack -/

namespace Frame

/-- The coroutine whose body this activation belongs to. -/
def bodyHandle : Frame κ → Option Nat
  | body handle _ | inlineRun handle _ _ _ | inlineEnd handle _ => some handle
  | _ => none

/-- The activation exists only while the scheduler is draining. -/
def needsDrain : Frame κ → Bool
  | body _ _ | inlineRun _ _ _ _ | inlineEnd _ _ | timeoutStart _ _ _ | drain _ => true
  | _ => false

/-- Whether the scheduler was draining when the activation began. -/
def below : Frame κ → Bool → Bool
  | drain _, _ => false
  | _, draining => draining

/-- The body has run its `await_resume`. -/
def Settled (awaiters : Nat → Awaiter) : Frame κ → Prop
  | body handle entering => entering = false ∧ awaiters handle = .none
  | inlineRun handle _ _ _ | inlineEnd handle _ => awaiters handle = .none
  | _ => True

end Frame

/-- The coroutines whose bodies are on the stack. -/
def bodies (stack : List (Frame κ)) : List Nat := stack.filterMap Frame.bodyHandle

/-- The stack fits the flag `draining_`. -/
def Shaped : Bool → List (Frame κ) → Prop
  | draining, [] => draining = false
  | draining, frame :: rest =>
      (frame.needsDrain = true → draining = true) ∧ Shaped (frame.below draining) rest

/-- The registration was given to a queue, or `start_timeout` will give it to one. -/
def Bound (s : Scheduler) (stack : List (Frame κ)) (r : WaitRegistration) : Prop :=
  s.Registered r ∨ ∃ parent generation femtoseconds,
    Frame.timeoutStart parent generation femtoseconds ∈ stack ∧
      r = { stateIndex := (s.promises parent).stateIndex, generation := generation }

/-- The registration was handed out, or will be. -/
def Issued (s : Scheduler) (stack : List (Frame κ)) (r : WaitRegistration) : Prop :=
  Bound s stack r ∨ s.External r

theorem issued_of_handed {s : Scheduler} {stack : List (Frame κ)} {r : WaitRegistration}
    (handed : s.Handed r) : Issued s stack r :=
  handed.imp .inl id

/-! ### The invariant -/

/-- The slots and the coroutines they hold. -/
structure SlotsOk (s : Scheduler) : Prop where
  named : ∀ i h, (s.slot i).handle = some h →
    (s.promises h).stateIndex = i ∧ h ≤ s.nextCoroutineId ∧ i < s.stateCount
  vacant : ∀ i, (s.slot i).handle = none →
    (s.slot i).waiting = false ∧ (s.slot i).ready = false ∧ (s.slot i).done = false
  quiet : ∀ i, (s.slot i).done = true → (s.slot i).waiting = false ∧ (s.slot i).ready = false
  apart : ∀ i, (s.slot i).ready = true → (s.slot i).waiting = false
  free : ∀ i ∈ s.freeStates, (s.slot i).handle = none ∧ i < s.stateCount
  nodup : s.freeStates.Nodup

/-- The process controls. -/
structure ControlsOk (s : Scheduler) : Prop where
  attached : ∀ k, (s.controls k).attached = true → (s.controls k).done = false →
    ∃ i h, (s.controls k).stateIndex = some i ∧ (s.slot i).handle = some h ∧
      (s.slot i).done = false ∧ s.processByState i = some k
  root : ∀ i k, s.processByState i = some k →
    k < s.nextControl ∧ (s.controls k).stateIndex = some i ∧
      ∃ h, (s.slot i).handle = some h ∧ Scheduler.isChild (s.promises h) = false
  unused : ∀ k, s.nextControl ≤ k → (s.controls k).attached = false

/-- The registrations. -/
structure PostsOk (s : Scheduler) (stack : List (Frame κ)) (awaiters : Nat → Awaiter) : Prop where
  bounded : ∀ r, Issued s stack r → r.generation ≤ s.nextWaitGeneration
  queued : ∀ r, s.Queued r → s.Registered r
  waiters : ∀ k r, (s.controls k).completionWaiter = some r ∨
    r ∈ (s.controls k).extraCompletionWaiters → s.Registered r
  notJoin : ∀ r h j, Issued s stack r → registrationValid s.states r = true →
    (s.slot r.stateIndex).handle = some h → awaiters h ≠ .join j
  sole : ∀ r r', s.External r → s.External r' → r'.generation = r.generation → r' = r
  own : ∀ r r', s.External r → Bound s stack r' → r'.generation ≠ r.generation

/-- The stack. A body that is about to run `await_resume` of a timeout is the only one. -/
structure StackOk (s : Scheduler) (stack : List (Frame κ)) (awaiters : Nat → Awaiter) : Prop where
  shaped : Shaped s.draining stack
  settled : ∀ f ∈ stack.tail, f.Settled awaiters
  head : ∀ f, stack.head? = some f → f.Settled awaiters ∨
    ∃ h, f = .body h true ∧ ∀ c, awaiters h = .timeout c → bodies stack.tail = []
  idle : ∀ h ∈ bodies stack, s.Idle h
  nodup : (bodies stack).Nodup
  started : ∀ parent generation femtoseconds,
    Frame.timeoutStart parent generation femtoseconds ∈ stack → parent ≤ s.nextCoroutineId

/-- The tree of coroutines. -/
structure TreeOk (s : Scheduler) (stack : List (Frame κ)) (awaiters : Nat → Awaiter) : Prop where
  continued : ∀ c p, s.Alive c → (s.promises c).continuation = some p →
    p < c ∧ s.Idle p ∧ awaiters p = .task c ∧ p ∉ bodies stack
  joined : ∀ c j, s.Alive c → (s.promises c).joinState = some j →
    j < s.nextJoinState ∧ (s.joinStates j).parent < c ∧ s.Alive (s.joinStates j).parent ∧
      (s.promises (s.joinStates j).parent).stateIndex = (s.joinStates j).parentIndex ∧
      (s.slotOf (s.joinStates j).parent).generation = (s.joinStates j).generation ∧
      ((awaiters (s.joinStates j).parent = .join j ∧
          (s.slotOf (s.joinStates j).parent).waiting = true) ∨
        awaiters (s.joinStates j).parent = .timeout c)
  room : ∀ j, ∃ children : List Nat, children.length ≤ (s.joinStates j).remaining ∧
    ∀ c, s.Alive c → (s.promises c).joinState = some j → c ∈ children
  timed : ∀ h c, s.Alive h → awaiters h = .timeout c → (s.promises h).continuation ≠ none
  parked : ∀ h r, s.Alive h → awaiters h = .external r →
    (s.promises h).stateIndex = r.stateIndex ∧ (s.slotOf h).generation = r.generation ∧
      s.External r ∧
      (h ∈ bodies stack ∨ (s.slotOf h).waiting = true ∨ (s.slotOf h).ready = true)
  fresh : ∀ h, s.nextCoroutineId < h → awaiters h = .none

/-- The coroutines that others await. -/
structure AwaitedOk (s : Scheduler) (awaiters : Nat → Awaiter) : Prop where
  known : ∀ h c, awaiters h = .task c ∨ awaiters h = .timeout c → h < c ∧ c ≤ s.nextCoroutineId
  rootless : ∀ h c i, awaiters h = .task c ∨ awaiters h = .timeout c →
    (s.slot i).handle = some c → s.processByState i = none

/-- The invariant, on the parts of the machine. -/
structure WfAt (s : Scheduler) (stack : List (Frame κ)) (awaiters : Nat → Awaiter) : Prop where
  slots : SlotsOk s
  controls : ControlsOk s
  posts : PostsOk s stack awaiters
  frames : StackOk s stack awaiters
  tree : TreeOk s stack awaiters
  awaited : AwaitedOk s awaiters

/-- The invariant of the machine. -/
def Wf (m : Machine κ) : Prop := WfAt m.sched m.stack m.awaiters

/-! ### First consequences -/

section Consequences

variable {s : Scheduler} {stack : List (Frame κ)} {awaiters : Nat → Awaiter}

theorem SlotsOk.aliveAt (ok : SlotsOk s) {i h : Nat} (handle : (s.slot i).handle = some h)
    (live : (s.slot i).done = false) : s.Alive h := by
  obtain ⟨index, -, -⟩ := ok.named i h handle
  unfold Scheduler.Alive Scheduler.slotOf
  rw [index]
  exact ⟨handle, live⟩

theorem SlotsOk.bounds (ok : SlotsOk s) {h : Nat} (alive : s.Alive h) :
    h ≤ s.nextCoroutineId ∧ (s.promises h).stateIndex < s.stateCount :=
  (ok.named _ h alive.1).2

/-- Two coroutines never share a slot. -/
theorem Scheduler.Alive.separate {h h' : Nat} (alive : s.Alive h) (alive' : s.Alive h')
    (same : (s.promises h).stateIndex = (s.promises h').stateIndex) : h = h' := by
  have handle := alive.1
  unfold Scheduler.slotOf at handle
  rw [same] at handle
  exact Option.some.inj (handle.symm.trans alive'.1)

/-- No live coroutine is a child of this one. -/
def Childless (s : Scheduler) (h : Nat) : Prop :=
  ∀ c, s.Alive c → (s.promises c).continuation ≠ some h ∧
    ∀ j, (s.promises c).joinState = some j → (s.joinStates j).parent ≠ h

/-- A coroutine with a live child is suspended in it. -/
theorem TreeOk.childless (ok : TreeOk s stack awaiters) {h : Nat}
    (task : ∀ c, awaiters h ≠ .task c) (join : ∀ j, awaiters h ≠ .join j)
    (timeout : ∀ c, awaiters h ≠ .timeout c) : Childless s h := by
  intro c alive
  refine ⟨fun continued => ?_, fun j joined parent => ?_⟩
  · exact task c (ok.continued c h alive continued).2.2.1
  · obtain ⟨-, -, -, -, -, suspended⟩ := ok.joined c j alive joined
    rw [parent] at suspended
    rcases suspended with ⟨inJoin, -⟩ | inTimeout
    · exact join j inJoin
    · exact timeout c inTimeout

theorem TreeOk.childless_of_none (ok : TreeOk s stack awaiters) {h : Nat}
    (none : awaiters h = .none) : Childless s h :=
  ok.childless (by simp [none]) (by simp [none]) (by simp [none])

/-- Outside a drain no body is on the stack. -/
theorem bodies_of_shaped {stack : List (Frame κ)} (shaped : Shaped false stack) :
    bodies stack = [] := by
  induction stack with
  | nil => rfl
  | cons frame rest ih =>
      obtain ⟨fits, lower⟩ := shaped
      cases frame with
      | body _ _ => exact absurd (fits rfl) (by decide)
      | inlineRun _ _ _ _ => exact absurd (fits rfl) (by decide)
      | inlineEnd _ _ => exact absurd (fits rfl) (by decide)
      | drain _ => exact absurd (fits rfl) (by decide)
      | timeoutStart _ _ _ => exact absurd (fits rfl) (by decide)
      | destroying _ => exact ih lower
      | collect _ _ => exact ih lower
      | reclaimed => exact ih lower
      | boundary _ => exact ih lower
      | object _ => exact ih lower

end Consequences

/-! ### Changing one slot -/

/-- `t` differs from `s` in the wait of one live coroutine. -/
structure Rewrites (s t : Scheduler) (i : Nat) : Prop where
  surroundings : t.surroundings = s.surroundings
  others : ∀ k, k ≠ i → t.slot k = s.slot k
  handle : (t.slot i).handle = (s.slot i).handle
  done : (t.slot i).done = (s.slot i).done
  generations : s.nextWaitGeneration ≤ t.nextWaitGeneration

namespace Rewrites

variable {s t : Scheduler} {i : Nat}

theorem promises (rw : Rewrites s t i) : t.promises = s.promises :=
  congrArg Surroundings.promises rw.surroundings

theorem joinStates (rw : Rewrites s t i) : t.joinStates = s.joinStates :=
  congrArg Surroundings.joinStates rw.surroundings

theorem nextJoinState (rw : Rewrites s t i) : t.nextJoinState = s.nextJoinState :=
  congrArg Surroundings.nextJoinState rw.surroundings

theorem controls (rw : Rewrites s t i) : t.controls = s.controls :=
  congrArg Surroundings.controls rw.surroundings

theorem nextControl (rw : Rewrites s t i) : t.nextControl = s.nextControl :=
  congrArg Surroundings.nextControl rw.surroundings

theorem processByState (rw : Rewrites s t i) : t.processByState = s.processByState :=
  congrArg Surroundings.processByState rw.surroundings

theorem freeStates (rw : Rewrites s t i) : t.freeStates = s.freeStates :=
  congrArg Surroundings.freeStates rw.surroundings

theorem stateCount (rw : Rewrites s t i) : t.stateCount = s.stateCount :=
  congrArg Surroundings.stateCount rw.surroundings

theorem nextCoroutineId (rw : Rewrites s t i) : t.nextCoroutineId = s.nextCoroutineId :=
  congrArg Surroundings.nextCoroutineId rw.surroundings

theorem draining (rw : Rewrites s t i) : t.draining = s.draining :=
  congrArg Surroundings.draining rw.surroundings

theorem posted (rw : Rewrites s t i) : t.posted = s.posted :=
  congrArg Surroundings.posted rw.surroundings

theorem handouts (rw : Rewrites s t i) : t.handouts = s.handouts :=
  congrArg Surroundings.handouts rw.surroundings

theorem handleAt (rw : Rewrites s t i) (k : Nat) : (t.slot k).handle = (s.slot k).handle := by
  by_cases same : k = i
  · exact same ▸ rw.handle
  · rw [rw.others k same]

theorem doneAt (rw : Rewrites s t i) (k : Nat) : (t.slot k).done = (s.slot k).done := by
  by_cases same : k = i
  · exact same ▸ rw.done
  · rw [rw.others k same]

theorem alive_iff (rw : Rewrites s t i) (h : Nat) : t.Alive h ↔ s.Alive h := by
  unfold Scheduler.Alive Scheduler.slotOf
  rw [rw.promises, rw.handleAt, rw.doneAt]

theorem slotOf_of_ne (rw : Rewrites s t i) {h : Nat} (other : (s.promises h).stateIndex ≠ i) :
    t.slotOf h = s.slotOf h := by
  unfold Scheduler.slotOf
  rw [rw.promises]
  exact rw.others _ other

theorem idle_of_ne (rw : Rewrites s t i) {h : Nat} (other : (s.promises h).stateIndex ≠ i)
    (idle : s.Idle h) : t.Idle h := by
  refine ⟨(rw.alive_iff h).mpr idle.1, ?_, ?_⟩
  · rw [rw.slotOf_of_ne other]
    exact idle.2.1
  · rw [rw.slotOf_of_ne other]
    exact idle.2.2

theorem registered_iff (rw : Rewrites s t i) (r : WaitRegistration) :
    t.Registered r ↔ s.Registered r := by
  unfold Scheduler.Registered
  rw [rw.handouts]

theorem external_iff (rw : Rewrites s t i) (r : WaitRegistration) :
    t.External r ↔ s.External r := by
  unfold Scheduler.External
  rw [rw.handouts]

theorem bound_iff (rw : Rewrites s t i) (stack : List (Frame κ)) (r : WaitRegistration) :
    Bound t stack r ↔ Bound s stack r := by
  unfold Bound
  rw [rw.registered_iff, rw.promises]

theorem issued_iff (rw : Rewrites s t i) (stack : List (Frame κ)) (r : WaitRegistration) :
    Issued t stack r ↔ Issued s stack r :=
  or_congr (rw.bound_iff stack r) (rw.external_iff r)

theorem slotsOk (rw : Rewrites s t i) (ok : SlotsOk s) (live : s.Live i)
    (apart : (t.slot i).ready = true → (t.slot i).waiting = false) : SlotsOk t where
  named k h handle := by
    rw [rw.promises, rw.nextCoroutineId, rw.stateCount]
    exact ok.named k h ((rw.handleAt k).symm.trans handle)
  vacant k empty := by
    by_cases same : k = i
    · subst same
      rw [rw.handle] at empty
      exact absurd live.1 (by simp [empty])
    · rw [rw.others k same] at empty ⊢
      exact ok.vacant k empty
  quiet k done := by
    by_cases same : k = i
    · subst same
      rw [rw.done, live.2] at done
      exact absurd done (by decide)
    · rw [rw.others k same] at done ⊢
      exact ok.quiet k done
  apart k ready := by
    by_cases same : k = i
    · subst same
      exact apart ready
    · rw [rw.others k same] at ready ⊢
      exact ok.apart k ready
  free k member := by
    rw [rw.freeStates] at member
    rw [rw.handleAt, rw.stateCount]
    exact ok.free k member
  nodup := by
    rw [rw.freeStates]
    exact ok.nodup

theorem controlsOk (rw : Rewrites s t i) (ok : ControlsOk s) : ControlsOk t where
  attached k := by
    simp only [rw.controls, rw.handleAt, rw.doneAt, rw.processByState]
    exact ok.attached k
  root k c := by
    simp only [rw.controls, rw.handleAt, rw.nextControl, rw.processByState, rw.promises]
    exact ok.root k c
  unused k := by
    simp only [rw.controls, rw.nextControl]
    exact ok.unused k

theorem postsOk (rw : Rewrites s t i) {stack : List (Frame κ)} {awaiters : Nat → Awaiter}
    (ok : PostsOk s stack awaiters)
    (waiting : (t.slot i).waiting = true →
      ((s.slot i).waiting = true ∧ (t.slot i).generation = (s.slot i).generation) ∨
        ∀ r, Issued s stack r → r.generation ≠ (t.slot i).generation) :
    PostsOk t stack awaiters where
  bounded r issued :=
    (ok.bounded r ((rw.issued_iff stack r).mp issued)).trans rw.generations
  queued r queued := by
    unfold Scheduler.Queued at queued
    rw [rw.posted] at queued
    exact (rw.registered_iff r).mpr (ok.queued r queued)
  waiters k r waits := by
    rw [rw.controls] at waits
    exact (rw.registered_iff r).mpr (ok.waiters k r waits)
  notJoin r h j issued valid handle := by
    have before := (rw.issued_iff stack r).mp issued
    obtain ⟨live, waits, generation⟩ := (t.registrationValid_iff r).mp valid
    refine ok.notJoin r h j before ?_ ((rw.handleAt _).symm.trans handle)
    refine (s.registrationValid_iff r).mpr ⟨?_, ?_⟩
    · unfold Scheduler.Live at live ⊢
      rw [← rw.handleAt, ← rw.doneAt]
      exact live
    · by_cases same : r.stateIndex = i
      · rw [same] at waits generation ⊢
        rcases waiting waits with ⟨waited, kept⟩ | unissued
        · exact ⟨waited, kept.symm.trans generation⟩
        · exact absurd generation.symm (unissued r before)
      · rw [rw.others _ same] at waits generation
        exact ⟨waits, generation⟩
  sole r r' external external' same :=
    ok.sole r r' ((rw.external_iff r).mp external) ((rw.external_iff r').mp external') same
  own r r' external bound :=
    ok.own r r' ((rw.external_iff r).mp external) ((rw.bound_iff stack r').mp bound)

/-- The slot is not the slot of a body on the stack. -/
theorem stackOk (rw : Rewrites s t i) {stack : List (Frame κ)} {awaiters : Nat → Awaiter}
    (ok : StackOk s stack awaiters) (away : ∀ h ∈ bodies stack, (s.promises h).stateIndex ≠ i) :
    StackOk t stack awaiters where
  shaped := by
    rw [rw.draining]
    exact ok.shaped
  settled := ok.settled
  head := ok.head
  idle h member := rw.idle_of_ne (away h member) (ok.idle h member)
  nodup := ok.nodup
  started := by
    rw [rw.nextCoroutineId]
    exact ok.started

theorem awaitedOk (rw : Rewrites s t i) {awaiters : Nat → Awaiter} (ok : AwaitedOk s awaiters) :
    AwaitedOk t awaiters where
  known := by
    rw [rw.nextCoroutineId]
    exact ok.known
  rootless h c k suspended handle := by
    rw [rw.handleAt] at handle
    rw [rw.processByState]
    exact ok.rootless h c k suspended handle

/-- A coroutine with a live child keeps its wait; a parked one is still waiting or ready. -/
theorem treeOk (rw : Rewrites s t i) {stack : List (Frame κ)} {awaiters : Nat → Awaiter}
    (ok : TreeOk s stack awaiters)
    (idle : ∀ c h, s.Alive c → (s.promises c).continuation = some h →
      (s.promises h).stateIndex ≠ i)
    (join : ∀ c j, s.Alive c → (s.promises c).joinState = some j →
      (s.promises (s.joinStates j).parent).stateIndex = i →
      (t.slot i).generation = (s.slot i).generation ∧
        (awaiters (s.joinStates j).parent = .join j → (t.slot i).waiting = true))
    (parked : ∀ h r, s.Alive h → awaiters h = .external r → (s.promises h).stateIndex = i →
      (t.slot i).generation = (s.slot i).generation ∧
        (h ∈ bodies stack ∨ (t.slot i).waiting = true ∨ (t.slot i).ready = true)) :
    TreeOk t stack awaiters where
  continued c p alive continuation := by
    rw [rw.promises] at continuation
    rw [rw.alive_iff] at alive
    obtain ⟨older, idleParent, suspended, away⟩ := ok.continued c p alive continuation
    exact ⟨older, rw.idle_of_ne (idle c p alive continuation) idleParent, suspended, away⟩
  joined c j alive joined := by
    rw [rw.promises] at joined
    rw [rw.alive_iff] at alive
    obtain ⟨known, older, live, index, generation, suspended⟩ := ok.joined c j alive joined
    rw [rw.nextJoinState, rw.joinStates, rw.alive_iff, rw.promises]
    refine ⟨known, older, live, index, ?_⟩
    by_cases same : (s.promises (s.joinStates j).parent).stateIndex = i
    · obtain ⟨kept, waits⟩ := join c j alive joined same
      have atSlot : t.slotOf (s.joinStates j).parent = t.slot i := by
        unfold Scheduler.slotOf
        rw [rw.promises, same]
      have before : s.slotOf (s.joinStates j).parent = s.slot i := by
        unfold Scheduler.slotOf
        rw [same]
      rw [atSlot]
      refine ⟨kept.trans ((congrArg Slot.generation before).symm.trans generation), ?_⟩
      exact suspended.imp (fun inJoin => ⟨inJoin.1, waits inJoin.1⟩) id
    · rw [rw.slotOf_of_ne same]
      exact ⟨generation, suspended⟩
  room j := by
    obtain ⟨children, length, covers⟩ := ok.room j
    rw [rw.joinStates]
    refine ⟨children, length, fun c alive joined => ?_⟩
    rw [rw.promises] at joined
    exact covers c ((rw.alive_iff c).mp alive) joined
  timed h c alive suspended := by
    rw [rw.promises]
    exact ok.timed h c ((rw.alive_iff h).mp alive) suspended
  parked h r alive suspended := by
    rw [rw.alive_iff] at alive
    obtain ⟨index, generation, external, still⟩ := ok.parked h r alive suspended
    rw [rw.promises, rw.external_iff]
    refine ⟨index, ?_⟩
    by_cases same : (s.promises h).stateIndex = i
    · obtain ⟨kept, waits⟩ := parked h r alive suspended same
      have atSlot : t.slotOf h = t.slot i := by
        unfold Scheduler.slotOf
        rw [rw.promises, same]
      have before : s.slotOf h = s.slot i := by
        unfold Scheduler.slotOf
        rw [same]
      rw [atSlot]
      exact ⟨kept.trans ((congrArg Slot.generation before).symm.trans generation), external, waits⟩
    · rw [rw.slotOf_of_ne same]
      exact ⟨generation, external, still⟩
  fresh h new := by
    rw [rw.nextCoroutineId] at new
    exact ok.fresh h new

end Rewrites

end Cpptb.Coro
