/-
Suspending, as paths.

A suspension pops the body, begins a wait, registers it and sets the awaiter. `Begun n h` is what holds
from the beginning of the wait to the awaiter being set: the coroutine `h` is waiting with the newest
generation, it has no live child, and no registration user code holds shares that generation.

* `path_beginWait`, `path_registerWait` — the two halves of every park;
* `path_park`, `path_parkFirst`, `path_parkExternal`, `path_parkProcess` — the parks;
* `path_adoptReady`, `path_startChildren` — new coroutines are adopted and made ready.
-/

import Cpptb.Coro.Cancelling

namespace Cpptb.Coro

open Function (update)

variable {κ : Type}

/-! ### Beginning a wait -/

/-- The coroutine has begun the newest wait and has yet to be given its awaiter. -/
structure Begun (n : Machine κ) (h : Nat) : Prop where
  alive : n.sched.Alive h
  waiting : (n.sched.slotOf h).waiting = true
  generation : (n.sched.slotOf h).generation = n.sched.nextWaitGeneration
  away : h ∉ bodies n.stack
  unsuspended : n.awaiters h = .none
  unshared : ∀ x, n.sched.External x → x.generation ≠ n.sched.nextWaitGeneration

namespace Begun

variable {n : Machine κ} {h : Nat}

theorem childless (begun : Begun n h) (wf : Wf n) : Childless n.sched h :=
  wf.tree.childless_of_none begun.unsuspended

theorem known (begun : Begun n h) (wf : Wf n) : h ≤ n.sched.nextCoroutineId :=
  (wf.slots.bounds begun.alive).1

theorem valid (begun : Begun n h) {r : WaitRegistration}
    (index : r.stateIndex = (n.sched.promises h).stateIndex)
    (generation : r.generation = n.sched.nextWaitGeneration) :
    registrationValid n.sched.states r = true := by
  refine (n.sched.registrationValid_iff r).mpr ?_
  rw [index, generation]
  refine ⟨⟨?_, begun.alive.2⟩, begun.waiting, begun.generation⟩
  rw [show (n.sched.slot (n.sched.promises h).stateIndex).handle = some h from begun.alive.1]
  rfl

end Begun

theorem rewrites_beginWait (s : Scheduler) (i : Nat) (diagnostic : WaitDiagnostic) :
    Rewrites s (s.beginWait i diagnostic) i ∧
      (s.beginWait i diagnostic).slot i =
        { s.slot i with
          waiting := true, ready := false, generation := s.nextWaitGeneration + 1 } := by
  have self := Scheduler.slot_beginWait s i i diagnostic
  rw [if_pos rfl] at self
  refine ⟨⟨Scheduler.surroundings_beginWait s i diagnostic, fun k other => ?_, ?_, ?_, ?_⟩, self⟩
  · exact (Scheduler.slot_beginWait s i k diagnostic).trans (if_neg other)
  · rw [self]
  · rw [self]
  · rw [Scheduler.nextWaitGeneration_beginWait]
    exact Nat.le_succ _

/-- What the beginning of a wait gives. -/
structure Begins (m : Machine κ) (h : Nat) (diagnostic : WaitDiagnostic) : Prop where
  path : Path m (m.withSched (m.sched.beginWait (m.sched.promises h).stateIndex diagnostic))
  begun : Begun (m.withSched (m.sched.beginWait (m.sched.promises h).stateIndex diagnostic)) h
  index : ((m.sched.beginWait (m.sched.promises h).stateIndex diagnostic).promises h).stateIndex =
    (m.sched.promises h).stateIndex
  fresh : ∀ r, Issued (m.sched.beginWait (m.sched.promises h).stateIndex diagnostic) m.stack r →
    r.generation ≠
      (m.sched.beginWait (m.sched.promises h).stateIndex diagnostic).nextWaitGeneration

/-- A running coroutine that has left the stack begins a wait. -/
theorem begins_of_idle {m : Machine κ} (wf : Wf m) {h : Nat} (idle : m.sched.Idle h)
    (away : h ∉ bodies m.stack) (unsuspended : m.awaiters h = .none)
    (diagnostic : WaitDiagnostic) : Begins m h diagnostic := by
  obtain ⟨rw, self⟩ :=
    rewrites_beginWait m.sched (m.sched.promises h).stateIndex diagnostic
  have next := Scheduler.nextWaitGeneration_beginWait m.sched (m.sched.promises h).stateIndex
    diagnostic
  have fresh : ∀ r, Issued m.sched m.stack r → r.generation ≠ m.sched.nextWaitGeneration + 1 :=
    fun r issued => Nat.ne_of_lt (Nat.lt_succ_of_le (wf.posts.bounded r issued))
  have still : m.sched.Still (m.sched.promises h).stateIndex := by
    refine ⟨⟨?_, idle.1.2⟩, idle.2⟩
    rw [show (m.sched.slot (m.sched.promises h).stateIndex).handle = some h from idle.1.1]
    rfl
  have inside : ∀ r, m.awaiters h ≠ .external r := fun r => by simp [unsuspended]
  have atSlot : (m.sched.beginWait (m.sched.promises h).stateIndex diagnostic).slotOf h =
      (m.sched.beginWait (m.sched.promises h).stateIndex diagnostic).slot
        (m.sched.promises h).stateIndex := by
    unfold Scheduler.slotOf
    rw [rw.promises]
  refine ⟨.prim (.beginWait m.sched _ diagnostic still) rfl fun wf => ?_,
    ⟨(rw.alive_iff h).mpr idle.1, ?_, ?_, away, unsuspended, fun x external => ?_⟩, ?_,
    fun r issued => ?_⟩
  · refine WfAt.rewrite_childless wf rw idle.1.1 idle.1.2
      (wf.tree.childless_of_none unsuspended) away inside ?_ ?_
    · intro ready
      exact absurd ((congrArg Slot.ready self).symm.trans ready) Bool.false_ne_true
    · intro _ r issued same
      exact fresh r issued (same.trans (congrArg Slot.generation self))
  · exact (congrArg Slot.waiting (atSlot.trans self)).trans rfl
  · exact (congrArg Slot.generation (atSlot.trans self)).trans next.symm
  · rw [show (m.withSched (m.sched.beginWait (m.sched.promises h).stateIndex
      diagnostic)).sched.nextWaitGeneration = m.sched.nextWaitGeneration + 1 from next]
    exact fresh x (.inr ((rw.external_iff x).mp external))
  · rw [rw.promises]
  · rw [next]
    exact fresh r ((rw.issued_iff m.stack r).mp issued)

/-! ### Registering -/

namespace EdgeTable

theorem waiters_addEdgeInterest (e : EdgeTable) (stateIndex queueIndex : Nat) :
    (e.addEdgeInterest stateIndex queueIndex).waiters = e.waiters := by
  unfold addEdgeInterest
  simp only
  split
  · rfl
  · exact waiters_recordEdgeInterestChange _ _ _

theorem waiters_registerEdgeWait (e : EdgeTable) (signal : Nat) (kind : EdgeKind)
    (r : WaitRegistration) :
    (e.registerEdgeWait signal kind r).waiters =
      update e.waiters (queueIndex signal kind) (e.waiters (queueIndex signal kind) ++ [r]) := by
  unfold registerEdgeWait
  simp only
  split
  · exact waiters_addEdgeInterest _ _ _
  · exact waiters_addEdgeInterest _ _ _

end EdgeTable

namespace TimerTable

theorem mem_push {t : TimerTable} {timer timer' : TimerRegistration}
    (member : (t.push timer).next = some timer' ∨ timer' ∈ (t.push timer).waiters) :
    timer' = timer ∨ t.next = some timer' ∨ timer' ∈ t.waiters := by
  unfold push at member
  cases next : t.next with
  | none =>
      simp only [next] at member
      rcases member with same | later
      · exact .inl (Option.some.inj same).symm
      · exact .inr (.inr later)
  | some first =>
      simp only [next] at member
      split at member
      · rcases member with same | later
        · exact .inr (.inl (next ▸ same))
        · exact (List.mem_orderedInsert _).mp later |>.imp id .inr
      · rcases member with same | later
        · exact .inl (Option.some.inj same).symm
        · rcases (List.mem_orderedInsert _).mp later with rfl | before
          · exact .inr (.inl rfl)
          · exact .inr (.inr before)

theorem mem_register {t : TimerTable} {valid : WaitRegistration → Bool} {deadline : Nat}
    {r : WaitRegistration} {timer : TimerRegistration}
    (member : (t.register valid deadline r).next = some timer ∨
      timer ∈ (t.register valid deadline r).waiters) :
    timer.wait = r ∨ t.next = some timer ∨ timer ∈ t.waiters := by
  have pushed : ∀ sequence, ((({ t.discardStaleTimers valid with
      nextSequence := sequence + 1 } : TimerTable).push ⟨deadline, sequence, r⟩).next =
        some timer ∨
      timer ∈ (({ t.discardStaleTimers valid with
        nextSequence := sequence + 1 } : TimerTable).push ⟨deadline, sequence, r⟩).waiters) →
      timer.wait = r ∨ t.next = some timer ∨ timer ∈ t.waiters := by
    intro sequence here
    rcases mem_push here with rfl | before
    · exact .inl rfl
    · exact .inr (mem_discardFrom _ _ _ before)
  unfold register at member
  simp only at member
  split at member
  · exact pushed _ member
  · exact pushed _ member

end TimerTable

theorem skeleton_registerEdgeWait (s : Scheduler) (signal : Nat) (kind : EdgeKind)
    (r : WaitRegistration) :
    (s.registerEdgeWait signal kind r).skeleton =
      (s.record (.registered (.edge signal kind) r)).skeleton := by
  have slot : (s.registerEdgeWait signal kind r).slot = s.slot :=
    funext fun k => Scheduler.slot_registerEdgeWait s signal kind r k
  unfold Scheduler.skeleton
  rw [slot]
  rfl

theorem queued_registerEdgeWait {s : Scheduler} {signal : Nat} {kind : EdgeKind}
    {r r' : WaitRegistration} (queued : (s.registerEdgeWait signal kind r).Queued r') :
    r' = r ∨ s.Queued r' := by
  rcases queued with ⟨index, member⟩ | other
  · have waiters := EdgeTable.waiters_registerEdgeWait s.edges signal kind r
    have here : r' ∈ (s.edges.registerEdgeWait signal kind r).waiters index := member
    rw [waiters] at here
    by_cases same : index = EdgeTable.queueIndex signal kind
    · subst same
      rw [Function.update_self] at here
      rcases List.mem_append.mp here with before | new
      · exact .inr (.inl ⟨_, before⟩)
      · exact .inl (List.mem_singleton.mp new)
    · rw [Function.update_of_ne same] at here
      exact .inr (.inl ⟨index, here⟩)
  · exact .inr (.inr other)

/-- A valid registration that may be entered into a queue. -/
structure Enterable (n : Machine κ) (r : WaitRegistration) : Prop where
  valid : registrationValid n.sched.states r = true
  bounded : r.generation ≤ n.sched.nextWaitGeneration
  notJoin : ∀ h j, (n.sched.slot r.stateIndex).handle = some h → n.awaiters h ≠ .join j
  unshared : ∀ x, n.sched.External x → x.generation ≠ r.generation

theorem Begun.enterable {n : Machine κ} {h : Nat} (begun : Begun n h) {r : WaitRegistration}
    (index : r.stateIndex = (n.sched.promises h).stateIndex)
    (generation : r.generation = n.sched.nextWaitGeneration) : Enterable n r where
  valid := begun.valid index generation
  bounded := Nat.le_of_eq generation
  notJoin h' j handle inJoin := by
    rw [index, show (n.sched.slot (n.sched.promises h).stateIndex).handle = some h from
      begun.alive.1] at handle
    obtain rfl := Option.some.inj handle
    cases begun.unsuspended.symm.trans inJoin
  unshared x external := by
    rw [generation]
    exact begun.unshared x external

theorem Enterable.wf {n : Machine κ} {r : WaitRegistration} (enterable : Enterable n r)
    {source : WaitSource} {t : Scheduler}
    (skeleton : t.skeleton = (n.sched.record (.registered source r)).skeleton)
    (queued : ∀ r', t.Queued r' → r' = r ∨ n.sched.Queued r') (wf : Wf n) :
    Wf (n.withSched t) :=
  WfAt.register wf skeleton queued enterable.bounded enterable.notJoin enterable.unshared

/-- A registration leaves the beginning of the wait as it is. -/
theorem Begun.registered {n : Machine κ} {h : Nat} (begun : Begun n h) {source : WaitSource}
    {r : WaitRegistration} {t : Scheduler}
    (skeleton : t.skeleton = (n.sched.record (.registered source r)).skeleton) :
    Begun (n.withSched t) h := by
  have next : t.nextWaitGeneration = n.sched.nextWaitGeneration :=
    congrArg Skeleton.nextWaitGeneration skeleton
  have slotOf : t.slotOf h = n.sched.slotOf h := skeleton_slotOf skeleton h
  have external : ∀ x, t.External x ↔ n.sched.External x := fun x =>
    (skeleton_external skeleton x).trans (external_record_registered n.sched source r x)
  refine ⟨(skeleton_alive skeleton h).mpr begun.alive, ?_, ?_, begun.away, begun.unsuspended,
    fun x outside => ?_⟩
  · exact (congrArg Slot.waiting slotOf).trans begun.waiting
  · exact ((congrArg Slot.generation slotOf).trans begun.generation).trans next.symm
  · rw [show (n.withSched t).sched.nextWaitGeneration = n.sched.nextWaitGeneration from next]
    exact begun.unshared x ((external x).mp outside)

theorem Begun.outside {n : Machine κ} {h : Nat} (begun : Begun n h) {t : Scheduler}
    (skeleton : t.skeleton = n.sched.skeleton) : Begun (n.withSched t) h := by
  have next : t.nextWaitGeneration = n.sched.nextWaitGeneration :=
    congrArg Skeleton.nextWaitGeneration skeleton
  have slotOf : t.slotOf h = n.sched.slotOf h := skeleton_slotOf skeleton h
  refine ⟨(skeleton_alive skeleton h).mpr begun.alive, ?_, ?_, begun.away, begun.unsuspended,
    fun x outside => ?_⟩
  · exact (congrArg Slot.waiting slotOf).trans begun.waiting
  · exact ((congrArg Slot.generation slotOf).trans begun.generation).trans next.symm
  · rw [show (n.withSched t).sched.nextWaitGeneration = n.sched.nextWaitGeneration from next]
    exact begun.unshared x ((skeleton_external skeleton x).mp outside)

theorem path_registerEdgeWait {n : Machine κ} {r : WaitRegistration} (enterable : Enterable n r)
    (signal : Nat) (kind : EdgeKind)
    (noted : (n.sched.diagnosticStates r.stateIndex).waitProgress.simulator = true) :
    Path n (n.withSched (n.sched.registerEdgeWait signal kind r)) :=
  .prim (.registerEdge n.sched signal kind r enterable.valid noted) rfl
    (enterable.wf (skeleton_registerEdgeWait n.sched signal kind r)
      fun _ => queued_registerEdgeWait)

/-- What a registration does to the skeleton: it is handed out, or the program aborts. -/
def Registers (s t : Scheduler) (r : WaitRegistration) : Prop :=
  t.skeleton = s.skeleton ∨ ∃ source, t.skeleton = (s.record (.registered source r)).skeleton

theorem path_registerDelay {n : Machine κ} {r : WaitRegistration} (enterable : Enterable n r)
    (femtoseconds : Nat) :
    Path n (n.withSched (n.sched.registerDelay femtoseconds r)) ∧
      Registers n.sched (n.sched.registerDelay femtoseconds r) r := by
  have prim := Prim.registerDelay n.sched femtoseconds r enterable.valid
  cases fault : n.sched.validateDelay femtoseconds with
  | some fault' =>
      have result : n.sched.registerDelay femtoseconds r =
          { n.sched with fault := some fault' } := by
        unfold Scheduler.registerDelay
        rw [fault]
      rw [result]
      exact ⟨.outside rfl rfl, .inl rfl⟩
  | none =>
      have skeleton : (n.sched.registerDelay femtoseconds r).skeleton = (n.sched.record
          (.registered (.delay (n.sched.deadlineAfter femtoseconds)
            n.sched.timers.nextSequence) r)).skeleton := by
        unfold Scheduler.registerDelay
        rw [fault]
        rfl
      refine ⟨.prim prim rfl (enterable.wf skeleton fun r' queued => ?_), .inr ⟨_, skeleton⟩⟩
      unfold Scheduler.registerDelay at queued
      rw [fault] at queued
      rcases queued with edge | phase | ⟨timer, member, wait⟩
      · exact .inr (.inl edge)
      · exact .inr (.inr (.inl phase))
      · rcases TimerTable.mem_register member with new | before
        · exact .inl (wait.symm.trans new)
        · exact .inr (.inr (.inr ⟨timer, before, wait⟩))

theorem path_registerPhase {n : Machine κ} {r : WaitRegistration} (enterable : Enterable n r)
    (phase : Phase) :
    Path n (n.withSched (n.sched.registerPhase phase r)) ∧
      Registers n.sched (n.sched.registerPhase phase r) r := by
  have prim := Prim.registerPhase n.sched phase r enterable.valid
  by_cases late : n.sched.currentPhase = .readOnly ∧ phase ≠ .nextTimeStep
  · have result : n.sched.registerPhase phase r =
        { n.sched with fault := some .phaseAfterReadOnly } := by
      unfold Scheduler.registerPhase
      rw [if_pos late]
    rw [result]
    exact ⟨.outside rfl rfl, .inl rfl⟩
  · have skeleton : (n.sched.registerPhase phase r).skeleton =
        (n.sched.record (.registered (.phase phase) r)).skeleton := by
      unfold Scheduler.registerPhase
      rw [if_neg late]
      rfl
    refine ⟨.prim prim rfl (enterable.wf skeleton fun r' queued => ?_), .inr ⟨_, skeleton⟩⟩
    unfold Scheduler.registerPhase at queued
    rw [if_neg late] at queued
    rcases queued with edge | ⟨phase', member⟩ | timer
    · exact .inr (.inl edge)
    · have here : r' ∈ update n.sched.phases.waiters phase
          (n.sched.phases.waiters phase ++ [r]) phase' := member
      by_cases same : phase' = phase
      · subst same
        rw [Function.update_self] at here
        rcases List.mem_append.mp here with before | new
        · exact .inr (.inr (.inl ⟨_, before⟩))
        · exact .inl (List.mem_singleton.mp new)
      · rw [Function.update_of_ne same] at here
        exact .inr (.inr (.inl ⟨phase', here⟩))
    · exact .inr (.inr (.inr timer))

theorem path_registerWait {n : Machine κ} {r : WaitRegistration} (enterable : Enterable n r)
    (request : WaitRequest) :
    Path n (n.withSched (n.sched.registerWait request r)) ∧
      Registers n.sched (n.sched.registerWait request r) r := by
  cases request with
  | edge signal kind =>
      have noted : Path n (n.withSched (n.sched.noteSimulator r.stateIndex)) :=
        .quiet (.noteSimulator n.sched r.stateIndex) rfl rfl
      have enterable' : Enterable (n.withSched (n.sched.noteSimulator r.stateIndex)) r :=
        ⟨enterable.valid, enterable.bounded, enterable.notJoin, enterable.unshared⟩
      have bit : ((n.sched.noteSimulator r.stateIndex).diagnosticStates
          r.stateIndex).waitProgress.simulator = true := by
        show (update n.sched.diagnosticStates r.stateIndex _ r.stateIndex).waitProgress.simulator =
          true
        rw [Function.update_self]
      exact ⟨noted.trans (path_registerEdgeWait enterable' signal kind bit),
        .inr ⟨_, skeleton_registerEdgeWait (n.sched.noteSimulator r.stateIndex) signal kind r⟩⟩
  | delay femtoseconds => exact path_registerDelay enterable femtoseconds
  | phase phase => exact path_registerPhase enterable phase

theorem Begun.of_registers {n : Machine κ} {h : Nat} (begun : Begun n h) {r : WaitRegistration}
    {t : Scheduler} (registers : Registers n.sched t r) : Begun (n.withSched t) h := by
  rcases registers with same | ⟨source, skeleton⟩
  · exact begun.outside same
  · exact begun.registered skeleton

/-- The registration of the newest wait of a coroutine. -/
theorem Begun.current {n : Machine κ} {h : Nat} (begun : Begun n h) :
    Enterable n (n.sched.currentRegistration (n.sched.promises h).stateIndex) :=
  begun.enterable rfl rfl

/-! ### Parking -/

/-- The awaiter of a coroutine that has begun its wait is set. -/
theorem path_setAwaiter {n : Machine κ} {h : Nat} (begun : Begun n h) (x : Awaiter)
    (task : ∀ c, x ≠ .task c) (timeout : ∀ c, x ≠ .timeout c)
    (suspends : Suspends n.sched n.stack h x) : Path n (n.setAwaiter h x) :=
  .admin rfl fun wf => WfAt.suspended wf (begun.childless wf) (begun.known wf) begun.away task
    timeout suspends

/-- A body on top of the stack that has run its `await_resume`, and the machine without it. -/
theorem leave {m : Machine κ} (wf : Wf m) {rest : List (Frame κ)} {f : Frame κ} {h : Nat}
    (top : m.stack = f :: rest) (isBody : f.bodyHandle = some h) (settled : f.Settled m.awaiters) :
    Path m (m.withStack rest) ∧ m.sched.Idle h ∧ h ∉ bodies rest ∧ m.awaiters h = .none ∧
      m.sched.draining = true := by
  have wf' : WfAt m.sched m.stack m.awaiters := wf
  rw [top] at wf'
  have cons : bodies (f :: rest) = h :: bodies rest := bodies_cons_body f isBody
  have none : m.awaiters h = .none := by
    cases f with
    | body h' e =>
        obtain rfl := Option.some.inj isBody
        exact settled.2
    | inlineRun h' _ _ _ =>
        obtain rfl := Option.some.inj isBody
        exact settled
    | inlineEnd h' _ =>
        obtain rfl := Option.some.inj isBody
        exact settled
    | destroying _ => cases isBody
    | drain _ => cases isBody
    | collect _ _ => cases isBody
    | reclaimed => cases isBody
    | boundary _ => cases isBody
    | timeoutStart _ _ _ => cases isBody
    | object _ => cases isBody
  have nodup := wf'.frames.nodup
  rw [cons] at nodup
  refine ⟨.admin rfl fun _ => wf'.pop_body isBody none, ?_, (List.nodup_cons.mp nodup).1, none, ?_⟩
  · exact wf'.frames.idle h (cons ▸ List.mem_cons_self)
  · refine wf'.frames.shaped.1 ?_
    cases f <;> first | rfl | cases isBody

/-- The registration of the wait that has begun. -/
theorem Begins.current {m : Machine κ} {h : Nat} {diagnostic : WaitDiagnostic}
    (begins : Begins m h diagnostic) :
    Enterable (m.withSched (m.sched.beginWait (m.sched.promises h).stateIndex diagnostic))
      ((m.sched.beginWait (m.sched.promises h).stateIndex diagnostic).currentRegistration
        (m.sched.promises h).stateIndex) :=
  begins.begun.enterable begins.index.symm rfl

/-- A process with one more task that waits for it. -/
def addWaiter (r : WaitRegistration) (process : ProcessControl) : ProcessControl :=
  match process.completionWaiter with
  | none => { process with completionWaiter := some r }
  | some _ => { process with extraCompletionWaiters := process.extraCompletionWaiters ++ [r] }

theorem addWaiter_waits {r other : WaitRegistration} {process : ProcessControl}
    (waits : (addWaiter r process).completionWaiter = some other ∨
      other ∈ (addWaiter r process).extraCompletionWaiters) :
    other = r ∨ process.completionWaiter = some other ∨ other ∈ process.extraCompletionWaiters := by
  unfold addWaiter at waits
  split at waits
  · rcases waits with first | later
    · exact .inl (Option.some.inj first).symm
    · exact .inr (.inr later)
  · rcases waits with first | later
    · exact .inr (.inl first)
    · rcases List.mem_append.mp later with before | new
      · exact .inr (.inr before)
      · exact .inl (List.mem_singleton.mp new)

section Parking

variable {m : Machine κ} (wf : Wf m) {h : Nat} (idle : m.sched.Idle h)
  (away : h ∉ bodies m.stack) (unsuspended : m.awaiters h = .none)

include wf idle away unsuspended

theorem path_park (request : WaitRequest) (diagnostic : WaitDiagnostic) :
    Path m ((m.withSched (m.sched.park (m.sched.promises h).stateIndex request
      diagnostic)).setAwaiter h .trigger) := by
  have begins := begins_of_idle wf idle away unsuspended diagnostic
  obtain ⟨registers, result⟩ := path_registerWait begins.current request
  exact (begins.path.trans registers).trans
    (path_setAwaiter (begins.begun.of_registers result) .trigger (by simp) (by simp) trivial)

theorem path_parkEdge (signal : Nat) (kind : EdgeKind) (diagnostic : WaitDiagnostic)
    (noted : diagnostic.reason.progress.simulator = true) :
    Path m ((m.withSched (m.sched.parkEdge (m.sched.promises h).stateIndex signal kind
      diagnostic)).setAwaiter h .trigger) := by
  have begins := begins_of_idle wf idle away unsuspended diagnostic
  have bit : ((m.sched.beginWait (m.sched.promises h).stateIndex diagnostic).diagnosticStates
      (m.sched.promises h).stateIndex).waitProgress.simulator = true := by
    unfold Scheduler.beginWait
    simp only [Function.update_self]
    exact noted
  have registers := path_registerEdgeWait begins.current signal kind bit
  have result := skeleton_registerEdgeWait
    (m.sched.beginWait (m.sched.promises h).stateIndex diagnostic) signal kind
    ((m.sched.beginWait (m.sched.promises h).stateIndex diagnostic).currentRegistration
      (m.sched.promises h).stateIndex)
  exact (begins.path.trans registers).trans
    (path_setAwaiter (begins.begun.registered result) .trigger (by simp) (by simp) trivial)

omit wf idle away unsuspended in
theorem path_registerFirst (winner : Nat) (requests : List WaitRequest) {n : Machine κ}
    (begun : Begun n h) {i : Nat} (index : (n.sched.promises h).stateIndex = i)
    (winnerIndex : Nat) :
    Path n (n.withSched (n.sched.registerFirst i winner winnerIndex requests)) ∧
      Begun (n.withSched (n.sched.registerFirst i winner winnerIndex requests)) h := by
  induction requests generalizing n winnerIndex with
  | nil => exact ⟨.refl n, begun⟩
  | cons request rest ih =>
      have enterable : Enterable n { n.sched.currentRegistration i with
          winner := some winner, winnerIndex := winnerIndex } := begun.enterable index.symm rfl
      obtain ⟨registers, result⟩ := path_registerWait enterable request
      have kept : ((n.sched.registerWait request { n.sched.currentRegistration i with
          winner := some winner, winnerIndex := winnerIndex }).promises h).stateIndex = i := by
        rcases result with same | ⟨source, same⟩
        · exact (skeleton_stateIndex same h).trans index
        · exact (skeleton_stateIndex same h).trans index
      obtain ⟨path, begun'⟩ := ih (begun.of_registers result) kept (winnerIndex + 1)
      exact ⟨registers.trans path, begun'⟩

theorem path_parkFirst (requests : List WaitRequest) (winner : Nat)
    (diagnostic : WaitDiagnostic) :
    Path m ((m.withSched (m.sched.parkFirst (m.sched.promises h).stateIndex requests winner
      diagnostic)).setAwaiter h .trigger) := by
  have begins := begins_of_idle wf idle away unsuspended diagnostic
  obtain ⟨registers, begun⟩ := path_registerFirst winner requests begins.begun begins.index 0
  exact (begins.path.trans registers).trans
    (path_setAwaiter begun .trigger (by simp) (by simp) trivial)

theorem path_parkExternal (diagnostic : WaitDiagnostic) :
    Path m ((m.withSched (m.sched.parkExternal (m.sched.promises h).stateIndex
      diagnostic)).setAwaiter h (.external ((m.sched.parkExternal (m.sched.promises h).stateIndex
        diagnostic).currentRegistration (m.sched.promises h).stateIndex))) := by
  obtain ⟨begins, begun, index, fresh⟩ := begins_of_idle wf idle away unsuspended diagnostic
  have current := Begins.current ⟨begins, begun, index, fresh⟩
  have handed : Path (m.withSched (m.sched.beginWait (m.sched.promises h).stateIndex diagnostic))
      (m.withSched (m.sched.parkExternal (m.sched.promises h).stateIndex diagnostic)) :=
    .prim (.parkExternal _ _ current.valid) rfl fun wf' =>
      WfAt.record_external wf' current.bounded current.notJoin fresh
  refine (begins.trans handed).trans (.admin rfl fun wf' => ?_)
  have childless := TreeOk.childless_of_none wf'.tree begun.unsuspended
  refine WfAt.suspended wf' childless (wf'.slots.bounds begun.alive).1 begun.away (by simp)
    (by simp) ⟨index, begun.generation, ?_, .inr (.inl begun.waiting)⟩
  exact (external_record _ _ _).mpr (.inl rfl)

theorem path_parkProcess (control : Nat) (diagnostic : WaitDiagnostic) :
    Path m ((m.withSched (m.sched.parkProcess (m.sched.promises h).stateIndex control
      diagnostic)).setAwaiter h (.process control)) := by
  have begins := begins_of_idle wf idle away unsuspended diagnostic
  have current := begins.current
  have handed : Path (m.withSched (m.sched.beginWait (m.sched.promises h).stateIndex diagnostic))
      (m.withSched ((m.sched.beginWait (m.sched.promises h).stateIndex diagnostic).record
        (.registered (.process control) ((m.sched.beginWait (m.sched.promises h).stateIndex
          diagnostic).currentRegistration (m.sched.promises h).stateIndex)))) :=
    .prim (.registerProcess _ control _ current.valid) rfl fun wf' =>
      WfAt.record_registered wf' _ current.bounded current.notJoin current.unshared
  have entered : Path (m.withSched ((m.sched.beginWait (m.sched.promises h).stateIndex
        diagnostic).record (.registered (.process control) ((m.sched.beginWait
          (m.sched.promises h).stateIndex diagnostic).currentRegistration
            (m.sched.promises h).stateIndex))))
      (m.withSched (m.sched.parkProcess (m.sched.promises h).stateIndex control diagnostic)) := by
    refine path_modifyControl control (addWaiter ((m.sched.beginWait (m.sched.promises h).stateIndex
      diagnostic).currentRegistration (m.sched.promises h).stateIndex)) ?_ ?_ ?_ ?_
    · unfold addWaiter
      split <;> rfl
    · unfold addWaiter
      split <;> rfl
    · unfold addWaiter
      split <;> exact id
    · intro wf' r waits
      refine (registered_record _ _ _ _).mpr ?_
      rcases addWaiter_waits waits with new | before
      · exact .inl new
      · exact (registered_record _ _ _ _).mp (wf'.posts.waiters control r before)
  have result := begins.begun.registered (t := (m.sched.beginWait
    (m.sched.promises h).stateIndex diagnostic).record (.registered (.process control)
      ((m.sched.beginWait (m.sched.promises h).stateIndex diagnostic).currentRegistration
        (m.sched.promises h).stateIndex))) rfl
  refine ((begins.path.trans handed).trans entered).trans (.admin rfl fun wf' => ?_)
  have childless := TreeOk.childless_of_none wf'.tree result.unsuspended
  exact WfAt.suspended wf' childless (wf'.slots.bounds result.alive).1 result.away (by simp)
    (by simp) trivial

end Parking

end Cpptb.Coro
