/-
New coroutines, as paths.

* `path_makeReady` — a still coroutine without live children is made ready;
* `path_spawn`, `path_spawnOwned`, `path_spawnDetached` — a root is adopted and made ready;
* `path_startJoin` — a coroutine begins a wait, and the children of its join are adopted; `Joining`
  is what holds of the join while its children are adopted;
* `path_startTimeout`, `path_startTask` — a coroutine suspends in a child, which is resumed at once.
-/

import Cpptb.Coro.Suspending

namespace Cpptb.Coro

open Function (update)

variable {κ : Type}

/-! ### Making ready -/

theorem rewrites_makeReady {s : Scheduler} {i : Nat} (inside : i < s.stateCount)
    (live : (s.slot i).done = false) (cause : ReadyCause) :
    Rewrites s (s.makeReady i cause) i ∧
      (s.makeReady i cause).slot i = { s.slot i with ready := true } := by
  have self := Scheduler.slot_makeReady_self s cause inside live
  refine ⟨⟨Scheduler.surroundings_makeReady s i cause,
    fun k other => Scheduler.slot_makeReady_of_ne s cause other, ?_, ?_, ?_⟩, self⟩
  · rw [self]
  · rw [self]
  · rw [Scheduler.nextWaitGeneration_makeReady]

/-- A still coroutine is made ready by nothing it waited for. -/
theorem path_makeReady {m : Machine κ} (wf : Wf m) {h : Nat} (idle : m.sched.Idle h)
    (childless : Childless m.sched h) (away : h ∉ bodies m.stack)
    (inside : ∀ r, m.awaiters h ≠ .external r) {cause : ReadyCause}
    (internal : cause = .started ∨ cause = .deferred) :
    Path m (m.withSched (m.sched.makeReady (m.sched.promises h).stateIndex cause)) := by
  obtain ⟨held, live⟩ := idle.1
  have isLive : m.sched.Live (m.sched.promises h).stateIndex :=
    ⟨by rw [show (m.sched.slot (m.sched.promises h).stateIndex).handle = some h from held]; rfl,
      live⟩
  obtain ⟨rw, self⟩ := rewrites_makeReady (wf.slots.bounds idle.1).2 live cause
  have still : ((m.sched.makeReady (m.sched.promises h).stateIndex cause).slot
      (m.sched.promises h).stateIndex).waiting = false :=
    (congrArg Slot.waiting self).trans idle.2.1
  refine .prim (.makeReady m.sched _ cause ⟨isLive, idle.2⟩ internal) rfl fun wf' => ?_
  refine WfAt.rewrite_childless wf' rw held live childless away inside (fun _ => still) ?_
  intro waits
  exact absurd (still.symm.trans waits) Bool.false_ne_true

/-! ### Adopting -/

/-- A coroutine that has just been adopted. -/
structure Newborn (n : Machine κ) (h : Nat) : Prop where
  idle : n.sched.Idle h
  away : h ∉ bodies n.stack
  unsuspended : n.awaiters h = .none
  unawaited : ∀ h', n.awaiters h' ≠ .task h ∧ n.awaiters h' ≠ .timeout h

theorem newborn_adopt {m : Machine κ} (wf : Wf m) (promise : TaskPromise) :
    Newborn (m.withSched (m.sched.adopt promise)) m.sched.adoptHandle where
  idle := idle_adopt_self wf.slots promise
  away member :=
    absurd (wf.slots.bounds (wf.frames.idle _ member).1).1 (Nat.not_succ_le_self _)
  unsuspended := wf.tree.fresh _ (Nat.lt_succ_self _)
  unawaited h' :=
    ⟨fun suspended => absurd (wf.awaited.known h' _ (.inl suspended)).2 (Nat.not_succ_le_self _),
      fun suspended => absurd (wf.awaited.known h' _ (.inr suspended)).2 (Nat.not_succ_le_self _)⟩

theorem path_adopt {m : Machine κ} (promise : TaskPromise)
    (adopts : Wf m → Adopts m.sched m.stack m.awaiters promise) :
    Path m (m.withSched (m.sched.adopt promise)) :=
  .prim (.adopt m.sched promise) rfl fun wf => WfAt.adopt wf (adopts wf)

/-- A coroutine nobody awaits. -/
theorem adopts_root {s : Scheduler} {stack : List (Frame κ)} {awaiters : Nat → Awaiter}
    {promise : TaskPromise} (continuation : promise.continuation = none)
    (joinState : promise.joinState = none) : Adopts s stack awaiters promise where
  continued p continued := by
    rw [continuation] at continued
    cases continued
  joined j joined := by
    rw [joinState] at joined
    cases joined
  room j joined := by
    rw [joinState] at joined
    cases joined

theorem Newborn.childless {n : Machine κ} {h : Nat} (newborn : Newborn n h) (wf : Wf n) :
    Childless n.sched h :=
  wf.tree.childless_of_none newborn.unsuspended

theorem path_newborn_ready {m : Machine κ} (wf : Wf m) {h i : Nat} (newborn : Newborn m h)
    (index : (m.sched.promises h).stateIndex = i) :
    Path m (m.withSched (m.sched.makeReady i .started)) := by
  subst index
  exact path_makeReady wf newborn.idle (newborn.childless wf) newborn.away
    (by simp [newborn.unsuspended]) (.inl rfl)

/-! ### Spawning -/

/-- A process control for a root that has none. -/
theorem WfAt.createControl {s : Scheduler} {stack : List (Frame κ)} {awaiters : Nat → Awaiter}
    (wf : WfAt s stack awaiters) {i h : Nat} (held : (s.slot i).handle = some h)
    (live : (s.slot i).done = false) (root : Scheduler.isChild (s.promises h) = false)
    (vacant : s.processByState i = none)
    (unawaited : ∀ h', awaiters h' ≠ .task h ∧ awaiters h' ≠ .timeout h)
    {control : ProcessControl} (noWaiter : control.completionWaiter = none)
    (noExtra : control.extraCompletionWaiters = []) :
    WfAt (s.createControl i control) stack awaiters := by
  obtain ⟨slot, new⟩ : ∃ slot, (s.createControl i control).controls s.nextControl =
      { control with attached := true, stateIndex := some i, schedulerSlot := some slot } :=
    ⟨_, Function.update_self ..⟩
  have old : ∀ k, k ≠ s.nextControl →
      (s.createControl i control).controls k = s.controls k :=
    fun k other => Function.update_of_ne other ..
  have here : (s.createControl i control).processByState i = some s.nextControl :=
    Function.update_self ..
  have elsewhere : ∀ k, k ≠ i → (s.createControl i control).processByState k =
      s.processByState k := fun k other => Function.update_of_ne other ..
  refine ⟨⟨wf.slots.named, wf.slots.vacant, wf.slots.quiet, wf.slots.apart, wf.slots.free,
    wf.slots.nodup⟩, ⟨fun k attached done => ?_, fun k c byState => ?_, fun k unused => ?_⟩,
    ⟨wf.posts.bounded, wf.posts.queued, fun k r waits => ?_, wf.posts.notJoin, wf.posts.sole,
      wf.posts.own⟩,
    ⟨wf.frames.shaped, wf.frames.settled, wf.frames.head, wf.frames.idle, wf.frames.nodup,
      wf.frames.started⟩,
    ⟨wf.tree.continued, wf.tree.joined, wf.tree.room, wf.tree.timed, wf.tree.parked,
      wf.tree.fresh⟩, ⟨wf.awaited.known, fun h' c k suspended handle => ?_⟩⟩
  · by_cases same : k = s.nextControl
    · subst same
      exact ⟨i, h, by rw [new], held, live, here⟩
    · rw [old k same] at attached done ⊢
      obtain ⟨i', h', index, handle, live', byState⟩ := wf.controls.attached k attached done
      refine ⟨i', h', index, handle, live', ?_⟩
      rw [elsewhere i' fun same' => ?_]
      · exact byState
      · rw [same', vacant] at byState
        cases byState
  · by_cases same : k = i
    · subst same
      obtain rfl := Option.some.inj (byState.symm.trans here)
      exact ⟨Nat.lt_succ_self _, by rw [new], h, held, root⟩
    · rw [elsewhere k same] at byState
      obtain ⟨known, index, rest⟩ := wf.controls.root k c byState
      rw [old c (Nat.ne_of_lt known)]
      exact ⟨Nat.lt_succ_of_lt known, index, rest⟩
  · have beyond : s.nextControl + 1 ≤ k := unused
    rw [old k (by omega)]
    exact wf.controls.unused k (by omega)
  · by_cases same : k = s.nextControl
    · subst same
      rw [new] at waits
      simp only [noWaiter, noExtra, List.not_mem_nil, or_false] at waits
      cases waits
    · rw [old k same] at waits
      exact wf.posts.waiters k r waits
  · by_cases same : k = i
    · subst same
      obtain rfl : h = c := Option.some.inj (held.symm.trans handle)
      exact absurd suspended (not_or.mpr ⟨(unawaited h').1, (unawaited h').2⟩)
    · rw [elsewhere k same]
      exact wf.awaited.rootless h' c k suspended handle

theorem path_spawnDetached {m : Machine κ} (wf : Wf m)
    (executionContext : Option ExecutionContext) :
    Path m (m.withSched (m.sched.spawnDetached executionContext)) := by
  have adopted := path_adopt (m := m) { executionContext := executionContext }
    fun _ => adopts_root rfl rfl
  exact adopted.trans (path_newborn_ready (adopted.wf wf) (newborn_adopt wf _)
    (congrArg TaskPromise.stateIndex (Scheduler.promises_adopt_self _ _)))

/-- A root with a control is adopted and made ready. -/
theorem path_spawnControl {m : Machine κ} (wf : Wf m) (promise : TaskPromise)
    (continuation : promise.continuation = none) (joinState : promise.joinState = none)
    {control : ProcessControl} (noWaiter : control.completionWaiter = none)
    (noExtra : control.extraCompletionWaiters = []) :
    Path m (m.withSched (((m.sched.adopt promise).createControl m.sched.adoptIndex
      control).makeReady m.sched.adoptIndex .started)) := by
  have adopted := path_adopt (m := m) promise
    fun _ => adopts_root continuation joinState
  have newborn := newborn_adopt wf promise
  have index : ((m.sched.adopt promise).promises m.sched.adoptHandle).stateIndex =
      m.sched.adoptIndex := congrArg TaskPromise.stateIndex (Scheduler.promises_adopt_self _ _)
  have held : ((m.sched.adopt promise).slot m.sched.adoptIndex).handle =
      some m.sched.adoptHandle := index ▸ newborn.idle.1.1
  have live : ((m.sched.adopt promise).slot m.sched.adoptIndex).done = false :=
    index ▸ newborn.idle.1.2
  have root : Scheduler.isChild ((m.sched.adopt promise).promises m.sched.adoptHandle) =
      false := by
    rw [Scheduler.promises_adopt_self]
    unfold Scheduler.isChild
    rw [continuation, joinState]
    rfl
  have controlled : Path (m.withSched (m.sched.adopt promise))
      (m.withSched ((m.sched.adopt promise).createControl m.sched.adoptIndex control)) :=
    .admin rfl fun wf' => WfAt.createControl wf' held live root
      (wf.controls.vacant wf.slots.adoptIndex_vacant) newborn.unawaited noWaiter noExtra
  have created := adopted.trans controlled
  exact created.trans (path_newborn_ready (created.wf wf)
    ⟨newborn.idle, newborn.away, newborn.unsuspended, newborn.unawaited⟩ index)

theorem path_spawn {m : Machine κ} (wf : Wf m) (executionContext : Option ExecutionContext)
    (handlerOwner : Option Nat) :
    Path m (m.withSched (m.sched.spawn executionContext handlerOwner)) :=
  path_spawnControl wf _ rfl rfl rfl rfl

theorem path_spawnOwned {m : Machine κ} (wf : Wf m) (context : ProcessExecutionContext) :
    Path m (m.withSched (m.sched.spawnOwned context)) :=
  path_spawnControl wf _ rfl rfl rfl rfl

/-! ### Joins -/

/-- A `JoinState` whose parent has begun the wait it was created for, with places for `count` more
children. -/
structure Joins (s : Scheduler) (j h count : Nat) : Prop where
  known : j < s.nextJoinState
  parent : (s.joinStates j).parent = h
  alive : s.Alive h
  index : (s.promises h).stateIndex = (s.joinStates j).parentIndex
  waiting : (s.slotOf h).waiting = true
  generation : (s.slotOf h).generation = (s.joinStates j).generation
  room : ∃ children : List Nat, children.length + count ≤ (s.joinStates j).remaining ∧
    ∀ c, s.Alive c → (s.promises c).joinState = some j → c ∈ children

theorem WfAt.createJoinState {s : Scheduler} {stack : List (Frame κ)} {awaiters : Nat → Awaiter}
    (wf : WfAt s stack awaiters) (i count : Nat) :
    WfAt (s.createJoinState i count) stack awaiters := by
  have old : ∀ j, j < s.nextJoinState →
      (s.createJoinState i count).joinStates j = s.joinStates j :=
    fun j known => Function.update_of_ne (Nat.ne_of_lt known) ..
  refine ⟨⟨wf.slots.named, wf.slots.vacant, wf.slots.quiet, wf.slots.apart, wf.slots.free,
    wf.slots.nodup⟩, ⟨wf.controls.attached, wf.controls.root, wf.controls.unused⟩,
    ⟨wf.posts.bounded, wf.posts.queued, wf.posts.waiters, wf.posts.notJoin, wf.posts.sole,
      wf.posts.own⟩,
    ⟨wf.frames.shaped, wf.frames.settled, wf.frames.head, wf.frames.idle, wf.frames.nodup,
      wf.frames.started⟩,
    ⟨wf.tree.continued, fun c j alive joined => ?_, fun j => ?_, wf.tree.timed, wf.tree.parked,
      wf.tree.fresh⟩, ⟨wf.awaited.known, wf.awaited.rootless⟩⟩
  · obtain ⟨known, rest⟩ := wf.tree.joined c j alive joined
    rw [old j known]
    exact ⟨Nat.lt_succ_of_lt known, rest⟩
  · by_cases same : j = s.nextJoinState
    · refine ⟨[], Nat.zero_le _, fun c alive joined => ?_⟩
      exact absurd (wf.tree.joined c j alive joined).1 (same ▸ Nat.lt_irrefl _)
    · obtain ⟨children, length, covers⟩ := wf.tree.room j
      refine ⟨children, ?_, covers⟩
      rw [show (s.createJoinState i count).joinStates j = s.joinStates j from
        Function.update_of_ne same ..]
      exact length

theorem joins_createJoinState {n : Machine κ} {h i : Nat} (begun : Begun n h) (wf : Wf n)
    (index : (n.sched.promises h).stateIndex = i) (count : Nat) :
    Joins (n.sched.createJoinState i count) n.sched.nextJoinState h count := by
  subst index
  have new : (n.sched.createJoinState (n.sched.promises h).stateIndex count).joinStates
      n.sched.nextJoinState =
      { remaining := count, parentIndex := (n.sched.promises h).stateIndex
        parent := n.sched.handleAt (n.sched.promises h).stateIndex
        generation := n.sched.nextWaitGeneration } := Function.update_self ..
  have handle : n.sched.handleAt (n.sched.promises h).stateIndex = h := by
    unfold Scheduler.handleAt
    rw [show (n.sched.states (n.sched.promises h).stateIndex).handle = some h from
      begun.alive.1]
    rfl
  refine ⟨Nat.lt_succ_self _, ?_, begun.alive, ?_, begun.waiting, ?_, [], ?_,
    fun c alive joined => ?_⟩
  · rw [new]
    exact handle
  · rw [new]
    rfl
  · rw [new]
    exact begun.generation
  · rw [new]
    exact Nat.le_of_eq (Nat.zero_add count)
  · exact absurd (wf.tree.joined c _ alive joined).1 (Nat.lt_irrefl _)

/-- One child of a join is adopted. -/
theorem Joins.adopts {s : Scheduler} {stack : List (Frame κ)} {awaiters : Nat → Awaiter}
    {j h count : Nat} (joins : Joins s j h (count + 1))
    (suspended : awaiters h = .join j ∨ awaiters h = .timeout s.adoptHandle)
    {promise : TaskPromise} (continuation : promise.continuation = none)
    (joinState : promise.joinState = some j) : Adopts s stack awaiters promise where
  continued p continued := by
    rw [continuation] at continued
    cases continued
  joined j' joined := by
    obtain rfl := Option.some.inj (joinState.symm.trans joined)
    rw [joins.parent]
    exact ⟨joins.known, joins.alive, joins.index, joins.generation,
      suspended.imp (fun inJoin => ⟨inJoin, joins.waiting⟩) id⟩
  room j' joined := by
    obtain rfl := Option.some.inj (joinState.symm.trans joined)
    obtain ⟨children, length, covers⟩ := joins.room
    exact ⟨children, by omega, covers⟩

theorem Joins.adopted {s : Scheduler} (slots : SlotsOk s) {j h count : Nat}
    (joins : Joins s j h (count + 1)) (promise : TaskPromise) :
    Joins (s.adopt promise) j h count := by
  have promises := Scheduler.promises_adopt_of_ne s promise (ne_adoptHandle slots joins.alive)
  have slotOf := slotOf_adopt slots promise joins.alive
  refine ⟨joins.known, joins.parent, (alive_adopt slots promise).mpr (.inr joins.alive), ?_, ?_,
    ?_, ?_⟩
  · rw [promises]
    exact joins.index
  · rw [slotOf]
    exact joins.waiting
  · rw [slotOf]
    exact joins.generation
  · obtain ⟨children, length, covers⟩ := joins.room
    have grown : (s.adoptHandle :: children).length + count ≤ (s.joinStates j).remaining := by
      rw [List.length_cons]
      omega
    refine ⟨s.adoptHandle :: children, grown, fun c alive joined => ?_⟩
    rcases (alive_adopt slots promise).mp alive with rfl | before
    · exact List.mem_cons_self
    · rw [Scheduler.promises_adopt_of_ne s promise (ne_adoptHandle slots before)] at joined
      exact List.mem_cons_of_mem _ (covers c before joined)

theorem Joins.rewritten {s t : Scheduler} {i j h count : Nat} (rw : Rewrites s t i)
    (other : (s.promises h).stateIndex ≠ i) (joins : Joins s j h count) : Joins t j h count where
  known := by
    rw [rw.nextJoinState]
    exact joins.known
  parent := by
    rw [rw.joinStates]
    exact joins.parent
  alive := (rw.alive_iff h).mpr joins.alive
  index := by
    rw [rw.promises, rw.joinStates]
    exact joins.index
  waiting := by
    rw [rw.slotOf_of_ne other]
    exact joins.waiting
  generation := by
    rw [rw.slotOf_of_ne other, rw.joinStates]
    exact joins.generation
  room := by
    obtain ⟨children, length, covers⟩ := joins.room
    refine ⟨children, rw.joinStates ▸ length, fun c alive joined => ?_⟩
    rw [rw.promises] at joined
    exact covers c ((rw.alive_iff c).mp alive) joined

theorem path_startChildren (count : Nat) {m : Machine κ} (wf : Wf m) {j h : Nat}
    (joins : Joins m.sched j h count) (suspended : m.awaiters h = .join j)
    (executionContext : Option ExecutionContext) :
    Path m (m.withSched (m.sched.startChildren j executionContext count)) := by
  induction count generalizing m with
  | zero => exact .refl m
  | succ count ih =>
      have adopted := path_adopt (m := m)
        { joinState := some j, executionContext := executionContext }
        fun _ => joins.adopts (.inl suspended) rfl rfl
      have wf' := adopted.wf wf
      have newborn := newborn_adopt wf
        { joinState := some j, executionContext := executionContext }
      have index := congrArg TaskPromise.stateIndex (Scheduler.promises_adopt_self m.sched
        { joinState := some j, executionContext := executionContext })
      have ready := path_newborn_ready wf' newborn index
      have joins' := joins.adopted wf.slots
        { joinState := some j, executionContext := executionContext }
      obtain ⟨rw, -⟩ := rewrites_makeReady (index ▸ (wf'.slots.bounds newborn.idle.1).2)
        (index ▸ newborn.idle.1.2) .started
      have other : ((m.sched.adopt { joinState := some j, executionContext :=
          executionContext }).promises h).stateIndex ≠ m.sched.adoptIndex := by
        intro same
        exact ne_adoptHandle wf.slots joins.alive
          (joins'.alive.separate newborn.idle.1 (same.trans index.symm))
      exact (adopted.trans ready).trans (ih ((adopted.trans ready).wf wf)
        (joins'.rewritten rw other) suspended)

/-! ### Suspending in children -/

/-- The newest coroutine is resumed for the first time. -/
theorem WfAt.push_newest {s : Scheduler} {stack : List (Frame κ)} {awaiters : Nat → Awaiter}
    (wf : WfAt s stack awaiters) {h : Nat} (last : s.nextCoroutineId = h) (idle : s.Idle h)
    (away : h ∉ bodies stack) (unsuspended : awaiters h = .none) (draining : s.draining = true)
    (settled : ∀ g ∈ stack, g.Settled awaiters) : WfAt s (.body h true :: stack) awaiters := by
  refine wf.push_body rfl draining idle away (fun c alive continued => ?_) settled
    (.inr ⟨rfl, fun c inTimeout => ?_⟩)
  · have older := (wf.tree.continued c h alive continued).1
    exact absurd (wf.slots.bounds alive).1 (Nat.not_le.mpr (last ▸ older))
  · rw [unsuspended] at inTimeout
    cases inTimeout

/-- A coroutine suspends in a child it adopts, and the child is resumed. -/
theorem path_adoptAwaited {n : Machine κ} (wf : Wf n) {h : Nat} {x : Awaiter}
    (promise : TaskPromise) (alive : n.sched.Alive h) (away : h ∉ bodies n.stack)
    (unsuspended : n.awaiters h = .none)
    (child : x = .task n.sched.adoptHandle ∨ x = .timeout n.sched.adoptHandle)
    (suspends : Suspends n.sched n.stack h x)
    (adopts : Adopts n.sched n.stack (update n.awaiters h x) promise)
    (draining : n.sched.draining = true) (settled : ∀ g ∈ n.stack, g.Settled n.awaiters) :
    Path n (({ n with
      sched := n.sched.adopt promise
      stack := .body n.sched.adoptHandle true :: n.stack } : Machine κ).setAwaiter h x) := by
  have newborn := newborn_adopt wf promise
  have adopted : Path n ((n.withSched (n.sched.adopt promise)).setAwaiter h x) :=
    .prim (.adopt n.sched promise) rfl fun wf' =>
      WfAt.adopt_awaited wf' (wf'.tree.childless_of_none unsuspended) alive away child suspends
        adopts
  have other : update n.awaiters h x n.sched.adoptHandle = n.awaiters n.sched.adoptHandle :=
    Function.update_of_ne (ne_adoptHandle wf.slots alive).symm ..
  refine adopted.trans (.admin rfl fun wf' => ?_)
  refine WfAt.push_newest wf' rfl newborn.idle newborn.away (other.trans newborn.unsuspended)
    draining fun g member => ?_
  exact (settled_update_of_ne (bodyHandle_ne_of_notMem member away)).mpr (settled g member)

/-- From `m` to `n` a coroutine has begun the wait of a join or a timeout. -/
structure Joined (m n : Machine κ) (h count : Nat) : Prop where
  path : Path m n
  begun : Begun n h
  joins : Joins n.sched m.sched.nextJoinState h count
  fresh : ∀ r, Issued n.sched n.stack r → r.generation ≠ n.sched.nextWaitGeneration
  generation : n.sched.nextWaitGeneration = m.sched.nextWaitGeneration + 1
  newest : n.sched.nextCoroutineId = m.sched.nextCoroutineId
  draining : n.sched.draining = m.sched.draining

theorem joined_of_idle {m : Machine κ} (wf : Wf m) {h : Nat} (idle : m.sched.Idle h)
    (away : h ∉ bodies m.stack) (unsuspended : m.awaiters h = .none) (count : Nat)
    (diagnostic : WaitDiagnostic) :
    Joined m (m.withSched ((m.sched.beginWait (m.sched.promises h).stateIndex
      diagnostic).createJoinState (m.sched.promises h).stateIndex count)) h count := by
  obtain ⟨path, begun, index, fresh⟩ := begins_of_idle wf idle away unsuspended diagnostic
  have joins := joins_createJoinState begun (path.wf wf) index count
  have around := Scheduler.surroundings_beginWait m.sched (m.sched.promises h).stateIndex diagnostic
  have next : (m.sched.beginWait (m.sched.promises h).stateIndex diagnostic).nextJoinState =
      m.sched.nextJoinState := congrArg Surroundings.nextJoinState around
  exact ⟨path.trans (.admin rfl fun wf' => WfAt.createJoinState wf' _ _),
    ⟨begun.alive, begun.waiting, begun.generation, begun.away, begun.unsuspended, begun.unshared⟩,
    next ▸ joins, fresh, Scheduler.nextWaitGeneration_beginWait m.sched _ diagnostic,
    congrArg Surroundings.nextCoroutineId around, congrArg Surroundings.draining around⟩

/-- The registration of the timer of a timeout that has begun. -/
theorem path_pushTimeout {n : Machine κ} {h generation : Nat} (begun : Begun n h)
    (newest : generation = n.sched.nextWaitGeneration) (femtoseconds : Nat)
    (draining : n.sched.draining = true) (settled : ∀ g ∈ n.stack, g.Settled n.awaiters) :
    Path n (n.withStack (.timeoutStart h generation femtoseconds :: n.stack)) := by
  subst newest
  refine .admin rfl fun wf => ?_
  have bound : ∀ r, Bound n.sched (.timeoutStart h n.sched.nextWaitGeneration femtoseconds ::
      n.stack) r → r = n.sched.currentRegistration (n.sched.promises h).stateIndex ∨
        Bound n.sched n.stack r := by
    rintro r (registered | ⟨parent, generation, femtoseconds', member, here⟩)
    · exact .inr (.inl registered)
    · rcases List.mem_cons.mp member with same | lower
      · cases same
        exact .inl here
      · exact .inr (.inr ⟨parent, generation, femtoseconds', lower, here⟩)
  have issued : ∀ r, Issued n.sched (.timeoutStart h n.sched.nextWaitGeneration femtoseconds ::
      n.stack) r → r = n.sched.currentRegistration (n.sched.promises h).stateIndex ∨
        Issued n.sched n.stack r := by
    rintro r (here | external)
    · exact (bound r here).imp id .inl
    · exact .inr (.inr external)
  have current := begun.current
  refine ⟨wf.slots, wf.controls, ⟨fun r here => ?_, wf.posts.queued, wf.posts.waiters,
    fun r h' j here valid handle => ?_, wf.posts.sole, fun r r' external here => ?_⟩,
    ⟨⟨fun _ => draining, wf.frames.shaped⟩, settled, fun f top => ?_, wf.frames.idle,
      wf.frames.nodup, fun parent generation femtoseconds' member => ?_⟩,
    ⟨wf.tree.continued, wf.tree.joined, wf.tree.room, wf.tree.timed, wf.tree.parked,
      wf.tree.fresh⟩, wf.awaited⟩
  · rcases issued r here with rfl | before
    · exact Nat.le_refl _
    · exact wf.posts.bounded r before
  · rcases issued r here with rfl | before
    · exact current.notJoin h' j handle
    · exact wf.posts.notJoin r h' j before valid handle
  · rcases bound r' here with rfl | before
    · exact (begun.unshared r external).symm
    · exact wf.posts.own r r' external before
  · obtain rfl : (.timeoutStart h n.sched.nextWaitGeneration femtoseconds : Frame κ) = f :=
      Option.some.inj top
    exact .inl trivial
  · rcases List.mem_cons.mp member with same | lower
    · cases same
      exact begun.known wf
    · exact wf.frames.started _ _ _ lower

section Leaving

variable {m : Machine κ} (wf : Wf m) {rest : List (Frame κ)} {h : Nat} {e : Bool}
  (top : m.stack = .body h e :: rest)
  (settled : (Frame.body h e : Frame κ).Settled m.awaiters)

include wf top settled

theorem settled_below : ∀ g ∈ rest, g.Settled m.awaiters := by
  have wf' : WfAt m.sched m.stack m.awaiters := wf
  rw [top] at wf'
  exact wf'.settledBelow

theorem path_startJoin (count : Nat) (diagnostic : WaitDiagnostic) :
    Path m (({ m with
      sched := m.sched.startJoin (m.sched.promises h).stateIndex count diagnostic
      stack := rest } : Machine κ).setAwaiter h (.join m.sched.nextJoinState)) := by
  obtain ⟨left, idle, away, unsuspended, -⟩ := leave wf top rfl settled
  obtain ⟨path, begun, joins, fresh, -, -, -⟩ :=
    joined_of_idle (left.wf wf) idle away unsuspended count diagnostic
  have before := left.trans path
  have suspended := path_setAwaiter begun (.join m.sched.nextJoinState) (by simp) (by simp) <| by
    -- no registration of the new wait has been handed out
    intro r issued valid handle
    obtain ⟨-, -, generation⟩ := (Scheduler.registrationValid_iff _ r).mp valid
    have named := ((before.wf wf).slots.named r.stateIndex h handle).1
    refine fresh r issued (generation.symm.trans ?_)
    rw [← named]
    exact begun.generation
  have parked := before.trans suspended
  exact parked.trans (path_startChildren count (parked.wf wf) joins (Function.update_self ..) _)

theorem path_startTask (executionContext : Option ExecutionContext) :
    Path m (({ m with
      sched := m.sched.adopt { continuation := some h, executionContext := executionContext }
      stack := .body m.sched.adoptHandle true :: rest } : Machine κ).setAwaiter h
        (.task m.sched.adoptHandle)) := by
  obtain ⟨left, idle, away, unsuspended, draining⟩ := leave wf top rfl settled
  refine left.trans (path_adoptAwaited (left.wf wf) _ idle.1 away unsuspended (.inl rfl) trivial ?_
    draining (settled_below wf top settled))
  refine ⟨fun p continued => ?_, fun j joined => ?_, fun j joined => ?_⟩
  · obtain rfl := Option.some.inj continued
    exact ⟨idle, Function.update_self .., away⟩
  · cases joined
  · cases joined

/-- A coroutine suspends in the child of a timeout, and the child is resumed. -/
theorem path_startTimeout (diagnostic : WaitDiagnostic) (femtoseconds : Nat)
    (awaited : (m.sched.promises h).continuation ≠ none) :
    Path m (({ m with
      sched := m.sched.startTimeout (m.sched.promises h).stateIndex diagnostic
      stack := .body m.sched.adoptHandle true ::
        .timeoutStart h (m.sched.nextWaitGeneration + 1) femtoseconds :: rest } :
          Machine κ).setAwaiter h (.timeout m.sched.adoptHandle)) := by
  obtain ⟨left, idle, away, unsuspended, draining⟩ := leave wf top rfl settled
  have joined := joined_of_idle (left.wf wf) idle away unsuspended 1 diagnostic
  have lower := settled_below wf top settled
  have draining' := joined.draining.trans draining
  have starting := path_pushTimeout joined.begun joined.generation.symm femtoseconds draining'
    lower
  have before := (left.trans joined.path).trans starting
  have same := congrArg (· + 1) joined.newest
  have awaited' : (((m.sched.beginWait (m.sched.promises h).stateIndex
      diagnostic).createJoinState (m.sched.promises h).stateIndex 1).promises h).continuation ≠
      none := by
    rw [show ((m.sched.beginWait (m.sched.promises h).stateIndex diagnostic).createJoinState
      (m.sched.promises h).stateIndex 1).promises = m.sched.promises from
        congrArg Surroundings.promises (Scheduler.surroundings_beginWait m.sched _ diagnostic)]
    exact awaited
  have adopted := path_adoptAwaited (before.wf wf) {
      joinState := some m.sched.nextJoinState
      executionContext := (m.sched.promises (m.sched.handleAt
        (m.sched.promises h).stateIndex)).executionContext }
    joined.begun.alive joined.begun.away joined.begun.unsuspended (.inr rfl)
    awaited' (joined.joins.adopts (.inr (Function.update_self ..)) rfl rfl) draining'
    (fun g member => ?_)
  · rw [show m.sched.adoptHandle = ((m.sched.beginWait (m.sched.promises h).stateIndex
      diagnostic).createJoinState (m.sched.promises h).stateIndex 1).adoptHandle from same.symm]
    exact before.trans adopted
  · rcases List.mem_cons.mp member with rfl | below
    · trivial
    · exact lower g below

end Leaving

end Cpptb.Coro
