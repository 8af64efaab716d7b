/-
What keeps the invariant.

`Skeleton` is the part of the scheduler the invariant reads, apart from the queues: a change outside
it keeps `WfAt` (`WfAt.congr`). The other lemmas are about one kind of change each: one wait
(`WfAt.rewrite`), a registration (`WfAt.register`), the stack (`WfAt.push`, `WfAt.pop`), an awaiter, a
new coroutine (`WfAt.adopt`), the end of a coroutine (`WfAt.stop`) and the end of its slot
(`WfAt.free`).
-/

import Cpptb.Coro.Invariant

namespace Cpptb.Coro

open Function (update)

variable {κ : Type}

/-! ### Changes outside the skeleton -/

/-- The links of a promise to other coroutines. -/
structure Links where
  continuation : Option Nat
  joinState : Option Nat
  stateIndex : Nat

/-- The part of a process control the invariant reads. -/
structure ControlPart where
  attached : Bool
  done : Bool
  stateIndex : Option Nat
  completionWaiter : Option WaitRegistration
  extraCompletionWaiters : List WaitRegistration

/-- The part of the scheduler the invariant reads, apart from the queues. -/
structure Skeleton where
  slot : Nat → Slot
  links : Nat → Links
  joinStates : Nat → JoinState
  nextJoinState : Nat
  controls : Nat → ControlPart
  nextControl : Nat
  processByState : Nat → Option Nat
  freeStates : List Nat
  stateCount : Nat
  nextCoroutineId : Nat
  nextWaitGeneration : Nat
  draining : Bool
  handouts : List Event

/-- The links of a promise. -/
def TaskPromise.links (promise : TaskPromise) : Links :=
  ⟨promise.continuation, promise.joinState, promise.stateIndex⟩

/-- The part of a control. -/
def ProcessControl.part (control : ProcessControl) : ControlPart :=
  ⟨control.attached, control.done, control.stateIndex, control.completionWaiter,
    control.extraCompletionWaiters⟩

/-- The skeleton of a scheduler. -/
def Scheduler.skeleton (s : Scheduler) : Skeleton where
  slot := s.slot
  links := fun h => (s.promises h).links
  joinStates := s.joinStates
  nextJoinState := s.nextJoinState
  controls := fun k => (s.controls k).part
  nextControl := s.nextControl
  processByState := s.processByState
  freeStates := s.freeStates
  stateCount := s.stateCount
  nextCoroutineId := s.nextCoroutineId
  nextWaitGeneration := s.nextWaitGeneration
  draining := s.draining
  handouts := s.handouts

section Congruence

variable {s t : Scheduler} (same : t.skeleton = s.skeleton)

include same

theorem skeleton_continuation (h : Nat) :
    (t.promises h).continuation = (s.promises h).continuation :=
  congrArg Links.continuation (congrFun (congrArg Skeleton.links same) h)

theorem skeleton_joinState (h : Nat) : (t.promises h).joinState = (s.promises h).joinState :=
  congrArg Links.joinState (congrFun (congrArg Skeleton.links same) h)

theorem skeleton_stateIndex (h : Nat) : (t.promises h).stateIndex = (s.promises h).stateIndex :=
  congrArg Links.stateIndex (congrFun (congrArg Skeleton.links same) h)

theorem skeleton_slot : t.slot = s.slot := congrArg Skeleton.slot same

theorem skeleton_slotOf (h : Nat) : t.slotOf h = s.slotOf h := by
  unfold Scheduler.slotOf
  rw [skeleton_slot same, skeleton_stateIndex same]

theorem skeleton_alive (h : Nat) : t.Alive h ↔ s.Alive h := by
  unfold Scheduler.Alive
  rw [skeleton_slotOf same]

theorem skeleton_idle (h : Nat) : t.Idle h ↔ s.Idle h := by
  unfold Scheduler.Idle
  rw [skeleton_alive same, skeleton_slotOf same]

theorem skeleton_registered (r : WaitRegistration) : t.Registered r ↔ s.Registered r := by
  unfold Scheduler.Registered
  rw [show t.handouts = s.handouts from congrArg Skeleton.handouts same]

theorem skeleton_external (r : WaitRegistration) : t.External r ↔ s.External r := by
  unfold Scheduler.External
  rw [show t.handouts = s.handouts from congrArg Skeleton.handouts same]

theorem skeleton_bound (stack : List (Frame κ)) (r : WaitRegistration) :
    Bound t stack r ↔ Bound s stack r := by
  unfold Bound
  simp only [skeleton_registered same, skeleton_stateIndex same]

theorem skeleton_issued (stack : List (Frame κ)) (r : WaitRegistration) :
    Issued t stack r ↔ Issued s stack r :=
  or_congr (skeleton_bound same stack r) (skeleton_external same r)

theorem skeleton_valid (r : WaitRegistration) :
    registrationValid t.states r = true ↔ registrationValid s.states r = true := by
  rw [Scheduler.registrationValid_iff, Scheduler.registrationValid_iff]
  unfold Scheduler.Live
  rw [skeleton_slot same]

theorem skeleton_isChild (h : Nat) :
    Scheduler.isChild (t.promises h) = Scheduler.isChild (s.promises h) := by
  unfold Scheduler.isChild
  rw [skeleton_continuation same, skeleton_joinState same]

theorem skeleton_control (k : Nat) : (t.controls k).part = (s.controls k).part :=
  congrFun (congrArg Skeleton.controls same) k

theorem SlotsOk.congr (ok : SlotsOk s) : SlotsOk t := by
  have slot := skeleton_slot same
  have index := skeleton_stateIndex same
  have ids : t.nextCoroutineId = s.nextCoroutineId := congrArg Skeleton.nextCoroutineId same
  have count : t.stateCount = s.stateCount := congrArg Skeleton.stateCount same
  have free : t.freeStates = s.freeStates := congrArg Skeleton.freeStates same
  constructor
  · simpa only [slot, index, ids, count] using ok.named
  · simpa only [slot] using ok.vacant
  · simpa only [slot] using ok.quiet
  · simpa only [slot] using ok.apart
  · simpa only [slot, count, free] using ok.free
  · simpa only [free] using ok.nodup

theorem ControlsOk.congr (ok : ControlsOk s) : ControlsOk t := by
  have slot := skeleton_slot same
  have attached : ∀ k, (t.controls k).attached = (s.controls k).attached := fun k =>
    congrArg ControlPart.attached (skeleton_control same k)
  have done : ∀ k, (t.controls k).done = (s.controls k).done := fun k =>
    congrArg ControlPart.done (skeleton_control same k)
  have index : ∀ k, (t.controls k).stateIndex = (s.controls k).stateIndex := fun k =>
    congrArg ControlPart.stateIndex (skeleton_control same k)
  have next : t.nextControl = s.nextControl := congrArg Skeleton.nextControl same
  have byState : t.processByState = s.processByState := congrArg Skeleton.processByState same
  constructor
  · simpa only [slot, attached, done, index, byState] using ok.attached
  · simpa only [slot, next, index, byState, skeleton_isChild same] using ok.root
  · simpa only [next, attached] using ok.unused

theorem PostsOk.congr {stack : List (Frame κ)} {awaiters : Nat → Awaiter}
    (queued : ∀ r, t.Queued r → s.Queued r) (ok : PostsOk s stack awaiters) :
    PostsOk t stack awaiters := by
  have generations : t.nextWaitGeneration = s.nextWaitGeneration :=
    congrArg Skeleton.nextWaitGeneration same
  have waiter : ∀ k, (t.controls k).completionWaiter = (s.controls k).completionWaiter := fun k =>
    congrArg ControlPart.completionWaiter (skeleton_control same k)
  have extra : ∀ k, (t.controls k).extraCompletionWaiters =
      (s.controls k).extraCompletionWaiters := fun k =>
    congrArg ControlPart.extraCompletionWaiters (skeleton_control same k)
  constructor
  · simpa only [skeleton_issued same, generations] using ok.bounded
  · intro r inQueue
    exact (skeleton_registered same r).mpr (ok.queued r (queued r inQueue))
  · simpa only [waiter, extra, skeleton_registered same] using ok.waiters
  · simpa only [skeleton_issued same, skeleton_valid same, skeleton_slot same] using ok.notJoin
  · simpa only [skeleton_external same] using ok.sole
  · simpa only [skeleton_bound same, skeleton_external same] using ok.own

theorem StackOk.congr {stack : List (Frame κ)} {awaiters : Nat → Awaiter}
    (ok : StackOk s stack awaiters) : StackOk t stack awaiters := by
  have draining : t.draining = s.draining := congrArg Skeleton.draining same
  constructor
  · simpa only [draining] using ok.shaped
  · exact ok.settled
  · exact ok.head
  · simpa only [skeleton_idle same] using ok.idle
  · exact ok.nodup
  · rw [show t.nextCoroutineId = s.nextCoroutineId from congrArg Skeleton.nextCoroutineId same]
    exact ok.started

theorem TreeOk.congr {stack : List (Frame κ)} {awaiters : Nat → Awaiter}
    (ok : TreeOk s stack awaiters) : TreeOk t stack awaiters := by
  have joins : t.joinStates = s.joinStates := congrArg Skeleton.joinStates same
  have next : t.nextJoinState = s.nextJoinState := congrArg Skeleton.nextJoinState same
  have ids : t.nextCoroutineId = s.nextCoroutineId := congrArg Skeleton.nextCoroutineId same
  constructor
  · simpa only [skeleton_alive same, skeleton_continuation same, skeleton_idle same]
      using ok.continued
  · simpa only [skeleton_alive same, skeleton_joinState same, joins, next, skeleton_slotOf same,
      skeleton_stateIndex same] using ok.joined
  · simpa only [skeleton_alive same, skeleton_joinState same, joins] using ok.room
  · simpa only [skeleton_alive same, skeleton_continuation same] using ok.timed
  · simpa only [skeleton_alive same, skeleton_slotOf same, skeleton_stateIndex same,
      skeleton_external same] using ok.parked
  · simpa only [ids] using ok.fresh

theorem AwaitedOk.congr {awaiters : Nat → Awaiter} (ok : AwaitedOk s awaiters) :
    AwaitedOk t awaiters := by
  have ids : t.nextCoroutineId = s.nextCoroutineId := congrArg Skeleton.nextCoroutineId same
  have byState : t.processByState = s.processByState := congrArg Skeleton.processByState same
  constructor
  · simpa only [ids] using ok.known
  · simpa only [skeleton_slot same, byState] using ok.rootless

/-- A change outside the skeleton that puts nothing into a queue. -/
theorem WfAt.congr {stack : List (Frame κ)} {awaiters : Nat → Awaiter}
    (queued : ∀ r, t.Queued r → s.Queued r) (wf : WfAt s stack awaiters) :
    WfAt t stack awaiters :=
  ⟨wf.slots.congr same, wf.controls.congr same, wf.posts.congr same queued, wf.frames.congr same,
    wf.tree.congr same, wf.awaited.congr same⟩

end Congruence

/-! ### One wait -/

section OneWait

variable {s t : Scheduler} {i : Nat} {stack : List (Frame κ)} {awaiters : Nat → Awaiter}

/-- The wait of a coroutine that was waiting or ready changes. -/
theorem WfAt.rewrite_busy (wf : WfAt s stack awaiters) (rw : Rewrites s t i) (live : s.Live i)
    (busy : (s.slot i).waiting = true ∨ (s.slot i).ready = true)
    (apart : (t.slot i).ready = true → (t.slot i).waiting = false)
    (waiting : (t.slot i).waiting = true → (s.slot i).waiting = true)
    (generation : (t.slot i).generation = (s.slot i).generation)
    (join : ∀ h j c, (s.slot i).handle = some h → awaiters h = .join j → s.Alive c →
      (s.promises c).joinState = some j → (t.slot i).waiting = true)
    (parked : (t.slot i).waiting = true ∨ (t.slot i).ready = true) :
    WfAt t stack awaiters := by
  have notIdle : ∀ h, (s.promises h).stateIndex = i → ¬ s.Idle h := by
    rintro h rfl ⟨-, still, unready⟩
    rcases busy with waits | ready
    · exact Bool.false_ne_true (still.symm.trans waits)
    · exact Bool.false_ne_true (unready.symm.trans ready)
  refine ⟨rw.slotsOk wf.slots live apart, rw.controlsOk wf.controls, ?_, ?_, ?_,
    rw.awaitedOk wf.awaited⟩
  · exact rw.postsOk wf.posts fun waits => .inl ⟨waiting waits, generation⟩
  · exact rw.stackOk wf.frames fun h member same => notIdle h same (wf.frames.idle h member)
  · refine rw.treeOk wf.tree ?_ ?_ ?_
    · intro c h alive continued same
      exact notIdle h same (wf.tree.continued c h alive continued).2.1
    · intro c j alive joined same
      refine ⟨generation, fun inJoin => ?_⟩
      have parent := (wf.tree.joined c j alive joined).2.2.1.1
      unfold Scheduler.slotOf at parent
      rw [same] at parent
      exact join _ j c parent inJoin alive joined
    · intro h r _ _ _
      exact ⟨generation, .inr parked⟩

/-- The wait of a coroutine without live children changes; its body is not on the stack. -/
theorem WfAt.rewrite_childless (wf : WfAt s stack awaiters) (rw : Rewrites s t i) {h : Nat}
    (handle : (s.slot i).handle = some h) (live : (s.slot i).done = false)
    (childless : Childless s h) (away : h ∉ bodies stack)
    (inside : ∀ r, awaiters h ≠ .external r)
    (apart : (t.slot i).ready = true → (t.slot i).waiting = false)
    (waiting : (t.slot i).waiting = true → ∀ r, Issued s stack r →
      r.generation ≠ (t.slot i).generation) :
    WfAt t stack awaiters := by
  have alive := wf.slots.aliveAt handle live
  have index := (wf.slots.named i h handle).1
  have only : ∀ h', s.Alive h' → (s.promises h').stateIndex = i → h' = h := fun h' alive' same =>
    alive'.separate alive (same.trans index.symm)
  refine ⟨rw.slotsOk wf.slots ?_ apart, rw.controlsOk wf.controls, ?_, ?_, ?_,
    rw.awaitedOk wf.awaited⟩
  · exact ⟨by rw [handle]; rfl, live⟩
  · exact rw.postsOk wf.posts fun waits => .inr (waiting waits)
  · refine rw.stackOk wf.frames fun h' member same => away ?_
    rw [← only h' (wf.frames.idle h' member).1 same]
    exact member
  · refine rw.treeOk wf.tree ?_ ?_ ?_
    · intro c h' aliveChild continued same
      have parent := (wf.tree.continued c h' aliveChild continued).2.1.1
      rw [only h' parent same] at continued
      exact (childless c aliveChild).1 continued
    · intro c j aliveChild joined same
      have parent := (wf.tree.joined c j aliveChild joined).2.2.1
      exact absurd (only _ parent same) ((childless c aliveChild).2 j joined)
    · intro h' r alive' suspended same
      rw [only h' alive' same] at suspended
      exact absurd suspended (inside r)

end OneWait

/-! ### Registering -/

section Registering

variable {s t : Scheduler} {stack : List (Frame κ)} {awaiters : Nat → Awaiter}

theorem registered_record (s : Scheduler) (source : WaitSource) (r r' : WaitRegistration) :
    (s.record (.registered source r)).Registered r' ↔ r' = r ∨ s.Registered r' := by
  constructor
  · rintro ⟨source', member⟩
    rcases List.mem_cons.mp member with same | before
    · injection same with _ same
      exact .inl same
    · exact .inr ⟨source', before⟩
  · rintro (rfl | ⟨source', before⟩)
    · exact ⟨source, List.mem_cons_self⟩
    · exact ⟨source', List.mem_cons_of_mem _ before⟩

theorem external_record_registered (s : Scheduler) (source : WaitSource)
    (r r' : WaitRegistration) :
    (s.record (.registered source r)).External r' ↔ s.External r' := by
  constructor
  · intro member
    rcases List.mem_cons.mp member with same | before
    · cases same
    · exact before
  · exact fun before => List.mem_cons_of_mem _ before

theorem external_record (s : Scheduler) (r r' : WaitRegistration) :
    (s.record (.parkedExternal r)).External r' ↔ r' = r ∨ s.External r' := by
  constructor
  · intro member
    rcases List.mem_cons.mp member with same | before
    · injection same with same
      exact .inl same
    · exact .inr before
  · rintro (rfl | before)
    · exact List.mem_cons_self
    · exact List.mem_cons_of_mem _ before

theorem registered_record_external (s : Scheduler) (r r' : WaitRegistration) :
    (s.record (.parkedExternal r)).Registered r' ↔ s.Registered r' := by
  constructor
  · rintro ⟨source, member⟩
    rcases List.mem_cons.mp member with same | before
    · cases same
    · exact ⟨source, before⟩
  · exact fun ⟨source, before⟩ => ⟨source, List.mem_cons_of_mem _ before⟩

theorem bound_registered {s : Scheduler} {source : WaitSource} {r r' : WaitRegistration}
    (bound : Bound (s.record (.registered source r)) stack r') : r' = r ∨ Bound s stack r' := by
  rcases bound with registered | starting
  · exact ((registered_record s source r r').mp registered).imp id .inl
  · exact .inr (.inr starting)

theorem issued_registered {s : Scheduler} {source : WaitSource} {r r' : WaitRegistration}
    (issued : Issued (s.record (.registered source r)) stack r') :
    r' = r ∨ Issued s stack r' := by
  rcases issued with bound | external
  · exact (bound_registered bound).imp id .inl
  · exact .inr (.inr ((external_record_registered s source r r').mp external))

theorem bound_external {s : Scheduler} {r r' : WaitRegistration}
    (bound : Bound (s.record (.parkedExternal r)) stack r') : Bound s stack r' :=
  bound.imp (registered_record_external s r r').mp id

theorem issued_external {s : Scheduler} {r r' : WaitRegistration}
    (issued : Issued (s.record (.parkedExternal r)) stack r') :
    r' = r ∨ Issued s stack r' := by
  rcases issued with bound | external
  · exact .inr (.inl (bound_external bound))
  · exact ((external_record s r r').mp external).imp id .inr

/-- A registration of a wait other than a join, whose generation user code does not hold. -/
theorem WfAt.record_registered (wf : WfAt s stack awaiters) (source : WaitSource)
    {r : WaitRegistration} (bounded : r.generation ≤ s.nextWaitGeneration)
    (notJoin : ∀ h j, (s.slot r.stateIndex).handle = some h → awaiters h ≠ .join j)
    (unshared : ∀ x, s.External x → x.generation ≠ r.generation) :
    WfAt (s.record (.registered source r)) stack awaiters where
  slots := ⟨wf.slots.named, wf.slots.vacant, wf.slots.quiet, wf.slots.apart, wf.slots.free,
    wf.slots.nodup⟩
  controls := ⟨wf.controls.attached, wf.controls.root, wf.controls.unused⟩
  posts := by
    refine ⟨fun r' issued => ?_, fun r' queued => ?_, fun k r' waits => ?_,
      fun r' h j issued valid handle => ?_, fun r₁ r₂ external external' same => ?_,
      fun r₁ r₂ external bound => ?_⟩
    · rcases issued_registered issued with rfl | before
      · exact bounded
      · exact wf.posts.bounded r' before
    · exact (registered_record s source r r').mpr (.inr (wf.posts.queued r' queued))
    · exact (registered_record s source r r').mpr (.inr (wf.posts.waiters k r' waits))
    · rcases issued_registered issued with rfl | before
      · exact notJoin h j handle
      · exact wf.posts.notJoin r' h j before valid handle
    · exact wf.posts.sole r₁ r₂ ((external_record_registered s source r r₁).mp external)
        ((external_record_registered s source r r₂).mp external') same
    · have before := (external_record_registered s source r r₁).mp external
      rcases bound_registered bound with rfl | bound'
      · exact (unshared r₁ before).symm
      · exact wf.posts.own r₁ r₂ before bound'
  frames := ⟨wf.frames.shaped, wf.frames.settled, wf.frames.head, wf.frames.idle,
    wf.frames.nodup, wf.frames.started⟩
  tree := ⟨wf.tree.continued, wf.tree.joined, wf.tree.room, wf.tree.timed,
    fun h x alive suspended => by
      obtain ⟨index, generation, external, still⟩ := wf.tree.parked h x alive suspended
      exact ⟨index, generation, (external_record_registered s source r x).mpr external, still⟩,
    wf.tree.fresh⟩
  awaited := ⟨wf.awaited.known, wf.awaited.rootless⟩

/-- User code is handed a registration of its own. -/
theorem WfAt.record_external (wf : WfAt s stack awaiters) {r : WaitRegistration}
    (bounded : r.generation ≤ s.nextWaitGeneration)
    (notJoin : ∀ h j, (s.slot r.stateIndex).handle = some h → awaiters h ≠ .join j)
    (unshared : ∀ r', Issued s stack r' → r'.generation ≠ r.generation) :
    WfAt (s.record (.parkedExternal r)) stack awaiters where
  slots := ⟨wf.slots.named, wf.slots.vacant, wf.slots.quiet, wf.slots.apart, wf.slots.free,
    wf.slots.nodup⟩
  controls := ⟨wf.controls.attached, wf.controls.root, wf.controls.unused⟩
  posts := by
    refine ⟨fun r' issued => ?_, fun r' queued => ?_, fun k r' waits => ?_,
      fun r' h j issued valid handle => ?_, fun r₁ r₂ external external' same => ?_,
      fun r₁ r₂ external bound => ?_⟩
    · rcases issued_external issued with rfl | before
      · exact bounded
      · exact wf.posts.bounded r' before
    · exact (registered_record_external s r r').mpr (wf.posts.queued r' queued)
    · exact (registered_record_external s r r').mpr (wf.posts.waiters k r' waits)
    · rcases issued_external issued with rfl | before
      · exact notJoin h j handle
      · exact wf.posts.notJoin r' h j before valid handle
    · rcases (external_record s r r₁).mp external with rfl | before <;>
        rcases (external_record s _ r₂).mp external' with rfl | before'
      · rfl
      · exact absurd same (unshared r₂ (.inr before'))
      · exact absurd same.symm (unshared r₁ (.inr before))
      · exact wf.posts.sole r₁ r₂ before before' same
    · rcases (external_record s r r₁).mp external with rfl | before
      · exact unshared r₂ (.inl (bound_external bound))
      · exact wf.posts.own r₁ r₂ before (bound_external bound)
  frames := ⟨wf.frames.shaped, wf.frames.settled, wf.frames.head, wf.frames.idle,
    wf.frames.nodup, wf.frames.started⟩
  tree := ⟨wf.tree.continued, wf.tree.joined, wf.tree.room, wf.tree.timed,
    fun h x alive suspended => by
      obtain ⟨index, generation, external, still⟩ := wf.tree.parked h x alive suspended
      exact ⟨index, generation, (external_record s r x).mpr (.inr external), still⟩,
    wf.tree.fresh⟩
  awaited := ⟨wf.awaited.known, wf.awaited.rootless⟩

/-- A registration is entered into a queue. -/
theorem WfAt.register (wf : WfAt s stack awaiters) {source : WaitSource} {r : WaitRegistration}
    (skeleton : t.skeleton = (s.record (.registered source r)).skeleton)
    (queued : ∀ r', t.Queued r' → r' = r ∨ s.Queued r')
    (bounded : r.generation ≤ s.nextWaitGeneration)
    (notJoin : ∀ h j, (s.slot r.stateIndex).handle = some h → awaiters h ≠ .join j)
    (unshared : ∀ x, s.External x → x.generation ≠ r.generation) :
    WfAt t stack awaiters := by
  have recorded := wf.record_registered source bounded notJoin unshared
  refine ⟨recorded.slots.congr skeleton, recorded.controls.congr skeleton, ?_,
    recorded.frames.congr skeleton, recorded.tree.congr skeleton,
    recorded.awaited.congr skeleton⟩
  -- the new entry of the queue is the registration itself
  have handed : ∀ r', t.Registered r' ↔ (s.record (.registered source r)).Registered r' :=
    skeleton_registered skeleton
  have posts := recorded.posts.congr (t := { t with
    edges := s.edges, phases := s.phases, timers := s.timers }) skeleton fun _ inQueue => inQueue
  refine ⟨posts.bounded, fun r' inQueue => ?_, posts.waiters, posts.notJoin, posts.sole,
    posts.own⟩
  rw [handed, registered_record]
  exact (queued r' inQueue).imp id fun before => wf.posts.queued r' before

end Registering

end Cpptb.Coro
