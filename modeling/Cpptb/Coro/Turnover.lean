/-
Coroutines that come and go.

* `WfAt.adopt` — a new coroutine takes a vacant slot; a child is adopted by the coroutine that is
  suspended in it;
* `WfAt.stop` — a coroutine without live children is done (`Stops`);
* `WfAt.free` — the slot of a done coroutine is vacated (`Frees`).
-/

import Cpptb.Coro.Activation

namespace Cpptb.Coro

open Function (update)

variable {κ : Type} {s t : Scheduler} {stack : List (Frame κ)} {awaiters : Nat → Awaiter}

/-! ### Adopting -/

namespace Scheduler

theorem slot_adopt (s : Scheduler) (promise : TaskPromise) (k : Nat) :
    (s.adopt promise).slot k =
      if k = s.adoptIndex then ⟨some s.adoptHandle, 0, false, false, false⟩ else s.slot k :=
  slot_update _ _ _ _

theorem promises_adopt_self (s : Scheduler) (promise : TaskPromise) :
    (s.adopt promise).promises s.adoptHandle = { promise with stateIndex := s.adoptIndex } :=
  Function.update_self ..

theorem promises_adopt_of_ne (s : Scheduler) (promise : TaskPromise) {h : Nat}
    (other : h ≠ s.adoptHandle) : (s.adopt promise).promises h = s.promises h :=
  Function.update_of_ne other ..

end Scheduler

theorem SlotsOk.adoptIndex_vacant (ok : SlotsOk s) : (s.slot s.adoptIndex).handle = none := by
  unfold Scheduler.adoptIndex
  cases free : s.freeStates with
  | nil =>
      cases handle : (s.slot s.stateCount).handle with
      | none => rfl
      | some h => exact absurd (ok.named _ h handle).2.2 (Nat.lt_irrefl _)
  | cons index rest => exact (ok.free index (free ▸ List.mem_cons_self)).1

section Adopt

variable (ok : SlotsOk s) (promise : TaskPromise)

include ok

theorem slot_adopt_of_some {k h : Nat} (handle : (s.slot k).handle = some h) :
    (s.adopt promise).slot k = s.slot k := by
  rw [Scheduler.slot_adopt, if_neg]
  rintro rfl
  rw [ok.adoptIndex_vacant] at handle
  cases handle

theorem ne_adoptHandle {h : Nat} (alive : s.Alive h) : h ≠ s.adoptHandle :=
  Nat.ne_of_lt (Nat.lt_succ_of_le (ok.bounds alive).1)

theorem slotOf_adopt {h : Nat} (alive : s.Alive h) :
    (s.adopt promise).slotOf h = s.slotOf h := by
  unfold Scheduler.slotOf
  rw [Scheduler.promises_adopt_of_ne s promise (ne_adoptHandle ok alive)]
  exact slot_adopt_of_some ok promise alive.1

theorem alive_adopt {h : Nat} :
    (s.adopt promise).Alive h ↔ h = s.adoptHandle ∨ s.Alive h := by
  constructor
  · intro alive
    by_cases new : h = s.adoptHandle
    · exact .inl new
    refine .inr ?_
    obtain ⟨handle, live⟩ := alive
    unfold Scheduler.slotOf at handle live
    rw [Scheduler.promises_adopt_of_ne s promise new, Scheduler.slot_adopt] at handle live
    split at handle
    · exact absurd (Option.some.inj handle).symm new
    · rename_i other
      rw [if_neg other] at live
      exact ⟨handle, live⟩
  · rintro (rfl | alive)
    · unfold Scheduler.Alive Scheduler.slotOf
      rw [Scheduler.promises_adopt_self, Scheduler.slot_adopt, if_pos rfl]
      exact ⟨rfl, rfl⟩
    · unfold Scheduler.Alive
      rw [slotOf_adopt ok promise alive]
      exact alive

theorem idle_adopt {h : Nat} (idle : s.Idle h) : (s.adopt promise).Idle h := by
  refine ⟨(alive_adopt ok promise).mpr (.inr idle.1), ?_⟩
  rw [slotOf_adopt ok promise idle.1]
  exact idle.2

theorem idle_adopt_self : (s.adopt promise).Idle s.adoptHandle := by
  refine ⟨(alive_adopt ok promise).mpr (.inl rfl), ?_⟩
  unfold Scheduler.slotOf
  rw [Scheduler.promises_adopt_self, Scheduler.slot_adopt, if_pos rfl]
  exact ⟨rfl, rfl⟩

end Adopt

/-- What the promise of a new coroutine says about its parent. -/
structure Adopts (s : Scheduler) (stack : List (Frame κ)) (awaiters : Nat → Awaiter)
    (promise : TaskPromise) : Prop where
  continued : ∀ p, promise.continuation = some p →
    s.Idle p ∧ awaiters p = .task s.adoptHandle ∧ p ∉ bodies stack
  joined : ∀ j, promise.joinState = some j →
    j < s.nextJoinState ∧ s.Alive (s.joinStates j).parent ∧
      (s.promises (s.joinStates j).parent).stateIndex = (s.joinStates j).parentIndex ∧
      (s.slotOf (s.joinStates j).parent).generation = (s.joinStates j).generation ∧
      ((awaiters (s.joinStates j).parent = .join j ∧
          (s.slotOf (s.joinStates j).parent).waiting = true) ∨
        awaiters (s.joinStates j).parent = .timeout s.adoptHandle)
  room : ∀ j, promise.joinState = some j →
    ∃ children : List Nat, children.length + 1 ≤ (s.joinStates j).remaining ∧
      ∀ c, s.Alive c → (s.promises c).joinState = some j → c ∈ children

theorem SlotsOk.adopt (ok : SlotsOk s) (promise : TaskPromise) : SlotsOk (s.adopt promise) where
  named k h handle := by
    have grown : s.stateCount ≤ (s.adopt promise).stateCount := by
      show s.stateCount ≤ if s.freeStates.isEmpty then s.stateCount + 1 else s.stateCount
      split <;> omega
    rw [Scheduler.slot_adopt] at handle
    split at handle
    · rename_i here
      subst here
      obtain rfl := (Option.some.inj handle).symm
      rw [Scheduler.promises_adopt_self]
      refine ⟨rfl, Nat.le_refl _, ?_⟩
      show s.adoptIndex < if s.freeStates.isEmpty then s.stateCount + 1 else s.stateCount
      unfold Scheduler.adoptIndex
      cases free : s.freeStates with
      | nil => exact Nat.lt_succ_self _
      | cons index rest => exact (ok.free index (free ▸ List.mem_cons_self)).2
    · obtain ⟨index, known, inside⟩ := ok.named k h handle
      have other : h ≠ s.adoptHandle := Nat.ne_of_lt (Nat.lt_succ_of_le known)
      rw [Scheduler.promises_adopt_of_ne s promise other]
      exact ⟨index, Nat.le_succ_of_le known, Nat.lt_of_lt_of_le inside grown⟩
  vacant k empty := by
    rw [Scheduler.slot_adopt] at empty ⊢
    split
    · exact ⟨rfl, rfl, rfl⟩
    · rename_i other
      rw [if_neg other] at empty
      exact ok.vacant k empty
  quiet k done := by
    rw [Scheduler.slot_adopt] at done ⊢
    split
    · exact ⟨rfl, rfl⟩
    · rename_i other
      rw [if_neg other] at done
      exact ok.quiet k done
  apart k ready := by
    rw [Scheduler.slot_adopt] at ready ⊢
    split
    · rfl
    · rename_i other
      rw [if_neg other] at ready
      exact ok.apart k ready
  free k member := by
    have grown : s.stateCount ≤ (s.adopt promise).stateCount := by
      show s.stateCount ≤ if s.freeStates.isEmpty then s.stateCount + 1 else s.stateCount
      split <;> omega
    have before : k ∈ s.freeStates := List.mem_of_mem_tail member
    obtain ⟨empty, inside⟩ := ok.free k before
    refine ⟨?_, Nat.lt_of_lt_of_le inside grown⟩
    rw [Scheduler.slot_adopt, if_neg]
    · exact empty
    · rintro rfl
      have nodup := ok.nodup
      have member' : s.adoptIndex ∈ s.freeStates.tail := member
      unfold Scheduler.adoptIndex at member'
      cases free : s.freeStates with
      | nil =>
          rw [free] at member'
          cases member'
      | cons index rest =>
          rw [free] at member' nodup
          exact (List.nodup_cons.mp nodup).1 member'
  nodup := ok.nodup.tail

theorem ControlsOk.adopt (slots : SlotsOk s) (ok : ControlsOk s) (promise : TaskPromise) :
    ControlsOk (s.adopt promise) where
  attached k attached done := by
    obtain ⟨i, h, index, handle, live, byState⟩ := ok.attached k attached done
    have kept := slot_adopt_of_some slots promise handle
    exact ⟨i, h, index, kept ▸ handle, kept ▸ live, byState⟩
  root i k byState := by
    obtain ⟨known, index, h, handle, child⟩ := ok.root i k byState
    have kept := slot_adopt_of_some slots promise handle
    have other : h ≠ s.adoptHandle :=
      Nat.ne_of_lt (Nat.lt_succ_of_le (slots.named i h handle).2.1)
    exact ⟨known, index, h, kept ▸ handle,
      (Scheduler.promises_adopt_of_ne s promise other).symm ▸ child⟩
  unused := ok.unused

theorem bound_adopt (frames : StackOk s stack awaiters) (promise : TaskPromise)
    (r : WaitRegistration) : Bound (s.adopt promise) stack r ↔ Bound s stack r := by
  have index : ∀ parent generation femtoseconds,
      Frame.timeoutStart parent generation femtoseconds ∈ stack →
        (s.adopt promise).promises parent = s.promises parent := by
    intro parent generation femtoseconds member
    have known := frames.started _ _ _ member
    exact Scheduler.promises_adopt_of_ne s promise (Nat.ne_of_lt (Nat.lt_succ_of_le known))
  constructor
  · rintro (registered | ⟨parent, generation, femtoseconds, member, same⟩)
    · exact .inl registered
    · rw [index _ _ _ member] at same
      exact .inr ⟨parent, generation, femtoseconds, member, same⟩
  · rintro (registered | ⟨parent, generation, femtoseconds, member, same⟩)
    · exact .inl registered
    · refine .inr ⟨parent, generation, femtoseconds, member, ?_⟩
      rw [index _ _ _ member]
      exact same

theorem issued_adopt (frames : StackOk s stack awaiters) (promise : TaskPromise)
    (r : WaitRegistration) : Issued (s.adopt promise) stack r ↔ Issued s stack r :=
  or_congr (bound_adopt frames promise r) Iff.rfl

theorem PostsOk.adopt (frames : StackOk s stack awaiters)
    (ok : PostsOk s stack awaiters) (promise : TaskPromise) :
    PostsOk (s.adopt promise) stack awaiters where
  bounded r issued := ok.bounded r ((issued_adopt frames promise r).mp issued)
  queued := ok.queued
  waiters := ok.waiters
  notJoin r h j issued valid handle := by
    have before := (issued_adopt frames promise r).mp issued
    obtain ⟨live, waits, generation⟩ := ((s.adopt promise).registrationValid_iff r).mp valid
    rw [Scheduler.slot_adopt] at waits generation handle
    unfold Scheduler.Live at live
    rw [Scheduler.slot_adopt] at live
    split at waits
    · cases waits
    · rename_i other
      rw [if_neg other] at generation handle live
      exact ok.notJoin r h j before ((s.registrationValid_iff r).mpr ⟨live, waits, generation⟩)
        handle
  sole := ok.sole
  own r r' external bound := ok.own r r' external ((bound_adopt frames promise r').mp bound)

theorem StackOk.adopt (slots : SlotsOk s) (ok : StackOk s stack awaiters)
    (promise : TaskPromise) : StackOk (s.adopt promise) stack awaiters where
  shaped := ok.shaped
  settled := ok.settled
  head := ok.head
  idle h member := idle_adopt slots promise (ok.idle h member)
  nodup := ok.nodup
  started parent generation femtoseconds member :=
    Nat.le_succ_of_le (ok.started parent generation femtoseconds member)

theorem TreeOk.adopt (slots : SlotsOk s) (ok : TreeOk s stack awaiters) {promise : TaskPromise}
    (adopts : Adopts s stack awaiters promise) (unsuspended : awaiters s.adoptHandle = .none) :
    TreeOk (s.adopt promise) stack awaiters where
  continued c p alive continued := by
    rcases (alive_adopt slots promise).mp alive with rfl | before
    · rw [Scheduler.promises_adopt_self] at continued
      obtain ⟨idle, suspended, away⟩ := adopts.continued p continued
      have older : p < s.adoptHandle := Nat.lt_succ_of_le (slots.bounds idle.1).1
      exact ⟨older, idle_adopt slots promise idle, suspended, away⟩
    · rw [Scheduler.promises_adopt_of_ne s promise (ne_adoptHandle slots before)] at continued
      obtain ⟨older, idle, suspended, away⟩ := ok.continued c p before continued
      exact ⟨older, idle_adopt slots promise idle, suspended, away⟩
  joined c j alive joined := by
    rcases (alive_adopt slots promise).mp alive with rfl | before
    · rw [Scheduler.promises_adopt_self] at joined
      obtain ⟨known, parent, index, generation, suspended⟩ := adopts.joined j joined
      refine ⟨known, Nat.lt_succ_of_le (slots.bounds parent).1,
        (alive_adopt slots promise).mpr (.inr parent), ?_⟩
      show ((s.adopt promise).promises (s.joinStates j).parent).stateIndex = _ ∧
        ((s.adopt promise).slotOf (s.joinStates j).parent).generation = _ ∧ (_ ∧
          ((s.adopt promise).slotOf (s.joinStates j).parent).waiting = _ ∨ _)
      rw [slotOf_adopt slots promise parent,
        Scheduler.promises_adopt_of_ne s promise (ne_adoptHandle slots parent)]
      exact ⟨index, generation, suspended⟩
    · rw [Scheduler.promises_adopt_of_ne s promise (ne_adoptHandle slots before)] at joined
      obtain ⟨known, older, parent, index, generation, suspended⟩ := ok.joined c j before joined
      refine ⟨known, older, (alive_adopt slots promise).mpr (.inr parent), ?_⟩
      show ((s.adopt promise).promises (s.joinStates j).parent).stateIndex = _ ∧
        ((s.adopt promise).slotOf (s.joinStates j).parent).generation = _ ∧ (_ ∧
          ((s.adopt promise).slotOf (s.joinStates j).parent).waiting = _ ∨ _)
      rw [slotOf_adopt slots promise parent,
        Scheduler.promises_adopt_of_ne s promise (ne_adoptHandle slots parent)]
      exact ⟨index, generation, suspended⟩
  room j := by
    by_cases here : promise.joinState = some j
    · obtain ⟨children, length, covers⟩ := adopts.room j here
      refine ⟨s.adoptHandle :: children, length, fun c alive joined => ?_⟩
      rcases (alive_adopt slots promise).mp alive with rfl | before
      · exact List.mem_cons_self
      · rw [Scheduler.promises_adopt_of_ne s promise (ne_adoptHandle slots before)] at joined
        exact List.mem_cons_of_mem _ (covers c before joined)
    · obtain ⟨children, length, covers⟩ := ok.room j
      refine ⟨children, length, fun c alive joined => ?_⟩
      rcases (alive_adopt slots promise).mp alive with rfl | before
      · rw [Scheduler.promises_adopt_self] at joined
        exact absurd joined here
      · rw [Scheduler.promises_adopt_of_ne s promise (ne_adoptHandle slots before)] at joined
        exact covers c before joined
  timed h c alive suspended := by
    rcases (alive_adopt slots promise).mp alive with rfl | before
    · rw [unsuspended] at suspended
      cases suspended
    · rw [Scheduler.promises_adopt_of_ne s promise (ne_adoptHandle slots before)]
      exact ok.timed h c before suspended
  parked h r alive suspended := by
    rcases (alive_adopt slots promise).mp alive with rfl | before
    · rw [unsuspended] at suspended
      cases suspended
    · rw [Scheduler.promises_adopt_of_ne s promise (ne_adoptHandle slots before),
        slotOf_adopt slots promise before]
      exact ok.parked h r before suspended
  fresh h new := ok.fresh h (Nat.lt_of_succ_lt new)

theorem ControlsOk.vacant (ok : ControlsOk s) {i : Nat} (empty : (s.slot i).handle = none) :
    s.processByState i = none := by
  cases byState : s.processByState i with
  | none => rfl
  | some k =>
      obtain ⟨-, -, h, handle, -⟩ := ok.root i k byState
      rw [empty] at handle
      cases handle

/-- A new coroutine whose parent, if it has one, already awaits it. -/
theorem WfAt.adopt (wf : WfAt s stack awaiters) {promise : TaskPromise}
    (adopts : Adopts s stack awaiters promise) : WfAt (s.adopt promise) stack awaiters where
  slots := wf.slots.adopt promise
  controls := wf.controls.adopt wf.slots promise
  posts := wf.posts.adopt wf.frames promise
  frames := wf.frames.adopt wf.slots promise
  tree := wf.tree.adopt wf.slots adopts (wf.tree.fresh _ (Nat.lt_succ_self _))
  awaited := by
    refine ⟨fun h c suspended => ?_, fun h c i suspended handle => ?_⟩
    · obtain ⟨older, known⟩ := wf.awaited.known h c suspended
      exact ⟨older, Nat.le_succ_of_le known⟩
    rw [Scheduler.slot_adopt] at handle
    split at handle
    · rename_i here
      subst here
      exact wf.controls.vacant wf.slots.adoptIndex_vacant
    · exact wf.awaited.rootless h c i suspended handle

/-- A coroutine suspends in a new child. -/
theorem WfAt.adopt_awaited (wf : WfAt s stack awaiters) {promise : TaskPromise} {h : Nat}
    {x : Awaiter} (childless : Childless s h) (alive : s.Alive h) (away : h ∉ bodies stack)
    (child : x = .task s.adoptHandle ∨ x = .timeout s.adoptHandle)
    (suspends : Suspends s stack h x)
    (adopts : Adopts s stack (update awaiters h x) promise) :
    WfAt (s.adopt promise) stack (update awaiters h x) := by
  have known := (wf.slots.bounds alive).1
  have other := ne_adoptHandle wf.slots alive
  have frames := wf.frames.setAwaiter (x := x) away
  have awaits : ∀ h' c, update awaiters h x h' = .task c ∨ update awaiters h x h' = .timeout c →
      (h' = h ∧ c = s.adoptHandle) ∨ awaiters h' = .task c ∨ awaiters h' = .timeout c := by
    intro h' c suspended
    by_cases same : h' = h
    · subst same
      rw [Function.update_self] at suspended
      rcases child with rfl | rfl <;> rcases suspended with same | same <;> cases same <;>
        exact .inl ⟨rfl, rfl⟩
    · rw [Function.update_of_ne same] at suspended
      exact .inr suspended
  refine ⟨wf.slots.adopt promise, wf.controls.adopt wf.slots promise,
    (wf.posts.setAwaiter suspends).adopt frames promise,
    frames.adopt wf.slots promise, ?_, ?_⟩
  · refine (wf.tree.setAwaiter childless known suspends).adopt wf.slots adopts ?_
    rw [Function.update_of_ne other.symm]
    exact wf.tree.fresh _ (Nat.lt_succ_self _)
  · refine ⟨fun h' c suspended => ?_, fun h' c i suspended handle => ?_⟩
    · rcases awaits h' c suspended with ⟨rfl, rfl⟩ | before
      · exact ⟨Nat.lt_succ_of_le known, Nat.le_refl _⟩
      · obtain ⟨older, known'⟩ := wf.awaited.known h' c before
        exact ⟨older, Nat.le_succ_of_le known'⟩
    · have root := wf.controls.vacant wf.slots.adoptIndex_vacant
      rw [Scheduler.slot_adopt] at handle
      split at handle
      · rename_i here
        subst here
        exact root
      · rcases awaits h' c suspended with ⟨-, rfl⟩ | before
        · exact absurd (wf.slots.named i _ handle).2.1 (Nat.not_succ_le_self _)
        · exact wf.awaited.rootless h' c i before handle

/-! ### Stopping -/

/-- From `s` to `t` the coroutine `h` in slot `i` is done. -/
structure Halts (s t : Scheduler) (i h : Nat) : Prop where
  others : ∀ k, k ≠ i → t.slot k = s.slot k
  handle : (t.slot i).handle = (s.slot i).handle
  done : (t.slot i).done = true
  still : (t.slot i).waiting = false
  unready : (t.slot i).ready = false
  links : ∀ h', h' ≠ h → (t.promises h').links = (s.promises h').links
  index : (t.promises h).stateIndex = (s.promises h).stateIndex
  cleared : (t.promises h).links = (s.promises h).links ∨
    Scheduler.isChild (t.promises h) = false
  joinStates : t.joinStates = s.joinStates
  nextJoinState : t.nextJoinState = s.nextJoinState
  nextControl : t.nextControl = s.nextControl
  processByState : t.processByState = s.processByState
  freeStates : t.freeStates = s.freeStates
  stateCount : t.stateCount = s.stateCount
  nextCoroutineId : t.nextCoroutineId = s.nextCoroutineId
  draining : t.draining = s.draining
  handouts : t.handouts = s.handouts
  generations : s.nextWaitGeneration ≤ t.nextWaitGeneration
  attached : ∀ k, (t.controls k).attached = (s.controls k).attached
  controlIndex : ∀ k, (t.controls k).stateIndex = (s.controls k).stateIndex
  waiter : ∀ k, (t.controls k).completionWaiter = (s.controls k).completionWaiter
  extra : ∀ k, (t.controls k).extraCompletionWaiters = (s.controls k).extraCompletionWaiters
  queued : ∀ r, t.Queued r → s.Queued r

/-- From `s` to `t` the coroutine `h` in slot `i` is done, and so is its process. -/
structure Stops (s t : Scheduler) (i h : Nat) : Prop extends Halts s t i h where
  finished : ∀ k, (t.controls k).done = false →
    (s.controls k).done = false ∧ s.processByState i ≠ some k

namespace Halts

/-- A change of one control that the invariant does not see. -/
theorem modifyControl {i h : Nat} (halts : Halts s t i h) (k : Nat)
    (change : ProcessControl → ProcessControl)
    (attached : (change (t.controls k)).attached = (t.controls k).attached)
    (index : (change (t.controls k)).stateIndex = (t.controls k).stateIndex)
    (waiter : (change (t.controls k)).completionWaiter = (t.controls k).completionWaiter)
    (extra : (change (t.controls k)).extraCompletionWaiters =
      (t.controls k).extraCompletionWaiters) : Halts s (t.modifyControl k change) i h := by
  have self : (t.modifyControl k change).controls k = change (t.controls k) :=
    Function.update_self ..
  have others : ∀ k', k' ≠ k → (t.modifyControl k change).controls k' = t.controls k' :=
    fun k' other => Function.update_of_ne other ..
  refine ⟨halts.others, halts.handle, halts.done, halts.still, halts.unready, halts.links,
    halts.index, halts.cleared, halts.joinStates, halts.nextJoinState, halts.nextControl,
    halts.processByState, halts.freeStates, halts.stateCount, halts.nextCoroutineId,
    halts.draining, halts.handouts, halts.generations, fun k' => ?_, fun k' => ?_, fun k' => ?_,
    fun k' => ?_, halts.queued⟩
  · by_cases same : k' = k
    · rw [same, self, attached, halts.attached]
    · rw [others k' same, halts.attached]
  · by_cases same : k' = k
    · rw [same, self, index, halts.controlIndex]
    · rw [others k' same, halts.controlIndex]
  · by_cases same : k' = k
    · rw [same, self, waiter, halts.waiter]
    · rw [others k' same, halts.waiter]
  · by_cases same : k' = k
    · rw [same, self, extra, halts.extra]
    · rw [others k' same, halts.extra]

variable {i h : Nat} (halts : Halts s t i h) (done : ∀ k, (t.controls k).done = (s.controls k).done)

include halts done

/-- A coroutine that is not the root of a process. -/
theorem stops_child (root : s.processByState i = none) : Stops s t i h where
  toHalts := halts
  finished k running := by
    rw [done] at running
    exact ⟨running, by simp [root]⟩

/-- The root of a process, whose control is done. -/
theorem stops_root {k : Nat} (root : s.processByState i = some k)
    (change : ProcessControl → ProcessControl)
    (attached : (change (t.controls k)).attached = (t.controls k).attached)
    (index : (change (t.controls k)).stateIndex = (t.controls k).stateIndex)
    (waiter : (change (t.controls k)).completionWaiter = (t.controls k).completionWaiter)
    (extra : (change (t.controls k)).extraCompletionWaiters =
      (t.controls k).extraCompletionWaiters)
    (finished : (change (t.controls k)).done = true) :
    Stops s (t.modifyControl k change) i h := by
  refine ⟨halts.modifyControl k change attached index waiter extra, fun k' running => ?_⟩
  by_cases same : k' = k
  · have self : (t.modifyControl k change).controls k = change (t.controls k) :=
      Function.update_self ..
    rw [same, self, finished] at running
    cases running
  · have other : (t.modifyControl k change).controls k' = t.controls k' :=
      Function.update_of_ne same ..
    rw [other, done] at running
    refine ⟨running, fun here => same ?_⟩
    rw [root] at here
    exact (Option.some.inj here).symm

end Halts

namespace Stops

variable {i h : Nat} (stops : Stops s t i h) (held : (s.slot i).handle = some h)

include stops

theorem stateIndex (h' : Nat) : (t.promises h').stateIndex = (s.promises h').stateIndex := by
  by_cases same : h' = h
  · exact same ▸ stops.index
  · exact congrArg Links.stateIndex (stops.links h' same)

theorem continuation {h' : Nat} (other : h' ≠ h) :
    (t.promises h').continuation = (s.promises h').continuation :=
  congrArg Links.continuation (stops.links h' other)

theorem joinState {h' : Nat} (other : h' ≠ h) :
    (t.promises h').joinState = (s.promises h').joinState :=
  congrArg Links.joinState (stops.links h' other)

theorem handleAt (k : Nat) : (t.slot k).handle = (s.slot k).handle := by
  by_cases same : k = i
  · exact same ▸ stops.handle
  · rw [stops.others k same]

theorem external_iff (r : WaitRegistration) : t.External r ↔ s.External r := by
  unfold Scheduler.External
  rw [stops.handouts]

theorem registered_iff (r : WaitRegistration) : t.Registered r ↔ s.Registered r := by
  unfold Scheduler.Registered
  rw [stops.handouts]

theorem bound_iff (r : WaitRegistration) : Bound t stack r ↔ Bound s stack r := by
  unfold Bound
  simp only [stops.registered_iff, stops.stateIndex]

theorem issued_iff (r : WaitRegistration) : Issued t stack r ↔ Issued s stack r :=
  or_congr (stops.bound_iff r) (stops.external_iff r)

include held

theorem slotOf_eq {h' : Nat} (alive : s.Alive h') (other : h' ≠ h) :
    t.slotOf h' = s.slotOf h' := by
  unfold Scheduler.slotOf
  rw [stops.stateIndex]
  refine stops.others _ fun same => other ?_
  have handle := alive.1
  unfold Scheduler.slotOf at handle
  rw [same, held] at handle
  exact (Option.some.inj handle).symm

/-- Exactly the stopped coroutine is no longer alive. -/
theorem alive_iff (slots : SlotsOk s) (h' : Nat) : t.Alive h' ↔ s.Alive h' ∧ h' ≠ h := by
  constructor
  · rintro ⟨handle, live⟩
    unfold Scheduler.slotOf at handle live
    rw [stops.stateIndex] at handle live
    by_cases same : (s.promises h').stateIndex = i
    · rw [same, stops.done] at live
      cases live
    · rw [stops.others _ same] at handle live
      refine ⟨⟨handle, live⟩, ?_⟩
      rintro rfl
      exact same (slots.named i h' held).1
  · rintro ⟨alive, other⟩
    unfold Scheduler.Alive
    rw [stops.slotOf_eq held alive other]
    exact alive

theorem idle (slots : SlotsOk s) {h' : Nat} (idle : s.Idle h') (other : h' ≠ h) : t.Idle h' := by
  refine ⟨(stops.alive_iff held slots h').mpr ⟨idle.1, other⟩, ?_⟩
  rw [stops.slotOf_eq held idle.1 other]
  exact idle.2

theorem slotsOk (ok : SlotsOk s) : SlotsOk t where
  named k h' handle := by
    rw [stops.handleAt] at handle
    rw [stops.stateIndex, stops.nextCoroutineId, stops.stateCount]
    exact ok.named k h' handle
  vacant k empty := by
    by_cases same : k = i
    · subst same
      rw [stops.handle, held] at empty
      cases empty
    · rw [stops.others k same] at empty ⊢
      exact ok.vacant k empty
  quiet k done := by
    by_cases same : k = i
    · subst same
      exact ⟨stops.still, stops.unready⟩
    · rw [stops.others k same] at done ⊢
      exact ok.quiet k done
  apart k ready := by
    by_cases same : k = i
    · subst same
      exact stops.still
    · rw [stops.others k same] at ready ⊢
      exact ok.apart k ready
  free k member := by
    rw [stops.freeStates] at member
    rw [stops.handleAt, stops.stateCount]
    exact ok.free k member
  nodup := by
    rw [stops.freeStates]
    exact ok.nodup

theorem controlsOk (ok : ControlsOk s) : ControlsOk t where
  attached k attached done := by
    obtain ⟨running, notHere⟩ := stops.finished k done
    obtain ⟨i', h', index, handle, live, byState⟩ :=
      ok.attached k (stops.attached k ▸ attached) running
    have other : i' ≠ i := by
      rintro rfl
      exact notHere byState
    rw [stops.controlIndex, stops.processByState]
    exact ⟨i', h', index, (stops.others i' other).symm ▸ handle,
      (stops.others i' other).symm ▸ live, byState⟩
  root i' k byState := by
    rw [stops.processByState] at byState
    obtain ⟨known, index, h', handle, child⟩ := ok.root i' k byState
    rw [stops.nextControl, stops.controlIndex, stops.handleAt]
    refine ⟨known, index, h', handle, ?_⟩
    have kept : (t.promises h').links = (s.promises h').links →
        Scheduler.isChild (t.promises h') = false := by
      intro links
      have continuation : (t.promises h').continuation = (s.promises h').continuation :=
        congrArg Links.continuation links
      have joinState : (t.promises h').joinState = (s.promises h').joinState :=
        congrArg Links.joinState links
      unfold Scheduler.isChild
      rw [continuation, joinState]
      exact child
    by_cases same : h' = h
    · subst same
      exact stops.cleared.elim kept id
    · exact kept (stops.links h' same)
  unused k new := by
    rw [stops.nextControl] at new
    rw [stops.attached]
    exact ok.unused k new

omit held in
theorem postsOk (ok : PostsOk s stack awaiters) : PostsOk t stack awaiters where
  bounded r issued := (ok.bounded r ((stops.issued_iff r).mp issued)).trans stops.generations
  queued r inQueue := (stops.registered_iff r).mpr (ok.queued r (stops.queued r inQueue))
  waiters k r waits := by
    rw [stops.waiter, stops.extra] at waits
    exact (stops.registered_iff r).mpr (ok.waiters k r waits)
  notJoin r h' j issued valid handle := by
    obtain ⟨live, waits, generation⟩ := (t.registrationValid_iff r).mp valid
    have other : r.stateIndex ≠ i := by
      intro same
      rw [same, stops.still] at waits
      cases waits
    unfold Scheduler.Live at live
    rw [stops.others _ other] at live waits generation handle
    exact ok.notJoin r h' j ((stops.issued_iff r).mp issued)
      ((s.registrationValid_iff r).mpr ⟨live, waits, generation⟩) handle
  sole r r' external external' same :=
    ok.sole r r' ((stops.external_iff r).mp external) ((stops.external_iff r').mp external') same
  own r r' external bound :=
    ok.own r r' ((stops.external_iff r).mp external) ((stops.bound_iff r').mp bound)

theorem stackOk (slots : SlotsOk s) (ok : StackOk s stack awaiters) (away : h ∉ bodies stack) :
    StackOk t stack awaiters where
  shaped := by
    rw [stops.draining]
    exact ok.shaped
  settled := ok.settled
  head := ok.head
  idle h' member := stops.idle held slots (ok.idle h' member) fun same => away (same ▸ member)
  nodup := ok.nodup
  started := by
    rw [stops.nextCoroutineId]
    exact ok.started

theorem treeOk (slots : SlotsOk s) (ok : TreeOk s stack awaiters) (childless : Childless s h) :
    TreeOk t stack awaiters where
  continued c p alive continued := by
    obtain ⟨before, other⟩ := (stops.alive_iff held slots c).mp alive
    rw [stops.continuation other] at continued
    obtain ⟨older, idle, suspended, away⟩ := ok.continued c p before continued
    refine ⟨older, stops.idle held slots idle fun same => ?_, suspended, away⟩
    exact (childless c before).1 (same ▸ continued)
  joined c j alive joined := by
    obtain ⟨before, other⟩ := (stops.alive_iff held slots c).mp alive
    rw [stops.joinState other] at joined
    obtain ⟨known, older, parent, index, generation, suspended⟩ := ok.joined c j before joined
    have parentOther := (childless c before).2 j joined
    rw [stops.nextJoinState, stops.joinStates, stops.stateIndex,
      stops.slotOf_eq held parent parentOther]
    exact ⟨known, older, (stops.alive_iff held slots _).mpr ⟨parent, parentOther⟩, index,
      generation, suspended⟩
  room j := by
    obtain ⟨children, length, covers⟩ := ok.room j
    rw [stops.joinStates]
    refine ⟨children, length, fun c alive joined => ?_⟩
    obtain ⟨before, other⟩ := (stops.alive_iff held slots c).mp alive
    rw [stops.joinState other] at joined
    exact covers c before joined
  timed h' c alive suspended := by
    obtain ⟨before, other⟩ := (stops.alive_iff held slots h').mp alive
    rw [stops.continuation other]
    exact ok.timed h' c before suspended
  parked h' r alive suspended := by
    obtain ⟨before, other⟩ := (stops.alive_iff held slots h').mp alive
    rw [stops.stateIndex, stops.slotOf_eq held before other, stops.external_iff]
    exact ok.parked h' r before suspended
  fresh h' new := by
    rw [stops.nextCoroutineId] at new
    exact ok.fresh h' new

/-- When a child is done, its join has room to count it off. -/
theorem room (slots : SlotsOk s) (ok : TreeOk s stack awaiters) (alive : s.Alive h) {j : Nat}
    (joined : (s.promises h).joinState = some j) :
    ∃ children : List Nat, children.length + 1 ≤ (s.joinStates j).remaining ∧
      ∀ c, t.Alive c → (t.promises c).joinState = some j → c ∈ children := by
  obtain ⟨children, length, covers⟩ := ok.room j
  have member := covers h alive joined
  refine ⟨children.erase h, ?_, fun c alive' joined' => ?_⟩
  · have positive := List.length_pos_of_mem member
    rw [List.length_erase_of_mem member]
    omega
  · obtain ⟨before, other⟩ := (stops.alive_iff held slots c).mp alive'
    rw [stops.joinState other] at joined'
    exact (List.mem_erase_of_ne other).mpr (covers c before joined')

end Stops

/-- A coroutine without live children is done. -/
theorem WfAt.stop (wf : WfAt s stack awaiters) {i h : Nat} (stops : Stops s t i h)
    (held : (s.slot i).handle = some h) (childless : Childless s h) (away : h ∉ bodies stack) :
    WfAt t stack awaiters where
  slots := stops.slotsOk held wf.slots
  controls := stops.controlsOk held wf.controls
  posts := stops.postsOk wf.posts
  frames := stops.stackOk held wf.slots wf.frames away
  tree := stops.treeOk held wf.slots wf.tree childless
  awaited := by
    refine ⟨fun h' c suspended => ?_, fun h' c k suspended handle => ?_⟩
    · rw [stops.nextCoroutineId]
      exact wf.awaited.known h' c suspended
    · rw [stops.handleAt] at handle
      rw [stops.processByState]
      exact wf.awaited.rootless h' c k suspended handle

/-! ### Vacating a slot -/

/-- From `s` to `t` slot `i` is vacated and its process is detached. -/
structure Frees (s t : Scheduler) (i : Nat) : Prop where
  others : ∀ k, k ≠ i → t.slot k = s.slot k
  vacated : t.slot i = ⟨none, 0, false, false, false⟩
  links : ∀ h, (t.promises h).links = (s.promises h).links
  joinStates : t.joinStates = s.joinStates
  nextJoinState : t.nextJoinState = s.nextJoinState
  nextControl : t.nextControl = s.nextControl
  byState : ∀ k, k ≠ i → t.processByState k = s.processByState k
  root : t.processByState i = none
  freeStates : t.freeStates = i :: s.freeStates
  stateCount : t.stateCount = s.stateCount
  nextCoroutineId : t.nextCoroutineId = s.nextCoroutineId
  draining : t.draining = s.draining
  handouts : t.handouts = s.handouts
  nextWaitGeneration : t.nextWaitGeneration = s.nextWaitGeneration
  attached : ∀ k, s.processByState i ≠ some k →
    (t.controls k).attached = (s.controls k).attached ∧
      (t.controls k).stateIndex = (s.controls k).stateIndex
  detached : ∀ k, s.processByState i = some k → (t.controls k).attached = false
  done : ∀ k, (t.controls k).done = (s.controls k).done
  waiter : ∀ k, (t.controls k).completionWaiter = (s.controls k).completionWaiter
  extra : ∀ k, (t.controls k).extraCompletionWaiters = (s.controls k).extraCompletionWaiters
  queued : ∀ r, t.Queued r → s.Queued r

namespace Frees

variable {i : Nat} (frees : Frees s t i) (ended : (s.slot i).done = true)

include frees

theorem stateIndex (h : Nat) : (t.promises h).stateIndex = (s.promises h).stateIndex :=
  congrArg Links.stateIndex (frees.links h)

theorem external_iff (r : WaitRegistration) : t.External r ↔ s.External r := by
  unfold Scheduler.External
  rw [frees.handouts]

theorem registered_iff (r : WaitRegistration) : t.Registered r ↔ s.Registered r := by
  unfold Scheduler.Registered
  rw [frees.handouts]

theorem bound_iff (r : WaitRegistration) : Bound t stack r ↔ Bound s stack r := by
  unfold Bound
  simp only [frees.registered_iff, frees.stateIndex]

theorem issued_iff (r : WaitRegistration) : Issued t stack r ↔ Issued s stack r :=
  or_congr (frees.bound_iff r) (frees.external_iff r)

theorem of_some {k h : Nat} (handle : (t.slot k).handle = some h) :
    k ≠ i ∧ t.slot k = s.slot k := by
  by_cases same : k = i
  · subst same
    rw [frees.vacated] at handle
    cases handle
  · exact ⟨same, frees.others k same⟩

include ended

theorem slotOf_eq {h : Nat} (alive : s.Alive h) : t.slotOf h = s.slotOf h := by
  unfold Scheduler.slotOf
  rw [frees.stateIndex]
  refine frees.others _ fun same => ?_
  have live := alive.2
  unfold Scheduler.slotOf at live
  rw [same, ended] at live
  cases live

theorem alive_iff (h : Nat) : t.Alive h ↔ s.Alive h := by
  constructor
  · rintro ⟨handle, live⟩
    unfold Scheduler.slotOf at handle live
    rw [frees.stateIndex] at handle live
    have kept := (frees.of_some handle).2
    rw [kept] at handle live
    exact ⟨handle, live⟩
  · intro alive
    unfold Scheduler.Alive
    rw [frees.slotOf_eq ended alive]
    exact alive

theorem idle {h : Nat} (idle : s.Idle h) : t.Idle h := by
  refine ⟨(frees.alive_iff ended h).mpr idle.1, ?_⟩
  rw [frees.slotOf_eq ended idle.1]
  exact idle.2

end Frees

/-- The slot of a done coroutine is vacated. -/
theorem WfAt.free (wf : WfAt s stack awaiters) {i h : Nat} (frees : Frees s t i)
    (held : (s.slot i).handle = some h) (ended : (s.slot i).done = true) :
    WfAt t stack awaiters where
  slots := by
    refine ⟨fun k h' handle => ?_, fun k empty => ?_, fun k done => ?_, fun k ready => ?_,
      fun k member => ?_, ?_⟩
    · rw [(frees.of_some handle).2] at handle
      rw [frees.stateIndex, frees.nextCoroutineId, frees.stateCount]
      exact wf.slots.named k h' handle
    · by_cases same : k = i
      · subst same
        rw [frees.vacated]
        exact ⟨rfl, rfl, rfl⟩
      · rw [frees.others k same] at empty ⊢
        exact wf.slots.vacant k empty
    · by_cases same : k = i
      · subst same
        rw [frees.vacated]
        exact ⟨rfl, rfl⟩
      · rw [frees.others k same] at done ⊢
        exact wf.slots.quiet k done
    · by_cases same : k = i
      · subst same
        rw [frees.vacated]
      · rw [frees.others k same] at ready ⊢
        exact wf.slots.apart k ready
    · rw [frees.freeStates] at member
      rw [frees.stateCount]
      rcases List.mem_cons.mp member with rfl | before
      · rw [frees.vacated]
        exact ⟨rfl, (wf.slots.named k h held).2.2⟩
      · obtain ⟨empty, inside⟩ := wf.slots.free k before
        refine ⟨?_, inside⟩
        by_cases same : k = i
        · subst same
          rw [frees.vacated]
        · rw [frees.others k same]
          exact empty
    · rw [frees.freeStates]
      refine List.nodup_cons.mpr ⟨fun member => ?_, wf.slots.nodup⟩
      rw [(wf.slots.free i member).1] at held
      cases held
  controls := by
    refine ⟨fun k attached done => ?_, fun i' k byState => ?_, fun k new => ?_⟩
    · have other : s.processByState i ≠ some k := by
        intro here
        rw [frees.detached k here] at attached
        cases attached
      obtain ⟨sameAttached, sameIndex⟩ := frees.attached k other
      obtain ⟨i', h', index, handle, live, byState⟩ :=
        wf.controls.attached k (sameAttached ▸ attached) (frees.done k ▸ done)
      have ne : i' ≠ i := by
        rintro rfl
        exact other byState
      rw [sameIndex]
      exact ⟨i', h', index, (frees.others i' ne).symm ▸ handle, (frees.others i' ne).symm ▸ live,
        (frees.byState i' ne).symm ▸ byState⟩
    · have ne : i' ≠ i := by
        rintro rfl
        rw [frees.root] at byState
        cases byState
      rw [frees.byState i' ne] at byState
      obtain ⟨known, index, h', handle, child⟩ := wf.controls.root i' k byState
      have other : s.processByState i ≠ some k := by
        intro here
        have index' := (wf.controls.root i k here).2.1
        rw [index] at index'
        exact ne (Option.some.inj index')
      have continuation : (t.promises h').continuation = (s.promises h').continuation :=
        congrArg Links.continuation (frees.links h')
      have joinState : (t.promises h').joinState = (s.promises h').joinState :=
        congrArg Links.joinState (frees.links h')
      refine ⟨frees.nextControl.symm ▸ known, (frees.attached k other).2.trans index, h',
        (frees.others i' ne).symm ▸ handle, ?_⟩
      unfold Scheduler.isChild
      rw [continuation, joinState]
      exact child
    · rw [frees.nextControl] at new
      by_cases here : s.processByState i = some k
      · exact frees.detached k here
      · exact (frees.attached k here).1.trans (wf.controls.unused k new)
  posts := by
    refine ⟨fun r issued => ?_, fun r inQueue => ?_, fun k r waits => ?_,
      fun r h' j issued valid handle => ?_, fun r r' external external' same => ?_,
      fun r r' external bound => ?_⟩
    · rw [frees.nextWaitGeneration]
      exact wf.posts.bounded r ((frees.issued_iff r).mp issued)
    · exact (frees.registered_iff r).mpr (wf.posts.queued r (frees.queued r inQueue))
    · rw [frees.waiter, frees.extra] at waits
      exact (frees.registered_iff r).mpr (wf.posts.waiters k r waits)
    · obtain ⟨live, waits, generation⟩ := (t.registrationValid_iff r).mp valid
      unfold Scheduler.Live at live
      rw [(frees.of_some handle).2] at live waits generation handle
      exact wf.posts.notJoin r h' j ((frees.issued_iff r).mp issued)
        ((s.registrationValid_iff r).mpr ⟨live, waits, generation⟩) handle
    · exact wf.posts.sole r r' ((frees.external_iff r).mp external)
        ((frees.external_iff r').mp external') same
    · exact wf.posts.own r r' ((frees.external_iff r).mp external)
        ((frees.bound_iff r').mp bound)
  frames := by
    refine ⟨?_, wf.frames.settled, wf.frames.head,
      fun h' member => frees.idle ended (wf.frames.idle h' member), wf.frames.nodup, ?_⟩
    · rw [frees.draining]
      exact wf.frames.shaped
    · rw [frees.nextCoroutineId]
      exact wf.frames.started
  tree := by
    have continuation : ∀ h', (t.promises h').continuation = (s.promises h').continuation :=
      fun h' => congrArg Links.continuation (frees.links h')
    have joinState : ∀ h', (t.promises h').joinState = (s.promises h').joinState :=
      fun h' => congrArg Links.joinState (frees.links h')
    refine ⟨fun c p alive continued => ?_, fun c j alive joined => ?_, fun j => ?_,
      fun h' c alive suspended => ?_, fun h' r alive suspended => ?_, fun h' new => ?_⟩
    · rw [continuation] at continued
      obtain ⟨older, idle, suspended, away⟩ :=
        wf.tree.continued c p ((frees.alive_iff ended c).mp alive) continued
      exact ⟨older, frees.idle ended idle, suspended, away⟩
    · rw [joinState] at joined
      obtain ⟨known, older, parent, rest⟩ :=
        wf.tree.joined c j ((frees.alive_iff ended c).mp alive) joined
      rw [frees.nextJoinState, frees.joinStates, frees.stateIndex, frees.slotOf_eq ended parent,
        frees.alive_iff ended]
      exact ⟨known, older, parent, rest⟩
    · obtain ⟨children, length, covers⟩ := wf.tree.room j
      rw [frees.joinStates]
      refine ⟨children, length, fun c alive joined => ?_⟩
      rw [joinState] at joined
      exact covers c ((frees.alive_iff ended c).mp alive) joined
    · rw [continuation]
      exact wf.tree.timed h' c ((frees.alive_iff ended h').mp alive) suspended
    · have before := (frees.alive_iff ended h').mp alive
      rw [frees.stateIndex, frees.slotOf_eq ended before, frees.external_iff]
      exact wf.tree.parked h' r before suspended
    · rw [frees.nextCoroutineId] at new
      exact wf.tree.fresh h' new
  awaited := by
    refine ⟨fun h' c suspended => ?_, fun h' c k suspended handle => ?_⟩
    · rw [frees.nextCoroutineId]
      exact wf.awaited.known h' c suspended
    · obtain ⟨ne, kept⟩ := frees.of_some handle
      rw [kept] at handle
      rw [frees.byState k ne]
      exact wf.awaited.rootless h' c k suspended handle

end Cpptb.Coro
