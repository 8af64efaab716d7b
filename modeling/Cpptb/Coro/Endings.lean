/-
Finishing and cancelling, as paths.

* `path_finish`, `path_finishJoinChild` — a coroutine leaves its body;
* `path_cancelState` — `cancel_state` ends a coroutine and everything below it in the tree, and
  nothing older (`Settles`);
* `path_reclaim`, `path_reclaimAwaited` — a done coroutine loses its slot.

`Steady` says that no coroutine comes, goes or ends: what `complete_process` does after the process is
marked done.
-/

import Cpptb.Coro.Paths

namespace Cpptb.Coro

open Function (update)

variable {κ : Type}

/-! ### Nothing comes or goes -/

/-- The same coroutines are in the same slots, and as many are done. -/
structure Steady (s t : Scheduler) : Prop where
  handle : ∀ k, (t.slot k).handle = (s.slot k).handle
  done : ∀ k, (t.slot k).done = (s.slot k).done
  promises : t.promises = s.promises
  joinStates : t.joinStates = s.joinStates
  nextCoroutineId : t.nextCoroutineId = s.nextCoroutineId
  stateCount : t.stateCount = s.stateCount

namespace Steady

variable {s t u : Scheduler}

theorem refl (s : Scheduler) : Steady s s := ⟨fun _ => rfl, fun _ => rfl, rfl, rfl, rfl, rfl⟩

theorem trans (first : Steady s t) (second : Steady t u) : Steady s u where
  handle k := (second.handle k).trans (first.handle k)
  done k := (second.done k).trans (first.done k)
  promises := second.promises.trans first.promises
  joinStates := second.joinStates.trans first.joinStates
  nextCoroutineId := second.nextCoroutineId.trans first.nextCoroutineId
  stateCount := second.stateCount.trans first.stateCount

theorem of_surroundings (around : t.surroundings = s.surroundings)
    (handle : ∀ k, (t.slot k).handle = (s.slot k).handle)
    (done : ∀ k, (t.slot k).done = (s.slot k).done) : Steady s t where
  handle := handle
  done := done
  promises := congrArg Surroundings.promises around
  joinStates := congrArg Surroundings.joinStates around
  nextCoroutineId := congrArg Surroundings.nextCoroutineId around
  stateCount := congrArg Surroundings.stateCount around

end Steady

theorem steady_endWait (s : Scheduler) (i : Nat) : Steady s (s.endWait i) := by
  refine .of_surroundings (Scheduler.surroundings_endWait s i) (fun k => ?_) fun k => ?_
  · rw [Scheduler.slot_endWait]
    split
    · rename_i same
      rw [same]
    · rfl
  · rw [Scheduler.slot_endWait]
    split
    · rename_i same
      rw [same]
    · rfl

theorem steady_makeReady (s : Scheduler) (i : Nat) (cause : ReadyCause) :
    Steady s (s.makeReady i cause) := by
  have slots : ∀ k, (s.makeReady i cause).slot k = s.slot k ∨
      (s.makeReady i cause).slot k = { s.slot k with ready := true } := by
    intro k
    unfold Scheduler.makeReady
    split
    · exact .inl rfl
    · split
      · exact .inl rfl
      · by_cases same : k = i
        · subst same
          exact .inr ((Scheduler.slot_update _ _ _ _).trans (if_pos rfl))
        · exact .inl ((Scheduler.slot_update _ _ _ _).trans (if_neg same))
  refine .of_surroundings (Scheduler.surroundings_makeReady s i cause) (fun k => ?_) fun k => ?_
  · rcases slots k with same | same <;> rw [same]
  · rcases slots k with same | same <;> rw [same]

theorem steady_resumeRegistration (s : Scheduler) (r : WaitRegistration) :
    Steady s (s.resumeRegistration r) := by
  have recorded : Steady s (s.record (.fired r)) :=
    ⟨fun _ => rfl, fun _ => rfl, rfl, rfl, rfl, rfl⟩
  have told : ∀ s : Scheduler, Steady s (s.setWinner r) := fun s =>
    .of_surroundings (Scheduler.surroundings_setWinner s r)
      (fun k => by rw [Scheduler.slot_setWinner]) fun k => by rw [Scheduler.slot_setWinner]
  unfold Scheduler.resumeRegistration
  simp only
  split
  · exact ((recorded.trans (steady_endWait _ _)).trans (told _)).trans (steady_makeReady _ _ _)
  · exact recorded

theorem steady_resumeAll (queue : List WaitRegistration) (s : Scheduler) :
    Steady s (s.resumeAll queue).1 := by
  induction queue generalizing s with
  | nil => exact .refl s
  | cons r rest ih => exact (steady_resumeRegistration s r).trans (ih _)

theorem steady_modifyControl (s : Scheduler) (k : Nat)
    (change : ProcessControl → ProcessControl) : Steady s (s.modifyControl k change) :=
  ⟨fun _ => rfl, fun _ => rfl, rfl, rfl, rfl, rfl⟩

theorem steady_resumeCompletionWaiters (s : Scheduler) (k : Nat) :
    Steady s (s.resumeCompletionWaiters k) := by
  have cleared := fun s => steady_modifyControl s k fun process =>
    { process with completionWaiter := none, extraCompletionWaiters := [] }
  unfold Scheduler.resumeCompletionWaiters
  simp only
  split
  · exact ((steady_resumeRegistration _ _).trans (steady_resumeAll _ _)).trans (cleared _)
  · exact (steady_resumeAll _ _).trans (cleared _)

theorem steady_requests (requests : List Nat) (s : Scheduler) :
    Steady s (requests.foldl Scheduler.requestCancellation s) := by
  induction requests generalizing s with
  | nil => exact .refl s
  | cons k rest ih =>
      refine Steady.trans ?_ (ih _)
      unfold Scheduler.requestCancellation
      simp only
      split
      · exact .refl s
      · exact ⟨fun _ => rfl, fun _ => rfl, rfl, rfl, rfl, rfl⟩

theorem steady_completeProcess (s : Scheduler) (k : Nat) (cancelled : Bool)
    (requests : List Nat) : Steady s (s.completeProcess k cancelled requests) := by
  have ended : Steady s (s.endProcess k cancelled) := steady_modifyControl _ _ _
  unfold Scheduler.completeProcess
  simp only
  split
  · exact .refl s
  · split
    · exact (ended.trans (steady_requests _ _)).trans (steady_resumeCompletionWaiters _ _)
    · exact ended.trans (steady_resumeCompletionWaiters _ _)

/-! ### A coroutine is done -/

namespace Scheduler

theorem slot_markDone (s : Scheduler) (i k : Nat) :
    (s.markDone i).slot k = if k = i then { s.slot i with done := true } else s.slot k :=
  slot_update _ _ _ _

theorem surroundings_markDone (s : Scheduler) (i : Nat) :
    (s.markDone i).surroundings = s.surroundings :=
  rfl

theorem endWait_of_still {s : Scheduler} {i : Nat} (still : (s.slot i).waiting = false) :
    s.endWait i = s := by
  unfold endWait
  exact if_neg (by rw [show (s.states i).waiting = false from still]; decide)

theorem clearReady_of_unready {s : Scheduler} {i : Nat} (unready : (s.slot i).ready = false) :
    s.clearReady i = s := by
  unfold clearReady
  exact if_neg (by rw [show (s.states i).ready = false from unready]; decide)

theorem slot_retireState (s : Scheduler) (i k : Nat) :
    (s.retireState i).slot k =
      if k = i then
        { s.slot i with
          generation := s.nextWaitGeneration + 1, waiting := false, ready := false, done := true }
      else s.slot k := by
  -- the state after the generation has been counted up
  have bumped : ∀ j, ({ s.endWait i with
      states := update (s.endWait i).states i
        { (s.endWait i).states i with waitGeneration := (s.endWait i).nextWaitGeneration + 1 }
      nextWaitGeneration := (s.endWait i).nextWaitGeneration + 1 } : Scheduler).slot j =
      if j = i then { s.slot i with waiting := false, generation := s.nextWaitGeneration + 1 }
      else s.slot j := by
    intro j
    have ended := slot_endWait s i j
    refine (slot_update _ _ _ _).trans ?_
    by_cases same : j = i
    · subst same
      rw [if_pos rfl] at ended
      rw [if_pos rfl, if_pos rfl, nextWaitGeneration_endWait]
      have handle := congrArg Slot.handle ended
      have waiting := congrArg Slot.waiting ended
      have ready := congrArg Slot.ready ended
      have done := congrArg Slot.done ended
      simp only [slot, CoroutineState.slot] at handle waiting ready done
      simp only [slot, CoroutineState.slot, handle, waiting, ready, done]
    · rw [if_neg same] at ended
      rw [if_neg same, if_neg same]
      exact ended
  unfold retireState
  simp only
  rw [slot_markDone, slot_clearReady, slot_clearReady, if_pos rfl, bumped, bumped, if_pos rfl]
  by_cases same : k = i
  · rw [if_pos same, if_pos same]
  · rw [if_neg same, if_neg same, if_neg same, if_neg same]

theorem surroundings_retireState (s : Scheduler) (i : Nat) :
    (s.retireState i).surroundings = s.surroundings := by
  unfold retireState
  simp only
  rw [surroundings_markDone, surroundings_clearReady]
  exact surroundings_endWait s i

theorem nextWaitGeneration_retireState (s : Scheduler) (i : Nat) :
    (s.retireState i).nextWaitGeneration = s.nextWaitGeneration + 1 := by
  unfold retireState
  simp only
  show (clearReady _ i).nextWaitGeneration = _
  rw [nextWaitGeneration_clearReady]
  show (s.endWait i).nextWaitGeneration + 1 = _
  rw [nextWaitGeneration_endWait]

end Scheduler

/-- The rest of `complete_process`, from the process being done. -/
theorem path_completion {m : Machine κ} (wf : Wf m) (k : Nat) (runs : Bool)
    (requests : List Nat) :
    Path m (m.withSched
      ((if runs then requests.foldl Scheduler.requestCancellation m.sched
        else m.sched).resumeCompletionWaiters k)) := by
  cases runs with
  | false => exact path_resumeCompletionWaiters wf k
  | true =>
      have requested := path_requestCancellations requests m
      exact requested.trans (path_resumeCompletionWaiters (requested.wf wf) k)

/-- A coroutine that is not the root of a process is done. -/
theorem path_halt_child {m : Machine κ} {p t : Scheduler} {i h : Nat} (prim : Prim m.sched p)
    (core : t.core = p.core) (halts : Halts m.sched t i h)
    (done : ∀ k, (t.controls k).done = (m.sched.controls k).done)
    (held : (m.sched.slot i).handle = some h) (childless : Childless m.sched h)
    (away : h ∉ bodies m.stack) (root : m.sched.processByState i = none) :
    Path m (m.withSched t) :=
  .prim prim core fun wf => WfAt.stop wf (halts.stops_child done root) held childless away

/-- The root of a process is done, and completes it. -/
theorem path_halt_root {m : Machine κ} (wf : Wf m) {p t : Scheduler} {i h k : Nat}
    (prim : Prim m.sched p) (core : t.core = p.core) (halts : Halts m.sched t i h)
    (done : ∀ k, (t.controls k).done = (m.sched.controls k).done)
    (held : (m.sched.slot i).handle = some h) (childless : Childless m.sched h)
    (away : h ∉ bodies m.stack) (root : m.sched.processByState i = some k)
    (cancelled : Bool) (requests : List Nat) :
    Path m (m.withSched (t.completeProcess k cancelled requests)) := by
  unfold Scheduler.completeProcess
  simp only
  split
  · rename_i already
    have same : t.modifyControl k id = t := by
      unfold Scheduler.modifyControl
      rw [id, Function.update_eq_self]
    have stops := halts.stops_root done root id rfl rfl rfl rfl already
    rw [same] at stops
    exact .prim prim core fun wf => WfAt.stop wf stops held childless away
  · have stops := halts.stops_root done root
      (fun process =>
        { process with
          done := true, cancelled := cancelled, cancellationRequested := false
          handlerOwner := if process.context.isNone then none else process.handlerOwner })
      rfl rfl rfl rfl rfl
    have ended : Path m (m.withSched (t.endProcess k cancelled)) :=
      .prim prim core fun wf => WfAt.stop wf stops held childless away
    exact ended.trans (path_completion (ended.wf wf) k _ requests)

/-! ### Finishing -/

theorem halts_markDone {s : Scheduler} {h : Nat} (idle : s.Idle h) (exception : Option Nat) :
    Halts s ((s.setException h exception).markDone (s.promises h).stateIndex)
      (s.promises h).stateIndex h where
  others k other := (Scheduler.slot_markDone _ _ k).trans (if_neg other)
  handle := by
    rw [Scheduler.slot_markDone, if_pos rfl]
    rfl
  done := by rw [Scheduler.slot_markDone, if_pos rfl]
  still := by
    rw [Scheduler.slot_markDone, if_pos rfl]
    exact idle.2.1
  unready := by
    rw [Scheduler.slot_markDone, if_pos rfl]
    exact idle.2.2
  links h' other := congrArg TaskPromise.links (Function.update_of_ne other ..)
  index := by
    rw [show ((s.setException h exception).markDone (s.promises h).stateIndex).promises h =
      { s.promises h with exception := exception } from Function.update_self ..]
  cleared := by
    rw [show ((s.setException h exception).markDone (s.promises h).stateIndex).promises h =
      { s.promises h with exception := exception } from Function.update_self ..]
    exact .inl rfl
  joinStates := rfl
  nextJoinState := rfl
  nextControl := rfl
  processByState := rfl
  freeStates := rfl
  stateCount := rfl
  nextCoroutineId := rfl
  draining := rfl
  handouts := rfl
  generations := Nat.le_refl _
  attached _ := rfl
  controlIndex _ := rfl
  waiter _ := rfl
  extra _ := rfl
  queued _ queued := queued

/-- `finish`, for a coroutine that is running. -/
theorem finish_of_idle {s : Scheduler} {h : Nat} (idle : s.Idle h) (exception : Option Nat)
    (requests : List Nat) :
    s.finish h exception requests =
      (let t := (s.setException h exception).markDone (s.promises h).stateIndex
       if Scheduler.isChild (s.promises h) then
         { t with finishedStates := t.finishedStates ++ [some (s.promises h).stateIndex] }
       else
         let t := t.finishRoot (s.promises h).stateIndex exception requests
         { t with finishedRootStates := t.finishedRootStates ++
             [some (s.promises h).stateIndex] }) := by
  obtain ⟨⟨handle, -⟩, still, unready⟩ := idle
  have promise : (s.setException h exception).promises h =
      { s.promises h with exception := exception } := Function.update_self ..
  have handle' : ((s.setException h exception).states (s.promises h).stateIndex).handle =
      some h := handle
  have still' : ((s.setException h exception).states (s.promises h).stateIndex).waiting =
      false := still
  have clear : (s.setException h exception).clearReady (s.promises h).stateIndex =
      s.setException h exception := Scheduler.clearReady_of_unready unready
  unfold Scheduler.finish
  simp only [promise, handle', still', ne_eq, not_true_eq_false, if_false, Bool.false_eq_true,
    clear]
  rfl

theorem prim_finish {s : Scheduler} {h : Nat} (idle : s.Idle h) :
    Prim s (s.markDone (s.promises h).stateIndex) := by
  refine .finish s _ ⟨⟨?_, idle.1.2⟩, idle.2⟩
  rw [show (s.slot (s.promises h).stateIndex).handle = some h from idle.1.1]
  rfl

/-- A child is not the root of a process. -/
theorem rootless_of_child {s : Scheduler} {h : Nat} (controls : ControlsOk s)
    (handle : (s.slotOf h).handle = some h)
    (child : Scheduler.isChild (s.promises h) = true) :
    s.processByState (s.promises h).stateIndex = none := by
  cases root : s.processByState (s.promises h).stateIndex with
  | none => rfl
  | some k =>
      obtain ⟨-, -, h', handle', notChild⟩ := controls.root _ k root
      have same : h' = h := Option.some.inj (handle'.symm.trans handle)
      rw [same, child] at notChild
      cases notChild

/-- A running child leaves its body. -/
theorem stops_finish {s : Scheduler} {h : Nat} (controls : ControlsOk s) (idle : s.Idle h)
    (child : Scheduler.isChild (s.promises h) = true) (exception : Option Nat)
    (requests : List Nat) :
    Stops s (s.finish h exception requests) (s.promises h).stateIndex h ∧
      (s.finish h exception requests).core = (s.markDone (s.promises h).stateIndex).core := by
  have halts := halts_markDone idle exception
  rw [finish_of_idle idle]
  simp only [child, if_true]
  refine ⟨⟨⟨halts.others, halts.handle, halts.done, halts.still, halts.unready, halts.links,
    halts.index, halts.cleared, rfl, rfl, rfl, rfl, rfl, rfl, rfl, rfl, rfl, Nat.le_refl _,
    fun _ => rfl, fun _ => rfl, fun _ => rfl, fun _ => rfl, fun _ queued => queued⟩, ?_⟩, rfl⟩
  exact (halts.stops_child (fun _ => rfl) (rootless_of_child controls idle.1.1 child)).finished

theorem path_finish {m : Machine κ} (wf : Wf m) {h : Nat} (idle : m.sched.Idle h)
    (childless : Childless m.sched h) (away : h ∉ bodies m.stack) (exception : Option Nat)
    (requests : List Nat) :
    Path m (m.withSched (m.sched.finish h exception requests)) := by
  have prim := prim_finish idle
  cases child : Scheduler.isChild (m.sched.promises h) with
  | true =>
      obtain ⟨stops, core⟩ := stops_finish wf.controls idle child exception requests
      exact .prim prim core fun wf => WfAt.stop wf stops idle.1.1 childless away
  | false =>
      have halts := halts_markDone idle exception
      rw [finish_of_idle idle]
      simp only [child, Bool.false_eq_true, if_false]
      have filed : ∀ (n : Machine κ) entries, Path n (n.withSched
          { n.sched with finishedRootStates := entries }) := fun n _ => .outside rfl rfl
      refine Path.trans ?_ (filed (m.withSched (Scheduler.finishRoot _ _ _ _)) _)
      unfold Scheduler.finishRoot
      cases root : m.sched.processByState (m.sched.promises h).stateIndex with
      | none =>
          have core : ((m.sched.setException h exception).markDone
              (m.sched.promises h).stateIndex).core =
              (m.sched.markDone (m.sched.promises h).stateIndex).core := rfl
          have ended := path_halt_child prim core halts (fun _ => rfl) idle.1.1 childless away root
          split
          · rename_i k here
            rw [show ((m.sched.setException h exception).markDone
              (m.sched.promises h).stateIndex).processByState (m.sched.promises h).stateIndex =
              none from root] at here
            cases here
          · split
            · exact ended.trans (.outside rfl rfl)
            · exact ended
      | some k =>
          split
          · rename_i k' here
            rw [show ((m.sched.setException h exception).markDone
              (m.sched.promises h).stateIndex).processByState (m.sched.promises h).stateIndex =
              some k from root] at here
            obtain rfl := Option.some.inj here
            refine path_halt_root wf prim ?_
              (halts.modifyControl k (fun process => { process with exception := exception })
                rfl rfl rfl rfl) (fun k' => ?_) idle.1.1 childless away root false requests
            · rfl
            by_cases same : k' = k
            · subst same
              rw [Scheduler.controls_modifyControl_self]
              rfl
            · rw [Scheduler.controls_modifyControl_of_ne _ _ same]
              rfl
          · rename_i here
            rw [show ((m.sched.setException h exception).markDone
              (m.sched.promises h).stateIndex).processByState (m.sched.promises h).stateIndex =
              some k from root] at here
            cases here

/-! ### Joins -/

/-- One child of a join has been counted off. -/
theorem WfAt.countOff {s : Scheduler} {stack : List (Frame κ)} {awaiters : Nat → Awaiter}
    (wf : WfAt s stack awaiters) (j : Nat) (exception : Option Nat)
    (room : ∃ children : List Nat, children.length + 1 ≤ (s.joinStates j).remaining ∧
      ∀ c, s.Alive c → (s.promises c).joinState = some j → c ∈ children) :
    WfAt (s.countOff j exception) stack awaiters := by
  have same : ∀ j', ((s.countOff j exception).joinStates j').parent = (s.joinStates j').parent ∧
      ((s.countOff j exception).joinStates j').parentIndex = (s.joinStates j').parentIndex ∧
      ((s.countOff j exception).joinStates j').generation = (s.joinStates j').generation := by
    intro j'
    unfold Scheduler.countOff
    by_cases here : j' = j
    · subst here
      simp only [Function.update_self, and_self]
    · simp only [Function.update_of_ne here, and_self]
  refine ⟨⟨wf.slots.named, wf.slots.vacant, wf.slots.quiet, wf.slots.apart, wf.slots.free,
    wf.slots.nodup⟩, ⟨wf.controls.attached, wf.controls.root, wf.controls.unused⟩,
    ⟨wf.posts.bounded, wf.posts.queued, wf.posts.waiters, wf.posts.notJoin, wf.posts.sole,
      wf.posts.own⟩,
    ⟨wf.frames.shaped, wf.frames.settled, wf.frames.head, wf.frames.idle, wf.frames.nodup,
      wf.frames.started⟩,
    ⟨wf.tree.continued, fun c j' alive joined => ?_, fun j' => ?_, wf.tree.timed, wf.tree.parked,
      wf.tree.fresh⟩, ⟨wf.awaited.known, wf.awaited.rootless⟩⟩
  · obtain ⟨sameParent, sameIndex, sameGeneration⟩ := same j'
    rw [sameParent, sameIndex, sameGeneration]
    exact wf.tree.joined c j' alive joined
  · unfold Scheduler.countOff
    by_cases here : j' = j
    · subst here
      obtain ⟨children, length, covers⟩ := room
      simp only [Function.update_self]
      exact ⟨children, Nat.le_sub_of_add_le length, covers⟩
    · simp only [Function.update_of_ne here]
      exact wf.tree.room j'

theorem rewrites_completeJoin {s : Scheduler} {i : Nat} (inside : i < s.stateCount)
    (live : (s.slot i).done = false) (generation : Nat) :
    Rewrites s (s.completeJoin i generation) i ∧
      (s.completeJoin i generation).slot i =
        { s.slot i with waiting := false, ready := true } := by
  have ended := Scheduler.slot_endWait (s.record (.joinCompleted generation)) i
  have around : ((s.record (.joinCompleted generation)).endWait i).surroundings =
      s.surroundings :=
    Scheduler.surroundings_endWait (s.record (.joinCompleted generation)) i
  have inside' : i < ((s.record (.joinCompleted generation)).endWait i).stateCount := by
    rw [show ((s.record (.joinCompleted generation)).endWait i).stateCount = s.stateCount from
      congrArg Surroundings.stateCount around]
    exact inside
  have live' : (((s.record (.joinCompleted generation)).endWait i).slot i).done = false := by
    rw [ended, if_pos rfl]
    exact live
  have self : (s.completeJoin i generation).slot i =
      { s.slot i with waiting := false, ready := true } := by
    unfold Scheduler.completeJoin
    rw [Scheduler.slot_makeReady_self _ _ inside' live', ended, if_pos rfl]
    rfl
  refine ⟨⟨(Scheduler.surroundings_makeReady _ _ _).trans around, fun k other => ?_, ?_, ?_, ?_⟩,
    self⟩
  · unfold Scheduler.completeJoin
    rw [Scheduler.slot_makeReady_of_ne _ _ other, ended, if_neg other]
    rfl
  · rw [self]
  · rw [self]
  · unfold Scheduler.completeJoin
    rw [Scheduler.nextWaitGeneration_makeReady, Scheduler.nextWaitGeneration_endWait]
    exact Nat.le_refl _

/-- The parent of a join without live children is resumed, if it is still waiting for it. -/
theorem path_resumeParent {m : Machine κ} (wf : Wf m) {join : JoinState}
    (parent : m.sched.Alive join.parent)
    (index : (m.sched.promises join.parent).stateIndex = join.parentIndex)
    (generation : (m.sched.slotOf join.parent).generation = join.generation)
    (last : ∀ j c, m.awaiters join.parent = .join j → m.sched.Alive c →
      (m.sched.promises c).joinState ≠ some j) :
    Path m (m.withSched (m.sched.resumeParent join)) := by
  obtain ⟨held, live⟩ := parent
  unfold Scheduler.slotOf at held live generation
  rw [index] at held live generation
  have inside := (wf.slots.named _ _ held).2.2
  have isLive : m.sched.Live join.parentIndex := ⟨by rw [held]; rfl, live⟩
  have notDone : ((m.sched.record (.joinCompleted join.generation)).states
    join.parentIndex).done = false := live
  unfold Scheduler.resumeParent
  simp only
  rw [if_neg (show ¬ (m.sched.record (.joinCompleted join.generation)).stateCount ≤
    join.parentIndex from Nat.not_le.mpr inside), notDone, Bool.false_or]
  cases waiting : (m.sched.slot join.parentIndex).waiting with
  | false =>
      have still : ((m.sched.record (.joinCompleted join.generation)).states
        join.parentIndex).waiting = false := waiting
      rw [still, if_pos (by decide)]
      refine .prim (.joinMissed m.sched _ _ isLive generation waiting) rfl fun wf' => ?_
      have same : (m.sched.record (.joinCompleted join.generation)).skeleton =
          m.sched.skeleton := rfl
      exact WfAt.congr same (fun _ queued => queued) wf'
  | true =>
      have waits : ((m.sched.record (.joinCompleted join.generation)).states
        join.parentIndex).waiting = true := waiting
      rw [waits, if_neg (by decide)]
      obtain ⟨rw, self⟩ := rewrites_completeJoin inside live join.generation
      refine .prim (t := m.sched.completeJoin join.parentIndex join.generation)
        (.joined m.sched _ _ isLive generation waiting) rfl fun wf' => ?_
      refine WfAt.rewrite_busy wf' rw isLive (.inl waiting) ?_ ?_ ?_ ?_ ?_
      · intro _
        exact congrArg Slot.waiting self
      · intro waits'
        exact absurd ((congrArg Slot.waiting self).symm.trans waits') Bool.false_ne_true
      · exact (congrArg Slot.generation self).trans rfl
      · intro p j c handle inJoin alive joined
        obtain rfl : p = join.parent := Option.some.inj (handle.symm.trans held)
        exact absurd joined (last j c inJoin alive)
      · exact .inr (congrArg Slot.ready self)

/-- The end of a child in a join or a timeout. -/
theorem path_finishJoinChild {m : Machine κ} (wf : Wf m) {h j : Nat} (idle : m.sched.Idle h)
    (childless : Childless m.sched h) (away : h ∉ bodies m.stack)
    (joined : (m.sched.promises h).joinState = some j) (exception exception' : Option Nat)
    (requests : List Nat) :
    Path m (m.withSched
      ((m.sched.finish h exception requests).finishJoinChild j exception')) := by
  have child : Scheduler.isChild (m.sched.promises h) = true := by
    unfold Scheduler.isChild
    rw [joined]
    exact Bool.or_true _
  obtain ⟨stops, -⟩ := stops_finish wf.controls idle child exception requests
  have finished := path_finish wf idle childless away exception requests
  obtain ⟨-, -, parent, index, generation, suspended⟩ := wf.tree.joined h j idle.1 joined
  have notSelf := (childless h idle.1).2 j joined
  have parent' := (stops.alive_iff idle.1.1 wf.slots _).mpr ⟨parent, notSelf⟩
  have atParent := stops.slotOf_eq idle.1.1 parent notSelf
  have joins := stops.joinStates
  obtain ⟨children, length, covers⟩ := stops.room idle.1.1 wf.slots wf.tree idle.1 joined
  rw [← joins] at parent index generation length parent' atParent suspended
  have index' := (stops.stateIndex ((m.sched.finish h exception requests).joinStates j).parent).trans
    index
  have generation' := (congrArg Slot.generation atParent).trans generation
  -- the scheduler after the child has been marked done
  generalize m.sched.finish h exception requests = t at *
  unfold Scheduler.finishJoinChild
  split
  · exact finished
  · have counted : Path (m.withSched t) (m.withSched (t.countOff j exception')) :=
      .admin rfl fun wf' => WfAt.countOff wf' j exception' ⟨children, length, covers⟩
    have counting := finished.trans counted
    have join : (t.countOff j exception').joinStates j = { t.joinStates j with
        exception := (t.joinStates j).exception.or exception'
        remaining := (t.joinStates j).remaining - 1 } := Function.update_self ..
    simp only [join]
    split
    · exact counting
    · rename_i none
      have zero : (t.joinStates j).remaining - 1 = 0 := Decidable.not_not.mp none
      refine counting.trans (path_resumeParent (m := m.withSched (t.countOff j exception'))
        (counting.wf wf) parent' index' generation' fun j' c inJoin alive joined' => ?_)
      -- the join the parent waits for is this one, and it has no child left
      have same : j' = j := by
        rcases suspended with ⟨inJoin', -⟩ | inTimeout
        · exact Awaiter.join.inj (inJoin.symm.trans inJoin')
        · cases inJoin.symm.trans inTimeout
      subst same
      have member := covers c alive joined'
      have empty : children = [] := List.eq_nil_of_length_eq_zero (by omega)
      rw [empty] at member
      cases member

end Cpptb.Coro
