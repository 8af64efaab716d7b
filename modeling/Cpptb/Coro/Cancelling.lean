/-
Cancelling and reclaiming, as paths.

* `path_cancelState` — `cancel_state` ends a coroutine and everything below it in the tree. The
  induction is on the depth, and for each level over the children it collected; `Settles bound` is
  what carries it: no coroutine older than `bound` ends, none comes alive, and the links of those
  that stay alive are kept, so that no child is left when a coroutine is marked done;
* `path_reclaimFinishedState`, `path_reclaimAwaited` — a done coroutine loses its slot.
-/

import Cpptb.Coro.Endings

namespace Cpptb.Coro

open Function (update)

variable {κ : Type}

/-! ### Coroutines only end -/

/-- From `s` to `t` coroutines have only ended, and none older than `bound`. -/
structure Settles (bound : Nat) (s t : Scheduler) : Prop where
  alive : ∀ c, t.Alive c → s.Alive c ∧ (t.promises c).links = (s.promises c).links
  kept : ∀ c, c < bound → s.Alive c → t.Alive c
  handle : ∀ k, (t.slot k).handle = (s.slot k).handle
  done : ∀ k, (s.slot k).done = true → (t.slot k).done = true
  stateIndex : ∀ c, (t.promises c).stateIndex = (s.promises c).stateIndex
  joinStates : t.joinStates = s.joinStates
  nextCoroutineId : t.nextCoroutineId = s.nextCoroutineId
  stateCount : t.stateCount = s.stateCount

namespace Settles

variable {bound bound' : Nat} {s t u : Scheduler}

theorem refl (bound : Nat) (s : Scheduler) : Settles bound s s :=
  ⟨fun _ alive => ⟨alive, rfl⟩, fun _ _ alive => alive, fun _ => rfl, fun _ done => done,
    fun _ => rfl, rfl, rfl, rfl⟩

theorem trans (first : Settles bound s t) (second : Settles bound t u) : Settles bound s u where
  alive c alive := by
    obtain ⟨before, links⟩ := second.alive c alive
    obtain ⟨before', links'⟩ := first.alive c before
    exact ⟨before', links.trans links'⟩
  kept c older alive := second.kept c older (first.kept c older alive)
  handle k := (second.handle k).trans (first.handle k)
  done k done := second.done k (first.done k done)
  stateIndex c := (second.stateIndex c).trans (first.stateIndex c)
  joinStates := second.joinStates.trans first.joinStates
  nextCoroutineId := second.nextCoroutineId.trans first.nextCoroutineId
  stateCount := second.stateCount.trans first.stateCount

theorem mono (settles : Settles bound s t) (less : bound' ≤ bound) : Settles bound' s t :=
  ⟨settles.alive, fun c older => settles.kept c (Nat.lt_of_lt_of_le older less), settles.handle,
    settles.done, settles.stateIndex, settles.joinStates, settles.nextCoroutineId,
    settles.stateCount⟩

theorem of_steady (steady : Steady s t) (bound : Nat) : Settles bound s t := by
  have alive : ∀ c, t.Alive c ↔ s.Alive c := by
    intro c
    unfold Scheduler.Alive Scheduler.slotOf
    rw [steady.promises, steady.handle, steady.done]
  refine ⟨fun c here => ⟨(alive c).mp here, ?_⟩, fun c _ here => (alive c).mpr here,
    steady.handle, fun k done => ?_, fun c => ?_, steady.joinStates, steady.nextCoroutineId,
    steady.stateCount⟩
  · rw [steady.promises]
  · rw [steady.done]
    exact done
  · rw [steady.promises]

theorem of_halts {i h : Nat} (slots : SlotsOk s) (halts : Halts s t i h)
    (held : (s.slot i).handle = some h) : Settles h s t := by
  have stateIndex : ∀ h', (t.promises h').stateIndex = (s.promises h').stateIndex := by
    intro h'
    by_cases same : h' = h
    · exact same ▸ halts.index
    · exact congrArg Links.stateIndex (halts.links h' same)
  have others : ∀ c, s.Alive c → c ≠ h → t.slotOf c = s.slotOf c := by
    intro c alive other
    unfold Scheduler.slotOf
    rw [stateIndex]
    refine halts.others _ fun same => other ?_
    have handle := alive.1
    unfold Scheduler.slotOf at handle
    rw [same, held] at handle
    exact (Option.some.inj handle).symm
  refine ⟨fun c alive => ?_, fun c older alive => ?_, fun k => ?_, fun k done => ?_, stateIndex,
    halts.joinStates, halts.nextCoroutineId, halts.stateCount⟩
  · obtain ⟨handle, live⟩ := alive
    unfold Scheduler.slotOf at handle live
    rw [stateIndex] at handle live
    have other : (s.promises c).stateIndex ≠ i := by
      intro same
      rw [same, halts.done] at live
      cases live
    rw [halts.others _ other] at handle live
    refine ⟨⟨handle, live⟩, halts.links c ?_⟩
    rintro rfl
    exact other (slots.named i c held).1
  · unfold Scheduler.Alive
    rw [others c alive (Nat.ne_of_lt older)]
    exact alive
  · by_cases same : k = i
    · exact same ▸ halts.handle
    · rw [halts.others k same]
  · by_cases same : k = i
    · exact same ▸ halts.done
    · rw [halts.others k same]
      exact done

end Settles

/-! ### One coroutine is cancelled -/

theorem halts_retire {s : Scheduler} {i h : Nat} (slots : SlotsOk s)
    (held : (s.slot i).handle = some h) : Halts s ((s.retireState i).orphan h) i h := by
  have around := Scheduler.surroundings_retireState s i
  have self := Scheduler.slot_retireState s i i
  rw [if_pos rfl] at self
  have promises : (s.retireState i).promises = s.promises :=
    congrArg Surroundings.promises around
  have controls : (s.retireState i).controls = s.controls :=
    congrArg Surroundings.controls around
  have posted : (s.retireState i).posted = s.posted := congrArg Surroundings.posted around
  have orphaned : ((s.retireState i).orphan h).promises h =
      { s.promises h with continuation := none, joinState := none } := by
    unfold Scheduler.orphan
    rw [promises]
    exact Function.update_self ..
  refine ⟨fun k other => ?_, ?_, ?_, ?_, ?_, fun h' other => ?_, ?_, ?_,
    congrArg Surroundings.joinStates around, congrArg Surroundings.nextJoinState around,
    congrArg Surroundings.nextControl around, congrArg Surroundings.processByState around,
    congrArg Surroundings.freeStates around, congrArg Surroundings.stateCount around,
    congrArg Surroundings.nextCoroutineId around, congrArg Surroundings.draining around,
    congrArg Surroundings.handouts around, ?_, fun k => ?_, fun k => ?_, fun k => ?_, fun k => ?_,
    fun r queued => ?_⟩
  · exact (Scheduler.slot_retireState s i k).trans (if_neg other)
  · exact (congrArg Slot.handle self).trans rfl
  · exact (congrArg Slot.done self).trans rfl
  · exact (congrArg Slot.waiting self).trans rfl
  · exact (congrArg Slot.ready self).trans rfl
  · have kept : ((s.retireState i).orphan h).promises h' = s.promises h' := by
      unfold Scheduler.orphan
      rw [promises]
      exact Function.update_of_ne other ..
    rw [kept]
  · rw [orphaned]
  · rw [orphaned]
    exact .inr rfl
  · exact (Nat.le_succ _).trans (Nat.le_of_eq (Scheduler.nextWaitGeneration_retireState s i).symm)
  · exact congrArg (fun controls => (controls k).attached) controls
  · exact congrArg (fun controls => (controls k).stateIndex) controls
  · exact congrArg (fun controls => (controls k).completionWaiter) controls
  · exact congrArg (fun controls => (controls k).extraCompletionWaiters) controls
  · have queued' : (s.retireState i).Queued r := queued
    unfold Scheduler.Queued at queued' ⊢
    rwa [posted] at queued'

/-- A coroutine without live children is cancelled. -/
theorem path_retire {m : Machine κ} (wf : Wf m) {i h : Nat}
    (held : (m.sched.slot i).handle = some h) (live : (m.sched.slot i).done = false)
    (childless : Childless m.sched h) (away : h ∉ bodies m.stack) :
    Path m (m.withSched (m.sched.retire i)) ∧ Settles h m.sched (m.sched.retire i) ∧
      ((m.sched.retire i).slot i).done = true := by
  have around := Scheduler.surroundings_retireState m.sched i
  have halts := halts_retire wf.slots held
  have isLive : m.sched.Live i := ⟨by rw [held]; rfl, live⟩
  have prim : Prim m.sched (m.sched.retireState i) := .retire m.sched i isLive
  have core : ((m.sched.retireState i).orphan h).core = (m.sched.retireState i).core := rfl
  have done : ∀ k, (((m.sched.retireState i).orphan h).controls k).done =
      (m.sched.controls k).done := fun k =>
    congrArg (fun controls => (controls k).done) (congrArg Surroundings.controls around)
  have byState : ((m.sched.retireState i).orphan h).processByState = m.sched.processByState :=
    congrArg Surroundings.processByState around
  have handle : (m.sched.retireState i).handleAt i = h := by
    have self := Scheduler.slot_retireState m.sched i i
    rw [if_pos rfl] at self
    have held' : ((m.sched.retireState i).states i).handle = some h :=
      (congrArg Slot.handle self).trans held
    unfold Scheduler.handleAt
    rw [held']
    rfl
  have filed : ∀ (n : Machine κ) (t : Scheduler), Path n (n.withSched t) →
      Settles h n.sched t → (t.slot i).done = true →
      ∀ (child : Bool), Path n (n.withSched
        (if child then { t with finishedStates := t.finishedStates ++ [some i] }
        else { t with finishedRootStates := t.finishedRootStates ++ [some i] })) ∧
      Settles h n.sched
        (if child then { t with finishedStates := t.finishedStates ++ [some i] }
        else { t with finishedRootStates := t.finishedRootStates ++ [some i] }) ∧
      ((if child then ({ t with finishedStates := t.finishedStates ++ [some i] } : Scheduler)
        else { t with finishedRootStates := t.finishedRootStates ++ [some i] }).slot i).done =
          true := by
    intro n t path settles done child
    cases child with
    | true =>
        exact ⟨path.trans (.outside (m := n.withSched t) rfl rfl), ⟨settles.alive, settles.kept,
          settles.handle, settles.done, settles.stateIndex, settles.joinStates,
          settles.nextCoroutineId, settles.stateCount⟩, done⟩
    | false =>
        exact ⟨path.trans (.outside (m := n.withSched t) rfl rfl), ⟨settles.alive, settles.kept,
          settles.handle, settles.done, settles.stateIndex, settles.joinStates,
          settles.nextCoroutineId, settles.stateCount⟩, done⟩
  unfold Scheduler.retire
  simp only [handle, byState]
  cases root : m.sched.processByState i with
  | none =>
      exact filed m _ (path_halt_child prim core halts done held childless away root)
        (.of_halts wf.slots halts held) halts.done _
  | some k =>
      have steady := steady_completeProcess ((m.sched.retireState i).orphan h) k true []
      refine filed m _ (path_halt_root wf prim core halts done held childless away root true [])
        ((Settles.of_halts wf.slots halts held).trans (.of_steady steady h)) ?_ _
      rw [steady.done]
      exact halts.done

/-! ### A tree of coroutines is cancelled -/

/-- A live child is among the children `cancel_state` collects. -/
theorem mem_childrenOf {m : Machine κ} (wf : Wf m) {i h c : Nat}
    (held : (m.sched.slot i).handle = some h) (alive : m.sched.Alive c)
    (child : (m.sched.promises c).continuation = some h ∨
      ∃ j, (m.sched.promises c).joinState = some j ∧ (m.sched.joinStates j).parent = h) :
    (m.sched.promises c).stateIndex ∈ m.sched.childrenOf i ∧ h < c := by
  have index := (wf.slots.named i h held).1
  have older : h < c := by
    rcases child with continued | ⟨j, joined, parent⟩
    · exact (wf.tree.continued c h alive continued).1
    · exact parent ▸ (wf.tree.joined c j alive joined).2.1
  have handle : (m.sched.states (m.sched.promises c).stateIndex).handle = some c := alive.1
  have live : (m.sched.states (m.sched.promises c).stateIndex).done = false := alive.2
  have held' : (m.sched.states i).handle = some h := held
  have other : (m.sched.promises c).stateIndex ≠ i := by
    intro same
    rw [same, held'] at handle
    exact Nat.ne_of_lt older (Option.some.inj handle)
  refine ⟨List.mem_filter.mpr ⟨List.mem_range.mpr (wf.slots.bounds alive).2, ?_⟩, older⟩
  simp only [handle, live, held', bne_iff_ne.mpr other, Bool.not_false, Bool.true_and]
  rcases child with continued | ⟨j, joined, parent⟩
  · rw [continued]
    simp
  · have parentIndex : (m.sched.joinStates j).parentIndex = i := by
      have indexed := (wf.tree.joined c j alive joined).2.2.2.1
      rw [parent, index] at indexed
      exact indexed.symm
    rw [joined]
    simp [parentIndex]

/-- The slots `cancel_state` collects hold live children. -/
theorem of_mem_childrenOf {m : Machine κ} (wf : Wf m) {i h x : Nat}
    (held : (m.sched.slot i).handle = some h) (live : (m.sched.slot i).done = false)
    (member : x ∈ m.sched.childrenOf i) : ∃ c, (m.sched.slot x).handle = some c ∧ h < c := by
  obtain ⟨-, test⟩ := List.mem_filter.mp member
  cases handle : (m.sched.states x).handle with
  | none => simp [handle] at test
  | some c =>
      have held' : (m.sched.states i).handle = some h := held
      simp only [handle, held', Bool.and_eq_true, Bool.or_eq_true, beq_iff_eq,
        Bool.not_eq_true'] at test
      obtain ⟨-, liveChild, child⟩ := test
      have alive : m.sched.Alive c := wf.slots.aliveAt handle liveChild
      refine ⟨c, handle, ?_⟩
      rcases child with continued | joined
      · exact (wf.tree.continued c h alive continued).1
      · split at joined
        · rename_i j inJoin
          obtain ⟨-, older, parent, index, -, -⟩ := wf.tree.joined c j alive inJoin
          rw [beq_iff_eq] at joined
          have same : (m.sched.joinStates j).parent = h := by
            refine parent.separate (wf.slots.aliveAt held live) ?_
            rw [index, joined, (wf.slots.named i h held).1]
          exact same ▸ older
        · cases joined

/-- **Cancelling a coroutine** ends it and everything below it. -/
theorem path_cancelStateTo (depth : Nat) {m : Machine κ} (wf : Wf m) {i h : Nat}
    (held : (m.sched.slot i).handle = some h)
    (deep : m.sched.nextCoroutineId < h + depth) (away : ∀ b ∈ bodies m.stack, b < h) :
    Path m (m.withSched (Scheduler.cancelStateTo depth m.sched i)) ∧
      Settles h m.sched (Scheduler.cancelStateTo depth m.sched i) ∧
      ((Scheduler.cancelStateTo depth m.sched i).slot i).done = true := by
  induction depth generalizing m i h with
  | zero =>
      exact absurd (wf.slots.named i h held).2.1 (Nat.not_le.mpr deep)
  | succ depth ih =>
      unfold Scheduler.cancelStateTo
      rw [if_neg (Nat.not_le.mpr (wf.slots.named i h held).2.2)]
      cases live : (m.sched.states i).done with
      | true =>
          rw [if_pos rfl]
          exact ⟨.refl m, .refl h m.sched, live⟩
      | false =>
          rw [if_neg Bool.false_ne_true]
          -- the children, one after the other
          have children : ∀ (list : List Nat) (n : Machine κ), Wf n → n.stack = m.stack →
              n.sched.nextCoroutineId = m.sched.nextCoroutineId →
              (∀ x ∈ list, ∃ c, (n.sched.slot x).handle = some c ∧ h < c) →
              Path n (n.withSched (list.foldl (Scheduler.cancelStateTo depth) n.sched)) ∧
              Settles (h + 1) n.sched (list.foldl (Scheduler.cancelStateTo depth) n.sched) ∧
              ∀ x ∈ list,
                ((list.foldl (Scheduler.cancelStateTo depth) n.sched).slot x).done = true := by
            intro list
            induction list with
            | nil => exact fun n _ _ _ _ => ⟨.refl n, .refl _ _, fun x member => by cases member⟩
            | cons x rest ihList =>
                intro n wfN stack ids handles
                obtain ⟨c, handle, older⟩ := handles x List.mem_cons_self
                obtain ⟨path, settles, done⟩ := ih wfN handle
                  (by rw [ids]; omega) fun b member => (away b (stack ▸ member)).trans older
                obtain ⟨path', settles', done'⟩ := ihList _ (path.wf wfN) stack
                  (settles.nextCoroutineId.trans ids) fun y member => by
                    obtain ⟨c', handle', older'⟩ := handles y (List.mem_cons_of_mem _ member)
                    exact ⟨c', (settles.handle y).trans handle', older'⟩
                refine ⟨path.trans path', (settles.mono older).trans settles', fun y member => ?_⟩
                rcases List.mem_cons.mp member with rfl | later
                · exact settles'.done y done
                · exact done' y later
          obtain ⟨path, settles, done⟩ := children (m.sched.childrenOf i) m wf rfl rfl
            fun x member => of_mem_childrenOf wf held live member
          have wf' := path.wf wf
          have alive : m.sched.Alive h := wf.slots.aliveAt held live
          have alive' := settles.kept h (Nat.lt_succ_self h) alive
          have index := (wf.slots.named i h held).1
          have live' : (((m.sched.childrenOf i).foldl (Scheduler.cancelStateTo depth)
              m.sched).slot i).done = false := by
            have still := alive'.2
            unfold Scheduler.slotOf at still
            rw [settles.stateIndex, index] at still
            exact still
          have childless : Childless ((m.sched.childrenOf i).foldl
              (Scheduler.cancelStateTo depth) m.sched) h := by
            intro c aliveChild
            obtain ⟨before, links⟩ := settles.alive c aliveChild
            have ended : (m.sched.promises c).stateIndex ∈ m.sched.childrenOf i → False := by
              intro member
              have still := aliveChild.2
              unfold Scheduler.slotOf at still
              rw [settles.stateIndex, done _ member] at still
              cases still
            refine ⟨fun continued => ?_, fun j joined parent => ?_⟩
            · exact ended (mem_childrenOf wf held before
                (.inl ((congrArg Links.continuation links).symm.trans continued))).1
            · rw [settles.joinStates] at parent
              exact ended (mem_childrenOf wf held before
                (.inr ⟨j, (congrArg Links.joinState links).symm.trans joined, parent⟩)).1
          obtain ⟨path', settles', done'⟩ := path_retire wf' ((settles.handle i).trans held) live'
            childless fun member => Nat.lt_irrefl h (away h member)
          exact ⟨path.trans path', (settles.mono (Nat.le_succ h)).trans settles', done'⟩

theorem path_cancelState {m : Machine κ} (wf : Wf m) {i h : Nat}
    (held : (m.sched.slot i).handle = some h) (away : ∀ b ∈ bodies m.stack, b < h) :
    Path m (m.withSched (m.sched.cancelState i)) ∧ Settles h m.sched (m.sched.cancelState i) ∧
      ((m.sched.cancelState i).slot i).done = true :=
  path_cancelStateTo _ wf held (by omega) away

/-- A control is cancelled while no coroutine runs. -/
theorem path_cancelProcess {m : Machine κ} (wf : Wf m) {k : Nat}
    (attached : (m.sched.controls k).attached = true) (running : (m.sched.controls k).done = false)
    (none : bodies m.stack = []) : Path m (m.withSched (m.sched.cancelProcess k)) := by
  obtain ⟨i, h, index, held, -, -⟩ := wf.controls.attached k attached running
  have requested : Path m (m.withSched (m.sched.modifyControl k fun process =>
      { process with cancellationRequested := true })) :=
    path_modifyControl k _ rfl rfl (fun done => done) fun wf r waits => wf.posts.waiters k r waits
  have away : ∀ b ∈ bodies m.stack, b < h := by
    rw [none]
    exact fun b member => absurd member List.not_mem_nil
  have cancelled := path_cancelState (requested.wf wf) held away
  unfold Scheduler.cancelProcess
  simp only [index]
  exact (requested.trans cancelled.1).trans (path_touchTimers _)

theorem path_applyCancellation {m : Machine κ} (wf : Wf m) (k : Nat)
    (none : bodies m.stack = []) : Path m (m.withSched (m.sched.applyCancellation k)) := by
  unfold Scheduler.applyCancellation
  simp only
  split
  · exact .refl m
  · rename_i guard
    simp only [Bool.or_eq_true, Bool.not_eq_true', not_or, Bool.not_eq_false,
      Bool.not_eq_true] at guard
    obtain ⟨i, h, index, held, -, -⟩ := wf.controls.attached k guard.1 guard.2
    simp only [index]
    have away : ∀ b ∈ bodies m.stack, b < h := by
      rw [none]
      exact fun b member => absurd member List.not_mem_nil
    have cancelled := path_cancelState wf held away
    exact cancelled.1.trans (path_touchTimers _)

theorem path_applyPendingCancellations {m : Machine κ} (wf : Wf m) (none : bodies m.stack = []) :
    Path m (m.withSched m.sched.applyPendingCancellations) := by
  have each : ∀ (requests : List Nat) (n : Machine κ), Wf n → bodies n.stack = [] →
      Path n (n.withSched (requests.foldl Scheduler.applyCancellation n.sched)) := by
    intro requests
    induction requests with
    | nil => exact fun n _ _ => .refl n
    | cons k rest ih =>
        intro n wfN none
        have one := path_applyCancellation wfN k none
        exact one.trans (ih _ (one.wf wfN) none)
  unfold Scheduler.applyPendingCancellations
  exact (each m.sched.pendingCancellations m wf none).trans (.outside rfl rfl)

/-! ### Vacating a slot -/

theorem slot_freeState (s : Scheduler) (i k : Nat) :
    (s.freeState i).slot k = if k = i then ⟨none, 0, false, false, false⟩ else s.slot k :=
  Scheduler.slot_update _ _ _ _

/-- `reclaim_awaited`, for a coroutine that is done. -/
theorem path_reclaimAwaited {m : Machine κ} (wf : Wf m) {c : Nat}
    (done : m.sched.awaitedDone c = true)
    (root : m.sched.processByState (m.sched.promises c).stateIndex = none) :
    Path m (m.withSched (m.sched.reclaimAwaited c)) := by
  have held : (m.sched.slot (m.sched.promises c).stateIndex).handle = some c := by
    unfold Scheduler.awaitedDone Scheduler.stateMatches at done
    rw [Bool.and_eq_true, beq_iff_eq] at done
    exact done.1
  have ended : (m.sched.slot (m.sched.promises c).stateIndex).done = true := by
    unfold Scheduler.awaitedDone at done
    rw [Bool.and_eq_true] at done
    exact done.2
  unfold Scheduler.reclaimAwaited
  simp only [done, Bool.not_true, Bool.false_eq_true, if_false]
  refine .prim (.free m.sched (m.sched.promises c).stateIndex ended) rfl fun wf => ?_
  refine WfAt.free wf ?_ held ended
  refine ⟨fun k other => (slot_freeState _ _ k).trans (if_neg other),
    (slot_freeState _ _ _).trans (if_pos rfl), fun _ => rfl, rfl, rfl, rfl, fun _ _ => rfl, root,
    rfl, rfl, rfl, rfl, rfl, rfl, fun _ _ => ⟨rfl, rfl⟩, fun k here => ?_, fun _ => rfl,
    fun _ => rfl, fun _ => rfl, fun _ queued => queued⟩
  rw [root] at here
  cases here

theorem controls_detachControl (s : Scheduler) (k k' : Nat) :
    (s.detachControl k).controls k' =
      if k' = k then
        { s.controls k with
          attached := false, stateIndex := none, schedulerSlot := none
          handlerOwner := if (s.controls k).context.isSome then none
            else (s.controls k).handlerOwner }
      else s.controls k' := by
  have changed : (s.detachControl k).controls = (s.modifyControl k fun process =>
      { process with
        attached := false, stateIndex := none, schedulerSlot := none
        handlerOwner := if process.context.isSome then none
          else process.handlerOwner }).controls := by
    unfold Scheduler.detachControl
    simp only
    split
    · rfl
    · split <;> rfl
  rw [changed]
  by_cases same : k' = k
  · rw [if_pos same, same, Scheduler.controls_modifyControl_self]
  · rw [if_neg same, Scheduler.controls_modifyControl_of_ne _ _ same]

theorem skeleton_detachControl (s : Scheduler) (k : Nat) :
    (s.detachControl k).skeleton =
      { s.skeleton with controls := fun k' => ((s.detachControl k).controls k').part } ∧
    (s.detachControl k).core = s.core := by
  unfold Scheduler.detachControl
  simp only
  split
  · exact ⟨rfl, rfl⟩
  · split <;> exact ⟨rfl, rfl⟩

/-- `reclaim_finished_state`. -/
theorem path_reclaimFinishedState {m : Machine κ} (entry : Option Nat) :
    Path m (m.withSched (m.sched.reclaimFinishedState entry).1) := by
  unfold Scheduler.reclaimFinishedState
  cases entry with
  | none => exact .refl m
  | some i =>
      simp only
      split
      · exact .refl m
      · rename_i h held
        split
        · exact .refl m
        · rename_i guard
          have ended : (m.sched.states i).done = true := by simpa using guard
          simp only
          cases root : m.sched.processByState i with
          | none =>
              refine .prim (.free m.sched i ended) rfl fun wf => WfAt.free wf ?_ held ended
              refine ⟨fun k other => (slot_freeState _ _ k).trans (if_neg other),
                (slot_freeState _ _ _).trans (if_pos rfl), fun _ => rfl, rfl, rfl, rfl,
                fun k other => Function.update_of_ne other .., Function.update_self .., rfl, rfl,
                rfl, rfl, rfl, rfl, fun _ _ => ⟨rfl, rfl⟩, fun k here => ?_, fun _ => rfl,
                fun _ => rfl, fun _ => rfl, fun _ queued => queued⟩
              rw [root] at here
              cases here
          | some k =>
              simp only
              generalize freed : ({ m.sched with
                processByState := update m.sched.processByState i none } : Scheduler).freeState i =
                t
              obtain ⟨skeleton, core⟩ := skeleton_detachControl t k
              have controls : t.controls = m.sched.controls := by rw [← freed]; rfl
              have posted : ∀ r, (t.detachControl k).Queued r → m.sched.Queued r := by
                intro r queued
                have edges : (t.detachControl k).edges = t.edges := congrArg Core.edges core
                have phases : (t.detachControl k).phases = t.phases := congrArg Core.phases core
                have timers : (t.detachControl k).timers = t.timers := congrArg Core.timers core
                unfold Scheduler.Queued Scheduler.posted at queued
                rw [edges, phases, timers, ← freed] at queued
                exact queued
              have freedCore : t.core = (m.sched.freeState i).core := by rw [← freed]; rfl
              refine .prim (.free m.sched i ended) (core.trans freedCore) fun wf =>
                WfAt.free wf ?_ held ended
              have slots : (t.detachControl k).slot = t.slot :=
                congrArg Skeleton.slot skeleton
              have links : ∀ h, ((t.detachControl k).promises h).links = (t.promises h).links :=
                fun h => congrFun (congrArg Skeleton.links skeleton) h
              have byState : (t.detachControl k).processByState = t.processByState :=
                congrArg Skeleton.processByState skeleton
              refine ⟨fun k' other => ?_, ?_, fun h' => (links h').trans ?_,
                (congrArg Skeleton.joinStates skeleton).trans ?_,
                (congrArg Skeleton.nextJoinState skeleton).trans ?_,
                (congrArg Skeleton.nextControl skeleton).trans ?_, fun k' other => ?_, ?_,
                (congrArg Skeleton.freeStates skeleton).trans ?_,
                (congrArg Skeleton.stateCount skeleton).trans ?_,
                (congrArg Skeleton.nextCoroutineId skeleton).trans ?_,
                (congrArg Skeleton.draining skeleton).trans ?_,
                (congrArg Skeleton.handouts skeleton).trans ?_,
                (congrArg Skeleton.nextWaitGeneration skeleton).trans ?_, fun k' other => ?_,
                fun k' here => ?_, fun k' => ?_, fun k' => ?_, fun k' => ?_, posted⟩
              · show (t.detachControl k).slot k' = _
                rw [slots, ← freed]
                exact (slot_freeState _ _ k').trans (if_neg other)
              · show (t.detachControl k).slot i = _
                rw [slots, ← freed]
                exact (slot_freeState _ _ _).trans (if_pos rfl)
              · rw [← freed]
                rfl
              · rw [← freed]
                rfl
              · rw [← freed]
                rfl
              · rw [← freed]
                rfl
              · show (t.detachControl k).processByState k' = _
                rw [byState, ← freed]
                exact Function.update_of_ne other ..
              · show (t.detachControl k).processByState i = _
                rw [byState, ← freed]
                exact Function.update_self ..
              · rw [← freed]
                rfl
              · rw [← freed]
                rfl
              · rw [← freed]
                rfl
              · rw [← freed]
                rfl
              · rw [← freed]
                rfl
              · rw [← freed]
                rfl
              · have ne : k' ≠ k := fun same => other (root.trans (congrArg some same.symm))
                show ((t.detachControl k).controls k').attached = _ ∧
                  ((t.detachControl k).controls k').stateIndex = _
                rw [controls_detachControl, if_neg ne, controls]
                exact ⟨rfl, rfl⟩
              · obtain rfl : k = k' := Option.some.inj (root.symm.trans here)
                show ((t.detachControl k).controls k).attached = _
                rw [controls_detachControl, if_pos rfl]
              · show ((t.detachControl k).controls k').done = _
                rw [controls_detachControl, controls]
                split
                · rename_i same
                  rw [same]
                · rfl
              · show ((t.detachControl k).controls k').completionWaiter = _
                rw [controls_detachControl, controls]
                split
                · rename_i same
                  rw [same]
                · rfl
              · show ((t.detachControl k).controls k').extraCompletionWaiters = _
                rw [controls_detachControl, controls]
                split
                · rename_i same
                  rw [same]
                · rfl

end Cpptb.Coro
