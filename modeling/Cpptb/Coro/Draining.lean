/-
Draining and reclaiming, as paths.

* `WfAt.startDrain`, `WfAt.endDrain` — the drain loop is entered and left;
* `WfAt.enter` — a ready coroutine is resumed;
* `path_drainNext`, `path_drainResumed` — the two halves of an iteration of `drain_ready_queue`;
* `path_collectFinished`, `path_collectNext` — `collect_finished`;
* `path_drainOrBoundary` — the end of the calls of the host.
-/

import Cpptb.Coro.Children

namespace Cpptb.Coro

open Function (update)

variable {κ : Type}

/-! ### Drains and boundaries -/

/-- Where no body is, every activation is settled. -/
theorem settled_of_bodies {stack : List (Frame κ)} {awaiters : Nat → Awaiter}
    (none : bodies stack = []) : ∀ f ∈ stack, f.Settled awaiters := by
  intro f member
  have noBody : f.bodyHandle = Option.none := by
    cases handle : f.bodyHandle with
    | none => rfl
    | some h =>
        have here : h ∈ bodies stack := List.mem_filterMap.mpr ⟨f, member, handle⟩
        rw [none] at here
        cases here
  cases f with
  | body h e => cases noBody
  | inlineRun h _ _ _ => cases noBody
  | inlineEnd h _ => cases noBody
  | destroying _ => trivial
  | drain _ => trivial
  | collect _ _ => trivial
  | reclaimed => trivial
  | boundary _ => trivial
  | timeoutStart _ _ _ => trivial
  | object _ => trivial

theorem bodies_cons_drain (rest : List (Frame κ))
    (resuming : Option (Option ExecutionContext × Option Nat)) :
    bodies (.drain resuming :: rest) = bodies rest := rfl

theorem WfAt.swap_drain {s : Scheduler} {rest : List (Frame κ)} {awaiters : Nat → Awaiter}
    {x : Option (Option ExecutionContext × Option Nat)}
    (wf : WfAt s (.drain x :: rest) awaiters)
    (y : Option (Option ExecutionContext × Option Nat)) : WfAt s (.drain y :: rest) awaiters := by
  refine wf.restack ⟨wf.frames.shaped.1, wf.frames.shaped.2⟩ wf.settledBelow ?_ wf.frames.idle
    wf.frames.nodup ?_ (fun h member => .inl member) fun h member => .inl member
  · intro f top
    obtain rfl : (.drain y : Frame κ) = f := Option.some.inj top
    exact .inl trivial
  · intro parent generation femtoseconds member
    rcases List.mem_cons.mp member with same | lower
    · cases same
    · exact List.mem_cons_of_mem _ lower

/-- Below a drain there is no body. -/
theorem WfAt.below_drain {s : Scheduler} {rest : List (Frame κ)} {awaiters : Nat → Awaiter}
    {x : Option (Option ExecutionContext × Option Nat)}
    (wf : WfAt s (.drain x :: rest) awaiters) :
    Shaped false rest ∧ bodies rest = [] ∧ s.draining = true :=
  ⟨wf.frames.shaped.2, bodies_of_shaped wf.frames.shaped.2, wf.frames.shaped.1 rfl⟩

theorem WfAt.startDrain {s t : Scheduler} {stack : List (Frame κ)} {awaiters : Nat → Awaiter}
    (wf : WfAt s stack awaiters) (idle : s.draining = false)
    (skeleton : t.skeleton = { s.skeleton with draining := true })
    (posted : t.posted = s.posted) : WfAt t (.drain none :: stack) awaiters := by
  have shaped : Shaped false stack := idle ▸ wf.frames.shaped
  have none := bodies_of_shaped shaped
  have same : t.skeleton = ({ s with draining := true } : Scheduler).skeleton := skeleton
  have bound : ∀ r, Bound s (.drain .none :: stack) r → Bound s stack r := by
    rintro r (registered | ⟨parent, generation, femtoseconds, member, here⟩)
    · exact .inl registered
    · rcases List.mem_cons.mp member with first | lower
      · cases first
      · exact .inr ⟨parent, generation, femtoseconds, lower, here⟩
  have issued : ∀ r, Issued s (.drain .none :: stack) r → Issued s stack r :=
    fun r => Or.imp (bound r) id
  have drained : WfAt { s with draining := true } (.drain .none :: stack) awaiters := by
    refine ⟨⟨wf.slots.named, wf.slots.vacant, wf.slots.quiet, wf.slots.apart, wf.slots.free,
      wf.slots.nodup⟩, ⟨wf.controls.attached, wf.controls.root, wf.controls.unused⟩,
      ⟨fun r here => wf.posts.bounded r (issued r here), wf.posts.queued, wf.posts.waiters,
        fun r h j here => wf.posts.notJoin r h j (issued r here), wf.posts.sole,
        fun r r' external here => wf.posts.own r r' external (bound r' here)⟩,
      ⟨⟨fun _ => rfl, shaped⟩, settled_of_bodies none, fun f top => ?_, ?_, ?_, ?_⟩,
      ⟨wf.tree.continued, wf.tree.joined, wf.tree.room, wf.tree.timed, wf.tree.parked,
        wf.tree.fresh⟩, ⟨wf.awaited.known, wf.awaited.rootless⟩⟩
    · obtain rfl : (.drain .none : Frame κ) = f := Option.some.inj top
      exact .inl trivial
    · rw [bodies_cons_drain]
      exact wf.frames.idle
    · rw [bodies_cons_drain]
      exact wf.frames.nodup
    · intro parent generation femtoseconds member
      rcases List.mem_cons.mp member with first | lower
      · cases first
      · exact wf.frames.started _ _ _ lower
  refine drained.congr same fun r queued => ?_
  unfold Scheduler.Queued at queued ⊢
  rwa [posted] at queued

theorem WfAt.endDrain {s t : Scheduler} {rest : List (Frame κ)} {awaiters : Nat → Awaiter}
    {x : Option (Option ExecutionContext × Option Nat)}
    (wf : WfAt s (.drain x :: rest) awaiters)
    (skeleton : t.skeleton = { s.skeleton with draining := false })
    (posted : t.posted = s.posted) : WfAt t rest awaiters := by
  obtain ⟨shaped, none, -⟩ := wf.below_drain
  have same : t.skeleton = ({ s with draining := false } : Scheduler).skeleton := skeleton
  have bound : ∀ r, Bound s rest r → Bound s (.drain x :: rest) r :=
    fun r => Or.imp id fun ⟨parent, generation, femtoseconds, member, here⟩ =>
      ⟨parent, generation, femtoseconds, List.mem_cons_of_mem _ member, here⟩
  have issued : ∀ r, Issued s rest r → Issued s (.drain x :: rest) r := fun r => Or.imp (bound r) id
  have drained : WfAt { s with draining := false } rest awaiters := by
    refine ⟨⟨wf.slots.named, wf.slots.vacant, wf.slots.quiet, wf.slots.apart, wf.slots.free,
      wf.slots.nodup⟩, ⟨wf.controls.attached, wf.controls.root, wf.controls.unused⟩,
      ⟨fun r here => wf.posts.bounded r (issued r here), wf.posts.queued, wf.posts.waiters,
        fun r h j here => wf.posts.notJoin r h j (issued r here), wf.posts.sole,
        fun r r' external here => wf.posts.own r r' external (bound r' here)⟩,
      ⟨shaped, fun f member => settled_of_bodies none f (List.mem_of_mem_tail member),
        HeadOk.of_settled (settled_of_bodies none), ?_, ?_,
        fun parent generation femtoseconds member =>
          wf.frames.started parent generation femtoseconds (List.mem_cons_of_mem _ member)⟩,
      ⟨wf.tree.continued, wf.tree.joined, wf.tree.room, wf.tree.timed, wf.tree.parked,
        wf.tree.fresh⟩, ⟨wf.awaited.known, wf.awaited.rootless⟩⟩
    · rw [none]
      exact fun h member => absurd member List.not_mem_nil
    · rw [none]
      exact List.nodup_nil
  refine drained.congr same fun r queued => ?_
  unfold Scheduler.Queued at queued ⊢
  rwa [posted] at queued

theorem path_push {m : Machine κ} {f : Frame κ} (plain : f.plain = true)
    (settled : ∀ g ∈ m.stack, g.Settled m.awaiters) : Path m (m.withStack (f :: m.stack)) :=
  .admin rfl fun wf => WfAt.push_plain wf plain settled

theorem path_drainReady (m : Machine κ) : Path m m.drainReady := by
  unfold Machine.drainReady
  split
  · exact .refl m
  · rename_i idle
    have idle' : m.sched.draining = false := Bool.not_eq_true _ ▸ idle
    exact .prim (.startDrain m.sched idle') rfl fun wf => WfAt.startDrain wf idle' rfl rfl

theorem path_collectFinished {m : Machine κ} (roots : Bool)
    (settled : ∀ g ∈ m.stack, g.Settled m.awaiters) : Path m (m.collectFinished roots) := by
  unfold Machine.collectFinished
  split
  · exact .refl m
  · have flagged : Path m (m.withSched { m.sched with reclaiming := true }) := .outside rfl rfl
    exact flagged.trans (path_push rfl settled)

theorem path_schedulerBoundary {m : Machine κ} (settled : ∀ g ∈ m.stack, g.Settled m.awaiters) :
    Path m m.schedulerBoundary :=
  path_push rfl settled

theorem path_drainOrBoundary {m : Machine κ} (resumed : Bool)
    (settled : ∀ g ∈ m.stack, g.Settled m.awaiters) : Path m (m.drainOrBoundary resumed) := by
  unfold Machine.drainOrBoundary
  split
  · exact path_drainReady m
  · exact path_schedulerBoundary settled

/-! ### Entering a coroutine -/

/-- A ready coroutine is entered. -/
theorem WfAt.enter {s t : Scheduler} {stack : List (Frame κ)} {awaiters : Nat → Awaiter}
    (wf : WfAt s stack awaiters) {i h : Nat} (rw : Rewrites s t i)
    (held : (s.slot i).handle = some h) (live : (s.slot i).done = false)
    (ready : (s.slot i).ready = true)
    (self : t.slot i = { s.slot i with ready := false }) (draining : s.draining = true)
    (settled : ∀ g ∈ stack, g.Settled awaiters)
    (head : ∀ c, awaiters h = .timeout c → bodies stack = []) :
    WfAt t (.body h true :: stack) awaiters := by
  have index := (wf.slots.named i h held).1
  have alive := wf.slots.aliveAt held live
  have isLive : s.Live i := ⟨by rw [held]; rfl, live⟩
  have waiting : (s.slot i).waiting = false := wf.slots.apart i ready
  have waiting' : (t.slot i).waiting = false := by rw [self]; exact waiting
  have notIdle : ¬ s.Idle h := by
    rintro ⟨-, -, unready⟩
    unfold Scheduler.slotOf at unready
    rw [index, ready] at unready
    cases unready
  have away : h ∉ bodies stack := fun member => notIdle (wf.frames.idle h member)
  have elsewhere : ∀ h', s.Idle h' → (s.promises h').stateIndex ≠ i := by
    intro h' idle same
    exact notIdle (idle.1.separate alive (same.trans index.symm) ▸ idle)
  have cons : bodies (.body h true :: stack) = h :: bodies stack := bodies_cons_body _ rfl
  have bound : ∀ r, Bound s (.body h true :: stack) r → Bound s stack r := by
    rintro r (registered | ⟨parent, generation, femtoseconds, member, here⟩)
    · exact .inl registered
    · rcases List.mem_cons.mp member with first | lower
      · cases first
      · exact .inr ⟨parent, generation, femtoseconds, lower, here⟩
  have issued : ∀ r, Issued s (.body h true :: stack) r → Issued s stack r :=
    fun r => Or.imp (bound r) id
  have posts : PostsOk s (.body h true :: stack) awaiters :=
    ⟨fun r here => wf.posts.bounded r (issued r here), wf.posts.queued, wf.posts.waiters,
      fun r h j here => wf.posts.notJoin r h j (issued r here), wf.posts.sole,
      fun r r' external here => wf.posts.own r r' external (bound r' here)⟩
  have tree : TreeOk s (.body h true :: stack) awaiters := by
    refine ⟨fun c p aliveChild continued => ?_, wf.tree.joined, wf.tree.room, wf.tree.timed,
      fun h' r alive' suspended => ?_, wf.tree.fresh⟩
    · obtain ⟨older, idle, inTask, notBody⟩ := wf.tree.continued c p aliveChild continued
      refine ⟨older, idle, inTask, fun member => ?_⟩
      rw [cons] at member
      rcases List.mem_cons.mp member with rfl | lower
      · exact notIdle idle
      · exact notBody lower
    · obtain ⟨index', generation, external, still⟩ := wf.tree.parked h' r alive' suspended
      rw [cons]
      exact ⟨index', generation, external, still.imp (List.mem_cons_of_mem _) id⟩
  refine ⟨rw.slotsOk wf.slots isLive fun _ => waiting', rw.controlsOk wf.controls,
    rw.postsOk posts fun waits => ?_, ⟨?_, settled, ?_, ?_, ?_, ?_⟩, rw.treeOk tree ?_ ?_ ?_,
    rw.awaitedOk wf.awaited⟩
  · rw [waiting'] at waits
    cases waits
  · rw [rw.draining]
    exact ⟨fun _ => draining, wf.frames.shaped⟩
  · intro f top
    obtain rfl : (.body h true : Frame κ) = f := Option.some.inj top
    exact .inr ⟨h, rfl, head⟩
  · rw [cons]
    intro h' member
    rcases List.mem_cons.mp member with rfl | lower
    · refine ⟨(rw.alive_iff h').mpr alive, ?_, ?_⟩
      · unfold Scheduler.slotOf
        rw [rw.promises, index]
        exact waiting'
      · unfold Scheduler.slotOf
        rw [rw.promises, index, self]
    · have idle := wf.frames.idle h' lower
      exact rw.idle_of_ne (elsewhere h' idle) idle
  · rw [cons]
    exact List.nodup_cons.mpr ⟨away, wf.frames.nodup⟩
  · rw [rw.nextCoroutineId]
    intro parent generation femtoseconds member
    rcases List.mem_cons.mp member with first | lower
    · cases first
    · exact wf.frames.started _ _ _ lower
  · intro c h' aliveChild continued
    exact elsewhere h' (wf.tree.continued c h' aliveChild continued).2.1
  · intro c j aliveChild joined same
    have parent := (wf.tree.joined c j aliveChild joined).2.2.1
    have suspended := (wf.tree.joined c j aliveChild joined).2.2.2.2.2
    refine ⟨by rw [self], fun inJoin => ?_⟩
    -- the parent of a join is waiting, not ready
    rcases suspended with ⟨-, waits⟩ | inTimeout
    · unfold Scheduler.slotOf at waits
      rw [same, waiting] at waits
      cases waits
    · rw [inTimeout] at inJoin
      cases inJoin
  · intro h' r alive' _ same
    refine ⟨by rw [self], .inl ?_⟩
    rw [cons, alive'.separate alive (same.trans index.symm)]
    exact List.mem_cons_self

theorem rewrites_enterState (s : Scheduler) (i : Nat) :
    Rewrites s (s.enterState i) i ∧
      (s.enterState i).slot i = { s.slot i with ready := false } := by
  have slots : ∀ k, (s.enterState i).slot k =
      if k = i then { s.slot i with ready := false } else s.slot k :=
    fun k => Scheduler.slot_update _ _ _ _
  have self := slots i
  rw [if_pos rfl] at self
  refine ⟨⟨rfl, fun k other => (slots k).trans (if_neg other), ?_, ?_, Nat.le_refl _⟩, self⟩
  · rw [self]
  · rw [self]

theorem takeReadyEntry_skeleton (s : Scheduler) :
    s.takeReadyEntry.skeleton = s.skeleton ∧ s.takeReadyEntry.posted = s.posted ∧
      s.takeReadyEntry.stateCount = s.stateCount ∧
      s.takeReadyEntry.states = s.states ∧ s.takeReadyEntry.promises = s.promises ∧
      s.takeReadyEntry.draining = s.draining := by
  unfold Scheduler.takeReadyEntry
  simp only
  split <;> exact ⟨rfl, rfl, rfl, rfl, rfl, rfl⟩

theorem path_drainNext {m : Machine κ} (wf : Wf m) {rest : List (Frame κ)}
    (top : m.stack = .drain none :: rest) : Path m (m.drainNext rest) := by
  have below : Shaped false rest ∧ bodies rest = [] ∧ m.sched.draining = true := by
    have wf' : WfAt m.sched m.stack m.awaiters := wf
    rw [top] at wf'
    exact wf'.below_drain
  obtain ⟨-, none, draining⟩ := below
  unfold Machine.drainNext
  simp only
  split
  · rename_i ended
    refine .prim (.endDrain m.sched ended) rfl fun wf => ?_
    have wf' : WfAt m.sched m.stack m.awaiters := wf
    rw [top] at wf'
    have drained : WfAt { m.sched with
        ready := { m.sched.ready with queue := [], cursor := 0 }, draining := false } rest
        m.awaiters := WfAt.endDrain wf' rfl rfl
    exact WfAt.push_plain (f := .boundary .roots) drained rfl (settled_of_bodies none)
  · rename_i index entry
    obtain ⟨skeleton, posted, count, states, promises, drains⟩ :=
      takeReadyEntry_skeleton m.sched
    have skip : (m.sched.slot index).ready = false → Path m (m.withSched m.sched.takeReadyEntry) :=
      fun unready => .quiet (.skipEntry m.sched index entry unready) skeleton posted
    split
    · rename_i empty
      rw [states] at empty
      exact skip (wf.slots.vacant index empty).2.1
    · rename_i h handle
      rw [states] at handle
      have held : (m.sched.slot index).handle = some h := handle
      split
      · rename_i guard
        rw [count, states] at guard
        rcases guard with outside | done | unready
        · exact absurd (wf.slots.named index h held).2.2 (Nat.not_lt.mpr outside)
        · exact skip (wf.slots.quiet index done).2
        · exact skip unready
      · rename_i guard
        rw [count, states] at guard
        simp only [not_or, Bool.not_eq_true, Bool.not_eq_false] at guard
        obtain ⟨-, live, ready⟩ := guard
        have isLive : m.sched.Live index := ⟨by rw [held]; rfl, live⟩
        refine .prim (.takeEntry m.sched index entry isLive ready) rfl fun wf => ?_
        have wf' : WfAt m.sched m.stack m.awaiters := wf
        rw [top] at wf'
        have taken := (WfAt.congr skeleton (fun r queued => by
          unfold Scheduler.Queued at queued ⊢
          rwa [posted] at queued) wf').swap_drain
          (some (m.sched.takeReadyEntry.currentExecutionContext,
            m.sched.takeReadyEntry.currentStateIndex))
        obtain ⟨rw, self⟩ := rewrites_enterState m.sched.takeReadyEntry index
        have slot : m.sched.takeReadyEntry.slot = m.sched.slot := congrArg Skeleton.slot skeleton
        refine taken.enter rw ?_ ?_ ?_ self (drains.trans draining) ?_ fun _ _ => none
        · rw [slot]
          exact held
        · rw [slot]
          exact live
        · rw [slot]
          exact ready
        · exact settled_of_bodies none

theorem path_drainResumed {m : Machine κ} (wf : Wf m) {rest : List (Frame κ)}
    {context : Option ExecutionContext} {state : Option Nat}
    (top : m.stack = .drain (some (context, state)) :: rest) :
    Path m (m.drainResumed rest context state) := by
  have wf' : WfAt m.sched m.stack m.awaiters := wf
  rw [top] at wf'
  obtain ⟨-, empty, -⟩ := wf'.below_drain
  have swapped : Path m (m.withStack (.drain none :: rest)) :=
    .admin rfl fun _ => wf'.swap_drain .none
  have restored : Path (m.withStack (.drain .none :: rest))
      ((m.withStack (.drain .none :: rest)).withSched (m.sched.restoreCurrent context state)) :=
    .outside rfl rfl
  have ready := swapped.trans restored
  have cancelled := path_applyPendingCancellations (ready.wf wf) empty
  unfold Machine.drainResumed
  exact (ready.trans cancelled).trans (path_collectFinished true (settled_of_bodies empty))

/-! ### Reclaiming -/

/-- A finished frame is reclaimed from the function `g`, and destroyed before `g` goes on. -/
theorem path_reclaimUnder {m : Machine κ} (entry : Option Nat) {g : Frame κ}
    (plain : g.plain = true) (settled : ∀ f ∈ m.stack, f.Settled m.awaiters) :
    Path m { m with
      sched := (m.sched.reclaimFinishedState entry).1
      stack := match (m.sched.reclaimFinishedState entry).2 with
        | none => g :: m.stack
        | some handle => .destroying handle :: g :: m.stack } := by
  have reclaimed := path_reclaimFinishedState (m := m) entry
  have again := reclaimed.trans (path_push (f := g) plain settled)
  split
  · exact again
  · rename_i h _
    refine again.trans (path_push (f := .destroying h) rfl fun f member => ?_)
    rcases List.mem_cons.mp member with rfl | lower
    · exact Frame.settled_of_plain plain
    · exact settled f lower

theorem path_collectNext {m : Machine κ} (wf : Wf m) {rest : List (Frame κ)} {roots : Bool}
    {position : Nat} (top : m.stack = .collect roots position :: rest) :
    Path m (m.collectNext rest roots position) := by
  have wf' : WfAt m.sched m.stack m.awaiters := wf
  rw [top] at wf'
  have popped : Path m (m.withStack rest) := .admin rfl fun _ => wf'.pop_plain rfl
  unfold Machine.collectNext
  simp only
  split
  · exact popped.trans (.outside rfl rfl)
  · exact popped.trans (path_reclaimUnder (m := m.withStack rest) _ rfl wf'.settledBelow)

end Cpptb.Coro
