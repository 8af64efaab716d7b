/-
Every step of the machine is a path.

* `path_enter` — the `await_resume` of a coroutine that has been resumed;
* `path_tick`, `path_perform`, `path_suspend` — the three kinds of actions;
* `path_step` — from a machine that meets the invariant, every action is a path, so it keeps the
  invariant;
* `wf_of_reach` — every reachable machine meets the invariant;
* `core_of_reach` — a property of the core that every `Prim` keeps holds in every reachable machine.
-/

import Cpptb.Lib.Runs
import Cpptb.Coro.Draining

namespace Cpptb.Coro

open Function (update)
open Cpptb.Runs (Reach)

variable {κ : Type}

/-! ### Entering a body -/

section Body

variable {s : Scheduler} {stack : List (Frame κ)} {awaiters : Nat → Awaiter}

/-- A body on the stack has no live child, except the child of its timeout. -/
theorem WfAt.childless_of_body (wf : WfAt s stack awaiters) {h : Nat} (member : h ∈ bodies stack)
    (timeout : ∀ c, awaiters h = .timeout c → ¬ s.Alive c) : Childless s h := by
  refine fun c alive => ⟨fun continued => ?_, fun j joined parent => ?_⟩
  · exact (wf.tree.continued c h alive continued).2.2.2 member
  · obtain ⟨-, -, -, -, -, suspended⟩ := wf.tree.joined c j alive joined
    rw [parent] at suspended
    rcases suspended with ⟨-, waits⟩ | inTimeout
    · rw [(wf.frames.idle h member).2.1] at waits
      cases waits
    · exact timeout c inTimeout alive

theorem WfAt.head_settled {f : Frame κ} {rest : List (Frame κ)}
    (wf : WfAt s (f :: rest) awaiters) (entered : ∀ h, f ≠ .body h true) : f.Settled awaiters := by
  rcases wf.frames.head f rfl with settled | ⟨h, entering, -⟩
  · exact settled
  · exact absurd entering (entered h)

theorem WfAt.all_settled {f : Frame κ} {rest : List (Frame κ)}
    (wf : WfAt s (f :: rest) awaiters) (entered : ∀ h, f ≠ .body h true) :
    ∀ g ∈ f :: rest, g.Settled awaiters := by
  intro g member
  rcases List.mem_cons.mp member with rfl | below
  · exact wf.head_settled entered
  · exact wf.settledBelow g below

end Body

theorem wfAt_of_top {m : Machine κ} (wf : Wf m) {stack : List (Frame κ)} (top : m.stack = stack) :
    WfAt m.sched stack m.awaiters := top ▸ wf

theorem path_fault (m : Machine κ) (fault : Fault) :
    Path m (m.withSched { m.sched with fault := some fault }) :=
  .outside rfl rfl

theorem not_alive_of_done {s : Scheduler} {h : Nat} (done : (s.slotOf h).done = true) :
    ¬ s.Alive h := fun alive => by
  rw [alive.2] at done
  cases done

theorem awaitedDone_iff (s : Scheduler) (h : Nat) :
    s.awaitedDone h = true ↔ (s.slotOf h).handle = some h ∧ (s.slotOf h).done = true := by
  unfold Scheduler.awaitedDone Scheduler.stateMatches
  rw [Bool.and_eq_true, beq_iff_eq]
  rfl

/-- The result of a child is taken, and its frame is destroyed. -/
theorem path_takeChild {m : Machine κ} (wf : Wf m) {rest : List (Frame κ)} {h c : Nat}
    (top : m.stack = .body h true :: rest)
    (awaits : m.awaiters h = .task c ∨ m.awaiters h = .timeout c)
    (ended : m.awaiters h = .timeout c → m.sched.awaitedDone c = true) :
    Path m (({ m with
      sched := m.sched.reclaimAwaited c
      stack := .destroying c :: .body h false :: rest } : Machine κ).setAwaiter h .none) := by
  have wf' := wfAt_of_top wf top
  have member : h ∈ bodies (.body h true :: rest) :=
    (bodies_cons_body (.body h true) rfl).symm ▸ List.mem_cons_self
  have childless : Childless m.sched h := wf'.childless_of_body member fun c' inTimeout => by
    rcases awaits with inTask | inTimeout'
    · cases inTask.symm.trans inTimeout
    · obtain rfl := Awaiter.timeout.inj (inTimeout.symm.trans inTimeout')
      exact not_alive_of_done ((awaitedDone_iff _ _).mp (ended inTimeout')).2
  have settled : Path m (({ m with stack := .body h false :: rest } : Machine κ).setAwaiter h
      .none) := .admin rfl fun _ => wf'.settle_body childless
  have reclaimed : Path (({ m with stack := .body h false :: rest } : Machine κ).setAwaiter h .none)
      ((({ m with stack := .body h false :: rest } : Machine κ).setAwaiter h .none).withSched
        (m.sched.reclaimAwaited c)) := by
    by_cases done : m.sched.awaitedDone c = true
    · refine path_reclaimAwaited (settled.wf wf) done ?_
      exact wf'.awaited.rootless h c _ awaits ((awaitedDone_iff _ _).mp done).1
    · unfold Scheduler.reclaimAwaited
      rw [if_pos (by simpa using done)]
      exact path_fault _ _
  refine (settled.trans reclaimed).trans (path_push (f := .destroying c) rfl fun g here => ?_)
  exact (wfAt_of_top ((settled.trans reclaimed).wf wf) rfl).all_settled (by simp) g here

/-- The child of a timeout is cancelled. -/
theorem path_dropChild {m : Machine κ} (wf : Wf m) {rest : List (Frame κ)} {h c : Nat}
    (top : m.stack = .body h true :: rest) (awaits : m.awaiters h = .timeout c)
    (running : ¬ m.sched.awaitedDone c = true) :
    Path m (({ m with
      sched := m.sched.cancelAwaited c, stack := .body h false :: rest } : Machine κ).setAwaiter h
        .none) := by
  have wf' := wfAt_of_top wf top
  have cons : bodies (.body h true :: rest) = h :: bodies rest := bodies_cons_body _ rfl
  have only : bodies rest = [] := by
    rcases wf'.frames.head _ rfl with settled | ⟨h', same, only⟩
    · exact absurd settled.1 (by decide)
    · cases same
      exact only c awaits
  have away : ∀ b ∈ bodies m.stack, b < c := by
    rw [top, cons, only]
    intro b member
    obtain rfl := List.mem_singleton.mp member
    exact (wf.awaited.known b c (.inr awaits)).1
  have cancelled : Path m (m.withSched (m.sched.cancelAwaited c)) ∧
      ¬ (m.sched.cancelAwaited c).Alive c := by
    unfold Scheduler.cancelAwaited
    by_cases held : (m.sched.slotOf c).handle = some c
    · have named : m.sched.stateMatches c = true := beq_iff_eq.mpr held
      have live : ¬ (m.sched.states (m.sched.promises c).stateIndex).done = true := fun done =>
        running ((awaitedDone_iff _ _).mpr ⟨held, done⟩)
      simp only [named, Bool.not_true, Bool.false_eq_true, if_false, if_neg live]
      obtain ⟨path, settles, done⟩ := path_cancelState wf held away
      refine ⟨path.trans (path_touchTimers _), not_alive_of_done ?_⟩
      show ((m.sched.cancelState (m.sched.promises c).stateIndex).slotOf c).done = true
      unfold Scheduler.slotOf
      rw [settles.stateIndex]
      exact done
    · have named : m.sched.stateMatches c = false := beq_eq_false_iff_ne.mpr held
      simp only [named, Bool.not_false, if_true]
      exact ⟨path_fault m _, fun alive => held alive.1⟩
  have wf'' := wfAt_of_top (cancelled.1.wf wf) top
  refine cancelled.1.trans (.admin rfl fun _ => wf''.settle_body ?_)
  refine wf''.childless_of_body (cons ▸ List.mem_cons_self) fun c' inTimeout => ?_
  obtain rfl := Awaiter.timeout.inj (inTimeout.symm.trans awaits)
  exact cancelled.2

theorem path_enter {m : Machine κ} (wf : Wf m) {rest : List (Frame κ)} {h : Nat}
    (top : m.stack = .body h true :: rest) : Path m (m.enter rest h) := by
  have wf' := wfAt_of_top wf top
  have settled (other : ∀ c, m.awaiters h ≠ .timeout c) :
      Path m ((m.setAwaiter h .none).withStack (.body h false :: rest)) := by
    refine .admin rfl fun _ => wf'.settle_body ?_
    refine wf'.childless_of_body ?_ fun c inTimeout => absurd inTimeout (other c)
    exact (bodies_cons_body (.body h true) rfl).symm ▸ List.mem_cons_self
  unfold Machine.enter
  cases awaits : m.awaiters h with
  | task c => exact path_takeChild wf top (.inl awaits) (by simp [awaits])
  | timeout c =>
      simp only
      split
      · rename_i done
        exact path_takeChild wf top (.inr awaits) fun _ => done
      · rename_i running
        exact path_dropChild wf top awaits running
  | none => exact settled (by simp [awaits])
  | trigger => exact settled (by simp [awaits])
  | join j => exact settled (by simp [awaits])
  | process k => exact settled (by simp [awaits])
  | external r => exact settled (by simp [awaits])

/-! ### Awaiting a process -/

theorem path_awaitProcessSuspend {m : Machine κ} (wf : Wf m) {rest : List (Frame κ)}
    {f : Frame κ} {h : Nat} (top : m.stack = f :: rest) (isBody : f.bodyHandle = some h)
    (settled : f.Settled m.awaiters) (control : Nat) :
    Path m (m.awaitProcessSuspend rest h control) := by
  obtain ⟨left, idle, away, unsuspended, -⟩ := leave wf top isBody settled
  unfold Machine.awaitProcessSuspend
  simp only
  split
  · exact path_fault m _
  · exact left.trans (path_parkProcess (left.wf wf) idle away unsuspended control _)

theorem path_inlineReturned {m : Machine κ} (wf : Wf m) {rest : List (Frame κ)}
    {parent control : Nat} {context : Option ExecutionContext} {state : Option Nat}
    (top : m.stack = .inlineRun parent control context state :: rest) :
    Path m (m.inlineReturned rest parent control context state) := by
  have wf' := wfAt_of_top wf top
  have settled := wf'.head_settled (by simp)
  have swapped : Path m (m.withStack (.inlineEnd parent control :: rest)) :=
    .admin rfl fun _ => wf'.swap_body rfl rfl settled
  have below := (wfAt_of_top (swapped.wf wf) rfl).all_settled (by simp)
  unfold Machine.inlineReturned
  simp only
  split
  · have flagged : Path (m.withStack (.inlineEnd parent control :: rest))
        ((m.withStack (.inlineEnd parent control :: rest)).withSched
          { ({ m.sched with inlineProcessDepth :=
              m.sched.inlineProcessDepth - 1 } : Scheduler).restoreCurrent context state with
            finishedRootStates := [], reclaiming := true }) := .outside rfl rfl
    exact (swapped.trans flagged).trans (path_reclaimUnder _ rfl below)
  · have restored : Path (m.withStack (.inlineEnd parent control :: rest))
        ((m.withStack (.inlineEnd parent control :: rest)).withSched
          (({ m.sched with inlineProcessDepth :=
              m.sched.inlineProcessDepth - 1 } : Scheduler).restoreCurrent context state)) :=
      .outside rfl rfl
    exact (swapped.trans restored).trans (path_collectFinished true below)

theorem path_inlineEnded {m : Machine κ} (wf : Wf m) {rest : List (Frame κ)}
    {parent control : Nat} (top : m.stack = .inlineEnd parent control :: rest) :
    Path m (m.inlineEnded rest parent control) := by
  have wf' := wfAt_of_top wf top
  have settled := wf'.head_settled (by simp)
  obtain ⟨left, idle, away, unsuspended, -⟩ := leave wf top rfl settled
  unfold Machine.inlineEnded
  simp only
  split
  · split
    · have childless := (left.wf wf).tree.childless_of_none unsuspended
      have inside (none : m.awaiters parent = .none) :
          ∀ r, (m.withStack rest).awaiters parent ≠ .external r := fun r external => by
        cases none.symm.trans external
      have ready := path_makeReady (left.wf wf) idle childless away
        (inside unsuspended) (.inr rfl)
      refine (left.trans ready).trans (.admin rfl fun wf'' => ?_)
      have known := (wf''.slots.bounds (h := parent) ?_).1
      · exact WfAt.suspended wf'' (wf''.tree.childless_of_none unsuspended) known away (by simp)
          (by simp) trivial
      · obtain ⟨rw, -⟩ := rewrites_makeReady ((left.wf wf).slots.bounds idle.1).2 idle.1.2
          .deferred
        exact (rw.alive_iff parent).mpr idle.1
    · exact .admin rfl fun _ => wf'.swap_body rfl rfl ⟨rfl, unsuspended⟩
  · exact path_awaitProcessSuspend wf top rfl settled control

/-! ### Ticks -/

theorem path_timeoutStarted {m : Machine κ} (wf : Wf m) {rest : List (Frame κ)}
    {parent generation femtoseconds : Nat}
    (top : m.stack = .timeoutStart parent generation femtoseconds :: rest) :
    Path m (m.timeoutStarted rest parent generation femtoseconds) := by
  have issued : Bound m.sched m.stack
      { stateIndex := (m.sched.promises parent).stateIndex, generation := generation } :=
    .inr ⟨parent, generation, femtoseconds, top ▸ List.mem_cons_self, rfl⟩
  have registered : Path m (m.withSched (m.timeoutStarted rest parent generation
      femtoseconds).sched) := by
    unfold Machine.timeoutStarted
    simp only
    split
    · rename_i valid
      have enterable : Enterable m
          { stateIndex := (m.sched.promises parent).stateIndex, generation := generation } :=
        ⟨valid, wf.posts.bounded _ (.inl issued), fun h j => wf.posts.notJoin _ h j (.inl issued)
          valid, fun x external => (wf.posts.own x _ external issued).symm⟩
      exact (path_registerWait enterable (.delay femtoseconds)).1
    · exact .refl m
  refine registered.trans (.admin rfl fun wf' => ?_)
  have here := wfAt_of_top wf' top
  refine here.restack here.frames.shaped.2
    (fun f member => here.settledBelow f (List.mem_of_mem_tail member))
    (HeadOk.of_settled here.settledBelow) here.frames.idle here.frames.nodup
    (fun _ _ _ member => List.mem_cons_of_mem _ member) (fun h member => .inl member)
    fun h member => .inl member

theorem path_compact (m : Machine κ) : Path m (m.withSched m.sched.compactStaleEdgeQueues) := by
  have skeleton : m.sched.compactStaleEdgeQueues.skeleton = m.sched.skeleton := by
    unfold Scheduler.compactStaleEdgeQueues
    split <;> rfl
  refine .prim (.compact m.sched) rfl fun wf => WfAt.congr skeleton (fun r queued => ?_) wf
  unfold Scheduler.compactStaleEdgeQueues at queued
  split at queued
  · exact queued
  · rcases queued with ⟨index, member⟩ | other
    · refine .inl ⟨index, ?_⟩
      have here : r ∈ (if index < m.sched.edges.queueCount then
          (m.sched.edges.waiters index).filter (registrationValid m.sched.states)
        else m.sched.edges.waiters index) := member
      split at here
      · exact (List.mem_filter.mp here).1
      · exact here
    · exact .inr other

theorem path_tick {m m' : Machine κ} (wf : Wf m) (ticked : m.tick = some m') : Path m m' := by
  have plain {f g : Frame κ} {rest : List (Frame κ)} (top : m.stack = f :: rest)
      (old : f.plain = true) (new : g.plain = true) :
      Path m (m.withStack (g :: rest)) ∧ ∀ x ∈ g :: rest, x.Settled m.awaiters := by
    have wf' := wfAt_of_top wf top
    refine ⟨.admin rfl fun _ => wf'.swap_plain old new, fun x member => ?_⟩
    rcases List.mem_cons.mp member with rfl | lower
    · exact Frame.settled_of_plain new
    · exact wf'.settledBelow x lower
  have popped {f : Frame κ} {rest : List (Frame κ)} (top : m.stack = f :: rest)
      (old : f.plain = true) : Path m (m.withStack rest) :=
    .admin rfl fun _ => (wfAt_of_top wf top).pop_plain old
  unfold Machine.tick at ticked
  split at ticked
  · rename_i h rest top
    cases ticked
    exact path_enter wf top
  · rename_i rest top
    cases ticked
    exact path_drainNext wf top
  · rename_i context state rest top
    cases ticked
    exact path_drainResumed wf top
  · rename_i roots position rest top
    cases ticked
    exact path_collectNext wf top
  · rename_i rest top
    cases ticked
    exact (popped top rfl).trans (.outside rfl rfl)
  · rename_i rest top
    cases ticked
    obtain ⟨swapped, settled⟩ := plain (g := .boundary .states) top rfl rfl
    exact swapped.trans (path_collectFinished true settled)
  · rename_i rest top
    cases ticked
    obtain ⟨swapped, settled⟩ := plain (g := .boundary .compact) top rfl rfl
    exact swapped.trans (path_collectFinished false settled)
  · rename_i rest top
    cases ticked
    exact (popped top rfl).trans (path_compact _)
  · rename_i parent control context state rest top
    cases ticked
    exact path_inlineReturned wf top
  · rename_i parent control rest top
    cases ticked
    exact path_inlineEnded wf top
  · rename_i parent generation femtoseconds rest top
    cases ticked
    exact path_timeoutStarted wf top
  · cases ticked

/-! ### Calls -/

/-- The host takes what the scheduler has published for it. -/
def Action.consumes : Action → Bool
  | .call .consumeEdgeInterestChange | .call .consumeTimerScheduleChanged => true
  | _ => false

/-- Where user code is running, every activation is settled. -/
theorem settled_of_userCode {m : Machine κ} (wf : Wf m) (running : m.userCode = true) :
    ∀ g ∈ m.stack, g.Settled m.awaiters := by
  cases top : m.stack with
  | nil => exact fun g member => by cases member
  | cons f rest =>
      refine (wfAt_of_top wf top).all_settled ?_
      rintro h rfl
      unfold Machine.userCode at running
      rw [top] at running
      cases running

theorem path_wakeExternal {m : Machine κ} {r : WaitRegistration}
    (handed : Event.parkedExternal r ∈ m.sched.history) :
    Path m (m.withSched (m.sched.wakeExternal r)) := by
  unfold Scheduler.wakeExternal
  split
  · exact path_resumeRegistration (.inr (List.mem_filter.mpr ⟨handed, rfl⟩))
  · exact .refl m

theorem path_perform {m m' : Machine κ} (wf : Wf m) (running : m.userCode = true) {call : Call}
    (own : (Action.call call).consumes = false) (performed : m.perform call = some m') : Path m m' := by
  have settled := settled_of_userCode wf running
  cases call with
  | spawn executionContext handlerOwner =>
      cases performed
      exact (path_spawn wf executionContext handlerOwner).trans (path_drainReady _)
  | spawnOwned context =>
      cases performed
      exact (path_spawnOwned wf context).trans (path_drainReady _)
  | spawnDetached executionContext =>
      cases performed
      exact (path_spawnDetached wf executionContext).trans (path_drainReady _)
  | cancel control =>
      simp only [Machine.perform] at performed
      split at performed
      · cases performed
        exact .refl _
      · rename_i active
        rw [not_or, Bool.not_eq_false, Bool.not_eq_true] at active
        split at performed
        · cases performed
          exact path_requestCancellation m control
        · rename_i idle
          cases performed
          have none : bodies m.stack = [] := by
            refine bodies_of_shaped ?_
            have shaped := wf.frames.shaped
            rwa [show m.sched.draining = false from Bool.not_eq_true _ ▸ idle] at shaped
          exact (path_cancelProcess wf active.1 active.2 none).trans (path_drainReady _)
  | notifyEdge signal kind =>
      cases performed
      have evaluated : Path m (m.withSched { m.sched with currentPhase := .evaluation }) :=
        .outside rfl rfl
      have resumed := evaluated.trans (path_resumeEdgeQueues (evaluated.wf wf) signal kind)
      exact resumed.trans (path_drainOrBoundary _ settled)
  | setTime time =>
      simp only [Machine.perform] at performed
      have advanced := path_advanceTimers wf time
      split at performed
      · cases performed
        exact advanced.trans (path_drainOrBoundary _ settled)
      · cases performed
        exact advanced
  | notifyPhase phase =>
      cases performed
      have entered : Path m (m.withSched { m.sched with
          currentPhase := phase.simulationPhase }) := .outside rfl rfl
      have resumed := entered.trans (path_resumePhaseQueue (entered.wf wf) phase)
      exact resumed.trans (path_drainOrBoundary _ settled)
  | wakeExternal r =>
      simp only [Machine.perform] at performed
      split at performed
      · rename_i handed
        cases performed
        exact path_wakeExternal handed
      · cases performed
  | flushExternalWakes =>
      cases performed
      exact path_drainReady m
  | consumeEdgeInterestChange => cases own
  | consumeTimerScheduleChanged => cases own
  | nextTimerDeadline =>
      cases performed
      exact path_discardStaleTimers m
  | configureStaticEdgeSource signal =>
      cases performed
      refine .quiet (.configureStatic m.sched signal) ?_ ?_ <;>
        unfold Scheduler.configureStaticEdgeSource <;> split <;> rfl
  | configureStickyEdgeSource signal =>
      cases performed
      refine .quiet (.configureSticky m.sched signal) ?_ ?_ <;>
        unfold Scheduler.configureStickyEdgeSource <;> split <;> rfl

/-! ### Suspensions -/

/-- The target of an inline start is a ready root. -/
theorem inlineTarget_spec {s : Scheduler} {control index : Nat}
    (target : s.inlineTarget control = some index) :
    s.draining = true ∧ (s.controls control).attached = true ∧
      (s.controls control).done = false ∧ (s.controls control).stateIndex = some index ∧
      s.Live index ∧ (s.slot index).ready = true ∧ s.ready.liveCount = 1 := by
  unfold Scheduler.inlineTarget at target
  simp only at target
  split at target
  · cases target
  · rename_i index' atIndex
    split at target
    · rename_i guard
      obtain ⟨draining, attached, running, -, -, handle, ready, live, only⟩ := guard
      obtain rfl := Option.some.inj target
      exact ⟨draining, attached, running, atIndex, ⟨handle, live⟩, ready, only⟩
    · cases target

theorem skeleton_dropReadyEntries (s : Scheduler) : s.dropReadyEntries.skeleton = s.skeleton :=
  rfl

theorem path_awaitProcess {m : Machine κ} (wf : Wf m) {rest : List (Frame κ)} {h : Nat}
    (top : m.stack = .body h false :: rest) (control : Nat) :
    Path m (m.awaitProcess rest h control) := by
  have wf' := wfAt_of_top wf top
  have settled := wf'.head_settled (by simp)
  unfold Machine.awaitProcess
  simp only
  split
  · rename_i index target
    obtain ⟨draining, attached, running, atIndex, live, ready, only⟩ := inlineTarget_spec target
    obtain ⟨i, c, atIndex', held, -, byState⟩ := wf.controls.attached control attached running
    obtain rfl : i = index := Option.some.inj (atIndex'.symm.trans atIndex)
    obtain ⟨-, -, c', held', root⟩ := wf.controls.root i control byState
    obtain rfl : c = c' := Option.some.inj (held.symm.trans held')
    have handle : m.sched.handleAt i = c := by
      unfold Scheduler.handleAt
      rw [show (m.sched.states i).handle = some c from held]
      rfl
    have swapped : Path m (m.withStack (.inlineRun h control m.sched.currentExecutionContext
        m.sched.currentStateIndex :: rest)) :=
      .admin rfl fun _ => wf'.swap_body rfl rfl settled.2
    have below := (wfAt_of_top (swapped.wf wf) rfl).all_settled (by simp)
    refine swapped.trans (.prim (.takeOnly m.sched i live ready only) rfl fun wf'' => ?_)
    have dropped := WfAt.congr (skeleton_dropReadyEntries m.sched) (fun _ queued => queued) wf''
    obtain ⟨rw, self⟩ := rewrites_enterState m.sched.dropReadyEntries i
    have entered := dropped.enter rw held live.2 ready self draining below fun c' inTimeout => by
      -- the target is the root of a process, so it is in no timeout
      have continued := wf.tree.timed c c' (wf.slots.aliveAt held live.2) inTimeout
      unfold Scheduler.isChild at root
      rw [Bool.or_eq_false_iff, Option.isSome_eq_false_iff, Option.isNone_iff_eq_none] at root
      exact absurd root.1 continued
    have skeleton : ({ m.sched.dropReadyEntries.enterState i with
        inlineProcessDepth := m.sched.inlineProcessDepth + 1 } : Scheduler).skeleton =
        (m.sched.dropReadyEntries.enterState i).skeleton := rfl
    have deeper := WfAt.congr skeleton (fun _ queued => queued) entered
    rw [← handle] at deeper
    exact deeper
  · split
    · refine .admin rfl fun _ => ?_
      exact wf'
    · exact path_awaitProcessSuspend wf top rfl settled control

/-- A frame that ends changes no promise but its own. -/
theorem promises_finish {s : Scheduler} {h : Nat} (idle : s.Idle h) (exception : Option Nat)
    (requests : List Nat) :
    (s.finish h exception requests).promises =
      update s.promises h { s.promises h with exception := exception } := by
  rw [finish_of_idle idle exception requests]
  simp only
  split
  · rfl
  · unfold Scheduler.finishRoot
    split
    · exact (steady_completeProcess _ _ _ _).promises
    · split <;> rfl

theorem path_finishFrame {m : Machine κ} (wf : Wf m) {rest : List (Frame κ)} {h : Nat}
    (top : m.stack = .body h false :: rest) (exception : Option Nat) (requests : List Nat) :
    Path m (m.finish rest h exception requests) := by
  have settled := (wfAt_of_top wf top).head_settled (by simp)
  obtain ⟨left, idle, away, unsuspended, draining⟩ := leave wf top rfl settled
  have lower := settled_below wf top settled
  have childless := (left.wf wf).tree.childless_of_none unsuspended
  have promise : (m.sched.finish h exception requests).promises h =
      { m.sched.promises h with exception := exception } := by
    rw [promises_finish idle exception requests]
    exact Function.update_self ..
  have finished := left.trans (path_finish (left.wf wf) idle childless away exception requests)
  unfold Machine.finish
  simp only [promise]
  split
  · rename_i j joined
    exact left.trans (path_finishJoinChild (left.wf wf) idle childless away joined exception
      exception requests)
  · split
    · rename_i p continued
      have child : Scheduler.isChild (m.sched.promises h) = true := by
        unfold Scheduler.isChild
        rw [continued]
        rfl
      obtain ⟨stops, -⟩ := stops_finish (left.wf wf).controls idle child exception requests
      obtain ⟨older, parent, inTask, -⟩ := wf.tree.continued h p idle.1 continued
      have notBody := ((left.wf wf).tree.continued h p idle.1 continued).2.2.2
      have ne : p ≠ h := Nat.ne_of_lt older
      refine finished.trans (.admin rfl fun wf' => ?_)
      refine WfAt.push_body wf' (f := .body p true) rfl (stops.draining.trans draining)
        (stops.idle idle.1.1 wf.slots parent ne) notBody (fun c alive continues => ?_) lower
        (.inr ⟨rfl, fun c inTimeout => ?_⟩)
      · -- the parent awaits only the child that has ended
        obtain ⟨before, other⟩ := (stops.alive_iff idle.1.1 wf.slots c).mp alive
        have inTask' := (wf'.tree.continued c p alive continues).2.2.1
        exact other (Awaiter.task.inj (inTask'.symm.trans inTask))
      · cases inTask.symm.trans inTimeout
    · exact finished

theorem path_suspend {m m' : Machine κ} (wf : Wf m) {rest : List (Frame κ)} {h : Nat}
    (top : m.stack = .body h false :: rest) {suspension : Suspension}
    (suspended : m.suspend rest h suspension = some m') : Path m m' := by
  have settled := (wfAt_of_top wf top).head_settled (by simp)
  obtain ⟨left, idle, away, unsuspended, -⟩ := leave wf top rfl settled
  have wf' := left.wf wf
  cases suspension with
  | trigger request resource location =>
      cases request with
      | edge signal kind =>
          cases suspended
          exact left.trans (path_parkEdge wf' idle away unsuspended signal kind _
            (by cases kind <;> rfl))
      | delay femtoseconds =>
          cases suspended
          exact left.trans (path_park wf' idle away unsuspended (.delay femtoseconds) _)
      | phase kind =>
          cases suspended
          exact left.trans (path_park wf' idle away unsuspended (.phase kind) _)
  | first requests winner location =>
      simp only [Machine.suspend] at suspended
      split at suspended
      · cases suspended
      · cases suspended
        exact left.trans (path_parkFirst wf' idle away unsuspended requests winner _)
  | external diagnostic =>
      cases suspended
      exact left.trans (path_parkExternal wf' idle away unsuspended diagnostic)
  | join childCount =>
      simp only [Machine.suspend] at suspended
      split at suspended
      · cases suspended
      · cases suspended
        exact path_startJoin wf top settled childCount _
  | timeout femtoseconds location =>
      simp only [Machine.suspend] at suspended
      split at suspended
      · cases suspended
      · rename_i awaited
        split at suspended
        · cases suspended
          exact path_fault m _
        · cases suspended
          exact path_startTimeout wf top settled _ femtoseconds awaited
  | task =>
      cases suspended
      exact path_startTask wf top settled _
  | process control =>
      simp only [Machine.suspend] at suspended
      split at suspended
      · cases suspended
      · cases suspended
        exact path_awaitProcess wf top control
  | finish exception requests =>
      cases suspended
      exact path_finishFrame wf top exception requests

/-! ### The step -/

theorem path_step {m m' : Machine κ} (wf : Wf m) {action : Action}
    (own : action.consumes = false) (stepped : m.step action = some m') : Path m m' := by
  unfold Machine.step at stepped
  split at stepped
  · cases stepped
  · cases action with
    | call call =>
        simp only at stepped
        split at stepped
        · rename_i running
          exact path_perform wf running own stepped
        · cases stepped
    | suspend suspension =>
        simp only at stepped
        split at stepped
        · rename_i h rest top
          split at stepped
          · exact path_suspend wf top stepped
          · cases stepped
            exact path_fault m _
        · cases stepped
    | destroyed =>
        simp only at stepped
        split at stepped
        · rename_i h rest top
          cases stepped
          exact .admin rfl fun _ => (wfAt_of_top wf top).pop_plain rfl
        · cases stepped
    | tick => exact path_tick wf stepped

/-! ### Runs -/

/-- The reachable machines. -/
def Reachable (femtosecondsPerTick : Nat) : Machine κ → Prop :=
  Reach Machine.step (fun _ _ => True) (· = .create femtosecondsPerTick)

/-- The machine after a run, or a new machine if there is no such run. -/
def Machine.after (femtosecondsPerTick : Nat) (actions : List Action) : Machine κ :=
  (Runs.run Machine.step (.create femtosecondsPerTick) actions).getD (.create femtosecondsPerTick)

theorem reachable_after (femtosecondsPerTick : Nat) (actions : List Action) :
    Reachable femtosecondsPerTick (.after femtosecondsPerTick actions : Machine κ) := by
  have start : Reachable femtosecondsPerTick (.create femtosecondsPerTick : Machine κ) :=
    .start rfl
  unfold Machine.after
  cases ran : Runs.run Machine.step (.create femtosecondsPerTick : Machine κ) actions with
  | none => exact start
  | some m => exact start.run (fun _ _ => trivial) actions ran

theorem wf_create (femtosecondsPerTick : Nat) :
    Wf (.create femtosecondsPerTick : Machine κ) := by
  have vacant : ∀ h, ¬ (Scheduler.create femtosecondsPerTick).Alive h :=
    fun h alive => by cases alive.1
  refine ⟨⟨fun i h held => ?_, fun _ _ => ⟨rfl, rfl, rfl⟩, fun i done => ?_, fun i ready => ?_,
      fun i member => ?_, List.nodup_nil⟩,
    ⟨fun k attached => ?_, fun i k byState => ?_, fun _ _ => rfl⟩,
    ⟨?_, fun r queued => ?_, fun k r waits => ?_, fun r h j issued valid held => ?_, fun r r' external => ?_,
      fun r r' external => ?_⟩,
    ⟨rfl, fun f member => ?_, fun f top => ?_, fun h member => ?_, List.nodup_nil,
      fun _ _ _ member => ?_⟩,
    ⟨fun c p alive => absurd alive (vacant c), fun c j alive => absurd alive (vacant c),
      fun j => ⟨[], Nat.zero_le _, fun c alive => absurd alive (vacant c)⟩,
      fun h c alive => absurd alive (vacant h), fun h r alive => absurd alive (vacant h),
      fun _ _ => rfl⟩,
    ⟨fun h c suspended => ?_, fun h c i suspended held => ?_⟩⟩
  · cases held
  · cases done
  · cases ready
  · cases member
  · cases attached
  · cases byState
  · rintro r ((⟨source, member⟩ | ⟨_, _, _, member, -⟩) | member) <;> cases member
  · rcases queued with ⟨index, member⟩ | ⟨phase, member⟩ | ⟨timer, next | member, -⟩
    · cases member
    · cases member
    · cases next
    · cases member
  · rcases waits with first | later
    · cases first
    · cases later
  · cases held
  · cases external
  · cases external
  · cases member
  · cases top
  · cases member
  · cases member
  · rcases suspended with here | here <;> cases here
  · cases held

/-- What the host takes it takes out of the two publications. -/
theorem step_consumes {m m' : Machine κ} {action : Action} (consumes : action.consumes = true)
    (stepped : m.step action = some m') :
    m' = m.withSched m.sched.consumeEdgeInterestChange ∨
      m' = m.withSched m.sched.consumeTimerScheduleChanged := by
  cases action with
  | call call =>
      unfold Machine.step at stepped
      simp only at stepped
      split at stepped
      · cases stepped
      · split at stepped
        · cases call <;> cases consumes <;> cases stepped
          · exact .inl rfl
          · exact .inr rfl
        · cases stepped
  | suspend _ => cases consumes
  | destroyed => cases consumes
  | tick => cases consumes

theorem wf_consumeEdge {m : Machine κ} (wf : Wf m) :
    Wf (m.withSched m.sched.consumeEdgeInterestChange) := by
  have waiters : m.sched.edges.consumeEdgeInterestChange.1.waiters = m.sched.edges.waiters := by
    unfold EdgeTable.consumeEdgeInterestChange
    split <;> rfl
  have same : m.sched.consumeEdgeInterestChange.skeleton = m.sched.skeleton := rfl
  refine WfAt.congr same (fun r queued => ?_) wf
  rcases queued with ⟨index, member⟩ | other
  · have here : r ∈ m.sched.edges.consumeEdgeInterestChange.1.waiters index := member
    rw [waiters] at here
    exact .inl ⟨index, here⟩
  · exact .inr other

theorem wf_step {m m' : Machine κ} (wf : Wf m) {action : Action}
    (stepped : m.step action = some m') : Wf m' := by
  cases consumes : action.consumes with
  | false => exact (path_step wf consumes stepped).wf wf
  | true =>
      rcases step_consumes consumes stepped with rfl | rfl
      · exact wf_consumeEdge wf
      · exact wf_timers wf false

/-- Every reachable machine meets the invariant. -/
theorem wf_of_reach {femtosecondsPerTick : Nat} {m : Machine κ}
    (reach : Reachable femtosecondsPerTick m) : Wf m :=
  reach.invariant (fun _ start => start ▸ wf_create _) fun _ _ _ wf _ stepped => wf_step wf stepped

/-- The rule for properties of the core. -/
theorem core_of_reach {femtosecondsPerTick : Nat} {m : Machine κ}
    (reach : Reachable femtosecondsPerTick m) {P : Scheduler → Prop}
    (congr : ∀ s t : Scheduler, t.core = s.core → P s → P t)
    (prims : ∀ (n : Machine κ) t, Wf n → P n.sched → Prim n.sched t → P t)
    (consumed : ∀ s, P s → P s.consumeEdgeInterestChange ∧ P s.consumeTimerScheduleChanged)
    (initially : P (.create femtosecondsPerTick)) : P m.sched := by
  refine reach.invariant_of (Q := fun m => P m.sched) (fun _ => wf_of_reach)
    (fun _ start => start ▸ initially) fun n n' action wf _ here _ stepped => ?_
  cases consumes : action.consumes with
  | false => exact (path_step wf consumes stepped).keeps wf congr prims here
  | true =>
      rcases step_consumes consumes stepped with rfl | rfl
      · exact (consumed _ here).1
      · exact (consumed _ here).2

end Cpptb.Coro
