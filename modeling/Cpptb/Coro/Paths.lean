/-
The functions of parts 2 and 3 as paths.

Each function that resumes, completes, finishes or cancels coroutines is a path from any machine that
meets the invariant. A loop over a queue is followed entry by entry; `cancelStateTo` is followed by
induction on its depth, and `Settles` says what it leaves alone: it adopts no coroutine and gives no
coroutine a new child.
-/

import Cpptb.Coro.Moves

namespace Cpptb.Coro

open Function (update)

variable {κ : Type}

/-! ### Edge queues -/

namespace EdgeTable

/-- Replace the queues. -/
def withWaiters (e : EdgeTable) (waiters : Nat → List WaitRegistration) : EdgeTable :=
  { e with waiters := waiters }

theorem withWaiters_recordEdgeInterestChange (e : EdgeTable)
    (waiters : Nat → List WaitRegistration) (signal : Nat) (previous : EdgeInterest) :
    (e.withWaiters waiters).recordEdgeInterestChange signal previous =
      (e.recordEdgeInterestChange signal previous).withWaiters waiters := by
  unfold recordEdgeInterestChange publish edgeInterest withWaiters
  simp only
  split
  · split
    · rfl
    · split <;> rfl
  · split
    · rfl
    · split <;> rfl

theorem withWaiters_dropInterest (e : EdgeTable) (waiters : Nat → List WaitRegistration)
    (queueIndex : Nat) :
    (e.withWaiters waiters).dropInterest queueIndex =
      (e.dropInterest queueIndex).withWaiters waiters := by
  unfold dropInterest
  simp only
  have counts : (e.withWaiters waiters).interestCounts = e.interestCounts := rfl
  rw [counts]
  split
  · rfl
  · exact withWaiters_recordEdgeInterestChange (e.setCount _ _ _) waiters _ _

theorem withWaiters_endWait (e : EdgeTable) (waiters : Nat → List WaitRegistration)
    (stateIndex edgeWaitCount fallingEdgeWaitCount : Nat) :
    (e.withWaiters waiters).endWait stateIndex edgeWaitCount fallingEdgeWaitCount =
      (e.endWait stateIndex edgeWaitCount fallingEdgeWaitCount).withWaiters waiters := by
  have drops : ∀ (indices : List Nat) (e : EdgeTable),
      indices.foldl dropInterest (e.withWaiters waiters) =
        (indices.foldl dropInterest e).withWaiters waiters := by
    intro indices
    induction indices with
    | nil => exact fun _ => rfl
    | cons index rest ih =>
        intro e
        rw [List.foldl_cons, List.foldl_cons, withWaiters_dropInterest]
        exact ih _
  have same : (e.withWaiters waiters).waitIndicesByState = e.waitIndicesByState := rfl
  unfold endWait removeEdgeInterests
  rw [same, drops]
  rfl

end EdgeTable

namespace Scheduler

theorem withQueue_endWait (s : Scheduler) (q : Nat) (queue : List WaitRegistration) (i : Nat) :
    (s.withQueue q queue).endWait i = (s.endWait i).withQueue q queue := by
  have states : (s.withQueue q queue).states = s.states := rfl
  have phases : (s.withQueue q queue).phases = s.phases := rfl
  unfold endWait
  simp only [states, phases]
  split
  · split
    · rfl
    · have ended := EdgeTable.withWaiters_endWait s.edges (update s.edges.waiters q queue) i
        (s.states i).edgeWaitCount (s.states i).fallingEdgeWaitCount
      have kept := EdgeTable.waiters_endWait s.edges i
        (s.states i).edgeWaitCount (s.states i).fallingEdgeWaitCount
      unfold EdgeTable.withWaiters at ended
      simp only [withQueue, ended, kept]
  · rfl

theorem withQueue_makeReady (s : Scheduler) (q : Nat) (queue : List WaitRegistration) (i : Nat)
    (cause : ReadyCause) :
    (s.withQueue q queue).makeReady i cause = (s.makeReady i cause).withQueue q queue := by
  unfold makeReady
  have count : (s.withQueue q queue).stateCount = s.stateCount := rfl
  have states : (s.withQueue q queue).states = s.states := rfl
  rw [count, states]
  split
  · rfl
  · split <;> rfl

theorem withQueue_setWinner (s : Scheduler) (q : Nat) (queue : List WaitRegistration)
    (r : WaitRegistration) :
    (s.withQueue q queue).setWinner r = (s.setWinner r).withQueue q queue := by
  unfold setWinner
  cases r.winner <;> rfl

theorem withQueue_resumeRegistration (s : Scheduler) (q : Nat) (queue : List WaitRegistration)
    (r : WaitRegistration) :
    (s.withQueue q queue).resumeRegistration r = (s.resumeRegistration r).withQueue q queue := by
  have recorded : (s.withQueue q queue).record (.fired r) =
      (s.record (.fired r)).withQueue q queue := rfl
  have states : ((s.record (.fired r)).withQueue q queue).states =
      (s.record (.fired r)).states := rfl
  unfold resumeRegistration
  simp only [recorded, states]
  split
  · rw [withQueue_endWait, withQueue_setWinner, withQueue_makeReady]
  · rfl

theorem withQueue_self (s : Scheduler) (q : Nat) : s.withQueue q (s.edges.waiters q) = s := by
  unfold withQueue
  rw [Function.update_eq_self]

theorem withQueue_withQueue (s : Scheduler) (q : Nat) (queue queue' : List WaitRegistration) :
    (s.withQueue q queue).withQueue q queue' = s.withQueue q queue' := by
  unfold withQueue
  simp only [Function.update_idem]

theorem waiters_withQueue (s : Scheduler) (q : Nat) (queue : List WaitRegistration) :
    (s.withQueue q queue).edges.waiters q = queue :=
  Function.update_self ..

theorem queued_withQueue {s : Scheduler} {q : Nat} {queue : List WaitRegistration}
    (fewer : ∀ r ∈ queue, r ∈ s.edges.waiters q) {r : WaitRegistration}
    (queued : (s.withQueue q queue).Queued r) : s.Queued r := by
  rcases queued with ⟨index, member⟩ | other
  · by_cases same : index = q
    · subst same
      have here : r ∈ update s.edges.waiters index queue index := member
      rw [Function.update_self] at here
      exact .inl ⟨index, fewer r here⟩
    · have here : r ∈ update s.edges.waiters q queue index := member
      rw [Function.update_of_ne same] at here
      exact .inl ⟨index, here⟩
  · exact .inr other

theorem queueCount_dropInterests (indices : List Nat) (e : EdgeTable) :
    (indices.foldl EdgeTable.dropInterest e).queueCount = e.queueCount := by
  induction indices generalizing e with
  | nil => rfl
  | cons index rest ih =>
      refine (ih _).trans ?_
      unfold EdgeTable.dropInterest EdgeTable.recordEdgeInterestChange EdgeTable.publish
      simp only
      split
      · rfl
      · split
        · split
          · rfl
          · split <;> rfl
        · split
          · rfl
          · split <;> rfl

theorem queueCount_endWait (s : Scheduler) (i : Nat) :
    (s.endWait i).edges.queueCount = s.edges.queueCount := by
  unfold endWait
  simp only
  split
  · split
    · rfl
    · exact queueCount_dropInterests _ _
  · rfl

theorem edges_makeReady (s : Scheduler) (i : Nat) (cause : ReadyCause) :
    (s.makeReady i cause).edges = s.edges := by
  unfold makeReady
  split
  · rfl
  · split <;> rfl

theorem edges_setWinner (s : Scheduler) (r : WaitRegistration) :
    (s.setWinner r).edges = s.edges := by
  unfold setWinner
  split <;> rfl

theorem queueCount_resumeRegistration (s : Scheduler) (r : WaitRegistration) :
    (s.resumeRegistration r).edges.queueCount = s.edges.queueCount := by
  unfold resumeRegistration
  simp only
  split
  · rw [edges_makeReady, edges_setWinner, queueCount_endWait]
    rfl
  · rfl

end Scheduler

theorem path_resumeEdgeEntries {m : Machine κ} {s : Scheduler} (q : Nat)
    (entries : List WaitRegistration) (wf : Wf m) (here : m.sched = s.withQueue q entries)
    (inside : q < s.edges.queueCount) :
    Path m (m.withSched ((s.resumeEdgeEntries entries).1.withQueue q [])) := by
  induction entries generalizing m s with
  | nil =>
      have same : m.withSched (s.withQueue q []) = m := by
        rw [← here]
        rfl
      show Path m (m.withSched (s.withQueue q []))
      rw [same]
      exact .refl m
  | cons r rest ih =>
      have inQueue : m.sched.Queued r := by
        refine .inl ⟨q, ?_⟩
        rw [here]
        show r ∈ (s.withQueue q (r :: rest)).edges.waiters q
        rw [Scheduler.waiters_withQueue]
        exact List.mem_cons_self
      have resumed := path_resumeRegistration (.inl (wf.posts.queued r inQueue))
      have after := resumed.wf wf
      have spent := Scheduler.invalid_resumeRegistration wf.slots r
      rw [here, Scheduler.withQueue_resumeRegistration] at resumed after spent
      -- the entry at the head of the queue is spent, and is taken out
      have waits := Scheduler.waiters_withQueue (s.resumeRegistration r) q (r :: rest)
      have dropped : Path (m.withSched ((s.resumeRegistration r).withQueue q (r :: rest)))
          (m.withSched ((s.resumeRegistration r).uncountEdgeEntry.withQueue q rest)) := by
        refine .prim (.dropEdge ((s.resumeRegistration r).withQueue q (r :: rest)) q r rest
          ?_ waits spent) ?_ fun wf' => ?_
        · show q < (s.resumeRegistration r).edges.queueCount
          rw [Scheduler.queueCount_resumeRegistration]
          exact inside
        · exact congrArg Scheduler.core
            (Scheduler.withQueue_withQueue (s.resumeRegistration r).uncountEdgeEntry q (r :: rest)
              rest).symm
        · have same : ((s.resumeRegistration r).uncountEdgeEntry.withQueue q rest).skeleton =
              ((s.resumeRegistration r).withQueue q (r :: rest)).skeleton := rfl
          refine WfAt.congr same (fun r' queued => ?_) wf'
          have fewer : ∀ r'' ∈ rest,
              r'' ∈ ((s.resumeRegistration r).withQueue q (r :: rest)).edges.waiters q := by
            rw [waits]
            exact fun r'' member => List.mem_cons_of_mem _ member
          refine Scheduler.queued_withQueue fewer ?_
          rw [Scheduler.withQueue_withQueue]
          exact queued
      refine (resumed.trans dropped).trans ?_
      refine ih (m := m.withSched ((s.resumeRegistration r).uncountEdgeEntry.withQueue q rest))
        (s := (s.resumeRegistration r).uncountEdgeEntry) (dropped.wf after) rfl ?_
      show q < (s.resumeRegistration r).edges.queueCount
      rw [Scheduler.queueCount_resumeRegistration]
      exact inside

theorem path_resumeEdgeQueue {m : Machine κ} (wf : Wf m) (q : Nat) :
    Path m (m.withSched (m.sched.resumeEdgeQueue q).1) := by
  unfold Scheduler.resumeEdgeQueue
  split
  · exact .refl m
  · rename_i inside
    exact path_resumeEdgeEntries q (m.sched.edges.waiters q) wf
      (Scheduler.withQueue_self m.sched q).symm (Nat.lt_of_not_le inside)

theorem path_resumeEdgeQueues {m : Machine κ} (wf : Wf m) (signal : Nat) (kind : EdgeKind) :
    Path m (m.withSched (m.sched.resumeEdgeQueues signal kind).1) := by
  have specific := path_resumeEdgeQueue wf (EdgeTable.queueIndex signal kind)
  unfold Scheduler.resumeEdgeQueues
  simp only
  split
  · exact specific
  · exact specific.trans (path_resumeEdgeQueue (specific.wf wf) (EdgeTable.queueIndex signal .any))

/-! ### Phase queues -/

theorem path_resumePhaseQueue {m : Machine κ} (wf : Wf m) (phase : Phase) :
    Path m (m.withSched (m.sched.resumePhaseQueue phase).1) := by
  have handed : ∀ r ∈ m.sched.phases.waiters phase, m.sched.Handed r := fun r member =>
    .inl (wf.posts.queued r (.inr (.inl ⟨phase, member⟩)))
  have resumed := path_resumeAll (m.sched.phases.waiters phase) handed
  have spent := (invalid_resumeAll wf (m.sched.phases.waiters phase) handed).2
  have kept : ∀ (queue : List WaitRegistration) (s : Scheduler),
      (s.resumeAll queue).1.phases.waiters = s.phases.waiters := by
    intro queue
    induction queue with
    | nil => exact fun _ => rfl
    | cons r rest ih =>
        intro s
        have one : (s.resumeRegistration r).phases.waiters = s.phases.waiters :=
          congrArg (fun around => around.posted.phases)
            (Scheduler.surroundings_resumeRegistration s r)
        exact (ih _).trans one
  refine resumed.trans ?_
  have all := congrFun (kept (m.sched.phases.waiters phase) m.sched) phase
  have result : (m.sched.resumePhaseQueue phase).1 =
      (m.sched.resumeAll (m.sched.phases.waiters phase)).1.withPhase phase [] := by
    unfold Scheduler.resumePhaseQueue Scheduler.withPhase
    simp only [all, List.drop_length]
  rw [result]
  refine .prim (.dropPhases _ phase ?_) rfl fun wf' => ?_
  · show ∀ r ∈ (m.sched.resumeAll _).1.phases.waiters phase, _
    rw [all]
    exact spent
  · have same : ((m.sched.resumeAll (m.sched.phases.waiters phase)).1.withPhase phase []).skeleton =
        (m.sched.resumeAll (m.sched.phases.waiters phase)).1.skeleton := rfl
    refine WfAt.congr same (fun r queued => ?_) wf'
    rcases queued with edge | ⟨phase', member⟩ | timer
    · exact .inl edge
    · by_cases same : phase' = phase
      · subst same
        have here : r ∈ update (m.sched.resumeAll (m.sched.phases.waiters phase')).1.phases.waiters
          phase' [] phase' := member
        rw [Function.update_self] at here
        cases here
      · have here : r ∈ update (m.sched.resumeAll (m.sched.phases.waiters phase)).1.phases.waiters
          phase [] phase' := member
        rw [Function.update_of_ne same] at here
        exact .inr (.inl ⟨phase', here⟩)
    · exact .inr (.inr timer)

/-! ### Timers -/

namespace TimerTable

theorem mem_discardFrom {valid : WaitRegistration → Bool} {t : TimerTable}
    {timer : TimerRegistration} (waiters : List TimerRegistration) :
    ∀ (next : Option TimerRegistration) (changed : Bool),
      (discardFrom valid next waiters changed t).next = some timer ∨
        timer ∈ (discardFrom valid next waiters changed t).waiters →
      next = some timer ∨ timer ∈ waiters := by
  induction waiters with
  | nil =>
      intro next changed member
      cases next with
      | none => simp [discardFrom] at member
      | some first =>
          unfold discardFrom at member
          split at member
          · exact member
          · simp at member
  | cons earliest rest ih =>
      intro next changed member
      have later : some earliest = some timer ∨ timer ∈ rest → timer ∈ earliest :: rest := by
        rintro (same | below)
        · exact Option.some.inj same ▸ List.mem_cons_self
        · exact List.mem_cons_of_mem _ below
      cases next with
      | none =>
          unfold discardFrom at member
          exact .inr (later (ih _ _ member))
      | some first =>
          unfold discardFrom at member
          split at member
          · exact member
          · exact .inr (later (ih _ _ member))

end TimerTable

theorem path_discardStaleTimers (m : Machine κ) :
    Path m (m.withSched m.sched.discardStaleTimers) := by
  refine .prim (.discardStaleTimers m.sched) rfl fun wf => ?_
  have same : m.sched.discardStaleTimers.skeleton = m.sched.skeleton := rfl
  refine WfAt.congr same (fun r queued => ?_) wf
  rcases queued with edge | phase | ⟨timer, member, wait⟩
  · exact .inl edge
  · exact .inr (.inl phase)
  · exact .inr (.inr ⟨timer, TimerTable.mem_discardFrom _ _ _ member, wait⟩)

namespace Scheduler

theorem withTimers_resumeRegistration (s : Scheduler) (timers : TimerTable)
    (r : WaitRegistration) :
    (s.withTimers timers).resumeRegistration r = (s.resumeRegistration r).withTimers timers := by
  have ended : ∀ s : Scheduler, (s.withTimers timers).endWait r.stateIndex =
      (s.endWait r.stateIndex).withTimers timers := by
    intro s
    unfold endWait withTimers
    simp only
    split
    · split <;> rfl
    · rfl
  have told : ∀ s : Scheduler, (s.withTimers timers).setWinner r =
      (s.setWinner r).withTimers timers := by
    intro s
    unfold setWinner
    cases r.winner <;> rfl
  have ready : ∀ (s : Scheduler) cause, (s.withTimers timers).makeReady r.stateIndex cause =
      (s.makeReady r.stateIndex cause).withTimers timers := by
    intro s cause
    have count : (s.withTimers timers).stateCount = s.stateCount := rfl
    have states : (s.withTimers timers).states = s.states := rfl
    unfold makeReady
    rw [count, states]
    split
    · rfl
    · split <;> rfl
  have recorded : (s.withTimers timers).record (.fired r) =
      (s.record (.fired r)).withTimers timers := rfl
  have states : ((s.record (.fired r)).withTimers timers).states =
      (s.record (.fired r)).states := rfl
  unfold resumeRegistration
  simp only [recorded, states]
  split
  · rw [ended, told, ready]
  · rfl

theorem timers_resumeRegistration (s : Scheduler) (r : WaitRegistration) :
    (s.resumeRegistration r).timers = s.timers :=
  congrArg (fun around => around.posted.timers) (surroundings_resumeRegistration s r)

end Scheduler

/-- The timer in front is taken, and its wait resumed. -/
theorem path_takeTimer {m : Machine κ} (wf : Wf m) {timer : TimerRegistration}
    (next : m.sched.timers.next = some timer) :
    Path m (m.withSched ((m.sched.withTimers { m.sched.timers with next := none }).resumeRegistration
      timer.wait)) := by
  have queued : m.sched.Queued timer.wait := .inr (.inr ⟨timer, .inl next, rfl⟩)
  have resumed := path_resumeRegistration (.inl (wf.posts.queued timer.wait queued))
  have kept := Scheduler.timers_resumeRegistration m.sched timer.wait
  refine resumed.trans ?_
  refine .prim (.dropTimer (m.sched.resumeRegistration timer.wait) timer ?_
    (Scheduler.invalid_resumeRegistration wf.slots timer.wait)) ?_ fun wf' => ?_
  · rw [kept]
    exact next
  · rw [kept]
    exact congrArg Scheduler.core (Scheduler.withTimers_resumeRegistration m.sched _ _)
  · have result := Scheduler.withTimers_resumeRegistration m.sched
      { m.sched.timers with next := none } timer.wait
    rw [result]
    have same : ((m.sched.resumeRegistration timer.wait).withTimers
        { m.sched.timers with next := none }).skeleton =
        (m.sched.resumeRegistration timer.wait).skeleton := rfl
    refine WfAt.congr same (fun r inQueue => ?_) wf'
    rcases inQueue with edge | phase | ⟨timer', member, wait⟩
    · exact .inl edge
    · exact .inr (.inl phase)
    · refine .inr (.inr ⟨timer', ?_, wait⟩)
      show (m.sched.resumeRegistration timer.wait).timers.next = _ ∨
        timer' ∈ (m.sched.resumeRegistration timer.wait).timers.waiters
      rw [kept]
      rcases member with first | later
      · cases first
      · exact .inr later

theorem path_advanceLoop (fuel : Nat) {m : Machine κ} (wf : Wf m) (popped resumed : Bool) :
    Path m (m.withSched (Scheduler.advanceLoop fuel m.sched popped resumed).1) := by
  induction fuel generalizing m popped resumed with
  | zero => exact .refl m
  | succ fuel ih =>
      have discarded := path_discardStaleTimers m
      have after := discarded.wf wf
      unfold Scheduler.advanceLoop
      simp only
      cases next : m.sched.discardStaleTimers.timers.next with
      | none => exact discarded
      | some timer =>
          simp only
          split
          · exact discarded
          · have taken := path_takeTimer after next
            exact (discarded.trans taken).trans (ih (taken.wf after) _ _)

theorem path_setTime (m : Machine κ) (time : Nat) :
    Path m (m.withSched { m.sched with currentPhase := .evaluation, now := time }) := by
  refine .prim (.setTime m.sched time) rfl fun wf => ?_
  have same : ({ m.sched with currentPhase := .evaluation, now := time } : Scheduler).skeleton =
      m.sched.skeleton := rfl
  exact WfAt.congr same (fun _ queued => queued) wf

theorem wf_timers {m : Machine κ} (wf : Wf m) (changed : Bool) :
    Wf (m.withSched (m.sched.withTimers { m.sched.timers with scheduleChanged := changed })) := by
  have same : (m.sched.withTimers { m.sched.timers with scheduleChanged := changed }).skeleton =
      m.sched.skeleton := rfl
  exact WfAt.congr same (fun _ queued => queued) wf

theorem path_touchTimers (m : Machine κ) : Path m (m.withSched m.sched.touchTimers) :=
  .prim (.touchTimers m.sched) rfl fun wf => wf_timers wf true

theorem path_advanceTimers {m : Machine κ} (wf : Wf m) (time : Nat) :
    Path m (m.withSched (m.sched.advanceTimers time).1) := by
  have timed := path_setTime m time
  have after := timed.wf wf
  unfold Scheduler.advanceTimers
  simp only
  split
  · exact timed
  · split
    · exact timed
    · have looped := timed.trans
        (path_advanceLoop (m.sched.timers.waiters.length + 2) after false false)
      refine looped.trans ?_
      split
      · exact path_touchTimers _
      · exact .refl _

/-! ### Process controls -/

/-- A control is changed, but not where its process is. -/
theorem WfAt.modifyControl {s : Scheduler} {stack : List (Frame κ)} {awaiters : Nat → Awaiter}
    (wf : WfAt s stack awaiters) (k : Nat) (change : ProcessControl → ProcessControl)
    (attached : (change (s.controls k)).attached = (s.controls k).attached)
    (index : (change (s.controls k)).stateIndex = (s.controls k).stateIndex)
    (done : (change (s.controls k)).done = false → (s.controls k).done = false)
    (waiters : ∀ r, (change (s.controls k)).completionWaiter = some r ∨
      r ∈ (change (s.controls k)).extraCompletionWaiters → s.Registered r) :
    WfAt (s.modifyControl k change) stack awaiters := by
  have self : (s.modifyControl k change).controls k = change (s.controls k) :=
    Function.update_self ..
  have others : ∀ k', k' ≠ k → (s.modifyControl k change).controls k' = s.controls k' :=
    fun k' other => Function.update_of_ne other ..
  have sameIndex : ∀ k', ((s.modifyControl k change).controls k').stateIndex =
      (s.controls k').stateIndex := by
    intro k'
    by_cases same : k' = k
    · rw [same, self, index]
    · rw [others k' same]
  have sameAttached : ∀ k', ((s.modifyControl k change).controls k').attached =
      (s.controls k').attached := by
    intro k'
    by_cases same : k' = k
    · rw [same, self, attached]
    · rw [others k' same]
  refine ⟨⟨wf.slots.named, wf.slots.vacant, wf.slots.quiet, wf.slots.apart, wf.slots.free,
    wf.slots.nodup⟩, ⟨fun k' attached' done' => ?_, fun i k' byState => ?_, fun k' new => ?_⟩,
    ⟨wf.posts.bounded, wf.posts.queued, fun k' r waits => ?_, wf.posts.notJoin, wf.posts.sole,
      wf.posts.own⟩,
    ⟨wf.frames.shaped, wf.frames.settled, wf.frames.head, wf.frames.idle, wf.frames.nodup,
      wf.frames.started⟩,
    ⟨wf.tree.continued, wf.tree.joined, wf.tree.room, wf.tree.timed, wf.tree.parked,
      wf.tree.fresh⟩, ⟨wf.awaited.known, wf.awaited.rootless⟩⟩
  · rw [sameIndex]
    refine wf.controls.attached k' (sameAttached k' ▸ attached') ?_
    by_cases same : k' = k
    · rw [same, self] at done'
      rw [same]
      exact done done'
    · rw [others k' same] at done'
      exact done'
  · rw [sameIndex]
    exact wf.controls.root i k' byState
  · rw [sameAttached]
    exact wf.controls.unused k' new
  · by_cases same : k' = k
    · rw [same, self] at waits
      exact waiters r waits
    · rw [others k' same] at waits
      exact wf.posts.waiters k' r waits

theorem path_modifyControl {m : Machine κ} (k : Nat) (change : ProcessControl → ProcessControl)
    (attached : (change (m.sched.controls k)).attached = (m.sched.controls k).attached)
    (index : (change (m.sched.controls k)).stateIndex = (m.sched.controls k).stateIndex)
    (done : (change (m.sched.controls k)).done = false → (m.sched.controls k).done = false)
    (waiters : Wf m → ∀ r, (change (m.sched.controls k)).completionWaiter = some r ∨
      r ∈ (change (m.sched.controls k)).extraCompletionWaiters → m.sched.Registered r) :
    Path m (m.withSched (m.sched.modifyControl k change)) :=
  .admin rfl fun wf => wf.modifyControl k change attached index done (waiters wf)

theorem path_resumeCompletionWaiters {m : Machine κ} (wf : Wf m) (k : Nat) :
    Path m (m.withSched (m.sched.resumeCompletionWaiters k)) := by
  have extra : ∀ r ∈ (m.sched.controls k).extraCompletionWaiters, m.sched.Handed r :=
    fun r member => .inl (wf.posts.waiters k r (.inr member))
  have cleared : ∀ n : Machine κ, Path n (n.withSched (n.sched.modifyControl k fun process =>
      { process with completionWaiter := none, extraCompletionWaiters := [] })) := by
    intro n
    refine path_modifyControl k _ rfl rfl (fun done => done) fun _ r waits => ?_
    rcases waits with first | later
    · cases first
    · cases later
  unfold Scheduler.resumeCompletionWaiters
  simp only
  cases first : (m.sched.controls k).completionWaiter with
  | none => exact (path_resumeAll _ extra).trans (cleared _)
  | some r =>
      have handed : m.sched.Handed r := .inl (wf.posts.waiters k r (.inl first))
      have resumed := path_resumeRegistration handed
      refine (resumed.trans (path_resumeAll _ fun r' member => ?_)).trans (cleared _)
      exact (Scheduler.handed_resumeRegistration _ _ _).mpr (extra r' member)

theorem path_requestCancellation (m : Machine κ) (k : Nat) :
    Path m (m.withSched (m.sched.requestCancellation k)) := by
  have changed : Path m (m.withSched (m.sched.modifyControl k fun process =>
      { process with cancellationRequested := true })) :=
    path_modifyControl k _ rfl rfl (fun done => done) fun wf r waits => wf.posts.waiters k r waits
  unfold Scheduler.requestCancellation
  simp only
  split
  · exact .refl m
  · exact changed.trans (.outside rfl rfl)

theorem path_requestCancellations (requests : List Nat) (m : Machine κ) :
    Path m (m.withSched (requests.foldl Scheduler.requestCancellation m.sched)) := by
  induction requests generalizing m with
  | nil => exact .refl m
  | cons k rest ih => exact (path_requestCancellation m k).trans (ih _)

end Cpptb.Coro
