/-
Changes of the stack and of the awaiters.

* `WfAt.restack` — the general rule: the new stack is well formed, hands out no registration of its
  own, and loses no body whose awaiter is external;
* `WfAt.push_plain`, `WfAt.pop_plain` — activations that belong to no coroutine;
* `WfAt.push_body`, `WfAt.pop_body`, `WfAt.settle_body` — a body is resumed, suspends, or has run its
  `await_resume`;
* `WfAt.suspended` — a coroutine without live children is suspended in a new awaiter.
-/

import Cpptb.Coro.Preservation

namespace Cpptb.Coro

open Function (update)

variable {κ : Type} {s : Scheduler} {stack rest : List (Frame κ)} {awaiters : Nat → Awaiter}

/-! ### The general rule -/

/-- The head of a stack has run its `await_resume`, or it is the only one that matters. -/
def HeadOk (awaiters : Nat → Awaiter) (stack : List (Frame κ)) : Prop :=
  ∀ f, stack.head? = some f → f.Settled awaiters ∨
    ∃ h, f = .body h true ∧ ∀ c, awaiters h = .timeout c → bodies stack.tail = []

theorem HeadOk.of_settled (settled : ∀ f ∈ stack, f.Settled awaiters) : HeadOk awaiters stack :=
  fun f head => .inl (settled f (List.mem_of_mem_head? head))

/-- The new stack is well formed, hands out nothing new and drops no external awaiter. -/
theorem WfAt.restack (wf : WfAt s stack awaiters) {stack' : List (Frame κ)}
    (shaped : Shaped s.draining stack') (settled : ∀ f ∈ stack'.tail, f.Settled awaiters)
    (head : HeadOk awaiters stack') (idle : ∀ h ∈ bodies stack', s.Idle h)
    (nodup : (bodies stack').Nodup)
    (started : ∀ parent generation femtoseconds,
      Frame.timeoutStart parent generation femtoseconds ∈ stack' →
        Frame.timeoutStart parent generation femtoseconds ∈ stack)
    (fewer : ∀ h ∈ bodies stack', h ∈ bodies stack ∨
      ∀ c, s.Alive c → (s.promises c).continuation ≠ some h)
    (kept : ∀ h ∈ bodies stack, h ∈ bodies stack' ∨ ∀ r, awaiters h ≠ .external r) :
    WfAt s stack' awaiters where
  slots := wf.slots
  controls := wf.controls
  posts := by
    have bound : ∀ r, Bound s stack' r → Bound s stack r := by
      rintro r (registered | ⟨parent, generation, femtoseconds, member, same⟩)
      · exact .inl registered
      · exact .inr ⟨parent, generation, femtoseconds, started _ _ _ member, same⟩
    have issued : ∀ r, Issued s stack' r → Issued s stack r := fun r => Or.imp (bound r) id
    exact ⟨fun r here => wf.posts.bounded r (issued r here), wf.posts.queued, wf.posts.waiters,
      fun r h j here => wf.posts.notJoin r h j (issued r here), wf.posts.sole,
      fun r r' external here => wf.posts.own r r' external (bound r' here)⟩
  frames := ⟨shaped, settled, head, idle, nodup,
    fun parent generation femtoseconds member =>
      wf.frames.started parent generation femtoseconds (started _ _ _ member)⟩
  tree := by
    refine ⟨fun c p alive continued => ?_, wf.tree.joined, wf.tree.room, wf.tree.timed,
      fun h r alive suspended => ?_, wf.tree.fresh⟩
    · obtain ⟨older, idleParent, inTask, away⟩ := wf.tree.continued c p alive continued
      refine ⟨older, idleParent, inTask, fun member => ?_⟩
      rcases fewer p member with before | childless
      · exact away before
      · exact childless c alive continued
    · obtain ⟨index, generation, external, still⟩ := wf.tree.parked h r alive suspended
      refine ⟨index, generation, external, ?_⟩
      rcases still with member | waits
      · rcases kept h member with here | inside
        · exact .inl here
        · exact absurd suspended (inside r)
      · exact .inr waits
  awaited := wf.awaited

/-! ### Activations that belong to no coroutine -/

/-- The activation belongs to no coroutine and does not end a drain. -/
def Frame.plain : Frame κ → Bool
  | .destroying _ | .collect _ _ | .reclaimed | .boundary _ | .object _ => true
  | _ => false

namespace Frame

variable {f : Frame κ}

theorem bodyHandle_of_plain (plain : f.plain = true) : f.bodyHandle = none := by
  cases f <;> first | rfl | cases plain

theorem needsDrain_of_plain (plain : f.plain = true) : f.needsDrain = false := by
  cases f <;> first | rfl | cases plain

theorem below_of_plain (plain : f.plain = true) (draining : Bool) :
    f.below draining = draining := by
  cases f <;> first | rfl | cases plain

theorem settled_of_plain (plain : f.plain = true) : f.Settled awaiters := by
  cases f <;> trivial

theorem ne_timeoutStart_of_plain (plain : f.plain = true) (parent generation femtoseconds : Nat) :
    Frame.timeoutStart parent generation femtoseconds ≠ f := by
  rintro rfl
  cases plain

end Frame

theorem bodies_cons_plain {f : Frame κ} (plain : f.plain = true) :
    bodies (f :: rest) = bodies rest := by
  unfold bodies
  rw [List.filterMap_cons, Frame.bodyHandle_of_plain plain]

theorem shaped_cons_plain {f : Frame κ} (plain : f.plain = true) {draining : Bool} :
    Shaped draining (f :: rest) ↔ Shaped draining rest := by
  unfold Shaped
  rw [Frame.needsDrain_of_plain plain, Frame.below_of_plain plain]
  cases rest <;> simp [Shaped]

/-- Every activation but the head has run its `await_resume`. -/
theorem WfAt.settledBelow {f : Frame κ} (wf : WfAt s (f :: rest) awaiters) :
    ∀ g ∈ rest, g.Settled awaiters :=
  wf.frames.settled

theorem WfAt.push_plain (wf : WfAt s rest awaiters) {f : Frame κ} (plain : f.plain = true)
    (settled : ∀ g ∈ rest, g.Settled awaiters) : WfAt s (f :: rest) awaiters := by
  have same : bodies (f :: rest) = bodies rest := bodies_cons_plain plain
  refine wf.restack ((shaped_cons_plain plain).mpr wf.frames.shaped) settled ?_ ?_ ?_ ?_ ?_ ?_
  · refine HeadOk.of_settled fun g member => ?_
    rcases List.mem_cons.mp member with rfl | below
    · exact Frame.settled_of_plain plain
    · exact settled g below
  · rw [same]
    exact wf.frames.idle
  · rw [same]
    exact wf.frames.nodup
  · intro parent generation femtoseconds member
    rcases List.mem_cons.mp member with here | below
    · exact absurd here (Frame.ne_timeoutStart_of_plain plain _ _ _)
    · exact below
  · exact fun h member => .inl (same ▸ member)
  · exact fun h member => .inl (same.symm ▸ member)

theorem WfAt.pop_plain {f : Frame κ} (wf : WfAt s (f :: rest) awaiters)
    (plain : f.plain = true) : WfAt s rest awaiters := by
  have same : bodies (f :: rest) = bodies rest := bodies_cons_plain plain
  refine wf.restack ((shaped_cons_plain plain).mp wf.frames.shaped)
    (fun g member => wf.settledBelow g (List.mem_of_mem_tail member))
    (HeadOk.of_settled wf.settledBelow) ?_ ?_ ?_ ?_ ?_
  · rw [← same]
    exact wf.frames.idle
  · rw [← same]
    exact wf.frames.nodup
  · exact fun parent generation femtoseconds member => List.mem_cons_of_mem _ member
  · exact fun h member => .inl (same.symm ▸ member)
  · exact fun h member => .inl (same ▸ member)

/-- One activation that belongs to no coroutine replaces another. -/
theorem WfAt.swap_plain {f g : Frame κ} (wf : WfAt s (f :: rest) awaiters)
    (plain : f.plain = true) (plain' : g.plain = true) : WfAt s (g :: rest) awaiters :=
  (wf.pop_plain plain).push_plain plain' wf.settledBelow

/-! ### Bodies -/

theorem bodies_cons_body (f : Frame κ) {h : Nat} (isBody : f.bodyHandle = some h) :
    bodies (f :: rest) = h :: bodies rest := by
  unfold bodies
  rw [List.filterMap_cons, isBody]

/-- The activation of a settled coroutine body ends. -/
theorem WfAt.pop_body {f : Frame κ} (wf : WfAt s (f :: rest) awaiters) {h : Nat}
    (isBody : f.bodyHandle = some h) (settled : awaiters h = .none) : WfAt s rest awaiters := by
  have cons : bodies (f :: rest) = h :: bodies rest := bodies_cons_body f isBody
  have shaped : Shaped s.draining rest := by
    have below : f.below s.draining = s.draining := by
      cases f <;> first | rfl | cases isBody
    have lower := wf.frames.shaped.2
    rwa [below] at lower
  refine wf.restack shaped (fun g member => wf.settledBelow g (List.mem_of_mem_tail member))
    (HeadOk.of_settled wf.settledBelow) ?_ ?_ ?_ ?_ ?_
  · intro h' member
    exact wf.frames.idle h' (cons ▸ List.mem_cons_of_mem _ member)
  · have nodup := wf.frames.nodup
    rw [cons] at nodup
    exact nodup.of_cons
  · exact fun parent generation femtoseconds member => List.mem_cons_of_mem _ member
  · exact fun h' member => .inl (cons ▸ List.mem_cons_of_mem _ member)
  · intro h' member
    rw [cons] at member
    rcases List.mem_cons.mp member with rfl | below
    · exact .inr fun r => by simp [settled]
    · exact .inl below

/-- A coroutine is resumed: it is idle, and no live child will transfer to it. -/
theorem WfAt.push_body (wf : WfAt s rest awaiters) {f : Frame κ} {h : Nat}
    (isBody : f.bodyHandle = some h) (draining : s.draining = true) (idle : s.Idle h)
    (away : h ∉ bodies rest) (childless : ∀ c, s.Alive c → (s.promises c).continuation ≠ some h)
    (settled : ∀ g ∈ rest, g.Settled awaiters)
    (head : f.Settled awaiters ∨ f = .body h true ∧
      ∀ c, awaiters h = .timeout c → bodies rest = []) :
    WfAt s (f :: rest) awaiters := by
  have cons : bodies (f :: rest) = h :: bodies rest := bodies_cons_body f isBody
  have below : f.below s.draining = s.draining := by
    cases f <;> first | rfl | cases isBody
  refine wf.restack ?_ settled ?_ ?_ ?_ ?_ ?_ ?_
  · exact ⟨fun _ => draining, below.symm ▸ wf.frames.shaped⟩
  · intro g top
    obtain rfl : f = g := Option.some.inj top
    exact head.imp id fun entering => ⟨h, entering⟩
  · rw [cons]
    intro h' member
    rcases List.mem_cons.mp member with rfl | lower
    · exact idle
    · exact wf.frames.idle h' lower
  · rw [cons]
    exact List.nodup_cons.mpr ⟨away, wf.frames.nodup⟩
  · intro parent generation femtoseconds member
    rcases List.mem_cons.mp member with same | lower
    · subst same
      cases isBody
    · exact lower
  · rw [cons]
    intro h' member
    rcases List.mem_cons.mp member with rfl | lower
    · exact .inr childless
    · exact .inl lower
  · exact fun h' member => .inl (cons ▸ List.mem_cons_of_mem _ member)

/-- The head of the stack becomes another activation of the same coroutine. -/
theorem WfAt.swap_body {f g : Frame κ} (wf : WfAt s (f :: rest) awaiters) {h : Nat}
    (isBody : f.bodyHandle = some h) (isBody' : g.bodyHandle = some h)
    (settled : g.Settled awaiters) : WfAt s (g :: rest) awaiters := by
  have cons : bodies (f :: rest) = h :: bodies rest := bodies_cons_body f isBody
  have cons' : bodies (g :: rest) = h :: bodies rest := bodies_cons_body g isBody'
  have below : f.below s.draining = s.draining := by
    cases f <;> first | rfl | cases isBody
  have below' : g.below s.draining = s.draining := by
    cases g <;> first | rfl | cases isBody'
  have draining : s.draining = true := by
    refine wf.frames.shaped.1 ?_
    cases f <;> first | rfl | cases isBody
  refine wf.restack ?_ wf.settledBelow ?_ ?_ ?_ ?_ ?_ ?_
  · have lower := wf.frames.shaped.2
    rw [below] at lower
    exact ⟨fun _ => draining, below'.symm ▸ lower⟩
  · intro f' top
    obtain rfl : g = f' := Option.some.inj top
    exact .inl settled
  · rw [cons', ← cons]
    exact wf.frames.idle
  · rw [cons', ← cons]
    exact wf.frames.nodup
  · intro parent generation femtoseconds member
    rcases List.mem_cons.mp member with same | lower
    · subst same
      cases isBody'
    · exact List.mem_cons_of_mem _ lower
  · exact fun h' member => .inl (cons ▸ cons' ▸ member)
  · exact fun h' member => .inl (cons' ▸ cons ▸ member)

/-! ### Awaiters -/

theorem settled_update_of_ne {f : Frame κ} {h : Nat} {x : Awaiter}
    (other : f.bodyHandle ≠ some h) :
    f.Settled (update awaiters h x) ↔ f.Settled awaiters := by
  cases f with
  | body h' e =>
      have ne : h' ≠ h := fun same => other (congrArg some same)
      simp only [Frame.Settled, Function.update_of_ne ne]
  | inlineRun h' _ _ _ =>
      have ne : h' ≠ h := fun same => other (congrArg some same)
      simp only [Frame.Settled, Function.update_of_ne ne]
  | inlineEnd h' _ =>
      have ne : h' ≠ h := fun same => other (congrArg some same)
      simp only [Frame.Settled, Function.update_of_ne ne]
  | destroying _ => rfl
  | drain _ => rfl
  | collect _ _ => rfl
  | reclaimed => rfl
  | boundary _ => rfl
  | timeoutStart _ _ _ => rfl
  | object _ => rfl

theorem bodyHandle_ne_of_notMem {f : Frame κ} {h : Nat} (member : f ∈ stack)
    (away : h ∉ bodies stack) : f.bodyHandle ≠ some h := fun same =>
  away (List.mem_filterMap.mpr ⟨f, member, same⟩)

/-- What an awaiter says about the coroutine that is suspended in it. -/
def Suspends (s : Scheduler) (stack : List (Frame κ)) (h : Nat) : Awaiter → Prop
  | .join _ => ∀ r, Issued s stack r → registrationValid s.states r = true →
      (s.slot r.stateIndex).handle ≠ some h
  | .timeout _ => (s.promises h).continuation ≠ none
  | .external r => (s.promises h).stateIndex = r.stateIndex ∧
      (s.slotOf h).generation = r.generation ∧ s.External r ∧
      (h ∈ bodies stack ∨ (s.slotOf h).waiting = true ∨ (s.slotOf h).ready = true)
  | _ => True

theorem PostsOk.setAwaiter (ok : PostsOk s stack awaiters) {h : Nat} {x : Awaiter}
    (suspends : Suspends s stack h x) : PostsOk s stack (update awaiters h x) := by
  refine ⟨ok.bounded, ok.queued, ok.waiters, fun r h' j issued valid handle => ?_, ok.sole,
    ok.own⟩
  by_cases same : h' = h
  · subst same
    rw [Function.update_self]
    rintro rfl
    exact suspends r issued valid handle
  · rw [Function.update_of_ne same]
    exact ok.notJoin r h' j issued valid handle

theorem StackOk.setAwaiter (ok : StackOk s stack awaiters) {h : Nat} {x : Awaiter}
    (away : h ∉ bodies stack) : StackOk s stack (update awaiters h x) := by
  refine ⟨ok.shaped, fun f member => ?_, fun f top => ?_, ok.idle, ok.nodup, ok.started⟩
  · have other := bodyHandle_ne_of_notMem (List.mem_of_mem_tail member) away
    exact (settled_update_of_ne other).mpr (ok.settled f member)
  · have other := bodyHandle_ne_of_notMem (List.mem_of_mem_head? top) away
    rcases ok.head f top with settled | ⟨h', rfl, only⟩
    · exact .inl ((settled_update_of_ne other).mpr settled)
    · have ne : h' ≠ h := fun same => other (congrArg some same)
      refine .inr ⟨h', rfl, fun c => ?_⟩
      rw [Function.update_of_ne ne]
      exact only c

theorem TreeOk.setAwaiter (ok : TreeOk s stack awaiters) {h : Nat} {x : Awaiter}
    (childless : Childless s h) (known : h ≤ s.nextCoroutineId)
    (suspends : Suspends s stack h x) : TreeOk s stack (update awaiters h x) := by
  refine ⟨fun c p alive continued => ?_, fun c j alive joined => ?_, ok.room,
    fun h' c alive suspended => ?_, fun h' r alive suspended => ?_, fun h' new => ?_⟩
  · have ne : p ≠ h := fun same => (childless c alive).1 (same ▸ continued)
    rw [Function.update_of_ne ne]
    exact ok.continued c p alive continued
  · have ne := (childless c alive).2 j joined
    rw [Function.update_of_ne ne]
    exact ok.joined c j alive joined
  · by_cases same : h' = h
    · subst same
      rw [Function.update_self] at suspended
      subst suspended
      exact suspends
    · rw [Function.update_of_ne same] at suspended
      exact ok.timed h' c alive suspended
  · by_cases same : h' = h
    · subst same
      rw [Function.update_self] at suspended
      subst suspended
      exact suspends
    · rw [Function.update_of_ne same] at suspended
      exact ok.parked h' r alive suspended
  · have ne : h' ≠ h := by
      rintro rfl
      exact absurd known (Nat.not_le.mpr new)
    rw [Function.update_of_ne ne]
    exact ok.fresh h' new

/-- A coroutine without live children is suspended in an awaiter that awaits no coroutine. -/
theorem WfAt.suspended (wf : WfAt s stack awaiters) {h : Nat} {x : Awaiter}
    (childless : Childless s h) (known : h ≤ s.nextCoroutineId) (away : h ∉ bodies stack)
    (task : ∀ c, x ≠ .task c) (timeout : ∀ c, x ≠ .timeout c) (suspends : Suspends s stack h x) :
    WfAt s stack (update awaiters h x) where
  slots := wf.slots
  controls := wf.controls
  posts := wf.posts.setAwaiter suspends
  frames := wf.frames.setAwaiter away
  tree := wf.tree.setAwaiter childless known suspends
  awaited := by
    refine ⟨fun h' c suspended => ?_, fun h' c i suspended => ?_⟩
    · by_cases same : h' = h
      · subst same
        rw [Function.update_self] at suspended
        exact absurd suspended (not_or.mpr ⟨task c, timeout c⟩)
      · rw [Function.update_of_ne same] at suspended
        exact wf.awaited.known h' c suspended
    · by_cases same : h' = h
      · subst same
        rw [Function.update_self] at suspended
        exact absurd suspended (not_or.mpr ⟨task c, timeout c⟩)
      · rw [Function.update_of_ne same] at suspended
        exact wf.awaited.rootless h' c i suspended

/-- The body on top has run its `await_resume`. -/
theorem WfAt.settle_body {h : Nat} {e : Bool} (wf : WfAt s (.body h e :: rest) awaiters)
    (childless : Childless s h) : WfAt s (.body h false :: rest) (update awaiters h .none) := by
  have cons : bodies (.body h e :: rest) = h :: bodies rest := bodies_cons_body _ rfl
  have nodup := wf.frames.nodup
  rw [cons] at nodup
  have away : h ∉ bodies rest := (List.nodup_cons.mp nodup).1
  have alive := (wf.frames.idle h (cons ▸ List.mem_cons_self)).1
  have known := (wf.slots.bounds alive).1
  have suspends : Suspends s (.body h e :: rest) h .none := trivial
  have settled : ∀ f ∈ rest, f.Settled (update awaiters h .none) := fun f member =>
    (settled_update_of_ne (bodyHandle_ne_of_notMem member away)).mpr (wf.settledBelow f member)
  have none : ((Frame.body h false : Frame κ)).Settled (update awaiters h .none) :=
    ⟨rfl, Function.update_self ..⟩
  have tree := wf.tree.setAwaiter childless known suspends
  refine ⟨wf.slots, wf.controls, ?_, ?_, ?_, ?_⟩
  · have posts := wf.posts.setAwaiter suspends
    have bound : ∀ r, Bound s (.body h false :: rest) r → Bound s (.body h e :: rest) r := by
      rintro r (registered | ⟨parent, generation, femtoseconds, member, same⟩)
      · exact .inl registered
      · rcases List.mem_cons.mp member with here | lower
        · cases here
        · exact .inr ⟨parent, generation, femtoseconds, List.mem_cons_of_mem _ lower, same⟩
    have issued : ∀ r, Issued s (.body h false :: rest) r → Issued s (.body h e :: rest) r :=
      fun r => Or.imp (bound r) id
    exact ⟨fun r here => posts.bounded r (issued r here), posts.queued, posts.waiters,
      fun r h' j here => posts.notJoin r h' j (issued r here), posts.sole,
      fun r r' external here => posts.own r r' external (bound r' here)⟩
  · refine ⟨wf.frames.shaped, settled, fun f top => ?_, wf.frames.idle, wf.frames.nodup, ?_⟩
    · obtain rfl : (.body h false : Frame κ) = f := Option.some.inj top
      exact .inl none
    · intro parent generation femtoseconds member
      rcases List.mem_cons.mp member with here | lower
      · cases here
      · exact wf.frames.started _ _ _ (List.mem_cons_of_mem _ lower)
  · exact ⟨tree.continued, tree.joined, tree.room, tree.timed, tree.parked, tree.fresh⟩
  · refine ⟨fun h' c suspended => ?_, fun h' c i suspended => ?_⟩
    · by_cases same : h' = h
      · subst same
        rw [Function.update_self] at suspended
        simp at suspended
      · rw [Function.update_of_ne same] at suspended
        exact wf.awaited.known h' c suspended
    · by_cases same : h' = h
      · subst same
        rw [Function.update_self] at suspended
        simp at suspended
      · rw [Function.update_of_ne same] at suspended
        exact wf.awaited.rootless h' c i suspended

end Cpptb.Coro
