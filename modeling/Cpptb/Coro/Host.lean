/-
The host's edge observers.

`Host` is a machine and the edge mask the host holds for each signal. After a step the host syncs:
it consumes every pending edge-interest change, sets the mask of an ordinary signal to its current
interest and widens the mask of a sticky one.

* `Synced` — what holds of the edge table and the masks in every reachable state: an ordinary signal
  is pending or its mask is exact, and what a sticky signal needs has been published;
* `Publishes` — a change of the edge table that keeps it, whatever the masks are;
* `ordinary_masks_exact` — after every sync the mask of an ordinary signal is its interest;
* `sticky_masks_cover` — after every sync the mask of a sticky signal contains its interest, in the
  runs in which what was published is still awaited when the host reads it.
-/

import Cpptb.Coro.Bookkeeping

namespace Cpptb.Coro

open Function (update)
open Cpptb.Runs (Reach)

variable {κ : Type}

/-! ### The host -/

/-- What the host does with one reported change. -/
def applyChange (e : EdgeTable) (masks : Nat → EdgeInterest) (change : Nat × EdgeInterest) :
    Nat → EdgeInterest :=
  if e.stickySources change.1 then
    update masks change.1 ((masks change.1).union change.2)
  else if e.staticSources change.1 then masks
  else update masks change.1 change.2

/-- `sync_edge_interest_changes`: consume changes, at most `fuel` of them. -/
def syncChanges : Nat → EdgeTable → (Nat → EdgeInterest) → EdgeTable × (Nat → EdgeInterest)
  | 0, e, masks => (e, masks)
  | fuel + 1, e, masks =>
      match e.consumeEdgeInterestChange with
      | (e, none) => (e, masks)
      | (e, some change) => syncChanges fuel e (applyChange e masks change)

/-- A machine and the masks of its host. -/
structure Host (κ : Type) where
  machine : Machine κ
  masks : Nat → EdgeInterest := fun _ => .none

/-- An action of the machine, or the sync that ends a step of the host. -/
inductive HostAction
  | act (action : Action)
  | sync

namespace Host

/-- The edge table of the scheduler. -/
def edges (h : Host κ) : EdgeTable := h.machine.sched.edges

/-- Consume every pending change. -/
def sync (h : Host κ) : Host κ :=
  let after := syncChanges h.edges.changes.length h.edges h.masks
  { machine := h.machine.withSched { h.machine.sched with edges := after.1 }, masks := after.2 }

/-- One action. Only the host's sync consumes edge-interest changes; it runs between the calls of
the host. -/
def step (h : Host κ) : HostAction → Option (Host κ)
  | .act action =>
      if action = .call .consumeEdgeInterestChange then none
      else (h.machine.step action).map fun m => { h with machine := m }
  | .sync => if h.machine.stack.isEmpty && !h.machine.sched.aborted then some h.sync else none

/-- A new scheduler, and a host that observes nothing. -/
def create (femtosecondsPerTick : Nat) : Host κ := { machine := .create femtosecondsPerTick }

/-- The host after a run, or a new host if there is no such run. -/
def after (femtosecondsPerTick : Nat) (actions : List HostAction) : Host κ :=
  (Runs.run step (create femtosecondsPerTick) actions).getD (create femtosecondsPerTick)

end Host

/-! ### Masks -/

namespace EdgeInterest

theorem within_trans {x y z : EdgeInterest} (first : x.Within y) (second : y.Within z) :
    x.Within z :=
  ⟨second.1 ∘ first.1, second.2 ∘ first.2⟩

theorem none_within (x : EdgeInterest) : EdgeInterest.none.Within x :=
  ⟨fun impossible => (Bool.false_ne_true impossible).elim,
    fun impossible => (Bool.false_ne_true impossible).elim⟩

theorem within_union_left (x y : EdgeInterest) : x.Within (x.union y) := by
  unfold Within union
  simp only [Bool.or_eq_true]
  exact ⟨.inl, .inl⟩

/-- Nothing is new. -/
theorem within_of_minus {x y : EdgeInterest} (nothing : x.minus y = .none) : x.Within y := by
  rcases x with ⟨_ | _, _ | _⟩ <;> rcases y with ⟨_ | _, _ | _⟩ <;> revert nothing <;> decide

theorem within_minus_union (x y : EdgeInterest) : x.Within (y.union (x.minus y)) := by
  rcases x with ⟨_ | _, _ | _⟩ <;> rcases y with ⟨_ | _, _ | _⟩ <;> decide

end EdgeInterest

/-! ### The invariant -/

/-- The pending changes are exact, an ordinary signal is pending or its mask is its interest, and
the interest of a sticky signal has been published. -/
structure Synced (e : EdgeTable) (masks : Nat → EdgeInterest) : Prop where
  nodup : e.changes.Nodup
  queued : ∀ signal, signal ∈ e.changes ↔ e.changePending signal = true
  ordinary : ∀ signal, e.stickySources signal = false → e.staticSources signal = false →
    e.changePending signal = true ∨ masks signal = e.edgeInterest signal
  published : ∀ signal, e.stickySources signal = true →
    (e.edgeInterest signal).Within (e.stickyInterest signal)
  unpublished : ∀ signal, e.stickySources signal = false → e.stickyInterest signal = .none

/-- What was published for a sticky signal is pending or in the mask of the host. -/
def Covered (e : EdgeTable) (masks : Nat → EdgeInterest) : Prop :=
  ∀ signal, e.stickySources signal = true →
    e.changePending signal = true ∨ (e.stickyInterest signal).Within (masks signal)

/-- What was published for a sticky signal is in the mask of the host or is still awaited. -/
def Awaited (e : EdgeTable) (masks : Nat → EdgeInterest) : Prop :=
  ∀ signal, e.stickySources signal = true →
    (e.stickyInterest signal).Within ((masks signal).union (e.edgeInterest signal))

/-- A change of the edge table that keeps the invariant, whatever the masks are. -/
def Publishes (e e' : EdgeTable) : Prop :=
  ∀ masks, Synced e masks → Synced e' masks ∧ (Covered e masks → Covered e' masks)

namespace Publishes

variable {e e' e'' : EdgeTable}

theorem refl (e : EdgeTable) : Publishes e e := fun _ ok => ⟨ok, id⟩

theorem trans (first : Publishes e e') (second : Publishes e' e'') : Publishes e e'' :=
  fun masks ok =>
    have ⟨ok', covered⟩ := first masks ok
    have ⟨ok'', covered'⟩ := second masks ok'
    ⟨ok'', covered' ∘ covered⟩

/-- Nothing that concerns the host changes. -/
theorem of_same (interest : e'.edgeInterest = e.edgeInterest) (changes : e'.changes = e.changes)
    (pending : e'.changePending = e.changePending) (static : e'.staticSources = e.staticSources)
    (sticky : e'.stickySources = e.stickySources)
    (published : e'.stickyInterest = e.stickyInterest) : Publishes e e' := by
  intro masks ok
  unfold Covered
  rw [pending, sticky, published]
  refine ⟨⟨?_, fun signal => ?_, fun signal => ?_, fun signal => ?_, fun signal => ?_⟩, id⟩
  · rw [changes]
    exact ok.nodup
  · rw [changes, pending]
    exact ok.queued signal
  · rw [sticky, static, pending, interest]
    exact ok.ordinary signal
  · rw [sticky, interest, published]
    exact ok.published signal
  · rw [sticky, published]
    exact ok.unpublished signal

end Publishes

namespace EdgeTable

/-- `publish` queues a signal that is not queued. -/
theorem publish_spec (e : EdgeTable) (signal : Nat) :
    (e.publish signal).edgeInterest = e.edgeInterest ∧
      (e.publish signal).staticSources = e.staticSources ∧
      (e.publish signal).stickySources = e.stickySources ∧
      (e.publish signal).stickyInterest = e.stickyInterest ∧
      (e.publish signal).changePending = update e.changePending signal true ∧
      (e.publish signal).changes =
        if e.changePending signal then e.changes else e.changes ++ [signal] := by
  unfold publish
  simp only
  split
  · rename_i pending
    refine ⟨rfl, rfl, rfl, rfl, ?_, rfl⟩
    exact (Function.update_eq_self_iff.mpr pending.symm).symm
  · exact ⟨rfl, rfl, rfl, rfl, rfl, rfl⟩

/-- The interest of one signal has changed, and the change is recorded. -/
theorem publishes_record {e e' : EdgeTable} {signal : Nat}
    (others : ∀ k, k ≠ signal → e'.edgeInterest k = e.edgeInterest k)
    (changes : e'.changes = e.changes) (pending : e'.changePending = e.changePending)
    (static : e'.staticSources = e.staticSources) (sticky : e'.stickySources = e.stickySources)
    (published : e'.stickyInterest = e.stickyInterest) :
    Publishes e (e'.recordEdgeInterestChange signal (e.edgeInterest signal)) := by
  intro masks ok
  have queue (e'' : EdgeTable) (changes' : e''.changes = e.changes)
      (pending' : e''.changePending = e.changePending) :
      (e''.publish signal).changes.Nodup ∧ ∀ k, k ∈ (e''.publish signal).changes ↔
        (e''.publish signal).changePending k = true := by
    obtain ⟨-, -, -, -, pend, queue⟩ := publish_spec e'' signal
    rw [queue, pend, pending', changes']
    cases here : e.changePending signal with
    | true =>
        rw [if_pos rfl]
        refine ⟨ok.nodup, fun k => ?_⟩
        rw [Function.update_eq_self_iff.mpr here.symm]
        exact ok.queued k
    | false =>
        rw [if_neg Bool.false_ne_true]
        have away : signal ∉ e.changes := fun member => by
          rw [(ok.queued signal).mp member] at here
          cases here
        refine ⟨ok.nodup.append (List.nodup_singleton signal)
          (List.disjoint_singleton.mpr away), fun k => ?_⟩
        rw [List.mem_append, List.mem_singleton]
        by_cases same : k = signal
        · subst same
          rw [Function.update_self]
          exact ⟨fun _ => rfl, fun _ => .inr rfl⟩
        · rw [Function.update_of_ne same, ok.queued]
          exact ⟨fun either => either.elim id fun equal => absurd equal same, .inl⟩
  unfold recordEdgeInterestChange
  simp only
  cases isSticky : e'.stickySources signal with
  | true =>
      have isSticky' : e.stickySources signal = true := sticky ▸ isSticky
      rw [if_pos rfl]
      split
      · -- nothing new is awaited
        rename_i nothing
        unfold Covered
        rw [pending, sticky, published]
        refine ⟨⟨?_, fun k => ?_, fun k ordinary dynamic => ?_, fun k isSticky => ?_,
          fun k ordinary => ?_⟩, id⟩
        · rw [changes]
          exact ok.nodup
        · rw [changes, pending]
          exact ok.queued k
        · rw [sticky] at ordinary
          rw [static] at dynamic
          have other : k ≠ signal := by
            rintro rfl
            rw [isSticky'] at ordinary
            cases ordinary
          rw [pending, others k other]
          exact ok.ordinary k ordinary dynamic
        · rw [sticky] at isSticky
          rw [published]
          by_cases same : k = signal
          · subst same
            rw [← published]
            exact EdgeInterest.within_of_minus nothing
          · rw [others k same]
            exact ok.published k isSticky
        · rw [sticky] at ordinary
          rw [published]
          exact ok.unpublished k ordinary
      · -- what is new is published
        obtain ⟨nodup, queued⟩ := queue { e' with
          stickyInterest := update e'.stickyInterest signal ((e'.stickyInterest signal).union
            ((e'.edgeInterest signal).minus (e'.stickyInterest signal))) } changes pending
        obtain ⟨interest, static', sticky', published', pend, -⟩ := publish_spec { e' with
          stickyInterest := update e'.stickyInterest signal ((e'.stickyInterest signal).union
            ((e'.edgeInterest signal).minus (e'.stickyInterest signal))) } signal
        refine ⟨⟨nodup, queued, fun k ordinary dynamic => ?_, fun k isSticky => ?_,
          fun k ordinary => ?_⟩, fun covered k isSticky => ?_⟩
        · rw [sticky'] at ordinary
          rw [static'] at dynamic
          have ordinary' : e.stickySources k = false := sticky ▸ ordinary
          have other : k ≠ signal := by
            rintro rfl
            rw [isSticky'] at ordinary'
            cases ordinary'
          rw [interest, pend, Function.update_of_ne other]
          show e'.changePending k = true ∨ masks k = e'.edgeInterest k
          rw [pending, others k other]
          exact ok.ordinary k ordinary' (static ▸ dynamic)
        · rw [sticky'] at isSticky
          rw [interest, published']
          show (e'.edgeInterest k).Within (update e'.stickyInterest signal _ k)
          by_cases same : k = signal
          · subst same
            rw [Function.update_self]
            exact EdgeInterest.within_minus_union _ _
          · rw [Function.update_of_ne same, others k same, published]
            exact ok.published k (sticky ▸ isSticky)
        · rw [sticky'] at ordinary
          have ordinary' : e.stickySources k = false := sticky ▸ ordinary
          have other : k ≠ signal := by
            rintro rfl
            rw [isSticky'] at ordinary'
            cases ordinary'
          rw [published']
          show update e'.stickyInterest signal _ k = _
          rw [Function.update_of_ne other, published]
          exact ok.unpublished k ordinary'
        · rw [sticky'] at isSticky
          rw [pend, published']
          show update e'.changePending signal true k = true ∨
            (update e'.stickyInterest signal _ k).Within (masks k)
          by_cases same : k = signal
          · subst same
            rw [Function.update_self]
            exact .inl rfl
          · rw [Function.update_of_ne same, Function.update_of_ne same, pending, published]
            exact covered k (sticky ▸ isSticky)
  | false =>
      have ordinary' : e.stickySources signal = false := sticky ▸ isSticky
      rw [if_neg Bool.false_ne_true]
      split
      · rename_i unchanged
        have interest : e'.edgeInterest = e.edgeInterest := by
          funext k
          by_cases same : k = signal
          · subst same
            exact unchanged
          · exact others k same
        exact Publishes.of_same interest changes pending static sticky published masks ok
      · obtain ⟨nodup, queued⟩ := queue _ changes pending
        obtain ⟨interest, static', sticky', published', pend, -⟩ := publish_spec e' signal
        refine ⟨⟨nodup, queued, fun k ordinary dynamic => ?_, fun k observed => ?_,
          fun k ordinary => ?_⟩, fun covered k observed => ?_⟩
        · rw [sticky', sticky] at ordinary
          rw [static', static] at dynamic
          rw [interest, pend, pending]
          by_cases same : k = signal
          · subst same
            rw [Function.update_self]
            exact .inl rfl
          · rw [Function.update_of_ne same, others k same]
            exact ok.ordinary k ordinary dynamic
        · rw [sticky', sticky] at observed
          have other : k ≠ signal := by
            rintro rfl
            rw [ordinary'] at observed
            cases observed
          rw [interest, published', published, others k other]
          exact ok.published k observed
        · rw [sticky', sticky] at ordinary
          rw [published', published]
          exact ok.unpublished k ordinary
        · rw [sticky', sticky] at observed
          have other : k ≠ signal := by
            rintro rfl
            rw [ordinary'] at observed
            cases observed
          rw [pend, published', pending, published, Function.update_of_ne other]
          exact covered k observed

end EdgeTable

/-! ### The functions of part 2 -/

namespace EdgeTable

theorem edgeInterest_setCount (e : EdgeTable) (signal edge count k : Nat) (other : k ≠ signal) :
    (e.setCount signal edge count).edgeInterest k = e.edgeInterest k := by
  unfold edgeInterest setCount
  simp only
  rw [Function.update_of_ne other]

theorem publishes_addEdgeInterest (e : EdgeTable) (stateIndex q : Nat) :
    Publishes e (e.addEdgeInterest stateIndex q) := by
  unfold addEdgeInterest
  simp only
  split
  · exact .refl e
  · exact publishes_record (fun k other => edgeInterest_setCount e (q / 3) _ _ k other) rfl rfl rfl
      rfl rfl

theorem publishes_dropInterest (e : EdgeTable) (q : Nat) : Publishes e (e.dropInterest q) := by
  unfold dropInterest
  simp only
  split
  · exact .of_same rfl rfl rfl rfl rfl rfl
  · exact publishes_record (fun k other => edgeInterest_setCount e (q / 3) _ _ k other) rfl rfl rfl
      rfl rfl

theorem publishes_dropInterests (indices : List Nat) (e : EdgeTable) :
    Publishes e (indices.foldl dropInterest e) := by
  induction indices generalizing e with
  | nil => exact .refl e
  | cons q rest ih => exact (publishes_dropInterest e q).trans (ih (e.dropInterest q))

theorem publishes_endWait (e : EdgeTable) (i edgeWaits fallingWaits : Nat) :
    Publishes e (e.endWait i edgeWaits fallingWaits) :=
  (publishes_dropInterests (e.waitIndicesByState i) e).trans
    (.of_same rfl rfl rfl rfl rfl rfl)

theorem publishes_registerEdgeWait (e : EdgeTable) (signal : Nat) (kind : EdgeKind)
    (r : WaitRegistration) : Publishes e (e.registerEdgeWait signal kind r) := by
  have queued : Publishes e { e with
      queueCount := max e.queueCount (queueIndex signal kind + 1)
      waiters := update e.waiters (queueIndex signal kind)
        (e.waiters (queueIndex signal kind) ++ [r])
      queueEntries := e.queueEntries + 1 } := .of_same rfl rfl rfl rfl rfl rfl
  have added := queued.trans (publishes_addEdgeInterest _ r.stateIndex (queueIndex signal kind))
  unfold registerEdgeWait
  simp only
  split
  · exact added
  · exact added.trans (.of_same rfl rfl rfl rfl rfl rfl)

end EdgeTable

theorem publishes_endWait (s : Scheduler) (i : Nat) : Publishes s.edges (s.endWait i).edges := by
  unfold Scheduler.endWait
  simp only
  split
  · split
    · exact .refl _
    · exact EdgeTable.publishes_endWait _ _ _ _
  · exact .refl _

theorem edges_clearReady (s : Scheduler) (i : Nat) : (s.clearReady i).edges = s.edges := by
  unfold Scheduler.clearReady
  split <;> rfl

theorem publishes_resumeRegistration (s : Scheduler) (r : WaitRegistration) :
    Publishes s.edges (s.resumeRegistration r).edges := by
  unfold Scheduler.resumeRegistration
  simp only
  split
  · rw [Scheduler.edges_makeReady, Scheduler.edges_setWinner]
    exact publishes_endWait (s.record (.fired r)) r.stateIndex
  · exact .refl _

/-! ### Before the first wait -/

/-- No edge has been awaited before the first wait. -/
def Quiet (s : Scheduler) : Prop :=
  s.waitRegistered = false → s.edges.interestCounts = fun _ _ => 0

/-- Where nothing is counted nothing is dropped. -/
theorem interestCounts_dropInterests (indices : List Nat) {e : EdgeTable}
    (none : e.interestCounts = fun _ _ => 0) :
    (indices.foldl EdgeTable.dropInterest e).interestCounts = fun _ _ => 0 := by
  induction indices generalizing e with
  | nil => exact none
  | cons q rest ih =>
      refine ih ?_
      unfold EdgeTable.dropInterest
      simp only
      rw [if_pos (congrFun (congrFun none _) _)]
      exact none

theorem waitRegistered_endWait (s : Scheduler) (i : Nat) :
    (s.endWait i).waitRegistered = s.waitRegistered := by
  unfold Scheduler.endWait
  simp only
  split
  · split <;> rfl
  · rfl

namespace Quiet

variable {s t : Scheduler}

theorem of_same (ok : Quiet s) (counts : t.edges.interestCounts = s.edges.interestCounts)
    (waited : t.waitRegistered = false → s.waitRegistered = false) : Quiet t :=
  fun early => counts.trans (ok (waited early))

theorem endWait (ok : Quiet s) (i : Nat) : Quiet (s.endWait i) := by
  intro early
  have none := ok ((waitRegistered_endWait s i).symm.trans early)
  unfold Scheduler.endWait
  simp only
  split
  · split
    · exact none
    · exact interestCounts_dropInterests _ none
  · exact none

theorem makeReady (ok : Quiet s) (i : Nat) (cause : ReadyCause) : Quiet (s.makeReady i cause) := by
  refine ok.of_same (by rw [Scheduler.edges_makeReady]) ?_
  unfold Scheduler.makeReady
  split
  · exact id
  · split <;> exact id

theorem resumeRegistration (ok : Quiet s) (r : WaitRegistration) :
    Quiet (s.resumeRegistration r) := by
  have recorded : Quiet (s.record (.fired r)) := ok.of_same rfl id
  unfold Scheduler.resumeRegistration
  simp only
  split
  · refine ((recorded.endWait r.stateIndex).of_same ?_ ?_).makeReady _ _
    · rw [Scheduler.edges_setWinner]
    · unfold Scheduler.setWinner
      split <;> exact id
  · exact recorded

end Quiet

/-! ### The elementary changes -/

/-- `t` follows `s`: what the host has to learn is published, and no edge comes before the first
wait. -/
structure Follows (s t : Scheduler) : Prop where
  publishes : Publishes s.edges t.edges
  quiet : Quiet s → Quiet t

namespace Follows

variable {s t u : Scheduler}

theorem trans (first : Follows s t) (second : Follows t u) : Follows s u :=
  ⟨first.publishes.trans second.publishes, second.quiet ∘ first.quiet⟩

/-- Neither the edges nor the flag change. -/
theorem of_edges (edges : t.edges = s.edges) (waited : t.waitRegistered = s.waitRegistered) :
    Follows s t :=
  ⟨edges ▸ .refl _, fun ok => ok.of_same (by rw [edges]) fun early => waited.symm.trans early⟩

/-- A wait that is no edge is registered. -/
theorem of_registered (edges : t.edges = s.edges) (waited : t.waitRegistered = true) :
    Follows s t :=
  ⟨edges ▸ .refl _, fun _ early => by rw [waited] at early; cases early⟩

theorem endWait (s : Scheduler) (i : Nat) : Follows s (s.endWait i) :=
  ⟨publishes_endWait s i, fun ok => ok.endWait i⟩

theorem clearReady (s : Scheduler) (i : Nat) : Follows s (s.clearReady i) := by
  refine .of_edges (edges_clearReady s i) ?_
  unfold Scheduler.clearReady
  split <;> rfl

theorem makeReady (s : Scheduler) (i : Nat) (cause : ReadyCause) :
    Follows s (s.makeReady i cause) :=
  ⟨Scheduler.edges_makeReady s i cause ▸ .refl _, fun ok => ok.makeReady i cause⟩

theorem beginWait (s : Scheduler) (i : Nat) (diagnostic : WaitDiagnostic) :
    Follows s (s.beginWait i diagnostic) := by
  have ended : Follows s (if (s.states i).waiting then s.endWait i else s) := by
    split
    · exact endWait s i
    · exact .of_edges rfl rfl
  exact (ended.trans (clearReady _ i)).trans (.of_edges rfl rfl)

theorem retireState (s : Scheduler) (i : Nat) : Follows s (s.retireState i) := by
  have numbered : Follows (s.endWait i) { s.endWait i with
      states := update (s.endWait i).states i { (s.endWait i).states i with
        waitGeneration := (s.endWait i).nextWaitGeneration + 1 }
      nextWaitGeneration := (s.endWait i).nextWaitGeneration + 1 } := .of_edges rfl rfl
  exact (((endWait s i).trans numbered).trans (clearReady _ i)).trans (.of_edges rfl rfl)

end Follows

theorem follows_registerDelay (s : Scheduler) (femtoseconds : Nat) (r : WaitRegistration) :
    Follows s (s.registerDelay femtoseconds r) := by
  unfold Scheduler.registerDelay
  split
  · exact .of_edges rfl rfl
  · exact .of_registered rfl rfl

theorem follows_registerPhase (s : Scheduler) (phase : Phase) (r : WaitRegistration) :
    Follows s (s.registerPhase phase r) := by
  unfold Scheduler.registerPhase
  split
  · exact .of_edges rfl rfl
  · exact .of_registered rfl rfl

theorem follows_compact (s : Scheduler) : Follows s s.compactStaleEdgeQueues := by
  unfold Scheduler.compactStaleEdgeQueues
  split
  · exact .of_edges rfl rfl
  · exact ⟨.of_same rfl rfl rfl rfl rfl rfl, fun ok => ok.of_same rfl id⟩

theorem follows_configureStatic (s : Scheduler) (signal : Nat) :
    Follows s (s.configureStaticEdgeSource signal) := by
  unfold Scheduler.configureStaticEdgeSource
  split
  · exact .of_edges rfl rfl
  · refine ⟨fun masks ok => ⟨⟨ok.nodup, ok.queued, fun k ordinary dynamic => ?_, ok.published,
      ok.unpublished⟩, id⟩, fun ok => ok.of_same rfl id⟩
    refine ok.ordinary k ordinary ?_
    have here : update s.edges.staticSources signal true k = false := dynamic
    by_cases same : k = signal
    · rw [same, Function.update_self] at here
      cases here
    · rwa [Function.update_of_ne same] at here

/-- A signal becomes sticky before anything is awaited, and nothing has been published for it. -/
theorem follows_configureSticky (s : Scheduler) (quiet : Quiet s) (signal : Nat) :
    Follows s (s.configureStickyEdgeSource signal) := by
  unfold Scheduler.configureStickyEdgeSource
  split
  · exact .of_edges rfl rfl
  · rename_i early
    have none := quiet (Bool.eq_false_iff.mpr early)
    have nothing : ∀ k, s.edges.edgeInterest k = .none := fun k => by
      unfold EdgeTable.edgeInterest
      rw [none]
      rfl
    have sticky : ∀ k, update s.edges.stickySources signal true k = false →
        s.edges.stickySources k = false := fun k here => by
      by_cases same : k = signal
      · rw [same, Function.update_self] at here
        cases here
      · rwa [Function.update_of_ne same] at here
    refine ⟨fun masks ok => ⟨⟨ok.nodup, ok.queued, fun k ordinary dynamic => ?_, fun k _ => ?_,
      fun k ordinary => ok.unpublished k (sticky k ordinary)⟩, fun covered k isSticky => ?_⟩,
      fun ok => ok.of_same rfl id⟩
    · exact ok.ordinary k (sticky k ordinary) dynamic
    · show (s.edges.edgeInterest k).Within (s.edges.stickyInterest k)
      rw [nothing]
      exact EdgeInterest.none_within _
    · cases before : s.edges.stickySources k with
      | true => exact covered k before
      | false =>
          refine .inr ?_
          show (s.edges.stickyInterest k).Within (masks k)
          rw [ok.unpublished k before]
          exact EdgeInterest.none_within _

theorem follows_prim {s t : Scheduler} (quiet : Quiet s) (prim : Prim s t) : Follows s t := by
  cases prim with
  | adopt promise => exact .of_edges rfl rfl
  | beginWait index diagnostic _ => exact .beginWait s index diagnostic
  | noteSimulator index => exact .of_edges rfl rfl
  | registerEdge signal kind r _ _ =>
      exact ⟨EdgeTable.publishes_registerEdgeWait s.edges signal kind r, fun _ early => by cases early⟩
  | registerDelay femtoseconds r _ => exact follows_registerDelay s femtoseconds r
  | registerPhase phase r _ => exact follows_registerPhase s phase r
  | registerProcess control r _ => exact .of_edges rfl rfl
  | parkExternal r _ => exact .of_edges rfl rfl
  | resume r _ => exact ⟨publishes_resumeRegistration s r, fun ok => ok.resumeRegistration r⟩
  | joined index generation _ _ _ =>
      have recorded : Follows s (s.record (.joinCompleted generation)) := .of_edges rfl rfl
      exact (recorded.trans (.endWait _ index)).trans (.makeReady _ index _)
  | joinMissed index generation _ _ _ => exact .of_edges rfl rfl
  | makeReady index cause _ _ => exact .makeReady s index cause
  | finish index _ => exact .of_edges rfl rfl
  | retire index _ => exact .retireState s index
  | free index _ => exact .of_edges rfl rfl
  | dropEdge index r rest _ _ _ =>
      exact ⟨.of_same rfl rfl rfl rfl rfl rfl, fun ok => ok.of_same rfl id⟩
  | dropPhases phase _ => exact .of_edges rfl rfl
  | compact => exact follows_compact s
  | discardStaleTimers => exact .of_edges rfl rfl
  | dropTimer timer _ _ => exact .of_edges rfl rfl
  | touchTimers => exact .of_edges rfl rfl
  | setTime time => exact .of_edges rfl rfl
  | configureStatic signal => exact follows_configureStatic s signal
  | configureSticky signal => exact follows_configureSticky s quiet signal
  | startDrain _ => exact .of_edges rfl rfl
  | endDrain _ => exact .of_edges rfl rfl
  | skipEntry index _ _ =>
      refine .of_edges ?_ ?_ <;> unfold Scheduler.takeReadyEntry <;> simp only <;> split <;> rfl
  | takeEntry index _ _ _ =>
      refine .of_edges ?_ ?_ <;> unfold Scheduler.takeReadyEntry <;> simp only <;> split <;> rfl
  | takeOnly index _ _ _ => exact .of_edges rfl rfl

/-! ### The sync -/

/-- The part of the edge table that consuming changes does not touch. -/
structure Consumes (e e' : EdgeTable) : Prop where
  waiters : e'.waiters = e.waiters
  counts : e'.interestCounts = e.interestCounts
  static : e'.staticSources = e.staticSources
  sticky : e'.stickySources = e.stickySources
  published : e'.stickyInterest = e.stickyInterest

theorem Consumes.edgeInterest {e e' : EdgeTable} (same : Consumes e e') :
    e'.edgeInterest = e.edgeInterest := by
  funext signal
  unfold EdgeTable.edgeInterest
  rw [same.counts]

section Sync

variable {e : EdgeTable} {masks : Nat → EdgeInterest} {signal : Nat} {rest : List Nat}

/-- The edge table after its first change is consumed. -/
def consumed (e : EdgeTable) (signal : Nat) (rest : List Nat) : EdgeTable :=
  { e with changes := rest, changePending := update e.changePending signal false }

theorem applyChange_of_ne (e : EdgeTable) (masks : Nat → EdgeInterest) (change : Nat × EdgeInterest)
    {k : Nat} (other : k ≠ change.1) : applyChange e masks change k = masks k := by
  unfold applyChange
  split
  · exact Function.update_of_ne other _ _
  · split
    · rfl
    · exact Function.update_of_ne other _ _

theorem synced_consumed (ok : Synced e masks) (queue : e.changes = signal :: rest) :
    Synced (consumed e signal rest)
      (applyChange (consumed e signal rest) masks (signal, e.edgeInterest signal)) := by
  have nodup := ok.nodup
  rw [queue, List.nodup_cons] at nodup
  refine ⟨nodup.2, fun k => ?_, fun k ordinary dynamic => ?_, ok.published, ok.unpublished⟩
  · have here := ok.queued k
    rw [queue, List.mem_cons] at here
    show k ∈ rest ↔ update e.changePending signal false k = true
    by_cases same : k = signal
    · subst same
      rw [Function.update_self]
      exact ⟨fun member => absurd member nodup.1, fun impossible => by cases impossible⟩
    · rw [Function.update_of_ne same, ← here]
      exact ⟨.inr, fun either => either.elim (fun equal => absurd equal same) id⟩
  · by_cases same : k = signal
    · -- the mask of an ordinary signal is set to its interest
      subst same
      have isOrdinary : e.stickySources k = false := ordinary
      have isDynamic : e.staticSources k = false := dynamic
      refine .inr ?_
      unfold applyChange consumed
      simp only [isOrdinary, isDynamic, Bool.false_eq_true, if_false]
      exact Function.update_self ..
    · rw [applyChange_of_ne _ _ _ same]
      show update e.changePending signal false k = true ∨ _
      rw [Function.update_of_ne same]
      exact ok.ordinary k ordinary dynamic

theorem covered_consumed (signal : Nat) (rest : List Nat) (awaited : Awaited e masks)
    (covered : Covered e masks) :
    Covered (consumed e signal rest)
      (applyChange (consumed e signal rest) masks (signal, e.edgeInterest signal)) ∧
    Awaited (consumed e signal rest)
      (applyChange (consumed e signal rest) masks (signal, e.edgeInterest signal)) := by
  have widened : e.stickySources signal = true →
      applyChange (consumed e signal rest) masks (signal, e.edgeInterest signal) signal =
        (masks signal).union (e.edgeInterest signal) := fun isSticky => by
    unfold applyChange consumed
    simp only [isSticky, if_true]
    exact Function.update_self ..
  refine ⟨fun k isSticky => ?_, fun k isSticky => ?_⟩ <;> by_cases same : k = signal
  · subst same
    rw [widened isSticky]
    exact .inr (awaited k isSticky)
  · rw [applyChange_of_ne _ _ _ same]
    show update e.changePending signal false k = true ∨ _
    rw [Function.update_of_ne same]
    exact covered k isSticky
  · subst same
    rw [widened isSticky]
    exact EdgeInterest.within_trans (awaited k isSticky) (EdgeInterest.within_union_left _ _)
  · rw [applyChange_of_ne _ _ _ same]
    exact awaited k isSticky

/-- A sync with enough fuel consumes every change. -/
theorem syncChanges_spec (fuel : Nat) (ok : Synced e masks) (enough : e.changes.length ≤ fuel) :
    Synced (syncChanges fuel e masks).1 (syncChanges fuel e masks).2 ∧
      (syncChanges fuel e masks).1.changes = [] ∧
      Consumes e (syncChanges fuel e masks).1 ∧
      (Awaited e masks → Covered e masks →
        Covered (syncChanges fuel e masks).1 (syncChanges fuel e masks).2) := by
  induction fuel generalizing e masks with
  | zero =>
      have none : e.changes = [] := List.eq_nil_of_length_eq_zero (Nat.le_zero.mp enough)
      exact ⟨ok, none, ⟨rfl, rfl, rfl, rfl, rfl⟩, fun _ covered => covered⟩
  | succ fuel ih =>
      cases queue : e.changes with
      | nil =>
          have done : syncChanges (fuel + 1) e masks = (e, masks) := by
            unfold syncChanges EdgeTable.consumeEdgeInterestChange
            rw [queue]
          rw [done]
          exact ⟨ok, queue, ⟨rfl, rfl, rfl, rfl, rfl⟩, fun _ covered => covered⟩
      | cons signal rest =>
          have next : syncChanges (fuel + 1) e masks =
              syncChanges fuel (consumed e signal rest)
                (applyChange (consumed e signal rest) masks (signal, e.edgeInterest signal)) := by
            conv_lhs => unfold syncChanges
            unfold EdgeTable.consumeEdgeInterestChange
            rw [queue]
            rfl
          have shorter : (consumed e signal rest).changes.length ≤ fuel := by
            rw [queue, List.length_cons] at enough
            exact Nat.le_of_succ_le_succ enough
          obtain ⟨synced, empty, same, covers⟩ := ih (synced_consumed ok queue) shorter
          rw [next]
          refine ⟨synced, empty, ⟨same.waiters, same.counts, same.static, same.sticky,
            same.published⟩, fun awaited covered => ?_⟩
          obtain ⟨covered', awaited'⟩ := covered_consumed signal rest awaited covered
          exact covers awaited' covered'

end Sync

/-! ### Reachable hosts -/

/-- What holds of every reachable host. -/
structure HostOk (h : Host κ) : Prop where
  wf : Wf h.machine
  quiet : Quiet h.machine.sched
  synced : Synced h.edges h.masks

theorem hostOk_create (femtosecondsPerTick : Nat) : HostOk (.create femtosecondsPerTick : Host κ) :=
  ⟨wf_create _, fun _ => rfl, ⟨List.nodup_nil, fun _ => ⟨(nomatch ·), (nomatch ·)⟩,
    fun _ _ _ => .inr rfl, fun _ => (nomatch ·), fun _ _ => rfl⟩⟩

theorem wf_sync {h : Host κ} (ok : HostOk h) : Wf h.sync.machine := by
  obtain ⟨-, -, same, -⟩ := syncChanges_spec h.edges.changes.length ok.synced (Nat.le_refl _)
  have skeleton : h.sync.machine.sched.skeleton = h.machine.sched.skeleton := rfl
  refine WfAt.congr skeleton (fun r queued => ?_) ok.wf
  rcases queued with ⟨index, member⟩ | other
  · have here : r ∈ (syncChanges h.edges.changes.length h.edges h.masks).1.waiters index := member
    rw [same.waiters] at here
    exact .inl ⟨index, here⟩
  · exact .inr other

theorem follows_step {m m' : Machine κ} (wf : Wf m) (quiet : Quiet m.sched) {action : Action}
    (foreign : action ≠ .call .consumeEdgeInterestChange) (stepped : m.step action = some m') :
    Quiet m'.sched ∧ Publishes m.sched.edges m'.sched.edges := by
  cases consumes : action.consumes with
  | false =>
      refine (path_step wf consumes stepped).keeps wf
        (P := fun s => Quiet s ∧ Publishes m.sched.edges s.edges) (fun s t core here => ?_)
        (fun n t _ here prim => ?_) ⟨quiet, .refl _⟩
      · have edges : t.edges = s.edges := congrArg Core.edges core
        have waited : t.waitRegistered = s.waitRegistered := congrArg Core.waitRegistered core
        exact ⟨here.1.of_same (by rw [edges]) fun early => waited.symm.trans early,
          edges.symm ▸ here.2⟩
      · have follows := follows_prim here.1 prim
        exact ⟨follows.quiet here.1, here.2.trans follows.publishes⟩
  | true =>
      cases action with
      | call call =>
          cases call with
          | consumeEdgeInterestChange => exact absurd rfl foreign
          | consumeTimerScheduleChanged =>
              obtain rfl : m' = m.withSched m.sched.consumeTimerScheduleChanged := by
                unfold Machine.step at stepped
                simp only at stepped
                split at stepped
                · cases stepped
                · split at stepped
                  · cases stepped
                    rfl
                  · cases stepped
              exact ⟨quiet.of_same rfl id, .refl _⟩
          | spawn _ _ => cases consumes
          | spawnOwned _ => cases consumes
          | spawnDetached _ => cases consumes
          | cancel _ => cases consumes
          | notifyEdge _ _ => cases consumes
          | setTime _ => cases consumes
          | notifyPhase _ => cases consumes
          | wakeExternal _ => cases consumes
          | flushExternalWakes => cases consumes
          | nextTimerDeadline => cases consumes
          | configureStaticEdgeSource _ => cases consumes
          | configureStickyEdgeSource _ => cases consumes
      | suspend _ => cases consumes
      | destroyed => cases consumes
      | tick => cases consumes

/-- An action keeps the invariant, and what is covered stays covered. -/
theorem hostOk_act {h h' : Host κ} (ok : HostOk h) {action : Action}
    (stepped : h.step (.act action) = some h') :
    HostOk h' ∧ (Covered h.edges h.masks → Covered h'.edges h'.masks) := by
  unfold Host.step at stepped
  simp only at stepped
  split at stepped
  · cases stepped
  · rename_i foreign
    obtain ⟨m, machine, rfl⟩ := Option.map_eq_some_iff.mp stepped
    obtain ⟨quiet, publishes⟩ := follows_step ok.wf ok.quiet foreign machine
    obtain ⟨synced, covered⟩ := publishes h.masks ok.synced
    exact ⟨⟨wf_step ok.wf machine, quiet, synced⟩, covered⟩

theorem sync_of_step {h h' : Host κ} (stepped : h.step .sync = some h') : h' = h.sync := by
  unfold Host.step at stepped
  simp only at stepped
  split at stepped
  · exact (Option.some.inj stepped).symm
  · cases stepped

theorem step_sync {h : Host κ} (between : (h.machine.stack.isEmpty && !h.machine.sched.aborted) = true) :
    h.step .sync = some h.sync :=
  if_pos between

theorem hostOk_sync {h : Host κ} (ok : HostOk h) : HostOk h.sync := by
  obtain ⟨synced, -, same, -⟩ :=
    syncChanges_spec h.edges.changes.length ok.synced (Nat.le_refl _)
  exact ⟨wf_sync ok, ok.quiet.of_same same.counts id, synced⟩

/-- The rule for hosts: every run keeps `HostOk`. -/
theorem hostOk_of_reach {femtosecondsPerTick : Nat} {allowed : Host κ → HostAction → Prop}
    {h : Host κ} (reach : Reach Host.step allowed (· = .create femtosecondsPerTick) h) :
    HostOk h := by
  refine reach.invariant (fun _ start => start ▸ hostOk_create _) fun h h' action ok _ stepped => ?_
  cases action with
  | act action => exact (hostOk_act ok stepped).1
  | sync => exact sync_of_step stepped ▸ hostOk_sync ok

/-- No change is pending after a sync. -/
theorem settled_sync {h : Host κ} (ok : HostOk h) (signal : Nat) :
    h.sync.edges.changePending signal = false := by
  obtain ⟨synced, empty, -, -⟩ :=
    syncChanges_spec h.edges.changes.length ok.synced (Nat.le_refl _)
  rw [Bool.eq_false_iff]
  intro pending
  have member := (synced.queued signal).mpr pending
  rw [empty] at member
  cases member

/-- The host that the run reaches has been reached. -/
theorem host_reached (femtosecondsPerTick : Nat) (actions : List HostAction) :
    Reach Host.step (fun _ _ => True) (· = .create femtosecondsPerTick)
      (.after femtosecondsPerTick actions : Host κ) := by
  have start : Reach Host.step (fun _ _ => True) (· = .create femtosecondsPerTick)
      (.create femtosecondsPerTick : Host κ) := .start rfl
  unfold Host.after
  cases ran : Runs.run Host.step (.create femtosecondsPerTick : Host κ) actions with
  | none => exact start
  | some h => exact start.run (fun _ _ => trivial) actions ran

/-- Two coroutines await one sticky signal, one after the other; the first is cancelled before the
host looks. -/
def lostEdge : List HostAction :=
  let tick : HostAction := .act .tick
  let spawn : HostAction := .act (.call (.spawn none none))
  let park : HostAction := .act (.suspend (.trigger (.edge 0 .rising) "" {}))
  [.act (.call (.configureStickyEdgeSource 0)), spawn, tick, tick, spawn, park, tick, tick, tick,
    tick, .act (.call (.cancel 0)), .act (.suspend (.finish none [])), tick, tick, .act .destroyed,
    tick, .act .destroyed, tick, tick, tick, tick, tick, tick, tick, .sync,
    spawn, tick, tick, park, tick, tick, tick, tick, tick, tick, tick, tick]

/-- The second coroutine awaits an edge the host does not observe. -/
theorem sticky_mask_misses_edge : ¬ ∀ h h' : Host Unit,
    Reach Host.step (fun _ _ => True) (· = .create 1) h → h.step .sync = some h' →
    ∀ signal, h'.edges.stickySources signal = true →
      (h'.edges.edgeInterest signal).Within (h'.masks signal) := by
  intro claim
  have stepped := step_sync (h := (.after 1 lostEdge : Host Unit)) (by decide +kernel)
  have covers := claim _ _ (host_reached 1 lostEdge) stepped 0 (by decide +kernel)
  exact absurd covers (by decide +kernel)

/-- The syncs of a run find everything that was published awaited. -/
def SyncsAwaited (h : Host κ) (action : HostAction) : Prop :=
  action = .sync → Awaited h.edges h.masks

/-- In the runs in which every sync finds what was published for a sticky signal in its mask or still
awaited, the mask of a sticky signal contains its interest after every sync. -/
theorem sticky_masks_cover {femtosecondsPerTick : Nat} {h h' : Host κ}
    (reach : Reach Host.step SyncsAwaited (· = .create femtosecondsPerTick) h)
    (awaited : SyncsAwaited h .sync) (stepped : h.step .sync = some h') (signal : Nat)
    (sticky : h'.edges.stickySources signal = true) :
    (h'.edges.edgeInterest signal).Within (h'.masks signal) := by
  have ok := hostOk_of_reach reach
  have covered : Covered h.edges h.masks := by
    refine reach.invariant_of (Q := fun h => Covered h.edges h.masks) (fun _ => hostOk_of_reach)
      (fun _ start => ?_) fun n n' action ok _ covered allowed stepped => ?_
    · subst start
      exact fun _ => (nomatch ·)
    · cases action with
      | act action => exact (hostOk_act ok stepped).2 covered
      | sync =>
          obtain rfl := sync_of_step stepped
          exact (syncChanges_spec n.edges.changes.length ok.synced (Nat.le_refl _)).2.2.2
            (allowed rfl) covered
  obtain rfl := sync_of_step stepped
  have covered' : Covered h.sync.edges h.sync.masks :=
    (syncChanges_spec h.edges.changes.length ok.synced (Nat.le_refl _)).2.2.2 (awaited rfl) covered
  have published := (hostOk_sync ok).synced.published signal sticky
  refine EdgeInterest.within_trans published ((covered' signal sticky).resolve_left ?_)
  rw [settled_sync ok]
  exact Bool.false_ne_true

/-- A run without a sync meets every condition on syncs. -/
theorem host_acted (femtosecondsPerTick : Nat) (actions : List Action) :
    Reach Host.step SyncsAwaited (· = .create femtosecondsPerTick)
      (.after femtosecondsPerTick (actions.map .act) : Host κ) := by
  have start : Reach Host.step SyncsAwaited (· = .create femtosecondsPerTick)
      (.create femtosecondsPerTick : Host κ) := .start rfl
  have run : ∀ (actions : List Action) (h h' : Host κ),
      Reach Host.step SyncsAwaited (· = .create femtosecondsPerTick) h →
      Runs.run Host.step h (actions.map .act) = some h' →
      Reach Host.step SyncsAwaited (· = .create femtosecondsPerTick) h' := by
    intro actions
    induction actions with
    | nil =>
        intro h h' reach ran
        exact Option.some.inj ran ▸ reach
    | cons action rest ih =>
        intro h h' reach ran
        obtain ⟨middle, stepped, tail⟩ := Option.bind_eq_some_iff.mp ran
        exact ih _ _ (reach.next (.act action) (nomatch ·) stepped) tail
  unfold Host.after
  cases ran : Runs.run Host.step (.create femtosecondsPerTick : Host κ) (actions.map .act) with
  | none => exact start
  | some h => exact run actions _ h start ran

/-- A coroutine awaits a clock edge, and the host observes it. -/
theorem sticky_masks_cover_clock :
    let h : Host Unit := .after 1 ([.call (.configureStickyEdgeSource 0),
      .call (.spawnDetached none), .tick, .tick, .suspend (.trigger (.edge 0 .rising) "" {}), .tick,
      .tick, .tick, .tick, .tick, .tick, .tick, .tick].map .act)
    (h.sync.edges.edgeInterest 0).Within (h.sync.masks 0) ∧
      h.sync.edges.edgeInterest 0 = ⟨true, false⟩ := by
  intro h
  have sources : h.edges.stickySources = update (fun _ => false) 0 true := rfl
  have awaited : Awaited h.edges h.masks := by
    intro signal sticky
    obtain rfl : signal = 0 := by
      by_contra other
      rw [sources, Function.update_of_ne other] at sticky
      cases sticky
    decide +kernel
  exact ⟨sticky_masks_cover (host_acted 1 _) (fun _ => awaited) (step_sync (by decide +kernel)) 0
    (by decide +kernel), by decide +kernel⟩

end Cpptb.Coro
