/-
What becomes of the values written to an analysis buffer.

* `Ledger.Move`: what a call can do to the values written; `Ledger.Sound`: each is delivered, buffered
  or lost, once, and a delivery passes only the values held for woken consumers.
* `Ledger.Sound.move`: a move keeps the ledger sound.
* `follows_step`: every call on a buffer is a move.
* `reach_accounted`: in every run, what becomes of each value.
-/

import Cpptb.Vc.AnalysisBuffer

namespace Cpptb.Buffering

open Runs

variable {T : Type}

/-! ### The ledger -/

/-- What became of the values written, without the queue. -/
structure Ledger (T : Type) where
  writes : ℕ := 0
  accepted : List (Accepted T) := []
  buffered : List (Stamped T) := []
  delivered : List (Delivery T) := []
  lost : List (Stamped T) := []

section Perm

variable {α : Type} (delivered buffered held rest lost : List α) (new old : α)

theorem perm_store :
    (delivered ++ buffered ++ lost ++ [new]).Perm (delivered ++ (buffered ++ [new]) ++ lost) := by
  simp only [← Multiset.coe_eq_coe, ← Multiset.coe_add]
  abel

theorem perm_replace :
    (delivered ++ (held ++ old :: rest) ++ lost ++ [new]).Perm
      (delivered ++ (held ++ rest ++ [new]) ++ (lost ++ [old])) := by
  simp only [← Multiset.coe_eq_coe, ← Multiset.coe_add, ← Multiset.cons_coe,
    ← Multiset.singleton_add, Multiset.coe_nil, add_zero]
  abel

theorem perm_deliver :
    (delivered ++ (held ++ old :: rest) ++ lost).Perm
      (delivered ++ [old] ++ (held ++ rest) ++ lost) := by
  simp only [← Multiset.coe_eq_coe, ← Multiset.coe_add, ← Multiset.cons_coe,
    ← Multiset.singleton_add, Multiset.coe_nil, add_zero]
  abel

end Perm

namespace Ledger

/-- Accept the next write, of a value. -/
def accept (l : Ledger T) (value : T) : Ledger T :=
  { l with
    writes := l.writes + 1
    accepted := l.accepted ++ [⟨⟨l.writes, value⟩, l.buffered.length⟩] }

/-- What a call can do to the values. -/
inductive Move (capacity : ℕ) (overflow : AnalysisOverflowPolicy) : Ledger T → Ledger T → Prop
  | store {l : Ledger T} (value : T) (room : capacity = 0 ∨ l.buffered.length < capacity) :
      Move capacity overflow l
        { l.accept value with buffered := l.buffered ++ [⟨l.writes, value⟩] }
  | replace {l : Ledger T} (value : T) (policy : overflow = .dropOldest)
      {held rest : List (Stamped T)} {old : Stamped T} (split : l.buffered = held ++ old :: rest) :
      Move capacity overflow l
        { l.accept value with
          buffered := held ++ rest ++ [⟨l.writes, value⟩], lost := l.lost ++ [old] }
  | refuse {l : Ledger T} (value : T) (full : l.buffered.length = capacity) :
      Move capacity overflow l { l.accept value with lost := l.lost ++ [⟨l.writes, value⟩] }
  | throw {l : Ledger T} : Move capacity overflow l { l with writes := l.writes + 1 }
  | deliver {l : Ledger T} {held rest : List (Stamped T)} {entry : Stamped T}
      (split : l.buffered = held ++ entry :: rest) :
      Move capacity overflow l
        { l with
          buffered := held ++ rest
          delivered := l.delivered ++ [{ entry := entry, overtaken := held }] }
  | idle {l : Ledger T} : Move capacity overflow l l

/-- Every accepted value is delivered, buffered or lost, and only once; the buffered ones are in the
order of their writes, and a delivery passes only what it overtakes. -/
structure Sound (capacity : ℕ) (overflow : AnalysisOverflowPolicy) (l : Ledger T) : Prop where
  split : (l.accepted.map (·.entry)).Perm (l.delivered.map (·.entry) ++ l.buffered ++ l.lost)
  numbered : l.accepted.Pairwise fun earlier later => earlier.entry.stamp < later.entry.stamp
  fresh : ∀ w ∈ l.accepted, w.entry.stamp < l.writes
  sorted : l.buffered.Pairwise fun earlier later => earlier.stamp < later.stamp
  order : l.delivered.Pairwise fun earlier later =>
    earlier.entry.stamp < later.entry.stamp ∨ later.entry ∈ earlier.overtaken
  ahead : ∀ d ∈ l.delivered, ∀ e ∈ l.buffered, d.entry.stamp < e.stamp ∨ e ∈ d.overtaken
  newest : overflow = .dropNewest → ∀ w ∈ l.accepted, w.entry ∈ l.lost ↔ w.size = capacity

namespace Sound

variable {capacity : ℕ} {overflow : AnalysisOverflowPolicy} {l l' : Ledger T}

/-- What was delivered, is buffered or was lost has the number of an earlier write. -/
theorem older (sound : l.Sound capacity overflow) {entry : Stamped T}
    (here : entry ∈ l.delivered.map (·.entry) ++ l.buffered ++ l.lost) : entry.stamp < l.writes := by
  obtain ⟨w, accepted, rfl⟩ := List.mem_map.mp (sound.split.symm.subset here)
  exact sound.fresh w accepted

theorem buffered_older (sound : l.Sound capacity overflow) {entry : Stamped T}
    (here : entry ∈ l.buffered) : entry.stamp < l.writes :=
  sound.older (List.mem_append_left _ (List.mem_append_right _ here))

theorem lost_older (sound : l.Sound capacity overflow) {entry : Stamped T}
    (here : entry ∈ l.lost) : entry.stamp < l.writes :=
  sound.older (List.mem_append_right _ here)

theorem delivered_older (sound : l.Sound capacity overflow) {delivery : Delivery T}
    (here : delivery ∈ l.delivered) : delivery.entry.stamp < l.writes :=
  sound.older (List.mem_append_left _ (List.mem_append_left _ (List.mem_map_of_mem here)))

/-- The next accepted write has the largest number. -/
theorem numbered_accept (sound : l.Sound capacity overflow) (value : T) :
    (l.accept value).accepted.Pairwise fun earlier later =>
      earlier.entry.stamp < later.entry.stamp := by
  refine List.pairwise_append.mpr ⟨sound.numbered, List.pairwise_singleton _ _, ?_⟩
  intro w accepted last here
  obtain rfl := List.mem_singleton.mp here
  exact sound.fresh w accepted

theorem fresh_accept (sound : l.Sound capacity overflow) (value : T) :
    ∀ w ∈ (l.accept value).accepted, w.entry.stamp < (l.accept value).writes := by
  intro w here
  rcases List.mem_append.mp here with earlier | last
  · exact (sound.fresh w earlier).trans (Nat.lt_succ_self _)
  · obtain rfl := List.mem_singleton.mp last
    exact Nat.lt_succ_self _

/-- A buffer with the new value behind some of the old ones is still in order. -/
theorem sorted_push (sound : l.Sound capacity overflow) (value : T) {kept : List (Stamped T)}
    (among : kept.Sublist l.buffered) :
    (kept ++ [(⟨l.writes, value⟩ : Stamped T)]).Pairwise
      fun earlier later => earlier.stamp < later.stamp := by
  refine List.pairwise_append.mpr ⟨sound.sorted.sublist among, List.pairwise_singleton _ _, ?_⟩
  intro entry here last new
  obtain rfl := List.mem_singleton.mp new
  exact sound.buffered_older (among.subset here)

theorem ahead_push (sound : l.Sound capacity overflow) (value : T) {kept : List (Stamped T)}
    (among : kept.Sublist l.buffered) :
    ∀ d ∈ l.delivered, ∀ e ∈ kept ++ [(⟨l.writes, value⟩ : Stamped T)],
      d.entry.stamp < e.stamp ∨ e ∈ d.overtaken := by
  intro d delivered e here
  rcases List.mem_append.mp here with old | new
  · exact sound.ahead d delivered e (among.subset old)
  · obtain rfl := List.mem_singleton.mp new
    exact .inl (sound.delivered_older delivered)

/-- Under `DropNewest` a stored write is not among the losses, which are older. -/
theorem newest_store (sound : l.Sound capacity overflow) (value : T)
    (room : l.buffered.length ≠ capacity) (policy : overflow = .dropNewest) :
    ∀ w ∈ (l.accept value).accepted, w.entry ∈ l.lost ↔ w.size = capacity := by
  intro w here
  rcases List.mem_append.mp here with earlier | last
  · exact sound.newest policy w earlier
  · obtain rfl := List.mem_singleton.mp last
    exact iff_of_false (fun lost => absurd (sound.lost_older lost) (lt_irrefl _)) room

theorem newest_refuse (sound : l.Sound capacity overflow) (value : T)
    (full : l.buffered.length = capacity) (policy : overflow = .dropNewest) :
    ∀ w ∈ (l.accept value).accepted,
      w.entry ∈ l.lost ++ [(⟨l.writes, value⟩ : Stamped T)] ↔ w.size = capacity := by
  intro w here
  rcases List.mem_append.mp here with earlier | last
  · rw [← sound.newest policy w earlier, List.mem_append, List.mem_singleton]
    refine or_iff_left fun same => ?_
    have below := sound.fresh w earlier
    rw [same] at below
    exact absurd below (lt_irrefl _)
  · obtain rfl := List.mem_singleton.mp last
    exact iff_of_true (List.mem_append_right _ (List.mem_singleton_self _)) full

/-- What is delivered passes the held values only. -/
theorem order_deliver (sound : l.Sound capacity overflow) {held rest : List (Stamped T)}
    {entry : Stamped T} (split : l.buffered = held ++ entry :: rest) :
    (l.delivered ++ [(⟨entry, held⟩ : Delivery T)]).Pairwise fun earlier later =>
      earlier.entry.stamp < later.entry.stamp ∨ later.entry ∈ earlier.overtaken := by
  refine List.pairwise_append.mpr ⟨sound.order, List.pairwise_singleton _ _, ?_⟩
  intro d delivered last new
  obtain rfl := List.mem_singleton.mp new
  exact sound.ahead d delivered entry (split ▸ List.mem_append_right _ (List.mem_cons_self ..))

theorem ahead_deliver (sound : l.Sound capacity overflow) {held rest : List (Stamped T)}
    {entry : Stamped T} (split : l.buffered = held ++ entry :: rest) :
    ∀ d ∈ l.delivered ++ [(⟨entry, held⟩ : Delivery T)], ∀ e ∈ held ++ rest,
      d.entry.stamp < e.stamp ∨ e ∈ d.overtaken := by
  have among : (held ++ rest).Sublist l.buffered :=
    split ▸ (List.sublist_cons_self entry rest).append_left held
  intro d delivered e here
  rcases List.mem_append.mp delivered with earlier | last
  · exact sound.ahead d earlier e (among.subset here)
  · obtain rfl := List.mem_singleton.mp last
    rcases List.mem_append.mp here with passed | later
    · exact .inr passed
    · have sorted := split ▸ sound.sorted
      exact .inl ((List.pairwise_cons.mp (List.pairwise_append.mp sorted).2.1).1 e later)

/-- A move keeps the ledger sound. -/
theorem move (positive : 0 < capacity) (sound : l.Sound capacity overflow)
    (moved : Move capacity overflow l l') : l'.Sound capacity overflow := by
  cases moved with
  | store value room =>
    have short : l.buffered.length ≠ capacity := by omega
    refine ⟨?_, sound.numbered_accept value, sound.fresh_accept value,
      sound.sorted_push value (List.Sublist.refl _), sound.order,
      sound.ahead_push value (List.Sublist.refl _), sound.newest_store value short⟩
    rw [accept, List.map_append, List.map_singleton]
    exact (sound.split.append_right _).trans (perm_store _ _ _ _)
  | @replace value policy held rest old split =>
    have among : (held ++ rest).Sublist l.buffered :=
      split ▸ (List.sublist_cons_self old rest).append_left held
    refine ⟨?_, sound.numbered_accept value, sound.fresh_accept value,
      sound.sorted_push value among, sound.order, sound.ahead_push value among, ?_⟩
    · rw [accept, List.map_append]
      refine (sound.split.append_right _).trans ?_
      rw [split, List.map_singleton]
      exact perm_replace _ _ _ _ _ _
    · intro newest
      rw [policy] at newest
      exact absurd newest (by decide)
  | refuse value full =>
    refine ⟨?_, sound.numbered_accept value, sound.fresh_accept value, sound.sorted, sound.order,
      sound.ahead, sound.newest_refuse value full⟩
    rw [accept, List.map_append, List.map_singleton, ← List.append_assoc]
    exact sound.split.append_right _
  | throw => exact { sound with fresh := fun w here => (sound.fresh w here).trans (Nat.lt_succ_self _) }
  | @deliver held rest entry split =>
    have among : (held ++ rest).Sublist l.buffered :=
      split ▸ (List.sublist_cons_self entry rest).append_left held
    refine ⟨?_, sound.numbered, sound.fresh, sound.sorted.sublist among, sound.order_deliver split,
      sound.ahead_deliver split, sound.newest⟩
    refine sound.split.trans ?_
    rw [split, List.map_append, List.map_singleton]
    exact perm_deliver _ _ _ _ _
  | idle => exact sound

end Sound

end Ledger

/-! ### Every call is a move -/

/-- The ledger of a history. -/
structure Follows (capacity : ℕ) (overflow : AnalysisOverflowPolicy) (h : History T) (l : Ledger T) :
    Prop where
  ok : h.buffer.queue.Ok
  maxsize : h.buffer.queue.maxsize = capacity
  overflow : h.buffer.overflow = overflow
  writes : l.writes = h.writes
  accepted : l.accepted = h.accepted
  buffered : l.buffered = h.buffered
  delivered : l.delivered = h.delivered
  lost : l.lost.length = h.buffer.dropped + h.counting

section Step

variable {capacity : ℕ} {overflow : AnalysisOverflowPolicy} {h h' : History T} {l : Ledger T}

/-- A queue that keeps its items. -/
theorem Follows.kept (follows : Follows capacity overflow h l) {queue : Queue (Stamped T)}
    (kept : Queue.Kept h.buffer.queue queue) :
    Follows capacity overflow (h.withQueue queue) l :=
  ⟨kept.ok, kept.maxsize.trans follows.maxsize, follows.overflow, follows.writes, follows.accepted,
    follows.buffered.trans kept.items.symm, follows.delivered, follows.lost⟩

/-- A delivery that passes the first items. -/
theorem Follows.took (follows : Follows capacity overflow h l) {queue : Queue (Stamped T)}
    {entry : Stamped T} {count : ℕ} (took : Queue.Took count h.buffer.queue queue entry) :
    ∃ l', l.Move capacity overflow l' ∧ Follows capacity overflow
      ((h.withQueue queue).deliver (h.buffered.take count) (some entry)) l' := by
  obtain ⟨held, rest, split, woken, left⟩ := took.items
  have passed : h.buffered.take count = held := by
    rw [History.buffered, split, ← woken, List.take_left]
  refine ⟨_, .deliver (follows.buffered.trans split), took.ok, took.maxsize.trans follows.maxsize,
    follows.overflow, follows.writes, follows.accepted, left.symm, ?_, follows.lost⟩
  rw [passed, follows.delivered]
  rfl

/-- A call that takes an unreserved item. -/
theorem Follows.got (follows : Follows capacity overflow h l) {answers : Answers}
    {result : Queue (Stamped T) × Option (Stamped T)}
    (got : Queue.Got h.buffer.queue answers result) :
    ∃ l', l.Move capacity overflow l' ∧ Follows capacity overflow
      ((h.withQueue result.1).deliver (h.buffered.take (h.held answers)) result.2) l' := by
  cases got with
  | nothing all kept => exact ⟨l, .idle, follows.kept kept⟩
  | took took => exact follows.took took

/-- A write. -/
theorem Follows.write (follows : Follows capacity overflow h l) {value : T} {answers : Answers}
    (stepped : h.step (.write value answers) = some h') :
    ∃ l', l.Move capacity overflow l' ∧ Follows capacity overflow h' l' := by
  obtain ⟨written, ok, maxsize, policy⟩ :=
    written_write follows.ok answers (⟨h.writes, value⟩ : Stamped T)
  rw [History.step] at stepped
  generalize h.buffer.write answers ⟨h.writes, value⟩ = result at *
  obtain ⟨buffer, ending⟩ := result
  have accepted : (l.accept value).accepted =
      h.accepted ++ [⟨⟨h.writes, value⟩, h.buffered.length⟩] := by
    rw [Ledger.accept, follows.accepted, follows.writes, follows.buffered]
  have writes : (l.accept value).writes = h.writes + 1 := congrArg (· + 1) follows.writes
  have size := maxsize.trans follows.maxsize
  have kind := policy.trans follows.overflow
  cases written with
  | stored room items dropped =>
    obtain rfl := Option.some.inj stepped
    refine ⟨_, .store value ?_, ok, size, kind, writes, accepted, ?_, follows.delivered, ?_⟩
    · rw [follows.buffered, ← follows.maxsize]
      exact room
    · rw [follows.buffered, follows.writes]
      exact items.symm
    · exact follows.lost.trans (congrArg (· + h.counting) dropped.symm)
  | replaced full oldest split woken items dropped =>
    obtain rfl := Option.some.inj stepped
    refine ⟨_, .replace value (follows.overflow ▸ oldest) (follows.buffered.trans split), ok, size,
      kind, writes, accepted, ?_, follows.delivered, ?_⟩
    · rw [follows.writes]
      exact items.symm
    · rw [List.length_append, follows.lost, List.length_singleton]
      exact (congrArg (· + h.counting + 1) dropped.symm)
  | refused full all items dropped =>
    obtain rfl := Option.some.inj stepped
    refine ⟨_, .refuse value ?_, ok, size, kind, writes, accepted, ?_, follows.delivered, ?_⟩
    · rw [follows.buffered, ← follows.maxsize]
      exact full
    · exact follows.buffered.trans items.symm
    · rw [List.length_append, follows.lost, List.length_singleton, Nat.add_right_comm]
      exact congrArg (· + h.counting) dropped.symm
  | threw error items dropped =>
    obtain rfl := Option.some.inj stepped
    exact ⟨_, .throw, ok, size, kind, congrArg (· + 1) follows.writes, follows.accepted,
      follows.buffered.trans items.symm, follows.delivered,
      follows.lost.trans (congrArg (· + h.counting) dropped.symm)⟩

/-- The increment of `dropped_` behind the consumers that a replacing write woke. -/
theorem Follows.count (follows : Follows capacity overflow h l) (stepped : h.step .count = some h') :
    Follows capacity overflow h' l := by
  rw [History.step] at stepped
  by_cases nothing : h.counting = 0
  · rw [if_pos nothing] at stepped
    cases stepped
  · rw [if_neg nothing, Option.some.injEq] at stepped
    subst stepped
    refine ⟨follows.ok, follows.maxsize, follows.overflow, follows.writes, follows.accepted,
      follows.buffered, follows.delivered, follows.lost.trans ?_⟩
    simp only
    omega

/-- Every call is a move. -/
theorem follows_step (follows : Follows capacity overflow h l) {call : Call T}
    (stepped : h.step call = some h') :
    ∃ l', l.Move capacity overflow l' ∧ Follows capacity overflow h' l' := by
  cases call with
  | write value answers => exact follows.write stepped
  | count => exact ⟨l, .idle, follows.count stepped⟩
  | getNowait answers =>
    obtain rfl := Option.some.inj stepped
    exact follows.got (follows.ok.getNowait answers)
  | get registration answers =>
    obtain rfl := Option.some.inj stepped
    exact follows.got (follows.ok.get answers registration)
  | resume registration answers =>
    obtain ⟨⟨queue, entry⟩, resumed, rfl⟩ := Option.map_eq_some_iff.mp stepped
    exact follows.took (follows.ok.resume resumed)
  | abandon registration answers =>
    obtain rfl := Option.some.inj stepped
    exact ⟨l, .idle, follows.kept (follows.ok.abandon answers registration)⟩
  | observe answers =>
    obtain rfl := Option.some.inj stepped
    exact ⟨l, .idle, follows.kept (follows.ok.kept_cleanup answers.alive)⟩

theorem follows_create (capacity : ℕ) (overflow : AnalysisOverflowPolicy) :
    Follows capacity overflow (History.create capacity overflow : History T) {} :=
  ⟨⟨rfl, le_rfl, .inr (Nat.zero_le _)⟩, rfl, rfl, rfl, rfl, rfl, rfl, rfl⟩

theorem sound_create (capacity : ℕ) (overflow : AnalysisOverflowPolicy) :
    Ledger.Sound capacity overflow ({} : Ledger T) :=
  ⟨List.Perm.refl _, .nil, nofun, .nil, .nil, nofun, fun _ => nofun⟩

/-- A run leaves a history with a sound ledger. -/
theorem reached_sound (positive : 0 < capacity) (reached : History.Reached capacity overflow h) :
    ∃ l : Ledger T, Follows capacity overflow h l ∧ l.Sound capacity overflow := by
  refine Reach.invariant (P := fun h => ∃ l : Ledger T, Follows capacity overflow h l ∧
    l.Sound capacity overflow) ?_ ?_ reached
  · rintro _ rfl
    exact ⟨{}, follows_create capacity overflow, sound_create capacity overflow⟩
  · rintro h h' call ⟨l, follows, sound⟩ - stepped
    obtain ⟨l', moved, follows'⟩ := follows_step follows stepped
    exact ⟨l', follows', sound.move positive moved⟩

end Step

/-! ### Every value is accounted for -/

/-- What becomes of the values written to a buffer. -/
structure History.Accounted (capacity : ℕ) (overflow : AnalysisOverflowPolicy) (h : History T) :
    Prop where
  /-- `counting` is not zero only while the consumers run that a replacing write woke. -/
  count : h.accepted.length =
    h.delivered.length + h.buffered.length + h.buffer.dropped + h.counting
  /-- Only accepted values are delivered or buffered, and none of them twice. -/
  once : (h.delivered.map (·.entry) ++ h.buffered).Nodup ∧
    (h.delivered.map (·.entry) ++ h.buffered) ⊆ h.accepted.map (·.entry)
  /-- Deliveries are in the order of the writes, but for those that pass values held for woken
  consumers. -/
  order : h.delivered.Pairwise fun earlier later =>
    earlier.entry.stamp < later.entry.stamp ∨ later.entry ∈ earlier.overtaken
  newest : overflow = .dropNewest → ∀ w ∈ h.accepted,
    (w.entry ∉ h.delivered.map (·.entry) ∧ w.entry ∉ h.buffered) ↔ w.size = capacity
  /-- Unless all of a full buffer is held, a write keeps its value, and what is lost for it is the first
  value not held. -/
  oldest : overflow = .dropOldest → ∀ value answers h', h.step (.write value answers) = some h' →
    h.buffered.length < capacity ∨ h.held answers < h.buffered.length →
      (∀ entry ∈ h.buffered, entry.stamp < h.writes) ∧
      ((h.buffered.length < capacity ∧ h'.buffered = h.buffered ++ [⟨h.writes, value⟩]) ∨
        ∃ held old rest, h.buffered = held ++ old :: rest ∧ held.length = h.held answers ∧
          h'.buffered = held ++ rest ++ [⟨h.writes, value⟩])

section Accounted

variable {capacity : ℕ} {overflow : AnalysisOverflowPolicy} {h h' : History T} {l : Ledger T}

theorem Ledger.Sound.entries_nodup (sound : l.Sound capacity overflow) :
    (l.delivered.map (·.entry) ++ l.buffered ++ l.lost).Nodup := by
  refine sound.split.nodup_iff.mp (List.Pairwise.map _ (fun earlier later below same => ?_)
    sound.numbered)
  rw [same] at below
  exact lt_irrefl _ below

/-- A value is lost when it was accepted and is neither delivered nor buffered. -/
theorem Ledger.Sound.lost_iff (sound : l.Sound capacity overflow) {w : Accepted T}
    (accepted : w ∈ l.accepted) :
    (w.entry ∉ l.delivered.map (·.entry) ∧ w.entry ∉ l.buffered) ↔ w.entry ∈ l.lost := by
  have apart := (List.nodup_append.mp sound.entries_nodup).2.2
  have somewhere := sound.split.subset (List.mem_map_of_mem accepted)
  rw [← not_or, ← List.mem_append]
  constructor
  · intro missing
    exact (List.mem_append.mp somewhere).resolve_left missing
  · intro lost present
    exact apart _ present _ lost rfl

/-- A `DropOldest` write to a buffer that has room, or a value that is not held. -/
theorem Follows.oldest (follows : Follows capacity overflow h l) (policy : overflow = .dropOldest)
    {value : T} {answers : Answers} (stepped : h.step (.write value answers) = some h')
    (free : h.buffered.length < capacity ∨ h.held answers < h.buffered.length) (positive : 0 < capacity) :
    (h.buffered.length < capacity ∧ h'.buffered = h.buffered ++ [⟨h.writes, value⟩]) ∨
      ∃ held old rest, h.buffered = held ++ old :: rest ∧ held.length = h.held answers ∧
        h'.buffered = held ++ rest ++ [⟨h.writes, value⟩] := by
  have size := follows.maxsize
  obtain ⟨written, -, -, -⟩ :=
    written_write follows.ok answers (⟨h.writes, value⟩ : Stamped T)
  rw [History.step] at stepped
  generalize h.buffer.write answers ⟨h.writes, value⟩ = result at *
  obtain ⟨buffer, ending⟩ := result
  cases written with
  | stored room items dropped =>
    obtain rfl := Option.some.inj stepped
    refine .inl ⟨?_, items⟩
    rw [History.buffered]
    omega
  | replaced full oldest split woken items dropped =>
    obtain rfl := Option.some.inj stepped
    exact .inr ⟨_, _, _, split, woken, items⟩
  | refused full all items dropped =>
    have stuck := all (follows.overflow.trans policy)
    rw [History.buffered, History.held] at free
    omega
  | threw error items dropped =>
    rw [follows.overflow, policy] at error
    cases error

end Accounted

/-- **What becomes of the values written to a buffer, in every run.** -/
theorem values_accounted (capacity : ℕ) (positive : 0 < capacity)
    (overflow : AnalysisOverflowPolicy) (h : History T) (reached : h.Reached capacity overflow) :
    h.Accounted capacity overflow := by
  obtain ⟨l, follows, sound⟩ := reached_sound positive reached
  have entries := sound.entries_nodup
  have split := sound.split
  rw [follows.accepted, follows.delivered, follows.buffered] at split
  rw [follows.delivered, follows.buffered] at entries
  refine ⟨?_, ⟨(List.nodup_append.mp entries).1, fun entry here => ?_⟩, ?_, ?_, ?_⟩
  · have length := split.length_eq
    simp only [List.length_append, List.length_map, follows.lost] at length
    omega
  · exact split.symm.subset (List.mem_append_left _ here)
  · exact follows.delivered ▸ sound.order
  · intro policy w accepted
    rw [← follows.accepted] at accepted
    rw [← sound.newest policy w accepted, ← sound.lost_iff accepted, follows.delivered,
      follows.buffered]
  · intro policy value answers h' stepped free
    refine ⟨fun entry here => ?_, follows.oldest policy stepped free positive⟩
    rw [← follows.writes]
    exact sound.buffered_older (follows.buffered ▸ here)

/-- A run of a new buffer reaches its history. -/
theorem reached_run {capacity : ℕ} {overflow : AnalysisOverflowPolicy} {h : History T}
    (calls : List (Call T)) (ran : run History.step (History.create capacity overflow) calls = some h) :
    h.Reached capacity overflow :=
  Reach.run (fun _ _ => trivial) (show Reach _ _ _ _ from .start rfl) calls ran

/-- All consumers are alive, and those that wait can be woken. -/
def Answers.lively : Answers := ⟨fun _ => true, fun _ => true⟩

/-- A woken consumer is cancelled before it resumes, and the next write discards what was held for it. -/
def cancelledRun : List (Call ℕ) :=
  [.get 0 .lively, .write 10 .lively, .write 20 ⟨fun _ => false, fun _ => false⟩, .count,
    .abandon 0 .lively, .getNowait .lively]

theorem values_accounted_cancelled :
    ∃ h, run History.step (History.create 1 .dropOldest) cancelledRun = some h ∧
      h.buffer.dropped = 1 ∧ h.Accounted 1 .dropOldest := by
  obtain ⟨h, ran⟩ : ∃ h, run History.step (History.create 1 .dropOldest) cancelledRun = some h :=
    Option.isSome_iff_exists.mp (by decide)
  have dropped : (run History.step (History.create 1 .dropOldest) cancelledRun).map
      (fun h => h.buffer.dropped) = some 1 := by decide
  rw [ran] at dropped
  exact ⟨h, ran, Option.some.inj dropped,
    values_accounted 1 (by decide) .dropOldest h (reached_run _ ran)⟩

/-- A consumer waits and is woken for the first of two values; `get_nowait` delivers the second before
it resumes. -/
theorem get_nowait_overtakes :
    ∃ h : History ℕ, h.Reached 2 .dropNewest ∧
      h.delivered.map (fun delivery => delivery.entry.value) = [20, 10] ∧
      ¬h.delivered.Pairwise fun earlier later => earlier.entry.stamp < later.entry.stamp := by
  refine ⟨_, reached_run [.get 0 .lively, .write 10 .lively, .write 20 .lively, .getNowait .lively,
    .resume 0 .lively] rfl, by decide, by decide⟩

end Cpptb.Buffering
