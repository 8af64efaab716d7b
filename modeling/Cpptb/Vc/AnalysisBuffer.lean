/-
The analysis buffer, over a queue whose items may be held for woken consumers.

* `Queue`, `AnalysisBuffer`: the code. A consumer that was woken has a reserved item until it resumes or
  is found dead; what the scheduler says about registrations, and whether a wake succeeds, is left open
  at every call (`Answers`).
* `Queue.Ok`: as many items are reserved as there are woken consumers, and they are in the queue.
* `takeUnreserved_taken`, `putNowait_cases`, `resume_cases`: what a call does to the items.
* `written_write`: the ways a write ends.
-/

import Cpptb.Lib.Runs

namespace Cpptb.Buffering

open Runs

variable {T : Type}

/-! ### The queue -/

/-- What the scheduler answers during a call: `external_wait_alive` and `wake_external` of each
registration. -/
structure Answers where
  alive : ℕ → Bool
  wakes : ℕ → Bool

/-- `Queue::GetWaiter`. -/
structure GetWaiter where
  registration : ℕ
  reserved : Bool := false
  deriving DecidableEq, Repr

/-- `coro::Queue`. Nobody puts into the queue of a buffer but `put_nowait`, so it has no producers
waiting. -/
structure Queue (T : Type) where
  items : List T := []
  getWaiters : List GetWaiter := []
  reservedItems : ℕ := 0
  maxsize : ℕ := 0
  deriving DecidableEq

namespace Queue

/-- `cleanup`. -/
def cleanup (q : Queue T) (alive : ℕ → Bool) : Queue T :=
  { q with
    getWaiters := q.getWaiters.filter fun waiter => alive waiter.registration
    reservedItems := q.reservedItems -
      q.getWaiters.countP fun waiter => !alive waiter.registration && waiter.reserved }

/-- `has_unreserved_item`. -/
def hasUnreservedItem (q : Queue T) : Bool := q.reservedItems < q.items.length

/-- `has_unreserved_slot`. -/
def hasUnreservedSlot (q : Queue T) : Bool := q.maxsize = 0 ∨ q.items.length < q.maxsize

/-- The loop of `wake_consumers`: the waiters and the reserved items after it. -/
def wakeLoop (wakes : ℕ → Bool) (items : ℕ) : List GetWaiter → ℕ → List GetWaiter × ℕ
  | [], reserved => ([], reserved)
  | waiter :: rest, reserved =>
      if items ≤ reserved then (waiter :: rest, reserved)
      else if waiter.reserved then
        let (rest, reserved) := wakeLoop wakes items rest reserved
        (waiter :: rest, reserved)
      else if wakes waiter.registration then
        let (rest, reserved) := wakeLoop wakes items rest (reserved + 1)
        ({ waiter with reserved := true } :: rest, reserved)
      else
        let (rest, reserved) := wakeLoop wakes items rest reserved
        (waiter :: rest, reserved)

/-- `wake_consumers`, up to its flush. -/
def wakeConsumers (q : Queue T) (answers : Answers) : Queue T :=
  let q := q.cleanup answers.alive
  let (waiters, reserved) := wakeLoop answers.wakes q.items.length q.getWaiters q.reservedItems
  { q with getWaiters := waiters, reservedItems := reserved }

/-- `wake_producers`, without producers. -/
def wakeProducers (q : Queue T) (answers : Answers) : Queue T := q.cleanup answers.alive

/-- `put_nowait`, up to its flush. -/
def putNowait (q : Queue T) (answers : Answers) (value : T) : Queue T × Bool :=
  let q := q.cleanup answers.alive
  if !q.hasUnreservedSlot then (q, false)
  else ({ q with items := q.items ++ [value] }.wakeConsumers answers, true)

/-- Take the first item that is not reserved. -/
def takeUnreserved (q : Queue T) (answers : Answers) : Queue T × Option T :=
  match q.items[q.reservedItems]? with
  | some value =>
      ({ q with items := q.items.eraseIdx q.reservedItems }.wakeProducers answers, some value)
  | none => (q, none)

/-- `get_nowait`. -/
def getNowait (q : Queue T) (answers : Answers) : Queue T × Option T :=
  let q := q.cleanup answers.alive
  if !q.hasUnreservedItem then (q, none) else q.takeUnreserved answers

/-- Awaiting `get`: `await_ready`, and then `consume_get` without a registration, or `suspend_get`,
which parks the consumer under a registration. -/
def get (q : Queue T) (answers : Answers) (registration : ℕ) : Queue T × Option T :=
  let q := q.cleanup answers.alive
  if q.hasUnreservedItem then (q.cleanup answers.alive).takeUnreserved answers
  else
    let q := q.cleanup answers.alive
    if q.hasUnreservedItem then (q.cleanup answers.alive).takeUnreserved answers
    else ({ q with getWaiters := q.getWaiters ++ [{ registration := registration }] }, none)

/-- `consume_get` of a consumer that was parked; `none` is its abort. -/
def resume (q : Queue T) (answers : Answers) (registration : ℕ) : Option (Queue T × T) :=
  match q.getWaiters.find? fun waiter => waiter.registration = registration, q.items with
  | some waiter, value :: items =>
      if waiter.reserved then
        let q := { q with
          items := items
          reservedItems := q.reservedItems - 1
          getWaiters := q.getWaiters.eraseP fun waiter => waiter.registration = registration }
        some (((q.cleanup answers.alive).wakeConsumers answers).wakeProducers answers, value)
      else none
  | _, _ => none

/-- `abandon_get`. -/
def abandon (q : Queue T) (answers : Answers) (registration : ℕ) : Queue T :=
  match q.getWaiters.find? fun waiter => waiter.registration = registration with
  | none => q
  | some waiter =>
      let q := { q with
        reservedItems := q.reservedItems - if waiter.reserved then 1 else 0
        getWaiters := q.getWaiters.eraseP fun waiter => waiter.registration = registration }
      (q.cleanup answers.alive).wakeConsumers answers

end Queue

/-! ### The buffer -/

/-- `AnalysisOverflowPolicy`. -/
inductive AnalysisOverflowPolicy
  | dropNewest
  | dropOldest
  | error
  deriving DecidableEq, Repr

/-- `AnalysisBuffer`. -/
structure AnalysisBuffer (T : Type) where
  queue : Queue T
  overflow : AnalysisOverflowPolicy
  dropped : ℕ := 0

/-- How far a write gets before the consumers it woke run: it is done, or its increment of `dropped_`
is behind them, or it threw. -/
inductive WriteEnd
  | done
  | counting
  | threw
  deriving DecidableEq, Repr

namespace AnalysisBuffer

/-- The constructor. -/
def create (capacity : ℕ) (overflow : AnalysisOverflowPolicy) : AnalysisBuffer T :=
  { queue := { maxsize := capacity }, overflow := overflow }

/-- The end of `write`, when no room was found. -/
def refuse (b : AnalysisBuffer T) : AnalysisBuffer T × WriteEnd :=
  if b.overflow = .error then (b, .threw) else ({ b with dropped := b.dropped + 1 }, .done)

/-- `write`. -/
def write (b : AnalysisBuffer T) (answers : Answers) (value : T) : AnalysisBuffer T × WriteEnd :=
  let (queue, stored) := b.queue.putNowait answers value
  if stored then ({ b with queue := queue }, .done)
  else if b.overflow = .dropOldest then
    let (queue, discarded) := queue.getNowait answers
    if discarded.isSome then
      let (queue, stored) := queue.putNowait answers value
      if stored then ({ b with queue := queue }, .counting) else refuse { b with queue := queue }
    else refuse { b with queue := queue }
  else refuse { b with queue := queue }

end AnalysisBuffer

/-! ### What the calls of a queue do -/

namespace Queue

/-- As many items are reserved as there are woken consumers; the reserved items are in the queue, and
the queue is within its size. -/
structure Ok (q : Queue T) : Prop where
  reserved : q.reservedItems = q.getWaiters.countP (·.reserved)
  held_le : q.reservedItems ≤ q.items.length
  bounded : q.maxsize = 0 ∨ q.items.length ≤ q.maxsize

/-- The consumers that were woken and are alive. -/
def held (q : Queue T) (answers : Answers) : ℕ :=
  q.getWaiters.countP fun waiter => answers.alive waiter.registration && waiter.reserved

theorem countP_alive (alive : ℕ → Bool) (waiters : List GetWaiter) :
    waiters.countP (·.reserved) =
      (waiters.countP fun waiter => alive waiter.registration && waiter.reserved) +
        waiters.countP fun waiter => !alive waiter.registration && waiter.reserved := by
  induction waiters with
  | nil => rfl
  | cons waiter rest ih =>
    simp only [List.countP_cons, ih]
    cases alive waiter.registration <;> cases waiter.reserved <;> simp <;> omega

/-- After a cleanup the items reserved are those of the consumers alive. -/
theorem Ok.cleanup_reserved {q : Queue T} (ok : q.Ok) (answers : Answers) :
    (q.cleanup answers.alive).reservedItems = q.held answers := by
  have split := countP_alive answers.alive q.getWaiters
  have same := ok.reserved
  simp only [cleanup, held]
  omega

theorem Ok.cleanup {q : Queue T} (ok : q.Ok) (alive : ℕ → Bool) : (q.cleanup alive).Ok := by
  refine ⟨?_, (Nat.sub_le _ _).trans ok.held_le, ok.bounded⟩
  have split := countP_alive alive q.getWaiters
  rw [Queue.cleanup, ok.reserved, List.countP_filter]
  simp only [Bool.and_comm (alive _)] at split ⊢
  omega

/-- A second cleanup finds nothing. -/
theorem cleanup_cleanup (q : Queue T) (alive : ℕ → Bool) :
    (q.cleanup alive).cleanup alive = q.cleanup alive := by
  have clean : ((q.getWaiters.filter fun waiter => alive waiter.registration).countP
      fun waiter => !alive waiter.registration && waiter.reserved) = 0 := by
    rw [List.countP_eq_zero]
    intro waiter here
    simp [(List.mem_filter.mp here).2]
  simp only [cleanup, List.filter_filter, Bool.and_self, clean, Nat.sub_zero]

theorem held_cleanup (q : Queue T) (answers : Answers) :
    (q.cleanup answers.alive).held answers = q.held answers := by
  rw [held, held, cleanup, List.countP_filter]
  refine List.countP_congr fun waiter _ => ?_
  cases answers.alive waiter.registration <;> simp

/-- The loop reserves one more item for each consumer it wakes, as long as there are items. -/
theorem wakeLoop_spec (wakes : ℕ → Bool) (items : ℕ) (waiters : List GetWaiter) (reserved : ℕ)
    (room : reserved ≤ items) :
    (wakeLoop wakes items waiters reserved).2 + waiters.countP (·.reserved) =
        reserved + (wakeLoop wakes items waiters reserved).1.countP (·.reserved) ∧
      (wakeLoop wakes items waiters reserved).2 ≤ items := by
  fun_induction wakeLoop wakes items waiters reserved with
  | case1 reserved => exact ⟨rfl, room⟩
  | case2 waiter rest reserved full => exact ⟨rfl, room⟩
  | case3 waiter rest reserved more woken rest' reserved' next ih =>
    have rest := ih room
    simp only [next] at rest
    simp only [List.countP_cons, woken, if_true]
    omega
  | case4 waiter rest reserved more parked wakes rest' reserved' next ih =>
    have rest := ih (by omega)
    simp only [next] at rest
    simp only [List.countP_cons, parked, if_true, Bool.false_eq_true, if_false]
    omega
  | case5 waiter rest reserved more parked fails rest' reserved' next ih =>
    have rest := ih room
    simp only [next] at rest
    simp only [List.countP_cons, parked, Bool.false_eq_true, if_false]
    omega

theorem Ok.wakeConsumers {q : Queue T} (ok : q.Ok) (answers : Answers) :
    (q.wakeConsumers answers).Ok := by
  have clean := ok.cleanup answers.alive
  have spec := wakeLoop_spec answers.wakes (q.cleanup answers.alive).items.length
    (q.cleanup answers.alive).getWaiters (q.cleanup answers.alive).reservedItems clean.held_le
  refine ⟨?_, spec.2, ok.bounded⟩
  have same := clean.reserved
  simp only [Queue.wakeConsumers]
  omega

/-- The queue keeps its items. -/
structure Kept (q q' : Queue T) : Prop where
  items : q'.items = q.items
  maxsize : q'.maxsize = q.maxsize
  ok : q'.Ok

/-- An item is taken from behind the first `count`. -/
structure Took (count : ℕ) (q q' : Queue T) (entry : T) : Prop where
  items : ∃ held rest, q.items = held ++ entry :: rest ∧ held.length = count ∧
    q'.items = held ++ rest
  maxsize : q'.maxsize = q.maxsize
  ok : q'.Ok

/-- What a call that takes an unreserved item leaves and returns. -/
inductive Got (q : Queue T) (answers : Answers) : Queue T × Option T → Prop
  | nothing {q' : Queue T} (all : q.items.length ≤ q.held answers) (kept : Kept q q') :
      Got q answers (q', none)
  | took {q' : Queue T} {entry : T} (took : Took (q.held answers) q q' entry) :
      Got q answers (q', some entry)

theorem Ok.kept_cleanup {q : Queue T} (ok : q.Ok) (alive : ℕ → Bool) : Kept q (q.cleanup alive) :=
  ⟨rfl, rfl, ok.cleanup alive⟩

/-- Taking an item that is not reserved from a queue without dead consumers. -/
theorem Ok.takeUnreserved {q : Queue T} (ok : q.Ok) (answers : Answers)
    (more : q.reservedItems < q.items.length) :
    ∃ q' entry, q.takeUnreserved answers = (q', some entry) ∧ Took q.reservedItems q q' entry := by
  have found : q.items[q.reservedItems]? = some (q.items[q.reservedItems]) :=
    List.getElem?_eq_getElem more
  have erased : (q.items.eraseIdx q.reservedItems).length = q.items.length - 1 :=
    List.length_eraseIdx_of_lt more
  have left : Ok { q with items := q.items.eraseIdx q.reservedItems } := by
    refine ⟨ok.reserved, by simp only [erased]; omega, ok.bounded.imp_right fun bounded => ?_⟩
    simp only [erased]
    omega
  refine ⟨{ q with items := q.items.eraseIdx q.reservedItems }.wakeProducers answers,
    q.items[q.reservedItems], by simp only [Queue.takeUnreserved, found],
    ⟨q.items.take q.reservedItems, q.items.drop (q.reservedItems + 1), ?_, ?_, ?_⟩, rfl,
    left.cleanup answers.alive⟩
  · rw [List.getElem_cons_drop, List.take_append_drop]
  · rw [List.length_take]
    omega
  · exact List.eraseIdx_eq_take_drop_succ _ _

/-- A call that takes an unreserved item, behind its cleanup. -/
theorem Ok.got_takeUnreserved {q : Queue T} (ok : q.Ok) (answers : Answers)
    (more : (q.cleanup answers.alive).hasUnreservedItem = true) :
    Got q answers ((q.cleanup answers.alive).takeUnreserved answers) := by
  have clean := ok.cleanup answers.alive
  obtain ⟨q', entry, taken, took⟩ := clean.takeUnreserved answers (of_decide_eq_true more)
  rw [taken]
  rw [ok.cleanup_reserved answers] at took
  exact .took ⟨took.items, took.maxsize, took.ok⟩

theorem Ok.all_held {q : Queue T} (ok : q.Ok) (answers : Answers)
    (none : ¬(q.cleanup answers.alive).hasUnreservedItem = true) :
    q.items.length ≤ q.held answers := by
  have few := fun more => none (decide_eq_true more)
  rw [ok.cleanup_reserved answers] at few
  exact not_lt.mp few

theorem Ok.getNowait {q : Queue T} (ok : q.Ok) (answers : Answers) :
    Got q answers (q.getNowait answers) := by
  unfold Queue.getNowait
  by_cases more : (q.cleanup answers.alive).hasUnreservedItem = true
  · simp only [more, Bool.not_true, Bool.false_eq_true, if_false]
    exact ok.got_takeUnreserved answers more
  · simp only [more, Bool.not_false, if_true]
    exact .nothing (ok.all_held answers more) (ok.kept_cleanup answers.alive)

theorem Ok.get {q : Queue T} (ok : q.Ok) (answers : Answers) (registration : ℕ) :
    Got q answers (q.get answers registration) := by
  unfold Queue.get
  simp only [cleanup_cleanup]
  by_cases more : (q.cleanup answers.alive).hasUnreservedItem = true
  · simp only [more, if_true]
    exact ok.got_takeUnreserved answers more
  · simp only [more]
    refine .nothing (ok.all_held answers more) ⟨rfl, rfl, ?_, ?_, ok.bounded⟩
    · simpa using (ok.cleanup answers.alive).reserved
    · exact (ok.cleanup answers.alive).held_le

theorem Ok.putNowait {q : Queue T} (ok : q.Ok) (answers : Answers) (value : T) :
    (∃ q', q.putNowait answers value = (q', true) ∧
      (q.maxsize = 0 ∨ q.items.length < q.maxsize) ∧
      q'.items = q.items ++ [value] ∧ q'.maxsize = q.maxsize ∧ q'.Ok) ∨
    (q.putNowait answers value = (q.cleanup answers.alive, false) ∧ q.items.length = q.maxsize) := by
  unfold Queue.putNowait
  by_cases room : q.maxsize = 0 ∨ q.items.length < q.maxsize
  · have slot : (q.cleanup answers.alive).hasUnreservedSlot = true := decide_eq_true room
    have clean := ok.cleanup answers.alive
    simp only [slot, Bool.not_true, Bool.false_eq_true, if_false]
    have pushed : Ok { q.cleanup answers.alive with items := q.items ++ [value] } := by
      refine ⟨clean.reserved, ?_, room.imp_right fun short => ?_⟩
      · rw [List.length_append]
        exact Nat.le_add_right_of_le clean.held_le
      · rw [List.length_append, List.length_singleton]
        exact short
    exact .inl ⟨_, rfl, room, rfl, rfl, pushed.wakeConsumers answers⟩
  · have slot : (q.cleanup answers.alive).hasUnreservedSlot = false := decide_eq_false room
    simp only [slot, Bool.not_false, if_true]
    refine .inr ⟨trivial, ?_⟩
    have bounded := ok.bounded
    omega

/-- Taking a waiter out, and its reservation with it. -/
theorem countP_eraseP {waiters : List GetWaiter} {registration : ℕ} {waiter : GetWaiter}
    (found : waiters.find? (fun waiter => waiter.registration = registration) = some waiter) :
    (waiters.eraseP fun waiter => waiter.registration = registration).countP (·.reserved) +
      (if waiter.reserved then 1 else 0) = waiters.countP (·.reserved) := by
  induction waiters with
  | nil => cases found
  | cons first rest ih =>
    by_cases here : first.registration = registration
    · rw [List.find?_cons_of_pos (by simpa using here), Option.some.injEq] at found
      subst found
      rw [List.eraseP_cons_of_pos (by simpa using here), List.countP_cons]
    · rw [List.find?_cons_of_neg (by simpa using here)] at found
      rw [List.eraseP_cons_of_neg (by simpa using here), List.countP_cons, List.countP_cons,
        ← ih found]
      omega

/-- A consumer that resumes gets the oldest item. -/
theorem Ok.resume {q q' : Queue T} (ok : q.Ok) {answers : Answers} {registration : ℕ} {entry : T}
    (resumed : q.resume answers registration = some (q', entry)) : Took 0 q q' entry := by
  unfold Queue.resume at resumed
  cases found : q.getWaiters.find? fun waiter => waiter.registration = registration with
  | none =>
    rw [found] at resumed
    cases resumed
  | some waiter =>
    rw [found] at resumed
    cases inside : q.items with
    | nil =>
      rw [inside] at resumed
      cases resumed
    | cons value items =>
      rw [inside] at resumed
      by_cases woken : waiter.reserved = true
      · simp only [woken, if_true, Option.some.injEq, Prod.mk.injEq] at resumed
        obtain ⟨rfl, rfl⟩ := resumed
        refine ⟨⟨[], items, inside, rfl, rfl⟩, rfl, ?_⟩
        have count := countP_eraseP found
        have same := ok.reserved
        have below := ok.held_le
        have bounded := ok.bounded
        rw [inside, List.length_cons] at below bounded
        rw [woken, if_pos rfl] at count
        have left : Ok { q with
            items := items, reservedItems := q.reservedItems - 1
            getWaiters := q.getWaiters.eraseP fun waiter => waiter.registration = registration } :=
          ⟨by simp only; omega, by simp only; omega, by simp only; omega⟩
        exact ((left.cleanup answers.alive).wakeConsumers answers).cleanup answers.alive
      · simp only [woken] at resumed
        cases resumed

theorem Ok.abandon {q : Queue T} (ok : q.Ok) (answers : Answers) (registration : ℕ) :
    Kept q (q.abandon answers registration) := by
  unfold Queue.abandon
  cases found : q.getWaiters.find? fun waiter => waiter.registration = registration with
  | none => exact ⟨rfl, rfl, ok⟩
  | some waiter =>
    have count := countP_eraseP found
    have same := ok.reserved
    have below := ok.held_le
    have left : Ok { q with
        reservedItems := q.reservedItems - if waiter.reserved then 1 else 0
        getWaiters := q.getWaiters.eraseP fun waiter => waiter.registration = registration } :=
      ⟨by simp only; omega, by simp only; omega, ok.bounded⟩
    exact ⟨rfl, rfl, (left.cleanup answers.alive).wakeConsumers answers⟩

end Queue

/-! ### What a write does -/

/-- The ways a write ends. -/
inductive Written (b : AnalysisBuffer T) (answers : Answers) (value : T) (b' : AnalysisBuffer T) :
    WriteEnd → Prop
  | stored (room : b.queue.maxsize = 0 ∨ b.queue.items.length < b.queue.maxsize)
      (items : b'.queue.items = b.queue.items ++ [value]) (dropped : b'.dropped = b.dropped) :
      Written b answers value b' .done
  | replaced (full : b.queue.items.length = b.queue.maxsize) (policy : b.overflow = .dropOldest)
      {held rest : List T} {old : T} (split : b.queue.items = held ++ old :: rest)
      (woken : held.length = b.queue.held answers)
      (items : b'.queue.items = held ++ rest ++ [value]) (dropped : b'.dropped = b.dropped) :
      Written b answers value b' .counting
  | refused (full : b.queue.items.length = b.queue.maxsize)
      (all : b.overflow = .dropOldest → b.queue.items.length ≤ b.queue.held answers)
      (items : b'.queue.items = b.queue.items) (dropped : b'.dropped = b.dropped + 1) :
      Written b answers value b' .done
  | threw (policy : b.overflow = .error) (items : b'.queue.items = b.queue.items)
      (dropped : b'.dropped = b.dropped) : Written b answers value b' .threw

/-- A write that found no room ends so. -/
theorem written_refuse {b : AnalysisBuffer T} {answers : Answers} (value : T) {q : Queue T}
    (kept : Queue.Kept b.queue q) (full : b.queue.items.length = b.queue.maxsize)
    (all : b.overflow = .dropOldest → b.queue.items.length ≤ b.queue.held answers) :
    Written b answers value (AnalysisBuffer.refuse { b with queue := q }).1
        (AnalysisBuffer.refuse { b with queue := q }).2 ∧
      (AnalysisBuffer.refuse { b with queue := q }).1.queue.Ok ∧
      (AnalysisBuffer.refuse { b with queue := q }).1.queue.maxsize = b.queue.maxsize ∧
      (AnalysisBuffer.refuse { b with queue := q }).1.overflow = b.overflow := by
  unfold AnalysisBuffer.refuse
  by_cases policy : b.overflow = .error
  · simp only [policy, if_true]
    exact ⟨.threw policy kept.items rfl, kept.ok, kept.maxsize, trivial⟩
  · simp only [policy, if_false]
    exact ⟨.refused full all kept.items rfl, kept.ok, kept.maxsize, trivial⟩

/-- A write ends in one of these ways, and keeps the size of the buffer and its policy. -/
theorem written_write {b : AnalysisBuffer T} (ok : b.queue.Ok) (answers : Answers) (value : T) :
    Written b answers value (b.write answers value).1 (b.write answers value).2 ∧
      (b.write answers value).1.queue.Ok ∧
      (b.write answers value).1.queue.maxsize = b.queue.maxsize ∧
      (b.write answers value).1.overflow = b.overflow := by
  have kept := ok.kept_cleanup answers.alive
  obtain ⟨q, put, room, items, size, fine⟩ | ⟨put, full⟩ := ok.putNowait answers value
  · simp only [AnalysisBuffer.write, put]
    exact ⟨.stored room items rfl, fine, size, rfl⟩
  by_cases policy : b.overflow = .dropOldest
  · -- the discard sees the queue after the cleanup of the first attempt
    have got := kept.ok.getNowait answers
    have same := b.queue.held_cleanup answers
    simp only [AnalysisBuffer.write, put, Bool.false_eq_true, if_false, if_pos policy]
    generalize (b.queue.cleanup answers.alive).getNowait answers = discarded at got
    cases got with
    | @nothing q' all kept' =>
      simp only [Option.isSome_none, Bool.false_eq_true, if_false]
      exact written_refuse value ⟨kept'.items, kept'.maxsize, kept'.ok⟩ full fun _ => same ▸ all
    | @took q' old took =>
      obtain ⟨held, rest, split, woken, left⟩ := took.items
      have before : b.queue.items = held ++ old :: rest := split
      have short : q'.items.length < q'.maxsize := by
        rw [left, took.maxsize]
        rw [before] at full
        simp only [List.length_append, List.length_cons] at full ⊢
        exact lt_of_lt_of_eq (by omega) full
      obtain ⟨last, put', _, items, size, fine⟩ | ⟨_, stuck⟩ := took.ok.putNowait answers value
      · simp only [put', Option.isSome_some, if_true]
        refine ⟨.replaced full policy before (woken.trans same) ?_ rfl, fine,
          size.trans took.maxsize, trivial⟩
        rw [items, left]
      · exact absurd stuck short.ne
  · simp only [AnalysisBuffer.write, put, Bool.false_eq_true, if_false, if_neg policy]
    exact written_refuse value kept full fun oldest => absurd oldest policy

/-! ### Runs -/

/-- A value, and the number of its write. -/
structure Stamped (T : Type) where
  stamp : ℕ
  value : T
  deriving DecidableEq

/-- An accepted write: its value, and how many values were buffered when it began. -/
structure Accepted (T : Type) where
  entry : Stamped T
  size : ℕ

/-- A delivered value, and the values held for woken consumers that it passed. -/
structure Delivery (T : Type) where
  entry : Stamped T
  overtaken : List (Stamped T) := []

/-- A buffer and what happened to it: the number of writes, the accepted ones, the deliveries in order,
and the number of writes that replaced a value and still run the consumers they woke. -/
structure History (T : Type) where
  buffer : AnalysisBuffer (Stamped T)
  writes : ℕ := 0
  accepted : List (Accepted T) := []
  delivered : List (Delivery T) := []
  counting : ℕ := 0

/-- A call on a buffer. -/
inductive Call (T : Type)
  | write (value : T) (answers : Answers)
  /-- The increment of `dropped_`, after the consumers that the write woke. -/
  | count
  | getNowait (answers : Answers)
  /-- `co_await get()`. -/
  | get (registration : ℕ) (answers : Answers)
  /-- The scheduler resumes a parked consumer. -/
  | resume (registration : ℕ) (answers : Answers)
  /-- The frame of a parked consumer is destroyed. -/
  | abandon (registration : ℕ) (answers : Answers)
  /-- `size` and `empty`. -/
  | observe (answers : Answers)

namespace History

/-- A new buffer. -/
def create (capacity : ℕ) (overflow : AnalysisOverflowPolicy) : History T :=
  { buffer := .create capacity overflow }

/-- The values in the buffer. -/
def buffered (h : History T) : List (Stamped T) := h.buffer.queue.items

/-- How many values are held for consumers that were woken and are alive. -/
def held (h : History T) (answers : Answers) : ℕ := h.buffer.queue.held answers

/-- Replace the queue. -/
def withQueue (h : History T) (queue : Queue (Stamped T)) : History T :=
  { h with buffer := { h.buffer with queue := queue } }

/-- Deliver the value that a call returned, if any. -/
def deliver (h : History T) (overtaken : List (Stamped T)) : Option (Stamped T) → History T
  | none => h
  | some entry => { h with delivered := h.delivered ++ [{ entry := entry, overtaken := overtaken }] }

/-- Make a call; `none` is an abort. -/
def step (h : History T) : Call T → Option (History T)
  | .write value answers =>
      let entry := { stamp := h.writes, value := value }
      let accepted := h.accepted ++ [{ entry := entry, size := h.buffered.length }]
      match h.buffer.write answers entry with
      | (buffer, .done) =>
          some { h with buffer := buffer, writes := h.writes + 1, accepted := accepted }
      | (buffer, .counting) =>
          some { h with
            buffer := buffer, writes := h.writes + 1, accepted := accepted
            counting := h.counting + 1 }
      | (buffer, .threw) => some { h with buffer := buffer, writes := h.writes + 1 }
  | .count =>
      if h.counting = 0 then none
      else some { h with
        buffer := { h.buffer with dropped := h.buffer.dropped + 1 }
        counting := h.counting - 1 }
  | .getNowait answers =>
      let (queue, taken) := h.buffer.queue.getNowait answers
      some ((h.withQueue queue).deliver (h.buffered.take (h.held answers)) taken)
  | .get registration answers =>
      let (queue, taken) := h.buffer.queue.get answers registration
      some ((h.withQueue queue).deliver (h.buffered.take (h.held answers)) taken)
  | .resume registration answers =>
      (h.buffer.queue.resume answers registration).map fun (queue, entry) =>
        (h.withQueue queue).deliver [] (some entry)
  | .abandon registration answers =>
      some (h.withQueue (h.buffer.queue.abandon answers registration))
  | .observe answers => some (h.withQueue (h.buffer.queue.cleanup answers.alive))

/-- The histories of the runs of a buffer. -/
def Reached (capacity : ℕ) (overflow : AnalysisOverflowPolicy) : History T → Prop :=
  Reach step (fun _ _ => True) (· = create capacity overflow)

end History

end Cpptb.Buffering
