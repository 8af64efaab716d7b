/-
Disjoint ranges kept in order.

A list holds ranges `[start e, stop e)` of a linear order, each with an element, ordered so that each
stops before the next starts (`Apart`). The range that holds a point is the last one that does not
start after it (`last_upTo_iff`), and a new range fits exactly when it ends before the first range
that starts after it and starts after the end of the one before (`fits_iff`).
-/

import Mathlib

namespace Cpptb.Ranges

variable {α β : Type} [LinearOrder α] {start stop : β → α}

/-- The ranges have elements, and each stops before those after it start. -/
structure Apart (start stop : β → α) (ranges : List β) : Prop where
  proper : ∀ e ∈ ranges, start e < stop e
  ordered : ranges.Pairwise fun left right => stop left ≤ start right

/-- Two ranges have no common element. -/
def Disjoint (start stop : β → α) (left right : β) : Prop :=
  ∀ x, ¬ ((start left ≤ x ∧ x < stop left) ∧ (start right ≤ x ∧ x < stop right))

namespace Apart

variable {ranges : List β}

theorem nil : Apart start stop ([] : List β) :=
  ⟨fun _ => (nomatch ·), List.Pairwise.nil⟩

theorem tail {e : β} (apart : Apart start stop (e :: ranges)) : Apart start stop ranges :=
  ⟨fun other member => apart.proper other (List.mem_cons_of_mem _ member),
    (List.pairwise_cons.mp apart.ordered).2⟩

/-- The first range stops before the others start. -/
theorem head {e : β} (apart : Apart start stop (e :: ranges)) :
    ∀ other ∈ ranges, stop e ≤ start other :=
  (List.pairwise_cons.mp apart.ordered).1

/-- The elements change, and their ranges do not. -/
theorem map (apart : Apart start stop ranges) {change : β → β}
    (same : ∀ e ∈ ranges, start (change e) = start e ∧ stop (change e) = stop e) :
    Apart start stop (ranges.map change) := by
  refine ⟨fun e member => ?_, List.pairwise_map.mpr ?_⟩
  · obtain ⟨old, inside, rfl⟩ := List.mem_map.mp member
    rw [(same old inside).1, (same old inside).2]
    exact apart.proper old inside
  · refine apart.ordered.imp_of_mem fun {left right} member member' ordered => ?_
    rw [(same left member).2, (same right member').1]
    exact ordered

/-- A point lies in one range at most. -/
theorem unique (apart : Apart start stop ranges) {x : α} {e e' : β} (member : e ∈ ranges)
    (member' : e' ∈ ranges) (inside : start e ≤ x ∧ x < stop e)
    (inside' : start e' ≤ x ∧ x < stop e') : e = e' := by
  induction ranges with
  | nil => cases member
  | cons first rest ih =>
      rcases List.mem_cons.mp member with rfl | later
      · rcases List.mem_cons.mp member' with rfl | later'
        · rfl
        · have before := apart.head e' later'
          exact absurd (lt_of_lt_of_le inside.2 (before.trans inside'.1)) (lt_irrefl x)
      · rcases List.mem_cons.mp member' with rfl | later'
        · have before := apart.head e later
          exact absurd (lt_of_lt_of_le inside'.2 (before.trans inside.1)) (lt_irrefl x)
        · exact ih apart.tail later later'

/-- Two ranges that start at one point are one range. -/
theorem start_injective (apart : Apart start stop ranges) {e e' : β} (member : e ∈ ranges)
    (member' : e' ∈ ranges) (same : start e = start e') : e = e' :=
  apart.unique member member' ⟨le_refl _, apart.proper e member⟩
    ⟨same.ge, same ▸ apart.proper e' member'⟩

end Apart

/-! ### Looking a point up -/

/-- The ranges that start no later than a point. -/
def upTo (start : β → α) (x : α) (ranges : List β) : List β :=
  ranges.takeWhile fun e => start e ≤ x

/-- The ranges that start before a point. -/
def before (start : β → α) (x : α) (ranges : List β) : List β :=
  ranges.takeWhile fun e => start e < x

/-- The other ranges: `lower_bound` points to the first of them. -/
def onwards (start : β → α) (x : α) (ranges : List β) : List β :=
  ranges.dropWhile fun e => start e < x

theorem before_append_onwards (start : β → α) (x : α) (ranges : List β) :
    before start x ranges ++ onwards start x ranges = ranges :=
  List.takeWhile_append_dropWhile

theorem mem_before {x : α} {ranges : List β} {e : β} (member : e ∈ before start x ranges) :
    e ∈ ranges ∧ start e < x := by
  unfold before at member
  have started := List.mem_takeWhile_imp member
  exact ⟨(List.takeWhile_sublist _).subset member, by simpa using started⟩

theorem mem_upTo {x : α} {ranges : List β} {e : β} (member : e ∈ upTo start x ranges) :
    e ∈ ranges ∧ start e ≤ x := by
  unfold upTo at member
  have started := List.mem_takeWhile_imp member
  exact ⟨(List.takeWhile_sublist _).subset member, by simpa using started⟩

/-- In order, every range that starts later is among the others. -/
theorem mem_onwards {ranges : List β} (apart : Apart start stop ranges) {x : α} {e : β}
    (member : e ∈ onwards start x ranges) : e ∈ ranges ∧ x ≤ start e := by
  induction ranges with
  | nil => cases member
  | cons first rest ih =>
      unfold onwards at member
      rw [List.dropWhile_cons] at member
      split at member
      · obtain ⟨inside, later⟩ := ih apart.tail member
        exact ⟨List.mem_cons_of_mem _ inside, later⟩
      · rename_i late
        have reached : x ≤ start first := not_lt.mp fun early => late (decide_eq_true early)
        rcases List.mem_cons.mp member with rfl | later
        · exact ⟨List.mem_cons_self, reached⟩
        · have next := apart.head e later
          exact ⟨List.mem_cons_of_mem _ later,
            reached.trans ((apart.proper first List.mem_cons_self).le.trans next)⟩

/-- The last range that does not start after a point it holds. -/
theorem last_upTo_iff {ranges : List β} (apart : Apart start stop ranges) {x : α} {e : β} :
    (upTo start x ranges).getLast? = some e ∧ x < stop e ↔
      e ∈ ranges ∧ start e ≤ x ∧ x < stop e := by
  constructor
  · rintro ⟨last, inside⟩
    obtain ⟨member, started⟩ := mem_upTo (List.mem_of_getLast? last)
    exact ⟨member, started, inside⟩
  · rintro ⟨member, started, inside⟩
    refine ⟨?_, inside⟩
    induction ranges with
    | nil => cases member
    | cons first rest ih =>
        unfold upTo at ih ⊢
        rcases List.mem_cons.mp member with rfl | later
        · -- the ranges after it start after the point
          have none : rest.takeWhile (fun other => decide (start other ≤ x)) = [] := by
            cases rest with
            | nil => rfl
            | cons second others =>
                have next := apart.head second List.mem_cons_self
                exact List.takeWhile_cons_of_neg
                  (by simpa using lt_of_lt_of_le inside next)
          rw [List.takeWhile_cons_of_pos (by simpa using started), none]
          rfl
        · have early : start first ≤ x :=
            (apart.proper first List.mem_cons_self).le.trans ((apart.head e later).trans started)
          rw [List.takeWhile_cons_of_pos (by simpa using early), List.getLast?_cons,
            ih apart.tail later]
          rfl

/-- The range that starts at a point is the first that does not start before it. -/
theorem head_onwards {ranges : List β} (apart : Apart start stop ranges) {x : α} {e : β}
    (member : e ∈ ranges) (here : start e = x) : (onwards start x ranges).head? = some e := by
  induction ranges with
  | nil => cases member
  | cons first rest ih =>
      unfold onwards at ih ⊢
      rw [List.dropWhile_cons]
      rcases List.mem_cons.mp member with rfl | later
      · rw [if_neg (by simp [here])]
        rfl
      · have early : start first < x :=
          here ▸ (apart.proper first List.mem_cons_self).trans_le (apart.head e later)
        rw [if_pos (decide_eq_true early)]
        exact ih apart.tail later

/-- Without a range that starts at the point. -/
theorem before_eq_upTo {ranges : List β} {x : α} (none : ∀ e ∈ ranges, start e ≠ x) :
    before start x ranges = upTo start x ranges := by
  induction ranges with
  | nil => rfl
  | cons first rest ih =>
      unfold before upTo at ih ⊢
      have same : decide (start first < x) = decide (start first ≤ x) :=
        decide_eq_decide.mpr ⟨le_of_lt, fun most => lt_of_le_of_ne most (none first List.mem_cons_self)⟩
      rw [List.takeWhile_cons, List.takeWhile_cons, same,
        ih fun e member => none e (List.mem_cons_of_mem _ member)]

/-! ### Adding a range -/

/-- The range ends before the first range that does not start before it, and the last range that
does stops before it. -/
def Fits (start stop : β → α) (e : β) (ranges : List β) : Prop :=
  (∀ next, (onwards start (start e) ranges).head? = some next → stop e ≤ start next) ∧
    ∀ previous, (before start (start e) ranges).getLast? = some previous → stop previous ≤ start e

/-- Insert a range before the first that does not start before it. -/
def insert (start : β → α) (e : β) (ranges : List β) : List β :=
  before start (start e) ranges ++ e :: onwards start (start e) ranges

theorem mem_insert {e e' : β} {ranges : List β} :
    e' ∈ insert start e ranges ↔ e' = e ∨ e' ∈ ranges := by
  unfold insert
  rw [List.mem_append, List.mem_cons]
  have split : e' ∈ ranges ↔
      e' ∈ before start (start e) ranges ∨ e' ∈ onwards start (start e) ranges := by
    rw [← List.mem_append, before_append_onwards]
  rw [split]
  tauto

/-- Every range before stops before the new one, and the new one before every range after. -/
theorem fits_all {e : β} {ranges : List β} (apart : Apart start stop ranges)
    (fits : Fits start stop e ranges) :
    (∀ next ∈ onwards start (start e) ranges, stop e ≤ start next) ∧
      ∀ previous ∈ before start (start e) ranges, stop previous ≤ start e := by
  have ordered := apart.ordered
  rw [← before_append_onwards start (start e) ranges, List.pairwise_append] at ordered
  obtain ⟨low, high, -⟩ := ordered
  constructor
  · intro next member
    cases queue : onwards start (start e) ranges with
    | nil =>
        rw [queue] at member
        cases member
    | cons first rest =>
        have here := fits.1 first (by rw [queue]; rfl)
        rw [queue] at member high
        rcases List.mem_cons.mp member with rfl | later
        · exact here
        · have inside : first ∈ ranges :=
            (mem_onwards apart (by rw [queue]; exact List.mem_cons_self)).1
          exact here.trans ((apart.proper first inside).le.trans
            ((List.pairwise_cons.mp high).1 next later))
  · intro previous member
    obtain ⟨front, last, split⟩ : ∃ front last, before start (start e) ranges = front ++ [last] :=
      ⟨_, _, (List.dropLast_append_getLast (List.ne_nil_of_mem member)).symm⟩
    have here := fits.2 last (by rw [split, List.getLast?_append]; rfl)
    rw [split] at member low
    rcases List.mem_append.mp member with earlier | same
    · have next := (List.pairwise_append.mp low).2.2 previous earlier last List.mem_cons_self
      have inside : last ∈ ranges := (mem_before (by rw [split]; simp)).1
      exact next.trans ((apart.proper last inside).le.trans here)
    · rw [List.mem_singleton.mp same]
      exact here

theorem Apart.insert {e : β} {ranges : List β} (apart : Apart start stop ranges)
    (proper : start e < stop e) (fits : Fits start stop e ranges) :
    Apart start stop (insert start e ranges) := by
  obtain ⟨after, earlier⟩ := fits_all apart fits
  refine ⟨fun e' member => ?_, ?_⟩
  · rcases mem_insert.mp member with rfl | old
    · exact proper
    · exact apart.proper e' old
  · have ordered := apart.ordered
    rw [← before_append_onwards start (start e) ranges, List.pairwise_append] at ordered
    obtain ⟨low, high, across⟩ := ordered
    refine List.pairwise_append.mpr ⟨low, List.pairwise_cons.mpr ⟨after, high⟩, ?_⟩
    intro left member right member'
    rcases List.mem_cons.mp member' with rfl | later
    · exact earlier left member
    · exact across left member right later

/-- A range fits exactly when it meets no other range. -/
theorem fits_iff {e : β} {ranges : List β} (apart : Apart start stop ranges)
    (proper : start e < stop e) :
    Fits start stop e ranges ↔ ∀ other ∈ ranges, Disjoint start stop e other := by
  constructor
  · intro fits other member x both
    obtain ⟨after, earlier⟩ := fits_all apart fits
    rw [← before_append_onwards start (start e) ranges, List.mem_append] at member
    rcases member with low | high
    · have order := earlier other low
      exact absurd (lt_of_lt_of_le both.2.2 (order.trans both.1.1)) (lt_irrefl x)
    · have order := after other high
      exact absurd (lt_of_lt_of_le both.1.2 (order.trans both.2.1)) (lt_irrefl x)
  · intro apartFrom
    refine ⟨fun next first => ?_, fun previous last => ?_⟩
    · obtain ⟨member, late⟩ := mem_onwards apart (List.mem_of_head? first)
      by_contra overlap
      exact apartFrom next member (start next)
        ⟨⟨late, not_le.mp overlap⟩, le_refl _, apart.proper next member⟩
    · obtain ⟨member, early⟩ := mem_before (List.mem_of_getLast? last)
      by_contra overlap
      exact apartFrom previous member (start e)
        ⟨⟨le_refl _, proper⟩, early.le, not_le.mp overlap⟩

end Cpptb.Ranges
