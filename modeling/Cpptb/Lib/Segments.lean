/-
Unions of closed ranges of natural numbers.

A list of segments stands for the union of its members (`Covers`). Clipping every member to the
members of another list intersects the unions (`covers_meets`), joining two members that touch keeps
the union (`covers_join`), and no list covers more numbers than the sum of its sizes (`card_le_total`),
so that a list of distinct covered numbers as long as the sum is the whole union
(`exhausts_of_total_le`). The positions of an ascending list number its union (`nth_bijOn`).
-/

import Mathlib

namespace Cpptb.Segments

/-- The numbers from `minimum` to `maximum`. -/
structure Segment where
  minimum : ℕ
  maximum : ℕ
  deriving DecidableEq, Repr

namespace Segment

/-- The segment has the number. -/
def Has (segment : Segment) (x : ℕ) : Prop := segment.minimum ≤ x ∧ x ≤ segment.maximum

instance (segment : Segment) (x : ℕ) : Decidable (segment.Has x) := by
  unfold Has
  infer_instance

/-- The common numbers of two segments. -/
def meet (left right : Segment) : Segment :=
  ⟨max left.minimum right.minimum, min left.maximum right.maximum⟩

/-- The smallest segment with the numbers of both, when `left` starts first. -/
def join (left right : Segment) : Segment :=
  ⟨left.minimum, max left.maximum right.maximum⟩

/-- How many numbers a segment with a number has. -/
def size (segment : Segment) : ℕ := segment.maximum - segment.minimum + 1

theorem has_meet {left right : Segment} {x : ℕ} :
    (left.meet right).Has x ↔ left.Has x ∧ right.Has x := by
  simp only [Has, meet]
  omega

/-- A segment with a number starts before it stops. -/
theorem Has.proper {segment : Segment} {x : ℕ} (has : segment.Has x) :
    segment.minimum ≤ segment.maximum :=
  has.1.trans has.2

theorem has_join {left right : Segment} (first : left.minimum ≤ right.minimum)
    (touch : right.minimum ≤ left.maximum + 1) {x : ℕ} :
    (left.join right).Has x ↔ left.Has x ∨ right.Has x := by
  simp only [Has, join]
  omega

end Segment

/-- A member has the number. -/
def Covers (segments : List Segment) (x : ℕ) : Prop := ∃ segment ∈ segments, segment.Has x

/-- Whether a member has the number. -/
def covers (segments : List Segment) (x : ℕ) : Bool :=
  segments.any fun segment => segment.minimum ≤ x && x ≤ segment.maximum

theorem covers_iff {segments : List Segment} {x : ℕ} : covers segments x = true ↔ Covers segments x := by
  simp only [covers, Covers, List.any_eq_true, Bool.and_eq_true, decide_eq_true_eq, Segment.Has]

theorem covers_nil {x : ℕ} : ¬ Covers [] x := by
  rintro ⟨segment, member, -⟩
  cases member

theorem covers_cons {first : Segment} {rest : List Segment} {x : ℕ} :
    Covers (first :: rest) x ↔ first.Has x ∨ Covers rest x := by
  simp only [Covers, List.mem_cons, exists_eq_or_imp]

theorem covers_append {left right : List Segment} {x : ℕ} :
    Covers (left ++ right) x ↔ Covers left x ∨ Covers right x := by
  simp only [Covers, List.mem_append, or_and_right, exists_or]

/-- The order of the members does not matter. -/
theorem covers_perm {left right : List Segment} (same : left.Perm right) {x : ℕ} :
    Covers left x ↔ Covers right x := by
  simp only [Covers, same.mem_iff]

/-! ### Intersections -/

/-- The common numbers of one segment and a list, without the empty meets. -/
def clip (bound : Segment) (segments : List Segment) : List Segment :=
  (segments.map bound.meet).filter fun segment => segment.minimum ≤ segment.maximum

/-- The common numbers of two lists, without the empty meets. -/
def meets (left right : List Segment) : List Segment :=
  left.flatMap fun segment => clip segment right

theorem covers_clip {bound : Segment} {segments : List Segment} {x : ℕ} :
    Covers (clip bound segments) x ↔ bound.Has x ∧ Covers segments x := by
  simp only [Covers, clip, List.mem_filter, List.mem_map, decide_eq_true_eq]
  constructor
  · rintro ⟨_, ⟨⟨segment, member, rfl⟩, -⟩, has⟩
    obtain ⟨inBound, inSegment⟩ := Segment.has_meet.mp has
    exact ⟨inBound, segment, member, inSegment⟩
  · rintro ⟨inBound, segment, member, inSegment⟩
    have has := Segment.has_meet.mpr ⟨inBound, inSegment⟩
    exact ⟨_, ⟨⟨segment, member, rfl⟩, has.proper⟩, has⟩

theorem covers_meets {left right : List Segment} {x : ℕ} :
    Covers (meets left right) x ↔ Covers left x ∧ Covers right x := by
  induction left with
  | nil => simp only [meets, List.flatMap_nil, covers_nil, false_and]
  | cons first rest ih =>
      have step : meets (first :: rest) right = clip first right ++ meets rest right := rfl
      rw [step, covers_append, covers_clip, ih, covers_cons]
      tauto

/-- The members of a clipped list start before they stop. -/
theorem proper_of_mem_clip {bound segment : Segment} {segments : List Segment}
    (member : segment ∈ clip bound segments) : segment.minimum ≤ segment.maximum := by
  simp only [clip, List.mem_filter, decide_eq_true_eq] at member
  exact member.2

/-! ### Sizes -/

/-- The sum of the sizes. -/
def total (segments : List Segment) : ℕ := (segments.map Segment.size).sum

theorem total_cons (first : Segment) (rest : List Segment) :
    total (first :: rest) = first.size + total rest := by
  simp only [total, List.map_cons, List.sum_cons]

theorem total_concat (front : List Segment) (last : Segment) :
    total (front ++ [last]) = total front + last.size := by
  simp only [total, List.map_append, List.sum_append, List.map_cons, List.map_nil, List.sum_cons,
    List.sum_nil, Nat.add_zero]

/-- The numbers of a segment, as a finite set. -/
theorem mem_icc_iff {segment : Segment} {x : ℕ} :
    x ∈ Finset.Icc segment.minimum segment.maximum ↔ segment.Has x :=
  Finset.mem_Icc

/-- Distinct covered numbers are at most as many as the sum of the sizes. -/
theorem card_le_total {segments : List Segment} (numbers : Finset ℕ)
    (covered : ∀ x ∈ numbers, Covers segments x) : numbers.card ≤ total segments := by
  induction segments generalizing numbers with
  | nil =>
      have empty : numbers = ∅ := Finset.eq_empty_of_forall_notMem fun x member =>
        covers_nil (covered x member)
      rw [empty, Finset.card_empty]
      exact Nat.zero_le _
  | cons first rest ih =>
      have inside : (numbers.filter first.Has).card ≤ first.size := by
        refine le_trans (Finset.card_le_card fun x member => ?_)
          (b := (Finset.Icc first.minimum first.maximum).card) ?_
        · exact mem_icc_iff.mpr (Finset.mem_filter.mp member).2
        · rw [Nat.card_Icc, Segment.size]
          omega
      have outside : (numbers.filter fun x => ¬ first.Has x).card ≤ total rest := by
        refine ih _ fun x member => ?_
        obtain ⟨given, notFirst⟩ := Finset.mem_filter.mp member
        exact (covers_cons.mp (covered x given)).resolve_left notFirst
      have split := Finset.card_filter_add_card_filter_not (s := numbers) first.Has
      rw [total_cons]
      omega

/-- Distinct covered numbers, as many as the sum of the sizes, are all the covered numbers. -/
theorem exhausts_of_total_le {segments : List Segment} {numbers : List ℕ} (distinct : numbers.Nodup)
    (covered : ∀ x ∈ numbers, Covers segments x) (all : total segments ≤ numbers.length) {x : ℕ}
    (inside : Covers segments x) : x ∈ numbers := by
  by_contra missing
  have more : (x :: numbers).Nodup := List.nodup_cons.mpr ⟨missing, distinct⟩
  have bound : (x :: numbers).toFinset.card ≤ total segments := card_le_total _ fun y member => by
    rcases List.mem_cons.mp (List.mem_toFinset.mp member) with rfl | other
    · exact inside
    · exact covered y other
  rw [List.toFinset_card_of_nodup more, List.length_cons] at bound
  omega

/-! ### Numbering -/

/-- The members come in order and have no common number. -/
def Ascending (segments : List Segment) : Prop :=
  segments.Pairwise fun left right => left.maximum < right.minimum

/-- Between two members there are other numbers. -/
def Separated (segments : List Segment) : Prop :=
  segments.Pairwise fun left right => left.maximum + 1 < right.minimum

theorem Separated.ascending {segments : List Segment} (separated : Separated segments) :
    Ascending segments :=
  separated.imp fun gap => Nat.lt_of_succ_lt gap

/-- Clipping keeps the order. -/
theorem Ascending.clip {segments : List Segment} (ascending : Ascending segments) (bound : Segment) :
    Ascending (Segments.clip bound segments) := by
  refine List.Pairwise.filter _ (List.Pairwise.map bound.meet (fun left right before => ?_) ascending)
  simp only [Segment.meet]
  omega

/-- The number at a position of the union. -/
def nth : List Segment → ℕ → ℕ
  | [], _ => 0
  | first :: rest, offset =>
    if offset < first.size then first.minimum + offset else nth rest (offset - first.size)

section

variable {segments : List Segment}

theorem covers_nth (proper : ∀ segment ∈ segments, segment.minimum ≤ segment.maximum) {offset : ℕ}
    (inside : offset < total segments) : Covers segments (nth segments offset) := by
  induction segments generalizing offset with
  | nil => exact absurd inside (Nat.not_lt_zero _)
  | cons first rest ih =>
    rw [nth, covers_cons]
    split
    next here =>
      have := proper first List.mem_cons_self
      rw [Segment.size] at here
      exact .inl ⟨by omega, by omega⟩
    next beyond =>
      rw [total_cons] at inside
      exact .inr (ih (fun other member => proper other (List.mem_cons_of_mem _ member)) (by omega))

/-- Later positions have greater numbers. -/
theorem nth_lt (proper : ∀ segment ∈ segments, segment.minimum ≤ segment.maximum)
    (ascending : Ascending segments) {offset later : ℕ} (less : offset < later)
    (inside : later < total segments) : nth segments offset < nth segments later := by
  induction segments generalizing offset later with
  | nil => exact absurd inside (Nat.not_lt_zero _)
  | cons first rest ih =>
    obtain ⟨before, ascendingRest⟩ := List.pairwise_cons.mp ascending
    have properRest := fun other member => proper other (List.mem_cons_of_mem first member)
    rw [total_cons] at inside
    rw [nth, nth]
    split_ifs with here there
    · omega
    · obtain ⟨segment, member, above, -⟩ := covers_nth properRest
        (show later - first.size < total rest by omega)
      have gap := before segment member
      have := proper first List.mem_cons_self
      rw [Segment.size] at here
      omega
    · omega
    · exact ih properRest ascendingRest (by omega) (by omega)

theorem exists_nth {x : ℕ} (covered : Covers segments x) :
    ∃ offset < total segments, nth segments offset = x := by
  induction segments with
  | nil => exact absurd covered covers_nil
  | cons first rest ih =>
    rw [total_cons]
    by_cases here : first.Has x
    · obtain ⟨above, below⟩ := here
      refine ⟨x - first.minimum, by rw [Segment.size]; omega, ?_⟩
      rw [nth, if_pos (by rw [Segment.size]; omega)]
      omega
    · obtain ⟨offset, inside, found⟩ := ih ((covers_cons.mp covered).resolve_left here)
      refine ⟨first.size + offset, by omega, ?_⟩
      rw [nth, if_neg (by omega), Nat.add_sub_cancel_left, found]

/-- The positions number the union. -/
theorem nth_bijOn (proper : ∀ segment ∈ segments, segment.minimum ≤ segment.maximum)
    (ascending : Ascending segments) :
    Set.BijOn (nth segments) (Set.Iio (total segments)) {x | Covers segments x} := by
  refine ⟨fun offset inside => covers_nth proper inside, fun offset inside later inside' same => ?_,
    fun x covered => exists_nth covered⟩
  rcases Nat.lt_trichotomy offset later with less | equal | greater
  · exact absurd same (nth_lt proper ascending less inside').ne
  · exact equal
  · exact absurd same (nth_lt proper ascending greater inside).ne'

/-- A union below a bound has no more positions. -/
theorem total_le_of_below (proper : ∀ segment ∈ segments, segment.minimum ≤ segment.maximum)
    (ascending : Ascending segments) {bound : ℕ} (below : ∀ x, Covers segments x → x < bound) :
    total segments ≤ bound := by
  have bijective := nth_bijOn proper ascending
  have few := Finset.card_le_card_of_injOn (nth segments) (s := Finset.range (total segments))
    (t := Finset.range bound)
    (fun offset inside => Finset.mem_coe.mpr (Finset.mem_range.mpr
      (below _ (covers_nth proper (Finset.mem_range.mp inside)))))
    (fun offset inside later inside' same => bijective.injOn (Finset.mem_range.mp inside)
      (Finset.mem_range.mp inside') same)
  rwa [Finset.card_range, Finset.card_range] at few

/-- A union with all its numbers in a list has no more positions than the list. -/
theorem total_le_length (proper : ∀ segment ∈ segments, segment.minimum ≤ segment.maximum)
    (ascending : Ascending segments) {numbers : List ℕ} (all : ∀ x, Covers segments x → x ∈ numbers) :
    total segments ≤ numbers.length := by
  have bijective := nth_bijOn proper ascending
  have few := Finset.card_le_card_of_injOn (nth segments) (s := Finset.range (total segments))
    (t := numbers.toFinset)
    (fun offset inside => Finset.mem_coe.mpr (List.mem_toFinset.mpr
      (all _ (covers_nth proper (Finset.mem_range.mp inside)))))
    (fun offset inside later inside' same => bijective.injOn (Finset.mem_range.mp inside)
      (Finset.mem_range.mp inside') same)
  rw [Finset.card_range] at few
  exact few.trans (List.toFinset_card_le numbers)

end

end Cpptb.Segments
