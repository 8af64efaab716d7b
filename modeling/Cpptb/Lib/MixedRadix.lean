/-
Tuples of choices, and their positions in mixed radix.

* `tuples`: all lists with one element of each list of choices, the first varying slowest.
* `mem_tuples`, `nodup_tuples`: a tuple is listed when each element is a choice, and once.
* `map_rank`: the ranks of the tuples of digits are 0, 1, 2, ... up to the product of the radices.
-/

import Mathlib

namespace Cpptb.MixedRadix

variable {α : Type}

/-- One element of each list, the first varying slowest. -/
def tuples : List (List α) → List (List α)
  | [] => [[]]
  | choices :: rest => choices.flatMap fun choice => (tuples rest).map (choice :: ·)

theorem mem_tuples {choices : List (List α)} {tuple : List α} :
    tuple ∈ tuples choices ↔ List.Forall₂ (· ∈ ·) tuple choices := by
  induction choices generalizing tuple with
  | nil => rw [tuples, List.mem_singleton, List.forall₂_nil_right_iff]
  | cons first rest ih =>
    rw [tuples, List.mem_flatMap, List.forall₂_cons_right_iff]
    constructor
    · rintro ⟨choice, member, inMap⟩
      obtain ⟨others, inRest, rfl⟩ := List.mem_map.mp inMap
      exact ⟨choice, others, member, ih.mp inRest, rfl⟩
    · rintro ⟨choice, others, member, inRest, rfl⟩
      exact ⟨choice, member, List.mem_map_of_mem (ih.mpr inRest)⟩

/-- Every tuple is listed once. -/
theorem nodup_tuples {choices : List (List α)} (distinct : ∀ list ∈ choices, list.Nodup) :
    (tuples choices).Nodup := by
  induction choices with
  | nil => exact List.nodup_singleton []
  | cons first rest ih =>
    have distinctRest := ih fun list member => distinct list (List.mem_cons_of_mem _ member)
    refine List.nodup_flatMap.mpr ⟨fun choice _ =>
      distinctRest.map fun left right same => (List.cons.inj same).2, ?_⟩
    refine (distinct first List.mem_cons_self).imp fun apart tuple inLeft inRight => ?_
    obtain ⟨others, -, rfl⟩ := List.mem_map.mp inLeft
    obtain ⟨others', -, same⟩ := List.mem_map.mp inRight
    exact apart (List.cons.inj same).1.symm

/-- The position of digits in mixed radix, the first most significant. -/
def rank (radices digits : List ℕ) : ℕ :=
  (radices.zip digits).foldl (fun position entry => position * entry.1 + entry.2) 0

/-- The digits that follow a position. -/
theorem foldl_rank {radices digits : List ℕ} (same : digits.length = radices.length) (start : ℕ) :
    (radices.zip digits).foldl (fun position entry => position * entry.1 + entry.2) start =
      start * radices.prod + rank radices digits := by
  induction radices generalizing digits start with
  | nil =>
    rw [List.length_eq_zero_iff.mp same]
    simp [rank]
  | cons radix rest ih =>
    cases digits with
    | nil => exact absurd same (by simp)
    | cons digit digits =>
      have sameRest : digits.length = rest.length := Nat.succ.inj same
      rw [rank, List.zip_cons_cons, List.foldl_cons, List.foldl_cons, ih sameRest, ih sameRest,
        List.prod_cons]
      simp only
      ring

theorem rank_cons {radices digits : List ℕ} (same : digits.length = radices.length) (radix digit : ℕ) :
    rank (radix :: radices) (digit :: digits) = digit * radices.prod + rank radices digits := by
  rw [rank, List.zip_cons_cons, List.foldl_cons, foldl_rank same]
  simp only [Nat.zero_mul, Nat.zero_add]

/-- A range in blocks. -/
theorem flatMap_range (blocks size : ℕ) :
    ((List.range blocks).flatMap fun block => (List.range size).map (block * size + ·)) =
      List.range (blocks * size) := by
  induction blocks with
  | zero => simp
  | succ blocks ih =>
    rw [List.range_succ, List.flatMap_append, ih, List.flatMap_singleton, Nat.succ_mul, List.range_add]

/-- The tuples of digits come in the order of their positions, which are those below the product. -/
theorem map_rank (radices : List ℕ) :
    (tuples (radices.map List.range)).map (rank radices) = List.range radices.prod := by
  induction radices with
  | nil => rfl
  | cons radix rest ih =>
    rw [List.map_cons, tuples, List.map_flatMap, List.prod_cons, ← flatMap_range]
    refine List.flatMap_congr fun digit _ => ?_
    rw [← ih, List.map_map, List.map_map]
    refine List.map_congr_left fun digits member => ?_
    have same : digits.length = rest.length := by
      rw [(mem_tuples.mp member).length_eq, List.length_map]
    exact rank_cons same radix digit

section

variable {radices digits digits' : List ℕ}

/-- The position of digits is below the product of the radices. -/
theorem rank_lt (valid : digits ∈ tuples (radices.map List.range)) : rank radices digits < radices.prod := by
  have listed := List.mem_map_of_mem (f := rank radices) valid
  rw [map_rank, List.mem_range] at listed
  exact listed

/-- Different digits have different positions. -/
theorem rank_inj (valid : digits ∈ tuples (radices.map List.range))
    (valid' : digits' ∈ tuples (radices.map List.range)) (same : rank radices digits = rank radices digits') :
    digits = digits' := by
  have distinct : ((tuples (radices.map List.range)).map (rank radices)).Nodup := by
    rw [map_rank]
    exact List.nodup_range
  exact List.inj_on_of_nodup_map distinct valid valid' same

end

end Cpptb.MixedRadix
