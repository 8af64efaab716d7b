/-
Counters that are kept beside the things they count.

* `sum_range_change` — a sum over a range after one term has changed;
* `countP_split` — the elements a filter keeps and those it drops are all of them;
* `sum_countP_key` — counting the elements of a list by a key counts each element once.
-/

import Mathlib

namespace Cpptb.Tally

variable {α : Type}

/-- One term of a sum changes. -/
theorem sum_range_change {n i : Nat} {f g : Nat → Nat} (inside : i < n)
    (others : ∀ k, k ≠ i → g k = f k) :
    ∑ k ∈ Finset.range n, g k + f i = ∑ k ∈ Finset.range n, f k + g i := by
  have member : i ∈ Finset.range n := Finset.mem_range.mpr inside
  have rest : ∑ k ∈ (Finset.range n).erase i, g k = ∑ k ∈ (Finset.range n).erase i, f k :=
    Finset.sum_congr rfl fun k here => others k (Finset.ne_of_mem_erase here)
  have whole := Finset.sum_erase_add (Finset.range n) f member
  rw [← Finset.sum_erase_add _ _ member, rest]
  omega

/-- A sum does not change when terms that are zero are added. -/
theorem sum_range_extend {n m : Nat} {f : Nat → Nat} (less : n ≤ m)
    (zero : ∀ k, n ≤ k → f k = 0) :
    ∑ k ∈ Finset.range m, f k = ∑ k ∈ Finset.range n, f k := by
  refine (Finset.sum_subset (Finset.range_mono less) fun k _ outside => zero k ?_).symm
  exact Nat.le_of_not_lt fun inside => outside (Finset.mem_range.mpr inside)

/-- A sum over a list of indices. -/
theorem sum_list_range (n : Nat) (f : Nat → Nat) :
    ((List.range n).map f).sum = ∑ k ∈ Finset.range n, f k := by
  induction n with
  | zero => rfl
  | succ n ih => rw [List.sum_range_succ, Finset.sum_range_succ, ih]

/-- What a filter keeps, and what it drops. -/
theorem countP_split (l : List α) (p q : α → Bool) :
    l.countP p = (l.filter q).countP p + l.countP fun x => !q x && p x := by
  induction l with
  | nil => rfl
  | cons x rest ih =>
      cases keep : q x <;> cases counted : p x <;> simp [keep, counted, ih] <;> omega

/-- The elements a key sends below `n` are counted once. -/
theorem sum_countP_key {n : Nat} (l : List α) (key : α → Option Nat) (p : α → Bool)
    (bounded : ∀ x ∈ l, ∀ k, key x = some k → k < n) :
    ∑ k ∈ Finset.range n, l.countP (fun x => key x == some k && p x) =
      l.countP fun x => (key x).isSome && p x := by
  induction l with
  | nil => simp
  | cons x rest ih =>
      have tail := ih fun y member => bounded y (List.mem_cons_of_mem _ member)
      simp only [List.countP_cons, Finset.sum_add_distrib, tail]
      congr 1
      cases here : key x with
      | none => simp
      | some k =>
          have inside : k ∈ Finset.range n :=
            Finset.mem_range.mpr (bounded x List.mem_cons_self k here)
          rw [Finset.sum_eq_single_of_mem k inside]
          · simp
          · intro k' _ other
            simp [other.symm]

end Cpptb.Tally
