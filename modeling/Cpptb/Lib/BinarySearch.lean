/-
Binary search with a three-way comparison.

`search order size low high` narrows a range of positions with the sign that `order` gives to its middle;
it returns a position of sign zero, or `size`.

* `search_eq`: a position between negative and positive ones is found.
* `search_absent`: without a zero, the search ends with `size`.
* `compareLists`: the three-way comparison of lists, item by item.
* `sorted_iff_found`: everything in a table is found exactly when the table is sorted, since of two
  neighbours one is met on the way to the other (`lt_of_neighbours`).
-/

import Mathlib

namespace Cpptb.BinarySearch

/-- The search of a range of positions. -/
def search (order : ℕ → ℤ) (size low high : ℕ) : ℕ :=
  if low < high then
    let middle := low + (high - low) / 2
    if order middle = 0 then middle
    else if order middle < 0 then search order size (middle + 1) high
    else search order size low middle
  else size
termination_by high - low

variable {order : ℕ → ℤ} {size : ℕ}

section Results

/-- A position that is found lies in the range, and has sign zero. -/
theorem search_mem (low high : ℕ) : search order size low high = size ∨
    (low ≤ search order size low high ∧ search order size low high < high ∧
      order (search order size low high) = 0) := by
  fun_induction search order size low high with
  | case1 low high inside middle zero => exact .inr ⟨by omega, by omega, zero⟩
  | case2 low high inside middle other below ih =>
    exact ih.imp_right fun found => ⟨by omega, found.2.1, found.2.2⟩
  | case3 low high inside middle other below ih =>
    exact ih.imp_right fun found => ⟨found.1, by omega, found.2.2⟩
  | case4 => exact .inl rfl

theorem search_absent {low high : ℕ} (absent : ∀ position, low ≤ position → position < high → order position ≠ 0) :
    search order size low high = size := by
  rcases @search_mem order size low high with missing | ⟨above, below, zero⟩
  · exact missing
  · exact absurd zero (absent _ above below)

/-- **A position between negative and positive ones is found.** -/
theorem search_eq {low high position : ℕ} (above : low ≤ position) (below : position < high)
    (zero : order position = 0) (before : ∀ other < position, low ≤ other → order other < 0)
    (after : ∀ other < high, position < other → 0 < order other) :
    search order size low high = position := by
  fun_induction search order size low high with
  | case1 low high inside middle same =>
    rcases lt_trichotomy middle position with less | equal | more
    · exact absurd same (before middle less (by omega)).ne
    · exact equal
    · exact absurd same (after middle (by omega) more).ne'
  | case2 low high inside middle other negative ih =>
    have right : middle < position := by
      by_contra left
      rcases Nat.eq_or_lt_of_le (Nat.not_lt.mp left) with equal | more
      · exact other (equal ▸ zero)
      · exact absurd negative (not_lt.mpr (after middle (by omega) more).le)
    exact ih right below (fun other less lower => before other less (by omega)) after
  | case3 low high inside middle other notNegative ih =>
    have left : position < middle := by
      by_contra right
      rcases Nat.eq_or_lt_of_le (Nat.not_lt.mp right) with equal | less
      · exact other (equal ▸ zero)
      · exact notNegative (before middle less (by omega))
    exact ih above left before fun other less more => after other (by omega) more
  | case4 low high outside => omega

/-- What one step of a search tells that ends at a position. -/
def Step (order : ℕ → ℤ) (size low high middle position : ℕ) : Prop :=
  (position = middle ∧ order middle = 0) ∨
  (order middle < 0 ∧ middle < position ∧ search order size (middle + 1) high = position) ∨
  (0 < order middle ∧ position < middle ∧ search order size low middle = position)

theorem step_of_search {low high position : ℕ} (above : low ≤ position) (below : position < high)
    (fits : high ≤ size) (found : search order size low high = position) :
    Step order size low high (low + (high - low) / 2) position := by
  rw [search, if_pos (by omega)] at found
  dsimp only at found
  split_ifs at found with zero negative
  · exact .inl ⟨found.symm, zero⟩
  · refine .inr (.inl ⟨negative, ?_, found⟩)
    rcases @search_mem order size (low + (high - low) / 2 + 1) high with missing | ⟨lower, -, -⟩
    · omega
    · omega
  · refine .inr (.inr ⟨lt_of_le_of_ne (not_lt.mp negative) (Ne.symm zero), ?_, found⟩)
    rcases @search_mem order size low (low + (high - low) / 2) with missing | ⟨-, upper, -⟩
    · omega
    · omega

end Results

/-! ### Comparing lists -/

section Lists

variable {κ : Type} [LinearOrder κ]

/-- The sign of the first difference; what ends first is less. -/
def compareLists : List κ → List κ → ℤ
  | [], [] => 0
  | _ :: _, [] => 1
  | [], _ :: _ => -1
  | first :: firsts, second :: seconds =>
    if first = second then compareLists firsts seconds
    else if first < second then -1
    else 1

end Lists

/-! ### Tables -/

section Tables

variable {α : Type} (compare : α → α → ℤ) (table : ℕ → α)

/-- A comparison by an order. -/
structure Compares [LT α] : Prop where
  zero_iff : ∀ entry query, compare entry query = 0 ↔ entry = query
  negative_iff : ∀ entry query, compare entry query < 0 ↔ entry < query

/-- Every position of the table is found. -/
def Found (size : ℕ) : Prop :=
  ∀ position < size, search (fun middle => compare (table middle) (table position)) size 0 size = position

theorem compares_compareLists {κ : Type} [LinearOrder κ] : Compares (@compareLists κ _) := by
  have both : ∀ entry query : List κ, (compareLists entry query = 0 ↔ entry = query) ∧
      (compareLists entry query < 0 ↔ entry < query) := by
    intro entry query
    induction entry generalizing query with
    | nil =>
      cases query with
      | nil => exact ⟨iff_of_true rfl rfl, iff_of_false (lt_irrefl 0) (lt_irrefl _)⟩
      | cons second seconds =>
        rw [compareLists]
        exact ⟨iff_of_false (by decide) nofun, iff_of_true (by decide) (List.nil_lt_cons _ _)⟩
    | cons first firsts ih =>
      cases query with
      | nil =>
        rw [compareLists]
        exact ⟨iff_of_false (by decide) nofun, iff_of_false (by decide) (List.not_lt_nil _)⟩
      | cons second seconds =>
        rw [compareLists, List.cons_eq_cons, List.cons_lt_cons_iff]
        split_ifs with same less
        · rw [(ih seconds).1, (ih seconds).2]
          exact ⟨(and_iff_right same).symm, by rw [same]; simp⟩
        · exact ⟨iff_of_false (by decide) fun both => same both.1, iff_of_true (by decide) (.inl less)⟩
        · exact ⟨iff_of_false (by decide) fun both => same both.1,
            iff_of_false (by decide) fun either => either.elim less fun both => same both.1⟩
  exact ⟨fun entry query => (both entry query).1, fun entry query => (both entry query).2⟩

variable {compare table}

/-- Where two neighbours of a table are found, one is met on the way to the other. -/
theorem lt_of_neighbours [LinearOrder α] (compares : Compares compare) {size low high position : ℕ}
    (above : low ≤ position) (below : position + 1 < high) (fits : high ≤ size)
    (first : search (fun middle => compare (table middle) (table position)) size low high = position)
    (second : search (fun middle => compare (table middle) (table (position + 1))) size low high =
      position + 1) : table position < table (position + 1) := by
  induction distance : high - low using Nat.strong_induction_on generalizing low high with
  | _ distance ih =>
    obtain ⟨middle, lower, upper, first', second'⟩ : ∃ middle, low ≤ middle ∧ middle < high ∧
        Step (fun middle => compare (table middle) (table position)) size low high middle position ∧
        Step (fun middle => compare (table middle) (table (position + 1))) size low high middle
          (position + 1) :=
      ⟨low + (high - low) / 2, by omega, by omega, step_of_search (by omega) (by omega) fits first,
        step_of_search (by omega) (by omega) fits second⟩
    rcases second' with ⟨here, zero⟩ | ⟨negative, right, found'⟩ | ⟨positive, left, found'⟩
    · -- The search for the first goes left of the second.
      rcases first' with ⟨same, -⟩ | ⟨-, right, -⟩ | ⟨positive, -, -⟩
      · omega
      · omega
      · rw [← here] at positive
        rcases lt_trichotomy (table position) (table (position + 1)) with less | equal | more
        · exact less
        · exact absurd ((compares.zero_iff _ _).mpr equal.symm) positive.ne'
        · exact absurd ((compares.negative_iff _ _).mpr more) (not_lt.mpr positive.le)
    · rcases first' with ⟨rfl, -⟩ | ⟨-, right', found⟩ | ⟨-, left, -⟩
      · exact (compares.negative_iff _ _).mp negative
      · exact ih (high - (middle + 1)) (by omega) (by omega) below fits found found' rfl
      · omega
    · rcases first' with ⟨same, -⟩ | ⟨-, right, -⟩ | ⟨-, left', found⟩
      · omega
      · omega
      · exact ih (middle - low) (by omega) above left (by omega) found found' rfl

variable (table) in
/-- **A table in which everything is found is sorted**, and everything in a sorted table is found. -/
theorem sorted_iff_found [LinearOrder α] (compares : Compares compare) (size : ℕ) :
    (∀ first second, first < second → second < size → table first < table second) ↔
      Found compare table size := by
  constructor
  · intro sorted position inside
    refine search_eq (Nat.zero_le _) inside ((compares.zero_iff _ _).mpr rfl) ?_ ?_
    · exact fun other less _ => (compares.negative_iff _ _).mpr (sorted other position less inside)
    · intro other bound more
      have less := sorted position other more bound
      refine lt_of_le_of_ne (not_lt.mp fun negative => ?_) fun zero => ?_
      · exact lt_asymm less ((compares.negative_iff _ _).mp negative)
      · exact less.ne' ((compares.zero_iff _ _).mp zero.symm)
  · intro found first second less inside
    induction second, less using Nat.le_induction with
    | base =>
      exact lt_of_neighbours compares (Nat.zero_le _) inside le_rfl (found first (by omega)) (found _ inside)
    | succ second less ih =>
      exact (ih (by omega)).trans (lt_of_neighbours compares (Nat.zero_le _) inside le_rfl
        (found second (by omega)) (found _ inside))

end Tables

end Cpptb.BinarySearch
