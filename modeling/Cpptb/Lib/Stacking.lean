/-
Items that share the positions below a total.

An item has the positions from its start up to its width. In a `Partition` every position has one
item, and the items come in order from the top; in an `Overlay` all items start at the bottom, and one
reaches the top. Both grow by one item at the front (`Partition.cons`, `Overlay.cons`).
-/

import Mathlib

namespace Cpptb.Stacking

variable {α : Type} {start width : α → ℕ}

/-- The item has the position. -/
def Has (start width : α → ℕ) (item : α) (position : ℕ) : Prop :=
  start item ≤ position ∧ position < start item + width item

/-- The items have each position below the total once, the first item the highest ones. -/
structure Partition (start width : α → ℕ) (items : List α) (total : ℕ) : Prop where
  nonempty : ∀ item ∈ items, 0 < width item
  inside : ∀ item ∈ items, start item + width item ≤ total
  descending : items.Pairwise fun upper lower => start lower + width lower ≤ start upper
  covered : ∀ position < total, ∃ item ∈ items, Has start width item position
  first : ∀ item ∈ items.head?, start item + width item = total

namespace Partition

variable {items : List α} {total : ℕ}

theorem nil : Partition start width [] 0 where
  nonempty := fun _ member => nomatch member
  inside := fun _ member => nomatch member
  descending := .nil
  covered := fun _ below => absurd below (Nat.not_lt_zero _)
  first := fun _ member => nomatch member

/-- An item on top of the others. -/
theorem cons (rest : Partition start width items total) {item : α} (positive : 0 < width item)
    (top : start item = total) : Partition start width (item :: items) (total + width item) where
  nonempty := List.forall_mem_cons.mpr ⟨positive, rest.nonempty⟩
  inside := by
    refine List.forall_mem_cons.mpr ⟨by rw [top], fun other member => ?_⟩
    have := rest.inside other member
    omega
  descending := by
    refine List.pairwise_cons.mpr ⟨fun lower member => ?_, rest.descending⟩
    rw [top]
    exact rest.inside lower member
  covered := by
    intro position below
    rcases Nat.lt_or_ge position total with low | high
    · obtain ⟨other, member, has⟩ := rest.covered position low
      exact ⟨other, List.mem_cons_of_mem _ member, has⟩
    · exact ⟨item, List.mem_cons_self, by omega, by omega⟩
  first := by
    intro _ member
    obtain rfl := Option.some.inj member
    rw [top]

/-- The widths add up. -/
theorem sum_width (partition : Partition start width items total) : (items.map width).sum = total := by
  induction items generalizing total with
  | nil =>
    rcases Nat.eq_zero_or_pos total with zero | positive
    · rw [zero, List.map_nil, List.sum_nil]
    · obtain ⟨item, member, -⟩ := partition.covered 0 positive
      cases member
  | cons item rest ih =>
    obtain ⟨above, descending⟩ := List.pairwise_cons.mp partition.descending
    have top := partition.first item rfl
    have lower : Partition start width rest (start item) := by
      refine ⟨fun other member => partition.nonempty other (List.mem_cons_of_mem _ member), above,
        descending, fun position below => ?_, fun other member => ?_⟩
      · obtain ⟨other, member, has⟩ := partition.covered position (by omega)
        rcases List.mem_cons.mp member with rfl | member
        · have := has.1
          omega
        · exact ⟨other, member, has⟩
      · -- the position just below the first item belongs to the second one
        have second := above other (List.mem_of_mem_head? member)
        have positive := partition.nonempty other (List.mem_cons_of_mem _ (List.mem_of_mem_head? member))
        obtain ⟨owner, mine, has⟩ := partition.covered (start item - 1) (by omega)
        rcases List.mem_cons.mp mine with rfl | mine
        · have := has.1
          omega
        · obtain ⟨tail, rfl⟩ := List.head?_eq_some_iff.mp member
          rcases List.mem_cons.mp mine with rfl | later
          · have := has.2
            omega
          · have := (List.pairwise_cons.mp descending).1 owner later
            have := has.2
            omega
    rw [List.map_cons, List.sum_cons, ih lower, Nat.add_comm]
    exact top

/-- Two items have no common position. -/
theorem apart (partition : Partition start width items total) {left right : α} (mine : left ∈ items)
    (other : right ∈ items) (different : left ≠ right) :
    start left + width left ≤ start right ∨ start right + width right ≤ start left := by
  let Apart (left right : α) := start left + width left ≤ start right ∨ start right + width right ≤ start left
  have symmetric : Std.Symm Apart := ⟨fun _ _ => Or.symm⟩
  have pairs : items.Pairwise Apart := partition.descending.imp fun below => .inr below
  exact pairs.forall mine other different

theorem of_map {β : Type} {f : β → α} {sources : List β}
    (partition : Partition start width (sources.map f) total) :
    Partition (start ∘ f) (width ∘ f) sources total where
  nonempty := fun source member => partition.nonempty (f source) (List.mem_map_of_mem member)
  inside := fun source member => partition.inside (f source) (List.mem_map_of_mem member)
  descending := List.pairwise_map.mp partition.descending
  covered := by
    intro position below
    obtain ⟨item, member, has⟩ := partition.covered position below
    obtain ⟨source, mem, rfl⟩ := List.mem_map.mp member
    exact ⟨source, mem, has⟩
  first := by
    intro source member
    refine partition.first (f source) ?_
    rw [List.head?_map, member]
    rfl

/-- An item with every position is the only one. -/
theorem eq_singleton_iff (partition : Partition start width items total) {item : α} (mine : item ∈ items) :
    items = [item] ↔ width item = total := by
  constructor
  · rintro rfl
    have := partition.sum_width
    rwa [List.map_cons, List.map_nil, List.sum_cons, List.sum_nil, Nat.add_zero] at this
  · intro all
    have bound := partition.inside item mine
    have same : ∀ other ∈ items, other = item := by
      intro other member
      by_contra different
      have positive := partition.nonempty other member
      have fits := partition.inside other member
      have := partition.apart member mine different
      omega
    cases items with
    | nil => cases mine
    | cons head rest =>
      obtain rfl := same head List.mem_cons_self
      cases rest with
      | nil => rfl
      | cons next others =>
        obtain rfl := same next (List.mem_cons_of_mem _ List.mem_cons_self)
        have below := (List.pairwise_cons.mp partition.descending).1 next List.mem_cons_self
        have := partition.nonempty next List.mem_cons_self
        omega

end Partition

/-- The items start at the bottom, and the widest has every position below the total. -/
structure Overlay (start width : α → ℕ) (items : List α) (total : ℕ) : Prop where
  nonempty : ∀ item ∈ items, 0 < width item
  bottom : ∀ item ∈ items, start item = 0
  inside : ∀ item ∈ items, width item ≤ total
  widest : ∃ item ∈ items, width item = total

end Cpptb.Stacking
