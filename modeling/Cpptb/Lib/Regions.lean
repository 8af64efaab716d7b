/-
Updates of separate regions of a state.

A state is looked at point by point (`look`). An update is `Local` to a region when it changes no
point outside and what it writes depends on the points inside alone. Updates of disjoint regions that
run one after the other do not see each other: at a point of one region the whole run leaves what
that region's update alone makes of the initial state (`foldl_inside`), and a point of no region stays
(`foldl_outside`). `foldl_keeps` and `foldl_sets` are the same for one look at the state: updates that
keep what is looked at, and one update that sets it, among others that keep it.
-/

import Mathlib

namespace Cpptb.Regions

variable {σ ι β φ : Type*} {look : σ → ι → β}

/-- An update that reads and writes the points of one region alone. -/
structure Local (look : σ → ι → β) (region : Set ι) (update : σ → σ) : Prop where
  frame : ∀ s i, i ∉ region → look (update s) i = look s i
  congr : ∀ s t, (∀ i ∈ region, look s i = look t i) →
    ∀ i ∈ region, look (update s) i = look (update t) i

/-- An update that does nothing. -/
theorem Local.id (region : Set ι) : Local look region (fun s => s) where
  frame _ _ _ := rfl
  congr _ _ same := same

section Folds

variable {region : φ → Set ι} {update : σ → φ → σ}

theorem foldl_outside {fields : List φ} {i : ι}
    (isLocal : ∀ f ∈ fields, Local look (region f) (update · f))
    (outside : ∀ f ∈ fields, i ∉ region f) (s : σ) :
    look (fields.foldl update s) i = look s i := by
  induction fields generalizing s with
  | nil => rfl
  | cons f rest ih =>
    have tail := ih (fun g member => isLocal g (List.mem_cons_of_mem f member))
      (fun g member => outside g (List.mem_cons_of_mem f member)) (update s f)
    rw [List.foldl_cons, tail]
    exact (isLocal f List.mem_cons_self).frame s i (outside f List.mem_cons_self)

/-- At a point of one region the run leaves what that region's update makes of the initial state. -/
theorem foldl_inside {fields : List φ} {f : φ} {i : ι}
    (isLocal : ∀ g ∈ fields, Local look (region g) (update · g))
    (disjoint : fields.Pairwise fun g g' => Disjoint (region g) (region g'))
    (member : f ∈ fields) (inside : i ∈ region f) (s : σ) :
    look (fields.foldl update s) i = look (update s f) i := by
  induction fields generalizing s with
  | nil => exact absurd member List.not_mem_nil
  | cons g rest ih =>
    obtain ⟨apart, pairwise⟩ := List.pairwise_cons.mp disjoint
    have tailLocal : ∀ g' ∈ rest, Local look (region g') (update · g') :=
      fun g' inRest => isLocal g' (List.mem_cons_of_mem g inRest)
    rw [List.foldl_cons]
    rcases List.mem_cons.mp member with rfl | inRest
    · exact foldl_outside tailLocal
        (fun g' inRest => Set.disjoint_left.mp (apart g' inRest) inside) (update s f)
    · -- the first update leaves the points of the region as they were
      have kept : ∀ j ∈ region f, look (update s g) j = look s j := fun j inside' =>
        (isLocal g List.mem_cons_self).frame s j
          (Set.disjoint_right.mp (apart f inRest) inside')
      rw [ih tailLocal pairwise inRest (update s g)]
      exact (tailLocal f inRest).congr _ _ kept i inside

end Folds

section Looks

variable (seen : σ → β) {update : σ → φ → σ} {fields : List φ}

/-- Updates that keep what is looked at. -/
theorem foldl_keeps (keeps : ∀ g ∈ fields, ∀ s, seen (update s g) = seen s) (s : σ) :
    seen (fields.foldl update s) = seen s := by
  induction fields generalizing s with
  | nil => rfl
  | cons g rest ih =>
    rw [List.foldl_cons, ih (fun g' member => keeps g' (List.mem_cons_of_mem g member)),
      keeps g List.mem_cons_self]

/-- One update sets what is looked at, and the others keep it. -/
theorem foldl_sets {f : φ} {value : β} (keeps : ∀ g ∈ fields, g ≠ f → ∀ s, seen (update s g) = seen s)
    (sets : ∀ s, seen (update s f) = value) (member : f ∈ fields) (s : σ) :
    seen (fields.foldl update s) = value := by
  induction fields generalizing s with
  | nil => exact absurd member List.not_mem_nil
  | cons g rest ih =>
    have tail : ∀ g' ∈ rest, g' ≠ f → ∀ s, seen (update s g') = seen s :=
      fun g' inRest => keeps g' (List.mem_cons_of_mem g inRest)
    rw [List.foldl_cons]
    by_cases later : f ∈ rest
    · exact ih tail later _
    · obtain rfl : f = g := (List.mem_cons.mp member).resolve_right later
      rw [foldl_keeps seen (fun g' inRest => tail g' inRest fun same => later (same ▸ inRest)), sets]

end Looks

end Cpptb.Regions
