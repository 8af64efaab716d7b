/-
Fair draws.

* A word that is rejected below `total % bound` and taken modulo `bound` is unbiased: every residue has
  the same number of accepted words (`card_residue`), and at most half of the words are rejected
  (`two_mul_mod_le`).
* A scan over weights picks every position for as many numbers as its weight (`card_position`).
* The exchanges of a shuffle are in bijection with the permutations (`exchanges_bijective`).
-/

import Mathlib

namespace Cpptb.Draws

section Residues

variable {bound r : ℕ}

/-- One period meets a residue once. -/
theorem card_residue_period (inside : r < bound) (first : ℕ) :
    ((Finset.Ico first (first + bound)).filter (· % bound = r)).card = 1 := by
  have periodic : Function.Periodic (· % bound = r) bound := fun x => by
    show ((x + bound) % bound = r) = (x % bound = r)
    rw [Nat.add_mod_right]
  rw [Nat.filter_Ico_card_eq_of_periodic first bound (· % bound = r) periodic,
    Nat.count_eq_card_filter_range, Finset.card_eq_one]
  refine ⟨r, ?_⟩
  ext x
  rw [Finset.mem_filter, Finset.mem_range, Finset.mem_singleton]
  constructor
  · rintro ⟨below, residue⟩
    rwa [Nat.mod_eq_of_lt below] at residue
  · rintro rfl
    exact ⟨inside, Nat.mod_eq_of_lt inside⟩

/-- A run of whole periods meets a residue once in each. -/
theorem card_residue_run (inside : r < bound) (first periods : ℕ) :
    ((Finset.Ico first (first + bound * periods)).filter (· % bound = r)).card = periods := by
  induction periods with
  | zero => simp
  | succ periods ih =>
    have split := Finset.Ico_union_Ico_eq_Ico (Nat.le_add_right first (bound * periods))
      (Nat.le_add_right (first + bound * periods) bound)
    rw [Nat.mul_succ, ← Nat.add_assoc, ← split, Finset.filter_union, Finset.card_union_of_disjoint, ih,
      card_residue_period inside]
    exact Finset.disjoint_filter_filter (Finset.Ico_disjoint_Ico_consecutive _ _ _)

/-- The accepted words of one residue. -/
theorem card_residue (inside : r < bound) (total : ℕ) :
    ((Finset.Ico (total % bound) total).filter (· % bound = r)).card = total / bound := by
  have whole := card_residue_run inside (total % bound) (total / bound)
  rwa [Nat.mod_add_div] at whole

/-- At most half of the words are rejected. -/
theorem two_mul_mod_le {total : ℕ} (positive : 0 < bound) (fits : bound ≤ total) :
    2 * (total % bound) ≤ total := by
  have small := Nat.mod_lt total positive
  have whole := Nat.div_add_mod total bound
  have once := Nat.mul_le_mul_left bound (Nat.div_pos fits positive)
  omega

end Residues

section Weights

/-- The position of the weight that a number falls into. -/
def position : List ℕ → ℕ → Option ℕ
  | [], _ => none
  | weight :: rest, selected =>
    if selected < weight then some 0 else (position rest (selected - weight)).map (· + 1)

/-- Every position is picked by as many numbers as its weight. -/
theorem card_position (weights : List ℕ) (i : ℕ) :
    ((Finset.range weights.sum).filter (position weights · = some i)).card = weights.getD i 0 := by
  induction weights generalizing i with
  | nil => simp
  | cons weight rest ih =>
    have first : ∀ selected ∈ Finset.range weight, position (weight :: rest) selected = some 0 :=
      fun selected inside => if_pos (Finset.mem_range.mp inside)
    have later : ∀ selected, position (weight :: rest) (weight + selected)
        = (position rest selected).map (· + 1) := fun selected => by
      rw [position, if_neg (by omega), Nat.add_sub_cancel_left]
    rw [List.sum_cons, Finset.range_add_eq_union, Finset.filter_union,
      Finset.card_union_of_disjoint (Finset.disjoint_filter_filter
        (Finset.disjoint_range_addLeftEmbedding _ _)), Finset.filter_map, Finset.card_map]
    simp only [Function.comp_def, addLeftEmbedding_apply, later]
    cases i with
    | zero =>
      rw [Finset.filter_true_of_mem first, Finset.card_range, Finset.filter_false_of_mem, Finset.card_empty]
      · rfl
      · intro selected _ found
        obtain ⟨j, -, zero⟩ := Option.map_eq_some_iff.mp found
        exact absurd zero (Nat.succ_ne_zero j)
    | succ i =>
      rw [Finset.filter_false_of_mem fun selected inside found => by
        rw [first selected inside] at found
        exact absurd (Option.some.inj found) (Nat.succ_ne_zero i).symm]
      have shifted : ∀ selected, (position rest selected).map (· + 1) = some (i + 1) ↔
          position rest selected = some i := fun selected => by
        rw [Option.map_eq_some_iff]
        exact ⟨fun ⟨j, found, same⟩ => Nat.succ.inj same ▸ found, fun found => ⟨i, found, rfl⟩⟩
      simp only [shifted, Finset.card_empty, Nat.zero_add, ih]
      rfl

end Weights

section Shuffles

/-- What a shuffle of some positions selects, from the last position on: one of `r + 2` for the last of
`r + 2` positions. -/
inductive Choices : ℕ → Type
  | empty : Choices 0
  | single : Choices 1
  | select {r : ℕ} (selected : Fin (r + 2)) (rest : Choices (r + 1)) : Choices (r + 2)

variable {n : ℕ}

/-- The exchanges of a shuffle, as a permutation of the positions. -/
def exchanges : (remaining : ℕ) → remaining ≤ n → Choices remaining → Equiv.Perm (Fin n)
  | _, _, .empty => 1
  | _, _, .single => 1
  | r + 2, fits, .select selected rest =>
    Equiv.swap ⟨r + 1, fits⟩ (selected.castLE fits) * exchanges (r + 1) (Nat.le_of_succ_le fits) rest

theorem exchanges_of_ge (remaining : ℕ) (fits : remaining ≤ n) (choices : Choices remaining) {k : Fin n}
    (beyond : remaining ≤ k) : exchanges remaining fits choices k = k := by
  induction choices with
  | empty => rfl
  | single => rfl
  | @select r selected rest ih =>
    rw [exchanges, Equiv.Perm.mul_apply, ih (Nat.le_of_succ_le fits) (by omega)]
    refine Equiv.swap_apply_of_ne_of_ne (fun last => ?_) (fun chosen => ?_)
    · rw [last] at beyond
      exact absurd beyond (by simp)
    · have := selected.isLt
      rw [chosen, Fin.val_castLE] at beyond
      omega

/-- A permutation that fixes all but one position is the identity. -/
theorem eq_one_of_fixes {σ : Equiv.Perm (Fin n)} {remaining : ℕ} (few : remaining ≤ 1)
    (fixes : ∀ k : Fin n, remaining ≤ k → σ k = k) : σ = 1 := by
  ext k
  rcases Nat.lt_or_ge k.val 1 with first | beyond
  · rcases Nat.lt_or_ge (σ k).val 1 with first' | beyond
    · show (σ k).val = k.val
      omega
    · have same := σ.injective (fixes (σ k) (by omega))
      rw [same]
      rfl
  · rw [fixes k (by omega)]
    rfl

/-- Every permutation of the first positions comes from one choice. -/
theorem existsUnique_exchanges (remaining : ℕ) (fits : remaining ≤ n) (σ : Equiv.Perm (Fin n))
    (fixes : ∀ k : Fin n, remaining ≤ k → σ k = k) :
    ∃! choices, exchanges remaining fits choices = σ := by
  induction remaining using Nat.twoStepInduction generalizing σ with
  | zero =>
    refine ⟨.empty, (eq_one_of_fixes (by omega) fixes).symm, fun choices _ => ?_⟩
    cases choices
    rfl
  | one =>
    refine ⟨.single, (eq_one_of_fixes (by omega) fixes).symm, fun choices _ => ?_⟩
    cases choices
    rfl
  | more r _ ih =>
    -- the last position tells what was selected for it; undoing that exchange fixes it
    let last : Fin n := ⟨r + 1, fits⟩
    have within : (σ last).val < r + 2 := by
      by_contra! beyond
      have same := σ.injective (fixes (σ last) beyond)
      rw [same] at beyond
      exact absurd beyond (by simp [last])
    let selected : Fin (r + 2) := ⟨σ last, within⟩
    have chosen : selected.castLE fits = σ last := rfl
    obtain ⟨rest, found, unique⟩ := ih (Nat.le_of_succ_le fits) (Equiv.swap last (σ last) * σ)
      (fun k beyond => by
        rw [Equiv.Perm.mul_apply]
        by_cases here : k = last
        · rw [here, Equiv.swap_apply_right]
        · have above : r + 2 ≤ k.val := by
            have : k.val ≠ r + 1 := fun same => here (Fin.ext same)
            omega
          rw [fixes k above]
          refine Equiv.swap_apply_of_ne_of_ne here fun same => ?_
          rw [same] at above
          omega)
    refine ⟨.select selected rest, ?_, ?_⟩
    · show Equiv.swap last (selected.castLE fits) * exchanges (r + 1) _ rest = σ
      rw [found, chosen, ← mul_assoc, Equiv.swap_mul_self, one_mul]
    · intro choices same
      obtain _ | _ | ⟨selected', rest'⟩ := choices
      have same : Equiv.swap last (selected'.castLE fits)
        * exchanges (r + 1) (Nat.le_of_succ_le fits) rest' = σ := same
      have atLast : σ last = selected'.castLE fits := by
        rw [← same, Equiv.Perm.mul_apply, exchanges_of_ge _ _ _ (le_refl (r + 1)),
          Equiv.swap_apply_left]
      have selects : selected' = selected := Fin.ext (congrArg Fin.val atLast).symm
      have rests : rest' = rest := unique rest' (by
        show exchanges (r + 1) _ rest' = Equiv.swap last (σ last) * σ
        rw [atLast, ← same, ← mul_assoc, Equiv.swap_mul_self, one_mul])
      rw [selects, rests]

/-- **The exchanges of a shuffle are in bijection with the permutations.** -/
theorem exchanges_bijective : Function.Bijective (exchanges n le_rfl) :=
  (Function.bijective_iff_existsUnique _).mpr fun σ =>
    existsUnique_exchanges n le_rfl σ fun k beyond => absurd k.isLt (Nat.not_lt.mpr beyond)

end Shuffles

end Cpptb.Draws
