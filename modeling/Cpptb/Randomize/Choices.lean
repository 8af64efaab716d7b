/-
`Random::shuffle` and `Random::weighted_choice`.

A shuffle draws one position for each remaining one, from the last on; what it does is the permutation of
its choices (`shuffle_eq`), and these are in bijection with the permutations. A weighted choice draws a
number below the total weight and scans the entries for it (`weightedChoice_eq`).
-/

import Cpptb.Randomize.Integers

namespace Cpptb.Randomize

open Cpptb.Draws

variable {ρ : Type} (random : Generator ρ)

section Shuffle

variable {α : Type} {n : ℕ}

/-- `iter_swap` of two positions. -/
def iterSwap (values : Fin n → α) (left right : ℕ) : Fin n → α :=
  if inside : left < n ∧ right < n then values ∘ Equiv.swap ⟨left, inside.1⟩ ⟨right, inside.2⟩ else values

/-- The loop of `shuffle`. -/
def shuffleFrom : (remaining : ℕ) → (Fin n → α) → Draw ρ (Fin n → α)
  | 0, values => return values
  | 1, values => return values
  | r + 2, values => do
    let selected ← random.randint 0 (r + 1)
    shuffleFrom (r + 1) (iterSwap values (r + 1) selected)

/-- `shuffle`, of a range of `n` values. -/
def shuffle (values : Fin n → α) : Draw ρ (Fin n → α) := shuffleFrom random n values

/-- The draws of a shuffle: a number up to `k` for each position `k`, from the last on. -/
def drawChoices : (remaining : ℕ) → Draw ρ (Choices remaining)
  | 0 => return .empty
  | 1 => return .single
  | r + 2 => do
    let selected ← random.randint 0 (r + 1)
    let rest ← drawChoices (r + 1)
    return .select (Fin.ofNat (r + 2) selected) rest

/-- The loop permutes the positions by what it draws. -/
theorem shuffleFrom_eq (size : n < 2 ^ 64) (remaining : ℕ) (fits : remaining ≤ n) (values : Fin n → α) :
    shuffleFrom random remaining values
      = drawChoices random remaining >>= fun choices =>
        pure (values ∘ exchanges remaining fits choices) := by
  induction remaining using Nat.twoStepInduction generalizing values with
  | zero => rfl
  | one => rfl
  | more r _ ih =>
    rw [shuffleFrom, drawChoices, bind_assoc]
    refine Ensures.bind_congr (randint_le random (show r + 1 < 2 ^ 64 by omega)) fun selected inside => ?_
    rw [ih (Nat.le_of_succ_le fits), bind_assoc]
    congr 1
    funext rest
    have drawn : (Fin.ofNat (r + 2) selected).castLE fits = ⟨selected, by omega⟩ :=
      Fin.ext (Nat.mod_eq_of_lt (show selected < r + 2 by omega))
    rw [pure_bind, iterSwap, dif_pos ⟨fits, by omega⟩, exchanges, drawn]
    rfl

theorem shuffle_eq (size : n < 2 ^ 64) (values : Fin n → α) : shuffle random values
    = drawChoices random n >>= fun choices => pure (values ∘ exchanges n le_rfl choices) :=
  shuffleFrom_eq random size n le_rfl values

end Shuffle

section Weights

variable {α : Type}

/-- `Weighted`. -/
structure Weighted (α : Type) where
  value : α
  weight : UInt64

/-- The loop that adds up the weights. -/
def weightSum : List (Weighted α) → UInt64 → Except SearchError UInt64
  | [], total => return total
  | entry :: rest, total =>
    if UInt64.ofNat maxU64 - total < entry.weight then
      throw (.invalidArgument "cpptb::Random::weighted_choice total weight overflows uint64_t")
    else weightSum rest (total + entry.weight)

/-- The loop that finds the entry of a selected number. -/
def selectWeighted : List (Weighted α) → UInt64 → Except SearchError α
  | [], _ => throw (.logicError "cpptb::Random::weighted_choice selection fell outside weights")
  | entry :: rest, selected =>
    if selected < entry.weight then return entry.value else selectWeighted rest (selected - entry.weight)

/-- `weighted_choice`. -/
def weightedChoice (entries : List (Weighted α)) : Draw ρ α := do
  let total ← StateT.lift (weightSum entries 0)
  if total = 0 then
    throw (.invalidArgument "cpptb::Random::weighted_choice requires a positive weight")
  else
    let selected ← random.randint 0 (total - 1).toNat
    StateT.lift (selectWeighted entries (UInt64.ofNat selected))

/-- The weights of some entries. -/
def weights (entries : List (Weighted α)) : List ℕ := entries.map fun entry => entry.weight.toNat

/-- The sum is exact, or too large and thrown. -/
theorem weightSum_spec (entries : List (Weighted α)) (total : UInt64) :
    (total.toNat + (weights entries).sum ≤ maxU64 ∧ ∃ sum, weightSum entries total = .ok sum ∧
      sum.toNat = total.toNat + (weights entries).sum) ∨
    (maxU64 < total.toNat + (weights entries).sum ∧ ∃ what, weightSum entries total
      = .error (.invalidArgument what)) := by
  induction entries generalizing total with
  | nil => exact .inl ⟨Nat.le_of_lt_succ total.toNat_lt, total, rfl, rfl⟩
  | cons entry rest ih =>
    have sum : (weights (entry :: rest)).sum = entry.weight.toNat + (weights rest).sum := List.sum_cons
    have room : (UInt64.ofNat maxU64 - total).toNat = maxU64 - total.toNat := by
      have := total.toNat_lt
      rw [UInt64.toNat_sub_of_le _ _ (by
        rw [UInt64.le_iff_toNat_le]
        exact Nat.le_of_lt_succ total.toNat_lt)]
      rfl
    rw [weightSum, sum]
    split
    next overflows =>
      rw [UInt64.lt_iff_toNat_lt, room] at overflows
      exact .inr ⟨by omega, _, rfl⟩
    next fits =>
      rw [UInt64.lt_iff_toNat_lt, room] at fits
      have added : (total + entry.weight).toNat = total.toNat + entry.weight.toNat := by
        have bound : maxU64 < 2 ^ 64 := by decide
        have := total.toNat_lt
        rw [UInt64.toNat_add, Nat.mod_eq_of_lt (by omega)]
      have later := ih (total + entry.weight)
      rw [added, Nat.add_assoc] at later
      exact later

/-- The scan returns the entry at the position of the number. -/
theorem selectWeighted_eq {entries : List (Weighted α)} {selected : UInt64}
    (inside : selected.toNat < (weights entries).sum) :
    ∃ i entry, position (weights entries) selected.toNat = some i ∧ entries[i]? = some entry ∧
      selectWeighted entries selected = .ok entry.value := by
  induction entries generalizing selected with
  | nil => exact absurd inside (Nat.not_lt_zero _)
  | cons entry rest ih =>
    have sum : (weights (entry :: rest)).sum = entry.weight.toNat + (weights rest).sum := List.sum_cons
    have scan : position (weights (entry :: rest)) selected.toNat =
        if selected.toNat < entry.weight.toNat then some 0
        else (position (weights rest) (selected.toNat - entry.weight.toNat)).map (· + 1) := rfl
    rw [scan, selectWeighted]
    by_cases here : selected < entry.weight
    · rw [if_pos here, if_pos (UInt64.lt_iff_toNat_lt.mp here)]
      exact ⟨0, entry, rfl, rfl, rfl⟩
    · have above := UInt64.not_lt.mp here
      have rest' : (selected - entry.weight).toNat = selected.toNat - entry.weight.toNat :=
        UInt64.toNat_sub_of_le _ _ above
      rw [if_neg here, if_neg (fun less => here (UInt64.lt_iff_toNat_lt.mpr less))]
      rw [UInt64.le_iff_toNat_le] at above
      have inside' : (selected - entry.weight).toNat < (weights rest).sum := by
        rw [rest']
        omega
      obtain ⟨i, found, position_eq, at_i, selects⟩ := ih inside'
      rw [rest'] at position_eq
      exact ⟨i + 1, found, by rw [position_eq]; rfl, at_i, selects⟩

/-- A weighted choice throws before it draws, or draws a number below the total weight. -/
theorem weightedChoice_eq (entries : List (Weighted α)) :
    (((weights entries).sum = 0 ∨ maxU64 < (weights entries).sum) ∧
      ∃ what, weightedChoice random entries = throw (.invalidArgument what)) ∨
    (0 < (weights entries).sum ∧ (weights entries).sum ≤ maxU64 ∧
      weightedChoice random entries = do
        let selected ← random.randint 0 ((weights entries).sum - 1)
        StateT.lift (selectWeighted entries (UInt64.ofNat selected))) := by
  have lifted : weightedChoice random entries = StateT.lift (weightSum entries 0) >>= fun total =>
      if total = 0 then
        throw (.invalidArgument "cpptb::Random::weighted_choice requires a positive weight")
      else
        random.randint 0 (total - 1).toNat >>= fun selected =>
          StateT.lift (selectWeighted entries (UInt64.ofNat selected)) := rfl
  rcases weightSum_spec entries 0 with ⟨fits, total, found, exact⟩ | ⟨overflows, what, thrown⟩
  · have exact : total.toNat = (weights entries).sum := exact.trans (Nat.zero_add _)
    have fits : (weights entries).sum ≤ maxU64 := (Nat.zero_add _).symm.le.trans fits
    rw [lifted, found]
    by_cases zero : total = 0
    · refine .inl ⟨.inl (by rw [← exact, zero]; rfl),
        "cpptb::Random::weighted_choice requires a positive weight", ?_⟩
      funext state
      show ((if total = 0 then _ else _ : Draw ρ α) state) = _
      rw [if_pos zero]
    · have positive : 0 < (weights entries).sum := by
        rw [← exact]
        exact Nat.pos_of_ne_zero fun none => zero (UInt64.toNat_inj.mp none)
      have less : (total - 1).toNat = (weights entries).sum - 1 := by
        rw [UInt64.toNat_sub_of_le _ _ (by rw [UInt64.le_iff_toNat_le, exact]; exact positive), exact]
        rfl
      refine .inr ⟨positive, fits, ?_⟩
      funext state
      show ((if total = 0 then _ else _ : Draw ρ α) state) = _
      rw [if_neg zero, less]
  · refine .inl ⟨.inr (overflows.trans_eq (Nat.zero_add _)), what, ?_⟩
    rw [lifted, thrown]
    rfl

end Weights

/-- **`shuffle` and `weighted_choice` are fair.** A shuffle draws a number up to `k` for each position
`k` from the last on, and permutes the values by what it drew: every permutation comes from exactly one
sequence of draws. A weighted choice throws exactly when the total weight is zero or exceeds 64 bits; else
it draws a number below the total weight, every entry is returned for as many of these as its weight, and
nothing is thrown. -/
theorem shuffle_and_weighted_choice_fair :
    (∀ {ρ α : Type} (random : Generator ρ) (n : ℕ), n < 2 ^ 64 →
      (∀ values : Fin n → α, shuffle random values
        = drawChoices random n >>= fun choices => pure (values ∘ exchanges n le_rfl choices)) ∧
      Function.Bijective (exchanges n le_rfl) ∧
      ∀ values : Fin n → α, Ensures (shuffle random values) fun shuffled =>
        (List.ofFn shuffled).Perm (List.ofFn values)) ∧
    ∀ {ρ α : Type} (random : Generator ρ) (entries : List (Weighted α)),
      ((weights entries).sum = 0 ∨ maxU64 < (weights entries).sum →
        ∃ what, weightedChoice random entries = throw (.invalidArgument what)) ∧
      (0 < (weights entries).sum → (weights entries).sum ≤ maxU64 →
        (weightedChoice random entries = do
          let selected ← random.randint 0 ((weights entries).sum - 1)
          StateT.lift (selectWeighted entries (UInt64.ofNat selected))) ∧
        (∀ selected < (weights entries).sum, ∃ i entry, position (weights entries) selected = some i ∧
          entries[i]? = some entry ∧
          selectWeighted entries (UInt64.ofNat selected) = .ok entry.value) ∧
        ∀ i entry, entries[i]? = some entry →
          ((Finset.range (weights entries).sum).filter
            (position (weights entries) · = some i)).card = entry.weight.toNat) := by
  refine ⟨fun {ρ α} random n size => ⟨shuffle_eq random size, exchanges_bijective, fun values => ?_⟩,
    fun {ρ α} random entries => ?_⟩
  · rw [shuffle_eq random size]
    exact Ensures.bind_any _ fun choices => Ensures.pure (Equiv.Perm.ofFn_comp_perm _ _)
  · rcases weightedChoice_eq random entries with ⟨bad, thrown⟩ | ⟨positive, fits, drawn⟩
    · exact ⟨fun _ => thrown, fun positive fits => absurd bad (by omega)⟩
    · refine ⟨fun bad => absurd bad (by omega), fun _ _ => ⟨drawn, fun selected inside => ?_,
        fun i entry found => ?_⟩⟩
      · have exact : (UInt64.ofNat selected).toNat = selected := by
          have bound : maxU64 < 2 ^ 64 := by decide
          rw [UInt64.toNat_ofNat', Nat.mod_eq_of_lt (by omega)]
        have inside' : (UInt64.ofNat selected).toNat < (weights entries).sum := by rwa [exact]
        have chosen := selectWeighted_eq inside'
        rwa [exact] at chosen
      · rw [card_position, weights, List.getD_eq_getElem?_getD, List.getElem?_map, found]
        rfl

end Cpptb.Randomize
