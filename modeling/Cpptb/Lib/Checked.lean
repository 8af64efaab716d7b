/-
Computations that may fail: what a run tells of its parts.

A run of `first >>= next` that succeeds has a first part that succeeds, and so on through lists:
`forall₂_of_mapM_ok` relates the items of a list to their results, and `foldlM_keeps` carries an
invariant through a loop. `Avoids failure computation` says that a computation does not fail in one
particular way, with the rules `bind`, `mapM`, `foldlM` and `ite`.
-/

import Mathlib

namespace Cpptb.Checked

variable {ε α β σ : Type}

section Successes

theorem bind_ok_iff {first : Except ε α} {next : α → Except ε β} {b : β} :
    (first >>= next) = .ok b ↔ ∃ a, first = .ok a ∧ next a = .ok b := by
  cases first with
  | error failure => exact ⟨fun ok => (nomatch ok), fun ⟨_, ok, _⟩ => (nomatch ok)⟩
  | ok a => exact ⟨fun ok => ⟨a, rfl, ok⟩, fun ⟨_, same, ok⟩ => Except.ok.inj same ▸ ok⟩

/-- The results of a list that was mapped, one for each item. -/
theorem forall₂_of_mapM_ok {f : α → Except ε β} {items : List α} {results : List β}
    (done : items.mapM f = .ok results) :
    List.Forall₂ (fun item result => f item = .ok result) items results := by
  induction items generalizing results with
  | nil =>
    obtain rfl := Except.ok.inj done
    exact .nil
  | cons head tail ih =>
    rw [List.mapM_cons] at done
    obtain ⟨first, here, done⟩ := bind_ok_iff.mp done
    obtain ⟨others, rest, done⟩ := bind_ok_iff.mp done
    obtain rfl := Except.ok.inj done
    exact .cons here (ih rest)

theorem mapM_ok_of_forall₂ {f : α → Except ε β} {items : List α} {results : List β}
    (each : List.Forall₂ (fun item result => f item = .ok result) items results) :
    items.mapM f = .ok results := by
  induction each with
  | nil => rfl
  | cons here _ ih =>
    rw [List.mapM_cons]
    exact bind_ok_iff.mpr ⟨_, here, bind_ok_iff.mpr ⟨_, ih, rfl⟩⟩

/-- The same of results that may be missing. -/
theorem forall₂_of_mapM_some {f : α → Option β} {items : List α} {results : List β}
    (done : items.mapM f = some results) :
    List.Forall₂ (fun item result => f item = some result) items results := by
  induction items generalizing results with
  | nil =>
    obtain rfl := Option.some.inj done
    exact .nil
  | cons head tail ih =>
    rw [List.mapM_cons] at done
    obtain ⟨first, here, done⟩ := Option.bind_eq_some_iff.mp done
    obtain ⟨others, rest, done⟩ := Option.bind_eq_some_iff.mp done
    obtain rfl := Option.some.inj done
    exact .cons here (ih rest)

theorem mapM_some_of_forall {f : α → Option β} {g : α → β} {items : List α}
    (each : ∀ item ∈ items, f item = some (g item)) : items.mapM f = some (items.map g) := by
  induction items with
  | nil => rfl
  | cons head tail ih =>
    rw [List.mapM_cons, each head List.mem_cons_self, ih fun item mem => each item (List.mem_cons_of_mem _ mem)]
    rfl

theorem exists_mapM_some {f : α → Option β} {items : List α}
    (each : ∀ item ∈ items, ∃ result, f item = some result) : ∃ results, items.mapM f = some results := by
  induction items with
  | nil => exact ⟨[], rfl⟩
  | cons head tail ih =>
    obtain ⟨first, here⟩ := each head List.mem_cons_self
    obtain ⟨others, rest⟩ := ih fun item mem => each item (List.mem_cons_of_mem _ mem)
    exact ⟨first :: others, by rw [List.mapM_cons, here, rest]; rfl⟩

/-- A relation over the numbered items of a list, without the numbers. -/
theorem forall₂_of_numbered {R : ℕ × α → β → Prop} {items : List α} {results : List β}
    (each : List.Forall₂ R (items.mapIdx fun index item => (index, item)) results) :
    List.Forall₂ (fun item result => ∃ index, R (index, item) result) items results := by
  rw [List.forall₂_iff_get] at each ⊢
  obtain ⟨sizes, each⟩ := each
  rw [List.length_mapIdx] at sizes
  refine ⟨sizes, fun index here there => ⟨index, ?_⟩⟩
  have := each index (by rwa [List.length_mapIdx]) there
  simpa only [List.get_eq_getElem, List.getElem_mapIdx] using this

/-- The numbered results of a function. -/
theorem numbered_map (f : α → β) (items : List α) :
    ((items.map f).mapIdx fun index item => (index, item)) =
      (items.mapIdx fun index item => (index, item)).map (Prod.map id f) := by
  refine List.ext_getElem (by simp) fun index here there => ?_
  simp

theorem forall₂_flatMap {α' β' : Type} {R : α → β → Prop} {S : α' → β' → Prop} {f : α → List α'}
    {g : β → List β'} {items : List α} {results : List β} (each : List.Forall₂ R items results)
    (inner : ∀ item result, R item result → List.Forall₂ S (f item) (g result)) :
    List.Forall₂ S (items.flatMap f) (results.flatMap g) := by
  induction each with
  | nil => exact .nil
  | cons here _ ih =>
    rw [List.flatMap_cons, List.flatMap_cons]
    exact List.rel_append (inner _ _ here) ih

theorem exists_of_forall₂ {R : α → β → Prop} {items : List α} {results : List β}
    (each : List.Forall₂ R items results) {result : β} (mem : result ∈ results) :
    ∃ item ∈ items, R item result := by
  induction each with
  | nil => exact absurd mem List.not_mem_nil
  | cons here _ ih =>
    rcases List.mem_cons.mp mem with rfl | mem
    · exact ⟨_, List.mem_cons_self, here⟩
    · obtain ⟨item, mem', holds⟩ := ih mem
      exact ⟨item, List.mem_cons_of_mem _ mem', holds⟩

/-- A loop whose turns keep an invariant. -/
theorem foldlM_keeps {f : σ → α → Except ε σ} {items : List α} {I : σ → Prop} {state state' : σ}
    (kept : ∀ item ∈ items, ∀ s s', I s → f s item = .ok s' → I s') (holds : I state)
    (done : items.foldlM f state = .ok state') : I state' := by
  induction items generalizing state with
  | nil =>
    obtain rfl := Except.ok.inj done
    exact holds
  | cons head tail ih =>
    rw [List.foldlM_cons] at done
    obtain ⟨next, here, done⟩ := bind_ok_iff.mp done
    exact ih (fun item mem => kept item (List.mem_cons_of_mem _ mem))
      (kept head List.mem_cons_self _ _ holds here) done

/-- A loop whose turns succeed as those of another do. -/
theorem foldlM_ok_congr {f g : σ → α → Except ε σ} {items : List α} {state state' : σ}
    (each : ∀ item ∈ items, ∀ s s', f s item = .ok s' → g s item = .ok s')
    (done : items.foldlM f state = .ok state') : items.foldlM g state = .ok state' := by
  induction items generalizing state with
  | nil => exact done
  | cons head tail ih =>
    rw [List.foldlM_cons] at done ⊢
    obtain ⟨next, here, done⟩ := bind_ok_iff.mp done
    exact bind_ok_iff.mpr ⟨next, each head List.mem_cons_self _ _ here,
      ih (fun item mem => each item (List.mem_cons_of_mem _ mem)) done⟩

end Successes

section Failures

/-- A computation that does not fail with `failure`. -/
def Avoids (failure : ε) (computation : Except ε α) : Prop := computation ≠ .error failure

variable {failure : ε}

namespace Avoids

theorem pure (value : α) : Avoids failure (Pure.pure value) := fun same => nomatch same

theorem bind {first : Except ε α} {next : α → Except ε β} (avoided : Avoids failure first)
    (rest : ∀ a, first = .ok a → Avoids failure (next a)) : Avoids failure (first >>= next) := by
  cases first with
  | error other => exact fun same => avoided (congrArg _ (Except.error.inj same))
  | ok a => exact rest a rfl

theorem ite {condition : Prop} [Decidable condition] {first second : Except ε α}
    (yes : condition → Avoids failure first) (no : ¬condition → Avoids failure second) :
    Avoids failure (if condition then first else second) := by
  split
  · exact yes ‹_›
  · exact no ‹_›

theorem mapM {f : α → Except ε β} {items : List α} (each : ∀ item ∈ items, Avoids failure (f item)) :
    Avoids failure (items.mapM f) := by
  induction items with
  | nil => exact pure _
  | cons head tail ih =>
    rw [List.mapM_cons]
    exact (each head List.mem_cons_self).bind fun _ _ =>
      (ih fun item mem => each item (List.mem_cons_of_mem _ mem)).bind fun _ _ => pure _

theorem foldlM {f : σ → α → Except ε σ} {items : List α}
    (each : ∀ item ∈ items, ∀ state, Avoids failure (f state item)) (state : σ) :
    Avoids failure (items.foldlM f state) := by
  induction items generalizing state with
  | nil => exact pure _
  | cons head tail ih =>
    rw [List.foldlM_cons]
    exact (each head List.mem_cons_self state).bind fun next _ =>
      ih (fun item mem => each item (List.mem_cons_of_mem _ mem)) next

end Avoids

end Failures

end Cpptb.Checked
