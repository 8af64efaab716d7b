/-
Runs of a step function.

A system is a partial step function on states and actions. `Reach step ok init` is the set of states
its runs reach from an initial state by steps whose actions meet `ok`; an invariant that holds
initially and that every such step keeps holds of all of them (`Reach.invariant`).
-/

import Mathlib

namespace Cpptb.Runs

variable {σ α : Type}

/-- The states reached from `init` by steps that meet `ok`. -/
inductive Reach (step : σ → α → Option σ) (ok : σ → α → Prop) (init : σ → Prop) : σ → Prop
  | start {s : σ} : init s → Reach step ok init s
  | next {s t : σ} (a : α) : Reach step ok init s → ok s a → step s a = some t →
      Reach step ok init t

variable {step : σ → α → Option σ} {ok : σ → α → Prop} {init : σ → Prop}

/-- The invariant rule. -/
theorem Reach.invariant {P : σ → Prop} (initially : ∀ s, init s → P s)
    (kept : ∀ s t a, P s → ok s a → step s a = some t → P t) {s : σ}
    (reach : Reach step ok init s) : P s := by
  induction reach with
  | start here => exact initially _ here
  | next a _ allowed stepped ih => exact kept _ _ a ih allowed stepped

/-- The invariant rule over an invariant that is already known. -/
theorem Reach.invariant_of {P Q : σ → Prop} (known : ∀ s, Reach step ok init s → P s)
    (initially : ∀ s, init s → Q s)
    (kept : ∀ s t a, P s → P t → Q s → ok s a → step s a = some t → Q t) {s : σ}
    (reach : Reach step ok init s) : Q s := by
  induction reach with
  | start here => exact initially _ here
  | next a before allowed stepped ih =>
      exact kept _ _ a (known _ before) (known _ (before.next a allowed stepped)) ih allowed
        stepped

/-- Fewer steps reach fewer states. -/
theorem Reach.mono {ok' : σ → α → Prop} (weaker : ∀ s a, ok s a → ok' s a) {s : σ}
    (reach : Reach step ok init s) : Reach step ok' init s := by
  induction reach with
  | start here => exact .start here
  | next a _ allowed stepped ih => exact ih.next a (weaker _ _ allowed) stepped

/-- Perform a list of actions. -/
def run (step : σ → α → Option σ) (s : σ) : List α → Option σ
  | [] => some s
  | a :: rest => (step s a).bind (run step · rest)

/-- A run of allowed actions ends in a reached state. -/
theorem Reach.run (allowed : ∀ s a, ok s a) {s t : σ} (reach : Reach step ok init s)
    (actions : List α) (ran : run step s actions = some t) : Reach step ok init t := by
  induction actions generalizing s with
  | nil =>
      obtain rfl : s = t := Option.some.inj ran
      exact reach
  | cons a rest ih =>
      obtain ⟨middle, stepped, tail⟩ := Option.bind_eq_some_iff.mp ran
      exact ih (reach.next a (allowed _ _) stepped) tail

/-- Perform a list of actions, as far as each is allowed. -/
def runAllowed (step : σ → α → Option σ) (ok : σ → α → Prop) [∀ s a, Decidable (ok s a)] (s : σ) :
    List α → Option σ
  | [] => some s
  | a :: rest => if ok s a then (step s a).bind (runAllowed step ok · rest) else none

/-- Such a run ends in a reached state. -/
theorem Reach.runAllowed [∀ s a, Decidable (ok s a)] {s t : σ} (reach : Reach step ok init s)
    (actions : List α) (ran : runAllowed step ok s actions = some t) : Reach step ok init t := by
  induction actions generalizing s with
  | nil =>
      obtain rfl : s = t := Option.some.inj ran
      exact reach
  | cons a rest ih =>
      by_cases allowed : ok s a
      · rw [Runs.runAllowed, if_pos allowed] at ran
        obtain ⟨middle, stepped, tail⟩ := Option.bind_eq_some_iff.mp ran
        exact ih (reach.next a allowed stepped) tail
      · rw [Runs.runAllowed, if_neg allowed] at ran
        cases ran

end Cpptb.Runs
