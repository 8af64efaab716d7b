/-
Bursts of requests.

A burst issues numbered requests one after the other until one fails (`burst`): the address of each is
computed when its turn comes, and may throw; the responder answers it and keeps a state of its own; the
data of the requests that succeed is gathered. Several bursts run in a row (`bursts`) until one does
not end well.

* `burst_requests`, `bursts_requests`: the requests that are issued are a prefix of those planned, and
  all of them when the end is reached.
* `burst_invariant`, `bursts_invariant`: what each request keeps holds after those that succeeded.
-/

import Mathlib

namespace Cpptb.Bursts

/-- How a burst ends: all its requests succeeded, one failed, or the address of one threw. -/
inductive Ending (E F : Type*) where
  | okay
  | failed (place : F)
  | threw (error : E)
  deriving DecidableEq, Repr

/-- The requests that were issued, how many succeeded, what was gathered, and the responder. -/
structure Burst (R V S E F : Type*) where
  requests : List R
  completed : ℕ
  values : V
  responder : S
  ending : Ending E F

variable {R D V S E A F : Type*}

section Loops

variable (address : ℕ → Except E A) (request : ℕ → A → R) (respond : S → R → Option D × S)
  (complete : ℕ → D → V → V) (place : F)

/-- `remaining` requests, from number `transfer` on. -/
def burst : ℕ → ℕ → V → S → Burst R V S E F
  | 0, _, values, responder => ⟨[], 0, values, responder, .okay⟩
  | remaining + 1, transfer, values, responder =>
    match address transfer with
    | .error error => ⟨[], 0, values, responder, .threw error⟩
    | .ok target =>
      match respond responder (request transfer target) with
      | (none, after) => ⟨[request transfer target], 0, values, after, .failed place⟩
      | (some data, after) =>
        let rest := burst remaining (transfer + 1) (complete transfer data values) after
        ⟨request transfer target :: rest.requests, rest.completed + 1, rest.values, rest.responder,
          rest.ending⟩

/-- `remaining` bursts, from number `offset` on. -/
def bursts (part : ℕ → V → S → Burst R V S E F) : ℕ → ℕ → V → S → Burst R V S E F
  | 0, _, values, responder => ⟨[], 0, values, responder, .okay⟩
  | remaining + 1, offset, values, responder =>
    let first := part offset values responder
    match first.ending with
    | .okay =>
      let rest := bursts part remaining (offset + 1) first.values first.responder
      ⟨first.requests ++ rest.requests, first.completed + rest.completed, rest.values, rest.responder,
        rest.ending⟩
    | .failed _ | .threw _ => first

end Loops

section Requests

variable (address : ℕ → Except E A) (request : ℕ → A → R) (respond : S → R → Option D × S)
  (complete : ℕ → D → V → V) (place : F)

/-- The requests of a burst are those planned, as far as it gets. -/
theorem burst_requests (plan : ℕ → R) (remaining transfer : ℕ)
    (planned : ∀ k, transfer ≤ k → k < transfer + remaining → ∀ target, address k = .ok target →
      request k target = plan k) (values : V) (responder : S) :
    let result := burst address request respond complete place remaining transfer values responder
    let plan := (List.range' transfer remaining).map plan
    result.requests <+: plan ∧ (result.ending = .okay → result.requests = plan) := by
  induction remaining generalizing transfer values responder with
  | zero => exact ⟨List.prefix_rfl, fun _ => rfl⟩
  | succ remaining ih =>
    rw [List.range'_succ, List.map_cons, burst]
    cases found : address transfer with
    | error error => exact ⟨List.nil_prefix, nofun⟩
    | ok target =>
      have here : request transfer target = plan transfer :=
        planned transfer le_rfl (by omega) target found
      dsimp only
      cases respond responder (request transfer target) with
      | mk answer after =>
        cases answer with
        | none =>
          refine ⟨?_, nofun⟩
          show [request transfer target] <+: _
          rw [here]
          exact List.cons_prefix_cons.mpr ⟨rfl, List.nil_prefix⟩
        | some data =>
          have rest := ih (transfer + 1) (fun k above below => planned k (by omega) (by omega))
            (complete transfer data values) after
          refine ⟨List.cons_prefix_cons.mpr ⟨here, rest.1⟩, fun okay => ?_⟩
          exact List.cons_eq_cons.mpr ⟨here, rest.2 okay⟩

/-- A burst whose first address is found issues a request. -/
theorem burst_issues (remaining transfer : ℕ) {target : A} (found : address transfer = .ok target)
    (values : V) (responder : S) :
    (burst address request respond complete place (remaining + 1) transfer values responder).requests
      ≠ [] := by
  rw [burst, found]
  dsimp only
  obtain ⟨answer, after⟩ := respond responder (request transfer target)
  cases answer <;> exact List.cons_ne_nil _ _

/-- A burst whose first address throws issues none. -/
theorem burst_threw (remaining transfer : ℕ) {error : E} (thrown : address transfer = .error error)
    (values : V) (responder : S) :
    burst address request respond complete place (remaining + 1) transfer values responder
      = ⟨[], 0, values, responder, .threw error⟩ := by
  rw [burst, thrown]

variable {part : ℕ → V → S → Burst R V S E F}

/-- The requests of bursts in a row are those planned, as far as they get. -/
theorem bursts_requests (plan : ℕ → List R) (remaining offset : ℕ)
    (planned : ∀ k, offset ≤ k → k < offset + remaining → ∀ values responder,
      (part k values responder).requests <+: plan k ∧
        ((part k values responder).ending = .okay → (part k values responder).requests = plan k))
    (values : V) (responder : S) :
    let result := bursts part remaining offset values responder
    let plan := (List.range' offset remaining).flatMap plan
    result.requests <+: plan ∧ (result.ending = .okay → result.requests = plan) := by
  induction remaining generalizing offset values responder with
  | zero => exact ⟨List.prefix_rfl, fun _ => rfl⟩
  | succ remaining ih =>
    rw [List.range'_succ, List.flatMap_cons, bursts]
    obtain ⟨early, all⟩ := planned offset le_rfl (by omega) values responder
    cases ended : (part offset values responder).ending with
    | okay =>
      have rest := ih (offset + 1) (fun k above below => planned k (by omega) (by omega))
        (part offset values responder).values (part offset values responder).responder
      refine ⟨?_, fun okay => ?_⟩
      · show (part offset values responder).requests ++ _ <+: _
        rw [all ended]
        exact (List.prefix_append_right_inj _).mpr rest.1
      · exact congrArg₂ _ (all ended) (rest.2 okay)
    | failed place => exact ⟨early.trans (List.prefix_append _ _), fun okay => by simp [ended] at okay⟩
    | threw error => exact ⟨early.trans (List.prefix_append _ _), fun okay => by simp [ended] at okay⟩

/-- Bursts in a row issue what the first of them issues, and more. -/
theorem bursts_issues (remaining : ℕ) {offset : ℕ} {values : V} {responder : S}
    (issues : (part offset values responder).requests ≠ []) :
    (bursts part (remaining + 1) offset values responder).requests ≠ [] := by
  rw [bursts]
  cases (part offset values responder).ending with
  | okay => exact fun empty => issues (List.append_eq_nil_iff.mp empty).1
  | failed place => exact issues
  | threw error => exact issues

/-- Bursts in a row stop at a first one that does not end well. -/
theorem bursts_stopped (remaining : ℕ) {offset : ℕ} {values : V} {responder : S}
    (stopped : (part offset values responder).ending ≠ .okay) :
    bursts part (remaining + 1) offset values responder = part offset values responder := by
  rw [bursts]
  cases ended : (part offset values responder).ending with
  | okay => exact absurd ended stopped
  | failed place => rfl
  | threw error => rfl

end Requests

section Invariants

variable {address : ℕ → Except E A} {request : ℕ → A → R} {respond : S → R → Option D × S}
  {complete : ℕ → D → V → V} {place : F}

/-- The invariant rule of a burst: what every request that succeeds carries on, and one that fails
keeps, holds of as many requests as have succeeded. -/
theorem burst_invariant {P : ℕ → V → S → Prop} (remaining transfer : ℕ)
    (kept : ∀ k, transfer ≤ k → k < transfer + remaining → ∀ target values responder data after,
      address k = .ok target → respond responder (request k target) = (some data, after) →
      P k values responder → P (k + 1) (complete k data values) after)
    (failing : ∀ k, transfer ≤ k → k < transfer + remaining → ∀ target values responder after,
      address k = .ok target → respond responder (request k target) = (none, after) →
      P k values responder → P k values after)
    (found : ∀ k, transfer ≤ k → k < transfer + remaining → ∃ target, address k = .ok target)
    {values : V} {responder : S} (holds : P transfer values responder) :
    let result := burst address request respond complete place remaining transfer values responder
    P (transfer + result.completed) result.values result.responder ∧
      ((result.ending = .okay ∧ result.completed = remaining) ∨
        (result.ending = .failed place ∧ result.completed < remaining)) := by
  induction remaining generalizing transfer values responder with
  | zero => exact ⟨holds, .inl ⟨rfl, rfl⟩⟩
  | succ remaining ih =>
    obtain ⟨target, here⟩ := found transfer le_rfl (by omega)
    rw [burst, here]
    dsimp only
    cases answered : respond responder (request transfer target) with
    | mk answer after =>
      cases answer with
      | none =>
        exact ⟨failing transfer le_rfl (by omega) target values responder after here answered holds,
          .inr ⟨rfl, Nat.succ_pos _⟩⟩
      | some data =>
        have next := kept transfer le_rfl (by omega) target values responder data after here answered
          holds
        have rest := ih (transfer + 1)
          (fun k above below => kept k (by omega) (by omega))
          (fun k above below => failing k (by omega) (by omega))
          (fun k above below => found k (by omega) (by omega)) next
        refine ⟨?_, ?_⟩
        · have invariant := rest.1
          rw [Nat.add_assoc, Nat.add_comm 1] at invariant
          exact invariant
        · rcases rest.2 with ⟨okay, all⟩ | ⟨failed, fewer⟩
          · exact .inl ⟨okay, congrArg (· + 1) all⟩
          · exact .inr ⟨failed, Nat.succ_lt_succ fewer⟩

variable {part : ℕ → V → S → Burst R V S E F}

/-- The invariant rule of bursts in a row: each that ends well carries the invariant on, the one that
does not leaves what it stopped with. -/
theorem bursts_invariant (part : ℕ → V → S → Burst R V S E F) (Q : ℕ → V → S → Prop)
    (Stopped : ℕ → V → S → Ending E F → Prop) (remaining offset : ℕ)
    (kept : ∀ k, offset ≤ k → k < offset + remaining → ∀ values responder, Q k values responder →
      let result := part k values responder
      (result.ending = .okay ∧ Q (k + 1) result.values result.responder) ∨
        (result.ending ≠ .okay ∧ Stopped k result.values result.responder result.ending))
    (values : V) (responder : S) (holds : Q offset values responder) :
    let result := bursts part remaining offset values responder
    (result.ending = .okay ∧ Q (offset + remaining) result.values result.responder) ∨
      (result.ending ≠ .okay ∧ ∃ k, offset ≤ k ∧ k < offset + remaining ∧
        Stopped k result.values result.responder result.ending) := by
  induction remaining generalizing offset values responder with
  | zero => exact .inl ⟨rfl, holds⟩
  | succ remaining ih =>
    rcases kept offset le_rfl (by omega) values responder holds with ⟨okay, next⟩ | ⟨ended, stopped⟩
    · rw [bursts, okay]
      have rest := ih (offset + 1) (fun k above below => kept k (by omega) (by omega)) _ _ next
      rcases rest with ⟨okay, invariant⟩ | ⟨ended, k, above, below, stopped⟩
      · rw [Nat.add_assoc, Nat.add_comm 1] at invariant
        exact .inl ⟨okay, invariant⟩
      · exact .inr ⟨ended, k, by omega, by omega, stopped⟩
    · rw [bursts_stopped remaining ended]
      exact .inr ⟨ended, offset, le_rfl, by omega, stopped⟩

/-- A burst whose requests are all answered ends well. -/
theorem burst_okay (answers : ∀ responder r, (respond responder r).1 ≠ none) (remaining transfer : ℕ)
    (found : ∀ k, transfer ≤ k → k < transfer + remaining → ∃ target, address k = .ok target)
    (values : V) (responder : S) :
    (burst address request respond complete place remaining transfer values responder).ending
      = .okay := by
  induction remaining generalizing transfer values responder with
  | zero => rfl
  | succ remaining ih =>
    obtain ⟨target, here⟩ := found transfer le_rfl (by omega)
    rw [burst, here]
    dsimp only
    cases answered : respond responder (request transfer target) with
    | mk answer after =>
      cases answer with
      | none => exact absurd (congrArg Prod.fst answered) (answers _ _)
      | some data =>
        exact ih (transfer + 1) (fun k above below => found k (by omega) (by omega)) _ after

/-- Bursts in a row that all end well end well. -/
theorem bursts_okay (remaining offset : ℕ)
    (okay : ∀ k, offset ≤ k → k < offset + remaining → ∀ values responder,
      (part k values responder).ending = .okay) (values : V) (responder : S) :
    (bursts part remaining offset values responder).ending = .okay := by
  induction remaining generalizing offset values responder with
  | zero => rfl
  | succ remaining ih =>
    rw [bursts, okay offset le_rfl (by omega)]
    exact ih (offset + 1) (fun k above below => okay k (by omega) (by omega)) _ _

end Invariants

end Cpptb.Bursts
