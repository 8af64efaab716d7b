/-
Counters that every step adds to.

A state has a `shape`, the part no step changes, and `read` shows its counters, which `add` adds up. When
each step adds to the counters what it adds to those of a fresh state of the same shape, so does a whole
sequence of steps (`Counting.foldl`), and the counters of two sequences add up to those of the sequences
one after the other (`Counting.append`).

* `map_eq_zipWith`, `modify_eq_zipWith`: a list of counters that a step changes element by element.
* `zipWith_assoc_of`, `zipWith_comm_of`, `zipWith_right_of`: lists of counters add up as their elements do.
-/

import Mathlib

namespace Cpptb.Counters

variable {X A Y : Type}

/-- Steps that only add. -/
structure Counting (step : X → A → X) (shape : X → X) (read : X → Y) (add : Y → Y → Y)
    (ok : X → Prop) : Prop where
  assoc : ∀ a b c, add (add a b) c = add a (add b c)
  ok_shape : ∀ x, ok x → ok (shape x)
  ok_step : ∀ x a, ok x → ok (step x a)
  shape_shape : ∀ x, shape (shape x) = shape x
  shape_step : ∀ x a, ok x → shape (step x a) = shape x
  read_shape : ∀ x, ok x → add (read x) (read (shape x)) = read x
  read_step : ∀ x a, ok x → read (step x a) = add (read x) (read (step (shape x) a))

namespace Counting

variable {step : X → A → X} {shape : X → X} {read : X → Y} {add : Y → Y → Y} {ok : X → Prop}

theorem ok_foldl (counting : Counting step shape read add ok) {x : X} (here : ok x) (actions : List A) :
    ok (actions.foldl step x) := by
  induction actions generalizing x with
  | nil => exact here
  | cons a rest ih => exact ih (counting.ok_step x a here)

theorem shape_foldl (counting : Counting step shape read add ok) {x : X} (here : ok x)
    (actions : List A) : shape (actions.foldl step x) = shape x := by
  induction actions generalizing x with
  | nil => rfl
  | cons a rest ih =>
      rw [List.foldl_cons, ih (counting.ok_step x a here), counting.shape_step x a here]

/-- A sequence of steps adds what it adds to a fresh state. -/
theorem foldl (counting : Counting step shape read add ok) {x : X} (here : ok x) (actions : List A) :
    read (actions.foldl step x) = add (read x) (read (actions.foldl step (shape x))) := by
  induction actions using List.reverseRecOn with
  | nil => exact (counting.read_shape x here).symm
  | append_singleton actions a ih =>
      have fresh := counting.ok_shape x here
      rw [List.foldl_append, List.foldl_append, List.foldl_cons, List.foldl_nil, List.foldl_cons,
        List.foldl_nil, counting.read_step _ a (counting.ok_foldl here actions), ih,
        counting.shape_foldl here, counting.assoc,
        counting.read_step _ a (counting.ok_foldl fresh actions), counting.shape_foldl fresh,
        counting.shape_shape]

/-- Two sequences of steps from a fresh state add up. -/
theorem append (counting : Counting step shape read add ok) {x : X} (here : ok x)
    (fresh : shape x = x) (before after : List A) :
    add (read (before.foldl step x)) (read (after.foldl step x)) =
      read ((before ++ after).foldl step x) := by
  rw [List.foldl_append, counting.foldl (counting.ok_foldl here before), counting.shape_foldl here,
    fresh]

end Counting

/-! ### Lists of counters -/

variable {α β γ : Type}

theorem zipWith_assoc_of {add : α → α → α} (assoc : ∀ a b c, add (add a b) c = add a (add b c))
    (left middle right : List α) :
    List.zipWith add (List.zipWith add left middle) right =
      List.zipWith add left (List.zipWith add middle right) := by
  induction left generalizing middle right with
  | nil => simp
  | cons a left ih => cases middle <;> cases right <;> simp [assoc, ih]

/-- Elements that agree on `key` may change places. -/
theorem zipWith_comm_of {add : α → α → β} {key : α → γ}
    (comm : ∀ a b, key a = key b → add a b = add b a) {left right : List α}
    (same : left.map key = right.map key) :
    List.zipWith add left right = List.zipWith add right left := by
  induction left generalizing right with
  | nil => cases right <;> simp at same ⊢
  | cons a left ih =>
      cases right with
      | nil => simp at same
      | cons b right =>
          rw [List.map_cons, List.map_cons, List.cons.injEq] at same
          rw [List.zipWith_cons_cons, List.zipWith_cons_cons, comm a b same.1, ih same.2]

/-- Adding a list of neutral elements. -/
theorem zipWith_right_of {add : α → β → α} {zero : α → β} (neutral : ∀ a, add a (zero a) = a)
    (left : List α) : List.zipWith add left (left.map zero) = left := by
  induction left with
  | nil => rfl
  | cons a left ih => rw [List.map_cons, List.zipWith_cons_cons, neutral, ih]

/-- What only the left list decides. -/
theorem zipWith_left_of (f : α → γ) {left : List α} {right : List β}
    (long : left.length ≤ right.length) :
    List.zipWith (fun a _ => f a) left right = left.map f := by
  induction left generalizing right with
  | nil => rfl
  | cons a left ih =>
      cases right with
      | nil => simp at long
      | cons b right =>
          rw [List.zipWith_cons_cons, ih (by simpa using long), List.map_cons]

/-- What adding an element of the same kind does not change. -/
theorem map_zipWith_of {add : α → α → α} {key : α → γ}
    (keeps : ∀ a b, key a = key b → key (add a b) = key a) {left right : List α}
    (same : left.map key = right.map key) : (List.zipWith add left right).map key = left.map key := by
  induction left generalizing right with
  | nil => rfl
  | cons a left ih =>
      cases right with
      | nil => simp at same
      | cons b right =>
          rw [List.map_cons, List.map_cons, List.cons.injEq] at same
          rw [List.zipWith_cons_cons, List.map_cons, keeps a b same.1, ih same.2, List.map_cons]

/-- Every element of a list is stepped. -/
theorem map_eq_zipWith {add : α → α → α} {zero step : α → α}
    (adds : ∀ a, step a = add a (step (zero a))) (l : List α) :
    l.map step = List.zipWith add l ((l.map zero).map step) := by
  induction l with
  | nil => rfl
  | cons a l ih => rw [List.map_cons, List.map_cons, List.map_cons, List.zipWith_cons_cons, ← adds, ih]

/-- One element of a list is stepped. -/
theorem modify_eq_zipWith {add : α → α → α} {zero step : α → α} (neutral : ∀ a, add a (zero a) = a)
    (adds : ∀ a, step a = add a (step (zero a))) (l : List α) (index : Nat) :
    l.modify index step = List.zipWith add l ((l.map zero).modify index step) := by
  induction l generalizing index with
  | nil => simp
  | cons a l ih =>
      cases index with
      | zero =>
          rw [List.map_cons, List.modify_zero_cons, List.modify_zero_cons, List.zipWith_cons_cons,
            ← adds, zipWith_right_of neutral]
      | succ index =>
          rw [List.map_cons, List.modify_succ_cons, List.modify_succ_cons, List.zipWith_cons_cons,
            neutral, ← ih]

/-- Two lists are compared element by element, or by what the comparison reads of them. -/
theorem all_zipWith_iff {same : α → α → Bool} {model : α → β}
    (agree : ∀ a b, same a b = true ↔ model a = model b) (left right : List α) :
    (left.length = right.length ∧ (List.zipWith same left right).all id = true) ↔
      left.map model = right.map model := by
  induction left generalizing right with
  | nil => cases right <;> simp
  | cons a left ih =>
      cases right with
      | nil => simp
      | cons b right =>
          rw [List.map_cons, List.map_cons, List.cons.injEq, ← ih, ← agree]
          simp
          tauto

end Cpptb.Counters
