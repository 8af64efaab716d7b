/-
Tables that are filled one cell at a time.

* `fill`: a list of writes, each of a value at an index.
* `getElem?_fill_of_mem`, `getElem?_fill_of_not_mem`: when no index is written twice, a cell holds what
  was written there, or what it held before.
* `nodup_keys_flatMap`: writes that come in groups, each to a range of its own, write no index twice.
-/

import Mathlib

namespace Cpptb.Tables

variable {A B : Type}

/-- Write each value at its index. -/
def fill (writes : List (Nat × A)) (cells : List A) : List A :=
  writes.foldl (fun cells write => cells.set write.1 write.2) cells

@[simp] theorem fill_nil (cells : List A) : fill [] cells = cells := rfl

@[simp] theorem fill_cons (write : Nat × A) (writes : List (Nat × A)) (cells : List A) :
    fill (write :: writes) cells = fill writes (cells.set write.1 write.2) := rfl

theorem fill_append (first second : List (Nat × A)) (cells : List A) :
    fill (first ++ second) cells = fill second (fill first cells) :=
  List.foldl_append

@[simp] theorem length_fill (writes : List (Nat × A)) (cells : List A) :
    (fill writes cells).length = cells.length := by
  induction writes generalizing cells with
  | nil => rfl
  | cons write rest ih => rw [fill_cons, ih, List.length_set]

/-- A cell that is not written keeps its value. -/
theorem getElem?_fill_of_not_mem {writes : List (Nat × A)} {index : Nat}
    (absent : index ∉ writes.map Prod.fst) (cells : List A) : (fill writes cells)[index]? = cells[index]? := by
  induction writes generalizing cells with
  | nil => rfl
  | cons write rest ih =>
      rw [List.map_cons, List.mem_cons, not_or] at absent
      rw [fill_cons, ih absent.2, List.getElem?_set_ne (Ne.symm absent.1)]

/-- A cell that is written once holds the value written. -/
theorem getElem?_fill_of_mem {writes : List (Nat × A)} (once : (writes.map Prod.fst).Nodup) {index : Nat}
    {value : A} (member : (index, value) ∈ writes) {cells : List A} (inside : index < cells.length) :
    (fill writes cells)[index]? = some value := by
  induction writes generalizing cells with
  | nil => exact (List.not_mem_nil member).elim
  | cons write rest ih =>
      rw [List.map_cons, List.nodup_cons] at once
      rw [fill_cons]
      rcases List.mem_cons.mp member with here | later
      · subst here
        rw [getElem?_fill_of_not_mem once.1, List.getElem?_set_self inside]
      · exact ih once.2 later (by rw [List.length_set]; exact inside)

/-- Groups of keys, each inside a part of its own, without repetition. -/
theorem nodup_keys_flatMap {groups : List B} {keys : B → List Nat} {part : B → Nat → Prop}
    (inside : ∀ group ∈ groups, ∀ key ∈ keys group, part group key)
    (each : ∀ group ∈ groups, (keys group).Nodup)
    (apart : groups.Pairwise fun left right => ∀ key, part left key → ¬ part right key) :
    (groups.flatMap keys).Nodup := by
  rw [List.nodup_flatMap]
  refine ⟨each, ?_⟩
  refine List.Pairwise.imp_of_mem (fun {left right} inLeft inRight separate => ?_) apart
  intro key leftKey rightKey
  exact separate key (inside left inLeft key leftKey) (inside right inRight key rightKey)

end Cpptb.Tables
