/-
Bit-vector terms with their meaning in SMT-LIB.

A term is built without a check of its sorts; `Term.eval` gives its value under an assignment of the
constants, and no value to an ill-sorted term. Division by zero is as in the theory of fixed-size
bit-vectors: the remainder of a division by zero is the dividend. Only the operators that some
translation needs are here.
-/

import Mathlib

namespace Cpptb.Smt

/-- A value of the sort `Bool` or of a sort `(_ BitVec width)`. -/
inductive Value
  | bool (value : Bool)
  | bv (width : ℕ) (value : BitVec width)
  deriving DecidableEq

/-- Operators from two bit-vectors of one width to a third. -/
inductive BvOp
  | bvadd
  | bvsub
  | bvmul
  | bvurem
  | bvsrem
  deriving DecidableEq, Repr

/-- Relations of two bit-vectors of one width. -/
inductive BvRel
  | eq
  | distinct
  | bvult
  | bvule
  | bvugt
  | bvuge
  | bvslt
  | bvsle
  | bvsgt
  | bvsge
  deriving DecidableEq, Repr

/-- Terms. The constants of a sort `(_ BitVec width)` are numbered. -/
inductive Term
  | ofBool (value : Bool)
  | bvVal (value width : ℕ)
  | bvConst (index width : ℕ)
  | op (operator : BvOp) (left right : Term)
  | rel (relation : BvRel) (left right : Term)
  | not (term : Term)
  | and (left right : Term)
  | or (left right : Term)
  deriving DecidableEq, Repr

/-- The meaning of an operator. `bvurem` and `bvsrem` by zero are the dividend. -/
def BvOp.apply {width : ℕ} (op : BvOp) (x y : BitVec width) : BitVec width :=
  match op with
  | .bvadd => x + y
  | .bvsub => x - y
  | .bvmul => x * y
  | .bvurem => x % y
  | .bvsrem => x.srem y

/-- The meaning of a relation. -/
def BvRel.apply {width : ℕ} (rel : BvRel) (x y : BitVec width) : Bool :=
  match rel with
  | .eq => x == y
  | .distinct => x != y
  | .bvult => x.ult y
  | .bvule => x.ule y
  | .bvugt => y.ult x
  | .bvuge => y.ule x
  | .bvslt => x.slt y
  | .bvsle => x.sle y
  | .bvsgt => y.slt x
  | .bvsge => y.sle x

/-- A remainder by zero is the dividend. -/
theorem BvOp.urem_zero {width : ℕ} (x : BitVec width) : BvOp.bvurem.apply x 0 = x := by
  simp only [BvOp.apply, BitVec.ofNat_eq_ofNat, BitVec.umod_zero]

theorem BvOp.srem_zero {width : ℕ} (x : BitVec width) : BvOp.bvsrem.apply x 0 = x := by
  simp only [BvOp.apply, BitVec.ofNat_eq_ofNat, BitVec.srem_zero]

/-- A function of two bit-vector values, of one width. -/
def Value.onBv {α : Type} (f : (width : ℕ) → BitVec width → BitVec width → α) :
    Option Value → Option Value → Option α
  | some (.bv width x), some (.bv width' y) =>
      if width' = width then some (f width x (y.setWidth width)) else none
  | _, _ => none

/-- A function of two Boolean values. -/
def Value.onBool (f : Bool → Bool → Bool) : Option Value → Option Value → Option Value
  | some (.bool x), some (.bool y) => some (.bool (f x y))
  | _, _ => none

/-- The value of a term. -/
def Term.eval (assignment : (index width : ℕ) → BitVec width) : Term → Option Value
  | .ofBool value => some (.bool value)
  | .bvVal value width => some (.bv width (BitVec.ofNat width value))
  | .bvConst index width => some (.bv width (assignment index width))
  | .op operator left right =>
      Value.onBv (fun width x y => .bv width (operator.apply x y)) (left.eval assignment)
        (right.eval assignment)
  | .rel relation left right =>
      Value.onBv (fun _ x y => .bool (relation.apply x y)) (left.eval assignment) (right.eval assignment)
  | .not term =>
      match term.eval assignment with
      | some (.bool value) => some (.bool !value)
      | _ => none
  | .and left right => Value.onBool (· && ·) (left.eval assignment) (right.eval assignment)
  | .or left right => Value.onBool (· || ·) (left.eval assignment) (right.eval assignment)

section

variable {assignment : (index width : ℕ) → BitVec width} {left right : Term} {width : ℕ}

@[simp] theorem onBv_some {α : Type} (f : (width : ℕ) → BitVec width → BitVec width → α)
    (x y : BitVec width) :
    Value.onBv f (some (.bv width x)) (some (.bv width y)) = some (f width x y) := by
  simp only [Value.onBv, if_true, BitVec.setWidth_eq]

theorem eval_op (operator : BvOp) {x y : BitVec width} (lhs : left.eval assignment = some (.bv width x))
    (rhs : right.eval assignment = some (.bv width y)) :
    (Term.op operator left right).eval assignment = some (.bv width (operator.apply x y)) := by
  rw [Term.eval, lhs, rhs, onBv_some]

theorem eval_rel (relation : BvRel) {x y : BitVec width}
    (lhs : left.eval assignment = some (.bv width x))
    (rhs : right.eval assignment = some (.bv width y)) :
    (Term.rel relation left right).eval assignment = some (.bool (relation.apply x y)) := by
  rw [Term.eval, lhs, rhs, onBv_some]

theorem eval_not {x : Bool} (operand : left.eval assignment = some (.bool x)) :
    left.not.eval assignment = some (.bool !x) := by
  rw [Term.eval, operand]

theorem eval_and {x y : Bool} (lhs : left.eval assignment = some (.bool x))
    (rhs : right.eval assignment = some (.bool y)) :
    (left.and right).eval assignment = some (.bool (x && y)) := by
  rw [Term.eval, lhs, rhs]
  rfl

theorem eval_or {x y : Bool} (lhs : left.eval assignment = some (.bool x))
    (rhs : right.eval assignment = some (.bool y)) :
    (left.or right).eval assignment = some (.bool (x || y)) := by
  rw [Term.eval, lhs, rhs]
  rfl

/-- A disjunction built up by a loop. -/
theorem eval_foldl_or {α : Type} (items : List α) (term : α → Term) (holds : α → Bool) {start : Term}
    {x : Bool} (begun : start.eval assignment = some (.bool x))
    (each : ∀ item ∈ items, (term item).eval assignment = some (.bool (holds item))) :
    (items.foldl (fun result item => result.or (term item)) start).eval assignment =
      some (.bool (x || items.any holds)) := by
  induction items generalizing start x with
  | nil => rw [List.foldl_nil, begun, List.any_nil, Bool.or_false]
  | cons item rest ih =>
      have step := eval_or begun (each item List.mem_cons_self)
      rw [List.foldl_cons, ih step fun other member => each other (List.mem_cons_of_mem _ member),
        List.any_cons, Bool.or_assoc]

/-- A conjunction built up by a loop. -/
theorem eval_foldl_and {α : Type} (items : List α) (term : α → Term) (holds : α → Bool) {start : Term}
    {x : Bool} (begun : start.eval assignment = some (.bool x))
    (each : ∀ item ∈ items, (term item).eval assignment = some (.bool (holds item))) :
    (items.foldl (fun result item => result.and (term item)) start).eval assignment =
      some (.bool (x && items.all holds)) := by
  induction items generalizing start x with
  | nil => rw [List.foldl_nil, begun, List.all_nil, Bool.and_true]
  | cons item rest ih =>
      have step := eval_and begun (each item List.mem_cons_self)
      rw [List.foldl_cons, ih step fun other member => each other (List.mem_cons_of_mem _ member),
        List.all_cons, Bool.and_assoc]

end

end Cpptb.Smt
