/-
The terms that the Z3 backend builds, and what they mean.

`translateNode` follows `translate_node`, and `solverAssertions` lists what the solver is asked to
satisfy: the declared ranges, the supports of the distributions, the hard constraints and the `RandC`
exclusions. Terms have their SMT-LIB meaning.

* `translate_agrees`: an expression has one value in both backends unless a remainder in it divides a
  number other than zero by zero, where `evaluate_node` gives zero and `bvurem` and `bvsrem` give the
  dividend.
* `solver_accepts_iff`: with no such remainder, Z3 accepts exactly the assignments that satisfy the
  problem.
-/

import Cpptb.Lib.Smt
import Cpptb.Randomize.Soundness

namespace Cpptb.Randomize

open Segments Smt

/-! ### Translation -/

/-- `context.bv_val(normalize(raw, type), type.width)`. -/
def bvVal (type : ScalarType) (raw : Nat) : Term := .bvVal (type.normalize raw) type.width

/-- The operator of the term for an arithmetic expression. -/
def ArithmeticOp.operator (op : ArithmeticOp) (isSigned : Bool) : BvOp :=
  match op with
  | .add => .bvadd
  | .subtract => .bvsub
  | .multiply => .bvmul
  | .remainder => if isSigned then .bvsrem else .bvurem

/-- The relation of the term for a comparison. -/
def CompareOp.relation (op : CompareOp) (isSigned : Bool) : BvRel :=
  match op with
  | .equal => .eq
  | .notEqual => .distinct
  | .less => if isSigned then .bvslt else .bvult
  | .lessEqual => if isSigned then .bvsle else .bvule
  | .greater => if isSigned then .bvsgt else .bvugt
  | .greaterEqual => if isSigned then .bvsge else .bvuge

/-- `at_least`. -/
def atLeast (term bound : Term) (isSigned : Bool) : Term :=
  .rel (CompareOp.greaterEqual.relation isSigned) term bound

/-- `at_most`. -/
def atMost (term bound : Term) (isSigned : Bool) : Term :=
  .rel (CompareOp.lessEqual.relation isSigned) term bound

/-- The term for a value in a range. -/
def between (term : Term) (type : ScalarType) (range : RawRange) : Term :=
  (atLeast term (bvVal type range.minimum) type.isSigned).and
    (atMost term (bvVal type range.maximum) type.isSigned)

/-- `translate_node`. -/
def translateNode (constants : List Term) : ExprNode → Term
  | .constant type raw => bvVal type raw
  | .var _ index => constants.getD index (.ofBool false)
  | .logicalNot left => (translateNode constants left).not
  | .inside left ranges =>
      (ranges.getD []).foldl
        (fun result range => result.or (between (translateNode constants left) left.type range))
        (.ofBool false)
  | .arithmetic op type left right =>
      .op (op.operator type.isSigned) (translateNode constants left) (translateNode constants right)
  | .compare op left right =>
      .rel (op.relation left.type.isSigned) (translateNode constants left)
        (translateNode constants right)
  | .logicalAnd left right => (translateNode constants left).and (translateNode constants right)
  | .logicalOr left right => (translateNode constants left).or (translateNode constants right)

/-- `model->variables`. -/
def z3Constants (types : List ScalarType) : List Term :=
  types.zipIdx.map fun (type, index) => .bvConst index type.width

/-! ### What the solver is asked -/

/-- The range constraints of the variables. -/
def rangeAssertions (problem : ConstraintProblem) : List Term :=
  problem.vars.zipIdx.flatMap fun (descriptor, index) =>
    let term := (z3Constants problem.types).getD index (.ofBool false)
    [atLeast term (bvVal descriptor.type descriptor.minimumRaw) descriptor.type.isSigned,
      atMost term (bvVal descriptor.type descriptor.maximumRaw) descriptor.type.isSigned]

/-- `supported`: the value is in an entry with a weight. -/
def supported (term : Term) (type : ScalarType) (entries : List WeightedRange) : Term :=
  (entries.filter fun entry => entry.weight != 0).foldl
    (fun result entry => result.or (between term type entry.range)) (.ofBool false)

/-- One round of the loop over the distributions, with `distributed`. -/
def addDistribution (problem : ConstraintProblem) (state : List Bool × List Term)
    (distribution : NamedDistribution) : Except String (List Bool × List Term) :=
  let (distributed, terms) := state
  let target := distribution.expression.variableIndex
  match distributed[target]?, problem.vars[target]? with
  | some false, some descriptor =>
      let term := (z3Constants problem.types).getD target (.ofBool false)
      .ok (distributed.set target true,
        terms ++ [supported term descriptor.type distribution.expression.entries])
  | some true, _ =>
      .error ("multiple active distributions target '" ++ problem.names.getD target "" ++ "'")
  | _, _ => .error "Z3 distribution references an unknown variable"

/-- One round of the loop over the constraints. The soft ones are tried later. -/
def addConstraint (problem : ConstraintProblem) (terms : List Term) (constraint : NamedConstraint) :
    Except String (List Term) :=
  match constraint.expression with
  | none => .error "Z3 received an empty constraint expression"
  | some node =>
      if constraint.soft then .ok terms
      else .ok (terms ++ [translateNode (z3Constants problem.types) node])

/-- `exclusions` of a variable. -/
def exclusions (constant : Term) (type : ScalarType) (excludedRaw : List Nat) : Term :=
  excludedRaw.foldl
    (fun exclusions raw => exclusions.and (.rel .distinct constant (bvVal type raw))) (.ofBool true)

/-- The exclusions of the variables that have some. -/
def exclusionAssertions (problem : ConstraintProblem) : List Term :=
  problem.vars.zipIdx.filterMap fun (descriptor, index) =>
    if descriptor.excludedRaw.isEmpty then none
    else
      some (exclusions ((z3Constants problem.types).getD index (.ofBool false)) descriptor.type
        descriptor.excludedRaw)

/-- Everything that is asserted when the solver is first asked, by `build_model` and
`solve_with_z3`. -/
def solverAssertions (problem : ConstraintProblem) : Except String (List Term) := do
  let (_, supports) ← problem.distributions.foldlM (addDistribution problem)
    (List.replicate problem.vars.length false, [])
  let hard ← problem.constraints.foldlM (addConstraint problem) []
  return rangeAssertions problem ++ supports ++ hard ++ exclusionAssertions problem

/-! ### Values -/

/-- An assignment as values of the bit-vector constants. -/
def assignmentOf (values : List Nat) (index width : Nat) : BitVec width :=
  BitVec.ofNat width (values.getD index 0)

/-- What `evaluate_node` says of an expression, as a value of the term for it. -/
def evaluatedValue (values : List Nat) (node : ExprNode) : Value :=
  match node with
  | .constant type _ | .var type _ | .arithmetic _ type _ _ =>
      .bv type.width (BitVec.ofNat type.width (evaluateNode values node).raw)
  | .compare .. | .logicalAnd .. | .logicalOr .. | .logicalNot .. | .inside .. =>
      .bool ((evaluateNode values node).raw != 0)

/-- The two backends give the expression one value. -/
def Agrees (types : List ScalarType) (values : List Nat) (node : ExprNode) : Prop :=
  (translateNode (z3Constants types) node).eval (assignmentOf values) =
    some (evaluatedValue values node)

/-- The expression and the expressions in it. -/
def ExprNode.subexpressions : ExprNode → List ExprNode
  | node@(.constant ..) => [node]
  | node@(.var ..) => [node]
  | node@(.logicalNot left) => node :: left.subexpressions
  | node@(.inside left _) => node :: left.subexpressions
  | node@(.arithmetic _ _ left right) => node :: (left.subexpressions ++ right.subexpressions)
  | node@(.compare _ left right) => node :: (left.subexpressions ++ right.subexpressions)
  | node@(.logicalAnd left right) => node :: (left.subexpressions ++ right.subexpressions)
  | node@(.logicalOr left right) => node :: (left.subexpressions ++ right.subexpressions)

/-- No remainder in the expression divides a number other than zero by zero. -/
def remaindersDefined (values : List Nat) : ExprNode → Bool
  | .constant .. | .var .. => true
  | .logicalNot left | .inside left _ => remaindersDefined values left
  | .arithmetic op _ left right =>
      remaindersDefined values left && remaindersDefined values right &&
        (op != .remainder || (evaluateNode values right).raw != 0 ||
          (evaluateNode values left).raw == 0)
  | .compare _ left right | .logicalAnd left right | .logicalOr left right =>
      remaindersDefined values left && remaindersDefined values right

/-! ### Bit-vectors of a scalar type -/

namespace ScalarType

variable (type : ScalarType)

/-- The bit-vector of a number. -/
def bits (raw : Nat) : BitVec type.width := BitVec.ofNat type.width raw

theorem toNat_bits {raw : Nat} (small : raw < type.count) : (type.bits raw).toNat = raw := by
  rw [bits, BitVec.toNat_ofNat]
  exact Nat.mod_eq_of_lt small

theorem bits_eq_iff (left right : Nat) :
    type.bits left = type.bits right ↔ type.normalize left = type.normalize right := by
  rw [normalize_eq, normalize_eq, ← BitVec.toNat_inj, bits, bits, BitVec.toNat_ofNat,
    BitVec.toNat_ofNat, count]

@[simp] theorem bits_normalize (raw : Nat) : type.bits (type.normalize raw) = type.bits raw :=
  (type.bits_eq_iff _ _).mpr (type.normalize_normalize raw)

@[simp] theorem bits_mod (raw : Nat) : type.bits (raw % 2 ^ 64) = type.bits raw := by
  rw [bits_eq_iff, normalize_eq, normalize_eq, Nat.mod_mod_of_dvd _ type.count_dvd]

theorem toInt_bits (signed : type.isSigned = true) {raw : Nat} (small : raw < type.count) :
    (type.bits raw).toInt = type.signedRaw raw := by
  have half := type.count_eq
  rw [signedRaw_eq type signed, normalize_of_lt type small, BitVec.toInt_eq_toNat_cond,
    toNat_bits type small]
  by_cases low : raw < type.sign
  · rw [if_pos low, if_pos (show 2 * raw < 2 ^ type.width from by rw [← count, half]; omega)]
  · rw [if_neg low, if_neg (show ¬ 2 * raw < 2 ^ type.width from by rw [← count, half]; omega), count]

/-- A comparison of bit-vectors compares ordered values. -/
theorem relation_bits (op : CompareOp) {left right : Nat} (lhs : left < type.count)
    (rhs : right < type.count) :
    (op.relation type.isSigned).apply (type.bits left) (type.bits right) =
      op.apply (type.orderedRaw left) (type.orderedRaw right) := by
  have same : type.bits left = type.bits right ↔ type.orderedRaw left = type.orderedRaw right := by
    rw [bits_eq_iff, orderedRaw_inj]
  have natural : ∀ raw, type.isSigned = false → raw < type.count → type.orderedRaw raw = raw := by
    intro raw unsigned small
    rw [orderedRaw, unsigned, if_neg Bool.false_ne_true, normalize_of_lt type small]
  rcases Bool.eq_false_or_eq_true type.isSigned with signed | unsigned
  · have left' := type.toInt_bits signed lhs
    have right' := type.toInt_bits signed rhs
    rw [signedRaw_eq_orderedRaw type signed] at left' right'
    rw [Bool.eq_iff_iff]
    cases op <;>
      simp only [CompareOp.relation, signed, if_true, BvRel.apply, CompareOp.apply, beq_iff_eq,
        bne_iff_ne, ne_eq, same, BitVec.slt_eq_decide, BitVec.sle_eq_decide, left', right',
        decide_eq_true_eq] <;> omega
  · have left' := natural left unsigned lhs
    have right' := natural right unsigned rhs
    rw [Bool.eq_iff_iff]
    cases op <;>
      simp only [CompareOp.relation, unsigned, Bool.false_eq_true, if_false, BvRel.apply,
        CompareOp.apply, beq_iff_eq, bne_iff_ne, ne_eq, same, BitVec.ult_eq_decide,
        BitVec.ule_eq_decide, toNat_bits type lhs, toNat_bits type rhs, left', right',
        decide_eq_true_eq] <;> omega

theorem bits_add (left right : Nat) : type.bits (left + right) = type.bits left + type.bits right :=
  BitVec.ofNat_add left right

theorem bits_mul (left right : Nat) : type.bits (left * right) = type.bits left * type.bits right :=
  BitVec.ofNat_mul left right

/-- Subtraction modulo `2 ^ 64` is subtraction modulo the number of values. -/
theorem bits_sub (left : Nat) {right : Nat} (small : right < type.count) :
    type.bits (2 ^ 64 + left - right) = type.bits left - type.bits right := by
  have bound := type.count_le
  have whole : type.bits (2 ^ 64 + left) = type.bits left := by
    rw [← bits_mod, Nat.add_mod_left, bits_mod]
  rw [BitVec.eq_sub_iff_add_eq, ← bits_add, Nat.sub_add_cancel (by omega), whole]

/-- The remainder of `evaluate_node` is `bvurem` or `bvsrem`, unless it divides by zero. -/
theorem bits_remainder {left right : Nat} (lhs : left < type.count) (rhs : right < type.count)
    (nonzero : right ≠ 0) :
    type.bits (evaluateRemainder type left right).raw =
      (ArithmeticOp.remainder.operator type.isSigned).apply (type.bits left) (type.bits right) := by
  unfold evaluateRemainder
  rw [if_neg nonzero]
  rcases Bool.eq_false_or_eq_true type.isSigned with signed | unsigned
  · simp only [signed, if_true, bits_normalize, ArithmeticOp.operator, BvOp.apply]
    have whole : (if type.signedRaw left = -2 ^ 63 ∧ type.signedRaw right = -1 then (0 : Int)
        else (type.signedRaw left).tmod (type.signedRaw right)) =
        (type.signedRaw left).tmod (type.signedRaw right) := by
      split
      · rename_i extreme
        rw [extreme.1, extreme.2]
        decide
      · rfl
    have cast : ∀ value : Int, type.bits (bitCastUnsigned value) = BitVec.ofInt type.width value := by
      intro value
      rw [← bits_normalize, ← BitVec.toNat_inj, toNat_bits type (type.normalize_lt _),
        BitVec.toNat_ofInt, ← Int.toNat_natCast (type.normalize _), normalize_bitCastUnsigned, count]
    rw [whole, cast, ← type.toInt_bits signed lhs, ← type.toInt_bits signed rhs,
      ← BitVec.toInt_srem, BitVec.ofInt_toInt]
  · simp only [unsigned, Bool.false_eq_true, if_false, bits_normalize, ArithmeticOp.operator,
      BvOp.apply]
    rw [← BitVec.toNat_inj, BitVec.toNat_umod, toNat_bits type lhs, toNat_bits type rhs,
      toNat_bits type ((Nat.mod_le _ _).trans_lt lhs)]

/-- A remainder by zero is the dividend in the solver. -/
theorem remainder_bits_zero (left : Nat) :
    (ArithmeticOp.remainder.operator type.isSigned).apply (type.bits left) (type.bits 0) =
      type.bits left := by
  have zero : type.bits 0 = 0 := rfl
  rw [zero]
  rcases Bool.eq_false_or_eq_true type.isSigned with signed | unsigned
  · simp only [signed, ArithmeticOp.operator, if_true]
    exact BvOp.srem_zero _
  · simp only [unsigned, ArithmeticOp.operator, Bool.false_eq_true, if_false]
    exact BvOp.urem_zero _

/-- The remainders agree exactly when a zero divisor has a zero dividend. -/
theorem bits_remainder_iff {left right : Nat} (lhs : left < type.count) (rhs : right < type.count) :
    type.bits (evaluateRemainder type left right).raw =
        (ArithmeticOp.remainder.operator type.isSigned).apply (type.bits left) (type.bits right) ↔
      (right = 0 → left = 0) := by
  by_cases zero : right = 0
  · subst zero
    have evaluated : (evaluateRemainder type left 0).raw = 0 := rfl
    rw [evaluated, remainder_bits_zero, bits_eq_iff, normalize_of_lt type rhs,
      normalize_of_lt type lhs]
    exact ⟨fun same _ => same.symm, fun same => (same rfl).symm⟩
  · exact iff_of_true (type.bits_remainder lhs rhs zero) fun isZero => absurd isZero zero

end ScalarType

/-! ### Expressions -/

section

variable {types : List ScalarType} {type : ScalarType} {node left right : ExprNode}
  {values : List Nat}

/-- The constant of a variable has the bits of its value. -/
theorem eval_z3Constants {index : Nat} (declared : types[index]? = some type) :
    ((z3Constants types).getD index (.ofBool false)).eval (assignmentOf values) =
      some (.bv type.width (type.bits (values.getD index 0))) := by
  have constant : (z3Constants types)[index]? = some (.bvConst index type.width) := by
    rw [z3Constants, List.getElem?_map, List.getElem?_zipIdx, declared]
    simp only [Option.map_some, Nat.zero_add]
  rw [List.getD_eq_getElem?_getD, constant]
  rfl

/-- The term of a comparison of two values. -/
theorem eval_relation (op : CompareOp) {term bound : Term} {lhs rhs : Nat}
    (lhsSmall : lhs < type.count) (rhsSmall : rhs < type.count)
    (evalLhs : term.eval (assignmentOf values) = some (.bv type.width (type.bits lhs)))
    (evalRhs : bound.eval (assignmentOf values) = some (.bv type.width (type.bits rhs))) :
    (Term.rel (op.relation type.isSigned) term bound).eval (assignmentOf values) =
      some (.bool (op.apply (type.orderedRaw lhs) (type.orderedRaw rhs))) := by
  rw [eval_rel _ evalLhs evalRhs, type.relation_bits op lhsSmall rhsSmall]

theorem eval_bvVal (raw : Nat) : (bvVal type raw).eval (assignmentOf values) =
    some (.bv type.width (type.bits (type.normalize raw))) := rfl

/-- The terms of the bounds of a value compare ordered values. -/
theorem eval_atLeast {term : Term} {raw bound : Nat} (small : raw < type.count)
    (eval : term.eval (assignmentOf values) = some (.bv type.width (type.bits raw))) :
    (atLeast term (bvVal type bound) type.isSigned).eval (assignmentOf values) =
      some (.bool (type.orderedRaw bound ≤ type.orderedRaw raw)) := by
  rw [atLeast, eval_relation _ small (type.normalize_lt bound) eval (eval_bvVal bound),
    type.orderedRaw_normalize]
  rfl

theorem eval_atMost {term : Term} {raw bound : Nat} (small : raw < type.count)
    (eval : term.eval (assignmentOf values) = some (.bv type.width (type.bits raw))) :
    (atMost term (bvVal type bound) type.isSigned).eval (assignmentOf values) =
      some (.bool (type.orderedRaw raw ≤ type.orderedRaw bound)) := by
  rw [atMost, eval_relation _ small (type.normalize_lt bound) eval (eval_bvVal bound),
    type.orderedRaw_normalize]
  rfl

/-- The range of a value in ordered values. -/
theorem eval_between {term : Term} {raw : Nat} (range : RawRange) (small : raw < type.count)
    (eval : term.eval (assignmentOf values) = some (.bv type.width (type.bits raw))) :
    (between term type range).eval (assignmentOf values) =
      some (.bool (type.orderedRaw range.minimum ≤ type.orderedRaw raw &&
        type.orderedRaw raw ≤ type.orderedRaw range.maximum)) :=
  eval_and (eval_atLeast small eval) (eval_atMost small eval)

/-- What agreement says of a value expression. -/
theorem ValueExpr.agrees_iff (built : ValueExpr types type node) :
    Agrees types values node ↔
      (translateNode (z3Constants types) node).eval (assignmentOf values) =
        some (.bv type.width (type.bits (evaluateNode values node).raw)) := by
  cases built <;> exact Iff.rfl

/-- What agreement says of a constraint. -/
theorem ConstraintExpr.agrees_iff (built : ConstraintExpr types node) :
    Agrees types values node ↔
      (translateNode (z3Constants types) node).eval (assignmentOf values) =
        some (.bool (evaluateNode values node).boolean) := by
  have same : ((evaluateNode values node).raw != 0) = (evaluateNode values node).boolean := by
    rw [Bool.eq_iff_iff, bne_iff_ne]
    exact built.raw_ne_zero_iff values
  unfold Agrees
  cases built <;> (simp only [evaluatedValue]; rw [same])

/-- The value of an arithmetic expression whose operands agree. -/
theorem agrees_arithmetic (op : ArithmeticOp) (lhs : ValueExpr types type left)
    (rhs : ValueExpr types type right) (agreesLeft : Agrees types values left)
    (agreesRight : Agrees types values right) :
    Agrees types values (.arithmetic op type left right) ↔
      (op = .remainder → (evaluateNode values right).raw = 0 → (evaluateNode values left).raw = 0) := by
  have term := eval_op (op.operator type.isSigned) (lhs.agrees_iff.mp agreesLeft)
    (rhs.agrees_iff.mp agreesRight)
  rw [(lhs.arithmetic op rhs).agrees_iff]
  rw [show translateNode (z3Constants types) (.arithmetic op type left right) =
    .op (op.operator type.isSigned) (translateNode (z3Constants types) left)
      (translateNode (z3Constants types) right) from rfl, term]
  simp only [Option.some.injEq, Value.bv.injEq, heq_eq_eq, true_and]
  have other : op ≠ .remainder →
      ((op.operator type.isSigned).apply (type.bits (evaluateNode values left).raw)
        (type.bits (evaluateNode values right).raw) =
        type.bits (evaluateNode values (.arithmetic op type left right)).raw) →
      ((op.operator type.isSigned).apply (type.bits (evaluateNode values left).raw)
        (type.bits (evaluateNode values right).raw) =
        type.bits (evaluateNode values (.arithmetic op type left right)).raw ↔
        (op = .remainder → (evaluateNode values right).raw = 0 →
          (evaluateNode values left).raw = 0)) := fun notRemainder same =>
    iff_of_true same fun isRemainder => absurd isRemainder notRemainder
  cases op with
  | add =>
      refine other (by decide) ?_
      simp only [evaluateNode, type.bits_normalize, type.bits_mod, type.bits_add]
      rfl
  | subtract =>
      refine other (by decide) ?_
      simp only [evaluateNode, type.bits_normalize, type.bits_mod,
        type.bits_sub _ (rhs.normal values)]
      rfl
  | multiply =>
      refine other (by decide) ?_
      simp only [evaluateNode, type.bits_normalize, type.bits_mod, type.bits_mul]
      rfl
  | remainder =>
      rw [eq_comm]
      exact (type.bits_remainder_iff (lhs.normal values) (rhs.normal values)).trans
        ⟨fun zero _ => zero, fun zero => zero rfl⟩

/-- What `remaindersDefined` asks of an arithmetic expression. -/
theorem remaindersDefined_arithmetic {op : ArithmeticOp} :
    remaindersDefined values (.arithmetic op type left right) = true ↔
      remaindersDefined values left = true ∧ remaindersDefined values right = true ∧
        (op = .remainder → (evaluateNode values right).raw = 0 →
          (evaluateNode values left).raw = 0) := by
  simp only [remaindersDefined, Bool.and_eq_true, Bool.or_eq_true, bne_iff_ne, beq_iff_eq, and_assoc]
  refine and_congr_right fun _ => and_congr_right fun _ => ?_
  constructor
  · rintro ((other | nonzero) | zero) isRemainder isZero
    · exact absurd isRemainder other
    · exact absurd isZero nonzero
    · exact zero
  · intro zero
    by_cases isRemainder : op = .remainder
    · by_cases isZero : (evaluateNode values right).raw = 0
      · exact Or.inr (zero isRemainder isZero)
      · exact Or.inl (Or.inr isZero)
    · exact Or.inl (Or.inl isRemainder)

/-- An expression with no remainder by zero has one value in both backends. -/
theorem ValueExpr.agrees (built : ValueExpr types type node)
    (defined : remaindersDefined values node = true) : Agrees types values node := by
  induction built with
  | constant raw =>
      refine (ValueExpr.constant raw).agrees_iff.mpr ?_
      rw [translateNode, eval_bvVal]
      rfl
  | @var index declared =>
      refine (ValueExpr.var declared).agrees_iff.mpr ?_
      rw [translateNode, eval_z3Constants declared, evaluateNode, type.bits_normalize]
  | arithmetic op lhs rhs agreesLeft agreesRight =>
      obtain ⟨definedLeft, definedRight, divides⟩ := remaindersDefined_arithmetic.mp defined
      exact (agrees_arithmetic op lhs rhs (agreesLeft definedLeft) (agreesRight definedRight)).mpr
        divides

/-- A constraint with no remainder by zero is true in both backends or in neither. -/
theorem ConstraintExpr.agrees (built : ConstraintExpr types node)
    (defined : remaindersDefined values node = true) : Agrees types values node := by
  induction built with
  | @compare op type left right lhs rhs =>
      refine (ConstraintExpr.compare op lhs rhs).agrees_iff.mpr ?_
      simp only [remaindersDefined, Bool.and_eq_true] at defined
      rw [lhs.compare_iff op rhs, translateNode, lhs.type_eq]
      exact eval_relation op (lhs.normal values) (rhs.normal values)
        (lhs.agrees_iff.mp (lhs.agrees defined.1)) (rhs.agrees_iff.mp (rhs.agrees defined.2))
  | logicalAnd lhs rhs agreesLeft agreesRight =>
      refine (ConstraintExpr.logicalAnd lhs rhs).agrees_iff.mpr ?_
      simp only [remaindersDefined, Bool.and_eq_true] at defined
      exact eval_and (lhs.agrees_iff.mp (agreesLeft defined.1))
        (rhs.agrees_iff.mp (agreesRight defined.2))
  | logicalOr lhs rhs agreesLeft agreesRight =>
      refine (ConstraintExpr.logicalOr lhs rhs).agrees_iff.mpr ?_
      simp only [remaindersDefined, Bool.and_eq_true] at defined
      exact eval_or (lhs.agrees_iff.mp (agreesLeft defined.1))
        (rhs.agrees_iff.mp (agreesRight defined.2))
  | logicalNot lhs agreesLeft =>
      refine (ConstraintExpr.logicalNot lhs).agrees_iff.mpr ?_
      exact eval_not (lhs.agrees_iff.mp (agreesLeft defined))
  | @inside type left lhs ranges =>
      refine (ConstraintExpr.inside lhs ranges).agrees_iff.mpr ?_
      have value := lhs.agrees_iff.mp (lhs.agrees defined)
      rw [translateNode, lhs.type_eq, Option.getD_some, eval_foldl_or ranges _ _ rfl fun range _ =>
        eval_between range (lhs.normal values) value, evaluateNode, lhs.type_eq]
      rfl

theorem subexpressions_self (node : ExprNode) : node ∈ node.subexpressions := by
  cases node <;> exact List.mem_cons_self

/-- The operands of an expression that agrees throughout agree throughout. -/
theorem agrees_operands (same : node.subexpressions = node :: (left.subexpressions ++ right.subexpressions))
    (agrees : ∀ sub ∈ node.subexpressions, Agrees types values sub) :
    (∀ sub ∈ left.subexpressions, Agrees types values sub) ∧
      ∀ sub ∈ right.subexpressions, Agrees types values sub := by
  rw [same] at agrees
  exact ⟨fun sub member => agrees sub (List.mem_cons_of_mem _ (List.mem_append_left _ member)),
    fun sub member => agrees sub (List.mem_cons_of_mem _ (List.mem_append_right _ member))⟩

/-- Where every value expression has one value in both backends, no remainder divides a number other
than zero by zero. -/
theorem ValueExpr.defined (built : ValueExpr types type node)
    (agrees : ∀ sub ∈ node.subexpressions, Agrees types values sub) :
    remaindersDefined values node = true := by
  induction built with
  | constant raw => rfl
  | var declared => rfl
  | @arithmetic op left right lhs rhs definedLeft definedRight =>
      obtain ⟨inLeft, inRight⟩ := agrees_operands rfl agrees
      have here := (agrees_arithmetic op lhs rhs (inLeft left (subexpressions_self left))
        (inRight right (subexpressions_self right))).mp (agrees _ (subexpressions_self _))
      exact remaindersDefined_arithmetic.mpr ⟨definedLeft inLeft, definedRight inRight, here⟩

theorem ConstraintExpr.defined (built : ConstraintExpr types node)
    (agrees : ∀ sub ∈ node.subexpressions, Agrees types values sub) :
    remaindersDefined values node = true := by
  induction built with
  | compare op lhs rhs =>
      obtain ⟨inLeft, inRight⟩ := agrees_operands rfl agrees
      exact Bool.and_eq_true_iff.mpr ⟨lhs.defined inLeft, rhs.defined inRight⟩
  | logicalAnd _ _ definedLeft definedRight =>
      obtain ⟨inLeft, inRight⟩ := agrees_operands rfl agrees
      exact Bool.and_eq_true_iff.mpr ⟨definedLeft inLeft, definedRight inRight⟩
  | logicalOr _ _ definedLeft definedRight =>
      obtain ⟨inLeft, inRight⟩ := agrees_operands rfl agrees
      exact Bool.and_eq_true_iff.mpr ⟨definedLeft inLeft, definedRight inRight⟩
  | logicalNot _ definedLeft =>
      exact definedLeft fun sub member => agrees sub (List.mem_cons_of_mem _ member)
  | inside lhs ranges =>
      exact lhs.defined fun sub member => agrees sub (List.mem_cons_of_mem _ member)

/-- An expression agrees throughout when it agrees and its operands agree throughout. -/
theorem agrees_throughout
    (same : node.subexpressions = node :: (left.subexpressions ++ right.subexpressions))
    (here : Agrees types values node) (inLeft : ∀ sub ∈ left.subexpressions, Agrees types values sub)
    (inRight : ∀ sub ∈ right.subexpressions, Agrees types values sub) :
    ∀ sub ∈ node.subexpressions, Agrees types values sub := by
  rw [same]
  intro sub member
  rcases List.mem_cons.mp member with rfl | operand
  · exact here
  · exact (List.mem_append.mp operand).elim (inLeft sub) (inRight sub)

theorem ValueExpr.agrees_subexpressions (built : ValueExpr types type node)
    (defined : remaindersDefined values node = true) :
    ∀ sub ∈ node.subexpressions, Agrees types values sub := by
  induction built with
  | constant raw =>
      intro sub member
      exact List.mem_singleton.mp member ▸ (ValueExpr.constant raw).agrees defined
  | var declared =>
      intro sub member
      exact List.mem_singleton.mp member ▸ (ValueExpr.var declared).agrees defined
  | arithmetic op lhs rhs inLeft inRight =>
      obtain ⟨definedLeft, definedRight, -⟩ := remaindersDefined_arithmetic.mp defined
      exact agrees_throughout rfl ((ValueExpr.arithmetic op lhs rhs).agrees defined)
        (inLeft definedLeft) (inRight definedRight)

/-- A constraint agrees throughout exactly when no remainder in it divides a number other than zero by
zero. -/
theorem ConstraintExpr.agrees_subexpressions_iff (built : ConstraintExpr types node) :
    (∀ sub ∈ node.subexpressions, Agrees types values sub) ↔
      remaindersDefined values node = true := by
  refine ⟨built.defined, fun defined => ?_⟩
  induction built with
  | compare op lhs rhs =>
      obtain ⟨definedLeft, definedRight⟩ := Bool.and_eq_true_iff.mp defined
      exact agrees_throughout rfl ((ConstraintExpr.compare op lhs rhs).agrees defined)
        (lhs.agrees_subexpressions definedLeft) (rhs.agrees_subexpressions definedRight)
  | logicalAnd lhs rhs inLeft inRight =>
      obtain ⟨definedLeft, definedRight⟩ := Bool.and_eq_true_iff.mp defined
      exact agrees_throughout rfl ((ConstraintExpr.logicalAnd lhs rhs).agrees defined)
        (inLeft definedLeft) (inRight definedRight)
  | logicalOr lhs rhs inLeft inRight =>
      obtain ⟨definedLeft, definedRight⟩ := Bool.and_eq_true_iff.mp defined
      exact agrees_throughout rfl ((ConstraintExpr.logicalOr lhs rhs).agrees defined)
        (inLeft definedLeft) (inRight definedRight)
  | logicalNot lhs inLeft =>
      intro sub member
      rcases List.mem_cons.mp member with rfl | operand
      · exact (ConstraintExpr.logicalNot lhs).agrees defined
      · exact inLeft defined sub operand
  | inside lhs ranges =>
      intro sub member
      rcases List.mem_cons.mp member with rfl | operand
      · exact (ConstraintExpr.inside lhs ranges).agrees defined
      · exact lhs.agrees_subexpressions defined sub operand

end

/-! ### What the solver accepts -/

/-- The assignment makes every assertion true. -/
def Accepted (values : List Nat) (terms : List Term) : Prop :=
  ∀ term ∈ terms, term.eval (assignmentOf values) = some (.bool true)

/-- Every value is a raw value of its variable's type. -/
def Normal (problem : ConstraintProblem) (values : List Nat) : Prop :=
  ∀ (index : Nat) (descriptor : VariableDescriptor), problem.vars[index]? = some descriptor →
    values.getD index 0 < descriptor.type.count

/-- The value of the variable lies in its declared range. -/
def InRange (values : List Nat) (index : Nat) (descriptor : VariableDescriptor) : Prop :=
  descriptor.type.orderedRaw descriptor.minimumRaw ≤ orderedValue descriptor.type values index ∧
    orderedValue descriptor.type values index ≤ descriptor.type.orderedRaw descriptor.maximumRaw

/-- The value of the distribution's variable has a positive weight. -/
def HasWeight (values : List Nat) (distribution : NamedDistribution)
    (descriptor : VariableDescriptor) : Prop :=
  ∃ entry ∈ distribution.expression.entries, entry.weight ≠ 0 ∧
    (entry.ordered descriptor.type).Has
      (orderedValue descriptor.type values distribution.expression.variableIndex)

section

variable {problem : ConstraintProblem} {values : List Nat}

theorem accepted_nil : Accepted values [] := fun _ member => (List.not_mem_nil member).elim

theorem accepted_append {left right : List Term} :
    Accepted values (left ++ right) ↔ Accepted values left ∧ Accepted values right := by
  simp only [Accepted, List.mem_append, or_imp, forall_and]

theorem accepted_singleton {term : Term} :
    Accepted values [term] ↔ term.eval (assignmentOf values) = some (.bool true) := by
  simp only [Accepted, List.mem_singleton, forall_eq]

/-- The constant of a variable of the problem. -/
theorem eval_constantOf (values : List Nat) {index : Nat} {descriptor : VariableDescriptor}
    (here : problem.vars[index]? = some descriptor) :
    ((z3Constants problem.types).getD index (.ofBool false)).eval (assignmentOf values) =
      some (.bv descriptor.type.width (descriptor.type.bits (values.getD index 0))) :=
  eval_z3Constants (typeAt.mpr ⟨descriptor, here, rfl⟩)

/-- The range constraints hold exactly of the declared ranges. -/
theorem accepted_ranges_iff (normal : Normal problem values) :
    Accepted values (rangeAssertions problem) ↔
      ∀ (index : Nat) (descriptor : VariableDescriptor),
        problem.vars[index]? = some descriptor → InRange values index descriptor := by
  have each : ∀ (index : Nat) (descriptor : VariableDescriptor)
      (_ : problem.vars[index]? = some descriptor),
      Accepted values
        [atLeast ((z3Constants problem.types).getD index (.ofBool false))
          (bvVal descriptor.type descriptor.minimumRaw) descriptor.type.isSigned,
        atMost ((z3Constants problem.types).getD index (.ofBool false))
          (bvVal descriptor.type descriptor.maximumRaw) descriptor.type.isSigned] ↔
        InRange values index descriptor := by
    intro index descriptor here
    have small := normal index descriptor here
    have value := eval_constantOf values here
    simp only [Accepted, List.mem_cons, List.not_mem_nil, or_false, forall_eq_or_imp, forall_eq,
      eval_atLeast small value, eval_atMost small value, Option.some.injEq, Value.bool.injEq,
      decide_eq_true_eq]
    exact Iff.rfl
  constructor
  · intro accepted index descriptor here
    refine (each index descriptor here).mp fun term member => accepted term ?_
    exact List.mem_flatMap.mpr ⟨(descriptor, index), List.mem_zipIdx_iff_getElem?.mpr here, member⟩
  · intro inRange term member
    obtain ⟨⟨descriptor, index⟩, found, inPair⟩ := List.mem_flatMap.mp member
    have here := List.mem_zipIdx_iff_getElem?.mp found
    exact (each index descriptor here).mpr (inRange index descriptor here) term inPair

/-- The constraint of a distribution holds exactly of the values of positive weight. -/
theorem supported_iff (normal : Normal problem values) {distribution : NamedDistribution}
    {descriptor : VariableDescriptor}
    (here : problem.vars[distribution.expression.variableIndex]? = some descriptor) :
    (supported ((z3Constants problem.types).getD distribution.expression.variableIndex
        (.ofBool false)) descriptor.type distribution.expression.entries).eval (assignmentOf values) =
          some (.bool true) ↔ HasWeight values distribution descriptor := by
  rw [supported, eval_foldl_or _ _ _ rfl fun entry _ =>
    eval_between entry.range (normal _ descriptor here) (eval_constantOf values here)]
  simp only [Bool.false_or, Option.some.injEq, Value.bool.injEq, List.any_eq_true, List.mem_filter,
    bne_iff_ne, Bool.and_eq_true, decide_eq_true_eq, and_assoc]
  exact Iff.rfl

theorem accepted_supports {distributions : List NamedDistribution} (normal : Normal problem values)
    {distributed distributed' : List Bool} {terms terms' : List Term}
    (added : distributions.foldlM (addDistribution problem) (distributed, terms) =
      .ok (distributed', terms')) :
    Accepted values terms' ↔ Accepted values terms ∧
      ∀ distribution ∈ distributions, ∀ descriptor,
        problem.vars[distribution.expression.variableIndex]? = some descriptor →
          HasWeight values distribution descriptor := by
  induction distributions generalizing distributed terms with
  | nil =>
      obtain ⟨-, rfl⟩ := Prod.mk.inj (Except.ok.inj added)
      exact ⟨fun accepted => ⟨accepted, fun _ member => (List.not_mem_nil member).elim⟩, And.left⟩
  | cons distribution rest ih =>
      rw [List.foldlM_cons] at added
      cases first : addDistribution problem (distributed, terms) distribution with
      | error message =>
          rw [first] at added
          cases added
      | ok state =>
          rw [first] at added
          unfold addDistribution at first
          simp only at first
          split at first
          · rename_i descriptor free here
            obtain rfl := Except.ok.inj first
            rw [ih added, accepted_append, accepted_singleton, supported_iff normal here]
            constructor
            · rintro ⟨⟨accepted, weight⟩, later⟩
              refine ⟨accepted, fun other member descriptor' here' => ?_⟩
              rcases List.mem_cons.mp member with rfl | inRest
              · exact Option.some.inj (here.symm.trans here') ▸ weight
              · exact later other inRest descriptor' here'
            · rintro ⟨accepted, weights⟩
              exact ⟨⟨accepted, weights distribution List.mem_cons_self descriptor here⟩,
                fun other member => weights other (List.mem_cons_of_mem _ member)⟩
          · cases first
          · cases first

theorem accepted_hard {constraints : List NamedConstraint}
    (agrees : ∀ constraint ∈ constraints, constraint.soft = false → ∀ node,
      constraint.expression = some node →
        (translateNode (z3Constants problem.types) node).eval (assignmentOf values) =
          some (.bool ((evaluateNode values node).raw != 0)))
    {terms terms' : List Term}
    (added : constraints.foldlM (addConstraint problem) terms = .ok terms') :
    Accepted values terms' ↔ Accepted values terms ∧
      ∀ constraint ∈ constraints, constraint.soft = false → ∀ node,
        constraint.expression = some node → (evaluateNode values node).raw ≠ 0 := by
  induction constraints generalizing terms with
  | nil =>
      obtain rfl := Except.ok.inj added
      exact ⟨fun accepted => ⟨accepted, fun _ member => (List.not_mem_nil member).elim⟩, And.left⟩
  | cons constraint rest ih =>
      have later := fun other member => agrees other (List.mem_cons_of_mem constraint member)
      rw [List.foldlM_cons] at added
      cases first : addConstraint problem terms constraint with
      | error message =>
          rw [first] at added
          cases added
      | ok middle =>
          rw [first] at added
          rw [ih later added]
          unfold addConstraint at first
          split at first
          · cases first
          · rename_i node expression
            split at first
            · rename_i soft
              obtain rfl := Except.ok.inj first
              refine and_congr_right fun _ => ⟨fun holds other member hard => ?_, fun holds other member =>
                holds other (List.mem_cons_of_mem _ member)⟩
              rcases List.mem_cons.mp member with rfl | inRest
              · exact absurd (soft.symm.trans hard) (by decide)
              · exact holds other inRest hard
            · rename_i hard
              rw [Bool.not_eq_true] at hard
              obtain rfl := Except.ok.inj first
              rw [accepted_append, accepted_singleton,
                agrees constraint List.mem_cons_self hard node expression]
              simp only [Option.some.injEq, Value.bool.injEq, bne_iff_ne]
              constructor
              · rintro ⟨⟨accepted, nonzero⟩, holds⟩
                refine ⟨accepted, fun other member hard' node' expression' => ?_⟩
                rcases List.mem_cons.mp member with rfl | inRest
                · exact Option.some.inj (expression.symm.trans expression') ▸ nonzero
                · exact holds other inRest hard' node' expression'
              · rintro ⟨accepted, holds⟩
                exact ⟨⟨accepted, holds constraint List.mem_cons_self hard node expression⟩,
                  fun other member => holds other (List.mem_cons_of_mem _ member)⟩

/-- The exclusions hold exactly when no excluded value is chosen. -/
theorem accepted_exclusions_iff (normal : Normal problem values)
    (seen : ∀ descriptor ∈ problem.vars, ∀ raw ∈ descriptor.excludedRaw, raw < descriptor.type.count) :
    Accepted values (exclusionAssertions problem) ↔
      ∀ (index : Nat) (descriptor : VariableDescriptor), problem.vars[index]? = some descriptor →
        values.getD index 0 ∉ descriptor.excludedRaw := by
  have each : ∀ (index : Nat) (descriptor : VariableDescriptor)
      (_ : problem.vars[index]? = some descriptor),
      (exclusions ((z3Constants problem.types).getD index (.ofBool false)) descriptor.type
        descriptor.excludedRaw).eval (assignmentOf values) = some (.bool true) ↔
        values.getD index 0 ∉ descriptor.excludedRaw := by
    intro index descriptor here
    rw [exclusions, eval_foldl_and _ _ _ rfl fun raw _ =>
      eval_rel .distinct (eval_constantOf values here) (eval_bvVal raw)]
    simp only [Bool.true_and, Option.some.injEq, Value.bool.injEq, List.all_eq_true, BvRel.apply,
      bne_iff_ne, ne_eq, descriptor.type.bits_normalize, descriptor.type.bits_eq_iff,
      descriptor.type.normalize_of_lt (normal index descriptor here)]
    constructor
    · intro apart member
      refine apart _ member ?_
      rw [descriptor.type.normalize_of_lt (normal index descriptor here)]
    · intro fresh raw member same
      rw [descriptor.type.normalize_of_lt (seen descriptor (List.mem_of_getElem? here) raw member)]
        at same
      exact fresh (same ▸ member)
  constructor
  · intro accepted index descriptor here
    by_cases empty : descriptor.excludedRaw.isEmpty = true
    · rw [List.isEmpty_iff.mp empty]
      exact List.not_mem_nil
    · refine (each index descriptor here).mp (accepted _ ?_)
      exact List.mem_filterMap.mpr ⟨(descriptor, index), List.mem_zipIdx_iff_getElem?.mpr here,
        if_neg empty⟩
  · intro fresh term member
    obtain ⟨⟨descriptor, index⟩, found, isTerm⟩ := List.mem_filterMap.mp member
    have here := List.mem_zipIdx_iff_getElem?.mp found
    simp only at isTerm
    split at isTerm
    · cases isTerm
    · rw [← Option.some.inj isTerm]
      exact (each index descriptor here).mpr (fresh index descriptor here)

/-- With no remainder by zero in the hard constraints, Z3 accepts exactly the assignments that satisfy
the problem. -/
theorem solver_accepts_iff (wellFormed : problem.WellFormed)
    (length : values.length = problem.vars.length) (normal : Normal problem values)
    (seen : ∀ descriptor ∈ problem.vars, ∀ raw ∈ descriptor.excludedRaw, raw < descriptor.type.count)
    (defined : ∀ constraint ∈ problem.constraints, constraint.soft = false → ∀ node,
      constraint.expression = some node → remaindersDefined values node = true)
    {terms : List Term} (asserted : solverAssertions problem = .ok terms) :
    Accepted values terms ↔ Satisfies problem values := by
  unfold solverAssertions at asserted
  cases supporting : problem.distributions.foldlM (addDistribution problem)
      (List.replicate problem.vars.length false, []) with
  | error message =>
      rw [supporting] at asserted
      cases asserted
  | ok state =>
      cases constraining : problem.constraints.foldlM (addConstraint problem) [] with
      | error message =>
          rw [supporting] at asserted
          simp only [bind, Except.bind, constraining] at asserted
          cases asserted
      | ok hard =>
          rw [supporting] at asserted
          simp only [bind, Except.bind, constraining] at asserted
          obtain rfl := Except.ok.inj asserted
          have agrees : ∀ constraint ∈ problem.constraints, constraint.soft = false → ∀ node,
              constraint.expression = some node →
                (translateNode (z3Constants problem.types) node).eval (assignmentOf values) =
                  some (.bool ((evaluateNode values node).raw != 0)) := by
            intro constraint member isHard node expression
            have built := wellFormed.built constraint member node expression
            have same : ((evaluateNode values node).raw != 0) =
                (evaluateNode values node).boolean := by
              rw [Bool.eq_iff_iff, bne_iff_ne]
              exact built.raw_ne_zero_iff values
            rw [same]
            exact built.agrees_iff.mp (built.agrees (defined constraint member isHard node expression))
          rw [accepted_append, accepted_append, accepted_append, accepted_ranges_iff normal,
            accepted_supports normal supporting, accepted_hard agrees constraining,
            accepted_exclusions_iff normal seen]
          constructor
          · rintro ⟨⟨⟨declared, -, weighted⟩, -, holds⟩, fresh⟩
            exact ⟨length, normal, declared,
              fun constraint member _ isHard => holds constraint member isHard,
              fun distribution member _ => weighted distribution member, fresh⟩
          · rintro ⟨-, -, declared, holds, weighted, fresh⟩
            exact ⟨⟨⟨declared, accepted_nil, fun distribution member =>
              weighted distribution member (wellFormed.active distribution member)⟩, accepted_nil,
              fun constraint member => holds constraint member (wellFormed.enabled constraint member)⟩,
              fresh⟩

/-- The two backends mean the same thing, but for a remainder that divides a number other than zero by
zero: every subexpression of a constraint has one value in both exactly when it has no such remainder,
and then the term is true exactly when the constraint is nonzero; the constraints for the ranges and
the distributions are exact; and with no such remainder Z3 accepts exactly the solutions. -/
theorem z3_agrees_iff (wellFormed : problem.WellFormed) (length : values.length = problem.vars.length)
    (normal : Normal problem values) :
    (∀ node, ConstraintExpr problem.types node →
      ((∀ sub ∈ node.subexpressions, Agrees problem.types values sub) ↔
        remaindersDefined values node = true) ∧
      (remaindersDefined values node = true →
        (translateNode (z3Constants problem.types) node).eval (assignmentOf values) =
          some (.bool ((evaluateNode values node).raw != 0)))) ∧
    (Accepted values (rangeAssertions problem) ↔
      ∀ (index : Nat) (descriptor : VariableDescriptor),
        problem.vars[index]? = some descriptor → InRange values index descriptor) ∧
    (∀ (distribution : NamedDistribution) (descriptor : VariableDescriptor),
      problem.vars[distribution.expression.variableIndex]? = some descriptor →
      ((supported ((z3Constants problem.types).getD distribution.expression.variableIndex
        (.ofBool false)) descriptor.type distribution.expression.entries).eval (assignmentOf values) =
          some (.bool true) ↔ HasWeight values distribution descriptor)) ∧
    (∀ terms, solverAssertions problem = .ok terms →
      (∀ descriptor ∈ problem.vars, ∀ raw ∈ descriptor.excludedRaw, raw < descriptor.type.count) →
      (∀ constraint ∈ problem.constraints, constraint.soft = false → ∀ node,
        constraint.expression = some node → remaindersDefined values node = true) →
      (Accepted values terms ↔ Satisfies problem values)) := by
  refine ⟨fun node built => ⟨built.agrees_subexpressions_iff, fun defined => ?_⟩,
    accepted_ranges_iff normal, fun distribution descriptor here => supported_iff normal here,
    fun terms asserted seen defined => solver_accepts_iff wellFormed length normal seen defined asserted⟩
  have same : ((evaluateNode values node).raw != 0) = (evaluateNode values node).boolean := by
    rw [Bool.eq_iff_iff, bne_iff_ne]
    exact built.raw_ne_zero_iff values
  rw [same]
  exact built.agrees_iff.mp (built.agrees defined)

end

/-- The solver accepts the packet of 64 bytes with tag 1, and so does the evaluator. -/
theorem z3_agrees_iff_packet : Satisfies packet [64, 1] := by
  have normal : Normal packet [64, 1] := by
    intro index descriptor here
    match index, here with
    | 0, here => exact Option.some.inj here ▸ (by decide)
    | 1, here => exact Option.some.inj here ▸ (by decide)
  obtain ⟨-, -, -, accepts⟩ := z3_agrees_iff packet_wellFormed rfl normal
  refine (accepts _ rfl (by decide) ?_).mp ?_
  · intro constraint member _ node expression
    simp only [packet, List.mem_cons, List.not_mem_nil, or_false] at member
    rcases member with rfl | rfl
    · exact Option.some.inj expression ▸ (by decide)
    · exact Option.some.inj expression ▸ (by decide)
  · intro term member
    revert term
    decide +kernel

/-- The constraint `x % y == 5` over two bytes. -/
def remainderOfFive : ExprNode :=
  .compare .equal (.arithmetic .remainder uint8 (.var uint8 0) (.var uint8 1)) (.constant uint8 5)

/-- The solver finds that five divided by zero leaves five, and `evaluate_node` that it leaves zero. -/
theorem z3_differs_on_zero_divisor :
    ¬ ∀ (types : List ScalarType) (node : ExprNode) (values : List Nat), ConstraintExpr types node →
      (∀ (index : Nat) (type : ScalarType), types[index]? = some type →
        values.getD index 0 < type.count) →
      (translateNode (z3Constants types) node).eval (assignmentOf values) =
        some (.bool ((evaluateNode values node).raw != 0)) := by
  intro agree
  have same := agree [uint8, uint8] remainderOfFive [5, 0]
    (.compare .equal (.arithmetic .remainder (.var rfl) (.var rfl)) (.constant 5))
    (fun index type declared => by
      match index, declared with
      | 0, declared => exact Option.some.inj declared ▸ (by decide)
      | 1, declared => exact Option.some.inj declared ▸ (by decide))
  exact absurd same (by decide +kernel)

end Cpptb.Randomize
