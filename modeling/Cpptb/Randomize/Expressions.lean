/-
Constraint expressions and their evaluation.

`ExprNode` holds the nodes that the operators on `Rand` build, and `evaluateNode` evaluates one over the
raw values of the variables. `ValueExpr` and `ConstraintExpr` say which trees the operators can build:
the operands of an operator have one type, and a variable has the type of its field. Over such trees a
value is normal (`ValueExpr.normal`), a comparison compares ordered values
(`ValueExpr.compare_iff`), and a constraint is nonzero exactly when it is true
(`ConstraintExpr.raw_ne_zero_iff`).
-/

import Cpptb.Lib.Segments
import Cpptb.Randomize.Scalars

namespace Cpptb.Randomize

open Segments

/-- `RawRange`. -/
abbrev RawRange := Segment

/-- `ExprOp::Add` to `ExprOp::Remainder`. -/
inductive ArithmeticOp
  | add
  | subtract
  | multiply
  | remainder
  deriving DecidableEq, Repr

/-- `ExprOp::Equal` to `ExprOp::GreaterEqual`. -/
inductive CompareOp
  | equal
  | notEqual
  | less
  | lessEqual
  | greater
  | greaterEqual
  deriving DecidableEq, Repr

/-- `ExprNode`, with `ExprOp::Variable` as `var`. The type of a comparison, a connective and a membership is `ScalarType{1, false}`. -/
inductive ExprNode
  | constant (type : ScalarType) (raw : Nat)
  | var (type : ScalarType) (index : Nat)
  | arithmetic (op : ArithmeticOp) (type : ScalarType) (left right : ExprNode)
  | compare (op : CompareOp) (left right : ExprNode)
  | logicalAnd (left right : ExprNode)
  | logicalOr (left right : ExprNode)
  | logicalNot (left : ExprNode)
  | inside (left : ExprNode) (ranges : Option (List RawRange))
  deriving DecidableEq, Repr

/-- `type`. -/
def ExprNode.type : ExprNode → ScalarType
  | .constant type _ | .var type _ | .arithmetic _ type _ _ => type
  | .compare .. | .logicalAnd .. | .logicalOr .. | .logicalNot .. | .inside .. => .boolean

/-- `EvaluatedValue`. -/
structure EvaluatedValue where
  raw : Nat := 0
  boolean : Bool := false
  deriving DecidableEq, Repr

/-- The result of a comparison, a connective or a membership. -/
def EvaluatedValue.ofBool (result : Bool) : EvaluatedValue :=
  ⟨if result then 1 else 0, result⟩

/-- `std::equal_to` to `std::greater_equal`. -/
def CompareOp.apply {α : Type} [LinearOrder α] (op : CompareOp) (left right : α) : Bool :=
  match op with
  | .equal => left == right
  | .notEqual => left != right
  | .less => left < right
  | .lessEqual => left ≤ right
  | .greater => left > right
  | .greaterEqual => left ≥ right

/-- The remainder of `evaluate_node`. -/
def evaluateRemainder (type : ScalarType) (lhs rhs : Nat) : EvaluatedValue :=
  if rhs = 0 then {}
  else if type.isSigned then
    let signedLhs := type.signedRaw lhs
    let signedRhs := type.signedRaw rhs
    let result :=
      if signedLhs = -2 ^ 63 ∧ signedRhs = -1 then 0 else signedLhs.tmod signedRhs
    ⟨type.normalize (ScalarType.bitCastUnsigned result), false⟩
  else ⟨type.normalize (lhs % rhs), false⟩

/-- `evaluate_node`. -/
def evaluateNode (values : List Nat) : ExprNode → EvaluatedValue
  | .constant type raw => ⟨type.normalize raw, false⟩
  | .var type index => ⟨type.normalize (values.getD index 0), false⟩
  | .arithmetic op type left right =>
      let lhs := (evaluateNode values left).raw
      let rhs := (evaluateNode values right).raw
      match op with
      | .add => ⟨type.normalize ((lhs + rhs) % 2 ^ 64), false⟩
      | .subtract => ⟨type.normalize ((2 ^ 64 + lhs - rhs) % 2 ^ 64), false⟩
      | .multiply => ⟨type.normalize (lhs * rhs % 2 ^ 64), false⟩
      | .remainder => evaluateRemainder type lhs rhs
  | .compare op left right =>
      let lhs := (evaluateNode values left).raw
      let rhs := (evaluateNode values right).raw
      .ofBool <|
        if left.type.isSigned then
          op.apply (left.type.signedRaw lhs) (right.type.signedRaw rhs)
        else op.apply lhs rhs
  | .logicalAnd left right =>
      .ofBool ((evaluateNode values left).boolean && (evaluateNode values right).boolean)
  | .logicalOr left right =>
      .ofBool ((evaluateNode values left).boolean || (evaluateNode values right).boolean)
  | .logicalNot left => .ofBool (!(evaluateNode values left).boolean)
  | .inside left ranges =>
      let type := left.type
      let ordered := type.orderedRaw (evaluateNode values left).raw
      .ofBool <| (ranges.getD []).any fun range =>
        ordered ≥ type.orderedRaw range.minimum && ordered ≤ type.orderedRaw range.maximum

/-- `Constraint`: a default-constructed one has no node. -/
abbrev Constraint := Option ExprNode

/-- `evaluate_constraint`. -/
def evaluateConstraint (constraint : Constraint) (values : List Nat) : Bool :=
  match constraint with
  | none => false
  | some node => (evaluateNode values node).boolean

/-! ### Formatting -/

/-- The symbol of an arithmetic operator. -/
def ArithmeticOp.symbol : ArithmeticOp → String
  | .add => "+"
  | .subtract => "-"
  | .multiply => "*"
  | .remainder => "%"

/-- The symbol of a comparison. -/
def CompareOp.symbol : CompareOp → String
  | .equal => "=="
  | .notEqual => "!="
  | .less => "<"
  | .lessEqual => "<="
  | .greater => ">"
  | .greaterEqual => ">="

/-- `format_value`: the value of a raw value in decimal. -/
def formatValue (type : ScalarType) (raw : Nat) : String :=
  if type.isSigned then toString (type.signedRaw raw) else toString (type.normalize raw)

/-- A range of `inside`. -/
def formatRange (type : ScalarType) (range : RawRange) : String :=
  formatValue type range.minimum ++
    (if range.minimum ≠ range.maximum then ":" ++ formatValue type range.maximum else "")

/-- `format_node`, over the names of the variables. -/
def formatNode (names : List String) : ExprNode → String
  | .constant type raw => formatValue type raw
  | .var _ index => names.getD index ""
  | .logicalNot left => "!(" ++ formatNode names left ++ ")"
  | .inside left ranges =>
      formatNode names left ++ " inside \x7b" ++
        ", ".intercalate ((ranges.getD []).map (formatRange left.type)) ++ "\x7d"
  | .arithmetic op _ left right =>
      "(" ++ formatNode names left ++ " " ++ op.symbol ++ " " ++ formatNode names right ++ ")"
  | .compare op left right =>
      "(" ++ formatNode names left ++ " " ++ op.symbol ++ " " ++ formatNode names right ++ ")"
  | .logicalAnd left right =>
      "(" ++ formatNode names left ++ " && " ++ formatNode names right ++ ")"
  | .logicalOr left right =>
      "(" ++ formatNode names left ++ " || " ++ formatNode names right ++ ")"

/-! ### The trees that the operators build -/

/-- The expressions of type `ValueExpr<Value>` over variables of the types. -/
inductive ValueExpr (types : List ScalarType) (type : ScalarType) : ExprNode → Prop
  | constant (raw : Nat) : ValueExpr types type (.constant type raw)
  | var {index : Nat} (declared : types[index]? = some type) : ValueExpr types type (.var type index)
  | arithmetic (op : ArithmeticOp) {left right : ExprNode} (lhs : ValueExpr types type left)
      (rhs : ValueExpr types type right) : ValueExpr types type (.arithmetic op type left right)

/-- The expressions of type `Constraint` over variables of the types. -/
inductive ConstraintExpr (types : List ScalarType) : ExprNode → Prop
  | compare (op : CompareOp) {type : ScalarType} {left right : ExprNode}
      (lhs : ValueExpr types type left) (rhs : ValueExpr types type right) :
      ConstraintExpr types (.compare op left right)
  | logicalAnd {left right : ExprNode} (lhs : ConstraintExpr types left)
      (rhs : ConstraintExpr types right) : ConstraintExpr types (.logicalAnd left right)
  | logicalOr {left right : ExprNode} (lhs : ConstraintExpr types left)
      (rhs : ConstraintExpr types right) : ConstraintExpr types (.logicalOr left right)
  | logicalNot {left : ExprNode} (lhs : ConstraintExpr types left) :
      ConstraintExpr types (.logicalNot left)
  | inside {type : ScalarType} {left : ExprNode} (lhs : ValueExpr types type left)
      (ranges : List RawRange) : ConstraintExpr types (.inside left (some ranges))

section

variable {types : List ScalarType} {type : ScalarType} {node left right : ExprNode}

theorem ValueExpr.type_eq (built : ValueExpr types type node) : node.type = type := by
  cases built <;> rfl

theorem evaluateRemainder_lt (type : ScalarType) (lhs rhs : Nat) :
    (evaluateRemainder type lhs rhs).raw < type.count := by
  unfold evaluateRemainder
  split
  · exact type.count_pos
  · split <;> exact type.normalize_lt _

/-- The raw value of a value expression is normal. -/
theorem ValueExpr.normal (built : ValueExpr types type node) (values : List Nat) :
    (evaluateNode values node).raw < type.count := by
  cases built with
  | constant raw => exact type.normalize_lt raw
  | var declared => exact type.normalize_lt _
  | arithmetic op lhs rhs =>
      cases op with
      | add => exact type.normalize_lt _
      | subtract => exact type.normalize_lt _
      | multiply => exact type.normalize_lt _
      | remainder => exact evaluateRemainder_lt type _ _

/-- Subtracting one number from both sides does not change a comparison. -/
theorem CompareOp.apply_sub (op : CompareOp) (lhs rhs shift : Nat) :
    op.apply ((lhs : Int) - shift) ((rhs : Int) - shift) = op.apply lhs rhs := by
  cases op <;> simp [CompareOp.apply, bne, BEq.beq]

/-- A comparison compares the ordered values, whether its type is signed or not. -/
theorem ValueExpr.compare_iff (op : CompareOp) (lhs : ValueExpr types type left)
    (rhs : ValueExpr types type right) (values : List Nat) :
    (evaluateNode values (.compare op left right)).boolean =
      op.apply (type.orderedRaw (evaluateNode values left).raw)
        (type.orderedRaw (evaluateNode values right).raw) := by
  simp only [evaluateNode, EvaluatedValue.ofBool, lhs.type_eq, rhs.type_eq]
  rcases Bool.eq_false_or_eq_true type.isSigned with signed | unsigned
  · simp only [signed, if_true]
    rw [type.signedRaw_eq_orderedRaw signed, type.signedRaw_eq_orderedRaw signed, op.apply_sub]
  · simp only [unsigned, Bool.false_eq_true, if_false, ScalarType.orderedRaw]
    rw [type.normalize_of_lt (lhs.normal values), type.normalize_of_lt (rhs.normal values)]

/-- A constraint is nonzero exactly when it is true. -/
theorem ConstraintExpr.raw_ne_zero_iff (built : ConstraintExpr types node) (values : List Nat) :
    (evaluateNode values node).raw ≠ 0 ↔ (evaluateNode values node).boolean = true := by
  have ofBool : ∀ result : Bool, (EvaluatedValue.ofBool result).raw ≠ 0 ↔
      (EvaluatedValue.ofBool result).boolean = true := by decide
  cases built <;> exact ofBool _

end

end Cpptb.Randomize
