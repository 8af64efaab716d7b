/-
The candidate domains of the variables.

`tightenDomain` narrows the domains by what it recognises in a constraint, and says whether the
constraint is thereby absorbed. A domain allows an ordered value when the value lies between its bounds
and, once the domain is restricted, in one of its ranges (`CandidateDomain.Allows`). `tighten_exact`:
narrowing never drops an assignment that satisfies the constraint, and an absorbed constraint holds of
every assignment that is left. `covers_finalizeDomain`: the ranges of a finalized domain cover what the
domain allowed.
-/

import Cpptb.Randomize.Expressions

namespace Cpptb.Randomize

open Segments

/-- The exceptions of a search, and a search that draws random numbers without end. -/
inductive SearchError
  | outOfRange
  | invalidArgument (what : String)
  | logicError (what : String)
  | unfinished
  deriving DecidableEq, Repr

/-- `CandidateDomain`. -/
structure CandidateDomain where
  lowOrdered : Nat := 0
  highOrdered : Nat := 0
  restricted : Bool := false
  ranges : List RawRange := []
  deriving DecidableEq, Repr

/-- `reverse_comparison`. -/
def reverseComparison : CompareOp → CompareOp
  | .less => .greater
  | .lessEqual => .greaterEqual
  | .greater => .less
  | .greaterEqual => .lessEqual
  | .equal => .equal
  | .notEqual => .notEqual

/-- The change of a domain for `inside`, with the ranges in ordered values. -/
def CandidateDomain.restrict (incoming : List RawRange) (domain : CandidateDomain) :
    CandidateDomain :=
  if !domain.restricted then { domain with ranges := incoming, restricted := true }
  else { domain with ranges := meets domain.ranges incoming }

/-- The change of a domain for a comparison of its variable with a constant. -/
def CandidateDomain.bound (operation : CompareOp) (value : Nat) (domain : CandidateDomain) :
    CandidateDomain :=
  match operation with
  | .equal =>
      { domain with
        lowOrdered := max domain.lowOrdered value
        highOrdered := min domain.highOrdered value }
  | .less =>
      if value = 0 then { domain with lowOrdered := 1, highOrdered := 0 }
      else { domain with highOrdered := min domain.highOrdered (value - 1) }
  | .lessEqual => { domain with highOrdered := min domain.highOrdered value }
  | .greater =>
      if value = maxU64 then { domain with lowOrdered := 1, highOrdered := 0 }
      else { domain with lowOrdered := max domain.lowOrdered (value + 1) }
  | .greaterEqual => { domain with lowOrdered := max domain.lowOrdered value }
  | .notEqual => domain

/-- `domains.at(index)`, changed in place. -/
def changeAt (domains : List CandidateDomain) (index : Nat)
    (change : CandidateDomain → CandidateDomain) : Except SearchError (List CandidateDomain) :=
  if index < domains.length then .ok (domains.modify index change) else .error .outOfRange

/-- A variable compared with a constant, on either side: the type and the index of the variable, the
constant, and the comparison with the variable on the left. -/
def comparedVariable (op : CompareOp) (left right : ExprNode) :
    Option (ScalarType × Nat × Nat × CompareOp) :=
  match left, right with
  | .var type index, .constant _ raw => some (type, index, raw, op)
  | .constant _ raw, .var type index => some (type, index, raw, reverseComparison op)
  | _, _ => none

/-- `tighten_domain`. -/
def tightenDomain : ExprNode → List CandidateDomain →
    Except SearchError (Bool × List CandidateDomain)
  | .logicalAnd left right, domains => do
      let (absorbedLeft, domains) ← tightenDomain left domains
      let (absorbedRight, domains) ← tightenDomain right domains
      return (absorbedLeft && absorbedRight, domains)
  | .inside (.var type index) (some ranges), domains => do
      let incoming := ranges.map fun range =>
        ⟨type.orderedRaw range.minimum, type.orderedRaw range.maximum⟩
      return (true, ← changeAt domains index (·.restrict incoming))
  | .compare op left right, domains =>
      match comparedVariable op left right with
      | none => return (false, domains)
      | some (type, index, raw, operation) =>
          if operation = .notEqual then return (false, domains)
          else return (true, ← changeAt domains index (·.bound operation (type.orderedRaw raw)))
  | _, domains => return (false, domains)

/-- One round of the loop that merges the sorted ranges. -/
def mergeRange (ranges : List RawRange) (range : RawRange) : List RawRange :=
  match ranges.getLast? with
  | none => [range]
  | some back =>
      if back.maximum ≠ maxU64 ∧ range.minimum > back.maximum + 1 then ranges ++ [range]
      else ranges.dropLast ++ [back.join range]

/-- `std::ranges::sort` by `minimum_raw`. -/
def sortRanges (ranges : List RawRange) : List RawRange :=
  ranges.insertionSort fun left right => left.minimum ≤ right.minimum

/-- `finalize_domain`. -/
def finalizeDomain (domain : CandidateDomain) : CandidateDomain :=
  if !domain.restricted then
    if domain.lowOrdered ≤ domain.highOrdered then
      { domain with ranges := [⟨domain.lowOrdered, domain.highOrdered⟩] }
    else { domain with ranges := [] }
  else
    let clamped := clip ⟨domain.lowOrdered, domain.highOrdered⟩ domain.ranges
    { domain with ranges := (sortRanges clamped).foldl mergeRange [] }

/-- `domain_contains`. -/
def domainContains (domain : CandidateDomain) (ordered : Nat) : Bool :=
  covers domain.ranges ordered

/-- `inclusive_size`. -/
def inclusiveSize (minimum maximum : Nat) : Nat := maximum - minimum + 1

/-- `domain_size`. -/
def domainSize (domain : CandidateDomain) : Nat :=
  (domain.ranges.map fun range => inclusiveSize range.minimum range.maximum).sum

/-! ### What a domain allows -/

/-- The ordered value is between the bounds, and in a range if the domain is restricted. -/
structure CandidateDomain.Allows (domain : CandidateDomain) (ordered : Nat) : Prop where
  low : domain.lowOrdered ≤ ordered
  high : ordered ≤ domain.highOrdered
  inRanges : domain.restricted = true → Covers domain.ranges ordered

/-- The ordered value of a variable in an assignment. -/
def orderedValue (type : ScalarType) (values : List Nat) (index : Nat) : Nat :=
  type.orderedRaw (values.getD index 0)

/-- Every domain allows the value of its variable. -/
def Allowed (types : List ScalarType) (domains : List CandidateDomain) (values : List Nat) : Prop :=
  ∀ (index : Nat) (type : ScalarType) (domain : CandidateDomain), types[index]? = some type →
    domains[index]? = some domain → domain.Allows (orderedValue type values index)

namespace CandidateDomain

variable {domain : CandidateDomain} {ordered : Nat}

theorem restrict_highOrdered_le (incoming : List RawRange) (domain : CandidateDomain) :
    (domain.restrict incoming).highOrdered ≤ domain.highOrdered := by
  unfold restrict
  split <;> exact Nat.le_refl _

theorem bound_highOrdered_le (operation : CompareOp) (value : Nat) (domain : CandidateDomain) :
    (domain.bound operation value).highOrdered ≤ domain.highOrdered := by
  cases operation with
  | equal => exact Nat.min_le_left _ _
  | notEqual => exact Nat.le_refl _
  | less =>
      simp only [bound]
      split
      · exact Nat.zero_le _
      · exact Nat.min_le_left _ _
  | lessEqual => exact Nat.min_le_left _ _
  | greater =>
      simp only [bound]
      split
      · exact Nat.zero_le _
      · exact Nat.le_refl _
  | greaterEqual => exact Nat.le_refl _

theorem allows_restrict (incoming : List RawRange) :
    (domain.restrict incoming).Allows ordered ↔
      domain.Allows ordered ∧ Covers incoming ordered := by
  unfold restrict
  rcases Bool.eq_false_or_eq_true domain.restricted with restricted | unrestricted
  · simp only [restricted, Bool.not_true, Bool.false_eq_true, if_false]
    constructor
    · rintro ⟨low, high, inRanges⟩
      obtain ⟨old, new⟩ := covers_meets.mp (inRanges rfl)
      exact ⟨⟨low, high, fun _ => old⟩, new⟩
    · rintro ⟨⟨low, high, inRanges⟩, new⟩
      exact ⟨low, high, fun _ => covers_meets.mpr ⟨inRanges restricted, new⟩⟩
  · simp only [unrestricted, Bool.not_false, if_true]
    constructor
    · rintro ⟨low, high, inRanges⟩
      exact ⟨⟨low, high, fun on => absurd (unrestricted.symm.trans on) (by decide)⟩, inRanges rfl⟩
    · rintro ⟨⟨low, high, _⟩, new⟩
      exact ⟨low, high, fun _ => new⟩

/-- The bounds alone decide a domain whose ranges do not change. -/
theorem allows_of_bounds {low high : Nat} {P : Prop}
    (same : low ≤ ordered ∧ ordered ≤ high ↔
      (domain.lowOrdered ≤ ordered ∧ ordered ≤ domain.highOrdered) ∧ P) :
    ({ domain with lowOrdered := low, highOrdered := high } : CandidateDomain).Allows ordered ↔
      domain.Allows ordered ∧ P := by
  constructor
  · rintro ⟨above, below, inRanges⟩
    obtain ⟨⟨above', below'⟩, holds⟩ := same.mp ⟨above, below⟩
    exact ⟨⟨above', below', inRanges⟩, holds⟩
  · rintro ⟨⟨above', below', inRanges⟩, holds⟩
    obtain ⟨above, below⟩ := same.mpr ⟨⟨above', below'⟩, holds⟩
    exact ⟨above, below, inRanges⟩

theorem allows_bound (operation : CompareOp) (recognised : operation ≠ .notEqual) (value : Nat)
    (small : ordered ≤ maxU64) :
    (domain.bound operation value).Allows ordered ↔
      domain.Allows ordered ∧ operation.apply ordered value = true := by
  cases operation with
  | notEqual => exact absurd rfl recognised
  | equal =>
      refine allows_of_bounds ?_
      simp only [CompareOp.apply, beq_iff_eq]
      omega
  | lessEqual =>
      refine allows_of_bounds ?_
      simp only [CompareOp.apply, decide_eq_true_eq]
      omega
  | greaterEqual =>
      refine allows_of_bounds ?_
      simp only [CompareOp.apply, decide_eq_true_eq]
      omega
  | less =>
      simp only [bound, CompareOp.apply, decide_eq_true_eq]
      split
      · exact allows_of_bounds (by omega)
      · exact allows_of_bounds (by omega)
  | greater =>
      simp only [bound, CompareOp.apply, decide_eq_true_eq]
      split
      · exact allows_of_bounds (by omega)
      · exact allows_of_bounds (by omega)

end CandidateDomain

/-- Reversing a comparison exchanges its sides. -/
theorem apply_reverseComparison {α : Type} [LinearOrder α] (op : CompareOp) (left right : α) :
    (reverseComparison op).apply left right = op.apply right left := by
  cases op with
  | equal =>
      rw [Bool.eq_iff_iff]
      simp only [reverseComparison, CompareOp.apply, beq_iff_eq]
      exact eq_comm
  | notEqual =>
      rw [Bool.eq_iff_iff]
      simp only [reverseComparison, CompareOp.apply, bne_iff_ne]
      exact ne_comm
  | less => rfl
  | lessEqual => rfl
  | greater => rfl
  | greaterEqual => rfl

/-! ### Tightening -/

/-- What `tightenDomain` guarantees when it returns `absorbed` and the new domains. -/
structure Tightens (types : List ScalarType) (node : ExprNode) (domains : List CandidateDomain)
    (absorbed : Bool) (domains' : List CandidateDomain) : Prop where
  length : domains'.length = domains.length
  lowers : ∀ (index : Nat) (domain domain' : CandidateDomain), domains[index]? = some domain →
    domains'[index]? = some domain' → domain'.highOrdered ≤ domain.highOrdered
  narrows : ∀ values, Allowed types domains' values → Allowed types domains values
  keeps : ∀ values, Allowed types domains values → (evaluateNode values node).boolean = true →
    Allowed types domains' values
  holds : absorbed = true → ∀ values, Allowed types domains' values →
    (evaluateNode values node).boolean = true

/-- A constraint that is not recognised changes nothing. -/
theorem Tightens.unrecognised (types : List ScalarType) (node : ExprNode)
    (domains : List CandidateDomain) : Tightens types node domains false domains where
  length := rfl
  lowers := fun _ _ _ found found' => by
    rw [Option.some.inj (found.symm.trans found')]
  narrows := fun _ allowed => allowed
  keeps := fun _ allowed _ => allowed
  holds := fun recognised => absurd recognised Bool.false_ne_true

/-- Narrowing one domain by a condition on the value of its variable. -/
theorem allowed_changeAt {types : List ScalarType} {type : ScalarType}
    {domains : List CandidateDomain} {index : Nat} (declared : types[index]? = some type)
    (inside : index < domains.length) {change : CandidateDomain → CandidateDomain} {values : List Nat}
    {P : Prop}
    (exact : ∀ domain : CandidateDomain, (change domain).Allows (orderedValue type values index) ↔
      domain.Allows (orderedValue type values index) ∧ P) :
    Allowed types (domains.modify index change) values ↔ Allowed types domains values ∧ P := by
  constructor
  · intro allowed
    have changed : (domains.modify index change)[index]? = some (change domains[index]) := by
      rw [List.getElem?_modify_eq, List.getElem?_eq_getElem inside, Option.map_eq_map, Option.map_some]
    refine ⟨fun other otherType domain declared' found => ?_,
      ((exact _).mp (allowed index type _ declared changed)).2⟩
    by_cases same : other = index
    · subst same
      obtain rfl : otherType = type := Option.some.inj (declared'.symm.trans declared)
      have here : domain = domains[other] :=
        Option.some.inj (found.symm.trans (List.getElem?_eq_getElem inside))
      rw [here]
      exact ((exact _).mp (allowed other otherType _ declared changed)).1
    · refine allowed other otherType domain declared' ?_
      rw [List.getElem?_modify_ne _ _ (Ne.symm same)]
      exact found
  · rintro ⟨allowed, holds⟩ other otherType domain declared' found
    by_cases same : other = index
    · subst same
      obtain rfl : otherType = type := Option.some.inj (declared'.symm.trans declared)
      rw [List.getElem?_modify_eq, List.getElem?_eq_getElem inside, Option.map_eq_map,
        Option.map_some] at found
      rw [← Option.some.inj found]
      exact (exact _).mpr ⟨allowed other otherType _ declared (List.getElem?_eq_getElem inside), holds⟩
    · rw [List.getElem?_modify_ne _ _ (Ne.symm same)] at found
      exact allowed other otherType domain declared' found

/-- A recognised constraint is exactly the condition on the value of its variable. -/
theorem Tightens.of_changeAt {types : List ScalarType} {type : ScalarType} (node : ExprNode)
    {domains : List CandidateDomain} {index : Nat} (declared : types[index]? = some type)
    (same : domains.length = types.length) (change : CandidateDomain → CandidateDomain)
    (lowers : ∀ domain, (change domain).highOrdered ≤ domain.highOrdered)
    (exact : ∀ values (domain : CandidateDomain),
      (change domain).Allows (orderedValue type values index) ↔
        domain.Allows (orderedValue type values index) ∧ (evaluateNode values node).boolean = true) :
    ∃ domains', changeAt domains index change = .ok domains' ∧
      Tightens types node domains true domains' := by
  obtain ⟨inTypes, -⟩ := List.getElem?_eq_some_iff.mp declared
  have inside : index < domains.length := same ▸ inTypes
  have narrowed : ∀ values, Allowed types (domains.modify index change) values ↔
      Allowed types domains values ∧ (evaluateNode values node).boolean = true := fun values =>
    allowed_changeAt declared inside (exact values)
  refine ⟨domains.modify index change, if_pos inside, List.length_modify .., ?_, ?_, ?_, ?_⟩
  · intro position domain domain' found found'
    rw [List.getElem?_modify, found, Option.map_eq_map, Option.map_some, Option.some.injEq] at found'
    rw [← found']
    split
    · exact lowers domain
    · exact Nat.le_refl _
  · exact fun values allowed => ((narrowed values).mp allowed).1
  · exact fun values allowed holds => (narrowed values).mpr ⟨allowed, holds⟩
  · exact fun _ values allowed => ((narrowed values).mp allowed).2

/-- Both sides of a conjunction in turn. -/
theorem Tightens.logicalAnd {types : List ScalarType} {left right : ExprNode}
    {domains domains' domains'' : List CandidateDomain} {absorbedLeft absorbedRight : Bool}
    (first : Tightens types left domains absorbedLeft domains')
    (second : Tightens types right domains' absorbedRight domains'') :
    Tightens types (.logicalAnd left right) domains (absorbedLeft && absorbedRight) domains'' where
  length := second.length.trans first.length
  lowers := fun index domain domain'' found found'' => by
    have inside : index < domains'.length := by
      rw [first.length]
      exact (List.getElem?_eq_some_iff.mp found).1
    have found' := List.getElem?_eq_getElem inside
    exact (second.lowers index _ _ found' found'').trans (first.lowers index _ _ found found')
  narrows := fun values allowed => first.narrows values (second.narrows values allowed)
  keeps := fun values allowed holds => by
    simp only [evaluateNode, EvaluatedValue.ofBool, Bool.and_eq_true] at holds
    exact second.keeps values (first.keeps values allowed holds.1) holds.2
  holds := fun absorbed values allowed => by
    rw [Bool.and_eq_true] at absorbed
    simp only [evaluateNode, EvaluatedValue.ofBool, Bool.and_eq_true]
    exact ⟨first.holds absorbed.1 values (second.narrows values allowed),
      second.holds absorbed.2 values allowed⟩

/-- A variable and a constant of a comparison: the comparison in ordered values. -/
theorem comparedVariable_exact {types : List ScalarType} {type type' : ScalarType}
    {op operation : CompareOp} {left right : ExprNode} {index raw : Nat}
    (lhs : ValueExpr types type left) (rhs : ValueExpr types type right)
    (recognised : comparedVariable op left right = some (type', index, raw, operation)) :
    types[index]? = some type' ∧ ∀ values, (evaluateNode values (.compare op left right)).boolean =
      operation.apply (orderedValue type' values index) (type'.orderedRaw raw) := by
  have compared := lhs.compare_iff op rhs
  unfold comparedVariable at recognised
  split at recognised
  · simp only [Option.some.injEq, Prod.mk.injEq] at recognised
    obtain ⟨rfl, rfl, rfl, rfl⟩ := recognised
    cases lhs with
    | var declared =>
        cases rhs
        refine ⟨declared, fun values => ?_⟩
        rw [compared values]
        simp only [evaluateNode, ScalarType.orderedRaw_normalize, orderedValue]
  · simp only [Option.some.injEq, Prod.mk.injEq] at recognised
    obtain ⟨rfl, rfl, rfl, rfl⟩ := recognised
    cases rhs with
    | var declared =>
        cases lhs
        refine ⟨declared, fun values => ?_⟩
        rw [compared values, apply_reverseComparison]
        simp only [evaluateNode, ScalarType.orderedRaw_normalize, orderedValue]
  · cases recognised

/-- `inside` on a variable: the value lies in one of the ordered ranges. -/
theorem inside_exact (type : ScalarType) (index : Nat) (ranges : List RawRange) (values : List Nat) :
    (evaluateNode values (.inside (.var type index) (some ranges))).boolean = true ↔
      Covers (ranges.map fun range =>
        ⟨type.orderedRaw range.minimum, type.orderedRaw range.maximum⟩)
        (orderedValue type values index) := by
  simp only [evaluateNode, EvaluatedValue.ofBool, ExprNode.type, Option.getD_some,
    ScalarType.orderedRaw_normalize, List.any_eq_true, Bool.and_eq_true, decide_eq_true_eq, Covers,
    List.mem_map, exists_exists_and_eq_and, Segment.Has, orderedValue, ge_iff_le]

/-- Tightening by a constraint never drops an assignment that satisfies it, and absorbs it only when
every assignment that is left satisfies it. -/
theorem tighten_exact {types : List ScalarType} {node : ExprNode} (built : ConstraintExpr types node)
    {domains : List CandidateDomain} (same : domains.length = types.length) :
    ∃ absorbed domains', tightenDomain node domains = .ok (absorbed, domains') ∧
      Tightens types node domains absorbed domains' := by
  induction built generalizing domains with
  | @compare op type left right lhs rhs =>
      simp only [tightenDomain]
      split
      · exact ⟨false, domains, rfl, .unrecognised types _ domains⟩
      · rename_i type' index raw operation recognised
        obtain ⟨declared, compared⟩ := comparedVariable_exact lhs rhs recognised
        split
        · exact ⟨false, domains, rfl, .unrecognised types _ domains⟩
        · rename_i bounds
          obtain ⟨domains', changed, tightens⟩ :=
            Tightens.of_changeAt (.compare op left right) declared same
              (·.bound operation (type'.orderedRaw raw))
              (CandidateDomain.bound_highOrdered_le _ _) fun values domain => by
                rw [compared values]
                exact CandidateDomain.allows_bound operation bounds _ (type'.orderedRaw_le_max _)
          exact ⟨true, domains', by rw [changed]; rfl, tightens⟩
  | @logicalAnd left right _ _ first second =>
      obtain ⟨absorbedLeft, domains', ranLeft, tightensLeft⟩ := first same
      obtain ⟨absorbedRight, domains'', ranRight, tightensRight⟩ :=
        second (tightensLeft.length.trans same)
      refine ⟨_, domains'', ?_, tightensLeft.logicalAnd tightensRight⟩
      rw [tightenDomain, ranLeft]
      simp only [bind, Except.bind, ranRight, pure, Except.pure]
  | logicalOr => exact ⟨false, domains, rfl, .unrecognised types _ domains⟩
  | logicalNot => exact ⟨false, domains, rfl, .unrecognised types _ domains⟩
  | @inside type left lhs ranges =>
      cases lhs with
      | @var index declared =>
          obtain ⟨domains', changed, tightens⟩ :=
            Tightens.of_changeAt (.inside (.var type index) (some ranges)) declared same _
              (CandidateDomain.restrict_highOrdered_le _) fun values domain => by
                rw [inside_exact]
                exact CandidateDomain.allows_restrict _
          refine ⟨true, domains', ?_, tightens⟩
          rw [tightenDomain, changed]
          rfl
      | constant => exact ⟨false, domains, rfl, .unrecognised types _ domains⟩
      | arithmetic => exact ⟨false, domains, rfl, .unrecognised types _ domains⟩

/-! ### Finalizing -/

/-- The last range still starts before whatever comes later. -/
theorem minimum_getLast_mergeRange {merged : List RawRange} {range : RawRange} {x : Nat}
    (before : ∀ back ∈ merged.getLast?, back.minimum ≤ x) (small : range.minimum ≤ x) :
    ∀ back ∈ (mergeRange merged range).getLast?, back.minimum ≤ x := by
  intro back found
  unfold mergeRange at found
  split at found
  · simp only [List.getLast?_singleton, Option.mem_def, Option.some.injEq] at found
    exact found ▸ small
  · rename_i old foundOld
    split at found
    · simp only [List.getLast?_append, List.getLast?_singleton, Option.some_or, Option.mem_def,
        Option.some.injEq] at found
      exact found ▸ small
    · simp only [List.getLast?_append, List.getLast?_singleton, Option.some_or, Option.mem_def,
        Option.some.injEq] at found
      rw [← found]
      exact before old foundOld

/-- Merging sorted ranges, one after the other, keeps what they cover. -/
theorem covers_foldl_mergeRange {ranges merged : List RawRange}
    (sorted : ranges.Pairwise fun left right => left.minimum ≤ right.minimum)
    (later : ∀ back ∈ merged.getLast?, ∀ range ∈ ranges, back.minimum ≤ range.minimum)
    (small : ∀ range ∈ ranges, range.minimum ≤ maxU64) {x : Nat} :
    Covers (ranges.foldl mergeRange merged) x ↔ Covers merged x ∨ Covers ranges x := by
  induction ranges generalizing merged with
  | nil => simp only [List.foldl_nil, covers_nil, or_false]
  | cons range rest ih =>
      obtain ⟨first, sortedRest⟩ := List.pairwise_cons.mp sorted
      have smallRest := fun other member => small other (List.mem_cons_of_mem _ member)
      have step : Covers (mergeRange merged range) x ↔ Covers merged x ∨ range.Has x := by
        unfold mergeRange
        split
        · rename_i empty
          rw [List.getLast?_eq_none_iff.mp empty, covers_cons]
          simp only [covers_nil, or_false, false_or]
        · rename_i back found
          split
          · rw [covers_append, covers_cons]
            simp only [covers_nil, or_false]
          · rename_i touching
            have before := later back found range List.mem_cons_self
            have near : range.minimum ≤ back.maximum + 1 := by
              have := small range List.mem_cons_self
              rw [not_and_or, not_not] at touching
              omega
            have whole : merged = merged.dropLast ++ [back] := by
              rw [List.getLast?_eq_some_iff] at found
              obtain ⟨front, rfl⟩ := found
              rw [List.dropLast_concat]
            conv_rhs => rw [whole]
            rw [covers_append, covers_append, covers_cons, covers_cons, Segment.has_join before near]
            simp only [covers_nil, or_false, or_assoc]
      have last : ∀ back ∈ (mergeRange merged range).getLast?, ∀ other ∈ rest,
          back.minimum ≤ other.minimum := fun back found other member =>
        minimum_getLast_mergeRange
          (fun old foundOld => later old foundOld other (List.mem_cons_of_mem _ member))
          (first other member) back found
      rw [List.foldl_cons, ih sortedRest last smallRest, step, covers_cons, or_assoc]

theorem perm_sortRanges (ranges : List RawRange) : (sortRanges ranges).Perm ranges :=
  List.perm_insertionSort _ ranges

theorem sorted_sortRanges (ranges : List RawRange) :
    (sortRanges ranges).Pairwise fun left right => left.minimum ≤ right.minimum := by
  have : Std.Total fun left right : RawRange => left.minimum ≤ right.minimum :=
    ⟨fun left right => Nat.le_total left.minimum right.minimum⟩
  have : IsTrans RawRange fun left right => left.minimum ≤ right.minimum :=
    ⟨fun _ _ _ first second => Nat.le_trans first second⟩
  exact List.pairwise_insertionSort _ ranges

/-- Sorting and merging ranges of `uint64_t` keeps what they cover. -/
theorem covers_merge_sort {ranges : List RawRange} (small : ∀ range ∈ ranges, range.minimum ≤ maxU64)
    {x : Nat} : Covers ((sortRanges ranges).foldl mergeRange []) x ↔ Covers ranges x := by
  have perm := perm_sortRanges ranges
  have none : ∀ back ∈ ([] : List RawRange).getLast?, ∀ range ∈ sortRanges ranges,
      back.minimum ≤ range.minimum := by
    intro back found
    cases found
  rw [covers_foldl_mergeRange (sorted_sortRanges ranges) none
    fun range member => small range (perm.mem_iff.mp member), covers_perm perm]
  simp only [covers_nil, false_or]

theorem proper_mergeRange {merged : List RawRange} {range : RawRange}
    (proper : ∀ old ∈ merged, old.minimum ≤ old.maximum) (proper' : range.minimum ≤ range.maximum) :
    ∀ new ∈ mergeRange merged range, new.minimum ≤ new.maximum := by
  intro new member
  unfold mergeRange at member
  split at member
  · rw [List.mem_singleton] at member
    exact member ▸ proper'
  · rename_i back found
    split at member
    · rcases List.mem_append.mp member with old | last
      · exact proper new old
      · rw [List.mem_singleton] at last
        exact last ▸ proper'
    · rcases List.mem_append.mp member with old | last
      · exact proper new (List.dropLast_subset merged old)
      · rw [List.mem_singleton] at last
        have properBack := proper back (List.mem_of_getLast? found)
        rw [last, Segment.join]
        exact properBack.trans (Nat.le_max_left _ _)

theorem proper_foldl_mergeRange {ranges merged : List RawRange}
    (proper : ∀ old ∈ merged, old.minimum ≤ old.maximum)
    (proper' : ∀ range ∈ ranges, range.minimum ≤ range.maximum) :
    ∀ new ∈ ranges.foldl mergeRange merged, new.minimum ≤ new.maximum := by
  induction ranges generalizing merged with
  | nil => exact proper
  | cons range rest ih =>
      exact ih (proper_mergeRange proper (proper' range List.mem_cons_self))
        fun other member => proper' other (List.mem_cons_of_mem _ member)

/-- The ranges of a finalized domain start before they stop. -/
theorem proper_finalizeDomain (domain : CandidateDomain) :
    ∀ range ∈ (finalizeDomain domain).ranges, range.minimum ≤ range.maximum := by
  intro range member
  unfold finalizeDomain at member
  split at member
  · split at member
    · rename_i bounds
      rw [List.mem_singleton] at member
      rw [member]
      exact bounds
    · cases member
  · refine proper_foldl_mergeRange (fun _ => List.not_mem_nil.elim) (fun old inside => ?_) range member
    exact proper_of_mem_clip ((perm_sortRanges _).mem_iff.mp inside)

/-- The ranges of a finalized domain cover exactly what the domain allows. -/
theorem covers_finalizeDomain {domain : CandidateDomain} (small : domain.highOrdered ≤ maxU64)
    {ordered : Nat} : Covers (finalizeDomain domain).ranges ordered ↔ domain.Allows ordered := by
  unfold finalizeDomain
  rcases Bool.eq_false_or_eq_true domain.restricted with restricted | unrestricted
  · simp only [restricted, Bool.not_true, Bool.false_eq_true, if_false]
    rw [covers_merge_sort, covers_clip]
    · constructor
      · rintro ⟨bounds, inRanges⟩
        exact ⟨bounds.1, bounds.2, fun _ => inRanges⟩
      · rintro ⟨low, high, inRanges⟩
        exact ⟨⟨low, high⟩, inRanges restricted⟩
    · intro range member
      have proper := proper_of_mem_clip member
      simp only [clip, List.mem_filter, List.mem_map] at member
      obtain ⟨⟨old, -, rfl⟩, -⟩ := member
      simp only [Segment.meet] at proper ⊢
      omega
  · have free : ∀ {P : Prop}, domain.restricted = true → P := fun on =>
      absurd (unrestricted.symm.trans on) (by decide)
    simp only [unrestricted, Bool.not_false, if_true]
    split
    · rw [covers_cons]
      simp only [covers_nil, or_false, Segment.Has]
      exact ⟨fun bounds => ⟨bounds.1, bounds.2, free⟩, fun allows => ⟨allows.low, allows.high⟩⟩
    · rename_i empty
      refine iff_of_false covers_nil fun allows => empty (allows.low.trans allows.high)

end Cpptb.Randomize
