/-
What a rejected declaration leaves behind.

* `Covergroup.declare`: every declaration, with the covergroup as it is left when the declaration throws.
  `binArray_eq`, `cross_eq`: without the covergroup that is left, these are `bin_array` and `cross`.
* `declare_of_checked`: a declaration that makes its checks first leaves the covergroup as it was.
* `rejected_declaration_same_iff`: a rejected declaration can be told from none at all exactly when it is
  a `bin_array` whose first element is accepted, or a `cross` that has sealed a coverpoint.
-/

import Cpptb.Coverage.CrossCounting

namespace Cpptb.Coverage

variable {σ : Type}

/-! ### Declarations that are left half done -/

namespace Coverpoint

/-- The bins of `bin_array`. -/
def arrayBins (name : String) (minimum maximum : Int) : List Bin :=
  (List.range ((maximum - minimum).toNat + 1)).map fun offset : ℕ =>
    { name := name ++ "[" ++ toString (minimum + offset) ++ "]"
      fromRanges := [⟨minimum + offset, minimum + offset⟩] }

/-- Bins one by one, up to one that is rejected. -/
def addBins (point : Coverpoint σ) : List Bin → Coverpoint σ × Except String Unit
  | [] => (point, .ok ())
  | bin :: rest =>
    match point.addBin bin with
    | .error error => (point, .error error)
    | .ok point => point.addBins rest

/-- `bin_array`, with the coverpoint that it leaves. -/
def declareArray (point : Coverpoint σ) (name : String) (minimum maximum : Int) :
    Coverpoint σ × Except String Unit :=
  if maximum < minimum then
    (point, .error ("cpptb coverage bin array '" ++ name ++ "' has a reversed range"))
  else point.addBins (arrayBins name minimum maximum)

/-- An operation that changes nothing when it throws. -/
def attempt {α : Type} (state : α) (result : Except String α) : α × Except String Unit :=
  match result with
  | .ok state => (state, .ok ())
  | .error error => (state, .error error)

/-- `seal`. -/
def sealed (point : Coverpoint σ) : Coverpoint σ := { point with isSealed := true }

end Coverpoint

namespace Covergroup

/-- The loop of `cross` over its coverpoints, up to one that does not belong to the group: the coverpoints
and whether it comes to the end. -/
def sealPoints : List (Coverpoint σ) → List ℕ → List (Coverpoint σ) × Bool
  | points, [] => (points, true)
  | points, index :: rest =>
    if index < points.length then sealPoints (points.modify index (·.sealed)) rest else (points, false)

/-- `cross`, with the group that it leaves. -/
def declareCross (group : Covergroup σ) (name : String) (indices : List ℕ) :
    Covergroup σ × Except String Unit :=
  if group.sampled then (group, .error "cpptb crosses cannot be added after sampling")
  else if name = "" then (group, .error "cpptb coverage cross name is empty")
  else
    let found := sealPoints group.points indices
    let group := { group with points := found.1 }
    if !found.2 then (group, .error "cpptb cross coverpoints must belong to the covergroup")
    else if group.crosses.any (·.name = name) then
      (group, .error ("duplicate cpptb coverage cross '" ++ name ++ "'"))
    else
      let total := (indices.map fun index =>
        (group.points[index]?.map (·.ordinaryBinCount)).getD 1).prod
      ({ group with
        crosses := group.crosses ++ [{ name := name, points := indices, hits := List.replicate total 0 }] },
        .ok ())

end Covergroup

/-- The declarations. A coverpoint and a cross are given by their indices in the group; a coverpoint of
another group has an index outside. `addBin` stands for `bin`, `ignore_bin`, `illegal_bin`,
`transition_bin` and `illegal_default_sequence`. -/
inductive Declaration (σ : Type)
  | coverpoint (name : String) (type : ValueType) (extractor : σ → Int)
  | addBin (point : ℕ) (bin : Bin)
  | addWildcard (point : ℕ) (kind : CoverageBinKind) (name pattern : String)
  | binArray (point : ℕ) (name : String) (minimum maximum : Int)
  | iff (point : ℕ) (guard : σ → Bool)
  | cross (name : String) (points : List ℕ)
  | filter (cross : ℕ) (name : String) (select : Select) (illegal : Bool)
  | crossIff (cross : ℕ) (guard : σ → Bool)

namespace Covergroup

open Coverpoint (attempt)

/-- An operation on a coverpoint of the group. -/
def onPoint (group : Covergroup σ) (index : ℕ)
    (operation : Coverpoint σ → Coverpoint σ × Except String Unit) : Covergroup σ × Except String Unit :=
  match group.points[index]? with
  | none => (group, .ok ())
  | some point => (group.setPoint index (operation point).1, (operation point).2)

/-- A declaration: the group that it leaves, and whether it throws. -/
def declare (group : Covergroup σ) : Declaration σ → Covergroup σ × Except String Unit
  | .coverpoint name type extractor => attempt group (group.coverpoint name type extractor)
  | .addBin index bin => group.onPoint index fun point => attempt point (point.addBin bin)
  | .addWildcard index kind name pattern =>
    group.onPoint index fun point => attempt point (point.addWildcard kind name pattern)
  | .binArray index name minimum maximum => group.onPoint index (·.declareArray name minimum maximum)
  | .iff index guard => group.onPoint index fun point => (point.iff guard, .ok ())
  | .cross name points => group.declareCross name points
  | .filter index name select illegal => attempt group (group.filter index name select illegal)
  | .crossIff index guard => (group.crossIff index guard, .ok ())

end Covergroup

/-! ### The operations without what they leave -/

namespace Coverpoint

/-- What an operation returns when it does not throw. -/
def returned {α : Type} (outcome : α × Except String Unit) : Except String α := outcome.2.map fun _ => outcome.1

theorem returned_attempt {α : Type} (state : α) (result : Except String α) :
    returned (attempt state result) = result := by
  cases result with
  | ok state => rfl
  | error error => rfl

theorem returned_addBins (point : Coverpoint σ) (bins : List Bin) :
    returned (point.addBins bins) = bins.foldlM (·.addBin ·) point := by
  induction bins generalizing point with
  | nil => rfl
  | cons bin rest ih =>
    rw [addBins, List.foldlM_cons]
    cases point.addBin bin with
    | error error => rfl
    | ok point => exact ih point

theorem binArray_eq (point : Coverpoint σ) (name : String) (minimum maximum : Int) :
    point.binArray name minimum maximum = returned (point.declareArray name minimum maximum) := by
  unfold binArray declareArray
  split
  · rfl
  · have values (offsets : List ℕ) :
        (do let offset ← offsets; pure (offset : Int)) = offsets.map fun offset : ℕ => (offset : Int) :=
      List.flatMap_pure_eq_map _ offsets
    rw [returned_addBins, arrayBins, values, List.foldlM_map, List.foldlM_map]
    rfl

end Coverpoint

namespace Covergroup

open Coverpoint (returned attempt)

theorem sealPoints_eq (points : List (Coverpoint σ)) (indices : List ℕ) :
    sealPoints points indices =
      ((indices.takeWhile (· < points.length)).foldl (fun all index => all.modify index (·.sealed)) points,
        indices.all (· < points.length)) := by
  induction indices generalizing points with
  | nil => rfl
  | cons index rest ih =>
    rw [sealPoints, List.takeWhile_cons, List.all_cons]
    by_cases inside : index < points.length
    · rw [if_pos inside, ih, List.length_modify, decide_eq_true inside, Bool.true_and]
      rfl
    · rw [if_neg inside, decide_eq_false inside]
      rfl

theorem cross_eq (group : Covergroup σ) (name : String) (indices : List ℕ) :
    group.cross name indices = returned (group.declareCross name indices) := by
  unfold Covergroup.cross declareCross
  rw [sealPoints_eq]
  have foreign : (indices.any (group.points.length ≤ ·)) = !(indices.all (· < group.points.length)) := by
    rw [List.not_all_eq_any_not]
    simp only [← not_lt, decide_not]
  have counts (all : List ℕ) (index : ℕ) :
      (all.foldl (fun all index => all.modify index (·.sealed)) group.points)[index]?.map
          (·.ordinaryBinCount) =
        group.points[index]?.map (·.ordinaryBinCount) := by
    refine (congrArg _ (getElem?_sealed all group.points index)).trans ?_
    rw [Option.map_map]
    rfl
  simp only [foreign, counts]
  by_cases sampled : group.sampled = true
  · rw [if_pos sampled, if_pos sampled]
    rfl
  rw [if_neg sampled, if_neg sampled]
  by_cases empty : name = ""
  · rw [if_pos empty, if_pos empty]
    rfl
  rw [if_neg empty, if_neg empty]
  cases belong : indices.all (· < group.points.length) with
  | false => rfl
  | true =>
    have whole : indices.takeWhile (· < group.points.length) = indices :=
      List.takeWhile_eq_self_iff.mpr (List.all_eq_true.mp belong)
    simp only [Bool.not_true, Bool.false_eq_true, if_false, whole]
    split
    · rfl
    · rfl

end Covergroup

/-! ### What a program sees -/

/-- The covergroups a program can come to: declarations, rejected or not, and samples in any order. -/
inductive Reachable : Covergroup σ → Prop
  | create {name sourceFile : String} {sourceLine : ℕ} {group : Covergroup σ} :
      Covergroup.create name sourceFile sourceLine = .ok group → Reachable group
  | declare {group : Covergroup σ} (declaration : Declaration σ) :
      Reachable group → Reachable (group.declare declaration).1
  | sample {group : Covergroup σ} (sample : σ) : Reachable group → Reachable (group.sample sample)

/-- One operation of a program. -/
inductive Operation (σ : Type)
  | declare (declaration : Declaration σ)
  | sample (sample : σ)

namespace Covergroup

/-- One operation: the group, and whether it is accepted. -/
def act (group : Covergroup σ) : Operation σ → Covergroup σ × Bool
  | .declare declaration => ((group.declare declaration).1, (group.declare declaration).2.isOk)
  | .sample sample => (group.sample sample, true)

/-- Which operations are accepted, and the snapshot after them. -/
def observe (group : Covergroup σ) : List (Operation σ) → List Bool × CoverageSnapshot
  | [] => ([], group.snapshot)
  | operation :: rest =>
    let seen := (group.act operation).1.observe rest
    ((group.act operation).2 :: seen.1, seen.2)

/-- No program can tell the groups apart. -/
def Same (group other : Covergroup σ) : Prop := ∀ operations, group.observe operations = other.observe operations

/-- The declaration makes its checks before it changes anything: the first element of a `bin_array` is
not accepted, and a `cross` finds no coverpoint that it has to seal. Other declarations always do. -/
def Checked (group : Covergroup σ) : Declaration σ → Prop
  | .binArray index name minimum maximum => ∀ point, group.points[index]? = some point →
    maximum < minimum ∨ point.sampled = true ∨ point.isSealed = true ∨
      ∃ bin ∈ point.bins, bin.name = name ++ "[" ++ toString minimum ++ "]"
  | .cross name indices => group.sampled = true ∨ name = "" ∨
    ∀ index ∈ indices.takeWhile (· < group.points.length), ∀ point, group.points[index]? = some point →
      point.isSealed = true
  | _ => True

end Covergroup

/-! ### Declarations that make their checks first -/

namespace Coverpoint

theorem attempt_error {α : Type} {state : α} {result : Except String α} {error : String}
    (rejected : (attempt state result).2 = .error error) : (attempt state result).1 = state := by
  cases result with
  | ok state => exact nomatch rejected
  | error error => rfl

/-- The first element of an array. -/
def firstElement (name : String) (minimum : Int) : Bin :=
  { name := name ++ "[" ++ toString minimum ++ "]", fromRanges := [⟨minimum, minimum⟩] }

theorem arrayBins_cons (name : String) (minimum maximum : Int) :
    ∃ rest, arrayBins name minimum maximum = firstElement name minimum :: rest := by
  rw [arrayBins, List.range_succ_eq_map, List.map_cons, Nat.cast_zero, Int.add_zero]
  exact ⟨_, rfl⟩

/-- When the first element of an array is accepted. -/
theorem addBin_firstElement (point : Coverpoint σ) (name : String) (minimum : Int) :
    if point.sampled = true ∨ point.isSealed = true ∨
        ∃ bin ∈ point.bins, bin.name = name ++ "[" ++ toString minimum ++ "]" then
      ∃ error, point.addBin (firstElement name minimum) = .error error
    else point.addBin (firstElement name minimum) =
      .ok { point with bins := point.bins ++ [{ firstElement name minimum with hits := 0 }] } := by
  have named : (firstElement name minimum).name ≠ "" := by
    intro empty
    have chars := congrArg String.toList empty
    rw [firstElement, String.toList_append, String.toList_append, String.toList_append] at chars
    have bracket := (List.append_eq_nil_iff.mp (List.append_eq_nil_iff.mp
      (List.append_eq_nil_iff.mp chars).1).1).2
    exact absurd bracket (by decide)
  have ordered : ¬ ((firstElement name minimum).fromRanges ++ (firstElement name minimum).toRanges).any
      (fun range => decide (range.maximum < range.minimum)) = true := by
    simp [firstElement]
  have duplicate : (point.bins.any (·.name = (firstElement name minimum).name)) = true ↔
      ∃ bin ∈ point.bins, bin.name = name ++ "[" ++ toString minimum ++ "]" := by
    rw [List.any_eq_true]
    simp only [decide_eq_true_eq]
    rfl
  unfold addBin
  by_cases sampled : point.sampled = true
  · rw [if_pos (.inl sampled), if_pos sampled]
    exact ⟨_, rfl⟩
  by_cases isSealed : point.isSealed = true
  · rw [if_pos (.inr (.inl isSealed)), if_neg sampled, if_pos isSealed]
    exact ⟨_, rfl⟩
  rw [if_neg sampled, if_neg isSealed, if_neg named, if_neg ordered]
  by_cases taken : ∃ bin ∈ point.bins, bin.name = name ++ "[" ++ toString minimum ++ "]"
  · rw [if_pos (.inr (.inr taken)), if_pos (duplicate.mpr taken)]
    exact ⟨_, rfl⟩
  · rw [if_neg (not_or.mpr ⟨sampled, not_or.mpr ⟨isSealed, taken⟩⟩), if_neg (duplicate.not.mpr taken)]

/-- Adding bins one by one never takes bins away. -/
theorem length_addBins (point : Coverpoint σ) (bins : List Bin) :
    point.bins.length ≤ (point.addBins bins).1.bins.length := by
  induction bins generalizing point with
  | nil => exact le_rfl
  | cons bin rest ih =>
    rw [addBins]
    cases added : point.addBin bin with
    | error error => exact le_rfl
    | ok point' =>
      refine le_trans ?_ (ih point')
      unfold addBin at added
      split_ifs at added
      obtain rfl := Except.ok.inj added
      simp

end Coverpoint

namespace Covergroup

open Coverpoint (attempt attempt_error firstElement)

theorem setPoint_self {group : Covergroup σ} {index : ℕ} {point : Coverpoint σ}
    (here : group.points[index]? = some point) : group.setPoint index point = group := by
  obtain ⟨inside, rfl⟩ := List.getElem?_eq_some_iff.mp here
  unfold setPoint
  rw [List.set_getElem_self]

/-- An operation that changes nothing of the coverpoint when it throws. -/
theorem onPoint_of_rejected {group : Covergroup σ} {index : ℕ}
    {operation : Coverpoint σ → Coverpoint σ × Except String Unit}
    (unchanged : ∀ point, group.points[index]? = some point →
      ∀ error, (operation point).2 = .error error → (operation point).1 = point)
    {error : String} (rejected : (group.onPoint index operation).2 = .error error) :
    (group.onPoint index operation).1 = group := by
  unfold onPoint at rejected ⊢
  cases here : group.points[index]? with
  | none => rfl
  | some point =>
    rw [here] at rejected
    dsimp only at rejected ⊢
    rw [unchanged point here error rejected, setPoint_self here]

/-- Sealing coverpoints that are sealed changes nothing. -/
theorem foldl_sealed_of_sealed {points : List (Coverpoint σ)} {indices : List ℕ}
    (all : ∀ index ∈ indices, ∀ point, points[index]? = some point → point.isSealed = true) :
    indices.foldl (fun all index => all.modify index (·.sealed)) points = points := by
  refine List.ext_getElem? fun index => (getElem?_sealed indices points index).trans ?_
  cases here : points[index]? with
  | none => rfl
  | some point =>
    rw [Option.map_some]
    cases member : indices.contains index with
    | false => rw [Bool.or_false]
    | true =>
      have isSealed := all index (List.contains_iff_mem.mp member) point here
      rw [Bool.or_true, ← isSealed]

/-- A rejected declaration that makes its checks first leaves the group as it was. -/
theorem declare_of_checked {group : Covergroup σ} {declaration : Declaration σ} {error : String}
    (checked : group.Checked declaration) (rejected : (group.declare declaration).2 = .error error) :
    (group.declare declaration).1 = group := by
  cases declaration with
  | coverpoint name type extractor => exact attempt_error rejected
  | addBin index bin => exact onPoint_of_rejected (fun point _ error => attempt_error) rejected
  | addWildcard index kind name pattern =>
    exact onPoint_of_rejected (fun point _ error => attempt_error) rejected
  | binArray index name minimum maximum =>
    refine onPoint_of_rejected (fun point here error _ => ?_) rejected
    unfold Coverpoint.declareArray
    split
    · rfl
    next ordered =>
      obtain ⟨rest, array⟩ := Coverpoint.arrayBins_cons name minimum maximum
      have first := point.addBin_firstElement name minimum
      rw [if_pos ((checked point here).resolve_left ordered)] at first
      obtain ⟨error, first⟩ := first
      rw [array, Coverpoint.addBins, first]
  | iff index guard => exact onPoint_of_rejected (fun point _ error => nofun) rejected
  | cross name indices =>
    change (group.declareCross name indices).1 = group
    change (group.declareCross name indices).2 = _ at rejected
    unfold declareCross at rejected ⊢
    by_cases sampled : group.sampled = true
    · rw [if_pos sampled]
    rw [if_neg sampled] at rejected ⊢
    by_cases empty : name = ""
    · rw [if_pos empty]
    rw [if_neg empty] at rejected ⊢
    have same := foldl_sealed_of_sealed ((checked.resolve_left sampled).resolve_left empty)
    rw [sealPoints_eq, same] at rejected ⊢
    dsimp only at rejected ⊢
    split at rejected
    next foreign => rw [if_pos foreign]
    next belong =>
      rw [if_neg belong]
      split at rejected
      next duplicate => rw [if_pos duplicate]
      next fresh => exact nomatch rejected
  | filter index name select illegal => exact attempt_error rejected
  | crossIff index guard => exact nomatch rejected

/-! ### Declarations that are left half done are seen -/

/-- Sealing some coverpoints keeps what a program samples. -/
theorem sampled_sealPoints {points : List (Coverpoint σ)} (all : ∀ point ∈ points, point.sampled = false)
    (indices : List ℕ) : ∀ point ∈ (sealPoints points indices).1, point.sampled = false := by
  intro point member
  rw [sealPoints_eq] at member
  obtain ⟨index, found⟩ := List.mem_iff_getElem?.mp member
  obtain ⟨old, here, rfl⟩ := Option.map_eq_some_iff.mp ((getElem?_sealed _ points index).symm.trans found)
  exact all old (List.mem_of_getElem? here)

theorem sampled_attempt {point : Coverpoint σ} {result : Except String (Coverpoint σ)}
    (keeps : ∀ point', result = .ok point' → point'.sampled = point.sampled) :
    (attempt point result).1.sampled = point.sampled := by
  cases result with
  | ok point' => exact keeps point' rfl
  | error error => rfl

theorem sampled_addBin {point point' : Coverpoint σ} {bin : Bin} (added : point.addBin bin = .ok point') :
    point'.sampled = point.sampled := by
  unfold Coverpoint.addBin at added
  split_ifs at added
  obtain rfl := Except.ok.inj added
  rfl

theorem sampled_addBins (point : Coverpoint σ) (bins : List Bin) :
    (point.addBins bins).1.sampled = point.sampled := by
  induction bins generalizing point with
  | nil => rfl
  | cons bin rest ih =>
    rw [Coverpoint.addBins]
    cases added : point.addBin bin with
    | error error => rfl
    | ok point' => exact (ih point').trans (sampled_addBin added)

/-- The coverpoints of a group that has taken no sample have taken none either. -/
def Unsampled (group : Covergroup σ) : Prop :=
  group.sampled = false → ∀ point ∈ group.points, point.sampled = false

theorem unsampled_onPoint {group : Covergroup σ} {index : ℕ}
    {operation : Coverpoint σ → Coverpoint σ × Except String Unit}
    (keeps : ∀ point, (operation point).1.sampled = point.sampled)
    (all : group.Unsampled) : (group.onPoint index operation).1.Unsampled := by
  unfold onPoint
  cases here : group.points[index]? with
  | none => exact all
  | some point =>
    intro fresh other member
    rcases List.mem_or_eq_of_mem_set member with old | rfl
    · exact all fresh other old
    · exact (keeps point).trans (all fresh point (List.mem_of_getElem? here))

theorem unsampled_of_reachable {group : Covergroup σ} (reachable : Reachable group) : group.Unsampled := by
  induction reachable with
  | create created =>
    unfold Covergroup.create at created
    split_ifs at created
    obtain rfl := Except.ok.inj created
    exact fun _ _ member => (List.not_mem_nil member).elim
  | sample sample _ ih => exact nofun
  | @declare group declaration _ ih =>
    cases declaration with
    | coverpoint name type extractor =>
      change (attempt group (group.coverpoint name type extractor)).1.Unsampled
      unfold Covergroup.coverpoint
      split_ifs
      · exact ih
      · exact ih
      · exact ih
      · intro fresh point member
        rcases List.mem_append.mp member with old | new
        · exact ih fresh point old
        · rw [List.mem_singleton.mp new]
    | addBin index bin =>
      exact unsampled_onPoint (fun point => sampled_attempt fun point' => sampled_addBin) ih
    | addWildcard index kind name pattern =>
      refine unsampled_onPoint (fun point => sampled_attempt fun point' added => ?_) ih
      unfold Coverpoint.addWildcard at added
      split at added
      · exact nomatch added
      · split at added
        · exact nomatch added
        · exact sampled_addBin added
    | binArray index name minimum maximum =>
      refine unsampled_onPoint (fun point => ?_) ih
      unfold Coverpoint.declareArray
      split
      · rfl
      · exact sampled_addBins point _
    | iff index guard => exact unsampled_onPoint (fun point => rfl) ih
    | cross name indices =>
      change (group.declareCross name indices).1.Unsampled
      unfold declareCross
      dsimp only
      split_ifs
      · exact ih
      · exact ih
      · exact fun fresh => sampled_sealPoints (ih fresh) indices
      · exact fun fresh => sampled_sealPoints (ih fresh) indices
      · exact fun fresh => sampled_sealPoints (ih fresh) indices
    | filter index name select illegal =>
      change (attempt group (group.filter index name select illegal)).1.Unsampled
      unfold Covergroup.filter
      split_ifs
      · exact ih
      · exact ih
    | crossIff index guard => exact ih

/-- A snapshot shows the bins of every coverpoint. -/
theorem bins_of_same {group other : Covergroup σ} (same : group.Same other) (index : ℕ) :
    group.points[index]?.map (·.bins.length) = other.points[index]?.map (·.bins.length) := by
  have points : group.points.map (·.snapshot) = other.points.map (·.snapshot) :=
    congrArg (fun seen => seen.2.points) (same [])
  have each := congrArg (fun list => list[index]?.map (·.bins.length)) points
  have read (point : Coverpoint σ) : point.snapshot.bins.length = point.bins.length := List.length_map ..
  simpa only [List.getElem?_map, Option.map_map, Function.comp_def, read] using each

/-- A program that adds a bin sees whether a coverpoint is sealed. -/
theorem sealed_of_same {group other : Covergroup σ} (same : group.Same other) {index : ℕ}
    {point point' : Coverpoint σ} (here : group.points[index]? = some point)
    (here' : other.points[index]? = some point') (fresh : point.sampled = false)
    (isSealed : point'.isSealed = true) : point.isSealed = true := by
  by_contra unsealed
  obtain ⟨name, unused⟩ := Infinite.exists_notMem_finset (insert "" (point.bins.map (·.name)).toFinset)
  rw [Finset.mem_insert, List.mem_toFinset, not_or] at unused
  have accepted : (group.declare (.addBin index { name := name })).2 = .ok () := by
    have duplicate : ¬ (point.bins.any (·.name = name)) = true := by
      intro any
      obtain ⟨bin, member, named⟩ := List.any_eq_true.mp any
      exact unused.2 (List.mem_map.mpr ⟨bin, member, of_decide_eq_true named⟩)
    simp [declare, onPoint, here, Coverpoint.addBin, fresh, unsealed, unused.1, duplicate, attempt]
  have rejected : ∃ error, (other.declare (.addBin index { name := name })).2 = .error error := by
    simp only [declare, onPoint, here', Coverpoint.addBin]
    split_ifs
    · exact ⟨_, rfl⟩
    · exact ⟨_, rfl⟩
  obtain ⟨error, rejected⟩ := rejected
  have seen := congrArg (fun seen => seen.1.head?) (same [.declare (.addBin index { name := name })])
  simp only [observe, act, accepted, rejected, List.head?_cons, Except.isOk, Except.toBool] at seen
  exact absurd seen (by decide)

/-- A rejected declaration that a program cannot tell from none makes its checks first. -/
theorem checked_of_same {group : Covergroup σ} (reachable : Reachable group) {declaration : Declaration σ}
    (same : group.Same (group.declare declaration).1) : group.Checked declaration := by
  cases declaration with
  | binArray index name minimum maximum =>
    intro point here
    by_contra accepted
    rw [not_or] at accepted
    have first := point.addBin_firstElement name minimum
    rw [if_neg accepted.2] at first
    obtain ⟨rest, array⟩ := Coverpoint.arrayBins_cons name minimum maximum
    have more : point.bins.length < (point.declareArray name minimum maximum).1.bins.length := by
      unfold Coverpoint.declareArray
      rw [if_neg accepted.1, array, Coverpoint.addBins, first]
      refine lt_of_lt_of_le ?_ (Coverpoint.length_addBins _ rest)
      simp
    have shown := bins_of_same same index
    have inside := (List.getElem?_eq_some_iff.mp here).1
    simp only [declare, onPoint, here, setPoint, List.getElem?_set_self inside, Option.map_some,
      Option.some.injEq] at shown
    exact more.ne shown
  | cross name indices =>
    by_contra unchecked
    simp only [Checked, not_or, not_forall] at unchecked
    obtain ⟨sampled, named, index, member, point, here, unsealed⟩ := unchecked
    have fresh : group.sampled = false := Bool.eq_false_iff.mpr sampled
    have left : (group.declareCross name indices).1.points = (sealPoints group.points indices).1 := by
      unfold declareCross
      rw [if_neg sampled, if_neg named]
      dsimp only
      split_ifs
      · rfl
      · rfl
      · rfl
    have here' : (group.declare (.cross name indices)).1.points[index]? =
        some { point with isSealed := point.isSealed || true } := by
      change (group.declareCross name indices).1.points[index]? = _
      rw [left, sealPoints_eq]
      refine (getElem?_sealed _ group.points index).trans ?_
      rw [here, Option.map_some, List.contains_iff_mem.mpr member]
    exact unsealed (sealed_of_same same here here'
      (unsampled_of_reachable reachable fresh point (List.mem_of_getElem? here)) (Bool.or_true _))
  | coverpoint => trivial
  | addBin => trivial
  | addWildcard => trivial
  | iff => trivial
  | filter => trivial
  | crossIff => trivial

end Covergroup

/-- No program can tell a rejected declaration from none exactly when it makes its checks before it
changes anything, and then it leaves the covergroup as it was: what is seen is a `bin_array` whose first
element is accepted, and a `cross` that seals a coverpoint before it throws. -/
theorem rejected_declaration_same_iff {group : Covergroup σ} (reachable : Reachable group)
    (declaration : Declaration σ) {error : String}
    (rejected : (group.declare declaration).2 = .error error) :
    (group.Same (group.declare declaration).1 ↔ group.Checked declaration) ∧
      (group.Checked declaration → (group.declare declaration).1 = group) := by
  refine ⟨⟨Covergroup.checked_of_same reachable, fun checked => ?_⟩, fun checked =>
    Covergroup.declare_of_checked checked rejected⟩
  rw [Covergroup.declare_of_checked checked rejected]
  exact fun _ => rfl

/-- A covergroup with two coverpoints, one with a bin under the name of an array element, and no cross. -/
def arrayGroup : Covergroup ℕ where
  name := "array"
  points :=
    [{ name := "way"
       type := .integral 8 false
       bins := [{ name := "way[1]", fromRanges := [⟨1, 1⟩] }]
       extractor := fun sample => sample },
      { name := "set", type := .integral 8 false, extractor := fun sample => sample }]

theorem reachable_arrayGroup : Reachable arrayGroup := by
  have created := @Reachable.create ℕ "array" "" 0 { name := "array" } rfl
  have way := created.declare (.coverpoint "way" (.integral 8 false) fun sample : ℕ => (sample : Int))
  have bin := way.declare (.addBin 0 { name := "way[1]", fromRanges := [⟨1, 1⟩] })
  exact bin.declare (.coverpoint "set" (.integral 8 false) fun sample : ℕ => (sample : Int))

/-- A bin under a name that is taken is rejected, and leaves no trace. -/
theorem rejected_declaration_same_iff_bin :
    arrayGroup.Same (arrayGroup.declare (.addBin 0 { name := "way[1]" })).1 :=
  (rejected_declaration_same_iff reachable_arrayGroup (.addBin 0 { name := "way[1]" })
    (show (arrayGroup.declare (.addBin 0 { name := "way[1]" })).2 = .error _ from rfl)).1.mpr trivial

/-- An array whose second element is taken leaves the first one, and a cross with a coverpoint of another
group leaves its first coverpoint sealed. -/
theorem rejected_declaration_seen :
    (∃ error, (arrayGroup.declare (.binArray 0 "way" 0 1)).2 = .error error) ∧
      ¬ arrayGroup.Same (arrayGroup.declare (.binArray 0 "way" 0 1)).1 ∧
      (∃ error, (arrayGroup.declare (.cross "way_set" [1, 2])).2 = .error error) ∧
      ¬ arrayGroup.Same (arrayGroup.declare (.cross "way_set" [1, 2])).1 := by
  refine ⟨⟨_, rfl⟩, fun same => ?_, ⟨_, rfl⟩, fun same => ?_⟩
  · have shown := congrArg (fun seen => seen.2.points.map (·.bins.length)) (same [])
    revert shown
    decide +kernel
  · have seen := congrArg (fun seen => seen.1) (same [.declare (.addBin 1 { name := "low" })])
    revert seen
    decide +kernel

end Cpptb.Coverage
