/-
Covergroups.

A `Covergroup` holds coverpoints and crosses with their counters, as the source does: bins count their
hits, a coverpoint its samples and its illegal hits, a cross the hits of every combination of ordinary
bins and of its filters. A coverpoint sees the value its extractor takes from a sample, as the integer
`ordered` makes of it; a guard is a condition on the sample. `snapshot` reads the counters, and
`CoverageSnapshot.merge` adds those of another snapshot of the same model.

Counters have 64 bits and the illegal hits of one sample 32 bits, and both wrap.
-/

import Mathlib

namespace Cpptb.Coverage

variable {σ : Type}

/-! ### Snapshots -/

/-- `CoverageBinKind`. -/
inductive CoverageBinKind
  | ordinary
  | ignore
  | illegal
  | transition
  deriving DecidableEq, Repr

/-- `CoverageBinSnapshot`. -/
structure CoverageBinSnapshot where
  name : String
  kind : CoverageBinKind
  hits : UInt64
  deriving DecidableEq, Repr

/-- `CoveragePointSnapshot`. -/
structure CoveragePointSnapshot where
  name : String
  samples : UInt64
  illegalHits : UInt64
  bins : List CoverageBinSnapshot
  deriving DecidableEq, Repr

/-- `CoverageCrossBinSnapshot`. -/
structure CoverageCrossBinSnapshot where
  bins : List String
  hits : UInt64
  deriving DecidableEq, Repr

/-- `CoverageCrossSnapshot`. -/
structure CoverageCrossSnapshot where
  name : String
  points : List String
  ignored : List String
  illegal : List String
  illegalHits : UInt64
  bins : List CoverageCrossBinSnapshot
  deriving DecidableEq, Repr

/-- `CoverageSnapshot`. -/
structure CoverageSnapshot where
  name : String
  sourceFile : String := ""
  sourceLine : Nat := 0
  samples : UInt64
  illegalHits : UInt64
  points : List CoveragePointSnapshot
  crosses : List CoverageCrossSnapshot
  deriving DecidableEq, Repr

/-! ### Merging -/

/-- `merge` finds the model of two bins to be the same. -/
def CoverageBinSnapshot.compatible (bin incoming : CoverageBinSnapshot) : Bool :=
  bin.name = incoming.name && bin.kind = incoming.kind

/-- `merge` finds the model of two coverpoints to be the same. -/
def CoveragePointSnapshot.compatible (point incoming : CoveragePointSnapshot) : Bool :=
  point.name = incoming.name && point.bins.length = incoming.bins.length &&
    (List.zipWith CoverageBinSnapshot.compatible point.bins incoming.bins).all id

/-- `merge` finds two cross bins to be the same. -/
def CoverageCrossBinSnapshot.compatible (bin incoming : CoverageCrossBinSnapshot) : Bool :=
  bin.bins = incoming.bins

/-- `merge` finds the model of two crosses to be the same. -/
def CoverageCrossSnapshot.compatible (cross incoming : CoverageCrossSnapshot) : Bool :=
  cross.name = incoming.name && cross.points = incoming.points &&
    cross.ignored = incoming.ignored && cross.illegal = incoming.illegal &&
    cross.bins.length = incoming.bins.length &&
    (List.zipWith CoverageCrossBinSnapshot.compatible cross.bins incoming.bins).all id

namespace CoverageSnapshot

/-- The checks `merge` makes before it changes anything. -/
def compatible (target other : CoverageSnapshot) : Bool :=
  target.name = other.name && target.points.length = other.points.length &&
    target.crosses.length = other.crosses.length &&
    (List.zipWith CoveragePointSnapshot.compatible target.points other.points).all id &&
    (List.zipWith CoverageCrossSnapshot.compatible target.crosses other.crosses).all id

/-- What `merge` adds to a coverpoint. -/
def mergePoint (point incoming : CoveragePointSnapshot) : CoveragePointSnapshot :=
  { point with
    samples := point.samples + incoming.samples
    illegalHits := point.illegalHits + incoming.illegalHits
    bins := List.zipWith
      (fun bin incomingBin => { bin with hits := bin.hits + incomingBin.hits })
      point.bins incoming.bins }

/-- What `merge` adds to a cross. -/
def mergeCross (cross incoming : CoverageCrossSnapshot) : CoverageCrossSnapshot :=
  { cross with
    bins := List.zipWith
      (fun bin incomingBin => { bin with hits := bin.hits + incomingBin.hits })
      cross.bins incoming.bins }

/-- `merge`: the snapshot it leaves, and the exception it throws. -/
def merge (target other : CoverageSnapshot) : CoverageSnapshot × Except String Unit :=
  if target.compatible other then
    ({ target with
      samples := target.samples + other.samples
      illegalHits := target.illegalHits + other.illegalHits
      points := List.zipWith mergePoint target.points other.points
      crosses := List.zipWith mergeCross target.crosses other.crosses }, .ok ())
  else (target, .error "cpptb coverage snapshots have different models")

end CoverageSnapshot

/-! ### Coverpoints -/

/-- The type of a coverpoint's values. -/
inductive ValueType
  | boolean
  | integral (bits : Nat) (signed : Bool)
  deriving DecidableEq, Repr

/-- `static_cast<Value>` of an integer, as `ordered` shows it. -/
def ValueType.cast : ValueType → Int → Int
  | .boolean, value => if value = 0 then 0 else 1
  | .integral bits signed, value =>
      if signed then Int.bmod value (2 ^ bits) else value % 2 ^ bits

/-- `Range`. -/
structure Range where
  minimum : Int
  maximum : Int
  deriving DecidableEq, Repr

/-- `contains`. -/
def Range.contains (range : Range) (value : Int) : Bool :=
  range.minimum ≤ value && value ≤ range.maximum

/-- `Bin`. -/
structure Bin where
  name : String
  kind : CoverageBinKind := .ordinary
  fromRanges : List Range := []
  toRanges : List Range := []
  wildcard : Bool := false
  care : UInt64 := 0
  want : UInt64 := 0
  defaultSequence : Bool := false
  hits : UInt64 := 0
  deriving DecidableEq, Repr

namespace Bin

/-- `matches_from`. -/
def matchesFrom (bin : Bin) (value : Int) : Bool :=
  if bin.wildcard then UInt64.ofInt value &&& bin.care == bin.want
  else bin.fromRanges.any (·.contains value)

/-- `matches_to`. -/
def matchesTo (bin : Bin) (value : Int) : Bool := bin.toRanges.any (·.contains value)

/-- `++bin.hits`, under a condition. -/
def hitIf (bin : Bin) (condition : Bool) : Bin :=
  if condition then { bin with hits := bin.hits + 1 } else bin

/-- The bin is an ignore or illegal bin that takes the value. -/
def excludes (bin : Bin) (value : Int) : Bool :=
  (bin.kind = .ignore || bin.kind = .illegal) && !bin.defaultSequence && bin.matchesFrom value

/-- The bin is a transition bin that takes the step from the previous value. -/
def takes (bin : Bin) (previous : Option Int) (value : Int) : Bool :=
  bin.kind = .transition &&
    match previous with
    | none => false
    | some before => bin.matchesFrom before && bin.matchesTo value

/-- The bin is an ordinary bin that takes the value, or a transition bin that takes the step. -/
def covers (bin : Bin) (previous : Option Int) (value : Int) : Bool :=
  (bin.kind = .ordinary && bin.matchesFrom value) || bin.takes previous value

end Bin

/-- What a cross asks of a coverpoint: the functions of `CoverpointBase` that do not change once it is
part of a cross. -/
structure CoverpointBase where
  name : String
  ordinaryBinCount : Nat
  ordinaryBinName : Nat → String
  ordinaryBinAccepts : Nat → Int → Bool

/-- `Coverpoint`, with its extractor. -/
structure Coverpoint (σ : Type) where
  name : String
  type : ValueType
  extractor : σ → Int
  guard : Option (σ → Bool) := none
  bins : List Bin := []
  samples : UInt64 := 0
  illegalHits : UInt64 := 0
  previous : Option Int := none
  lastOrdinaryHits : List Nat := []
  sampled : Bool := false
  isSealed : Bool := false

namespace Coverpoint

/-- The ordinary bins, in the order of `ordinary_bin_names_`. -/
def ordinaryBins (point : Coverpoint σ) : List Bin := point.bins.filter (·.kind = .ordinary)

/-- `ordinary_bin_count`. -/
def ordinaryBinCount (point : Coverpoint σ) : Nat := point.ordinaryBins.length

/-- The indices of the ordinary bins that take a value, as the second loop of `sample` collects
them. -/
def ordinaryHits (point : Coverpoint σ) (value : Int) : List Nat :=
  (List.range point.ordinaryBinCount).filter fun index =>
    (point.ordinaryBins[index]?.map (·.matchesFrom value)).getD false

/-- `sample`, of the value in a sample: the coverpoint and the illegal hits. -/
def sample (point : Coverpoint σ) (sample : σ) : Coverpoint σ × UInt32 :=
  let value := point.extractor sample
  let cleared := { point with sampled := true, lastOrdinaryHits := [] }
  if (point.guard.map (· sample)) = some false then (cleared, 0)
  else
    let illegal := point.bins.countP fun bin => bin.excludes value && bin.kind = .illegal
    let ignored := point.bins.any fun bin => bin.excludes value && bin.kind = .ignore
    let excluded := point.bins.map fun bin => bin.hitIf (bin.excludes value)
    let sampled := { cleared with
      samples := point.samples + 1
      previous := some value }
    if !ignored && UInt32.ofNat illegal == 0 then
      let covered := excluded.map fun bin => bin.hitIf (bin.covers point.previous value)
      -- `default sequence`: there is a previous value, and no transition bin took the step
      let missed := covered.any (·.kind = .transition) && point.previous.isSome &&
        !(covered.any fun bin => bin.takes point.previous value)
      let missing := if missed then covered.countP (·.defaultSequence) else 0
      ({ sampled with
        illegalHits := point.illegalHits + UInt64.ofNat illegal + UInt64.ofNat missing
        bins := covered.map fun bin => bin.hitIf (missed && bin.defaultSequence)
        lastOrdinaryHits := point.ordinaryHits value },
        UInt32.ofNat illegal + UInt32.ofNat missing)
    else
      ({ sampled with illegalHits := point.illegalHits + UInt64.ofNat illegal, bins := excluded },
        UInt32.ofNat illegal)

/-- The coverpoint as a cross sees it. -/
def base (point : Coverpoint σ) : CoverpointBase where
  name := point.name
  ordinaryBinCount := point.ordinaryBinCount
  ordinaryBinName := fun index => (point.ordinaryBins[index]?.map (·.name)).getD ""
  ordinaryBinAccepts := fun index value =>
    (point.ordinaryBins[index]?.map (·.matchesFrom (point.type.cast value))).getD false

/-- `snapshot`. -/
def snapshot (point : Coverpoint σ) : CoveragePointSnapshot where
  name := point.name
  samples := point.samples
  illegalHits := point.illegalHits
  bins := point.bins.map fun bin => ⟨bin.name, bin.kind, bin.hits⟩

end Coverpoint

/-! ### Crosses -/

/-- `CrossBinRef`: the coverpoints of a cross, by their index in the group, and one bin of each. -/
structure CrossBinRef where
  points : List (Nat × CoverpointBase)
  bins : List Nat

/-- The nodes of a select expression. `whereBins` is the predicate of `where` on the names of the
coverpoints and bins of a combination. -/
inductive Select
  | binsOf (point : Nat) (pointName : String) (values : List Int)
  | whereBins (text : String) (test : List (String × String) → Bool)
  | binary (conjunction : Bool) (left right : Select)
  | negation (inner : Select)

/-- `matches`. -/
def Select.matches (bin : CrossBinRef) : Select → Bool
  | .binsOf point _ values =>
      match (bin.points.zip bin.bins).find? (·.1.1 = point) with
      | none => false
      | some ((_, found), which) => values = [] || values.any (found.ordinaryBinAccepts which)
  | .whereBins _ test =>
      test ((bin.points.zip bin.bins).map fun entry =>
        (entry.1.2.name, entry.1.2.ordinaryBinName entry.2))
  | .binary true left right => left.matches bin && right.matches bin
  | .binary false left right => left.matches bin || right.matches bin
  | .negation inner => !inner.matches bin

/-- `describe`. -/
def Select.describe : Select → String
  | .binsOf _ pointName values =>
      if values = [] then "binsof(" ++ pointName ++ ")"
      else "binsof(" ++ pointName ++ ") intersect \x7b" ++
        String.intercalate ", " (values.map toString) ++ "\x7d"
  | .whereBins text _ => "where(" ++ text ++ ")"
  | .binary conjunction left right =>
      "(" ++ left.describe ++ (if conjunction then " && " else " || ") ++ right.describe ++ ")"
  | .negation inner => "!" ++ inner.describe

/-- `Cross::Filter`. -/
structure Filter where
  name : String
  select : Select
  illegal : Bool := false
  hits : UInt64 := 0

/-- `hits++` of a filter. -/
def Filter.hit (filter : Filter) : Filter := { filter with hits := filter.hits + 1 }

/-- `Cross`. -/
structure Cross (σ : Type) where
  name : String
  points : List Nat
  hits : List UInt64
  filters : List Filter := []
  guard : Option (σ → Bool) := none
  illegalHits : UInt64 := 0

namespace Cross

/-- The coverpoints of a cross, with their indices. -/
def crossed (cross : Cross σ) (points : List (Coverpoint σ)) : List (Nat × CoverpointBase) :=
  cross.points.filterMap fun index => points[index]?.map fun point => (index, point.base)

/-- The bins that each coverpoint of a cross has hit. -/
def lastOrdinaryHits (cross : Cross σ) (points : List (Coverpoint σ)) : List (List Nat) :=
  cross.points.filterMap fun index => points[index]?.map (·.lastOrdinaryHits)

/-- `index_of`. -/
def indexOf (points : List (Nat × CoverpointBase)) (bins : List Nat) : Nat :=
  (points.zip bins).foldl (fun index entry => index * entry.1.2.ordinaryBinCount + entry.2) 0

/-- `excluded_by`: the index of the filter that removes a combination. -/
def excludedBy (cross : Cross σ) (points : List (Nat × CoverpointBase)) (bins : List Nat) :
    Option Nat :=
  match cross.filters.findIdx? fun filter => filter.select.matches ⟨points, bins⟩ && !filter.illegal with
  | some index => some index
  | none => cross.filters.findIdx? fun filter => filter.select.matches ⟨points, bins⟩

/-- The end of `walk`: count a combination. -/
def count (points : List (Nat × CoverpointBase)) (state : Cross σ × UInt32) (bins : List Nat) :
    Cross σ × UInt32 :=
  let cross := state.1
  match cross.excludedBy points bins with
  | none => ({ cross with hits := cross.hits.modify (indexOf points bins) (· + 1) }, state.2)
  | some index =>
      let filters := cross.filters.modify index Filter.hit
      if (cross.filters[index]?.map (·.illegal)).getD false then
        ({ cross with filters := filters, illegalHits := cross.illegalHits + 1 }, state.2 + 1)
      else ({ cross with filters := filters }, state.2)

/-- `walk`: the combinations of one bin from each list, in the order it visits them. -/
def walk : List (List Nat) → List (List Nat)
  | [] => [[]]
  | hits :: rest => hits.flatMap fun bin => (walk rest).map (bin :: ·)

/-- `sample`: the cross and the illegal hits. -/
def sample (cross : Cross σ) (points : List (Coverpoint σ)) (sample : σ) : Cross σ × UInt32 :=
  if (cross.guard.map (· sample)) = some false then (cross, 0)
  else (walk (cross.lastOrdinaryHits points)).foldl (count (cross.crossed points)) (cross, 0)

/-- `snapshot`, with `collect`. -/
def snapshot (cross : Cross σ) (points : List (Coverpoint σ)) : CoverageCrossSnapshot :=
  let crossed := cross.crossed points
  { name := cross.name
    points := crossed.map (·.2.name)
    ignored := (cross.filters.filter (!·.illegal)).map fun filter =>
      filter.name ++ " = " ++ filter.select.describe
    illegal := (cross.filters.filter (·.illegal)).map fun filter =>
      filter.name ++ " = " ++ filter.select.describe
    illegalHits := cross.illegalHits
    bins := ((walk (crossed.map fun entry => List.range entry.2.ordinaryBinCount)).filter
      fun bins => cross.excludedBy crossed bins = none).map fun bins =>
        { bins := (crossed.zip bins).map fun entry => entry.1.2.ordinaryBinName entry.2
          hits := (cross.hits[indexOf crossed bins]?).getD 0 } }

end Cross

/-! ### Covergroups -/

/-- `Covergroup`. -/
structure Covergroup (σ : Type) where
  name : String
  sourceFile : String := ""
  sourceLine : Nat := 0
  points : List (Coverpoint σ) := []
  crosses : List (Cross σ) := []
  samples : UInt64 := 0
  illegalHits : UInt64 := 0
  sampled : Bool := false

namespace Covergroup

/-- `sample`: the coverpoints, and then the crosses over the bins they have hit. -/
def sample (group : Covergroup σ) (sample : σ) : Covergroup σ :=
  let points := group.points.map (·.sample sample)
  let crosses := group.crosses.map (·.sample (points.map (·.1)) sample)
  let illegal := (points.map (·.2)).sum + (crosses.map (·.2)).sum
  { group with
    sampled := true
    samples := group.samples + 1
    points := points.map (·.1)
    crosses := crosses.map (·.1)
    illegalHits := group.illegalHits + illegal.toUInt64 }

/-- Feed a sequence of samples. -/
def sampleAll (group : Covergroup σ) (samples : List σ) : Covergroup σ :=
  samples.foldl sample group

/-- `snapshot`. -/
def snapshot (group : Covergroup σ) : CoverageSnapshot where
  name := group.name
  sourceFile := group.sourceFile
  sourceLine := group.sourceLine
  samples := group.samples
  illegalHits := group.illegalHits
  points := group.points.map (·.snapshot)
  crosses := group.crosses.map (·.snapshot group.points)

end Covergroup

/-! ### Declaring -/

namespace Coverpoint

/-- `add_bin`. -/
def addBin (point : Coverpoint σ) (bin : Bin) : Except String (Coverpoint σ) :=
  if point.sampled then .error "cpptb coverage bins cannot be added after sampling"
  else if point.isSealed then
    .error "cpptb coverage bins cannot be added after the coverpoint is used in a cross"
  else if bin.name = "" then .error "cpptb coverage bin name is empty"
  else if (bin.fromRanges ++ bin.toRanges).any fun range => range.maximum < range.minimum then
    .error ("cpptb coverage bin '" ++ bin.name ++ "' has a reversed range")
  else if point.bins.any (·.name = bin.name) then
    .error ("duplicate cpptb coverage bin '" ++ bin.name ++ "'")
  else .ok { point with bins := point.bins ++ [{ bin with hits := 0 }] }

/-- `bin`. -/
def bin (point : Coverpoint σ) (name : String) (ranges : List Range) :
    Except String (Coverpoint σ) :=
  point.addBin { name := name, fromRanges := ranges }

/-- `ignore_bin`. -/
def ignoreBin (point : Coverpoint σ) (name : String) (ranges : List Range) :
    Except String (Coverpoint σ) :=
  point.addBin { name := name, kind := .ignore, fromRanges := ranges }

/-- `illegal_bin`. -/
def illegalBin (point : Coverpoint σ) (name : String) (ranges : List Range) :
    Except String (Coverpoint σ) :=
  point.addBin { name := name, kind := .illegal, fromRanges := ranges }

/-- `transition_bin`. -/
def transitionBin (point : Coverpoint σ) (name : String) (before after : Int) :
    Except String (Coverpoint σ) :=
  point.addBin
    { name := name, kind := .transition, fromRanges := [⟨before, before⟩], toRanges := [⟨after, after⟩] }

/-- `illegal_default_sequence`. -/
def illegalDefaultSequence (point : Coverpoint σ) (name : String) : Except String (Coverpoint σ) :=
  point.addBin { name := name, kind := .illegal, defaultSequence := true }

/-- The loop of `add_wildcard` over the pattern: the care mask, the wanted bits and their number. -/
def wildcardBits : List Char → UInt64 × UInt64 × Nat → Option (UInt64 × UInt64 × Nat)
  | [], bits => some bits
  | '_' :: rest, bits => wildcardBits rest bits
  | character :: rest, (care, want, count) =>
      if character = '0' then wildcardBits rest (care <<< 1 ||| 1, want <<< 1, count + 1)
      else if character = '1' then wildcardBits rest (care <<< 1 ||| 1, want <<< 1 ||| 1, count + 1)
      else if character = '?' ∨ character = 'x' ∨ character = 'X' then
        wildcardBits rest (care <<< 1, want <<< 1, count + 1)
      else none

/-- `add_wildcard`. -/
def addWildcard (point : Coverpoint σ) (kind : CoverageBinKind) (name pattern : String) :
    Except String (Coverpoint σ) :=
  match wildcardBits pattern.toList (0, 0, 0) with
  | none =>
      .error ("cpptb wildcard bin '" ++ name ++
        "' has a character other than 0, 1, ? or x in its pattern")
  | some (care, want, bits) =>
      if bits = 0 ∨ 64 < bits then
        .error ("cpptb wildcard bin '" ++ name ++ "' needs between 1 and 64 pattern bits")
      else point.addBin { name := name, kind := kind, wildcard := true, care := care, want := want }

/-- `bin_array`. -/
def binArray (point : Coverpoint σ) (name : String) (minimum maximum : Int) :
    Except String (Coverpoint σ) :=
  if maximum < minimum then
    .error ("cpptb coverage bin array '" ++ name ++ "' has a reversed range")
  else
    (List.range ((maximum - minimum).toNat + 1)).foldlM (fun point offset =>
      let value := minimum + offset
      point.bin (name ++ "[" ++ toString value ++ "]") [⟨value, value⟩]) point

/-- `iff`. -/
def iff (point : Coverpoint σ) (guard : σ → Bool) : Coverpoint σ := { point with guard := some guard }

end Coverpoint

namespace Covergroup

/-- The constructor. -/
def create (name sourceFile : String) (sourceLine : Nat) : Except String (Covergroup σ) :=
  if name = "" then .error "cpptb covergroup name is empty"
  else .ok { name := name, sourceFile := sourceFile, sourceLine := sourceLine }

/-- `coverpoint`, with the check of the `CoverpointBase` constructor. -/
def coverpoint (group : Covergroup σ) (name : String) (type : ValueType) (extractor : σ → Int) :
    Except String (Covergroup σ) :=
  if group.sampled then .error "cpptb coverpoints cannot be added after sampling"
  else if group.points.any (·.name = name) then
    .error ("duplicate cpptb coverpoint '" ++ name ++ "'")
  else if name = "" then .error "cpptb coverpoint name is empty"
  else .ok { group with
    points := group.points ++ [{ name := name, type := type, extractor := extractor }] }

/-- Replace a coverpoint: the reference `coverpoint` returns is to one of the group. -/
def setPoint (group : Covergroup σ) (index : Nat) (point : Coverpoint σ) : Covergroup σ :=
  { group with points := group.points.set index point }

/-- `cross`. -/
def cross (group : Covergroup σ) (name : String) (points : List Nat) :
    Except String (Covergroup σ) :=
  if group.sampled then .error "cpptb crosses cannot be added after sampling"
  else if name = "" then .error "cpptb coverage cross name is empty"
  else if points.any (group.points.length ≤ ·) then
    .error "cpptb cross coverpoints must belong to the covergroup"
  else if group.crosses.any (·.name = name) then
    .error ("duplicate cpptb coverage cross '" ++ name ++ "'")
  else
    let total := (points.map fun index =>
      (group.points[index]?.map (·.ordinaryBinCount)).getD 1).prod
    .ok { group with
      points := points.foldl (fun all index =>
        all.modify index fun point => { point with isSealed := true }) group.points
      crosses := group.crosses ++
        [{ name := name, points := points, hits := List.replicate total 0 }] }

/-- `CrossRef::add`. -/
def filter (group : Covergroup σ) (index : Nat) (name : String) (select : Select) (illegal : Bool) :
    Except String (Covergroup σ) :=
  if name = "" then .error "cpptb cross bin filter name is empty"
  else .ok { group with
    crosses := group.crosses.modify index fun cross =>
      { cross with
        filters := cross.filters ++ [{ name := name, select := select, illegal := illegal }] } }

/-- `CrossRef::iff`. -/
def crossIff (group : Covergroup σ) (index : Nat) (guard : σ → Bool) : Covergroup σ :=
  { group with crosses := group.crosses.modify index fun cross => { cross with guard := some guard } }

end Covergroup

/-- The covergroups a program can declare. -/
inductive Declared : Covergroup σ → Prop
  | create {name sourceFile : String} {sourceLine : Nat} {group : Covergroup σ} :
      Covergroup.create name sourceFile sourceLine = .ok group → Declared group
  | coverpoint {group group' : Covergroup σ} {name : String} {type : ValueType}
      {extractor : σ → Int} : Declared group → group.coverpoint name type extractor = .ok group' →
      Declared group'
  | addBin {group : Covergroup σ} {index : Nat} {point point' : Coverpoint σ} {bin : Bin} :
      Declared group → group.points[index]? = some point → point.addBin bin = .ok point' →
      Declared (group.setPoint index point')
  | iff {group : Covergroup σ} {index : Nat} {point : Coverpoint σ} {guard : σ → Bool} :
      Declared group → group.points[index]? = some point →
      Declared (group.setPoint index (point.iff guard))
  | cross {group group' : Covergroup σ} {name : String} {points : List Nat} :
      Declared group → 2 ≤ points.length → group.cross name points = .ok group' → Declared group'
  | filter {group group' : Covergroup σ} {index : Nat} {name : String} {select : Select}
      {illegal : Bool} : Declared group → group.filter index name select illegal = .ok group' →
      Declared group'
  | crossIff {group : Covergroup σ} {index : Nat} {guard : σ → Bool} :
      Declared group → Declared (group.crossIff index guard)

end Cpptb.Coverage
