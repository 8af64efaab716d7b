/-
The generated lookup of a signal by its hierarchy path.

The generator prints a table of the paths, sorted by code points, a three-way comparison of `const char*`
entries with a path, a binary search with it, and a member expression for each position of the table.

* `hierarchyIndex_absent`: a path that is not in the table is not found.
* `sorted_keys_iff`: the order of the table is the order of the comparison, unless `char` is signed and
  two paths first differ in a byte that only one of them has beyond ASCII.
* `lookup_exact_iff`: the paths for which the lookup is exact.
-/

import Cpptb.Lib.BinarySearch
import Cpptb.Lib.Checked
import Cpptb.Dpi.CppText

namespace Cpptb.Bindings

open Utf8 (encode)

/-! ### The generator -/

section Generator

/-- `HierarchySignal`, what the lookup reads of it. -/
structure HierarchySignal where
  hdlPath : String
  cppPath : List String
  deriving DecidableEq

/-- `re.fullmatch(r"(.+)\[(-?\d+)\]", component)`, with the index as an integer. -/
def indexedComponent (component : String) : Option (String × ℤ) :=
  let named (base : List Char) (index : ℤ) : Option (String × ℤ) :=
    if base = [] ∨ '\n' ∈ base then none else some (String.ofList base.reverse, index)
  match component.toList.reverse with
  | ']' :: rest =>
    let digits := rest.takeWhile Char.isDigit
    if digits = [] then none
    else
      match rest.dropWhile Char.isDigit with
      | '-' :: '[' :: base => named base (-(Nat.ofDigitChars 10 digits.reverse 0 : ℤ))
      | '[' :: base => named base (Nat.ofDigitChars 10 digits.reverse 0)
      | _ => none
  | _ => none

/-- `hierarchy_signal_member_expression`. -/
def memberExpression (signal : HierarchySignal) : String :=
  signal.cppPath.dropLast.foldl (fun expression component =>
    match indexedComponent component with
    | some (base, index) => expression ++ "." ++ cppIdentifier base ++ ".template at<" ++ toString index ++ ">()"
    | none => expression ++ "." ++ cppIdentifier component) "(*this)" ++
  "." ++ cppIdentifier (signal.cppPath.getLastD "")

/-- `sorted(hierarchy.signals, key=lambda signal: signal.hdl_path)`. -/
def orderedSignals (signals : List HierarchySignal) : List HierarchySignal :=
  signals.insertionSort fun first second => first.hdlPath ≤ second.hdlPath

/-- The generated table and the arms of `cpptb_signal`. -/
structure Lookup where
  paths : List String
  arms : List String

/-- `render_cpp_hierarchy_lookup`. -/
def renderCppHierarchyLookup (signals : List HierarchySignal) : Option Lookup :=
  if signals = [] then none
  else some ⟨(orderedSignals signals).map fun signal => jsonDumps signal.hdlPath,
    (orderedSignals signals).map memberExpression⟩

end Generator

/-! ### The generated functions -/

section Generated

/-- The value of a `char`, which may be signed. -/
def charValue (signed : Bool) (byte : UInt8) : ℤ :=
  if signed = true ∧ 0x80 ≤ byte.toNat then byte.toNat - 0x100 else byte.toNat

/-- What is before the terminator. -/
def cString (bytes : List UInt8) : List UInt8 := bytes.takeWhile (· ≠ 0)

/-- `cpptb_hierarchy_compare`. -/
def hierarchyCompare (signed : Bool) : List UInt8 → List UInt8 → ℤ
  | entry, [] => if entry = [] then 0 else 1
  | [], _ :: _ => -1
  | byte :: entry, character :: path =>
    if byte ≠ character then (if charValue signed byte < charValue signed character then -1 else 1)
    else hierarchyCompare signed entry path

/-- `cpptb_hierarchy_index`. -/
def hierarchyIndex (signed : Bool) (table : List (List UInt8)) (path : List UInt8) : ℕ :=
  BinarySearch.search (fun middle => hierarchyCompare signed (table.getD middle []) path)
    table.length 0 table.length

/-- `cpptb_hierarchy_paths`, if its literals are well-formed. -/
def Lookup.table (lookup : Lookup) : Option (List (List UInt8)) :=
  lookup.paths.mapM fun literal => (cppLiteral literal).map cString

def Lookup.index (lookup : Lookup) (signed : Bool) (path : List UInt8) : Option ℕ :=
  lookup.table.map fun table => hierarchyIndex signed table path

/-- What `cpptb_signal<Path>` is: an expression, the empty `UnsupportedSignal`, or no program. -/
inductive Selection where
  | member (expression : String)
  | unsupported
  | rejected
  deriving DecidableEq

/-- `cpptb_signal`. -/
def cpptbSignal (signed : Bool) (signals : List HierarchySignal) (path : List UInt8) : Selection :=
  match renderCppHierarchyLookup signals with
  | none => .rejected
  | some lookup =>
    match lookup.index signed path with
    | none => .rejected
    | some index =>
      match lookup.arms[index]? with
      | some expression => .member expression
      -- The static assertion is that the path is empty.
      | none => if path = [] then .unsupported else .rejected

end Generated

/-! ### The comparison -/

section Comparison

variable {signed : Bool}

/-- The values of the bytes, in whose order entries are compared. -/
def keys (signed : Bool) (bytes : List UInt8) : List ℤ := bytes.map (charValue signed)

theorem charValue_injective : Function.Injective (charValue signed) := by
  intro first second same
  have low := first.toNat_lt
  have low' := second.toNat_lt
  apply UInt8.toNat_inj.mp
  unfold charValue at same
  split_ifs at same <;> omega

theorem keys_injective : Function.Injective (keys signed) := charValue_injective.list_map

theorem hierarchyCompare_eq (entry path : List UInt8) :
    hierarchyCompare signed entry path = BinarySearch.compareLists (keys signed entry) (keys signed path) := by
  induction entry generalizing path with
  | nil =>
    cases path with
    | nil => rfl
    | cons character path => rfl
  | cons byte entry ih =>
    cases path with
    | nil => rfl
    | cons character path =>
      simp only [hierarchyCompare, keys, List.map_cons, BinarySearch.compareLists]
      by_cases same : byte = character
      · rw [if_neg (not_not.mpr same), if_pos (congrArg _ same), ih]
        rfl
      · rw [if_pos same, if_neg fun equal => same (charValue_injective equal)]

theorem compares_hierarchyCompare (entry path : List UInt8) :
    hierarchyCompare signed entry path = 0 ↔ entry = path := by
  rw [hierarchyCompare_eq, BinarySearch.compares_compareLists.zero_iff]
  exact keys_injective.eq_iff

/-- A path that is not in the table is not found. -/
theorem hierarchyIndex_absent {table : List (List UInt8)} {path : List UInt8} (absent : path ∉ table) :
    hierarchyIndex signed table path = table.length := by
  refine BinarySearch.search_absent fun position _ inside zero => absent ?_
  have same := (compares_hierarchyCompare _ _).mp zero
  rw [List.getD_eq_getElem _ _ inside] at same
  exact same ▸ List.getElem_mem inside

/-- What is found is there. -/
theorem getElem_of_hierarchyIndex {table : List (List UInt8)} {path : List UInt8} {position : ℕ}
    (inside : position < table.length) (found : hierarchyIndex signed table path = position) :
    table[position] = path := by
  unfold hierarchyIndex at found
  rcases @BinarySearch.search_mem (fun middle => hierarchyCompare signed (table.getD middle []) path)
    table.length 0 table.length with missing | ⟨-, -, zero⟩
  · omega
  · rw [found] at zero
    have same := (compares_hierarchyCompare _ _).mp zero
    rwa [List.getD_eq_getElem _ _ inside] at same

end Comparison

/-! ### The table -/

section Tables

variable {signed : Bool} {signals : List HierarchySignal}

/-- The bytes of the paths, in the order of the table. -/
def orderedPaths (signals : List HierarchySignal) : List (List UInt8) :=
  (orderedSignals signals).map fun signal => encode signal.hdlPath

/-- A path that an entry of the table can hold: no terminator, and no pair of surrogates. -/
def Expressible (path : String) : Prop :=
  ∀ character ∈ path.toList, character ≠ '\x00' ∧ character.toNat < 0x10000

theorem expressible_of_all {path : String}
    (all : path.toList.all fun character => character != '\x00' && Nat.blt character.toNat 0x10000) :
    Expressible path := by
  intro character mem
  have both := List.all_eq_true.mp all character mem
  rw [Bool.and_eq_true, bne_iff_ne] at both
  exact ⟨both.1, Nat.le_of_ble_eq_true both.2⟩

/-- The first difference is a byte of ASCII against one beyond. -/
def Crossing (first second : List UInt8) : Prop :=
  ∃ common byte firsts byte' seconds, first = common ++ byte :: firsts ∧
    second = common ++ byte' :: seconds ∧ byte.toNat < 0x80 ∧ 0x80 ≤ byte'.toNat

theorem charValue_false (byte : UInt8) : charValue false byte = byte.toNat :=
  if_neg fun both => Bool.false_ne_true both.1

theorem charValue_true (byte : UInt8) :
    charValue true byte = if 0x80 ≤ byte.toNat then (byte.toNat - 0x100 : ℤ) else byte.toNat := by
  unfold charValue
  simp only [true_and]

theorem mem_orderedSignals {signal : HierarchySignal} : signal ∈ orderedSignals signals ↔ signal ∈ signals :=
  List.mem_insertionSort _

theorem length_orderedPaths : (orderedPaths signals).length = (orderedSignals signals).length :=
  List.length_map _

theorem mem_orderedPaths {path : List UInt8} :
    path ∈ orderedPaths signals ↔ ∃ signal ∈ signals, encode signal.hdlPath = path := by
  simp only [orderedPaths, List.mem_map, mem_orderedSignals]

/-- Distinct paths come in the order of their bytes. -/
theorem pairwise_orderedPaths (distinct : (signals.map HierarchySignal.hdlPath).Nodup) :
    (orderedPaths signals).Pairwise (· < ·) := by
  have : Std.Total fun first second : HierarchySignal => first.hdlPath ≤ second.hdlPath :=
    ⟨fun first second => le_total _ _⟩
  have : IsTrans HierarchySignal fun first second => first.hdlPath ≤ second.hdlPath :=
    ⟨fun _ _ _ => le_trans⟩
  have sorted := List.pairwise_insertionSort
    (fun first second : HierarchySignal => first.hdlPath ≤ second.hdlPath) signals
  have apart : ((orderedSignals signals).map HierarchySignal.hdlPath).Nodup :=
    ((List.perm_insertionSort _ _).map _).nodup_iff.mpr distinct
  rw [orderedPaths, List.pairwise_map]
  refine (sorted.and (List.pairwise_map.mp apart)).imp fun {first second} both => ?_
  exact Utf8.encode_lt (lt_of_le_of_ne both.1 both.2)

/-- In signed values, the order changes where a byte of ASCII meets one beyond. -/
theorem keys_lt {first second : List UInt8} (less : first < second) :
    keys signed first < keys signed second ∨ (signed = true ∧ Crossing first second) := by
  induction less with
  | nil => exact .inl (List.nil_lt_cons _ _)
  | @rel byte firsts byte' seconds less =>
    have order : byte.toNat < byte'.toNat := UInt8.lt_iff_toNat_lt.mp less
    by_cases meets : signed = true ∧ byte.toNat < 0x80 ∧ 0x80 ≤ byte'.toNat
    · exact .inr ⟨meets.1, [], byte, firsts, byte', seconds, rfl, rfl, meets.2⟩
    · refine .inl (List.cons_lt_cons_iff.mpr (.inl ?_))
      have := byte'.toNat_lt
      cases signed with
      | false =>
        rw [charValue_false, charValue_false]
        omega
      | true =>
        have apart : ¬(byte.toNat < 0x80 ∧ 0x80 ≤ byte'.toNat) := fun both => meets ⟨rfl, both⟩
        rw [charValue_true, charValue_true]
        split_ifs <;> omega
  | @cons byte firsts seconds _ ih =>
    rcases ih with less | ⟨isSigned, common, rest⟩
    · exact .inl (List.cons_lt_cons_iff.mpr (.inr ⟨rfl, less⟩))
    · obtain ⟨before, firsts', after, seconds', rfl, rfl, meets⟩ := rest
      exact .inr ⟨isSigned, byte :: common, before, firsts', after, seconds', rfl, rfl, meets⟩

/-- Nothing crosses into ASCII. -/
theorem not_crossing_of_ascii {first second : List UInt8} (ascii : ∀ byte ∈ second, byte.toNat < 0x80) :
    ¬Crossing first second := by
  rintro ⟨common, byte, firsts, byte', seconds, -, rfl, -, high⟩
  exact absurd (ascii byte' (List.mem_append_right _ List.mem_cons_self)) (Nat.not_lt.mpr high)

theorem Crossing.lt {first second : List UInt8} (crossing : Crossing first second) : first < second := by
  obtain ⟨common, byte, firsts, byte', seconds, rfl, rfl, low, high⟩ := crossing
  exact List.append_left_lt (List.cons_lt_cons_iff.mpr (.inl (UInt8.lt_iff_toNat_lt.mpr (by omega))))

theorem Crossing.keys_lt {first second : List UInt8} (crossing : Crossing first second) :
    keys true second < keys true first := by
  obtain ⟨common, byte, firsts, byte', seconds, rfl, rfl, low, high⟩ := crossing
  unfold keys
  rw [List.map_append, List.map_append]
  refine List.append_left_lt (List.cons_lt_cons_iff.mpr (.inl ?_))
  have := byte'.toNat_lt
  rw [charValue_true, charValue_true, if_pos high, if_neg (Nat.not_le.mpr low)]
  omega

/-- **The order of the table is the order of the comparison**, unless two paths cross. -/
theorem sorted_keys_iff (distinct : (signals.map HierarchySignal.hdlPath).Nodup) :
    (∀ first second, first < second → second < (orderedPaths signals).length →
      keys signed ((orderedPaths signals).getD first []) < keys signed ((orderedPaths signals).getD second [])) ↔
    (signed = true → ∀ first ∈ signals, ∀ second ∈ signals,
      ¬Crossing (encode first.hdlPath) (encode second.hdlPath)) := by
  have order := List.pairwise_iff_getElem.mp (pairwise_orderedPaths distinct)
  constructor
  · rintro sorted rfl first memFirst second memSecond crossing
    obtain ⟨i, inI, atI⟩ := List.mem_iff_getElem.mp (mem_orderedPaths.mpr ⟨first, memFirst, rfl⟩)
    obtain ⟨j, inJ, atJ⟩ := List.mem_iff_getElem.mp (mem_orderedPaths.mpr ⟨second, memSecond, rfl⟩)
    rw [← atI, ← atJ] at crossing
    rcases lt_trichotomy i j with less | rfl | more
    · have ordered := sorted i j less inJ
      rw [List.getD_eq_getElem _ _ inI, List.getD_eq_getElem _ _ inJ] at ordered
      exact lt_asymm ordered crossing.keys_lt
    · exact List.lt_irrefl _ crossing.lt
    · exact List.lt_irrefl _ (List.lt_trans crossing.lt (order j i inJ inI more))
  · intro apart i j less inJ
    have inI := less.trans inJ
    rw [List.getD_eq_getElem _ _ inI, List.getD_eq_getElem _ _ inJ]
    rcases keys_lt (order i j inI inJ less) with ordered | ⟨isSigned, crossing⟩
    · exact ordered
    · obtain ⟨first, memFirst, atI⟩ := mem_orderedPaths.mp (List.getElem_mem inI)
      obtain ⟨second, memSecond, atJ⟩ := mem_orderedPaths.mp (List.getElem_mem inJ)
      exact absurd (atI ▸ atJ ▸ crossing) (apart isSigned first memFirst second memSecond)

theorem zero_of_mem_encodeChar {character : Char} (zero : 0 ∈ String.utf8EncodeChar character) :
    character = '\x00' := by
  by_cases ascii : character.toNat < 0x80
  · rw [Utf8.encodeChar_ascii ascii, List.mem_singleton] at zero
    have value := congrArg UInt8.toNat zero
    rw [UInt8.toNat_ofNat_of_lt' (show character.toNat < 256 by omega)] at value
    exact Char.toNat_inj.mp value.symm
  · exact absurd (Utf8.le_of_mem_encodeChar (Nat.le_of_not_lt ascii) 0 zero) (by decide)

theorem cString_encode {path : String} (clean : ∀ character ∈ path.toList, character ≠ '\x00') :
    cString (encode path) = encode path := by
  refine List.takeWhile_eq_self_iff.mpr fun byte mem => decide_eq_true fun zero => ?_
  obtain ⟨character, inPath, inBytes⟩ := List.mem_flatMap.mp mem
  exact clean character inPath (zero_of_mem_encodeChar (zero ▸ inBytes))

theorem zero_notMem_cString (bytes : List UInt8) : 0 ∉ cString bytes := by
  intro zero
  have differs : decide ((0 : UInt8) ≠ 0) = true :=
    List.mem_takeWhile_imp (p := fun byte : UInt8 => decide (byte ≠ 0)) zero
  exact of_decide_eq_true differs rfl

/-- The entry of a path. -/
theorem entry_eq (path : String) : (cppLiteral (jsonDumps path)).map cString =
    if ∀ character ∈ path.toList, character.toNat < 0x10000 then some (cString (encode path)) else none := by
  rw [cppLiteral_jsonDumps]
  split_ifs
  · rfl
  · rfl

end Tables

/-! ### The lookup -/

section Lookups

variable {signed : Bool} {signals : List HierarchySignal}

/-- What the lookup should do with a query: the position in the table, and the member of the signal of
that path, or no program. -/
structure Exact (signed : Bool) (signals : List HierarchySignal) (query : List UInt8) : Prop where
  index : ∀ lookup, renderCppHierarchyLookup signals = some lookup →
    lookup.index signed query = some ((orderedPaths signals).idxOf query)
  member : ∀ signal ∈ signals, encode signal.hdlPath = query →
    cpptbSignal signed signals query = .member (memberExpression signal)
  rejected : (∀ signal ∈ signals, encode signal.hdlPath ≠ query) →
    cpptbSignal signed signals query = .rejected

theorem render_eq (some : signals ≠ []) : renderCppHierarchyLookup signals =
    .some ⟨(orderedSignals signals).map fun signal => jsonDumps signal.hdlPath,
      (orderedSignals signals).map memberExpression⟩ := if_neg some

/-- The table of paths that its entries can hold. -/
theorem table_eq (holds : ∀ signal ∈ signals, Expressible signal.hdlPath) {arms : List String} :
    Lookup.table ⟨(orderedSignals signals).map fun signal => jsonDumps signal.hdlPath, arms⟩ =
      some (orderedPaths signals) := by
  unfold Lookup.table orderedPaths
  rw [List.mapM_map]
  refine Checked.mapM_some_of_forall fun signal mem => ?_
  have clean := holds signal (mem_orderedSignals.mp mem)
  rw [Function.comp_apply, entry_eq, if_pos fun character inside => (clean character inside).2,
    cString_encode fun character inside => (clean character inside).1]

/-- A table that the compiler accepts has entries without terminators. -/
theorem entries_of_table {arms : List String} {table : List (List UInt8)}
    (compiled : Lookup.table ⟨(orderedSignals signals).map fun signal => jsonDumps signal.hdlPath, arms⟩ =
      some table) : List.Forall₂ (fun signal entry => (∀ character ∈ signal.hdlPath.toList,
        character.toNat < 0x10000) ∧ entry = cString (encode signal.hdlPath)) (orderedSignals signals) table := by
  unfold Lookup.table at compiled
  rw [List.mapM_map] at compiled
  refine (Checked.forall₂_of_mapM_some compiled).imp fun signal entry same => ?_
  rw [Function.comp_apply, entry_eq] at same
  split_ifs at same with narrow
  exact ⟨narrow, (Option.some.inj same).symm⟩

theorem nodup_orderedPaths (distinct : (signals.map HierarchySignal.hdlPath).Nodup) :
    (orderedPaths signals).Nodup :=
  (pairwise_orderedPaths distinct).imp fun {first second} less (same : first = second) =>
    List.lt_irrefl _ (same ▸ less)

/-- With the right positions, everything in the table is found. -/
theorem found_iff (distinct : (signals.map HierarchySignal.hdlPath).Nodup) :
    (∀ path ∈ orderedPaths signals, hierarchyIndex signed (orderedPaths signals) path =
      (orderedPaths signals).idxOf path) ↔
    (signed = true → ∀ first ∈ signals, ∀ second ∈ signals,
      ¬Crossing (encode first.hdlPath) (encode second.hdlPath)) := by
  have apart := nodup_orderedPaths distinct
  have searched : ∀ position, hierarchyIndex signed (orderedPaths signals)
      ((orderedPaths signals).getD position []) = BinarySearch.search (fun middle =>
        BinarySearch.compareLists (keys signed ((orderedPaths signals).getD middle []))
          (keys signed ((orderedPaths signals).getD position [])))
        (orderedPaths signals).length 0 (orderedPaths signals).length := fun position =>
    congrArg (BinarySearch.search · _ _ _) (funext fun middle => hierarchyCompare_eq _ _)
  rw [← sorted_keys_iff distinct, BinarySearch.sorted_iff_found
    (fun position => keys signed ((orderedPaths signals).getD position [])) BinarySearch.compares_compareLists]
  constructor
  · intro right position inside
    have here := right _ (List.getElem_mem inside)
    rw [apart.idxOf_getElem, ← List.getD_eq_getElem _ [] inside, searched] at here
    exact here
  · intro found path mem
    obtain ⟨position, inside, rfl⟩ := List.mem_iff_getElem.mp mem
    rw [apart.idxOf_getElem, ← List.getD_eq_getElem _ [] inside, searched]
    exact found position inside

theorem index_eq (holds : ∀ signal ∈ signals, Expressible signal.hdlPath) {arms : List String}
    (query : List UInt8) :
    Lookup.index ⟨(orderedSignals signals).map fun signal => jsonDumps signal.hdlPath, arms⟩ signed query =
      some (hierarchyIndex signed (orderedPaths signals) query) := by
  rw [Lookup.index, table_eq holds, Option.map_some]

/-- What a position of the table leads to. -/
theorem cpptbSignal_of_index (some : signals ≠ []) {query : List UInt8} {position : ℕ}
    (found : Lookup.index ⟨(orderedSignals signals).map fun signal => jsonDumps signal.hdlPath,
      (orderedSignals signals).map memberExpression⟩ signed query = .some position) :
    cpptbSignal signed signals query =
      match (orderedSignals signals)[position]? with
      | .some signal => .member (memberExpression signal)
      | none => if query = [] then .unsupported else .rejected := by
  rw [cpptbSignal, render_eq some]
  dsimp only
  rw [found]
  dsimp only
  rw [List.getElem?_map]
  cases (orderedSignals signals)[position]? with
  | none => rfl
  | some signal => rfl

/-- The entries of an exact lookup are the paths. -/
theorem expressible_of_exact {signal : HierarchySignal} (mem : signal ∈ signals)
    (exact : Exact signed signals (encode signal.hdlPath)) : Expressible signal.hdlPath := by
  have index := exact.index _ (render_eq (List.ne_nil_of_mem mem))
  obtain ⟨table, compiled, found⟩ := Option.map_eq_some_iff.mp index
  have entries := entries_of_table compiled
  have listed : encode signal.hdlPath ∈ orderedPaths signals := mem_orderedPaths.mpr ⟨signal, mem, rfl⟩
  have inside := List.idxOf_lt_length_of_mem listed
  rw [length_orderedPaths, entries.length_eq] at inside
  have here := getElem_of_hierarchyIndex inside found
  obtain ⟨entry, -, narrow, -⟩ := Checked.exists_of_forall₂ entries.flip (mem_orderedSignals.mpr mem)
  refine fun character inPath => ⟨fun zero => ?_, narrow character inPath⟩
  obtain ⟨other, -, -, clean⟩ := Checked.exists_of_forall₂ entries (List.getElem_mem inside)
  refine zero_notMem_cString (encode other.hdlPath) ?_
  rw [← clean, here]
  exact List.mem_flatMap.mpr ⟨character, inPath, by rw [zero]; exact List.mem_singleton.mpr rfl⟩

theorem exact_of_found (distinct : (signals.map HierarchySignal.hdlPath).Nodup)
    (holds : ∀ signal ∈ signals, Expressible signal.hdlPath)
    (found : ∀ path ∈ orderedPaths signals, hierarchyIndex signed (orderedPaths signals) path =
      (orderedPaths signals).idxOf path) {query : List UInt8}
    (allowed : query = [] → signals = [] ∨ ∃ signal ∈ signals, signal.hdlPath = "") :
    Exact signed signals query := by
  by_cases none : signals = []
  · subst none
    exact ⟨nofun, nofun, fun _ => rfl⟩
  have index : hierarchyIndex signed (orderedPaths signals) query = (orderedPaths signals).idxOf query := by
    by_cases mem : query ∈ orderedPaths signals
    · exact found query mem
    · rw [hierarchyIndex_absent mem, List.idxOf_of_notMem mem]
  have chosen := cpptbSignal_of_index none (@index_eq signed _ holds _ query)
  refine ⟨fun lookup rendered => ?_, fun signal mem same => ?_, fun absent => ?_⟩
  · obtain rfl := Option.some.inj ((render_eq none).symm.trans rendered)
    rw [index_eq holds, index]
  · have listed : query ∈ orderedPaths signals := mem_orderedPaths.mpr ⟨signal, mem, same⟩
    have here : (orderedPaths signals)[(orderedPaths signals).idxOf query]? = some query := by
      rw [List.getElem?_eq_getElem (List.idxOf_lt_length_of_mem listed), List.getElem_idxOf]
    obtain ⟨other, found, path⟩ := Option.map_eq_some_iff.mp ((List.getElem?_map).symm.trans here)
    have equal : other = signal := List.inj_on_of_nodup_map distinct
      (mem_orderedSignals.mp (List.mem_of_getElem? found)) mem (Utf8.encode_injective (path.trans same.symm))
    rw [chosen, index, found, equal]
  · have missing : query ∉ orderedPaths signals := fun mem =>
      let ⟨signal, inside, same⟩ := mem_orderedPaths.mp mem
      absent signal inside same
    have given : query ≠ [] := by
      intro empty
      rcases allowed empty with all | ⟨signal, mem, same⟩
      · exact none all
      · exact absent signal mem (by rw [same, empty]; rfl)
    rw [chosen, hierarchyIndex_absent missing, length_orderedPaths, List.getElem?_length]
    exact if_neg given

/-- **The lookup is exact** for every query, the empty path of no signal apart, when the entries can hold
the paths, and no two paths cross where `char` is signed; and only then. -/
theorem lookup_exact_iff (signed : Bool) (signals : List HierarchySignal)
    (distinct : (signals.map HierarchySignal.hdlPath).Nodup) :
    ((∀ query, (query = [] → signals = [] ∨ ∃ signal ∈ signals, signal.hdlPath = "") →
        Exact signed signals query) ↔
      (∀ signal ∈ signals, Expressible signal.hdlPath) ∧
      (signed = true → ∀ first ∈ signals, ∀ second ∈ signals,
        ¬Crossing (encode first.hdlPath) (encode second.hdlPath))) ∧
    (signals ≠ [] → (∀ signal ∈ signals, signal.hdlPath ≠ "") → ¬Exact signed signals []) := by
  refine ⟨⟨fun exact => ?_, fun both query allowed => ?_⟩, fun some named exact => ?_⟩
  · have present : ∀ signal ∈ signals, Exact signed signals (encode signal.hdlPath) := fun signal mem =>
      exact _ fun empty => .inr ⟨signal, mem, Utf8.encode_injective empty⟩
    have holds : ∀ signal ∈ signals, Expressible signal.hdlPath := fun signal mem =>
      expressible_of_exact mem (present signal mem)
    refine ⟨holds, (found_iff distinct).mp fun path mem => ?_⟩
    obtain ⟨signal, inside, rfl⟩ := mem_orderedPaths.mp mem
    have index := (present signal inside).index _ (render_eq (List.ne_nil_of_mem inside))
    rw [index_eq holds] at index
    exact Option.some.inj index
  · exact exact_of_found distinct both.1 ((found_iff distinct).mpr both.2) allowed
  · have missing : [] ∉ orderedPaths signals := fun mem =>
      let ⟨signal, inside, same⟩ := mem_orderedPaths.mp mem
      named signal inside (Utf8.encode_injective same)
    have index := exact.index _ (render_eq some)
    rw [List.idxOf_of_notMem missing, length_orderedPaths] at index
    have chosen := cpptbSignal_of_index some index
    rw [List.getElem?_length] at chosen
    have rejected := exact.rejected fun signal mem same =>
      missing (mem_orderedPaths.mpr ⟨signal, mem, same⟩)
    exact Selection.noConfusion (chosen.symm.trans rejected)

/-- Paths in ASCII, with a signed `char`. -/
theorem lookup_exact_ascii : Exact true [⟨"top.a", ["top", "a"]⟩, ⟨"top.b[0].c", ["top", "b[0]", "c"]⟩]
    (encode "top.b[0].c") := by
  have ascii : ∀ signal ∈ ([⟨"top.a", ["top", "a"]⟩, ⟨"top.b[0].c", ["top", "b[0]", "c"]⟩] :
      List HierarchySignal), ∀ byte ∈ encode signal.hdlPath, byte.toNat < 0x80 := by decide +kernel
  have holds : ∀ signal ∈ ([⟨"top.a", ["top", "a"]⟩, ⟨"top.b[0].c", ["top", "b[0]", "c"]⟩] :
      List HierarchySignal), Expressible signal.hdlPath :=
    List.forall_mem_cons.mpr ⟨expressible_of_all (by decide +kernel),
      List.forall_mem_singleton.mpr (expressible_of_all (by decide +kernel))⟩
  refine (lookup_exact_iff true _ (by decide)).1.mpr ⟨holds, fun _ _ _ second mem =>
    not_crossing_of_ascii (ascii second mem)⟩ _ fun empty => ?_
  exact absurd empty (by decide +kernel)

theorem orderedPaths_accented :
    orderedPaths [⟨"z", ["z"]⟩, ⟨"é", ["é"]⟩] = [[0x7a], [0xc3, 0xa9]] := by decide +kernel

/-- With a signed `char`, the search turns away from `z` at `é`, which is behind it in the table. -/
theorem lookup_signed_misses :
    ¬Exact true [⟨"z", ["z"]⟩, ⟨"é", ["é"]⟩] (encode "z") := by
  intro exact
  have index := exact.index _ (render_eq (by decide))
  have holds : ∀ signal ∈ ([⟨"z", ["z"]⟩, ⟨"é", ["é"]⟩] : List HierarchySignal), Expressible signal.hdlPath :=
    List.forall_mem_cons.mpr ⟨expressible_of_all (by decide +kernel),
      List.forall_mem_singleton.mpr (expressible_of_all (by decide +kernel))⟩
  rw [index_eq holds, orderedPaths_accented] at index
  have found : hierarchyIndex true [[0x7a], [0xc3, 0xa9]] (encode "z") = 0 := Option.some.inj index
  rcases BinarySearch.step_of_search (Nat.zero_le 0) (by decide) le_rfl found with ⟨same, -⟩ | ⟨-, right, -⟩ |
    ⟨positive, -, -⟩
  · exact absurd same (by decide)
  · exact absurd right (Nat.not_lt_zero _)
  · exact absurd positive (by decide +kernel)


end Lookups

end Cpptb.Bindings
