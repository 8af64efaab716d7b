/-
Fields of generated classes keep to their bits.

* `readSlice_eq`, `writeSlice_exact`: reading and writing at positions that are apart.
* `register_laid`: every class is made for a type that `packed_type` laid out.
* `Declares`: what a rendered struct declares.
-/

import Cpptb.Dpi.PackedClasses

namespace Cpptb.Packed

open Stacking
open FixedPoint (Bits Fault)

section Slices

variable {S W K : ℕ}

/-- A slice beyond the bits fails, whatever the bits are. -/
theorem readSlice_beyond (bits : Bits W) {lsb : ℕ} (positive : 0 < K) (beyond : W < lsb + K) :
    readSlice K bits lsb = .error (.fail "Bits slice is out of bounds") := by
  rw [readSlice, dif_pos positive, Bits.slice, if_pos (by omega)]
  rfl

theorem writeSlice_beyond (bits : Bits W) {lsb : ℕ} (value : Bits K) (positive : 0 < K)
    (beyond : W < lsb + K) :
    writeSlice bits lsb value = .error (.fail "Bits set_slice is out of bounds") := by
  have fails : bits.setSlice lsb value = .error (.fail "Bits set_slice is out of bounds") := by
    rw [Bits.setSlice, if_pos (by omega)]
    rfl
  rw [writeSlice, dif_pos positive]
  split
  next words written => cases written.symm.trans fails
  next fault written =>
    obtain rfl := Except.error.inj (written.symm.trans fails)
    rfl

/-- A slice has the bits of its range. -/
theorem readSlice_spec (bits : Bits W) {lsb : ℕ} (positive : 0 < K) (inside : lsb + K ≤ W) :
    ∃ part : Bits K, readSlice K bits lsb = .ok part ∧
      ∀ i, part.test i = (decide (i < K) && bits.test (lsb + i)) := by
  rw [readSlice, dif_pos positive]
  exact bits.slice_spec positive inside

theorem writeSlice_spec (bits : Bits W) {lsb : ℕ} (value : Bits K) (positive : 0 < K)
    (inside : lsb + K ≤ W) : ∃ after : Bits W, writeSlice bits lsb value = .ok after ∧
      ∀ i, after.test i = if lsb ≤ i ∧ i < lsb + K then value.test (i - lsb) else bits.test i := by
  obtain ⟨after, done, changed⟩ := bits.setSlice_spec positive value inside
  refine ⟨after, ?_, changed⟩
  rw [writeSlice, dif_pos positive]
  split
  next words written =>
    obtain rfl := Except.ok.inj (written.symm.trans done)
    rfl
  next fault written => cases written.symm.trans done

/-- Slices of values with the same bits in the range are the same. -/
theorem readSlice_congr {V : ℕ} (left : Bits W) (right : Bits V) {lsb lsb' : ℕ} (positive : 0 < K)
    (inside : lsb + K ≤ W) (inside' : lsb' + K ≤ V)
    (same : ∀ i < K, left.test (lsb + i) = right.test (lsb' + i)) :
    readSlice K left lsb = readSlice K right lsb' := by
  obtain ⟨part, isPart, bits⟩ := readSlice_spec left positive inside
  obtain ⟨part', isPart', bits'⟩ := readSlice_spec right positive inside'
  have equal : part = part' := by
    refine Bits.ext_test fun i => ?_
    rw [bits, bits']
    by_cases small : i < K
    · rw [same i small]
    · rw [decide_eq_false small, Bool.false_and, Bool.false_and]
  rw [isPart, isPart', equal]

/-- A slice of a slice is a slice. -/
theorem readSlice_part {storage : Bits S} {part : Bits W} {lsb inner : ℕ} (positive : 0 < K)
    (isPart : readSlice W storage lsb = .ok part) (inside : inner + K ≤ W) :
    lsb + W ≤ S ∧ readSlice K storage (lsb + inner) = readSlice K part inner := by
  have fits : lsb + W ≤ S := by
    by_contra! beyond
    rw [readSlice_beyond storage (by omega) beyond] at isPart
    cases isPart
  obtain ⟨part', isPart', bits⟩ := readSlice_spec storage (show 0 < W by omega) fits
  obtain rfl := Except.ok.inj (isPart.symm.trans isPart')
  refine ⟨fits, readSlice_congr _ _ positive (by omega) inside fun i small => ?_⟩
  rw [bits, decide_eq_true (show inner + i < W by omega), Bool.true_and, Nat.add_assoc]

end Slices

section Writing

variable {S : ℕ}

/-- What setting one field of a storage left: the field reads as the value, the other fields and the bits
outside the field are as before. -/
structure Exact (accessors : List Accessor) (position : Accessor → ℕ) (accessor : Accessor)
    (storage after : Bits S) (value : Bits accessor.width) : Prop where
  returned : readSlice accessor.width after (position accessor) = .ok value
  others : ∀ other ∈ accessors, other ≠ accessor →
    readSlice other.width after (position other) = readSlice other.width storage (position other)
  outside : ∀ bit, ¬(position accessor ≤ bit ∧ bit < position accessor + accessor.width) →
    after.test bit = storage.test bit

/-- A field that lies apart from the others is set exactly. -/
theorem writeSlice_exact {accessors : List Accessor} (position : Accessor → ℕ) {accessor : Accessor}
    (storage : Bits S) (value : Bits accessor.width) (positive : ∀ other ∈ accessors, 0 < other.width)
    (mine : accessor ∈ accessors) (inside : position accessor + accessor.width ≤ S)
    (apart : ∀ other ∈ accessors, other ≠ accessor → position other + other.width ≤ S →
      position other + other.width ≤ position accessor ∨
        position accessor + accessor.width ≤ position other) :
    ∃ after, writeSlice storage (position accessor) value = .ok after ∧
      Exact accessors position accessor storage after value := by
  obtain ⟨after, written, changed⟩ := writeSlice_spec storage value (positive accessor mine) inside
  refine ⟨after, written, ?_, ?_, ?_⟩
  · obtain ⟨part, isPart, bits⟩ := readSlice_spec after (positive accessor mine) inside
    have same : part = value := by
      refine Bits.ext_test fun i => ?_
      rw [bits]
      by_cases small : i < accessor.width
      · rw [decide_eq_true small, Bool.true_and, changed, if_pos (by omega), Nat.add_sub_cancel_left]
      · rw [decide_eq_false small, Bool.false_and, value.test_of_ge (Nat.le_of_not_lt small)]
    rw [isPart, same]
  · intro other member different
    rcases Nat.lt_or_ge S (position other + other.width) with beyond | fits
    · rw [readSlice_beyond _ (positive other member) beyond, readSlice_beyond _ (positive other member) beyond]
    · refine readSlice_congr _ _ (positive other member) fits fits fun i small => ?_
      have away := apart other member different fits
      rw [changed, if_neg (by omega)]
  · intro bit outside
    rw [changed, if_neg outside]

end Writing

section Registered

variable {pyRepr : String → String}

/-- Every class is made for a type that gives its fields their bits. -/
def Laid (registry : PackedCppRegistry) : Prop :=
  ∀ entry ∈ registry.entries, ∃ shape, Lays entry.dataType shape

theorem Laid.add {registry registry' : PackedCppRegistry} {type : PackedType} {context : List String}
    (laid : Laid registry) {shape : Shape} (lays : Lays type shape)
    (ok : registry.add pyRepr type context = .ok registry') : Laid registry' := by
  unfold PackedCppRegistry.add at ok
  dsimp only at ok
  split at ok
  next =>
    obtain rfl := Except.ok.inj ok
    exact laid
  next =>
    obtain ⟨name, -, ok⟩ := Checked.bind_ok_iff.mp ok
    obtain rfl := Except.ok.inj ok
    intro entry member
    rcases List.mem_append.mp member with old | new
    · exact laid entry old
    · obtain rfl := List.mem_singleton.mp new
      exact ⟨shape, lays⟩

/-- The fields of a struct are registered one after the other. -/
theorem registerFields_laid {fields : List PackedField}
    (each : ∀ field ∈ fields, ∀ {context registry registry'}, Laid registry →
      register pyRepr field.dataType context registry = .ok registry' → Laid registry')
    {context : List String} {registry registry' : PackedCppRegistry} (laid : Laid registry)
    (ok : registerFields pyRepr fields context registry = .ok registry') : Laid registry' := by
  induction fields generalizing registry with
  | nil =>
    obtain rfl := Except.ok.inj ok
    exact laid
  | cons field rest ih =>
    unfold registerFields at ok
    obtain ⟨next, first, ok⟩ := Checked.bind_ok_iff.mp ok
    have here : Laid next := by
      obtain ⟨name, dataType, bitOffset⟩ := field
      exact each _ List.mem_cons_self laid first
    exact ih (fun other member => each other (List.mem_cons_of_mem _ member)) here ok

/-- A field has a member beside it. -/
theorem exists_beside {fields : List PackedField} {members : List Member}
    (names : fields.map PackedField.name = members.map Member.name) {field : PackedField}
    (mem : field ∈ fields) : ∃ member, (field, member) ∈ fields.zip members := by
  obtain ⟨index, inside, rfl⟩ := List.getElem_of_mem mem
  have sizes := congrArg List.length names
  rw [List.length_map, List.length_map] at sizes
  have fits : index < (fields.zip members).length := by
    rw [List.length_zip]
    omega
  refine ⟨members[index], ?_⟩
  rw [← List.getElem_zip (h := fits)]
  exact List.getElem_mem fits

theorem register_laid {type : PackedType} {shape : Shape} (lays : Lays type shape) {context : List String}
    {registry registry' : PackedCppRegistry} (laid : Laid registry)
    (ok : register pyRepr type context registry = .ok registry') : Laid registry' := by
  induction lays generalizing context registry registry' with
  | vector =>
    obtain rfl := Except.ok.inj ok
    exact laid
  | enum base values name positive => exact laid.add (.enum base values name positive) ok
  | struct width signed fourState fields name members some names inner partition ih =>
    unfold register at ok
    obtain ⟨next, nested, ok⟩ := Checked.bind_ok_iff.mp ok
    refine (registerFields_laid (fun field mem => ?_) laid nested).add
      (.struct width signed fourState fields name members some names inner partition) ok
    obtain ⟨member, beside⟩ := exists_beside names mem
    exact fun laid ok => ih _ beside laid ok
  | union => cases ok

/-- Every packed type of the ports and of the hierarchy is one that `packed_type` accepted. -/
def Elaborated (pyRepr : String → String) (dtypes : DTypes) (types : List PackedType) : Prop :=
  ∀ type ∈ types, ∃ dtype name, packedType pyRepr dtypes dtype name = .ok type

/-- The packed types of ports and signals. -/
def typesOf (ports : List Port) (hierarchy : Option (List HierarchySignal)) : List PackedType :=
  ports.filterMap Port.packedType ++ (hierarchy.getD []).filterMap HierarchySignal.packedType

theorem collect_laid {dtypes : DTypes} {ports : List Port} {hierarchy : Option (List HierarchySignal)}
    (elaborated : Elaborated pyRepr dtypes (typesOf ports hierarchy)) {registry : PackedCppRegistry}
    (ok : collectPackedCppTypes pyRepr ports hierarchy = .ok registry) : Laid registry := by
  have laidOut : ∀ type ∈ typesOf ports hierarchy, ∃ shape, Lays type shape := fun type member => by
    obtain ⟨dtype, name, accepted⟩ := elaborated type member
    obtain ⟨shape, -, lays⟩ := packedTypeAt_lays accepted
    exact ⟨shape, lays⟩
  unfold collectPackedCppTypes at ok
  obtain ⟨afterPorts, first, ok⟩ := Checked.bind_ok_iff.mp ok
  refine Checked.foldlM_keeps (I := Laid) (fun signal member registry next laid step => ?_) ?_ ok
  · split at step
    next =>
      obtain rfl := Except.ok.inj step
      exact laid
    next =>
      obtain rfl := Except.ok.inj step
      exact laid
    next type _ given =>
      obtain ⟨shape, lays⟩ := laidOut type (List.mem_append_right _ (List.mem_filterMap.mpr ⟨signal, member, given⟩))
      exact register_laid lays laid step
  · refine Checked.foldlM_keeps (I := Laid) (fun port member registry next laid step => ?_) ?_ first
    · split at step
      next =>
        obtain rfl := Except.ok.inj step
        exact laid
      next type given =>
        obtain ⟨shape, lays⟩ := laidOut type (List.mem_append_left _ (List.mem_filterMap.mpr ⟨port, member, given⟩))
        exact register_laid lays laid step
    · exact fun _ member => nomatch member

end Registered

section Declared

variable {pyRepr : String → String}

/-- What a rendered struct declares: accessors for its fields, of different names, with the classes of the
registry. -/
structure Declares (registry : PackedCppRegistry) (entry : PackedCppType) (accessors : List Accessor) :
    Prop where
  isStruct : entry.dataType.isStruct = true
  fields : accessors.map Accessor.field = entry.dataType.fields
  names : accessors.map Accessor.name = entry.dataType.fields.map fun field => Bindings.cppIdentifier field.name
  distinct : (accessors.map Accessor.name).Nodup
  classes : ∀ accessor ∈ accessors, packedFieldValueClass registry accessor.field = .ok accessor.valueClass

theorem validatePackedFieldNames_ok {entry : PackedCppType} {names : List String}
    (ok : validatePackedFieldNames pyRepr entry = .ok names) :
    names = entry.dataType.fields.map (fun field => Bindings.cppIdentifier field.name) ∧ names.Nodup := by
  have loop : ∀ (fields : List PackedField) (used : List String), used.Nodup →
      fields.foldlM (addFieldName pyRepr entry) used = .ok names →
      names = used ++ fields.map (fun field => Bindings.cppIdentifier field.name) ∧ names.Nodup := by
    intro fields
    induction fields with
    | nil =>
      intro used nodup ok
      obtain rfl := Except.ok.inj ok
      exact ⟨by rw [List.map_nil, List.append_nil], nodup⟩
    | cons field rest ih =>
      intro used nodup ok
      rw [List.foldlM_cons] at ok
      obtain ⟨next, step, ok⟩ := Checked.bind_ok_iff.mp ok
      unfold addFieldName at step
      dsimp only at step
      split at step
      next => cases step
      next fresh =>
        obtain rfl := Except.ok.inj step
        have distinct : (used ++ [Bindings.cppIdentifier field.name]).Nodup :=
          List.nodup_append.mpr ⟨nodup, List.nodup_singleton _, fun old mine new other => by
            rintro rfl
            rw [List.mem_singleton] at other
            exact fresh (other ▸ mine)⟩
        obtain ⟨same, nodup⟩ := ih _ distinct ok
        exact ⟨by rw [same, List.map_cons, List.append_assoc, List.singleton_append], nodup⟩
  exact loop _ [] .nil ok

/-- The accessors are made of the named fields, one by one. -/
theorem made_accessors {registry : PackedCppRegistry} {named : List (String × PackedField)}
    {accessors : List Accessor}
    (made : List.Forall₂ (fun (source : String × PackedField) accessor =>
      (packedFieldValueClass registry source.2 >>= fun valueClass =>
        pure (⟨source.1, source.2, valueClass⟩ : Accessor)) = Except.ok accessor) named accessors) :
    accessors.map (fun accessor => (accessor.name, accessor.field)) = named ∧
      ∀ accessor ∈ accessors, packedFieldValueClass registry accessor.field = .ok accessor.valueClass := by
  induction made with
  | nil => exact ⟨rfl, fun _ member => nomatch member⟩
  | cons step _ ih =>
    obtain ⟨valueClass, found, step⟩ := Checked.bind_ok_iff.mp step
    obtain rfl := Except.ok.inj step
    obtain ⟨same, classes⟩ := ih
    exact ⟨by rw [List.map_cons, same], List.forall_mem_cons.mpr ⟨found, classes⟩⟩

theorem renderPackedStruct_ok {registry : PackedCppRegistry} {entry : PackedCppType} {result : Rendered}
    (ok : renderPackedStruct pyRepr registry entry = .ok result) :
    ∃ accessors, result = .struct entry accessors ∧ Declares registry entry accessors := by
  unfold renderPackedStruct at ok
  split at ok
  next isStruct =>
    obtain ⟨names, valid, ok⟩ := Checked.bind_ok_iff.mp ok
    obtain ⟨accessors, made, ok⟩ := Checked.bind_ok_iff.mp ok
    obtain rfl := Except.ok.inj ok
    obtain ⟨named, distinct⟩ := validatePackedFieldNames_ok valid
    have each := made_accessors (Checked.forall₂_of_mapM_ok made)
    have sizes : names.length = entry.dataType.fields.length := by rw [named, List.length_map]
    have same : accessors.map Accessor.name = names := by
      have firsts := congrArg (List.map Prod.fst) each.1
      rwa [List.map_map, List.map_fst_zip sizes.le] at firsts
    refine ⟨accessors, rfl, isStruct, ?_, same.trans named, same.symm ▸ distinct, each.2⟩
    have seconds := congrArg (List.map Prod.snd) each.1
    rwa [List.map_map, List.map_snd_zip sizes.ge] at seconds
  next => cases ok

@[simp] theorem PackedType.isStruct_undeclared (type : PackedType) :
    type.undeclared.isStruct = type.isStruct := by
  cases type <;> rfl

/-- The class of a field's values was made for a type of the same layout. -/
theorem packedFieldValueClass_ok {registry : PackedCppRegistry} {field : PackedField}
    {valueClass : Option PackedCppType} (ok : packedFieldValueClass registry field = .ok valueClass) :
    (∀ entry, valueClass = some entry →
      entry ∈ registry.entries ∧ entry.dataType.undeclared = field.dataType.undeclared) ∧
    (field.dataType.isStruct = true → valueClass.isSome = true) := by
  unfold packedFieldValueClass at ok
  split at ok
  next integral =>
    obtain rfl := Except.ok.inj ok
    refine ⟨fun _ given => (nomatch given), fun isStruct => ?_⟩
    rw [integral] at isStruct
    cases isStruct
  next =>
    split at ok
    next entry found =>
      obtain rfl := Except.ok.inj ok
      refine ⟨fun other given => ?_, fun _ => rfl⟩
      obtain rfl := Option.some.inj given
      have same := List.find?_some found
      exact ⟨List.mem_of_find?_eq_some found, PackedType.undeclared_eq _ _ (of_decide_eq_true same)⟩
    next => cases ok

variable {registry : PackedCppRegistry} {rendered : List Rendered}

theorem declares_of_mem (ok : renderPackedCppTypes pyRepr registry = .ok rendered) {entry : PackedCppType}
    {accessors : List Accessor} (mem : Rendered.struct entry accessors ∈ rendered) :
    entry ∈ registry.entries ∧ Declares registry entry accessors := by
  obtain ⟨source, inside, made⟩ := Checked.exists_of_forall₂ (Checked.forall₂_of_mapM_ok ok) mem
  split at made
  next =>
    unfold renderPackedEnum at made
    dsimp only at made
    split at made
    next => cases made
    next =>
      obtain ⟨values, -, made⟩ := Checked.bind_ok_iff.mp made
      cases made
  next =>
    obtain ⟨others, same, declares⟩ := renderPackedStruct_ok made
    cases same
    exact ⟨inside, declares⟩

/-- Every struct of the registry has a class. -/
theorem exists_rendered (ok : renderPackedCppTypes pyRepr registry = .ok rendered) {entry : PackedCppType}
    (inside : entry ∈ registry.entries) (isStruct : entry.dataType.isStruct = true) :
    ∃ accessors, Rendered.struct entry accessors ∈ rendered := by
  have each := Checked.forall₂_of_mapM_ok ok
  obtain ⟨result, mem, made⟩ := Checked.exists_of_forall₂ (List.Forall₂.flip each) inside
  split at made
  next isEnum =>
    rw [isEnum] at isStruct
    cases isStruct
  next =>
    obtain ⟨accessors, rfl, -⟩ := renderPackedStruct_ok made
    exact ⟨accessors, mem⟩

/-- The accessors of a struct partition its width. -/
theorem Declares.partition {entry : PackedCppType} {accessors : List Accessor}
    (declares : Declares registry entry accessors) (laid : Laid registry) (inside : entry ∈ registry.entries) :
    Partition (fun accessor => accessor.field.bitOffset) Accessor.width accessors entry.dataType.width := by
  obtain ⟨shape, lays⟩ := laid entry inside
  have isStruct := declares.isStruct
  have fields := declares.fields
  generalize entry.dataType = type at lays isStruct fields ⊢
  cases lays with
  | vector | enum | union => cases isStruct
  | struct width signed fourState inner name members some names below partition =>
    have same : accessors.map Accessor.field = inner := fields
    subst same
    exact partition.of_map

end Declared

/-! ### Values -/

section Values

variable {W S : ℕ} {accessors : List Accessor}

/-- The claim about the value class of a struct: a field that was set reads as what it was set to, and
nothing else changes. -/
def ValueExact (W : ℕ) (accessors : List Accessor) : Prop :=
  ∀ accessor ∈ accessors, ∀ (bits : Bits W) (argument : Argument accessor.width),
    ∃ after, accessor.set bits argument = .ok after ∧
      (accessor.call after >>= Reading.rawBits after) = .ok ⟨accessor.width, argument.raw⟩ ∧
      Exact accessors (fun other => other.field.bitOffset) accessor bits after argument.raw

theorem set_exact (partition : Partition (fun accessor => accessor.field.bitOffset) Accessor.width accessors W)
    {accessor : Accessor} (mine : accessor ∈ accessors) (bits : Bits W) (argument : Argument accessor.width) :
    ∃ after, accessor.set bits argument = .ok after ∧
      Exact accessors (fun other => other.field.bitOffset) accessor bits after argument.raw :=
  writeSlice_exact (fun other => other.field.bitOffset) bits argument.raw partition.nonempty mine (partition.inside accessor mine)
    fun _ member different _ => (partition.apart member mine different).imp id id

/-- A call on a value reads the field, unless the class has a function of its own of that name. -/
theorem call_reads {accessor : Accessor} {bits : Bits W} {value : Bits accessor.width}
    (positive : 0 < accessor.width) (inside : accessor.field.bitOffset + accessor.width ≤ W)
    (reads : accessor.get bits = .ok value) :
    (accessor.call bits >>= Reading.rawBits bits) = .ok ⟨accessor.width, value⟩ ↔
      (accessor.name = "view" → accessor.width = W) := by
  unfold Accessor.call
  by_cases own : accessor.name = "view"
  · rw [if_pos own]
    obtain ⟨all, isAll, -⟩ := readSlice_spec bits (show 0 < W by omega) (Nat.zero_add W).le
    have result : (Reading.rawBits bits (.view W ⟨0⟩)) = .ok ⟨W, all⟩ := by
      show (do return (⟨W, ← readSlice W bits 0⟩ : (width : ℕ) × Bits width)) = _
      rw [isAll]
      rfl
    show Reading.rawBits bits (.view W ⟨0⟩) = _ ↔ _
    rw [result]
    constructor
    · intro same _
      exact (congrArg Sigma.fst (Except.ok.inj same)).symm
    · intro wide
      have whole := wide own
      have start : accessor.field.bitOffset = 0 := by omega
      unfold Accessor.get at reads
      rw [start] at reads
      clear inside
      subst whole
      rw [Except.ok.inj (isAll.symm.trans reads)]
  · rw [if_neg own, reads]
    exact ⟨fun _ isView => absurd isView own, fun _ => rfl⟩

/-- **The values of a struct are exact, unless a field of several is called `view`.** -/
theorem valueExact_iff
    (partition : Partition (fun accessor => accessor.field.bitOffset) Accessor.width accessors W) :
    ValueExact W accessors ↔
      ∀ accessor ∈ accessors, accessor.name = "view" → accessors = [accessor] := by
  have reads : ∀ accessor ∈ accessors, ∀ {bits after : Bits W} {value : Bits accessor.width},
      Exact accessors (fun other => other.field.bitOffset) accessor bits after value →
      ((accessor.call after >>= Reading.rawBits after) = .ok ⟨accessor.width, value⟩ ↔
        (accessor.name = "view" → accessors = [accessor])) := by
    intro accessor mine bits after value exact
    rw [partition.eq_singleton_iff mine]
    exact call_reads (partition.nonempty accessor mine) (partition.inside accessor mine) exact.returned
  constructor
  · intro holds accessor mine
    obtain ⟨after, -, called, exact⟩ := holds accessor mine (Bits.zero W) (.value (Bits.zero _))
    exact (reads accessor mine exact).mp called
  · intro unhidden accessor mine bits argument
    obtain ⟨after, written, exact⟩ := set_exact partition mine bits argument
    exact ⟨after, written, (reads accessor mine exact).mpr (unhidden accessor mine), exact⟩

end Values

/-! ### Views -/

section Views

variable {W S : ℕ} {accessors : List Accessor}

/-- The claim about the view class of a struct, over any storage and from any offset: a field that lies in
the storage is exact, and the access to another one aborts. -/
def ViewExact (W : ℕ) (accessors : List Accessor) : Prop :=
  ∀ (S : ℕ), W ≤ S → S < 2 ^ 64 → ∀ (view : View) (storage : Bits S), ∀ accessor ∈ accessors,
    (accessor.position view + accessor.width ≤ S → ∀ argument : Argument accessor.width,
      ∃ after, accessor.viewSet view storage argument = .ok after ∧
        (accessor.viewCall view after >>= Reading.rawBits after) = .ok ⟨accessor.width, argument.raw⟩ ∧
        Exact accessors (fun other => other.position view) accessor storage after argument.raw) ∧
    (S < accessor.position view + accessor.width →
      accessor.viewGet view storage = .error (.fail "Bits slice is out of bounds") ∧
      ∀ argument, accessor.viewSet view storage argument = .error (.fail "Bits set_slice is out of bounds"))

/-- Fields stay apart in a storage, also where their positions wrap. -/
theorem positions_apart
    (partition : Partition (fun accessor => accessor.field.bitOffset) Accessor.width accessors W)
    (fits : W ≤ S) (small : S < 2 ^ 64) (view : View) {accessor other : Accessor} (mine : accessor ∈ accessors)
    (member : other ∈ accessors) (different : other ≠ accessor)
    (inside : accessor.position view + accessor.width ≤ S) (inside' : other.position view + other.width ≤ S) :
    other.position view + other.width ≤ accessor.position view ∨
      accessor.position view + accessor.width ≤ other.position view := by
  have bound := partition.inside accessor mine
  have bound' := partition.inside other member
  have positive := partition.nonempty accessor mine
  have positive' := partition.nonempty other member
  have apart := partition.apart member mine different
  unfold Accessor.position sizeT at inside inside' ⊢
  generalize accessor.width = width at *
  generalize other.width = width' at *
  generalize accessor.field.bitOffset = start at *
  generalize other.field.bitOffset = start' at *
  omega

theorem viewExact (partition : Partition (fun accessor => accessor.field.bitOffset) Accessor.width accessors W)
    (widths : ∀ accessor ∈ accessors, accessor.classWidth = accessor.width) : ViewExact W accessors := by
  intro S fits small view storage accessor mine
  have positive := partition.nonempty accessor mine
  refine ⟨fun inside argument => ?_, fun beyond =>
    ⟨readSlice_beyond storage positive beyond, fun argument => writeSlice_beyond storage _ positive beyond⟩⟩
  obtain ⟨after, written, exact⟩ := writeSlice_exact (fun other => other.position view) storage
    argument.raw partition.nonempty mine inside fun other member different inside' =>
      positions_apart partition fits small view mine member different inside inside'
  refine ⟨after, written, ?_, exact⟩
  have reads : accessor.viewGet view after = .ok argument.raw := exact.returned
  unfold Accessor.viewCall
  split
  next =>
    show (do return (⟨accessor.classWidth, ← readSlice accessor.classWidth after (accessor.position view)⟩ :
      (width : ℕ) × Bits width)) = _
    rw [widths accessor mine]
    unfold Accessor.viewGet at reads
    rw [reads]
    rfl
  next =>
    rw [reads]
    rfl

/-- The claim about the struct fields of a struct: such a field has a class of its own, for a type of the same
layout, and every field reads the same through the nested view as from the copied value. -/
def NestedExact (rendered : List Rendered) (accessors : List Accessor) : Prop :=
  ∀ accessor ∈ accessors, accessor.field.dataType.isStruct = true →
    ∃ entry inner, accessor.valueClass = some entry ∧ Rendered.struct entry inner ∈ rendered ∧
      entry.dataType.undeclared = accessor.field.dataType.undeclared ∧
      ∀ (S : ℕ), S < 2 ^ 64 → ∀ (view : View) (storage : Bits S) (copy : Bits accessor.width),
        accessor.viewGet view storage = .ok copy →
          (accessor.nested view).rawBits accessor.width storage = .ok copy ∧
          ∀ field ∈ inner, field.viewGet (accessor.nested view) storage = field.get copy

variable {pyRepr : String → String} {registry : PackedCppRegistry} {rendered : List Rendered}

theorem Declares.classWidth {entry : PackedCppType} (declares : Declares registry entry accessors) :
    ∀ accessor ∈ accessors, accessor.classWidth = accessor.width := by
  intro accessor mine
  obtain ⟨same, -⟩ := packedFieldValueClass_ok (declares.classes accessor mine)
  unfold Accessor.classWidth
  cases given : accessor.valueClass with
  | none => rfl
  | some other =>
    have layouts := congrArg PackedType.width (same other given).2
    rwa [PackedType.width_undeclared, PackedType.width_undeclared] at layouts

theorem nestedExact (ok : renderPackedCppTypes pyRepr registry = .ok rendered) (laid : Laid registry)
    {entry : PackedCppType} (declares : Declares registry entry accessors) : NestedExact rendered accessors := by
  intro accessor mine isStruct
  obtain ⟨same, isSome⟩ := packedFieldValueClass_ok (declares.classes accessor mine)
  obtain ⟨class', given⟩ := Option.isSome_iff_exists.mp (isSome isStruct)
  obtain ⟨inside, layouts⟩ := same class' given
  have classStruct : class'.dataType.isStruct = true := by
    rw [← PackedType.isStruct_undeclared, layouts, PackedType.isStruct_undeclared]
    exact isStruct
  have width : class'.dataType.width = accessor.width := by
    rw [← PackedType.width_undeclared, layouts, PackedType.width_undeclared]
    rfl
  obtain ⟨inner, mem⟩ := exists_rendered ok inside classStruct
  obtain ⟨-, declaresInner⟩ := declares_of_mem ok mem
  have partition := declaresInner.partition laid inside
  rw [width] at partition
  refine ⟨class', inner, given, mem, layouts, fun S small view storage copy copied => ⟨copied, fun field isField => ?_⟩⟩
  have positive := partition.nonempty field isField
  have below := partition.inside field isField
  obtain ⟨fits, reads⟩ := readSlice_part positive copied below
  have position : field.position (accessor.nested view) = accessor.position view + field.field.bitOffset :=
    Nat.mod_eq_of_lt (by
      show accessor.position view + field.field.bitOffset < 2 ^ 64
      omega)
  unfold Accessor.viewGet Accessor.get
  rw [position]
  exact reads

end Views

/-! ### The layout of generated classes -/

section Generated

/-- A packed struct `pair_t` with two members of eight bits. -/
def pairNode (first : String) : DType :=
  let member (addr name : String) : Node := ⟨.other "MEMBERDTYPE", addr, name, none, none, some "1"⟩
  ⟨⟨.struct, "2", "pair_t", none, none, none⟩, none, none, none, [member "3" first, member "4" "low"], []⟩

def pairDTypes (first : String) : DTypes :=
  [("1", ⟨⟨.basic, "1", "logic", none, none, none⟩, some "7:0", none, none, [], []⟩), ("2", pairNode first)]

def pairType (first : String) : PackedType :=
  let byte : PackedType := .integral ⟨8, false, true, [⟨7, 0⟩], none⟩
  .struct 16 false true [⟨first, byte, 8⟩, ⟨"low", byte, 0⟩] (some "pair_t")

def pairPort (first : String) : Port := ⟨"value", [], some (pairType first)⟩

def pairEntry (first : String) : PackedCppType := ⟨pairType first, "PairT"⟩

def pairAccessors (first : String) : List Accessor :=
  (pairType first).fields.map fun field => ⟨field.name, field, none⟩

theorem pairType_accepted (first : String) :
    packedType id (pairDTypes first) (pairNode first) "value" = .ok (pairType first) := by
  with_unfolding_all rfl

end Generated

end Cpptb.Packed
