/-
The address map of an RgGen document.

A document declares a `Layout`: the registers, memories and register files of each container, with their
offsets and steps. `Declares` relates the two; an omitted offset is the largest end of what the walk has
handled before. `Layout.places` lists the elements of a layout, each with its occurrence, a position in
every container on the way, and with its address, the sum of the offsets and of the index times the step
of every array on the way.

* `Declares.unique`: a document declares one layout.
* `walk_declares`: the walk finds the places of the layout.
* `nodup_places`: no occurrence is listed twice.
* `extractFields_fit`: the fields of a register are disjoint and inside it.
* `extractRgGenBlock_map`: the address map of a block.
-/

import Cpptb.RegisterModel.RgGen

namespace Cpptb.RegisterModel.RgGen

open Checked (bind_ok_iff forall₂_of_mapM_ok)
open Codegen (Field Register Memory RegisterBlock unionOf unionOf_append)

variable {pyRepr : Value → String}

/-! ### Readers -/

section Readers

/-- What is read of a value does not depend on the path that errors name. -/
theorem integer_anywhere {value : Value} {path what : String} {read : ℤ} (path' what' : String)
    (ok : integer pyRepr value path what = .ok read) : integer pyRepr value path' what' = .ok read := by
  unfold integer at ok ⊢
  cases same : defaultOf value with
  | int value => simpa only [same] using ok
  | str text =>
    rw [same] at ok
    cases parsed : parseInteger text with
    | some value => simpa only [parsed] using ok
    | none => simp only [parsed, fail] at ok; cases ok
  | _ => rw [same] at ok; cases ok

theorem structureOf_anywhere {value : Value} {path : String} {read : Mapping} (path' : String)
    (ok : structureOf value path = .ok read) : structureOf value path' = .ok read := by
  unfold structureOf at ok ⊢
  split at ok
  · exact ok
  · refine Checked.foldlM_ok_congr (fun item _ result result' step => ?_) ok
    cases item with
    | map entries => exact step
    | _ => cases step
  · cases ok

theorem childrenOf_anywhere {node : Mapping} {singular path : String} {read : List Mapping}
    (path' : String) (ok : childrenOf node singular path = .ok read) :
    childrenOf node singular path' = .ok read :=
  Checked.mapM_ok_of_forall₂ ((forall₂_of_mapM_ok ok).imp fun _ _ => structureOf_anywhere _)

theorem arraySpec_anywhere {value : Option Value} {path : String} {read : List ℕ × Option ℤ}
    (path' : String) (ok : arraySpec pyRepr value path = .ok read) :
    arraySpec pyRepr value path' = .ok read := by
  unfold arraySpec at ok ⊢
  split at ok
  · exact ok
  · exact ok
  · obtain ⟨sizes, items, ok⟩ := bind_ok_iff.mp ok
    refine bind_ok_iff.mpr ⟨sizes, Checked.foldlM_ok_congr (fun item _ found found' step => ?_) items, ?_⟩
    · unfold addSizeItem at step ⊢
      dsimp only at step ⊢
      split at step
      · split at step
        · split at step
          · cases step
          · next entries has fine =>
            obtain ⟨size, read, step⟩ := bind_ok_iff.mp step
            rw [if_pos has, if_neg fine]
            exact bind_ok_iff.mpr ⟨size, integer_anywhere _ _ read, step⟩
        · next entries has =>
          obtain ⟨size, read, step⟩ := bind_ok_iff.mp step
          rw [if_neg has]
          exact bind_ok_iff.mpr ⟨size, integer_anywhere _ _ read, step⟩
      · obtain ⟨size, read, step⟩ := bind_ok_iff.mp step
        exact bind_ok_iff.mpr ⟨size, integer_anywhere _ _ read, step⟩
    · dsimp only at ok ⊢
      split at ok
      · cases ok
      · next fine =>
        split at ok
        · cases ok
        · next fine' =>
          rw [if_neg fine, if_neg fine']
          exact ok

@[simp] theorem length_arrayIndices (dimensions : List ℕ) :
    (arrayIndices dimensions).length = dimensions.prod := by
  induction dimensions with
  | nil => rfl
  | cons size dimensions ih =>
    rw [arrayIndices, List.length_flatMap, List.prod_cons]
    simp [ih, List.sum_replicate]

/-- The dimensions of an array are positive. -/
theorem arraySpec_positive {value : Option Value} {path : String} {dimensions : List ℕ}
    {step : Option ℤ} (ok : arraySpec pyRepr value path = .ok (dimensions, step)) :
    0 < dimensions.prod := by
  unfold arraySpec at ok
  split at ok
  · obtain ⟨rfl, _⟩ := Prod.mk.inj (Except.ok.inj ok)
    decide
  · obtain ⟨rfl, _⟩ := Prod.mk.inj (Except.ok.inj ok)
    decide
  · obtain ⟨sizes, items, ok⟩ := bind_ok_iff.mp ok
    dsimp only at ok
    split at ok
    · cases ok
    · next fine =>
      split at ok
      · cases ok
      · obtain ⟨rfl, _⟩ := Prod.mk.inj (Except.ok.inj ok)
        refine List.prod_pos fun size mem => ?_
        obtain ⟨size', mem', rfl⟩ := List.mem_map.mp mem
        push Not at fine
        have := fine.2 size' mem'
        omega

end Readers

/-! ### Layouts -/

section Layouts

/-- What a declaration stands for. -/
inductive Kind where
  | register
  | memory
  deriving DecidableEq, Repr

/-- What a container declares, in the order of the walk: registers and memories, then register files.
The names are those of the elements. -/
inductive Layout where
  | done
  | leaf (kind : Kind) (raw : Mapping) (names : List String) (offset : ℤ) (count : ℕ) (step : ℤ)
      (rest : Layout)
  | file (names : List String) (offset stride : ℤ) (body rest : Layout)

/-- The position of an element: in each container on the way, which declaration and which element of
it. -/
abbrev Occurrence := List (ℕ × ℕ)

/-- Where an element is placed. -/
structure Place where
  raw : Mapping
  name : String
  path : String
  address : ℤ
  count : ℕ

namespace Layout

/-- The largest end of a container, from the end of what was handled before. -/
def endFrom : Layout → ℤ → ℤ
  | done, cursor => cursor
  | leaf _ _ _ offset count step rest, cursor => rest.endFrom (max cursor (offset + count * step))
  | file names offset stride body rest, cursor =>
    rest.endFrom (max cursor (offset + (names.length - 1) * stride + body.endFrom 0))

/-- The occurrence of what stands after the first declaration. -/
def later : Occurrence → Occurrence
  | [] => []
  | (position, index) :: inner => (position + 1, index) :: inner

/-- The elements of a kind, with their occurrences. -/
def places (kind : Kind) : Layout → String → ℤ → List (Occurrence × Place)
  | done, _, _ => []
  | leaf kind' raw names offset count step rest, path, base =>
    (if kind' = kind then
      (names.mapIdx fun index name => (index, name)).map fun (index, name) =>
        ([(0, index)], ⟨raw, name, s!"{path}.{name}", base + offset + index * step, count⟩)
    else []) ++ (rest.places kind path base).map (Prod.map later id)
  | file names offset stride body rest, path, base =>
    ((names.mapIdx fun index name => (index, name)).flatMap fun (index, name) =>
      (body.places kind s!"{path}.{name}" (base + offset + index * stride)).map
        (Prod.map ((0, index) :: ·) id)) ++ (rest.places kind path base).map (Prod.map later id)

end Layout

/-- The names of the elements of an array. -/
def elementNames (name : String) (dimensions : List ℕ) : List String :=
  (arrayIndices dimensions).map (indexedName name · dimensions)

/-- The name of a declaration. -/
def nameOf (pyRepr : Value → String) (raw : Mapping) : String := textOr pyRepr (raw.get? "name") ""

/-- An array of an external register without fields is a memory. -/
def kindOf (pyRepr : Value → String) (raw : Mapping) (rawFields : List Mapping) (dimensions : List ℕ) :
    Kind :=
  if textOr pyRepr (firstOf (raw.get? "type")) "default" = "external" ∧ rawFields = [] ∧
      1 < dimensions.prod then
    .memory
  else
    .register

/-- The registers and the register files of a container, after what ends at `cursor`, declare a layout.
An offset that is not given is `cursor`. The step of a register that is not given is that of its size, or
else the bytes of the bus; that of a register file is what its body spans. -/
inductive Declares (pyRepr : Value → String) (busBytes : ℕ) :
    List Mapping → List Mapping → ℤ → Layout → Prop where
  | done {cursor : ℤ} : Declares pyRepr busBytes [] [] cursor .done
  | leaf {raw : Mapping} {registers files rawFields : List Mapping} {cursor offset step : ℤ}
      {dimensions : List ℕ} {sizeStep : Option ℤ} {rest : Layout}
      (offsetRead : integer pyRepr ((raw.get? "offset_address").getD (.int cursor)) "" "" = .ok offset)
      (sizeRead : arraySpec pyRepr (raw.get? "size") "" = .ok (dimensions, sizeStep))
      (stepRead : integer pyRepr ((raw.get? "step").getD (.int (sizeStep.getD busBytes))) "" "" = .ok step)
      (fieldsRead : childrenOf raw "bit_field" "" = .ok rawFields)
      (nonnegative : 0 ≤ offset) (positive : 0 < step)
      (others : Declares pyRepr busBytes registers files (max cursor (offset + dimensions.prod * step))
        rest) :
      Declares pyRepr busBytes (raw :: registers) files cursor
        (.leaf (kindOf pyRepr raw rawFields dimensions) raw
          (match kindOf pyRepr raw rawFields dimensions with
            | .register => elementNames (nameOf pyRepr raw) dimensions
            | .memory => [nameOf pyRepr raw])
          offset dimensions.prod step rest)
  | file {rawFile : Mapping} {files bodyRegisters bodyFiles : List Mapping} {cursor offset stride : ℤ}
      {dimensions : List ℕ} {sizeStep : Option ℤ} {body rest : Layout}
      (offsetRead :
        integer pyRepr ((rawFile.get? "offset_address").getD (.int cursor)) "" "" = .ok offset)
      (sizeRead : arraySpec pyRepr (rawFile.get? "size") "" = .ok (dimensions, sizeStep))
      (registersRead : childrenOf rawFile "register" "" = .ok bodyRegisters)
      (filesRead : childrenOf rawFile "register_file" "" = .ok bodyFiles)
      (declared : Declares pyRepr busBytes bodyRegisters bodyFiles 0 body)
      (strideRead : match (rawFile.get? "step").getD ((sizeStep.map Value.int).getD .null) with
        | .null => stride = body.endFrom 0
        | step => integer pyRepr step "" "" = .ok stride)
      (positive : 0 < stride) (apart : body.endFrom 0 ≤ stride)
      (others : Declares pyRepr busBytes [] files
        (max cursor (offset + (dimensions.prod - 1) * stride + body.endFrom 0)) rest) :
      Declares pyRepr busBytes [] (rawFile :: files) cursor
        (.file (elementNames (nameOf pyRepr rawFile) dimensions) offset stride body rest)

variable {busBytes : ℕ}

/-- **A document declares one layout.** -/
theorem Declares.unique {registers files : List Mapping} {cursor : ℤ} {layout layout' : Layout}
    (first : Declares pyRepr busBytes registers files cursor layout)
    (second : Declares pyRepr busBytes registers files cursor layout') : layout = layout' := by
  induction first generalizing layout' with
  | done => cases second; rfl
  | leaf offsetRead sizeRead stepRead fieldsRead _ _ _ ih =>
    cases second with
    | leaf offsetRead' sizeRead' stepRead' fieldsRead' _ _ others' =>
      obtain rfl := Except.ok.inj (offsetRead.symm.trans offsetRead')
      obtain ⟨rfl, rfl⟩ := Prod.mk.inj (Except.ok.inj (sizeRead.symm.trans sizeRead'))
      obtain rfl := Except.ok.inj (stepRead.symm.trans stepRead')
      obtain rfl := Except.ok.inj (fieldsRead.symm.trans fieldsRead')
      rw [ih others']
  | file offsetRead sizeRead registersRead filesRead _ strideRead _ _ _ body rest =>
    cases second with
    | file offsetRead' sizeRead' registersRead' filesRead' declared' strideRead' _ _ others' =>
      obtain rfl := Except.ok.inj (offsetRead.symm.trans offsetRead')
      obtain ⟨rfl, rfl⟩ := Prod.mk.inj (Except.ok.inj (sizeRead.symm.trans sizeRead'))
      obtain rfl := Except.ok.inj (registersRead.symm.trans registersRead')
      obtain rfl := Except.ok.inj (filesRead.symm.trans filesRead')
      obtain rfl := body declared'
      have same := strideRead
      split at same
      · next step =>
        rw [step] at strideRead'
        obtain rfl := same.trans strideRead'.symm
        rw [rest others']
      · next step =>
        have same' := strideRead'
        split at same'
        · next step' => exact absurd step' step
        · obtain rfl := Except.ok.inj (same.symm.trans same')
          rw [rest others']

end Layouts

/-! ### Walks -/

section Walks

/-- The register of a place. -/
structure RegisterAt (pyRepr : Value → String) (busWidth : ℕ) (place : Place) (register : Register) :
    Prop where
  name : register.name = place.name
  path : register.path = place.path
  address : register.address = place.address
  width : register.width = busWidth
  accessWidth : register.accessWidth = busWidth
  extracted : extractFields pyRepr place.raw place.path place.name busWidth = .ok {
    fields := register.fields
    resetValue := register.resetValue
    resetMask := register.resetMask
    backdoorSlices := register.backdoorSlices
    backdoorComplete := register.backdoorComplete }

/-- The memory of a place. -/
structure MemoryAt (busWidth : ℕ) (place : Place) (memory : Memory) : Prop where
  name : memory.name = place.name
  path : memory.path = place.path
  address : memory.address = place.address
  entries : memory.entries = place.count
  width : memory.width = busWidth
  accessWidth : memory.accessWidth = busWidth

/-- What was found since, one register or memory for each place. -/
def Finds (pyRepr : Value → String) (busWidth : ℕ) (places : Kind → List (Occurrence × Place))
    (found result : Found) : Prop :=
  (∃ added, result.registers = found.registers ++ added ∧
    List.Forall₂ (fun entry => RegisterAt pyRepr busWidth entry.2) (places .register) added) ∧
  ∃ added, result.memories = found.memories ++ added ∧
    List.Forall₂ (fun entry => MemoryAt busWidth entry.2) (places .memory) added

/-- A layout was walked: its places were found, and the cursor is at its end. -/
structure Walked (pyRepr : Value → String) (busWidth : ℕ) (path : String) (base : ℤ) (layout : Layout)
    (found result : Found) : Prop where
  cursor : result.cursor = layout.endFrom found.cursor
  finds : Finds pyRepr busWidth (layout.places · path base) found result

variable {busWidth : ℕ} {path : String} {base : ℤ} {found found' result : Found}

namespace Finds

variable {places places' : Kind → List (Occurrence × Place)}

theorem append (first : Finds pyRepr busWidth places found found')
    (second : Finds pyRepr busWidth places' found' result) :
    Finds pyRepr busWidth (fun kind => places kind ++ places' kind) found result := by
  obtain ⟨⟨registers, same, each⟩, memories, same', each'⟩ := first
  obtain ⟨⟨registers', last, others⟩, memories', last', others'⟩ := second
  refine ⟨⟨registers ++ registers', ?_, List.rel_append each others⟩, memories ++ memories', ?_,
    List.rel_append each' others'⟩
  · rw [last, same, List.append_assoc]
  · rw [last', same', List.append_assoc]

/-- The places do not depend on how occurrences are counted. -/
theorem relabel (relabelled : Occurrence → Occurrence) (finds : Finds pyRepr busWidth places found result) :
    Finds pyRepr busWidth (fun kind => (places kind).map (Prod.map relabelled id)) found result := by
  obtain ⟨⟨registers, same, each⟩, memories, same', each'⟩ := finds
  exact ⟨⟨registers, same, List.forall₂_map_left_iff.mpr each⟩, memories, same',
    List.forall₂_map_left_iff.mpr each'⟩

end Finds

theorem registerType_ok {value : Option Value} {type : String}
    (ok : registerType pyRepr value path = .ok type) : type = textOr pyRepr (firstOf value) "default" := by
  unfold registerType at ok
  dsimp only at ok
  split at ok
  · cases ok
  · split at ok
    · cases ok
    · exact (Except.ok.inj ok).symm

theorem elementRegister_ok {raw : Mapping} {rawName : String} {dimensions indices : List ℕ}
    {address : ℤ} {register : Register} {count : ℕ}
    (ok : elementRegister pyRepr busWidth raw path rawName dimensions address indices = .ok register) :
    RegisterAt pyRepr busWidth ⟨raw, indexedName rawName indices dimensions,
      s!"{path}.{indexedName rawName indices dimensions}", address, count⟩ register := by
  obtain ⟨extracted, read, ok⟩ := bind_ok_iff.mp ok
  obtain rfl := Except.ok.inj ok
  exact ⟨rfl, rfl, rfl, rfl, rfl, read⟩

/-- A register of a container comes before what the container declares after it. -/
theorem addRegister_declares {raw : Mapping}
    (ok : addRegister pyRepr busWidth path base found raw = .ok found') {registers files : List Mapping}
    {rest : Layout} (others : Declares pyRepr (busWidth / 8) registers files found'.cursor rest)
    (walked : Walked pyRepr busWidth path base rest found' result) :
    ∃ layout, Declares pyRepr (busWidth / 8) (raw :: registers) files found.cursor layout ∧
      Walked pyRepr busWidth path base layout found result := by
  unfold addRegister at ok
  dsimp only at ok
  split at ok
  · cases ok
  · obtain ⟨type, typed, ok⟩ := bind_ok_iff.mp ok
    obtain rfl := registerType_ok typed
    obtain ⟨⟨offset, dimensions, step⟩, placed, ok⟩ := bind_ok_iff.mp ok
    obtain ⟨offset', offsetRead, placed⟩ := bind_ok_iff.mp placed
    obtain ⟨⟨dimensions', sizeStep⟩, sizeRead, placed⟩ := bind_ok_iff.mp placed
    obtain ⟨step', stepRead, placed⟩ := bind_ok_iff.mp placed
    split at placed
    · cases placed
    next fine =>
    cases Except.ok.inj placed
    push Not at fine
    obtain ⟨rawFields, fieldsRead, ok⟩ := bind_ok_iff.mp ok
    split at ok
    · next memory =>
      obtain rfl := Except.ok.inj ok
      have kind : kindOf pyRepr raw rawFields dimensions = .memory := if_pos memory
      refine ⟨_, .leaf (integer_anywhere "" "" offsetRead) (arraySpec_anywhere "" sizeRead)
        (integer_anywhere "" "" stepRead) (childrenOf_anywhere "" fieldsRead) fine.1 fine.2 others,
        walked.cursor, ?_⟩
      rw [kind]
      show Finds pyRepr busWidth (fun kind => (if Kind.memory = kind then _ else []) ++
        (rest.places kind path base).map (Prod.map Layout.later id)) found result
      refine Finds.append ?_ (walked.finds.relabel _)
      refine ⟨⟨[], (List.append_nil _).symm, .nil⟩, [_], rfl, .cons ?_ .nil⟩
      exact ⟨rfl, rfl, by simp, rfl, rfl, rfl⟩
    · next register =>
      obtain ⟨elements, each, ok⟩ := bind_ok_iff.mp ok
      obtain rfl := Except.ok.inj ok
      have kind : kindOf pyRepr raw rawFields dimensions = .register := if_neg register
      refine ⟨_, .leaf (integer_anywhere "" "" offsetRead) (arraySpec_anywhere "" sizeRead)
        (integer_anywhere "" "" stepRead) (childrenOf_anywhere "" fieldsRead) fine.1 fine.2 others,
        walked.cursor, ?_⟩
      rw [kind]
      show Finds pyRepr busWidth (fun kind => (if Kind.register = kind then _ else []) ++
        (rest.places kind path base).map (Prod.map Layout.later id)) found result
      refine Finds.append ?_ (walked.finds.relabel _)
      refine ⟨⟨elements, rfl, ?_⟩, [], (List.append_nil _).symm, .nil⟩
      dsimp only
      rw [if_pos rfl, List.forall₂_map_left_iff, elementNames, Checked.numbered_map,
        List.forall₂_map_left_iff]
      exact (forall₂_of_mapM_ok each).imp fun _ _ => elementRegister_ok

/-- What a walk finds of a container. -/
def Walks (pyRepr : Value → String) (busWidth : ℕ) (container : Mapping) (path : String) (base : ℤ)
    (found : Found) : Prop :=
  ∃ registers files layout, childrenOf container "register" "" = .ok registers ∧
    childrenOf container "register_file" "" = .ok files ∧
    Declares pyRepr (busWidth / 8) registers files 0 layout ∧
    Walked pyRepr busWidth path base layout {} found

/-- The elements of an arrayed file have one layout. -/
theorem Walks.same {container : Mapping} {registers files : List Mapping} {layout : Layout}
    (registersRead : childrenOf container "register" "" = .ok registers)
    (filesRead : childrenOf container "register_file" "" = .ok files)
    (declared : Declares pyRepr (busWidth / 8) registers files 0 layout)
    (walks : Walks pyRepr busWidth container path base found) :
    Walked pyRepr busWidth path base layout {} found := by
  obtain ⟨registers', files', layout', registersRead', filesRead', declared', walked⟩ := walks
  obtain rfl := Except.ok.inj (registersRead.symm.trans registersRead')
  obtain rfl := Except.ok.inj (filesRead.symm.trans filesRead')
  obtain rfl := declared.unique declared'
  exact walked

/-- The elements that were walked, together. -/
theorem finds_elements {body : Layout} {names : List (ℕ × String)} {stride : ℤ} {elements : List Found}
    (each : List.Forall₂ (fun entry element =>
      Walked pyRepr busWidth s!"{path}.{entry.2}" (base + entry.1 * stride) body {} element)
      names elements)
    (registers : result.registers = found.registers ++ elements.flatMap Found.registers)
    (memories : result.memories = found.memories ++ elements.flatMap Found.memories) :
    Finds pyRepr busWidth (fun kind => names.flatMap fun (index, name) =>
      (body.places kind s!"{path}.{name}" (base + index * stride)).map (Prod.map ((0, index) :: ·) id))
      found result := by
  have relabelled := each.imp fun entry element walked => walked.finds.relabel ((0, entry.1) :: ·)
  refine ⟨⟨_, registers, Checked.forall₂_flatMap relabelled fun entry element finds => ?_⟩,
    _, memories, Checked.forall₂_flatMap relabelled fun entry element finds => ?_⟩
  · obtain ⟨⟨added, same, each⟩, _⟩ := finds
    exact same ▸ each
  · obtain ⟨_, added, same, each⟩ := finds
    exact same ▸ each

/-- A register file of a container comes before what the container declares after it. -/
theorem addFile_declares {walk : Mapping → String → ℤ → Result Found} {rawFile : Mapping}
    (inner : ∀ path base found, walk rawFile path base = .ok found →
      Walks pyRepr busWidth rawFile path base found)
    (ok : addFile pyRepr walk path base found rawFile = .ok found') {files : List Mapping}
    {rest : Layout} (others : Declares pyRepr (busWidth / 8) [] files found'.cursor rest)
    (walked : Walked pyRepr busWidth path base rest found' result) :
    ∃ layout, Declares pyRepr (busWidth / 8) [] (rawFile :: files) found.cursor layout ∧
      Walked pyRepr busWidth path base layout found result := by
  unfold addFile at ok
  dsimp only at ok
  split at ok
  · cases ok
  obtain ⟨offset, offsetRead, ok⟩ := bind_ok_iff.mp ok
  obtain ⟨⟨dimensions, sizeStep⟩, sizeRead, ok⟩ := bind_ok_iff.mp ok
  have counted := length_arrayIndices dimensions
  have some_ := arraySpec_positive sizeRead
  dsimp only at ok
  split at ok
  · next empty =>
    rw [empty] at counted
    exact absurd counted some_.ne
  next first more indices =>
  obtain ⟨element, firstWalk, ok⟩ := bind_ok_iff.mp ok
  obtain ⟨registers, bodyFiles, body, registersRead, filesRead, declared, firstWalked⟩ :=
    inner _ _ _ firstWalk
  have span : element.cursor = body.endFrom 0 := firstWalked.cursor
  have strideOf : ∃ stride,
      ((rawFile.get? "step").getD ((sizeStep.map Value.int).getD .null) = .null ∧ stride = body.endFrom 0 ∨
        (rawFile.get? "step").getD ((sizeStep.map Value.int).getD .null) ≠ .null ∧
          integer pyRepr ((rawFile.get? "step").getD ((sizeStep.map Value.int).getD .null)) "" "" =
            .ok stride) ∧ 0 < stride ∧ element.cursor ≤ stride ∧
      ∃ elements, (more.mapIdx fun index indices => (index + 1, indices)).mapM (fun entry =>
        walk rawFile s!"{path}.{indexedName (nameOf pyRepr rawFile) entry.2 dimensions}"
          (base + offset + entry.1 * stride)) = .ok elements ∧
      found' = {
        registers := found.registers ++ element.registers ++ elements.flatMap Found.registers
        memories := found.memories ++ element.memories ++ elements.flatMap Found.memories
        cursor := max found.cursor (offset + more.length * stride + element.cursor) } := by
    split at ok
    · next given =>
      obtain ⟨stride, same, ok⟩ := bind_ok_iff.mp ok
      obtain rfl := Except.ok.inj same
      split at ok
      · cases ok
      next positive =>
      split at ok
      · cases ok
      next apart =>
      obtain ⟨elements, each, ok⟩ := bind_ok_iff.mp ok
      exact ⟨element.cursor, .inl ⟨given, span⟩, not_le.mp positive, not_lt.mp apart, elements, each,
        (Except.ok.inj ok).symm⟩
    · next given =>
      obtain ⟨stride, read, ok⟩ := bind_ok_iff.mp ok
      split at ok
      · cases ok
      next positive =>
      split at ok
      · cases ok
      next apart =>
      obtain ⟨elements, each, ok⟩ := bind_ok_iff.mp ok
      exact ⟨stride, .inr ⟨given, integer_anywhere "" "" read⟩, not_le.mp positive, not_lt.mp apart, elements,
        each, (Except.ok.inj ok).symm⟩
  obtain ⟨stride, strideFrom, positive, apart, elements, each, rfl⟩ := strideOf
  have strideRead : match (rawFile.get? "step").getD ((sizeStep.map Value.int).getD .null) with
      | .null => stride = body.endFrom 0
      | step => integer pyRepr step "" "" = .ok stride := by
    rcases strideFrom with ⟨omitted, same⟩ | ⟨given, read⟩
    · rw [omitted]
      exact same
    · split
      · next missing => exact absurd missing given
      · exact read
  have length : (dimensions.prod : ℤ) = more.length + 1 := by
    rw [← counted, indices]
    rfl
  rw [span] at apart
  have ends : offset + (dimensions.prod - 1) * stride + body.endFrom 0 =
      offset + more.length * stride + element.cursor := by rw [span, length]; ring
  refine ⟨.file (elementNames (nameOf pyRepr rawFile) dimensions) offset stride body rest,
    .file (integer_anywhere "" "" offsetRead) (arraySpec_anywhere "" sizeRead) registersRead filesRead
      declared strideRead positive apart (by rw [ends]; exact others), ?_, ?_⟩
  · rw [walked.cursor, Layout.endFrom, elementNames, List.length_map, length_arrayIndices, ends]
  · have numbered : (elementNames (nameOf pyRepr rawFile) dimensions).mapIdx (fun index name => (index, name)) =
        ((0, first) :: more.mapIdx fun index indices => (index + 1, indices)).map
          (Prod.map id (indexedName (nameOf pyRepr rawFile) · dimensions)) := by
      rw [elementNames, Checked.numbered_map, indices, List.mapIdx_cons]
    have all : List.Forall₂ (fun entry element => Walked pyRepr busWidth s!"{path}.{entry.2}"
        (base + offset + entry.1 * stride) body {} element)
        ((elementNames (nameOf pyRepr rawFile) dimensions).mapIdx fun index name => (index, name))
        (element :: elements) := by
      rw [numbered, List.forall₂_map_left_iff]
      refine .cons ?_ ((forall₂_of_mapM_ok each).imp fun entry element walked =>
        (inner _ _ _ walked).same registersRead filesRead declared)
      simpa [nameOf] using firstWalked
    exact (finds_elements all (List.append_assoc _ _ _) (List.append_assoc _ _ _)).append
      (walked.finds.relabel _)

/-- The register files of a container declare what the walk finds of them. -/
theorem addFiles_declares {walk : Mapping → String → ℤ → Result Found} {files : List Mapping}
    (inner : ∀ container path base found, walk container path base = .ok found →
      Walks pyRepr busWidth container path base found)
    (ok : files.foldlM (addFile pyRepr walk path base) found = .ok result) :
    ∃ layout, Declares pyRepr (busWidth / 8) [] files found.cursor layout ∧
      Walked pyRepr busWidth path base layout found result := by
  induction files generalizing found with
  | nil =>
    obtain rfl := Except.ok.inj ok
    exact ⟨.done, .done, rfl, ⟨[], (List.append_nil _).symm, .nil⟩, [], (List.append_nil _).symm, .nil⟩
  | cons file files ih =>
    obtain ⟨next, here, ok⟩ := bind_ok_iff.mp ok
    obtain ⟨layout, declared, walked⟩ := ih ok
    exact addFile_declares (inner file) here declared walked

/-- The registers of a container declare what the walk finds of them, before what it declares after
them. -/
theorem addRegisters_declares {registers files : List Mapping}
    (ok : registers.foldlM (addRegister pyRepr busWidth path base) found = .ok found') {rest : Layout}
    (others : Declares pyRepr (busWidth / 8) [] files found'.cursor rest)
    (walked : Walked pyRepr busWidth path base rest found' result) :
    ∃ layout, Declares pyRepr (busWidth / 8) registers files found.cursor layout ∧
      Walked pyRepr busWidth path base layout found result := by
  induction registers generalizing found with
  | nil =>
    obtain rfl := Except.ok.inj ok
    exact ⟨rest, others, walked⟩
  | cons register registers ih =>
    obtain ⟨next, here, ok⟩ := bind_ok_iff.mp ok
    obtain ⟨layout, declared, walked⟩ := ih ok
    exact addRegister_declares here declared walked

/-- **A walk finds what its container declares.** -/
theorem walk_declares {depth : ℕ} {container : Mapping}
    (ok : walk pyRepr busWidth depth container path base = .ok found) :
    Walks pyRepr busWidth container path base found := by
  induction depth generalizing container path base found with
  | zero => cases ok
  | succ depth ih =>
    obtain ⟨registers, registersRead, ok⟩ := bind_ok_iff.mp ok
    obtain ⟨middle, walkedRegisters, ok⟩ := bind_ok_iff.mp ok
    obtain ⟨files, filesRead, ok⟩ := bind_ok_iff.mp ok
    obtain ⟨rest, declaredFiles, walkedFiles⟩ := addFiles_declares (fun _ _ _ _ => ih) ok
    obtain ⟨layout, declared, walked⟩ := addRegisters_declares walkedRegisters declaredFiles walkedFiles
    exact ⟨registers, files, layout, childrenOf_anywhere "" registersRead,
      childrenOf_anywhere "" filesRead, declared, walked⟩

end Walks

/-! ### Occurrences -/

section Occurrences

namespace Layout

variable {kind : Kind} {path : String} {base : ℤ} {entry : Occurrence × Place}

theorem ne_nil_of_later {entries : List (Occurrence × Place)} (each : ∀ entry ∈ entries, entry.1 ≠ [])
    (mem : entry ∈ entries.map (Prod.map later id)) : entry.1 ≠ [] := by
  obtain ⟨⟨occurrence, place⟩, mem', rfl⟩ := List.mem_map.mp mem
  cases occurrence with
  | nil => exact absurd rfl (each _ mem')
  | cons head inner => exact List.cons_ne_nil _ _

/-- Every occurrence has a position. -/
theorem places_ne_nil {layout : Layout} : ∀ entry ∈ layout.places kind path base, entry.1 ≠ [] := by
  intro entry mem
  induction layout generalizing entry with
  | done => exact absurd mem List.not_mem_nil
  | leaf kind' raw names offset count step rest ih =>
    rcases List.mem_append.mp mem with mem | mem
    · split at mem
      · obtain ⟨_, _, rfl⟩ := List.mem_map.mp mem
        exact List.cons_ne_nil _ _
      · exact absurd mem List.not_mem_nil
    · exact ne_nil_of_later ih mem
  | file names offset stride body rest _ ih =>
    rcases List.mem_append.mp mem with mem | mem
    · obtain ⟨_, _, mem⟩ := List.mem_flatMap.mp mem
      obtain ⟨_, _, rfl⟩ := List.mem_map.mp mem
      exact List.cons_ne_nil _ _
    · exact ne_nil_of_later ih mem

theorem later_injective : Function.Injective later := by
  rintro (_ | ⟨⟨position, index⟩, inner⟩) (_ | ⟨⟨position', index'⟩, inner'⟩) same
  · rfl
  · cases same
  · cases same
  · simpa [later] using same

theorem nodup_numbered {α : Type} (items : List α) :
    ((items.mapIdx fun index item => (index, item)).map Prod.fst).Nodup := by
  have : (items.mapIdx fun index item => (index, item)).map Prod.fst = List.range items.length :=
    List.ext_getElem (by simp) fun index here there => by simp
  rw [this]
  exact List.nodup_range

/-- The occurrences of a declaration and those of what stands after it. -/
theorem nodup_append {first rest : List (Occurrence × Place)}
    (here : (first.map Prod.fst).Nodup) (there : (rest.map Prod.fst).Nodup)
    (positions : ∀ entry ∈ first, ∃ index inner, entry.1 = (0, index) :: inner)
    (nonempty : ∀ entry ∈ rest, entry.1 ≠ []) :
    ((first ++ rest.map (Prod.map later id)).map Prod.fst).Nodup := by
  rw [List.map_append, List.nodup_append]
  have same : (rest.map (Prod.map later id)).map Prod.fst = (rest.map Prod.fst).map later := by
    rw [List.map_map, List.map_map]
    rfl
  refine ⟨here, same ▸ there.map later_injective, fun occurrence mem occurrence' mem' equal => ?_⟩
  subst equal
  obtain ⟨entry, among, rfl⟩ := List.mem_map.mp mem
  obtain ⟨index, inner, position⟩ := positions entry among
  rw [same, List.map_map] at mem'
  obtain ⟨entry', mem', equal⟩ := List.mem_map.mp mem'
  have := nonempty entry' mem'
  obtain ⟨⟨_ | ⟨⟨position', index'⟩, inner'⟩, place⟩⟩ := entry'
  · exact this rfl
  · rw [position] at equal
    simp [later] at equal

/-- **No occurrence is listed twice.** -/
theorem nodup_places (layout : Layout) (kind : Kind) (path : String) (base : ℤ) :
    ((layout.places kind path base).map Prod.fst).Nodup := by
  induction layout generalizing path base with
  | done => exact List.nodup_nil
  | leaf kind' raw names offset count step rest ih =>
    refine nodup_append ?_ (ih path base) (fun entry mem => ?_) places_ne_nil
    · split
      · have := (nodup_numbered names).map (f := fun index => [(0, index)])
          fun index index' same => by simpa using same
        simpa [List.map_map, Function.comp_def] using this
      · exact List.nodup_nil
    · split at mem
      · obtain ⟨_, _, rfl⟩ := List.mem_map.mp mem
        exact ⟨_, _, rfl⟩
      · exact absurd mem List.not_mem_nil
  | file names offset stride body rest inner ih =>
    refine nodup_append ?_ (ih path base) (fun entry mem => ?_) places_ne_nil
    · rw [List.map_flatMap, List.nodup_flatMap]
      constructor
      · rintro ⟨index, name⟩ _
        have each := (inner s!"{path}.{name}" (base + offset + index * stride)).map
          (List.cons_injective (a := (0, index)))
        simpa only [List.map_map, Function.comp_def, Prod.map] using each
      · refine (List.pairwise_map.mp (nodup_numbered names)).imp fun {first second} different => ?_
        intro occurrence mem mem'
        simp only [List.map_map, List.mem_map, Function.comp_apply, Prod.map] at mem mem'
        obtain ⟨entry, _, rfl⟩ := mem
        obtain ⟨entry', _, same⟩ := mem'
        exact different (Prod.mk.inj (List.cons.inj same).1).2.symm
    · obtain ⟨_, _, mem⟩ := List.mem_flatMap.mp mem
      obtain ⟨_, _, rfl⟩ := List.mem_map.mp mem
      exact ⟨_, _, rfl⟩

end Layout

end Occurrences

/-! ### Fields -/

section Fields

/-- The fields of a register: disjoint, inside its width, and with resets and masks that are those of the
register, the resets inside the masks. -/
structure FieldsFit (width : ℕ) (fields : List Field) (resetValue resetMask : ℕ) : Prop where
  apart : fields.Pairwise Field.Apart
  inside : ∀ field ∈ fields, 0 < field.width ∧ field.lsb + field.width ≤ width
  fits : ∀ field ∈ fields, field.resetValue < 2 ^ field.width ∧ field.resetMask < 2 ^ field.width
  reset : resetValue = unionOf Field.resetValue fields
  mask : resetMask = unionOf Field.resetMask fields
  masked : resetValue &&& resetMask = resetValue

/-- What the loops over the fields keep. -/
structure FieldsKept (width : ℕ) (state : FieldState) : Prop where
  fit : FieldsFit width state.fields state.resetValue state.resetMask
  occupied : ∀ bit, state.occupiedMask.testBit bit = true ↔ ∃ field ∈ state.fields, field.Covers bit

variable {width : ℕ} {state state' : FieldState}

theorem testBit_positioned (count lsb bit : ℕ) :
    ((2 ^ count - 1) <<< lsb).testBit bit = true ↔ lsb ≤ bit ∧ bit < lsb + count := by
  rw [Nat.testBit_shiftLeft, Nat.testBit_two_pow_sub_one, Bool.and_eq_true, decide_eq_true_iff,
    decide_eq_true_iff]
  omega

/-- Two fields without a common bit are apart. -/
theorem apart_of_disjoint {first second : Field} (positive : 0 < first.width)
    (positive' : 0 < second.width) (disjoint : ∀ bit, first.Covers bit → ¬second.Covers bit) :
    first.Apart second := by
  by_contra overlaps
  unfold Field.Apart at overlaps
  unfold Field.Covers at disjoint
  have := disjoint (max first.lsb second.lsb) (by omega)
  omega

theorem masked_iff {value mask : ℕ} :
    value &&& mask = value ↔ ∀ bit, value.testBit bit = true → mask.testBit bit = true := by
  constructor
  · intro same bit set
    rw [← same, Nat.testBit_and, Bool.and_eq_true] at set
    exact set.2
  · intro inside
    refine Nat.eq_of_testBit_eq fun bit => ?_
    rw [Nat.testBit_and]
    cases set : value.testBit bit with
    | false => rfl
    | true => rw [inside bit set]; rfl

/-- A value that is not given is zero. -/
theorem initialValue_ok {value : Option Value} {path : String} {index : ℕ} {initial : ℤ}
    (ok : initialValue pyRepr value path index = .ok (initial, false)) : initial = 0 := by
  unfold initialValue at ok
  split at ok
  · cases Except.ok.inj ok
    rfl
  · cases Except.ok.inj ok
    rfl
  · split at ok
    · obtain ⟨read, _, ok⟩ := bind_ok_iff.mp ok
      cases Except.ok.inj ok
    · cases ok
  · obtain ⟨read, _, ok⟩ := bind_ok_iff.mp ok
    cases Except.ok.inj ok

/-- One more field, where no bit is occupied. -/
theorem FieldsKept.add {field : Field} {hasReset : Bool} {nextLsb : ℤ}
    {slices : List HdlBackdoor.BackdoorSlice} (kept : FieldsKept width state)
    (positive : 0 < field.width) (inside : field.lsb + field.width ≤ width)
    (fits : field.resetValue < 2 ^ field.width) (free : state.occupiedMask &&&
      (2 ^ field.width - 1) <<< field.lsb = 0) (reset : hasReset = false → field.resetValue = 0)
    (mask : field.resetMask = if hasReset then 2 ^ field.width - 1 else 0) :
    FieldsKept width {
      fields := state.fields ++ [field]
      resetValue := state.resetValue ||| field.resetValue <<< field.lsb
      resetMask := if hasReset then state.resetMask ||| (2 ^ field.width - 1) <<< field.lsb
        else state.resetMask
      registerSlices := slices
      nextLsb
      occupiedMask := state.occupiedMask ||| (2 ^ field.width - 1) <<< field.lsb } := by
  obtain ⟨⟨apart, insides, fit, union, maskUnion, masked⟩, occupied⟩ := kept
  have added : ∀ {f : Field}, f ∈ state.fields ++ [field] → f ∈ state.fields ∨ f = field := by
    intro f mem
    simpa using mem
  refine ⟨⟨?_, fun f mem => ?_, fun f mem => ?_, ?_, ?_, ?_⟩, fun bit => ?_⟩
  · refine List.pairwise_append.mpr ⟨apart, List.pairwise_singleton _ _, fun f mem f' mem' => ?_⟩
    obtain rfl := List.mem_singleton.mp mem'
    refine apart_of_disjoint (insides f mem).1 positive fun bit here there => ?_
    have taken := (occupied bit).mpr ⟨f, mem, here⟩
    have wanted := (testBit_positioned f'.width f'.lsb bit).mpr there
    have both := congrArg (Nat.testBit · bit) free
    simp only [Nat.testBit_and, taken, wanted, Nat.zero_testBit] at both
    exact absurd both (by decide)
  · rcases added mem with mem | rfl
    · exact insides f mem
    · exact ⟨positive, inside⟩
  · rcases added mem with mem | rfl
    · exact fit f mem
    · have := Nat.two_pow_pos f.width
      refine ⟨fits, ?_⟩
      rw [mask]
      split <;> omega
  · rw [unionOf_append, ← union]
  · rw [unionOf_append, ← maskUnion, mask]
    cases hasReset with
    | false => simp
    | true => rfl
  · refine masked_iff.mpr fun bit set => ?_
    have before := masked_iff.mp masked bit
    rw [Nat.testBit_or, Bool.or_eq_true] at set
    cases hasReset with
    | false =>
      rw [reset rfl, Nat.zero_shiftLeft, Nat.zero_testBit] at set
      simpa using before (by simpa using set)
    | true =>
      rw [if_pos rfl, Nat.testBit_or, Bool.or_eq_true]
      refine set.imp before fun set => (testBit_positioned _ _ _).mpr ?_
      rw [Nat.testBit_shiftLeft, Bool.and_eq_true, decide_eq_true_iff] at set
      refine ⟨set.1, ?_⟩
      by_contra outside
      have high : field.width ≤ bit - field.lsb := by omega
      rw [Nat.testBit_lt_two_pow (fits.trans_le (Nat.pow_le_pow_right (by omega) high))] at set
      exact absurd set.2 (by decide)
  · rw [Nat.testBit_or, Bool.or_eq_true, occupied, testBit_positioned]
    constructor
    · rintro (⟨f, mem, here⟩ | here)
      · exact ⟨f, List.mem_append_left _ mem, here⟩
      · exact ⟨field, by simp, here⟩
    · rintro ⟨f, mem, here⟩
      rcases added mem with mem | rfl
      · exact .inl ⟨f, mem, here⟩
      · exact .inr here

theorem addField_keeps {registerPath : String} {registerHdlPath : Option String}
    {sequence : FieldSequence} {index : ℕ} (positive : 0 < sequence.width)
    (kept : FieldsKept width state)
    (ok : addField pyRepr registerPath registerHdlPath width sequence state index = .ok state') :
    FieldsKept width state' := by
  unfold addField at ok
  dsimp only at ok
  split at ok
  · cases ok
  next inside =>
  obtain ⟨⟨initial, hasReset⟩, read, ok⟩ := bind_ok_iff.mp ok
  dsimp only at ok
  split at ok
  · cases ok
  next free =>
  split at ok
  · cases ok
  next small =>
  obtain rfl := Except.ok.inj ok
  generalize sequence.lsb + index * sequence.step = selected at inside free ⊢
  refine kept.add positive ?_ ?_ ?_ ?_ rfl
  · dsimp only
    omega
  · dsimp only
    zify
    omega
  · exact not_not.mp free
  · rintro rfl
    dsimp only
    rw [initialValue_ok read]
    rfl

theorem fieldSequence_positive {rawField : Mapping} {registerPath registerName : String} {nextLsb : ℤ}
    {sequence : FieldSequence}
    (ok : fieldSequence pyRepr rawField registerPath registerName nextLsb = .ok sequence) :
    0 < sequence.width := by
  unfold fieldSequence at ok
  split at ok
  · obtain ⟨lsb, _, ok⟩ := bind_ok_iff.mp ok
    obtain ⟨width, _, ok⟩ := bind_ok_iff.mp ok
    obtain ⟨size, _, ok⟩ := bind_ok_iff.mp ok
    obtain ⟨step, _, ok⟩ := bind_ok_iff.mp ok
    split at ok
    · cases ok
    next fine =>
    obtain ⟨type, _, ok⟩ := bind_ok_iff.mp ok
    obtain rfl := Except.ok.inj ok
    show 0 < width.toNat
    omega
  · cases ok

/-- **The fields of a register fit.** -/
theorem extractFields_fit {node : Mapping} {registerPath registerName : String}
    {extracted : ExtractedFields}
    (ok : extractFields pyRepr node registerPath registerName width = .ok extracted) :
    FieldsFit width extracted.fields extracted.resetValue extracted.resetMask := by
  obtain ⟨rawFields, _, ok⟩ := bind_ok_iff.mp ok
  obtain ⟨state, loop, ok⟩ := bind_ok_iff.mp ok
  obtain rfl := Except.ok.inj ok
  suffices kept : FieldsKept width state from kept.fit
  refine Checked.foldlM_keeps (I := FieldsKept width) (fun rawField _ state state' kept step => ?_) ?_ loop
  · obtain ⟨sequence, read, step⟩ := bind_ok_iff.mp step
    obtain ⟨last, inner, step⟩ := bind_ok_iff.mp step
    obtain rfl := Except.ok.inj step
    have positive := fieldSequence_positive read
    have after := Checked.foldlM_keeps (I := FieldsKept width)
      (fun index _ state state' kept step => addField_keeps positive kept step) kept inner
    exact ⟨after.fit, after.occupied⟩
  · refine ⟨⟨.nil, fun _ mem => absurd mem List.not_mem_nil, fun _ mem => absurd mem List.not_mem_nil,
      rfl, rfl, rfl⟩, fun bit => ?_⟩
    simp [Nat.zero_testBit]

end Fields

/-! ### Blocks -/

section Blocks

/-- The block of a document that declares a layout. -/
structure Maps (pyRepr : Value → String) (root : Mapping) (busWidth : ℕ) (layout : Layout)
    (block : RegisterBlock) : Prop where
  declared : ∃ registers files, childrenOf root "register" "" = .ok registers ∧
    childrenOf root "register_file" "" = .ok files ∧
    Declares pyRepr (busWidth / 8) registers files 0 layout
  once : ∀ kind, ((layout.places kind block.name 0).map Prod.fst).Nodup
  registers : ∃ placed, placed.Perm block.registers ∧
    List.Forall₂ (fun entry => RegisterAt pyRepr busWidth entry.2)
      (layout.places .register block.name 0) placed
  memories : ∃ placed, placed.Perm block.memories ∧
    List.Forall₂ (fun entry => MemoryAt busWidth entry.2) (layout.places .memory block.name 0) placed
  fields : ∀ register ∈ block.registers,
    FieldsFit register.width register.fields register.resetValue register.resetMask

/-- **The address map of a block.** Every element of the layout that a document declares is one register
or one memory of the block, at the sum of the offsets and steps on the way to it. -/
theorem extractRgGenBlock_map (pyRepr : Value → String) {document : Value} {blockName : Option String}
    {block : RegisterBlock} (ok : extractRgGenBlock pyRepr document blockName = .ok block) :
    ∃ (root : Mapping) (busWidth : ℕ) (layout : Layout),
      selectBlock pyRepr document blockName = .ok (root, block.name) ∧
      integer pyRepr ((root.get? "bus_width").getD (.int 32)) "" "" = .ok (busWidth : ℤ) ∧
      0 < busWidth ∧ 8 ∣ busWidth ∧ Maps pyRepr root busWidth layout block := by
  obtain ⟨⟨root, name⟩, selected, ok⟩ := bind_ok_iff.mp ok
  obtain ⟨busWidth, widthRead, ok⟩ := bind_ok_iff.mp ok
  split at ok
  · cases ok
  next fine =>
  obtain ⟨found, walked, ok⟩ := bind_ok_iff.mp ok
  obtain rfl := Except.ok.inj ok
  lift busWidth to ℕ using by omega
  obtain ⟨registers, files, layout, registersRead, filesRead, declared, -, finds⟩ := walk_declares walked
  obtain ⟨⟨added, same, each⟩, added', same', each'⟩ := finds
  rw [List.nil_append] at same same'
  subst same same'
  refine ⟨root, busWidth, layout, selected, integer_anywhere "" "" widthRead, by omega, by omega, {
    declared := ⟨registers, files, registersRead, filesRead, declared⟩
    once := fun kind => layout.nodup_places kind _ _
    registers := ⟨_, (List.perm_insertionSort _ _).symm, each⟩
    memories := ⟨_, (List.perm_insertionSort _ _).symm, each'⟩
    fields := fun register mem => ?_ }⟩
  have among := (List.perm_insertionSort _ _).mem_iff.mp mem
  obtain ⟨entry, _, placed⟩ := Checked.exists_of_forall₂ each among
  have fits := extractFields_fit placed.extracted
  rw [← placed.width] at fits
  exact fits

/-- A register file, then a register, both without an offset. -/
def fileBeforeRegister : Value :=
  .map [("register_block", .list [
    .map [("name", .str "block")],
    .map [("register_file", .list [
      .map [("name", .str "file")],
      .map [("register", .list [.map [("name", .str "inner")]])]])],
    .map [("register", .list [.map [("name", .str "outer")]])]])]

/-- The register is placed first, at zero, and not at the end of the register file that is written before
it. -/
theorem fileBeforeRegister_order :
    ∃ block, extractRgGenBlock (fun _ => "") fileBeforeRegister none = .ok block ∧
      block.registers.map (fun register => (register.path, register.address, register.width)) =
        [("block.outer", 0, 32), ("block.file.inner", 4, 32)] :=
  ⟨_, by with_unfolding_all rfl, by decide +kernel⟩

/-- Two arrayed registers in an arrayed register file, and a memory. -/
def arrayedFile : Value :=
  .map [("register_block", .map [
    ("name", .str "block"),
    ("registers", .list [.map [
      ("name", .str "storage"), ("type", .str "external"), ("size", .int 4)]]),
    ("register_files", .list [.map [
      ("name", .str "file"), ("size", .int 2), ("step", .str "0x20"),
      ("registers", .list [
        .map [("name", .str "first"), ("size", .list [.int 2, .map [("step", .int 8)]]),
          ("bit_fields", .list [.map [
            ("bit_assignment", .map [("width", .int 4)]), ("initial_value", .int 5)]])],
        .map [("name", .str "second")]])]])])]

theorem extractRgGenBlock_map_arrayed :
    ∃ (block : RegisterBlock) (root : Mapping) (busWidth : ℕ) (layout : Layout),
      extractRgGenBlock (fun _ => "") arrayedFile none = .ok block ∧
      block.registers.map (fun register => (register.path, register.address)) =
        [("block.file[0].first[0]", 16), ("block.file[0].first[1]", 24), ("block.file[0].second", 32),
          ("block.file[1].first[0]", 48), ("block.file[1].first[1]", 56), ("block.file[1].second", 64)] ∧
      Maps (fun _ => "") root busWidth layout block := by
  obtain ⟨block, ok, same⟩ : ∃ block, extractRgGenBlock (fun _ => "") arrayedFile none = .ok block ∧
      block.registers.map (fun register => (register.path, register.address)) =
        [("block.file[0].first[0]", 16), ("block.file[0].first[1]", 24), ("block.file[0].second", 32),
          ("block.file[1].first[0]", 48), ("block.file[1].first[1]", 56), ("block.file[1].second", 64)] :=
    ⟨_, by with_unfolding_all rfl, by decide +kernel⟩
  obtain ⟨root, busWidth, layout, _, _, _, _, maps⟩ := extractRgGenBlock_map _ ok
  exact ⟨block, root, busWidth, layout, ok, same, maps⟩

end Blocks

end Cpptb.RegisterModel.RgGen
