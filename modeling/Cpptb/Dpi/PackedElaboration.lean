/-
Packed types of an elaborated design, from the dtype nodes that Verilator writes.

* `dtypeReference`, `dereferenceDType`: which node a reference stands for, through chains of references
  and typedefs.
* `packedType`: `packed_type`. It goes one level down for each node on its way; on a tree without cycles
  it never goes deeper than the number of nodes (`packedType_finished`).
* `Denotes`: the shape that a node stands for; `packedType_lays`: the accepted type lays it out.

Digits are the ASCII digits.
-/

import Cpptb.Dpi.PackedTypes
import Cpptb.Lib.Checked
import Cpptb.RegisterModel.RgGen

namespace Cpptb.Packed

open Stacking
open Checked (Avoids)
open RegisterModel.RgGen (digitsOf parseInteger)

/-! ### Nodes -/

section Nodes

/-- The `type` of a node. -/
inductive DTypeKind where
  | basic
  | packArray
  | enum
  | struct
  | union
  | ref
  | typedef
  | other (text : Option String)
  deriving DecidableEq, Repr

/-- The text of the kind, where there is one. -/
def DTypeKind.text : DTypeKind → Option String
  | basic => "BASICDTYPE"
  | packArray => "PACKARRAYDTYPE"
  | enum => "ENUMDTYPE"
  | struct => "STRUCTDTYPE"
  | union => "UNIONDTYPE"
  | ref => "REFDTYPE"
  | typedef => "TYPEDEFDTYPE"
  | other text => text

/-- What a reference is read from: a dtype, or a member of a struct or a union. -/
structure Node where
  type : DTypeKind
  addr : Option String
  name : Option String
  refDTypep : Option String
  subDTypep : Option String
  dtypep : Option String
  deriving DecidableEq, Repr

/-- An item of an enumeration, with the names of its value nodes. -/
structure EnumItem where
  name : Option String
  valuep : List (Option String)
  deriving DecidableEq, Repr

/-- A dtype node. -/
structure DType extends Node where
  range : Option String
  declRange : Option String
  signed : Option Bool
  membersp : List Node
  itemsp : List EnumItem
  deriving DecidableEq, Repr

/-- The nodes by their addresses. -/
abbrev DTypes := List (String × DType)

/-- Why there is no result: an error of the generator, an integer that Python does not read, an assertion
that fails, or a run that does not come to its end. -/
inductive Failure where
  | codegen (message : String)
  | value
  | assertion
  | endless
  deriving DecidableEq, Repr

/-- `text or None`. -/
def present (text : Option String) : Option String := text.filter (· ≠ "")

end Nodes

section Elaboration

variable (pyRepr : String → String) (dtypes : DTypes)

/-- `{text!r}`. -/
def reprOr (text : Option String) : String := text.elim "None" pyRepr

/-! ### Texts -/

/-- `-?\d+`. -/
def signedDigits : List Char → Option ℤ
  | '-' :: digits => if digits.all Char.isDigit then (digitsOf 10 digits).map fun value => -(value : ℤ) else none
  | digits => if digits.all Char.isDigit then (digitsOf 10 digits).map Int.ofNat else none

/-- `(-?\d+):(-?\d+)`. -/
def rangeMatch (text : List Char) : Option PackedRange :=
  match text.span (· ≠ ':') with
  | (left, _ :: right) => do return ⟨← signedDigits left, ← signedDigits right⟩
  | (_, []) => none

/-- The inside of `[...]`. -/
def bracketed : List Char → Option (List Char)
  | '[' :: rest => if rest.getLast? = some ']' then some rest.dropLast else none
  | _ => none

/-- `parse_width`, of a basic dtype. -/
def parseWidth (dtype : DType) (portName : String) : Except Failure ℕ :=
  match present dtype.range with
  | none => return 1
  | some text =>
    match rangeMatch text.toList with
    | some range => return range.width
    | none => throw (.codegen
        (s!"port {pyRepr portName} has unsupported elaborated range " ++ pyRepr text))

/-- `(?:\[(-?\d+):(-?\d+)\]|(-?\d+):(-?\d+))`. -/
def rangeOf (text : String) : Option PackedRange :=
  (bracketed text.toList).elim (rangeMatch text.toList) rangeMatch

/-- `parse_range`. -/
def parseRange (text portName : String) : Except Failure PackedRange :=
  match rangeOf text with
  | some range => return range
  | none => throw (.codegen
      (s!"port {pyRepr portName} has unsupported elaborated range " ++ pyRepr text))

/-- The groups of a sized constant: the sign, the width, whether it is signed, the base and the digits. -/
def sizedConstant (text : List Char) : Option (Bool × ℕ × Bool × ℕ × List Char) :=
  match text.span (· ≠ '\'') with
  | (head, _ :: tail) => do
    let negative := head.head? = some '-'
    let sizeText := if negative then head.tail else head
    let width ← if sizeText.all Char.isDigit then digitsOf 10 sizeText else none
    let signed := tail.head? = some 's'
    let tail := if signed then tail.tail else tail
    let base ← match tail.head? with
      | some 'b' => some 2
      | some 'o' => some 8
      | some 'd' => some 10
      | some 'h' => some 16
      | _ => none
    let digits := tail.tail
    let body := if digits.head? = some '-' then digits.tail else digits
    if body ≠ [] ∧ body.all (fun c => c.isDigit || 'a' ≤ c && c ≤ 'f' || c = 'x' || c = 'z' || c = '?') then
      some (negative, width, signed, base, digits)
    else none
  | (_, []) => none

/-- `int(digits, radix)`, of digits with neither blanks nor underscores. -/
def intOfDigits (digits : List Char) (radix : ℕ) : Option ℤ :=
  let negative := digits.head? = some '-'
  let body := if negative then digits.tail else digits
  let body := if radix = 2 ∧ body.take 2 = ['0', 'b'] then body.drop 2 else body
  (digitsOf radix body).map fun value => if negative then -(value : ℤ) else value

/-- `_constant_integer`. -/
def constantInteger (text name : String) : Except Failure ℤ :=
  let normalized := (text.toList.filter (· ≠ '_')).map Char.toLower
  match sizedConstant normalized with
  | none =>
    match parseInteger (String.ofList normalized) with
    | some value => return value
    | none => throw (.codegen (s!"enum value {pyRepr name} has unsupported constant " ++ pyRepr text))
  | some (negative, width, signed, radix, digits) =>
    if digits.any (fun c => c = 'x' || c = 'z' || c = '?') then
      throw (.codegen s!"enum value {pyRepr name} contains X or Z bits")
    else
      match intOfDigits digits radix with
      | none => throw .value
      | some value =>
        -- a shift by a negative count is an error of its own
        if signed ∧ 0 ≤ value ∧ width = 0 then throw .value
        else
          let value :=
            if signed ∧ 0 ≤ value ∧ value.toNat.testBit (width - 1) then value - 2 ^ width else value
          return if negative then -value else value

/-! ### References -/

/-- `_dtype_reference`, where there is a node. -/
def dtypeReference (node : Node) : Option DType :=
  [node.refDTypep, node.subDTypep, node.dtypep].findSome? fun key => do
    let address ← present key
    if some address = node.addr then none else dtypes.lookup address

/-- `_dtype_reference`. -/
def referenced (node : Node) (name : String) : Except Failure DType :=
  match dtypeReference dtypes node with
  | some dtype => return dtype
  | none => throw (.codegen
      (s!"cannot resolve the referenced dtype for {pyRepr name} from " ++ reprOr pyRepr node.type.text))

/-- The node is a reference or a typedef. -/
def DTypeKind.isReference : DTypeKind → Bool
  | ref | typedef => true
  | _ => false

/-- `_dereference_dtype`, for a number of rounds. -/
def dereferenceDType (name : String) :
    ℕ → List String → Option String → DType → Except Failure (DType × Option String)
  | rounds, seen, declaredName, current =>
    if current.type.isReference then
      match rounds with
      | 0 => throw .endless
      | rounds + 1 => do
        if ∃ address ∈ current.addr, address ∈ seen then
          throw (.codegen s!"dtype reference cycle while resolving {pyRepr name}")
        else
          let next ← referenced pyRepr dtypes current.toNode name
          dereferenceDType name rounds ((present current.addr).toList ++ seen)
            (declaredName <|> present current.name) next
    else return (current, declaredName)

/-! ### Types -/

/-- `_enum_values`. -/
def enumValues (dtype : DType) (name : String) (base : PackedIntegralType) :
    Except Failure (List PackedEnumValue) :=
  dtype.itemsp.mapM fun item =>
    match item.valuep.map present with
    | [some text] => do
      let itemName := item.name.getD ""
      let value ← constantInteger pyRepr text itemName
      let value := if base.signed ∧ 0 ≤ value ∧ value.toNat.testBit (base.width - 1) then
        value - 2 ^ base.width else value
      return ⟨itemName, value⟩
    | _ =>
      let itemName := item.name.getD "<unnamed>"
      throw (.codegen (s!"enum value {pyRepr itemName} in {pyRepr name} " ++
        "has no single elaborated constant"))

/-- The loop that places the members of a struct below an offset. -/
def structFields : ℕ → List (String × PackedType) → List PackedField
  | _, [] => []
  | offset, (memberName, memberType) :: rest =>
    let offset := offset - memberType.width
    ⟨memberName, memberType, offset⟩ :: structFields offset rest

/-- The type of a struct or a union of its members. -/
def aggregateType (dtype : DType) (isUnion : Bool) (members : List (String × PackedType))
    (declaredName : Option String) : PackedType :=
  let signed := dtype.signed.getD false
  let fourState := members.any fun member => member.2.fourState
  if isUnion then
    let width := (members.map fun member => member.2.width).foldr max 0
    .union width signed fourState (members.map fun member => ⟨member.1, member.2, 0⟩) declaredName
  else
    let width := (members.map fun member => member.2.width).sum
    .struct width signed fourState (structFields width members) declaredName

/-- The branch of `packed_type` for a struct or a union, whose members are elaborated first. -/
def packedAggregate (elaborated : DType → String → Except Failure PackedType) (dtype : DType)
    (name : String) (isUnion : Bool) (declaredName : Option String) : Except Failure PackedType := do
  let members ← dtype.membersp.mapM fun member => do
    let target ← referenced pyRepr dtypes member (member.name.getD "")
    let memberType ← elaborated target (member.name.getD "")
    return (member.name.getD "", memberType)
  if members = [] then throw (.codegen s!"packed aggregate {pyRepr name} has no members")
  else return aggregateType dtype isUnion members declaredName

/-- `packed_type`, for a number of levels. -/
def packedTypeAt : ℕ → DType → String → Except Failure PackedType
  | 0, _, _ => throw .endless
  | depth + 1, start, name => do
    let (dtype, aliasName) ← dereferenceDType pyRepr dtypes name (dtypes.length + 1) [] none start
    let declaredName := aliasName <|> present dtype.name
    match dtype.type with
    | .basic =>
      let ranges ← (present dtype.range).toList.mapM fun text => parseRange pyRepr text name
      let width ← parseWidth pyRepr dtype name
      return .integral ⟨width, dtype.signed.getD false, decide (dtype.name ≠ some "bit"), ranges, aliasName⟩
    | .packArray =>
      match present dtype.declRange <|> present dtype.range with
      | none => throw (.codegen s!"packed array {pyRepr name} has no fixed range")
      | some declared =>
        let range ← parseRange pyRepr declared name
        let element ← referenced pyRepr dtypes dtype.toNode name
        match ← packedTypeAt depth element name with
        | .integral inner =>
          return .integral ⟨range.width * inner.width, dtype.signed.getD inner.signed, inner.fourState,
            range :: inner.ranges, declaredName⟩
        | _ => throw (.codegen s!"packed array {pyRepr name} has unsupported aggregate element type")
    | .enum =>
      let baseNode ← referenced pyRepr dtypes dtype.toNode name
      match ← packedTypeAt depth baseNode name with
      | .integral base => do
        let values ← enumValues pyRepr dtype name base
        return .enum base values declaredName
      | _ => throw (.codegen s!"packed enum {pyRepr name} has a non-integral base type")
    | .struct => packedAggregate pyRepr dtypes (packedTypeAt depth) dtype name false declaredName
    | .union => packedAggregate pyRepr dtypes (packedTypeAt depth) dtype name true declaredName
    | kind => throw (.codegen (s!"port {pyRepr name} uses unsupported dtype {reprOr pyRepr kind.text}; " ++
        "expected a packed integral, enum, struct, or union"))

/-- `packed_type`. -/
def packedType (dtype : DType) (name : String) : Except Failure PackedType :=
  packedTypeAt pyRepr dtypes (dtypes.length + 1) dtype name

end Elaboration

/-! ### What a node stands for -/

section Meaning

variable {pyRepr : String → String} {dtypes : DTypes}

/-- A node stands for a shape. -/
inductive Denotes (dtypes : DTypes) : DType → Shape → Prop
  | reference {dtype target : DType} {shape : Shape} : dtype.type.isReference = true →
      dtypeReference dtypes dtype.toNode = some target → Denotes dtypes target shape →
      Denotes dtypes dtype shape
  | scalar {dtype : DType} : dtype.type = .basic → present dtype.range = none →
      Denotes dtypes dtype (.vector 1)
  | vector {dtype : DType} {text : String} {range : PackedRange} : dtype.type = .basic →
      present dtype.range = some text → rangeMatch text.toList = some range →
      Denotes dtypes dtype (.vector range.width)
  | array {dtype inner : DType} {text : String} {range : PackedRange} {width : ℕ} :
      dtype.type = .packArray → (present dtype.declRange <|> present dtype.range) = some text →
      rangeOf text = some range → dtypeReference dtypes dtype.toNode = some inner →
      Denotes dtypes inner (.vector width) → Denotes dtypes dtype (.vector (range.width * width))
  | enum {dtype base : DType} {width : ℕ} : dtype.type = .enum →
      dtypeReference dtypes dtype.toNode = some base → Denotes dtypes base (.vector width) →
      Denotes dtypes dtype (.vector width)
  | struct {dtype : DType} {targets : List DType} {members : List Member} : dtype.type = .struct →
      dtype.membersp.map (dtypeReference dtypes) = targets.map some →
      dtype.membersp.map (fun member => member.name.getD "") = members.map Member.name →
      (∀ pair ∈ targets.zip members, Denotes dtypes pair.1 pair.2.shape) →
      Denotes dtypes dtype (.struct members)
  | union {dtype : DType} {targets : List DType} {members : List Member} : dtype.type = .union →
      dtype.membersp.map (dtypeReference dtypes) = targets.map some →
      dtype.membersp.map (fun member => member.name.getD "") = members.map Member.name →
      (∀ pair ∈ targets.zip members, Denotes dtypes pair.1 pair.2.shape) →
      Denotes dtypes dtype (.union members)

theorem referenced_ok {node : Node} {name : String} {target : DType}
    (ok : referenced pyRepr dtypes node name = .ok target) : dtypeReference dtypes node = some target := by
  unfold referenced at ok
  split at ok
  next found =>
    obtain rfl := Except.ok.inj ok
    exact found
  next => cases ok

theorem parseRange_ok {text name : String} {range : PackedRange}
    (ok : parseRange pyRepr text name = .ok range) : rangeOf text = some range := by
  unfold parseRange at ok
  split at ok
  next found =>
    obtain rfl := Except.ok.inj ok
    exact found
  next => cases ok

/-- A basic dtype stands for a vector of its width. -/
theorem parseWidth_ok {dtype : DType} {name : String} {width : ℕ} (basic : dtype.type = .basic)
    (ok : parseWidth pyRepr dtype name = .ok width) :
    Denotes dtypes dtype (.vector width) ∧ 0 < width := by
  unfold parseWidth at ok
  split at ok
  next missing =>
    obtain rfl := Except.ok.inj ok
    exact ⟨.scalar basic missing, Nat.one_pos⟩
  next text given =>
    split at ok
    next range found =>
      obtain rfl := Except.ok.inj ok
      exact ⟨.vector basic given found, Nat.succ_pos _⟩
    next => cases ok

/-- What the last node of a chain stands for, the first one stands for too. -/
theorem dereferenceDType_ok {name : String} {rounds : ℕ} {seen : List String} {declared known : Option String}
    {current target : DType}
    (ok : dereferenceDType pyRepr dtypes name rounds seen declared current = .ok (target, known)) {shape : Shape}
    (denotes : Denotes dtypes target shape) : Denotes dtypes current shape := by
  induction rounds generalizing seen declared current with
  | zero =>
    unfold dereferenceDType at ok
    split at ok
    next => cases ok
    next =>
      cases Except.ok.inj ok
      exact denotes
  | succ rounds ih =>
    unfold dereferenceDType at ok
    split at ok
    next isReference =>
      dsimp only at ok
      split at ok
      next => cases ok
      next =>
        obtain ⟨next, found, ok⟩ := Checked.bind_ok_iff.mp ok
        exact .reference isReference (referenced_ok found) (ih ok)
    next =>
      cases Except.ok.inj ok
      exact denotes

/-! ### Layouts of aggregates -/

/-- The fields of a struct are its members. -/
theorem structFields_members (offset : ℕ) (members : List (String × PackedType)) :
    (structFields offset members).map (fun field => (field.name, field.dataType)) = members := by
  induction members generalizing offset with
  | nil => rfl
  | cons member rest ih => rw [structFields, List.map_cons, ih]

/-- **The fields of a struct partition its width.** -/
theorem partition_structFields {members : List (String × PackedType)}
    (positive : ∀ member ∈ members, 0 < member.2.width) :
    Partition PackedField.bitOffset PackedField.width
      (structFields (members.map fun member => member.2.width).sum members)
      (members.map fun member => member.2.width).sum := by
  induction members with
  | nil => exact .nil
  | cons member rest ih =>
    obtain ⟨here, positive⟩ := List.forall_mem_cons.mp positive
    rw [List.map_cons, List.sum_cons, structFields, Nat.add_sub_cancel_left, Nat.add_comm]
    exact (ih positive).cons here rfl

/-- The members of a union lie over each other. -/
theorem overlay_unionFields {members : List (String × PackedType)} (some : members ≠ [])
    (positive : ∀ member ∈ members, 0 < member.2.width) :
    Overlay PackedField.bitOffset PackedField.width (members.map fun member => ⟨member.1, member.2, 0⟩)
      ((members.map fun member => member.2.width).foldr max 0) := by
  have inside : ∀ others : List (String × PackedType), ∀ member ∈ others,
      member.2.width ≤ (others.map fun member => member.2.width).foldr max 0 := by
    intro others
    induction others with
    | nil => exact fun _ member => nomatch member
    | cons first rest ih =>
      rw [List.map_cons, List.foldr_cons]
      exact List.forall_mem_cons.mpr ⟨le_max_left _ _, fun member mem => (ih member mem).trans (le_max_right _ _)⟩
  have reached : ∀ others : List (String × PackedType), others ≠ [] →
      ∃ member ∈ others, member.2.width = (others.map fun member => member.2.width).foldr max 0 := by
    intro others
    induction others with
    | nil => exact fun none => absurd rfl none
    | cons first rest ih =>
      intro _
      rw [List.map_cons, List.foldr_cons]
      rcases eq_or_ne rest [] with rfl | more
      · exact ⟨first, List.mem_cons_self, (max_eq_left (Nat.zero_le _)).symm⟩
      · obtain ⟨member, mem, same⟩ := ih more
        rcases le_total first.2.width ((rest.map fun member => member.2.width).foldr max 0) with less | more
        · exact ⟨member, List.mem_cons_of_mem _ mem, by rw [max_eq_right less, same]⟩
        · exact ⟨first, List.mem_cons_self, (max_eq_left more).symm⟩
  refine ⟨List.forall_mem_map.mpr positive, List.forall_mem_map.mpr fun _ _ => rfl,
    List.forall_mem_map.mpr (inside members), ?_⟩
  obtain ⟨member, mem, same⟩ := reached members some
  exact ⟨_, List.mem_map_of_mem mem, same⟩

/-- Fields with the names and types of the members have the layouts of the members. -/
theorem lays_fields {fields : List PackedField} {typed : List (String × PackedType)} {members : List Member}
    (same : fields.map (fun field => (field.name, field.dataType)) = typed)
    (lays : ∀ pair ∈ typed.zip members, Lays pair.1.2 pair.2.shape) :
    ∀ pair ∈ fields.zip members, Lays pair.1.dataType pair.2.shape := by
  rintro ⟨field, member⟩ mem
  refine lays ((field.name, field.dataType), member) ?_
  rw [← same, List.zip_map_left]
  exact List.mem_map.mpr ⟨(field, member), mem, rfl⟩

/-- The type of an aggregate lays out its members. -/
theorem lays_aggregateType (dtype : DType) (isUnion : Bool) {typed : List (String × PackedType)}
    (declared : Option String) {members : List Member} (some : typed ≠ [])
    (names : typed.map Prod.fst = members.map Member.name)
    (lays : ∀ pair ∈ typed.zip members, Lays pair.1.2 pair.2.shape) :
    Lays (aggregateType dtype isUnion typed declared) (if isUnion then .union members else .struct members) := by
  have sizes : typed.length = members.length := by
    have := congrArg List.length names
    rwa [List.length_map, List.length_map] at this
  have positive : ∀ member ∈ typed, 0 < member.2.width := fun member mem => by
    obtain ⟨index, inside, rfl⟩ := List.getElem_of_mem mem
    refine (lays (typed[index], members[index]) ?_).width_pos
    rw [← List.getElem_zip (h := by rw [List.length_zip]; omega)]
    exact List.getElem_mem _
  cases isUnion with
  | false =>
    have same := structFields_members (typed.map fun member => member.2.width).sum typed
    refine .struct _ _ _ _ _ _ ?_ ?_ (lays_fields same lays) (partition_structFields positive)
    · rintro none
      rw [none] at same
      exact some same.symm
    · rw [← names]
      have texts := congrArg (List.map Prod.fst) same
      rwa [List.map_map] at texts
  | true =>
    have same : (typed.map fun member => (⟨member.1, member.2, 0⟩ : PackedField)).map
        (fun field => (field.name, field.dataType)) = typed := by
      rw [List.map_map]
      exact List.map_id typed
    refine .union _ _ _ _ _ _ ?_ ?_ (lays_fields same lays) (overlay_unionFields some positive)
    · rwa [ne_eq, List.map_eq_nil_iff]
    · rw [← names, List.map_map]
      rfl

/-- Members that are elaborated one after the other. -/
theorem members_lay {elaborated : DType → String → Except Failure PackedType}
    (each : ∀ target name type, elaborated target name = .ok type →
      ∃ shape, Denotes dtypes target shape ∧ Lays type shape)
    {nodes : List Node} {typed : List (String × PackedType)}
    (done : List.Forall₂ (fun (member : Node) result =>
      (referenced pyRepr dtypes member (member.name.getD "") >>= fun target =>
        elaborated target (member.name.getD "") >>= fun memberType =>
        pure (member.name.getD "", memberType)) = Except.ok result) nodes typed) :
    ∃ (targets : List DType) (members : List Member),
      nodes.map (dtypeReference dtypes) = targets.map some ∧
      nodes.map (fun member => member.name.getD "") = members.map Member.name ∧
      (∀ pair ∈ targets.zip members, Denotes dtypes pair.1 pair.2.shape) ∧
      typed.map Prod.fst = members.map Member.name ∧
      ∀ pair ∈ typed.zip members, Lays pair.1.2 pair.2.shape := by
  induction done with
  | nil => exact ⟨[], [], rfl, rfl, (fun _ mem => nomatch mem), rfl, fun _ mem => nomatch mem⟩
  | @cons node result nodes typed here _ ih =>
    obtain ⟨targets, members, found, names, denotes, texts, lays⟩ := ih
    obtain ⟨target, reference, here⟩ := Checked.bind_ok_iff.mp here
    obtain ⟨type, made, here⟩ := Checked.bind_ok_iff.mp here
    obtain rfl := Except.ok.inj here
    obtain ⟨shape, isShape, laid⟩ := each _ _ _ made
    refine ⟨target :: targets, ⟨node.name.getD "", shape⟩ :: members, ?_, ?_,
      List.forall_mem_cons.mpr ⟨isShape, denotes⟩, ?_, List.forall_mem_cons.mpr ⟨laid, lays⟩⟩
    · rw [List.map_cons, List.map_cons, referenced_ok reference, found]
    · rw [List.map_cons, List.map_cons, names]
    · rw [List.map_cons, List.map_cons, texts]

theorem packedAggregate_lays {elaborated : DType → String → Except Failure PackedType}
    (each : ∀ target name type, elaborated target name = .ok type →
      ∃ shape, Denotes dtypes target shape ∧ Lays type shape)
    {dtype : DType} {name : String} (isUnion : Bool) {declared : Option String} {type : PackedType}
    (isKind : dtype.type = if isUnion then .union else .struct)
    (ok : packedAggregate pyRepr dtypes elaborated dtype name isUnion declared = .ok type) :
    ∃ shape, Denotes dtypes dtype shape ∧ Lays type shape := by
  unfold packedAggregate at ok
  obtain ⟨typed, done, ok⟩ := Checked.bind_ok_iff.mp ok
  obtain ⟨targets, members, found, names, denotes, texts, lays⟩ :=
    members_lay each (Checked.forall₂_of_mapM_ok done)
  split at ok
  next => cases ok
  next more =>
    obtain rfl := Except.ok.inj ok
    refine ⟨_, ?_, lays_aggregateType dtype isUnion declared more texts lays⟩
    cases isUnion with
    | false => exact .struct isKind found names denotes
    | true => exact .union isKind found names denotes

/-- A type that is accepted lays out what its node stands for. -/
theorem packedTypeAt_lays {depth : ℕ} {start : DType} {name : String} {type : PackedType}
    (ok : packedTypeAt pyRepr dtypes depth start name = .ok type) :
    ∃ shape, Denotes dtypes start shape ∧ Lays type shape := by
  induction depth generalizing start name type with
  | zero => cases ok
  | succ depth ih =>
    unfold packedTypeAt at ok
    obtain ⟨⟨dtype, aliasName⟩, chain, ok⟩ := Checked.bind_ok_iff.mp ok
    -- it is enough to lay out what the last node of the chain stands for
    suffices result : ∃ shape, Denotes dtypes dtype shape ∧ Lays type shape by
      obtain ⟨shape, denotes, lays⟩ := result
      exact ⟨shape, dereferenceDType_ok chain denotes, lays⟩
    have integral : ∀ {target : DType} {inner : PackedIntegralType} {targetName : String},
        packedTypeAt pyRepr dtypes depth target targetName = .ok (.integral inner) →
          Denotes dtypes target (.vector inner.width) ∧ 0 < inner.width := by
      intro target inner targetName made
      obtain ⟨_, denotes, lays⟩ := ih made
      cases lays with
      | vector _ positive => exact ⟨denotes, positive⟩
    dsimp only at ok
    split at ok
    next basic =>
      obtain ⟨ranges, -, ok⟩ := Checked.bind_ok_iff.mp ok
      obtain ⟨width, isWidth, ok⟩ := Checked.bind_ok_iff.mp ok
      obtain rfl := Except.ok.inj ok
      obtain ⟨denotes, positive⟩ := parseWidth_ok basic isWidth
      exact ⟨_, denotes, .vector _ positive⟩
    next isArray =>
      split at ok
      next => cases ok
      next text declared =>
        obtain ⟨range, isRange, ok⟩ := Checked.bind_ok_iff.mp ok
        obtain ⟨element, reference, ok⟩ := Checked.bind_ok_iff.mp ok
        obtain ⟨inner, made, ok⟩ := Checked.bind_ok_iff.mp ok
        split at ok
        next inner =>
          obtain rfl := Except.ok.inj ok
          obtain ⟨denotes, positive⟩ := integral made
          exact ⟨_, .array isArray declared (parseRange_ok isRange) (referenced_ok reference) denotes,
            .vector _ (Nat.mul_pos (Nat.succ_pos _) positive)⟩
        next => cases ok
    next isEnum =>
      obtain ⟨baseNode, reference, ok⟩ := Checked.bind_ok_iff.mp ok
      obtain ⟨inner, made, ok⟩ := Checked.bind_ok_iff.mp ok
      split at ok
      next base =>
        obtain ⟨values, -, ok⟩ := Checked.bind_ok_iff.mp ok
        obtain rfl := Except.ok.inj ok
        obtain ⟨denotes, positive⟩ := integral made
        exact ⟨_, .enum isEnum (referenced_ok reference) denotes, .enum _ _ _ positive⟩
      next => cases ok
    next isStruct => exact packedAggregate_lays (fun _ _ _ made => ih made) false isStruct ok
    next isUnion => exact packedAggregate_lays (fun _ _ _ made => ih made) true isUnion ok
    next => cases ok

end Meaning

/-! ### Levels -/

section Levels

variable {pyRepr : String → String} {dtypes : DTypes}

/-- One node leads to another one on the way of `packed_type`. -/
def Refers (dtypes : DTypes) (dtype target : DType) : Prop :=
  match dtype.type with
  | .struct | .union => ∃ member ∈ dtype.membersp, dtypeReference dtypes member = some target
  | .basic | .other _ => False
  | _ => dtypeReference dtypes dtype.toNode = some target

/-- No node of the tree of a dtype leads back to itself. -/
def Acyclic (dtypes : DTypes) (start : DType) : Prop :=
  ∀ dtype, Relation.ReflTransGen (Refers dtypes) start dtype →
    ¬ Relation.TransGen (Refers dtypes) dtype dtype

theorem Acyclic.of_refers {dtype target : DType} (acyclic : Acyclic dtypes dtype)
    (refers : Refers dtypes dtype target) : Acyclic dtypes target :=
  fun other way => acyclic other (way.head refers)

theorem Acyclic.of_path {dtype target : DType} (acyclic : Acyclic dtypes dtype)
    (path : Relation.ReflTransGen (Refers dtypes) dtype target) : Acyclic dtypes target :=
  fun other way => acyclic other (path.trans way)

/-- A reference leads into the table. -/
theorem mem_of_dtypeReference {node : Node} {target : DType} (found : dtypeReference dtypes node = some target) :
    target ∈ dtypes.map Prod.snd := by
  obtain ⟨key, -, found⟩ := List.exists_of_findSome?_eq_some found
  obtain ⟨address, -, found⟩ := Option.bind_eq_some_iff.mp found
  split at found
  next => cases found
  next =>
    obtain ⟨before, after, rfl, -⟩ := List.lookup_eq_some_iff.mp found
    simp

theorem Refers.mem {dtype target : DType} (refers : Refers dtypes dtype target) :
    target ∈ dtypes.map Prod.snd := by
  unfold Refers at refers
  split at refers
  · obtain ⟨member, -, found⟩ := refers
    exact mem_of_dtypeReference found
  · obtain ⟨member, -, found⟩ := refers
    exact mem_of_dtypeReference found
  · exact refers.elim
  · exact refers.elim
  · exact mem_of_dtypeReference refers

open Classical in
/-- How many nodes a node leads to. -/
noncomputable def height (dtypes : DTypes) (dtype : DType) : ℕ :=
  ((dtypes.map Prod.snd).toFinset.filter fun target => Relation.TransGen (Refers dtypes) dtype target).card

open Classical in
theorem height_le (dtypes : DTypes) (dtype : DType) : height dtypes dtype ≤ dtypes.length :=
  calc
    height dtypes dtype ≤ (dtypes.map Prod.snd).toFinset.card := Finset.card_filter_le _ _
    _ ≤ (dtypes.map Prod.snd).length := List.toFinset_card_le _
    _ = dtypes.length := List.length_map _

open Classical in
/-- A node leads to fewer nodes than those that lead to it. -/
theorem Acyclic.height_lt {dtype target : DType} (acyclic : Acyclic dtypes dtype)
    (refers : Refers dtypes dtype target) : height dtypes target < height dtypes dtype := by
  refine Finset.card_lt_card (Finset.ssubset_iff_of_subset ?_ |>.mpr ⟨target, ?_, ?_⟩)
  · intro other mem
    obtain ⟨given, path⟩ := Finset.mem_filter.mp mem
    exact Finset.mem_filter.mpr ⟨given, path.head refers⟩
  · exact Finset.mem_filter.mpr ⟨List.mem_toFinset.mpr refers.mem, .single refers⟩
  · intro mem
    exact acyclic target (.single refers) (Finset.mem_filter.mp mem).2

theorem Acyclic.height_le_of_path {dtype target : DType} (acyclic : Acyclic dtypes dtype)
    (path : Relation.ReflTransGen (Refers dtypes) dtype target) : height dtypes target ≤ height dtypes dtype := by
  induction path with
  | refl => exact le_rfl
  | tail before last ih => exact ((acyclic.of_path before).height_lt last).le.trans ih

theorem refers_of_isReference {dtype target : DType} (isReference : dtype.type.isReference = true)
    (found : dtypeReference dtypes dtype.toNode = some target) : Refers dtypes dtype target := by
  unfold Refers
  split
  next kind => rw [kind] at isReference; cases isReference
  next kind => rw [kind] at isReference; cases isReference
  next kind => rw [kind] at isReference; cases isReference
  next kind => rw [kind] at isReference; cases isReference
  next => exact found

/-- A chain of references is a way through the nodes. -/
theorem dereferenceDType_path {name : String} {rounds : ℕ} {seen : List String} {declared known : Option String}
    {current target : DType}
    (ok : dereferenceDType pyRepr dtypes name rounds seen declared current = .ok (target, known)) :
    Relation.ReflTransGen (Refers dtypes) current target := by
  induction rounds generalizing seen declared current with
  | zero =>
    unfold dereferenceDType at ok
    split at ok
    next => cases ok
    next =>
      cases Except.ok.inj ok
      exact .refl
  | succ rounds ih =>
    unfold dereferenceDType at ok
    split at ok
    next isReference =>
      dsimp only at ok
      split at ok
      next => cases ok
      next =>
        obtain ⟨next, found, ok⟩ := Checked.bind_ok_iff.mp ok
        exact (ih ok).head (refers_of_isReference isReference (referenced_ok found))
    next =>
      cases Except.ok.inj ok
      exact .refl

theorem referenced_finished (node : Node) (name : String) :
    Avoids Failure.endless (referenced pyRepr dtypes node name) := by
  unfold referenced
  split
  · exact .pure _
  · exact fun same => nomatch same

theorem dereferenceDType_finished {name : String} {rounds : ℕ} {seen : List String} {declared : Option String}
    {current : DType} (acyclic : Acyclic dtypes current) (enough : height dtypes current < rounds) :
    Avoids Failure.endless (dereferenceDType pyRepr dtypes name rounds seen declared current) := by
  induction rounds generalizing seen declared current with
  | zero => exact absurd enough (Nat.not_lt_zero _)
  | succ rounds ih =>
    unfold dereferenceDType
    refine .ite (fun isReference => .ite (fun _ same => nomatch same) fun _ => ?_) fun _ => .pure _
    refine (referenced_finished _ _).bind fun next found => ?_
    have refers := refers_of_isReference isReference (referenced_ok found)
    have := acyclic.height_lt refers
    exact ih (acyclic.of_refers refers) (by omega)

theorem parseRange_finished (text name : String) : Avoids Failure.endless (parseRange pyRepr text name) := by
  unfold parseRange
  split
  · exact .pure _
  · exact fun same => nomatch same

theorem parseWidth_finished (dtype : DType) (name : String) :
    Avoids Failure.endless (parseWidth pyRepr dtype name) := by
  unfold parseWidth
  split
  · exact .pure _
  · split
    · exact .pure _
    · exact fun same => nomatch same

theorem constantInteger_finished (text name : String) :
    Avoids Failure.endless (constantInteger pyRepr text name) := by
  unfold constantInteger
  dsimp only
  split
  · split
    · exact .pure _
    · exact fun same => nomatch same
  · refine .ite (fun _ same => nomatch same) fun _ => ?_
    split
    · exact fun same => nomatch same
    · exact .ite (fun _ same => nomatch same) fun _ => .pure _

theorem enumValues_finished (dtype : DType) (name : String) (base : PackedIntegralType) :
    Avoids Failure.endless (enumValues pyRepr dtype name base) := by
  refine .mapM fun item _ => ?_
  split
  · exact (constantInteger_finished _ _).bind fun _ _ => .pure _
  · exact fun same => nomatch same

/-- A number of levels above the height of a node is enough. -/
theorem packedTypeAt_finished {depth : ℕ} {start : DType} {name : String} (acyclic : Acyclic dtypes start)
    (enough : height dtypes start < depth) :
    Avoids Failure.endless (packedTypeAt pyRepr dtypes depth start name) := by
  induction depth generalizing start name with
  | zero => exact absurd enough (Nat.not_lt_zero _)
  | succ depth ih =>
    unfold packedTypeAt
    have rounds := Nat.lt_succ_of_le (height_le dtypes start)
    refine (dereferenceDType_finished acyclic rounds).bind ?_
    rintro ⟨dtype, known⟩ chain
    have path := dereferenceDType_path chain
    have inner := acyclic.of_path path
    have lower : ∀ {target : DType} {targetName : String}, Refers dtypes dtype target →
        Avoids Failure.endless (packedTypeAt pyRepr dtypes depth target targetName) := by
      intro target targetName refers
      have below := inner.height_lt refers
      have above := acyclic.height_le_of_path path
      exact ih (inner.of_refers refers) (by omega)
    have direct : dtype.type = .packArray ∨ dtype.type = .enum → ∀ {target : DType},
        referenced pyRepr dtypes dtype.toNode name = .ok target → Refers dtypes dtype target := by
      intro isKind target found
      unfold Refers
      rcases isKind with isKind | isKind <;> rw [isKind] <;> exact referenced_ok found
    have aggregate : ∀ (isUnion : Bool) {declared : Option String},
        dtype.type = (if isUnion then .union else .struct) →
        Avoids Failure.endless
          (packedAggregate pyRepr dtypes (packedTypeAt pyRepr dtypes depth) dtype name isUnion declared) := by
      intro isUnion declared isKind
      refine (Avoids.mapM fun member mem => (referenced_finished _ _).bind fun target found =>
        (lower ?_).bind fun _ _ => .pure _).bind fun _ _ => .ite (fun _ same => nomatch same) fun _ => .pure _
      unfold Refers
      cases isUnion <;> rw [isKind] <;> exact ⟨member, mem, referenced_ok found⟩
    dsimp only
    split
    next =>
      exact (Avoids.mapM fun _ _ => parseRange_finished _ _).bind fun _ _ =>
        (parseWidth_finished _ _).bind fun _ _ => .pure _
    next isArray =>
      split
      next => exact fun same => nomatch same
      next =>
        refine (parseRange_finished _ _).bind fun _ _ => (referenced_finished _ _).bind fun _ found =>
          (lower (direct (.inl isArray) found)).bind fun type _ => ?_
        split
        · exact .pure _
        · exact fun same => nomatch same
    next isEnum =>
      refine (referenced_finished _ _).bind fun _ found =>
        (lower (direct (.inr isEnum) found)).bind fun type _ => ?_
      split
      · exact (enumValues_finished _ _ _).bind fun _ _ => .pure _
      · exact fun same => nomatch same
    next isStruct => exact aggregate false isStruct
    next isUnion => exact aggregate true isUnion
    next => exact fun same => nomatch same

/-- **`packed_type` comes to its end on a tree without cycles.** -/
theorem packedType_finished {dtype : DType} (acyclic : Acyclic dtypes dtype) (name : String) :
    packedType pyRepr dtypes dtype name ≠ .error .endless :=
  packedTypeAt_finished acyclic (Nat.lt_succ_of_le (height_le dtypes dtype))

end Levels

end Cpptb.Packed
