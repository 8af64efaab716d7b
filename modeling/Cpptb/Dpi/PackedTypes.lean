/-
Packed types and what their layout is to be.

* `PackedType`: the generator's elaborated packed types, with `PackedType.width` and
  `PackedType.structuralSignature`, by which the generator shares classes between types.
* `PackedType.undeclared_eq`: types of one signature differ in declared names only.
* `Shape`: what a packed type is, without positions: a vector, or members.
* `Lays`: a packed type gives every member of a shape its bits, at every level; `Lays.width_eq`.
-/

import Cpptb.Lib.Stacking

namespace Cpptb.Packed

open Stacking

/-! ### The types -/

section Types

/-- `PackedRange`. -/
structure PackedRange where
  left : ℤ
  right : ℤ
  deriving DecidableEq, Repr

/-- The width of a range, in either direction. -/
def PackedRange.width (range : PackedRange) : ℕ := (range.left - range.right).natAbs + 1

/-- `PackedIntegralType`. -/
structure PackedIntegralType where
  width : ℕ
  signed : Bool
  fourState : Bool
  ranges : List PackedRange
  declaredName : Option String
  deriving DecidableEq, Repr

/-- `PackedEnumValue`. -/
structure PackedEnumValue where
  name : String
  value : ℤ
  deriving DecidableEq, Repr

mutual

/-- `PackedIntegralType | PackedEnumType | PackedStructType | PackedUnionType`. -/
inductive PackedType where
  | integral (type : PackedIntegralType)
  | enum (base : PackedIntegralType) (values : List PackedEnumValue) (declaredName : Option String)
  | struct (width : ℕ) (signed fourState : Bool) (fields : List PackedField)
      (declaredName : Option String)
  | union (width : ℕ) (signed fourState : Bool) (fields : List PackedField)
      (declaredName : Option String)

/-- `PackedField`. -/
structure PackedField where
  name : String
  dataType : PackedType
  bitOffset : ℕ

end

namespace PackedType

def width : PackedType → ℕ
  | integral type => type.width
  | enum base _ _ => base.width
  | struct width _ _ _ _ => width
  | union width _ _ _ _ => width

def fourState : PackedType → Bool
  | integral type => type.fourState
  | enum base _ _ => base.fourState
  | struct _ _ fourState _ _ => fourState
  | union _ _ fourState _ _ => fourState

def declaredName : PackedType → Option String
  | integral type => type.declaredName
  | enum _ _ name => name
  | struct _ _ _ _ name => name
  | union _ _ _ _ name => name

/-- `isinstance(..., PackedStructType)`. -/
def isStruct : PackedType → Bool
  | struct .. => true
  | _ => false

/-- The fields of a struct or a union. -/
def fields : PackedType → List PackedField
  | struct _ _ _ fields _ => fields
  | union _ _ _ fields _ => fields
  | _ => []

end PackedType

def PackedField.width (field : PackedField) : ℕ := field.dataType.width

end Types

/-! ### Signatures -/

section Signatures

/-- Tuples of the generator's language, one item and the rest. -/
inductive Tuple where
  | text (value : String)
  | flag (value : Bool)
  | number (value : ℤ)
  | empty
  | pair (first rest : Tuple)
  deriving DecidableEq, Repr

/-- A tuple of its items. -/
def Tuple.of (items : List Tuple) : Tuple := items.foldr .pair .empty

theorem Tuple.of_injective : Function.Injective Tuple.of := by
  intro left
  induction left with
  | nil =>
    intro right same
    cases right with
    | nil => rfl
    | cons item items => cases same
  | cons head tail ih =>
    intro right same
    cases right with
    | nil => cases same
    | cons item items =>
      obtain ⟨first, rest⟩ := Tuple.pair.inj same
      rw [first, ih rest]

def PackedRange.tuple (range : PackedRange) : Tuple :=
  .of [.number range.left, .number range.right]

def PackedEnumValue.tuple (value : PackedEnumValue) : Tuple := .of [.text value.name, .number value.value]

/-- The declared name is no part of the signature. -/
def PackedIntegralType.structuralSignature (type : PackedIntegralType) : Tuple :=
  .of [.text "integral", .number type.width, .flag type.signed, .flag type.fourState,
    .of (type.ranges.map PackedRange.tuple)]

mutual

def PackedType.structuralSignature : PackedType → Tuple
  | .integral type => type.structuralSignature
  | .enum base values _ =>
    .of [.text "enum", base.structuralSignature, .of (values.map PackedEnumValue.tuple)]
  | .struct width signed fourState fields _ =>
    .of [.text "struct", .number width, .flag signed, .flag fourState, fieldSignatures fields]
  | .union width signed fourState fields _ =>
    .of [.text "union", .number width, .flag signed, .flag fourState, fieldSignatures fields]

def PackedField.structuralSignature : PackedField → Tuple
  | ⟨name, dataType, bitOffset⟩ => .of [.text name, .number bitOffset, dataType.structuralSignature]

/-- `tuple(item.structural_signature() for item in self.fields)`. -/
def fieldSignatures : List PackedField → Tuple
  | [] => .empty
  | field :: rest => .pair field.structuralSignature (fieldSignatures rest)

end

/-- A type without its declared name. -/
def PackedIntegralType.undeclared (type : PackedIntegralType) : PackedIntegralType :=
  { type with declaredName := none }

mutual

/-- A type without declared names, at every level. -/
def PackedType.undeclared : PackedType → PackedType
  | .integral type => .integral type.undeclared
  | .enum base values _ => .enum base.undeclared values none
  | .struct width signed fourState fields _ =>
    .struct width signed fourState (undeclaredFields fields) none
  | .union width signed fourState fields _ =>
    .union width signed fourState (undeclaredFields fields) none

def PackedField.undeclared : PackedField → PackedField
  | ⟨name, dataType, bitOffset⟩ => ⟨name, dataType.undeclared, bitOffset⟩

def undeclaredFields : List PackedField → List PackedField
  | [] => []
  | field :: rest => field.undeclared :: undeclaredFields rest

end

theorem undeclaredFields_eq_map (fields : List PackedField) :
    undeclaredFields fields = fields.map PackedField.undeclared := by
  induction fields with
  | nil => rw [undeclaredFields, List.map_nil]
  | cons field rest ih => rw [undeclaredFields, List.map_cons, ih]

theorem PackedRange.tuple_injective : Function.Injective PackedRange.tuple := by
  rintro ⟨left, right⟩ ⟨left', right'⟩ same
  simp only [tuple, Tuple.of_injective.eq_iff, List.cons.injEq, Tuple.number.injEq, and_true] at same
  rw [same.1, same.2]

theorem PackedEnumValue.tuple_injective : Function.Injective PackedEnumValue.tuple := by
  rintro ⟨name, value⟩ ⟨name', value'⟩ same
  simp only [tuple, Tuple.of_injective.eq_iff, List.cons.injEq, Tuple.text.injEq, Tuple.number.injEq,
    and_true] at same
  rw [same.1, same.2]

theorem PackedIntegralType.undeclared_eq {left right : PackedIntegralType}
    (same : left.structuralSignature = right.structuralSignature) : left.undeclared = right.undeclared := by
  obtain ⟨width, signed, fourState, ranges, name⟩ := left
  obtain ⟨width', signed', fourState', ranges', name'⟩ := right
  simp only [structuralSignature, Tuple.of_injective.eq_iff, List.cons.injEq, Tuple.number.injEq,
    Tuple.flag.injEq, Int.natCast_inj, and_true, true_and] at same
  obtain ⟨rfl, rfl, rfl, items⟩ := same
  obtain rfl := List.map_injective_iff.mpr PackedRange.tuple_injective items
  rfl

mutual

/-- **Types of one signature differ in declared names only.** -/
theorem PackedType.undeclared_eq : ∀ left right : PackedType,
    left.structuralSignature = right.structuralSignature → left.undeclared = right.undeclared
  | .integral type, right, same => by
    cases right with
    | integral type' => rw [PackedType.undeclared, PackedType.undeclared, PackedIntegralType.undeclared_eq same]
    | enum | struct | union =>
      simp [PackedType.structuralSignature, PackedIntegralType.structuralSignature, Tuple.of_injective.eq_iff] at same
  | .enum base values name, right, same => by
    cases right with
    | enum base' values' name' =>
      simp only [PackedType.structuralSignature, Tuple.of_injective.eq_iff, List.cons.injEq, and_true, true_and] at same
      obtain ⟨bases, items⟩ := same
      obtain rfl := List.map_injective_iff.mpr PackedEnumValue.tuple_injective items
      rw [PackedType.undeclared, PackedType.undeclared, PackedIntegralType.undeclared_eq bases]
    | integral | struct | union =>
      simp [PackedType.structuralSignature, PackedIntegralType.structuralSignature, Tuple.of_injective.eq_iff] at same
  | .struct width signed fourState fields name, right, same => by
    cases right with
    | struct width' signed' fourState' fields' name' =>
      simp only [PackedType.structuralSignature, Tuple.of_injective.eq_iff, List.cons.injEq, Tuple.number.injEq,
        Tuple.flag.injEq, Int.natCast_inj, and_true, true_and] at same
      obtain ⟨rfl, rfl, rfl, items⟩ := same
      rw [PackedType.undeclared, PackedType.undeclared, undeclaredFields_eq fields fields' items]
    | integral | enum | union =>
      simp [PackedType.structuralSignature, PackedIntegralType.structuralSignature, Tuple.of_injective.eq_iff] at same
  | .union width signed fourState fields name, right, same => by
    cases right with
    | union width' signed' fourState' fields' name' =>
      simp only [PackedType.structuralSignature, Tuple.of_injective.eq_iff, List.cons.injEq, Tuple.number.injEq,
        Tuple.flag.injEq, Int.natCast_inj, and_true, true_and] at same
      obtain ⟨rfl, rfl, rfl, items⟩ := same
      rw [PackedType.undeclared, PackedType.undeclared, undeclaredFields_eq fields fields' items]
    | integral | enum | struct =>
      simp [PackedType.structuralSignature, PackedIntegralType.structuralSignature, Tuple.of_injective.eq_iff] at same

theorem PackedField.undeclared_eq : ∀ left right : PackedField,
    left.structuralSignature = right.structuralSignature → left.undeclared = right.undeclared
  | ⟨name, dataType, bitOffset⟩, ⟨name', dataType', bitOffset'⟩, same => by
    simp only [PackedField.structuralSignature, Tuple.of_injective.eq_iff, List.cons.injEq, Tuple.text.injEq,
      Tuple.number.injEq, Int.natCast_inj, and_true] at same
    obtain ⟨rfl, rfl, types⟩ := same
    rw [PackedField.undeclared, PackedField.undeclared, PackedType.undeclared_eq dataType dataType' types]

theorem undeclaredFields_eq : ∀ left right : List PackedField,
    fieldSignatures left = fieldSignatures right → undeclaredFields left = undeclaredFields right
  | [], right, same => by
    cases right with
    | nil => rfl
    | cons => simp [fieldSignatures] at same
  | field :: rest, right, same => by
    cases right with
    | nil => simp [fieldSignatures] at same
    | cons field' rest' =>
      simp only [fieldSignatures, Tuple.pair.injEq] at same
      rw [undeclaredFields, undeclaredFields, PackedField.undeclared_eq field field' same.1,
        undeclaredFields_eq rest rest' same.2]

end

/-- The declared names are no part of a width. -/
@[simp] theorem PackedType.width_undeclared (type : PackedType) : type.undeclared.width = type.width := by
  cases type <;> rfl

@[simp] theorem PackedType.fields_undeclared (type : PackedType) :
    type.undeclared.fields = type.fields.map PackedField.undeclared := by
  cases type <;> simp [undeclared, fields, undeclaredFields_eq_map]

@[simp] theorem PackedField.width_undeclared (field : PackedField) : field.undeclared.width = field.width := by
  obtain ⟨name, dataType, bitOffset⟩ := field
  exact dataType.width_undeclared

end Signatures

/-! ### Layouts -/

section Layouts

mutual

/-- A packed type without positions: a vector of bits, or members in their declared order. -/
inductive Shape where
  | vector (width : ℕ)
  | struct (members : List Member)
  | union (members : List Member)

structure Member where
  name : String
  shape : Shape

end

mutual

/-- The bits of a shape: those of all members of a struct, and of the widest of a union. -/
def Shape.width : Shape → ℕ
  | .vector width => width
  | .struct members => totalWidth members
  | .union members => widestWidth members

def Member.width : Member → ℕ
  | ⟨_, shape⟩ => shape.width

def totalWidth : List Member → ℕ
  | [] => 0
  | member :: rest => member.width + totalWidth rest

def widestWidth : List Member → ℕ
  | [] => 0
  | member :: rest => max member.width (widestWidth rest)

end

/-- A packed type gives the members of a shape their bits, at every level: those of a struct partition
its width, with the first member at the top, and those of a union lie over each other. -/
inductive Lays : PackedType → Shape → Prop
  | vector (type : PackedIntegralType) : 0 < type.width → Lays (.integral type) (.vector type.width)
  | enum (base : PackedIntegralType) (values : List PackedEnumValue) (declaredName : Option String) :
      0 < base.width → Lays (.enum base values declaredName) (.vector base.width)
  | struct (width : ℕ) (signed fourState : Bool) (fields : List PackedField)
      (declaredName : Option String) (members : List Member) :
      fields ≠ [] → fields.map PackedField.name = members.map Member.name →
      (∀ pair ∈ fields.zip members, Lays pair.1.dataType pair.2.shape) →
      Partition PackedField.bitOffset PackedField.width fields width →
      Lays (.struct width signed fourState fields declaredName) (.struct members)
  | union (width : ℕ) (signed fourState : Bool) (fields : List PackedField)
      (declaredName : Option String) (members : List Member) :
      fields ≠ [] → fields.map PackedField.name = members.map Member.name →
      (∀ pair ∈ fields.zip members, Lays pair.1.dataType pair.2.shape) →
      Overlay PackedField.bitOffset PackedField.width fields width →
      Lays (.union width signed fourState fields declaredName) (.union members)

theorem Member.width_eq (member : Member) : member.width = member.shape.width := by
  obtain ⟨name, shape⟩ := member
  rfl

theorem totalWidth_eq (members : List Member) : totalWidth members = (members.map Member.width).sum := by
  induction members with
  | nil => rfl
  | cons member rest ih => rw [totalWidth, ih, List.map_cons, List.sum_cons]

/-- The widest of a union is the maximum of the widths. -/
theorem widestWidth_eq {members : List Member} {width : ℕ} (inside : ∀ member ∈ members, member.width ≤ width)
    (widest : ∃ member ∈ members, member.width = width) : widestWidth members = width := by
  have bounded : ∀ others : List Member, (∀ member ∈ others, member.width ≤ width) →
      widestWidth others ≤ width := by
    intro others below
    induction others with
    | nil => exact Nat.zero_le _
    | cons member rest ih =>
      obtain ⟨here, below⟩ := List.forall_mem_cons.mp below
      rw [widestWidth]
      exact max_le here (ih below)
  have reached : ∀ others : List Member, ∀ member ∈ others, member.width ≤ widestWidth others := by
    intro others
    induction others with
    | nil => exact fun _ member => nomatch member
    | cons member rest ih =>
      rw [widestWidth]
      exact List.forall_mem_cons.mpr
        ⟨le_max_left _ _, fun other mem => (ih other mem).trans (le_max_right _ _)⟩
  obtain ⟨member, mem, exact⟩ := widest
  exact le_antisymm (bounded members inside) (exact ▸ reached members member mem)

/-- Fields as wide as the members they lie beside. -/
theorem map_width_eq {fields : List PackedField} {members : List Member}
    (names : fields.map PackedField.name = members.map Member.name)
    (widths : ∀ pair ∈ fields.zip members, pair.1.dataType.width = pair.2.shape.width) :
    fields.map PackedField.width = members.map Member.width := by
  induction fields generalizing members with
  | nil =>
    obtain rfl := List.map_eq_nil_iff.mp names.symm
    rfl
  | cons field rest ih =>
    cases members with
    | nil => cases names
    | cons member others =>
      rw [List.zip_cons_cons] at widths
      obtain ⟨here, widths⟩ := List.forall_mem_cons.mp widths
      rw [List.map_cons, List.map_cons] at names
      rw [List.map_cons, List.map_cons, ih (List.cons.inj names).2 widths]
      rw [member.width_eq, ← here]
      rfl

namespace Lays

/-- **The widths add up.** -/
theorem width_eq {type : PackedType} {shape : Shape} (lays : Lays type shape) :
    type.width = shape.width := by
  induction lays with
  | vector | enum => rfl
  | struct width signed fourState fields name members _ names _ partition ih =>
    calc
      width = (fields.map PackedField.width).sum := partition.sum_width.symm
      _ = (members.map Member.width).sum := by rw [map_width_eq names ih]
      _ = totalWidth members := (totalWidth_eq members).symm
  | union width signed fourState fields name members _ names _ overlay ih =>
    have widths := map_width_eq names ih
    have each : ∀ member ∈ members, ∃ field ∈ fields, field.width = member.width := fun member mem => by
      have := List.mem_map_of_mem mem (f := Member.width)
      rw [← widths] at this
      exact List.mem_map.mp this
    refine (widestWidth_eq (fun member mem => ?_) ?_).symm
    · obtain ⟨field, inside, same⟩ := each member mem
      rw [← same]
      exact overlay.inside field inside
    · obtain ⟨field, inside, same⟩ := overlay.widest
      have := List.mem_map_of_mem inside (f := PackedField.width)
      rw [widths] at this
      obtain ⟨member, mem, equal⟩ := List.mem_map.mp this
      exact ⟨member, mem, equal.trans same⟩

theorem width_pos {type : PackedType} {shape : Shape} (lays : Lays type shape) : 0 < type.width := by
  cases lays with
  | vector | enum => assumption
  | struct _ _ _ _ _ _ some _ _ partition =>
    obtain ⟨field, rest, rfl⟩ := List.exists_cons_of_ne_nil some
    have := partition.nonempty field List.mem_cons_self
    exact Nat.lt_of_lt_of_le this ((Nat.le_add_left _ _).trans (partition.inside field List.mem_cons_self))
  | union _ _ _ _ _ _ _ _ _ overlay =>
    obtain ⟨field, mem, same⟩ := overlay.widest
    exact same ▸ overlay.nonempty field mem

end Lays

end Layouts

end Cpptb.Packed
