/-
The C++ classes generated for packed types.

* `PackedCppRegistry.register`: `PackedCppRegistry`, which makes one class for each structural signature.
* `renderPackedCppTypes`: what the generated text declares. For a struct these are the accessors of its
  fields, in a class that holds the bits and in one that views them in a storage.
* `Accessor.get`, `Accessor.set`, `Accessor.viewGet`, `Accessor.viewSet`: what the accessors do.
* `Accessor.call`, `Accessor.viewCall`: which function a call without arguments chooses on an object that
  may change.
-/

import Cpptb.Dpi.PackedElaboration
import Cpptb.Dpi.CppText
import Cpptb.FixedPoint.Slices

namespace Cpptb.Packed

open Stacking
open Bindings (cppIdentifier)
open FixedPoint (Bits Fault)

/-! ### The registry -/

section Registry

/-- `PackedCppType`. -/
structure PackedCppType where
  dataType : PackedType
  baseName : String

/-- `PackedCppRegistry`. Both of its dictionaries are read off the entries. -/
structure PackedCppRegistry where
  entries : List PackedCppType

/-- `re.split(r"::|\.", ...)`. -/
def splitScopes : List Char → List (List Char)
  | [] => [[]]
  | ':' :: ':' :: rest => [] :: splitScopes rest
  | '.' :: rest => [] :: splitScopes rest
  | character :: rest =>
    match splitScopes rest with
    | part :: others => (character :: part) :: others
    | [] => [[character]]

namespace PackedCppRegistry

variable (pyRepr : String → String) (registry : PackedCppRegistry)

/-- `_by_signature.get(...)`. -/
def bySignature (signature : Tuple) : Option PackedCppType :=
  registry.entries.find? fun entry => entry.dataType.structuralSignature = signature

/-- `_signatures_by_name.get(...)`. -/
def signatureByName (name : String) : Option Tuple :=
  (registry.entries.reverse.find? fun entry => entry.baseName = name).map fun entry =>
    entry.dataType.structuralSignature

/-- `free`. -/
def free (signature : Tuple) (candidate : String) : Bool :=
  match registry.signatureByName candidate with
  | none => true
  | some previous => previous = signature

/-- `_unique_name`. -/
def uniqueName (parts context : List String) (signature : Tuple) : Except Failure String :=
  let last := parts.getLast?.getD ""
  let baseName := cppIdentifier last true
  let qualified := (List.range' 2 (parts.length - 1)).map fun depth =>
    cppIdentifier ("_".intercalate (parts.drop (parts.length - depth))) true
  let reached := if context = [] then [] else [cppIdentifier ("_".intercalate (context ++ [last])) true]
  let counted := (List.range' 2 998).map fun index => baseName ++ toString index
  match (baseName :: (qualified ++ reached ++ counted)).find? (registry.free signature) with
  | some name => return name
  | none => throw (.codegen s!"cannot find a unique C++ name for packed type {pyRepr baseName}")

/-- The end of `register`: an entry for a new signature. -/
def add (dataType : PackedType) (context : List String) : Except Failure PackedCppRegistry :=
  let signature := dataType.structuralSignature
  if (registry.bySignature signature).isSome then return registry
  else do
    let parts := match present dataType.declaredName with
      | some name => (splitScopes name.toList).map String.ofList
      | none => context
    let baseName ← registry.uniqueName pyRepr parts context signature
    return ⟨registry.entries ++ [⟨dataType, baseName⟩]⟩

end PackedCppRegistry

mutual

/-- `register`. -/
def register (pyRepr : String → String) :
    PackedType → List String → PackedCppRegistry → Except Failure PackedCppRegistry
  | .integral _, _, registry => return registry
  | .union _ _ _ _ _, context, _ =>
    throw (.codegen
      (s!"packed union at " ++ pyRepr (".".intercalate context) ++ " has no generated C++ typed view"))
  | .enum base values name, context, registry => registry.add pyRepr (.enum base values name) context
  | .struct width signed fourState fields name, context, registry => do
    let registry ← registerFields pyRepr fields context registry
    registry.add pyRepr (.struct width signed fourState fields name) context

def registerField (pyRepr : String → String) :
    PackedField → List String → PackedCppRegistry → Except Failure PackedCppRegistry
  | ⟨name, dataType, _⟩, context, registry => register pyRepr dataType (context ++ [name]) registry

/-- The loop of `register` over the fields. -/
def registerFields (pyRepr : String → String) :
    List PackedField → List String → PackedCppRegistry → Except Failure PackedCppRegistry
  | [], _, registry => return registry
  | field :: rest, context, registry => do
    let registry ← registerField pyRepr field context registry
    registerFields pyRepr rest context registry

end

/-- What `collect_packed_cpp_types` reads of a port. -/
structure Port where
  name : String
  cppPath : List String
  packedType : Option PackedType

/-- What `collect_packed_cpp_types` reads of a signal of the hierarchy. -/
structure HierarchySignal where
  cppPath : List String
  packedType : Option PackedType

/-- `collect_packed_cpp_types`. -/
def collectPackedCppTypes (pyRepr : String → String) (ports : List Port)
    (hierarchy : Option (List HierarchySignal)) : Except Failure PackedCppRegistry := do
  let registry ← ports.foldlM (fun registry port =>
    match port.packedType with
    | none => pure registry
    | some dataType =>
      register pyRepr dataType (if port.cppPath = [] then [port.name] else port.cppPath) registry) ⟨[]⟩
  (hierarchy.getD []).foldlM (fun registry signal =>
    match signal.packedType with
    | none | some (.union _ _ _ _ _) => pure registry
    | some dataType => register pyRepr dataType signal.cppPath registry) registry

end Registry

/-! ### The declarations -/

section Rendering

variable (pyRepr : String → String)

/-- The accessors of one field: its C++ name, and the class of its values where they are not plain
`cpptb::Bits`. -/
structure Accessor where
  name : String
  field : PackedField
  valueClass : Option PackedCppType

/-- What the generated text declares for one type. -/
inductive Rendered where
  | enum (entry : PackedCppType) (values : List (String × String))
  | struct (entry : PackedCppType) (accessors : List Accessor)

/-- `enum_literal`. -/
def enumLiteral (value : ℤ) (signed : Bool) : Except Failure String :=
  if signed then
    if value < -2 ^ 63 ∨ value ≥ 2 ^ 63 then
      throw (.codegen s!"signed enum value {value} does not fit std::int64_t")
    else return toString value
  else if value < 0 ∨ value ≥ 2 ^ 64 then
    throw (.codegen s!"unsigned enum value {value} does not fit std::uint64_t")
  else return s!"{value}ULL"

/-- `render_packed_enum`. -/
def renderPackedEnum (entry : PackedCppType) (base : PackedIntegralType) (values : List PackedEnumValue) :
    Except Failure Rendered := do
  let what := pyRepr entry.baseName
  if base.width > 64 then
    throw (.codegen s!"packed enum {what} is wider than C++ enum storage")
  else
    let rendered ← values.foldlM (fun (rendered : List (String × String)) item => do
      let name := cppIdentifier item.name true
      if name ∈ rendered.map Prod.fst then
        throw (.codegen (s!"packed enum {what} has duplicate C++ value " ++ pyRepr name))
      else return rendered ++ [(name, ← enumLiteral item.value base.signed)]) []
    return .enum entry rendered

/-- One round of the loop of `validate_packed_field_names`. -/
def addFieldName (entry : PackedCppType) (used : List String) (field : PackedField) :
    Except Failure (List String) :=
  let name := cppIdentifier field.name
  if name ∈ used then
    throw (.codegen (s!"packed struct {pyRepr entry.baseName} has duplicate C++ field " ++ pyRepr name))
  else return used ++ [name]

/-- `validate_packed_field_names`: the names of the fields, in their order. -/
def validatePackedFieldNames (entry : PackedCppType) : Except Failure (List String) :=
  entry.dataType.fields.foldlM (addFieldName pyRepr entry) []

/-- `packed_field_value_type`, as the class that it names. -/
def packedFieldValueClass (registry : PackedCppRegistry) (field : PackedField) :
    Except Failure (Option PackedCppType) :=
  match field.dataType with
  | .integral _ => return none
  | dataType =>
    match registry.bySignature dataType.structuralSignature with
    | some entry => return some entry
    | none => throw (.codegen "packed C++ type was not registered")

/-- `render_packed_struct`. -/
def renderPackedStruct (registry : PackedCppRegistry) (entry : PackedCppType) : Except Failure Rendered :=
  if entry.dataType.isStruct then do
    let names ← validatePackedFieldNames pyRepr entry
    let accessors ← (names.zip entry.dataType.fields).mapM fun named => do
      let valueClass ← packedFieldValueClass registry named.2
      return (⟨named.1, named.2, valueClass⟩ : Accessor)
    return .struct entry accessors
  else throw .assertion

/-- `render_packed_cpp_types`. -/
def renderPackedCppTypes (registry : PackedCppRegistry) : Except Failure (List Rendered) :=
  registry.entries.mapM fun entry =>
    match entry.dataType with
    | .enum base values _ => renderPackedEnum pyRepr entry base values
    | _ => renderPackedStruct pyRepr registry entry

end Rendering

/-! ### The accessors -/

section Accessors

variable {S W K : ℕ}

/-- `slice<K>(lsb)`. A width of zero does not compile. -/
def readSlice (K : ℕ) (bits : Bits W) (lsb : ℕ) : Except Fault (Bits K) :=
  if positive : 0 < K then bits.slice positive lsb
  else throw (.fail "cpptb::Bits slice width must be greater than zero")

theorem setSlice_keeps (positive : 0 < K) (bits : Bits W) (lsb : ℕ) (value : Bits K)
    {words : List FixedPoint.Word} (ok : bits.setSlice lsb value = .ok words) :
    words.length = FixedPoint.wordCount W ∧ FixedPoint.wordsValue words < 2 ^ W := by
  rcases Nat.lt_or_ge W (lsb + K) with beyond | inside
  · unfold Bits.setSlice at ok
    rw [if_pos (by omega)] at ok
    cases ok
  · obtain ⟨after, written, -⟩ := bits.setSlice_spec positive value inside
    obtain rfl := Except.ok.inj (ok.symm.trans written)
    exact ⟨after.size, after.padded⟩

/-- `set_slice<K>(lsb, value)`: the bits that it leaves. -/
def writeSlice (bits : Bits W) (lsb : ℕ) (value : Bits K) : Except Fault (Bits W) :=
  if positive : 0 < K then
    match written : bits.setSlice lsb value with
    | .ok words =>
      have kept := setSlice_keeps positive bits lsb value written
      return ⟨words, kept.1, kept.2⟩
    | .error fault => throw fault
  else throw (.fail "cpptb::Bits slice width must be greater than zero")

/-- What a setter takes: a value of the field, or an enumerator, which `from_enum` encodes. -/
inductive Argument (K : ℕ) where
  | value (raw : Bits K)
  | enumerator (positive : 0 < K) (encoded : BitVec 64)

/-- The raw bits of an argument. -/
def Argument.raw : Argument K → Bits K
  | .value raw => raw
  | .enumerator positive encoded => Bits.fromUInt positive encoded

/-- `std::size_t`. -/
def sizeT (n : ℕ) : ℕ := n % 2 ^ 64

/-- A view of a storage: `bit_offset_`. The storage is passed along. -/
structure View where
  bitOffset : ℕ

namespace View

/-- `raw_bits`, of a view of `W` bits. -/
def rawBits (W : ℕ) (view : View) (storage : Bits S) : Except Fault (Bits W) :=
  readSlice W storage view.bitOffset

/-- `set_raw_bits`. -/
def setRawBits (view : View) (storage : Bits S) (value : Bits W) : Except Fault (Bits S) :=
  writeSlice storage view.bitOffset value

end View

/-- What a call of a field returns: a value, or a view of `width` bits of the same storage. -/
inductive Reading where
  | value (width : ℕ) (bits : Bits width)
  | view (width : ℕ) (view : View)

/-- The raw bits of what a call returned. -/
def Reading.rawBits (storage : Bits S) : Reading → Except Fault ((width : ℕ) × Bits width)
  | .value width bits => return ⟨width, bits⟩
  | .view width onto => do return ⟨width, ← onto.rawBits width storage⟩

namespace Accessor

variable (accessor : Accessor)

/-- The width of the field. -/
abbrev width : ℕ := accessor.field.width

/-- `x() const`, of the value class. -/
def get (bits : Bits W) : Except Fault (Bits accessor.width) :=
  readSlice accessor.width bits accessor.field.bitOffset

/-- `set_x(value)`, of the value class. -/
def set (bits : Bits W) (argument : Argument accessor.width) : Except Fault (Bits W) :=
  writeSlice bits accessor.field.bitOffset argument.raw

/-- `bit_offset_ + offset`. -/
def position (view : View) : ℕ := sizeT (view.bitOffset + accessor.field.bitOffset)

/-- `x() const`, of the view class. -/
def viewGet (view : View) (storage : Bits S) : Except Fault (Bits accessor.width) :=
  readSlice accessor.width storage (accessor.position view)

/-- `set_x(value)`, of the view class. -/
def viewSet (view : View) (storage : Bits S) (argument : Argument accessor.width) :
    Except Fault (Bits S) :=
  writeSlice storage (accessor.position view) argument.raw

/-- `x()`, of the view class and a struct field. -/
def nested (view : View) : View := ⟨accessor.position view⟩

/-- The call `value.x()` on a value that may change. The class has a function `view()` of its own, which
is not `const` and therefore chosen before a field of that name. -/
def call (bits : Bits W) : Except Fault Reading :=
  if accessor.name = "view" then return .view W ⟨0⟩
  else do return .value accessor.width (← accessor.get bits)

/-- The width of the class of the field's values. -/
def classWidth : ℕ := accessor.valueClass.elim accessor.width fun entry => entry.dataType.width

/-- The call `view.x()` on a view that may change. A struct field has a function that returns a view and
is not `const`. -/
def viewCall (view : View) (storage : Bits S) : Except Fault Reading :=
  if accessor.field.dataType.isStruct then return .view accessor.classWidth (accessor.nested view)
  else do return .value accessor.width (← accessor.viewGet view storage)

end Accessor

end Accessors

end Cpptb.Packed
