/-
**Registers through HDL paths.**

* `registerBackdoorSlices`: the slices of a register, from the paths of its description.
* `poke`, `peek`: the generated accesses of up to 64 bits; `pokeWords`, `peekWords`: word by word.
* `writeSlice_spec`, `writeSliceWords_spec`: one slice, in the two implementations.
* `poke_spec`, `pokeWords_spec`, `peek_spec`, `peekWords_spec`: a register.
* `backdoor_iff`: when a register moves exactly its bits, in both implementations.
-/

import Cpptb.Hierarchy.Transport
import Cpptb.Lib.Regions
import Cpptb.RegisterModel.Effects

namespace Cpptb.RegisterModel.HdlBackdoor

open Hierarchy (Dimension Value valueBits normalize)

/-! ### Paths -/

section Paths

/-- What a path names: a whole object, one element or bit, or a range of bits. -/
inductive Selection
  | full
  | select (index : ℤ)
  | range (msb lsb : ℤ)
  deriving DecidableEq, Repr

/-- `-?\d+`. -/
def parseIndex (text : List Char) : Option ℤ :=
  let (negative, digits) := match text with
    | '-' :: digits => (true, digits)
    | digits => (false, digits)
  if digits ≠ [] ∧ digits.all Char.isDigit then
    let value : ℕ := digits.foldl (fun value digit => value * 10 + (digit.toNat - '0'.toNat)) 0
    some (if negative then -value else value)
  else
    none

/-- A path that ends in brackets: what is before and what is between them. -/
def splitBrackets (path : List Char) : Option (List Char × List Char) :=
  match path.reverse with
  | ']' :: rest =>
    match rest.dropWhile (· ≠ '[') with
    | '[' :: front =>
      if front ≠ [] ∧ '\n' ∉ front then
        some (front.reverse, (rest.takeWhile (· ≠ '[')).reverse)
      else
        none
    | _ => none
  | _ => none

/-- `_hdl_path_selection`. -/
def hdlPathSelection (path : String) : String × Selection :=
  match splitBrackets path.toList with
  | none => (path, .full)
  | some (front, inner) =>
    match parseIndex (inner.takeWhile (· ≠ ':')), inner.dropWhile (· ≠ ':') with
    | some first, [] => (String.ofList front, .select first)
    | some first, _ :: rest =>
      match parseIndex rest with
      | some second => (String.ofList front, .range first second)
      | none => (path, .full)
    | none, _ => (path, .full)

/-- `_join_hdl_path`. -/
def joinHdlPath (parts : List String) : String :=
  parts.foldl (fun result part =>
    if part = "" then result
    else if result = "" then part
    else if part.startsWith "." ∨ part.startsWith "[" ∨ result.endsWith "." then result ++ part
    else result ++ "." ++ part) ""

end Paths

/-! ### Slices -/

section Slices

/-- `BackdoorSlice`. -/
structure BackdoorSlice where
  path : String
  registerLsb : ℕ
  width : ℕ
  deriving DecidableEq, Repr

/-- A field of a description, with its `hdl_path_slice`. -/
structure FieldNode where
  path : String
  lsb : ℕ
  width : ℕ
  hdlPathSlice : List String
  deriving DecidableEq, Repr

/-- A register of a description. The HDL parts are those of the register and its ancestors, the
outermost first. -/
structure RegisterNode where
  hdlPath : Option String
  hdlParts : List String
  regwidth : ℕ
  fields : List FieldNode
  deriving DecidableEq, Repr

/-- The text of a `RegisterCodegenError`. -/
abbrev RegisterCodegenError := String

/-- The slices of one field; `none` without a path. -/
def fieldSlices (node : RegisterNode) (field : FieldNode) :
    Except RegisterCodegenError (Option (List BackdoorSlice)) :=
  match field.hdlPathSlice with
  | [] => .ok none
  | [path] => .ok (some [⟨joinHdlPath (node.hdlParts ++ [path]), field.lsb, field.width⟩])
  | paths =>
    if paths.length ≠ field.width then
      .error (s!"{field.path}: hdl_path_slice has {paths.length} entries for a {field.width}-bit " ++
        "field; use one path for the entire field or one path per bit from MSB to LSB")
    else
      .ok (some (paths.mapIdx fun index path =>
        ⟨joinHdlPath (node.hdlParts ++ [path]), field.lsb + field.width - 1 - index, 1⟩))

/-- `_register_backdoor_slices`: the slices of the register, whether they are complete, and the slices
of the fields. -/
def registerBackdoorSlices (node : RegisterNode) :
    Except RegisterCodegenError (List BackdoorSlice × Bool × List (List BackdoorSlice)) :=
  match node.hdlPath with
  | some _ =>
    let path := joinHdlPath node.hdlParts
    .ok ([⟨path, 0, node.regwidth⟩], true,
      node.fields.map fun field => [⟨path, field.lsb, field.width⟩])
  | none => do
    let slices ← node.fields.mapM (fieldSlices node)
    return ((slices.map (·.getD [])).flatten,
      !node.fields.isEmpty && slices.all Option.isSome, slices.map (·.getD []))

end Slices

/-! ### The design -/

section Designs

/-- The objects of a design, by path: the width of a signal or of the elements of a memory, and the
bounds of a memory. -/
structure Dut where
  width : String → ℕ
  memory : String → Option Dimension

/-- The bits of the objects, by path, element and position. -/
abbrev Contents := String → ℤ → ℕ → Bool

/-- A bit vector, from its bits. -/
def vector (width : ℕ) (bits : ℕ → Bool) : BitVec width :=
  (BitVec.ofBoolListLE ((List.range width).map bits)).setWidth width

theorem getLsbD_vector {width bit : ℕ} (bits : ℕ → Bool) :
    (vector width bits).getLsbD bit = (decide (bit < width) && bits bit) := by
  rw [vector, BitVec.getLsbD_setWidth, BitVec.getLsbD_ofBoolListLE]
  by_cases inside : bit < width
  · have here : bit < ((List.range width).map bits).length := by
      rwa [List.length_map, List.length_range]
    rw [decide_eq_true inside, List.getD_eq_getElem _ _ here, List.getElem_map, List.getElem_range]
  · rw [decide_eq_false inside, Bool.false_and, Bool.false_and]

variable (dut : Dut) (contents : Contents)

/-- `get` of a signal or of an element. -/
def get (path : String) (element : ℤ) : Value (dut.width path) :=
  (vector (dut.width path) (contents path element)).setWidth _

/-- `deposit` to a signal or to an element. -/
def deposit (path : String) (element : ℤ) (value : Value (dut.width path)) : Contents :=
  fun path' element' bit =>
    if path' = path ∧ element' = element ∧ bit < dut.width path then (normalize value).getLsbD bit
    else contents path' element' bit

end Designs

/-! ### Up to 64 bits -/

section Narrow

variable (dut : Dut)

/-- `hdl_value_to_uint64`: `Bits::to_uint64` is there up to 64 bits. -/
def hdlValueToUint64 {width : ℕ} (value : Value width) : Option Word :=
  if width ≤ 64 then some (value.setWidth 64) else none

/-- `hdl_value_from_uint64`. -/
def hdlValueFromUint64 (width : ℕ) (value : Word) : Option (Value width) :=
  if width ≤ 64 then some (value.setWidth _) else none

def readHdlFull (expected : ℕ) (path : String) (contents : Contents) : Option Word :=
  if dut.memory path = none ∧ dut.width path = expected then
    (hdlValueToUint64 (get dut contents path 0)).map (· &&& registerMask expected)
  else
    none

def writeHdlFull (expected : ℕ) (path : String) (value : Word) (contents : Contents) :
    Option Contents :=
  if dut.memory path = none ∧ dut.width path = expected then
    (hdlValueFromUint64 _ value).map (deposit dut contents path 0)
  else
    none

/-- An element of a memory, or a bit of a signal. -/
def readHdlSelect (index : ℤ) (expected : ℕ) (path : String) (contents : Contents) : Option Word :=
  match dut.memory path with
  | some bounds =>
    if dut.width path = expected ∧ bounds.low ≤ index ∧ index ≤ bounds.high then
      (hdlValueToUint64 (get dut contents path index)).map (· &&& registerMask expected)
    else
      none
  | none =>
    if expected = 1 ∧ 0 ≤ index ∧ index < dut.width path then
      (hdlValueToUint64 (get dut contents path 0)).map fun (value : Word) => (value >>> index.toNat) &&& 1
    else
      none

def writeHdlSelect (index : ℤ) (expected : ℕ) (path : String) (value : Word) (contents : Contents) :
    Option Contents :=
  match dut.memory path with
  | some bounds =>
    if dut.width path = expected ∧ bounds.low ≤ index ∧ index ≤ bounds.high then
      (hdlValueFromUint64 _ value).map (deposit dut contents path index)
    else
      none
  | none =>
    if expected = 1 ∧ 0 ≤ index ∧ index < dut.width path then do
      let current ← hdlValueToUint64 (get dut contents path 0)
      let written ← hdlValueFromUint64 _
        ((current &&& ~~~((1 : Word) <<< index.toNat)) ||| ((value &&& 1) <<< index.toNat))
      return deposit dut contents path 0 written
    else
      none

def RangeAsserted (msb lsb : ℤ) (expected : ℕ) (path : String) : Prop :=
  dut.memory path = none ∧ lsb ≤ msb ∧ 0 ≤ lsb ∧ msb < dut.width path ∧ msb - lsb + 1 = expected

instance (msb lsb : ℤ) (expected : ℕ) (path : String) :
    Decidable (RangeAsserted dut msb lsb expected path) := by
  unfold RangeAsserted
  infer_instance

def readHdlRange (msb lsb : ℤ) (expected : ℕ) (path : String) (contents : Contents) : Option Word :=
  if RangeAsserted dut msb lsb expected path then
    (hdlValueToUint64 (get dut contents path 0)).map fun (value : Word) =>
      (value >>> lsb.toNat) &&& registerMask expected
  else
    none

def writeHdlRange (msb lsb : ℤ) (expected : ℕ) (path : String) (value : Word) (contents : Contents) :
    Option Contents :=
  if RangeAsserted dut msb lsb expected path then do
    let mask := registerMask expected <<< lsb.toNat
    let current ← hdlValueToUint64 (get dut contents path 0)
    let written ← hdlValueFromUint64 _ ((current &&& ~~~mask) ||| ((value <<< lsb.toNat) &&& mask))
    return deposit dut contents path 0 written
  else
    none

/-- `_backdoor_read_expression`. -/
def readSlice (slice : BackdoorSlice) (contents : Contents) : Option Word :=
  match hdlPathSelection slice.path with
  | (path, .full) => readHdlFull dut slice.width path contents
  | (path, .select index) => readHdlSelect dut index slice.width path contents
  | (path, .range msb lsb) => readHdlRange dut msb lsb slice.width path contents

/-- `_backdoor_write_statement`. -/
def writeSlice (slice : BackdoorSlice) (value : Word) (contents : Contents) : Option Contents :=
  match hdlPathSelection slice.path with
  | (path, .full) => writeHdlFull dut slice.width path value contents
  | (path, .select index) => writeHdlSelect dut index slice.width path value contents
  | (path, .range msb lsb) => writeHdlRange dut msb lsb slice.width path value contents

/-- `DutBackdoor::peek`. -/
def peek (slices : List BackdoorSlice) (contents : Contents) : Option Word :=
  slices.foldlM (fun value slice => do
    let read ← readSlice dut slice contents
    return value ||| ((read &&& registerMask slice.width) <<< slice.registerLsb)) 0

/-- `DutBackdoor::poke`. -/
def poke (slices : List BackdoorSlice) (value : Word) (contents : Contents) : Option Contents :=
  slices.foldlM (fun contents slice => writeSlice dut slice
    ((value >>> slice.registerLsb) &&& registerMask slice.width) contents) contents

end Narrow

/-! ### Words -/

section Wide

/-- `word_span_bit`. -/
def wordSpanBit (words : List (BitVec 32)) (index : ℕ) : Option Bool :=
  if words.length * 32 ≤ index then none
  else some ((words.getD (index / 32) 0).getLsbD (index % 32))

/-- `set_word_span_bit`. -/
def setWordSpanBit (words : List (BitVec 32)) (index : ℕ) (value : Bool) :
    Option (List (BitVec 32)) :=
  if words.length * 32 ≤ index then
    none
  else
    let mask := (1 : BitVec 32) <<< (index % 32)
    let word := words.getD (index / 32) 0
    some (words.set (index / 32) (if value then word ||| mask else word &&& ~~~mask))

/-- `hdl_value_bit`: `Bits::bit` accepts the bits of the signal alone. -/
def hdlValueBit {width : ℕ} (value : Value width) (index : ℕ) : Option Bool :=
  if width ≤ 64 ∨ index < width then some (value.getLsbD index) else none

/-- `set_hdl_value_bit`. -/
def setHdlValueBit {width : ℕ} (value : Value width) (index : ℕ) (bit : Bool) :
    Option (Value width) :=
  if index < valueBits width then
    let mask := (1 : Value width) <<< index
    some (if bit then value ||| mask else value &&& ~~~mask)
  else
    none

variable (dut : Dut)

/-- The loop that reads bits of a value into the words. -/
def readBits {width : ℕ} (value : Value width) (first count : ℕ) (words : List (BitVec 32))
    (registerLsb : ℕ) : Option (List (BitVec 32)) :=
  (List.range count).foldlM (fun words bit => do
    setWordSpanBit words (registerLsb + bit) (← hdlValueBit value (first + bit))) words

/-- The loop that writes bits of the words into a value. -/
def writeBits {width : ℕ} (value : Value width) (first count : ℕ) (words : List (BitVec 32))
    (registerLsb : ℕ) : Option (Value width) :=
  (List.range count).foldlM (fun value bit => do
    setHdlValueBit value (first + bit) (← wordSpanBit words (registerLsb + bit))) value

def readHdlFullWords (expected : ℕ) (path : String) (contents : Contents)
    (words : List (BitVec 32)) (registerLsb : ℕ) : Option (List (BitVec 32)) :=
  if dut.memory path = none ∧ dut.width path = expected then
    readBits (get dut contents path 0) 0 expected words registerLsb
  else
    none

def writeHdlFullWords (expected : ℕ) (path : String) (contents : Contents)
    (words : List (BitVec 32)) (registerLsb : ℕ) : Option Contents :=
  if dut.memory path = none ∧ dut.width path = expected then
    (writeBits (get dut contents path 0) 0 expected words registerLsb).map
      (deposit dut contents path 0)
  else
    none

def readHdlSelectWords (index : ℤ) (expected : ℕ) (path : String) (contents : Contents)
    (words : List (BitVec 32)) (registerLsb : ℕ) : Option (List (BitVec 32)) :=
  match dut.memory path with
  | some bounds =>
    if dut.width path = expected ∧ bounds.low ≤ index ∧ index ≤ bounds.high then
      readBits (get dut contents path index) 0 expected words registerLsb
    else
      none
  | none =>
    if expected = 1 ∧ 0 ≤ index ∧ index < dut.width path then do
      setWordSpanBit words registerLsb (← hdlValueBit (get dut contents path 0) index.toNat)
    else
      none

def writeHdlSelectWords (index : ℤ) (expected : ℕ) (path : String) (contents : Contents)
    (words : List (BitVec 32)) (registerLsb : ℕ) : Option Contents :=
  match dut.memory path with
  | some bounds =>
    if dut.width path = expected ∧ bounds.low ≤ index ∧ index ≤ bounds.high then
      (writeBits (get dut contents path index) 0 expected words registerLsb).map
        (deposit dut contents path index)
    else
      none
  | none =>
    if expected = 1 ∧ 0 ≤ index ∧ index < dut.width path then do
      let value ← setHdlValueBit (get dut contents path 0) index.toNat
        (← wordSpanBit words registerLsb)
      return deposit dut contents path 0 value
    else
      none

def readHdlRangeWords (msb lsb : ℤ) (expected : ℕ) (path : String) (contents : Contents)
    (words : List (BitVec 32)) (registerLsb : ℕ) : Option (List (BitVec 32)) :=
  if RangeAsserted dut msb lsb expected path then
    readBits (get dut contents path 0) lsb.toNat expected words registerLsb
  else
    none

def writeHdlRangeWords (msb lsb : ℤ) (expected : ℕ) (path : String) (contents : Contents)
    (words : List (BitVec 32)) (registerLsb : ℕ) : Option Contents :=
  if RangeAsserted dut msb lsb expected path then
    (writeBits (get dut contents path 0) lsb.toNat expected words registerLsb).map
      (deposit dut contents path 0)
  else
    none

/-- `_wide_backdoor_read_statement`. -/
def readSliceWords (slice : BackdoorSlice) (contents : Contents) (words : List (BitVec 32)) :
    Option (List (BitVec 32)) :=
  match hdlPathSelection slice.path with
  | (path, .full) => readHdlFullWords dut slice.width path contents words slice.registerLsb
  | (path, .select index) =>
    readHdlSelectWords dut index slice.width path contents words slice.registerLsb
  | (path, .range msb lsb) =>
    readHdlRangeWords dut msb lsb slice.width path contents words slice.registerLsb

/-- `_wide_backdoor_write_statement`. -/
def writeSliceWords (slice : BackdoorSlice) (words : List (BitVec 32)) (contents : Contents) :
    Option Contents :=
  match hdlPathSelection slice.path with
  | (path, .full) => writeHdlFullWords dut slice.width path contents words slice.registerLsb
  | (path, .select index) =>
    writeHdlSelectWords dut index slice.width path contents words slice.registerLsb
  | (path, .range msb lsb) =>
    writeHdlRangeWords dut msb lsb slice.width path contents words slice.registerLsb

/-- `DutBackdoor::peek_words`, for a span of the words of the register. -/
def peekWords (width : ℕ) (slices : List BackdoorSlice) (contents : Contents) :
    Option (List (BitVec 32)) :=
  slices.foldlM (fun words slice => readSliceWords dut slice contents words)
    (List.replicate ((width + 31) / 32) 0)

/-- `DutBackdoor::poke_words`. -/
def pokeWords (slices : List BackdoorSlice) (words : List (BitVec 32)) (contents : Contents) :
    Option Contents :=
  slices.foldlM (fun contents slice => writeSliceWords dut slice words contents) contents

end Wide

/-! ### The bits of a slice -/

section Places

/-- Where the bits of a slice lie. -/
structure Place where
  path : String
  element : ℤ
  offset : ℕ
  deriving DecidableEq, Repr

variable (dut : Dut)

def place (slice : BackdoorSlice) : Place :=
  match hdlPathSelection slice.path with
  | (path, .full) => ⟨path, 0, 0⟩
  | (path, .select index) =>
    if (dut.memory path).isSome then ⟨path, index, 0⟩ else ⟨path, 0, index.toNat⟩
  | (path, .range _ lsb) => ⟨path, 0, lsb.toNat⟩

/-- The assertions of the accesses: a slice names bits that there are, as many as it has. -/
def Placed (slice : BackdoorSlice) : Prop :=
  0 < slice.width ∧
    match hdlPathSelection slice.path with
    | (path, .full) => dut.memory path = none ∧ dut.width path = slice.width
    | (path, .select index) =>
      match dut.memory path with
      | some bounds => dut.width path = slice.width ∧ bounds.low ≤ index ∧ index ≤ bounds.high
      | none => slice.width = 1 ∧ 0 ≤ index ∧ index < dut.width path
    | (path, .range msb lsb) => RangeAsserted dut msb lsb slice.width path

/-- The bits a slice names. -/
def bitsOf (slice : BackdoorSlice) : Set (String × ℤ × ℕ) :=
  {point | point.1 = (place dut slice).path ∧ point.2.1 = (place dut slice).element ∧
    (place dut slice).offset ≤ point.2.2 ∧ point.2.2 < (place dut slice).offset + slice.width}

/-- New values for the bits of a place. -/
def setBits (contents : Contents) (place : Place) (width : ℕ) (bits : ℕ → Bool) : Contents :=
  fun path element bit =>
    if path = place.path ∧ element = place.element ∧ place.offset ≤ bit ∧
        bit < place.offset + width then bits (bit - place.offset)
    else contents path element bit

variable {dut} {contents : Contents}

/-- The bits of a value that was read. -/
theorem getLsbD_get {path : String} {element : ℤ} {bit : ℕ} (inside : bit < dut.width path) :
    (get dut contents path element).getLsbD bit = contents path element bit := by
  have stored : bit < valueBits (dut.width path) := inside.trans_le (Hierarchy.le_valueBits _)
  rw [get, BitVec.getLsbD_setWidth, decide_eq_true stored, Bool.true_and, getLsbD_vector,
    decide_eq_true inside, Bool.true_and]

/-- A value is written bit by bit. -/
theorem deposit_eq_setBits {path : String} {element : ℤ} {offset width : ℕ} {bits : ℕ → Bool}
    {value : Value (dut.width path)} (fits : offset + width ≤ dut.width path)
    (written : ∀ bit < dut.width path, value.getLsbD bit =
      if offset ≤ bit ∧ bit < offset + width then bits (bit - offset)
      else contents path element bit) :
    deposit dut contents path element value = setBits contents ⟨path, element, offset⟩ width bits := by
  funext path' element' bit
  unfold deposit setBits
  dsimp only
  by_cases here : path' = path ∧ element' = element
  · obtain ⟨rfl, rfl⟩ := here
    simp only [true_and]
    by_cases inside : bit < dut.width path'
    · rw [if_pos inside, Hierarchy.getLsbD_normalize, decide_eq_true inside, Bool.true_and,
        written bit inside]
    · rw [if_neg inside, if_neg (by omega)]
  · rw [if_neg (fun all => here ⟨all.1, all.2.1⟩), if_neg (fun all => here ⟨all.1, all.2.1⟩)]

end Places

/-! ### One slice of up to 64 bits -/

section NarrowSlices

variable {dut : Dut} {contents : Contents}

/-- A value of up to 64 bits, as `uint64_t`. -/
theorem hdlValueToUint64_narrow {width : ℕ} (narrow : width ≤ 64) (value : Value width) :
    hdlValueToUint64 value = some (value.setWidth 64) := if_pos narrow

theorem hdlValueFromUint64_narrow {width : ℕ} (narrow : width ≤ 64) (value : Word) :
    hdlValueFromUint64 width value = some (value.setWidth _) := if_pos narrow

theorem getLsbD_setWidth_get {path : String} {element : ℤ} {bit : ℕ} (narrow : dut.width path ≤ 64)
    (inside : bit < dut.width path) :
    ((get dut contents path element).setWidth 64).getLsbD bit = contents path element bit := by
  have inWord : bit < 64 := inside.trans_le narrow
  rw [BitVec.getLsbD_setWidth, decide_eq_true inWord, Bool.true_and, getLsbD_get inside]

/-- A word written to a whole object. -/
theorem deposit_full {path : String} {element : ℤ} (value : Word) :
    deposit dut contents path element (value.setWidth _) =
      setBits contents ⟨path, element, 0⟩ (dut.width path) value.getLsbD := by
  refine deposit_eq_setBits (by omega) fun bit inside => ?_
  have stored : bit < valueBits (dut.width path) := inside.trans_le (Hierarchy.le_valueBits _)
  rw [if_pos (by omega), BitVec.getLsbD_setWidth, decide_eq_true stored, Bool.true_and, Nat.sub_zero]

/-- A word written to a range of an object, which keeps its other bits. -/
theorem deposit_range {path : String} {offset width : ℕ} (narrow : dut.width path ≤ 64)
    (fits : offset + width ≤ dut.width path) (value : Word) :
    deposit dut contents path 0
        (((((get dut contents path 0).setWidth 64) &&& ~~~(registerMask width <<< offset)) |||
          ((value <<< offset) &&& (registerMask width <<< offset))).setWidth _) =
      setBits contents ⟨path, 0, offset⟩ width value.getLsbD := by
  refine deposit_eq_setBits fits fun bit inside => ?_
  have stored : bit < valueBits (dut.width path) := inside.trans_le (Hierarchy.le_valueBits _)
  have inWord : bit < 64 := inside.trans_le narrow
  rw [BitVec.getLsbD_setWidth, decide_eq_true stored, Bool.true_and]
  simp only [BitVec.getLsbD_or, BitVec.getLsbD_and, BitVec.getLsbD_not, BitVec.getLsbD_shiftLeft,
    inWord, decide_true, Bool.true_and, getLsbD_setWidth_get narrow inside]
  rw [getLsbD_registerMask width (by omega : bit - offset < 64)]
  by_cases below : bit < offset
  · have outside : ¬(offset ≤ bit ∧ bit < offset + width) := by omega
    simp only [below, outside, decide_true, Bool.not_true, Bool.false_and, Bool.not_false,
      Bool.and_true, Bool.or_false, if_false]
  · by_cases short : bit < offset + width
    · have here : offset ≤ bit ∧ bit < offset + width := ⟨by omega, short⟩
      have small : bit - offset < width := by omega
      simp only [below, here, small, decide_true, decide_false, Bool.not_true, Bool.not_false,
        Bool.true_and, Bool.and_false, Bool.false_or, Bool.and_true, and_self, if_true]
    · have outside : ¬(offset ≤ bit ∧ bit < offset + width) := by omega
      have large : ¬bit - offset < width := by omega
      simp only [below, outside, large, decide_false, Bool.not_false, Bool.true_and, Bool.and_false,
        Bool.and_true, Bool.or_false, if_false]

/-- The bit of a place. -/
def bitAt (contents : Contents) (place : Place) (bit : ℕ) : Bool :=
  contents place.path place.element (place.offset + bit)

/-- The width of the object a slice lies in. -/
def objectWidth (dut : Dut) (slice : BackdoorSlice) : ℕ := dut.width (hdlPathSelection slice.path).1

/-- **A slice of up to 64 bits, written**: its bits and no others. -/
theorem writeSlice_spec {slice : BackdoorSlice} (placed : Placed dut slice)
    (narrow : objectWidth dut slice ≤ 64) (value : Word) :
    writeSlice dut slice value contents =
      some (setBits contents (place dut slice) slice.width value.getLsbD) := by
  obtain ⟨-, placed⟩ := placed
  unfold objectWidth at narrow
  unfold writeSlice place
  rcases selected : hdlPathSelection slice.path with ⟨path, _ | index | ⟨msb, lsb⟩⟩ <;>
    simp only [selected] at placed narrow ⊢
  · obtain ⟨signal, width⟩ := placed
    rw [writeHdlFull, if_pos ⟨signal, width⟩, hdlValueFromUint64_narrow narrow, Option.map_some,
      deposit_full, width]
  · unfold writeHdlSelect
    rcases kind : dut.memory path with _ | bounds <;> simp only [kind] at placed ⊢
    · obtain ⟨one, lower, upper⟩ := placed
      have fits : index.toNat + 1 ≤ dut.width path := by omega
      rw [if_pos ⟨one, lower, upper⟩, hdlValueToUint64_narrow narrow]
      simp only [bind, Option.bind, hdlValueFromUint64_narrow narrow, Option.isSome_none,
        Bool.false_eq_true, if_false, pure]
      have ranged := @deposit_range _ contents _ _ _ narrow fits value
      have mask : registerMask 1 = 1 := rfl
      rw [mask, ← BitVec.shiftLeft_and_distrib] at ranged
      rw [ranged, one]
    · obtain ⟨width, lower, upper⟩ := placed
      rw [if_pos ⟨width, lower, upper⟩, hdlValueFromUint64_narrow narrow, Option.map_some,
        deposit_full, width]
      rfl
  · obtain ⟨signal, descending, lower, upper, width⟩ := placed
    have fits : lsb.toNat + slice.width ≤ dut.width path := by omega
    rw [writeHdlRange, if_pos ⟨signal, descending, lower, upper, width⟩,
      hdlValueToUint64_narrow narrow]
    simp only [bind, Option.bind, hdlValueFromUint64_narrow narrow, pure]
    rw [deposit_range narrow fits]

/-- **A slice of up to 64 bits, read.** -/
theorem readSlice_spec {slice : BackdoorSlice} (placed : Placed dut slice)
    (narrow : objectWidth dut slice ≤ 64) :
    ∃ read, readSlice dut slice contents = some read ∧ ∀ bit < 64, read.getLsbD bit =
      (decide (bit < slice.width) && bitAt contents (place dut slice) bit) := by
  obtain ⟨-, placed⟩ := placed
  unfold objectWidth at narrow
  unfold readSlice place
  rcases selected : hdlPathSelection slice.path with ⟨path, _ | index | ⟨msb, lsb⟩⟩ <;>
    simp only [selected] at placed narrow ⊢
  · obtain ⟨signal, width⟩ := placed
    rw [readHdlFull, if_pos ⟨signal, width⟩, hdlValueToUint64_narrow narrow]
    refine ⟨_, rfl, fun bit inWord => ?_⟩
    rw [BitVec.getLsbD_and, getLsbD_registerMask _ inWord, Bool.and_comm]
    by_cases inside : bit < slice.width
    · rw [getLsbD_setWidth_get narrow (by omega), bitAt, Nat.zero_add]
    · rw [decide_eq_false inside, Bool.false_and, Bool.false_and]
  · unfold readHdlSelect
    rcases kind : dut.memory path with _ | bounds <;> simp only [kind] at placed ⊢
    · obtain ⟨one, lower, upper⟩ := placed
      rw [if_pos ⟨one, lower, upper⟩, hdlValueToUint64_narrow narrow]
      refine ⟨_, rfl, fun bit inWord => ?_⟩
      have mask : (1 : Word) = registerMask 1 := rfl
      rw [mask, BitVec.getLsbD_and, getLsbD_registerMask _ inWord, BitVec.getLsbD_ushiftRight, one,
        Bool.and_comm]
      by_cases inside : bit < 1
      · obtain rfl : bit = 0 := by omega
        rw [getLsbD_setWidth_get narrow (by omega)]
        rfl
      · rw [decide_eq_false inside, Bool.false_and, Bool.false_and]
    · obtain ⟨width, lower, upper⟩ := placed
      rw [if_pos ⟨width, lower, upper⟩, hdlValueToUint64_narrow narrow]
      refine ⟨_, rfl, fun bit inWord => ?_⟩
      rw [BitVec.getLsbD_and, getLsbD_registerMask _ inWord, Bool.and_comm]
      by_cases inside : bit < slice.width
      · rw [getLsbD_setWidth_get narrow (by omega)]
        simp only [bitAt, Option.isSome_some, if_true, Nat.zero_add]
      · rw [decide_eq_false inside, Bool.false_and, Bool.false_and]
  · obtain ⟨signal, descending, lower, upper, width⟩ := placed
    rw [readHdlRange, if_pos ⟨signal, descending, lower, upper, width⟩,
      hdlValueToUint64_narrow narrow]
    refine ⟨_, rfl, fun bit inWord => ?_⟩
    rw [BitVec.getLsbD_and, getLsbD_registerMask _ inWord, BitVec.getLsbD_ushiftRight, Bool.and_comm]
    by_cases inside : bit < slice.width
    · rw [getLsbD_setWidth_get narrow (by omega), bitAt]
    · rw [decide_eq_false inside, Bool.false_and, Bool.false_and]

end NarrowSlices

/-! ### One slice, word by word -/

section WideSlices

variable {dut : Dut} {contents : Contents}

/-- A bit of the words. -/
def wordBit (words : List (BitVec 32)) (index : ℕ) : Bool :=
  (words.getD (index / 32) 0).getLsbD (index % 32)

theorem wordSpanBit_of {words : List (BitVec 32)} {index : ℕ} (inside : index < words.length * 32) :
    wordSpanBit words index = some (wordBit words index) := if_neg (not_le.mpr inside)

/-- One bit of a vector, set or cleared under its mask. -/
theorem getLsbD_maskBit {width index bit : ℕ} (value : BitVec width) (set : Bool)
    (inside : bit < width) :
    (if set then value ||| ((1 : BitVec width) <<< index)
      else value &&& ~~~((1 : BitVec width) <<< index)).getLsbD bit =
      if bit = index then set else value.getLsbD bit := by
  have mask : ((1 : BitVec width) <<< index).getLsbD bit = decide (bit = index) := by
    have unit : (1 : BitVec width) = BitVec.ofNat width 1 := rfl
    have positive : 0 < width := by omega
    rw [BitVec.getLsbD_shiftLeft, decide_eq_true inside, Bool.true_and, unit, BitVec.getLsbD_one,
      decide_eq_true positive, Bool.true_and]
    by_cases below : bit < index
    · have apart : ¬bit = index := by omega
      simp only [below, apart, decide_true, Bool.not_true, Bool.false_and, decide_false]
    · simp only [below, decide_false, Bool.not_false, Bool.true_and]
      exact decide_eq_decide.mpr ⟨fun rest => by omega, fun here => by omega⟩
  cases set with
  | true =>
    rw [if_pos rfl, BitVec.getLsbD_or, mask]
    by_cases here : bit = index
    · rw [if_pos here, decide_eq_true here, Bool.or_true]
    · rw [if_neg here, decide_eq_false here, Bool.or_false]
  | false =>
    rw [if_neg Bool.false_ne_true, BitVec.getLsbD_and, BitVec.getLsbD_not, mask,
      decide_eq_true inside, Bool.true_and]
    by_cases here : bit = index
    · rw [if_pos here, decide_eq_true here, Bool.not_true, Bool.and_false]
    · rw [if_neg here, decide_eq_false here, Bool.not_false, Bool.and_true]

theorem setHdlValueBit_spec {width index : ℕ} (value : Value width) (bit : Bool)
    (inside : index < valueBits width) :
    ∃ value', setHdlValueBit value index bit = some value' ∧ ∀ i < valueBits width,
      value'.getLsbD i = if i = index then bit else value.getLsbD i :=
  ⟨_, if_pos inside, fun _ here => getLsbD_maskBit value bit here⟩

theorem setWordSpanBit_spec {words : List (BitVec 32)} {index : ℕ} (bit : Bool)
    (inside : index < words.length * 32) :
    ∃ words', setWordSpanBit words index bit = some words' ∧ words'.length = words.length ∧
      ∀ i, wordBit words' i = if i = index then bit else wordBit words i := by
  refine ⟨_, if_neg (not_le.mpr inside), List.length_set .., fun i => ?_⟩
  have word : index / 32 < words.length := by omega
  unfold wordBit
  by_cases same : i / 32 = index / 32
  · rw [same, List.getD_eq_getElem _ _ (by rwa [List.length_set]), List.getElem_set_self,
      getLsbD_maskBit _ _ (by omega)]
    congr 1
    exact propext ⟨fun rest => by omega, fun rest => by rw [rest]⟩
  · rw [if_neg (fun here => same (congrArg (· / 32) here)), List.getD_eq_getElem?_getD,
      List.getElem?_set_ne (Ne.symm same), ← List.getD_eq_getElem?_getD]

/-- **The bits of a value, from the words.** -/
theorem writeBits_spec {width first : ℕ} (value : Value width) {words : List (BitVec 32)}
    {registerLsb : ℕ} (count : ℕ) (fits : first + count ≤ valueBits width)
    (span : registerLsb + count ≤ words.length * 32) :
    ∃ value', writeBits value first count words registerLsb = some value' ∧
      ∀ bit < valueBits width, value'.getLsbD bit =
        if first ≤ bit ∧ bit < first + count then wordBit words (registerLsb + (bit - first))
        else value.getLsbD bit := by
  induction count with
  | zero => exact ⟨value, rfl, fun bit _ => (if_neg (by omega)).symm⟩
  | succ count ih =>
    obtain ⟨before, done, bits⟩ := ih (by omega) (by omega)
    obtain ⟨after, set, bits'⟩ := setHdlValueBit_spec before (wordBit words (registerLsb + count))
      (by omega : first + count < valueBits width)
    refine ⟨after, ?_, fun bit inside => ?_⟩
    · unfold writeBits at done ⊢
      rw [List.range_succ, List.foldlM_append, done]
      simp only [List.foldlM_cons, List.foldlM_nil, bind, Option.bind,
        wordSpanBit_of (by omega : registerLsb + count < words.length * 32), set, pure]
    · rw [bits' bit inside, bits bit inside]
      by_cases last : bit = first + count
      · rw [if_pos last, if_pos (by omega)]
        congr 1
        omega
      · rw [if_neg last]
        congr 1
        exact propext ⟨fun rest => by omega, fun rest => by omega⟩

/-- **The words, from the bits of a value.** -/
theorem readBits_spec {width first : ℕ} (value : Value width) {words : List (BitVec 32)}
    {registerLsb : ℕ} (count : ℕ) (fits : first + count ≤ width)
    (span : registerLsb + count ≤ words.length * 32) :
    ∃ words', readBits value first count words registerLsb = some words' ∧
      words'.length = words.length ∧ ∀ bit, wordBit words' bit =
        if registerLsb ≤ bit ∧ bit < registerLsb + count then
          value.getLsbD (first + (bit - registerLsb))
        else wordBit words bit := by
  induction count with
  | zero => exact ⟨words, rfl, rfl, fun bit => (if_neg (by omega)).symm⟩
  | succ count ih =>
    obtain ⟨before, done, length, bits⟩ := ih (by omega) (by omega)
    obtain ⟨after, set, length', bits'⟩ := setWordSpanBit_spec
      (value.getLsbD (first + count)) (by omega : registerLsb + count < before.length * 32)
    have readable : hdlValueBit value (first + count) = some (value.getLsbD (first + count)) :=
      if_pos (.inr (by omega))
    refine ⟨after, ?_, length'.trans length, fun bit => ?_⟩
    · unfold readBits at done ⊢
      rw [List.range_succ, List.foldlM_append, done]
      simp only [List.foldlM_cons, List.foldlM_nil, bind, Option.bind, readable, set, pure]
    · rw [bits' bit, bits bit]
      by_cases last : bit = registerLsb + count
      · rw [if_pos last, if_pos (by omega)]
        congr 1
        omega
      · rw [if_neg last]
        congr 1
        exact propext ⟨fun rest => by omega, fun rest => by omega⟩

/-- A value rebuilt from the words, written back. -/
theorem deposit_writeBits {path : String} {element : ℤ} {offset width : ℕ} {words : List (BitVec 32)}
    {registerLsb : ℕ} (fits : offset + width ≤ dut.width path)
    (span : registerLsb + width ≤ words.length * 32) :
    (writeBits (get dut contents path element) offset width words registerLsb).map
        (deposit dut contents path element) =
      some (setBits contents ⟨path, element, offset⟩ width
        fun bit => wordBit words (registerLsb + bit)) := by
  have stored := Hierarchy.le_valueBits (dut.width path)
  obtain ⟨value, done, bits⟩ := writeBits_spec (get dut contents path element) width
    (fits.trans stored) span
  rw [done, Option.map_some]
  refine congrArg some (deposit_eq_setBits fits fun bit inside => ?_)
  rw [bits bit (inside.trans_le stored), getLsbD_get inside]

/-- **A slice, written word by word.** -/
theorem writeSliceWords_spec {slice : BackdoorSlice} (placed : Placed dut slice)
    {words : List (BitVec 32)} (span : slice.registerLsb + slice.width ≤ words.length * 32) :
    writeSliceWords dut slice words contents =
      some (setBits contents (place dut slice) slice.width
        fun bit => wordBit words (slice.registerLsb + bit)) := by
  obtain ⟨-, placed⟩ := placed
  unfold writeSliceWords place
  rcases selected : hdlPathSelection slice.path with ⟨path, _ | index | ⟨msb, lsb⟩⟩ <;>
    simp only [selected] at placed ⊢
  · obtain ⟨signal, width⟩ := placed
    rw [writeHdlFullWords, if_pos ⟨signal, width⟩]
    exact deposit_writeBits (by omega) span
  · unfold writeHdlSelectWords
    rcases kind : dut.memory path with _ | bounds <;> simp only [kind] at placed ⊢
    · obtain ⟨one, lower, upper⟩ := placed
      rw [if_pos ⟨one, lower, upper⟩]
      -- a loop of one turn
      have turn : (writeBits (get dut contents path 0) index.toNat 1 words slice.registerLsb).map
          (deposit dut contents path 0) = some (setBits contents ⟨path, 0, index.toNat⟩ 1
            fun bit => wordBit words (slice.registerLsb + bit)) :=
        deposit_writeBits (by omega) (by omega)
      rw [one]
      refine Eq.trans ?_ turn
      simp only [writeBits, List.range_one, List.foldlM_cons, List.foldlM_nil, add_zero]
      cases wordSpanBit words slice.registerLsb with
      | none => rfl
      | some bit =>
        simp only [bind, Option.bind, pure]
        cases setHdlValueBit (get dut contents path 0) index.toNat bit with
        | none => rfl
        | some value => rfl
    · obtain ⟨width, lower, upper⟩ := placed
      rw [if_pos ⟨width, lower, upper⟩]
      exact deposit_writeBits (by omega) span
  · obtain ⟨signal, descending, lower, upper, width⟩ := placed
    rw [writeHdlRangeWords, if_pos ⟨signal, descending, lower, upper, width⟩]
    exact deposit_writeBits (by omega) span

/-- **A slice, read word by word.** -/
theorem readSliceWords_spec {slice : BackdoorSlice} (placed : Placed dut slice)
    {words : List (BitVec 32)} (span : slice.registerLsb + slice.width ≤ words.length * 32) :
    ∃ words', readSliceWords dut slice contents words = some words' ∧
      words'.length = words.length ∧ ∀ bit, wordBit words' bit =
        if slice.registerLsb ≤ bit ∧ bit < slice.registerLsb + slice.width then
          bitAt contents (place dut slice) (bit - slice.registerLsb)
        else wordBit words bit := by
  obtain ⟨-, placed⟩ := placed
  -- what the loop reads from an object
  have loop : ∀ (path : String) (element : ℤ) (offset : ℕ), offset + slice.width ≤ dut.width path →
      ∃ words', readBits (get dut contents path element) offset slice.width words slice.registerLsb =
          some words' ∧ words'.length = words.length ∧ ∀ bit, wordBit words' bit =
            if slice.registerLsb ≤ bit ∧ bit < slice.registerLsb + slice.width then
              bitAt contents ⟨path, element, offset⟩ (bit - slice.registerLsb)
            else wordBit words bit := by
    intro path element offset fits
    obtain ⟨words', done, length, bits⟩ :=
      readBits_spec (get dut contents path element) slice.width fits span
    refine ⟨words', done, length, fun bit => ?_⟩
    rw [bits bit]
    by_cases here : slice.registerLsb ≤ bit ∧ bit < slice.registerLsb + slice.width
    · rw [if_pos here, if_pos here, getLsbD_get (by omega), bitAt]
    · rw [if_neg here, if_neg here]
  unfold readSliceWords place
  rcases selected : hdlPathSelection slice.path with ⟨path, _ | index | ⟨msb, lsb⟩⟩ <;>
    simp only [selected] at placed ⊢
  · obtain ⟨signal, width⟩ := placed
    rw [readHdlFullWords, if_pos ⟨signal, width⟩]
    exact loop path 0 0 (by omega)
  · unfold readHdlSelectWords
    rcases kind : dut.memory path with _ | bounds <;> simp only [kind] at placed ⊢
    · obtain ⟨one, lower, upper⟩ := placed
      rw [if_pos ⟨one, lower, upper⟩]
      obtain ⟨words', done, rest⟩ := loop path 0 index.toNat (by omega)
      refine ⟨words', ?_, rest⟩
      rw [← done, one]
      simp only [readBits, List.range_one, List.foldlM_cons, List.foldlM_nil, add_zero]
      cases hdlValueBit (get dut contents path 0) index.toNat with
      | none => rfl
      | some bit =>
        simp only [bind, Option.bind, pure]
        cases setWordSpanBit words slice.registerLsb bit with
        | none => rfl
        | some words' => rfl
    · obtain ⟨width, lower, upper⟩ := placed
      rw [if_pos ⟨width, lower, upper⟩]
      exact loop path index 0 (by omega)
  · obtain ⟨signal, descending, lower, upper, width⟩ := placed
    rw [readHdlRangeWords, if_pos ⟨signal, descending, lower, upper, width⟩]
    exact loop path 0 lsb.toNat (by omega)

end WideSlices

/-! ### Registers -/

section Registers

/-- The backdoor of a register. -/
structure Backdoor where
  width : ℕ
  slices : List BackdoorSlice
  deriving DecidableEq, Repr

variable (dut : Dut) (register : Backdoor)

/-- A slice holds a bit of the register. -/
def BackdoorSlice.Covers (slice : BackdoorSlice) (bit : ℕ) : Prop :=
  slice.registerLsb ≤ bit ∧ bit < slice.registerLsb + slice.width

instance (slice : BackdoorSlice) (bit : ℕ) : Decidable (slice.Covers bit) :=
  inferInstanceAs (Decidable (_ ∧ _))

/-- The slices name bits that there are, lie inside the register and name separate bits of the design. -/
structure Separate : Prop where
  placed : ∀ slice ∈ register.slices, Placed dut slice
  inside : ∀ slice ∈ register.slices, slice.registerLsb + slice.width ≤ register.width
  disjoint : register.slices.Pairwise fun one other => Disjoint (bitsOf dut one) (bitsOf dut other)

/-- No bit of the register is in two slices. -/
def RegisterDisjoint : Prop :=
  register.slices.Pairwise fun one other => ∀ bit, ¬(one.Covers bit ∧ other.Covers bit)

/-- The bits that the slices name hold the bits of a value, and all others are as before. -/
structure Holds (bits : ℕ → Bool) (before after : Contents) : Prop where
  named : ∀ slice ∈ register.slices, ∀ bit < slice.width,
    bitAt after (place dut slice) bit = bits (slice.registerLsb + bit)
  others : ∀ path element bit,
    (∀ slice ∈ register.slices, (path, element, bit) ∉ bitsOf dut slice) →
      after path element bit = before path element bit

/-- Values that agree on every bit of a slice. -/
def Agree (read bits : ℕ → Bool) : Prop :=
  ∀ slice ∈ register.slices, ∀ bit, slice.Covers bit → read bit = bits bit

/-- The contents after all slices are written. -/
def written (bits : ℕ → Bool) (contents : Contents) : Contents :=
  register.slices.foldl (fun contents slice =>
    setBits contents (place dut slice) slice.width fun bit => bits (slice.registerLsb + bit)) contents

variable {dut register} {contents : Contents}

/-- One bit of the contents. -/
def lookAt (contents : Contents) (point : String × ℤ × ℕ) : Bool :=
  contents point.1 point.2.1 point.2.2

theorem setBits_local (slice : BackdoorSlice) (bits : ℕ → Bool) :
    Regions.Local lookAt (bitsOf dut slice)
      fun contents => setBits contents (place dut slice) slice.width bits where
  frame _ _ outside := if_neg outside
  congr _ _ _ _ inside := (if_pos inside).trans (if_pos inside).symm

/-- **A run over the slices.** -/
theorem holds_written (separate : Separate dut register) (bits : ℕ → Bool) :
    Holds dut register bits contents (written dut register bits contents) where
  named slice mem bit inside := by
    have here : ((place dut slice).path, (place dut slice).element, (place dut slice).offset + bit) ∈
        bitsOf dut slice := ⟨rfl, rfl, by simp only; omega, by simp only; omega⟩
    have region : lookAt (register.slices.foldl (fun contents slice =>
          setBits contents (place dut slice) slice.width fun bit => bits (slice.registerLsb + bit))
          contents)
        ((place dut slice).path, (place dut slice).element, (place dut slice).offset + bit) = _ :=
      Regions.foldl_inside (fun slice _ => setBits_local slice _) separate.disjoint mem here contents
    refine region.trans ((if_pos here).trans ?_)
    simp only [Nat.add_sub_cancel_left]
  others path element bit outside := by
    have kept : lookAt (register.slices.foldl (fun contents slice =>
          setBits contents (place dut slice) slice.width fun bit => bits (slice.registerLsb + bit))
          contents) (path, element, bit) = lookAt contents (path, element, bit) :=
      Regions.foldl_outside (fun slice _ => setBits_local slice _) outside contents
    exact kept

theorem setBits_congr {place : Place} {width : ℕ} {bits bits' : ℕ → Bool}
    (same : ∀ bit < width, bits bit = bits' bit) :
    setBits contents place width bits = setBits contents place width bits' := by
  funext path element bit
  unfold setBits
  split
  · next here => exact same _ (by omega)
  · rfl

/-- A loop whose turns all succeed. -/
theorem foldlM_of_some {α β : Type} {turn : β → α → Option β} {move : β → α → β} {items : List α}
    (done : ∀ item ∈ items, ∀ state, turn state item = some (move state item)) (state : β) :
    items.foldlM turn state = some (items.foldl move state) := by
  induction items generalizing state with
  | nil => rfl
  | cons item later ih =>
    rw [List.foldlM_cons, done item List.mem_cons_self, List.foldl_cons]
    exact ih (fun item' mem => done item' (List.mem_cons_of_mem _ mem)) _

/-- The narrow write of a register. -/
theorem poke_spec (separate : Separate dut register) (short : register.width ≤ 64)
    (narrow : ∀ slice ∈ register.slices, objectWidth dut slice ≤ 64) (value : Word) :
    poke dut register.slices value contents = some (written dut register value.getLsbD contents) := by
  refine foldlM_of_some (fun slice mem contents => ?_) contents
  have inside := separate.inside slice mem
  rw [writeSlice_spec (separate.placed slice mem) (narrow slice mem)]
  refine congrArg some (setBits_congr fun bit here => ?_)
  rw [BitVec.getLsbD_and, getLsbD_registerMask _ (by omega), decide_eq_true here, Bool.and_true,
    BitVec.getLsbD_ushiftRight]

/-- The write of a register, word by word. -/
theorem pokeWords_spec (separate : Separate dut register) {words : List (BitVec 32)}
    (length : register.width ≤ words.length * 32) :
    pokeWords dut register.slices words contents =
      some (written dut register (wordBit words) contents) := by
  refine foldlM_of_some (fun slice mem contents => ?_) contents
  have inside := separate.inside slice mem
  exact writeSliceWords_spec (separate.placed slice mem) (by omega)

/-- What the narrow read makes of a bit of the register: the bits of all its slices together. -/
def gathered (dut : Dut) (contents : Contents) (slices : List BackdoorSlice) (bit : ℕ) : Bool :=
  slices.any fun slice => decide (slice.Covers bit) &&
    bitAt contents (place dut slice) (bit - slice.registerLsb)

/-- What the read of the words makes of it: the bit of its last slice. -/
def overwritten (dut : Dut) (contents : Contents) (slices : List BackdoorSlice) (bit : ℕ)
    (start : Bool) : Bool :=
  slices.foldl (fun read slice =>
    if slice.Covers bit then bitAt contents (place dut slice) (bit - slice.registerLsb) else read) start

/-- The narrow read of a register. -/
theorem peek_spec (separate : Separate dut register)
    (narrow : ∀ slice ∈ register.slices, objectWidth dut slice ≤ 64) :
    ∃ read, peek dut register.slices contents = some read ∧
      ∀ bit < 64, read.getLsbD bit = gathered dut contents register.slices bit := by
  obtain ⟨placed, inside, -⟩ := separate
  have run : ∀ (slices : List BackdoorSlice) (start : Word), (∀ slice ∈ slices, Placed dut slice) →
      (∀ slice ∈ slices, objectWidth dut slice ≤ 64) →
      ∃ read, slices.foldlM (fun value slice => do
          let read ← readSlice dut slice contents
          return value ||| ((read &&& registerMask slice.width) <<< slice.registerLsb)) start =
            some read ∧
        ∀ bit < 64, read.getLsbD bit = (start.getLsbD bit || gathered dut contents slices bit) := by
    intro slices
    induction slices with
    | nil => exact fun start _ _ => ⟨start, rfl, fun bit _ => (Bool.or_false _).symm⟩
    | cons slice later ih =>
      intro start placed narrow
      obtain ⟨placed, placed'⟩ := List.forall_mem_cons.mp placed
      obtain ⟨narrow, narrow'⟩ := List.forall_mem_cons.mp narrow
      obtain ⟨read, here, bits⟩ := @readSlice_spec _ contents _ placed narrow
      obtain ⟨final, done, bits'⟩ := ih
        (start ||| ((read &&& registerMask slice.width) <<< slice.registerLsb)) placed' narrow'
      refine ⟨final, ?_, fun bit inWord => ?_⟩
      · rw [List.foldlM_cons, here]
        exact done
      · rw [bits' bit inWord, BitVec.getLsbD_or, Bool.or_assoc]
        congr 1
        have split : gathered dut contents (slice :: later) bit =
            ((decide (slice.Covers bit) &&
              bitAt contents (place dut slice) (bit - slice.registerLsb)) ||
                gathered dut contents later bit) := List.any_cons
        rw [split]
        congr 1
        rw [BitVec.getLsbD_shiftLeft, decide_eq_true inWord, Bool.true_and]
        by_cases below : bit < slice.registerLsb
        · have outside : ¬slice.Covers bit := fun covers => by
            have := covers.1
            omega
          simp only [below, outside, decide_true, decide_false, Bool.not_true, Bool.false_and]
        · have inside : bit - slice.registerLsb < 64 := by omega
          rw [BitVec.getLsbD_and, bits _ inside, getLsbD_registerMask _ inside]
          have covers : slice.Covers bit ↔ bit - slice.registerLsb < slice.width :=
            ⟨fun covers => by have := covers.2; omega, fun short => ⟨by omega, by omega⟩⟩
          simp only [below, covers, decide_false, Bool.not_false, Bool.true_and]
          cases decide (bit - slice.registerLsb < slice.width) <;> simp
  obtain ⟨read, done, bits⟩ := run register.slices 0 placed narrow
  refine ⟨read, done, fun bit inWord => ?_⟩
  rw [bits bit inWord]
  simp

theorem wordBit_replicate (count bit : ℕ) : wordBit (List.replicate count 0) bit = false := by
  unfold wordBit
  have zero : (List.replicate count (0 : BitVec 32)).getD (bit / 32) 0 = 0 := by
    rw [List.getD_eq_getElem?_getD, List.getElem?_replicate]
    split <;> rfl
  rw [zero]
  exact BitVec.getLsbD_zero

/-- The read of a register, word by word. -/
theorem peekWords_spec (separate : Separate dut register) :
    ∃ words, peekWords dut register.width register.slices contents = some words ∧
      words.length = (register.width + 31) / 32 ∧
      ∀ bit, wordBit words bit = overwritten dut contents register.slices bit false := by
  obtain ⟨placed, inside, -⟩ := separate
  have run : ∀ (slices : List BackdoorSlice) (start : List (BitVec 32)),
      register.width ≤ start.length * 32 → (∀ slice ∈ slices, Placed dut slice) →
      (∀ slice ∈ slices, slice.registerLsb + slice.width ≤ register.width) →
      ∃ words, slices.foldlM (fun words slice => readSliceWords dut slice contents words) start =
          some words ∧ words.length = start.length ∧
        ∀ bit, wordBit words bit = overwritten dut contents slices bit (wordBit start bit) := by
    intro slices
    induction slices with
    | nil => exact fun start _ _ _ => ⟨start, rfl, rfl, fun bit => rfl⟩
    | cons slice later ih =>
      intro start length placed inside
      obtain ⟨placed, placed'⟩ := List.forall_mem_cons.mp placed
      obtain ⟨inside, inside'⟩ := List.forall_mem_cons.mp inside
      obtain ⟨words, here, same, bits⟩ := @readSliceWords_spec _ contents _ placed _
        (by omega : slice.registerLsb + slice.width ≤ start.length * 32)
      obtain ⟨final, done, same', bits'⟩ := ih words (same ▸ length) placed' inside'
      refine ⟨final, ?_, same'.trans same, fun bit => ?_⟩
      · rw [List.foldlM_cons, here]
        exact done
      · rw [bits' bit, bits bit]
        rfl
  obtain ⟨words, done, length, bits⟩ := run register.slices
    (List.replicate ((register.width + 31) / 32) 0)
    (by rw [List.length_replicate]; omega) placed inside
  refine ⟨words, done, length.trans List.length_replicate, fun bit => ?_⟩
  rw [bits bit, wordBit_replicate]

end Registers

/-! ### Both implementations -/

section Agreement

variable {dut : Dut} {register : Backdoor} {contents : Contents}

theorem written_congr (separate : Separate dut register) {bits bits' : ℕ → Bool}
    (same : ∀ bit < register.width, bits bit = bits' bit) :
    written dut register bits contents = written dut register bits' contents := by
  refine List.foldl_ext _ _ _ fun contents slice mem => setBits_congr fun bit here => same _ ?_
  have := separate.inside slice mem
  omega

/-- What was written is read back, whichever slice of a bit is read. -/
theorem bitAt_of_holds {bits : ℕ → Bool} {after : Contents} (holds : Holds dut register bits contents after)
    {slice : BackdoorSlice} (mem : slice ∈ register.slices) {bit : ℕ} (covers : slice.Covers bit) :
    bitAt after (place dut slice) (bit - slice.registerLsb) = bits bit := by
  obtain ⟨lower, upper⟩ := covers
  rw [holds.named slice mem _ (by omega)]
  congr 1
  omega

theorem gathered_of_holds {bits : ℕ → Bool} {after : Contents}
    (holds : Holds dut register bits contents after) {slice : BackdoorSlice}
    (mem : slice ∈ register.slices) {bit : ℕ} (covers : slice.Covers bit) :
    gathered dut after register.slices bit = bits bit := by
  cases set : bits bit with
  | true =>
    refine List.any_eq_true.mpr ⟨slice, mem, ?_⟩
    rw [decide_eq_true covers, Bool.true_and, bitAt_of_holds holds mem covers, set]
  | false =>
    refine List.any_eq_false.mpr fun other mem' => ?_
    by_cases covers' : other.Covers bit
    · rw [decide_eq_true covers', Bool.true_and, bitAt_of_holds holds mem' covers', set]
      exact Bool.false_ne_true
    · rw [decide_eq_false covers', Bool.false_and]
      exact Bool.false_ne_true

theorem overwritten_of_holds {bits : ℕ → Bool} {after : Contents}
    (holds : Holds dut register bits contents after) {slice : BackdoorSlice}
    (mem : slice ∈ register.slices) {bit : ℕ} (covers : slice.Covers bit) :
    overwritten dut after register.slices bit false = bits bit := by
  -- once a slice of the bit is read, the bit stays what was written
  have run : ∀ (slices : List BackdoorSlice) (start : Bool), (∀ other ∈ slices, other ∈ register.slices) →
      start = bits bit ∨ slice ∈ slices → overwritten dut after slices bit start = bits bit := by
    intro slices
    induction slices with
    | nil =>
      intro start _ from_start
      exact from_start.resolve_right List.not_mem_nil
    | cons other later ih =>
      intro start all from_start
      obtain ⟨mem', all'⟩ := List.forall_mem_cons.mp all
      refine ih _ all' ?_
      dsimp only
      by_cases covers' : other.Covers bit
      · rw [if_pos covers', bitAt_of_holds holds mem' covers']
        exact .inl rfl
      · rw [if_neg covers']
        refine from_start.imp_right fun here => (List.mem_cons.mp here).resolve_left fun same => ?_
        exact covers' (same ▸ covers)
  exact run register.slices false (fun _ mem => mem) (.inr mem)

/-- Separate slices give each bit of the register one source. -/
theorem overwritten_eq {slices : List BackdoorSlice} {bit : ℕ} (start : Bool)
    (apart : slices.Pairwise fun one other => ∀ bit, ¬(one.Covers bit ∧ other.Covers bit)) :
    overwritten dut contents slices bit start =
      if ∃ slice ∈ slices, slice.Covers bit then gathered dut contents slices bit else start := by
  induction slices generalizing start with
  | nil => exact (if_neg (fun ⟨_, mem, _⟩ => List.not_mem_nil mem)).symm
  | cons slice later ih =>
    obtain ⟨head, tail⟩ := List.pairwise_cons.mp apart
    have split : gathered dut contents (slice :: later) bit =
        ((decide (slice.Covers bit) &&
          bitAt contents (place dut slice) (bit - slice.registerLsb)) ||
            gathered dut contents later bit) := List.any_cons
    refine (ih _ tail).trans ?_
    dsimp only
    by_cases covers : slice.Covers bit
    · have none : ¬∃ other ∈ later, other.Covers bit :=
        fun ⟨other, mem, covers'⟩ => head other mem bit ⟨covers, covers'⟩
      have empty : gathered dut contents later bit = false := List.any_eq_false.mpr fun other mem => by
        rw [decide_eq_false fun covers' => none ⟨other, mem, covers'⟩, Bool.false_and]
        exact Bool.false_ne_true
      rw [if_neg none, if_pos covers, if_pos ⟨slice, List.mem_cons_self, covers⟩, split, empty,
        decide_eq_true covers, Bool.true_and, Bool.or_false]
    · rw [if_neg covers, split, decide_eq_false covers, Bool.false_and, Bool.false_or]
      refine if_congr ?_ rfl rfl
      simp only [List.exists_mem_cons_iff, covers, false_or]

/-- A bit in two slices can be read in two ways. -/
theorem registerDisjoint_of_reads (separate : Separate dut register)
    (reads : ∀ contents : Contents, ∀ bit < register.width,
      gathered dut contents register.slices bit = overwritten dut contents register.slices bit false) :
    RegisterDisjoint register := by
  obtain ⟨-, inside, disjoint⟩ := separate
  rw [List.pairwise_iff_getElem] at disjoint
  refine List.pairwise_iff_getElem.mpr fun i j hi hj less bit ⟨covers, covers'⟩ => ?_
  have within := inside _ (List.getElem_mem hi)
  -- only the bit that the first of the two slices names is set
  let point (slice : BackdoorSlice) : String × ℤ × ℕ := ((place dut slice).path,
    (place dut slice).element, (place dut slice).offset + (bit - slice.registerLsb))
  have named : ∀ slice : BackdoorSlice, slice.Covers bit → point slice ∈ bitsOf dut slice :=
    fun slice covers => ⟨rfl, rfl, by simp only [point]; omega, by
      have := covers.1
      have := covers.2
      simp only [point]
      omega⟩
  let contents : Contents := fun path element bit =>
    decide ((path, element, bit) = point register.slices[i])
  have apart : ∀ k (hk : k < register.slices.length), i < k → register.slices[k].Covers bit →
      bitAt contents (place dut register.slices[k]) (bit - register.slices[k].registerLsb) = false := by
    intro k hk later covers''
    refine decide_eq_false fun same => ?_
    exact Set.disjoint_left.mp (disjoint i k hi hk later) (named _ covers)
      (same ▸ named _ covers'')
  have first : gathered dut contents register.slices bit = true := by
    refine List.any_eq_true.mpr ⟨_, List.getElem_mem hi, ?_⟩
    rw [decide_eq_true covers, Bool.true_and]
    exact decide_eq_true rfl
  have last : overwritten dut contents register.slices bit false = false := by
    have clear : ∀ slices : List BackdoorSlice,
        (∀ slice ∈ slices, slice.Covers bit →
          bitAt contents (place dut slice) (bit - slice.registerLsb) = false) →
        overwritten dut contents slices bit false = false := by
      intro slices
      induction slices with
      | nil => exact fun _ => rfl
      | cons slice later ih =>
        intro all
        obtain ⟨here, all'⟩ := List.forall_mem_cons.mp all
        have start : (if slice.Covers bit then
            bitAt contents (place dut slice) (bit - slice.registerLsb) else false) = false := by
          split
          · next covers => exact here covers
          · rfl
        refine Eq.trans ?_ (ih all')
        rw [overwritten, List.foldl_cons, start]
        rfl
    rw [← List.take_append_drop j register.slices, overwritten, List.foldl_append,
      List.drop_eq_getElem_cons hj, List.foldl_cons, if_pos covers', apart j hj less covers']
    refine clear _ fun slice mem covers'' => ?_
    obtain ⟨k, hk, rfl⟩ := List.getElem_of_mem mem
    rw [List.getElem_drop] at covers'' ⊢
    exact apart _ _ (by omega) covers''
  have differ := reads contents bit (by have := covers.2; omega)
  rw [first, last] at differ
  exact absurd differ.symm Bool.false_ne_true

/-- Narrow accesses are there for objects of up to 64 bits alone. -/
theorem narrow_of_readSlice {slice : BackdoorSlice} {read : Word}
    (done : readSlice dut slice contents = some read) : objectWidth dut slice ≤ 64 := by
  have value : ∀ {width : ℕ} {value : Value width} {f : Word → Word},
      (hdlValueToUint64 value).map f = some read → width ≤ 64 := by
    intro width value f mapped
    by_contra wide
    rw [hdlValueToUint64, if_neg wide] at mapped
    cases mapped
  unfold objectWidth
  unfold readSlice at done
  rcases selected : hdlPathSelection slice.path with ⟨path, _ | index | ⟨msb, lsb⟩⟩ <;>
    simp only [selected] at done ⊢
  · unfold readHdlFull at done
    split at done
    · exact value done
    · cases done
  · unfold readHdlSelect at done
    split at done <;> split at done
    · exact value done
    · cases done
    · exact value done
    · cases done
  · unfold readHdlRange at done
    split at done
    · exact value done
    · cases done

theorem narrow_of_peek {read : Word} (done : peek dut register.slices contents = some read) :
    ∀ slice ∈ register.slices, objectWidth dut slice ≤ 64 := by
  unfold peek at done
  generalize (0 : Word) = start at done
  generalize register.slices = slices at done ⊢
  induction slices generalizing start with
  | nil => exact fun _ mem => absurd mem List.not_mem_nil
  | cons slice later ih =>
    rw [List.foldlM_cons] at done
    cases here : readSlice dut slice contents with
    | none =>
      rw [here] at done
      cases done
    | some value =>
      rw [here] at done
      exact List.forall_mem_cons.mpr ⟨narrow_of_readSlice here, ih _ done⟩

end Agreement

/-! ### The backdoor of a register -/

section Backdoors

variable (dut : Dut) (register : Backdoor)

/-- The words of a register. -/
def WordsOf (words : List (BitVec 32)) : Prop := words.length = (register.width + 31) / 32

/-- A register of up to 64 bits: a write changes the named bits alone and is read back, and the accesses
by words do the same. -/
structure MovesNarrow (contents : Contents) : Prop where
  write : ∀ value : Word, ∃ after, poke dut register.slices value contents = some after ∧
    Holds dut register value.getLsbD contents after ∧
    ∃ read, peek dut register.slices after = some read ∧ Agree register read.getLsbD value.getLsbD
  same_write : ∀ (value : Word) (words : List (BitVec 32)), WordsOf register words →
    (∀ bit < register.width, wordBit words bit = value.getLsbD bit) →
      pokeWords dut register.slices words contents = poke dut register.slices value contents
  same_read : ∃ read words, peek dut register.slices contents = some read ∧
    peekWords dut register.width register.slices contents = some words ∧
      ∀ bit < register.width, read.getLsbD bit = wordBit words bit

/-- A wider register, accessed by words. -/
def MovesWide (contents : Contents) : Prop :=
  ∀ words, WordsOf register words → ∃ after, pokeWords dut register.slices words contents = some after ∧
    Holds dut register (wordBit words) contents after ∧
    ∃ read, peekWords dut register.width register.slices after = some read ∧
      Agree register (wordBit read) (wordBit words)

/-- The accesses of a register move its bits. -/
def Moves (contents : Contents) : Prop :=
  if register.width ≤ 64 then MovesNarrow dut register contents else MovesWide dut register contents

variable {dut register} {contents : Contents}

theorem WordsOf.enough {words : List (BitVec 32)} (length : WordsOf register words) :
    register.width ≤ words.length * 32 := by
  unfold WordsOf at length
  omega

theorem movesWide (separate : Separate dut register) : MovesWide dut register contents := by
  intro words length
  obtain ⟨read, done, -, bits⟩ := @peekWords_spec _ _ (written dut register (wordBit words) contents)
    separate
  have holds := @holds_written _ _ contents separate (wordBit words)
  refine ⟨_, pokeWords_spec separate length.enough, holds, read, done, fun slice mem bit covers => ?_⟩
  rw [bits, overwritten_of_holds holds mem covers]

theorem movesNarrow (separate : Separate dut register) (short : register.width ≤ 64)
    (narrow : ∀ slice ∈ register.slices, objectWidth dut slice ≤ 64)
    (apart : RegisterDisjoint register) : MovesNarrow dut register contents where
  write value := by
    obtain ⟨read, done, bits⟩ := @peek_spec _ _ (written dut register value.getLsbD contents)
      separate narrow
    have holds := @holds_written _ _ contents separate value.getLsbD
    refine ⟨_, poke_spec separate short narrow value, holds, read, done,
      fun slice mem bit covers => ?_⟩
    have inside := separate.inside slice mem
    have := covers.2
    rw [bits bit (by omega), gathered_of_holds holds mem covers]
  same_write value words length same := by
    rw [pokeWords_spec separate length.enough, poke_spec separate short narrow,
      written_congr separate same]
  same_read := by
    obtain ⟨read, done, bits⟩ := @peek_spec _ _ contents separate narrow
    obtain ⟨words, done', -, bits'⟩ := @peekWords_spec _ _ contents separate
    refine ⟨read, words, done, done', fun bit inside => ?_⟩
    rw [bits bit (by omega), bits', overwritten_eq false apart]
    split
    · rfl
    · next none =>
      refine List.any_eq_false.mpr fun slice mem => ?_
      rw [decide_eq_false fun covers => none ⟨slice, mem, covers⟩, Bool.false_and]
      exact Bool.false_ne_true

/-- **Moves of a register**: always word by word; up to 64 bits when its objects are that wide at most
and no bit of the register is in two slices. -/
theorem moves_iff (separate : Separate dut register) :
    (∀ contents, Moves dut register contents) ↔
      (register.width ≤ 64 →
        (∀ slice ∈ register.slices, objectWidth dut slice ≤ 64) ∧ RegisterDisjoint register) := by
  unfold Moves
  by_cases short : register.width ≤ 64
  · simp only [short, if_true, true_implies]
    constructor
    · intro moves
      have narrow : ∀ slice ∈ register.slices, objectWidth dut slice ≤ 64 := by
        obtain ⟨read, -, done, -⟩ := (moves fun _ _ _ => false).same_read
        exact narrow_of_peek done
      refine ⟨narrow, registerDisjoint_of_reads separate fun contents bit inside => ?_⟩
      obtain ⟨read, words, done, done', same⟩ := (moves contents).same_read
      obtain ⟨read', here, bits⟩ := @peek_spec _ _ contents separate narrow
      obtain ⟨words', here', -, bits'⟩ := @peekWords_spec _ _ contents separate
      obtain rfl := Option.some.inj (done.symm.trans here)
      obtain rfl := Option.some.inj (done'.symm.trans here')
      rw [← bits bit (by omega), ← bits' bit, same bit inside]
    · rintro ⟨narrow, apart⟩ contents
      exact movesNarrow separate short narrow apart
  · simp only [short, if_false, false_implies, iff_true]
    exact fun contents => movesWide separate

end Backdoors

/-! ### The slices of a description -/

section Descriptions

/-- Every element of a list that was mapped has its result in it. -/
theorem mem_of_mapM_ok {α β ε : Type} {f : α → Except ε β} {items : List α} {results : List β}
    (done : items.mapM f = .ok results) {item : α} (mem : item ∈ items) :
    ∃ result ∈ results, f item = .ok result := by
  induction items generalizing results with
  | nil => exact absurd mem List.not_mem_nil
  | cons head tail ih =>
    rw [List.mapM_cons] at done
    cases here : f head with
    | error failure =>
      rw [here] at done
      cases done
    | ok first =>
      rw [here] at done
      cases rest : tail.mapM f with
      | error failure =>
        rw [rest] at done
        cases done
      | ok others =>
        rw [rest] at done
        obtain rfl := Except.ok.inj done
        rcases List.mem_cons.mp mem with rfl | mem
        · exact ⟨first, List.mem_cons_self, here⟩
        · obtain ⟨result, mem', found⟩ := ih rest mem
          exact ⟨result, List.mem_cons_of_mem _ mem', found⟩

/-- The slices of a field with one path for each bit. -/
theorem fieldSlices_perBit {node : RegisterNode} {field : FieldNode}
    (perBit : field.hdlPathSlice.length = field.width) {index : ℕ}
    (inside : index < field.hdlPathSlice.length) {slices : Option (List BackdoorSlice)}
    (done : fieldSlices node field = .ok slices) :
    (⟨joinHdlPath (node.hdlParts ++ [field.hdlPathSlice[index]]),
      field.lsb + (field.width - 1 - index), 1⟩ : BackdoorSlice) ∈ slices.getD [] := by
  unfold fieldSlices at done
  split at done
  · next none => exact absurd inside (by rw [none]; exact Nat.not_lt_zero _)
  · next path one =>
    obtain rfl := Except.ok.inj done
    have single : field.width = 1 := by rw [← perBit, one, List.length_singleton]
    have first : index = 0 := by omega
    subst first
    simp only [Option.getD_some, List.mem_singleton, one, List.getElem_cons_zero, single]
    rfl
  · rw [if_neg (not_not.mpr perBit)] at done
    obtain rfl := Except.ok.inj done
    refine List.mem_mapIdx.mpr ⟨index, inside, ?_⟩
    congr 1
    omega

/-- **One path per bit**: entry `index` of the list is the bit `width - 1 - index` of the field. -/
theorem perBit_slices {node : RegisterNode} (fieldPaths : node.hdlPath = none)
    {slices : List BackdoorSlice} {complete : Bool} {perField : List (List BackdoorSlice)}
    (done : registerBackdoorSlices node = .ok (slices, complete, perField)) {field : FieldNode}
    (mem : field ∈ node.fields) (perBit : field.hdlPathSlice.length = field.width) {index : ℕ}
    (inside : index < field.hdlPathSlice.length) :
    (⟨joinHdlPath (node.hdlParts ++ [field.hdlPathSlice[index]]),
      field.lsb + (field.width - 1 - index), 1⟩ : BackdoorSlice) ∈ slices := by
  unfold registerBackdoorSlices at done
  rw [fieldPaths] at done
  cases mapped : node.fields.mapM (fieldSlices node) with
  | error failure =>
    simp only [mapped] at done
    cases done
  | ok results =>
    simp only [mapped] at done
    obtain ⟨rfl, -, -⟩ : (results.map (·.getD [])).flatten = slices ∧ _ ∧ _ := by
      simpa only [Prod.mk.injEq] using Except.ok.inj done
    obtain ⟨result, mem', found⟩ := mem_of_mapM_ok mapped mem
    exact List.mem_flatten.mpr ⟨_, List.mem_map_of_mem mem', fieldSlices_perBit perBit inside found⟩

end Descriptions

/-! ### HDL backdoors -/

section HdlBackdoors

/-- A design of signals of one width. -/
def signalsOf (width : ℕ) : Dut := ⟨fun _ => width, fun _ => none⟩

/-- Two halves of a byte, exchanged. -/
def exchangedHalves : Backdoor := ⟨8, [⟨"ctrl[3:0]", 4, 4⟩, ⟨"ctrl[7:4]", 0, 4⟩]⟩

theorem hdlPathSelection_low : hdlPathSelection "ctrl[3:0]" = ("ctrl", .range 3 0) := by
  decide +kernel

theorem hdlPathSelection_high : hdlPathSelection "ctrl[7:4]" = ("ctrl", .range 7 4) := by
  decide +kernel

theorem separate_exchangedHalves : Separate (signalsOf 8) exchangedHalves where
  placed := by
    simp only [exchangedHalves, List.forall_mem_cons, List.not_mem_nil, false_implies, implies_true,
      and_true, Placed, hdlPathSelection_low, hdlPathSelection_high]
    decide
  inside := by decide
  disjoint := by
    refine List.pairwise_pair.mpr (Set.disjoint_left.mpr fun point low high => ?_)
    simp only [bitsOf, place, hdlPathSelection_low, hdlPathSelection_high, Set.mem_ofPred_eq] at low high
    have := low.2.2.2
    have := high.2.2.1
    omega

/-- A register of 32 bits in the middle of a status vector of 128. -/
def middleWord : Backdoor := ⟨32, [⟨"status[95:64]", 0, 32⟩]⟩

theorem hdlPathSelection_middle : hdlPathSelection "status[95:64]" = ("status", .range 95 64) := by
  decide +kernel

end HdlBackdoors

end Cpptb.RegisterModel.HdlBackdoor
