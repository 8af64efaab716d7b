/-
`RegisterHandle`: the mirror of one register of up to 64 bits.

A handle keeps a mirrored and a staged value, which of their bits are known, and which bits of
write-once fields have been written. Its frontdoor operations split an access into transfers of
`accessWidth` bits (`transferLoop`), and each transfer that succeeds is predicted. The master answers
each request as it likes: `respond` gives its answer to the request of a transfer, `none` where the
transfer fails. An operation that throws is an `Except.error`, or ends its transfers with `threw`.

The fixed data that `initialize_metadata` caches is computed from the descriptor where it is used.
-/

import Cpptb.RegisterModel.Effects

namespace Cpptb.RegisterModel

open Cpptb.Vc (RegisterAccess registerReadable registerWritable RegisterEndianness wrap)

section Descriptors

/-- The integer types of a master: `address_type`, `data_type` and `byte_enable_type`. -/
structure BusTypes where
  addressBits : ℕ
  dataBits : ℕ
  byteEnableBits : ℕ
  address_le : addressBits ≤ 64
  data_le : dataBits ≤ 64
  deriving Repr

/-- The greatest address of a bus. -/
def BusTypes.addressMax (bus : BusTypes) : ℕ := 2 ^ bus.addressBits - 1

/-- The exceptions of the register model. -/
inductive Error where
  | invalidArgument (what : String)
  | logicError (what : String)
  | outOfRange (what : String)
  | overflowError (what : String)
  deriving DecidableEq, Repr

/-- `if (bad) throw error`. -/
def throwIf (bad : Prop) [Decidable bad] (error : Error) : Except Error Unit :=
  if bad then .error error else .ok ()

theorem throwIf_ok_iff {bad : Prop} [Decidable bad] {error : Error} :
    throwIf bad error = .ok () ↔ ¬ bad := by
  unfold throwIf
  split
  next holds => exact ⟨nofun, fun fine => absurd holds fine⟩
  next fails => exact ⟨fun _ => fails, fun _ => rfl⟩

theorem throwIf_of {bad : Prop} [Decidable bad] {error : Error} (holds : bad) :
    throwIf bad error = .error error := if_pos holds

theorem throwIf_of_not {bad : Prop} [Decidable bad] {error : Error} (fails : ¬ bad) :
    throwIf bad error = .ok () := if_neg fails

theorem ok_bind {α β : Type} (value : β) (rest : β → Except Error α) :
    ((.ok value : Except Error β) >>= rest) = rest value := rfl

/-- What an operation returns after a step that may throw. -/
theorem after_bind {α β : Type} {first : Except Error β} {rest : β → Except Error α} {result : α}
    (returned : (first >>= rest) = .ok result) : ∃ value, first = .ok value ∧ rest value = .ok result := by
  cases done : first with
  | error error => rw [done] at returned; cases returned
  | ok value => rw [done] at returned; exact ⟨value, rfl, returned⟩

/-- What an operation returns after a check. -/
theorem after_throwIf {α : Type} {bad : Prop} [Decidable bad] {error : Error}
    {rest : Unit → Except Error α} {result : α}
    (returned : (throwIf bad error >>= rest) = .ok result) : ¬ bad ∧ rest () = .ok result := by
  obtain ⟨_, passed, rest⟩ := after_bind returned
  exact ⟨throwIf_ok_iff.mp passed, rest⟩

/-- `RegisterDescriptor`. `object` tells descriptors apart, as their addresses do. -/
structure RegisterDescriptor where
  object : ℕ := 0
  path : String
  address : UInt64 := 0
  width : ℕ := 32
  accessWidth : ℕ := 32
  endianness : RegisterEndianness := .little
  resetValue : Word := 0
  resetMask : Word := 0
  resetValueWords : List (BitVec 32) := []
  resetMaskWords : List (BitVec 32) := []
  fields : List FieldDescriptor := []
  deriving DecidableEq, Repr

/-- `RegisterUserEffectPolicy`, by its field functions. The arguments are the register, the field, the
previous value of the field, its valid bits, and the value that is written, staged or read. -/
structure UserEffectPolicy where
  encodeWriteField : RegisterDescriptor → FieldDescriptor → Word → Word → Word → Word
  predictWriteField : RegisterDescriptor → FieldDescriptor → Word → Word → Word → Word × Word
  predictReadField : RegisterDescriptor → FieldDescriptor → Word → Word → Word → Word × Word

namespace RegisterDescriptor

/-- `access_width_`. -/
def transferWidth (descriptor : RegisterDescriptor) : ℕ :=
  if descriptor.accessWidth = 0 then descriptor.width else descriptor.accessWidth

def transferBytes (descriptor : RegisterDescriptor) : ℕ := descriptor.transferWidth / 8

def transferCount (descriptor : RegisterDescriptor) : ℕ :=
  descriptor.width / descriptor.transferWidth

def transferBitOffset (descriptor : RegisterDescriptor) (transfer : ℕ) : ℕ :=
  let logical := match descriptor.endianness with
    | .little => transfer
    | .big => descriptor.transferCount - transfer - 1
  logical * descriptor.transferWidth

def hasReadableField (descriptor : RegisterDescriptor) : Bool :=
  descriptor.fields.isEmpty || descriptor.fields.any fun field => registerReadable field.access

def hasWritableField (descriptor : RegisterDescriptor) : Bool :=
  descriptor.fields.isEmpty || descriptor.fields.any fun field => registerWritable field.access

/-- Every writable field can be written once. -/
def writeOnceOnly (descriptor : RegisterDescriptor) : Bool :=
  (descriptor.fields.any fun field => registerWritable field.access) &&
    descriptor.fields.all fun field => !registerWritable field.access || field.writeOnce

/-- One field against the register and the fields before it. -/
def validateField (descriptor : RegisterDescriptor) (before : List FieldDescriptor)
    (field : FieldDescriptor) : Except Error Unit := do
  throwIf (field.width = 0 ∨ descriptor.width ≤ field.lsb ∨ descriptor.width - field.lsb < field.width)
    (.invalidArgument ("cpptb-vc: register field lies outside its register: " ++ field.path))
  match before.find? fun previous =>
      decide (field.lsb < previous.lsb + previous.width ∧ previous.lsb < field.lsb + field.width) with
  | some previous => throw (.invalidArgument
      ("cpptb-vc: register fields overlap: " ++ previous.path ++ " and " ++ field.path))
  | none => pure ()

def validateFields (descriptor : RegisterDescriptor) :
    List FieldDescriptor → List FieldDescriptor → Except Error Unit
  | _, [] => pure ()
  | before, field :: rest => do
    descriptor.validateField before field
    descriptor.validateFields (before ++ [field]) rest

def validateFieldLayout (descriptor : RegisterDescriptor) : Except Error Unit :=
  descriptor.validateFields [] descriptor.fields

end RegisterDescriptor

end Descriptors

section AddressMaps

/-- `RegisterAddressMap::Route`. Who answers the request, the master or a frontdoor of the route, is
part of the responses. -/
structure Route where
  object : ℕ
  offset : UInt64
  deriving DecidableEq, Repr

structure RegisterAddressMap where
  name : String
  baseAddress : UInt64 := 0
  routes : List Route := []
  memoryRoutes : List Route := []
  deriving DecidableEq, Repr

namespace RegisterAddressMap

/-- The offset of a descriptor: that of its route, or its own address. -/
def offset (routes : List Route) (object : ℕ) (address : UInt64) : UInt64 :=
  match routes.find? fun route => route.object == object with
  | some route => route.offset
  | none => address

/-- `effective_address` of a register. -/
def effectiveAddress (bus : BusTypes) (map : RegisterAddressMap) (descriptor : RegisterDescriptor) :
    Except Error ℕ := do
  let offset := (offset map.routes descriptor.object descriptor.address).toNat
  throwIf (2 ^ 64 - 1 - map.baseAddress.toNat < offset)
    (.overflowError ("cpptb-vc: register address map overflows for " ++ descriptor.path ++
      " in map " ++ map.name))
  let address := wrap (map.baseAddress.toNat + offset)
  throwIf (bus.addressMax < address)
    (.overflowError ("cpptb-vc: register address exceeds frontdoor width for " ++
      descriptor.path ++ " in map " ++ map.name))
  pure address

end RegisterAddressMap

end AddressMaps

section Transfers

structure WriteRequest (bus : BusTypes) where
  address : BitVec bus.addressBits
  data : BitVec bus.dataBits
  byteEnable : BitVec bus.byteEnableBits
  deriving DecidableEq, Repr

structure ReadRequest (bus : BusTypes) where
  address : BitVec bus.addressBits
  deriving DecidableEq, Repr

/-- How the transfers of an access end. -/
inductive Ending where
  | okay
  | failed (address : ℕ)
  | threw (error : Error)
  deriving DecidableEq, Repr

/-- The transfers of an access: the requests that the master has seen, how many succeeded, and what
the access has gathered from them. -/
structure Transfers (R S : Type) where
  requests : List R
  completed : ℕ
  state : S
  ending : Ending

variable {R D S : Type}

/-- One transfer after the other, from `transfer` on, until one fails or its address throws. -/
def transferLoop (address : ℕ → Except Error ℕ) (request : ℕ → ℕ → R) (respond : ℕ → R → Option D)
    (complete : ℕ → D → S → S) : ℕ → ℕ → S → Transfers R S
  | 0, _, state => ⟨[], 0, state, .okay⟩
  | remaining + 1, transfer, state =>
    match address transfer with
    | .error error => ⟨[], 0, state, .threw error⟩
    | .ok target =>
      match respond transfer (request transfer target) with
      | none => ⟨[request transfer target], 0, state, .failed target⟩
      | some data =>
        let rest := transferLoop address request respond complete remaining (transfer + 1)
          (complete transfer data state)
        ⟨request transfer target :: rest.requests, rest.completed + 1, rest.state, rest.ending⟩

/-- What every transfer that succeeds keeps of the state. -/
theorem transferLoop_state {P : S → Prop} (address : ℕ → Except Error ℕ) (request : ℕ → ℕ → R)
    (respond : ℕ → R → Option D) (complete : ℕ → D → S → S)
    (kept : ∀ transfer data state, P state → P (complete transfer data state)) (remaining transfer : ℕ)
    (state : S) (holds : P state) :
    P (transferLoop address request respond complete remaining transfer state).state := by
  induction remaining generalizing transfer state with
  | zero => exact holds
  | succ remaining ih =>
    rw [transferLoop]
    split
    · exact holds
    split
    · exact holds
    next data _ => exact ih _ _ (kept transfer data state holds)

end Transfers

/-- What a handle knows of its register. -/
structure RegisterHandle (bus : BusTypes) where
  descriptor : RegisterDescriptor
  userEffects : Option UserEffectPolicy
  hasBackdoor : Bool
  effectiveAddress : ℕ
  autoPredict : Bool
  staged : Word
  mirrored : Word
  stagedValidMask : Word
  mirroredValidMask : Word
  writtenOnceMask : Word

namespace RegisterHandle

variable {bus : BusTypes}

section Metadata

variable (h : RegisterHandle bus)

def widthMask : Word := registerMask h.descriptor.width

def chunkMask : Word := registerMask h.descriptor.transferWidth

/-- The bits of the fields that satisfy a predicate. -/
def fieldsMask (fields : List FieldDescriptor) (selected : FieldDescriptor → Bool) : Word :=
  fields.foldl (fun mask field =>
    if selected field then mask ||| registerFieldMask field else mask) 0

def nonvolatileMask : Word :=
  if h.descriptor.fields.isEmpty then h.widthMask
  else fieldsMask h.descriptor.fields fun field =>
    registerReadable field.access && !field.volatileValue

def writableMask : Word :=
  if h.descriptor.fields.isEmpty then h.widthMask
  else fieldsMask h.descriptor.fields fun field => registerWritable field.access

def writeOnceMask : Word :=
  fieldsMask h.descriptor.fields fun field => registerWritable field.access && field.writeOnce

def allBytes : BitVec bus.byteEnableBits :=
  let bytes := h.descriptor.transferBytes
  BitVec.ofNat _ (if 64 ≤ bytes then 2 ^ 64 - 1 else 2 ^ bytes - 1)

def transferAddress (map : Option RegisterAddressMap) (transfer : ℕ) : Except Error ℕ := do
  let base ← match map with
    | some map => map.effectiveAddress bus h.descriptor
    | none => pure h.effectiveAddress
  pure (wrap (base + transfer * h.descriptor.transferBytes))

/-- `initialize_access_validation` and `throw_access_validation_error`. -/
def requireSupportedAccess : Except Error Unit := do
  throwIf (h.descriptor.width = 0 ∨ h.descriptor.width % 8 ≠ 0 ∨ 64 < h.descriptor.width)
    (.logicError ("cpptb-vc: register must be byte-aligned and no wider than 64 bits: " ++
      h.descriptor.path))
  throwIf (h.descriptor.transferWidth = 0 ∨ h.descriptor.transferWidth % 8 ≠ 0 ∨
      h.descriptor.width < h.descriptor.transferWidth ∨
      h.descriptor.width % h.descriptor.transferWidth ≠ 0 ∨ bus.dataBits < h.descriptor.transferWidth)
    (.logicError ("cpptb-vc: register accesswidth must be byte-aligned, divide regwidth, and " ++
      "fit the frontdoor data width: " ++ h.descriptor.path))
  throwIf (bus.addressMax <
      wrap (h.effectiveAddress + (h.descriptor.transferCount - 1) * h.descriptor.transferBytes))
    (.logicError ("cpptb-vc: split register transfer address exceeds the frontdoor address " ++
      "width: " ++ h.descriptor.path))

def requireBackdoor : Except Error Unit :=
  throwIf (!h.hasBackdoor)
    (.logicError ("cpptb-vc: register has no backdoor adapter: " ++ h.descriptor.path))

def enforceWriteAccess : Except Error Unit := do
  throwIf (!h.descriptor.hasWritableField)
    (.logicError ("cpptb-vc: register is not writable: " ++ h.descriptor.path))
  throwIf (h.writtenOnceMask ≠ 0 ∧ h.descriptor.writeOnceOnly)
    (.logicError ("cpptb-vc: write-once register was already written: " ++ h.descriptor.path))

end Metadata

section Construction

/-- The reset value and what of it is known. -/
def reset (h : RegisterHandle bus) : RegisterHandle bus :=
  let value := h.descriptor.resetValue &&& h.descriptor.resetMask &&& h.widthMask
  let valid := h.descriptor.resetMask &&& h.widthMask
  { h with
    staged := value
    mirrored := value
    stagedValidMask := valid
    mirroredValidMask := valid
    writtenOnceMask := 0 }

/-- The constructor. -/
def make (bus : BusTypes) (descriptor : RegisterDescriptor) (baseAddress : UInt64)
    (userEffects : Option UserEffectPolicy) (hasBackdoor : Bool) :
    Except Error (RegisterHandle bus) := do
  throwIf (2 ^ 64 - 1 - descriptor.address.toNat < baseAddress.toNat)
    (.invalidArgument ("cpptb-vc: register base plus offset overflows: " ++ descriptor.path))
  let effectiveAddress := wrap (baseAddress.toNat + descriptor.address.toNat)
  descriptor.validateFieldLayout
  throwIf (descriptor.width % 8 = 0 ∧ 2 ^ 64 - 1 - effectiveAddress < descriptor.width / 8)
    (.invalidArgument ("cpptb-vc: register address range overflows: " ++ descriptor.path))
  throwIf (bus.addressMax < effectiveAddress)
    (.invalidArgument ("cpptb-vc: register address exceeds frontdoor address width: " ++
      descriptor.path))
  pure (reset
    { descriptor, userEffects, hasBackdoor, effectiveAddress
      autoPredict := true
      staged := 0
      mirrored := 0
      stagedValidMask := 0
      mirroredValidMask := 0
      writtenOnceMask := 0 })

end Construction

section Prediction

/-- What a write makes of one field: its effect, or what the policy says of a user effect. -/
def effectedWrite (h : RegisterHandle bus) (written : Word) (state : Word × Word)
    (field : FieldDescriptor) : Word × Word :=
  match field.writeEffect, h.userEffects with
  | .user, some policy =>
    let fieldMask := registerMask field.width
    let result := policy.predictWriteField h.descriptor field
      ((state.1 >>> field.lsb) &&& fieldMask) ((state.2 >>> field.lsb) &&& fieldMask)
      ((written >>> field.lsb) &&& fieldMask)
    ((state.1 &&& ~~~registerFieldMask field) ||| ((result.1 &&& fieldMask) <<< field.lsb),
      (state.2 &&& ~~~registerFieldMask field) ||| ((result.2 &&& fieldMask) <<< field.lsb))
  | _, _ => (applyWriteEffect state.1 written field, applyWriteValidMask state.2 written field)

/-- One value where the mask is set, another elsewhere. -/
def blend (mask : Word) (inside outside : Word) : Word := (outside &&& ~~~mask) ||| (inside &&& mask)

/-- One field of `predict_write_masked`: the enabled bits that are not yet written once. -/
def predictWriteField (h : RegisterHandle bus) (value enabled : Word) (state : Word × Word)
    (field : FieldDescriptor) : Word × Word :=
  let fieldEnabled := registerFieldMask field &&& enabled &&& ~~~h.writtenOnceMask
  if !registerWritable field.access ∨ fieldEnabled = 0 then state
  else
    let effected := h.effectedWrite value state field
    (blend fieldEnabled effected.1 state.1, blend fieldEnabled effected.2 state.2)

def predictWriteMasked (h : RegisterHandle bus) (value enabledMask : Word) : RegisterHandle bus :=
  let enabled := enabledMask &&& h.widthMask
  if h.descriptor.fields.isEmpty then
    let next := blend enabled value h.mirrored &&& h.widthMask
    let nextValid := (h.mirroredValidMask ||| enabled) &&& h.widthMask
    { h with
      mirrored := next
      staged := next
      mirroredValidMask := nextValid
      stagedValidMask := nextValid }
  else
    let next := h.descriptor.fields.foldl (h.predictWriteField value enabled)
      (h.mirrored, h.mirroredValidMask)
    let mask := h.writableMask &&& enabled
    { h with
      mirrored := next.1 &&& h.widthMask
      staged := blend mask next.1 h.staged &&& h.widthMask
      mirroredValidMask := next.2 &&& h.widthMask
      stagedValidMask := blend mask next.2 h.stagedValidMask &&& h.widthMask
      writtenOnceMask := h.writtenOnceMask ||| (h.writeOnceMask &&& enabled) }

/-- What a read makes of one field that has been sampled. -/
def effectedRead (h : RegisterHandle bus) (value sampled : Word) (state : Word × Word)
    (field : FieldDescriptor) : Word × Word :=
  match field.readEffect, h.userEffects with
  | .user, some policy =>
    let fieldMask := registerMask field.width
    let result := policy.predictReadField h.descriptor field
      ((state.1 >>> field.lsb) &&& fieldMask) ((state.2 >>> field.lsb) &&& fieldMask)
      ((value >>> field.lsb) &&& fieldMask)
    ((sampled &&& ~~~registerFieldMask field) ||| ((result.1 &&& fieldMask) <<< field.lsb),
      (state.2 &&& ~~~registerFieldMask field) ||| ((result.2 &&& fieldMask) <<< field.lsb))
  | _, _ => (applyReadEffect sampled field, applyReadValidMask state.2 field)

/-- The mirrored and the staged value, and their valid bits, during a read prediction. -/
structure ReadState where
  next : Word
  nextValid : Word
  stagedNext : Word
  stagedNextValid : Word

def predictReadField (h : RegisterHandle bus) (value enabled : Word) (state : ReadState)
    (field : FieldDescriptor) : ReadState :=
  let fieldEnabled := registerFieldMask field &&& enabled
  if !registerReadable field.access ∨ fieldEnabled = 0 then state
  else
    let sampled := blend fieldEnabled value state.next
    let effected := h.effectedRead value sampled (state.next, state.nextValid) field
    let next := blend fieldEnabled effected.1 state.next
    let nextValid := blend fieldEnabled effected.2 state.nextValid
    ⟨next, nextValid, blend fieldEnabled next state.stagedNext,
      blend fieldEnabled nextValid state.stagedNextValid⟩

def predictReadMasked (h : RegisterHandle bus) (value enabledMask : Word) : RegisterHandle bus :=
  let enabled := enabledMask &&& h.widthMask
  if enabled = 0 then h
  else if h.descriptor.fields.isEmpty then
    let mirrored := blend enabled value h.mirrored
    { h with
      mirrored := mirrored
      staged := blend enabled mirrored h.staged
      mirroredValidMask := h.mirroredValidMask ||| enabled
      stagedValidMask := h.stagedValidMask ||| enabled }
  else
    let state := h.descriptor.fields.foldl (h.predictReadField value enabled)
      ⟨h.mirrored, h.mirroredValidMask, h.staged, h.stagedValidMask⟩
    { h with
      mirrored := state.next &&& h.widthMask
      staged := state.stagedNext &&& h.widthMask
      mirroredValidMask := state.nextValid &&& h.widthMask
      stagedValidMask := state.stagedNextValid &&& h.widthMask }

/-- `RegisterPrediction`. -/
inductive Prediction where
  | direct
  | read
  | write
  deriving DecidableEq, Repr

def predict (h : RegisterHandle bus) (value : Word) (prediction : Prediction) :
    Except Error (RegisterHandle bus) := do
  h.requireSupportedAccess
  if prediction = .direct ∨ (h.descriptor.fields.isEmpty ∧ prediction = .read) then
    pure { h with
      mirrored := value &&& h.widthMask
      staged := value &&& h.widthMask
      mirroredValidMask := h.widthMask
      stagedValidMask := h.widthMask }
  else if prediction = .write then pure (h.predictWriteMasked value h.widthMask)
  else pure (h.predictReadMasked value h.widthMask)

/-- The bits of the enabled bytes, of the first `bytes`. -/
def enabledBytesMask (bytes : ℕ) (byteEnable : BitVec bus.byteEnableBits) : Word :=
  (List.range bytes).foldl (fun enabled index =>
    if byteEnable.getLsbD index then enabled ||| ((0xff : Word) <<< (index * 8)) else enabled) 0

def predictWrite (h : RegisterHandle bus) (value : Word) (byteEnable : BitVec bus.byteEnableBits) :
    Except Error (RegisterHandle bus) := do
  h.requireSupportedAccess
  pure (h.predictWriteMasked value (enabledBytesMask (h.descriptor.width / 8) byteEnable))

def endAddress (h : RegisterHandle bus) : ℕ := wrap (h.effectiveAddress + h.descriptor.width / 8)

def isTransferAddress (h : RegisterHandle bus) (address : ℕ) : Bool :=
  decide (h.effectiveAddress ≤ address) && decide (address < h.endAddress) &&
    (address - h.effectiveAddress) % h.descriptor.transferBytes == 0

def requireTransferAddress (h : RegisterHandle bus) (address : UInt64) : Except Error ℕ := do
  h.requireSupportedAccess
  throwIf (!h.isTransferAddress address.toNat)
    (.logicError ("cpptb-vc: register predictor transaction is not aligned to an " ++
      "accesswidth transfer: " ++ h.descriptor.path ++ " address=" ++ toString address.toNat))
  pure ((address.toNat - h.effectiveAddress) / h.descriptor.transferBytes)

def predictTransferRead (h : RegisterHandle bus) (address : UInt64) (value : BitVec bus.dataBits) :
    Except Error (RegisterHandle bus) := do
  let transfer ← h.requireTransferAddress address
  let bitOffset := h.descriptor.transferBitOffset transfer
  pure (h.predictReadMasked (value.setWidth 64 <<< bitOffset) (h.chunkMask <<< bitOffset))

def predictTransferWrite (h : RegisterHandle bus) (address : UInt64) (value : BitVec bus.dataBits)
    (byteEnable : BitVec bus.byteEnableBits) : Except Error (RegisterHandle bus) := do
  let transfer ← h.requireTransferAddress address
  let bitOffset := h.descriptor.transferBitOffset transfer
  let mask := enabledBytesMask h.descriptor.transferBytes byteEnable <<< bitOffset
  pure (h.predictWriteMasked (value.setWidth 64 <<< bitOffset) mask)

end Prediction

section Staging

def needsUpdate (h : RegisterHandle bus) : Bool :=
  h.stagedValidMask &&& h.writableMask &&& ((h.staged ^^^ h.mirrored) ||| ~~~h.mirroredValidMask) ≠ 0

def stage (h : RegisterHandle bus) (value : Word) : Except Error (RegisterHandle bus) := do
  h.requireSupportedAccess
  if h.descriptor.fields.isEmpty then
    pure { h with staged := value &&& h.widthMask, stagedValidMask := h.widthMask }
  else
    pure { h with
      staged := h.descriptor.fields.foldl (fun next field =>
        if registerWritable field.access then insertField next (value >>> field.lsb) field else next)
        h.staged
      stagedValidMask := h.stagedValidMask ||| h.writableMask }

/-- `RegisterFieldHandle::stage`. -/
def stageField (h : RegisterHandle bus) (field : FieldDescriptor) (value : Word) :
    Except Error (RegisterHandle bus) := do
  throwIf (!registerWritable field.access)
    (.logicError ("cpptb-vc: field is not writable: " ++ field.path))
  h.requireSupportedAccess
  pure { h with
    staged := insertField h.staged value field
    stagedValidMask := h.stagedValidMask ||| registerFieldMask field }

/-- The bits that one writable field puts into the staged write. -/
def stagedFieldWrite (h : RegisterHandle bus) (field : FieldDescriptor) : Word :=
  match field.writeEffect, h.userEffects with
  | .user, some policy =>
    let fieldMask := registerMask field.width
    let encoded := policy.encodeWriteField h.descriptor field
      ((h.mirrored >>> field.lsb) &&& fieldMask) ((h.mirroredValidMask >>> field.lsb) &&& fieldMask)
      ((h.staged >>> field.lsb) &&& fieldMask)
    (encoded &&& fieldMask) <<< field.lsb
  | _, _ => encodeStagedWrite h.mirrored h.mirroredValidMask h.staged field

def stagedWriteValue (h : RegisterHandle bus) : Word :=
  if h.descriptor.fields.isEmpty then h.staged
  else h.descriptor.fields.foldl (fun written field =>
    if registerWritable field.access then written ||| h.stagedFieldWrite field else written) 0

/-- `PredictedWriteState`. -/
structure PredictedWriteState where
  value : Word
  validMask : Word
  deriving DecidableEq, Repr

/-- One field of `predicted_write_state`: a field of which no bit is written once. -/
def predictedField (h : RegisterHandle bus) (written : Word) (state : Word × Word)
    (field : FieldDescriptor) : Word × Word :=
  if registerWritable field.access ∧ h.writtenOnceMask &&& registerFieldMask field = 0 then
    h.effectedWrite written state field
  else state

def predictedWriteState (h : RegisterHandle bus) (written : Word) : PredictedWriteState :=
  if h.descriptor.fields.isEmpty then ⟨written &&& h.widthMask, h.widthMask⟩
  else
    let next := h.descriptor.fields.foldl (h.predictedField written)
      (h.mirrored, h.mirroredValidMask)
    ⟨next.1 &&& h.widthMask, next.2 &&& h.widthMask⟩

def commitPredictedWriteState (h : RegisterHandle bus) (predicted : PredictedWriteState) :
    RegisterHandle bus :=
  let mask := h.writableMask &&& h.widthMask
  { h with
    staged := blend mask predicted.value h.staged
    stagedValidMask := blend mask predicted.validMask h.stagedValidMask
    mirrored := predicted.value &&& h.widthMask
    mirroredValidMask := predicted.validMask &&& h.widthMask
    writtenOnceMask := h.writtenOnceMask ||| (h.writeOnceMask &&& h.widthMask) }

end Staging

section Frontdoor

/-- The transfer of a chunk of a value. -/
def writeRequest (h : RegisterHandle bus) (value : Word) (transfer target : ℕ) : WriteRequest bus where
  address := BitVec.ofNat _ target
  data := ((value >>> h.descriptor.transferBitOffset transfer) &&& h.chunkMask).setWidth _
  byteEnable := h.allBytes

def readRequest (target : ℕ) : ReadRequest bus := ⟨BitVec.ofNat _ target⟩

/-- What a frontdoor operation leaves: the handle, the requests that the master has seen, how many
transfers succeeded, how they ended, and the warnings of the test. -/
structure Access (bus : BusTypes) (R : Type) where
  handle : RegisterHandle bus
  requests : List R
  completed : ℕ
  ending : Ending
  warnings : List String := []

/-- An operation that throws before its first transfer. -/
def threw {R : Type} (h : RegisterHandle bus) (error : Error) (warnings : List String := []) :
    Access bus R := ⟨h, [], 0, .threw error, warnings⟩

/-- The transfers of a written value: `predicted` is what a transfer that succeeds makes of the
handle. -/
def writeTransfers (h : RegisterHandle bus) (map : Option RegisterAddressMap) (value : Word)
    (respond : ℕ → WriteRequest bus → Option Unit)
    (predicted : ℕ → RegisterHandle bus → RegisterHandle bus) :
    Transfers (WriteRequest bus) (RegisterHandle bus) :=
  transferLoop (h.transferAddress map) (h.writeRequest value) respond
    (fun transfer _ state => if state.autoPredict then predicted transfer state else state)
    h.descriptor.transferCount 0 h

/-- `write_unlocked`. -/
def write (h : RegisterHandle bus) (value : Word) (map : Option RegisterAddressMap)
    (respond : ℕ → WriteRequest bus → Option Unit) : Access bus (WriteRequest bus) :=
  match h.enforceWriteAccess, h.requireSupportedAccess with
  | .error error, _ => threw h error
  | .ok (), .error error => threw h error
  | .ok (), .ok () =>
    let masked := value &&& h.widthMask
    let transfers := h.writeTransfers map masked respond fun transfer state =>
      state.predictWriteMasked masked (h.chunkMask <<< h.descriptor.transferBitOffset transfer)
    ⟨transfers.state, transfers.requests, transfers.completed, transfers.ending, []⟩

/-- The writable bits that are not known to be staged. -/
def unknownStaged (h : RegisterHandle bus) : Word := h.writableMask &&& ~~~h.stagedValidMask

/-- Whether the predicted state is the staged one, with certainty. -/
def reaches (h : RegisterHandle bus) (predicted : PredictedWriteState) : Bool :=
  let mask := h.writableMask &&& h.stagedValidMask
  decide ((predicted.value ^^^ h.staged) &&& mask = 0) && decide (predicted.validMask &&& mask = mask)

def unreachableWarning (h : RegisterHandle bus) (predicted : PredictedWriteState) : String :=
  let mask := h.writableMask &&& h.stagedValidMask
  "register update cannot reach the requested staged state: " ++ h.descriptor.path ++ " requested=" ++
    toString (h.staged &&& mask).toNat ++ " reachable=" ++ toString (predicted.value &&& mask).toNat

/-- What a transfer of an update that succeeds makes of the handle. -/
def predictUpdate (writeValue : Word) (reachable : PredictedWriteState) (transfer : ℕ)
    (h : RegisterHandle bus) : RegisterHandle bus :=
  if h.descriptor.transferCount = 1 then h.commitPredictedWriteState reachable
  else h.predictWriteMasked writeValue (h.chunkMask <<< h.descriptor.transferBitOffset transfer)

/-- `update_locked`. -/
def update (h : RegisterHandle bus) (map : Option RegisterAddressMap)
    (respond : ℕ → WriteRequest bus → Option Unit) : Access bus (WriteRequest bus) :=
  match h.requireSupportedAccess with
  | .error error => threw h error
  | .ok () =>
    if !h.needsUpdate then ⟨h, [], 0, .okay, []⟩
    else if h.unknownStaged ≠ 0 then
      threw h (.logicError ("cpptb-vc: register update has unknown staged writable bits: " ++
        h.descriptor.path ++ " mask=" ++ toString h.unknownStaged.toNat ++
        "; set the register, read it, or predict it first"))
    else
      let writeValue := h.stagedWriteValue
      let reachable := h.predictedWriteState writeValue
      let warnings := if h.reaches reachable then [] else [h.unreachableWarning reachable]
      match h.enforceWriteAccess with
      | .error error => threw h error warnings
      | .ok () =>
        let transfers := h.writeTransfers map writeValue respond (predictUpdate writeValue reachable)
        ⟨transfers.state, transfers.requests, transfers.completed, transfers.ending, warnings⟩

/-- The data of a read and which of its bits are known. -/
structure ReadData where
  data : Word
  validMask : Word
  deriving DecidableEq, Repr

/-- `frontdoor_read`, and the loop of `read_locked`. -/
def readTransfers (h : RegisterHandle bus) (map : Option RegisterAddressMap)
    (respond : ℕ → ReadRequest bus → Option (BitVec bus.dataBits)) :
    Transfers (ReadRequest bus) ReadData :=
  transferLoop (h.transferAddress map) (fun _ target => readRequest target) respond
    (fun transfer data read =>
      let bitOffset := h.descriptor.transferBitOffset transfer
      let enabled := h.chunkMask <<< bitOffset
      ⟨(read.data &&& ~~~enabled) ||| ((data.setWidth 64 &&& h.chunkMask) <<< bitOffset),
        read.validMask ||| enabled⟩)
    h.descriptor.transferCount 0 ⟨0, 0⟩

/-- `read_locked`, and `mirror_locked` without its check: both predict what has been read, also when a
later transfer failed. -/
def read (h : RegisterHandle bus) (map : Option RegisterAddressMap)
    (respond : ℕ → ReadRequest bus → Option (BitVec bus.dataBits)) :
    Access bus (ReadRequest bus) × ReadData :=
  if !h.descriptor.hasReadableField then
    (threw h (.logicError ("cpptb-vc: register is not readable: " ++ h.descriptor.path)), ⟨0, 0⟩)
  else
    match h.requireSupportedAccess with
    | .error error => (threw h error, ⟨0, 0⟩)
    | .ok () =>
      let transfers := h.readTransfers map respond
      let predicted := match transfers.ending with
        | .threw _ => h
        | .okay | .failed _ =>
          if h.autoPredict then h.predictReadMasked transfers.state.data transfers.state.validMask
          else h
      (⟨predicted, transfers.requests, transfers.completed, transfers.ending, []⟩, transfers.state)

/-- The bits that `mirror` compares, with what it expects there. -/
def mirrorCheck (h : RegisterHandle bus) (read : ReadData) : Word × Word × Word :=
  let compareMask := h.nonvolatileMask &&& h.widthMask &&& h.mirroredValidMask &&& read.validMask
  (compareMask, read.data &&& compareMask, h.mirrored &&& compareMask)

/-- `peek` and `poke`: the value that the backdoor has read, or writes. -/
def backdoorAccess (h : RegisterHandle bus) (value : Word) : Except Error (RegisterHandle bus) := do
  h.requireBackdoor
  h.predict value .direct

end Frontdoor

end RegisterHandle

end Cpptb.RegisterModel
