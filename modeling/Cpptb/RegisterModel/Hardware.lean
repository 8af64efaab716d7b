/-
Hardware behind a register handle.

A `Device` implements one register: bit by bit it does what the field of the bit declares, its access,
its read effect and its write effect, and it answers the transfers of its own addresses. What no
descriptor says is left open: what volatile fields become (`drift`), what is read where nothing is
readable (`floating`), what user effects do, and which bits are tied to a constant (`tied`). A
`Bench` is a device with its contents and the handle of its register.

* `held`: what a bit reads as, once it has settled.
* `read_device`, `write_device`: a frontdoor access through the handle, on a bus whose transfers all
  succeed, reads and writes the device as one word would be read and written.
* `peek_device`, `poke_device`: the same of the backdoor.
-/

import Cpptb.RegisterModel.Predictor
import Cpptb.RegisterModel.Shortcut

namespace Cpptb.RegisterModel

open Cpptb.Vc (RegisterAccess registerReadable registerWritable RegisterEndianness wrap)
open Cpptb.Regions (foldl_keeps foldl_sets)

/-! ### Words from bits -/

/-- The word of the given bits. -/
def ofBits (bit : ℕ → Bool) : Word := BitVec.ofFnLE fun i : Fin 64 => bit i

theorem getLsbD_ofBits (bit : ℕ → Bool) {i : ℕ} (inWord : i < 64) :
    (ofBits bit).getLsbD i = bit i := by
  rw [ofBits, BitVec.getLsbD_ofFnLE, dif_pos inWord]

/-! ### Devices -/

section Devices

namespace RegisterDescriptor

variable (descriptor : RegisterDescriptor)

/-- The field of a bit. -/
def fieldAt (i : ℕ) : Option FieldDescriptor :=
  descriptor.fields.find? fun field => decide (i ∈ field.region)

/-- The bit can be read. -/
def readableAt (i : ℕ) : Bool :=
  descriptor.fields.isEmpty || (descriptor.fieldAt i).any fun field => registerReadable field.access

/-- The bit may change by itself. -/
def volatileAt (i : ℕ) : Bool := (descriptor.fieldAt i).any fun field => field.volatileValue

/-- The bits of a transfer. -/
def lanes (transfer : ℕ) : Set ℕ :=
  {i | descriptor.transferBitOffset transfer ≤ i ∧
    i < descriptor.transferBitOffset transfer + descriptor.transferWidth}

instance (transfer i : ℕ) : Decidable (i ∈ descriptor.lanes transfer) :=
  inferInstanceAs (Decidable (_ ∧ _))

end RegisterDescriptor

/-- One register of the hardware. Time is counted in accesses. -/
structure Device where
  descriptor : RegisterDescriptor
  address : ℕ
  drift : ℕ → Word → ℕ → Bool
  floating : ℕ → ℕ → Bool
  userRead : Word → ℕ → Bool
  userWrite : Word → Bool → ℕ → Bool
  tied : ℕ → Option Bool

/-- What a register holds: its bits, which bits of write-once fields have been written, how often it
has been accessed, how many transfers have written it, and how many deposits. -/
structure Contents where
  storage : Word
  spent : Word
  accesses : ℕ
  writes : ℕ
  deposits : ℕ
  deriving DecidableEq, Repr

/-- How many transfers and deposits have written the register. -/
def Contents.written (c : Contents) : ℕ × ℕ := (c.writes, c.deposits)

namespace Device

variable {bus : BusTypes} (d : Device)

/-- A bit that is tied to a constant is never anything else. -/
def forced (i : ℕ) (bit : Bool) : Bool := (d.tied i).getD bit

/-- What a bit reads as, unless it drifts. -/
def held (c : Contents) (i : ℕ) : Bool := d.forced i (c.storage.getLsbD i)

/-- The time up to an access has passed. -/
def settle (c : Contents) : Contents where
  storage := ofBits fun i => d.forced i
    (if d.descriptor.volatileAt i then d.drift c.accesses c.storage i else c.storage.getLsbD i)
  spent := c.spent
  accesses := c.accesses + 1
  writes := c.writes
  deposits := c.deposits

/-- What a read finds at a bit. -/
def readBit (c : Contents) (i : ℕ) : Bool :=
  if d.descriptor.readableAt i then c.storage.getLsbD i else d.floating c.accesses i

/-- What a read leaves at a bit. -/
def readEffectAt (c : Contents) (i : ℕ) : Bool :=
  match d.descriptor.fieldAt i with
  | some field =>
    if registerReadable field.access then
      match field.readEffect with
      | .none => c.storage.getLsbD i
      | .clear => false
      | .set => true
      | .user => d.userRead c.storage i
    else c.storage.getLsbD i
  | none => c.storage.getLsbD i

/-- What a write leaves at a bit. Where a register declares fields, the bits of no field are reserved. -/
def writeEffectAt (c : Contents) (written : Bool) (i : ℕ) : Bool :=
  match d.descriptor.fieldAt i with
  | some field =>
    if registerWritable field.access ∧ ¬ (field.writeOnce ∧ c.spent.getLsbD i) then
      match field.writeEffect with
      | .user => d.userWrite c.storage written i
      | effect => writeEffectBit (c.storage.getLsbD i) written effect
    else c.storage.getLsbD i
  | none => if d.descriptor.fields.isEmpty then written else c.storage.getLsbD i

/-- A write uses up the bit of a write-once field. -/
def spentAt (c : Contents) (i : ℕ) : Bool :=
  c.spent.getLsbD i || (d.descriptor.fieldAt i).any (·.writeOnce)

/-- The addresses of the register. -/
def Selects (address : ℕ) : Prop :=
  d.address ≤ address ∧ address < d.address + d.descriptor.width / 8

instance (address : ℕ) : Decidable (d.Selects address) := inferInstanceAs (Decidable (_ ∧ _))

/-- The transfer of an address. -/
def transferAt (address : ℕ) : ℕ := (address - d.address) / d.descriptor.transferBytes

/-- A read of the bus: the data, and what it leaves. -/
def readTransfer (request : ReadRequest bus) (c : Contents) : BitVec bus.dataBits × Contents :=
  let c := d.settle c
  let transfer := d.transferAt request.address.toNat
  let offset := d.descriptor.transferBitOffset transfer
  (BitVec.ofFnLE fun j : Fin bus.dataBits =>
      if j.val < d.descriptor.transferWidth then d.readBit c (offset + j.val)
      else d.floating c.accesses (offset + j.val),
    { c with storage := ofBits fun i =>
        if i ∈ d.descriptor.lanes transfer then d.readEffectAt c i else c.storage.getLsbD i })

/-- A write of the bus. -/
def writeTransfer (request : WriteRequest bus) (c : Contents) : Contents :=
  let c := d.settle c
  let transfer := d.transferAt request.address.toNat
  let offset := d.descriptor.transferBitOffset transfer
  let enabled := fun i => i ∈ d.descriptor.lanes transfer ∧ request.byteEnable.getLsbD ((i - offset) / 8)
  { c with
    storage := ofBits fun i =>
      if enabled i then d.writeEffectAt c (request.data.getLsbD (i - offset)) i
      else c.storage.getLsbD i
    spent := ofBits fun i => if enabled i then d.spentAt c i else c.spent.getLsbD i
    writes := c.writes + 1 }

/-- The register ignores the addresses of other registers. -/
def read (request : ReadRequest bus) (c : Contents) : BitVec bus.dataBits × Contents :=
  if d.Selects request.address.toNat then d.readTransfer request c
  else (BitVec.ofFnLE fun j : Fin bus.dataBits => d.floating c.accesses j.val, c)

def write (request : WriteRequest bus) (c : Contents) : Contents :=
  if d.Selects request.address.toNat then d.writeTransfer request c else c

/-- `peek` of the backdoor. -/
def sample (c : Contents) : Word × Contents :=
  let c := d.settle c
  (c.storage &&& registerMask d.descriptor.width, c)

/-- `poke` of the backdoor. -/
def deposit (value : Word) (c : Contents) : Contents :=
  let c := d.settle c
  { c with
    storage := ofBits fun i => if i < d.descriptor.width then value.getLsbD i else c.storage.getLsbD i
    deposits := c.deposits + 1 }

end Device

end Devices

/-! ### One access, bit by bit -/

section Bits

namespace RegisterDescriptor

variable (descriptor : RegisterDescriptor)

/-- A read leaves the bit as it is. -/
def Quiet (i : ℕ) : Prop :=
  ∀ field, descriptor.fieldAt i = some field → registerReadable field.access = true →
    field.readEffect = .none

/-- A write replaces the bit. -/
def Plain (i : ℕ) : Prop :=
  descriptor.fields = [] ∨
    ∃ field, descriptor.fieldAt i = some field ∧ field.access = .readWrite ∧ field.writeEffect = .none

/-- A write leaves the bit as it is. -/
def Fixed (i : ℕ) : Prop :=
  descriptor.fields ≠ [] ∧
    ∀ field, descriptor.fieldAt i = some field → registerWritable field.access = false

end RegisterDescriptor

namespace Device

variable {bus : BusTypes} {d : Device} {c : Contents} {i : ℕ}

/-- The bit does not change by itself. -/
def Calm (d : Device) (i : ℕ) : Prop :=
  d.descriptor.volatileAt i = false ∨ ∀ time storage, d.drift time storage i = storage.getLsbD i

@[simp] theorem forced_forced (bit : Bool) : d.forced i (d.forced i bit) = d.forced i bit := by
  unfold forced
  cases d.tied i <;> rfl

@[simp] theorem forced_held : d.forced i (d.held c i) = d.held c i := forced_forced _

theorem storage_settle (calm : d.Calm i) (inWord : i < 64) :
    (d.settle c).storage.getLsbD i = d.held c i := by
  unfold settle
  rw [getLsbD_ofBits _ inWord]
  rcases calm with stable | still
  · rw [stable, if_neg Bool.false_ne_true]
    rfl
  · rw [still, ite_self]
    rfl

theorem held_settle (calm : d.Calm i) (inWord : i < 64) : d.held (d.settle c) i = d.held c i := by
  rw [held, storage_settle calm inWord, forced_held]

theorem readEffectAt_eq (quiet : d.descriptor.Quiet i) : d.readEffectAt c i = c.storage.getLsbD i := by
  unfold readEffectAt
  split
  next field found =>
    split
    next readable => rw [quiet field found readable]
    next => rfl
  next => rfl

theorem writeEffectAt_plain (plain : d.descriptor.Plain i) (written : Bool) :
    d.writeEffectAt c written i = written := by
  unfold writeEffectAt
  rcases plain with fieldless | ⟨field, found, access, effect⟩
  · have none : d.descriptor.fieldAt i = none := by
      rw [RegisterDescriptor.fieldAt, fieldless]
      rfl
    rw [none, fieldless]
    rfl
  · have once : field.writeOnce = false := by
      rw [FieldDescriptor.writeOnce, access]
      rfl
    simp only [found]
    rw [if_pos ⟨by rw [access]; rfl, by simp [once]⟩, effect]
    rfl

theorem writeEffectAt_fixed (fixed : d.descriptor.Fixed i) (written : Bool) :
    d.writeEffectAt c written i = c.storage.getLsbD i := by
  unfold writeEffectAt
  split
  next field found => rw [if_neg (by simp [fixed.2 field found])]
  next => rw [if_neg (by simp [fixed.1])]

theorem held_readTransfer (request : ReadRequest bus) (calm : d.Calm i)
    (quiet : d.descriptor.Quiet i) (inWord : i < 64) :
    d.held (d.readTransfer request c).2 i = d.held c i := by
  unfold readTransfer
  rw [held]
  dsimp only
  rw [getLsbD_ofBits _ inWord, readEffectAt_eq quiet, ite_self]
  exact held_settle calm inWord

theorem held_read (request : ReadRequest bus) (calm : d.Calm i) (quiet : d.descriptor.Quiet i)
    (inWord : i < 64) : d.held (d.read request c).2 i = d.held c i := by
  unfold read
  split
  · exact held_readTransfer request calm quiet inWord
  · rfl

/-- A write at a bit of none of its lanes, or at one that a write leaves. -/
theorem held_writeTransfer_kept (request : WriteRequest bus) (calm : d.Calm i) (inWord : i < 64)
    (kept : i ∉ d.descriptor.lanes (d.transferAt request.address.toNat) ∨ d.descriptor.Fixed i) :
    d.held (d.writeTransfer request c) i = d.held c i := by
  unfold writeTransfer
  rw [held]
  dsimp only
  rw [getLsbD_ofBits _ inWord]
  split
  next enabled =>
    rw [writeEffectAt_fixed (kept.resolve_left (not_not_intro enabled.1))]
    exact held_settle calm inWord
  next => exact held_settle calm inWord

theorem held_writeTransfer_plain (request : WriteRequest bus) (inWord : i < 64)
    (plain : d.descriptor.Plain i)
    (inside : i ∈ d.descriptor.lanes (d.transferAt request.address.toNat))
    (enabled : request.byteEnable.getLsbD
      ((i - d.descriptor.transferBitOffset (d.transferAt request.address.toNat)) / 8) = true) :
    d.held (d.writeTransfer request c) i = d.forced i (request.data.getLsbD
      (i - d.descriptor.transferBitOffset (d.transferAt request.address.toNat))) := by
  unfold writeTransfer
  rw [held]
  dsimp only
  rw [getLsbD_ofBits _ inWord, if_pos ⟨inside, enabled⟩, writeEffectAt_plain plain]

theorem held_sample (calm : d.Calm i) (inWord : i < 64) : d.held (d.sample c).2 i = d.held c i :=
  held_settle calm inWord

theorem getLsbD_sample (calm : d.Calm i) (inWord : i < 64) (inside : i < d.descriptor.width) :
    (d.sample c).1.getLsbD i = d.held c i := by
  unfold sample
  rw [BitVec.getLsbD_and, getLsbD_registerMask _ inWord, decide_eq_true inside, Bool.and_true]
  exact storage_settle calm inWord

theorem held_deposit (value : Word) (inWord : i < 64) (inside : i < d.descriptor.width) :
    d.held (d.deposit value c) i = d.forced i (value.getLsbD i) := by
  unfold deposit
  rw [held]
  dsimp only
  rw [getLsbD_ofBits _ inWord, if_pos inside]

end Device

end Bits

/-! ### Benches -/

section Benches

variable {bus : BusTypes}

/-- A register: its handle, the device behind it, and what that holds. -/
structure Bench (bus : BusTypes) where
  handle : RegisterHandle bus
  device : Device
  contents : Contents

namespace Bench

/-- The handle is the device's, its accesses are supported, and it has a backdoor. -/
structure Ready (b : Bench bus) : Prop where
  constructed : ∃ base, b.handle.Constructed base
  supported : b.handle.requireSupportedAccess = .ok ()
  backdoor : b.handle.hasBackdoor = true
  descriptor : b.device.descriptor = b.handle.descriptor
  address : b.device.address = b.handle.effectiveAddress

/-- The request of a transfer of a read. -/
def plannedRead (b : Bench bus) (transfer : ℕ) : ReadRequest bus :=
  RegisterHandle.readRequest
    (wrap (b.handle.effectiveAddress + transfer * b.handle.descriptor.transferBytes))

/-- What the device holds before a transfer of a read. -/
def beforeRead (b : Bench bus) (transfer : ℕ) : Contents :=
  ((List.range transfer).map b.plannedRead).foldl (fun c request => (b.device.read request c).2)
    b.contents

/-- A frontdoor read. The bus succeeds, and answers each transfer with what the device then has. -/
def read (b : Bench bus) : RegisterHandle.Access bus (ReadRequest bus) × RegisterHandle.ReadData :=
  b.handle.read none fun transfer request =>
    some (b.device.read request (b.beforeRead transfer)).1

/-- What a frontdoor read leaves. -/
def afterRead (b : Bench bus) : Bench bus :=
  { b with
    handle := b.read.1.handle
    contents := b.read.1.requests.foldl (fun c request => (b.device.read request c).2) b.contents }

/-- A frontdoor write. The bus succeeds. -/
def write (b : Bench bus) (value : Word) : RegisterHandle.Access bus (WriteRequest bus) :=
  b.handle.write value none fun _ _ => some ()

/-- What a frontdoor write leaves. -/
def afterWrite (b : Bench bus) (value : Word) : Bench bus :=
  { b with
    handle := (b.write value).handle
    contents := (b.write value).requests.foldl (fun c request => b.device.write request c) b.contents }

/-- `peek`. -/
def peek (b : Bench bus) : Except Error (Word × Bench bus) := do
  let (value, contents) := b.device.sample b.contents
  let handle ← b.handle.backdoorAccess value
  pure (value, { b with handle := handle, contents := contents })

/-- `poke`. -/
def poke (b : Bench bus) (value : Word) : Except Error (Bench bus) := do
  let contents := b.device.deposit value b.contents
  let handle ← b.handle.backdoorAccess value
  pure { b with handle := handle, contents := contents }

end Bench

end Benches

/-! ### The transfers of an access -/

section Transfers

variable {bus : BusTypes} {R D S : Type}

/-- Transfers whose addresses are found and whose requests are answered. -/
theorem transferLoop_okay {address : ℕ → Except Error ℕ} {request : ℕ → ℕ → R}
    {respond : ℕ → R → Option D} (complete : ℕ → D → S → S) {target : ℕ → ℕ} {answer : ℕ → D}
    (located : ∀ k, address k = .ok (target k))
    (answered : ∀ k, respond k (request k (target k)) = some (answer k)) (remaining transfer : ℕ)
    (state : S) :
    transferLoop address request respond complete remaining transfer state =
      ⟨(List.range' transfer remaining).map fun k => request k (target k), remaining,
        (List.range' transfer remaining).foldl (fun s k => complete k (answer k) s) state, .okay⟩ := by
  induction remaining generalizing transfer state with
  | zero => rfl
  | succ remaining ih =>
    rw [transferLoop, located]
    dsimp only
    rw [answered]
    dsimp only
    rw [ih, List.range'_succ, List.map_cons, List.foldl_cons]

section Lanes

variable {descriptor : RegisterDescriptor} {i : ℕ}

theorem transferCount_mul (divides : descriptor.width % descriptor.transferWidth = 0) :
    descriptor.transferCount * descriptor.transferWidth = descriptor.width :=
  Nat.div_mul_cancel (Nat.dvd_of_mod_eq_zero divides)

/-- The chunk of a transfer. -/
def chunkOf (descriptor : RegisterDescriptor) (transfer : ℕ) : ℕ :=
  match descriptor.endianness with
  | .little => transfer
  | .big => descriptor.transferCount - transfer - 1

theorem mem_lanes {transfer : ℕ} : i ∈ descriptor.lanes transfer ↔
    chunkOf descriptor transfer * descriptor.transferWidth ≤ i ∧
      i < chunkOf descriptor transfer * descriptor.transferWidth + descriptor.transferWidth := Iff.rfl

theorem chunkOf_lt {transfer : ℕ} (below : transfer < descriptor.transferCount) :
    chunkOf descriptor transfer < descriptor.transferCount := by
  unfold chunkOf
  split <;> omega

theorem chunkOf_chunkOf {transfer : ℕ} (below : transfer < descriptor.transferCount) :
    chunkOf descriptor (chunkOf descriptor transfer) = transfer := by
  unfold chunkOf
  split
  next => rfl
  next => dsimp only; omega

variable (divides : descriptor.width % descriptor.transferWidth = 0)

include divides

/-- Every bit belongs to a transfer. -/
theorem lane_of_lt (positive : 0 < descriptor.transferWidth) (inside : i < descriptor.width) :
    ∃ transfer < descriptor.transferCount, i ∈ descriptor.lanes transfer := by
  have below : i / descriptor.transferWidth < descriptor.transferCount := by
    rw [Nat.div_lt_iff_lt_mul positive, transferCount_mul divides]
    exact inside
  refine ⟨chunkOf descriptor (i / descriptor.transferWidth), chunkOf_lt below, ?_⟩
  rw [mem_lanes, chunkOf_chunkOf below]
  exact ⟨Nat.div_mul_le_self i _, Nat.lt_div_mul_add positive⟩

theorem lanes_inside {transfer : ℕ} (below : transfer < descriptor.transferCount)
    (inside : i ∈ descriptor.lanes transfer) : i < descriptor.width := by
  have most := Nat.mul_le_mul_right descriptor.transferWidth (Nat.succ_le_of_lt (chunkOf_lt below))
  rw [Nat.succ_mul, transferCount_mul divides] at most
  exact lt_of_lt_of_le (mem_lanes.mp inside).2 most

omit divides in
/-- A bit belongs to one transfer at most. -/
theorem lane_unique {transfer transfer' : ℕ} (below : transfer < descriptor.transferCount)
    (below' : transfer' < descriptor.transferCount) (inside : i ∈ descriptor.lanes transfer)
    (inside' : i ∈ descriptor.lanes transfer') : transfer = transfer' := by
  have index : ∀ {k}, i ∈ descriptor.lanes k → i / descriptor.transferWidth = chunkOf descriptor k := by
    intro k here
    refine Nat.div_eq_of_lt_le (mem_lanes.mp here).1 ?_
    rw [Nat.succ_mul]
    exact (mem_lanes.mp here).2
  rw [← chunkOf_chunkOf below, ← index inside, index inside', chunkOf_chunkOf below']

end Lanes

end Transfers

/-! ### The accesses of a bench -/

section Accesses

variable {bus : BusTypes}

namespace Bench

variable {b : Bench bus} {i : ℕ}

/-- The fixed parts of a bench. -/
structure Same (b b' : Bench bus) : Prop where
  register : RegisterHandle.SameRegister b.handle b'.handle
  backdoor : b'.handle.hasBackdoor = b.handle.hasBackdoor
  device : b'.device = b.device

theorem Same.refl (b : Bench bus) : Same b b := ⟨⟨rfl, rfl⟩, rfl, rfl⟩

theorem Same.trans {b₁ b₂ b₃ : Bench bus} (first : Same b₁ b₂) (second : Same b₂ b₃) : Same b₁ b₃ :=
  ⟨⟨second.register.descriptor.trans first.register.descriptor,
      second.register.effectiveAddress.trans first.register.effectiveAddress⟩,
    second.backdoor.trans first.backdoor, second.device.trans first.device⟩

theorem Ready.congr {b' : Bench bus} (ready : b.Ready) (same : Same b b') : b'.Ready where
  constructed := by
    obtain ⟨base, h₀, userEffects, hasBackdoor, made, address⟩ := ready.constructed
    refine ⟨base, h₀, userEffects, hasBackdoor, ?_, same.register.effectiveAddress.trans address⟩
    rw [same.register.descriptor]
    exact made
  supported := same.register.supported.trans ready.supported
  backdoor := same.backdoor.trans ready.backdoor
  descriptor := by rw [same.device, same.register.descriptor, ready.descriptor]
  address := by rw [same.device, same.register.effectiveAddress, ready.address]

section Shapes

variable (ready : b.Ready)

include ready

theorem Ready.shape : RegisterPredictor.Supported b.handle :=
  RegisterPredictor.supported_of_ok ready.supported

theorem Ready.narrow : b.handle.descriptor.width ≤ 64 := ready.shape.width.2.2

theorem Ready.inWord (inside : i < b.handle.descriptor.width) : i < 64 :=
  lt_of_lt_of_le inside ready.narrow

theorem Ready.transferWidth_pos : 0 < b.handle.descriptor.transferWidth :=
  Nat.pos_of_ne_zero ready.shape.transferWidth.1

theorem Ready.fits : b.handle.descriptor.transferWidth ≤ bus.dataBits := by
  obtain ⟨-, ok⟩ := after_throwIf ready.supported
  obtain ⟨split, -⟩ := after_throwIf ok
  simp only [not_or, not_lt] at split
  exact split.2.2.2.2

/-- The address of a transfer is exact on the bus. -/
theorem Ready.toNat_target {transfer : ℕ} (below : transfer < b.handle.descriptor.transferCount) :
    (BitVec.ofNat bus.addressBits (wrap (b.handle.effectiveAddress
      + transfer * b.handle.descriptor.transferBytes))).toNat =
      b.handle.effectiveAddress + transfer * b.handle.descriptor.transferBytes := by
  obtain ⟨base, constructed⟩ := ready.constructed
  have planned := constructed.direct ready.supported
    (base.toNat + b.handle.descriptor.address.toNat + transfer * b.handle.descriptor.transferBytes)
    (List.mem_map_of_mem (List.mem_range'_1.mpr ⟨Nat.zero_le _, by omega⟩))
  have bound := addressMax_lt bus
  rw [← constructed.effectiveAddress_eq.1] at planned
  rw [wrap_of_lt (by omega), toNat_address planned]

/-- The device recognises the transfer by its address. -/
theorem Ready.selects {transfer : ℕ} (below : transfer < b.handle.descriptor.transferCount) :
    b.device.Selects (b.handle.effectiveAddress + transfer * b.handle.descriptor.transferBytes) ∧
      b.device.transferAt (b.handle.effectiveAddress + transfer * b.handle.descriptor.transferBytes)
        = transfer := by
  obtain ⟨nonzero, aligned, -, divides⟩ := ready.shape.transferWidth
  have span := transfers_span b.handle.descriptor divides aligned (by omega)
  have bytes := Nat.pos_of_ne_zero ready.shape.transferBytes_ne_zero
  have before : transfer * b.handle.descriptor.transferBytes < b.handle.descriptor.width / 8 := by
    rw [← span]
    exact Nat.mul_lt_mul_of_pos_right below bytes
  rw [Device.Selects, Device.transferAt, ready.descriptor, ready.address, Nat.add_sub_cancel_left,
    Nat.mul_div_cancel _ bytes]
  exact ⟨⟨by omega, by omega⟩, rfl⟩

/-- The transfer of a bit. -/
theorem Ready.lane (inside : i < b.handle.descriptor.width) :
    ∃ transfer < b.handle.descriptor.transferCount, i ∈ b.handle.descriptor.lanes transfer :=
  lane_of_lt ready.shape.transferWidth.2.2.2 ready.transferWidth_pos inside

end Shapes

section Reading

/-- The data of a transfer, as a field of the register. -/
def laneField (descriptor : RegisterDescriptor) (transfer : ℕ) : FieldDescriptor where
  path := descriptor.path
  lsb := descriptor.transferBitOffset transfer
  width := descriptor.transferWidth

/-- What a transfer adds to what has been read. -/
def gather (b : Bench bus) (answer : ℕ → BitVec bus.dataBits) (read : RegisterHandle.ReadData)
    (transfer : ℕ) : RegisterHandle.ReadData :=
  let bitOffset := b.handle.descriptor.transferBitOffset transfer
  let enabled := b.handle.chunkMask <<< bitOffset
  ⟨(read.data &&& ~~~enabled) |||
      (((answer transfer).setWidth 64 &&& b.handle.chunkMask) <<< bitOffset),
    read.validMask ||| enabled⟩

/-- A bit of what has been read, and whether it is valid. -/
def seen (read : RegisterHandle.ReadData) (i : ℕ) : Bool × Bool :=
  (read.data.getLsbD i, read.validMask.getLsbD i)

theorem seen_gather (answer : ℕ → BitVec bus.dataBits) (read : RegisterHandle.ReadData) (transfer : ℕ)
    (inWord : i < 64) : seen (b.gather answer read transfer) i =
      if i ∈ b.handle.descriptor.lanes transfer then
        ((answer transfer).getLsbD (i - b.handle.descriptor.transferBitOffset transfer), true)
      else seen read i := by
  have data := getLsbD_placed read.data ((answer transfer).setWidth 64)
    (laneField b.handle.descriptor transfer) inWord
  have enabled := getLsbD_registerFieldMask (laneField b.handle.descriptor transfer) inWord
  have valid : (b.gather answer read transfer).validMask.getLsbD i = (read.validMask.getLsbD i
      || (registerFieldMask (laneField b.handle.descriptor transfer)).getLsbD i) := BitVec.getLsbD_or
  by_cases inside : i ∈ b.handle.descriptor.lanes transfer
  · have here : i ∈ (laneField b.handle.descriptor transfer).region := inside
    rw [if_pos here, BitVec.getLsbD_setWidth, laneField, decide_eq_true (by omega), Bool.true_and] at data
    rw [decide_eq_true here] at enabled
    rw [if_pos inside]
    exact Prod.ext data (by rw [seen, valid, enabled, Bool.or_true])
  · have outside : i ∉ (laneField b.handle.descriptor transfer).region := inside
    rw [if_neg outside] at data
    rw [decide_eq_false outside] at enabled
    rw [if_neg inside]
    exact Prod.ext data (by rw [seen, valid, enabled, Bool.or_false, seen])

/-- What the device answers to a transfer of a read. -/
def answer (b : Bench bus) (transfer : ℕ) : BitVec bus.dataBits :=
  (b.device.read (b.plannedRead transfer) (b.beforeRead transfer)).1

/-- The transfers of a read, one after the other. -/
theorem readTransfers_eq (b : Bench bus) :
    b.handle.readTransfers none (fun transfer request =>
        some (b.device.read request (b.beforeRead transfer)).1) =
      ⟨(List.range b.handle.descriptor.transferCount).map b.plannedRead,
        b.handle.descriptor.transferCount,
        (List.range b.handle.descriptor.transferCount).foldl (b.gather b.answer) ⟨0, 0⟩, .okay⟩ := by
  have located : ∀ transfer, b.handle.transferAddress none transfer = .ok
      (wrap (b.handle.effectiveAddress + transfer * b.handle.descriptor.transferBytes)) := fun _ => rfl
  have answered : ∀ transfer, some (b.device.read (b.plannedRead transfer) (b.beforeRead transfer)).1
      = some (b.answer transfer) := fun _ => rfl
  rw [List.range_eq_range']
  exact transferLoop_okay _ located answered _ 0 _

theorem predictReadMasked_hasBackdoor (h : RegisterHandle bus) (value enabled : Word) :
    (h.predictReadMasked value enabled).hasBackdoor = h.hasBackdoor := by
  simp only [RegisterHandle.predictReadMasked]
  split_ifs <;> rfl

/-- What reads keep of a bit. -/
theorem held_foldl_read (d : Device) (requests : List (ReadRequest bus)) (calm : d.Calm i)
    (quiet : d.descriptor.Quiet i) (inWord : i < 64) (c : Contents) :
    d.held (requests.foldl (fun c request => (d.read request c).2) c) i = d.held c i :=
  foldl_keeps (d.held · i) (fun request _ _ => Device.held_read request calm quiet inWord) c

/-- A read writes nothing. -/
theorem writes_foldl_read (d : Device) (requests : List (ReadRequest bus)) (c : Contents) :
    (requests.foldl (fun c request => (d.read request c).2) c).written = c.written := by
  refine foldl_keeps Contents.written (fun request _ c => ?_) c
  unfold Device.read
  split <;> rfl

/-- What a read has gathered in the end. -/
def gathered (b : Bench bus) : RegisterHandle.ReadData :=
  (List.range b.handle.descriptor.transferCount).foldl (b.gather b.answer) ⟨0, 0⟩

theorem Ready.seen_gathered (ready : b.Ready) {transfer : ℕ}
    (below : transfer < b.handle.descriptor.transferCount)
    (inside : i ∈ b.handle.descriptor.lanes transfer) : seen b.gathered i =
      ((b.answer transfer).getLsbD (i - b.handle.descriptor.transferBitOffset transfer), true) := by
  have inWord := ready.inWord (lanes_inside ready.shape.transferWidth.2.2.2 below inside)
  -- the other transfers have other bits
  refine foldl_sets (seen · i) (fun k member different read => ?_) (fun read => ?_)
    (List.mem_range.mpr below) _
  · have outside : i ∉ b.handle.descriptor.lanes k :=
      fun here => different (lane_unique (List.mem_range.mp member) below here inside)
    rw [seen_gather _ _ _ inWord, if_neg outside]
  · rw [seen_gather _ _ _ inWord, if_pos inside]

/-- The answer at a bit that can be read, and that the transfers before it have left alone. -/
theorem Ready.getLsbD_answer (ready : b.Ready) {transfer : ℕ}
    (below : transfer < b.handle.descriptor.transferCount)
    (inside : i ∈ b.handle.descriptor.lanes transfer) (calm : b.device.Calm i)
    (quiet : b.device.descriptor.Quiet i) (readable : b.device.descriptor.readableAt i = true) :
    (b.answer transfer).getLsbD (i - b.handle.descriptor.transferBitOffset transfer)
      = b.device.held b.contents i := by
  have inWord := ready.inWord (lanes_inside ready.shape.transferWidth.2.2.2 below inside)
  have fits := ready.fits
  have within : i - b.handle.descriptor.transferBitOffset transfer
      < b.handle.descriptor.transferWidth := by
    have := inside.1
    have := inside.2
    omega
  have address : (b.plannedRead transfer).address.toNat = b.handle.effectiveAddress
      + transfer * b.handle.descriptor.transferBytes := ready.toNat_target below
  obtain ⟨selected, at_transfer⟩ := ready.selects below
  rw [answer, Device.read, if_pos (address ▸ selected), Device.readTransfer, address, at_transfer]
  dsimp only
  rw [BitVec.getLsbD_ofFnLE, dif_pos (by omega), ready.descriptor, if_pos within,
    Nat.add_sub_cancel' inside.1, Device.readBit, if_pos readable, Device.storage_settle calm inWord]
  exact held_foldl_read _ _ calm quiet inWord _

/-- **A frontdoor read.** It succeeds, all bits of the register are valid, and where nothing changes by
itself or through the read, the data is what the device holds and goes on holding. -/
theorem Ready.read_device (ready : b.Ready) (readable : b.handle.descriptor.hasReadableField = true) :
    b.read.1.ending = .okay ∧ Same b b.afterRead ∧
      b.afterRead.contents.written = b.contents.written ∧
      (∀ i < b.handle.descriptor.width, b.read.2.validMask.getLsbD i = true) ∧
      (∀ i < b.handle.descriptor.width, b.device.Calm i → b.device.descriptor.Quiet i →
        b.device.held b.afterRead.contents i = b.device.held b.contents i ∧
        (b.device.descriptor.readableAt i = true →
          b.read.2.data.getLsbD i = b.device.held b.contents i)) := by
  have ran : b.read = (⟨if b.handle.autoPredict then b.handle.predictReadMasked b.gathered.data
      b.gathered.validMask else b.handle,
      (List.range b.handle.descriptor.transferCount).map b.plannedRead,
      b.handle.descriptor.transferCount, .okay, []⟩, b.gathered) := by
    rw [Bench.read, RegisterHandle.read, if_neg (by simp [readable]), ready.supported]
    simp only [readTransfers_eq]
    rfl
  have handle : RegisterHandle.SameRegister b.handle b.read.1.handle ∧
      b.read.1.handle.hasBackdoor = b.handle.hasBackdoor := by
    rw [ran]
    dsimp only
    split_ifs
    · exact ⟨b.handle.predictReadMasked_same _ _, predictReadMasked_hasBackdoor _ _ _⟩
    · exact ⟨⟨rfl, rfl⟩, rfl⟩
  refine ⟨by rw [ran], ⟨handle.1, handle.2, rfl⟩, writes_foldl_read _ _ _, ?_, ?_⟩
  · intro i inside
    obtain ⟨transfer, below, lane⟩ := ready.lane inside
    rw [ran]
    exact congrArg Prod.snd (ready.seen_gathered below lane)
  · intro i inside calm quiet
    have inWord := ready.inWord inside
    refine ⟨held_foldl_read _ _ calm quiet inWord _, fun readableAt => ?_⟩
    obtain ⟨transfer, below, lane⟩ := ready.lane inside
    rw [ran]
    refine (congrArg Prod.fst (ready.seen_gathered below lane)).trans ?_
    exact ready.getLsbD_answer below lane calm quiet readableAt

end Reading

section Writing

theorem getLsbD_allBytes {h : RegisterHandle bus} (wide : 8 ≤ bus.byteEnableBits) {byte : ℕ}
    (inside : byte < h.descriptor.transferBytes) (inWord : byte < 8) : h.allBytes.getLsbD byte = true := by
  unfold RegisterHandle.allBytes
  rw [BitVec.getLsbD_ofNat, decide_eq_true (by omega), Bool.true_and]
  split
  · rw [Nat.testBit_two_pow_sub_one]
    exact decide_eq_true (by omega)
  · rw [Nat.testBit_two_pow_sub_one]
    exact decide_eq_true inside

/-- The request of a transfer of a write. -/
def plannedWrite (b : Bench bus) (value : Word) (transfer : ℕ) : WriteRequest bus :=
  b.handle.writeRequest (value &&& b.handle.widthMask) transfer
    (wrap (b.handle.effectiveAddress + transfer * b.handle.descriptor.transferBytes))

/-- What a transfer of a write leaves of a bit. -/
theorem Ready.held_plannedWrite (ready : b.Ready) (wide : 8 ≤ bus.byteEnableBits) (value : Word)
    {transfer : ℕ} (below : transfer < b.handle.descriptor.transferCount) (calm : b.device.Calm i)
    (inside : i < b.handle.descriptor.width) (c : Contents) :
    (i ∉ b.handle.descriptor.lanes transfer ∨ b.device.descriptor.Fixed i →
      b.device.held (b.device.write (b.plannedWrite value transfer) c) i = b.device.held c i) ∧
    (i ∈ b.handle.descriptor.lanes transfer → b.device.descriptor.Plain i →
      b.device.held (b.device.write (b.plannedWrite value transfer) c) i
        = b.device.forced i (value.getLsbD i)) := by
  have inWord := ready.inWord inside
  have address : (b.plannedWrite value transfer).address.toNat = b.handle.effectiveAddress
      + transfer * b.handle.descriptor.transferBytes := ready.toNat_target below
  obtain ⟨selected, at_transfer⟩ := ready.selects below
  have at_address : b.device.transferAt (b.plannedWrite value transfer).address.toNat = transfer := by
    rw [address, at_transfer]
  rw [Device.write, if_pos (address ▸ selected)]
  constructor
  · intro kept
    refine Device.held_writeTransfer_kept _ calm inWord ?_
    rw [at_address, ready.descriptor]
    rwa [ready.descriptor] at kept
  · intro lane plain
    have fits := ready.fits
    obtain ⟨-, aligned, most, -⟩ := ready.shape.transferWidth
    have narrow := ready.narrow
    obtain ⟨start, stop⟩ := lane
    have byte : (b.plannedWrite value transfer).byteEnable.getLsbD
        ((i - b.handle.descriptor.transferBitOffset transfer) / 8) = true := by
      refine getLsbD_allBytes wide ?_ (by omega)
      unfold RegisterDescriptor.transferBytes
      omega
    have data : (b.plannedWrite value transfer).data.getLsbD
        (i - b.handle.descriptor.transferBitOffset transfer) = value.getLsbD i := by
      show (((value &&& b.handle.widthMask) >>> b.handle.descriptor.transferBitOffset transfer
        &&& b.handle.chunkMask).setWidth bus.dataBits).getLsbD _ = _
      rw [BitVec.getLsbD_setWidth, BitVec.getLsbD_and, BitVec.getLsbD_ushiftRight,
        Nat.add_sub_cancel' start, BitVec.getLsbD_and, RegisterHandle.getLsbD_widthMask inWord,
        RegisterHandle.chunkMask, getLsbD_registerMask _ (by omega), decide_eq_true inside,
        decide_eq_true (by omega), decide_eq_true (by omega), Bool.true_and, Bool.and_true, Bool.and_true]
    rw [Device.held_writeTransfer_plain _ inWord plain] <;> rw [at_address, ready.descriptor]
    · rw [data]
    · exact ⟨start, stop⟩
    · exact byte

theorem predictWriteMasked_hasBackdoor (h : RegisterHandle bus) (value enabled : Word) :
    (h.predictWriteMasked value enabled).hasBackdoor = h.hasBackdoor := by
  simp only [RegisterHandle.predictWriteMasked]
  split_ifs <;> rfl

/-- What a frontdoor write leaves of its handle. -/
theorem write_same (b : Bench bus) (value : Word) (accepted : b.handle.enforceWriteAccess = .ok ())
    (supported : b.handle.requireSupportedAccess = .ok ()) :
    (b.write value).ending = .okay ∧
      (b.write value).requests
        = (List.range b.handle.descriptor.transferCount).map (b.plannedWrite value) ∧
      RegisterHandle.SameRegister b.handle (b.write value).handle ∧
      (b.write value).handle.hasBackdoor = b.handle.hasBackdoor := by
  have located : ∀ transfer, b.handle.transferAddress none transfer = .ok
      (wrap (b.handle.effectiveAddress + transfer * b.handle.descriptor.transferBytes)) := fun _ => rfl
  rw [Bench.write, RegisterHandle.write, accepted, supported]
  dsimp only
  refine ⟨?_, ?_, ?_⟩
  · exact congrArg Transfers.ending (transferLoop_okay _ located (fun _ => by rfl) _ 0 _)
  · rw [List.range_eq_range']
    exact congrArg Transfers.requests (transferLoop_okay _ located (fun _ => by rfl) _ 0 _)
  · refine transferLoop_state (P := fun h => RegisterHandle.SameRegister b.handle h ∧
      h.hasBackdoor = b.handle.hasBackdoor) _ _ _ _ (fun transfer _ state same => ?_) _ _ _
        ⟨⟨rfl, rfl⟩, rfl⟩
    dsimp only
    split
    · obtain ⟨⟨descriptor, address⟩, backdoor⟩ := same
      obtain ⟨descriptor', address'⟩ := state.predictWriteMasked_same (value &&& b.handle.widthMask)
        (b.handle.chunkMask <<< b.handle.descriptor.transferBitOffset transfer)
      exact ⟨⟨descriptor'.trans descriptor, address'.trans address⟩,
        (predictWriteMasked_hasBackdoor _ _ _).trans backdoor⟩
    · exact same

theorem deposits_write (d : Device) (request : WriteRequest bus) (c : Contents) :
    (d.write request c).deposits = c.deposits := by
  unfold Device.write
  split <;> rfl

/-- **A frontdoor write.** It succeeds, it goes to the register alone, and where nothing changes by
itself it replaces the bits of plain fields and leaves those that cannot be written. -/
theorem Ready.write_device (ready : b.Ready) (wide : 8 ≤ bus.byteEnableBits) (value : Word)
    (accepted : b.handle.enforceWriteAccess = .ok ()) :
    (b.write value).ending = .okay ∧ Same b (b.afterWrite value) ∧
      (b.afterWrite value).contents.deposits = b.contents.deposits ∧
      (∀ request ∈ (b.write value).requests, b.device.Selects request.address.toNat) ∧
      (∀ i < b.handle.descriptor.width, b.device.Calm i →
        (b.device.descriptor.Plain i → b.device.held (b.afterWrite value).contents i
          = b.device.forced i (value.getLsbD i)) ∧
        (b.device.descriptor.Fixed i → b.device.held (b.afterWrite value).contents i
          = b.device.held b.contents i)) := by
  obtain ⟨ending, requests, register, backdoor⟩ := b.write_same value accepted ready.supported
  refine ⟨ending, ⟨register, backdoor, rfl⟩, ?_, ?_, ?_⟩
  · exact foldl_keeps Contents.deposits (fun request _ c => deposits_write _ request c) _
  · intro request member
    rw [requests] at member
    obtain ⟨transfer, below, rfl⟩ := List.mem_map.mp member
    have below := List.mem_range.mp below
    exact (ready.toNat_target below).symm ▸ (ready.selects below).1
  · intro i inside calm
    have spec : ∀ transfer ∈ List.range b.handle.descriptor.transferCount, _ :=
      fun transfer member =>
        ready.held_plannedWrite wide value (List.mem_range.mp member) calm inside
    have contents : (b.afterWrite value).contents = (List.range b.handle.descriptor.transferCount).foldl
        (fun c transfer => b.device.write (b.plannedWrite value transfer) c) b.contents := by
      rw [afterWrite, requests, List.foldl_map]
    rw [contents]
    refine ⟨fun plain => ?_, fun fixed => ?_⟩
    · obtain ⟨transfer, below, lane⟩ := ready.lane inside
      refine foldl_sets (b.device.held · i) (fun k member different c => ?_) (fun c => ?_)
        (List.mem_range.mpr below) _
      · exact (spec k member c).1 (.inl fun here => different
          (lane_unique (List.mem_range.mp member) below here lane))
      · exact (spec transfer (List.mem_range.mpr below) c).2 lane plain
    · exact foldl_keeps (b.device.held · i) (fun k member c => (spec k member c).1 (.inr fixed)) _

end Writing

section Backdoors

theorem Ready.backdoorAccess (ready : b.Ready) (value : Word) :
    ∃ handle, b.handle.backdoorAccess value = .ok handle ∧
      RegisterHandle.SameRegister b.handle handle ∧ handle.hasBackdoor = b.handle.hasBackdoor := by
  unfold RegisterHandle.backdoorAccess RegisterHandle.requireBackdoor RegisterHandle.predict
  rw [throwIf_of_not (by simp [ready.backdoor]), ready.supported]
  exact ⟨_, rfl, ⟨rfl, rfl⟩, rfl⟩

/-- **A backdoor read.** -/
theorem Ready.peek_device (ready : b.Ready) : ∃ value b', b.peek = .ok (value, b') ∧ Same b b' ∧
    b'.contents.written = b.contents.written ∧
    ∀ i < b.handle.descriptor.width, b.device.Calm i → value.getLsbD i = b.device.held b.contents i ∧
      b.device.held b'.contents i = b.device.held b.contents i := by
  obtain ⟨handle, predicted, register, backdoor⟩ := ready.backdoorAccess (b.device.sample b.contents).1
  refine ⟨(b.device.sample b.contents).1,
    { b with handle := handle, contents := (b.device.sample b.contents).2 }, ?_,
    ⟨register, backdoor, rfl⟩, rfl, ?_⟩
  · rw [peek]
    dsimp only
    rw [predicted]
    rfl
  · intro i inside calm
    have inWord := ready.inWord inside
    exact ⟨Device.getLsbD_sample calm inWord (by rw [ready.descriptor]; exact inside),
      Device.held_sample calm inWord⟩

/-- **A backdoor write.** -/
theorem Ready.poke_device (ready : b.Ready) (value : Word) : ∃ b', b.poke value = .ok b' ∧ Same b b' ∧
    b'.contents.writes = b.contents.writes ∧
    ∀ i < b.handle.descriptor.width,
      b.device.held b'.contents i = b.device.forced i (value.getLsbD i) := by
  obtain ⟨handle, predicted, register, backdoor⟩ := ready.backdoorAccess value
  refine ⟨{ b with handle := handle, contents := b.device.deposit value b.contents }, ?_,
    ⟨register, backdoor, rfl⟩, rfl, ?_⟩
  · rw [poke, predicted]
    rfl
  · intro i inside
    exact Device.held_deposit value (ready.inWord inside) (by rw [ready.descriptor]; exact inside)

end Backdoors


end Bench

end Accesses

end Cpptb.RegisterModel
