/-
The bus addresses of the frontdoors.

Every handle computes its addresses in 64 bits and narrows them to the address type of the bus. An
access is `Faithful` when the master sees the exact addresses, and sees none where one of them does not
fit. The handles check different addresses beforehand:

* a register without a map has checked its last transfer (`faithful_register`);
* a narrow memory checks its last element, with and without a map (`fits_of_supported`);
* in a map only the first transfer of a register or of an element is checked, and a wide memory without
  a map checks nothing but 64 bits, so that later transfers may be truncated or wrap.

`bus_addresses_exact` says for each handle exactly which accesses are faithful.
-/

import Cpptb.RegisterModel.MemoryRanges
import Cpptb.RegisterModel.WideHandle

namespace Cpptb.RegisterModel

open Cpptb.Vc (RegisterAccess registerReadable registerWritable RegisterEndianness wrap)
open Cpptb.Bursts

section Exact

/-- An access: the exact address of each of its transfers, the addresses that the master has seen, and
whether it threw. -/
structure BusAccess where
  planned : List ℕ
  addresses : List ℕ
  threw : Bool
  deriving DecidableEq, Repr

namespace BusAccess

variable {bus : BusTypes} {access : BusAccess}

/-- No address is truncated or wrapped: the master sees the exact addresses, and an access of which one
does not fit throws before its first transfer. -/
def Faithful (bus : BusTypes) (access : BusAccess) : Prop :=
  access.addresses <+: access.planned ∧
    ((∃ address ∈ access.planned, bus.addressMax < address) →
      access.addresses = [] ∧ access.threw = true)

/-- All exact addresses fit the bus. -/
def Fits (bus : BusTypes) (planned : List ℕ) : Prop := ∀ address ∈ planned, address ≤ bus.addressMax

/-- The first exact address does not. -/
def FirstMisses (bus : BusTypes) (planned : List ℕ) : Prop :=
  ∃ address, planned.head? = some address ∧ bus.addressMax < address

theorem faithful_iff (right : Fits bus access.planned → access.addresses <+: access.planned) :
    access.Faithful bus ↔ Fits bus access.planned ∨ (access.addresses = [] ∧ access.threw = true) := by
  constructor
  · rintro ⟨-, refused⟩
    by_cases fits : Fits bus access.planned
    · exact .inl fits
    · unfold Fits at fits
      push Not at fits
      exact .inr (refused fits)
  · rintro (fits | ⟨none, threw⟩)
    · exact ⟨right fits, fun ⟨address, member, beyond⟩ => absurd (fits address member) (by omega)⟩
    · exact ⟨none ▸ List.nil_prefix, fun _ => ⟨none, threw⟩⟩

end BusAccess

theorem addressMax_lt (bus : BusTypes) : bus.addressMax < 2 ^ 64 := by
  have := Nat.pow_le_pow_right (show 0 < 2 by omega) bus.address_le
  have := Nat.two_pow_pos bus.addressBits
  unfold BusTypes.addressMax
  omega

/-- An address that fits is not truncated. -/
theorem toNat_address {bus : BusTypes} {address : ℕ} (fits : address ≤ bus.addressMax) :
    (BitVec.ofNat bus.addressBits address).toNat = address := by
  rw [BitVec.toNat_ofNat, Nat.mod_eq_of_lt]
  have := Nat.two_pow_pos bus.addressBits
  unfold BusTypes.addressMax at fits
  omega

theorem wrap_of_lt {value : ℕ} (small : value < 2 ^ 64) : wrap value = value := Nat.mod_eq_of_lt small

end Exact

section Maps

variable {bus : BusTypes} {map : RegisterAddressMap}

/-- The exact address of a register in a map. -/
def RegisterAddressMap.exact (map : RegisterAddressMap) (descriptor : RegisterDescriptor) : ℕ :=
  map.baseAddress.toNat + (RegisterAddressMap.offset map.routes descriptor.object descriptor.address).toNat

/-- The exact address of an element in a map. -/
def RegisterAddressMap.exactElement (map : RegisterAddressMap) (descriptor : RegisterMemoryDescriptor)
    (index : ℕ) : ℕ :=
  map.baseAddress.toNat
    + (RegisterAddressMap.offset map.memoryRoutes descriptor.object descriptor.address).toNat
    + index * (descriptor.width.toNat / 8)

theorem effectiveAddress_of_fits {descriptor : RegisterDescriptor}
    (fits : map.exact descriptor ≤ bus.addressMax) :
    map.effectiveAddress bus descriptor = .ok (map.exact descriptor) := by
  have := addressMax_lt bus
  unfold RegisterAddressMap.exact at fits ⊢
  unfold RegisterAddressMap.effectiveAddress
  dsimp only
  rw [throwIf_of_not (by omega), wrap_of_lt (by omega), throwIf_of_not (by omega)]
  rfl

theorem effectiveAddress_of_misses {descriptor : RegisterDescriptor}
    (misses : bus.addressMax < map.exact descriptor) :
    ∃ error, map.effectiveAddress bus descriptor = .error error := by
  unfold RegisterAddressMap.exact at misses
  have := map.baseAddress.toNat_lt
  unfold RegisterAddressMap.effectiveAddress
  dsimp only
  by_cases overflows : 2 ^ 64 - 1 - map.baseAddress.toNat <
      (RegisterAddressMap.offset map.routes descriptor.object descriptor.address).toNat
  · rw [throwIf_of overflows]
    exact ⟨_, rfl⟩
  · rw [throwIf_of_not overflows, wrap_of_lt (by omega), throwIf_of misses]
    exact ⟨_, rfl⟩

variable {descriptor : RegisterMemoryDescriptor} {index : UInt64} (bus) (map)

/-- The address of an element in a map is the exact one, where that fits the bus, and throws where it
does not. -/
theorem elementAddress_spec (proper : ¬ (descriptor.width = 0 ∨ descriptor.width % 8 ≠ 0))
    (inside : index < descriptor.entries) :
    (map.exactElement descriptor index.toNat ≤ bus.addressMax ∧
      ∃ address, map.elementAddress bus descriptor index = .ok address ∧
        address.toNat = map.exactElement descriptor index.toNat) ∨
    (bus.addressMax < map.exactElement descriptor index.toNat ∧
      ∃ error, map.elementAddress bus descriptor index = .error error) := by
  have maxBound := addressMax_lt bus
  have baseBound := map.baseAddress.toNat_lt
  unfold RegisterAddressMap.exactElement RegisterAddressMap.elementAddress
  dsimp only
  rw [throwIf_of_not proper, throwIf_of_not (by simpa using inside)]
  generalize RegisterAddressMap.offset map.memoryRoutes descriptor.object descriptor.address = offset
  have bytes := toNat_bytes descriptor
  have positive := bytes_pos proper
  have offsetBound := toNat_sub_max offset
  have := offset.toNat_lt
  by_cases outside : (uint64Max - offset) / descriptor.bytes < index
  · rw [throwIf_of (.inl outside)]
    rw [UInt64.lt_iff_toNat_lt, UInt64.toNat_div, Nat.div_lt_iff_lt_mul (by omega), offsetBound, bytes]
      at outside
    exact .inr ⟨by omega, _, rfl⟩
  · obtain ⟨product, product_le⟩ := toNat_mul_of_le (UInt64.not_lt.mp outside)
    have sum : (offset + index * descriptor.bytes).toNat
        = offset.toNat + index.toNat * (descriptor.width.toNat / 8) := by
      rw [UInt64.toNat_add, product, bytes, Nat.mod_eq_of_lt (by rw [bytes] at product_le; omega)]
    by_cases beyond : uint64Max - map.baseAddress < offset + index * descriptor.bytes
    · rw [throwIf_of (.inr beyond)]
      rw [UInt64.lt_iff_toNat_lt, toNat_sub_max, sum] at beyond
      exact .inr ⟨by omega, _, rfl⟩
    · rw [throwIf_of_not (not_or.mpr ⟨outside, beyond⟩)]
      rw [UInt64.lt_iff_toNat_lt, toNat_sub_max, sum] at beyond
      have exact : (map.baseAddress + offset + index * descriptor.bytes).toNat = map.baseAddress.toNat
          + offset.toNat + index.toNat * (descriptor.width.toNat / 8) := by
        rw [UInt64.add_assoc, UInt64.toNat_add, sum, Nat.mod_eq_of_lt (by omega), Nat.add_assoc]
      by_cases fits : bus.addressMax < (map.baseAddress + offset + index * descriptor.bytes).toNat
      · refine .inr ⟨exact ▸ fits, ?_⟩
        show ∃ error, (throwIf _ _ >>= _) = _
        rw [throwIf_of fits]
        exact ⟨_, rfl⟩
      · refine .inl ⟨exact ▸ Nat.not_lt.mp fits, _, ?_, exact⟩
        show (throwIf _ _ >>= _) = _
        rw [throwIf_of_not fits]
        rfl

end Maps

section Issues

variable {bus : BusTypes} {R D V S F : Type} {addressOf : R → ℕ}

/-- The access of a burst. -/
def BusAccess.ofBurst (planned : List ℕ) (addressOf : R → ℕ) (result : Burst R V S Error F) :
    BusAccess where
  planned := planned
  addresses := result.requests.map addressOf
  threw := match result.ending with
    | .threw _ => true
    | .okay | .failed _ => false

/-- The access of the transfers of a register. -/
def BusAccess.ofTransfers (planned : List ℕ) (addressOf : R → ℕ) (ending : Ending) (requests : List R) :
    BusAccess where
  planned := planned
  addresses := requests.map addressOf
  threw := match ending with
    | .threw _ => true
    | .okay | .failed _ => false

/-- The transfers of a register are a burst whose responder counts them. -/
theorem ofTransfers_transferLoop (planned : List ℕ) (address : ℕ → Except Error ℕ)
    (request : ℕ → ℕ → R) (respond : ℕ → R → Option D) (complete : ℕ → D → S → S)
    (remaining transfer : ℕ) (state : S) :
    let loop := transferLoop address request respond complete remaining transfer state
    BusAccess.ofTransfers planned addressOf loop.ending loop.requests =
      .ofBurst planned addressOf (burst address request (fun k r => (respond k r, k + 1)) complete ()
        remaining transfer state transfer) := by
  induction remaining generalizing transfer state with
  | zero => rfl
  | succ remaining ih =>
    rw [burst, transferLoop]
    cases address transfer with
    | error error => rfl
    | ok target =>
      dsimp only
      cases respond transfer (request transfer target) with
      | none => rfl
      | some data =>
        obtain ⟨-, addresses, threw⟩ :=
          BusAccess.mk.inj (ih (transfer + 1) (complete transfer data state))
        exact congrArg₂ (BusAccess.mk planned)
          (congrArg (addressOf (request transfer target) :: ·) addresses) threw

/-- Transfers from one place on: faithful where all of them fit, or where finding the place throws. -/
theorem faithful_transferLoop (bus : BusTypes) (place : Except Error ℕ) (exact bytes count : ℕ)
    {request : ℕ → ℕ → R}
    (carries : ∀ transfer target,
      addressOf (request transfer target) = (BitVec.ofNat bus.addressBits target).toNat)
    (found : exact ≤ bus.addressMax → place = .ok exact) (respond : ℕ → R → Option D)
    (complete : ℕ → D → S → S) (state : S) :
    let planned := (List.range' 0 count).map (exact + · * bytes)
    let loop := transferLoop (fun transfer => do
      let base ← place
      pure (wrap (base + transfer * bytes))) request respond complete count 0 state
    (BusAccess.ofTransfers planned addressOf loop.ending loop.requests).Faithful bus ↔
      BusAccess.Fits bus planned ∨ (0 < count ∧ ∃ error, place = .error error) := by
  intro planned loop
  rw [ofTransfers_transferLoop, BusAccess.faithful_iff]
  · refine or_congr_right ?_
    cases count with
    | zero => simp [BusAccess.ofBurst, burst]
    | succ count =>
      cases located : place with
      | error error =>
        rw [burst_threw _ _ _ _ _ count 0 (show (fun transfer => do
            let base ← (.error error : Except Error ℕ)
            pure (wrap (base + transfer * bytes))) 0 = .error error from rfl)]
        exact ⟨fun _ => ⟨Nat.succ_pos _, error, rfl⟩, fun _ => ⟨rfl, rfl⟩⟩
      | ok base =>
        have issues := burst_issues (fun transfer => do
            let base ← (.ok base : Except Error ℕ)
            pure (wrap (base + transfer * bytes))) request (fun k r => (respond k r, k + 1)) complete ()
          count 0 (show _ = Except.ok (wrap (base + 0 * bytes)) from rfl) state 0
        exact ⟨fun none => absurd (List.map_eq_nil_iff.mp none.1) issues, fun thrown => by obtain ⟨-, _, thrown⟩ := thrown; cases thrown⟩
  · intro fits
    have prefixed := (burst_requests (fun transfer => do
        let base ← place
        pure (wrap (base + transfer * bytes))) request (fun k r => (respond k r, k + 1)) complete ()
      (fun transfer => request transfer (exact + transfer * bytes)) count 0 ?_ state 0).1
    · have mapped := prefixed.map addressOf
      have planned_eq : (((List.range' 0 count).map fun transfer =>
          request transfer (exact + transfer * bytes)).map addressOf) = planned := by
        rw [List.map_map]
        refine List.map_congr_left fun transfer member => ?_
        show addressOf (request transfer _) = _
        rw [carries, toNat_address (fits _ (List.mem_map_of_mem member))]
      exact planned_eq ▸ mapped
    · intro k _ inside target here
      have bound := addressMax_lt bus
      have fitsHere := fits (exact + k * bytes) (List.mem_map_of_mem (List.mem_range'_1.mpr ⟨by omega, inside⟩))
      rw [found (by omega)] at here
      have target_eq := Except.ok.inj here
      rw [wrap_of_lt (by omega)] at target_eq
      rw [← target_eq]

/-- The address of a transfer is the exact one, in 64 bits. -/
theorem transferAddress_eq (base : UInt64) (transfer bytes : ℕ) :
    base + UInt64.ofNat transfer * UInt64.ofNat bytes = UInt64.ofNat (base.toNat + transfer * bytes) := by
  rw [← UInt64.toNat_inj, UInt64.toNat_add, UInt64.toNat_mul, UInt64.toNat_ofNat', UInt64.toNat_ofNat',
    UInt64.toNat_ofNat', ← Nat.mul_mod, Nat.add_mod_mod]

/-- The requests of one element, where its addresses fit. -/
theorem element_requests {place : Except Error UInt64} {exact bytes count : ℕ} {V : Type}
    {request : ℕ → UInt64 → R} {respond : S → R → Option D × S} {complete : ℕ → D → V → V} {index : F}
    (fits : ∀ transfer < count, exact + transfer * bytes ≤ bus.addressMax)
    (found : exact ≤ bus.addressMax → ∃ base, place = .ok base ∧ base.toNat = exact) (values : V)
    (responder : S) :
    let result := burst (fun transfer => do
      let base ← place
      pure (base + UInt64.ofNat transfer * UInt64.ofNat bytes)) request respond complete index count 0
        values responder
    let plan := (List.range' 0 count).map fun transfer =>
      request transfer (UInt64.ofNat (exact + transfer * bytes))
    result.requests <+: plan ∧ (result.ending = .okay → result.requests = plan) := by
  refine burst_requests _ _ _ _ _ _ _ _ (fun k _ inside target here => ?_) values responder
  have bound := addressMax_lt bus
  have fitsHere := fits k (by omega)
  obtain ⟨base, located, exactly⟩ := found (by omega)
  rw [located] at here
  rw [← Except.ok.inj here, transferAddress_eq, exactly]

/-- Elements one after the other: faithful where all their transfers fit, or where finding the first
element throws. -/
theorem faithful_bursts (bus : BusTypes) {V : Type} (part : ℕ → V → S → Burst R V S Error F)
    (place : Except Error UInt64) (exact : ℕ → ℕ) (bytes transfers count : ℕ)
    (request : ℕ → ℕ → UInt64 → R)
    (carries : ∀ k transfer target,
      addressOf (request k transfer target) = (BitVec.ofNat bus.addressBits target.toNat).toNat)
    (parts : ∀ k < count, (∀ transfer < transfers, exact k + transfer * bytes ≤ bus.addressMax) →
      ∀ values responder,
        (part k values responder).requests <+: (List.range' 0 transfers).map
          (fun transfer => request k transfer (UInt64.ofNat (exact k + transfer * bytes))) ∧
        ((part k values responder).ending = .okay →
          (part k values responder).requests = (List.range' 0 transfers).map
            fun transfer => request k transfer (UInt64.ofNat (exact k + transfer * bytes))))
    (found : ∀ base, place = .ok base → ∀ values responder, (part 0 values responder).requests ≠ [])
    (lost : ∀ error, place = .error error → ∀ values responder,
      (part 0 values responder).requests = [] ∧ (part 0 values responder).ending = .threw error)
    (values : V) (responder : S) :
    let planned := (List.range' 0 count).flatMap fun k =>
      (List.range' 0 transfers).map fun transfer => exact k + transfer * bytes
    (BusAccess.ofBurst planned addressOf (bursts part count 0 values responder)).Faithful bus ↔
      BusAccess.Fits bus planned ∨ (0 < count ∧ ∃ error, place = .error error) := by
  intro planned
  rw [BusAccess.faithful_iff]
  · refine or_congr_right ?_
    cases count with
    | zero => simp [BusAccess.ofBurst, bursts]
    | succ count =>
      cases located : place with
      | error error =>
        obtain ⟨empty, thrown⟩ := lost error located values responder
        rw [bursts_stopped count (by rw [thrown]; intro okay; cases okay)]
        refine ⟨fun _ => ⟨Nat.succ_pos _, error, rfl⟩, fun _ => ⟨?_, ?_⟩⟩
        · exact List.map_eq_nil_iff.mpr empty
        · rw [BusAccess.ofBurst, thrown]
      | ok base =>
        have issues := bursts_issues count (found base located values responder)
        exact ⟨fun none => absurd (List.map_eq_nil_iff.mp none.1) issues,
          fun thrown => by obtain ⟨-, _, thrown⟩ := thrown; cases thrown⟩
  · intro fits
    have fitsAt : ∀ k < count, ∀ transfer < transfers, exact k + transfer * bytes ≤ bus.addressMax := by
      intro k inside transfer inElement
      refine fits _ (List.mem_flatMap.mpr ⟨k, List.mem_range'_1.mpr ⟨by omega, by omega⟩, ?_⟩)
      exact List.mem_map_of_mem (List.mem_range'_1.mpr ⟨by omega, by omega⟩)
    have prefixed := (bursts_requests _ count 0
      (fun k _ inside values responder => parts k (by omega) (fitsAt k (by omega)) values responder)
      values responder).1
    have mapped := prefixed.map addressOf
    have planned_eq : ((List.range' 0 count).flatMap fun k => (List.range' 0 transfers).map fun transfer =>
        request k transfer (UInt64.ofNat (exact k + transfer * bytes))).map addressOf = planned := by
      rw [List.map_flatMap]
      refine List.flatMap_congr fun k member => ?_
      rw [List.map_map]
      refine List.map_congr_left fun transfer inElement => ?_
      have bound := addressMax_lt bus
      have fitsHere := fitsAt k (by have := List.mem_range'_1.mp member; omega) transfer
        (by have := List.mem_range'_1.mp inElement; omega)
      show addressOf (request k transfer _) = _
      rw [carries, UInt64.toNat_ofNat', Nat.mod_eq_of_lt (by omega), toNat_address fitsHere]
    exact planned_eq ▸ mapped

end Issues

section Registers

variable {bus : BusTypes}

/-- The exact address of a register: in a map, or where the constructor put it. -/
def exactRegister (descriptor : RegisterDescriptor) (base : UInt64) : Option RegisterAddressMap → ℕ
  | some map => map.exact descriptor
  | none => base.toNat + descriptor.address.toNat

/-- The exact addresses of the transfers of a register. -/
def plannedTransfers (descriptor : RegisterDescriptor) (base : UInt64)
    (map : Option RegisterAddressMap) : List ℕ :=
  (List.range' 0 descriptor.transferCount).map
    (exactRegister descriptor base map + · * descriptor.transferBytes)

/-- The frontdoor operations of a register, with the answers of the master. -/
inductive RegisterOperation (bus : BusTypes) (V : Type) where
  | write (value : V) (respond : ℕ → WriteRequest bus → Option Unit)
  | update (respond : ℕ → WriteRequest bus → Option Unit)
  | read (respond : ℕ → ReadRequest bus → Option (BitVec bus.dataBits))

theorem firstMisses_iff (exact bytes count : ℕ) :
    BusAccess.FirstMisses bus ((List.range' 0 count).map (exact + · * bytes)) ↔
      0 < count ∧ bus.addressMax < exact := by
  unfold BusAccess.FirstMisses
  cases count with
  | zero => simp
  | succ count => simp [List.range'_succ]

/-- The transfers of a register whose operation has been accepted. -/
theorem faithful_register {R D S : Type} {addressOf : R → ℕ} {descriptor : RegisterDescriptor}
    {base : UInt64} {effective : ℕ} {map : Option RegisterAddressMap} {address : ℕ → Except Error ℕ}
    (request : ℕ → ℕ → R)
    (carries : ∀ transfer target,
      addressOf (request transfer target) = (BitVec.ofNat bus.addressBits target).toNat)
    (located : address = fun transfer => do
      let base ← match map with
        | some map => map.effectiveAddress bus descriptor
        | none => pure effective
      pure (wrap (base + transfer * descriptor.transferBytes)))
    (placed : effective = base.toNat + descriptor.address.toNat)
    (direct : BusAccess.Fits bus (plannedTransfers descriptor base none))
    (respond : ℕ → R → Option D) (complete : ℕ → D → S → S) (state : S) :
    let planned := plannedTransfers descriptor base map
    let loop := transferLoop address request respond complete descriptor.transferCount 0 state
    (BusAccess.ofTransfers planned addressOf loop.ending loop.requests).Faithful bus ↔
      map = none ∨ BusAccess.Fits bus planned ∨ BusAccess.FirstMisses bus planned := by
  intro planned loop
  subst located
  cases map with
  | none =>
    have faithful := (faithful_transferLoop bus (.ok effective) (exactRegister descriptor base none)
      descriptor.transferBytes descriptor.transferCount carries (fun _ => congrArg Except.ok placed)
      respond complete state).mpr (.inl direct)
    exact ⟨fun _ => .inl rfl, fun _ => faithful⟩
  | some map =>
    have faithful := faithful_transferLoop bus (map.effectiveAddress bus descriptor)
      (map.exact descriptor) descriptor.transferBytes descriptor.transferCount carries
      effectiveAddress_of_fits respond complete state
    refine faithful.trans ?_
    have misses : (∃ error, map.effectiveAddress bus descriptor = .error error) ↔
        bus.addressMax < map.exact descriptor := by
      constructor
      · rintro ⟨error, thrown⟩
        by_contra fits
        rw [effectiveAddress_of_fits (by omega)] at thrown
        cases thrown
      · exact effectiveAddress_of_misses
    rw [misses, ← firstMisses_iff _ descriptor.transferBytes]
    exact ⟨.inr, fun either => either.resolve_left nofun⟩

/-- The transfers of a register end with it. -/
theorem transfers_span (descriptor : RegisterDescriptor)
    (divides : descriptor.width % descriptor.transferWidth = 0)
    (aligned : descriptor.transferWidth % 8 = 0) (positive : 0 < descriptor.transferWidth) :
    descriptor.transferCount * descriptor.transferBytes = descriptor.width / 8 := by
  obtain ⟨chunks, chunks_eq⟩ := Nat.dvd_of_mod_eq_zero divides
  obtain ⟨bytes, bytes_eq⟩ := Nat.dvd_of_mod_eq_zero aligned
  rw [RegisterDescriptor.transferCount, RegisterDescriptor.transferBytes, chunks_eq,
    Nat.mul_div_cancel_left _ positive, bytes_eq, Nat.mul_div_cancel_left _ (by omega), Nat.mul_assoc,
    Nat.mul_div_cancel_left _ (by omega), Nat.mul_comm]

/-- An operation that is refused before its first transfer. -/
theorem faithful_refused {R : Type} (planned : List ℕ) (addressOf : R → ℕ) (error : Error) :
    (BusAccess.ofTransfers planned addressOf (.threw error) []).Faithful bus :=
  ⟨List.nil_prefix, fun _ => ⟨rfl, rfl⟩⟩

/-- An operation that has no transfers. -/
theorem faithful_idle {R : Type} (addressOf : R → ℕ) (ending : Ending) :
    (BusAccess.ofTransfers [] addressOf ending ([] : List R)).Faithful bus :=
  ⟨List.prefix_rfl, fun ⟨_, member, _⟩ => absurd member List.not_mem_nil⟩

namespace RegisterHandle

variable (h : RegisterHandle bus)

/-- The handle of a register that has been constructed: no operation changes its descriptor or its
address. -/
def Constructed (base : UInt64) : Prop :=
  ∃ h₀ userEffects hasBackdoor, make bus h.descriptor base userEffects hasBackdoor = .ok h₀ ∧
    h.effectiveAddress = h₀.effectiveAddress

/-- An operation as the bus sees it. An update that is not needed has no transfers. -/
def issue (base : UInt64) (map : Option RegisterAddressMap) : RegisterOperation bus Word → BusAccess
  | .write value respond =>
    let access := h.write value map respond
    .ofTransfers (plannedTransfers h.descriptor base map) (·.address.toNat) access.ending access.requests
  | .update respond =>
    let access := h.update map respond
    .ofTransfers (if h.needsUpdate then plannedTransfers h.descriptor base map else [])
      (·.address.toNat) access.ending access.requests
  | .read respond =>
    let access := (h.read map respond).1
    .ofTransfers (plannedTransfers h.descriptor base map) (·.address.toNat) access.ending access.requests

/-- The checks before the first transfer pass. -/
def Accepts : RegisterOperation bus Word → Prop
  | .write _ _ => h.enforceWriteAccess = .ok () ∧ h.requireSupportedAccess = .ok ()
  | .update _ => h.requireSupportedAccess = .ok () ∧ h.unknownStaged = 0 ∧ h.enforceWriteAccess = .ok ()
  | .read _ => h.descriptor.hasReadableField = true ∧ h.requireSupportedAccess = .ok ()

variable {h} {base : UInt64}

theorem Constructed.effectiveAddress_eq (constructed : h.Constructed base) :
    h.effectiveAddress = base.toNat + h.descriptor.address.toNat ∧
      (h.descriptor.width % 8 = 0 → h.effectiveAddress + h.descriptor.width / 8 ≤ 2 ^ 64 - 1) := by
  obtain ⟨h₀, userEffects, hasBackdoor, made, same⟩ := constructed
  have bound := h.descriptor.address.toNat_lt
  obtain ⟨inside, made⟩ := after_throwIf made
  obtain ⟨-, -, made⟩ := after_bind made
  obtain ⟨ends, made⟩ := after_throwIf made
  obtain ⟨-, made⟩ := after_throwIf made
  obtain rfl := Except.ok.inj made
  have address : h.effectiveAddress = wrap (base.toNat + h.descriptor.address.toNat) := same
  rw [wrap_of_lt (by omega)] at address ends
  exact ⟨address, fun whole => by omega⟩

/-- The transfers of a supported register fit the bus, without a map. -/
theorem Constructed.direct (constructed : h.Constructed base)
    (supported : h.requireSupportedAccess = .ok ()) :
    BusAccess.Fits bus (plannedTransfers h.descriptor base none) := by
  obtain ⟨placed, ends⟩ := constructed.effectiveAddress_eq
  obtain ⟨shape, supported⟩ := after_throwIf supported
  obtain ⟨split, supported⟩ := after_throwIf supported
  have last := throwIf_ok_iff.mp supported
  have ends := ends (by omega)
  intro address member
  obtain ⟨transfer, inside, rfl⟩ := List.mem_map.mp member
  have inside := (List.mem_range'_1.mp inside).2
  show base.toNat + h.descriptor.address.toNat + _ ≤ _
  have divides := transfers_span h.descriptor
    (Nat.eq_zero_of_not_pos fun positive =>
      split (.inr (.inr (.inr (.inl (Nat.pos_iff_ne_zero.mp positive))))))
    (Nat.eq_zero_of_not_pos fun positive => split (.inr (.inl (Nat.pos_iff_ne_zero.mp positive))))
    (by omega)
  have least : transfer * h.descriptor.transferBytes
      ≤ (h.descriptor.transferCount - 1) * h.descriptor.transferBytes :=
    Nat.mul_le_mul_right _ (by omega)
  have most : (h.descriptor.transferCount - 1) * h.descriptor.transferBytes ≤ h.descriptor.width / 8 :=
    divides ▸ Nat.mul_le_mul_right _ (by omega)
  rw [wrap_of_lt (by omega)] at last
  omega

/-- What a refused operation leaves. -/
theorem refused_write (value : Word) (map : Option RegisterAddressMap)
    (respond : ℕ → WriteRequest bus → Option Unit)
    (refused : ¬ (h.enforceWriteAccess = .ok () ∧ h.requireSupportedAccess = .ok ())) :
    ∃ error, (h.write value map respond).ending = .threw error ∧
      (h.write value map respond).requests = [] := by
  unfold write
  cases checked : h.enforceWriteAccess with
  | error error => exact ⟨error, rfl, rfl⟩
  | ok _ =>
    cases supported : h.requireSupportedAccess with
    | error error => exact ⟨error, rfl, rfl⟩
    | ok _ => exact absurd ⟨checked, supported⟩ refused

theorem refused_update (map : Option RegisterAddressMap) (respond : ℕ → WriteRequest bus → Option Unit)
    (needs : h.needsUpdate = true)
    (refused : ¬ (h.requireSupportedAccess = .ok () ∧ h.unknownStaged = 0 ∧
      h.enforceWriteAccess = .ok ())) :
    ∃ error, (h.update map respond).ending = .threw error ∧ (h.update map respond).requests = [] := by
  unfold update
  cases supported : h.requireSupportedAccess with
  | error error => exact ⟨error, rfl, rfl⟩
  | ok _ =>
    dsimp only
    rw [if_neg (by rw [needs]; decide)]
    by_cases unknown : h.unknownStaged ≠ 0
    · rw [if_pos unknown]
      exact ⟨_, rfl, rfl⟩
    · rw [if_neg unknown]
      cases checked : h.enforceWriteAccess with
      | error error => exact ⟨error, rfl, rfl⟩
      | ok _ => exact absurd ⟨supported, not_not.mp unknown, checked⟩ refused

theorem idle_update (map : Option RegisterAddressMap) (respond : ℕ → WriteRequest bus → Option Unit)
    (settled : ¬ h.needsUpdate = true) : (h.update map respond).requests = [] := by
  rw [Bool.not_eq_true] at settled
  unfold update
  cases h.requireSupportedAccess with
  | error error => rfl
  | ok _ =>
    dsimp only
    rw [if_pos (by rw [settled]; rfl)]

theorem refused_read (map : Option RegisterAddressMap)
    (respond : ℕ → ReadRequest bus → Option (BitVec bus.dataBits))
    (refused : ¬ (h.descriptor.hasReadableField = true ∧ h.requireSupportedAccess = .ok ())) :
    ∃ error, (h.read map respond).1.ending = .threw error ∧ (h.read map respond).1.requests = [] := by
  unfold read
  cases readable : h.descriptor.hasReadableField with
  | false => exact ⟨_, rfl, rfl⟩
  | true =>
    cases supported : h.requireSupportedAccess with
    | error error => exact ⟨error, rfl, rfl⟩
    | ok _ => exact absurd ⟨readable, supported⟩ refused

/-- The frontdoor operations of a narrow register. -/
theorem issue_faithful_iff (constructed : h.Constructed base) (map : Option RegisterAddressMap)
    (operation : RegisterOperation bus Word) :
    (h.issue base map operation).Faithful bus ↔ map = none ∨ ¬ h.Accepts operation ∨
      BusAccess.Fits bus (h.issue base map operation).planned ∨
        BusAccess.FirstMisses bus (h.issue base map operation).planned := by
  have placed := constructed.effectiveAddress_eq.1
  by_cases accepted : h.Accepts operation
  · simp only [accepted, not_true_eq_false, false_or]
    cases operation with
    | write value respond =>
      rw [issue, write, accepted.1, accepted.2]
      exact faithful_register (h.writeRequest (value &&& h.widthMask)) (fun _ _ => rfl) rfl
        placed (constructed.direct accepted.2) respond _ h
    | update respond =>
      by_cases needs : h.needsUpdate = true
      · rw [issue, update, accepted.1, if_pos needs]
        dsimp only
        rw [if_neg (by rw [needs]; decide), if_neg (not_not.mpr accepted.2.1), accepted.2.2]
        exact faithful_register (h.writeRequest h.stagedWriteValue) (fun _ _ => rfl) rfl placed
          (constructed.direct accepted.1) respond _ h
      · rw [issue, if_neg needs, idle_update map respond needs]
        exact ⟨fun _ => .inr (.inl fun _ member => absurd member List.not_mem_nil),
          fun _ => faithful_idle _ _⟩
    | read respond =>
      rw [issue, read, accepted.1, accepted.2]
      exact faithful_register (fun _ target => (readRequest target : ReadRequest bus))
        (fun _ _ => rfl) rfl placed (constructed.direct accepted.2) respond _ _
  · refine ⟨fun _ => .inr (.inl accepted), fun _ => ?_⟩
    cases operation with
    | write value respond =>
      obtain ⟨error, threw, empty⟩ := refused_write value map respond accepted
      rw [issue, threw, empty]
      exact faithful_refused _ _ error
    | update respond =>
      by_cases needs : h.needsUpdate = true
      · obtain ⟨error, threw, empty⟩ := refused_update map respond needs accepted
        rw [issue, threw, empty]
        exact faithful_refused _ _ error
      · rw [issue, if_neg needs, idle_update map respond needs]
        exact faithful_idle _ _
    | read respond =>
      obtain ⟨error, threw, empty⟩ := refused_read map respond accepted
      rw [issue, threw, empty]
      exact faithful_refused _ _ error

end RegisterHandle

namespace WideRegisterHandle

variable {Width : ℕ} (h : WideRegisterHandle bus Width)

/-- The handle of a register that has been constructed: no operation changes its descriptor or its
address. -/
def Constructed (base : UInt64) : Prop :=
  ∃ h₀ userEffects hasBackdoor, make bus Width h.descriptor base userEffects hasBackdoor = .ok h₀ ∧
    h.effectiveAddress = h₀.effectiveAddress

/-- An operation as the bus sees it. An update that is not needed has no transfers. -/
def issue (base : UInt64) (map : Option RegisterAddressMap) :
    RegisterOperation bus (BitVec Width) → BusAccess
  | .write value respond =>
    let access := h.write value map respond
    .ofTransfers (plannedTransfers h.descriptor base map) (·.address.toNat) access.ending access.requests
  | .update respond =>
    let access := h.update map respond
    .ofTransfers (if h.needsUpdate then plannedTransfers h.descriptor base map else [])
      (·.address.toNat) access.ending access.requests
  | .read respond =>
    let access := (h.read map respond).1
    .ofTransfers (plannedTransfers h.descriptor base map) (·.address.toNat) access.ending access.requests

/-- The checks before the first transfer pass. -/
def Accepts : RegisterOperation bus (BitVec Width) → Prop
  | .write _ _ => h.enforceWriteAccess = .ok ()
  | .update _ => h.unknownStaged = false ∧ h.enforceWriteAccess = .ok ()
  | .read _ => h.descriptor.hasReadableField = true

variable {h} {base : UInt64}

/-- The constructor has checked the address of the last transfer. -/
theorem Constructed.direct (constructed : h.Constructed base) :
    h.effectiveAddress = base.toNat + h.descriptor.address.toNat ∧
      BusAccess.Fits bus (plannedTransfers h.descriptor base none) := by
  obtain ⟨h₀, userEffects, hasBackdoor, made, same⟩ := constructed
  have bound := h.descriptor.address.toNat_lt
  obtain ⟨width, made⟩ := after_throwIf made
  obtain ⟨-, -, made⟩ := after_bind made
  obtain ⟨inside, made⟩ := after_throwIf made
  obtain ⟨ends, made⟩ := after_throwIf made
  obtain ⟨_, valid, made⟩ := after_bind made
  obtain rfl := Except.ok.inj made
  have address : h.effectiveAddress = wrap (base.toNat + h.descriptor.address.toNat) := same
  obtain ⟨shape, valid⟩ := after_throwIf valid
  have last := throwIf_ok_iff.mp valid
  change ¬ bus.addressMax < wrap (wrap (base.toNat + h.descriptor.address.toNat) +
    (h.descriptor.transferCount - 1) * h.descriptor.transferBytes) at last
  have low : base.toNat + h.descriptor.address.toNat < 2 ^ 64 := by omega
  rw [wrap_of_lt low] at address ends last
  refine ⟨address, fun exact member => ?_⟩
  obtain ⟨transfer, inRegister, rfl⟩ := List.mem_map.mp member
  have inRegister := (List.mem_range'_1.mp inRegister).2
  show base.toNat + h.descriptor.address.toNat + _ ≤ _
  have spans := transfers_span h.descriptor
    (by rw [not_not.mp width]; exact Nat.eq_zero_of_not_pos fun positive =>
      shape (.inr (.inr (.inr (.inl (Nat.pos_iff_ne_zero.mp positive))))))
    (Nat.eq_zero_of_not_pos fun positive =>
      shape (.inr (.inr (.inl (Nat.pos_iff_ne_zero.mp positive)))))
    (Nat.pos_of_ne_zero fun zero => shape (.inr (.inl zero)))
  rw [not_not.mp width] at spans
  have least : transfer * h.descriptor.transferBytes
      ≤ (h.descriptor.transferCount - 1) * h.descriptor.transferBytes :=
    Nat.mul_le_mul_right _ (by omega)
  have most : (h.descriptor.transferCount - 1) * h.descriptor.transferBytes ≤ Width / 8 :=
    spans ▸ Nat.mul_le_mul_right _ (by omega)
  rw [wrap_of_lt (by omega)] at last
  omega

theorem refused_write (value : BitVec Width) (map : Option RegisterAddressMap)
    (respond : ℕ → WriteRequest bus → Option Unit) (refused : ¬ h.enforceWriteAccess = .ok ()) :
    ∃ error, (h.write value map respond).ending = .threw error ∧
      (h.write value map respond).requests = [] := by
  unfold write
  cases checked : h.enforceWriteAccess with
  | error error => exact ⟨error, rfl, rfl⟩
  | ok _ => exact absurd checked refused

theorem refused_update (map : Option RegisterAddressMap) (respond : ℕ → WriteRequest bus → Option Unit)
    (needs : h.needsUpdate = true)
    (refused : ¬ (h.unknownStaged = false ∧ h.enforceWriteAccess = .ok ())) :
    ∃ error, (h.update map respond).ending = .threw error ∧ (h.update map respond).requests = [] := by
  unfold update
  rw [if_neg (by rw [needs]; decide)]
  cases unknown : h.unknownStaged with
  | true => exact ⟨_, rfl, rfl⟩
  | false => exact refused_write _ _ _ fun checked => refused ⟨unknown, checked⟩

theorem idle_update (map : Option RegisterAddressMap) (respond : ℕ → WriteRequest bus → Option Unit)
    (settled : ¬ h.needsUpdate = true) : (h.update map respond).requests = [] := by
  rw [Bool.not_eq_true] at settled
  rw [update, if_pos (by rw [settled]; rfl)]

/-- The frontdoor operations of a wide register. -/
theorem issue_faithful_iff (constructed : h.Constructed base) (map : Option RegisterAddressMap)
    (operation : RegisterOperation bus (BitVec Width)) :
    (h.issue base map operation).Faithful bus ↔ map = none ∨ ¬ h.Accepts operation ∨
      BusAccess.Fits bus (h.issue base map operation).planned ∨
        BusAccess.FirstMisses bus (h.issue base map operation).planned := by
  obtain ⟨placed, direct⟩ := constructed.direct
  by_cases accepted : h.Accepts operation
  · simp only [accepted, not_true_eq_false, false_or]
    cases operation with
    | write value respond =>
      rw [issue, write, show h.enforceWriteAccess = .ok () from accepted]
      exact faithful_register (h.writeRequest value) (fun _ _ => rfl) rfl placed direct
        respond _ h
    | update respond =>
      by_cases needs : h.needsUpdate = true
      · rw [issue, update, if_pos needs, if_neg (by rw [needs]; decide),
          if_neg (by rw [accepted.1]; decide)]
        dsimp only
        rw [write, accepted.2]
        exact faithful_register (h.writeRequest h.stagedWriteValue) (fun _ _ => rfl) rfl placed
          direct respond _ h
      · rw [issue, if_neg needs, idle_update map respond needs]
        exact ⟨fun _ => .inr (.inl fun _ member => absurd member List.not_mem_nil),
          fun _ => faithful_idle _ _⟩
    | read respond =>
      rw [issue, read, show h.descriptor.hasReadableField = true from accepted]
      exact faithful_register (fun _ target => (⟨BitVec.ofNat _ target⟩ : ReadRequest bus))
        (fun _ _ => rfl) rfl placed direct respond _ _
  · refine ⟨fun _ => .inr (.inl accepted), fun _ => ?_⟩
    cases operation with
    | write value respond =>
      obtain ⟨error, threw, empty⟩ := refused_write value map respond accepted
      rw [issue, threw, empty]
      exact faithful_refused _ _ error
    | update respond =>
      by_cases needs : h.needsUpdate = true
      · obtain ⟨error, threw, empty⟩ := refused_update map respond needs accepted
        rw [issue, threw, empty]
        exact faithful_refused _ _ error
      · rw [issue, if_neg needs, idle_update map respond needs]
        exact faithful_idle _ _
    | read respond =>
      rw [issue, read, if_pos (by
        rw [Accepts, Bool.not_eq_true] at accepted
        rw [accepted]
        rfl)]
      exact faithful_refused _ _ _

end WideRegisterHandle

end Registers

section Memories

variable {bus : BusTypes} {S : Type}

/-- The exact address of an element: in a map, or where the constructor put it. -/
def exactElement (descriptor : RegisterMemoryDescriptor) (base : UInt64) :
    Option RegisterAddressMap → ℕ → ℕ
  | some map, index => map.exactElement descriptor index
  | none, index =>
    base.toNat + descriptor.address.toNat + index * (descriptor.width.toNat / 8)

/-- The exact addresses of the transfers of some elements. -/
def plannedElements (descriptor : RegisterMemoryDescriptor) (base : UInt64)
    (map : Option RegisterAddressMap) (firstIndex : UInt64) (count transfers bytes : ℕ) : List ℕ :=
  (List.range' 0 count).flatMap fun offset => (List.range' 0 transfers).map fun transfer =>
    exactElement descriptor base map (firstIndex.toNat + offset) + transfer * bytes

/-- The frontdoor operations of a memory, with the master that answers them. -/
inductive MemoryOperation (bus : BusTypes) (V S : Type) where
  | write (firstIndex : UInt64) (values : List V) (master : Master bus S) (responder : S)
  | read (firstIndex : UInt64) (values : List V) (master : Master bus S) (responder : S)

namespace MemoryOperation

variable {V : Type}

def firstIndex : MemoryOperation bus V S → UInt64
  | .write firstIndex _ _ _ | .read firstIndex _ _ _ => firstIndex

def values : MemoryOperation bus V S → List V
  | .write _ values _ _ | .read _ values _ _ => values

end MemoryOperation

/-- An access that is refused before its first transfer. -/
theorem faithful_checked {R V S α : Type} {check : Except Error α} {values : V} {responder : S}
    {rest : α → MemoryAccess R V S} (planned : List ℕ) (addressOf : R → ℕ) {error : Error}
    (refused : check = .error error) :
    (BusAccess.ofBurst planned addressOf (checked check values responder rest)).Faithful bus := by
  rw [refused]
  exact ⟨List.nil_prefix, fun _ => ⟨rfl, rfl⟩⟩

/-- The place of an element that a constructed memory has: the exact one where that fits the bus. -/
theorem frontdoorAddress_found (bus : BusTypes) {m : MemoryRange} {base : UInt64}
    (map : Option RegisterAddressMap) (index : UInt64) (valid : m.Valid) (bytes : m.elementBytes = m.descriptor.bytes)
    (proper : ¬ (m.descriptor.width = 0 ∨ m.descriptor.width % 8 ≠ 0))
    (placed : m.baseAddress.toNat = base.toNat + m.descriptor.address.toNat)
    (inside : index.toNat < m.descriptor.entries.toNat)
    (fits : exactElement m.descriptor base map index.toNat ≤ bus.addressMax) :
    ∃ address, m.frontdoorAddress bus map index = .ok address ∧
      address.toNat = exactElement m.descriptor base map index.toNat := by
  cases map with
  | none =>
    obtain ⟨address, found, exact⟩ := MemoryRange.addressAfterRangeCheck_eq valid index inside.le
    refine ⟨address, found, exact.trans ?_⟩
    rw [placed, bytes, toNat_bytes]
    rfl
  | some map =>
    rcases elementAddress_spec bus map proper (UInt64.lt_iff_toNat_lt.mpr inside) with
      ⟨-, found⟩ | ⟨misses, -⟩
    · exact found
    · exact absurd fits (Nat.not_le.mpr misses)

/-- Without a map the place of an element is always found; in a map it throws where it does not fit. -/
theorem frontdoorAddress_throws_iff (bus : BusTypes) {m : MemoryRange} (base : UInt64)
    (map : Option RegisterAddressMap) (index : UInt64) (valid : m.Valid)
    (proper : ¬ (m.descriptor.width = 0 ∨ m.descriptor.width % 8 ≠ 0))
    (inside : index.toNat < m.descriptor.entries.toNat) :
    (∃ error, m.frontdoorAddress bus map index = .error error) ↔
      map ≠ none ∧ bus.addressMax < exactElement m.descriptor base map index.toNat := by
  cases map with
  | none =>
    obtain ⟨address, found, -⟩ := MemoryRange.addressAfterRangeCheck_eq valid index inside.le
    rw [MemoryRange.frontdoorAddress, found]
    exact ⟨fun ⟨_, thrown⟩ => (nomatch thrown), fun both => absurd rfl both.1⟩
  | some map =>
    show (∃ error, map.elementAddress bus m.descriptor index = .error error) ↔ _
    rcases elementAddress_spec bus map proper (UInt64.lt_iff_toNat_lt.mpr inside) with
      ⟨fits, address, found, -⟩ | ⟨misses, thrown⟩
    · rw [found]
      exact ⟨fun ⟨_, thrown⟩ => (nomatch thrown), fun both => absurd both.2 (Nat.not_lt.mpr fits)⟩
    · exact ⟨fun _ => ⟨nofun, misses⟩, fun _ => thrown⟩

/-- An index in a range that has been tested. -/
theorem toNat_index {firstIndex entries : UInt64} {count offset : ℕ} (size : count < 2 ^ 64)
    (inRange : firstIndex.toNat + (UInt64.ofNat count).toNat ≤ entries.toNat) (inside : offset < count) :
    (firstIndex + UInt64.ofNat offset).toNat = firstIndex.toNat + offset ∧
      firstIndex.toNat + offset < entries.toNat := by
  have := entries.toNat_lt
  rw [UInt64.toNat_ofNat', Nat.mod_eq_of_lt size] at inRange
  rw [UInt64.toNat_add, UInt64.toNat_ofNat', Nat.mod_eq_of_lt (show offset < 2 ^ 64 by omega),
    Nat.mod_eq_of_lt (by omega)]
  omega

theorem firstMisses_elements {descriptor : RegisterMemoryDescriptor} {base firstIndex : UInt64}
    {map : Option RegisterAddressMap} {count transfers bytes : ℕ} (positive : 0 < transfers) :
    BusAccess.FirstMisses bus
        (plannedElements descriptor base map firstIndex count transfers bytes) ↔
      0 < count ∧ bus.addressMax < exactElement descriptor base map firstIndex.toNat := by
  obtain ⟨transfers, rfl⟩ := Nat.exists_eq_succ_of_ne_zero (Nat.pos_iff_ne_zero.mp positive)
  unfold BusAccess.FirstMisses plannedElements
  cases count with
  | zero => simp
  | succ count => simp [List.range'_succ]

namespace WideRegisterMemoryHandle

variable {Width : ℕ} (h : WideRegisterMemoryHandle bus Width)

/-- An operation as the bus sees it. -/
def issue (base : UInt64) (map : Option RegisterAddressMap)
    (operation : MemoryOperation bus (BitVec Width) S) : BusAccess :=
  let planned := plannedElements h.descriptor base map operation.firstIndex operation.values.length
    h.transferCount h.transferBytes
  match operation with
  | .write firstIndex values master responder =>
    .ofBurst planned (·.address.toNat) (h.write master map firstIndex values responder)
  | .read firstIndex values master responder =>
    .ofBurst planned (·.address.toNat) (h.read master map firstIndex values responder)

/-- The checks before the first transfer pass. -/
def Accepts : MemoryOperation bus (BitVec Width) S → Prop
  | .write firstIndex values _ _ =>
    h.range.requireWrite firstIndex (UInt64.ofNat values.length) = .ok ()
  | .read firstIndex values _ _ =>
    h.range.requireRead firstIndex (UInt64.ofNat values.length) = .ok ()

variable {h} {descriptor : RegisterMemoryDescriptor} {base : UInt64}

/-- The transfers of an accepted operation. -/
theorem faithful_elements (positive : 0 < Width) (made : make bus Width descriptor base = .ok h)
    {R D E V : Type} (addressOf : R → ℕ) {map : Option RegisterAddressMap} {firstIndex : UInt64}
    {count : ℕ} (size : count < 2 ^ 64)
    (inRange : firstIndex.toNat + (UInt64.ofNat count).toNat ≤ h.descriptor.entries.toNat)
    (request : ℕ → ℕ → UInt64 → R) (respond : S → R → Option D × S) (complete : ℕ → D → E → E) (start : E)
    {part : ℕ → V → S → Burst R V S Error UInt64}
    (carries : ∀ k transfer target,
      addressOf (request k transfer target) = (BitVec.ofNat bus.addressBits target.toNat).toNat)
    (element : ∀ k values responder,
      let index := firstIndex + UInt64.ofNat k
      let result := burst (h.transferAddress map index) (request k) respond complete index h.transferCount
        0 start responder
      (part k values responder).requests = result.requests ∧
        (part k values responder).ending = result.ending)
    (values : V) (responder : S) :
    let planned := plannedElements h.descriptor base map firstIndex count h.transferCount h.transferBytes
    (BusAccess.ofBurst planned addressOf (bursts part count 0 values responder)).Faithful bus ↔
      BusAccess.Fits bus planned ∨ (map ≠ none ∧ BusAccess.FirstMisses bus planned) := by
  intro planned
  obtain ⟨rfl, placed, shape, bytes, valid⟩ := valid_of_make positive made
  have transfers := shape.transferCount_pos positive
  have proper := shape.proper positive
  have faithful := faithful_bursts bus part
    (h.range.frontdoorAddress bus map (firstIndex + UInt64.ofNat 0))
    (fun k => exactElement h.descriptor base map (firstIndex.toNat + k)) h.transferBytes h.transferCount
    count request carries ?_ ?_ ?_ values responder
  · refine faithful.trans (or_congr_right ?_)
    rw [firstMisses_elements transfers, and_left_comm, and_congr_right_iff]
    intro some
    obtain ⟨index, inside⟩ := toNat_index size inRange some
    have throws := frontdoorAddress_throws_iff bus (m := h.range) base map (firstIndex + UInt64.ofNat 0)
      valid proper (index ▸ inside)
    rw [index] at throws
    exact throws
  · intro k inElements fits values responder
    obtain ⟨index, inside⟩ := toNat_index size inRange inElements
    obtain ⟨requests, ending⟩ := element k values responder
    have found := frontdoorAddress_found bus (m := h.range) map (firstIndex + UInt64.ofNat k) valid bytes
      proper placed (index ▸ inside)
    rw [index] at found
    rw [requests, ending]
    exact element_requests fits found start responder
  · intro place located values responder
    rw [(element 0 values responder).1, ← Nat.sub_add_cancel transfers]
    have first : h.transferAddress map (firstIndex + UInt64.ofNat 0) 0
        = .ok (place + UInt64.ofNat 0 * UInt64.ofNat h.transferBytes) := by
      rw [transferAddress, located, ok_bind]
      rfl
    exact burst_issues _ _ _ _ _ (h.transferCount - 1) 0 first start responder
  · intro error thrown values responder
    obtain ⟨requests, ending⟩ := element 0 values responder
    have first : h.transferAddress map (firstIndex + UInt64.ofNat 0) 0 = .error error := by
      rw [transferAddress, thrown]
      rfl
    have stops := burst_threw _ (request 0) respond complete (firstIndex + UInt64.ofNat 0)
      (h.transferCount - 1) 0 first start responder
    rw [Nat.sub_add_cancel transfers] at stops
    rw [requests, ending, stops]
    exact ⟨rfl, rfl⟩

/-- The frontdoor operations of a wide memory. -/
theorem issue_faithful_iff (positive : 0 < Width) (made : make bus Width descriptor base = .ok h)
    (map : Option RegisterAddressMap) (operation : MemoryOperation bus (BitVec Width) S)
    (size : operation.values.length < 2 ^ 64) :
    (h.issue base map operation).Faithful bus ↔ ¬ h.Accepts operation ∨
      BusAccess.Fits bus (h.issue base map operation).planned ∨
        (map ≠ none ∧ BusAccess.FirstMisses bus (h.issue base map operation).planned) := by
  by_cases accepted : h.Accepts operation
  · simp only [accepted, not_true_eq_false, false_or]
    cases operation with
    | write firstIndex values master responder =>
      have accepted : h.range.requireWrite firstIndex (UInt64.ofNat values.length) = .ok () := accepted
      obtain ⟨_, inRange, -⟩ := after_bind accepted
      rw [issue, write, accepted]
      exact faithful_elements positive made (fun request : WriteRequest bus => request.address.toNat)
        size ((MemoryRange.requireRange_iff _ _).mp inRange)
        (fun k transfer target => ⟨BitVec.ofNat _ target.toNat,
          h.transferValue (values.getD k 0) transfer, h.allTransferBytes⟩) master.write (fun _ _ _ => ()) ()
        (fun _ _ _ => rfl) (fun _ _ _ => ⟨rfl, rfl⟩) () responder
    | read firstIndex values master responder =>
      have accepted : h.range.requireRead firstIndex (UInt64.ofNat values.length) = .ok () := accepted
      obtain ⟨_, inRange, -⟩ := after_bind accepted
      rw [issue, read, accepted]
      refine faithful_elements positive made (fun request : ReadRequest bus => request.address.toNat)
        size ((MemoryRange.requireRange_iff _ _).mp inRange)
        (fun _ _ target => ⟨BitVec.ofNat _ target.toNat⟩) master.read
        (fun transfer data value => h.setTransferValue value transfer data) 0
        (fun _ _ _ => rfl) ?_ values responder
      exact fun _ _ _ => ⟨rfl, rfl⟩
  · refine ⟨fun _ => .inl accepted, fun _ => ?_⟩
    cases operation with
    | write firstIndex values master responder =>
      cases checked : h.range.requireWrite firstIndex (UInt64.ofNat values.length) with
      | ok _ => exact absurd checked accepted
      | error error => exact faithful_checked _ _ checked
    | read firstIndex values master responder =>
      cases checked : h.range.requireRead firstIndex (UInt64.ofNat values.length) with
      | ok _ => exact absurd checked accepted
      | error error => exact faithful_checked _ _ checked

end WideRegisterMemoryHandle

namespace RegisterMemoryHandle

variable (h : RegisterMemoryHandle bus)

/-- An operation as the bus sees it: one transfer for each element. -/
def issue (base : UInt64) (map : Option RegisterAddressMap)
    (operation : MemoryOperation bus (BitVec bus.dataBits) S) : BusAccess :=
  let planned := plannedElements h.descriptor base map operation.firstIndex operation.values.length 1 0
  match operation with
  | .write firstIndex values master responder =>
    .ofBurst planned (·.address.toNat) (h.write master map firstIndex values responder)
  | .read firstIndex values master responder =>
    .ofBurst planned (·.address.toNat) (h.read master map firstIndex values responder)

variable {h} {descriptor : RegisterMemoryDescriptor} {base : UInt64}

/-- The check before the first transfer covers the last element, so that all elements fit. -/
theorem fits_of_supported (made : make bus descriptor base = .ok h) {map : Option RegisterAddressMap}
    (supported : h.requireFrontdoorSupported map = .ok ()) {index : ℕ}
    (inside : index < h.descriptor.entries.toNat) :
    exactElement h.descriptor base map index ≤ bus.addressMax := by
  obtain ⟨rfl, placed, proper, valid⟩ := valid_of_make made
  obtain ⟨-, supported⟩ := after_throwIf supported
  have some : h.descriptor.entries ≠ 0 := by
    intro zero
    rw [zero] at inside
    exact absurd inside (Nat.not_lt_zero _)
  rw [if_pos some] at supported
  obtain ⟨last, found, supported⟩ := after_bind supported
  have fits := Nat.not_lt.mp (throwIf_ok_iff.mp supported)
  have one : (1 : UInt64).toNat = 1 := rfl
  have lastIndex : (h.descriptor.entries - 1).toNat = h.descriptor.entries.toNat - 1 := by
    rw [UInt64.toNat_sub_of_le _ _ (by rw [UInt64.le_iff_toNat_le, one]; omega), one]
  have lastFits : exactElement h.descriptor base map (h.descriptor.entries.toNat - 1)
      ≤ bus.addressMax := by
    by_contra misses
    have throws := frontdoorAddress_throws_iff bus (m := h.range) base map (h.descriptor.entries - 1) valid
      proper (by show (h.descriptor.entries - 1).toNat < h.descriptor.entries.toNat; omega)
    rw [lastIndex] at throws
    cases map with
    | none =>
      obtain ⟨address, exactly, exact⟩ := MemoryRange.addressAfterRangeCheck_eq valid
        (h.descriptor.entries - 1)
        (by show (h.descriptor.entries - 1).toNat ≤ h.descriptor.entries.toNat; omega)
      have same : address = last := Except.ok.inj (exactly.symm.trans found)
      rw [← same, exact, lastIndex] at fits
      refine misses (le_trans (le_of_eq ?_) fits)
      show _ = h.baseAddress.toNat + _ * h.descriptor.bytes.toNat
      rw [placed, toNat_bytes]
      rfl
    | some map =>
      obtain ⟨error, thrown⟩ := throws.mpr ⟨nofun, Nat.not_le.mp misses⟩
      rw [found] at thrown
      cases thrown
  refine le_trans ?_ lastFits
  have product := Nat.mul_le_mul_right (h.descriptor.width.toNat / 8)
    (show index ≤ h.descriptor.entries.toNat - 1 by omega)
  cases map with
  | none => exact Nat.add_le_add_left product _
  | some map => exact Nat.add_le_add_left product _

/-- The transfers of an accepted operation all fit. -/
theorem faithful_elements (made : make bus descriptor base = .ok h) {map : Option RegisterAddressMap}
    (supported : h.requireFrontdoorSupported map = .ok ()) {R D E V : Type} (addressOf : R → ℕ)
    {firstIndex : UInt64} {count : ℕ} (size : count < 2 ^ 64)
    (inRange : firstIndex.toNat + (UInt64.ofNat count).toNat ≤ h.descriptor.entries.toNat)
    (request : ℕ → UInt64 → R) (respond : S → R → Option D × S) (complete : ℕ → D → E → E)
    (start : ℕ → V → E) {part : ℕ → V → S → Burst R V S Error UInt64}
    (carries : ∀ k target,
      addressOf (request k target) = (BitVec.ofNat bus.addressBits target.toNat).toNat)
    (element : ∀ k values responder,
      let index := firstIndex + UInt64.ofNat k
      let result := burst (fun _ => h.range.frontdoorAddress bus map index) (fun _ => request k) respond
        complete index 1 0 (start k values) responder
      (part k values responder).requests = result.requests ∧
        (part k values responder).ending = result.ending)
    (values : V) (responder : S) :
    (BusAccess.ofBurst (plannedElements h.descriptor base map firstIndex count 1 0) addressOf
      (bursts part count 0 values responder)).Faithful bus := by
  obtain ⟨rfl, placed, proper, valid⟩ := valid_of_make made
  have fits : ∀ k < count, exactElement h.descriptor base map (firstIndex.toNat + k) ≤ bus.addressMax :=
    fun k inside => fits_of_supported made supported (toNat_index size inRange inside).2
  -- one transfer is at the place of its element
  have place_eq : ∀ index, (fun _ : ℕ => h.range.frontdoorAddress bus map index) = (fun transfer => do
      let base ← h.range.frontdoorAddress bus map index
      pure (base + UInt64.ofNat transfer * UInt64.ofNat 0)) := by
    intro index
    funext transfer
    cases h.range.frontdoorAddress bus map index with
    | error error => rfl
    | ok address =>
      rw [ok_bind, show UInt64.ofNat 0 = 0 from rfl, UInt64.mul_zero, UInt64.add_zero]
      rfl
  refine (faithful_bursts bus part (h.range.frontdoorAddress bus map (firstIndex + UInt64.ofNat 0))
    (fun k => exactElement h.descriptor base map (firstIndex.toNat + k)) 0 1 count
    (fun k _ => request k) (fun k _ => carries k) ?_ ?_ ?_ values responder).mpr (.inl ?_)
  · intro k inElements fits values responder
    obtain ⟨index, inside⟩ := toNat_index size inRange inElements
    obtain ⟨requests, ending⟩ := element k values responder
    have found := frontdoorAddress_found bus (m := h.range) map (firstIndex + UInt64.ofNat k) valid rfl
      proper placed (index ▸ inside)
    rw [index] at found
    rw [requests, ending, place_eq]
    exact element_requests fits found (start k values) responder
  · intro place located values responder
    rw [(element 0 values responder).1]
    exact burst_issues (fun _ => h.range.frontdoorAddress bus map (firstIndex + UInt64.ofNat 0)) _ _ _ _
      0 0 located (start 0 values) responder
  · intro error thrown values responder
    obtain ⟨requests, ending⟩ := element 0 values responder
    have stops := burst_threw (fun _ => h.range.frontdoorAddress bus map (firstIndex + UInt64.ofNat 0))
      (fun _ => request 0) respond complete (firstIndex + UInt64.ofNat 0) 0 0 thrown (start 0 values)
      responder
    rw [requests, ending]
    exact ⟨congrArg Burst.requests stops, congrArg Burst.ending stops⟩
  · intro address member
    obtain ⟨k, inElements, member⟩ := List.mem_flatMap.mp member
    obtain ⟨transfer, -, rfl⟩ := List.mem_map.mp member
    exact fits k (by have := (List.mem_range'_1.mp inElements).2; omega)

/-- The frontdoor operations of a narrow memory. -/
theorem issue_faithful (made : make bus descriptor base = .ok h) (map : Option RegisterAddressMap)
    (operation : MemoryOperation bus (BitVec bus.dataBits) S)
    (size : operation.values.length < 2 ^ 64) : (h.issue base map operation).Faithful bus := by
  cases operation with
  | write firstIndex values master responder =>
    rw [issue, write]
    cases checked : h.range.requireWrite firstIndex (UInt64.ofNat values.length) with
    | error error => exact faithful_checked _ _ rfl
    | ok _ =>
      obtain ⟨_, inRange, -⟩ := after_bind checked
      rw [Cpptb.RegisterModel.checked]
      by_cases empty : values.isEmpty = true
      · rw [if_pos empty, List.isEmpty_iff.mp empty]
        exact ⟨List.prefix_rfl, fun ⟨_, member, _⟩ => absurd member List.not_mem_nil⟩
      · rw [if_neg empty]
        cases supported : h.requireFrontdoorSupported map with
        | error error => exact faithful_checked _ _ rfl
        | ok _ =>
          exact faithful_elements made supported (fun request : WriteRequest bus => request.address.toNat)
            size ((MemoryRange.requireRange_iff _ _).mp inRange)
            (fun k target => ⟨BitVec.ofNat _ target.toNat, values.getD k 0, h.allBytes⟩) master.write
            (fun _ _ _ => ()) (fun _ _ => ()) (fun _ _ => rfl) (fun _ _ _ => ⟨rfl, rfl⟩) () responder
  | read firstIndex values master responder =>
    rw [issue, read]
    cases checked : h.range.requireRead firstIndex (UInt64.ofNat values.length) with
    | error error => exact faithful_checked _ _ rfl
    | ok _ =>
      obtain ⟨_, inRange, -⟩ := after_bind checked
      rw [Cpptb.RegisterModel.checked]
      by_cases empty : values.isEmpty = true
      · rw [if_pos empty, List.isEmpty_iff.mp empty]
        exact ⟨List.prefix_rfl, fun ⟨_, member, _⟩ => absurd member List.not_mem_nil⟩
      · rw [if_neg empty]
        cases supported : h.requireFrontdoorSupported map with
        | error error => exact faithful_checked _ _ rfl
        | ok _ =>
          refine faithful_elements made supported (fun request : ReadRequest bus => request.address.toNat)
            size ((MemoryRange.requireRange_iff _ _).mp inRange)
            (fun _ target => ⟨BitVec.ofNat _ target.toNat⟩) master.read (fun _ data _ => data)
            (fun k (values : List (BitVec bus.dataBits)) => values.getD k 0) (fun _ _ => rfl) ?_ values
            responder
          exact fun _ _ _ => ⟨rfl, rfl⟩

end RegisterMemoryHandle

end Memories

/-- **The bus addresses of all frontdoors.** Registers without a map and narrow memories never truncate
or wrap an address. In a map, and in a wide memory, an accepted access is faithful exactly where all its
exact addresses fit the bus, or where, in a map, already the first of them does not. -/
theorem bus_addresses_exact (bus : BusTypes) :
    (∀ (h : RegisterHandle bus) (base : UInt64), h.Constructed base → ∀ map operation,
      ((h.issue base map operation).Faithful bus ↔ map = none ∨ ¬ h.Accepts operation ∨
        BusAccess.Fits bus (h.issue base map operation).planned ∨
          BusAccess.FirstMisses bus (h.issue base map operation).planned)) ∧
    (∀ (Width : ℕ) (h : WideRegisterHandle bus Width) (base : UInt64), h.Constructed base →
      ∀ map operation,
      ((h.issue base map operation).Faithful bus ↔ map = none ∨ ¬ h.Accepts operation ∨
        BusAccess.Fits bus (h.issue base map operation).planned ∨
          BusAccess.FirstMisses bus (h.issue base map operation).planned)) ∧
    (∀ (descriptor : RegisterMemoryDescriptor) (base : UInt64) (h : RegisterMemoryHandle bus),
      RegisterMemoryHandle.make bus descriptor base = .ok h →
      ∀ (S : Type) map (operation : MemoryOperation bus (BitVec bus.dataBits) S),
      operation.values.length < 2 ^ 64 → (h.issue base map operation).Faithful bus) ∧
    (∀ (Width : ℕ) (descriptor : RegisterMemoryDescriptor) (base : UInt64)
      (h : WideRegisterMemoryHandle bus Width), 0 < Width →
      WideRegisterMemoryHandle.make bus Width descriptor base = .ok h →
      ∀ (S : Type) map (operation : MemoryOperation bus (BitVec Width) S),
      operation.values.length < 2 ^ 64 →
      ((h.issue base map operation).Faithful bus ↔ ¬ h.Accepts operation ∨
        BusAccess.Fits bus (h.issue base map operation).planned ∨
          (map ≠ none ∧ BusAccess.FirstMisses bus (h.issue base map operation).planned))) :=
  ⟨fun _ _ constructed map operation =>
      RegisterHandle.issue_faithful_iff constructed map operation,
    fun _ _ _ constructed map operation =>
      WideRegisterHandle.issue_faithful_iff constructed map operation,
    fun _ _ _ made _ map operation size =>
      RegisterMemoryHandle.issue_faithful made map operation size,
    fun _ _ _ _ positive made _ map operation size =>
      WideRegisterMemoryHandle.issue_faithful_iff positive made map operation size⟩

/-- A wide memory that ends beyond the bus sends its second element to the addresses 0, 4, 8, 12; a
register of two transfers that a map puts at the end of the bus sends the second one to address 0. -/
theorem bus_addresses_wrap :
    (∃ (bus : BusTypes) (descriptor : RegisterMemoryDescriptor)
      (h : WideRegisterMemoryHandle bus 128) (operation : MemoryOperation bus (BitVec 128) Unit),
      WideRegisterMemoryHandle.make bus 128 descriptor 0xfff0 = .ok h ∧
      h.issue 0xfff0 none operation
        = ⟨[0x10000, 0x10004, 0x10008, 0x1000c], [0, 4, 8, 12], false⟩ ∧
      ¬ (h.issue 0xfff0 none operation).Faithful bus) ∧
    (∃ (bus : BusTypes) (h : RegisterHandle bus) (map : RegisterAddressMap)
      (operation : RegisterOperation bus Word), h.Constructed 0 ∧
      h.issue 0 (some map) operation = ⟨[0xfffc, 0x10000], [0xfffc, 0], false⟩ ∧
      ¬ (h.issue 0 (some map) operation).Faithful bus) := by
  have wrapped : ∀ {bus : BusTypes} {access : BusAccess} (last : ℕ), last ∈ access.planned →
      bus.addressMax < last → access.addresses ≠ [] → ¬ access.Faithful bus :=
    fun _ member beyond issued faithful => issued (faithful.2 ⟨_, member, beyond⟩).1
  constructor
  · let bus : BusTypes := ⟨16, 32, 4, by decide, by decide⟩
    let descriptor : RegisterMemoryDescriptor :=
      { path := "table", entries := 2, width := 128, accessWidth := 32 }
    let operation : MemoryOperation bus (BitVec 128) Unit :=
      .write 1 [0] ⟨fun s _ => (some 0, s), fun s _ => (some (), s)⟩ ()
    have issued : (⟨descriptor, 0xfff0⟩ : WideRegisterMemoryHandle bus 128).issue 0xfff0 none operation
        = ⟨[0x10000, 0x10004, 0x10008, 0x1000c], [0, 4, 8, 12], false⟩ := by decide +kernel
    refine ⟨bus, descriptor, ⟨descriptor, 0xfff0⟩, operation, by decide +kernel, issued, ?_⟩
    exact wrapped 0x10000 (by rw [issued]; decide) (by decide) (by rw [issued]; decide)
  · let bus : BusTypes := ⟨16, 32, 4, by decide, by decide⟩
    let h : RegisterHandle bus := {
      descriptor := { path := "counter", width := 64, accessWidth := 32 }
      userEffects := none, hasBackdoor := false, effectiveAddress := 0, autoPredict := true
      staged := 0, mirrored := 0, stagedValidMask := 0, mirroredValidMask := 0, writtenOnceMask := 0 }
    let map : RegisterAddressMap := { name := "high", baseAddress := 0xfffc }
    have issued : h.issue 0 (some map) (.write 0 fun _ _ => some ())
        = ⟨[0xfffc, 0x10000], [0xfffc, 0], false⟩ := by decide +kernel
    refine ⟨bus, h, map, .write 0 fun _ _ => some (), ⟨h, none, false, by with_unfolding_all rfl, rfl⟩,
      issued, ?_⟩
    exact wrapped 0x10000 (by rw [issued]; decide) (by decide) (by rw [issued]; decide)

end Cpptb.RegisterModel
