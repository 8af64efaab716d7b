/-
`RegisterPredictor`: the mirrors follow the transactions that a monitor sees.

A predictor holds an entry for each handle, in the order of their addresses, and finds the one of a
transaction with a binary search. `find_iff` says which transfers it finds, `write_predicts` what it then
does with the handle, and `writes_same` that no transaction changes which registers it follows.
-/

import Cpptb.Lib.Ranges
import Cpptb.RegisterModel.Addresses

namespace Cpptb.RegisterModel

open Cpptb.Vc (wrap MemoryOperation normalizeAddress memoryOkay)

/-- A `MemoryTransaction`, with its data. -/
structure BusTransaction extends Vc.MemoryTransaction where
  data : UInt64 := 0
  deriving DecidableEq, Repr

namespace RegisterPredictor

/-- `RegisterPredictor::Entry`. `handle` is the position of the handle. -/
structure Entry where
  address : ℕ
  endAddress : ℕ
  transferBytes : ℕ
  handle : ℕ
  deriving DecidableEq, Repr

/-- The warning of a write with byte enables outside the transfer. -/
def byteEnableWarning (path : String) (outside : UInt64) : String :=
  "register predictor ignored byte-enable bits outside the register width: " ++ path ++ " mask=" ++
    toString outside.toNat

end RegisterPredictor

/-- `RegisterPredictor`, with the handles that it was given. -/
structure RegisterPredictor (bus : BusTypes) where
  handles : List (RegisterHandle bus)
  entries : List RegisterPredictor.Entry
  reads : ℕ := 0
  writes : ℕ := 0
  failed : ℕ := 0
  unmapped : ℕ := 0
  invalidByteEnables : ℕ := 0
  warnings : List String := []

namespace RegisterPredictor

variable {bus : BusTypes}

section Construction

/-- The entry of a handle, whose `end_address` checks the access. -/
def entryOf (placed : RegisterHandle bus × ℕ) : Except Error Entry := do
  placed.1.requireSupportedAccess
  pure
    { address := placed.1.effectiveAddress
      endAddress := placed.1.endAddress
      transferBytes := placed.1.descriptor.transferBytes
      handle := placed.2 }

/-- The loop of `sort_and_validate`. -/
def validate : List Entry → Except Error Unit
  | first :: second :: rest => do
    throwIf (second.address < first.endAddress) (.invalidArgument
      ("cpptb-vc: register predictor has duplicate address or overlapping range at " ++
        toString second.address))
    validate (second :: rest)
  | _ => pure ()

/-- The constructor. -/
def make (handles : List (RegisterHandle bus)) : Except Error (RegisterPredictor bus) := do
  let entries ← handles.zipIdx.mapM entryOf
  let sorted := entries.insertionSort fun left right => left.address ≤ right.address
  validate sorted
  pure { handles := handles, entries := sorted }

end Construction

section Prediction

/-- `find`. -/
def find (p : RegisterPredictor bus) (address : ℕ) : Option Entry :=
  match (Ranges.onwards Entry.address address p.entries).head? with
  | some found => if found.address = address then some found else previous
  | none => previous
where
  /-- The entry before, if it holds a transfer at the address. -/
  previous : Option Entry :=
    match (Ranges.before Entry.address address p.entries).getLast? with
    | some before =>
        if address < before.endAddress ∧ before.transferBytes ≠ 0 ∧
            (address - before.address) % before.transferBytes = 0 then some before
        else none
    | none => none

/-- `valid_byte_enable_mask`. -/
def allowedBytes (h : RegisterHandle bus) : UInt64 :=
  UInt64.ofNat (if 64 ≤ h.descriptor.transferBytes then 2 ^ 64 - 1
    else 2 ^ h.descriptor.transferBytes - 1)

/-- The byte enables that `write` passes to a handle. -/
def enables (h : RegisterHandle bus) (byteEnable : UInt64) : BitVec bus.byteEnableBits :=
  (byteEnable &&& allowedBytes h).toBitVec.setWidth _

/-- What `write` does with the handle of an entry. -/
def predictHandle (h : RegisterHandle bus) (address : UInt64) (transaction : BusTransaction) :
    Except Error (RegisterHandle bus) :=
  match transaction.operation with
  | .read => h.predictTransferRead address (transaction.data.toBitVec.setWidth _)
  | .write => h.predictTransferWrite address (transaction.data.toBitVec.setWidth _)
      (enables h transaction.byteEnable)

/-- The tallies of `write`, once the handle is predicted. -/
def tally (p : RegisterPredictor bus) (h : RegisterHandle bus) (transaction : BusTransaction) :
    RegisterPredictor bus :=
  match transaction.operation with
  | .read => { p with reads := p.reads + 1 }
  | .write =>
      let outside := transaction.byteEnable &&& ~~~allowedBytes h
      if outside = 0 then { p with writes := p.writes + 1 }
      else { p with
        writes := p.writes + 1
        invalidByteEnables := p.invalidByteEnables + 1
        warnings := p.warnings ++ [byteEnableWarning h.descriptor.path outside] }

/-- `write`. -/
def write (p : RegisterPredictor bus) (transaction : BusTransaction) :
    Except Error (RegisterPredictor bus) :=
  if !memoryOkay transaction.status then .ok { p with failed := p.failed + 1 }
  else
    match normalizeAddress transaction.address with
    | none => .ok { p with unmapped := p.unmapped + 1 }
    | some address =>
        match p.find address with
        | none => .ok { p with unmapped := p.unmapped + 1 }
        | some entry =>
            match p.handles[entry.handle]? with
            | none => .ok p
            | some h => do
                let target := wrap (h.effectiveAddress + (address - entry.address))
                let next ← predictHandle h (UInt64.ofNat target) transaction
                pure { p.tally h transaction with handles := p.handles.set entry.handle next }

/-- An okay transaction is predicted for the handle at a position. -/
def Predicts (p : RegisterPredictor bus) (position : ℕ) (transaction : BusTransaction) : Prop :=
  memoryOkay transaction.status = true ∧
    ∃ address, normalizeAddress transaction.address = some address ∧
      ∃ entry, p.find address = some entry ∧ entry.handle = position

end Prediction

section Found

variable {handles : List (RegisterHandle bus)} {p : RegisterPredictor bus}

/-- Validated entries that are not empty are apart. -/
theorem apart_of_validate {entries : List Entry} (proper : ∀ e ∈ entries, e.address < e.endAddress)
    (valid : validate entries = .ok ()) : Ranges.Apart Entry.address Entry.endAddress entries := by
  refine ⟨proper, ?_⟩
  induction entries with
  | nil => exact .nil
  | cons first rest ih =>
    cases rest with
    | nil => exact List.pairwise_singleton _ _
    | cons second rest =>
      obtain ⟨apart, valid⟩ := after_throwIf valid
      have later := ih (fun e member => proper e (List.mem_cons_of_mem _ member)) valid
      refine List.pairwise_cons.mpr ⟨fun other member => ?_, later⟩
      rcases List.mem_cons.mp member with rfl | further
      · exact not_lt.mp apart
      · have next := (List.pairwise_cons.mp later).1 other further
        have positive := proper second (List.mem_cons_of_mem _ List.mem_cons_self)
        omega

/-- What the search finds among entries that are apart: the transfer at the address. -/
theorem find_iff (apart : Ranges.Apart Entry.address Entry.endAddress p.entries)
    (sized : ∀ e ∈ p.entries, e.transferBytes ≠ 0) {address : ℕ} {e : Entry} :
    p.find address = some e ↔ e ∈ p.entries ∧ (e.address ≤ address ∧ address < e.endAddress) ∧
      (address - e.address) % e.transferBytes = 0 := by
  by_cases here : ∃ first ∈ p.entries, first.address = address
  · -- an entry that starts at the address is the only one that holds it
    obtain ⟨first, member, rfl⟩ := here
    have positive := apart.proper first member
    simp only [find, Ranges.head_onwards apart member rfl, if_true, Option.some.injEq]
    constructor
    · rintro rfl
      exact ⟨member, ⟨le_rfl, positive⟩, by rw [Nat.sub_self, Nat.zero_mod]⟩
    · rintro ⟨member', inside, -⟩
      exact apart.unique member member' ⟨le_rfl, positive⟩ inside
  · have elsewhere : ∀ first ∈ p.entries, first.address ≠ address := fun first member same =>
      here ⟨first, member, same⟩
    have skipped : p.find address = find.previous p address := by
      unfold find
      cases found : (Ranges.onwards Entry.address address p.entries).head? with
      | none => rfl
      | some next =>
        exact if_neg (elsewhere next (Ranges.mem_onwards apart (List.mem_of_head? found)).1)
    rw [skipped]
    unfold find.previous
    rw [Ranges.before_eq_upTo elsewhere]
    have last := @Ranges.last_upTo_iff _ _ _ _ _ _ apart address e
    cases found : (Ranges.upTo Entry.address address p.entries).getLast? with
    | none =>
      rw [found] at last
      exact iff_of_false nofun fun inside => nomatch (last.mpr ⟨inside.1, inside.2.1⟩).1
    | some before =>
      rw [found, Option.some.injEq] at last
      simp only
      constructor
      · intro picked
        split at picked
        next fits =>
          obtain rfl := Option.some.inj picked
          have inside := last.mp ⟨rfl, fits.1⟩
          exact ⟨inside.1, inside.2, fits.2.2⟩
        next => cases picked
      · rintro ⟨member, inside, aligned⟩
        obtain ⟨rfl, -⟩ := last.mpr ⟨member, inside⟩
        rw [if_pos ⟨inside.2, sized before member, aligned⟩]

/-- What a supported access has passed. -/
structure Supported (h : RegisterHandle bus) : Prop where
  width : h.descriptor.width ≠ 0 ∧ h.descriptor.width % 8 = 0 ∧ h.descriptor.width ≤ 64
  transferWidth : h.descriptor.transferWidth ≠ 0 ∧ h.descriptor.transferWidth % 8 = 0 ∧
    h.descriptor.transferWidth ≤ h.descriptor.width ∧
    h.descriptor.width % h.descriptor.transferWidth = 0

theorem supported_of_ok {h : RegisterHandle bus} (ok : h.requireSupportedAccess = .ok ()) :
    Supported h := by
  obtain ⟨shape, ok⟩ := after_throwIf ok
  obtain ⟨split, -⟩ := after_throwIf ok
  simp only [not_or, not_not, not_lt] at shape split
  exact ⟨shape, split.1, split.2.1, split.2.2.1, split.2.2.2.1⟩

theorem Supported.transferBytes_ne_zero {h : RegisterHandle bus} (supported : Supported h) :
    h.descriptor.transferBytes ≠ 0 := by
  have := supported.transferWidth
  unfold RegisterDescriptor.transferBytes
  omega

/-- A constructed handle of a supported register ends where its bytes do. -/
theorem endAddress_eq {h : RegisterHandle bus} {base : UInt64} (constructed : h.Constructed base)
    (supported : Supported h) : h.endAddress = h.effectiveAddress + h.descriptor.width / 8 := by
  have ends := constructed.effectiveAddress_eq.2 supported.width.2.1
  exact RegisterModel.wrap_of_lt (by omega)

theorem forall₂_of_mapM {α β : Type} {f : α → Except Error β} {as : List α} {bs : List β}
    (ok : as.mapM f = .ok bs) : List.Forall₂ (fun a b => f a = .ok b) as bs := by
  induction as generalizing bs with
  | nil =>
    cases ok
    exact .nil
  | cons a rest ih =>
    rw [List.mapM_cons] at ok
    obtain ⟨b, here, ok⟩ := after_bind ok
    obtain ⟨others, later, ok⟩ := after_bind ok
    obtain rfl := Except.ok.inj ok
    exact .cons here (ih later)

/-- The entries of a predictor of constructed handles. -/
structure Entries (p : RegisterPredictor bus) : Prop where
  apart : Ranges.Apart Entry.address Entry.endAddress p.entries
  sized : ∀ e ∈ p.entries, e.transferBytes ≠ 0
  entryOf : ∀ e ∈ p.entries, ∃ h, p.handles[e.handle]? = some h ∧ entryOf (h, e.handle) = .ok e
  all : ∀ position h, p.handles[position]? = some h →
    ∃ e ∈ p.entries, RegisterPredictor.entryOf (h, position) = .ok e

/-- The entry of a handle. -/
theorem entryOf_ok {h : RegisterHandle bus} {position : ℕ} {e : Entry}
    (ok : entryOf (h, position) = .ok e) : Supported h ∧ e.address = h.effectiveAddress ∧
      e.endAddress = h.endAddress ∧ e.transferBytes = h.descriptor.transferBytes ∧
      e.handle = position := by
  obtain ⟨_, supported, ok⟩ := after_bind ok
  obtain rfl := Except.ok.inj ok
  exact ⟨supported_of_ok supported, rfl, rfl, rfl, rfl⟩

theorem entries_of_make (made : make handles = .ok p)
    (constructed : ∀ h ∈ handles, ∃ base, h.Constructed base) :
    p.Entries ∧ p.handles = handles := by
  obtain ⟨entries, mapped, made⟩ := after_bind made
  obtain ⟨_, valid, made⟩ := after_bind made
  obtain rfl := Except.ok.inj made
  have each := forall₂_of_mapM mapped
  have sorted : ∀ e, e ∈ entries.insertionSort (fun left right => left.address ≤ right.address) ↔
      e ∈ entries := fun e => List.mem_insertionSort _
  have origin : ∀ e ∈ entries, ∃ h, handles[e.handle]? = some h ∧ entryOf (h, e.handle) = .ok e := by
    intro e member
    obtain ⟨⟨h, position⟩, inside, ok⟩ : ∃ placed ∈ handles.zipIdx, entryOf placed = .ok e := by
      obtain ⟨index, bound, rfl⟩ := List.getElem_of_mem member
      have bound' : index < handles.zipIdx.length := each.length_eq ▸ bound
      exact ⟨handles.zipIdx[index], List.getElem_mem bound', (List.forall₂_iff_get.mp each).2 index bound' bound⟩
    obtain ⟨-, -, -, -, same⟩ := entryOf_ok ok
    exact ⟨h, same ▸ List.mem_zipIdx_iff_getElem?.mp inside, same ▸ ok⟩
  refine ⟨⟨apart_of_validate ?_ valid, ?_, fun e member => origin e ((sorted e).mp member), ?_⟩, rfl⟩
  · intro e member
    obtain ⟨h, found, ok⟩ := origin e ((sorted e).mp member)
    obtain ⟨supported, address, endAddress, -, -⟩ := entryOf_ok ok
    obtain ⟨base, built⟩ := constructed h (List.mem_of_getElem? found)
    rw [address, endAddress, endAddress_eq built supported]
    have := supported.width
    omega
  · intro e member
    obtain ⟨h, -, ok⟩ := origin e ((sorted e).mp member)
    obtain ⟨supported, -, -, bytes, -⟩ := entryOf_ok ok
    exact bytes ▸ supported.transferBytes_ne_zero
  · intro position h found
    have inside : (h, position) ∈ handles.zipIdx := List.mem_zipIdx_iff_getElem?.mpr found
    obtain ⟨index, bound, here⟩ := List.getElem_of_mem inside
    have bound' : index < entries.length := each.length_eq ▸ bound
    have ok := (List.forall₂_iff_get.mp each).2 index bound bound'
    rw [List.get_eq_getElem, here] at ok
    exact ⟨_, (sorted _).mpr (List.getElem_mem bound'), ok⟩

end Found

section Predicts

variable {p : RegisterPredictor bus} {h : RegisterHandle bus} {position : ℕ}

/-- A transaction is predicted for a handle when its address is one of its transfers. -/
theorem predicts_iff (entries : p.Entries) (found : p.handles[position]? = some h)
    (transaction : BusTransaction) :
    p.Predicts position transaction ↔ memoryOkay transaction.status = true ∧
      ∃ address, normalizeAddress transaction.address = some address ∧
        h.isTransferAddress address = true := by
  refine and_congr_right fun _ => exists_congr fun address => and_congr_right fun _ => ?_
  simp only [RegisterHandle.isTransferAddress, Bool.and_eq_true, decide_eq_true_eq, beq_iff_eq]
  constructor
  · rintro ⟨e, here, rfl⟩
    obtain ⟨member, inside, aligned⟩ := (find_iff entries.apart entries.sized).mp here
    obtain ⟨h', found', ok⟩ := entries.entryOf e member
    obtain rfl := Option.some.inj (found'.symm.trans found)
    obtain ⟨-, address', endAddress, bytes, -⟩ := entryOf_ok ok
    rw [← address', ← endAddress, ← bytes]
    exact ⟨inside, aligned⟩
  · rintro ⟨inside, aligned⟩
    obtain ⟨e, member, ok⟩ := entries.all position h found
    obtain ⟨-, address', endAddress, bytes, same⟩ := entryOf_ok ok
    rw [← address', ← endAddress] at inside
    rw [← address', ← bytes] at aligned
    exact ⟨e, (find_iff entries.apart entries.sized).mpr ⟨member, inside, aligned⟩, same⟩

/-- The first bit of the transfer at an address. -/
def bitOffset (h : RegisterHandle bus) (address : ℕ) : ℕ :=
  h.descriptor.transferBitOffset ((address - h.effectiveAddress) / h.descriptor.transferBytes)

/-- The register bits that a transaction transfers. -/
def transferMask (h : RegisterHandle bus) (address : ℕ) (transaction : BusTransaction) : Word :=
  match transaction.operation with
  | .read => h.chunkMask <<< bitOffset h address
  | .write => RegisterHandle.enabledBytesMask h.descriptor.transferBytes
      (enables h transaction.byteEnable) <<< bitOffset h address

/-- The prediction of the bits that a transaction transfers. -/
def predicted (h : RegisterHandle bus) (address : ℕ) (transaction : BusTransaction) :
    RegisterHandle bus :=
  let value : Word := (transaction.data.toBitVec.setWidth bus.dataBits).setWidth 64 <<<
    bitOffset h address
  match transaction.operation with
  | .read => h.predictReadMasked value (transferMask h address transaction)
  | .write => h.predictWriteMasked value (transferMask h address transaction)

/-- `write` predicts the transferred bits of the handle. -/
theorem write_predicts (entries : p.Entries) (found : p.handles[position]? = some h)
    {transaction : BusTransaction} (predicts : p.Predicts position transaction) :
    ∃ address, normalizeAddress transaction.address = some address ∧
      p.write transaction = .ok { p.tally h transaction with
        handles := p.handles.set position (predicted h address transaction) } := by
  obtain ⟨okay, address, normal, e, here, rfl⟩ := predicts
  refine ⟨address, normal, ?_⟩
  obtain ⟨member, inside, aligned⟩ := (find_iff entries.apart entries.sized).mp here
  obtain ⟨h', found', ok⟩ := entries.entryOf e member
  obtain rfl := Option.some.inj (found'.symm.trans found)
  have supported : h'.requireSupportedAccess = .ok () := (after_bind ok).choose_spec.1
  obtain ⟨-, start, endAddress, bytes, -⟩ := entryOf_ok ok
  have small : address < 2 ^ 64 := by
    unfold normalizeAddress Vc.wrap at normal
    split at normal
    · cases normal
    · injection normal with normal
      omega
  have target : wrap (h'.effectiveAddress + (address - e.address)) = address := by
    rw [← start, Nat.add_sub_cancel' inside.1]
    exact RegisterModel.wrap_of_lt small
  have toNat : (UInt64.ofNat address).toNat = address := UInt64.toNat_ofNat_of_lt small
  have transfer : h'.isTransferAddress address = true := by
    simp only [RegisterHandle.isTransferAddress, Bool.and_eq_true, decide_eq_true_eq, beq_iff_eq]
    rw [← start, ← endAddress, ← bytes]
    exact ⟨inside, aligned⟩
  have required : h'.requireTransferAddress (UInt64.ofNat address) =
      .ok ((address - h'.effectiveAddress) / h'.descriptor.transferBytes) := by
    rw [RegisterHandle.requireTransferAddress, supported, ok_bind, toNat, transfer, throwIf_of_not
      (by decide), ok_bind]
    rfl
  have step : predictHandle h' (UInt64.ofNat address) transaction =
      .ok (predicted h' address transaction) := by
    unfold predictHandle predicted transferMask
    cases transaction.operation with
    | read =>
      simp only [RegisterHandle.predictTransferRead, required, ok_bind]
      rfl
    | write =>
      simp only [RegisterHandle.predictTransferWrite, required, ok_bind]
      rfl
  unfold write
  rw [okay, normal]
  simp only [Bool.not_true, Bool.false_eq_true, if_false, here, found', target, step, ok_bind]
  rfl

/-- A prediction changes neither the register nor its address. -/
theorem predicted_same (h : RegisterHandle bus) (address : ℕ) (transaction : BusTransaction) :
    (predicted h address transaction).descriptor = h.descriptor ∧
      (predicted h address transaction).effectiveAddress = h.effectiveAddress := by
  unfold predicted
  cases transaction.operation with
  | read =>
    simp only [RegisterHandle.predictReadMasked]
    split
    · exact ⟨rfl, rfl⟩
    · split <;> exact ⟨rfl, rfl⟩
  | write =>
    simp only [RegisterHandle.predictWriteMasked]
    split <;> exact ⟨rfl, rfl⟩

end Predicts

section Runs

variable {p q r : RegisterPredictor bus}

/-- The same entries, for the same registers. -/
structure SameRegisters (p q : RegisterPredictor bus) : Prop where
  entries : q.entries = p.entries
  handles : q.handles.map (fun h => (h.descriptor, h.effectiveAddress)) =
    p.handles.map fun h => (h.descriptor, h.effectiveAddress)

theorem SameRegisters.refl (p : RegisterPredictor bus) : SameRegisters p p := ⟨rfl, rfl⟩

theorem SameRegisters.trans (first : SameRegisters p q) (second : SameRegisters q r) :
    SameRegisters p r :=
  ⟨second.entries.trans first.entries, second.handles.trans first.handles⟩

theorem SameRegisters.symm (same : SameRegisters p q) : SameRegisters q p :=
  ⟨same.entries.symm, same.handles.symm⟩

/-- The handle at a position, before and after. -/
theorem SameRegisters.handle (same : SameRegisters p q) {position : ℕ} {h : RegisterHandle bus}
    (found : p.handles[position]? = some h) : ∃ h', q.handles[position]? = some h' ∧
      h'.descriptor = h.descriptor ∧ h'.effectiveAddress = h.effectiveAddress := by
  have here := congrArg (·[position]?) same.handles
  simp only [List.getElem?_map, found, Option.map_some] at here
  obtain ⟨h', found', both⟩ := Option.map_eq_some_iff.mp here
  exact ⟨h', found', Prod.mk.inj both⟩

theorem entryOf_congr {h h' : RegisterHandle bus} (descriptor : h'.descriptor = h.descriptor)
    (address : h'.effectiveAddress = h.effectiveAddress) (position : ℕ) :
    entryOf (h', position) = entryOf (h, position) := by
  unfold entryOf RegisterHandle.requireSupportedAccess RegisterHandle.endAddress
  simp only [descriptor, address]

theorem Entries.congr (entries : p.Entries) (same : SameRegisters p q) : q.Entries where
  apart := same.entries ▸ entries.apart
  sized := same.entries ▸ entries.sized
  entryOf e member := by
    obtain ⟨h, found, ok⟩ := entries.entryOf e (same.entries ▸ member)
    obtain ⟨h', found', descriptor, address⟩ := same.handle found
    exact ⟨h', found', (entryOf_congr descriptor address _).trans ok⟩
  all position h found := by
    obtain ⟨h', found', descriptor, address⟩ := same.symm.handle found
    obtain ⟨e, member, ok⟩ := entries.all position h' found'
    exact ⟨e, same.entries ▸ member, (entryOf_congr descriptor address _).symm.trans ok⟩

/-- A transaction that is predicted for no handle leaves the handles as they are. -/
theorem write_other {transaction : BusTransaction}
    (missed : ∀ position, ¬p.Predicts position transaction) :
    ∃ q, p.write transaction = .ok q ∧ q.entries = p.entries ∧ q.handles = p.handles := by
  unfold write
  cases okay : memoryOkay transaction.status with
  | false => exact ⟨_, rfl, rfl, rfl⟩
  | true =>
    cases normal : normalizeAddress transaction.address with
    | none => exact ⟨_, rfl, rfl, rfl⟩
    | some address =>
      cases here : p.find address with
      | none =>
        refine ⟨{ p with unmapped := p.unmapped + 1 }, ?_, rfl, rfl⟩
        simp only [here]
        rfl
      | some e => exact absurd ⟨okay, address, normal, e, here, rfl⟩ (missed e.handle)

/-- `write` of a transaction throws nothing. -/
theorem write_same (entries : p.Entries) (transaction : BusTransaction) :
    ∃ q, p.write transaction = .ok q ∧ SameRegisters p q := by
  by_cases some' : ∃ position, p.Predicts position transaction
  · obtain ⟨position, predicts⟩ := some'
    obtain ⟨h, found⟩ : ∃ h, p.handles[position]? = some h := by
      obtain ⟨-, _, -, e, here, rfl⟩ := predicts
      obtain ⟨h, found, -⟩ := entries.entryOf e ((find_iff entries.apart entries.sized).mp here).1
      exact ⟨h, found⟩
    obtain ⟨address, -, written⟩ := write_predicts entries found predicts
    have tally : (p.tally h transaction).entries = p.entries := by
      unfold RegisterPredictor.tally
      cases transaction.operation with
      | read => rfl
      | write =>
        simp only
        split <;> rfl
    refine ⟨_, written, tally, ?_⟩
    obtain ⟨descriptor, place⟩ := predicted_same h address transaction
    refine List.ext_getElem? fun index => ?_
    rw [List.getElem?_map, List.getElem?_map, List.getElem?_set]
    by_cases here : position = index
    · subst here
      have inside : position < p.handles.length := (List.getElem?_eq_some_iff.mp found).1
      rw [if_pos rfl, if_pos inside, found, Option.map_some, Option.map_some, descriptor, place]
    · rw [if_neg here]
  · obtain ⟨q, written, same, handles⟩ := write_other (not_exists.mp some')
    exact ⟨q, written, same, congrArg _ handles⟩

/-- **Any transactions leave a predictor of the same registers.** -/
theorem writes_same (entries : p.Entries) (transactions : List BusTransaction) :
    ∃ q, transactions.foldlM write p = .ok q ∧ SameRegisters p q := by
  induction transactions generalizing p with
  | nil => exact ⟨p, rfl, .refl p⟩
  | cons first rest ih =>
    obtain ⟨middle, written, same⟩ := write_same entries first
    obtain ⟨q, later, same'⟩ := ih (entries.congr same)
    refine ⟨q, ?_, same.trans same'⟩
    rw [List.foldlM_cons, written]
    exact later

end Runs

end RegisterPredictor

end Cpptb.RegisterModel
