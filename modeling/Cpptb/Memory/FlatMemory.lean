/-
What the sparse memory is for: a flat byte map.

`FlatMemory` is a set of regions and one byte for every address. A region is accepted if it meets no
other; it sets its range to its fill value. An access finds the region that contains its whole range
and fails if there is none or if its permission is missing; a write sets the enabled bytes of its
range and a read returns the bytes of its range. Addresses are natural numbers, so nothing wraps.
-/

import Cpptb.Memory.SparseMemory

namespace Cpptb.Memory

/-- A byte map with regions. -/
structure FlatMemory where
  regions : List MemoryRegionConfig := []
  byte : Nat → Byte := fun _ => 0

/-- The first address of a region. -/
def MemoryRegionConfig.first (config : MemoryRegionConfig) : Nat := config.base.toNat

/-- The first address after a region. -/
def MemoryRegionConfig.last (config : MemoryRegionConfig) : Nat :=
  config.base.toNat + config.size.toNat

/-- The range of an access lies in the region. -/
def MemoryRegionConfig.Contains (config : MemoryRegionConfig) (address size : Nat) : Prop :=
  config.first ≤ address ∧ address + size ≤ config.last

instance (config : MemoryRegionConfig) (address size : Nat) :
    Decidable (config.Contains address size) :=
  inferInstanceAs (Decidable (_ ∧ _))

/-- Two regions have a common address. -/
def MemoryRegionConfig.Meets (config other : MemoryRegionConfig) : Prop :=
  config.first < other.last ∧ other.first < config.last

instance (config other : MemoryRegionConfig) : Decidable (config.Meets other) :=
  inferInstanceAs (Decidable (_ ∧ _))

namespace FlatMemory

/-- The region that contains a range. -/
def region (f : FlatMemory) (address size : Nat) : Option MemoryRegionConfig :=
  f.regions.find? fun config => config.Contains address size

/-- The status of an access that needs a permission. -/
def status (f : FlatMemory) (needed : MemoryPermission → Bool) (address size : Nat) :
    MemoryStatus :=
  match f.region address size with
  | none => .decodeError
  | some config => if needed config.permission then .okay else .slaveError

/-- The bytes of a range. -/
def get (f : FlatMemory) (address size : Nat) : List Byte :=
  (List.range size).map fun index => f.byte (address + index)

/-- Set the enabled bytes of a range. -/
def put (f : FlatMemory) (address : Nat) (data : List Byte) (enabled : Nat → Bool) : FlatMemory :=
  { f with byte := fun x =>
      if address ≤ x ∧ x < address + data.length ∧ enabled (x - address) then
        data.getD (x - address) 0
      else f.byte x }

/-- The lanes a list of byte enables enables; no list enables every lane. -/
def lanes (byteEnable : List Byte) (index : Nat) : Bool :=
  byteEnable.isEmpty || byteEnable.getD index 0 != 0

/-- Read a range: its bytes, or zeros with the status of the failure. -/
def read (f : FlatMemory) (address size : Nat) : List Byte × MemoryStatus :=
  let status := f.status MemoryPermission.readable address size
  (if status = .okay then f.get address size else List.replicate size 0, status)

/-- Write a range. -/
def write (f : FlatMemory) (address : Nat) (data byteEnable : List Byte) :
    FlatMemory × MemoryWriteResponse :=
  let status := f.status MemoryPermission.writable address data.length
  (if status = .okay then f.put address data (lanes byteEnable) else f, { status := status })

/-- The byte order of a range. -/
def byteOrder (f : FlatMemory) (address size : Nat) : MemoryByteOrder :=
  ((f.region address size).map MemoryRegionConfig.byteOrder).getD .littleEndian

/-- Add a region, or say why not. -/
def addRegion (f : FlatMemory) (config : MemoryRegionConfig) : Except MemoryError FlatMemory :=
  if config.name.isEmpty then .error .emptyName
  else if config.size = 0 then .error .emptySize
  else if 2 ^ 64 ≤ config.last then .error .rangeOverflow
  else if f.regions.any fun other => config.Meets other then .error .overlap
  else .ok
    { regions := config :: f.regions
      byte := fun x => if config.first ≤ x ∧ x < config.last then config.fill else f.byte x }

/-- Run a function that needs its range to lie in a region. -/
def within {ρ : Type} (f : FlatMemory) (address size : Nat) (result : ρ) : Except MemoryError ρ :=
  if (f.region address size).isSome then .ok result else .error .notContained

/-- The memory and the reply of a call that may have failed. -/
def settle {ρ : Type} (f : FlatMemory) (memory : ρ → FlatMemory) (reply : ρ → MemoryReply) :
    Except MemoryError ρ → FlatMemory × Except MemoryError MemoryReply
  | .ok result => (memory result, .ok (reply result))
  | .error error => (f, .error error)

/-- Make a call. -/
def perform (f : FlatMemory) : MemoryCall → FlatMemory × Except MemoryError MemoryReply
  | .addRegion config => f.settle id (fun _ => .done) (f.addRegion config)
  | .readBytes address size =>
      let after := f.read address.toNat size
      (f, .ok (.bytes { data := after.1, status := after.2 }))
  | .writeBytes address data byteEnable =>
      if byteEnable ≠ [] ∧ byteEnable.length ≠ data.length then (f, .error .byteEnableCount)
      else
        let after := f.write address.toNat data byteEnable
        (after.1, .ok (.written after.2))
  | .readWord n address =>
      f.settle (fun _ => f) (.word n)
        ((SparseMemory.normalizeAddress address).map fun normalized =>
          let after := f.read normalized.toNat n
          { data := SparseMemory.wordOfBytes (f.byteOrder normalized.toNat n) n after.1
            status := after.2 })
  | .writeWord n address value byteEnable =>
      f.settle Prod.fst (fun after => .written after.2)
        ((SparseMemory.normalizeAddress address).map fun normalized =>
          f.write normalized.toNat
            (SparseMemory.bytesOfWord (f.byteOrder normalized.toNat n) n value)
            (SparseMemory.enablesOfWord n byteEnable))
  | .load address data =>
      f.settle id (fun _ => .done)
        (f.within address.toNat data.length (f.put address.toNat data fun _ => true))
  | .fill address size value =>
      f.settle id (fun _ => .done)
        (f.within address.toNat size
          (f.put address.toNat (List.replicate size value) fun _ => true))
  | .inspect address size =>
      f.settle (fun _ => f) .inspected
        (f.within address.toNat size (f.get address.toNat size))

end FlatMemory

/-- The number of bytes a call accesses; adding a region accesses none, whatever its size. -/
def MemoryCall.accessed : MemoryCall → Option Nat
  | .addRegion _ => none
  | .readBytes _ size | .fill _ size _ | .inspect _ size => some size
  | .writeBytes _ data _ | .load _ data => some data.length
  | .readWord n _ | .writeWord n _ _ _ => some n

end Cpptb.Memory
