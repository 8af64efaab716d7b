/-
The index and range tests of memories.

The constructors make sure that the whole memory lies below 2^64 (`MemoryRange.Valid`,
`valid_of_make`). From then on no range test wraps: each passes exactly where its unbounded reading does
(`requireRange_iff`, `indexFromOffset_iff`, `indexFromAbsolute_iff`), and the three ways to name an
element agree.
-/

import Cpptb.RegisterModel.MemoryHandles

namespace Cpptb.RegisterModel

section Words

theorem toNat_uint64Max : uint64Max.toNat = 2 ^ 64 - 1 := rfl

theorem toNat_bytes (descriptor : RegisterMemoryDescriptor) :
    descriptor.bytes.toNat = descriptor.width.toNat / 8 := by
  have := descriptor.width.toNat_lt
  rw [RegisterMemoryDescriptor.bytes, UInt64.toNat_ofNat', Nat.mod_eq_of_lt (by omega)]

theorem bytes_pos {descriptor : RegisterMemoryDescriptor}
    (proper : ¬ (descriptor.width = 0 ∨ descriptor.width % 8 ≠ 0)) : 0 < descriptor.width.toNat / 8 := by
  obtain ⟨nonzero, aligned⟩ := not_or.mp proper
  have aligned := congrArg UInt16.toNat (not_not.mp aligned)
  rw [UInt16.toNat_mod] at aligned
  have positive : descriptor.width.toNat ≠ 0 := fun zero => nonzero (UInt16.toNat_inj.mp zero)
  have : descriptor.width.toNat % 8 = 0 := aligned
  omega

/-- A product that has been tested against a quotient does not wrap. -/
theorem toNat_mul_of_le {index bytes limit : UInt64} (below : index ≤ limit / bytes) :
    (index * bytes).toNat = index.toNat * bytes.toNat ∧ index.toNat * bytes.toNat ≤ limit.toNat := by
  rw [UInt64.le_iff_toNat_le, UInt64.toNat_div] at below
  have fits := (Nat.mul_le_mul_right bytes.toNat below).trans (Nat.div_mul_le_self _ _)
  have := limit.toNat_lt
  exact ⟨by rw [UInt64.toNat_mul, Nat.mod_eq_of_lt (by omega)], fits⟩

theorem toNat_sub_max (base : UInt64) : (uint64Max - base).toNat = 2 ^ 64 - 1 - base.toNat := by
  have := base.toNat_lt
  rw [UInt64.toNat_sub_of_le _ _ (by rw [UInt64.le_iff_toNat_le, toNat_uint64Max]; omega),
    toNat_uint64Max]

/-- A test of a count against what is left after an index, in 64 bits and unbounded. -/
theorem range_test_iff (entries first count : UInt64) :
    ¬ (entries < first ∨ entries - first < count ∨ (count ≠ 0 ∧ first = entries)) ↔
      first.toNat + count.toNat ≤ entries.toNat := by
  constructor
  · intro passes
    obtain ⟨inside, rest⟩ := not_or.mp passes
    obtain ⟨enough, -⟩ := not_or.mp rest
    have inside := UInt64.not_lt.mp inside
    rw [UInt64.not_lt, UInt64.le_iff_toNat_le, UInt64.toNat_sub_of_le _ _ inside] at enough
    rw [UInt64.le_iff_toNat_le] at inside
    omega
  · rintro enough (beyond | short | ⟨some, last⟩)
    · rw [UInt64.lt_iff_toNat_lt] at beyond
      omega
    · rw [UInt64.lt_iff_toNat_lt, UInt64.toNat_sub_of_le _ _
        (by rw [UInt64.le_iff_toNat_le]; omega)] at short
      omega
    · refine some (UInt64.toNat_inj.mp ?_)
      rw [last] at enough
      show count.toNat = 0
      omega

end Words

namespace MemoryRange

variable {m : MemoryRange}

/-- The memory lies below 2^64, and its elements have bytes. -/
structure Valid (m : MemoryRange) : Prop where
  positive : 0 < m.elementBytes.toNat
  fits : m.baseAddress.toNat + m.descriptor.entries.toNat * m.elementBytes.toNat ≤ 2 ^ 64 - 1

theorem requireRange_iff (firstIndex count : UInt64) : m.requireRange firstIndex count = .ok () ↔
    firstIndex.toNat + count.toNat ≤ m.descriptor.entries.toNat := by
  rw [requireRange, throwIf_ok_iff, range_test_iff]

/-- An offset names the element that it is a multiple for. -/
theorem indexFromOffset_iff (valid : m.Valid) (byteOffset count index : UInt64) :
    m.indexFromOffsetForRange byteOffset count = .ok index ↔
      byteOffset.toNat = index.toNat * m.elementBytes.toNat ∧
        index.toNat + count.toNat ≤ m.descriptor.entries.toNat := by
  have positive := valid.positive
  constructor
  · intro found
    obtain ⟨aligned, found⟩ := after_throwIf found
    obtain ⟨_, inRange, found⟩ := after_bind found
    obtain rfl := Except.ok.inj found
    have zero := congrArg UInt64.toNat (not_not.mp aligned)
    rw [UInt64.toNat_mod] at zero
    rw [UInt64.toNat_div]
    refine ⟨(Nat.div_mul_cancel (Nat.dvd_of_mod_eq_zero zero)).symm, ?_⟩
    have := (requireRange_iff _ _).mp inRange
    rwa [UInt64.toNat_div] at this
  · rintro ⟨offset, inRange⟩
    have aligned : byteOffset % m.elementBytes = 0 := by
      rw [← UInt64.toNat_inj, UInt64.toNat_mod, offset]
      exact Nat.mul_mod_left _ _
    have element : byteOffset / m.elementBytes = index := by
      rw [← UInt64.toNat_inj, UInt64.toNat_div, offset]
      exact Nat.mul_div_cancel _ positive
    rw [indexFromOffsetForRange, throwIf_of_not (not_not.mpr aligned), element]
    show (m.requireRange index count >>= _) = _
    rw [(requireRange_iff _ _).mpr inRange]
    rfl

/-- An absolute address names the element that it is the address of. -/
theorem indexFromAbsolute_iff (valid : m.Valid) (absoluteAddress count index : UInt64) :
    m.indexFromAbsoluteForRange absoluteAddress count = .ok index ↔
      absoluteAddress.toNat = m.baseAddress.toNat + index.toNat * m.elementBytes.toNat ∧
        index.toNat + count.toNat ≤ m.descriptor.entries.toNat := by
  have positive := valid.positive
  constructor
  · intro found
    obtain ⟨above, found⟩ := after_throwIf found
    obtain ⟨aligned, found⟩ := after_throwIf found
    obtain ⟨passes, found⟩ := after_throwIf found
    obtain rfl := Except.ok.inj found
    have above := UInt64.not_lt.mp above
    have zero := congrArg UInt64.toNat (not_not.mp aligned)
    rw [UInt64.toNat_mod, UInt64.toNat_sub_of_le _ _ above] at zero
    rw [UInt64.le_iff_toNat_le] at above
    rw [range_test_iff] at passes
    refine ⟨?_, passes⟩
    rw [UInt64.toNat_div, UInt64.toNat_sub_of_le _ _ (UInt64.le_iff_toNat_le.mpr above),
      Nat.div_mul_cancel (Nat.dvd_of_mod_eq_zero zero)]
    omega
  · rintro ⟨address, inRange⟩
    have above : m.baseAddress ≤ absoluteAddress := by
      rw [UInt64.le_iff_toNat_le]
      omega
    have offset : (absoluteAddress - m.baseAddress).toNat = index.toNat * m.elementBytes.toNat := by
      rw [UInt64.toNat_sub_of_le _ _ above]
      omega
    have aligned : (absoluteAddress - m.baseAddress) % m.elementBytes = 0 := by
      rw [← UInt64.toNat_inj, UInt64.toNat_mod, offset]
      exact Nat.mul_mod_left _ _
    have element : (absoluteAddress - m.baseAddress) / m.elementBytes = index := by
      rw [← UInt64.toNat_inj, UInt64.toNat_div, offset]
      exact Nat.mul_div_cancel _ positive
    rw [indexFromAbsoluteForRange, throwIf_of_not (UInt64.not_lt.mpr above)]
    show (throwIf _ _ >>= _) = _
    rw [throwIf_of_not (not_not.mpr aligned), element]
    show (throwIf _ _ >>= _) = _
    rw [throwIf_of_not ((range_test_iff _ _ _).mpr inRange)]
    rfl

/-- The address of an element, and of the end, is the exact one. -/
theorem addressAfterRangeCheck_eq (valid : m.Valid) (index : UInt64)
    (inside : index.toNat ≤ m.descriptor.entries.toNat) :
    ∃ address, m.addressAfterRangeCheck index = .ok address ∧
      address.toNat = m.baseAddress.toNat + index.toNat * m.elementBytes.toNat := by
  have fits := valid.fits
  have product := Nat.mul_le_mul_right m.elementBytes.toNat inside
  have below : index ≤ (uint64Max - m.baseAddress) / m.elementBytes := by
    rw [UInt64.le_iff_toNat_le, UInt64.toNat_div, toNat_sub_max,
      Nat.le_div_iff_mul_le valid.positive]
    omega
  refine ⟨m.baseAddress + index * m.elementBytes, ?_, ?_⟩
  · rw [addressAfterRangeCheck, throwIf_of_not (UInt64.not_lt.mpr below)]
    rfl
  · rw [UInt64.toNat_add, (toNat_mul_of_le below).1, Nat.mod_eq_of_lt (by omega)]

theorem address_iff (valid : m.Valid) (index address : UInt64) : m.address index = .ok address ↔
    index.toNat < m.descriptor.entries.toNat ∧
      address.toNat = m.baseAddress.toNat + index.toNat * m.elementBytes.toNat := by
  have one : (1 : UInt64).toNat = 1 := rfl
  have inRange := requireRange_iff (m := m) index 1
  rw [one] at inRange
  constructor
  · intro found
    obtain ⟨_, checked, found⟩ := after_bind found
    have inside := inRange.mp checked
    obtain ⟨exact, exactly, toNat⟩ := addressAfterRangeCheck_eq valid index (by omega)
    rw [exactly] at found
    exact ⟨by omega, Except.ok.inj found ▸ toNat⟩
  · rintro ⟨inside, toNat⟩
    obtain ⟨exact, exactly, exact_toNat⟩ := addressAfterRangeCheck_eq valid index (by omega)
    have same : exact = address := UInt64.toNat_inj.mp (exact_toNat.trans toNat.symm)
    rw [MemoryRange.address, inRange.mpr (by omega), ok_bind, exactly, same]

end MemoryRange

section Constructors

/-- What the checks of a constructor establish. -/
theorem requireMemoryRange_eq {descriptor : RegisterMemoryDescriptor} {baseAddress base elementBytes : UInt64}
    {basePlusOffset addressRange : String} {validateElement : Except Error Unit}
    (made : requireMemoryRange descriptor baseAddress basePlusOffset addressRange validateElement
      elementBytes = .ok base) :
    base.toNat = baseAddress.toNat + descriptor.address.toNat ∧ validateElement = .ok () ∧
      base.toNat + descriptor.entries.toNat * elementBytes.toNat ≤ 2 ^ 64 - 1 := by
  obtain ⟨inside, made⟩ := after_throwIf made
  obtain ⟨_, element, made⟩ := after_bind made
  obtain ⟨ends, made⟩ := after_throwIf made
  obtain rfl := Except.ok.inj made
  rw [UInt64.lt_iff_toNat_lt, toNat_sub_max] at inside
  have sum : (baseAddress + descriptor.address).toNat
      = baseAddress.toNat + descriptor.address.toNat := by
    have := descriptor.address.toNat_lt
    rw [UInt64.toNat_add, Nat.mod_eq_of_lt (by omega)]
  have product := (toNat_mul_of_le (UInt64.not_lt.mp ends)).2
  rw [toNat_sub_max, sum] at product
  have := descriptor.address.toNat_lt
  exact ⟨sum, element, by rw [sum]; omega⟩

variable {bus : BusTypes} {descriptor : RegisterMemoryDescriptor} {baseAddress : UInt64}

theorem RegisterMemoryHandle.valid_of_make {h : RegisterMemoryHandle bus}
    (made : make bus descriptor baseAddress = .ok h) : h.descriptor = descriptor ∧
      h.baseAddress.toNat = baseAddress.toNat + descriptor.address.toNat ∧
      ¬ (descriptor.width = 0 ∨ descriptor.width % 8 ≠ 0) ∧ h.range.Valid := by
  obtain ⟨base, checked, made⟩ := after_bind made
  obtain rfl := Except.ok.inj made
  obtain ⟨sum, element, fits⟩ := requireMemoryRange_eq checked
  have element := throwIf_ok_iff.mp element
  have proper : ¬ (descriptor.width = 0 ∨ descriptor.width % 8 ≠ 0) := by
    rintro (zero | unaligned)
    · exact element (.inl zero)
    · exact element (.inr (.inl unaligned))
  exact ⟨rfl, sum, proper, ⟨(toNat_bytes descriptor).symm ▸ bytes_pos proper, fits⟩⟩

namespace WideRegisterMemoryHandle

variable {Width : ℕ} {h : WideRegisterMemoryHandle bus Width}

/-- The element and access widths that the constructor accepts. -/
structure Shape (h : WideRegisterMemoryHandle bus Width) : Prop where
  width : h.descriptor.width.toNat = Width
  aligned : Width % 8 = 0
  chunk : 0 < h.accessWidth
  chunkAligned : h.accessWidth % 8 = 0
  carried : h.accessWidth ≤ bus.dataBits
  divides : Width % h.accessWidth = 0
  enabled : h.transferBytes ≤ bus.byteEnableBits

theorem Shape.proper (shape : h.Shape) (positive : 0 < Width) :
    ¬ (h.descriptor.width = 0 ∨ h.descriptor.width % 8 ≠ 0) := by
  rintro (zero | unaligned)
  · have := shape.width
    rw [zero] at this
    exact absurd this (by show 0 ≠ Width; omega)
  · refine unaligned (UInt16.toNat_inj.mp ?_)
    rw [UInt16.toNat_mod, shape.width]
    exact shape.aligned

theorem Shape.transferCount_pos (shape : h.Shape) (positive : 0 < Width) : 0 < h.transferCount :=
  Nat.div_pos (Nat.le_of_dvd positive (Nat.dvd_of_mod_eq_zero shape.divides)) shape.chunk

theorem valid_of_make (positive : 0 < Width) (made : make bus Width descriptor baseAddress = .ok h) :
    h.descriptor = descriptor ∧ h.baseAddress.toNat = baseAddress.toNat + descriptor.address.toNat ∧
      h.Shape ∧ UInt64.ofNat (Width / 8) = descriptor.bytes ∧ h.range.Valid := by
  obtain ⟨width, made⟩ := after_throwIf made
  obtain ⟨base, checked, made⟩ := after_bind made
  obtain rfl := Except.ok.inj made
  obtain ⟨sum, element, fits⟩ := requireMemoryRange_eq checked
  have width := not_not.mp width
  have bytes : UInt64.ofNat (Width / 8) = descriptor.bytes := by
    rw [RegisterMemoryDescriptor.bytes, width]
  obtain ⟨accepted, enabled⟩ := after_throwIf element
  have enabled := throwIf_ok_iff.mp enabled
  have aligned : Width % 8 = 0 := Nat.eq_zero_of_not_pos fun rest =>
    accepted (.inl (Nat.pos_iff_ne_zero.mp rest))
  refine ⟨rfl, sum, ⟨width, aligned, ?_, ?_, ?_, ?_, Nat.not_lt.mp enabled⟩, bytes, ⟨?_, fits⟩⟩
  · exact Nat.pos_of_ne_zero fun zero => accepted (.inr (.inl zero))
  · exact Nat.eq_zero_of_not_pos fun rest => accepted (.inr (.inr (.inl (Nat.pos_iff_ne_zero.mp rest))))
  · exact Nat.not_lt.mp fun beyond => accepted (.inr (.inr (.inr (.inl beyond))))
  · exact Nat.eq_zero_of_not_pos fun rest =>
      accepted (.inr (.inr (.inr (.inr (Nat.pos_iff_ne_zero.mp rest)))))
  · show 0 < (UInt64.ofNat (Width / 8)).toNat
    rw [bytes, toNat_bytes, width]
    omega

end WideRegisterMemoryHandle

end Constructors

end Cpptb.RegisterModel
