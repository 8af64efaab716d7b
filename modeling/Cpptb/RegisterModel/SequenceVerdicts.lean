/-
What the register sequences find.

On benches whose bus succeeds, every visit returns, and what it has done is a `Visited`: the register
holds what it held before, registers that no mask selects are not accessed at all, and the failures of
the test are those that the hardware deserves.

* `resetCheck_visited`, `accessCheck_visited`, `bitBash_visited`: one register.
* `visited_forEachRegister`: a whole model.
* `sequences_judge`: no false alarm, and no stuck bit missed.
-/

import Cpptb.RegisterModel.Sequences
import Cpptb.Vc.CoverageDecoding

namespace Cpptb.RegisterModel.SequenceDetail

open Cpptb.Vc (RegisterAccess registerReadable registerWritable)
open Cpptb.Testing (TestRunState Moment FailureRecord)
open Cpptb.Coro (SourceLocation)

variable {bus : BusTypes}

/-! ### Masks and bits -/

section Descriptors

variable {descriptor : RegisterDescriptor} {i : ℕ}

theorem mem_of_fieldAt {field : FieldDescriptor} (found : descriptor.fieldAt i = some field) :
    field ∈ descriptor.fields ∧ i ∈ field.region :=
  ⟨List.mem_of_find?_eq_some found, by
    have hit := List.find?_some found
    exact of_decide_eq_true hit⟩

theorem fieldAt_of_mem (layout : Layout descriptor) {field : FieldDescriptor}
    (member : field ∈ descriptor.fields) (inside : i ∈ field.region) :
    descriptor.fieldAt i = some field := by
  cases found : descriptor.fieldAt i with
  | none =>
    have missed := List.find?_eq_none.mp found field member
    exact absurd (decide_eq_true inside) missed
  | some other =>
    obtain ⟨otherMember, otherInside⟩ := mem_of_fieldAt found
    by_contra different
    have symmetric : Std.Symm fun f g : FieldDescriptor => Disjoint f.region g.region :=
      ⟨fun _ _ apart => Disjoint.symm apart⟩
    have apart : Disjoint other.region field.region :=
      layout.disjoint.forall otherMember member fun same => different (congrArg some same)
    exact Set.disjoint_left.mp apart otherInside inside

theorem quiet_of_readStable (stable : ReadStable descriptor) (i : ℕ) : descriptor.Quiet i := by
  intro field found readable
  have unchanged := stable field (mem_of_fieldAt found).1
  unfold changesOnRead at unchanged
  rw [readable, Bool.true_and] at unchanged
  exact not_not.mp (of_decide_eq_false unchanged)

theorem plain_or_fixed (plainly : WritesPlainly descriptor) (i : ℕ) :
    descriptor.Plain i ∨ descriptor.Fixed i := by
  by_cases fieldless : descriptor.fields = []
  · exact .inl (.inl fieldless)
  cases found : descriptor.fieldAt i with
  | none => exact .inr ⟨fieldless, fun field some => by rw [found] at some; cases some⟩
  | some field =>
    by_cases writable : registerWritable field.access = true
    · exact .inl (.inr ⟨field, found, plainly field (mem_of_fieldAt found).1 writable⟩)
    · refine .inr ⟨fieldless, fun other some => ?_⟩
      rw [found] at some
      obtain rfl := Option.some.inj some
      exact Bool.eq_false_of_not_eq_true writable

/-- What a bit of the read mask is. -/
theorem of_stableReadMask (layout : Layout descriptor) (inWord : i < 64)
    (selected : (stableReadMask descriptor).getLsbD i = true) :
    (∀ j, descriptor.Quiet j) ∧ descriptor.readableAt i = true ∧ descriptor.volatileAt i = false ∧
      (descriptor.fields = [] ∨ ∃ field ∈ descriptor.fields, i ∈ field.region) := by
  obtain ⟨-, fieldless | ⟨stable, field, member, ⟨readable, steady⟩, inside⟩⟩ :=
    (getLsbD_stableReadMask descriptor inWord).mp selected
  · have noField : ∀ j, descriptor.fieldAt j = none := fun j => by
      rw [RegisterDescriptor.fieldAt, fieldless]
      rfl
    refine ⟨fun j field found => (by rw [noField] at found; cases found), ?_, ?_, .inl fieldless⟩
    · rw [RegisterDescriptor.readableAt, fieldless]
      rfl
    · rw [RegisterDescriptor.volatileAt, noField]
      rfl
  · have found := fieldAt_of_mem layout member inside
    refine ⟨quiet_of_readStable stable, ?_, ?_, .inr ⟨field, member, inside⟩⟩
    · rw [RegisterDescriptor.readableAt, found, Option.any_some, readable, Bool.or_true]
    · rw [RegisterDescriptor.volatileAt, found, Option.any_some, steady]

/-- What a bit of the read-write mask is. -/
theorem of_stableReadWriteMask (layout : Layout descriptor) (inWord : i < 64)
    (selected : (stableReadWriteMask descriptor).getLsbD i = true) :
    (stableReadMask descriptor).getLsbD i = true ∧ descriptor.Plain i ∧
      (∀ j, descriptor.Plain j ∨ descriptor.Fixed j) ∧
      (descriptor.fields = [] ∨ ∃ field ∈ descriptor.fields, field.access = .readWrite) := by
  obtain ⟨below, fieldless | ⟨stable, plainly, field, member, ⟨access, steady⟩, inside⟩⟩ :=
    (getLsbD_stableReadWriteMask descriptor inWord).mp selected
  · exact ⟨(getLsbD_stableReadMask descriptor inWord).mpr ⟨below, .inl fieldless⟩, .inl fieldless,
      fun j => .inl (.inl fieldless), .inl fieldless⟩
  · have readable : registerReadable field.access = true := by rw [access]; rfl
    have writable : registerWritable field.access = true := by rw [access]; rfl
    refine ⟨(getLsbD_stableReadMask descriptor inWord).mpr
      ⟨below, .inr ⟨stable, field, member, ⟨readable, steady⟩, inside⟩⟩, ?_, plain_or_fixed plainly,
      .inr ⟨field, member, access⟩⟩
    exact .inr ⟨field, fieldAt_of_mem layout member inside, plainly field member writable⟩

theorem hasReadableField_of (inWord : i < 64)
    (selected : (stableReadMask descriptor).getLsbD i = true) :
    descriptor.hasReadableField = true := by
  obtain ⟨-, fieldless | ⟨-, field, member, ⟨readable, -⟩, -⟩⟩ :=
    (getLsbD_stableReadMask descriptor inWord).mp selected
  · rw [RegisterDescriptor.hasReadableField, fieldless]
    rfl
  · rw [RegisterDescriptor.hasReadableField, List.any_eq_true.mpr ⟨field, member, readable⟩,
      Bool.or_true]

/-- A register that the read-write mask selects can be written again and again. -/
theorem enforceWriteAccess_of {h : RegisterHandle bus} (layout : Layout h.descriptor) (inWord : i < 64)
    (selected : (stableReadWriteMask h.descriptor).getLsbD i = true) :
    h.enforceWriteAccess = .ok () := by
  obtain ⟨-, -, -, either⟩ := of_stableReadWriteMask layout inWord selected
  have writable : h.descriptor.hasWritableField = true := by
    rw [RegisterDescriptor.hasWritableField]
    rcases either with fieldless | ⟨field, member, access⟩
    · rw [fieldless]
      rfl
    · rw [List.any_eq_true.mpr ⟨field, member, by rw [access]; rfl⟩, Bool.or_true]
  have repeatable : h.descriptor.writeOnceOnly = false := by
    rw [RegisterDescriptor.writeOnceOnly]
    rcases either with fieldless | ⟨field, member, access⟩
    · rw [fieldless]
      rfl
    · rw [List.all_eq_false.mpr ⟨field, member, ?_⟩, Bool.and_false]
      rw [FieldDescriptor.writeOnce, access]
      decide
  unfold RegisterHandle.enforceWriteAccess
  rw [throwIf_of_not (by simp [writable]), throwIf_of_not (by simp [repeatable])]
  rfl

end Descriptors

/-! ### What the test records -/

section Records

/-- The failures that a test has newly recorded, all under one label. -/
structure Noted (path : String) (t t' : TestRunState) (new : List FailureRecord) : Prop where
  records : t'.result.failureRecords = t.result.failureRecords ++ new
  finished : t'.result.finished = t.result.finished
  labels : ∀ record ∈ new, record.label = path

/-- No failure if `passes`, and one if `catches` and the test is still running. -/
def Judged (path : String) (t t' : TestRunState) (passes catches : Prop) : Prop :=
  ∃ new, Noted path t t' new ∧ (passes → new = []) ∧
    (catches → t.result.finished = false → new ≠ [])

theorem Judged.refl (path : String) (t : TestRunState) : Judged path t t True False :=
  ⟨[], ⟨(List.append_nil _).symm, rfl, fun _ member => absurd member List.not_mem_nil⟩,
    fun _ => rfl, fun impossible => impossible.elim⟩

theorem Judged.weaken {path : String} {t t' : TestRunState} {passes passes' catches catches' : Prop}
    (judged : Judged path t t' passes catches) (pass : passes' → passes)
    (catch_ : catches' → catches) : Judged path t t' passes' catches' := by
  obtain ⟨new, noted, clean, caught⟩ := judged
  exact ⟨new, noted, fun holds => clean (pass holds), fun holds => caught (catch_ holds)⟩

theorem Judged.trans {path : String} {t₁ t₂ t₃ : TestRunState} {p p' c c' : Prop}
    (first : Judged path t₁ t₂ p c) (second : Judged path t₂ t₃ p' c') :
    Judged path t₁ t₃ (p ∧ p') (c ∨ c') := by
  obtain ⟨new, noted, clean, caught⟩ := first
  obtain ⟨new', noted', clean', caught'⟩ := second
  refine ⟨new ++ new', ⟨?_, noted'.finished.trans noted.finished, ?_⟩, ?_, ?_⟩
  · rw [noted'.records, noted.records, List.append_assoc]
  · intro record member
    rcases List.mem_append.mp member with earlier | later
    · exact noted.labels record earlier
    · exact noted'.labels record later
  · rintro ⟨holds, holds'⟩
    rw [clean holds, clean' holds', List.append_nil]
  · rintro (holds | holds) running
    · exact List.append_ne_nil_of_left_ne_nil (caught holds running) _
    · exact List.append_ne_nil_of_right_ne_nil _ (caught' holds (noted.finished.trans running))

theorem label_attachCurrentProcess (t : TestRunState) (m : Moment) (record : FailureRecord) :
    (t.attachCurrentProcess m record).label = record.label := by
  unfold TestRunState.attachCurrentProcess
  split <;> rfl

/-- A failure is recorded, unless the test has finished. -/
theorem noted_recordFailure (t : TestRunState) (m : Moment) (record : FailureRecord) :
    ∃ new, Noted record.label t (t.recordFailure m record) new ∧
      (t.result.finished = false → new ≠ []) := by
  unfold TestRunState.recordFailure
  by_cases finished : t.result.finished = true
  · rw [if_pos finished]
    exact ⟨[], ⟨(List.append_nil _).symm, rfl, fun _ member => absurd member List.not_mem_nil⟩,
      fun running => absurd finished (by rw [running]; exact Bool.false_ne_true)⟩
  · rw [if_neg finished]
    refine ⟨[t.attachCurrentProcess m { record with simulationTimeFs := m.now }],
      ⟨by simp [TestRunState.storeFailure], by simp [TestRunState.storeFailure], ?_⟩,
      fun _ => List.cons_ne_nil _ _⟩
    intro other member
    rw [List.mem_singleton.mp member]
    exact label_attachCurrentProcess t m _

theorem records_recordCheck (t : TestRunState) :
    t.recordCheck.result.failureRecords = t.result.failureRecords ∧
      t.recordCheck.result.finished = t.result.finished := by
  unfold TestRunState.recordCheck
  split <;> exact ⟨rfl, rfl⟩

/-- A check, whatever it looks at. -/
theorem judged_check {path : String} (t : TestRunState) (m : Moment) (record : FailureRecord)
    (label : record.label = path) (condition : Bool) :
    Judged path t (if condition then t.recordCheck else t.recordCheck.recordFailure m record)
      (condition = true) (condition = false) := by
  obtain ⟨records, finished⟩ := records_recordCheck t
  cases condition with
  | true => exact ⟨[], ⟨by rw [if_pos rfl, records, List.append_nil], by rw [if_pos rfl, finished],
      fun _ member => absurd member List.not_mem_nil⟩, fun _ => rfl,
      fun failed => absurd failed.symm Bool.false_ne_true⟩
  | false =>
    rw [if_neg Bool.false_ne_true]
    obtain ⟨new, noted, caught⟩ := noted_recordFailure t.recordCheck m record
    exact ⟨new, ⟨by rw [noted.records, records], noted.finished.trans finished,
      fun other member => (noted.labels other member).trans label⟩,
      fun passed => absurd passed Bool.false_ne_true,
      fun _ running => caught (finished.trans running)⟩

end Records

/-! ### The operations of a visit -/

section Operations

/-- What has happened between two states of a visit: the register is the same, the bus has seen writes
of that register alone, and the failures of the test are judged. -/
structure Since (v v' : Visit bus) (passes catches : Prop) : Prop where
  same : Bench.Same v.bench v'.bench
  judged : Judged v.bench.handle.descriptor.path v.report.test v'.report.test passes catches
  issued : ∃ more, v'.report.issued = v.report.issued ++ more ∧
    ∀ request ∈ more, v.bench.device.Selects request.address.toNat

theorem Since.refl (v : Visit bus) : Since v v True False :=
  ⟨.refl _, .refl _ _, [], (List.append_nil _).symm, fun _ member => absurd member List.not_mem_nil⟩

theorem Since.weaken {v v' : Visit bus} {p p' c c' : Prop} (since : Since v v' p c) (pass : p' → p)
    (catch_ : c' → c) : Since v v' p' c' :=
  ⟨since.same, since.judged.weaken pass catch_, since.issued⟩

theorem Since.trans {v₁ v₂ v₃ : Visit bus} {p p' c c' : Prop} (first : Since v₁ v₂ p c)
    (second : Since v₂ v₃ p' c') : Since v₁ v₃ (p ∧ p') (c ∨ c') where
  same := first.same.trans second.same
  judged := first.judged.trans (first.same.register.descriptor ▸ second.judged)
  issued := by
    obtain ⟨more, issued, inside⟩ := first.issued
    obtain ⟨more', issued', inside'⟩ := second.issued
    refine ⟨more ++ more', by rw [issued', issued, List.append_assoc], fun request member => ?_⟩
    rcases List.mem_append.mp member with earlier | later
    · exact inside request earlier
    · exact first.same.device ▸ inside' request later

/-- No transfer has written the register. -/
def Unwritten (v v' : Visit bus) : Prop :=
  v'.report.issued = v.report.issued ∧ v'.bench.contents.writes = v.bench.contents.writes

theorem Unwritten.trans {v₁ v₂ v₃ : Visit bus} (first : Unwritten v₁ v₂) (second : Unwritten v₂ v₃) :
    Unwritten v₁ v₃ := ⟨second.1.trans first.1, second.2.trans first.2⟩

/-- Nothing but counters and records of the test has changed. -/
structure Still (v v' : Visit bus) (passes catches : Prop) : Prop where
  bench : v'.bench = v.bench
  issued : v'.report.issued = v.report.issued
  judged : Judged v.bench.handle.descriptor.path v.report.test v'.report.test passes catches

theorem Still.since {v v' : Visit bus} {p c : Prop} (still : Still v v' p c) : Since v v' p c :=
  ⟨still.bench ▸ .refl _, still.judged, [], by rw [still.issued, List.append_nil],
    fun _ member => absurd member List.not_mem_nil⟩

theorem Still.unwritten {v v' : Visit bus} {p c : Prop} (still : Still v v' p c) : Unwritten v v' :=
  ⟨still.issued, by rw [still.bench]⟩

variable {v : Visit bus}

theorem count_yields (update : RegisterSequenceResult → RegisterSequenceResult) :
    Yields (Visitor.count update) v fun _ v' => Still v v' True False :=
  .modify ⟨rfl, rfl, .refl _ _⟩

theorem expect_yields (moment : ℕ → Moment) (line : ℕ) (condition : Bool) :
    Yields (Visitor.expect moment line condition) v fun _ v' =>
      Still v v' (condition = true) (condition = false) :=
  .get_bind (.modify ⟨rfl, rfl, judged_check v.report.test (moment v.report.checks)
    (Testing.booleanFailure .expectation v.bench.handle.descriptor.path (Visitor.place line)) rfl
    condition⟩)

theorem expectEq_yields {α : Type} [BEq α] (moment : ℕ → Moment) (line : ℕ)
    (format : α → Option String) (actual expected : α) :
    Yields (Visitor.expectEq moment line format actual expected) v fun _ v' =>
      Still v v' ((actual == expected) = true) ((actual == expected) = false) :=
  .get_bind (.modify ⟨rfl, rfl, judged_check v.report.test (moment v.report.checks)
    (Testing.comparisonFailure .expectation v.bench.handle.descriptor.path (format actual)
      (format expected) (Visitor.place line)) rfl (actual == expected)⟩)

theorem requireBackdoor_yields (ready : v.bench.Ready) (sequence : String) :
    Yields (Visitor.requireBackdoor sequence) v fun _ v' => v' = v := by
  refine .get_bind ?_
  rw [if_pos ready.backdoor]
  exact .pure rfl

/-- An access that the test does not hear of. -/
theorem since_access {v w : Visit bus} (same : Bench.Same v.bench w.bench)
    (test : w.report.test = v.report.test) {more : List (WriteRequest bus)}
    (issued : w.report.issued = v.report.issued ++ more)
    (inside : ∀ request ∈ more, v.bench.device.Selects request.address.toNat) :
    Since v w True False :=
  ⟨same, test ▸ .refl _ _, more, issued, inside⟩

/-- An access, and its counter. -/
theorem Since.counted {v w v' : Visit bus} (since : Since v w True False)
    (still : Still w v' True False) : Since v v' True False :=
  (since.trans still.since).weaken (fun _ => ⟨trivial, trivial⟩) (fun impossible => impossible.elim)

/-- An operation of the bench that returns. -/
theorem returned_bind {α β : Type} {value : α} {next : α → Visitor bus β} {after : β → Visit bus → Prop}
    (rest : Yields (next value) v after) :
    Yields ((liftM (.ok value : Except Error α) : Visitor bus α) >>= next) v after := rest

theorem read_yields (ready : v.bench.Ready)
    (readable : v.bench.handle.descriptor.hasReadableField = true) :
    Yields Visitor.read v fun response v' => response.1 = true ∧ Since v v' True False ∧
      Unwritten v v' ∧ v'.bench.contents.deposits = v.bench.contents.deposits ∧
      (∀ i < v.bench.handle.descriptor.width, response.2.validMask.getLsbD i = true) ∧
      (∀ i < v.bench.handle.descriptor.width, v.bench.device.Calm i →
        v.bench.device.descriptor.Quiet i →
        v.bench.device.held v'.bench.contents i = v.bench.device.held v.bench.contents i ∧
        (v.bench.device.descriptor.readableAt i = true →
          response.2.data.getLsbD i = v.bench.device.held v.bench.contents i)) := by
  obtain ⟨ending, same, written, valid, data⟩ := ready.read_device readable
  refine .get_bind ?_
  rw [ending]
  simp only [Visitor.rethrow, pure_bind]
  refine .modify_bind (.bind (count_yields _) fun _ v' still => .pure ⟨rfl, ?_, ?_, ?_, valid, ?_⟩)
  · refine Since.counted ?_ still
    exact since_access same rfl (List.append_nil _).symm fun _ member => absurd member List.not_mem_nil
  · exact ⟨still.issued, by rw [still.bench]; exact congrArg Prod.fst written⟩
  · rw [still.bench]
    exact congrArg Prod.snd written
  · rw [still.bench]
    exact data

theorem write_yields (ready : v.bench.Ready) (wide : 8 ≤ bus.byteEnableBits) (value : Word)
    (accepted : v.bench.handle.enforceWriteAccess = .ok ()) :
    Yields (Visitor.write value) v fun okay v' => okay = true ∧ Since v v' True False ∧
      v'.bench.contents.deposits = v.bench.contents.deposits ∧
      (∀ i < v.bench.handle.descriptor.width, v.bench.device.Calm i →
        (v.bench.device.descriptor.Plain i → v.bench.device.held v'.bench.contents i
          = v.bench.device.forced i (value.getLsbD i)) ∧
        (v.bench.device.descriptor.Fixed i → v.bench.device.held v'.bench.contents i
          = v.bench.device.held v.bench.contents i)) := by
  obtain ⟨ending, same, deposits, inside, bits⟩ := ready.write_device wide value accepted
  refine .get_bind ?_
  rw [ending]
  simp only [Visitor.rethrow, pure_bind]
  refine .modify_bind (.bind (count_yields _) fun _ v' still => .pure ⟨rfl, ?_, ?_, ?_⟩)
  · refine Since.counted ?_ still
    exact since_access same rfl rfl inside
  · rw [still.bench]
    exact deposits
  · rw [still.bench]
    exact bits

theorem peek_yields (ready : v.bench.Ready) :
    Yields Visitor.peek v fun value v' => Since v v' True False ∧ Unwritten v v' ∧
      v'.bench.contents.deposits = v.bench.contents.deposits ∧
      ∀ i < v.bench.handle.descriptor.width, v.bench.device.Calm i →
        value.getLsbD i = v.bench.device.held v.bench.contents i ∧
        v.bench.device.held v'.bench.contents i = v.bench.device.held v.bench.contents i := by
  obtain ⟨value, bench, peeked, same, written, bits⟩ := ready.peek_device
  refine .get_bind ?_
  rw [peeked]
  refine returned_bind (.modify_bind ?_)
  refine .bind (count_yields _) fun _ v' still => .pure ⟨?_, ?_, ?_, ?_⟩
  · refine Since.counted ?_ still
    exact since_access same rfl (List.append_nil _).symm fun _ member => absurd member List.not_mem_nil
  · exact ⟨still.issued, by rw [still.bench]; exact congrArg Prod.fst written⟩
  · rw [still.bench]
    exact congrArg Prod.snd written
  · rw [still.bench]
    exact bits

theorem poke_yields (ready : v.bench.Ready) (value : Word) :
    Yields (Visitor.poke value) v fun _ v' => Since v v' True False ∧ Unwritten v v' ∧
      ∀ i < v.bench.handle.descriptor.width, v.bench.device.held v'.bench.contents i
        = v.bench.device.forced i (value.getLsbD i) := by
  obtain ⟨bench, poked, same, writes, bits⟩ := ready.poke_device value
  refine .get_bind ?_
  rw [poked]
  refine returned_bind (.modify_bind ?_)
  refine (count_yields _).weaken fun _ v' still => ⟨?_, ?_, ?_⟩
  · refine Since.counted ?_ still
    exact since_access same rfl (List.append_nil _).symm fun _ member => absurd member List.not_mem_nil
  · exact ⟨still.issued, by rw [still.bench]; exact writes⟩
  · rw [still.bench]
    exact bits

end Operations

/-! ### One register -/

section Registers

variable {v : Visit bus} {i : ℕ}

/-- No bit of the register is tied to a constant, reserved bits apart. -/
def Healthy (d : Device) : Prop :=
  ∀ i, (d.descriptor.fields = [] ∨ ∃ field ∈ d.descriptor.fields, i ∈ field.region) → d.tied i = none

/-- A bit that the read-write mask selects is stuck. -/
def StuckBit (d : Device) : Prop :=
  ∃ i, (stableReadWriteMask d.descriptor).getLsbD i = true ∧ ∃ value, d.tied i = some value

theorem inWord_of_bit {mask : Word} (selected : mask.getLsbD i = true) : i < 64 := by
  by_contra beyond
  rw [BitVec.getLsbD_of_ge _ _ (not_lt.mp beyond)] at selected
  exact Bool.false_ne_true selected

theorem lt_width_of_readMask {descriptor : RegisterDescriptor}
    (selected : (stableReadMask descriptor).getLsbD i = true) : i < descriptor.width :=
  ((getLsbD_stableReadMask descriptor (inWord_of_bit selected)).mp selected).1

theorem Ready.layout {b : Bench bus} (ready : b.Ready) : Layout b.handle.descriptor := by
  obtain ⟨base, constructed⟩ := ready.constructed
  exact Vc.layout_of_constructed constructed

variable (moment : ℕ → Moment)

/-- A bit of a healthy device is what has been written. -/
theorem Healthy.forced {d : Device} (healthy : Healthy d)
    (declared : d.descriptor.fields = [] ∨ ∃ field ∈ d.descriptor.fields, i ∈ field.region)
    (value : Bool) : d.forced i value = value := by
  rw [Device.forced, healthy i declared]
  rfl

theorem ready_after {v' : Visit bus} {p c : Prop} (ready : v.bench.Ready) (since : Since v v' p c) :
    v'.bench.Ready := ready.congr since.same

/-- The read half of an access check: a bit that is tied against the pattern is caught. -/
theorem checkDeposit_yields (ready : v.bench.Ready)
    (selected : any (stableReadMask v.bench.handle.descriptor) v.bench.handle.descriptor.width = true) :
    Yields (checkDeposit moment v.bench.handle.descriptor (stableReadMask v.bench.handle.descriptor)) v
      fun _ v' => Since v v' (Healthy v.bench.device)
          (∃ i, (stableReadMask v.bench.handle.descriptor).getLsbD i = true ∧ v.bench.device.tied i
            = some (!(alternatingPattern v.bench.handle.descriptor false).getLsbD i)) ∧
        Unwritten v v' := by
  obtain ⟨j, -, chosen⟩ := (any_iff _ _).mp selected
  have layout := Ready.layout ready
  have readable := hasReadableField_of (inWord_of_bit chosen) chosen
  have described := ready.descriptor
  -- the deposit
  refine .bind (poke_yields ready _) fun _ v₁ ⟨since₁, unwritten₁, deposited⟩ => ?_
  have same₁ := since₁.same
  -- the read
  refine .bind (read_yields (ready_after ready since₁) (by rw [same₁.register.descriptor]; exact readable))
    fun response v₂ ⟨okay, since₂, unwritten₂, _, valid, data⟩ => ?_
  rw [same₁.register.descriptor, same₁.device] at data
  rw [same₁.register.descriptor] at valid
  have found : ∀ i, (stableReadMask v.bench.handle.descriptor).getLsbD i = true →
      response.2.data.getLsbD i = v.bench.device.forced i
        ((alternatingPattern v.bench.handle.descriptor false).getLsbD i) := by
    intro i member
    have inside := lt_width_of_readMask member
    obtain ⟨quiet, visible, steady, -⟩ := of_stableReadMask layout (inWord_of_bit member) member
    rw [← described] at quiet visible steady
    rw [(data i inside (.inl steady) (quiet i)).2 visible, deposited i inside]
  -- the checks
  refine .bind (expect_yields moment 278 response.1) fun _ v₃ still₃ => ?_
  rw [okay] at still₃ ⊢
  rw [if_pos rfl]
  refine (expectEq_yields moment 282 _ _ _).weaken fun _ v₄ still₄ => ⟨?_, ?_⟩
  · refine ((since₁.trans since₂).trans (still₃.since.trans still₄.since)).weaken ?_ ?_
    · intro healthy
      refine ⟨⟨trivial, trivial⟩, rfl, ?_⟩
      rw [beq_iff_eq]
      refine masked_eq fun i inside member => ?_
      rw [getLsbD_intersect _ _ _ (by have := ready.narrow; omega)] at member
      simp only [Bool.and_eq_true] at member
      rw [found i member.2.1]
      have declared := (of_stableReadMask layout (inWord_of_bit member.2.1) member.2.1).2.2.2
      rw [← described] at declared
      exact healthy.forced declared _
    · rintro ⟨i, member, tied⟩
      have inside := lt_width_of_readMask member
      refine .inr (.inr ?_)
      rw [beq_eq_false_iff_ne]
      intro same
      have bits := getLsbD_of_masked_eq (inWord_of_bit member) inside
        (by rw [getLsbD_intersect _ _ _ (inWord_of_bit member), decide_eq_true inside, member,
          valid i inside]; rfl) same
      rw [found i member, Device.forced, tied] at bits
      simp at bits
  · exact ((unwritten₁.trans unwritten₂).trans still₃.unwritten).trans still₄.unwritten

theorem lt_width_of_writeMask {descriptor : RegisterDescriptor}
    (selected : (stableReadWriteMask descriptor).getLsbD i = true) : i < descriptor.width :=
  ((getLsbD_stableReadWriteMask descriptor (inWord_of_bit selected)).mp selected).1

/-- The facts about a bit of the read-write mask that the checks need. -/
theorem of_writeMask (ready : v.bench.Ready)
    (member : (stableReadWriteMask v.bench.handle.descriptor).getLsbD i = true) :
    v.bench.device.descriptor.Plain i ∧ v.bench.device.Calm i ∧
      v.bench.device.descriptor.readableAt i = true ∧ (∀ j, v.bench.device.descriptor.Quiet j) ∧
      (v.bench.device.descriptor.fields = [] ∨
        ∃ field ∈ v.bench.device.descriptor.fields, i ∈ field.region) := by
  have layout := Ready.layout ready
  obtain ⟨readMember, plain, -, -⟩ := of_stableReadWriteMask layout (inWord_of_bit member) member
  obtain ⟨quiet, visible, steady, declared⟩ :=
    of_stableReadMask layout (inWord_of_bit readMember) readMember
  rw [← ready.descriptor] at plain quiet visible steady declared
  exact ⟨plain, .inl steady, visible, quiet, declared⟩

/-- The write half of an access check. -/
theorem checkWrite_yields (ready : v.bench.Ready) (wide : 8 ≤ bus.byteEnableBits)
    (selected : any (stableReadWriteMask v.bench.handle.descriptor)
      v.bench.handle.descriptor.width = true) :
    Yields (checkWrite moment v.bench.handle.descriptor
        (stableReadWriteMask v.bench.handle.descriptor)) v
      fun _ v' => Since v v' (Healthy v.bench.device)
          (∃ i, (stableReadWriteMask v.bench.handle.descriptor).getLsbD i = true ∧ v.bench.device.tied i
            = some (!(alternatingPattern v.bench.handle.descriptor true).getLsbD i)) := by
  obtain ⟨j, -, chosen⟩ := (any_iff _ _).mp selected
  have accepted := enforceWriteAccess_of (Ready.layout ready) (inWord_of_bit chosen) chosen
  -- the write
  refine .bind (write_yields ready wide _ accepted) fun okay v₁ ⟨isOkay, since₁, _, written⟩ => ?_
  subst isOkay
  refine .bind (expect_yields moment 293 true) fun _ v₂ still₂ => ?_
  have since₂ := since₁.trans still₂.since
  have same₂ := since₂.same
  -- the peek
  refine .bind (peek_yields (ready_after ready since₂)) fun actual v₃ ⟨since₃, _, _, peeked⟩ => ?_
  rw [same₂.register.descriptor, same₂.device, still₂.bench] at peeked
  have found : ∀ i, (stableReadWriteMask v.bench.handle.descriptor).getLsbD i = true →
      actual.getLsbD i = v.bench.device.forced i
        ((alternatingPattern v.bench.handle.descriptor true).getLsbD i) := by
    intro i member
    have inside := lt_width_of_writeMask member
    obtain ⟨plain, calm, -⟩ := of_writeMask ready member
    rw [(peeked i inside calm).1, (written i inside calm).1 plain]
  refine (expectEq_yields moment 296 _ _ _).weaken fun _ v₄ still₄ => ?_
  refine ((since₂.trans since₃).trans still₄.since).weaken ?_ ?_
  · intro healthy
    refine ⟨⟨⟨trivial, rfl⟩, trivial⟩, ?_⟩
    rw [beq_iff_eq]
    refine masked_eq fun i inside member => ?_
    obtain ⟨-, -, -, -, declared⟩ := of_writeMask ready member
    rw [found i member]
    exact healthy.forced declared _
  · rintro ⟨i, member, tied⟩
    refine .inr ?_
    rw [beq_eq_false_iff_ne]
    intro same
    have bits := getLsbD_of_masked_eq (inWord_of_bit member) (lt_width_of_writeMask member) member same
    rw [found i member, Device.forced, tied] at bits
    simp at bits

/-- What a visit has done to its register: it holds what it held, nothing has happened where no mask
selects, and the judgement of the test. -/
structure Visited (v v' : Visit bus) (selected written passes catches : Prop) : Prop where
  since : Since v v' passes catches
  restored : ∀ i < v.bench.handle.descriptor.width, v.bench.device.Calm i →
    v.bench.device.held v'.bench.contents i = v.bench.device.held v.bench.contents i
  untouched : ¬ selected → v'.bench = v.bench
  unwritten : ¬ written → Unwritten v v'

/-- Counting only. -/
theorem visited_of_still {v' : Visit bus} {selected written passes catches : Prop}
    (still : Still v v' True False) (fine : ¬ catches) :
    Visited v v' selected written passes catches where
  since := still.since.weaken (fun _ => trivial) fine
  restored i _ _ := by rw [still.bench]
  untouched _ := still.bench
  unwritten _ := still.unwritten

theorem Still.trans {v₁ v₂ v₃ : Visit bus} {p p' c c' : Prop} (first : Still v₁ v₂ p c)
    (second : Still v₂ v₃ p' c') : Still v₁ v₃ (p ∧ p') (c ∨ c') :=
  ⟨second.bench.trans first.bench, second.issued.trans first.issued,
    first.judged.trans (by have judged := second.judged; rwa [first.bench] at judged)⟩

theorem Still.counted {v₁ v₂ v₃ : Visit bus} (first : Still v₁ v₂ True False)
    (second : Still v₂ v₃ True False) : Still v₁ v₃ True False :=
  ⟨(first.trans second).bench, (first.trans second).issued,
    (first.trans second).judged.weaken (fun _ => ⟨trivial, trivial⟩) fun impossible => .inl impossible⟩

/-- A bit of a mask shows up in `any`. -/
theorem any_of_bit {mask : Word} {width : ℕ} (inside : i < width) (selected : mask.getLsbD i = true) :
    any mask width = true := (any_iff _ _).mpr ⟨i, inside, selected⟩

/-- A bit that the visit has put back reads as before. -/
theorem forced_held_of {d : Device} {c : Contents} {value : Bool} (same : value = d.held c i) :
    d.forced i value = d.held c i := by rw [same, Device.forced_held]

/-- **The access check of one register.** -/
theorem accessCheck_visited (ready : v.bench.Ready) (wide : 8 ≤ bus.byteEnableBits) :
    Yields (accessCheckVisitor moment) v fun _ v' => Visited v v'
      (any (stableReadMask v.bench.handle.descriptor) v.bench.handle.descriptor.width = true ∨
        any (stableReadWriteMask v.bench.handle.descriptor) v.bench.handle.descriptor.width = true)
      (any (stableReadWriteMask v.bench.handle.descriptor) v.bench.handle.descriptor.width = true)
      (Healthy v.bench.device) (StuckBit v.bench.device) := by
  refine .get_bind (.bind (count_yields _) fun _ v₁ still₁ => ?_)
  refine .ite (fun selected => ?_) (fun skipped => ?_)
  · rw [Bool.or_eq_true] at selected
    refine .bind (requireBackdoor_yields (ready_after ready still₁.since) _) fun _ v₂ here => ?_
    subst here
    refine .bind (count_yields _) fun _ v₃ still₃ => ?_
    have still := still₁.trans still₃
    refine .bind (peek_yields (ready_after ready still.since)) fun original v₄
      ⟨since₄, unwritten₄, _, peeked⟩ => ?_
    rw [still.bench] at peeked
    have reach₄ := still.since.trans since₄
    have spec₄ := checkDeposit_yields (v := v₄) moment (ready_after ready reach₄)
    rw [reach₄.same.register.descriptor, reach₄.same.device] at spec₄
    -- the read half
    have half₄ : Yields (if any (stableReadMask v.bench.handle.descriptor)
        v.bench.handle.descriptor.width then checkDeposit moment v.bench.handle.descriptor
          (stableReadMask v.bench.handle.descriptor) else pure ⟨⟩ : Visitor bus PUnit) v₄
        fun _ v' => Since v₄ v' (Healthy v.bench.device)
          (∃ i, (stableReadMask v.bench.handle.descriptor).getLsbD i = true ∧ v.bench.device.tied i
            = some (!(alternatingPattern v.bench.handle.descriptor false).getLsbD i)) ∧
          Unwritten v₄ v' := by
      refine .ite spec₄ (fun unselected => .pure ⟨?_, rfl, rfl⟩)
      exact (Since.refl v₄).weaken (fun _ => trivial) fun ⟨i, member, _⟩ =>
        unselected (any_of_bit (lt_width_of_readMask member) member)
    refine .bind half₄ fun _ v₅ ⟨since₅, unwritten₅⟩ => ?_
    have reach₅ := reach₄.trans since₅
    have spec₅ := checkWrite_yields (v := v₅) moment (ready_after ready reach₅) wide
    rw [reach₅.same.register.descriptor, reach₅.same.device] at spec₅
    -- the write half
    have half₅ : Yields (if any (stableReadWriteMask v.bench.handle.descriptor)
        v.bench.handle.descriptor.width then checkWrite moment v.bench.handle.descriptor
          (stableReadWriteMask v.bench.handle.descriptor) else pure ⟨⟩ : Visitor bus PUnit) v₅
        fun _ v' => Since v₅ v' (Healthy v.bench.device)
          (∃ i, (stableReadWriteMask v.bench.handle.descriptor).getLsbD i = true ∧
            v.bench.device.tied i
              = some (!(alternatingPattern v.bench.handle.descriptor true).getLsbD i)) ∧
          (¬ any (stableReadWriteMask v.bench.handle.descriptor) v.bench.handle.descriptor.width = true →
            Unwritten v₅ v') := by
      refine .ite (fun chosen => (spec₅ chosen).weaken fun _ _ since => ⟨since, absurd chosen⟩)
        (fun unselected => .pure ⟨?_, fun _ => ⟨rfl, rfl⟩⟩)
      exact (Since.refl v₅).weaken (fun _ => trivial) fun ⟨i, member, _⟩ =>
        unselected (any_of_bit (lt_width_of_writeMask member) member)
    refine .bind half₅ fun _ v₆ ⟨since₆, unwritten₆⟩ => ?_
    have reach₆ := reach₅.trans since₆
    refine (poke_yields (ready_after ready reach₆) original).weaken fun _ v₇
      ⟨since₇, unwritten₇, poked⟩ => ⟨?_, ?_, ?_, ?_⟩
    · refine (reach₆.trans since₇).weaken (fun healthy => by simp [healthy]) ?_
      rintro ⟨i, member, value, tied⟩
      rw [ready.descriptor] at member
      have inside := lt_width_of_writeMask member
      have readMember := (of_stableReadWriteMask (Ready.layout ready) (inWord_of_bit member) member).1
      -- the two patterns differ at the bit, so one of the halves expects the other value
      have patterns := getLsbD_alternatingPattern v.bench.handle.descriptor (inWord_of_bit member) inside
      by_cases first : value = !(alternatingPattern v.bench.handle.descriptor false).getLsbD i
      · exact .inl (.inl (.inr ⟨i, readMember, tied.trans (congrArg some first)⟩))
      · refine .inl (.inr ⟨i, member, tied.trans (congrArg some ?_)⟩)
        rw [patterns, Bool.not_not]
        simpa using first
    · intro i inside calm
      rw [reach₆.same.register.descriptor, reach₆.same.device] at poked
      rw [poked i inside]
      exact forced_held_of (peeked i inside calm).1
    · exact fun untouched => absurd selected untouched
    · intro unselected
      exact (((still.unwritten.trans unwritten₄).trans unwritten₅).trans
        (unwritten₆ unselected)).trans unwritten₇
  · refine (count_yields _).weaken fun _ v₂ still₂ => visited_of_still (still₁.counted still₂) ?_
    rintro ⟨i, member, -⟩
    rw [ready.descriptor] at member
    exact skipped (by rw [any_of_bit (lt_width_of_writeMask member) member, Bool.or_true])

section Bashing

/-- What one bit of a bash leaves, and what it expects. -/
structure Bashed (v v' : Visit bus) (path : AccessPath) (index : ℕ) (original : Word) : Prop where
  since : Since v v' (v.bench.device.tied index = none)
    (v.bench.device.tied index = some (original.getLsbD index))
  fixed : path = .frontdoor → ∀ i < v.bench.handle.descriptor.width, v.bench.device.Calm i →
    v.bench.device.descriptor.Fixed i →
      v.bench.device.held v'.bench.contents i = v.bench.device.held v.bench.contents i

/-- The verdict on a bit that has been read back: it is right unless the bit is tied to what it was. -/
theorem judgeBit_yields {d : Device} {index : ℕ} {original actual : Word} (inWord : index < 64)
    (found : actual.getLsbD index = d.forced index (!original.getLsbD index)) :
    Yields (judgeBit moment (setBit original index (!bit original index)) index actual) v fun _ v' =>
      Still v v' (d.tied index = none) (d.tied index = some (original.getLsbD index)) := by
  refine .bind (expectEq_yields moment 382 _ _ _) fun _ v₁ still₁ => ?_
  refine (count_yields _).weaken fun _ v₂ still₂ => ?_
  have still := still₁.trans still₂
  refine ⟨still.bench, still.issued, still.judged.weaken ?_ ?_⟩
  · intro free
    refine ⟨?_, trivial⟩
    rw [bit_eq, bit_eq, bit_eq, getLsbD_setBit _ _ _ inWord, if_pos rfl, found, Device.forced, free,
      beq_iff_eq]
    rfl
  · intro stuck
    refine .inl ?_
    rw [bit_eq, bit_eq, bit_eq, getLsbD_setBit _ _ _ inWord, if_pos rfl, found, Device.forced, stuck]
    cases original.getLsbD index <;> rfl

theorem bashFrontdoor_yields (ready : v.bench.Ready) (wide : 8 ≤ bus.byteEnableBits) (original : Word)
    (member : (stableReadWriteMask v.bench.handle.descriptor).getLsbD i = true) :
    Yields (bashFrontdoor moment original i) v fun _ v' =>
      Bashed v v' .frontdoor i original := by
  have layout := Ready.layout ready
  have inWord := inWord_of_bit member
  have inside := lt_width_of_writeMask member
  obtain ⟨plain, calm, visible, quiet, -⟩ := of_writeMask ready member
  have accepted := enforceWriteAccess_of layout inWord member
  have readable := hasReadableField_of inWord (of_stableReadWriteMask layout inWord member).1
  refine .bind (write_yields ready wide _ accepted) fun written v₁ ⟨isOkay, since₁, _, wrote⟩ => ?_
  subst isOkay
  refine .bind (expect_yields moment 363 true) fun _ v₂ still₂ => ?_
  have reach₂ := since₁.trans still₂.since
  rw [if_pos rfl]
  refine .bind (read_yields (ready_after ready reach₂) (by
    rw [reach₂.same.register.descriptor]
    exact readable)) fun response v₃ ⟨okay, since₃, _, _, _, data⟩ => ?_
  rw [reach₂.same.register.descriptor, reach₂.same.device, still₂.bench] at data
  refine .bind (expect_yields moment 367 response.1) fun _ v₄ still₄ => ?_
  rw [okay] at still₄ ⊢
  rw [if_pos rfl]
  have found : response.2.data.getLsbD i = v.bench.device.forced i (!original.getLsbD i) := by
    rw [(data i inside calm (quiet i)).2 visible, (wrote i inside calm).1 plain,
      getLsbD_setBit _ _ _ inWord, if_pos rfl, bit_eq]
  refine (judgeBit_yields moment inWord found).weaken fun _ v₅ still₅ => ⟨?_, ?_⟩
  · refine (((reach₂.trans since₃).trans still₄.since).trans still₅.since).weaken ?_ .inr
    exact fun free => ⟨⟨⟨⟨trivial, rfl⟩, trivial⟩, rfl⟩, free⟩
  · intro _ j below calm' fixed
    rw [still₅.bench, still₄.bench, (data j below calm' (quiet j)).1]
    exact (wrote j below calm').2 fixed

theorem bashBackdoor_yields (ready : v.bench.Ready) (original : Word)
    (member : (stableReadWriteMask v.bench.handle.descriptor).getLsbD i = true) :
    Yields (bashBackdoor moment original i) v fun _ v' =>
      Bashed v v' .backdoor i original ∧ Unwritten v v' := by
  have inWord := inWord_of_bit member
  have inside := lt_width_of_writeMask member
  obtain ⟨-, calm, -⟩ := of_writeMask ready member
  refine .bind (poke_yields ready _) fun _ v₁ ⟨since₁, unwritten₁, poked⟩ => ?_
  refine .bind (peek_yields (ready_after ready since₁)) fun actual v₂ ⟨since₂, unwritten₂, _, peeked⟩ => ?_
  rw [since₁.same.register.descriptor, since₁.same.device] at peeked
  have found : actual.getLsbD i = v.bench.device.forced i (!original.getLsbD i) := by
    rw [(peeked i inside calm).1, poked i inside, getLsbD_setBit _ _ _ inWord, if_pos rfl, bit_eq]
  refine (judgeBit_yields moment inWord found).weaken fun _ v₃ still₃ => ⟨⟨?_, nofun⟩, ?_⟩
  · exact ((since₁.trans since₂).trans still₃.since).weaken (fun free => ⟨⟨trivial, trivial⟩, free⟩) .inr
  · exact (unwritten₁.trans unwritten₂).trans still₃.unwritten

/-- One bit of either bash. -/
theorem bash_yields (ready : v.bench.Ready) (wide : 8 ≤ bus.byteEnableBits) (path : AccessPath)
    (original : Word) (member : (stableReadWriteMask v.bench.handle.descriptor).getLsbD i = true) :
    Yields (match path with
        | .frontdoor => bashFrontdoor moment original i
        | .backdoor => bashBackdoor moment original i : Visitor bus PUnit) v fun _ v' =>
      Bashed v v' path i original := by
  cases path with
  | frontdoor => exact bashFrontdoor_yields moment ready wide original member
  | backdoor => exact (bashBackdoor_yields moment ready original member).weaken fun _ _ both => both.1

/-- The state of a bash between two bits. -/
structure Bashing (v s : Visit bus) (path : AccessPath) (catches : Prop) : Prop where
  since : Since v s (Healthy v.bench.device) catches
  fixed : path = .frontdoor → ∀ i < v.bench.handle.descriptor.width, v.bench.device.Calm i →
    v.bench.device.descriptor.Fixed i →
      v.bench.device.held s.bench.contents i = v.bench.device.held v.bench.contents i

theorem Bashing.step {s s' : Visit bus} {path : AccessPath} {catches : Prop} {original : Word}
    (bashing : Bashing v s path catches) (bashed : Bashed s s' path i original)
    (healthy : Healthy v.bench.device → v.bench.device.tied i = none) :
    Bashing v s' path (catches ∨ v.bench.device.tied i = some (original.getLsbD i)) where
  since := by
    have next := bashed.since
    rw [bashing.since.same.device] at next
    exact (bashing.since.trans next).weaken (fun fine => ⟨fine, healthy fine⟩) id
  fixed frontdoor j below calm fixed := by
    have next := bashed.fixed frontdoor j
    rw [bashing.since.same.device, bashing.since.same.register.descriptor] at next
    rw [next below calm fixed]
    exact bashing.fixed frontdoor j below calm fixed

theorem Bashing.weaken {s : Visit bus} {path : AccessPath} {catches catches' : Prop}
    (bashing : Bashing v s path catches) (catch_ : catches' → catches) : Bashing v s path catches' :=
  ⟨bashing.since.weaken id catch_, bashing.fixed⟩

/-- The loop over the bits. -/
theorem bashLoop_yields (ready : v.bench.Ready) (wide : 8 ≤ bus.byteEnableBits) (path : AccessPath)
    (original : Word)
    (held : ∀ i, (stableReadWriteMask v.bench.handle.descriptor).getLsbD i = true →
      original.getLsbD i = v.bench.device.held v.bench.contents i) :
    Yields (((List.range v.bench.handle.descriptor.width).filter fun index =>
        bit (stableReadWriteMask v.bench.handle.descriptor) index).forM fun index =>
          (match path with
            | .frontdoor => bashFrontdoor moment original index
            | .backdoor => bashBackdoor moment original index : Visitor bus PUnit)) v
      fun _ v' => Bashing v v' path (StuckBit v.bench.device) := by
  have selected : ∀ index ∈ (List.range v.bench.handle.descriptor.width).filter fun index =>
      bit (stableReadWriteMask v.bench.handle.descriptor) index,
      (stableReadWriteMask v.bench.handle.descriptor).getLsbD index = true := fun index member =>
    bit_eq _ _ ▸ (List.mem_filter.mp member).2
  have step : ∀ {catches : Prop}, ∀ index,
      (stableReadWriteMask v.bench.handle.descriptor).getLsbD index = true → ∀ s,
        Bashing v s path catches → Yields (match path with
          | .frontdoor => bashFrontdoor moment original index
          | .backdoor => bashBackdoor moment original index : Visitor bus PUnit) s fun _ s' =>
            Bashing v s' path (catches ∨ v.bench.device.tied index = some (original.getLsbD index)) := by
    intro catches index member s bashing
    refine (bash_yields moment (ready_after ready bashing.since) wide path original (by
      rw [bashing.since.same.register.descriptor]
      exact member)).weaken fun _ s' bashed => bashing.step bashed fun healthy => ?_
    exact healthy index (of_writeMask ready member).2.2.2.2
  have start : Bashing v v path False :=
    ⟨(Since.refl v).weaken (fun _ => trivial) id, fun _ _ _ _ _ => rfl⟩
  by_cases stuck : StuckBit v.bench.device
  · obtain ⟨j, member, value, tied⟩ := stuck
    rw [ready.descriptor] at member
    -- the stuck bit read as it is tied, so its turn expects the other value
    have caught : v.bench.device.tied j = some (original.getLsbD j) := by
      rw [held j member, Device.held, Device.forced, tied]
      rfl
    have turn : j ∈ (List.range v.bench.handle.descriptor.width).filter fun index =>
        bit (stableReadWriteMask v.bench.handle.descriptor) index :=
      List.mem_filter.mpr ⟨List.mem_range.mpr (lt_width_of_writeMask member),
        (bit_eq _ _).trans member⟩
    refine (Yields.forM_reaches (I := fun s => Bashing v s path False)
      (P := fun s => Bashing v s path True) turn ?_ ?_ ?_ start).weaken
        fun _ s' both => both.2.weaken fun _ => trivial
    · exact fun index inList s bashing => (step index (selected index inList) s bashing).weaken
        fun _ s' next => next.weaken (·.elim)
    · exact fun s bashing => (step j member s bashing).weaken
        fun _ s' next => ⟨next.weaken (·.elim), next.weaken fun _ => .inr caught⟩
    · exact fun index inList s both => (step index (selected index inList) s both.2).weaken
        fun _ s' next => ⟨next.weaken (·.elim), next.weaken fun _ => .inl trivial⟩
  · refine (Yields.forM_keeps (I := fun s => Bashing v s path False) ?_ start).weaken
      fun _ s' bashing => bashing.weaken stuck
    exact fun index inList s bashing => (step index (selected index inList) s bashing).weaken
      fun _ s' next => next.weaken (·.elim)

/-- A register with bits to bash: the loop, and the access that puts the register back. -/
theorem bashRegister_yields (ready : v.bench.Ready) (wide : 8 ≤ bus.byteEnableBits) (path : AccessPath)
    (original : Word)
    (selected : any (stableReadWriteMask v.bench.handle.descriptor) v.bench.handle.descriptor.width = true)
    (held : ∀ i < v.bench.handle.descriptor.width, v.bench.device.Calm i →
      (path = .frontdoor → v.bench.device.descriptor.readableAt i = true) →
        original.getLsbD i = v.bench.device.held v.bench.contents i) :
    Yields (bashRegister moment path v.bench.handle.descriptor.width
        (stableReadWriteMask v.bench.handle.descriptor) original) v fun _ v' =>
      Since v v' (Healthy v.bench.device) (StuckBit v.bench.device) ∧
        ∀ i < v.bench.handle.descriptor.width, v.bench.device.Calm i →
          v.bench.device.held v'.bench.contents i = v.bench.device.held v.bench.contents i := by
  refine .bind (count_yields _) fun _ v₁ still₁ => ?_
  have masked : ∀ i, (stableReadWriteMask v.bench.handle.descriptor).getLsbD i = true →
      original.getLsbD i = v.bench.device.held v.bench.contents i := by
    intro i member
    obtain ⟨-, calm, visible, -, -⟩ := of_writeMask ready member
    exact held i (lt_width_of_writeMask member) calm fun _ => visible
  have loop := bashLoop_yields (v := v₁) moment (ready_after ready still₁.since) wide path original
  rw [still₁.bench] at loop
  refine .bind (loop masked) fun _ v₂ bashing => ?_
  have since₂ := bashing.since
  rw [still₁.bench] at since₂
  have reach₂ := still₁.since.trans since₂
  have fixed := bashing.fixed
  rw [still₁.bench] at fixed
  cases path with
  | frontdoor =>
    obtain ⟨j, -, chosen⟩ := (any_iff _ _).mp selected
    have layout := Ready.layout ready
    have accepted := enforceWriteAccess_of (h := v₂.bench.handle) (i := j)
      (by rw [reach₂.same.register.descriptor]; exact layout) (inWord_of_bit chosen)
      (by rw [reach₂.same.register.descriptor]; exact chosen)
    refine .bind (write_yields (ready_after ready reach₂) wide original accepted)
      fun restored v₃ ⟨isOkay, since₃, _, wrote⟩ => ?_
    subst isOkay
    rw [reach₂.same.register.descriptor, reach₂.same.device] at wrote
    refine (expect_yields moment 390 true).weaken fun _ v₄ still₄ => ⟨?_, ?_⟩
    · refine ((reach₂.trans since₃).trans still₄.since).weaken ?_ fun stuck => .inl (.inl (.inr stuck))
      exact fun healthy => ⟨⟨⟨trivial, healthy⟩, trivial⟩, rfl⟩
    · intro i inside calm
      rw [still₄.bench]
      obtain ⟨-, -, kinds, -⟩ := of_stableReadWriteMask layout (inWord_of_bit chosen) chosen
      rw [← ready.descriptor] at kinds
      rcases kinds i with plain | unwritable
      · rw [(wrote i inside calm).1 plain]
        refine forced_held_of (held i inside calm fun _ => ?_)
        rcases plain with fieldless | ⟨field, found, access, -⟩
        · rw [RegisterDescriptor.readableAt, fieldless]
          rfl
        · rw [RegisterDescriptor.readableAt, found, Option.any_some, access]
          exact Bool.or_true _
      · rw [(wrote i inside calm).2 unwritable]
        exact fixed rfl i inside calm unwritable
  | backdoor =>
    refine (poke_yields (ready_after ready reach₂) original).weaken
      fun _ v₃ ⟨since₃, _, poked⟩ => ⟨?_, ?_⟩
    · refine (reach₂.trans since₃).weaken ?_ fun stuck => .inl (.inr stuck)
      exact fun healthy => ⟨⟨trivial, healthy⟩, trivial⟩
    · intro i inside calm
      rw [reach₂.same.register.descriptor, reach₂.same.device] at poked
      rw [poked i inside]
      exact forced_held_of (held i inside calm nofun)

/-- The first access of a bash finds what the register holds. -/
theorem bashSelected_yields (ready : v.bench.Ready) (wide : 8 ≤ bus.byteEnableBits) (path : AccessPath)
    (selected : any (stableReadWriteMask v.bench.handle.descriptor)
      v.bench.handle.descriptor.width = true) :
    Yields (bashSelected moment path v.bench.handle.descriptor.width
        (stableReadWriteMask v.bench.handle.descriptor)) v fun _ v' =>
      Since v v' (Healthy v.bench.device) (StuckBit v.bench.device) ∧
        ∀ i < v.bench.handle.descriptor.width, v.bench.device.Calm i →
          v.bench.device.held v'.bench.contents i = v.bench.device.held v.bench.contents i := by
  obtain ⟨j, -, chosen⟩ := (any_iff _ _).mp selected
  have layout := Ready.layout ready
  have readMember := (of_stableReadWriteMask layout (inWord_of_bit chosen) chosen).1
  obtain ⟨-, -, -, quiet, -⟩ := of_writeMask ready chosen
  cases path with
  | frontdoor =>
    refine .bind (read_yields ready (hasReadableField_of (inWord_of_bit chosen) readMember))
      fun response v₁ ⟨okay, since₁, _, _, _, data⟩ => ?_
    refine .bind (expect_yields moment 338 response.1) fun _ v₂ still₂ => ?_
    rw [okay] at still₂ ⊢
    rw [if_pos rfl]
    have reach₂ := since₁.trans still₂.since
    have rest := bashRegister_yields (v := v₂) moment (ready_after ready reach₂) wide .frontdoor
      response.2.data
    rw [reach₂.same.register.descriptor, reach₂.same.device, still₂.bench] at rest
    refine (rest selected ?_).weaken fun _ v₃ ⟨since₃, kept⟩ => ⟨?_, ?_⟩
    · intro i inside calm visible
      rw [(data i inside calm (quiet i)).2 (visible rfl), (data i inside calm (quiet i)).1]
    · exact (reach₂.trans since₃).weaken (fun healthy => ⟨⟨trivial, rfl⟩, healthy⟩) .inr
    · intro i inside calm
      rw [kept i inside calm, (data i inside calm (quiet i)).1]
  | backdoor =>
    refine .bind (requireBackdoor_yields ready _) fun _ v₁ here => ?_
    subst here
    refine .bind (peek_yields ready) fun original v₂ ⟨since₂, _, _, peeked⟩ => ?_
    have rest := bashRegister_yields (v := v₂) moment (ready_after ready since₂) wide .backdoor original
    rw [since₂.same.register.descriptor, since₂.same.device] at rest
    refine (rest selected ?_).weaken fun _ v₃ ⟨since₃, kept⟩ => ⟨?_, ?_⟩
    · intro i inside calm _
      rw [(peeked i inside calm).1, (peeked i inside calm).2]
    · exact (since₂.trans since₃).weaken (fun healthy => ⟨trivial, healthy⟩) .inr
    · intro i inside calm
      rw [kept i inside calm, (peeked i inside calm).2]

/-- **The bit bash of one register.** -/
theorem bitBash_visited (ready : v.bench.Ready) (wide : 8 ≤ bus.byteEnableBits) (path : AccessPath) :
    Yields (bitBashVisitor moment path) v fun _ v' => Visited v v'
      (any (stableReadWriteMask v.bench.handle.descriptor) v.bench.handle.descriptor.width = true)
      (any (stableReadWriteMask v.bench.handle.descriptor) v.bench.handle.descriptor.width = true)
      (Healthy v.bench.device) (StuckBit v.bench.device) := by
  refine .get_bind (.bind (count_yields _) fun _ v₁ still₁ => ?_)
  refine .ite (fun selected => ?_) (fun skipped => ?_)
  · have bash := bashSelected_yields (v := v₁) moment (ready_after ready still₁.since) wide path
    rw [still₁.bench] at bash
    refine (bash selected).weaken fun _ v₂ ⟨since₂, kept⟩ => ⟨?_, kept, absurd selected, absurd selected⟩
    exact (still₁.since.trans since₂).weaken (fun healthy => ⟨trivial, healthy⟩) .inr
  · refine (count_yields _).weaken fun _ v₂ still₂ => visited_of_still (still₁.counted still₂) ?_
    rintro ⟨i, member, -⟩
    rw [ready.descriptor] at member
    exact skipped (any_of_bit (lt_width_of_writeMask member) member)

end Bashing

section Resetting

/-- The register holds its declared reset value, where that is known. -/
def Fresh (b : Bench bus) : Prop :=
  ∀ i < b.handle.descriptor.width,
    (valueFromWords b.handle.descriptor.resetMaskWords b.handle.descriptor.resetMask
      b.handle.descriptor.width).getLsbD i = true →
    b.device.held b.contents i = (declaredReset b.handle.descriptor).getLsbD i

/-- A bit that a reset check compares is not the declared one. -/
def Stale (b : Bench bus) : Prop :=
  ∃ i, (resetCompareMask b.handle.descriptor).getLsbD i = true ∧
    b.device.held b.contents i ≠ (declaredReset b.handle.descriptor).getLsbD i

theorem of_resetCompareMask {descriptor : RegisterDescriptor}
    (member : (resetCompareMask descriptor).getLsbD i = true) : i < descriptor.width ∧
      (valueFromWords descriptor.resetMaskWords descriptor.resetMask descriptor.width).getLsbD i = true ∧
      (stableReadMask descriptor).getLsbD i = true := by
  rw [resetCompareMask, getLsbD_intersect _ _ _ (inWord_of_bit member)] at member
  simp only [Bool.and_eq_true, decide_eq_true_eq] at member
  exact member

/-- A comparison under the mask of a reset check. -/
theorem compare_reset {b : Bench bus} (mask value : Word)
    (exact_mask : ∀ i < b.handle.descriptor.width,
      mask.getLsbD i = (resetCompareMask b.handle.descriptor).getLsbD i)
    (found : ∀ i, (resetCompareMask b.handle.descriptor).getLsbD i = true →
      value.getLsbD i = b.device.held b.contents i) :
    (Fresh b → masked value mask b.handle.descriptor.width
      = masked (masked (declaredReset b.handle.descriptor) (resetCompareMask b.handle.descriptor)
        b.handle.descriptor.width) mask b.handle.descriptor.width) ∧
    (Stale b → masked value mask b.handle.descriptor.width
      ≠ masked (masked (declaredReset b.handle.descriptor) (resetCompareMask b.handle.descriptor)
        b.handle.descriptor.width) mask b.handle.descriptor.width) := by
  have expected : ∀ i, (resetCompareMask b.handle.descriptor).getLsbD i = true →
      (masked (declaredReset b.handle.descriptor) (resetCompareMask b.handle.descriptor)
        b.handle.descriptor.width).getLsbD i = (declaredReset b.handle.descriptor).getLsbD i := by
    intro i member
    rw [masked, getLsbD_intersect _ _ _ (inWord_of_bit member), member, Bool.and_true,
      decide_eq_true (of_resetCompareMask member).1, Bool.true_and]
  constructor
  · intro fresh
    refine masked_eq fun i inside chosen => ?_
    rw [exact_mask i inside] at chosen
    obtain ⟨-, known, -⟩ := of_resetCompareMask chosen
    rw [found i chosen, expected i chosen, fresh i inside known]
  · rintro ⟨i, chosen, differs⟩ same
    have inside := (of_resetCompareMask chosen).1
    have bits := getLsbD_of_masked_eq (inWord_of_bit chosen) inside
      ((exact_mask i inside).trans chosen) same
    rw [found i chosen, expected i chosen] at bits
    exact differs bits

theorem masked_masked (value mask : Word) (width : ℕ) :
    masked (masked value mask width) mask width = masked value mask width := by
  apply BitVec.eq_of_getLsbD_eq
  intro i inWord
  rw [masked, masked, getLsbD_intersect _ _ _ inWord, getLsbD_intersect _ _ _ inWord]
  cases mask.getLsbD i <;> cases decide (i < width) <;> simp

theorem of_any_resetCompareMask (ready : v.bench.Ready)
    (selected : any (resetCompareMask v.bench.handle.descriptor) v.bench.handle.descriptor.width = true) :
    v.bench.handle.descriptor.hasReadableField = true ∧
      (∀ j, v.bench.device.descriptor.Quiet j) ∧
      ∀ i, (resetCompareMask v.bench.handle.descriptor).getLsbD i = true →
        v.bench.device.Calm i ∧ v.bench.device.descriptor.readableAt i = true := by
  obtain ⟨j, -, chosen⟩ := (any_iff _ _).mp selected
  have layout := Ready.layout ready
  have readMember := (of_resetCompareMask chosen).2.2
  obtain ⟨quiet, -⟩ := of_stableReadMask layout (inWord_of_bit readMember) readMember
  refine ⟨hasReadableField_of (inWord_of_bit chosen) readMember, ready.descriptor ▸ quiet, ?_⟩
  intro i member
  have readMember := (of_resetCompareMask member).2.2
  obtain ⟨-, visible, steady, -⟩ := of_stableReadMask layout (inWord_of_bit readMember) readMember
  rw [← ready.descriptor] at visible steady
  exact ⟨.inl steady, visible⟩

/-- The comparison of a reset check, through either path. -/
theorem compareReset_yields (ready : v.bench.Ready) (path : AccessPath)
    (selected : any (resetCompareMask v.bench.handle.descriptor) v.bench.handle.descriptor.width = true) :
    Yields (compareReset moment path (masked (declaredReset v.bench.handle.descriptor)
        (resetCompareMask v.bench.handle.descriptor) v.bench.handle.descriptor.width)
        (resetCompareMask v.bench.handle.descriptor) v.bench.handle.descriptor.width) v fun _ v' =>
      Since v v' (Fresh v.bench) (Stale v.bench) ∧ Unwritten v v' ∧
        v'.bench.contents.deposits = v.bench.contents.deposits ∧
        ∀ i < v.bench.handle.descriptor.width, v.bench.device.Calm i →
          v.bench.device.held v'.bench.contents i = v.bench.device.held v.bench.contents i := by
  obtain ⟨readable, quiet, kinds⟩ := of_any_resetCompareMask ready selected
  cases path with
  | frontdoor =>
    refine .bind (read_yields ready readable)
      fun response v₁ ⟨okay, since₁, unwritten₁, deposits, valid, data⟩ => ?_
    refine .bind (expect_yields moment 208 response.1) fun _ v₂ still₂ => ?_
    rw [okay] at still₂ ⊢
    rw [if_pos rfl]
    have compared := compare_reset (b := v.bench)
      (intersect (resetCompareMask v.bench.handle.descriptor) response.2.validMask
        v.bench.handle.descriptor.width) response.2.data
      (fun i inside => by
        rw [getLsbD_intersect _ _ _ (ready.inWord inside), valid i inside, Bool.and_true,
          decide_eq_true inside, Bool.true_and])
      (fun i member => (data i (of_resetCompareMask member).1 (kinds i member).1 (quiet i)).2
        (kinds i member).2)
    refine (expectEq_yields moment 212 _ _ _).weaken fun _ v₃ still₃ => ⟨?_, ?_, ?_, ?_⟩
    · refine ((since₁.trans still₂.since).trans still₃.since).weaken ?_ ?_
      · exact fun fresh => ⟨⟨trivial, rfl⟩, beq_iff_eq.mpr (compared.1 fresh)⟩
      · exact fun stale => .inr (beq_eq_false_iff_ne.mpr (compared.2 stale))
    · exact (unwritten₁.trans still₂.unwritten).trans still₃.unwritten
    · rw [still₃.bench, still₂.bench, deposits]
    · intro i inside calm
      rw [still₃.bench, still₂.bench, (data i inside calm (quiet i)).1]
  | backdoor =>
    refine .bind (requireBackdoor_yields ready _) fun _ v₁ here => ?_
    rw [here]
    refine .bind (peek_yields ready) fun actual v₂ ⟨since₂, unwritten₂, deposits, peeked⟩ => ?_
    have compared := compare_reset (b := v.bench)
      (resetCompareMask v.bench.handle.descriptor) actual (fun _ _ => rfl)
      (fun i member => (peeked i (of_resetCompareMask member).1 (kinds i member).1).1)
    rw [masked_masked] at compared
    refine (expectEq_yields moment 226 _ _ _).weaken fun _ v₃ still₃ => ⟨?_, ?_, ?_, ?_⟩
    · refine (since₂.trans still₃.since).weaken ?_ ?_
      · exact fun fresh => ⟨trivial, beq_iff_eq.mpr (compared.1 fresh)⟩
      · exact fun stale => .inr (beq_eq_false_iff_ne.mpr (compared.2 stale))
    · exact unwritten₂.trans still₃.unwritten
    · rw [still₃.bench, deposits]
    · intro i inside calm
      rw [still₃.bench, (peeked i inside calm).2]

/-- **The reset check of one register.** It writes nothing at all. -/
theorem resetCheck_visited (ready : v.bench.Ready) (path : AccessPath) :
    Yields (resetCheckVisitor moment path) v fun _ v' => Visited v v'
      (any (resetCompareMask v.bench.handle.descriptor) v.bench.handle.descriptor.width = true) False
      (Fresh v.bench) (Stale v.bench) ∧
        v'.bench.contents.deposits = v.bench.contents.deposits := by
  refine .get_bind (.bind (count_yields _) fun _ v₁ still₁ => ?_)
  refine .ite (fun selected => ?_) (fun skipped => ?_)
  · refine .bind (count_yields _) fun _ v₂ still₂ => ?_
    have still := still₁.counted still₂
    have compared := compareReset_yields (v := v₂) moment (ready_after ready still.since) path
    rw [still.bench] at compared
    refine (compared selected).weaken fun _ v₃ ⟨since₃, unwritten₃, deposits, kept⟩ =>
      ⟨⟨?_, kept, absurd selected, fun _ => still.unwritten.trans unwritten₃⟩, deposits⟩
    exact (still.since.trans since₃).weaken (fun fresh => ⟨trivial, fresh⟩) .inr
  · refine (count_yields _).weaken fun _ v₂ still₂ =>
      ⟨visited_of_still (still₁.counted still₂) ?_, by rw [still₂.bench, still₁.bench]⟩
    rintro ⟨i, member, -⟩
    exact skipped (any_of_bit (of_resetCompareMask member).1 member)

end Resetting

end Registers

/-! ### A whole model -/

section Models

/-- What a sequence has left of one register. -/
structure LeftAlone (selected written deposited : RegisterDescriptor → Prop) (b b' : Bench bus) :
    Prop where
  same : Bench.Same b b'
  restored : ∀ i < b.handle.descriptor.width, b.device.Calm i →
    b.device.held b'.contents i = b.device.held b.contents i
  untouched : ¬ selected b.handle.descriptor → b' = b
  unwritten : ¬ written b.handle.descriptor → b'.contents.writes = b.contents.writes
  undeposited : ¬ deposited b.handle.descriptor → b'.contents.deposits = b.contents.deposits

/-- What a sequence over a model has done: every register holds what it held, the registers that the
masks do not select are left alone, the failures are those that the registers deserve, and the bus has
seen writes of selected registers only. -/
structure Outcome (selected written deposited : RegisterDescriptor → Prop)
    (passes catches : Bench bus → Prop) (model model' : List (Bench bus)) (report report' : Report bus) :
    Prop where
  registers : List.Forall₂ (LeftAlone selected written deposited) model model'
  judged : ∃ new, report'.test.result.failureRecords = report.test.result.failureRecords ++ new ∧
    ((∀ b ∈ model, passes b) → new = []) ∧
    (report.test.result.finished = false → ∀ b ∈ model, catches b →
      ∃ record ∈ new, record.label = b.handle.descriptor.path)
  finished : report'.test.result.finished = report.test.result.finished
  issued : ∃ more, report'.issued = report.issued ++ more ∧ ∀ request ∈ more, ∃ b ∈ model,
    written b.handle.descriptor ∧ b.device.Selects request.address.toNat

variable {selected written deposited : RegisterDescriptor → Prop} {passes catches : Bench bus → Prop}

/-- One register after the other. -/
theorem outcome_forEachRegister {visitor : Visitor bus PUnit}
    (visits : ∀ v : Visit bus, v.bench.Ready → Yields visitor v fun _ v' =>
      Visited v v' (selected v.bench.handle.descriptor) (written v.bench.handle.descriptor)
        (passes v.bench) (catches v.bench) ∧
      (¬ deposited v.bench.handle.descriptor →
        v'.bench.contents.deposits = v.bench.contents.deposits))
    (model : List (Bench bus)) (ready : ∀ b ∈ model, b.Ready) (report : Report bus) :
    ∃ model' report', forEachRegister visitor model report = .ok (model', report') ∧
      Outcome selected written deposited passes catches model model' report report' := by
  induction model generalizing report with
  | nil =>
    exact ⟨[], report, rfl, .nil, ⟨[], (List.append_nil _).symm, fun _ => rfl,
      fun _ _ member => absurd member List.not_mem_nil⟩, rfl,
      ⟨[], (List.append_nil _).symm, fun _ member => absurd member List.not_mem_nil⟩⟩
  | cons bench rest ih =>
    obtain ⟨_, v, ran, ⟨since, restored, untouched, unwritten⟩, undeposited⟩ :=
      visits ⟨bench, report⟩ (ready bench List.mem_cons_self)
    obtain ⟨model', report', ranRest, outcome⟩ :=
      ih (fun b member => ready b (List.mem_cons_of_mem bench member)) v.report
    refine ⟨v.bench :: model', report', ?_, ?_, ?_, ?_, ?_⟩
    · rw [forEachRegister, ran]
      show (forEachRegister visitor rest v.report >>= _) = _
      rw [ranRest]
      rfl
    · exact .cons ⟨since.same, restored, untouched, fun free => (unwritten free).2, undeposited⟩
        outcome.registers
    · obtain ⟨new, noted, clean, caught⟩ := since.judged
      obtain ⟨new', records', clean', caught'⟩ := outcome.judged
      refine ⟨new ++ new', by rw [records', noted.records, List.append_assoc], ?_, ?_⟩
      · intro all
        rw [clean (all bench List.mem_cons_self),
          clean' fun b member => all b (List.mem_cons_of_mem bench member), List.append_nil]
      · intro running b member deserved
        rcases List.mem_cons.mp member with rfl | later
        · obtain ⟨record, isNew⟩ := List.exists_mem_of_ne_nil _ (caught deserved running)
          exact ⟨record, List.mem_append_left _ isNew, noted.labels record isNew⟩
        · obtain ⟨record, isNew, label⟩ := caught' (noted.finished.trans running) b later deserved
          exact ⟨record, List.mem_append_right _ isNew, label⟩
    · exact outcome.finished.trans (by obtain ⟨new, noted, -⟩ := since.judged; exact noted.finished)
    · obtain ⟨more, issued, inside⟩ := since.issued
      obtain ⟨more', issued', inside'⟩ := outcome.issued
      by_cases here : written bench.handle.descriptor
      · refine ⟨more ++ more', by rw [issued', issued, List.append_assoc], fun request member => ?_⟩
        rcases List.mem_append.mp member with earlier | later
        · exact ⟨bench, List.mem_cons_self, here, inside request earlier⟩
        · obtain ⟨b, inRest, isWritten, selects⟩ := inside' request later
          exact ⟨b, List.mem_cons_of_mem bench inRest, isWritten, selects⟩
      · refine ⟨more', by rw [issued', (unwritten here).1], fun request member => ?_⟩
        obtain ⟨b, inRest, isWritten, selects⟩ := inside' request member
        exact ⟨b, List.mem_cons_of_mem bench inRest, isWritten, selects⟩

/-- A bit of the register can be read without harm. -/
def Readable (descriptor : RegisterDescriptor) : Prop :=
  any (stableReadMask descriptor) descriptor.width = true

/-- A bit of the register can be written without harm. -/
def Writable (descriptor : RegisterDescriptor) : Prop :=
  any (stableReadWriteMask descriptor) descriptor.width = true

/-- The register has a bit with a known reset value that can be read without harm. -/
def Comparable (descriptor : RegisterDescriptor) : Prop :=
  any (resetCompareMask descriptor) descriptor.width = true

/-- **The sequences neither cry wolf nor miss stuck bits.** Over any model whose registers have their
device behind them: the access check and the bit bash record no failure on healthy devices and one for
every register with a stuck bit, the reset check records none on freshly reset devices, all of them
leave the registers as they found them, and none touches a register that its masks do not select. -/
theorem sequences_judge (moment : ℕ → Moment) (wide : 8 ≤ bus.byteEnableBits)
    (model : List (Bench bus)) (ready : ∀ b ∈ model, b.Ready) (report : Report bus) :
    (∃ model' report', registerAccessCheck moment model report = .ok (model', report') ∧
      Outcome (fun d => Readable d ∨ Writable d) Writable (fun d => Readable d ∨ Writable d)
        (fun b => Healthy b.device) (fun b => StuckBit b.device) model model' report report') ∧
    (∀ path, ∃ model' report', registerBitBash moment path model report = .ok (model', report') ∧
      Outcome Writable Writable Writable (fun b => Healthy b.device) (fun b => StuckBit b.device)
        model model' report report') ∧
    (∀ path, ∃ model' report', registerResetCheck moment path model report = .ok (model', report') ∧
      Outcome Comparable (fun _ => False) (fun _ => False) Fresh Stale model model' report report') := by
  -- the result of a sequence starts from zero, which its outcome does not look at
  have fresh_result : ∀ {selected written deposited : RegisterDescriptor → Prop}
      {passes catches : Bench bus → Prop} {visitor : Visitor bus PUnit},
      (∃ model' report', forEachRegister visitor model { report with result := {} }
          = .ok (model', report') ∧
        Outcome selected written deposited passes catches model model' { report with result := {} } report') →
      ∃ model' report', forEachRegister visitor model { report with result := {} }
          = .ok (model', report') ∧
        Outcome selected written deposited passes catches model model' report report' := by
    rintro _ _ _ _ _ _ ⟨model', report', ran, outcome⟩
    exact ⟨model', report', ran, outcome.registers, outcome.judged, outcome.finished, outcome.issued⟩
  refine ⟨?_, fun path => ?_, fun path => ?_⟩
  · refine fresh_result (outcome_forEachRegister (fun v ready => ?_) model ready _)
    refine (accessCheck_visited moment ready wide).weaken fun _ v' visited => ⟨visited, fun free => ?_⟩
    rw [visited.untouched free]
  · refine fresh_result (outcome_forEachRegister (fun v ready => ?_) model ready _)
    refine (bitBash_visited moment ready wide path).weaken fun _ v' visited => ⟨visited, fun free => ?_⟩
    rw [visited.untouched free]
  · refine fresh_result (outcome_forEachRegister (fun v ready => ?_) model ready _)
    exact (resetCheck_visited moment ready path).weaken fun _ v' ⟨visited, deposits⟩ =>
      ⟨visited, fun _ => deposits⟩

theorem smallBus_address_le : 16 ≤ 64 := by decide

theorem smallBus_data_le : 32 ≤ 64 := by decide

/-- A bus of 32 data bits with a byte of byte enables. -/
def smallBus : BusTypes := ⟨16, 32, 8, smallBus_address_le, smallBus_data_le⟩

/-- A register with a mode, a status that cannot be written, and possibly a bit tied to a constant. -/
def controlBench (path : String) (address : UInt64) (tied : ℕ → Option Bool) : Bench smallBus :=
  let descriptor : RegisterDescriptor :=
    { path, address, resetMask := 0xff
      fields := [{ path := path ++ ".mode", lsb := 0, width := 8 },
        { path := path ++ ".status", lsb := 8, width := 8, access := .readOnly }] }
  { handle :=
      { descriptor, userEffects := none, hasBackdoor := true, effectiveAddress := address.toNat
        autoPredict := true, staged := 0, mirrored := 0, stagedValidMask := 0xff
        mirroredValidMask := 0xff, writtenOnceMask := 0 }
    device :=
      { descriptor, address := address.toNat, drift := fun _ storage i => storage.getLsbD i
        floating := fun _ _ => false, userRead := fun _ _ => false, userWrite := fun _ bit _ => bit
        tied }
    contents := ⟨0, 0, 0, 0, 0⟩ }

/-- Of two registers the second has its bit 3 stuck at one: each sequence that writes reports it. -/
theorem sequences_judge_control :
    let model := [controlBench "control" 0 fun _ => none,
      controlBench "trigger" 4 fun i => if i = 3 then some true else none]
    (∃ model' report', registerAccessCheck (fun _ => {}) model { test := {} } = .ok (model', report') ∧
      ∃ record ∈ report'.test.result.failureRecords, record.label = "trigger") ∧
    (∃ model' report', registerBitBash (fun _ => {}) .frontdoor model { test := {} }
        = .ok (model', report') ∧
      ∃ record ∈ report'.test.result.failureRecords, record.label = "trigger") := by
  intro model
  have ready : ∀ b ∈ model, b.Ready := by
    intro b member
    simp only [model, List.mem_cons, List.not_mem_nil, or_false] at member
    rcases member with rfl | rfl
    · exact ⟨⟨0, _, none, true, by with_unfolding_all rfl, rfl⟩, by with_unfolding_all rfl, rfl, rfl, rfl⟩
    · exact ⟨⟨0, _, none, true, by with_unfolding_all rfl, rfl⟩, by with_unfolding_all rfl, rfl, rfl, rfl⟩
  have stuck : StuckBit (controlBench "trigger" 4 fun i => if i = 3 then some true else none).device :=
    ⟨3, by decide +kernel, true, rfl⟩
  obtain ⟨access, bash, -⟩ := sequences_judge (fun _ => {}) (by decide) model ready { test := {} }
  constructor
  · obtain ⟨model', report', ran, outcome⟩ := access
    obtain ⟨new, records, -, caught⟩ := outcome.judged
    obtain ⟨record, isNew, label⟩ := caught rfl _ (List.mem_cons_of_mem _ List.mem_cons_self) stuck
    exact ⟨model', report', ran, record, by rw [records]; exact List.mem_append_right _ isNew, label⟩
  · obtain ⟨model', report', ran, outcome⟩ := bash .frontdoor
    obtain ⟨new, records, -, caught⟩ := outcome.judged
    obtain ⟨record, isNew, label⟩ := caught rfl _ (List.mem_cons_of_mem _ List.mem_cons_self) stuck
    exact ⟨model', report', ran, record, by rw [records]; exact List.mem_append_right _ isNew, label⟩

end Models

end Cpptb.RegisterModel.SequenceDetail
