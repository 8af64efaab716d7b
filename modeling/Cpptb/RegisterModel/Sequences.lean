/-
The built-in register sequences: reset check, access check and bit bash.

Each sequence visits the registers of a model one after the other. It computes its masks from the
descriptor, accesses the register through the frontdoor or the backdoor, and records what it expects in
the test; it counts what it does in a `RegisterSequenceResult`. A visit that throws ends the sequence.

The masks are loops that set one bit after the other (`setBits`), so each has one lemma that says which
bits it selects: `getLsbD_stableReadMask`, `getLsbD_stableReadWriteMask`,
`getLsbD_alternatingPattern`.
-/

import Cpptb.Lib.Ensures
import Cpptb.RegisterModel.Hardware
import Cpptb.Testing.Verdict

namespace Cpptb.RegisterModel.SequenceDetail

open Cpptb.Vc (RegisterAccess registerReadable registerWritable)
open Cpptb.Coro (SourceLocation)
open Cpptb.Testing (TestRunState Moment FailureRecord)

/-! ### Bits and masks -/

section Masks

/-- `bit`. -/
def bit (value : Word) (index : ℕ) : Bool := (value >>> index) &&& 1 ≠ 0

/-- `set_bit`. -/
def setBit (value : Word) (index : ℕ) (enabled : Bool) : Word :=
  let mask := (1 : Word) <<< index
  if enabled then value ||| mask else value &&& ~~~mask

/-- The loop that gives each bit below `width` its value. -/
def setBits (width : ℕ) (enabled : ℕ → Bool) : Word :=
  (List.range width).foldl (fun result index => setBit result index (enabled index)) 0

/-- `value_from_words`. -/
def valueFromWords (words : List (BitVec 32)) (fallback : Word) (width : ℕ) : Word :=
  setBits width fun index =>
    if words.isEmpty then decide (index < 64) && bit fallback index
    else match words[index / 32]? with
      | some word => (word >>> (index % 32)) &&& 1 ≠ 0
      | none => false

/-- `full_mask`. -/
def fullMask (width : ℕ) : Word := setBits width fun _ => true

/-- `intersect`. -/
def intersect (left right : Word) (width : ℕ) : Word :=
  setBits width fun index => bit left index && bit right index

/-- `masked`. -/
def masked (value mask : Word) (width : ℕ) : Word := intersect value mask width

/-- `any`. -/
def any (value : Word) (width : ℕ) : Bool := (List.range width).any fun index => bit value index

/-- `enable_field`. -/
def enableField (value : Word) (field : FieldDescriptor) (width : ℕ) : Word :=
  (List.range' field.lsb (min width (field.lsb + field.width) - field.lsb)).foldl
    (fun result index => setBit result index true) value

/-- A read of the field changes it. -/
def changesOnRead (field : FieldDescriptor) : Bool :=
  registerReadable field.access && field.readEffect ≠ .none

/-- `stable_read_mask`. -/
def stableReadMask (descriptor : RegisterDescriptor) : Word :=
  if descriptor.fields.isEmpty then fullMask descriptor.width
  else if descriptor.fields.any changesOnRead then 0
  else descriptor.fields.foldl (fun result field =>
    if !registerReadable field.access || field.volatileValue then result
    else enableField result field descriptor.width) 0

/-- The loop of `stable_read_write_mask`. -/
def selectReadWrite (width : ℕ) : List FieldDescriptor → Word → Word
  | [], result => result
  | field :: rest, result =>
    if registerWritable field.access && (field.access ≠ .readWrite || field.writeEffect ≠ .none) then 0
    else if changesOnRead field then 0
    else selectReadWrite width rest
      (if field.access = .readWrite && !field.volatileValue then enableField result field width
        else result)

/-- `stable_read_write_mask`. -/
def stableReadWriteMask (descriptor : RegisterDescriptor) : Word :=
  if descriptor.fields.isEmpty then fullMask descriptor.width
  else selectReadWrite descriptor.width descriptor.fields 0

/-- `alternating_pattern`. -/
def alternatingPattern (descriptor : RegisterDescriptor) (inverted : Bool) : Word :=
  let phase := (descriptor.address >>> 2) &&& 1 ≠ 0
  setBits descriptor.width fun index => ((index % 2 ≠ 0) != phase) != inverted

end Masks

/-! ### What the masks select -/

section Selected

variable {i : ℕ}

theorem bit_eq (value : Word) (index : ℕ) : bit value index = value.getLsbD index := by
  unfold bit
  rw [show (1 : Word) = 1#64 from rfl, BitVec.and_one_eq_setWidth_ofBool_getLsbD,
    BitVec.getLsbD_ushiftRight, Nat.add_zero]
  cases value.getLsbD index <;> decide

theorem getLsbD_setBit (value : Word) (index : ℕ) (enabled : Bool) (inWord : i < 64) :
    (setBit value index enabled).getLsbD i = if i = index then enabled else value.getLsbD i := by
  have mask : ((1 : Word) <<< index).getLsbD i = decide (i = index) := by
    rw [show (1 : Word) <<< index = BitVec.twoPow 64 index from (BitVec.twoPow_eq 64 index).symm,
      BitVec.getLsbD_twoPow]
    by_cases same : index = i
    · rw [decide_eq_true same, decide_eq_true same.symm, decide_eq_true (by omega), Bool.true_and]
    · rw [decide_eq_false same, decide_eq_false (Ne.symm same), Bool.and_false]
  unfold setBit
  dsimp only
  cases enabled
  · rw [if_neg Bool.false_ne_true, BitVec.getLsbD_and, BitVec.getLsbD_not, mask, decide_eq_true inWord]
    split <;> simp [*]
  · rw [if_pos rfl, BitVec.getLsbD_or, mask]
    split <;> simp [*]

theorem getLsbD_setBits (width : ℕ) (enabled : ℕ → Bool) (inWord : i < 64) :
    (setBits width enabled).getLsbD i = (decide (i < width) && enabled i) := by
  unfold setBits
  induction width with
  | zero => simp
  | succ width ih =>
    rw [List.range_succ, List.foldl_append, List.foldl_cons, List.foldl_nil, getLsbD_setBit _ _ _ inWord,
      ih]
    split
    next same => rw [same, decide_eq_true (Nat.lt_succ_self _), Bool.true_and]
    next other => exact congrArg (· && _) (decide_eq_decide.mpr (by omega))

theorem any_iff (value : Word) (width : ℕ) :
    any value width = true ↔ ∃ i < width, value.getLsbD i = true := by
  unfold any
  simp only [List.any_eq_true, List.mem_range, bit_eq]

theorem getLsbD_intersect (left right : Word) (width : ℕ) (inWord : i < 64) :
    (intersect left right width).getLsbD i =
      (decide (i < width) && (left.getLsbD i && right.getLsbD i)) := by
  rw [intersect, getLsbD_setBits _ _ inWord, bit_eq, bit_eq]

/-- Two values that agree where a mask selects. -/
theorem masked_eq {left right mask : Word} {width : ℕ}
    (agree : ∀ i < width, mask.getLsbD i = true → left.getLsbD i = right.getLsbD i) :
    masked left mask width = masked right mask width := by
  apply BitVec.eq_of_getLsbD_eq
  intro i inWord
  rw [masked, masked, getLsbD_intersect _ _ _ inWord, getLsbD_intersect _ _ _ inWord]
  by_cases inside : i < width
  · cases selected : mask.getLsbD i with
    | true => rw [agree i inside selected]
    | false => simp only [Bool.and_false]
  · rw [decide_eq_false inside, Bool.false_and, Bool.false_and]

theorem getLsbD_of_masked_eq {left right mask : Word} {width : ℕ} (inWord : i < 64)
    (inside : i < width) (selected : mask.getLsbD i = true)
    (same : masked left mask width = masked right mask width) : left.getLsbD i = right.getLsbD i := by
  have bit := congrArg (BitVec.getLsbD · i) same
  simp only [masked, getLsbD_intersect _ _ _ inWord, inside, selected, decide_true, Bool.true_and,
    Bool.and_true] at bit
  exact bit

theorem getLsbD_enableField (value : Word) (field : FieldDescriptor) (width : ℕ) (inWord : i < 64) :
    (enableField value field width).getLsbD i =
      (value.getLsbD i || (decide (i ∈ field.region) && decide (i < width))) := by
  have general : ∀ count start (value : Word), ((List.range' start count).foldl
      (fun result index => setBit result index true) value).getLsbD i =
        (value.getLsbD i || decide (start ≤ i ∧ i < start + count)) := by
    intro count
    induction count with
    | zero => intro start value; simp
    | succ count ih =>
      intro start value
      rw [List.range'_succ, List.foldl_cons, ih, getLsbD_setBit _ _ _ inWord]
      by_cases first : i = start
      · rw [if_pos first, Bool.true_or,
          decide_eq_true (show start ≤ i ∧ i < start + (count + 1) by omega), Bool.or_true]
      · rw [if_neg first]
        exact congrArg (value.getLsbD i || ·) (decide_eq_decide.mpr (by omega))
  rw [enableField, general, ← Bool.decide_and]
  refine congrArg (value.getLsbD i || ·) (decide_eq_decide.mpr ?_)
  show _ ↔ (field.lsb ≤ i ∧ i < field.lsb + field.width) ∧ i < width
  omega

/-- The bits that a loop over the fields enables. -/
theorem getLsbD_foldl_enableField (selected : FieldDescriptor → Bool) (width : ℕ) (inWord : i < 64)
    (fields : List FieldDescriptor) (value : Word) :
    (fields.foldl (fun result field => if selected field then enableField result field width
      else result) value).getLsbD i = true ↔ value.getLsbD i = true ∨
        (i < width ∧ ∃ field ∈ fields, selected field = true ∧ i ∈ field.region) := by
  induction fields generalizing value with
  | nil => simp
  | cons field rest ih =>
    rw [List.foldl_cons, ih]
    by_cases taken : selected field
    · rw [if_pos taken, getLsbD_enableField _ _ _ inWord]
      simp only [Bool.or_eq_true, Bool.and_eq_true, decide_eq_true_eq, List.mem_cons,
        exists_eq_or_imp, taken, true_and]
      tauto
    · simp [taken]

/-- No readable field changes when it is read. -/
def ReadStable (descriptor : RegisterDescriptor) : Prop :=
  ∀ field ∈ descriptor.fields, changesOnRead field = false

/-- Every writable field simply takes what is written. -/
def WritesPlainly (descriptor : RegisterDescriptor) : Prop :=
  ∀ field ∈ descriptor.fields, registerWritable field.access = true →
    field.access = .readWrite ∧ field.writeEffect = .none

/-- The bits of `stable_read_mask`. -/
theorem getLsbD_stableReadMask (descriptor : RegisterDescriptor) (inWord : i < 64) :
    (stableReadMask descriptor).getLsbD i = true ↔ i < descriptor.width ∧
      (descriptor.fields = [] ∨ (ReadStable descriptor ∧ ∃ field ∈ descriptor.fields,
        (registerReadable field.access = true ∧ field.volatileValue = false) ∧ i ∈ field.region)) := by
  unfold stableReadMask
  by_cases fieldless : descriptor.fields = []
  · rw [if_pos (by simp [fieldless]), fullMask, getLsbD_setBits _ _ inWord]
    simp [fieldless]
  · rw [if_neg (by simp [fieldless])]
    by_cases changes : descriptor.fields.any changesOnRead = true
    · obtain ⟨field, member, changed⟩ := List.any_eq_true.mp changes
      rw [if_pos changes, getLsbD_zeroWord]
      have unstable : ¬ ReadStable descriptor := fun stable => by
        rw [stable field member] at changed
        exact Bool.false_ne_true changed
      simp [fieldless, unstable]
    · have stable : ReadStable descriptor := fun field member =>
        Bool.eq_false_iff.mpr fun changed => changes (List.any_eq_true.mpr ⟨field, member, changed⟩)
      rw [if_neg changes]
      have loop := getLsbD_foldl_enableField
        (fun field => registerReadable field.access && !field.volatileValue) descriptor.width inWord
        descriptor.fields 0
      rw [getLsbD_zeroWord] at loop
      have same : (fun (result : Word) (field : FieldDescriptor) =>
          if !registerReadable field.access || field.volatileValue then result
          else enableField result field descriptor.width) = fun result field =>
            if registerReadable field.access && !field.volatileValue then
              enableField result field descriptor.width else result := by
        funext result field
        cases registerReadable field.access <;> cases field.volatileValue <;> rfl
      rw [same, loop]
      simp [fieldless, stable]

/-- The loop of `stable_read_write_mask` gives up at a field that is not transparent. -/
theorem selectReadWrite_eq (width : ℕ) (fields : List FieldDescriptor) (result : Word) :
    selectReadWrite width fields result =
      if fields.any fun field => (registerWritable field.access &&
          (field.access ≠ .readWrite || field.writeEffect ≠ .none)) || changesOnRead field then 0
      else fields.foldl (fun result field =>
        if field.access = .readWrite && !field.volatileValue then enableField result field width
        else result) result := by
  induction fields generalizing result with
  | nil => rfl
  | cons field rest ih =>
    rw [selectReadWrite, List.any_cons, List.foldl_cons, ih]
    by_cases effect : (registerWritable field.access &&
        (field.access ≠ .readWrite || field.writeEffect ≠ .none)) = true
    · rw [if_pos effect, if_pos (by rw [effect, Bool.true_or, Bool.true_or])]
    · rw [if_neg effect, Bool.eq_false_of_not_eq_true effect, Bool.false_or]
      by_cases changes : changesOnRead field = true
      · rw [if_pos changes, if_pos (by rw [changes, Bool.true_or])]
      · rw [if_neg changes, Bool.eq_false_of_not_eq_true changes, Bool.false_or]

/-- The bits of `stable_read_write_mask`. -/
theorem getLsbD_stableReadWriteMask (descriptor : RegisterDescriptor) (inWord : i < 64) :
    (stableReadWriteMask descriptor).getLsbD i = true ↔ i < descriptor.width ∧
      (descriptor.fields = [] ∨ (ReadStable descriptor ∧ WritesPlainly descriptor ∧
        ∃ field ∈ descriptor.fields,
          (field.access = .readWrite ∧ field.volatileValue = false) ∧ i ∈ field.region)) := by
  unfold stableReadWriteMask
  by_cases fieldless : descriptor.fields = []
  · rw [if_pos (by simp [fieldless]), fullMask, getLsbD_setBits _ _ inWord]
    simp [fieldless]
  · rw [if_neg (by simp [fieldless]), selectReadWrite_eq]
    have transparent : (descriptor.fields.any fun field => (registerWritable field.access &&
        (field.access ≠ .readWrite || field.writeEffect ≠ .none)) || changesOnRead field) = false ↔
          ReadStable descriptor ∧ WritesPlainly descriptor := by
      rw [List.any_eq_false, ReadStable, WritesPlainly, ← forall₂_and]
      refine forall₂_congr fun field _ => ?_
      cases registerWritable field.access <;> cases changesOnRead field <;> simp
    split
    next gives_up =>
      rw [getLsbD_zeroWord]
      have opaque_field : ¬ (ReadStable descriptor ∧ WritesPlainly descriptor) := fun both => by
        rw [transparent.mpr both] at gives_up
        exact Bool.false_ne_true gives_up
      simp only [Bool.false_eq_true, fieldless, false_or, false_iff, not_and]
      exact fun _ stable plain => absurd ⟨stable, plain⟩ opaque_field
    next goes_on =>
      obtain ⟨stable, plain⟩ := transparent.mp (Bool.eq_false_of_not_eq_true goes_on)
      rw [getLsbD_foldl_enableField (fun field => field.access = .readWrite && !field.volatileValue)
        _ inWord, getLsbD_zeroWord]
      simp [fieldless, stable, plain]

/-- The two patterns are complementary. -/
theorem getLsbD_alternatingPattern (descriptor : RegisterDescriptor) (inWord : i < 64)
    (inside : i < descriptor.width) : (alternatingPattern descriptor true).getLsbD i =
      !(alternatingPattern descriptor false).getLsbD i := by
  unfold alternatingPattern
  dsimp only
  rw [getLsbD_setBits _ _ inWord, getLsbD_setBits _ _ inWord, decide_eq_true inside]
  cases (decide (i % 2 ≠ 0) != decide ((descriptor.address >>> 2) &&& 1 ≠ 0)) <;> rfl

end Selected

/-! ### Visits -/

section Visits

/-- `AccessPath`. -/
inductive AccessPath where
  | frontdoor
  | backdoor
  deriving DecidableEq, Repr

/-- `RegisterSequenceResult`. -/
structure RegisterSequenceResult where
  registersVisited : ℕ := 0
  registersTested : ℕ := 0
  registersSkipped : ℕ := 0
  bitsTested : ℕ := 0
  frontdoorReads : ℕ := 0
  frontdoorWrites : ℕ := 0
  backdoorReads : ℕ := 0
  backdoorWrites : ℕ := 0
  deriving DecidableEq, Repr

variable {bus : BusTypes}

/-- What a sequence carries from register to register: the test, the number of checks so far, the
result, and the writes that the bus has seen. -/
structure Report (bus : BusTypes) where
  test : TestRunState
  checks : ℕ := 0
  result : RegisterSequenceResult := {}
  issued : List (WriteRequest bus) := []

/-- The visit of a register. -/
structure Visit (bus : BusTypes) where
  bench : Bench bus
  report : Report bus

/-- A computation of a visitor. -/
abbrev Visitor (bus : BusTypes) (α : Type) := StateT (Visit bus) (Except Error) α

namespace Visitor

/-- Count in the result. -/
def count (update : RegisterSequenceResult → RegisterSequenceResult) : Visitor bus PUnit :=
  modify fun v => { v with report := { v.report with result := update v.report.result } }

/-- What a frontdoor access does where its transfers have thrown. -/
def rethrow : Ending → Visitor bus PUnit
  | .threw error => throw error
  | .okay | .failed _ => pure ⟨⟩

/-- `co_await handle.read()`, counted: whether it is okay, and its data. -/
def read : Visitor bus (Bool × RegisterHandle.ReadData) := do
  let v ← get
  rethrow v.bench.read.1.ending
  modify fun v => { v with bench := v.bench.afterRead }
  count fun result => { result with frontdoorReads := result.frontdoorReads + 1 }
  pure (decide (v.bench.read.1.ending = .okay), v.bench.read.2)

/-- `co_await handle.write(value)`, counted: whether it is okay. -/
def write (value : Word) : Visitor bus Bool := do
  let v ← get
  rethrow (v.bench.write value).ending
  modify fun v => { v with
    bench := v.bench.afterWrite value
    report := { v.report with issued := v.report.issued ++ (v.bench.write value).requests } }
  count fun result => { result with frontdoorWrites := result.frontdoorWrites + 1 }
  pure (decide ((v.bench.write value).ending = .okay))

/-- `handle.peek()`, counted. -/
def peek : Visitor bus Word := do
  let v ← get
  let (value, bench) ← v.bench.peek
  modify fun v => { v with bench := bench }
  count fun result => { result with backdoorReads := result.backdoorReads + 1 }
  pure value

/-- `handle.poke(value)`, counted. -/
def poke (value : Word) : Visitor bus PUnit := do
  let v ← get
  let bench ← v.bench.poke value
  modify fun v => { v with bench := bench }
  count fun result => { result with backdoorWrites := result.backdoorWrites + 1 }

/-- A place in the source of the sequences. -/
def place (line : ℕ) : SourceLocation := { file := "cpptb_vc/register_sequences.hpp", line := line }

/-- `fail_missing_backdoor`, unless there is one. -/
def requireBackdoor (sequence : String) : Visitor bus PUnit := do
  let v ← get
  if v.bench.handle.hasBackdoor then pure ⟨⟩
  else throw (.logicError ("cpptb-vc: " ++ sequence ++ " requires a generated register backdoor: "
    ++ v.bench.handle.descriptor.path))

/-- `format_diagnostic` of an integer. -/
def formatWord (value : Word) : Option String := some (toString value.toNat)

/-- `format_diagnostic` of a `bool`. -/
def formatBool (value : Bool) : Option String := some (if value then "true" else "false")

variable (moment : ℕ → Moment)

/-- Record in the test. The check with number `n` of the sequence is made at `moment n`. -/
def check (record : TestRunState → Moment → TestRunState) : Visitor bus PUnit :=
  modify fun v => { v with
    report := { v.report with
      test := record v.report.test (moment v.report.checks)
      checks := v.report.checks + 1 } }

/-- `test_->expect(handle.path(), condition)`. -/
def expect (line : ℕ) (condition : Bool) : Visitor bus PUnit := do
  let v ← get
  check moment fun test m =>
    test.expect m .expectation v.bench.handle.descriptor.path condition (place line)

/-- `test_->expect_eq(handle.path(), actual, expected)`. -/
def expectEq {α : Type} [BEq α] (line : ℕ) (format : α → Option String) (actual expected : α) :
    Visitor bus PUnit := do
  let v ← get
  check moment fun test m =>
    test.expectEq m .expectation format v.bench.handle.descriptor.path actual expected (place line)

end Visitor

/-- `for_each_register_async`. -/
def forEachRegister (visitor : Visitor bus PUnit) :
    List (Bench bus) → Report bus → Except Error (List (Bench bus) × Report bus)
  | [], report => pure ([], report)
  | bench :: rest, report => do
    let (_, v) ← visitor.run ⟨bench, report⟩
    let (benches, report) ← forEachRegister visitor rest v.report
    pure (v.bench :: benches, report)

end Visits

/-! ### The sequences -/

section Sequences

open Visitor

variable {bus : BusTypes} (moment : ℕ → Moment)

/-- The comparison of `ResetCheckVisitor`. -/
def compareReset (path : AccessPath) (expected compareMask : Word) (width : ℕ) : Visitor bus PUnit :=
  match path with
  | .frontdoor => do
    let (okay, response) ← read
    expect moment 208 okay
    if okay then
      let validMask := intersect compareMask response.validMask width
      expectEq moment 212 formatWord (masked response.data validMask width)
        (masked expected validMask width)
  | .backdoor => do
    requireBackdoor "register reset check"
    let actual ← peek
    expectEq moment 226 formatWord (masked actual compareMask width) expected

/-- The bits that a reset check compares. -/
def resetCompareMask (descriptor : RegisterDescriptor) : Word :=
  intersect (valueFromWords descriptor.resetMaskWords descriptor.resetMask descriptor.width)
    (stableReadMask descriptor) descriptor.width

/-- The reset value of a descriptor. -/
def declaredReset (descriptor : RegisterDescriptor) : Word :=
  valueFromWords descriptor.resetValueWords descriptor.resetValue descriptor.width

/-- `ResetCheckVisitor`. -/
def resetCheckVisitor (path : AccessPath) : Visitor bus PUnit := do
  let v ← get
  let descriptor := v.bench.handle.descriptor
  let width := descriptor.width
  count fun result => { result with registersVisited := result.registersVisited + 1 }
  let compareMask := resetCompareMask descriptor
  if any compareMask width then
    count fun result => { result with registersTested := result.registersTested + 1 }
    compareReset moment path (masked (declaredReset descriptor) compareMask width) compareMask width
  else
    count fun result => { result with registersSkipped := result.registersSkipped + 1 }

/-- The comparison of what has been deposited with what is read. -/
def checkDeposit (descriptor : RegisterDescriptor) (readMask : Word) : Visitor bus PUnit := do
  let width := descriptor.width
  let deposited := alternatingPattern descriptor false
  poke deposited
  let (okay, response) ← read
  expect moment 278 okay
  if okay then
    let validMask := intersect readMask response.validMask width
    expectEq moment 282 formatWord (masked response.data validMask width)
      (masked deposited validMask width)

/-- The comparison of what has been written with what is peeked. -/
def checkWrite (descriptor : RegisterDescriptor) (writeMask : Word) : Visitor bus PUnit := do
  let width := descriptor.width
  let written := alternatingPattern descriptor true
  let okay ← write written
  expect moment 293 okay
  let actual ← peek
  expectEq moment 296 formatWord (masked actual writeMask width) (masked written writeMask width)

/-- `AccessCheckVisitor`. -/
def accessCheckVisitor : Visitor bus PUnit := do
  let v ← get
  let descriptor := v.bench.handle.descriptor
  let width := descriptor.width
  count fun result => { result with registersVisited := result.registersVisited + 1 }
  let readMask := stableReadMask descriptor
  let writeMask := stableReadWriteMask descriptor
  if any readMask width || any writeMask width then
    requireBackdoor "register access check"
    count fun result => { result with registersTested := result.registersTested + 1 }
    let original ← peek
    (if any readMask width then checkDeposit moment descriptor readMask else pure ⟨⟩ : Visitor bus PUnit)
    (if any writeMask width then checkWrite moment descriptor writeMask else pure ⟨⟩ : Visitor bus PUnit)
    poke original
  else
    count fun result => { result with registersSkipped := result.registersSkipped + 1 }

/-- The check of one bit that has been read back. -/
def judgeBit (candidate : Word) (index : ℕ) (actual : Word) : Visitor bus PUnit := do
  expectEq moment 382 formatBool (bit actual index) (bit candidate index)
  count fun result => { result with bitsTested := result.bitsTested + 1 }

/-- One bit of the frontdoor bash. -/
def bashFrontdoor (original : Word) (index : ℕ) : Visitor bus PUnit := do
  let candidate := setBit original index (!bit original index)
  let written ← write candidate
  expect moment 363 written
  if written then
    let (okay, response) ← read
    expect moment 367 okay
    if okay then judgeBit moment candidate index response.data

/-- One bit of the backdoor bash. -/
def bashBackdoor (original : Word) (index : ℕ) : Visitor bus PUnit := do
  let candidate := setBit original index (!bit original index)
  poke candidate
  let actual ← peek
  judgeBit moment candidate index actual

/-- The bits of a bash, and the restoring access. -/
def bashRegister (path : AccessPath) (width : ℕ) (testMask original : Word) : Visitor bus PUnit := do
  count fun result => { result with registersTested := result.registersTested + 1 }
  ((List.range width).filter fun index => bit testMask index).forM fun index =>
    match path with
    | .frontdoor => bashFrontdoor moment original index
    | .backdoor => bashBackdoor moment original index
  match path with
  | .frontdoor => do
    let restored ← write original
    expect moment 390 restored
  | .backdoor => poke original

/-- What `BitBashVisitor` does with a register that has bits to test. -/
def bashSelected (path : AccessPath) (width : ℕ) (testMask : Word) : Visitor bus PUnit :=
  match path with
  | .frontdoor => do
    let (okay, response) ← read
    expect moment 338 okay
    if okay then bashRegister moment path width testMask response.data
  | .backdoor => do
    requireBackdoor "register bit bash"
    let original ← peek
    bashRegister moment path width testMask original

/-- `BitBashVisitor`. -/
def bitBashVisitor (path : AccessPath) : Visitor bus PUnit := do
  let v ← get
  let descriptor := v.bench.handle.descriptor
  let width := descriptor.width
  count fun result => { result with registersVisited := result.registersVisited + 1 }
  let testMask := stableReadWriteMask descriptor
  if any testMask width then bashSelected moment path width testMask
  else count fun result => { result with registersSkipped := result.registersSkipped + 1 }

/-- `register_reset_check`. -/
def registerResetCheck (path : AccessPath) (model : List (Bench bus)) (report : Report bus) :
    Except Error (List (Bench bus) × Report bus) :=
  forEachRegister (resetCheckVisitor moment path) model { report with result := {} }

/-- `register_access_check`. -/
def registerAccessCheck (model : List (Bench bus)) (report : Report bus) :
    Except Error (List (Bench bus) × Report bus) :=
  forEachRegister (accessCheckVisitor moment) model { report with result := {} }

/-- `register_bit_bash`. -/
def registerBitBash (path : AccessPath) (model : List (Bench bus)) (report : Report bus) :
    Except Error (List (Bench bus) × Report bus) :=
  forEachRegister (bitBashVisitor moment path) model { report with result := {} }

end Sequences

end Cpptb.RegisterModel.SequenceDetail
