/-
`write_test_result_json`: the report of a test, and how it reads back.

The document is put together from fragments; `document` has them as the source does. `parse_document`
says which JSON value the document is, `document_reads_back` that this value gives back everything that
the document records.
-/

import Cpptb.Lib.Json
import Cpptb.Testing.RunState

namespace Cpptb.Reporting

open Json
open Testing (TestStatus FailureKind WaitGraphStatus)
open Coro (WaitReason)

/-! ### The result -/

section Results

/-- `test_status_name`. -/
def testStatusName : TestStatus → String
  | .notRun => "not_run"
  | .running => "running"
  | .passed => "passed"
  | .failed => "failed"
  | .error => "error"
  | .skipped => "skipped"
  | .expectedFailure => "expected_failure"
  | .unexpectedPass => "unexpected_pass"
  | .timedOut => "timed_out"

/-- `failure_kind_name`. -/
def failureKindName : FailureKind → String
  | .expectation => "expectation"
  | .requirement => "requirement"
  | .exception => "exception"
  | .selection => "selection"
  | .timeout => "timeout"
  | .unexpectedPass => "unexpected_pass"

/-- `wait_reason_name`. -/
def waitReasonName : WaitReason → String
  | .none => "none"
  | .task => "task"
  | .process => "process"
  | .join => "Join"
  | .risingEdge => "RisingEdge"
  | .fallingEdge => "FallingEdge"
  | .edge => "Edge"
  | .delay => "Delay"
  | .readWrite => "ReadWrite"
  | .readOnly => "ReadOnly"
  | .nextTimeStep => "NextTimeStep"
  | .event => "Event"
  | .queueGet => "Queue.get"
  | .queuePut => "Queue.put"
  | .semaphore => "Semaphore.acquire"
  | .lock => "Lock.acquire"
  | .timeout => "with_timeout"
  | .first => "First"

/-- `wait_graph_status_name`. -/
def waitGraphStatusName : WaitGraphStatus → String
  | .complete => "complete"
  | .runnable => "runnable"
  | .waitingForTime => "waiting_for_time"
  | .waitingForSimulator => "waiting_for_simulator"
  | .deadlocked => "deadlocked"

/-- `FailureRecord`. -/
structure FailureRecord where
  kind : FailureKind := .expectation
  label : Text := []
  actual : Text := []
  expected : Text := []
  sourceFile : Text := []
  process : Text := []
  processSourceFile : Text := []
  simulationTimeFs : UInt64 := 0
  processId : UInt64 := 0
  sourceLine : UInt32 := 0
  processSourceLine : UInt32 := 0
  hasComparison : Bool := false
  deriving DecidableEq, Repr

/-- `WarningRecord`. -/
structure WarningRecord where
  label : Text := []
  sourceFile : Text := []
  process : Text := []
  processSourceFile : Text := []
  simulationTimeFs : UInt64 := 0
  processId : UInt64 := 0
  sourceLine : UInt32 := 0
  processSourceLine : UInt32 := 0
  deriving DecidableEq, Repr

/-- `WaitGraphNode`. -/
structure WaitGraphNode where
  id : UInt64 := 0
  parentId : UInt64 := 0
  processId : UInt64 := 0
  parentProcessId : UInt64 := 0
  process : Text := []
  processSourceFile : Text := []
  processSourceLine : UInt32 := 0
  reason : WaitReason := .none
  resource : Text := []
  waitSourceFile : Text := []
  waitSourceLine : UInt32 := 0
  waitStartedFs : UInt64 := 0
  deadlineFs : Option UInt64 := none
  dependencies : List UInt64 := []
  ready : Bool := false
  running : Bool := false
  deriving DecidableEq, Repr

/-- `WaitGraphSnapshot`. -/
structure WaitGraphSnapshot where
  status : WaitGraphStatus := .complete
  simulationTimeFs : UInt64 := 0
  nodes : List WaitGraphNode := []
  deriving DecidableEq, Repr

/-- `TestResult`, with the byte strings of its fields. -/
structure TestResult where
  checks : UInt64 := 0
  failures : UInt32 := 0
  warnings : UInt32 := 0
  status : TestStatus := .notRun
  testName : Text := []
  caseName : Text := []
  statusReason : Text := []
  tags : List Text := []
  failureRecords : List FailureRecord := []
  warningRecords : List WarningRecord := []
  waitGraph : Option WaitGraphSnapshot := none
  randomSeed : Option UInt64 := none
  randomAlgorithm : Text := []
  constraintBackend : Text := []
  constraintBackendVersion : Text := []
  randomSamplingSolves : UInt64 := 0
  randomSolverSolves : UInt64 := 0
  simulationTimeFs : UInt64 := 0
  wallTimeNs : UInt64 := 0
  finished : Bool := false
  deriving DecidableEq, Repr

end Results

/-! ### The writer -/

section Writer

/-- `%04x` of a byte. -/
def hexCode (character : UInt8) : Text :=
  ((Nat.toDigits 16 character.toNat).map fun digit => UInt8.ofNat digit.toNat).leftpad 4 0x30

/-- A character of `write_json_string`. -/
def escaped (character : UInt8) : Text :=
  if character = 0x22 then ascii "\\\""
  else if character = 0x5c then ascii "\\\\"
  else if character = 0x08 then ascii "\\b"
  else if character = 0x0c then ascii "\\f"
  else if character = 0x0a then ascii "\\n"
  else if character = 0x0d then ascii "\\r"
  else if character = 0x09 then ascii "\\t"
  else if character < 0x20 then ascii "\\u" ++ hexCode character
  else [character]

/-- `write_json_string`. -/
def writeJsonString (value : Text) : Text := ascii "\"" ++ value.flatMap escaped ++ ascii "\""

/-- `write_json_field`. -/
def writeJsonField (name : String) (value : Text) : Text :=
  writeJsonString (ascii name) ++ ascii ":" ++ writeJsonString value

/-- A loop over a vector. -/
def loop {α : Type} (values : List α) (body : ℕ → α → Text) : Text :=
  values.zipIdx.flatMap fun turn => body turn.2 turn.1

/-- `write_json_string_array`. -/
def writeJsonStringArray (values : List Text) : Text :=
  ascii "[" ++ loop values (fun index value =>
    (if index ≠ 0 then ascii "," else []) ++ writeJsonString value) ++ ascii "]"

/-- `%llu` and `%u`. -/
def print64 (value : UInt64) : Text := decimal value.toNat
def print32 (value : UInt32) : Text := decimal value.toNat

def printBool (value : Bool) : Text := ascii (if value then "true" else "false")

/-- A turn of the loop over the failures. -/
def writeFailure (index : ℕ) (failure : FailureRecord) : Text :=
  ascii (if index = 0 then "\n    \x7b" else ",\n    \x7b") ++
  writeJsonField "kind" (ascii (failureKindName failure.kind)) ++ ascii "," ++
  writeJsonField "label" failure.label ++ ascii "," ++
  writeJsonField "actual" failure.actual ++ ascii "," ++
  writeJsonField "expected" failure.expected ++ ascii "," ++
  writeJsonField "source_file" failure.sourceFile ++ ascii "," ++
  writeJsonField "process" failure.process ++ ascii "," ++
  writeJsonField "process_source_file" failure.processSourceFile ++
  ascii ",\"source_line\":" ++ print32 failure.sourceLine ++
  ascii ",\"simulation_time_fs\":" ++ print64 failure.simulationTimeFs ++
  ascii ",\"process_id\":" ++ print64 failure.processId ++
  ascii ",\"process_source_line\":" ++ print32 failure.processSourceLine ++
  ascii ",\"has_comparison\":" ++ printBool failure.hasComparison ++ ascii "\x7d"

/-- A turn of the loop over the warnings. -/
def writeWarning (index : ℕ) (warning : WarningRecord) : Text :=
  ascii (if index = 0 then "\n    \x7b" else ",\n    \x7b") ++
  writeJsonField "label" warning.label ++ ascii "," ++
  writeJsonField "source_file" warning.sourceFile ++ ascii "," ++
  writeJsonField "process" warning.process ++ ascii "," ++
  writeJsonField "process_source_file" warning.processSourceFile ++
  ascii ",\"source_line\":" ++ print32 warning.sourceLine ++
  ascii ",\"simulation_time_fs\":" ++ print64 warning.simulationTimeFs ++
  ascii ",\"process_id\":" ++ print64 warning.processId ++
  ascii ",\"process_source_line\":" ++ print32 warning.processSourceLine ++ ascii "\x7d"

/-- A number, or `null`. -/
def writeOptional : Option UInt64 → Text
  | some value => print64 value
  | none => ascii "null"

/-- A turn of the loop over the nodes of the wait graph. -/
def writeNode (index : ℕ) (node : WaitGraphNode) : Text :=
  ascii (if index = 0 then "\x7b" else ",\x7b") ++
  ascii "\"id\":" ++ print64 node.id ++ ascii ",\"parent_id\":" ++ print64 node.parentId ++
  ascii ",\"process_id\":" ++ print64 node.processId ++
  ascii ",\"parent_process_id\":" ++ print64 node.parentProcessId ++ ascii "," ++
  writeJsonField "process" node.process ++ ascii "," ++
  writeJsonField "process_source_file" node.processSourceFile ++
  ascii ",\"process_source_line\":" ++ print32 node.processSourceLine ++ ascii "," ++
  writeJsonField "reason" (ascii (waitReasonName node.reason)) ++ ascii "," ++
  writeJsonField "resource" node.resource ++ ascii "," ++
  writeJsonField "wait_source_file" node.waitSourceFile ++
  ascii ",\"wait_source_line\":" ++ print32 node.waitSourceLine ++
  ascii ",\"wait_started_fs\":" ++ print64 node.waitStartedFs ++ ascii ",\"deadline_fs\":" ++
  writeOptional node.deadlineFs ++ ascii ",\"dependencies\":[" ++
  loop node.dependencies (fun index dependency =>
    ascii (if index = 0 then "" else ",") ++ print64 dependency) ++
  ascii "],\"ready\":" ++ printBool node.ready ++
  ascii ",\"running\":" ++ printBool node.running ++ ascii "\x7d"

/-- The wait graph, or `null`. -/
def writeWaitGraph : Option WaitGraphSnapshot → Text
  | none => ascii "null"
  | some graph =>
    ascii "\x7b" ++ writeJsonField "status" (ascii (waitGraphStatusName graph.status)) ++
    ascii ",\"simulation_time_fs\":" ++ print64 graph.simulationTimeFs ++ ascii ",\"nodes\":[" ++
    loop graph.nodes writeNode ++ ascii "]\x7d"

/-- What `write_test_result_json` writes to its stream. -/
def document (result : TestResult) : Text :=
  ascii "\x7b\n  \"schema_version\":5,\n  " ++
  writeJsonField "test_name" result.testName ++ ascii ",\n  " ++
  writeJsonField "case_name" result.caseName ++ ascii ",\n  " ++
  writeJsonField "status" (ascii (testStatusName result.status)) ++ ascii ",\n  " ++
  writeJsonField "status_reason" result.statusReason ++ ascii ",\n  \"tags\":" ++
  writeJsonStringArray result.tags ++ ascii ",\n  \"random_seed\":" ++
  writeOptional result.randomSeed ++ ascii ",\n  " ++
  writeJsonField "random_algorithm" result.randomAlgorithm ++ ascii ",\n  " ++
  writeJsonField "constraint_backend" result.constraintBackend ++ ascii ",\n  " ++
  writeJsonField "constraint_backend_version" result.constraintBackendVersion ++
  ascii ",\n  \"random_sampling_solves\":" ++ print64 result.randomSamplingSolves ++
  ascii ",\n  \"random_solver_solves\":" ++ print64 result.randomSolverSolves ++
  ascii ",\n  \"checks\":" ++ print64 result.checks ++
  ascii ",\n  \"failures\":" ++ print32 result.failures ++
  ascii ",\n  \"warnings\":" ++ print32 result.warnings ++
  ascii ",\n  \"simulation_time_fs\":" ++ print64 result.simulationTimeFs ++
  ascii ",\n  \"wall_time_ns\":" ++ print64 result.wallTimeNs ++
  ascii ",\n  \"failure_records\":[" ++ loop result.failureRecords writeFailure ++
  (if result.failureRecords.isEmpty then [] else ascii "\n") ++
  ascii "  ],\n  \"warning_records\":[" ++ loop result.warningRecords writeWarning ++
  (if result.warningRecords.isEmpty then [] else ascii "\n") ++
  ascii "  ],\n  \"wait_graph\":" ++ writeWaitGraph result.waitGraph ++ ascii "\n\x7d\n"

/-- `write_test_result_json`: its answer, and the file that it writes, if any. `opens` and `closes` say
whether `fopen` and `fclose` succeed. -/
def writeTestResultJson (path : Option Text) (opens closes : Bool) (result : TestResult) :
    Bool × Option Text :=
  match path with
  | none | some [] => (true, none)
  | some (_ :: _) => if opens then (closes, some (document result)) else (false, none)

end Writer

/-! ### Literals -/

section Literals

/-- What a character becomes is the inside of its literal. -/
theorem body_escaped (character : UInt8) {bytes text : Text} (rest : Body bytes text) :
    Body (character :: bytes) (escaped character ++ text) := by
  unfold escaped
  split
  next same => exact same ▸ .escape (by decide) (by decide) rest
  split
  next same => exact same ▸ .escape (by decide) (by decide) rest
  split
  next same => exact same ▸ .escape (by decide) (by decide) rest
  split
  next same => exact same ▸ .escape (by decide) (by decide) rest
  split
  next same => exact same ▸ .escape (by decide) (by decide) rest
  split
  next same => exact same ▸ .escape (by decide) (by decide) rest
  split
  next same => exact same ▸ .escape (by decide) (by decide) rest
  split
  next control =>
    let third (n : ℕ) : UInt8 := (hexCode (UInt8.ofNat n)).getD 2 0
    let fourth (n : ℕ) : UInt8 := (hexCode (UInt8.ofNat n)).getD 3 0
    have all : ∀ n < 32, hexCode (UInt8.ofNat n) = [0x30, 0x30, third n, fourth n] ∧
        codeUnit 0x30 0x30 (third n) (fourth n) = some (UInt8.ofNat n) := by decide +kernel
    obtain ⟨code, known⟩ := all character.toNat (UInt8.lt_iff_toNat_lt.mp control)
    rw [UInt8.ofNat_toNat] at code known
    rw [code]
    exact .code known rest
  next noQuote noBackslash _ _ _ _ _ printable =>
    exact .raw (UInt8.not_lt.mp printable) noQuote noBackslash rest

/-- **Every byte string becomes a literal that reads back.** -/
theorem body_flatMap (value : Text) : Body value (value.flatMap escaped) := by
  induction value with
  | nil => exact .nil
  | cons character rest ih => exact body_escaped character ih

theorem reads_writeJsonString (value : Text) : Reads (.string value) (writeJsonString value) := by
  have same : writeJsonString value = quote :: (value.flatMap escaped ++ [quote]) := rfl
  exact same ▸ reads_string (body_flatMap value)

/-- A plain name is written as it is. -/
theorem writeJsonString_plain {name : String} (isPlain : plain name = true) :
    writeJsonString (ascii name) = ascii ("\"" ++ name ++ "\"") := by
  have unchanged : (ascii name).flatMap escaped = ascii name := by
    unfold plain at isPlain
    unfold ascii
    generalize name.toList = characters at isPlain ⊢
    induction characters with
    | nil => rfl
    | cons character rest ih =>
      rw [List.all_cons, Bool.and_eq_true] at isPlain
      obtain ⟨here, later⟩ := isPlain
      rw [List.map_cons, List.flatMap_cons, ih later]
      have all : ∀ n < 128, 0x20 ≤ n → n ≠ 0x22 → n ≠ 0x5c →
          escaped (UInt8.ofNat n) = [UInt8.ofNat n] := by decide +kernel
      simp only [Bool.and_eq_true, decide_eq_true_eq, bne_iff_ne] at here
      rw [all _ here.1.1.2 here.1.1.1 here.1.2 here.2]
      rfl
  rw [writeJsonString, unchanged, ascii_append, ascii_append]

end Literals

/-! ### Records -/

section Records

theorem loop_join {α : Type} {body : ℕ → α → Text} {text : α → Text}
    (turn : ∀ index value, body index value = (if index = 0 then [] else ascii ",") ++ text value)
    (values : List α) : loop values body = (ascii ",").intercalate (values.map text) := by
  have rest : ∀ (values : List α) start, 0 < start →
      (values.zipIdx start).flatMap (fun turn => body turn.2 turn.1) =
        values.flatMap fun value => ascii "," ++ text value := by
    intro values
    induction values with
    | nil => exact fun _ _ => rfl
    | cons value values ih =>
      intro start positive
      rw [List.zipIdx_cons, List.flatMap_cons, List.flatMap_cons, ih (start + 1) (by omega), turn,
        if_neg (by omega)]
  cases values with
  | nil => rfl
  | cons value values =>
    rw [loop, List.zipIdx_cons, List.flatMap_cons, rest values 1 (by decide), turn, if_pos rfl,
      List.nil_append, List.map_cons, intercalate_flatMap, List.flatMap_map]

/-- `failure_kind_name` backwards. -/
def failureKind : Codec FailureKind :=
  .named [.expectation, .requirement, .exception, .selection, .timeout, .unexpectedPass]
    failureKindName (by rintro ⟨⟩ <;> decide) (by decide +kernel)

theorem writeJsonField_plain {name : String} (isPlain : plain name = true) (value : Text) :
    writeJsonField name value = memberText "" name (writeJsonString value) := by
  rw [writeJsonField, writeJsonString_plain isPlain, memberText, ← ascii_append]
  simp only [String.append_assoc, String.empty_append, String.reduceAppend]

/-- The members of a failure record. -/
def failureMembers (failure : FailureRecord) : List Member :=
  [⟨"", "kind", failureKind.json failure.kind,
      writeJsonString (ascii (failureKindName failure.kind))⟩,
    ⟨"", "label", Codec.string.json failure.label, writeJsonString failure.label⟩,
    ⟨"", "actual", Codec.string.json failure.actual, writeJsonString failure.actual⟩,
    ⟨"", "expected", Codec.string.json failure.expected, writeJsonString failure.expected⟩,
    ⟨"", "source_file", Codec.string.json failure.sourceFile, writeJsonString failure.sourceFile⟩,
    ⟨"", "process", Codec.string.json failure.process, writeJsonString failure.process⟩,
    ⟨"", "process_source_file", Codec.string.json failure.processSourceFile,
      writeJsonString failure.processSourceFile⟩,
    ⟨"", "source_line", Codec.half.json failure.sourceLine, print32 failure.sourceLine⟩,
    ⟨"", "simulation_time_fs", Codec.word.json failure.simulationTimeFs,
      print64 failure.simulationTimeFs⟩,
    ⟨"", "process_id", Codec.word.json failure.processId, print64 failure.processId⟩,
    ⟨"", "process_source_line", Codec.half.json failure.processSourceLine,
      print32 failure.processSourceLine⟩,
    ⟨"", "has_comparison", Codec.boolean.json failure.hasComparison,
      printBool failure.hasComparison⟩]

/-- Their white space and names. -/
def failureLayout : List (String × String) :=
  ["kind", "label", "actual", "expected", "source_file", "process", "process_source_file",
    "source_line", "simulation_time_fs", "process_id", "process_source_line", "has_comparison"].map
      fun name => ("", name)

theorem reads_writeFailure (failure : FailureRecord) :
    Reads (objectValue (failureMembers failure)) (writeFailure 0 failure) := by
  have text : writeFailure 0 failure = ascii "\n    " ++ objectText
      ((failureMembers failure).map fun m => memberText m.space m.name m.text) "" := by
    have names : ∀ name ∈ ["kind", "label", "actual", "expected", "source_file", "process",
        "process_source_file"], plain name = true := by decide +kernel
    simp only [List.forall_mem_cons] at names
    obtain ⟨kind, label, actual, expected, sourceFile, process, processSourceFile, -⟩ := names
    unfold writeFailure
    rw [if_pos (Eq.refl 0)]
    simp only [writeJsonField_plain kind, writeJsonField_plain label, writeJsonField_plain actual,
      writeJsonField_plain expected, writeJsonField_plain sourceFile, writeJsonField_plain process,
      writeJsonField_plain processSourceFile]
    simp only [failureMembers, List.map_cons, List.map_nil, objectText, memberText, intercalate_one,
      intercalate_cons, List.append_assoc]
    simp only [ascii_merge, String.reduceAppend]
  rw [text]
  refine reads_blank (by decide +kernel) (reads_objectValue failureLayout rfl (by decide +kernel)
    ?_ (by decide +kernel))
  simp only [failureMembers, List.forall_mem_cons]
  exact ⟨reads_writeJsonString _, reads_writeJsonString _, reads_writeJsonString _,
    reads_writeJsonString _, reads_writeJsonString _, reads_writeJsonString _,
    reads_writeJsonString _, reads_decimal _, reads_decimal _, reads_decimal _, reads_decimal _,
    reads_boolean _, List.forall_mem_nil _⟩

/-- A failure record, read by the names of its members. -/
def failureRecord : Codec FailureRecord where
  json failure := objectValue (failureMembers failure)
  read v := do
    let kind ← (v.get "kind").bind failureKind.read
    let label ← (v.get "label").bind Codec.string.read
    let actual ← (v.get "actual").bind Codec.string.read
    let expected ← (v.get "expected").bind Codec.string.read
    let sourceFile ← (v.get "source_file").bind Codec.string.read
    let process ← (v.get "process").bind Codec.string.read
    let processSourceFile ← (v.get "process_source_file").bind Codec.string.read
    let sourceLine ← (v.get "source_line").bind Codec.half.read
    let simulationTimeFs ← (v.get "simulation_time_fs").bind Codec.word.read
    let processId ← (v.get "process_id").bind Codec.word.read
    let processSourceLine ← (v.get "process_source_line").bind Codec.half.read
    let hasComparison ← (v.get "has_comparison").bind Codec.boolean.read
    some { kind, label, actual, expected, sourceFile, process, processSourceFile, simulationTimeFs,
           processId, sourceLine, processSourceLine, hasComparison }
  read_json failure := by
    have distinct : ((failureMembers failure).map fun m => ascii m.name).Nodup := by
      change (failureLayout.map fun place => ascii place.2).Nodup
      decide +kernel
    have kind : _ = some failure.kind := failureKind.read_member distinct 0 rfl
    have label : _ = some failure.label := Codec.string.read_member distinct 1 rfl
    have actual : _ = some failure.actual := Codec.string.read_member distinct 2 rfl
    have expected : _ = some failure.expected := Codec.string.read_member distinct 3 rfl
    have sourceFile : _ = some failure.sourceFile := Codec.string.read_member distinct 4 rfl
    have process : _ = some failure.process := Codec.string.read_member distinct 5 rfl
    have processSourceFile : _ = some failure.processSourceFile :=
      Codec.string.read_member distinct 6 rfl
    have sourceLine : _ = some failure.sourceLine := Codec.half.read_member distinct 7 rfl
    have time : _ = some failure.simulationTimeFs := Codec.word.read_member distinct 8 rfl
    have processId : _ = some failure.processId := Codec.word.read_member distinct 9 rfl
    have processSourceLine : _ = some failure.processSourceLine :=
      Codec.half.read_member distinct 10 rfl
    have hasComparison : _ = some failure.hasComparison :=
      Codec.boolean.read_member distinct 11 rfl
    simp only [kind, label, actual, expected, sourceFile, process, processSourceFile, sourceLine,
      time, processId, processSourceLine, hasComparison, Option.bind_eq_bind, Option.bind_some]

/-- The members of a warning record. -/
def warningMembers (warning : WarningRecord) : List Member :=
  [⟨"", "label", Codec.string.json warning.label, writeJsonString warning.label⟩,
    ⟨"", "source_file", Codec.string.json warning.sourceFile, writeJsonString warning.sourceFile⟩,
    ⟨"", "process", Codec.string.json warning.process, writeJsonString warning.process⟩,
    ⟨"", "process_source_file", Codec.string.json warning.processSourceFile,
      writeJsonString warning.processSourceFile⟩,
    ⟨"", "source_line", Codec.half.json warning.sourceLine, print32 warning.sourceLine⟩,
    ⟨"", "simulation_time_fs", Codec.word.json warning.simulationTimeFs,
      print64 warning.simulationTimeFs⟩,
    ⟨"", "process_id", Codec.word.json warning.processId, print64 warning.processId⟩,
    ⟨"", "process_source_line", Codec.half.json warning.processSourceLine,
      print32 warning.processSourceLine⟩]

def warningLayout : List (String × String) :=
  ["label", "source_file", "process", "process_source_file", "source_line", "simulation_time_fs",
    "process_id", "process_source_line"].map fun name => ("", name)

theorem reads_writeWarning (warning : WarningRecord) :
    Reads (objectValue (warningMembers warning)) (writeWarning 0 warning) := by
  have text : writeWarning 0 warning = ascii "\n    " ++ objectText
      ((warningMembers warning).map fun m => memberText m.space m.name m.text) "" := by
    have names : ∀ name ∈ ["label", "source_file", "process", "process_source_file"],
        plain name = true := by decide +kernel
    simp only [List.forall_mem_cons] at names
    obtain ⟨label, sourceFile, process, processSourceFile, -⟩ := names
    unfold writeWarning
    rw [if_pos (Eq.refl 0)]
    simp only [writeJsonField_plain label, writeJsonField_plain sourceFile,
      writeJsonField_plain process, writeJsonField_plain processSourceFile]
    simp only [warningMembers, List.map_cons, List.map_nil, objectText, memberText, intercalate_one,
      intercalate_cons, List.append_assoc]
    simp only [ascii_merge, String.reduceAppend]
  rw [text]
  refine reads_blank (by decide +kernel) (reads_objectValue warningLayout rfl (by decide +kernel)
    ?_ (by decide +kernel))
  simp only [warningMembers, List.forall_mem_cons]
  exact ⟨reads_writeJsonString _, reads_writeJsonString _, reads_writeJsonString _,
    reads_writeJsonString _, reads_decimal _, reads_decimal _, reads_decimal _, reads_decimal _,
    List.forall_mem_nil _⟩

/-- A warning record, read by the names of its members. -/
def warningRecord : Codec WarningRecord where
  json warning := objectValue (warningMembers warning)
  read v := do
    let label ← (v.get "label").bind Codec.string.read
    let sourceFile ← (v.get "source_file").bind Codec.string.read
    let process ← (v.get "process").bind Codec.string.read
    let processSourceFile ← (v.get "process_source_file").bind Codec.string.read
    let sourceLine ← (v.get "source_line").bind Codec.half.read
    let simulationTimeFs ← (v.get "simulation_time_fs").bind Codec.word.read
    let processId ← (v.get "process_id").bind Codec.word.read
    let processSourceLine ← (v.get "process_source_line").bind Codec.half.read
    some { label, sourceFile, process, processSourceFile, simulationTimeFs, processId, sourceLine,
           processSourceLine }
  read_json warning := by
    have distinct : ((warningMembers warning).map fun m => ascii m.name).Nodup := by
      change (warningLayout.map fun place => ascii place.2).Nodup
      decide +kernel
    have label : _ = some warning.label := Codec.string.read_member distinct 0 rfl
    have sourceFile : _ = some warning.sourceFile := Codec.string.read_member distinct 1 rfl
    have process : _ = some warning.process := Codec.string.read_member distinct 2 rfl
    have processSourceFile : _ = some warning.processSourceFile :=
      Codec.string.read_member distinct 3 rfl
    have sourceLine : _ = some warning.sourceLine := Codec.half.read_member distinct 4 rfl
    have time : _ = some warning.simulationTimeFs := Codec.word.read_member distinct 5 rfl
    have processId : _ = some warning.processId := Codec.word.read_member distinct 6 rfl
    have processSourceLine : _ = some warning.processSourceLine :=
      Codec.half.read_member distinct 7 rfl
    simp only [label, sourceFile, process, processSourceFile, sourceLine, time, processId,
      processSourceLine, Option.bind_eq_bind, Option.bind_some]

end Records

/-! ### The wait graph -/

section WaitGraphs

/-- `wait_reason_name` backwards. -/
def waitReason : Codec WaitReason :=
  .named [.none, .task, .process, .join, .risingEdge, .fallingEdge, .edge, .delay, .readWrite,
      .readOnly, .nextTimeStep, .event, .queueGet, .queuePut, .semaphore, .lock, .timeout, .first]
    waitReasonName (by rintro ⟨⟩ <;> decide) (by decide +kernel)

/-- `wait_graph_status_name` backwards. -/
def waitGraphStatus : Codec WaitGraphStatus :=
  .named [.complete, .runnable, .waitingForTime, .waitingForSimulator, .deadlocked]
    waitGraphStatusName (by rintro ⟨⟩ <;> decide) (by decide +kernel)

/-- A number, or `null`. -/
def optionalNumber : Codec (Option UInt64) := .option .word fun _ => nofun

theorem reads_writeOptional (value : Option UInt64) :
    Reads (optionalNumber.json value) (writeOptional value) := by
  cases value with
  | none => exact reads_null
  | some value => exact reads_decimal _

/-- A loop that writes the elements of an array. -/
theorem reads_loop {α : Type} (codec : Codec α) {body : ℕ → α → Text} {text : α → Text}
    (turn : ∀ index value, body index value = (if index = 0 then [] else ascii ",") ++ text value)
    (each : ∀ value, Reads (codec.json value) (text value)) (values : List α) (space : String)
    (blank : Blank (ascii space)) :
    Reads ((Codec.list codec).json values)
      (ascii "[" ++ (loop values body ++ (ascii space ++ ascii "]"))) := by
  have same : ascii "[" ++ (loop values body ++ (ascii space ++ ascii "]")) =
      arrayText (values.map text) space := by
    rw [loop_join turn, arrayText, ascii_append, List.append_assoc]
  rw [same]
  refine reads_arrayText space ?_ blank
  exact List.forall₂_map_left_iff.mpr (List.forall₂_map_right_iff.mpr
    (List.forall₂_same.mpr fun value _ => each value))

/-- A fragment that begins with a comma, but in the first turn. -/
theorem first_turn (index : ℕ) (fragment : String) (rest : Text) :
    ascii (if index = 0 then fragment else "," ++ fragment) ++ rest =
      (if index = 0 then [] else ascii ",") ++ (ascii fragment ++ rest) := by
  by_cases first : index = 0
  · rw [if_pos first, if_pos first]
    rfl
  · rw [if_neg first, if_neg first, ascii_append, List.append_assoc]

/-- The dependencies of a node. -/
def dependenciesText (dependencies : List UInt64) : Text :=
  ascii "[" ++ (loop dependencies (fun index dependency =>
    ascii (if index = 0 then "" else ",") ++ print64 dependency) ++ ascii "]")

theorem reads_dependencies (dependencies : List UInt64) :
    Reads ((Codec.list .word).json dependencies) (dependenciesText dependencies) :=
  reads_loop .word (fun index dependency => first_turn index "" (print64 dependency))
    (fun _ => reads_decimal _) dependencies "" (by decide +kernel)

/-- The members of a node. -/
def nodeMembers (node : WaitGraphNode) : List Member :=
  [⟨"", "id", Codec.word.json node.id, print64 node.id⟩,
    ⟨"", "parent_id", Codec.word.json node.parentId, print64 node.parentId⟩,
    ⟨"", "process_id", Codec.word.json node.processId, print64 node.processId⟩,
    ⟨"", "parent_process_id", Codec.word.json node.parentProcessId, print64 node.parentProcessId⟩,
    ⟨"", "process", Codec.string.json node.process, writeJsonString node.process⟩,
    ⟨"", "process_source_file", Codec.string.json node.processSourceFile,
      writeJsonString node.processSourceFile⟩,
    ⟨"", "process_source_line", Codec.half.json node.processSourceLine,
      print32 node.processSourceLine⟩,
    ⟨"", "reason", waitReason.json node.reason,
      writeJsonString (ascii (waitReasonName node.reason))⟩,
    ⟨"", "resource", Codec.string.json node.resource, writeJsonString node.resource⟩,
    ⟨"", "wait_source_file", Codec.string.json node.waitSourceFile,
      writeJsonString node.waitSourceFile⟩,
    ⟨"", "wait_source_line", Codec.half.json node.waitSourceLine, print32 node.waitSourceLine⟩,
    ⟨"", "wait_started_fs", Codec.word.json node.waitStartedFs, print64 node.waitStartedFs⟩,
    ⟨"", "deadline_fs", optionalNumber.json node.deadlineFs, writeOptional node.deadlineFs⟩,
    ⟨"", "dependencies", (Codec.list .word).json node.dependencies,
      dependenciesText node.dependencies⟩,
    ⟨"", "ready", Codec.boolean.json node.ready, printBool node.ready⟩,
    ⟨"", "running", Codec.boolean.json node.running, printBool node.running⟩]

def nodeLayout : List (String × String) :=
  ["id", "parent_id", "process_id", "parent_process_id", "process", "process_source_file",
    "process_source_line", "reason", "resource", "wait_source_file", "wait_source_line",
    "wait_started_fs", "deadline_fs", "dependencies", "ready", "running"].map fun name => ("", name)

theorem reads_writeNode (node : WaitGraphNode) :
    Reads (objectValue (nodeMembers node)) (writeNode 0 node) := by
  have text : writeNode 0 node = objectText
      ((nodeMembers node).map fun m => memberText m.space m.name m.text) "" := by
    have names : ∀ name ∈ ["process", "process_source_file", "reason", "resource",
        "wait_source_file"], plain name = true := by decide +kernel
    simp only [List.forall_mem_cons] at names
    obtain ⟨process, processSourceFile, reason, resource, waitSourceFile, -⟩ := names
    unfold writeNode
    rw [if_pos (Eq.refl 0)]
    simp only [writeJsonField_plain process, writeJsonField_plain processSourceFile,
      writeJsonField_plain reason, writeJsonField_plain resource,
      writeJsonField_plain waitSourceFile]
    simp only [nodeMembers, dependenciesText, List.map_cons, List.map_nil, objectText, memberText,
      intercalate_one, intercalate_cons, List.append_assoc]
    simp only [ascii_merge, String.reduceAppend]
  rw [text]
  refine reads_objectValue nodeLayout rfl (by decide +kernel) ?_ (by decide +kernel)
  simp only [nodeMembers, List.forall_mem_cons]
  exact ⟨reads_decimal _, reads_decimal _, reads_decimal _, reads_decimal _,
    reads_writeJsonString _, reads_writeJsonString _, reads_decimal _, reads_writeJsonString _,
    reads_writeJsonString _, reads_writeJsonString _, reads_decimal _, reads_decimal _,
    reads_writeOptional _, reads_dependencies _, reads_boolean _, reads_boolean _,
    List.forall_mem_nil _⟩

/-- A node of the wait graph, read by the names of its members. -/
def waitGraphNode : Codec WaitGraphNode where
  json node := objectValue (nodeMembers node)
  read v := do
    let id ← (v.get "id").bind Codec.word.read
    let parentId ← (v.get "parent_id").bind Codec.word.read
    let processId ← (v.get "process_id").bind Codec.word.read
    let parentProcessId ← (v.get "parent_process_id").bind Codec.word.read
    let process ← (v.get "process").bind Codec.string.read
    let processSourceFile ← (v.get "process_source_file").bind Codec.string.read
    let processSourceLine ← (v.get "process_source_line").bind Codec.half.read
    let reason ← (v.get "reason").bind waitReason.read
    let resource ← (v.get "resource").bind Codec.string.read
    let waitSourceFile ← (v.get "wait_source_file").bind Codec.string.read
    let waitSourceLine ← (v.get "wait_source_line").bind Codec.half.read
    let waitStartedFs ← (v.get "wait_started_fs").bind Codec.word.read
    let deadlineFs ← (v.get "deadline_fs").bind optionalNumber.read
    let dependencies ← (v.get "dependencies").bind (Codec.list .word).read
    let ready ← (v.get "ready").bind Codec.boolean.read
    let running ← (v.get "running").bind Codec.boolean.read
    some { id, parentId, processId, parentProcessId, process, processSourceFile, processSourceLine,
           reason, resource, waitSourceFile, waitSourceLine, waitStartedFs, deadlineFs,
           dependencies, ready, running }
  read_json node := by
    have distinct : ((nodeMembers node).map fun m => ascii m.name).Nodup := by
      change (nodeLayout.map fun place => ascii place.2).Nodup
      decide +kernel
    have id : _ = some node.id := Codec.word.read_member distinct 0 rfl
    have parentId : _ = some node.parentId := Codec.word.read_member distinct 1 rfl
    have processId : _ = some node.processId := Codec.word.read_member distinct 2 rfl
    have parentProcessId : _ = some node.parentProcessId := Codec.word.read_member distinct 3 rfl
    have process : _ = some node.process := Codec.string.read_member distinct 4 rfl
    have processSourceFile : _ = some node.processSourceFile :=
      Codec.string.read_member distinct 5 rfl
    have processSourceLine : _ = some node.processSourceLine :=
      Codec.half.read_member distinct 6 rfl
    have reason : _ = some node.reason := waitReason.read_member distinct 7 rfl
    have resource : _ = some node.resource := Codec.string.read_member distinct 8 rfl
    have waitSourceFile : _ = some node.waitSourceFile := Codec.string.read_member distinct 9 rfl
    have waitSourceLine : _ = some node.waitSourceLine := Codec.half.read_member distinct 10 rfl
    have waitStartedFs : _ = some node.waitStartedFs := Codec.word.read_member distinct 11 rfl
    have deadlineFs : _ = some node.deadlineFs := optionalNumber.read_member distinct 12 rfl
    have dependencies : _ = some node.dependencies :=
      (Codec.list .word).read_member distinct 13 rfl
    have ready : _ = some node.ready := Codec.boolean.read_member distinct 14 rfl
    have running : _ = some node.running := Codec.boolean.read_member distinct 15 rfl
    simp only [id, parentId, processId, parentProcessId, process, processSourceFile,
      processSourceLine, reason, resource, waitSourceFile, waitSourceLine, waitStartedFs,
      deadlineFs, dependencies, ready, running, Option.bind_eq_bind, Option.bind_some]

/-- The nodes of a wait graph. -/
def nodesText (nodes : List WaitGraphNode) : Text :=
  ascii "[" ++ (loop nodes writeNode ++ ascii "]")

theorem reads_nodes (nodes : List WaitGraphNode) :
    Reads ((Codec.list waitGraphNode).json nodes) (nodesText nodes) := by
  have turn : ∀ index node, writeNode index node =
      (if index = 0 then [] else ascii ",") ++ writeNode 0 node := by
    intro index node
    unfold writeNode
    simp only [List.append_assoc]
    exact first_turn index "\x7b" _
  exact reads_loop waitGraphNode turn reads_writeNode nodes "" (by decide +kernel)

/-- The members of a wait graph. -/
def graphMembers (graph : WaitGraphSnapshot) : List Member :=
  [⟨"", "status", waitGraphStatus.json graph.status,
      writeJsonString (ascii (waitGraphStatusName graph.status))⟩,
    ⟨"", "simulation_time_fs", Codec.word.json graph.simulationTimeFs,
      print64 graph.simulationTimeFs⟩,
    ⟨"", "nodes", (Codec.list waitGraphNode).json graph.nodes, nodesText graph.nodes⟩]

def graphLayout : List (String × String) :=
  ["status", "simulation_time_fs", "nodes"].map fun name => ("", name)

/-- A wait graph, read by the names of its members. -/
def waitGraphSnapshot : Codec WaitGraphSnapshot where
  json graph := objectValue (graphMembers graph)
  read v := do
    let status ← (v.get "status").bind waitGraphStatus.read
    let simulationTimeFs ← (v.get "simulation_time_fs").bind Codec.word.read
    let nodes ← (v.get "nodes").bind (Codec.list waitGraphNode).read
    some { status, simulationTimeFs, nodes }
  read_json graph := by
    have distinct : ((graphMembers graph).map fun m => ascii m.name).Nodup := by
      change (graphLayout.map fun place => ascii place.2).Nodup
      decide +kernel
    have status : _ = some graph.status := waitGraphStatus.read_member distinct 0 rfl
    have time : _ = some graph.simulationTimeFs := Codec.word.read_member distinct 1 rfl
    have nodes : _ = some graph.nodes := (Codec.list waitGraphNode).read_member distinct 2 rfl
    simp only [status, time, nodes, Option.bind_eq_bind, Option.bind_some]

/-- A wait graph, or `null`. -/
def optionalGraph : Codec (Option WaitGraphSnapshot) := .option waitGraphSnapshot fun _ => nofun

theorem reads_writeWaitGraph (graph : Option WaitGraphSnapshot) :
    Reads (optionalGraph.json graph) (writeWaitGraph graph) := by
  cases graph with
  | none => exact reads_null
  | some graph =>
    have text : writeWaitGraph (some graph) = objectText
        ((graphMembers graph).map fun m => memberText m.space m.name m.text) "" := by
      have status : plain "status" = true := by decide +kernel
      unfold writeWaitGraph
      simp only [writeJsonField_plain status]
      simp only [graphMembers, nodesText, List.map_cons, List.map_nil, objectText, memberText,
        intercalate_one, intercalate_cons, List.append_assoc]
      simp only [ascii_merge, ← ascii_append, String.reduceAppend]
    rw [text]
    refine reads_objectValue graphLayout rfl (by decide +kernel) ?_ (by decide +kernel)
    simp only [graphMembers, List.forall_mem_cons]
    exact ⟨reads_writeJsonString _, reads_decimal _, reads_nodes _, List.forall_mem_nil _⟩

end WaitGraphs

/-! ### The document -/

section Documents

/-- `test_status_name` backwards. -/
def testStatus : Codec TestStatus :=
  .named [.notRun, .running, .passed, .failed, .error, .skipped, .expectedFailure, .unexpectedPass,
      .timedOut]
    testStatusName (by rintro ⟨⟩ <;> decide) (by decide +kernel)

theorem reads_writeJsonStringArray (values : List Text) :
    Reads ((Codec.list .string).json values) (writeJsonStringArray values) := by
  have turn : ∀ index value, (if index ≠ 0 then ascii "," else []) ++ writeJsonString value =
      (if index = 0 then [] else ascii ",") ++ writeJsonString value := by
    intro index value
    by_cases first : index = 0
    · rw [if_pos first, if_neg (not_not.mpr first)]
    · rw [if_neg first, if_pos first]
  have reads := reads_loop .string turn reads_writeJsonString values "" (by decide +kernel)
  rw [writeJsonStringArray, List.append_assoc]
  exact reads

/-- The records of a list, each on a line of its own. -/
def recordsText {α : Type} (records : List α) (write : ℕ → α → Text) : Text :=
  ascii "[" ++ (loop records write ++ ((if records.isEmpty then [] else ascii "\n") ++ ascii "  ]"))

theorem reads_records {α : Type} (codec : Codec α) {write : ℕ → α → Text}
    (turn : ∀ index record, write index record = (if index = 0 then [] else ascii ",") ++ write 0 record)
    (each : ∀ record, Reads (codec.json record) (write 0 record)) (records : List α) :
    Reads ((Codec.list codec).json records) (recordsText records write) := by
  unfold recordsText
  cases records.isEmpty with
  | true => exact reads_loop codec turn each records "  " (by decide +kernel)
  | false => exact reads_loop codec turn each records "\n  " (by decide +kernel)

theorem reads_failures (failures : List FailureRecord) :
    Reads ((Codec.list failureRecord).json failures) (recordsText failures writeFailure) := by
  refine reads_records failureRecord (fun index failure => ?_) reads_writeFailure failures
  unfold writeFailure
  simp only [List.append_assoc]
  exact first_turn index "\n    \x7b" _

theorem reads_warnings (warnings : List WarningRecord) :
    Reads ((Codec.list warningRecord).json warnings) (recordsText warnings writeWarning) := by
  refine reads_records warningRecord (fun index warning => ?_) reads_writeWarning warnings
  unfold writeWarning
  simp only [List.append_assoc]
  exact first_turn index "\n    \x7b" _

/-- The members of the document. -/
def resultMembers (result : TestResult) : List Member :=
  [⟨"\n  ", "schema_version", .number 5, ascii "5"⟩,
    ⟨"\n  ", "test_name", Codec.string.json result.testName, writeJsonString result.testName⟩,
    ⟨"\n  ", "case_name", Codec.string.json result.caseName, writeJsonString result.caseName⟩,
    ⟨"\n  ", "status", testStatus.json result.status,
      writeJsonString (ascii (testStatusName result.status))⟩,
    ⟨"\n  ", "status_reason", Codec.string.json result.statusReason,
      writeJsonString result.statusReason⟩,
    ⟨"\n  ", "tags", (Codec.list .string).json result.tags, writeJsonStringArray result.tags⟩,
    ⟨"\n  ", "random_seed", optionalNumber.json result.randomSeed, writeOptional result.randomSeed⟩,
    ⟨"\n  ", "random_algorithm", Codec.string.json result.randomAlgorithm,
      writeJsonString result.randomAlgorithm⟩,
    ⟨"\n  ", "constraint_backend", Codec.string.json result.constraintBackend,
      writeJsonString result.constraintBackend⟩,
    ⟨"\n  ", "constraint_backend_version", Codec.string.json result.constraintBackendVersion,
      writeJsonString result.constraintBackendVersion⟩,
    ⟨"\n  ", "random_sampling_solves", Codec.word.json result.randomSamplingSolves,
      print64 result.randomSamplingSolves⟩,
    ⟨"\n  ", "random_solver_solves", Codec.word.json result.randomSolverSolves,
      print64 result.randomSolverSolves⟩,
    ⟨"\n  ", "checks", Codec.word.json result.checks, print64 result.checks⟩,
    ⟨"\n  ", "failures", Codec.half.json result.failures, print32 result.failures⟩,
    ⟨"\n  ", "warnings", Codec.half.json result.warnings, print32 result.warnings⟩,
    ⟨"\n  ", "simulation_time_fs", Codec.word.json result.simulationTimeFs,
      print64 result.simulationTimeFs⟩,
    ⟨"\n  ", "wall_time_ns", Codec.word.json result.wallTimeNs, print64 result.wallTimeNs⟩,
    ⟨"\n  ", "failure_records", (Codec.list failureRecord).json result.failureRecords,
      recordsText result.failureRecords writeFailure⟩,
    ⟨"\n  ", "warning_records", (Codec.list warningRecord).json result.warningRecords,
      recordsText result.warningRecords writeWarning⟩,
    ⟨"\n  ", "wait_graph", optionalGraph.json result.waitGraph, writeWaitGraph result.waitGraph⟩]

def resultLayout : List (String × String) :=
  ["schema_version", "test_name", "case_name", "status", "status_reason", "tags", "random_seed",
    "random_algorithm", "constraint_backend", "constraint_backend_version",
    "random_sampling_solves", "random_solver_solves", "checks", "failures", "warnings",
    "simulation_time_fs", "wall_time_ns", "failure_records", "warning_records", "wait_graph"].map
      fun name => ("\n  ", name)

theorem document_eq (result : TestResult) : document result = objectText
    ((resultMembers result).map fun m => memberText m.space m.name m.text) "\n" ++ ascii "\n" := by
  have names : ∀ name ∈ ["test_name", "case_name", "status", "status_reason", "random_algorithm",
      "constraint_backend", "constraint_backend_version"], plain name = true := by decide +kernel
  simp only [List.forall_mem_cons] at names
  obtain ⟨testName, caseName, status, statusReason, algorithm, backend, version, -⟩ := names
  unfold document
  simp only [writeJsonField_plain testName, writeJsonField_plain caseName,
    writeJsonField_plain status, writeJsonField_plain statusReason, writeJsonField_plain algorithm,
    writeJsonField_plain backend, writeJsonField_plain version]
  simp only [resultMembers, recordsText, List.map_cons, List.map_nil, objectText, memberText,
    intercalate_one, intercalate_cons, List.append_assoc]
  simp only [ascii_merge, ← ascii_append, String.reduceAppend]

/-- **The document is read as the members of the result.** -/
theorem parse_document (result : TestResult) :
    parse (document result) = some (objectValue (resultMembers result)) := by
  rw [document_eq]
  refine parse_reads (reads_objectValue resultLayout rfl (by decide +kernel) ?_ (by decide +kernel))
    (by decide +kernel)
  have version : Reads (.number 5) (ascii "5") := by
    have digits : decimal 5 = ascii "5" := by decide +kernel
    exact digits ▸ reads_decimal 5
  simp only [resultMembers, List.forall_mem_cons]
  exact ⟨version, reads_writeJsonString _, reads_writeJsonString _, reads_writeJsonString _,
    reads_writeJsonString _, reads_writeJsonStringArray _, reads_writeOptional _,
    reads_writeJsonString _, reads_writeJsonString _, reads_writeJsonString _, reads_decimal _,
    reads_decimal _, reads_decimal _, reads_decimal _, reads_decimal _, reads_decimal _,
    reads_decimal _, reads_failures _, reads_warnings _, reads_writeWaitGraph _,
    List.forall_mem_nil _⟩

/-- A result, read by the names of its members. `finished` is not in the document. -/
def readTestResult (v : Value) : Option TestResult := do
  let testName ← (v.get "test_name").bind Codec.string.read
  let caseName ← (v.get "case_name").bind Codec.string.read
  let status ← (v.get "status").bind testStatus.read
  let statusReason ← (v.get "status_reason").bind Codec.string.read
  let tags ← (v.get "tags").bind (Codec.list .string).read
  let randomSeed ← (v.get "random_seed").bind optionalNumber.read
  let randomAlgorithm ← (v.get "random_algorithm").bind Codec.string.read
  let constraintBackend ← (v.get "constraint_backend").bind Codec.string.read
  let constraintBackendVersion ← (v.get "constraint_backend_version").bind Codec.string.read
  let randomSamplingSolves ← (v.get "random_sampling_solves").bind Codec.word.read
  let randomSolverSolves ← (v.get "random_solver_solves").bind Codec.word.read
  let checks ← (v.get "checks").bind Codec.word.read
  let failures ← (v.get "failures").bind Codec.half.read
  let warnings ← (v.get "warnings").bind Codec.half.read
  let simulationTimeFs ← (v.get "simulation_time_fs").bind Codec.word.read
  let wallTimeNs ← (v.get "wall_time_ns").bind Codec.word.read
  let failureRecords ← (v.get "failure_records").bind (Codec.list failureRecord).read
  let warningRecords ← (v.get "warning_records").bind (Codec.list warningRecord).read
  let waitGraph ← (v.get "wait_graph").bind optionalGraph.read
  some { checks, failures, warnings, status, testName, caseName, statusReason, tags,
         failureRecords, warningRecords, waitGraph, randomSeed, randomAlgorithm,
         constraintBackend, constraintBackendVersion, randomSamplingSolves, randomSolverSolves,
         simulationTimeFs, wallTimeNs }

theorem readTestResult_resultMembers (result : TestResult) :
    readTestResult (objectValue (resultMembers result)) = some { result with finished := false } := by
  have distinct : ((resultMembers result).map fun m => ascii m.name).Nodup := by
    change (resultLayout.map fun place => ascii place.2).Nodup
    decide +kernel
  have testName : _ = some result.testName := Codec.string.read_member distinct 1 rfl
  have caseName : _ = some result.caseName := Codec.string.read_member distinct 2 rfl
  have status : _ = some result.status := testStatus.read_member distinct 3 rfl
  have statusReason : _ = some result.statusReason := Codec.string.read_member distinct 4 rfl
  have tags : _ = some result.tags := (Codec.list .string).read_member distinct 5 rfl
  have seed : _ = some result.randomSeed := optionalNumber.read_member distinct 6 rfl
  have algorithm : _ = some result.randomAlgorithm := Codec.string.read_member distinct 7 rfl
  have backend : _ = some result.constraintBackend := Codec.string.read_member distinct 8 rfl
  have version : _ = some result.constraintBackendVersion := Codec.string.read_member distinct 9 rfl
  have sampling : _ = some result.randomSamplingSolves := Codec.word.read_member distinct 10 rfl
  have solver : _ = some result.randomSolverSolves := Codec.word.read_member distinct 11 rfl
  have checks : _ = some result.checks := Codec.word.read_member distinct 12 rfl
  have failures : _ = some result.failures := Codec.half.read_member distinct 13 rfl
  have warnings : _ = some result.warnings := Codec.half.read_member distinct 14 rfl
  have simulationTime : _ = some result.simulationTimeFs := Codec.word.read_member distinct 15 rfl
  have wallTime : _ = some result.wallTimeNs := Codec.word.read_member distinct 16 rfl
  have failureRecords : _ = some result.failureRecords :=
    (Codec.list failureRecord).read_member distinct 17 rfl
  have warningRecords : _ = some result.warningRecords :=
    (Codec.list warningRecord).read_member distinct 18 rfl
  have graph : _ = some result.waitGraph := optionalGraph.read_member distinct 19 rfl
  simp only [readTestResult, testName, caseName, status, statusReason, tags, seed, algorithm,
    backend, version, sampling, solver, checks, failures, warnings, simulationTime, wallTime,
    failureRecords, warningRecords, graph, Option.bind_eq_bind, Option.bind_some]

/-- **The report of a test reads back.** -/
theorem document_reads_back (result : TestResult) :
    (parse (document result)).bind readTestResult = some { result with finished := false } := by
  rw [parse_document, Option.bind_some, readTestResult_resultMembers]

end Documents

end Cpptb.Reporting
