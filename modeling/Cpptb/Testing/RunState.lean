/-
The state of one test run.

`TestRunState` owns the result of a test: every check, failure, warning, exception, skip, timeout and
finish request goes through it, from the root process and from every spawned one. Each of its functions
takes the `Moment` it is called at, which is what it asks the scheduler for. `finish` cancels the
processes of the test, and the destructors of their frames are user code: what they call on the same
state is a list of `Call`s, performed before the sinks hear that the test has finished.

Output to `stderr` and what the log sinks store are not part of the state; a log sink that throws while
it handles a message of the simulator is a failure of the test (`recordSimLog`). Result sinks are told
of what happens (`Notification`) and do not throw.
-/

import Cpptb.Coro.State
import Cpptb.Testing.Seeds

namespace Cpptb.Testing

open Coro (ProcessExecutionContext SourceLocation)
open Randomize (Random)

/-! ### Results -/

/-- `TestStatus`. -/
inductive TestStatus
  | notRun
  | running
  | passed
  | failed
  | error
  | skipped
  | expectedFailure
  | unexpectedPass
  | timedOut
  deriving DecidableEq, Repr

/-- `test_status_successful`. -/
def testStatusSuccessful (status : TestStatus) : Bool :=
  status = .passed || status = .skipped || status = .expectedFailure

/-- `FailureKind`. -/
inductive FailureKind
  | expectation
  | requirement
  | exception
  | selection
  | timeout
  | unexpectedPass
  deriving DecidableEq, Repr

/-- `FailureRecord`. -/
structure FailureRecord where
  kind : FailureKind := .expectation
  label : String := ""
  actual : String := ""
  expected : String := ""
  sourceFile : String := ""
  process : String := ""
  processSourceFile : String := ""
  simulationTimeFs : Nat := 0
  processId : Nat := 0
  sourceLine : Nat := 0
  processSourceLine : Nat := 0
  hasComparison : Bool := false
  deriving DecidableEq, Repr

/-- `WarningRecord`. -/
structure WarningRecord where
  label : String := ""
  sourceFile : String := ""
  process : String := ""
  processSourceFile : String := ""
  simulationTimeFs : Nat := 0
  processId : Nat := 0
  sourceLine : Nat := 0
  processSourceLine : Nat := 0
  deriving DecidableEq, Repr

/-- `WaitGraphStatus`. -/
inductive WaitGraphStatus
  | complete
  | runnable
  | waitingForTime
  | waitingForSimulator
  | deadlocked
  deriving DecidableEq, Repr

/-- `WaitGraphSnapshot`, without the nodes, which are only printed. -/
structure WaitGraphSnapshot where
  status : WaitGraphStatus := .complete
  simulationTimeFs : Nat := 0
  deriving DecidableEq, Repr

/-- `deadlocked`. -/
def WaitGraphSnapshot.deadlocked (graph : WaitGraphSnapshot) : Bool := graph.status = .deadlocked

/-- `TestResult`, without the fields of the constraint solver and the wall time. -/
structure TestResult where
  checks : Nat := 0
  failures : Nat := 0
  warnings : Nat := 0
  status : TestStatus := .notRun
  testName : String := ""
  caseName : String := ""
  statusReason : String := ""
  tags : List String := []
  failureRecords : List FailureRecord := []
  warningRecords : List WarningRecord := []
  waitGraph : Option WaitGraphSnapshot := none
  randomSeed : Option UInt64 := none
  randomAlgorithm : String := ""
  simulationTimeFs : Nat := 0
  finished : Bool := false
  deriving DecidableEq, Repr

/-- The calls a result sink receives. -/
inductive Notification
  | testStarted (result : TestResult)
  | failureRecorded (record : FailureRecord)
  | warningRecorded (record : WarningRecord)
  | testFinished (result : TestResult)
  deriving DecidableEq, Repr

/-- `test_finished`. -/
def Notification.isFinished : Notification → Bool
  | .testFinished _ => true
  | _ => false

/-- `TestMetadata`. -/
structure TestMetadata where
  baseName : String := ""
  caseName : String := ""
  tags : List String := []
  expectedFailure : Bool := false
  expectedFailureReason : String := ""
  skipReason : String := ""
  deriving DecidableEq, Repr

/-- `LogLevel`. -/
inductive LogLevel
  | trace
  | debug
  | info
  | warning
  | error
  | off
  deriving DecidableEq, Repr

/-- `static_cast<uint8_t>(level)`. -/
def LogLevel.rank : LogLevel → Nat
  | .trace => 0
  | .debug => 1
  | .info => 2
  | .warning => 3
  | .error => 4
  | .off => 5

/-- `log_level_enabled`. -/
def logLevelEnabled (level minimumLevel : LogLevel) : Bool :=
  minimumLevel ≠ .off && level ≠ .off && minimumLevel.rank ≤ level.rank

/-- `SimLogMessage`, as far as a failure of its sink reads it. -/
structure SimLogMessage where
  level : LogLevel := .info
  sourceFile : String := ""
  simulationTimeFs : Nat := 0
  sourceLine : Nat := 0
  deriving DecidableEq, Repr

/-! ### The state -/

/-- What a function asks the scheduler for: `now()` and the context that
`current_execution_context()` points to. -/
structure Moment where
  now : Nat := 0
  context : Option ProcessExecutionContext := none
  deriving DecidableEq, Repr

/-- `TestRunState`. `address` is what a process context stores as its owner, `hasSink` says that
there is a result sink, and `notifications` is what it has received, newest last. -/
structure TestRunState where
  address : Nat := 1
  result : TestResult := {}
  hasSink : Bool := true
  notifications : List Notification := []
  minimumLogLevel : LogLevel := .info
  pendingTimeoutGraph : Option WaitGraphSnapshot := none
  processRandoms : Nat → Option Random := fun _ => none
  nextProcessId : Nat := 1
  masterRandomSeed : UInt64 := defaultRandomSeed
  fallbackRandom : Random := reseed defaultRandomSeed
  expectedFailure : Bool := false
  expectedFailureReason : String := ""

namespace TestRunState

/-- Tell the result sink. -/
def notify (s : TestRunState) (notification : Notification) : TestRunState :=
  if s.hasSink then { s with notifications := s.notifications ++ [notification] } else s

/-- `begin`. -/
def start (s : TestRunState) (m : Moment) (name : String) (metadata : TestMetadata)
    (randomSeed : UInt64) : TestRunState :=
  let result : TestResult :=
    { status := .running
      testName := name
      caseName := metadata.caseName
      tags := metadata.tags
      randomSeed := some randomSeed
      randomAlgorithm := "xoshiro256ss-v1"
      simulationTimeFs := m.now }
  { s with
    result := result
    pendingTimeoutGraph := none
    expectedFailure := metadata.expectedFailure
    expectedFailureReason := metadata.expectedFailureReason
    masterRandomSeed := randomSeed
    fallbackRandom := reseed randomSeed }.notify (.testStarted result)

/-- The context of the current process, when this test owns it. -/
def currentProcess (s : TestRunState) (m : Moment) : Option ProcessExecutionContext :=
  m.context.filter fun process => process.owner = s.address

/-- `attach_current_process` of a failure. -/
def attachCurrentProcess (s : TestRunState) (m : Moment) (record : FailureRecord) : FailureRecord :=
  match s.currentProcess m with
  | none => record
  | some process =>
      { record with
        process := process.description
        processSourceFile := process.declaration.file
        processId := process.id
        processSourceLine := process.declaration.line }

/-- `attach_current_process` of a warning. -/
def attachCurrentProcessWarning (s : TestRunState) (m : Moment) (record : WarningRecord) :
    WarningRecord :=
  match s.currentProcess m with
  | none => record
  | some process =>
      { record with
        process := process.description
        processSourceFile := process.declaration.file
        processId := process.id
        processSourceLine := process.declaration.line }

/-- Count a failure, store its record and tell the sink. The counter has 32 bits. -/
def storeFailure (s : TestRunState) (status : TestStatus) (record : FailureRecord) : TestRunState :=
  let result := s.result
  { s with
    result := { result with
      failures := (result.failures + 1) % 4294967296
      status := status
      failureRecords := result.failureRecords ++ [record] } }.notify (.failureRecorded record)

/-- `record_check`. -/
def recordCheck (s : TestRunState) : TestRunState :=
  if s.result.finished then s
  else
    let result := s.result
    { s with result := { result with checks := (result.checks + 1) % 18446744073709551616 } }

/-- `record_failure`. -/
def recordFailure (s : TestRunState) (m : Moment) (record : FailureRecord) : TestRunState :=
  if s.result.finished then s
  else s.storeFailure .failed
    (s.attachCurrentProcess m { record with simulationTimeFs := m.now })

/-- `record_warning`. -/
def recordWarning (s : TestRunState) (m : Moment) (message : String) (location : SourceLocation) :
    TestRunState :=
  if s.result.finished then s
  else
    let record := s.attachCurrentProcessWarning m
      { label := message
        sourceFile := location.file
        sourceLine := location.line
        simulationTimeFs := m.now }
    let result := s.result
    { s with
      result := { result with
        warnings := (result.warnings + 1) % 4294967296
        warningRecords := result.warningRecords ++ [record] } }.notify (.warningRecorded record)

/-- The label of an unexpected pass. -/
def unexpectedPassLabel (reason : String) : String :=
  if reason.isEmpty then "test was expected to fail but passed"
  else "test was expected to fail but passed: " ++ reason

/-- The part of `finish` that decides the status: the state to go on from, and the status. -/
def decideStatus (s : TestRunState) (m : Moment) (requested : TestStatus) :
    TestRunState × TestStatus :=
  if (requested = .passed ∨ requested = .failed) ∧ s.expectedFailure then
    if s.result.failures ≠ 0 then
      let result := s.result
      ({ s with result := { result with statusReason := s.expectedFailureReason } },
        .expectedFailure)
    else
      let s := s.recordFailure m
        { kind := .unexpectedPass, label := unexpectedPassLabel s.expectedFailureReason }
      let result := s.result
      ({ s with result := { result with statusReason := s.expectedFailureReason } },
        .unexpectedPass)
  else if requested = .passed ∧ s.result.failures ≠ 0 then
    (s, if s.result.status = .error then .error else .failed)
  else (s, requested)

/-- The result as `finish` leaves it. -/
def markFinished (s : TestRunState) (m : Moment) (status : TestStatus) : TestRunState :=
  let result := s.result
  { s with result := { result with status := status, simulationTimeFs := m.now, finished := true } }

/-- The rest of `finish`: set the status, cancel the processes of the test and tell the sink.
`cancelOwnedProcesses` is what the destructors of the cancelled frames do to the state. -/
def close (s : TestRunState) (m : Moment) (status : TestStatus)
    (cancelOwnedProcesses : TestRunState → TestRunState) : TestRunState :=
  let s := cancelOwnedProcesses (s.markFinished m status)
  s.notify (.testFinished s.result)

/-- `finish`. -/
def finish (s : TestRunState) (m : Moment) (requested : TestStatus)
    (cancelOwnedProcesses : TestRunState → TestRunState) : TestRunState :=
  if s.result.finished then s
  else
    let decided := s.decideStatus m requested
    decided.1.close m decided.2 cancelOwnedProcesses

/-- `record_exception`. -/
def recordException (s : TestRunState) (m : Moment) (message : String) (location : SourceLocation)
    (cancelOwnedProcesses : TestRunState → TestRunState) : TestRunState :=
  if s.result.finished then s
  else
    let record := s.attachCurrentProcess m
      { kind := .exception
        label := message
        sourceFile := location.file
        sourceLine := location.line
        simulationTimeFs := m.now }
    (s.storeFailure .error record).finish m .error cancelOwnedProcesses

/-- `record_skip`. -/
def recordSkip (s : TestRunState) (m : Moment) (reason : String)
    (cancelOwnedProcesses : TestRunState → TestRunState) : TestRunState :=
  if s.result.finished then s
  else
    let result := s.result
    { s with result := { result with statusReason := reason } }.finish m .skipped
      cancelOwnedProcesses

/-- The reason `record_timeout` gives. -/
def timeoutReason (timeout : Nat) (graph : Option WaitGraphSnapshot) : String :=
  let reason := "simulation-time limit of " ++ toString timeout ++ " fs"
  match graph with
  | some graph => if graph.deadlocked then reason ++ "; scheduler deadlock detected" else reason
  | none => reason

/-- `record_timeout`. -/
def recordTimeout (s : TestRunState) (m : Moment) (timeout : Nat) (location : SourceLocation)
    (cancelOwnedProcesses : TestRunState → TestRunState) : TestRunState :=
  if s.result.finished then s
  else
    let result := s.result
    let reason := timeoutReason timeout s.pendingTimeoutGraph
    let s := { s with
      result := { result with
        statusReason := reason
        waitGraph := s.pendingTimeoutGraph.or result.waitGraph } }
    (s.recordFailure m
      { kind := .timeout
        label := reason
        sourceFile := location.file
        sourceLine := location.line }).finish m .timedOut cancelOwnedProcesses

/-- `log_enabled`. -/
def logEnabled (s : TestRunState) (level : LogLevel) : Bool :=
  logLevelEnabled level s.minimumLogLevel && !s.result.finished

/-- `record_sim_log_exception`. -/
def recordSimLogException (s : TestRunState) (m : Moment) (error : String) (message : SimLogMessage)
    (cancelOwnedProcesses : TestRunState → TestRunState) : TestRunState :=
  if s.result.finished then s
  else (s.storeFailure .error
    { kind := .exception
      label := error
      sourceFile := message.sourceFile
      sourceLine := message.sourceLine
      simulationTimeFs := message.simulationTimeFs }).finish m .error cancelOwnedProcesses

/-- `record_sim_log`: `thrown` is the text of what the log sink throws, if it does. -/
def recordSimLog (s : TestRunState) (m : Moment) (message : SimLogMessage) (thrown : Option String)
    (cancelOwnedProcesses : TestRunState → TestRunState) : TestRunState :=
  if s.logEnabled message.level = false then s
  else match thrown with
    | none => s
    | some error => s.recordSimLogException m error message cancelOwnedProcesses

/-- `capture_timeout_wait_graph`. -/
def captureTimeoutWaitGraph (s : TestRunState) (graph : WaitGraphSnapshot) : TestRunState :=
  { s with pendingTimeoutGraph := some graph }

end TestRunState

/-! ### Checks -/

/-- `boolean_failure`. -/
def booleanFailure (kind : FailureKind) (label : String) (location : SourceLocation) :
    FailureRecord :=
  { kind := kind, label := label, sourceFile := location.file, sourceLine := location.line }

/-- `comparison_failure`; `actualText` and `expectedText` are what `format_diagnostic` gives. -/
def comparisonFailure (kind : FailureKind) (label : String) (actualText expectedText : Option String)
    (location : SourceLocation) : FailureRecord :=
  { kind := kind
    label := label
    actual := actualText.getD ""
    expected := expectedText.getD ""
    sourceFile := location.file
    sourceLine := location.line
    hasComparison := actualText.isSome && expectedText.isSome }

namespace TestRunState

/-- `expect` and, up to the exception it throws, `require`. -/
def expect (s : TestRunState) (m : Moment) (kind : FailureKind) (label : String) (condition : Bool)
    (location : SourceLocation) : TestRunState :=
  let s := s.recordCheck
  if condition then s else s.recordFailure m (booleanFailure kind label location)

/-- `expect_eq` and, up to the exception it throws, `require_eq`. -/
def expectEq {α : Type} [BEq α] (s : TestRunState) (m : Moment) (kind : FailureKind)
    (format : α → Option String) (label : String) (actual expected : α)
    (location : SourceLocation) : TestRunState :=
  let s := s.recordCheck
  if actual == expected then s
  else s.recordFailure m
    (comparisonFailure kind label (format actual) (format expected) location)

end TestRunState

/-! ### Ends of processes -/

/-- How a test function or a spawned process ends. -/
inductive Completion
  | returned
  | abort
  | skip (reason : String) (location : SourceLocation)
  | error (what : String)
  | unknown
  deriving DecidableEq, Repr

namespace TestRunState

/-- `finish_owned_process`, with `finish_owned_process_slow`. -/
def finishOwnedProcess (s : TestRunState) (m : Moment) (completion : Completion) (cancelled : Bool)
    (here : SourceLocation) (cancelOwnedProcesses : TestRunState → TestRunState) : TestRunState :=
  if cancelled then s
  else match completion with
    | .returned => s
    | .abort => s.finish m .failed cancelOwnedProcesses
    | .skip reason _ => s.recordSkip m reason cancelOwnedProcesses
    | .error what => s.recordException m what here cancelOwnedProcesses
    | .unknown => s.recordException m "unknown exception" here cancelOwnedProcesses

/-- The end of `invoke_registered_test`; `timedOut` is the limit that ran out, if one did. -/
def rootEnded (s : TestRunState) (m : Moment) (completion : Completion) (timedOut : Option Nat)
    (declaration : SourceLocation) (cancelOwnedProcesses : TestRunState → TestRunState) :
    TestRunState :=
  match timedOut with
  | some timeout => s.recordTimeout m timeout declaration cancelOwnedProcesses
  | none =>
      match completion with
      | .returned => s.finish m .passed cancelOwnedProcesses
      | .abort => s.finish m .failed cancelOwnedProcesses
      | .skip reason _ => s.recordSkip m reason cancelOwnedProcesses
      | .error what => s.recordException m what declaration cancelOwnedProcesses
      | .unknown => s.recordException m "unknown exception" declaration cancelOwnedProcesses

end TestRunState

/-! ### Runs -/

/-- The calls a test makes on its state. `released` is what the destructors call that run while the
test's processes are cancelled; a finish request asks for `Passed` or `Failed`. -/
inductive Call
  | recordCheck
  | recordFailure (m : Moment) (record : FailureRecord)
  | recordWarning (m : Moment) (message : String) (location : SourceLocation)
  | captureTimeoutWaitGraph (graph : WaitGraphSnapshot)
  | recordSimLog (m : Moment) (message : SimLogMessage) (thrown : Option String)
      (released : List Call)
  | recordException (m : Moment) (message : String) (location : SourceLocation)
      (released : List Call)
  | recordSkip (m : Moment) (reason : String) (released : List Call)
  | recordTimeout (m : Moment) (timeout : Nat) (location : SourceLocation) (released : List Call)
  | finish (m : Moment) (passed : Bool) (released : List Call)
  | finishOwnedProcess (m : Moment) (completion : Completion) (cancelled : Bool)
      (here : SourceLocation) (released : List Call)
  | rootEnded (m : Moment) (completion : Completion) (timedOut : Option Nat)
      (declaration : SourceLocation) (released : List Call)

mutual

/-- Perform one call. -/
def Call.perform : Call → TestRunState → TestRunState
  | .recordCheck, s => s.recordCheck
  | .recordFailure m record, s => s.recordFailure m record
  | .recordWarning m message location, s => s.recordWarning m message location
  | .captureTimeoutWaitGraph graph, s => s.captureTimeoutWaitGraph graph
  | .recordSimLog m message thrown released, s =>
      s.recordSimLog m message thrown (performAll released)
  | .recordException m message location released, s =>
      s.recordException m message location (performAll released)
  | .recordSkip m reason released, s => s.recordSkip m reason (performAll released)
  | .recordTimeout m timeout location released, s =>
      s.recordTimeout m timeout location (performAll released)
  | .finish m passed released, s =>
      s.finish m (if passed then .passed else .failed) (performAll released)
  | .finishOwnedProcess m completion cancelled here released, s =>
      s.finishOwnedProcess m completion cancelled here (performAll released)
  | .rootEnded m completion timedOut declaration released, s =>
      s.rootEnded m completion timedOut declaration (performAll released)

/-- Perform calls in order. -/
def performAll : List Call → TestRunState → TestRunState
  | [], s => s
  | call :: rest, s => performAll rest (call.perform s)

end

/-- How a state comes to be: a `TestContext` over a new result, or a selected test. -/
inductive Start
  | constructed
  | selected (result : TestResult) (m : Moment) (name : String) (metadata : TestMetadata)
      (randomSeed : UInt64)

/-- The state a test starts in. -/
def Start.state (start : Start) (address : Nat) (hasSink : Bool) (minimumLogLevel : LogLevel) :
    TestRunState :=
  let s : TestRunState :=
    { address := address, hasSink := hasSink, minimumLogLevel := minimumLogLevel }
  match start with
  | .constructed => s
  | .selected result m name metadata randomSeed =>
      { s with result := result }.start m name metadata randomSeed

end Cpptb.Testing
