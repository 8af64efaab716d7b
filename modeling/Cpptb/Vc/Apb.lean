/-
The APB components, in the immediate write model.

`ApbMaster::write` and `::read` with their lock, `ApbMonitor::run_forever` and
`ApbProtocolChecker::run_forever`, as tasks on a clock: a frame for every `co_await` of their bodies. One
master serves the callers `K`, each with one call after the other, issued at any moment. The slave sets
`ready`, `error` and `read_data` as it likes whenever time goes on.
-/

import Cpptb.Lib.Clocked
import Cpptb.Vc.RegisterCoverage

namespace Cpptb.Vc

open Clocked

variable {K A D B : Type}

/-- The tasks: the callers of the master, the monitor and the checker. -/
inductive ApbTask (K : Type)
  | caller (caller : K)
  | monitor
  | checker
  deriving DecidableEq, Repr

instance [Fintype K] [DecidableEq K] : Fintype (ApbTask K) where
  elems := Finset.univ.image .caller ∪ {.monitor, .checker}
  complete task := by cases task <;> simp

/-- `MemoryWriteRequest` and `MemoryReadRequest`. -/
inductive ApbRequest (A D B : Type)
  | write (address : A) (data : D) (byteEnable : B)
  | read (address : A)
  deriving DecidableEq, Repr

/-- `MemoryReadResponse`, and `MemoryWriteResponse` without data. -/
structure ApbResponse (D : Type) where
  data : Option D
  status : MemoryStatus
  waitCycles : UInt32
  deriving DecidableEq, Repr

/-- `MemoryTransaction`. -/
structure ApbTransaction (A D B : Type) where
  operation : MemoryOperation
  address : A
  data : D
  byteEnable : B
  status : MemoryStatus := .okay
  waitCycles : UInt32 := 0
  deriving DecidableEq, Repr

/-- `TransactionObservation`, of a completed transaction. -/
structure ApbObservation (A D B : Type) where
  beginTime : Nat
  endTime : Nat
  value : ApbTransaction A D B
  deriving DecidableEq, Repr

/-- What `observe_one` keeps of a setup phase. -/
structure ApbCapture (A D B : Type) where
  started : Nat
  write : Bool
  transaction : ApbTransaction A D B
  deriving DecidableEq, Repr

/-- The state of `ApbProtocolChecker`. -/
structure ApbChecker (A D B : Type) where
  address : A
  writeData : D
  strobe : B
  write : Bool := false
  setupSeen : Bool := false
  waiting : Bool := false
  deriving DecidableEq, Repr

/-- The half period of the clock, the delays and limit of the components, whether the bus has a strobe
signal, and `all_bytes` of its type. -/
structure ApbConfig (B : Type) where
  half : Nat
  sampleDelay : Nat
  maxWaitCycles : UInt32 := 0
  monitorDelay : Nat
  checkerDelay : Nat
  hasStrobe : Bool
  allBytes : B
  deriving DecidableEq, Repr

/-- The signals, less the clock. -/
structure ApbSignals (A D B : Type) where
  select : Bool := false
  enable : Bool := false
  write : Bool := false
  address : A
  writeData : D
  readData : D
  ready : Bool := false
  error : Bool := false
  strobe : B
  deriving DecidableEq, Repr

/-- What the slave drives. -/
structure ApbInputs (D : Type) where
  ready : Bool
  error : Bool
  readData : D
  deriving DecidableEq, Repr

/-- `coro::Lock`. With `handoffPending`, its first waiter owns it but has not been resumed. -/
structure ApbLock (K : Type) where
  locked : Bool := false
  waiters : List K := []
  handoffPending : Bool := false
  deriving DecidableEq, Repr

/-- The signals, the lock, and what has happened: the calls in the order in which they acquired the lock and
in the order in which they returned, the calls that threw, the observations of the monitor, and the messages
of the violations. -/
structure ApbBus (K A D B : Type) where
  signals : ApbSignals A D B
  lock : ApbLock K := {}
  acquired : List (K × ApbRequest A D B) := []
  completed : List ((K × ApbRequest A D B) × ApbResponse D) := []
  thrown : List (K × String) := []
  observed : List (ApbObservation A D B) := []
  violations : List String := []
  deriving DecidableEq, Repr

/-- Where a task is suspended. -/
inductive ApbFrame (A D B : Type)
  /-- No call is active. -/
  | idle
  /-- In `lock_.acquire()`. -/
  | queued (request : ApbRequest A D B)
  /-- At the falling edge before the setup phase. -/
  | setup (request : ApbRequest A D B)
  /-- At the rising edge of the setup phase. -/
  | hold (request : ApbRequest A D B)
  /-- At the falling edge before the access phase. -/
  | access (request : ApbRequest A D B)
  /-- `wait_for_completion`, at the rising edge. -/
  | complete (request : ApbRequest A D B) (waitCycles : UInt32)
  /-- `wait_for_completion`, in the sample delay. -/
  | decide (request : ApbRequest A D B) (waitCycles : UInt32)
  /-- At the falling edge behind the access phase. -/
  | finish (request : ApbRequest A D B) (response : ApbResponse D)
  /-- `sample_until` of `observe_one`, at the rising edge. -/
  | seek
  /-- `sample_until` of `observe_one`, in the sample delay. -/
  | inspect
  /-- `sample` of `observe_one`, at the rising edge. -/
  | track (capture : ApbCapture A D B)
  /-- `sample` of `observe_one`, in the sample delay. -/
  | settle (capture : ApbCapture A D B)
  /-- The checker, at the rising edge. -/
  | check (checker : ApbChecker A D B)
  /-- The checker, in the sample delay. -/
  | examine (checker : ApbChecker A D B)
  deriving DecidableEq, Repr

namespace ApbConfig

variable (config : ApbConfig B)

/-- Equal sample delays below half a period, and no limit on the wait cycles. -/
structure Equal : Prop where
  short : config.sampleDelay < config.half
  monitor : config.monitorDelay = config.sampleDelay
  checker : config.checkerDelay = config.sampleDelay
  unlimited : config.maxWaitCycles = 0

/-- What a frame awaits. -/
def wait : ApbFrame A D B → Wait
  | .idle | .queued _ => .wake
  | .setup _ | .access _ | .finish _ _ => .falling
  | .hold _ | .complete _ _ | .seek | .track _ | .check _ => .rising
  | .decide _ _ => .delay config.sampleDelay
  | .inspect | .settle _ => .delay config.monitorDelay
  | .examine _ => .delay config.checkerDelay

/-! ### The master -/

/-- Whether `write` throws: a partial write needs a strobe signal. -/
def partialWrite [DecidableEq B] : ApbRequest A D B → Bool
  | .write _ _ byteEnable => !config.hasStrobe && byteEnable != config.allBytes
  | .read _ => false

/-- The signals of a setup phase. -/
def drive [Inhabited B] (request : ApbRequest A D B) (signals : ApbSignals A D B) : ApbSignals A D B :=
  match request with
  | .write address data byteEnable =>
      { signals with
        address := address
        writeData := data
        strobe := if config.hasStrobe then byteEnable else signals.strobe
        write := true
        select := true
        enable := false }
  | .read address =>
      { signals with
        address := address
        strobe := if config.hasStrobe then default else signals.strobe
        write := false
        select := true
        enable := false }

/-- The response to a request, from a completion. -/
def respond [Inhabited D] (request : ApbRequest A D B) (status : MemoryStatus) (waitCycles : UInt32)
    (readData : D) : ApbResponse D where
  data := match request with
    | .write _ _ _ => none
    | .read _ => some (if status = .timeout then default else readData)
  status := status
  waitCycles := waitCycles

/-- The part of `wait_for_completion` behind the sample delay. -/
def sampleReady [Inhabited D] (request : ApbRequest A D B) (waitCycles : UInt32)
    (signals : ApbSignals A D B) : ApbFrame A D B :=
  if signals.ready then
    .finish request
      (respond request (if signals.error then .slaveError else .okay) waitCycles signals.readData)
  else if config.maxWaitCycles ≠ 0 ∧ config.maxWaitCycles ≤ waitCycles + 1 then
    .finish request (respond request .timeout (waitCycles + 1) signals.readData)
  else .complete request (waitCycles + 1)

/-- `idle`. -/
def idle (signals : ApbSignals A D B) : ApbSignals A D B :=
  { signals with select := false, enable := false, write := false }

/-- `release`: the lock goes to the first waiter, which is woken. -/
def release (lock : ApbLock K) : ApbLock K × List K :=
  match lock.waiters with
  | [] => ({ lock with locked := false }, [])
  | first :: _ => ({ lock with handoffPending := true }, [first])

/-- `finish_acquire`. -/
def finishAcquire [DecidableEq K] (caller : K) (lock : ApbLock K) : ApbLock K :=
  { lock with waiters := lock.waiters.erase caller, handoffPending := false }

/-- The first part of a call, up to the falling edge or into the queue of the lock. -/
def call [DecidableEq B] (caller : K) (request : ApbRequest A D B) (bus : ApbBus K A D B) :
    ApbFrame A D B × ApbBus K A D B :=
  if config.partialWrite request then
    (.idle, { bus with thrown := bus.thrown ++
      [(caller, "cpptb-vc: APB partial write requires a PSTRB signal")] })
  else if bus.lock.locked then
    (.queued request, { bus with lock := { bus.lock with waiters := bus.lock.waiters ++ [caller] } })
  else
    (.setup request, { bus with
      lock := { bus.lock with locked := true }
      acquired := bus.acquired ++ [(caller, request)] })

/-- `ApbMaster::write` and `::read`, up to the next suspension, with the callers it wakes. The frames of the
other components do not occur here. -/
def access [DecidableEq K] [Inhabited D] [Inhabited B] (caller : K) (frame : ApbFrame A D B)
    (bus : ApbBus K A D B) : ApbFrame A D B × ApbBus K A D B × List K :=
  match frame with
  | .queued request =>
      (.setup request, { bus with
        lock := finishAcquire caller bus.lock
        acquired := bus.acquired ++ [(caller, request)] }, [])
  | .setup request => (.hold request, { bus with signals := config.drive request bus.signals }, [])
  | .hold request => (.access request, bus, [])
  | .access request =>
      (.complete request 0, { bus with signals := { bus.signals with enable := true } }, [])
  | .complete request waitCycles =>
      if config.sampleDelay ≠ 0 then (.decide request waitCycles, bus, [])
      else (config.sampleReady request waitCycles bus.signals, bus, [])
  | .decide request waitCycles => (config.sampleReady request waitCycles bus.signals, bus, [])
  | .finish request response =>
      (.idle, { bus with
        signals := idle bus.signals
        lock := (release bus.lock).1
        completed := bus.completed ++ [((caller, request), response)] }, (release bus.lock).2)
  | _ => (.idle, bus, [])

/-! ### The monitor -/

/-- `strobe`. -/
def strobe (signals : ApbSignals A D B) : B :=
  if config.hasStrobe then signals.strobe else config.allBytes

/-- `capture_setup`. -/
def captureSetup [Inhabited D] (now : Nat) (signals : ApbSignals A D B) : ApbCapture A D B where
  started := now
  write := signals.write
  transaction :=
    { operation := if signals.write then .write else .read
      address := signals.address
      data := if signals.write then signals.writeData else default
      byteEnable := if signals.write then config.strobe signals else config.allBytes }

/-- The predicate of `sample_until`, and the capture behind it. -/
def sampleSetup [Inhabited D] (now : Nat) (signals : ApbSignals A D B) : ApbFrame A D B :=
  if signals.select && !signals.enable then .track (config.captureSetup now signals) else .seek

/-- The inner loop of `observe_one` behind `sample`. -/
def sampleAccess [Inhabited D] (now : Nat) (capture : ApbCapture A D B) (signals : ApbSignals A D B) :
    ApbFrame A D B × List (ApbObservation A D B) :=
  if !signals.select then (.seek, [])
  else if !signals.enable then (.track (config.captureSetup now signals), [])
  else if !signals.ready then
    (.track { capture with transaction :=
      { capture.transaction with waitCycles := capture.transaction.waitCycles + 1 } }, [])
  else
    (.seek, [{
      beginTime := capture.started
      endTime := now
      value := { capture.transaction with
        data := if capture.write then capture.transaction.data else signals.readData
        status := if signals.error then .slaveError else .okay } }])

/-- `ApbMonitor::run_forever`, up to the next suspension, with what it publishes. -/
def observe [Inhabited D] (now : Nat) (frame : ApbFrame A D B) (signals : ApbSignals A D B) :
    ApbFrame A D B × List (ApbObservation A D B) :=
  match frame with
  | .seek =>
      if config.monitorDelay ≠ 0 then (.inspect, []) else (config.sampleSetup now signals, [])
  | .inspect => (config.sampleSetup now signals, [])
  | .track capture =>
      if config.monitorDelay ≠ 0 then (.settle capture, []) else config.sampleAccess now capture signals
  | .settle capture => config.sampleAccess now capture signals
  | _ => (.idle, [])

/-! ### The checker -/

/-- `report`. -/
def report (condition : Bool) (message : String) : List String :=
  if condition then [] else [message]

/-- `capture_control`. -/
def captureControl (checker : ApbChecker A D B) (signals : ApbSignals A D B) : ApbChecker A D B :=
  { checker with
    address := signals.address
    write := signals.write
    writeData := signals.writeData
    strobe := config.strobe signals }

/-- The part of `sample` behind the sample delay, with the reported messages. -/
def sample [DecidableEq A] [DecidableEq D] [DecidableEq B] [Inhabited B] (checker : ApbChecker A D B)
    (signals : ApbSignals A D B) : ApbChecker A D B × List String :=
  let selected := signals.select
  let enabled := signals.enable
  let ready := signals.ready
  let access := selected && enabled
  let always :=
    report (!enabled || selected) "APB PENABLE requires PSEL" ++
    report (!access || checker.setupSeen || checker.waiting) "APB access phase requires a setup phase"
  let waiting :=
    if checker.waiting then
      report selected "APB PSEL dropped before PREADY" ++
      report enabled "APB PENABLE dropped before PREADY" ++
      report (signals.address == checker.address) "APB PADDR changed while waiting for PREADY" ++
      report (signals.write == checker.write) "APB PWRITE changed while waiting for PREADY" ++
      report (!checker.write || signals.writeData == checker.writeData)
        "APB PWDATA changed while waiting for PREADY" ++
      report (config.strobe signals == checker.strobe) "APB PSTRB changed while waiting for PREADY"
    else []
  if selected && !enabled then
    ({ config.captureControl checker signals with setupSeen := true, waiting := false },
      always ++ waiting ++
        if config.hasStrobe then
          report (signals.write || config.strobe signals == default) "APB PSTRB must be zero during reads"
        else [])
  else if access then
    ({ checker with waiting := !ready, setupSeen := false },
      always ++ waiting ++
        if checker.setupSeen then
          report (signals.address == checker.address) "APB PADDR changed between setup and access" ++
          report (signals.write == checker.write) "APB PWRITE changed between setup and access" ++
          report (!checker.write || signals.writeData == checker.writeData)
            "APB PWDATA changed between setup and access" ++
          report (config.strobe signals == checker.strobe) "APB PSTRB changed between setup and access"
        else [])
  else ({ checker with waiting := false, setupSeen := false }, always ++ waiting)

/-- `ApbProtocolChecker::run_forever`, up to the next suspension, with the reported messages. -/
def checks [DecidableEq A] [DecidableEq D] [DecidableEq B] [Inhabited B] (frame : ApbFrame A D B)
    (signals : ApbSignals A D B) : ApbFrame A D B × List String :=
  match frame with
  | .check checker =>
      if config.checkerDelay ≠ 0 then (.examine checker, [])
      else (.check (config.sample checker signals).1, (config.sample checker signals).2)
  | .examine checker => (.check (config.sample checker signals).1, (config.sample checker signals).2)
  | _ => (.idle, [])

/-! ### The system -/

variable [DecidableEq K] [DecidableEq A] [DecidableEq D] [DecidableEq B] [Inhabited A] [Inhabited D]
  [Inhabited B]

/-- The body of a task, up to its next suspension, with the tasks it wakes. -/
def resume (task : ApbTask K) (now : Nat) (frame : ApbFrame A D B) (bus : ApbBus K A D B) :
    ApbFrame A D B × ApbBus K A D B × List (ApbTask K) :=
  match task with
  | .caller caller =>
      ((config.access caller frame bus).1, (config.access caller frame bus).2.1,
        (config.access caller frame bus).2.2.map .caller)
  | .monitor =>
      ((config.observe now frame bus.signals).1,
        { bus with observed := bus.observed ++ (config.observe now frame bus.signals).2 }, [])
  | .checker =>
      ((config.checks frame bus.signals).1,
        { bus with violations := bus.violations ++ (config.checks frame bus.signals).2 }, [])

/-- A caller that is idle calls the master. -/
def enter (task : ApbTask K) (request : ApbRequest A D B) (frame : ApbFrame A D B) (bus : ApbBus K A D B) :
    Option (ApbFrame A D B × ApbBus K A D B) :=
  match task, frame with
  | .caller caller, .idle => some (config.call caller request bus)
  | _, _ => none

/-- The slave drives its signals. -/
def respondWith (inputs : ApbInputs D) (bus : ApbBus K A D B) : ApbBus K A D B :=
  { bus with signals := { bus.signals with
      ready := inputs.ready, error := inputs.error, readData := inputs.readData } }

/-- The components on a clock. -/
def program :
    Program (ApbTask K) (ApbFrame A D B) (ApbBus K A D B) (ApbRequest A D B) (ApbInputs D) where
  half := config.half
  wait := config.wait
  resume := config.resume
  enter := config.enter
  react := respondWith

/-- The state of the components. -/
abbrev System (K A D B : Type) :=
  State (ApbTask K) (ApbFrame A D B) (ApbBus K A D B)

/-- Before the first edge: no call has been issued, and monitor and checker run. -/
def Starts (s : System K A D B) : Prop :=
  ∃ signals : ApbSignals A D B, signals.select = false ∧ signals.enable = false ∧
    s.now ≤ s.edge ∧ s.risings = [] ∧ s.shared = { signals := signals } ∧
    (∀ task, (s.tasks task).runnable = false ∧ (s.tasks task).due = none) ∧
    (∀ caller, (s.tasks (.caller caller)).frame = .idle) ∧ (s.tasks .monitor).frame = .seek ∧
    (s.tasks .checker).frame = .check { address := default, writeData := default, strobe := default }

/-- A state of some run. -/
def Reaches (s : System K A D B) : Prop :=
  Runs.Reach config.program.step Program.Allowed Starts s

end ApbConfig

end Cpptb.Vc
