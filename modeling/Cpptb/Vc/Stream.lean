/-
The ready/valid stream components, in the immediate write model.

`ReadyValidDriver::send`, `ReadyValidSink::receive` and `ReadyValidMonitor::run` as tasks on a clock, each
with one frame for every `co_await` of its body. The signals hold what was set last. A driver and a sink
each serve one call after the other, issued at any moment.
-/

import Cpptb.Lib.Clocked

namespace Cpptb.Vc

open Clocked

variable {V : Type}

/-- `ReadyValidSampleEdge`. -/
inductive ReadyValidSampleEdge
  | rising
  | falling
  deriving DecidableEq, Repr

/-- The three components. -/
inductive StreamParty
  | driver
  | sink
  | monitor
  deriving DecidableEq, Repr

instance : Fintype StreamParty where
  elems := {.driver, .sink, .monitor}
  complete party := by cases party <;> decide

/-- The half period of the clock, the sample delays, and the arguments of the monitor. -/
structure StreamConfig where
  half : Nat
  driverDelay : Nat
  sinkDelay : Nat
  monitorDelay : Nat
  sampleEdge : ReadyValidSampleEdge := .rising
  transactions : Nat
  deriving DecidableEq, Repr

/-- Where a component is suspended. -/
inductive StreamFrame (V : Type)
  /-- No call is active. -/
  | idle
  /-- `send`, at the falling edge before the signals are set. -/
  | drive (value : V) (stalls : UInt32)
  /-- `send`, at the rising edge. -/
  | offer (value : V) (stalls : UInt32)
  /-- `send`, in the sample delay. -/
  | decide (value : V) (stalls : UInt32)
  /-- `send`, at the falling edge behind the transfer. -/
  | withdraw (stalls : UInt32)
  /-- `receive`, at the falling edge before `ready` is set. -/
  | raise
  /-- `receive`, at the rising edge. -/
  | listen
  /-- `receive`, in the sample delay. -/
  | accept
  /-- `receive`, at the falling edge behind the transfer. -/
  | lower (value : V)
  /-- `run`, at the sample edge. -/
  | watch (received : Nat)
  /-- `run`, in the sample delay. -/
  | inspect (received : Nat)
  deriving DecidableEq, Repr

/-- The signals, and what the calls have done: the values of the sends, the times and stalls of those that
returned, the times and values of the receives that returned, and the published values. -/
structure StreamBus (V : Type) where
  valid : Bool := false
  ready : Bool := false
  data : V
  sends : List V := []
  returns : List (Nat × UInt32) := []
  receipts : List (Nat × V) := []
  observed : List V := []
  deriving DecidableEq, Repr

/-- A call. -/
inductive StreamCall (V : Type)
  | send (value : V)
  | receive
  deriving DecidableEq, Repr

namespace StreamConfig

variable (config : StreamConfig)

/-- What a frame awaits. -/
def wait : StreamFrame V → Wait
  | .idle => .wake
  | .drive _ _ | .withdraw _ | .raise | .lower _ => .falling
  | .offer _ _ | .listen => .rising
  | .decide _ _ => .delay config.driverDelay
  | .accept => .delay config.sinkDelay
  | .watch _ =>
      match config.sampleEdge with
      | .rising => .rising
      | .falling => .falling
  | .inspect _ => .delay config.monitorDelay

/-- The part of `send` behind the sample delay. -/
def sampleReady (value : V) (stalls : UInt32) (bus : StreamBus V) : StreamFrame V :=
  if bus.ready then .withdraw stalls else .drive value (stalls + 1)

/-- `ReadyValidDriver::send`. The frames of the other components do not occur here. -/
def send (now : Nat) (frame : StreamFrame V) (bus : StreamBus V) : StreamFrame V × StreamBus V :=
  match frame with
  | .drive value stalls => (.offer value stalls, { bus with data := value, valid := true })
  | .offer value stalls =>
      if config.driverDelay ≠ 0 then (.decide value stalls, bus)
      else (sampleReady value stalls bus, bus)
  | .decide value stalls => (sampleReady value stalls bus, bus)
  | .withdraw stalls =>
      (.idle, { bus with valid := false, returns := bus.returns ++ [(now, stalls)] })
  | _ => (.idle, bus)

/-- The part of `receive` behind the sample delay. -/
def sampleValid (bus : StreamBus V) : StreamFrame V :=
  if bus.valid then .lower bus.data else .raise

/-- `ReadyValidSink::receive`. -/
def receive (now : Nat) (frame : StreamFrame V) (bus : StreamBus V) : StreamFrame V × StreamBus V :=
  match frame with
  | .raise => (.listen, { bus with ready := true })
  | .listen => if config.sinkDelay ≠ 0 then (.accept, bus) else (sampleValid bus, bus)
  | .accept => (sampleValid bus, bus)
  | .lower value => (.idle, { bus with ready := false, receipts := bus.receipts ++ [(now, value)] })
  | _ => (.idle, bus)

/-- The test of the loop of `run`. -/
def more (received : Nat) : StreamFrame V :=
  if received < config.transactions then .watch received else .idle

/-- The part of `run` behind the sample delay. -/
def sampleTransfer (received : Nat) (bus : StreamBus V) : StreamFrame V × StreamBus V :=
  if !bus.valid || !bus.ready then (.watch received, bus)
  else (config.more (received + 1), { bus with observed := bus.observed ++ [bus.data] })

/-- `ReadyValidMonitor::run`. -/
def run (frame : StreamFrame V) (bus : StreamBus V) : StreamFrame V × StreamBus V :=
  match frame with
  | .watch received =>
      if config.monitorDelay ≠ 0 then (.inspect received, bus) else config.sampleTransfer received bus
  | .inspect received => config.sampleTransfer received bus
  | _ => (.idle, bus)

/-- The body of a component, up to its next suspension. -/
def resume (party : StreamParty) (now : Nat) (frame : StreamFrame V) (bus : StreamBus V) :
    StreamFrame V × StreamBus V :=
  match party with
  | .driver => config.send now frame bus
  | .sink => config.receive now frame bus
  | .monitor => config.run frame bus

/-- A call of a component that is idle, up to its first suspension. -/
def enter (party : StreamParty) (call : StreamCall V) (frame : StreamFrame V) (bus : StreamBus V) :
    Option (StreamFrame V × StreamBus V) :=
  match party, call, frame with
  | .driver, .send value, .idle => some (.drive value 0, { bus with sends := bus.sends ++ [value] })
  | .sink, .receive, .idle => some (.raise, bus)
  | _, _, _ => none

/-- The components on a clock. Nothing outside changes the signals. -/
def program : Program StreamParty (StreamFrame V) (StreamBus V) (StreamCall V) Unit where
  half := config.half
  wait := config.wait
  resume party now frame bus :=
    ((config.resume party now frame bus).1, (config.resume party now frame bus).2, [])
  enter := enter
  react _ bus := bus

/-- Before the first edge: no call has been issued, and the monitor runs. -/
def Starts (s : State StreamParty (StreamFrame V) (StreamBus V)) : Prop :=
  ∃ data, s.now ≤ s.edge ∧ s.risings = [] ∧ s.shared = { data := data } ∧
    (∀ party, (s.tasks party).runnable = false ∧ (s.tasks party).due = none) ∧
    (s.tasks .driver).frame = .idle ∧ (s.tasks .sink).frame = .idle ∧
    (s.tasks .monitor).frame = config.more 0

/-- A state of some run. -/
def Reaches (s : State StreamParty (StreamFrame V) (StreamBus V)) : Prop :=
  Runs.Reach config.program.step Program.Allowed config.Starts s

/-- The sample delays are shorter than half a period. -/
structure Short : Prop where
  driver : config.driverDelay < config.half
  sink : config.sinkDelay < config.half
  monitor : config.monitorDelay < config.half

end StreamConfig

end Cpptb.Vc
