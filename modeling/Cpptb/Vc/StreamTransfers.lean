/-
Ready/valid transfers.

A transfer is a rising edge at which `valid` and `ready` are both high. The signals change only at falling
edges, so that driver, sink and monitor, which sample between a rising edge and the next falling edge, all
see the levels of the rising edge.

* `DriverAt`, `SinkAt`, `MonitorAt`: what each frame means, with the transfers a component has still to
  report (`driverPending`, `sinkPending`, `monitorPending`).
* `Handshake`: the invariant that ties them together; one lemma for each kind of step.
* `transfers_exactly_once`: the claims about the calls in every run.
-/

import Cpptb.Vc.Stream

namespace Cpptb.Vc

open Clocked
open Function (update)

variable {V : Type}

namespace StreamConfig

/-! ### Transfers and stalls -/

/-- The transfers at some rising edges. -/
def transfers (risings : List (StreamBus V)) : Nat :=
  risings.countP fun bus => bus.valid && bus.ready

/-- The rising edges at which the send behind so many returned ones was stalled. -/
def stalledAt (risings : List (StreamBus V)) (sends : Nat) : Nat :=
  risings.countP fun bus => bus.valid && !bus.ready && bus.returns.length == sends

/-- The signals of a transfer, as long as the clock is high. -/
def moving (level : Bool) (bus : StreamBus V) : Bool :=
  level && bus.valid && bus.ready

/-- The transfers of a driver whose send has not returned. -/
def driverPending (level : Bool) (bus : StreamBus V) : StreamFrame V → Nat
  | .withdraw _ => 1
  | .offer _ _ | .decide _ _ => (moving level bus).toNat
  | _ => 0

/-- The transfers of a sink whose receive has not returned. -/
def sinkPending (level : Bool) (bus : StreamBus V) : StreamFrame V → Nat
  | .lower _ => 1
  | .listen | .accept => (moving level bus).toNat
  | _ => 0

/-- The transfers a monitor has not published. -/
def monitorPending (level : Bool) (bus : StreamBus V) (runnable : Bool) : StreamFrame V → Nat
  | .watch _ => (runnable && moving level bus).toNat
  | .inspect _ => (moving level bus).toNat
  | _ => 0

/-! ### What the frames mean -/

/-- The active send: its value is the last one, `data` holds it while `valid` is high, and its stalls are
those of the rising edges it has sampled. -/
structure Sending (bus : StreamBus V) (risings : List (StreamBus V)) (value : V) (stalls : UInt32)
    (unsampled : Bool) : Prop where
  last : bus.sends.length = bus.returns.length + 1
  current : bus.sends[bus.returns.length]? = some value
  data : bus.valid = true → bus.data = value
  counted : UInt32.ofNat (stalledAt risings bus.returns.length) =
    stalls + if unsampled && bus.valid && !bus.ready then 1 else 0

/-- A driver. -/
def DriverAt (level runnable : Bool) (bus : StreamBus V) (risings : List (StreamBus V)) :
    StreamFrame V → Prop
  | .idle => runnable = false ∧ bus.valid = false ∧ bus.sends.length = bus.returns.length ∧
      stalledAt risings bus.returns.length = 0
  | .drive value stalls => Sending bus risings value stalls false ∧ (runnable = true → level = false) ∧
      (bus.valid = true → level = true ∧ bus.ready = false ∨ runnable = true)
  | .offer value stalls => Sending bus risings value stalls level ∧ bus.valid = true ∧ runnable = level
  | .decide value stalls => Sending bus risings value stalls true ∧ bus.valid = true ∧ level = true
  | .withdraw stalls => (∃ value, Sending bus risings value stalls false) ∧ bus.valid = true ∧
      runnable = !level ∧ (level = true → bus.ready = true)
  | _ => False

/-- A sink. -/
def SinkAt (level runnable : Bool) (bus : StreamBus V) : StreamFrame V → Prop
  | .idle => runnable = false ∧ bus.ready = false
  | .raise => (runnable = true → level = false) ∧
      (bus.ready = true → level = true ∧ bus.valid = false ∨ runnable = true)
  | .listen => bus.ready = true ∧ runnable = level
  | .accept => bus.ready = true ∧ level = true
  | .lower value => bus.ready = true ∧ runnable = (!level) ∧ (level = true → bus.valid = true) ∧
      bus.sends[bus.receipts.length]? = some value
  | _ => False

/-- A monitor. -/
def MonitorAt (config : StreamConfig) (level runnable : Bool) (bus : StreamBus V) : StreamFrame V → Prop
  | .idle => runnable = false ∧ bus.observed.length = config.transactions
  | .watch received => (runnable = true → level = true) ∧ bus.observed.length = received ∧
      received < config.transactions
  | .inspect received => level = true ∧ bus.observed.length = received ∧ received < config.transactions
  | _ => False

/-- **The invariant.** `due` is the time at which a pending call returns: the falling edge that ends the
high phase, or the moment while its tasks run. -/
structure Handshake (config : StreamConfig) (level : Bool) (due : Nat) (driver sink monitor : StreamFrame V)
    (driverRuns sinkRuns monitorRuns : Bool) (bus : StreamBus V) (risings : List (StreamBus V)) : Prop where
  driverAt : DriverAt level driverRuns bus risings driver
  sinkAt : SinkAt level sinkRuns bus sink
  monitorAt : MonitorAt config level monitorRuns bus monitor
  sent : transfers risings = bus.returns.length + driverPending level bus driver
  received : transfers risings = bus.receipts.length + sinkPending level bus sink
  together : bus.returns.map Prod.fst ++ List.replicate (driverPending level bus driver) due =
    bus.receipts.map Prod.fst ++ List.replicate (sinkPending level bus sink) due
  values : bus.receipts.map Prod.snd = bus.sends.take bus.receipts.length
  stalls : ∀ index entry, bus.returns[index]? = some entry →
    entry.2 = UInt32.ofNat (stalledAt risings index)
  older : ∀ rising ∈ risings, rising.returns.length ≤ bus.returns.length
  published : bus.observed = bus.sends.take
    (min config.transactions (transfers risings - monitorPending level bus monitorRuns monitor))

/-! ### While the clock is low -/

section Low

variable {config : StreamConfig} {due : Nat} {driver sink monitor : StreamFrame V}
  {driverRuns sinkRuns monitorRuns : Bool} {bus other : StreamBus V} {risings : List (StreamBus V)}

/-- While the clock is low nothing moves, whatever the signals. -/
theorem driverPending_low (bus other : StreamBus V) (driver : StreamFrame V) :
    driverPending false bus driver = driverPending false other driver := by
  cases driver <;> rfl

theorem sinkPending_low (bus other : StreamBus V) (sink : StreamFrame V) :
    sinkPending false bus sink = sinkPending false other sink := by
  cases sink <;> rfl

theorem monitorPending_low (bus : StreamBus V) (runnable : Bool) (monitor : StreamFrame V) :
    monitorPending false bus runnable monitor = 0 := by
  cases monitor <;> simp [monitorPending, moving]

/-- A send looks at `ready` only until it has sampled. -/
theorem Sending.congr {value : V} {stalls : UInt32} {unsampled : Bool}
    (here : Sending bus risings value stalls unsampled) (valid : other.valid = bus.valid)
    (data : other.data = bus.data) (sends : other.sends = bus.sends) (returns : other.returns = bus.returns)
    (ready : unsampled = true → other.ready = bus.ready) : Sending other risings value stalls unsampled := by
  refine ⟨?_, ?_, ?_, ?_⟩
  · rw [sends, returns]
    exact here.last
  · rw [sends, returns]
    exact here.current
  · rw [valid, data]
    exact here.data
  · rw [returns, valid, here.counted]
    cases unsampled with
    | false => rfl
    | true => rw [ready rfl]

/-- A driver does not look at `ready` while the clock is low. -/
theorem driverAt_low (here : DriverAt false driverRuns bus risings driver)
    (valid : other.valid = bus.valid) (data : other.data = bus.data) (sends : other.sends = bus.sends)
    (returns : other.returns = bus.returns) : DriverAt false driverRuns other risings driver := by
  cases driver with
  | idle => simpa [DriverAt, valid, sends, returns] using here
  | drive value stalls =>
      obtain ⟨sending, low, raised⟩ := here
      refine ⟨sending.congr valid data sends returns (by simp), low, fun high => ?_⟩
      rw [valid] at high
      rcases raised high with ⟨none, -⟩ | runs
      · cases none
      · exact .inr runs
  | offer value stalls =>
      obtain ⟨sending, high, runs⟩ := here
      exact ⟨sending.congr valid data sends returns (by simp), valid.trans high, runs⟩
  | withdraw stalls =>
      obtain ⟨⟨value, sending⟩, high, runs, -⟩ := here
      exact ⟨⟨value, sending.congr valid data sends returns (by simp)⟩, valid.trans high, runs, by simp⟩
  | decide value stalls => exact absurd here.2.2 Bool.false_ne_true
  | _ => exact here.elim

/-- A sink does not look at `valid` while the clock is low. -/
theorem sinkAt_low (here : SinkAt false sinkRuns bus sink) (ready : other.ready = bus.ready)
    (sends : ∀ (index : Nat) (value : V), bus.sends[index]? = some value → other.sends[index]? = some value)
    (receipts : other.receipts = bus.receipts) : SinkAt false sinkRuns other sink := by
  cases sink with
  | idle => exact ⟨here.1, ready.trans here.2⟩
  | raise =>
      refine ⟨here.1, fun high => ?_⟩
      rw [ready] at high
      rcases here.2 high with ⟨none, -⟩ | runs
      · cases none
      · exact .inr runs
  | listen => exact ⟨ready.trans here.1, here.2⟩
  | accept => exact absurd here.2 Bool.false_ne_true
  | lower value =>
      obtain ⟨high, runs, -, current⟩ := here
      exact ⟨ready.trans high, runs, by simp, by rw [receipts]; exact sends _ _ current⟩
  | _ => exact here.elim

theorem monitorAt_of_observed {level : Bool} (here : MonitorAt config level monitorRuns bus monitor)
    (observed : other.observed = bus.observed) : MonitorAt config level monitorRuns other monitor := by
  cases monitor with
  | idle => exact ⟨here.1, by rw [observed]; exact here.2⟩
  | watch received => exact ⟨here.1, by rw [observed]; exact here.2.1, here.2.2⟩
  | inspect received => exact ⟨here.1, by rw [observed]; exact here.2.1, here.2.2⟩
  | _ => exact here.elim

/-- A send sets its signals. -/
theorem Handshake.drive {value : V} {stalls : UInt32}
    (here : Handshake config false due (.drive value stalls) sink monitor driverRuns sinkRuns monitorRuns bus
      risings) :
    Handshake config false due (.offer value stalls) sink monitor false sinkRuns monitorRuns
      { bus with data := value, valid := true } risings := by
  have sending := here.driverAt.1
  refine
    { driverAt := ⟨⟨sending.last, sending.current, fun _ => rfl, by simpa using sending.counted⟩, rfl, rfl⟩
      sinkAt := sinkAt_low here.sinkAt rfl (fun _ _ same => same) rfl
      monitorAt := monitorAt_of_observed here.monitorAt rfl
      sent := here.sent
      received := ?_
      together := ?_
      values := here.values
      stalls := here.stalls
      older := here.older
      published := ?_ }
  · rw [sinkPending_low _ bus]
    exact here.received
  · rw [sinkPending_low _ bus]
    exact here.together
  · have published := here.published
    rw [monitorPending_low] at published ⊢
    exact published

/-- A sink raises its signal. -/
theorem Handshake.raise
    (here : Handshake config false due driver .raise monitor driverRuns sinkRuns monitorRuns bus risings) :
    Handshake config false due driver .listen monitor driverRuns false monitorRuns
      { bus with ready := true } risings := by
  refine
    { driverAt := driverAt_low here.driverAt rfl rfl rfl rfl
      sinkAt := ⟨rfl, rfl⟩
      monitorAt := monitorAt_of_observed here.monitorAt rfl
      sent := ?_
      received := here.received
      together := ?_
      values := here.values
      stalls := here.stalls
      older := here.older
      published := ?_ }
  · rw [driverPending_low _ bus]
    exact here.sent
  · rw [driverPending_low _ bus]
    exact here.together
  · have published := here.published
    rw [monitorPending_low] at published ⊢
    exact published

/-- A send returns. -/
theorem Handshake.withdraw {stalls : UInt32}
    (here : Handshake config false due (.withdraw stalls) sink monitor driverRuns sinkRuns monitorRuns bus
      risings) :
    Handshake config false due .idle sink monitor false sinkRuns monitorRuns
      { bus with valid := false, returns := bus.returns ++ [(due, stalls)] } risings := by
  obtain ⟨⟨value, sending⟩, -⟩ := here.driverAt
  have counted : UInt32.ofNat (stalledAt risings bus.returns.length) = stalls := by
    simpa using sending.counted
  have none : stalledAt risings (bus.returns.length + 1) = 0 := by
    refine List.countP_eq_zero.mpr fun rising member => ?_
    have := here.older rising member
    simp only [Bool.and_eq_true, beq_iff_eq, not_and]
    omega
  refine
    { driverAt := ⟨rfl, rfl, by simpa using sending.last, by simpa using none⟩
      sinkAt := sinkAt_low here.sinkAt rfl (fun _ _ same => same) rfl
      monitorAt := monitorAt_of_observed here.monitorAt rfl
      sent := ?_
      received := ?_
      together := ?_
      values := here.values
      stalls := fun index entry found => ?_
      older := fun rising member => ?_
      published := ?_ }
  · have sent := here.sent
    simp only [driverPending] at sent ⊢
    simpa using sent
  · rw [sinkPending_low _ bus]
    exact here.received
  · have together := here.together
    rw [sinkPending_low _ bus]
    simp only [driverPending, List.replicate_zero, List.append_nil, List.map_append, List.map_cons,
      List.map_nil, List.replicate_one] at together ⊢
    exact together
  · rw [List.getElem?_append] at found
    split at found
    · exact here.stalls index entry found
    · rename_i beyond
      have zero : index - bus.returns.length = 0 := by
        by_contra more
        rw [List.getElem?_eq_none (by simp; omega)] at found
        cases found
      have same : index = bus.returns.length := by omega
      rw [zero] at found
      cases found
      rw [same, counted]
  · have := here.older rising member
    simp only [List.length_append, List.length_singleton]
    omega
  · have published := here.published
    rw [monitorPending_low] at published ⊢
    exact published

/-- A receive returns. -/
theorem Handshake.lower {value : V}
    (here : Handshake config false due driver (.lower value) monitor driverRuns sinkRuns monitorRuns bus
      risings) :
    Handshake config false due driver .idle monitor driverRuns false monitorRuns
      { bus with ready := false, receipts := bus.receipts ++ [(due, value)] } risings := by
  obtain ⟨-, -, -, current⟩ := here.sinkAt
  refine
    { driverAt := driverAt_low here.driverAt rfl rfl rfl rfl
      sinkAt := ⟨rfl, rfl⟩
      monitorAt := monitorAt_of_observed here.monitorAt rfl
      sent := ?_
      received := ?_
      together := ?_
      values := ?_
      stalls := here.stalls
      older := here.older
      published := ?_ }
  · rw [driverPending_low _ bus]
    exact here.sent
  · have received := here.received
    simp only [sinkPending] at received ⊢
    simpa using received
  · have together := here.together
    rw [driverPending_low _ bus]
    simp only [sinkPending, List.replicate_zero, List.append_nil, List.map_append, List.map_cons,
      List.map_nil, List.replicate_one] at together ⊢
    exact together
  · simp only [List.map_append, List.map_cons, List.map_nil, List.length_append, List.length_singleton]
    rw [here.values, List.take_add_one, current]
    rfl
  · have published := here.published
    rw [monitorPending_low] at published ⊢
    exact published

end Low

/-! ### While the clock is high -/

section High

variable {config : StreamConfig} {due : Nat} {driver sink monitor : StreamFrame V}
  {driverRuns sinkRuns monitorRuns : Bool} {bus : StreamBus V} {risings : List (StreamBus V)}

/-- While a transfer moves, the driver has it pending, and `data` holds the value of its send. -/
theorem driver_moving (here : DriverAt true driverRuns bus risings driver) (valid : bus.valid = true)
    (ready : bus.ready = true) :
    driverPending true bus driver = 1 ∧ bus.sends[bus.returns.length]? = some bus.data := by
  have moves : (moving true bus).toNat = 1 := by simp [moving, valid, ready]
  cases driver with
  | idle =>
      have := here.2.1
      rw [valid] at this
      cases this
  | drive value stalls =>
      obtain ⟨-, low, raised⟩ := here
      rcases raised valid with ⟨-, notReady⟩ | runs
      · rw [ready] at notReady
        cases notReady
      · cases low runs
  | offer value stalls => exact ⟨moves, by rw [here.1.data valid]; exact here.1.current⟩
  | decide value stalls => exact ⟨moves, by rw [here.1.data valid]; exact here.1.current⟩
  | withdraw stalls =>
      obtain ⟨⟨value, sending⟩, -⟩ := here
      exact ⟨rfl, by rw [sending.data valid]; exact sending.current⟩
  | _ => exact here.elim

/-- While a transfer moves, the sink has it pending. -/
theorem sink_moving (here : SinkAt true sinkRuns bus sink) (valid : bus.valid = true)
    (ready : bus.ready = true) : sinkPending true bus sink = 1 := by
  have moves : (moving true bus).toNat = 1 := by simp [moving, valid, ready]
  cases sink with
  | idle =>
      have := here.2
      rw [ready] at this
      cases this
  | raise =>
      rcases here.2 ready with ⟨-, notValid⟩ | runs
      · rw [valid] at notValid
        cases notValid
      · cases here.1 runs
  | listen => exact moves
  | accept => exact moves
  | lower value => rfl
  | _ => exact here.elim

/-- A send in its sample delay. -/
theorem Handshake.delaySend {value : V} {stalls : UInt32} {runs : Bool}
    (here : Handshake config true due (.offer value stalls) sink monitor driverRuns sinkRuns monitorRuns bus
      risings) :
    Handshake config true due (.decide value stalls) sink monitor runs sinkRuns monitorRuns bus risings :=
  { here with driverAt := ⟨here.driverAt.1, here.driverAt.2.1, rfl⟩ }

/-- A send samples `ready`. -/
theorem Handshake.sampleReady {value : V} {stalls : UInt32}
    (here : Handshake config true due (.decide value stalls) sink monitor driverRuns sinkRuns monitorRuns bus
      risings) :
    Handshake config true due (sampleReady value stalls bus) sink monitor false sinkRuns monitorRuns bus
      risings := by
  obtain ⟨sending, valid, -⟩ := here.driverAt
  have counted := sending.counted
  have sent := here.sent
  have together := here.together
  unfold StreamConfig.sampleReady
  cases ready : bus.ready with
  | true =>
      have moves : (moving true bus).toNat = 1 := by simp [moving, valid, ready]
      simp only [driverPending, moves] at sent together
      refine { here with driverAt := ⟨⟨value, sending.last, sending.current, sending.data, ?_⟩, valid, rfl,
          fun _ => ready⟩, sent := sent, together := together }
      simpa [ready] using counted
  | false =>
      have still : (moving true bus).toNat = 0 := by simp [moving, ready]
      simp only [driverPending, still] at sent together
      refine { here with driverAt := ⟨⟨sending.last, sending.current, sending.data, ?_⟩, by simp,
          fun _ => .inl ⟨rfl, ready⟩⟩, sent := sent, together := together }
      simpa [valid, ready] using counted

/-- A receive in its sample delay. -/
theorem Handshake.delayReceive {runs : Bool}
    (here : Handshake config true due driver .listen monitor driverRuns sinkRuns monitorRuns bus risings) :
    Handshake config true due driver .accept monitor driverRuns runs monitorRuns bus risings :=
  { here with sinkAt := ⟨here.sinkAt.1, rfl⟩ }

/-- A receive samples `valid`. -/
theorem Handshake.sampleValid
    (here : Handshake config true due driver .accept monitor driverRuns sinkRuns monitorRuns bus risings) :
    Handshake config true due driver (sampleValid bus) monitor driverRuns false monitorRuns bus risings := by
  have ready := here.sinkAt.1
  have received := here.received
  have together := here.together
  unfold StreamConfig.sampleValid
  cases valid : bus.valid with
  | true =>
      obtain ⟨pending, current⟩ := driver_moving here.driverAt valid ready
      have sent := here.sent
      have moves : (moving true bus).toNat = 1 := by simp [moving, valid, ready]
      simp only [sinkPending, moves] at received together
      have same : bus.receipts.length = bus.returns.length := by omega
      exact { here with sinkAt := ⟨ready, rfl, fun _ => valid, by rw [same]; exact current⟩
                        received := received, together := together }
  | false =>
      have still : (moving true bus).toNat = 0 := by simp [moving, valid]
      simp only [sinkPending, still] at received together
      exact { here with sinkAt := ⟨by simp, fun _ => .inl ⟨rfl, valid⟩⟩
                        received := received, together := together }

/-- A monitor in its sample delay. -/
theorem Handshake.delayRun {received : Nat} {runs : Bool}
    (here : Handshake config true due driver sink (.watch received) driverRuns sinkRuns true bus risings) :
    Handshake config true due driver sink (.inspect received) driverRuns sinkRuns runs bus risings :=
  { here with monitorAt := ⟨rfl, here.monitorAt.2⟩, published := here.published }

/-- A monitor samples the signals. -/
theorem Handshake.sampleTransfer {received : Nat}
    (here : Handshake config true due driver sink (.inspect received) driverRuns sinkRuns monitorRuns bus
      risings) :
    Handshake config true due driver sink (config.sampleTransfer received bus).1 driverRuns sinkRuns false
      (config.sampleTransfer received bus).2 risings := by
  obtain ⟨-, length, more⟩ := here.monitorAt
  have published := here.published
  have sent := here.sent
  unfold StreamConfig.sampleTransfer
  by_cases moves : moving true bus = true
  case neg =>
    have skip : (!bus.valid || !bus.ready) = true := by
      cases valid : bus.valid <;> cases ready : bus.ready <;> simp_all [moving]
    rw [if_pos skip]
    refine { here with monitorAt := ⟨by simp, length, more⟩, published := ?_ }
    simpa [monitorPending, moves] using published
  have both : bus.valid = true ∧ bus.ready = true := by simpa [moving] using moves
  obtain ⟨pending, current⟩ := driver_moving here.driverAt both.1 both.2
  have take : ¬(!bus.valid || !bus.ready) = true := by simp [both]
  rw [if_neg take]
  simp only [monitorPending, moves, Bool.toNat_true] at published
  rw [pending] at sent
  have inside : bus.returns.length < bus.sends.length := by
    by_contra outside
    rw [List.getElem?_eq_none (by omega)] at current
    cases current
  -- what was published so far are the sends before the moving one
  have count : received = bus.returns.length := by
    rw [published, List.length_take] at length
    omega
  have next : bus.observed ++ [bus.data] = bus.sends.take (bus.returns.length + 1) := by
    rw [List.take_add_one, current, published]
    congr 2
    omega
  have all : min config.transactions (transfers risings) = bus.returns.length + 1 := by omega
  have sinkAt : SinkAt true sinkRuns { bus with observed := bus.observed ++ [bus.data] } sink := by
    cases sink <;> exact here.sinkAt
  have driverAt : DriverAt true driverRuns { bus with observed := bus.observed ++ [bus.data] } risings
      driver := by
    have at' := here.driverAt
    cases driver with
    | drive value stalls => exact ⟨at'.1.congr rfl rfl rfl rfl fun _ => rfl, at'.2⟩
    | offer value stalls => exact ⟨at'.1.congr rfl rfl rfl rfl fun _ => rfl, at'.2⟩
    | decide value stalls => exact ⟨at'.1.congr rfl rfl rfl rfl fun _ => rfl, at'.2⟩
    | withdraw stalls =>
        obtain ⟨⟨value, sending⟩, rest⟩ := at'
        exact ⟨⟨value, sending.congr rfl rfl rfl rfl fun _ => rfl⟩, rest⟩
    | _ => exact at'
  unfold StreamConfig.more
  by_cases again : received + 1 < config.transactions
  · rw [if_pos again]
    refine { here with driverAt := driverAt, sinkAt := sinkAt, monitorAt := ⟨by simp, ?_, again⟩
                       published := ?_ }
    · simp [length]
    · simp only [monitorPending, Bool.false_and, Bool.toNat_false, Nat.sub_zero]
      rw [all, next]
  · rw [if_neg again]
    refine { here with driverAt := driverAt, sinkAt := sinkAt, monitorAt := ⟨rfl, ?_⟩
                       published := ?_ }
    · simp only [List.length_append, List.length_singleton]
      omega
    · simp only [monitorPending, Nat.sub_zero]
      rw [all, next]

end High

/-! ### Calls, edges and time -/

section Edges

variable {config : StreamConfig} {level : Bool} {due : Nat} {driver sink monitor : StreamFrame V}
  {driverRuns sinkRuns monitorRuns : Bool} {bus : StreamBus V} {risings : List (StreamBus V)}

theorem transfers_cons (bus : StreamBus V) (risings : List (StreamBus V)) :
    transfers (bus :: risings) = transfers risings + (moving true bus).toNat := by
  unfold transfers moving
  rw [List.countP_cons]
  cases bus.valid <;> cases bus.ready <;> rfl

theorem stalledAt_cons (bus : StreamBus V) (risings : List (StreamBus V)) (sends : Nat) :
    stalledAt (bus :: risings) sends =
      stalledAt risings sends + if bus.valid && !bus.ready && bus.returns.length == sends then 1 else 0 := by
  unfold stalledAt
  rw [List.countP_cons]

/-- The transfers are sends that were issued. -/
theorem Handshake.transfers_le (here : Handshake config level due driver sink monitor driverRuns sinkRuns
    monitorRuns bus risings) : transfers risings ≤ bus.sends.length := by
  have sent := here.sent
  have at' := here.driverAt
  have small : (moving level bus).toNat ≤ 1 := Bool.toNat_le _
  cases driver with
  | idle =>
      have := at'.2.2.1
      simp only [driverPending] at sent
      omega
  | drive value stalls =>
      have := at'.1.last
      simp only [driverPending] at sent
      omega
  | offer value stalls =>
      have := at'.1.last
      simp only [driverPending] at sent
      omega
  | decide value stalls =>
      have := at'.1.last
      simp only [driverPending] at sent
      omega
  | withdraw stalls =>
      obtain ⟨⟨value, sending⟩, -⟩ := at'
      have := sending.last
      simp only [driverPending] at sent
      omega
  | _ => exact at'.elim

/-- A send is issued. -/
theorem Handshake.send (value : V)
    (here : Handshake config level due .idle sink monitor driverRuns sinkRuns monitorRuns bus risings) :
    Handshake config level due (.drive value 0) sink monitor false sinkRuns monitorRuns
      { bus with sends := bus.sends ++ [value] } risings := by
  obtain ⟨-, low, last, none⟩ := here.driverAt
  have bound := here.transfers_le
  have received := here.received
  refine
    { driverAt := ⟨⟨by simp [last], by simp [← last], fun high => ?_, ?_⟩, by simp, fun high => ?_⟩
      sinkAt := ?_
      monitorAt := monitorAt_of_observed here.monitorAt rfl
      sent := here.sent
      received := ?_
      together := ?_
      values := ?_
      stalls := here.stalls
      older := here.older
      published := ?_ }
  · rw [low] at high
    cases high
  · simp [none]
  · rw [low] at high
    cases high
  · cases sink with
    | lower value =>
        obtain ⟨ready, runs, valid, current⟩ := here.sinkAt
        refine ⟨ready, runs, valid, ?_⟩
        exact List.getElem?_append_left (List.getElem?_eq_some_iff.mp current).1 ▸ current
    | _ => exact here.sinkAt
  · cases sink <;> exact received
  · cases sink <;> exact here.together
  · rw [List.take_append_of_le_length (by simp only at *; omega)]
    exact here.values
  · have published := here.published
    rw [List.take_append_of_le_length (by omega)]
    cases monitor <;> exact published

/-- A receive is issued. -/
theorem Handshake.receive
    (here : Handshake config level due driver .idle monitor driverRuns sinkRuns monitorRuns bus risings) :
    Handshake config level due driver .raise monitor driverRuns false monitorRuns bus risings :=
  { here with
    sinkAt := ⟨by simp, fun high => absurd high (by simp [here.sinkAt.2])⟩ }

/-- The time at which nothing is due does not matter. -/
theorem Handshake.later (here : Handshake config false due driver sink monitor false false false bus risings)
    (time : Nat) : Handshake config false time driver sink monitor false false false bus risings := by
  have together := here.together
  have noSend : driverPending false bus driver = 0 := by
    have at' := here.driverAt
    cases driver with
    | withdraw stalls => exact absurd at'.2.2.1 (by simp)
    | _ => rfl
  have noReceive : sinkPending false bus sink = 0 := by
    have at' := here.sinkAt
    cases sink with
    | lower value => exact absurd at'.2.1 (by simp)
    | _ => rfl
  rw [noSend, noReceive] at together
  exact { here with together := by rw [noSend, noReceive]; exact together }

/-- Whether a task runs at an edge. -/
def wakes (config : StreamConfig) (edge : Wait) (frame : StreamFrame V) : Bool :=
  config.wait frame == edge

/-- A rising edge. -/
theorem Handshake.rise (edge : config.sampleEdge = .rising)
    (here : Handshake config false due driver sink monitor false false false bus risings) (next : Nat) :
    Handshake config true next driver sink monitor (config.wakes .rising driver)
      (config.wakes .rising sink) (config.wakes .rising monitor) bus (bus :: risings) := by
  have sent := here.sent
  have received := here.received
  have together := here.together
  have published := here.published
  have bound := here.transfers_le
  rw [monitorPending_low, Nat.sub_zero] at published
  -- after a falling edge every line is high exactly while its task waits for the rising edge
  have driverLine : DriverAt true (config.wakes .rising driver) bus (bus :: risings) driver ∧
      driverPending false bus driver = 0 ∧
        driverPending true bus driver = (moving true bus).toNat := by
    have at' := here.driverAt
    cases driver with
    | idle =>
        obtain ⟨-, low, last, none⟩ := at'
        refine ⟨⟨rfl, low, last, ?_⟩, rfl, ?_⟩
        · rw [stalledAt_cons, none]
          simp [low]
        · simp [driverPending, moving, low]
    | drive value stalls =>
        obtain ⟨sending, -, raised⟩ := at'
        have low : bus.valid = false := by
          cases valid : bus.valid with
          | false => rfl
          | true => rcases raised valid with ⟨none, -⟩ | none <;> cases none
        refine ⟨⟨⟨sending.last, sending.current, sending.data, ?_⟩, by simp [wakes, wait],
          fun high => by simp [low] at high⟩, rfl, ?_⟩
        · rw [stalledAt_cons]
          simpa [low] using sending.counted
        · simp [driverPending, moving, low]
    | offer value stalls =>
        obtain ⟨sending, valid, -⟩ := at'
        refine ⟨⟨⟨sending.last, sending.current, sending.data, ?_⟩, valid, by simp [wakes, wait]⟩, rfl, rfl⟩
        have counted := sending.counted
        rw [stalledAt_cons, UInt32.ofNat_add, counted]
        cases bus.ready <;> simp [valid]
    | decide value stalls => exact absurd at'.2.2 Bool.false_ne_true
    | withdraw stalls => exact absurd at'.2.2.1 (by simp)
    | _ => exact at'.elim
  have sinkLine : SinkAt true (config.wakes .rising sink) bus sink ∧ sinkPending false bus sink = 0 ∧
      sinkPending true bus sink = (moving true bus).toNat := by
    have at' := here.sinkAt
    cases sink with
    | idle => exact ⟨⟨rfl, at'.2⟩, rfl, by simp [sinkPending, moving, at'.2]⟩
    | raise =>
        have low : bus.ready = false := by
          cases ready : bus.ready with
          | false => rfl
          | true => rcases at'.2 ready with ⟨none, -⟩ | none <;> cases none
        exact ⟨⟨by simp [wakes, wait], fun high => by simp [low] at high⟩, rfl,
          by simp [sinkPending, moving, low]⟩
    | listen => exact ⟨⟨at'.1, by simp [wakes, wait]⟩, rfl, rfl⟩
    | accept => exact absurd at'.2 Bool.false_ne_true
    | lower value => exact absurd at'.2.1 (by simp)
    | _ => exact at'.elim
  rw [driverLine.2.1] at sent together
  rw [sinkLine.2.1] at received together
  refine
    { driverAt := driverLine.1
      sinkAt := sinkLine.1
      monitorAt := ?_
      sent := ?_
      received := ?_
      together := ?_
      values := here.values
      stalls := fun index entry found => ?_
      older := fun rising member => ?_
      published := ?_ }
  · have at' := here.monitorAt
    cases monitor with
    | idle => exact ⟨rfl, at'.2⟩
    | watch received => exact ⟨fun _ => rfl, at'.2⟩
    | inspect received => exact absurd at'.1 Bool.false_ne_true
    | _ => exact at'.elim
  · rw [transfers_cons, driverLine.2.2, sent]
    omega
  · rw [transfers_cons, sinkLine.2.2, received]
    omega
  · rw [driverLine.2.2, sinkLine.2.2]
    simp only [List.replicate_zero, List.append_nil] at together
    rw [together]
  · rw [here.stalls index entry found, stalledAt_cons]
    have inside := (List.getElem?_eq_some_iff.mp found).1
    have other : ¬bus.returns.length = index := by omega
    simp [other]
  · rcases List.mem_cons.mp member with rfl | member
    · exact le_refl _
    · exact here.older rising member
  · rw [transfers_cons]
    have at' := here.monitorAt
    cases monitor with
    | idle =>
        have full := at'.2
        rw [published, List.length_take] at full
        rw [published]
        congr 1
        simp only [monitorPending]
        omega
    | watch received =>
        rw [published]
        simp [monitorPending, wakes, wait, edge]
    | inspect received => exact absurd at'.1 Bool.false_ne_true
    | _ => exact at'.elim

/-- A transfer that is not published yet has not returned on either side. -/
theorem Handshake.monitorPending_le
    (here : Handshake config level due driver sink monitor driverRuns sinkRuns monitorRuns bus risings) :
    monitorPending level bus monitorRuns monitor ≤ driverPending level bus driver ∧
      monitorPending level bus monitorRuns monitor ≤ sinkPending level bus sink := by
  have atMost : monitorPending level bus monitorRuns monitor ≤ (moving level bus).toNat := by
    cases monitor with
    | watch received => cases monitorRuns <;> simp [monitorPending]
    | inspect received => exact le_refl _
    | _ => exact Nat.zero_le _
  by_cases moves : moving level bus = true
  · obtain ⟨⟨rfl, valid⟩, ready⟩ : (level = true ∧ bus.valid = true) ∧ bus.ready = true := by
      simpa [moving] using moves
    rw [(driver_moving here.driverAt valid ready).1, sink_moving here.sinkAt valid ready]
    rw [moves] at atMost
    exact ⟨atMost, atMost⟩
  · simp only [moves, Bool.toNat_false] at atMost
    omega

/-- A falling edge, with no task in its delay. -/
theorem Handshake.fall (edge : config.sampleEdge = .rising)
    (here : Handshake config true due driver sink monitor false false false bus risings)
    (driverSampled : ∀ value stalls, driver ≠ .decide value stalls) (sinkSampled : sink ≠ .accept)
    (monitorSampled : ∀ received, monitor ≠ .inspect received) :
    Handshake config false due driver sink monitor (config.wakes .falling driver)
      (config.wakes .falling sink) (config.wakes .falling monitor) bus risings := by
  have driverLine : DriverAt false (config.wakes .falling driver) bus risings driver ∧
      driverPending false bus driver = driverPending true bus driver := by
    have at' := here.driverAt
    cases driver with
    | idle => exact ⟨⟨rfl, at'.2⟩, rfl⟩
    | drive value stalls => exact ⟨⟨at'.1, fun _ => rfl, fun _ => .inr (by simp [wakes, wait])⟩, rfl⟩
    | offer value stalls => exact absurd at'.2.2 (by simp)
    | decide value stalls => exact absurd rfl (driverSampled value stalls)
    | withdraw stalls => exact ⟨⟨at'.1, at'.2.1, by simp [wakes, wait], by simp⟩, rfl⟩
    | _ => exact at'.elim
  have sinkLine : SinkAt false (config.wakes .falling sink) bus sink ∧
      sinkPending false bus sink = sinkPending true bus sink := by
    have at' := here.sinkAt
    cases sink with
    | idle => exact ⟨⟨rfl, at'.2⟩, rfl⟩
    | raise => exact ⟨⟨fun _ => rfl, fun _ => .inr (by simp [wakes, wait])⟩, rfl⟩
    | listen => exact absurd at'.2 (by simp)
    | accept => exact absurd rfl sinkSampled
    | lower value =>
        exact ⟨⟨at'.1, by simp [wakes, wait], by simp, at'.2.2.2⟩, rfl⟩
    | _ => exact at'.elim
  refine { here with driverAt := driverLine.1, sinkAt := sinkLine.1, monitorAt := ?_, sent := ?_,
                     received := ?_, together := ?_, published := ?_ }
  · have at' := here.monitorAt
    cases monitor with
    | idle => exact ⟨rfl, at'.2⟩
    | watch received => exact ⟨fun runs => by simp [wakes, wait, edge] at runs, at'.2⟩
    | inspect received => exact absurd rfl (monitorSampled received)
    | _ => exact at'.elim
  · rw [driverLine.2]
    exact here.sent
  · rw [sinkLine.2]
    exact here.received
  · rw [driverLine.2, sinkLine.2]
    exact here.together
  · have published := here.published
    rw [monitorPending_low]
    cases monitor with
    | inspect received => exact absurd rfl (monitorSampled received)
    | _ => simpa [monitorPending] using published

/-- While no task runs, both sides have the transfer of the high phase pending, if there is one, and nothing
else. -/
theorem Handshake.settled
    (here : Handshake config level due driver sink monitor false false false bus risings) :
    driverPending level bus driver = (moving level bus).toNat ∧
      sinkPending level bus sink = (moving level bus).toNat ∧
      monitorPending level bus false monitor ≤ (moving level bus).toNat := by
  have atMost : monitorPending level bus false monitor ≤ (moving level bus).toNat := by
    cases monitor <;> simp [monitorPending]
  refine ⟨?_, ?_, atMost⟩
  · have at' := here.driverAt
    cases level with
    | false =>
        cases driver with
        | withdraw stalls => exact absurd at'.2.2.1 (by simp)
        | _ => rfl
    | true =>
        by_cases moves : moving true bus = true
        · have both : bus.valid = true ∧ bus.ready = true := by simpa [moving] using moves
          rw [(driver_moving at' both.1 both.2).1, moves]
          rfl
        · cases driver with
          | withdraw stalls =>
              refine absurd ?_ moves
              simp [moving, at'.2.1, at'.2.2.2 rfl]
          | _ => simp [driverPending, moves]
  · have at' := here.sinkAt
    cases level with
    | false =>
        cases sink with
        | lower value => exact absurd at'.2.1 (by simp)
        | _ => rfl
    | true =>
        by_cases moves : moving true bus = true
        · have both : bus.valid = true ∧ bus.ready = true := by simpa [moving] using moves
          rw [sink_moving at' both.1 both.2, moves]
          rfl
        · cases sink with
          | lower value =>
              refine absurd ?_ moves
              simp [moving, at'.1, at'.2.2.1 rfl]
          | _ => simp [sinkPending, moves]

end Edges

/-- What the calls have done agrees with the transfers of the signals. -/
structure ExactlyOnce (config : StreamConfig) (s : State StreamParty (StreamFrame V) (StreamBus V)) : Prop where
  /-- The k-th receive returns the k-th sent value. -/
  inOrder : s.shared.receipts.map Prod.snd = s.shared.sends.take s.shared.receipts.length
  sent : s.shared.receipts.length ≤ s.shared.sends.length
  /-- The k-th send returns at the time of the k-th receive, -/
  together : ∀ (k : Nat) (sent : Nat × UInt32) (received : Nat × V), s.shared.returns[k]? = some sent →
    s.shared.receipts[k]? = some received → sent.1 = received.1
  /-- and neither returns without the other. -/
  both : Settled s → s.shared.returns.map Prod.fst = s.shared.receipts.map Prod.fst
  /-- The stalls of the k-th send. -/
  stalls : ∀ (k : Nat) (sent : Nat × UInt32), s.shared.returns[k]? = some sent →
    sent.2 = UInt32.ofNat (stalledAt s.risings k)
  /-- Every value is published once, in order, at the latest when its send or its receive returns. -/
  published : ∃ n, s.shared.observed = s.shared.sends.take (min config.transactions n) ∧
    s.shared.returns.length ≤ n ∧ s.shared.receipts.length ≤ n ∧ n ≤ transfers s.risings
  /-- While the clock is low, every rising edge with both lines high has led to a return on both sides. -/
  complete : Settled s → s.level = false →
    s.shared.returns.length = transfers s.risings ∧ s.shared.receipts.length = transfers s.risings

/-! ### Runs -/

section Runs

variable {config : StreamConfig} {s t : State StreamParty (StreamFrame V) (StreamBus V)}

/-- The invariant of a state. -/
def Shakes (config : StreamConfig) (s : State StreamParty (StreamFrame V) (StreamBus V)) : Prop :=
  Handshake config s.level (if s.level then s.edge else s.now) (s.tasks .driver).frame (s.tasks .sink).frame
    (s.tasks .monitor).frame (s.tasks .driver).runnable (s.tasks .sink).runnable
    (s.tasks .monitor).runnable s.shared s.risings

theorem wait_eq_delay {frame : StreamFrame V} {span : Nat} (edge : config.sampleEdge = .rising)
    (delayed : config.wait frame = .delay span) :
    (∃ value stalls, frame = .decide value stalls ∧ span = config.driverDelay) ∨
      frame = .accept ∧ span = config.sinkDelay ∨
        ∃ received, frame = .inspect received ∧ span = config.monitorDelay := by
  cases frame <;> simp_all [wait]

/-- Sampling ends a delay. -/
theorem wait_sampleReady (value : V) (stalls : UInt32) (bus : StreamBus V) :
    config.wait (sampleReady value stalls bus) = .falling := by
  unfold sampleReady
  split <;> rfl

theorem wait_sampleValid (bus : StreamBus V) : config.wait (sampleValid bus) = .falling := by
  unfold sampleValid
  split <;> rfl

theorem wait_sampleTransfer (edge : config.sampleEdge = .rising) (received : Nat) (bus : StreamBus V)
    (span : Nat) : config.wait (config.sampleTransfer received bus).1 ≠ .delay span := by
  unfold sampleTransfer more
  split
  · simp [wait, edge]
  · simp only
    split <;> simp [wait, edge]

/-- The components sample after rising edges. -/
theorem sampling (short : config.Short) (edge : config.sampleEdge = .rising) :
    (config.program : Program StreamParty (StreamFrame V) _ _ _).Sampling where
  positive := lt_of_le_of_lt (Nat.zero_le _) short.driver
  delays party now frame bus span delayed := by
    change config.wait (config.resume party now frame bus).1 = _ at delayed
    cases party with
    | driver =>
        cases frame with
        | offer value stalls =>
            refine ⟨rfl, ?_⟩
            simp only [resume, send] at delayed
            split at delayed
            · cases delayed
              exact short.driver
            · rw [wait_sampleReady] at delayed
              cases delayed
        | decide value stalls =>
            simp only [resume, send, wait_sampleReady] at delayed
            cases delayed
        | _ => cases delayed
    | sink =>
        cases frame with
        | listen =>
            refine ⟨rfl, ?_⟩
            simp only [resume, receive] at delayed
            split at delayed
            · cases delayed
              exact short.sink
            · rw [wait_sampleValid] at delayed
              cases delayed
        | accept =>
            simp only [resume, receive, wait_sampleValid] at delayed
            cases delayed
        | _ => cases delayed
    | monitor =>
        cases frame with
        | watch received =>
            refine ⟨by simp [program, wait, edge], ?_⟩
            simp only [resume, run] at delayed
            split at delayed
            · cases delayed
              exact short.monitor
            · exact absurd delayed (wait_sampleTransfer edge received bus span)
        | inspect received => exact absurd delayed (wait_sampleTransfer edge received bus span)
        | _ => cases delayed
  entries party call frame bus next span entered := by
    cases party <;> cases call <;> cases frame <;> simp [program, enter] at entered <;> subst entered <;>
      simp [program, wait]

theorem timely (short : config.Short) (edge : config.sampleEdge = .rising) (reach : config.Reaches s) :
    Timely config.program s := by
  refine timely_of_reach (sampling short edge) (fun s starts => ?_) reach
  obtain ⟨data, before, -, -, quiet, driver, sink, monitor⟩ := starts
  have notDelayed : ∀ party span, config.wait (s.tasks party).frame ≠ .delay span := by
    intro party span
    cases party with
    | driver => rw [driver]; simp [wait]
    | sink => rw [sink]; simp [wait]
    | monitor =>
        rw [monitor, more]
        split <;> simp [wait, edge]
  refine ⟨before, fun party runs => ?_, fun party span delayed => absurd delayed (notDelayed party span),
    fun party due atTime => ?_, fun party _ => (quiet party).2⟩
  · rw [(quiet party).1] at runs
    cases runs
  · rw [(quiet party).2] at atTime
    cases atTime

/-- Whether a task runs behind an edge at which nothing else could run. -/
theorem runs_atEdge (settled : Settled s) (level : Bool) (party : StreamParty) :
    (config.program.atEdge level s.tasks party).runnable =
      config.wakes (Program.edgeOf level) (s.tasks party).frame := by
  have quiet := settled party
  have woken := @Program.atEdge_runnable _ _ _ _ _ _ (config.program (V := V)) level s.tasks party
  rw [quiet] at woken
  rw [Bool.eq_iff_iff, woken, wakes, beq_iff_eq]
  simp [program]

/-- A driver runs. -/
theorem Shakes.runDriver (shakes : Shakes config s) (runs : (s.tasks .driver).runnable = true) :
    Handshake config s.level (if s.level then s.edge else s.now)
      (config.send s.now (s.tasks .driver).frame s.shared).1 (s.tasks .sink).frame (s.tasks .monitor).frame
      false (s.tasks .sink).runnable (s.tasks .monitor).runnable
      (config.send s.now (s.tasks .driver).frame s.shared).2 s.risings := by
  unfold Shakes at shakes
  rw [runs] at shakes
  have at' := shakes.driverAt
  generalize (s.tasks .driver).frame = driver at *
  generalize s.shared = bus at *
  cases driver with
  | idle => cases at'.1
  | drive value stalls =>
      have low : s.level = false := at'.2.1 rfl
      rw [low] at shakes ⊢
      exact shakes.drive
  | offer value stalls =>
      have high : s.level = true := at'.2.2.symm
      rw [high] at shakes ⊢
      simp only [send]
      by_cases delayed : config.driverDelay ≠ 0
      · rw [if_pos delayed]
        exact shakes.delaySend
      · rw [if_neg delayed]
        have decided : Handshake _ _ _ (.decide value stalls) _ _ true _ _ _ _ := shakes.delaySend
        exact decided.sampleReady
  | decide value stalls =>
      have high : s.level = true := at'.2.2
      rw [high] at shakes ⊢
      exact shakes.sampleReady
  | withdraw stalls =>
      have low : s.level = false := by
        cases level : s.level with
        | false => rfl
        | true => simp [DriverAt, level] at at'
      rw [low] at shakes ⊢
      exact shakes.withdraw
  | _ => exact at'.elim

/-- A sink runs. -/
theorem Shakes.runSink (shakes : Shakes config s) (runs : (s.tasks .sink).runnable = true) :
    Handshake config s.level (if s.level then s.edge else s.now) (s.tasks .driver).frame
      (config.receive s.now (s.tasks .sink).frame s.shared).1 (s.tasks .monitor).frame
      (s.tasks .driver).runnable false (s.tasks .monitor).runnable
      (config.receive s.now (s.tasks .sink).frame s.shared).2 s.risings := by
  unfold Shakes at shakes
  rw [runs] at shakes
  have at' := shakes.sinkAt
  generalize (s.tasks .sink).frame = sink at *
  generalize s.shared = bus at *
  cases sink with
  | idle => cases at'.1
  | raise =>
      have low : s.level = false := at'.1 rfl
      rw [low] at shakes ⊢
      exact shakes.raise
  | listen =>
      have high : s.level = true := at'.2.symm
      rw [high] at shakes ⊢
      simp only [StreamConfig.receive]
      by_cases delayed : config.sinkDelay ≠ 0
      · rw [if_pos delayed]
        exact shakes.delayReceive
      · rw [if_neg delayed]
        have accepted : Handshake _ _ _ _ .accept _ _ true _ _ _ := shakes.delayReceive
        exact accepted.sampleValid
  | accept =>
      have high : s.level = true := at'.2
      rw [high] at shakes ⊢
      exact shakes.sampleValid
  | lower value =>
      have low : s.level = false := by
        cases level : s.level with
        | false => rfl
        | true => simp [SinkAt, level] at at'
      rw [low] at shakes ⊢
      exact shakes.lower
  | _ => exact at'.elim

/-- A monitor runs. -/
theorem Shakes.runMonitor (shakes : Shakes config s) (runs : (s.tasks .monitor).runnable = true) :
    Handshake config s.level (if s.level then s.edge else s.now) (s.tasks .driver).frame
      (s.tasks .sink).frame (config.run (s.tasks .monitor).frame s.shared).1 (s.tasks .driver).runnable
      (s.tasks .sink).runnable false (config.run (s.tasks .monitor).frame s.shared).2 s.risings := by
  unfold Shakes at shakes
  rw [runs] at shakes
  have at' := shakes.monitorAt
  generalize (s.tasks .monitor).frame = monitor at *
  generalize s.shared = bus at *
  cases monitor with
  | idle => cases at'.1
  | watch received =>
      have high : s.level = true := at'.1 rfl
      rw [high] at shakes ⊢
      simp only [StreamConfig.run]
      by_cases delayed : config.monitorDelay ≠ 0
      · rw [if_pos delayed]
        exact shakes.delayRun
      · rw [if_neg delayed]
        have inspected : Handshake _ _ _ _ _ (.inspect received) _ _ true _ _ := shakes.delayRun
        exact inspected.sampleTransfer
  | inspect received =>
      have high : s.level = true := at'.1
      rw [high] at shakes ⊢
      exact shakes.sampleTransfer
  | _ => exact at'.elim

/-- **One step.** -/
theorem Shakes.step (edge : config.sampleEdge = .rising) (timely : Timely config.program s)
    (shakes : Shakes config s) {a : Clocked.Action StreamParty (StreamCall V) Unit} (allowed : Program.Allowed s a)
    (stepped : config.program.step s a = some t) : Shakes config t := by
  cases a with
  | advance time inputs =>
      obtain ⟨settled, -⟩ := allowed
      cases stepped
      unfold Shakes at shakes ⊢
      simp only [settled .driver, settled .sink, settled .monitor] at shakes ⊢
      cases level : s.level with
      | true =>
          rw [level] at shakes
          exact shakes
      | false =>
          rw [level] at shakes
          exact shakes.later time
  | clock =>
      obtain ⟨settled, here⟩ := allowed
      cases stepped
      unfold Shakes at shakes ⊢
      simp only [settled .driver, settled .sink, settled .monitor] at shakes
      simp only [runs_atEdge settled, Program.atEdge_frame]
      cases level : s.level with
      | false =>
          rw [level] at shakes
          exact shakes.rise edge _
      | true =>
          rw [level, if_pos rfl, ← here] at shakes
          have sampled := fun party span => timely.no_delay_at_edge settled here party span
          refine shakes.fall edge (fun value stalls same => ?_) (fun same => ?_) fun received same => ?_
          · exact sampled .driver config.driverDelay (by rw [same]; rfl)
          · exact sampled .sink config.sinkDelay (by rw [same]; rfl)
          · exact sampled .monitor config.monitorDelay (by rw [same]; rfl)
  | timer party =>
      obtain ⟨ended, rfl⟩ := Program.step_timer stepped
      obtain ⟨-, span, delayed, -⟩ := timely.due party s.now ended
      have frames := wait_eq_delay edge delayed
      unfold Shakes at shakes ⊢
      -- in a delay the invariant does not depend on whether the task runs
      cases party with
      | driver =>
          simp only [Function.update_self, Function.update_of_ne (by decide : StreamParty.sink ≠ .driver),
            Function.update_of_ne (by decide : StreamParty.monitor ≠ .driver)]
          rcases frames with ⟨value, stalls, same, -⟩ | ⟨same, -⟩ | ⟨received, same, -⟩
          · rw [same] at shakes ⊢
            exact { shakes with }
          · have at' := shakes.driverAt
            rw [same] at at'
            exact at'.elim
          · have at' := shakes.driverAt
            rw [same] at at'
            exact at'.elim
      | sink =>
          simp only [Function.update_self, Function.update_of_ne (by decide : StreamParty.driver ≠ .sink),
            Function.update_of_ne (by decide : StreamParty.monitor ≠ .sink)]
          rcases frames with ⟨value, stalls, same, -⟩ | ⟨same, -⟩ | ⟨received, same, -⟩
          · have at' := shakes.sinkAt
            rw [same] at at'
            exact at'.elim
          · rw [same] at shakes ⊢
            exact { shakes with }
          · have at' := shakes.sinkAt
            rw [same] at at'
            exact at'.elim
      | monitor =>
          simp only [Function.update_self, Function.update_of_ne (by decide : StreamParty.driver ≠ .monitor),
            Function.update_of_ne (by decide : StreamParty.sink ≠ .monitor)]
          rcases frames with ⟨value, stalls, same, -⟩ | ⟨same, -⟩ | ⟨received, same, -⟩
          · have at' := shakes.monitorAt
            rw [same] at at'
            exact at'.elim
          · have at' := shakes.monitorAt
            rw [same] at at'
            exact at'.elim
          · rw [same] at shakes ⊢
            exact { shakes with }
  | run party =>
      obtain ⟨runs, rfl⟩ := Program.step_run stepped
      unfold Shakes
      simp only [program, Program.wakeAll_nil]
      cases party with
      | driver =>
          simp only [Function.update_self, Function.update_of_ne (by decide : StreamParty.sink ≠ .driver),
            Function.update_of_ne (by decide : StreamParty.monitor ≠ .driver)]
          exact shakes.runDriver runs
      | sink =>
          simp only [Function.update_self, Function.update_of_ne (by decide : StreamParty.driver ≠ .sink),
            Function.update_of_ne (by decide : StreamParty.monitor ≠ .sink)]
          exact shakes.runSink runs
      | monitor =>
          simp only [Function.update_self, Function.update_of_ne (by decide : StreamParty.driver ≠ .monitor),
            Function.update_of_ne (by decide : StreamParty.sink ≠ .monitor)]
          exact shakes.runMonitor runs
  | start party call =>
      obtain ⟨next, entered, rfl⟩ := Program.step_start stepped
      unfold Shakes at shakes ⊢
      change enter party call (s.tasks party).frame s.shared = some next at entered
      cases party with
      | driver =>
          simp only [Function.update_self, Function.update_of_ne (by decide : StreamParty.sink ≠ .driver),
            Function.update_of_ne (by decide : StreamParty.monitor ≠ .driver)]
          generalize (s.tasks .driver).frame = driver at *
          cases call <;> cases driver <;> cases entered
          exact shakes.send _
      | sink =>
          simp only [Function.update_self, Function.update_of_ne (by decide : StreamParty.driver ≠ .sink),
            Function.update_of_ne (by decide : StreamParty.monitor ≠ .sink)]
          generalize (s.tasks .sink).frame = sink at *
          cases call <;> cases sink <;> cases entered
          exact shakes.receive
      | monitor => cases call <;> cases entered

/-- Before the first edge. -/
theorem Starts.shakes (edge : config.sampleEdge = .rising) (starts : config.Starts s) : Shakes config s := by
  obtain ⟨data, before, fresh, bus, quiet, driver, sink, monitor⟩ := starts
  have watching : MonitorAt config s.level false ({ data := data } : StreamBus V) (config.more 0) ∧
      monitorPending s.level ({ data := data } : StreamBus V) false (config.more 0) = 0 := by
    unfold more
    split
    · rename_i some
      exact ⟨⟨by simp, rfl, some⟩, rfl⟩
    · exact ⟨⟨rfl, by simp; omega⟩, rfl⟩
  unfold Shakes
  rw [driver, sink, monitor, (quiet .driver).1, (quiet .sink).1, (quiet .monitor).1, bus, fresh]
  refine
    { driverAt := ⟨rfl, rfl, rfl, rfl⟩
      sinkAt := ⟨rfl, rfl⟩
      monitorAt := watching.1
      sent := rfl
      received := rfl
      together := rfl
      values := rfl
      stalls := by simp
      older := by simp
      published := by simp }

/-- **Every reachable state.** -/
theorem shakes (short : config.Short) (edge : config.sampleEdge = .rising) (reach : config.Reaches s) :
    Shakes config s :=
  Runs.Reach.invariant_of (fun _ before => timely short edge before) (fun _ starts => starts.shakes edge)
    (fun _ _ _ timely _ shakes allowed stepped => shakes.step edge timely allowed stepped) reach

/-- **Ready/valid transfers are exactly once and in order.** -/
theorem transfers_exactly_once (short : config.Short) (edge : config.sampleEdge = .rising)
    (reach : config.Reaches s) : config.ExactlyOnce s := by
  have here := shakes short edge reach
  have received := here.received
  have sent := here.sent
  have bound := here.transfers_le
  have quiet : Settled s →
      driverPending s.level s.shared (s.tasks .driver).frame = (moving s.level s.shared).toNat ∧
      sinkPending s.level s.shared (s.tasks .sink).frame = (moving s.level s.shared).toNat := by
    intro settled
    have still := here
    unfold Shakes at still
    rw [settled .driver, settled .sink, settled .monitor] at still
    exact ⟨still.settled.1, still.settled.2.1⟩
  refine
    { inOrder := here.values
      sent := by omega
      together := fun k returned receipt atReturn atReceipt => ?_
      both := fun settled => ?_
      stalls := here.stalls
      published := ⟨_, here.published, ?_, ?_, Nat.sub_le _ _⟩
      complete := fun settled low => ?_ }
  · have times := congrArg (·[k]?) here.together
    have inReturns := (List.getElem?_eq_some_iff.mp atReturn).1
    have inReceipts := (List.getElem?_eq_some_iff.mp atReceipt).1
    rw [List.getElem?_append_left (by simpa using inReturns),
      List.getElem?_append_left (by simpa using inReceipts), List.getElem?_map, List.getElem?_map,
      atReturn, atReceipt] at times
    exact Option.some.inj times
  · have together := here.together
    rw [(quiet settled).1, (quiet settled).2] at together
    exact List.append_cancel_right together
  · have atMost := here.monitorPending_le
    omega
  · have atMost := here.monitorPending_le
    omega
  · have pending := quiet settled
    simp only [low, moving, Bool.false_and, Bool.toNat_false] at pending
    rw [low] at sent received
    omega

/-- Three components with different delays. -/
def mixed : StreamConfig where
  half := 5
  driverDelay := 1
  sinkDelay := 0
  monitorDelay := 2
  transactions := 3

/-- Before the first edge, at time zero. -/
def still : State StreamParty (StreamFrame Nat) (StreamBus Nat) where
  edge := 5
  tasks party := { frame := match party with | .monitor => .watch 0 | _ => .idle }
  shared := { data := 0 }

/-- A send is stalled at one rising edge, until a receive is issued behind it. -/
def stalledSend : List (Clocked.Action StreamParty (StreamCall Nat) Unit) :=
  [.start .driver (.send 7),
    .advance 5 (), .clock, .run .monitor, .advance 7 (), .timer .monitor, .run .monitor,
    .advance 10 (), .clock, .run .driver,
    .advance 15 (), .clock, .run .driver, .run .monitor, .advance 16 (), .timer .driver, .run .driver,
    .start .sink .receive, .advance 17 (), .timer .monitor, .run .monitor,
    .advance 20 (), .clock, .run .sink, .run .driver,
    .advance 25 (), .clock, .run .sink, .run .driver, .run .monitor,
    .advance 26 (), .timer .driver, .run .driver, .advance 27 (), .timer .monitor, .run .monitor,
    .advance 30 (), .clock, .run .driver, .run .sink]

theorem transfers_exactly_once_stalled :
    ∃ s, mixed.Reaches s ∧ s.shared.returns = [(30, 1)] ∧ s.shared.receipts = [(30, 7)] ∧
      s.shared.observed = [7] ∧ mixed.ExactlyOnce s := by
  have ran : (Runs.runAllowed mixed.program.step Program.Allowed still stalledSend).map
      (fun s => (s.shared.returns, s.shared.receipts, s.shared.observed)) =
        some ([(30, 1)], [(30, 7)], [7]) := by
    decide +kernel
  obtain ⟨s, ended, values⟩ := Option.map_eq_some_iff.mp ran
  have starts : mixed.Starts still :=
    ⟨0, by decide, rfl, rfl, fun _ => ⟨rfl, rfl⟩, rfl, rfl, rfl⟩
  have reach : mixed.Reaches s := Runs.Reach.runAllowed (.start starts) stalledSend ended
  exact ⟨s, reach, congrArg Prod.fst values, congrArg (·.2.1) values, congrArg (·.2.2) values,
    transfers_exactly_once ⟨by decide, by decide, by decide⟩ rfl reach⟩

end Runs

end StreamConfig

end Cpptb.Vc
