/-
The DPI runtime and its static bindings: the words of the ports of a design.

* `Adapter`: the ports and the transport tables that are generated for a design.
* `Runtime`: inputs, outputs, clocks and the transport of every word; `init` binds the ports and checks
  the tables.
* `Runtime.get`, `Runtime.set`: what a `coro::Signal` does.
* `StaticRef`: accesses that are resolved when the testbench is compiled.
* `perform`: what the simulator and the testbench do.
-/

import Cpptb.Coro.State

namespace Cpptb.Dpi

open Coro (EdgeKind)
open Function (update)

/-! ### Ports -/

section Ports

/-- `coro::ArrayDimension`. -/
structure ArrayDimension where
  left : ℤ
  right : ℤ
  deriving DecidableEq, Repr

namespace ArrayDimension

def low (d : ArrayDimension) : ℤ := if d.left < d.right then d.left else d.right

def high (d : ArrayDimension) : ℤ := if d.left < d.right then d.right else d.left

def size (d : ArrayDimension) : ℕ := (d.high - d.low).toNat + 1

end ArrayDimension

/-- The generated functions of an on-demand port, for one word. `World` is the state of the design;
`none` is an abort. -/
structure OnDemandPort (World : Type) (width : ℕ) where
  getWords : World → ℕ → Option UInt32
  setWords : Option (World → ℕ → UInt32 → Option World)
  /-- The value is `$unsigned` of a target of this width. -/
  bounded : ∀ {world : World} {offset : ℕ} {value : UInt32},
    getWords world offset = some value → value.toNat < 2 ^ width
  /-- What is assigned to the target is its value. -/
  stored : ∀ {assign : World → ℕ → UInt32 → Option World} {world world' : World} {offset : ℕ}
    {value : UInt32}, setWords = some assign → assign world offset value = some world' →
      value.toNat < 2 ^ width → getWords world' offset = some value

/-- How the words of a port get to the testbench: in the arrays of a step, or on demand. -/
inductive Transport (World : Type) (width : ℕ)
  | packed (offset : ℕ)
  | onDemand (port : OnDemandPort World width)

/-- `StaticPackedSignalSpec`, `StaticOnDemandSignalSpec`, and with dimensions `StaticPackedArraySpec` and
`StaticOnDemandArraySpec`. -/
structure PortSpec (World : Type) where
  width : ℕ
  writable : Bool
  driven : Bool
  id : ℕ
  dimensions : List ArrayDimension
  transport : Transport World width
  positive : 0 < width
  drivable : driven = true → writable = true
  settable : ∀ port, transport = .onDemand port → port.setWords.isSome = writable

namespace PortSpec

variable {World : Type}

/-- `static_array_element_count_v`. -/
def elementCount (dimensions : List ArrayDimension) : ℕ := (dimensions.map ArrayDimension.size).prod

def elementWords (spec : PortSpec World) : ℕ := (spec.width + 31) / 32

def wordCount (spec : PortSpec World) : ℕ := elementCount spec.dimensions * spec.elementWords

end PortSpec

/-- `RegisteredClockConfig`. -/
structure RegisteredClockConfig where
  signalId : ℕ
  periodFs : ℕ
  phaseFs : ℕ
  initialValue : UInt32
  deriving DecidableEq, Repr

/-- What is generated for a design, and how the testbench is built. -/
structure Adapter (World : Type) where
  signalCount : ℕ
  compactInputTransport : Bool
  drivenSignalSpans : List (ℕ × ℕ)
  observedSignalWordIds : List ℕ
  drivenSignalWordIds : List ℕ
  clockSignalIds : Option (List ℕ)
  registeredClockConfigs : List RegisteredClockConfig
  edgeObserverSignalIds : List ℕ
  transportlessEdgeSignalIds : List ℕ
  ports : List (PortSpec World)
  /-- `CPPTB_DEFERRED_WRITES`. -/
  deferredWrites : Bool

end Ports

/-! ### References -/

section References

variable {World : Type}

/-- `StaticPackedRef`. -/
structure StaticPackedRef where
  width : ℕ
  writable : Bool
  driven : Bool
  id : ℕ
  transportOffset : ℕ
  deriving DecidableEq, Repr

/-- `StaticOnDemandRef`. -/
structure StaticOnDemandRef (World : Type) where
  width : ℕ
  writable : Bool
  driven : Bool
  id : ℕ
  wordOffset : ℕ
  getWords : World → ℕ → Option UInt32
  setWords : Option (World → ℕ → UInt32 → Option World)

inductive StaticRef (World : Type)
  | packed (ref : StaticPackedRef)
  | onDemand (ref : StaticOnDemandRef World)

namespace StaticRef

def width : StaticRef World → ℕ
  | .packed ref => ref.width
  | .onDemand ref => ref.width

def writable : StaticRef World → Bool
  | .packed ref => ref.writable
  | .onDemand ref => ref.writable

def id : StaticRef World → ℕ
  | .packed ref => ref.id
  | .onDemand ref => ref.id

end StaticRef

/-- `at` of `StaticPackedFixedArray` and of `StaticOnDemandFixedArray`, index by index: the offsets of
the id and of the transport. An index out of bounds aborts. -/
def arrayAt (elementWords : ℕ) : List ArrayDimension → ℕ → ℕ → List ℤ → Option (ℕ × ℕ)
  | [], idOffset, transportOffsetDelta, [] => some (idOffset, transportOffsetDelta)
  | dimension :: remaining, idOffset, transportOffsetDelta, index :: indices =>
    if dimension.low ≤ index ∧ index ≤ dimension.high then
      let strideWords := elementWords * PortSpec.elementCount remaining
      let offset := (index - dimension.low).toNat * strideWords
      arrayAt elementWords remaining (idOffset + offset) (transportOffsetDelta + offset) indices
    else none
  | _, _, _, _ => none

/-- The reference to an element of a port; a single signal is its own element. -/
def PortSpec.ref (spec : PortSpec World) (indices : List ℤ) : Option (StaticRef World) :=
  (arrayAt spec.elementWords spec.dimensions 0 0 indices).map fun found =>
    match spec.transport with
    | .packed offset => .packed {
        width := spec.width, writable := spec.writable, driven := spec.driven,
        id := spec.id + found.1, transportOffset := offset + found.2 }
    | .onDemand port => .onDemand {
        width := spec.width, writable := spec.writable, driven := spec.driven,
        id := spec.id + found.1, wordOffset := found.2,
        getWords := port.getWords, setWords := port.setWords }

/-- An element: a port, and the indices of the element. -/
structure Element where
  port : ℕ
  indices : List ℤ
  deriving DecidableEq, Repr

def Adapter.ref (adapter : Adapter World) (element : Element) : Option (StaticRef World) :=
  adapter.ports[element.port]?.bind fun spec => spec.ref element.indices

end References

/-! ### The runtime -/

section Runtimes

/-- How a call ends without a result. -/
inductive Failure
  | aborted
  | outOfBounds
  deriving DecidableEq, Repr

/-- `CallbackPhase`. -/
inductive CallbackPhase
  | evaluation
  | readWrite
  | readOnly
  | nextTimeStep
  deriving DecidableEq, Repr

/-- The edges that tasks wait for, and those that were notified. -/
structure Scheduler where
  hasEdgeInterest : ℕ → EdgeKind → Bool := fun _ _ => false
  notifications : List (ℕ × EdgeKind) := []

/-- `notify_edge`. -/
def Scheduler.notifyEdge (scheduler : Scheduler) (id : ℕ) (edge : EdgeKind) : Scheduler :=
  { scheduler with notifications := scheduler.notifications ++ [(id, edge)] }

/-- `RegisteredClock`. -/
structure RegisteredClock where
  signalId : ℕ
  halfPeriodTicks : ℕ
  phaseTicks : ℕ
  primary : Bool
  deriving DecidableEq, Repr

/-- What a `StaticBindingContext` does not share with its runtime: the input view, and whether there is
a scheduler. -/
structure StaticBindingContext where
  currentInputs : Option (List UInt32) := none
  scheduler : Bool := false
  deriving DecidableEq, Repr

/-- A `DpiCallbackScope`, and for a step an `InputViewScope`, with what they restore. -/
inductive Scope
  | callback (previousPhase : CallbackPhase)
  | step (previousPhase : CallbackPhase) (previousInputs : Option (List UInt32))
  deriving DecidableEq, Repr

/-- A write that waits for the ReadWrite phase. -/
inductive DeferredWrite (World : Type)
  | scalar (ref : StaticRef World) (value : UInt32)
  | wide (ref : StaticPackedRef) (words : ℕ → UInt32)

/-- The tables that `init` fills, by the ids of the words. A missing offset is `kNoTransportOffset`. -/
structure Tables (World : Type) where
  driven : ℕ → Bool := fun _ => false
  edgeObserver : ℕ → Bool := fun _ => false
  localEdgeCapable : ℕ → Bool := fun _ => false
  observedTransportOffsets : ℕ → Option ℕ := fun _ => none
  onDemandGetWords : ℕ → Option (World → ℕ → Option UInt32) := fun _ => none
  onDemandSetWords : ℕ → Option (World → ℕ → UInt32 → Option World) := fun _ => none
  onDemandBaseIds : ℕ → ℕ := fun _ => 0
  localEdgeDeliveryEnabled : Bool := false

/-- `Runtime`, with the state of the design and of the callbacks. -/
structure Runtime (World : Type) extends Tables World where
  inputs : ℕ → UInt32 := fun _ => 0
  outputs : ℕ → UInt32 := fun _ => 0
  configuredClock : ℕ → Bool := fun _ => false
  testbenchClock : ℕ → Bool := fun _ => false
  currentInputs : Option (List UInt32) := none
  outputsDirty : Bool := false
  accessViolation : Bool := false
  registeredClocks : List RegisteredClock := []
  timeprecisionFs : ℕ := 1
  clockRegistrationOpen : Bool := false
  scheduler : Option Scheduler := none
  deferredWrites : List (DeferredWrite World) := []
  staticBinding : StaticBindingContext := {}
  phase : CallbackPhase := .evaluation
  scopes : List Scope := []
  world : World

end Runtimes

/-! ### Initialisation -/

section Initialisation

variable {World : Type}

def require (condition : Prop) [Decidable condition] : Except Failure Unit :=
  if condition then .ok () else .error .aborted

/-- A loop over the words of a span. -/
def fillSpan {α : Type} (table : ℕ → α) (id count : ℕ) (value : α) : ℕ → α :=
  (List.range count).foldl (fun table word => update table (id + word) value) table

/-- The loop over the driven spans. -/
def markDriven (adapter : Adapter World) : Except Failure (ℕ → Bool) :=
  adapter.drivenSignalSpans.foldlM (fun driven span => do
    require (span.1 ≤ adapter.signalCount ∧ span.2 ≤ adapter.signalCount - span.1)
    pure (fillSpan driven span.1 span.2 true)) fun _ => false

/-- The loops over the clocks and over the edge observers. -/
def markIds (adapter : Adapter World) (ids : List ℕ) : Except Failure (ℕ → Bool) :=
  ids.foldlM (fun marked id => do
    require (id < adapter.signalCount)
    pure (update marked id true)) fun _ => false

/-- `register_static_metadata`. -/
def registerStaticMetadata (adapter : Adapter World) (tables : Tables World) (spec : PortSpec World) :
    Except Failure Unit := do
  require (spec.id ≤ adapter.signalCount ∧ spec.wordCount ≤ adapter.signalCount - spec.id)
  require (∀ word < spec.wordCount, tables.driven (spec.id + word) = spec.driven)

/-- `validate_static_packed_binding`. -/
def validateStaticPackedBinding (adapter : Adapter World) (spec : PortSpec World) (offset : ℕ) :
    Except Failure Unit := do
  let ids := if spec.driven then adapter.drivenSignalWordIds else adapter.observedSignalWordIds
  require (offset ≤ ids.length ∧ spec.wordCount ≤ ids.length - offset)
  require (∀ word < spec.wordCount, ids[offset + word]? = some (spec.id + word))

/-- A turn of `register_on_demand`. -/
def registerOnDemandWord (id : ℕ) (getWords : World → ℕ → Option UInt32)
    (setWords : Option (World → ℕ → UInt32 → Option World)) (tables : Tables World) (word : ℕ) :
    Except Failure (Tables World) := do
  let wordId := id + word
  require ((tables.onDemandGetWords wordId).isNone ∧ tables.driven wordId = setWords.isSome)
  pure { tables with
    onDemandGetWords := update tables.onDemandGetWords wordId (some getWords)
    onDemandSetWords := update tables.onDemandSetWords wordId setWords
    onDemandBaseIds := update tables.onDemandBaseIds wordId id }

/-- `register_on_demand`. -/
def registerOnDemand (adapter : Adapter World) (tables : Tables World) (spec : PortSpec World)
    (port : OnDemandPort World spec.width) : Except Failure (Tables World) := do
  require (spec.id ≤ adapter.signalCount ∧ spec.wordCount ≤ adapter.signalCount - spec.id)
  (List.range spec.wordCount).foldlM (registerOnDemandWord spec.id port.getWords port.setWords) tables

/-- The transport of a spec, in `make_signal`. -/
def bindTransport (adapter : Adapter World) (tables : Tables World) (spec : PortSpec World) :
    Except Failure (Tables World) :=
  match spec.transport with
  | .packed offset => do
    validateStaticPackedBinding adapter spec offset
    pure tables
  | .onDemand port => registerOnDemand adapter tables spec port

/-- The elements that can be notified of an edge without the simulator. -/
def markLocalEdges (tables : Tables World) (spec : PortSpec World) : Tables World :=
  if spec.width ≤ 32 then
    { tables with
      localEdgeCapable := fillSpan tables.localEdgeCapable spec.id
        (PortSpec.elementCount spec.dimensions) true }
  else tables

/-- `make_signal`, for the four kinds of static specs. -/
def makeSignal (adapter : Adapter World) (tables : Tables World) (spec : PortSpec World) :
    Except Failure (Tables World) := do
  registerStaticMetadata adapter tables spec
  let tables ← bindTransport adapter tables spec
  pure (markLocalEdges tables spec)

/-- A turn of the loop over the observed words. -/
def observeWord (adapter : Adapter World) (offsets : ℕ → Option ℕ) (turn : ℕ × ℕ) :
    Except Failure (ℕ → Option ℕ) := do
  require (turn.1 < adapter.signalCount ∧ (offsets turn.1).isNone)
  pure (update offsets turn.1 (some turn.2))

/-- A turn of the loop over the driven words, with `validate_transport_word`. -/
def driveWord (adapter : Adapter World) (driven seen : ℕ → Bool) (id : ℕ) :
    Except Failure (ℕ → Bool) := do
  require (id < adapter.signalCount ∧ seen id = false ∧ driven id = true)
  pure (update seen id true)

/-- A turn of the loop over the edges without transport. -/
def transportlessWord (adapter : Adapter World) (seen : ℕ → Bool) (id : ℕ) :
    Except Failure (ℕ → Bool) := do
  require (id < adapter.signalCount ∧ seen id = false)
  pure (update seen id true)

/-- `validate_transport_completeness`. A word is seen when it is observed, driven, on demand or an edge
without transport; `observed_seen` holds where there is an offset. -/
def validateTransportCompleteness (adapter : Adapter World) (tables : Tables World) :
    Except Failure (Tables World) := do
  let offsets ← adapter.observedSignalWordIds.zipIdx.foldlM (observeWord adapter) fun _ => none
  let drivenSeen ← adapter.drivenSignalWordIds.foldlM (driveWord adapter tables.driven) fun _ => false
  let packed : ℕ → Bool := fun id => (offsets id).isSome || drivenSeen id
  require (∀ id < adapter.signalCount, (tables.onDemandGetWords id).isSome → packed id = false)
  let seen ← adapter.transportlessEdgeSignalIds.foldlM (transportlessWord adapter) fun id =>
    packed id || (tables.onDemandGetWords id).isSome
  require (∀ id < adapter.signalCount, seen id = true)
  pure { tables with observedTransportOffsets := offsets }

/-- `init`, up to the registration of the testbench. -/
def Runtime.init (adapter : Adapter World) (runtime : Runtime World) (timeprecisionFs : ℕ) :
    Except Failure (Runtime World) := do
  let driven ← markDriven adapter
  let configuredClock ← markIds adapter (adapter.clockSignalIds.getD [])
  let edgeObserver ← markIds adapter adapter.edgeObserverSignalIds
  let tables ← adapter.ports.foldlM (makeSignal adapter) {
    driven, edgeObserver, localEdgeDeliveryEnabled := adapter.clockSignalIds.isSome }
  let tables ← validateTransportCompleteness adapter tables
  pure { tables with
    configuredClock, timeprecisionFs, clockRegistrationOpen := true, scheduler := some {},
    staticBinding := { scheduler := true }, phase := .evaluation,
    scopes := .callback runtime.phase :: runtime.scopes, world := runtime.world }

/-- `validate_registered_clock_setup`, and the end of `init`. -/
def Runtime.finishInit (adapter : Adapter World) (runtime : Runtime World) :
    Except Failure (Runtime World) := do
  require (∀ expected ∈ adapter.registeredClockConfigs,
    ∃ clock ∈ runtime.registeredClocks, clock.signalId = expected.signalId)
  pure { runtime with clockRegistrationOpen := false }

end Initialisation

/-! ### Signals -/

section Signals

variable {World : Type}

namespace Runtime

/-- `get`. -/
def get (adapter : Adapter World) (runtime : Runtime World) (id : ℕ) : Except Failure UInt32 :=
  if adapter.signalCount ≤ id then .error .aborted
  else
    match runtime.onDemandGetWords id with
    | some getWords =>
      match getWords runtime.world (id - runtime.onDemandBaseIds id) with
      | some value => .ok value
      | none => .error .aborted
    | none =>
      if runtime.driven id && !runtime.configuredClock id then .ok (runtime.outputs id)
      else if adapter.compactInputTransport then
        match runtime.currentInputs with
        | some currentInputs =>
          match runtime.observedTransportOffsets id with
          | none => .error .aborted
          | some offset =>
            match currentInputs[offset]? with
            | some value => .ok value
            | none => .error .outOfBounds
        | none => .ok (runtime.inputs id)
      else .ok (runtime.inputs id)

/-- The edge between two values. -/
def edgeBetween (previous value : UInt32) : EdgeKind :=
  if previous = 0 ∧ value ≠ 0 then .rising
  else if previous ≠ 0 ∧ value = 0 then .falling
  else .any

/-- Notify the edge, if a task waits for it. -/
def notifyInterested (runtime : Runtime World) (id : ℕ) (edge : EdgeKind) : Runtime World :=
  match runtime.scheduler with
  | some scheduler =>
    if scheduler.hasEdgeInterest id edge then
      { runtime with scheduler := some (scheduler.notifyEdge id edge) }
    else runtime
  | none => runtime

/-- `deliver_local_edge`. -/
def deliverLocalEdge (runtime : Runtime World) (id : ℕ) (previous value : UInt32) : Runtime World :=
  if !runtime.localEdgeDeliveryEnabled || runtime.scheduler.isNone || !runtime.localEdgeCapable id ||
      runtime.configuredClock id || runtime.edgeObserver id then runtime
  else runtime.notifyInterested id (edgeBetween previous value)

/-- `require_write_allowed`. -/
def requireWriteAllowed (runtime : Runtime World) : Except Failure Unit :=
  if runtime.scopes = [] ∨ runtime.phase ≠ .readOnly then .ok () else .error .aborted

/-- `set`. -/
def set (adapter : Adapter World) (runtime : Runtime World) (id : ℕ) (value : UInt32) :
    Except Failure (Runtime World) := do
  require (id < adapter.signalCount)
  if runtime.driven id = false then pure { runtime with accessViolation := true }
  else
    runtime.requireWriteAllowed
    match runtime.onDemandSetWords id with
    | some setWords =>
      let previous ← runtime.get adapter id
      if previous = value then pure runtime
      else
        match setWords runtime.world (id - runtime.onDemandBaseIds id) value with
        | some world => pure ({ runtime with world }.deliverLocalEdge id previous value)
        | none => throw .aborted
    | none =>
      let previous := runtime.outputs id
      if previous = value then pure runtime
      else
        pure ({ runtime with
          outputs := update runtime.outputs id value
          outputsDirty := true }.deliverLocalEdge id previous value)

/-- `register_clock`. -/
def registerClock (adapter : Adapter World) (runtime : Runtime World) (id periodFs phaseFs : ℕ) :
    Except Failure (Runtime World) := do
  require (runtime.clockRegistrationOpen = true)
  -- the loop keeps the last configuration of the signal
  let expected := adapter.registeredClockConfigs.reverse.find? (·.signalId = id)
  require (id < adapter.signalCount ∧ (runtime.driven id = true ∨ expected.isSome) ∧
    runtime.localEdgeCapable id = true)
  require (∀ clock ∈ runtime.registeredClocks, clock.signalId ≠ id)
  require (runtime.configuredClock id = false ∨ expected.isSome)
  require (periodFs ≠ 0 ∧ periodFs % 2 = 0)
  require (periodFs / 2 % runtime.timeprecisionFs = 0 ∧ phaseFs % runtime.timeprecisionFs = 0)
  require (∀ config ∈ expected, config.periodFs = periodFs ∧ config.phaseFs = phaseFs ∧
    config.initialValue = runtime.outputs id &&& 1)
  require (runtime.registeredClocks.length < adapter.signalCount)
  pure { runtime with
    registeredClocks := runtime.registeredClocks ++
      [⟨id, periodFs / 2 / runtime.timeprecisionFs, phaseFs / runtime.timeprecisionFs,
        runtime.registeredClocks.isEmpty⟩]
    configuredClock := update runtime.configuredClock id true
    testbenchClock := update runtime.testbenchClock id true }

end Runtime

/-- `normalize_scalar`. -/
def normalizeScalar (width : ℕ) (value : UInt32) : UInt32 :=
  if width < 32 then value &&& ((1 <<< UInt32.ofNat width) - 1) else value

/-- `static_dynamic_get`: `get` of the `coro::Signal` that a reference converts to. -/
def StaticRef.dynamicGet (ref : StaticRef World) (adapter : Adapter World) (runtime : Runtime World) :
    Except Failure UInt32 :=
  (normalizeScalar ref.width ·) <$> runtime.get adapter ref.id

/-- `static_dynamic_set`: `set` of the `coro::Signal` that a reference converts to. -/
def StaticRef.dynamicSet (ref : StaticRef World) (adapter : Adapter World) (runtime : Runtime World)
    (value : UInt32) : Except Failure (Runtime World) :=
  runtime.set adapter ref.id (normalizeScalar ref.width value)

end Signals

/-! ### Static accesses -/

section Accesses

variable {World : Type}

namespace StaticBindingContext

/-- `deliver_local_edge`, where all but the scheduler is shared with the runtime. -/
def deliverLocalEdge (runtime : Runtime World) (id : ℕ) (previous value : UInt32) : Runtime World :=
  if !runtime.localEdgeDeliveryEnabled || !runtime.staticBinding.scheduler ||
      !runtime.localEdgeCapable id || runtime.configuredClock id || runtime.edgeObserver id then runtime
  else runtime.notifyInterested id (Runtime.edgeBetween previous value)

/-- `set_packed_scalar`. -/
def setPackedScalar (runtime : Runtime World) (id : ℕ) (value : UInt32) : Runtime World :=
  let previous := runtime.outputs id
  if previous = value then runtime
  else
    deliverLocalEdge { runtime with
      outputs := update runtime.outputs id value
      outputsDirty := true } id previous value

end StaticBindingContext

/-- An access through a pointer into an array. -/
def access (words : List UInt32) (offset : Option ℕ) : Except Failure UInt32 :=
  match offset.bind (words[·]?) with
  | some value => .ok value
  | none => .error .outOfBounds

namespace StaticPackedRef

/-- A word of `get`. -/
def word (ref : StaticPackedRef) (runtime : Runtime World) (word : ℕ) : Except Failure UInt32 :=
  let schedulerOwned := runtime.configuredClock ref.id
  match ref.driven, runtime.staticBinding.currentInputs with
  | true, some currentInputs =>
    if schedulerOwned then access currentInputs (runtime.observedTransportOffsets (ref.id + word))
    else .ok (runtime.outputs (ref.id + word))
  | true, none => .ok (runtime.outputs (ref.id + word))
  | false, some currentInputs => access currentInputs (some (ref.transportOffset + word))
  | false, none => .ok (runtime.inputs (ref.id + word))

/-- `get`, of a signal of at most 32 bits. -/
def get (ref : StaticPackedRef) (runtime : Runtime World) : Except Failure UInt32 :=
  (normalizeScalar ref.width ·) <$> ref.word runtime 0

/-- `set_now`, of a signal of at most 32 bits. -/
def setNow (ref : StaticPackedRef) (runtime : Runtime World) (value : UInt32) :
    Except Failure (Runtime World) := do
  runtime.requireWriteAllowed
  pure (StaticBindingContext.setPackedScalar runtime ref.id (normalizeScalar ref.width value))

/-- `set_now`, of a wider signal, with the words of the value. -/
def setNowWide (ref : StaticPackedRef) (runtime : Runtime World) (words : ℕ → UInt32) :
    Except Failure (Runtime World) := do
  runtime.requireWriteAllowed
  let wordCount := (ref.width + 31) / 32
  let changed : Prop := ∃ word < wordCount, runtime.outputs (ref.id + word) ≠ words word
  pure { runtime with
    outputs := (List.range wordCount).foldl (fun outputs word =>
      update outputs (ref.id + word) (words word)) runtime.outputs
    outputsDirty := runtime.outputsDirty || decide changed }

end StaticPackedRef

namespace StaticOnDemandRef

/-- `get`, of a signal of at most 32 bits. -/
def get (ref : StaticOnDemandRef World) (runtime : Runtime World) : Except Failure UInt32 :=
  match ref.getWords runtime.world ref.wordOffset with
  | some value => .ok (normalizeScalar ref.width value)
  | none => .error .aborted

/-- `set_now`, of a signal of at most 32 bits. -/
def setNow (ref : StaticOnDemandRef World) (runtime : Runtime World) (value : UInt32) :
    Except Failure (Runtime World) := do
  runtime.requireWriteAllowed
  let value := normalizeScalar ref.width value
  let previous ← ref.get runtime
  if previous = value then pure runtime
  else
    match ref.setWords.bind fun setWords => setWords runtime.world ref.wordOffset value with
    | some world =>
      pure (StaticBindingContext.deliverLocalEdge { runtime with world } ref.id previous value)
    | none => throw .aborted

end StaticOnDemandRef

namespace StaticRef

/-- `get`. -/
def get (ref : StaticRef World) (runtime : Runtime World) : Except Failure UInt32 :=
  match ref with
  | .packed ref => ref.get runtime
  | .onDemand ref => ref.get runtime

/-- `set_now`. -/
def setNow (ref : StaticRef World) (runtime : Runtime World) (value : UInt32) :
    Except Failure (Runtime World) :=
  match ref with
  | .packed ref => ref.setNow runtime value
  | .onDemand ref => ref.setNow runtime value

/-- `set`. -/
def set (ref : StaticRef World) (adapter : Adapter World) (runtime : Runtime World) (value : UInt32) :
    Except Failure (Runtime World) :=
  if adapter.deferredWrites then do
    runtime.requireWriteAllowed
    pure { runtime with deferredWrites := runtime.deferredWrites ++ [.scalar ref value] }
  else ref.setNow runtime value

end StaticRef

/-- `set`, of a wider packed signal. -/
def StaticPackedRef.setWide (ref : StaticPackedRef) (adapter : Adapter World) (runtime : Runtime World)
    (words : ℕ → UInt32) : Except Failure (Runtime World) :=
  if adapter.deferredWrites then do
    runtime.requireWriteAllowed
    pure { runtime with deferredWrites := runtime.deferredWrites ++ [.wide ref words] }
  else ref.setNowWide runtime words

end Accesses

/-! ### Steps -/

section Steps

variable {World : Type}

/-- The number of words that a step gets. -/
def Adapter.inputCount (adapter : Adapter World) : ℕ :=
  if adapter.compactInputTransport then adapter.observedSignalWordIds.length else adapter.signalCount

/-- The array that a step gets. -/
structure InputView (count : ℕ) where
  words : List UInt32
  enough : count ≤ words.length

/-- The phases of a step, with the edge of an `Edge` step. -/
inductive Phase
  | init
  | edge (signalId : ℕ) (edge : EdgeKind)
  | delay
  | readWrite
  | readOnly
  | nextTimeStep
  deriving DecidableEq, Repr

/-- `callback_phase`. -/
def callbackPhase : Phase → CallbackPhase
  | .readWrite => .readWrite
  | .readOnly => .readOnly
  | .nextTimeStep => .nextTimeStep
  | _ => .evaluation

namespace Runtime

/-- `step`, up to the tasks that it resumes. -/
def enterStep (adapter : Adapter World) (runtime : Runtime World) (phase : Phase)
    (view : InputView adapter.inputCount) : Runtime World :=
  let runtime := { runtime with
    phase := callbackPhase phase
    currentInputs := some view.words
    staticBinding := { runtime.staticBinding with currentInputs := some view.words }
    scopes := .step runtime.phase runtime.currentInputs :: runtime.scopes
    inputs := if adapter.compactInputTransport then runtime.inputs else fun id => view.words.getD id 0 }
  match phase with
  | .edge id edge =>
    let toggled : Runtime World :=
      if id < adapter.signalCount ∧ runtime.configuredClock id ∧ runtime.testbenchClock id then
        { runtime with outputs := update runtime.outputs id (if edge = .rising then 1 else 0) }
      else runtime
    { toggled with scheduler := toggled.scheduler.map (·.notifyEdge id edge) }
  | _ => runtime

/-- The rest of `step`. `violation` says whether a task waits for an edge that cannot be observed. -/
def finishStep (runtime : Runtime World) (violation : Bool) : Runtime World :=
  let accessViolation := runtime.accessViolation || violation
  { runtime with
    accessViolation
    outputsDirty := runtime.outputsDirty && accessViolation }

/-- The end of a scope. -/
def leave (runtime : Runtime World) : Runtime World :=
  match runtime.scopes with
  | [] => runtime
  | .callback phase :: scopes => { runtime with phase, scopes }
  | .step phase previous :: scopes =>
    { runtime with
      phase
      scopes
      currentInputs := previous
      staticBinding := { runtime.staticBinding with currentInputs := previous } }

/-- The first of the writes that wait. -/
def applyDeferred (runtime : Runtime World) : Except Failure (Runtime World) :=
  match runtime.deferredWrites with
  | [] => .ok runtime
  | .scalar ref value :: later => ref.setNow { runtime with deferredWrites := later } value
  | .wide ref words :: later => ref.setNowWide { runtime with deferredWrites := later } words

end Runtime

/-- What happens: calls of the simulator and of the testbench, tasks that wait, changes of the design.
A step is `enterStep`, what its tasks do, `finishStep` and `leave`; a call of `init` ends with
`finishInit` and `leave`. -/
inductive Event (World : Type) (count : ℕ)
  | init (timeprecisionFs : ℕ)
  | finishInit
  | enterStep (phase : Phase) (view : InputView count)
  | finishStep (violation : Bool)
  | leave
  | registerClock (element : Element) (periodFs phaseFs : ℕ)
  | set (element : Element) (value : UInt32)
  | setNow (element : Element) (value : UInt32)
  | setWide (element : Element) (words : ℕ → UInt32)
  | signalSet (element : Element) (value : UInt32)
  | applyDeferred
  | interest (hasEdgeInterest : ℕ → EdgeKind → Bool)
  | world (world : World)

namespace Adapter

/-- One event. An element that does not exist aborts. -/
def perform (adapter : Adapter World) (runtime : Runtime World) :
    Event World adapter.inputCount → Except Failure (Runtime World)
  | .init timeprecisionFs => runtime.init adapter timeprecisionFs
  | .finishInit => runtime.finishInit adapter
  | .enterStep phase view => .ok (runtime.enterStep adapter phase view)
  | .finishStep violation => .ok (runtime.finishStep violation)
  | .leave => .ok runtime.leave
  | .registerClock element periodFs phaseFs =>
    match adapter.ref element with
    | some ref => runtime.registerClock adapter ref.id periodFs phaseFs
    | none => .error .aborted
  | .set element value =>
    match adapter.ref element with
    | some ref => ref.set adapter runtime value
    | none => .error .aborted
  | .setNow element value =>
    match adapter.ref element with
    | some ref => ref.setNow runtime value
    | none => .error .aborted
  | .setWide element words =>
    match adapter.ref element with
    | some (.packed ref) => ref.setWide adapter runtime words
    | _ => .error .aborted
  | .signalSet element value =>
    match adapter.ref element with
    | some ref => ref.dynamicSet adapter runtime value
    | none => .error .aborted
  | .applyDeferred => runtime.applyDeferred
  | .interest hasEdgeInterest =>
    .ok { runtime with scheduler := runtime.scheduler.map ({ · with hasEdgeInterest }) }
  | .world world => .ok { runtime with world }

/-- Events, one after the other. -/
def run (adapter : Adapter World) (runtime : Runtime World)
    (events : List (Event World adapter.inputCount)) : Except Failure (Runtime World) :=
  events.foldlM adapter.perform runtime

end Adapter

end Steps

end Cpptb.Dpi
