/-
Accesses to the signals and memories of the hierarchy.

* `Simulator`: the elements of one signal or memory, as the simulator lets them be read and written.
* `HierarchyTransport`: the generated accesses, with the values forced in a callback.
* `Element`: what a testbench calls; `perform`, `accesses`: one request, and a sequence of them.
* `perform_caches`: what each request does to the forced values.
-/

import Mathlib.Data.List.Basic
import Cpptb.Dpi.StaticBinding

namespace Cpptb.Hierarchy

open Dpi (CallbackPhase)

/-! ### Signals -/

section Signals

/-- `Operation`, less the edges. -/
inductive Operation
  | get
  | deposit
  | force
  | release
  | getLogic
  | depositLogic
  | forceLogic
  deriving DecidableEq, Repr

/-- `Dimension`. -/
structure Dimension where
  left : ℤ
  right : ℤ
  deriving DecidableEq, Repr

def Dimension.low (dimension : Dimension) : ℤ :=
  if dimension.left < dimension.right then dimension.left else dimension.right

def Dimension.high (dimension : Dimension) : ℤ :=
  if dimension.left < dimension.right then dimension.right else dimension.left

def Dimension.size (dimension : Dimension) : ℕ := (dimension.high - dimension.low + 1).toNat

/-- A signal of the catalog, with its part of the access plan. -/
structure HierarchySignal where
  width : ℕ
  unpacked : List Dimension
  selected : Operation → Bool
  positive : 0 < width

/-- The bits of `probe::Value<Width>`. -/
def valueBits (width : ℕ) : ℕ := if width ≤ 32 then 32 else if width ≤ 64 then 64 else width

/-- `probe::Value<Width>`. -/
abbrev Value (width : ℕ) : Type := BitVec (valueBits width)

/-- `LogicBits<Width>`. -/
structure LogicBits (width : ℕ) where
  value : BitVec width
  unknown : BitVec width
  deriving DecidableEq, Repr

def LogicBits.isKnown {width : ℕ} (bits : LogicBits width) : Bool := bits.unknown = 0

/-- `detail::normalize`. -/
def normalize {width : ℕ} (value : Value width) : Value width :=
  if width < valueBits width then value &&& (BitVec.ofNat _ (2 ^ width - 1)) else value

/-- The bit accesses for which the transport keeps the forced value. -/
def HierarchySignal.immediateForceGet (signal : HierarchySignal) : Bool :=
  signal.selected .get && signal.selected .force

/-- The logic accesses for which the transport keeps the forced value. -/
def HierarchySignal.immediateLogicForceGet (signal : HierarchySignal) : Bool :=
  signal.selected .getLogic && signal.selected .forceLogic

def HierarchySignal.forceSelected (signal : HierarchySignal) : Bool :=
  signal.selected .force || signal.selected .forceLogic || signal.selected .release

/-- The memories whose exported functions index the HDL memory itself. -/
def HierarchySignal.dynamicOneDimensionalMemory (signal : HierarchySignal) : Bool :=
  match signal.unpacked with
  | [dimension] => dimension.low = 0 && !signal.forceSelected
  | _ => false

/-- The elements of a memory of several dimensions. -/
def HierarchySignal.elements (signal : HierarchySignal) : ℕ :=
  (signal.unpacked.map Dimension.size).prod

theorem le_valueBits (width : ℕ) : width ≤ valueBits width := by
  unfold valueBits
  split
  · assumption
  · split
    · assumption
    · exact le_rfl

/-- `normalize` keeps the bits of the signal. -/
theorem getLsbD_normalize {width : ℕ} (value : Value width) (bit : ℕ) :
    (normalize value).getLsbD bit = (decide (bit < width) && value.getLsbD bit) := by
  unfold normalize
  split
  · next narrow =>
    rw [BitVec.getLsbD_and, BitVec.getLsbD_ofNat, Nat.testBit_two_pow_sub_one, Bool.and_comm]
    by_cases inside : bit < width
    · have fits : bit < valueBits width := inside.trans narrow
      simp only [inside, fits, decide_true, Bool.true_and]
    · simp only [inside, decide_false, Bool.and_false, Bool.false_and]
  · next wide =>
    have same : valueBits width = width := le_antisymm (not_lt.mp wide) (le_valueBits width)
    by_cases inside : bit < width
    · simp only [inside, decide_true, Bool.true_and]
    · rw [BitVec.getLsbD_of_ge value bit (by omega)]
      simp only [Bool.and_false]

theorem normalize_normalize {width : ℕ} (value : Value width) :
    normalize (normalize value) = normalize value := by
  refine BitVec.eq_of_getLsbD_eq fun bit _ => ?_
  simp only [getLsbD_normalize, ← Bool.and_assoc, Bool.and_self]

/-- A value read from the signal needs no normalisation. -/
theorem normalize_setWidth {width : ℕ} (bits : BitVec width) :
    normalize (bits.setWidth (valueBits width)) = bits.setWidth (valueBits width) := by
  refine BitVec.eq_of_getLsbD_eq fun bit _ => ?_
  rw [getLsbD_normalize, BitVec.getLsbD_setWidth]
  by_cases inside : bit < width
  · simp only [inside, decide_true, Bool.true_and]
  · simp only [inside, decide_false, Bool.false_and, BitVec.getLsbD_of_ge bits bit (not_lt.mp inside),
      Bool.and_false]

/-- The bits that reach the signal. -/
theorem setWidth_normalize {width : ℕ} (value : Value width) :
    (normalize value).setWidth width = value.setWidth width := by
  refine BitVec.eq_of_getLsbD_eq fun bit inside => ?_
  rw [BitVec.getLsbD_setWidth, BitVec.getLsbD_setWidth, getLsbD_normalize, decide_eq_true inside,
    Bool.true_and]

theorem setWidth_setWidth_valueBits {width : ℕ} (bits : BitVec width) :
    (bits.setWidth (valueBits width)).setWidth width = bits := by
  rw [BitVec.setWidth_setWidth_of_le bits (le_valueBits width), BitVec.setWidth_eq]

end Signals

/-! ### State -/

section States

/-- How an access ends without a result. -/
inductive Failure
  | outOfBounds
  | outsideCallback
  | writeNotAllowed
  | unsupported
  | notSelected
  | fatal
  | illFormed
  deriving DecidableEq, Repr

/-- The elements of one signal or memory. What a read returns is up to the simulator: inside a
callback it may be the value from before that callback's forces. -/
structure Simulator (World : Type) (width : ℕ) where
  read : World → ℤ → BitVec width
  write : World → ℤ → BitVec width → World
  force : World → ℤ → BitVec width → World
  release : World → ℤ → World
  readLogic : World → ℤ → LogicBits width
  writeLogic : World → ℤ → LogicBits width → World
  forceLogic : World → ℤ → LogicBits width → World

/-- `dpi_callback_state`. The scopes hold the phases to restore, and their number is the depth; the
64-bit epoch counts callbacks. -/
structure Callback where
  epoch : ℕ := 0
  phase : CallbackPhase := .evaluation
  scopes : List CallbackPhase := []
  deriving DecidableEq, Repr

/-- The constructor of `DpiCallbackScope`. -/
def Callback.enter (callback : Callback) (phase : CallbackPhase) : Callback where
  epoch := if callback.scopes = [] then callback.epoch + 1 else callback.epoch
  phase := phase
  scopes := callback.phase :: callback.scopes

/-- The destructor of `DpiCallbackScope`. -/
def Callback.leave (callback : Callback) : Callback :=
  match callback.scopes with
  | [] => callback
  | previousPhase :: scopes => { callback with phase := previousPhase, scopes := scopes }

/-- `HierarchyImmediateForceCache`. The epoch of an invalid entry is `none`. -/
structure Cache (Forced : Type) where
  callbackEpoch : Option ℕ := none
  index : ℤ := 0
  value : Forced
  deriving DecidableEq, Repr

/-- One signal or memory, and what the transport keeps for it. -/
structure State (World : Type) (width : ℕ) where
  world : World
  callback : Callback := {}
  bitCache : Cache (Value width) := { value := 0 }
  logicCache : Cache (LogicBits width) := { value := ⟨0, 0⟩ }

/-- An access; a failure leaves the state it was found in. -/
abbrev Access (World : Type) (width : ℕ) : Type → Type := EStateM Failure (State World width)

variable {Forced : Type}

def Cache.hit (cache : Cache Forced) (epoch : ℕ) (index : ℤ) : Bool :=
  cache.callbackEpoch = some epoch && cache.index = index

def Cache.invalidate (cache : Cache Forced) : Cache Forced := { cache with callbackEpoch := none }

/-- The invalidation of `release`. -/
def Cache.invalidateAt (cache : Cache Forced) (index : ℤ) : Cache Forced :=
  if cache.index = index then cache.invalidate else cache

end States

/-! ### Exported functions -/

section Exports

variable {World : Type} (signal : HierarchySignal) (simulator : Simulator World signal.width)

/-- The element an exported function accesses at an index; there is `$fatal` for the others. -/
def HierarchySignal.element (index : ℤ) : Access World signal.width ℤ :=
  match signal.unpacked with
  | [] => pure 0
  | [dimension] =>
    if signal.dynamicOneDimensionalMemory ∨ dimension.low ≤ index ∧ index ≤ dimension.high then
      pure index
    else
      throw .fatal
  | _ => if 0 ≤ index ∧ index < signal.elements then pure index else throw .fatal

/-- An exported function that changes the simulation. -/
def exportedChange (index : ℤ) (change : World → ℤ → World) : Access World signal.width Unit := do
  let element ← signal.element index
  modify fun state => { state with world := change state.world element }

def exportedGet (index : ℤ) : Access World signal.width (Value signal.width) := do
  let element ← signal.element index
  return (simulator.read (← MonadState.get).world element).setWidth _

def exportedDeposit (index : ℤ) (value : Value signal.width) : Access World signal.width Unit :=
  exportedChange signal index fun world element =>
    simulator.write world element (value.setWidth signal.width)

def exportedForce (index : ℤ) (value : Value signal.width) : Access World signal.width Unit :=
  exportedChange signal index fun world element =>
    simulator.force world element (value.setWidth signal.width)

def exportedRelease (index : ℤ) : Access World signal.width Unit :=
  exportedChange signal index simulator.release

def exportedGetLogic (index : ℤ) : Access World signal.width (LogicBits signal.width) := do
  let element ← signal.element index
  return simulator.readLogic (← MonadState.get).world element

def exportedDepositLogic (index : ℤ) (value : LogicBits signal.width) :
    Access World signal.width Unit :=
  exportedChange signal index fun world element => simulator.writeLogic world element value

def exportedForceLogic (index : ℤ) (value : LogicBits signal.width) :
    Access World signal.width Unit :=
  exportedChange signal index fun world element => simulator.forceLogic world element value

end Exports

/-! ### The transport -/

section Transports

variable {World : Type} (signal : HierarchySignal) (simulator : Simulator World signal.width)

/-- `fail` for the signals an operation was not selected for. -/
def requireSelected (operation : Operation) : Access World signal.width Unit :=
  if signal.selected operation then pure () else throw .notSelected

def HierarchyTransport.get (index : ℤ) : Access World signal.width (Value signal.width) := do
  requireSelected signal .get
  let state ← MonadState.get
  if signal.immediateForceGet && state.bitCache.hit state.callback.epoch index then
    return state.bitCache.value
  else
    exportedGet signal simulator index

def HierarchyTransport.deposit (index : ℤ) (value : Value signal.width) :
    Access World signal.width Unit := do
  requireSelected signal .deposit
  exportedDeposit signal simulator index value

/-- What `force` does to the forced values. -/
def rememberForce (index : ℤ) (value : Value signal.width) (state : State World signal.width) :
    State World signal.width :=
  { state with
    bitCache :=
      if signal.immediateForceGet then ⟨some state.callback.epoch, index, value⟩ else state.bitCache
    logicCache :=
      if signal.immediateLogicForceGet then state.logicCache.invalidate else state.logicCache }

def HierarchyTransport.force (index : ℤ) (value : Value signal.width) :
    Access World signal.width Unit := do
  requireSelected signal .force
  exportedForce signal simulator index value
  modify (rememberForce signal index value)

def HierarchyTransport.getLogic (index : ℤ) : Access World signal.width (LogicBits signal.width) := do
  requireSelected signal .getLogic
  let state ← MonadState.get
  if signal.immediateLogicForceGet && state.logicCache.hit state.callback.epoch index then
    return state.logicCache.value
  else
    exportedGetLogic signal simulator index

def HierarchyTransport.depositLogic (index : ℤ) (value : LogicBits signal.width) :
    Access World signal.width Unit := do
  requireSelected signal .depositLogic
  exportedDepositLogic signal simulator index value

/-- What `force_logic` does to the forced values. -/
def rememberForceLogic (index : ℤ) (value : LogicBits signal.width)
    (state : State World signal.width) : State World signal.width :=
  { state with
    logicCache :=
      if signal.immediateLogicForceGet then ⟨some state.callback.epoch, index, value⟩
      else state.logicCache
    bitCache := if signal.immediateForceGet then state.bitCache.invalidate else state.bitCache }

def HierarchyTransport.forceLogic (index : ℤ) (value : LogicBits signal.width) :
    Access World signal.width Unit := do
  requireSelected signal .forceLogic
  exportedForceLogic signal simulator index value
  modify (rememberForceLogic signal index value)

/-- What `release` does to the forced values. -/
def forgetForce (index : ℤ) (state : State World signal.width) : State World signal.width :=
  { state with
    bitCache :=
      if signal.immediateForceGet then state.bitCache.invalidateAt index else state.bitCache
    logicCache :=
      if signal.immediateLogicForceGet then state.logicCache.invalidateAt index
      else state.logicCache }

def HierarchyTransport.release (index : ℤ) : Access World signal.width Unit := do
  requireSelected signal .release
  exportedRelease signal simulator index
  modify (forgetForce signal index)

end Transports

/-! ### Elements -/

section Elements

variable {World : Type} {width : ℕ}

/-- `require_callback`. -/
def requireCallback : Access World width Unit := do
  if (← MonadState.get).callback.scopes = [] then throw .outsideCallback else pure ()

/-- `require_write_allowed`. -/
def requireWriteAllowed : Access World width Unit := do
  let callback := (← MonadState.get).callback
  if callback.scopes = [] ∨ callback.phase ≠ .readOnly then pure () else throw .writeNotAllowed

/-- `require_write_callback`. -/
def requireWriteCallback : Access World width Unit := do
  requireCallback
  requireWriteAllowed

/-- `require_logic_write_supported`. -/
def requireLogicWriteSupported (fourStateValues : Bool) (value : LogicBits width) :
    Access World width Unit :=
  if fourStateValues || value.isKnown then pure () else throw .unsupported

variable (signal : HierarchySignal) (simulator : Simulator World signal.width)
  (fourStateValues : Bool)

/-- The indices of a signal or memory: `at`. -/
def HierarchySignal.InBounds (index : ℤ) : Prop :=
  match signal.unpacked with
  | [] => index = 0
  | [dimension] => dimension.low ≤ index ∧ index ≤ dimension.high
  | _ => 0 ≤ index ∧ index < signal.elements

instance (index : ℤ) : Decidable (signal.InBounds index) := by
  unfold HierarchySignal.InBounds
  split <;> infer_instance

/-- The bounds check of `at`. -/
def HierarchySignal.at (index : ℤ) : Access World signal.width Unit :=
  if signal.InBounds index then pure () else throw .outOfBounds

def Element.get (index : ℤ) : Access World signal.width (Value signal.width) := do
  signal.at index
  requireCallback
  return normalize (← HierarchyTransport.get signal simulator index)

def Element.getLogic (index : ℤ) : Access World signal.width (LogicBits signal.width) := do
  signal.at index
  requireCallback
  HierarchyTransport.getLogic signal simulator index

def Element.deposit (index : ℤ) (value : Value signal.width) : Access World signal.width Unit := do
  signal.at index
  requireCallback
  requireWriteAllowed
  HierarchyTransport.deposit signal simulator index (normalize value)

def Element.depositLogic (index : ℤ) (value : LogicBits signal.width) :
    Access World signal.width Unit := do
  signal.at index
  requireLogicWriteSupported fourStateValues value
  requireCallback
  requireWriteAllowed
  HierarchyTransport.depositLogic signal simulator index value

def Element.force (index : ℤ) (value : Value signal.width) : Access World signal.width Unit := do
  signal.at index
  requireCallback
  requireWriteAllowed
  HierarchyTransport.force signal simulator index (normalize value)

def Element.forceLogic (index : ℤ) (value : LogicBits signal.width) :
    Access World signal.width Unit := do
  signal.at index
  requireLogicWriteSupported fourStateValues value
  requireCallback
  requireWriteAllowed
  HierarchyTransport.forceLogic signal simulator index value

def Element.release (index : ℤ) : Access World signal.width Unit := do
  signal.at index
  requireCallback
  requireWriteAllowed
  HierarchyTransport.release signal simulator index

end Elements

/-! ### Requests -/

section Requests

/-- An access to one element. -/
inductive Request (width : ℕ)
  | get (index : ℤ)
  | deposit (index : ℤ) (value : Value width)
  | force (index : ℤ) (value : Value width)
  | release (index : ℤ)
  | getLogic (index : ℤ)
  | depositLogic (index : ℤ) (value : LogicBits width)
  | forceLogic (index : ℤ) (value : LogicBits width)
  deriving DecidableEq, Repr

variable {World : Type} (signal : HierarchySignal) (simulator : Simulator World signal.width)
  (fourStateValues : Bool)

/-- One request, without its answer. -/
def perform : Request signal.width → Access World signal.width Unit
  | .get index => do let _ ← Element.get signal simulator index
  | .deposit index value => Element.deposit signal simulator index value
  | .force index value => Element.force signal simulator index value
  | .release index => Element.release signal simulator index
  | .getLogic index => do let _ ← Element.getLogic signal simulator index
  | .depositLogic index value => Element.depositLogic signal simulator fourStateValues index value
  | .forceLogic index value => Element.forceLogic signal simulator fourStateValues index value

/-- A sequence of requests. -/
def accesses : List (Request signal.width) → Access World signal.width Unit
  | [] => pure ()
  | request :: later => do
    perform signal simulator fourStateValues request
    accesses later

end Requests

/-! ### Computing accesses -/

section Computing

variable {World α β : Type} {width : ℕ} {state state' : State World width}

theorem bind_of_ok {first : Access World width α} {next : α → Access World width β} {a : α}
    (done : first state = .ok a state') : (first >>= next) state = next a state' := by
  simp only [bind, EStateM.bind, done]

theorem ok_of_bind {first : Access World width α} {next : α → Access World width β} {b : β}
    {final : State World width} (done : (first >>= next) state = .ok b final) :
    ∃ a middle, first state = .ok a middle ∧ next a middle = .ok b final := by
  simp only [bind, EStateM.bind] at done
  split at done
  · next a middle here => exact ⟨a, middle, here, done⟩
  · cases done

theorem bind_of_error {first : Access World width α} {next : α → Access World width β}
    {failure : Failure} (failed : first state = .error failure state') :
    (first >>= next) state = .error failure state' := by
  simp only [bind, EStateM.bind, failed]

/-- A check that passes or throws. -/
theorem check_ok_iff {condition : Prop} [Decidable condition] {failure : Failure} {u : Unit} :
    (if condition then pure () else throw failure : Access World width Unit) state = .ok u state' ↔
      condition ∧ state' = state := by
  by_cases holds : condition
  · simp only [holds, true_and]
    exact ⟨fun done => (EStateM.Result.ok.inj done).2.symm, fun same => same ▸ rfl⟩
  · simp only [holds, false_and, iff_false]
    intro done
    cases done

/-- A check, then what follows. -/
theorem check_bind_ok_iff {check : Access World width Unit} {condition : Prop}
    (checks : ∀ {u : Unit} {s : State World width}, check state = .ok u s ↔ condition ∧ s = state)
    {next : Access World width β} {b : β} {final : State World width} :
    (check >>= fun _ => next) state = .ok b final ↔ condition ∧ next state = .ok b final := by
  constructor
  · intro done
    obtain ⟨u, middle, passed, rest⟩ := ok_of_bind done
    obtain ⟨holds, rfl⟩ := checks.mp passed
    exact ⟨holds, rest⟩
  · rintro ⟨holds, done⟩
    rw [bind_of_ok (checks.mpr ⟨holds, rfl⟩ : check state = .ok () state), done]

end Computing

/-! ### What a request does -/

section Admissible

variable {World : Type} (signal : HierarchySignal) (simulator : Simulator World signal.width)
  (fourStateValues : Bool)

namespace Request

variable {width : ℕ}

def operation : Request width → Operation
  | get _ => .get
  | deposit _ _ => .deposit
  | force _ _ => .force
  | release _ => .release
  | getLogic _ => .getLogic
  | depositLogic _ _ => .depositLogic
  | forceLogic _ _ => .forceLogic

def index : Request width → ℤ
  | get index | deposit index _ | force index _ | release index | getLogic index
  | depositLogic index _ | forceLogic index _ => index

/-- The phases of a request: no write in the ReadOnly phase. -/
def Allowed (phase : CallbackPhase) : Request width → Prop
  | get _ | getLogic _ => True
  | deposit _ _ | force _ _ | release _ | depositLogic _ _ | forceLogic _ _ => phase ≠ .readOnly

/-- The logic values the simulator can hold. -/
def Supported (fourStateValues : Bool) : Request width → Prop
  | get _ | deposit _ _ | force _ _ | release _ | getLogic _ => True
  | depositLogic _ value | forceLogic _ value => (fourStateValues || value.isKnown) = true

end Request

/-- The requests a testbench can make at this point. -/
structure Admissible (callback : Callback) (request : Request signal.width) : Prop where
  bounds : signal.InBounds request.index
  inside : callback.scopes ≠ []
  allowed : request.Allowed callback.phase
  supported : request.Supported fourStateValues
  selected : signal.selected request.operation = true

/-- What an admissible request leaves. -/
def settled (state : State World signal.width) : Request signal.width → State World signal.width
  | .get _ | .getLogic _ => state
  | .deposit index value =>
    { state with
      world := simulator.write state.world index ((normalize value).setWidth signal.width) }
  | .force index value =>
    rememberForce signal index (normalize value)
      { state with
        world := simulator.force state.world index ((normalize value).setWidth signal.width) }
  | .release index =>
    forgetForce signal index { state with world := simulator.release state.world index }
  | .depositLogic index value =>
    { state with world := simulator.writeLogic state.world index value }
  | .forceLogic index value =>
    rememberForceLogic signal index value
      { state with world := simulator.forceLogic state.world index value }

variable {signal simulator fourStateValues}
variable {state state' : State World signal.width}

/-- Within its bounds an element is the one at its index. -/
theorem element_of_inBounds {index : ℤ} (bounds : signal.InBounds index) :
    (signal.element index : Access World signal.width ℤ) = pure index := by
  unfold HierarchySignal.InBounds at bounds
  unfold HierarchySignal.element
  split
  · next scalar =>
    simp only [scalar] at bounds
    rw [bounds]
  · next dimension memory =>
    simp only [memory] at bounds
    rw [if_pos (Or.inr bounds)]
  · next scalar memory =>
    split at bounds
    · next none => exact absurd none scalar
    · next dimension one => exact absurd one (memory dimension)
    · rw [if_pos bounds]

section Checks

variable {α : Type} {next : Access World signal.width α} {a : α}

@[simp] theorem at_bind_ok_iff {index : ℤ} :
    (signal.at index >>= fun _ => next) state = .ok a state' ↔
      signal.InBounds index ∧ next state = .ok a state' :=
  check_bind_ok_iff check_ok_iff

@[simp] theorem requireSelected_bind_ok_iff {operation : Operation} :
    (requireSelected signal operation >>= fun _ => next) state = .ok a state' ↔
      signal.selected operation = true ∧ next state = .ok a state' :=
  check_bind_ok_iff check_ok_iff

@[simp] theorem requireCallback_bind_ok_iff :
    (requireCallback >>= fun _ => next) state = .ok a state' ↔
      state.callback.scopes ≠ [] ∧ next state = .ok a state' := by
  refine check_bind_ok_iff fun {u s} => ?_
  have form : requireCallback state =
      (if state.callback.scopes ≠ [] then pure () else throw .outsideCallback :
        Access World signal.width Unit) state := by
    by_cases outside : state.callback.scopes = []
    · rw [if_neg (not_not.mpr outside)]
      simp only [requireCallback, MonadState.get, getThe, MonadStateOf.get, bind, EStateM.bind,
        EStateM.get, if_pos outside]
    · rw [if_pos outside]
      simp only [requireCallback, MonadState.get, getThe, MonadStateOf.get, bind, EStateM.bind,
        EStateM.get, if_neg outside]
  rw [form, check_ok_iff]

@[simp] theorem requireWriteAllowed_bind_ok_iff :
    (requireWriteAllowed >>= fun _ => next) state = .ok a state' ↔
      (state.callback.scopes = [] ∨ state.callback.phase ≠ .readOnly) ∧
        next state = .ok a state' := by
  refine check_bind_ok_iff fun {u s} => ?_
  have form : requireWriteAllowed state =
      (if state.callback.scopes = [] ∨ state.callback.phase ≠ .readOnly then pure ()
        else throw .writeNotAllowed : Access World signal.width Unit) state := rfl
  rw [form, check_ok_iff]

@[simp] theorem requireLogicWriteSupported_bind_ok_iff {value : LogicBits signal.width} :
    (requireLogicWriteSupported fourStateValues value >>= fun _ => next) state = .ok a state' ↔
      (fourStateValues || value.isKnown) = true ∧ next state = .ok a state' :=
  check_bind_ok_iff check_ok_iff

end Checks

/-- An exported function that changes the simulation, within the bounds. -/
theorem exportedChange_of_inBounds {index : ℤ} (bounds : signal.InBounds index)
    (change : World → ℤ → World) : exportedChange signal index change state =
      .ok () { state with world := change state.world index } := by
  unfold exportedChange
  rw [element_of_inBounds bounds]
  rfl

theorem exportedGet_of_inBounds {index : ℤ} (bounds : signal.InBounds index) :
    exportedGet signal simulator index state =
      .ok ((simulator.read state.world index).setWidth _) state := by
  unfold exportedGet
  rw [element_of_inBounds bounds]
  rfl

theorem exportedGetLogic_of_inBounds {index : ℤ} (bounds : signal.InBounds index) :
    exportedGetLogic signal simulator index state =
      .ok (simulator.readLogic state.world index) state := by
  unfold exportedGetLogic
  rw [element_of_inBounds bounds]
  rfl

/-- What the transport reads: the value forced in this callback, or the simulator's. -/
def transportBits (signal : HierarchySignal) (simulator : Simulator World signal.width)
    (state : State World signal.width) (index : ℤ) : Value signal.width :=
  if signal.immediateForceGet && state.bitCache.hit state.callback.epoch index then
    state.bitCache.value
  else
    (simulator.read state.world index).setWidth _

/-- What the transport reads with all four states. -/
def transportLogic (signal : HierarchySignal) (simulator : Simulator World signal.width)
    (state : State World signal.width) (index : ℤ) : LogicBits signal.width :=
  if signal.immediateLogicForceGet && state.logicCache.hit state.callback.epoch index then
    state.logicCache.value
  else
    simulator.readLogic state.world index

/-- A selected `get` within the bounds. -/
theorem transport_get {index : ℤ} (bounds : signal.InBounds index)
    (selected : signal.selected .get = true) :
    HierarchyTransport.get signal simulator index state =
      .ok (transportBits signal simulator state index) state := by
  refine requireSelected_bind_ok_iff.mpr ⟨selected, ?_⟩
  change (if signal.immediateForceGet && state.bitCache.hit state.callback.epoch index then
      pure state.bitCache.value else exportedGet signal simulator index :
    Access World signal.width (Value signal.width)) state = _
  unfold transportBits
  split
  · rfl
  · exact exportedGet_of_inBounds bounds

theorem transport_getLogic {index : ℤ} (bounds : signal.InBounds index)
    (selected : signal.selected .getLogic = true) :
    HierarchyTransport.getLogic signal simulator index state =
      .ok (transportLogic signal simulator state index) state := by
  refine requireSelected_bind_ok_iff.mpr ⟨selected, ?_⟩
  change (if signal.immediateLogicForceGet && state.logicCache.hit state.callback.epoch index then
      pure state.logicCache.value else exportedGetLogic signal simulator index :
    Access World signal.width (LogicBits signal.width)) state = _
  unfold transportLogic
  split
  · rfl
  · exact exportedGetLogic_of_inBounds bounds

/-- **Reading an element.** -/
theorem get_ok_iff (fourStateValues : Bool) {index : ℤ} {value : Value signal.width} :
    Element.get signal simulator index state = .ok value state' ↔
      Admissible signal fourStateValues state.callback (.get index) ∧
        value = normalize (transportBits signal simulator state index) ∧ state' = state := by
  constructor
  · intro done
    obtain ⟨bounds, inside, done⟩ : signal.InBounds index ∧ state.callback.scopes ≠ [] ∧
        (HierarchyTransport.get signal simulator index >>= fun read => pure (normalize read)) state =
          .ok value state' := by simpa only [Element.get, at_bind_ok_iff,
            requireCallback_bind_ok_iff] using done
    have selected : signal.selected .get = true := by
      obtain ⟨_, _, here, -⟩ := ok_of_bind done
      exact (requireSelected_bind_ok_iff.mp here).1
    rw [bind_of_ok (transport_get bounds selected)] at done
    obtain ⟨rfl, rfl⟩ := EStateM.Result.ok.inj done
    exact ⟨⟨bounds, inside, trivial, trivial, selected⟩, rfl, rfl⟩
  · rintro ⟨admissible, rfl, rfl⟩
    have read : HierarchyTransport.get signal simulator index state' =
        .ok (transportBits signal simulator state' index) state' :=
      transport_get admissible.bounds admissible.selected
    exact at_bind_ok_iff.mpr ⟨admissible.bounds, requireCallback_bind_ok_iff.mpr
      ⟨admissible.inside, bind_of_ok read⟩⟩

/-- **Reading an element with all four states.** -/
theorem getLogic_ok_iff (fourStateValues : Bool) {index : ℤ} {value : LogicBits signal.width} :
    Element.getLogic signal simulator index state = .ok value state' ↔
      Admissible signal fourStateValues state.callback (.getLogic index) ∧
        value = transportLogic signal simulator state index ∧ state' = state := by
  constructor
  · intro done
    obtain ⟨bounds, inside, done⟩ : signal.InBounds index ∧ state.callback.scopes ≠ [] ∧
        HierarchyTransport.getLogic signal simulator index state = .ok value state' := by
      simpa only [Element.getLogic, at_bind_ok_iff, requireCallback_bind_ok_iff] using done
    have selected : signal.selected .getLogic = true := (requireSelected_bind_ok_iff.mp done).1
    rw [transport_getLogic bounds selected] at done
    obtain ⟨rfl, rfl⟩ := EStateM.Result.ok.inj done
    exact ⟨⟨bounds, inside, trivial, trivial, selected⟩, rfl, rfl⟩
  · rintro ⟨admissible, rfl, rfl⟩
    exact at_bind_ok_iff.mpr ⟨admissible.bounds, requireCallback_bind_ok_iff.mpr
      ⟨admissible.inside, transport_getLogic admissible.bounds admissible.selected⟩⟩

/-- A write that the phase allows: its checks, and what it does within the bounds. -/
theorem write_ok_iff (request : Request signal.width) {write : Access World signal.width Unit}
    {final : State World signal.width} {u : Unit} (allowed : request.Allowed state.callback.phase ↔
      state.callback.phase ≠ .readOnly) (supported : request.Supported fourStateValues)
    (effect : signal.InBounds request.index → write state = .ok () final) :
    (requireCallback >>= fun _ => requireWriteAllowed >>= fun _ =>
      requireSelected signal request.operation >>= fun _ => write) state = .ok u state' ∧
        signal.InBounds request.index ↔
      Admissible signal fourStateValues state.callback request ∧ state' = final := by
  simp only [requireCallback_bind_ok_iff, requireWriteAllowed_bind_ok_iff,
    requireSelected_bind_ok_iff]
  constructor
  · rintro ⟨⟨inside, phase, selected, done⟩, bounds⟩
    rw [effect bounds] at done
    exact ⟨⟨bounds, inside, allowed.mpr (phase.resolve_left inside), supported, selected⟩,
      (EStateM.Result.ok.inj done).2.symm⟩
  · rintro ⟨admissible, rfl⟩
    exact ⟨⟨admissible.inside, .inr (allowed.mp admissible.allowed), admissible.selected,
      effect admissible.bounds⟩, admissible.bounds⟩

/-- **One request**: it succeeds when it is admissible. -/
theorem perform_ok_iff {request : Request signal.width} {u : Unit} :
    perform signal simulator fourStateValues request state = .ok u state' ↔
      Admissible signal fourStateValues state.callback request ∧
        state' = settled signal simulator state request := by
  cases request with
  | get index =>
    constructor
    · intro done
      obtain ⟨value, middle, read, rest⟩ := ok_of_bind done
      obtain ⟨admissible, -, rfl⟩ := (get_ok_iff fourStateValues).mp read
      exact ⟨admissible, (EStateM.Result.ok.inj rest).2.symm⟩
    · rintro ⟨admissible, rfl⟩
      exact bind_of_ok ((get_ok_iff fourStateValues).mpr ⟨admissible, rfl, rfl⟩)
  | getLogic index =>
    constructor
    · intro done
      obtain ⟨value, middle, read, rest⟩ := ok_of_bind done
      obtain ⟨admissible, -, rfl⟩ := (getLogic_ok_iff fourStateValues).mp read
      exact ⟨admissible, (EStateM.Result.ok.inj rest).2.symm⟩
    · rintro ⟨admissible, rfl⟩
      exact bind_of_ok ((getLogic_ok_iff fourStateValues).mpr ⟨admissible, rfl, rfl⟩)
  | deposit index value =>
    refine at_bind_ok_iff.trans (and_comm.trans ?_)
    exact write_ok_iff (.deposit index value) Iff.rfl trivial fun bounds =>
      exportedChange_of_inBounds bounds _
  | force index value =>
    refine at_bind_ok_iff.trans (and_comm.trans ?_)
    exact write_ok_iff (.force index value) Iff.rfl trivial fun bounds =>
      bind_of_ok (exportedChange_of_inBounds bounds _)
  | release index =>
    refine at_bind_ok_iff.trans (and_comm.trans ?_)
    exact write_ok_iff (.release index) Iff.rfl trivial fun bounds =>
      bind_of_ok (exportedChange_of_inBounds bounds _)
  | depositLogic index value =>
    refine at_bind_ok_iff.trans (and_comm.trans ?_)
    by_cases supported : (fourStateValues || value.isKnown) = true
    · rw [requireLogicWriteSupported_bind_ok_iff, and_iff_right supported]
      exact write_ok_iff (.depositLogic index value) Iff.rfl supported fun bounds =>
        exportedChange_of_inBounds bounds _
    · rw [requireLogicWriteSupported_bind_ok_iff]
      exact iff_of_false (fun done => supported done.1.1) fun done => supported done.1.supported
  | forceLogic index value =>
    refine at_bind_ok_iff.trans (and_comm.trans ?_)
    by_cases supported : (fourStateValues || value.isKnown) = true
    · rw [requireLogicWriteSupported_bind_ok_iff, and_iff_right supported]
      exact write_ok_iff (.forceLogic index value) Iff.rfl supported fun bounds =>
        bind_of_ok (exportedChange_of_inBounds bounds _)
    · rw [requireLogicWriteSupported_bind_ok_iff]
      exact iff_of_false (fun done => supported done.1.1) fun done => supported done.1.supported

end Admissible

end Cpptb.Hierarchy
