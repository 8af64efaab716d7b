/-
**What a read returns after a force.**

* `CacheMove`, `remembers_foldl_iff`: how a forced value is kept and lost, for both kinds of access.
* `get_after_force_iff`, `getLogic_after_force_iff`: a read sees the force exactly when no other element
  was forced since.
* `sinceForced_of_history`: where a value that did not come from the simulator comes from.
* `forced_reads`: all of it.
-/

import Cpptb.Hierarchy.Transport

namespace Cpptb.Hierarchy

open Dpi (CallbackPhase)

/-! ### The entry of a forced value -/

section Moves

variable {Forced : Type}

/-- What happens to the entry of a forced value. -/
inductive CacheMove (Forced : Type)
  | set (index : ℤ) (value : Forced)
  | clear
  | clearAt (index : ℤ)
  | keep

def Cache.move (epoch : ℕ) (cache : Cache Forced) : CacheMove Forced → Cache Forced
  | .set index value => ⟨some epoch, index, value⟩
  | .clear => cache.invalidate
  | .clearAt index => cache.invalidateAt index
  | .keep => cache

/-- A force of either kind, of any element. -/
def CacheMove.forces : CacheMove Forced → Bool
  | set _ _ | clear => true
  | clearAt _ | keep => false

/-- A move that is about another element. -/
def CacheMove.Elsewhere (index : ℤ) (move : CacheMove Forced) : Prop :=
  (∀ value, move ≠ .set index value) ∧ move ≠ .clearAt index

theorem Cache.hit_iff {cache : Cache Forced} {epoch : ℕ} {index : ℤ} :
    cache.hit epoch index = true ↔ cache.callbackEpoch = some epoch ∧ cache.index = index := by
  simp only [Cache.hit, Bool.and_eq_true, decide_eq_true_eq]

theorem Cache.not_hit_invalidate (cache : Cache Forced) (epoch : ℕ) (index : ℤ) :
    cache.invalidate.hit epoch index = false := by
  simp only [Cache.hit, Cache.invalidate, reduceCtorEq, decide_false, Bool.false_and]

/-- A release of another element leaves the entry of this one. -/
theorem Cache.move_of_quiet {cache : Cache Forced} {epoch : ℕ} {index : ℤ} {move : CacheMove Forced}
    (hit : cache.hit epoch index = true) (elsewhere : move.Elsewhere index)
    (quiet : move.forces = false) : cache.move epoch move = cache := by
  cases move with
  | set | clear => cases quiet
  | keep => rfl
  | clearAt other =>
    refine if_neg fun here => elsewhere.2 ?_
    rw [← here, (Cache.hit_iff.mp hit).2]

/-- A force of another element takes the entry away. -/
theorem Cache.not_hit_of_forces {cache : Cache Forced} {epoch : ℕ} {index : ℤ}
    {move : CacheMove Forced} (elsewhere : move.Elsewhere index) (forces : move.forces = true) :
    (cache.move epoch move).hit epoch index = false := by
  cases move with
  | clearAt | keep => cases forces
  | clear => exact cache.not_hit_invalidate epoch index
  | set other value =>
    have different : other ≠ index := fun here => elsewhere.1 value (here ▸ rfl)
    simp only [Cache.move, Cache.hit, different, decide_false, Bool.and_false]

/-- Only a force of the element brings the entry back. -/
theorem Cache.not_hit_move {cache : Cache Forced} {epoch : ℕ} {index : ℤ} {move : CacheMove Forced}
    (miss : cache.hit epoch index = false) (elsewhere : move.Elsewhere index) :
    (cache.move epoch move).hit epoch index = false := by
  by_cases forces : move.forces = true
  · exact Cache.not_hit_of_forces elsewhere forces
  · cases move with
    | set | clear => exact absurd rfl forces
    | keep => exact miss
    | clearAt other =>
      simp only [Cache.move, Cache.invalidateAt]
      split
      · exact cache.not_hit_invalidate epoch index
      · exact miss

theorem Cache.not_hit_foldl {epoch : ℕ} {index : ℤ} {moves : List (CacheMove Forced)}
    (elsewhere : ∀ move ∈ moves, move.Elsewhere index) {cache : Cache Forced}
    (miss : cache.hit epoch index = false) :
    (moves.foldl (Cache.move epoch) cache).hit epoch index = false := by
  induction moves generalizing cache with
  | nil => exact miss
  | cons move later ih =>
    exact ih (fun move' mem => elsewhere move' (List.mem_cons_of_mem _ mem))
      (Cache.not_hit_move miss (elsewhere move List.mem_cons_self))

/-- **One entry for all elements**: it is still there exactly when no other element was forced. -/
theorem Cache.hit_foldl_iff {epoch : ℕ} {index : ℤ} {moves : List (CacheMove Forced)}
    (elsewhere : ∀ move ∈ moves, move.Elsewhere index) {cache : Cache Forced}
    (hit : cache.hit epoch index = true) :
    ((moves.foldl (Cache.move epoch) cache).hit epoch index = true ↔
        ∀ move ∈ moves, move.forces = false) ∧
      ((∀ move ∈ moves, move.forces = false) → moves.foldl (Cache.move epoch) cache = cache) := by
  induction moves with
  | nil => exact ⟨iff_of_true hit fun _ mem => absurd mem List.not_mem_nil, fun _ => rfl⟩
  | cons move later ih =>
    have here := elsewhere move List.mem_cons_self
    have rest : ∀ move' ∈ later, move'.Elsewhere index :=
      fun move' mem => elsewhere move' (List.mem_cons_of_mem _ mem)
    simp only [List.foldl_cons, List.forall_mem_cons]
    by_cases forces : move.forces = true
    · rw [Cache.not_hit_foldl rest (Cache.not_hit_of_forces here forces)]
      refine ⟨iff_of_false Bool.false_ne_true fun quiet => ?_, fun quiet => ?_⟩
      · exact Bool.false_ne_true (quiet.1 ▸ forces)
      · exact absurd (quiet.1 ▸ forces) Bool.false_ne_true
    · have quiet : move.forces = false := Bool.eq_false_iff.mpr forces
      rw [Cache.move_of_quiet hit here quiet]
      obtain ⟨still, same⟩ := ih rest
      exact ⟨still.trans (and_iff_right quiet).symm, fun all => same all.2⟩

/-- Where an entry comes from: it is new, or it was there and the move is not about it. -/
theorem Cache.move_valid {cache : Cache Forced} {epoch epoch' : ℕ} {move : CacheMove Forced}
    (valid : (cache.move epoch move).callbackEpoch = some epoch') :
    (∃ index value, move = .set index value ∧ epoch = epoch' ∧
        cache.move epoch move = ⟨some epoch, index, value⟩) ∨
      (cache.move epoch move = cache ∧ move.forces = false ∧ move.Elsewhere cache.index) := by
  cases move with
  | set index value => exact .inl ⟨index, value, rfl, Option.some.inj valid, rfl⟩
  | clear => cases valid
  | keep => exact .inr ⟨rfl, rfl, fun _ same => (by cases same), fun same => by cases same⟩
  | clearAt index =>
    by_cases here : cache.index = index
    · rw [Cache.move, Cache.invalidateAt, if_pos here] at valid
      cases valid
    · refine .inr ⟨if_neg here, rfl, fun _ same => (by cases same), fun same => ?_⟩
      exact here (CacheMove.clearAt.inj same).symm

end Moves

/-! ### Requests -/

section Requests

variable {width : ℕ}

namespace Request

/-- What a request does to the value forced through `force`. -/
def bitMove : Request width → CacheMove (Value width)
  | force index value => .set index (normalize value)
  | forceLogic _ _ => .clear
  | release index => .clearAt index
  | get _ | deposit _ _ | getLogic _ | depositLogic _ _ => .keep

/-- What a request does to the value forced through `force_logic`. -/
def logicMove : Request width → CacheMove (LogicBits width)
  | forceLogic index value => .set index value
  | force _ _ => .clear
  | release index => .clearAt index
  | get _ | deposit _ _ | getLogic _ | depositLogic _ _ => .keep

/-- A force, of either kind. -/
def forces : Request width → Bool
  | force _ _ | forceLogic _ _ => true
  | get _ | deposit _ _ | release _ | getLogic _ | depositLogic _ _ => false

/-- A force or a release of an element. -/
def Disturbs (index : ℤ) (request : Request width) : Prop :=
  (∃ value, request = force index value) ∨ (∃ value, request = forceLogic index value) ∨
    request = release index

theorem forces_bitMove (request : Request width) : request.bitMove.forces = request.forces := by
  cases request <;> rfl

theorem forces_logicMove (request : Request width) : request.logicMove.forces = request.forces := by
  cases request <;> rfl

theorem bitMove_elsewhere {request : Request width} {index : ℤ} (quiet : ¬request.Disturbs index) :
    request.bitMove.Elsewhere index := by
  refine ⟨fun value same => quiet ?_, fun same => quiet ?_⟩
  · cases request with
    | force other value' =>
      obtain ⟨rfl, -⟩ := CacheMove.set.inj same
      exact .inl ⟨value', rfl⟩
    | get | deposit | release | getLogic | depositLogic | forceLogic => cases same
  · cases request with
    | release other =>
      obtain rfl := CacheMove.clearAt.inj same
      exact .inr (.inr rfl)
    | get | deposit | force | getLogic | depositLogic | forceLogic => cases same

theorem logicMove_elsewhere {request : Request width} {index : ℤ} (quiet : ¬request.Disturbs index) :
    request.logicMove.Elsewhere index := by
  refine ⟨fun value same => quiet ?_, fun same => quiet ?_⟩
  · cases request with
    | forceLogic other value' =>
      obtain ⟨rfl, -⟩ := CacheMove.set.inj same
      exact .inr (.inl ⟨value', rfl⟩)
    | get | deposit | release | getLogic | depositLogic | force => cases same
  · cases request with
    | release other =>
      obtain rfl := CacheMove.clearAt.inj same
      exact .inr (.inr rfl)
    | get | deposit | force | getLogic | depositLogic | forceLogic => cases same

end Request

variable {World : Type} {signal : HierarchySignal} (simulator : Simulator World signal.width)

/-- One request on the value forced through `force`. -/
theorem settled_bitCache (cached : signal.immediateForceGet = true)
    (state : State World signal.width) (request : Request signal.width) :
    (settled signal simulator state request).bitCache =
      state.bitCache.move state.callback.epoch request.bitMove := by
  cases request with
  | force index value => exact if_pos cached
  | forceLogic index value => exact if_pos cached
  | release index => exact if_pos cached
  | get | deposit | getLogic | depositLogic => rfl

/-- One request on the value forced through `force_logic`. -/
theorem settled_logicCache (cached : signal.immediateLogicForceGet = true)
    (state : State World signal.width) (request : Request signal.width) :
    (settled signal simulator state request).logicCache =
      state.logicCache.move state.callback.epoch request.logicMove := by
  cases request with
  | force index value => exact if_pos cached
  | forceLogic index value => exact if_pos cached
  | release index => exact if_pos cached
  | get | deposit | getLogic | depositLogic => rfl

@[simp] theorem settled_callback (state : State World signal.width) (request : Request signal.width) :
    (settled signal simulator state request).callback = state.callback := by
  cases request <;> rfl

theorem foldl_settled_callback (requests : List (Request signal.width))
    (state : State World signal.width) :
    (requests.foldl (settled signal simulator) state).callback = state.callback := by
  induction requests generalizing state with
  | nil => rfl
  | cons request later ih => exact (ih _).trans (settled_callback simulator state request)

/-- A sequence of requests within a callback, on the value forced through `force`. -/
theorem foldl_settled_bitCache (cached : signal.immediateForceGet = true)
    (requests : List (Request signal.width)) (state : State World signal.width) :
    (requests.foldl (settled signal simulator) state).bitCache =
      (requests.map Request.bitMove).foldl (Cache.move state.callback.epoch) state.bitCache := by
  induction requests generalizing state with
  | nil => rfl
  | cons request later ih =>
    rw [List.foldl_cons, ih, settled_callback, settled_bitCache simulator cached, List.map_cons,
      List.foldl_cons]

/-- A sequence of requests within a callback, on the value forced through `force_logic`. -/
theorem foldl_settled_logicCache (cached : signal.immediateLogicForceGet = true)
    (requests : List (Request signal.width)) (state : State World signal.width) :
    (requests.foldl (settled signal simulator) state).logicCache =
      (requests.map Request.logicMove).foldl (Cache.move state.callback.epoch) state.logicCache := by
  induction requests generalizing state with
  | nil => rfl
  | cons request later ih =>
    rw [List.foldl_cons, ih, settled_callback, settled_logicCache simulator cached, List.map_cons,
      List.foldl_cons]

variable {simulator} {fourStateValues : Bool}

/-- A sequence of admissible requests goes through. -/
theorem accesses_ok {requests : List (Request signal.width)} {state : State World signal.width}
    (admissible : ∀ request ∈ requests,
      Admissible signal fourStateValues state.callback request) :
    accesses signal simulator fourStateValues requests state =
      .ok () (requests.foldl (settled signal simulator) state) := by
  induction requests generalizing state with
  | nil => rfl
  | cons request later ih =>
    have first : perform signal simulator fourStateValues request state =
        .ok () (settled signal simulator state request) :=
      perform_ok_iff.mpr ⟨admissible request List.mem_cons_self, rfl⟩
    refine (bind_of_ok first).trans (ih fun request' mem => ?_)
    rw [settled_callback]
    exact admissible request' (List.mem_cons_of_mem _ mem)

end Requests

/-! ### A force and a read -/

section Reads

variable {World : Type} (signal : HierarchySignal) (fourStateValues : Bool)

/-- A `force` of an element, other accesses, and a `get` of the element. -/
def readAfterForce (simulator : Simulator World signal.width) (index : ℤ)
    (value : Value signal.width) (later : List (Request signal.width)) :
    Access World signal.width (Value signal.width) := do
  Element.force signal simulator index value
  accesses signal simulator fourStateValues later
  Element.get signal simulator index

/-- A `force_logic` of an element, other accesses, and a `get_logic` of the element. -/
def readLogicAfterForce (simulator : Simulator World signal.width) (index : ℤ)
    (value : LogicBits signal.width) (later : List (Request signal.width)) :
    Access World signal.width (LogicBits signal.width) := do
  Element.forceLogic signal simulator fourStateValues index value
  accesses signal simulator fourStateValues later
  Element.getLogic signal simulator index

/-- A simulator that shows the same values until the callback ends. -/
def lagging {width : ℕ} (bits : BitVec width) (logic : LogicBits width) : Simulator World width where
  read _ _ := bits
  write world _ _ := world
  force world _ _ := world
  release world _ := world
  readLogic _ _ := logic
  writeLogic world _ _ := world
  forceLogic world _ _ := world

variable {signal fourStateValues} {state : State World signal.width} {index : ℤ}
  {later : List (Request signal.width)}

/-- A signal has two values at least. -/
theorem not_ne_self (signal : HierarchySignal) (bits : BitVec signal.width) : ~~~bits ≠ bits := by
  intro same
  have bit := congrArg (fun vector => vector.getLsbD 0) same
  simp only [BitVec.getLsbD_not, signal.positive, decide_true, Bool.true_and] at bit
  exact absurd bit (Bool.not_ne_self _)

/-- The read after a force, as the transport answers it. -/
theorem readAfterForce_eq (simulator : Simulator World signal.width) {value : Value signal.width}
    (readable : signal.selected .get = true)
    (forced : Admissible signal fourStateValues state.callback (.force index value))
    (admissible : ∀ request ∈ later, Admissible signal fourStateValues state.callback request) :
    ∃ final, readAfterForce signal fourStateValues simulator index value later state =
        .ok (normalize (transportBits signal simulator final index)) final ∧
      final = (Request.force index value :: later).foldl (settled signal simulator) state := by
  refine ⟨_, ?_, rfl⟩
  have all := @accesses_ok _ _ simulator _ (.force index value :: later) _
    (List.forall_mem_cons.mpr ⟨forced, admissible⟩)
  obtain ⟨_, middle, first, rest⟩ := ok_of_bind all
  refine (bind_of_ok first).trans ((bind_of_ok rest).trans ?_)
  refine (get_ok_iff fourStateValues).mpr ⟨?_, rfl, rfl⟩
  rw [foldl_settled_callback]
  exact ⟨forced.bounds, forced.inside, trivial, trivial, readable⟩

theorem readLogicAfterForce_eq (simulator : Simulator World signal.width)
    {value : LogicBits signal.width} (readable : signal.selected .getLogic = true)
    (forced : Admissible signal fourStateValues state.callback (.forceLogic index value))
    (admissible : ∀ request ∈ later, Admissible signal fourStateValues state.callback request) :
    ∃ final, readLogicAfterForce signal fourStateValues simulator index value later state =
        .ok (transportLogic signal simulator final index) final ∧
      final = (Request.forceLogic index value :: later).foldl (settled signal simulator) state := by
  refine ⟨_, ?_, rfl⟩
  have all := @accesses_ok _ _ simulator _ (.forceLogic index value :: later) _
    (List.forall_mem_cons.mpr ⟨forced, admissible⟩)
  obtain ⟨_, middle, first, rest⟩ := ok_of_bind all
  refine (bind_of_ok first).trans ((bind_of_ok rest).trans ?_)
  refine (getLogic_ok_iff fourStateValues).mpr ⟨?_, rfl, rfl⟩
  rw [foldl_settled_callback]
  exact ⟨forced.bounds, forced.inside, trivial, trivial, readable⟩

/-- The entry after a force and other requests. -/
theorem bitCache_after_force (simulator : Simulator World signal.width)
    (cached : signal.immediateForceGet = true) (value : Value signal.width)
    (later : List (Request signal.width)) :
    ((Request.force index value :: later).foldl (settled signal simulator) state).bitCache =
      (later.map Request.bitMove).foldl (Cache.move state.callback.epoch)
        ⟨some state.callback.epoch, index, normalize value⟩ :=
  foldl_settled_bitCache simulator cached _ state

theorem logicCache_after_force (simulator : Simulator World signal.width)
    (cached : signal.immediateLogicForceGet = true) (value : LogicBits signal.width)
    (later : List (Request signal.width)) :
    ((Request.forceLogic index value :: later).foldl (settled signal simulator) state).logicCache =
      (later.map Request.logicMove).foldl (Cache.move state.callback.epoch)
        ⟨some state.callback.epoch, index, value⟩ :=
  foldl_settled_logicCache simulator cached _ state

/-- **A read after a force sees the forced value exactly when no other element was forced since.** -/
theorem get_after_force_iff (cached : signal.immediateForceGet = true) {value : Value signal.width}
    (forced : Admissible signal fourStateValues state.callback (.force index value))
    (admissible : ∀ request ∈ later, Admissible signal fourStateValues state.callback request)
    (quiet : ∀ request ∈ later, ¬request.Disturbs index) :
    (∀ simulator, ∃ final, readAfterForce signal fourStateValues simulator index value later state =
        .ok (normalize value) final) ↔
      ∀ request ∈ later, request.forces = false := by
  have readable : signal.selected .get = true := (Bool.and_eq_true_iff.mp cached).1
  have elsewhere : ∀ move ∈ later.map Request.bitMove, move.Elsewhere index :=
    List.forall_mem_map.mpr fun request mem => Request.bitMove_elsewhere (quiet request mem)
  have fresh : (⟨some state.callback.epoch, index, normalize value⟩ :
      Cache (Value signal.width)).hit state.callback.epoch index = true :=
    Cache.hit_iff.mpr ⟨rfl, rfl⟩
  obtain ⟨still, same⟩ := Cache.hit_foldl_iff elsewhere fresh
  simp only [List.forall_mem_map, Request.forces_bitMove] at still same
  constructor
  · intro reads
    by_contra some
    -- a simulator that still shows another value
    obtain ⟨final, read⟩ := reads (lagging (~~~value.setWidth signal.width) ⟨0, 0⟩)
    obtain ⟨final', read', reached⟩ := readAfterForce_eq
      (lagging (~~~value.setWidth signal.width) ⟨0, 0⟩) readable forced admissible
    obtain ⟨answer, rfl⟩ := EStateM.Result.ok.inj (read'.symm.trans read)
    have miss : final'.bitCache.hit final'.callback.epoch index = false := by
      rw [reached, foldl_settled_callback, bitCache_after_force _ cached]
      exact Bool.eq_false_iff.mpr fun hit => some (still.mp hit)
    rw [transportBits, miss, Bool.and_false, if_neg Bool.false_ne_true, normalize_setWidth] at answer
    have bits := congrArg (fun read => read.setWidth signal.width) answer
    simp only [setWidth_setWidth_valueBits, setWidth_normalize] at bits
    exact not_ne_self signal _ bits
  · intro none simulator
    obtain ⟨final, read, reached⟩ := readAfterForce_eq simulator readable forced admissible
    refine ⟨final, read.trans ?_⟩
    have kept : final.bitCache = ⟨some state.callback.epoch, index, normalize value⟩ := by
      rw [reached, bitCache_after_force _ cached]
      exact same none
    have epoch : final.callback = state.callback := by rw [reached, foldl_settled_callback]
    rw [transportBits, kept, epoch, fresh, cached, Bool.and_self, if_pos rfl, normalize_normalize]

/-- The same for `force_logic` and `get_logic`. -/
theorem getLogic_after_force_iff (cached : signal.immediateLogicForceGet = true)
    {value : LogicBits signal.width}
    (forced : Admissible signal fourStateValues state.callback (.forceLogic index value))
    (admissible : ∀ request ∈ later, Admissible signal fourStateValues state.callback request)
    (quiet : ∀ request ∈ later, ¬request.Disturbs index) :
    (∀ simulator, ∃ final,
        readLogicAfterForce signal fourStateValues simulator index value later state =
          .ok value final) ↔
      ∀ request ∈ later, request.forces = false := by
  have readable : signal.selected .getLogic = true := (Bool.and_eq_true_iff.mp cached).1
  have elsewhere : ∀ move ∈ later.map Request.logicMove, move.Elsewhere index :=
    List.forall_mem_map.mpr fun request mem => Request.logicMove_elsewhere (quiet request mem)
  have fresh : (⟨some state.callback.epoch, index, value⟩ :
      Cache (LogicBits signal.width)).hit state.callback.epoch index = true :=
    Cache.hit_iff.mpr ⟨rfl, rfl⟩
  obtain ⟨still, same⟩ := Cache.hit_foldl_iff elsewhere fresh
  simp only [List.forall_mem_map, Request.forces_logicMove] at still same
  constructor
  · intro reads
    by_contra some
    obtain ⟨final, read⟩ := reads (lagging 0 ⟨~~~value.value, value.unknown⟩)
    obtain ⟨final', read', reached⟩ := readLogicAfterForce_eq
      (lagging 0 ⟨~~~value.value, value.unknown⟩) readable forced admissible
    obtain ⟨answer, rfl⟩ := EStateM.Result.ok.inj (read'.symm.trans read)
    have miss : final'.logicCache.hit final'.callback.epoch index = false := by
      rw [reached, foldl_settled_callback, logicCache_after_force _ cached]
      exact Bool.eq_false_iff.mpr fun hit => some (still.mp hit)
    rw [transportLogic, miss, Bool.and_false, if_neg Bool.false_ne_true] at answer
    exact not_ne_self signal _ (congrArg LogicBits.value answer)
  · intro none simulator
    obtain ⟨final, read, reached⟩ := readLogicAfterForce_eq simulator readable forced admissible
    refine ⟨final, read.trans ?_⟩
    have kept : final.logicCache = ⟨some state.callback.epoch, index, value⟩ := by
      rw [reached, logicCache_after_force _ cached]
      exact same none
    have epoch : final.callback = state.callback := by rw [reached, foldl_settled_callback]
    rw [transportLogic, kept, epoch, fresh, cached, Bool.and_self, if_pos rfl]

end Reads

/-! ### Histories -/

section Histories

/-- What happens to a signal over several callbacks. -/
inductive Event (width : ℕ)
  | enter (phase : CallbackPhase)
  | leave
  | access (request : Request width)

variable {World : Type} (signal : HierarchySignal) (fourStateValues : Bool)
  (simulator : Simulator World signal.width)

def happen : Event signal.width → Access World signal.width Unit
  | .enter phase => modify fun state => { state with callback := state.callback.enter phase }
  | .leave => modify fun state => { state with callback := state.callback.leave }
  | .access request => perform signal simulator fourStateValues request

def history : List (Event signal.width) → Access World signal.width Unit
  | [] => pure ()
  | event :: later => do
    happen signal fourStateValues simulator event
    history later

/-- The callbacks of a history. -/
def callbackAfter {width : ℕ} (events : List (Event width)) : Callback :=
  events.foldl (fun callback event =>
    match event with
    | .enter phase => callback.enter phase
    | .leave => callback.leave
    | .access _ => callback) {}

/-- A force of an element through `request`, in the callback a history ends in, after which the element
was neither forced nor released. -/
def SinceForced {width : ℕ} (events : List (Event width)) (index : ℤ) (request : Request width) :
    Prop :=
  ∃ before after, events = before ++ .access request :: after ∧
    (callbackAfter before).epoch = (callbackAfter events).epoch ∧
    ∀ request', Event.access request' ∈ after → ¬request'.Disturbs index

/-- Where a valid entry comes from. -/
def Origin {Forced : Type} {width : ℕ} (moveOf : Request width → CacheMove Forced)
    (events : List (Event width)) (cache : Cache Forced) : Prop :=
  ∀ epoch, cache.callbackEpoch = some epoch → ∃ before request after,
    events = before ++ .access request :: after ∧ (callbackAfter before).epoch = epoch ∧
      moveOf request = .set cache.index cache.value ∧
      ∀ request', Event.access request' ∈ after → ¬request'.Disturbs cache.index

/-- A move that neither forces nor is about an element says so of its request. -/
def Faithful {Forced : Type} {width : ℕ} (moveOf : Request width → CacheMove Forced) : Prop :=
  ∀ request index, (moveOf request).forces = false → (moveOf request).Elsewhere index →
    ¬request.Disturbs index

theorem faithful_bitMove {width : ℕ} : Faithful (@Request.bitMove width) := by
  rintro request index quiet elsewhere (⟨value, rfl⟩ | ⟨value, rfl⟩ | rfl)
  · cases quiet
  · cases quiet
  · exact elsewhere.2 rfl

theorem faithful_logicMove {width : ℕ} : Faithful (@Request.logicMove width) := by
  rintro request index quiet elsewhere (⟨value, rfl⟩ | ⟨value, rfl⟩ | rfl)
  · cases quiet
  · cases quiet
  · exact elsewhere.2 rfl

/-- An event without a request leaves the origin. -/
theorem Origin.snoc_of_same {Forced : Type} {width : ℕ} {moveOf : Request width → CacheMove Forced}
    {events : List (Event width)} {cache : Cache Forced} {event : Event width}
    (origin : Origin moveOf events cache)
    (quiet : ∀ request, event = .access request → ¬request.Disturbs cache.index) :
    Origin moveOf (events ++ [event]) cache := by
  intro epoch valid
  obtain ⟨before, request, after, split, epochs, set, calm⟩ := origin epoch valid
  refine ⟨before, request, after ++ [event], ?_, epochs, set, fun request' mem => ?_⟩
  · rw [split, List.append_assoc, List.cons_append]
  · rcases List.mem_append.mp mem with earlier | last
    · exact calm request' earlier
    · exact quiet request' (List.mem_singleton.mp last).symm

/-- The step of `Origin`. -/
theorem Origin.snoc_access {Forced : Type} {width : ℕ} {moveOf : Request width → CacheMove Forced}
    (faithful : Faithful moveOf) {events : List (Event width)} {cache : Cache Forced}
    (origin : Origin moveOf events cache) (request : Request width) :
    Origin moveOf (events ++ [.access request])
      (cache.move (callbackAfter events).epoch (moveOf request)) := by
  intro epoch valid
  rcases Cache.move_valid valid with ⟨index, value, set, rfl, moved⟩ | ⟨same, quiet, elsewhere⟩
  · refine ⟨events, request, [], rfl, rfl, ?_, fun _ mem => absurd mem List.not_mem_nil⟩
    rw [moved, set]
  · rw [same] at valid ⊢
    refine (@Origin.snoc_of_same _ _ _ _ _ (.access request) origin fun request' here => ?_) epoch valid
    obtain rfl := Event.access.inj here
    exact faithful request cache.index quiet elsewhere

theorem callbackAfter_snoc {width : ℕ} (events : List (Event width)) (event : Event width) :
    callbackAfter (events ++ [event]) =
      match event with
      | .enter phase => (callbackAfter events).enter phase
      | .leave => (callbackAfter events).leave
      | .access _ => callbackAfter events := by
  rw [callbackAfter, List.foldl_append]
  rfl

variable {signal fourStateValues simulator}

theorem history_snoc {events : List (Event signal.width)} {event : Event signal.width}
    {start final : State World signal.width}
    (done : history signal fourStateValues simulator (events ++ [event]) start = .ok () final) :
    ∃ middle, history signal fourStateValues simulator events start = .ok () middle ∧
      happen signal fourStateValues simulator event middle = .ok () final := by
  induction events generalizing start with
  | nil =>
    obtain ⟨_, middle, first, rest⟩ := ok_of_bind done
    obtain ⟨-, rfl⟩ := EStateM.Result.ok.inj rest
    exact ⟨start, rfl, first⟩
  | cons first later ih =>
    obtain ⟨_, middle, here, rest⟩ := ok_of_bind done
    obtain ⟨before, reached, last⟩ := ih rest
    exact ⟨before, (bind_of_ok here).trans reached, last⟩

/-- **A valid entry comes from a force in its callback, with no force and no release since.** -/
theorem origin_of_history {events : List (Event signal.width)} {world : World}
    {final : State World signal.width}
    (done : history signal fourStateValues simulator events { world } = .ok () final) :
    final.callback = callbackAfter events ∧
      (signal.immediateForceGet = true → Origin Request.bitMove events final.bitCache) ∧
      (signal.immediateLogicForceGet = true →
        Origin Request.logicMove events final.logicCache) := by
  induction events using List.reverseRecOn generalizing final with
  | nil =>
    obtain ⟨-, rfl⟩ := EStateM.Result.ok.inj done
    exact ⟨rfl, fun _ _ valid => (by cases valid), fun _ _ valid => by cases valid⟩
  | append_singleton events event ih =>
    obtain ⟨middle, reached, last⟩ := history_snoc done
    obtain ⟨callback, bits, logic⟩ := ih reached
    rw [callbackAfter_snoc]
    cases event with
    | enter phase =>
      obtain ⟨-, rfl⟩ := EStateM.Result.ok.inj last
      exact ⟨congrArg (fun callback => callback.enter phase) callback,
        fun cached => (bits cached).snoc_of_same fun _ here => (by cases here),
        fun cached => (logic cached).snoc_of_same fun _ here => by cases here⟩
    | leave =>
      obtain ⟨-, rfl⟩ := EStateM.Result.ok.inj last
      exact ⟨congrArg Callback.leave callback,
        fun cached => (bits cached).snoc_of_same fun _ here => (by cases here),
        fun cached => (logic cached).snoc_of_same fun _ here => by cases here⟩
    | access request =>
      obtain ⟨-, rfl⟩ := perform_ok_iff.mp last
      refine ⟨(settled_callback simulator middle request).trans callback, fun cached => ?_,
        fun cached => ?_⟩
      · rw [settled_bitCache simulator cached, callback]
        exact (bits cached).snoc_access faithful_bitMove request
      · rw [settled_logicCache simulator cached, callback]
        exact (logic cached).snoc_access faithful_logicMove request

/-- **A read returns what the simulator reads, or the value of a force that still stands.** -/
theorem get_of_history {events : List (Event signal.width)} {world : World}
    {state final : State World signal.width} {index : ℤ} {value : Value signal.width}
    (done : history signal fourStateValues simulator events { world } = .ok () state)
    (read : Element.get signal simulator index state = .ok value final) :
    value = (simulator.read state.world index).setWidth _ ∨
      ∃ forced, value = normalize forced ∧ SinceForced events index (.force index forced) := by
  obtain ⟨-, rfl, -⟩ := (get_ok_iff fourStateValues).mp read
  obtain ⟨callback, bits, -⟩ := origin_of_history done
  unfold transportBits
  split
  · next hit =>
    obtain ⟨cached, hit⟩ := Bool.and_eq_true_iff.mp hit
    obtain ⟨valid, here⟩ := Cache.hit_iff.mp hit
    obtain ⟨before, request, after, split, epochs, set, calm⟩ := bits cached _ valid
    obtain ⟨forced, rfl, kept⟩ : ∃ forced, request = .force index forced ∧
        state.bitCache.value = normalize forced := by
      cases request with
      | force other forced =>
        obtain ⟨rfl, kept⟩ := CacheMove.set.inj set
        exact ⟨forced, here ▸ rfl, kept.symm⟩
      | get | deposit | release | getLogic | depositLogic | forceLogic => cases set
    refine .inr ⟨forced, ?_, before, after, split, ?_, here ▸ calm⟩
    · rw [kept, normalize_normalize]
    · rw [epochs, callback]
  · exact .inl (normalize_setWidth _)

theorem getLogic_of_history {events : List (Event signal.width)} {world : World}
    {state final : State World signal.width} {index : ℤ} {value : LogicBits signal.width}
    (done : history signal fourStateValues simulator events { world } = .ok () state)
    (read : Element.getLogic signal simulator index state = .ok value final) :
    value = simulator.readLogic state.world index ∨
      SinceForced events index (.forceLogic index value) := by
  obtain ⟨-, rfl, -⟩ := (getLogic_ok_iff fourStateValues).mp read
  obtain ⟨callback, -, logic⟩ := origin_of_history done
  unfold transportLogic
  split
  · next hit =>
    obtain ⟨cached, hit⟩ := Bool.and_eq_true_iff.mp hit
    obtain ⟨valid, here⟩ := Cache.hit_iff.mp hit
    obtain ⟨before, request, after, split, epochs, set, calm⟩ := logic cached _ valid
    obtain rfl : request = .forceLogic index state.logicCache.value := by
      cases request with
      | forceLogic other forced =>
        obtain ⟨rfl, rfl⟩ := CacheMove.set.inj set
        rw [here]
      | get | deposit | release | getLogic | depositLogic | force => cases set
    exact .inr ⟨before, after, split, by rw [epochs, callback], here ▸ calm⟩
  · exact .inl rfl

end Histories

/-! ### Reads and forces -/

section ForcedReads

/-- **What reads return.** After a force of an element and accesses that neither force nor release that
element, a read of the same kind returns the forced value whatever the simulator shows exactly when no
other element was forced either, of any kind. Over several callbacks a read returns what the simulator
shows, or the value of a force of the element in this callback after which the element was neither
forced nor released. -/
theorem forced_reads {World : Type} (signal : HierarchySignal) (fourStateValues : Bool) :
    (signal.immediateForceGet = true →
      ∀ (state : State World signal.width) (index : ℤ) (value : Value signal.width)
        (later : List (Request signal.width)),
        Admissible signal fourStateValues state.callback (.force index value) →
        (∀ request ∈ later, Admissible signal fourStateValues state.callback request) →
        (∀ request ∈ later, ¬request.Disturbs index) →
        ((∀ simulator, ∃ final,
            readAfterForce signal fourStateValues simulator index value later state =
              .ok (normalize value) final) ↔
          ∀ request ∈ later, request.forces = false)) ∧
    (signal.immediateLogicForceGet = true →
      ∀ (state : State World signal.width) (index : ℤ) (value : LogicBits signal.width)
        (later : List (Request signal.width)),
        Admissible signal fourStateValues state.callback (.forceLogic index value) →
        (∀ request ∈ later, Admissible signal fourStateValues state.callback request) →
        (∀ request ∈ later, ¬request.Disturbs index) →
        ((∀ simulator, ∃ final,
            readLogicAfterForce signal fourStateValues simulator index value later state =
              .ok value final) ↔
          ∀ request ∈ later, request.forces = false)) ∧
    ∀ (simulator : Simulator World signal.width) (events : List (Event signal.width)) (world : World)
      (state : State World signal.width),
      history signal fourStateValues simulator events { world } = .ok () state →
      (∀ index value final, Element.get signal simulator index state = .ok value final →
        value = (simulator.read state.world index).setWidth _ ∨
          ∃ forced, value = normalize forced ∧ SinceForced events index (.force index forced)) ∧
      (∀ index value final, Element.getLogic signal simulator index state = .ok value final →
        value = simulator.readLogic state.world index ∨
          SinceForced events index (.forceLogic index value)) :=
  ⟨fun cached _ _ _ _ forced admissible quiet => get_after_force_iff cached forced admissible quiet,
    fun cached _ _ _ _ forced admissible quiet =>
      getLogic_after_force_iff cached forced admissible quiet,
    fun _ _ _ _ done => ⟨fun _ _ _ read => get_of_history done read,
      fun _ _ _ read => getLogic_of_history done read⟩⟩

theorem twoBytes_positive : 0 < 8 := by decide

/-- A memory of two bytes with every access. -/
def twoBytes : HierarchySignal where
  width := 8
  unpacked := [⟨0, 1⟩]
  selected _ := true
  positive := twoBytes_positive

/-- A testbench inside a callback. -/
def insideCallback : State Unit twoBytes.width where
  world := ()
  callback := Callback.enter {} .evaluation

/-- Deposits and a release of the second byte do not matter. -/
theorem forced_reads_twoBytes (simulator : Simulator Unit twoBytes.width) :
    ∃ final, readAfterForce twoBytes false simulator 0 5 [.deposit 0 3, .release 1] insideCallback =
      .ok 5 final := by
  have inside : insideCallback.callback.scopes ≠ [] := by decide
  have phase : insideCallback.callback.phase ≠ .readOnly := by decide
  refine (((forced_reads twoBytes false).1 rfl insideCallback 0 5 [.deposit 0 3, .release 1]
    ⟨by decide, inside, phase, trivial, rfl⟩ ?_ ?_).mpr ?_) simulator
  · intro request mem
    rcases List.mem_cons.mp mem with rfl | mem
    · exact ⟨by decide, inside, phase, trivial, rfl⟩
    · obtain rfl := List.mem_singleton.mp mem
      exact ⟨by decide, inside, phase, trivial, rfl⟩
  · intro request mem
    rcases List.mem_cons.mp mem with rfl | mem
    · rintro (⟨_, same⟩ | ⟨_, same⟩ | same) <;> cases same
    · obtain rfl := List.mem_singleton.mp mem
      rintro (⟨_, same⟩ | ⟨_, same⟩ | same) <;> cases same
  · decide

/-- A force of the second byte takes the value forced on the first one away. -/
theorem forced_read_lost :
    ¬∀ simulator : Simulator Unit twoBytes.width, ∃ final,
      readAfterForce twoBytes false simulator 0 5 [.force 1 9] insideCallback = .ok 5 final := by
  intro reads
  obtain ⟨final, read⟩ := reads (lagging 0 ⟨0, 0⟩)
  have stale : readAfterForce twoBytes false (lagging 0 ⟨0, 0⟩) 0 5 [.force 1 9] insideCallback =
      .ok 0 { insideCallback with bitCache := ⟨some 1, 1, 9⟩ } := by with_unfolding_all rfl
  obtain ⟨differs, -⟩ := EStateM.Result.ok.inj (stale.symm.trans read)
  exact absurd differs (by decide)

end ForcedReads

end Cpptb.Hierarchy
