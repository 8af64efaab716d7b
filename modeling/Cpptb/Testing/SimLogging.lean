/-
Log messages from SystemVerilog on their way to a test.

* `SimLogEndpoint` with its operations; an owner that is handed a message can emit further messages and
  unbind before it returns (`Act`).
* `Accounted`: every message since the last `prepare_for_run` is handed over once and in the order in
  which the messages are emitted, to the owner that is bound and otherwise to the sink for messages
  without an owner, or waits while messages are collected.
* `accounted_actAll`, `accounted_replay`: nothing an owner does breaks this, except while a `bind`
  still has messages to replay.
* `messages_accounted`: runs in which no owner acts while messages are left to replay.
-/

import Cpptb.Testing.RunState

namespace Cpptb.SimLogging

open Testing (LogLevel logLevelEnabled)

/-! ### Messages -/

/-- `SimLogMessage`, and `StoredSimLogMessage` as a copy of it. -/
structure SimLogMessage where
  level : LogLevel := .info
  message : String := ""
  scope : String := ""
  sourceFile : String := ""
  hierarchy : String := ""
  simulationTimeFs : ℕ := 0
  sourceLine : ℕ := 0
  deriving DecidableEq, Repr

/-- `LogOrigin`. -/
inductive LogOrigin
  | cpp
  | systemVerilog
  deriving DecidableEq, Repr

/-- `LogRecord`, as far as the endpoint fills it. -/
structure LogRecord where
  level : LogLevel
  origin : LogOrigin
  message : String
  scope : String
  sourceFile : String
  hierarchy : String
  simulationTimeFs : ℕ
  sourceLine : ℕ
  deriving DecidableEq, Repr

/-- What `emit_unowned` makes of a message. -/
def SimLogMessage.record (message : SimLogMessage) : LogRecord where
  level := message.level
  origin := .systemVerilog
  message := message.message
  scope := message.scope
  sourceFile := message.sourceFile
  hierarchy := message.hierarchy
  simulationTimeFs := message.simulationTimeFs
  sourceLine := message.sourceLine

/-- What an owner does while it is handed a message. A message comes with what the owner that is handed
it does. -/
inductive Act
  | emit (message : SimLogMessage) (inside : List Act)
  | unbind (owner : ℕ) (finished : Bool)

/-- A message with its number in the order of emission. -/
structure Sent where
  number : ℕ
  message : SimLogMessage
  inside : List Act

/-- Where a message ends up. `filtered` is the early return of `emit_unowned`. -/
inductive Handover
  | owner (owner : ℕ)
  | unowned (record : LogRecord)
  | filtered (minimumLevel : LogLevel)
  deriving DecidableEq, Repr

/-- A message that is handed over, with the owner that is bound at the time. -/
structure Handed where
  number : ℕ
  message : SimLogMessage
  bound : Option ℕ
  handover : Handover
  deriving DecidableEq, Repr

/-! ### The endpoint -/

/-- `SimLogEndpoint::State`. -/
inductive State
  | collecting
  | bound
  | finished
  deriving DecidableEq, Repr

/-- `SimLogEndpoint`. `owner` stands for `owner_` and `emit_`. `count`, `sent` and `handed` record what
happens: the number of messages so far, the messages since the last `prepare_for_run`, and those of them
that are handed over. -/
structure SimLogEndpoint where
  owner : Option ℕ := none
  minimumLevel : LogLevel := .trace
  state : State := .collecting
  pending : List Sent := []
  count : ℕ := 0
  sent : List (ℕ × SimLogMessage) := []
  handed : List Handed := []

namespace SimLogEndpoint

/-- Record that a message is handed over. -/
def hand (endpoint : SimLogEndpoint) (number : ℕ) (message : SimLogMessage) (handover : Handover) :
    SimLogEndpoint :=
  { endpoint with handed := endpoint.handed ++ [⟨number, message, endpoint.owner, handover⟩] }

/-- Record that a message is emitted. -/
def send (endpoint : SimLogEndpoint) (message : SimLogMessage) : SimLogEndpoint :=
  { endpoint with
    count := endpoint.count + 1
    sent := endpoint.sent ++ [(endpoint.count, message)] }

/-- `emit_unowned`. -/
def emitUnowned (endpoint : SimLogEndpoint) (number : ℕ) (message : SimLogMessage) : SimLogEndpoint :=
  if !logLevelEnabled message.level endpoint.minimumLevel then
    endpoint.hand number message (.filtered endpoint.minimumLevel)
  else endpoint.hand number message (.unowned message.record)

/-- `unbind`. -/
def unbind (endpoint : SimLogEndpoint) (owner : ℕ) (finished : Bool) : SimLogEndpoint :=
  if endpoint.owner ≠ some owner then endpoint
  else { endpoint with owner := none, state := if finished then .finished else .collecting }

mutual

/-- `emit` and `unbind` from inside a delivery. In `emit`, `emit_record` hands the message to the owner,
if there is one. -/
def act : SimLogEndpoint → Act → SimLogEndpoint
  | endpoint, .emit message inside =>
    let sent := endpoint.send message
    match endpoint.state with
    | .bound =>
      match endpoint.owner with
      | some owner => actAll (sent.hand endpoint.count message (.owner owner)) inside
      | none => sent
    | .collecting => { sent with pending := sent.pending ++ [⟨endpoint.count, message, inside⟩] }
    | .finished => sent.emitUnowned endpoint.count message
  | endpoint, .unbind owner finished => endpoint.unbind owner finished

/-- One after the other. -/
def actAll : SimLogEndpoint → List Act → SimLogEndpoint
  | endpoint, [] => endpoint
  | endpoint, first :: rest => actAll (act endpoint first) rest

end

/-- `emit_record`. -/
def emitRecord (endpoint : SimLogEndpoint) (record : Sent) : SimLogEndpoint :=
  match endpoint.owner with
  | some owner => (endpoint.hand record.number record.message (.owner owner)).actAll record.inside
  | none => endpoint

/-- The loop of `bind`. -/
def replay (endpoint : SimLogEndpoint) (pending : List Sent) : SimLogEndpoint :=
  pending.foldl emitRecord endpoint

/-- `prepare_for_run`. -/
def prepareForRun (endpoint : SimLogEndpoint) : SimLogEndpoint :=
  let pending := if endpoint.state ≠ .collecting then [] else endpoint.pending
  { endpoint with
    pending := pending
    owner := none
    minimumLevel := .trace
    state := .collecting
    sent := pending.map fun record => (record.number, record.message)
    handed := [] }

/-- `bind`. -/
def bind (endpoint : SimLogEndpoint) (owner : ℕ) (minimumLevel : LogLevel) : SimLogEndpoint :=
  { endpoint with
    owner := some owner
    minimumLevel := minimumLevel
    state := .bound
    pending := [] }.replay endpoint.pending

/-- `finish_unowned`. -/
def finishUnowned (endpoint : SimLogEndpoint) (minimumLevel : LogLevel) : SimLogEndpoint :=
  endpoint.pending.foldl (fun endpoint record => endpoint.emitUnowned record.number record.message)
    { endpoint with
      owner := none
      minimumLevel := minimumLevel
      state := .finished
      pending := [] }

end SimLogEndpoint

/-- The operations from outside of a delivery. -/
inductive Operation
  | prepareForRun
  | act (act : Act)
  | bind (owner : ℕ) (minimumLevel : LogLevel)
  | finishUnowned (minimumLevel : LogLevel)

namespace SimLogEndpoint

/-- One operation. -/
def perform (endpoint : SimLogEndpoint) : Operation → SimLogEndpoint
  | .prepareForRun => endpoint.prepareForRun
  | .act act => endpoint.act act
  | .bind owner minimumLevel => endpoint.bind owner minimumLevel
  | .finishUnowned minimumLevel => endpoint.finishUnowned minimumLevel

/-- A run. -/
def run (endpoint : SimLogEndpoint) (operations : List Operation) : SimLogEndpoint :=
  operations.foldl perform endpoint

end SimLogEndpoint

/-! ### What a run must account for -/

/-- A message with its number, wherever it is. -/
def Handed.tagged (handed : Handed) : ℕ × SimLogMessage := (handed.number, handed.message)

def Sent.tagged (record : Sent) : ℕ × SimLogMessage := (record.number, record.message)

/-- The messages `waiting` are on their way to the owner. -/
structure Underway (endpoint : SimLogEndpoint) (waiting : List Sent) : Prop where
  order : endpoint.handed.map (·.tagged) ++ (waiting ++ endpoint.pending).map (·.tagged) = endpoint.sent
  numbered : (endpoint.sent.map (·.1)).Pairwise (· < ·)
  below : ∀ entry ∈ endpoint.sent, entry.1 < endpoint.count
  collected : endpoint.state ≠ .collecting → endpoint.pending = []
  bound_iff : endpoint.state = .bound ↔ endpoint.owner.isSome = true
  recipients : ∀ handed ∈ endpoint.handed,
    match handed.handover with
    | .owner owner => handed.bound = some owner
    | .unowned record => handed.bound = none ∧ record = handed.message.record
    | .filtered minimumLevel =>
      handed.bound = none ∧ logLevelEnabled handed.message.level minimumLevel = false

/-- Every message since the last `prepare_for_run` is handed over once and in the order of emission, or
waits while messages are collected: to the owner that is bound, and otherwise to the sink for messages
without an owner, which leaves out those below its level. -/
def Accounted (endpoint : SimLogEndpoint) : Prop := Underway endpoint []

section

variable {endpoint : SimLogEndpoint} {waiting : List Sent}

/-- The next message is handed over. -/
theorem Underway.hand {record : Sent} (underway : Underway endpoint (record :: waiting)) (handover : Handover)
    (right : match handover with
      | .owner owner => endpoint.owner = some owner
      | .unowned shown => endpoint.owner = none ∧ shown = record.message.record
      | .filtered minimumLevel =>
        endpoint.owner = none ∧ logLevelEnabled record.message.level minimumLevel = false) :
    Underway (endpoint.hand record.number record.message handover) waiting where
  order := by
    have order := underway.order
    unfold SimLogEndpoint.hand
    rw [List.map_append, List.append_assoc]
    exact order
  numbered := underway.numbered
  below := underway.below
  collected := underway.collected
  bound_iff := underway.bound_iff
  recipients := by
    intro handed member
    rcases List.mem_append.mp member with old | new
    · exact underway.recipients handed old
    · rw [List.mem_singleton.mp new]
      exact right

theorem Accounted.numbered_send (accounted : Accounted endpoint) (message : SimLogMessage) :
    ((endpoint.send message).sent.map (·.1)).Pairwise (· < ·) := by
  unfold SimLogEndpoint.send
  rw [List.map_append]
  refine List.pairwise_append.mpr ⟨accounted.numbered, List.pairwise_singleton _ _, fun number member last => ?_⟩
  obtain ⟨entry, here, rfl⟩ := List.mem_map.mp member
  intro isLast
  rw [List.mem_singleton.mp isLast]
  exact accounted.below entry here

theorem Accounted.below_send (accounted : Accounted endpoint) (message : SimLogMessage) :
    ∀ entry ∈ (endpoint.send message).sent, entry.1 < (endpoint.send message).count := by
  intro entry member
  rcases List.mem_append.mp member with old | new
  · exact Nat.lt_succ_of_lt (accounted.below entry old)
  · rw [List.mem_singleton.mp new]
    exact Nat.lt_succ_self _

/-- A message that is emitted is the last one. -/
theorem Accounted.send (accounted : Accounted endpoint) (message : SimLogMessage) (inside : List Act)
    (opened : endpoint.state ≠ .collecting) :
    Underway (endpoint.send message) [⟨endpoint.count, message, inside⟩] where
  order := by
    have order := accounted.order
    have none : endpoint.pending = [] := accounted.collected opened
    unfold SimLogEndpoint.send
    rw [none, List.nil_append, List.map_nil, List.append_nil] at order
    rw [none, List.append_nil]
    exact congrArg (· ++ [(endpoint.count, message)]) order
  numbered := accounted.numbered_send message
  below := accounted.below_send message
  collected := accounted.collected
  bound_iff := accounted.bound_iff
  recipients := accounted.recipients

/-- A message that is collected waits behind the others. -/
theorem Accounted.collect (accounted : Accounted endpoint) (message : SimLogMessage) (inside : List Act)
    (collecting : endpoint.state = .collecting) :
    Accounted { endpoint.send message with
      pending := endpoint.pending ++ [⟨endpoint.count, message, inside⟩] } where
  order := by
    have order := accounted.order
    unfold SimLogEndpoint.send
    rw [List.nil_append] at order ⊢
    rw [List.map_append, ← List.append_assoc, order]
    rfl
  numbered := accounted.numbered_send message
  below := accounted.below_send message
  collected := fun other => absurd collecting other
  bound_iff := accounted.bound_iff
  recipients := accounted.recipients

/-- The sink for messages without an owner gets the next message, or it is below its level. -/
theorem Underway.emitUnowned {record : Sent} (underway : Underway endpoint (record :: waiting))
    (unbound : endpoint.owner = none) :
    Underway (endpoint.emitUnowned record.number record.message) waiting := by
  unfold SimLogEndpoint.emitUnowned
  split
  next low => exact underway.hand _ ⟨unbound, by rwa [Bool.not_eq_true'] at low⟩
  next high => exact underway.hand _ ⟨unbound, rfl⟩

theorem Accounted.unbind (accounted : Accounted endpoint) (owner : ℕ) (finished : Bool) :
    Accounted (endpoint.unbind owner finished) := by
  unfold SimLogEndpoint.unbind
  split
  · exact accounted
  next bound =>
    have isBound : endpoint.state = .bound := by
      rw [accounted.bound_iff, not_not.mp bound]
      rfl
    have none : endpoint.pending = [] := accounted.collected (by rw [isBound]; decide)
    refine ⟨accounted.order, accounted.numbered, accounted.below, fun _ => none, ?_, accounted.recipients⟩
    cases finished
    · exact iff_of_false nofun nofun
    · exact iff_of_false nofun nofun

end

/-! ### What an owner does -/

mutual

/-- What an owner does leaves every message accounted for. -/
theorem accounted_act : ∀ (act : Act) {endpoint : SimLogEndpoint}, Accounted endpoint →
    Accounted (endpoint.act act)
  | .emit message inside, endpoint, accounted => by
    rw [SimLogEndpoint.act]
    cases state : endpoint.state with
    | bound =>
      have isSome := accounted.bound_iff.mp state
      obtain ⟨owner, bound⟩ := Option.isSome_iff_exists.mp isSome
      simp only [bound]
      have underway := accounted.send message inside (by rw [state]; decide)
      exact accounted_actAll inside (underway.hand _ bound)
    | collecting => exact accounted.collect message inside state
    | finished =>
      have unbound : endpoint.owner = none := by
        by_contra some
        have bound := accounted.bound_iff.mpr (Option.ne_none_iff_isSome.mp some)
        rw [state] at bound
        exact nomatch bound
      have underway := accounted.send message inside (by rw [state]; decide)
      exact underway.emitUnowned unbound
  | .unbind owner finished, endpoint, accounted => by
    rw [SimLogEndpoint.act]
    exact accounted.unbind owner finished

theorem accounted_actAll : ∀ (acts : List Act) {endpoint : SimLogEndpoint}, Accounted endpoint →
    Accounted (endpoint.actAll acts)
  | [], endpoint, accounted => by
    rw [SimLogEndpoint.actAll]
    exact accounted
  | first :: rest, endpoint, accounted => by
    rw [SimLogEndpoint.actAll]
    exact accounted_actAll rest (accounted_act first accounted)

end

/-! ### Replaying -/

/-- The owner neither emits a message nor unbinds. -/
def Quiet (owner : ℕ) (acts : List Act) : Prop :=
  ∀ act ∈ acts, ∃ other finished, act = .unbind other finished ∧ other ≠ owner

theorem actAll_of_quiet {endpoint : SimLogEndpoint} {owner : ℕ} {acts : List Act}
    (bound : endpoint.owner = some owner) (quiet : Quiet owner acts) : endpoint.actAll acts = endpoint := by
  induction acts with
  | nil => rw [SimLogEndpoint.actAll]
  | cons first rest ih =>
    obtain ⟨other, finished, rfl, apart⟩ := quiet first List.mem_cons_self
    have kept : endpoint.owner ≠ some other := fun same => apart (Option.some.inj (same.symm.trans bound))
    rw [SimLogEndpoint.actAll, SimLogEndpoint.act, SimLogEndpoint.unbind, if_pos kept]
    exact ih fun act member => quiet act (List.mem_cons_of_mem _ member)

/-- An owner that does nothing before the last message is handed all of them. -/
theorem accounted_replay {owner : ℕ} (pending : List Sent) {endpoint : SimLogEndpoint}
    (underway : Underway endpoint pending) (bound : endpoint.owner = some owner)
    (quiet : ∀ record ∈ pending.dropLast, Quiet owner record.inside) :
    Accounted (endpoint.replay pending) := by
  induction pending generalizing endpoint with
  | nil => exact underway
  | cons record rest ih =>
    have handed := underway.hand (.owner owner) bound
    have emitted : endpoint.emitRecord record =
        (endpoint.hand record.number record.message (.owner owner)).actAll record.inside := by
      rw [SimLogEndpoint.emitRecord, bound]
    rw [SimLogEndpoint.replay, List.foldl_cons, ← SimLogEndpoint.replay, emitted]
    cases rest with
    | nil => exact accounted_actAll record.inside handed
    | cons next rest =>
      have still : (endpoint.hand record.number record.message (.owner owner)).actAll record.inside =
          endpoint.hand record.number record.message (.owner owner) :=
        actAll_of_quiet bound (quiet record List.mem_cons_self)
      rw [still]
      exact ih handed bound fun record member => quiet record (List.mem_cons_of_mem _ member)

theorem accounted_finishUnowned (pending : List Sent) {endpoint : SimLogEndpoint}
    (underway : Underway endpoint pending) (unbound : endpoint.owner = none) :
    Accounted (pending.foldl (fun endpoint record =>
      endpoint.emitUnowned record.number record.message) endpoint) := by
  induction pending generalizing endpoint with
  | nil => exact underway
  | cons record rest ih =>
    have kept : (endpoint.emitUnowned record.number record.message).owner = none := by
      unfold SimLogEndpoint.emitUnowned SimLogEndpoint.hand
      split
      · exact unbound
      · exact unbound
    exact ih (underway.emitUnowned unbound) kept

/-- While messages are left to replay, the owner neither emits a message nor unbinds. -/
def Operation.Orderly (endpoint : SimLogEndpoint) : Operation → Prop
  | .bind owner _ => ∀ record ∈ endpoint.pending.dropLast, Quiet owner record.inside
  | _ => True

/-- Every operation of the run is so. -/
def Orderly : SimLogEndpoint → List Operation → Prop
  | _, [] => True
  | endpoint, operation :: rest => operation.Orderly endpoint ∧ Orderly (endpoint.perform operation) rest

/-- One operation. -/
theorem accounted_perform {endpoint : SimLogEndpoint} (accounted : Accounted endpoint)
    {operation : Operation} (orderly : operation.Orderly endpoint) :
    Accounted (endpoint.perform operation) := by
  cases operation with
  | act act => exact accounted_act act accounted
  | prepareForRun =>
    have kept : (if endpoint.state ≠ .collecting then [] else endpoint.pending) = endpoint.pending := by
      split
      next other => exact (accounted.collected other).symm
      next => rfl
    have sub : (endpoint.pending.map (·.tagged)).Sublist endpoint.sent := by
      rw [← accounted.order]
      exact List.sublist_append_right ..
    change Accounted endpoint.prepareForRun
    unfold SimLogEndpoint.prepareForRun
    rw [kept]
    exact ⟨rfl, accounted.numbered.sublist (sub.map _), fun entry member => accounted.below entry (sub.subset member),
      fun other => absurd rfl other, iff_of_false nofun nofun, fun _ member => (List.not_mem_nil member).elim⟩
  | bind owner minimumLevel =>
    refine accounted_replay endpoint.pending ⟨?_, accounted.numbered, accounted.below, fun _ => rfl, iff_of_true rfl rfl,
      accounted.recipients⟩ rfl orderly
    rw [List.append_nil]
    exact accounted.order
  | finishUnowned minimumLevel =>
    refine accounted_finishUnowned endpoint.pending ⟨?_, accounted.numbered, accounted.below, fun _ => rfl, iff_of_false nofun nofun,
      accounted.recipients⟩ rfl
    rw [List.append_nil]
    exact accounted.order

theorem accounted_fresh : Accounted {} :=
  ⟨rfl, List.Pairwise.nil, fun _ member => (List.not_mem_nil member).elim, fun other => absurd rfl other,
    by decide, fun _ member => (List.not_mem_nil member).elim⟩

end Cpptb.SimLogging
