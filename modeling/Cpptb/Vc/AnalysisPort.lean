/-
Writes through an analysis port, from inside of each other.

* `World.step`: a port whose subscribers can write, connect, disconnect and throw while they are called.
* `Audience.step`: what a write is for. It calls, one after the other, the subscribers that are connected
  when it starts and still are when it is their turn.
* `related_step`: the slots of the port, where dead ones are left in place while a dispatch is active,
  follow the audience.
* `dispatch_reentrant`: every run makes the calls of the audience, counts the subscribers of the
  audience, and keeps no dead slot when no dispatch is active.
-/

import Mathlib

namespace Cpptb.AnalysisPort

variable {T : Type}

/-! ### The port -/

/-- `AnalysisPort::Slot`. -/
structure Slot where
  id : ℕ
  subscriber : ℕ
  connected : Bool := true
  deriving DecidableEq, Repr

/-- `AnalysisPort::State`. -/
structure State where
  slots : List Slot := []
  nextId : ℕ := 1
  dispatchDepth : ℕ := 0
  compactPending : Bool := false
  deriving DecidableEq, Repr

namespace State

/-- The loop of `disconnect`: the slots when it finds the one with the id. -/
def kill (id : ℕ) : List Slot → Option (List Slot)
  | [] => none
  | slot :: rest =>
    if slot.id ≠ id then (kill id rest).map (slot :: ·)
    else some ({ slot with connected := false } :: rest)

/-- `compact`. -/
def compact (state : State) : State :=
  if state.dispatchDepth ≠ 0 ∨ state.compactPending = false then state
  else { state with slots := state.slots.filter (·.connected), compactPending := false }

/-- `disconnect`. -/
def disconnect (state : State) (id : ℕ) : State :=
  compact (match kill id state.slots with
    | some slots => { state with slots := slots, compactPending := true }
    | none => state)

/-- `connect`. -/
def connect (state : State) (subscriber : ℕ) : State :=
  { state with
    nextId := state.nextId + 1
    slots := state.slots ++ [{ id := state.nextId, subscriber := subscriber }] }

/-- `subscriber_count`. -/
def subscriberCount (state : State) : ℕ := state.slots.countP (·.connected)

/-- The end of `write`, with or without an exception. -/
def leave (state : State) : State := compact { state with dispatchDepth := state.dispatchDepth - 1 }

end State

/-- A `write` that is not over: `index` is the slot whose turn is next. -/
structure Frame (T : Type) where
  number : ℕ
  value : T
  index : ℕ
  publishedSubscribers : ℕ
  deriving DecidableEq, Repr

/-- A call of a subscriber, by the write with a number. -/
structure Call (T : Type) where
  write : ℕ
  id : ℕ
  value : T
  deriving DecidableEq, Repr

/-- A port, the writes that are not over, innermost first, and the calls they have made. -/
structure World (T : Type) where
  port : State := {}
  frames : List (Frame T) := []
  writes : ℕ := 0
  calls : List (Call T) := []
  deriving DecidableEq, Repr

/-- What happens next: while a subscriber is called it can do what anyone can do, and returns or throws in
the end. -/
inductive Event (T : Type)
  | connect (subscriber : ℕ)
  | disconnect (id : ℕ)
  | write (value : T)
  | returns
  | throws
  deriving DecidableEq, Repr

/-- The loop of `write` up to the next call: the index of the next slot that is connected. -/
def seek (slots : List Slot) : ℕ → ℕ → Option (ℕ × Slot)
  | _, 0 => none
  | index, left + 1 =>
    match slots[index]? with
    | none => none
    | some slot => if slot.connected then some (index, slot) else seek slots (index + 1) left

namespace World

/-- The innermost write calls the next subscriber or is over. -/
def proceed (world : World T) : World T :=
  match world.frames with
  | [] => world
  | frame :: rest =>
    match seek world.port.slots frame.index (frame.publishedSubscribers - frame.index) with
    | some (index, slot) =>
      { world with
        frames := { frame with index := index + 1 } :: rest
        calls := world.calls ++ [⟨frame.number, slot.id, frame.value⟩] }
    | none => { world with port := world.port.leave, frames := rest }

/-- One event. -/
def step (world : World T) : Event T → World T
  | .connect subscriber => { world with port := world.port.connect subscriber }
  | .disconnect id => { world with port := world.port.disconnect id }
  | .write value =>
    proceed { world with
      port := { world.port with dispatchDepth := world.port.dispatchDepth + 1 }
      frames := ⟨world.writes, value, 0, world.port.slots.length⟩ :: world.frames
      writes := world.writes + 1 }
  | .returns => world.proceed
  | .throws =>
    match world.frames with
    | [] => world
    | _ :: rest => { world with port := world.port.leave, frames := rest }

/-- A run. -/
def run (world : World T) (events : List (Event T)) : World T := events.foldl step world

end World

/-! ### What a port is for -/

/-- A write that is not over: the subscribers whose turn is still to come. -/
structure Turn (T : Type) where
  number : ℕ
  value : T
  waiting : List ℕ
  deriving DecidableEq, Repr

/-- The subscribers that are connected, in the order in which they were, and how many connections have been
made and ended. -/
structure Audience (T : Type) where
  live : List ℕ := []
  made : ℕ := 0
  ended : ℕ := 0
  turns : List (Turn T) := []
  writes : ℕ := 0
  calls : List (Call T) := []
  deriving DecidableEq, Repr

namespace Audience

/-- The innermost write calls the next of its subscribers that is still connected, or is over. -/
def proceed (audience : Audience T) : Audience T :=
  match audience.turns with
  | [] => audience
  | turn :: rest =>
    match turn.waiting.filter (· ∈ audience.live) with
    | id :: waiting =>
      { audience with
        turns := { turn with waiting := waiting } :: rest
        calls := audience.calls ++ [⟨turn.number, id, turn.value⟩] }
    | [] => { audience with turns := rest }

/-- One event. A write waits for the turns of those that are connected when it starts. -/
def step (audience : Audience T) : Event T → Audience T
  | .connect _ =>
    { audience with live := audience.live ++ [audience.made + 1], made := audience.made + 1 }
  | .disconnect id =>
    { audience with
      live := audience.live.filter (· ≠ id)
      ended := audience.ended + if id ∈ audience.live then 1 else 0 }
  | .write value =>
    proceed { audience with
      turns := ⟨audience.writes, value, audience.live⟩ :: audience.turns
      writes := audience.writes + 1 }
  | .returns => audience.proceed
  | .throws => { audience with turns := audience.turns.tail }

/-- A run. -/
def run (audience : Audience T) (events : List (Event T)) : Audience T := events.foldl step audience

end Audience

/-! ### Slots -/

/-- The ids of the slots that are connected. -/
def liveIds (slots : List Slot) : List ℕ := (slots.filter (·.connected)).map (·.id)

/-- The slots whose turn in a write is still to come. -/
def window (slots : List Slot) (index published : ℕ) : List Slot := (slots.drop index).take (published - index)

theorem liveIds_append (slots more : List Slot) : liveIds (slots ++ more) = liveIds slots ++ liveIds more := by
  rw [liveIds, List.filter_append, List.map_append]
  rfl

theorem liveIds_subset {slots : List Slot} {id : ℕ} (member : id ∈ liveIds slots) : id ∈ slots.map (·.id) := by
  obtain ⟨slot, inFilter, rfl⟩ := List.mem_map.mp member
  exact List.mem_map_of_mem (List.mem_filter.mp inFilter).1

/-- `compact` keeps the slots that are connected. -/
theorem liveIds_filter (slots : List Slot) : liveIds (slots.filter (·.connected)) = liveIds slots := by
  rw [liveIds, List.filter_filter]
  simp only [Bool.and_self]
  rfl

/-- The slot with an id, disconnected. -/
def deaden (id : ℕ) (slot : Slot) : Slot := if slot.id = id then { slot with connected := false } else slot

@[simp] theorem id_deaden (id : ℕ) (slot : Slot) : (deaden id slot).id = slot.id := by
  unfold deaden
  split
  · rfl
  · rfl

/-- Ids are used once, so that the slot found is the only one. -/
theorem kill_eq {slots : List Slot} (distinct : (slots.map (·.id)).Nodup) (id : ℕ) :
    (State.kill id slots).getD slots = slots.map (deaden id) ∧
      ((State.kill id slots).isSome = true ↔ id ∈ slots.map (·.id)) := by
  induction slots with
  | nil => exact ⟨rfl, iff_of_false nofun nofun⟩
  | cons slot rest ih =>
    obtain ⟨fresh, distinct⟩ := List.nodup_cons.mp distinct
    obtain ⟨changed, found⟩ := ih distinct
    rw [State.kill]
    by_cases here : slot.id = id
    · have others : rest.map (deaden id) = rest := by
        refine (List.map_congr_left fun other member => ?_).trans (List.map_id' rest)
        rw [deaden, if_neg]
        intro same
        exact fresh (List.mem_map.mpr ⟨other, member, same.trans here.symm⟩)
      rw [if_neg (not_not.mpr here), List.map_cons, List.map_cons, others, deaden, if_pos here]
      exact ⟨rfl, iff_of_true rfl (here ▸ List.mem_cons_self)⟩
    · rw [if_pos here, List.map_cons, List.map_cons, List.mem_cons, or_iff_right (Ne.symm here), ← found,
        ← changed, deaden, if_neg here]
      cases State.kill id rest with
      | none => exact ⟨rfl, Iff.rfl⟩
      | some slots => exact ⟨rfl, Iff.rfl⟩

/-- A disconnected slot is not live. -/
theorem liveIds_deaden (id : ℕ) (slots : List Slot) :
    liveIds (slots.map (deaden id)) = (liveIds slots).filter (· ≠ id) := by
  induction slots with
  | nil => rfl
  | cons slot rest ih =>
    have split (slot : Slot) (rest : List Slot) :
        liveIds (slot :: rest) = (if slot.connected then [slot.id] else []) ++ liveIds rest := by
      unfold liveIds
      cases connected : slot.connected <;> simp [connected]
    rw [List.map_cons, split, split, List.filter_append, ih]
    congr 1
    unfold deaden
    by_cases here : slot.id = id
    · cases connected : slot.connected <;> simp [here]
    · cases connected : slot.connected <;> simp [here, connected]

theorem window_map (f : Slot → Slot) (slots : List Slot) (index published : ℕ) :
    window (slots.map f) index published = (window slots index published).map f := by
  rw [window, window, ← List.map_drop, ← List.map_take]

theorem window_append {slots : List Slot} {published : ℕ} (inside : published ≤ slots.length) (more : List Slot)
    (index : ℕ) : window (slots ++ more) index published = window slots index published := by
  unfold window
  rcases Nat.le_total index slots.length with low | high
  · rw [List.drop_append_of_le_length low, List.take_append_of_le_length]
    rw [List.length_drop]
    omega
  · have none : published - index = 0 := Nat.sub_eq_zero_of_le (inside.trans high)
    rw [none, List.take_zero, List.take_zero]

/-- The next slot in the window. -/
theorem seek_spec {slots : List Slot} (index left : ℕ) (inside : index + left ≤ slots.length) :
    (seek slots index left = none ∧ liveIds (window slots index (index + left)) = []) ∨
      ∃ found slot, seek slots index left = some (found, slot) ∧ found < index + left ∧
        liveIds (window slots index (index + left)) =
          slot.id :: liveIds (window slots (found + 1) (index + left)) := by
  induction left generalizing index with
  | zero =>
    refine .inl ⟨rfl, ?_⟩
    rw [window, Nat.add_zero, Nat.sub_self, List.take_zero]
    rfl
  | succ left ih =>
    have here : index < slots.length := by omega
    have head : window slots index (index + (left + 1)) =
        slots[index] :: window slots (index + 1) (index + (left + 1)) := by
      unfold window
      rw [List.drop_eq_getElem_cons here, show index + (left + 1) - index = left + 1 by omega,
        List.take_succ_cons, show index + (left + 1) - (index + 1) = left by omega]
    rw [seek, List.getElem?_eq_getElem here, head]
    dsimp only
    cases connected : slots[index].connected with
    | true =>
      refine .inr ⟨index, slots[index], if_pos rfl, by omega, ?_⟩
      rw [liveIds, List.filter_cons_of_pos connected, List.map_cons]
      rfl
    | false =>
      have skip (rest : List Slot) : liveIds (slots[index] :: rest) = liveIds rest := by
        rw [liveIds, List.filter_cons_of_neg (by rw [connected]; exact Bool.false_ne_true)]
        rfl
      rw [if_neg Bool.false_ne_true, skip, show index + (left + 1) = index + 1 + left by omega]
      exact ih (index + 1) (by omega)

/-! ### The port follows the audience -/

/-- A write that is not over: the slots whose turn is still to come are, as far as they are connected, the
waiting subscribers that still are. -/
structure Follows (slots : List Slot) (audience : Audience T) (frame : Frame T) (turn : Turn T) : Prop where
  number : frame.number = turn.number
  value : frame.value = turn.value
  inside : frame.index ≤ frame.publishedSubscribers ∧ frame.publishedSubscribers ≤ slots.length
  waiting : turn.waiting.filter (· ∈ audience.live) =
    liveIds (window slots frame.index frame.publishedSubscribers)
  below : ∀ id ∈ turn.waiting, id ≤ audience.made

/-- The slots that are connected are the audience, and `compact_pending` says whether there are others. -/
structure Tracks (world : World T) (audience : Audience T) : Prop where
  live : liveIds world.port.slots = audience.live
  nextId : world.port.nextId = audience.made + 1
  distinct : (world.port.slots.map (·.id)).Nodup
  below : ∀ id ∈ world.port.slots.map (·.id), id ≤ audience.made
  depth : world.port.dispatchDepth = world.frames.length
  clean : world.port.compactPending = false → ∀ slot ∈ world.port.slots, slot.connected = true
  frames : List.Forall₂ (Follows world.port.slots audience) world.frames audience.turns
  writes : world.writes = audience.writes
  calls : world.calls = audience.calls
  counted : audience.live.length + audience.ended = audience.made

/-- Slots that are not connected are only kept while a dispatch is active. -/
structure Related (world : World T) (audience : Audience T) : Prop extends Tracks world audience where
  idle : world.frames = [] → world.port.compactPending = false

section

variable {world : World T} {audience : Audience T}

/-- `compact`. -/
theorem Tracks.compact (tracks : Tracks world audience) :
    Related { world with port := world.port.compact } audience := by
  unfold State.compact
  split
  next kept =>
    refine ⟨tracks, fun idle => kept.resolve_left (not_not.mpr ?_)⟩
    rw [tracks.depth, idle]
    rfl
  next dropped =>
    rw [not_or, not_not] at dropped
    have idle : world.frames = [] := List.length_eq_zero_iff.mp (tracks.depth.symm.trans dropped.1)
    have fewer : ((world.port.slots.filter (·.connected)).map (·.id)).Sublist (world.port.slots.map (·.id)) :=
      List.filter_sublist.map _
    refine ⟨⟨(liveIds_filter _).trans tracks.live, tracks.nextId, tracks.distinct.sublist fewer,
      fun id member => tracks.below id (fewer.subset member), tracks.depth,
      fun _ slot member => (List.mem_filter.mp member).2, ?_, tracks.writes, tracks.calls,
      tracks.counted⟩, fun _ => rfl⟩
    have none : audience.turns = [] := by
      have both := tracks.frames
      rw [idle] at both
      exact List.forall₂_nil_left_iff.mp both
    dsimp only
    rw [idle, none]
    exact List.Forall₂.nil

/-- The innermost write is over. -/
theorem Tracks.leave {frame : Frame T} {rest : List (Frame T)} (tracks : Tracks world audience)
    (top : world.frames = frame :: rest) :
    Related { world with port := world.port.leave, frames := rest }
      { audience with turns := audience.turns.tail } := by
  have both := tracks.frames
  rw [top] at both
  obtain ⟨turn, turns, -, others, same⟩ := List.forall₂_cons_left_iff.mp both
  have left : Tracks
      { world with
        port := { world.port with dispatchDepth := world.port.dispatchDepth - 1 }
        frames := rest }
      { audience with turns := turns } := by
    refine ⟨tracks.live, tracks.nextId, tracks.distinct, tracks.below, ?_, tracks.clean,
      others.imp fun _ _ follows => ⟨follows.number, follows.value, follows.inside, follows.waiting, follows.below⟩,
      tracks.writes, tracks.calls, tracks.counted⟩
    dsimp only
    rw [tracks.depth, top, List.length_cons, Nat.add_sub_cancel]
  rw [same, List.tail_cons]
  exact left.compact

/-- The innermost write goes on. -/
theorem Related.proceed (related : Related world audience) : Related world.proceed audience.proceed := by
  unfold World.proceed Audience.proceed
  have both := related.frames
  cases top : world.frames with
  | nil =>
    rw [top] at both
    rw [List.forall₂_nil_left_iff.mp both]
    exact related
  | cons frame rest =>
    rw [top] at both
    obtain ⟨turn, turns, follows, others, same⟩ := List.forall₂_cons_left_iff.mp both
    have left : frame.index + (frame.publishedSubscribers - frame.index) = frame.publishedSubscribers :=
      Nat.add_sub_cancel' follows.inside.1
    have next := seek_spec frame.index (frame.publishedSubscribers - frame.index)
      (left.trans_le follows.inside.2)
    rw [left] at next
    rw [same]
    dsimp only
    rw [follows.waiting]
    rcases next with ⟨found, nobody⟩ | ⟨index, slot, found, inside, somebody⟩
    · rw [found, nobody]
      have left := related.toTracks.leave top
      rw [same] at left
      exact left
    · rw [found, somebody]
      have still : ∀ id ∈ liveIds (window world.port.slots (index + 1) frame.publishedSubscribers),
          id ∈ turn.waiting ∧ id ∈ audience.live := by
        intro id member
        have inFilter : id ∈ turn.waiting.filter (· ∈ audience.live) := by
          rw [follows.waiting, somebody]
          exact List.mem_cons_of_mem _ member
        exact ⟨(List.mem_filter.mp inFilter).1, of_decide_eq_true (List.mem_filter.mp inFilter).2⟩
      have goesOn : Follows world.port.slots audience { frame with index := index + 1 }
          { turn with
            waiting := liveIds (window world.port.slots (index + 1) frame.publishedSubscribers) } := by
        refine ⟨follows.number, follows.value, ⟨?_, follows.inside.2⟩, ?_, fun id member => ?_⟩
        · dsimp only
          omega
        · exact List.filter_eq_self.mpr fun id member => decide_eq_true (still id member).2
        · exact follows.below id (still id member).1
      refine ⟨⟨related.live, related.nextId, related.distinct, related.below, ?_, related.clean, ?_,
        related.writes, ?_, related.counted⟩, nofun⟩
      · rw [related.depth, top]
        rfl
      · exact List.Forall₂.cons ⟨goesOn.number, goesOn.value, goesOn.inside, goesOn.waiting, goesOn.below⟩
          (others.imp fun _ _ follows =>
            ⟨follows.number, follows.value, follows.inside, follows.waiting, follows.below⟩)
      · dsimp only
        rw [related.calls, follows.number, follows.value]

/-- One event. -/
theorem related_step (related : Related world audience) (event : Event T) :
    Related (world.step event) (audience.step event) := by
  cases event with
  | connect subscriber =>
    have grown : (world.port.connect subscriber).slots.map (·.id) =
        world.port.slots.map (·.id) ++ [audience.made + 1] := by
      rw [State.connect, List.map_append, related.nextId]
      rfl
    have newcomer : audience.made + 1 ∉ world.port.slots.map (·.id) := fun member =>
      absurd (related.below _ member) (Nat.not_succ_le_self _)
    refine ⟨⟨?_, ?_, ?_, fun id member => ?_, related.depth, fun clean slot member => ?_, ?_, related.writes,
      related.calls, ?_⟩, related.idle⟩
    · change liveIds (world.port.slots ++ [_]) = audience.live ++ [audience.made + 1]
      rw [liveIds_append, related.live, ← related.nextId]
      rfl
    · exact congrArg (· + 1) related.nextId
    · change ((world.port.connect subscriber).slots.map (·.id)).Nodup
      rw [grown]
      exact List.nodup_append.mpr ⟨related.distinct, List.nodup_singleton _, fun id member other last same =>
        newcomer (List.mem_singleton.mp last ▸ same ▸ member)⟩
    · change id ∈ (world.port.connect subscriber).slots.map (·.id) at member
      rw [grown] at member
      rcases List.mem_append.mp member with old | new
      · exact Nat.le_succ_of_le (related.below id old)
      · exact (List.mem_singleton.mp new).le
    · rcases List.mem_append.mp member with old | new
      · exact related.clean clean slot old
      · rw [List.mem_singleton.mp new]
    · refine related.frames.imp fun frame turn follows => ?_
      refine ⟨follows.number, follows.value, ⟨follows.inside.1, ?_⟩, ?_, fun id member =>
        Nat.le_succ_of_le (follows.below id member)⟩
      · exact follows.inside.2.trans (by simp [World.step, State.connect])
      · change turn.waiting.filter (· ∈ audience.live ++ [audience.made + 1]) =
          liveIds (window (world.port.slots ++ [_]) _ _)
        rw [window_append follows.inside.2, ← follows.waiting]
        refine List.filter_congr fun id member => ?_
        have older : id ≠ audience.made + 1 := fun same =>
          absurd (follows.below id member) (same ▸ Nat.not_succ_le_self _)
        simp [older]
    · change (audience.live ++ [_]).length + audience.ended = audience.made + 1
      rw [List.length_append, List.length_singleton, ← related.counted]
      omega
  | disconnect id =>
    have nodup : audience.live.Nodup := related.live ▸ related.distinct.sublist (List.filter_sublist.map _)
    obtain ⟨killed, found⟩ := kill_eq related.distinct id
    change Related { world with port := world.port.disconnect id } _
    unfold State.disconnect
    cases kill : State.kill id world.port.slots with
    | none =>
      rw [kill] at found
      have absent : id ∉ audience.live := by
        rw [← related.live]
        exact fun member => Bool.false_ne_true (found.mpr (liveIds_subset member))
      have same : audience.step (.disconnect id) = audience := by
        have kept : audience.live.filter (· ≠ id) = audience.live :=
          List.filter_eq_self.mpr fun other member => decide_eq_true fun same => absent (same ▸ member)
        rw [Audience.step, kept, if_neg absent]
        rfl
      rw [same]
      exact related.toTracks.compact
    | some slots =>
      rw [kill, Option.getD_some] at killed
      subst killed
      have ids : (world.port.slots.map (deaden id)).map (·.id) = world.port.slots.map (·.id) := by
        rw [List.map_map]
        exact List.map_congr_left fun slot _ => id_deaden id slot
      have count : (audience.live.filter (· ≠ id)).length + (if id ∈ audience.live then 1 else 0) =
          audience.live.length := by
        have erased : audience.live.filter (· ≠ id) = audience.live.erase id := by
          rw [nodup.erase_eq_filter]
          exact List.filter_congr fun other _ => Bool.eq_iff_iff.mpr (by simp)
        rw [erased, List.length_erase]
        split
        next member =>
          have := List.length_pos_of_mem member
          omega
        next => rfl
      have tracks : Tracks
          { world with
            port := { world.port with slots := world.port.slots.map (deaden id), compactPending := true } }
          (audience.step (.disconnect id)) := by
        refine ⟨(liveIds_deaden id _).trans (congrArg _ related.live), related.nextId, ids ▸ related.distinct,
          fun other member => related.below other (ids ▸ member), related.depth, nofun, ?_, related.writes,
          related.calls, ?_⟩
        · refine related.frames.imp fun frame turn follows => ?_
          refine ⟨follows.number, follows.value, ⟨follows.inside.1, ?_⟩, ?_, follows.below⟩
          · exact follows.inside.2.trans (List.length_map _).ge
          · dsimp only
            rw [window_map, liveIds_deaden, ← follows.waiting, List.filter_filter]
            refine List.filter_congr fun other _ => ?_
            simp [Audience.step, List.mem_filter, and_comm]
        · change (audience.live.filter (· ≠ id)).length +
            (audience.ended + if id ∈ audience.live then 1 else 0) = audience.made
          have counted := related.counted
          omega
      exact tracks.compact
  | write value =>
    have pushed : Related
        { world with
          port := { world.port with dispatchDepth := world.port.dispatchDepth + 1 }
          frames := ⟨world.writes, value, 0, world.port.slots.length⟩ :: world.frames
          writes := world.writes + 1 }
        { audience with
          turns := ⟨audience.writes, value, audience.live⟩ :: audience.turns
          writes := audience.writes + 1 } := by
      refine ⟨⟨related.live, related.nextId, related.distinct, related.below, congrArg (· + 1) related.depth,
        related.clean, ?_, congrArg (· + 1) related.writes, related.calls, related.counted⟩, nofun⟩
      refine List.Forall₂.cons ⟨related.writes, rfl, ⟨Nat.zero_le _, le_rfl⟩, ?_, fun id member => ?_⟩
        (related.frames.imp fun frame turn follows =>
          ⟨follows.number, follows.value, follows.inside, follows.waiting, follows.below⟩)
      · dsimp only
        rw [window, List.drop_zero, Nat.sub_zero, List.take_length, related.live]
        exact List.filter_eq_self.mpr fun id member => decide_eq_true member
      · exact related.below id (liveIds_subset (related.live ▸ member))
    exact pushed.proceed
  | returns => exact related.proceed
  | throws =>
    change Related (match world.frames with | [] => world | _ :: rest => _) _
    cases top : world.frames with
    | nil =>
      have none : audience.turns = [] := by
        have both := related.frames
        rw [top] at both
        exact List.forall₂_nil_left_iff.mp both
      have same : audience.step .throws = audience := by
        rw [Audience.step, none, List.tail_nil, ← none]
      rw [same]
      exact related
    | cons frame rest => exact related.toTracks.leave top

end

/-- The steps of a run. -/
theorem related_run {world : World T} {audience : Audience T} (related : Related world audience)
    (events : List (Event T)) : Related (world.run events) (audience.run events) := by
  induction events generalizing world audience with
  | nil => exact related
  | cons event rest ih => exact ih (related_step related event)

theorem related_fresh : Related ({} : World T) {} :=
  ⟨⟨rfl, rfl, List.nodup_nil, fun _ member => (List.not_mem_nil member).elim, rfl,
    fun _ _ member => (List.not_mem_nil member).elim, List.Forall₂.nil, rfl, rfl, rfl⟩, fun _ => rfl⟩

/-- In every run a port makes the calls of its audience: a write calls, one after the other and in the order
of connection, the subscribers that are connected when it starts and still are when it is their turn, and
writes start and end inside of each other as they do there. `subscriber_count` is the number of connections
made that have not ended, and when no dispatch is active every slot is connected. -/
theorem dispatch_reentrant (events : List (Event T)) :
    (World.run {} events).calls = (Audience.run {} events).calls ∧
      (World.run {} events).frames.map (·.number) = (Audience.run {} events).turns.map (·.number) ∧
      (World.run {} events).port.subscriberCount = (Audience.run {} events).live.length ∧
      (World.run {} events).port.subscriberCount + (Audience.run {} events).ended =
        (Audience.run {} events).made ∧
      (World.run {} events).port.dispatchDepth = (World.run {} events).frames.length ∧
      ((World.run {} events).port.dispatchDepth = 0 →
        ∀ slot ∈ (World.run {} events).port.slots, slot.connected = true) := by
  have related := related_run related_fresh events
  have count : (World.run {} events).port.subscriberCount = (Audience.run {} events).live.length := by
    rw [← related.live, liveIds, List.length_map, State.subscriberCount, List.countP_eq_length_filter]
  have numbers {slots : List Slot} {audience : Audience T} {frames : List (Frame T)} {turns : List (Turn T)}
      (both : List.Forall₂ (Follows slots audience) frames turns) :
      frames.map (·.number) = turns.map (·.number) := by
    induction both with
    | nil => rfl
    | cons follows _ ih => rw [List.map_cons, List.map_cons, follows.number, ih]
  refine ⟨related.calls, numbers related.frames, count, ?_, related.depth, fun idle => ?_⟩
  · rw [count]
    exact related.counted
  · have ended : (World.run {} events).frames = [] := List.length_eq_zero_iff.mp (related.depth.symm.trans idle)
    exact related.clean (related.idle ended)

/-- Three subscribers: the first disconnects the second and writes again, the third connects one more. -/
example : (World.run {} [.connect 1, .connect 2, .connect 3, .write true, .disconnect 2, .write false, .returns,
    .connect 4, .returns, .returns, .returns]).calls =
    [⟨0, 1, true⟩, ⟨1, 1, false⟩, ⟨1, 3, false⟩, ⟨0, 3, true⟩] := by
  decide

end Cpptb.AnalysisPort
