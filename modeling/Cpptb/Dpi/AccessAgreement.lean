/-
Static and dynamic accesses to the same element.

* `Checked`: what the checks of `init` say about the tables, `init_checked`.
* `Bound`: what holds in every state after `init`, `perform_bound`.
* `get_agree`, `setNow_eq`, `set_agree`: the two accesses in such a state.
* `accesses_agree_iff`: over whole runs.
-/

import Cpptb.Dpi.StaticBinding

namespace Cpptb.Dpi

open Function (update)

variable {World : Type}

/-! ### Sequences -/

section Sequences

theorem bind_ok {α β : Type} {first : Except Failure α} {next : α → Except Failure β} {b : β}
    (ok : first.bind next = .ok b) : ∃ a, first = .ok a ∧ next a = .ok b := by
  cases first with
  | error failure => cases ok
  | ok a => exact ⟨a, rfl, ok⟩

theorem require_ok {condition : Prop} [Decidable condition] {result : Unit}
    (ok : require condition = .ok result) : condition := by
  unfold require at ok
  split at ok
  · assumption
  · cases ok

theorem require_of {condition : Prop} [Decidable condition] (holds : condition) :
    require condition = .ok () := if_pos holds

end Sequences

/-! ### Scalars -/

section Scalars

theorem toNat_normalizeScalar {width : ℕ} (narrow : width ≤ 32) (value : UInt32) :
    (normalizeScalar width value).toNat = value.toNat % 2 ^ width := by
  unfold normalizeScalar
  by_cases small : width < 32
  · have shift : (UInt32.ofNat width).toNat = width := UInt32.toNat_ofNat_of_lt' (by
      have : (32 : ℕ) < UInt32.size := by decide
      omega)
    have power : 2 ^ width < 2 ^ 32 := Nat.pow_lt_pow_right (by decide) small
    have mask : ((1 <<< UInt32.ofNat width : UInt32) - 1).toNat = 2 ^ width - 1 := by
      have one : (1 <<< UInt32.ofNat width : UInt32).toNat = 2 ^ width := by
        rw [UInt32.toNat_shiftLeft, shift, Nat.mod_eq_of_lt small, UInt32.toNat_one,
          Nat.one_shiftLeft, Nat.mod_eq_of_lt power]
      rw [UInt32.toNat_sub_of_le, one, UInt32.toNat_one]
      rw [UInt32.le_iff_toNat_le, one, UInt32.toNat_one]
      exact Nat.one_le_two_pow
    rw [if_pos small, UInt32.toNat_and, mask, Nat.and_two_pow_sub_one_eq_mod]
  · obtain rfl : width = 32 := by omega
    rw [if_neg small, Nat.mod_eq_of_lt value.toNat_lt]

theorem normalizeScalar_of_lt {width : ℕ} (narrow : width ≤ 32) {value : UInt32}
    (fits : value.toNat < 2 ^ width) : normalizeScalar width value = value :=
  UInt32.toNat_inj.mp (by rw [toNat_normalizeScalar narrow, Nat.mod_eq_of_lt fits])

theorem normalizeScalar_lt {width : ℕ} (narrow : width ≤ 32) (value : UInt32) :
    (normalizeScalar width value).toNat < 2 ^ width := by
  rw [toNat_normalizeScalar narrow]
  exact Nat.mod_lt _ (Nat.two_pow_pos width)

end Scalars

/-! ### The tables -/

section TableChecks

/-- What the checks of `init` say about the tables. -/
structure Checked (adapter : Adapter World) (tables : Tables World) : Prop where
  words : ∀ spec ∈ adapter.ports, ∀ word < spec.wordCount,
    spec.id + word < adapter.signalCount ∧ tables.driven (spec.id + word) = spec.driven
  packed : ∀ spec ∈ adapter.ports, ∀ offset, spec.transport = .packed offset →
    ∀ word < spec.wordCount, tables.onDemandGetWords (spec.id + word) = none ∧
      tables.onDemandSetWords (spec.id + word) = none ∧
      (spec.driven = false →
        tables.observedTransportOffsets (spec.id + word) = some (offset + word))
  onDemand : ∀ spec ∈ adapter.ports, ∀ port, spec.transport = .onDemand port →
    ∀ word < spec.wordCount, tables.onDemandGetWords (spec.id + word) = some port.getWords ∧
      tables.onDemandSetWords (spec.id + word) = port.setWords ∧
      tables.onDemandBaseIds (spec.id + word) = spec.id
  offsets : ∀ id offset, tables.observedTransportOffsets id = some offset →
    offset < adapter.observedSignalWordIds.length

/-- `bind_dut` adds on-demand words only. -/
structure Grown (tables tables' : Tables World) : Prop where
  driven : tables'.driven = tables.driven
  kept : ∀ id, tables.onDemandGetWords id ≠ none →
    tables'.onDemandGetWords id = tables.onDemandGetWords id ∧
    tables'.onDemandSetWords id = tables.onDemandSetWords id ∧
    tables'.onDemandBaseIds id = tables.onDemandBaseIds id
  paired : (∀ id, tables.onDemandGetWords id = none → tables.onDemandSetWords id = none) →
    ∀ id, tables'.onDemandGetWords id = none → tables'.onDemandSetWords id = none

theorem Grown.refl (tables : Tables World) : Grown tables tables :=
  ⟨rfl, fun _ _ => ⟨rfl, rfl, rfl⟩, fun paired => paired⟩

theorem Grown.trans {first second third : Tables World} (one : Grown first second)
    (two : Grown second third) : Grown first third where
  driven := two.driven.trans one.driven
  kept id present := by
    obtain ⟨get, set, base⟩ := one.kept id present
    obtain ⟨get', set', base'⟩ := two.kept id (get ▸ present)
    exact ⟨get'.trans get, set'.trans set, base'.trans base⟩
  paired start := two.paired (one.paired start)

/-- The on-demand words of a port. -/
def OnDemandAt (tables : Tables World) (id : ℕ) (getWords : World → ℕ → Option UInt32)
    (setWords : Option (World → ℕ → UInt32 → Option World)) (word : ℕ) : Prop :=
  tables.onDemandGetWords (id + word) = some getWords ∧
    tables.onDemandSetWords (id + word) = setWords ∧ tables.onDemandBaseIds (id + word) = id

theorem Grown.onDemandAt {tables tables' : Tables World} (grown : Grown tables tables') {id word : ℕ}
    {getWords : World → ℕ → Option UInt32}
    {setWords : Option (World → ℕ → UInt32 → Option World)}
    (here : OnDemandAt tables id getWords setWords word) :
    OnDemandAt tables' id getWords setWords word := by
  obtain ⟨get, set, base⟩ := here
  obtain ⟨get', set', base'⟩ := grown.kept (id + word) (by rw [get]; exact Option.some_ne_none _)
  exact ⟨get'.trans get, set'.trans set, base'.trans base⟩

/-- One word of `register_on_demand`. -/
theorem registerOnDemandWord_spec {id : ℕ} {getWords : World → ℕ → Option UInt32}
    {setWords : Option (World → ℕ → UInt32 → Option World)} {tables tables' : Tables World} {word : ℕ}
    (ok : registerOnDemandWord id getWords setWords tables word = .ok tables') :
    Grown tables tables' ∧ OnDemandAt tables' id getWords setWords word := by
  obtain ⟨_, free, ok⟩ := bind_ok ok
  obtain ⟨free, -⟩ := require_ok free
  obtain rfl := Except.ok.inj ok
  have free : tables.onDemandGetWords (id + word) = none := Option.isNone_iff_eq_none.mp free
  refine ⟨⟨rfl, fun other present => ?_, fun paired other absent => ?_⟩, ?_⟩
  · have different : other ≠ id + word := by
      rintro rfl
      exact present free
    simp only [Function.update_of_ne different, and_self]
  · by_cases same : other = id + word
    · rw [same] at absent
      simp only [Function.update_self] at absent
      exact absurd absent (Option.some_ne_none _)
    · simp only [Function.update_of_ne same] at absent ⊢
      exact paired other absent
  · simp only [OnDemandAt, Function.update_self, and_self]

theorem registerOnDemandWords_spec {id : ℕ} {getWords : World → ℕ → Option UInt32}
    {setWords : Option (World → ℕ → UInt32 → Option World)} {tables tables' : Tables World}
    {words : List ℕ}
    (ok : words.foldlM (registerOnDemandWord id getWords setWords) tables = .ok tables') :
    Grown tables tables' ∧ ∀ word ∈ words, OnDemandAt tables' id getWords setWords word := by
  induction words generalizing tables with
  | nil =>
    obtain rfl := Except.ok.inj ok
    exact ⟨.refl _, nofun⟩
  | cons word rest ih =>
    rw [List.foldlM_cons] at ok
    obtain ⟨next, one, ok⟩ := bind_ok ok
    obtain ⟨grown, here⟩ := registerOnDemandWord_spec one
    obtain ⟨grown', later⟩ := ih ok
    exact ⟨grown.trans grown', List.forall_mem_cons.mpr ⟨grown'.onDemandAt here, later⟩⟩

/-- What `make_signal` checks of a port. -/
structure Signalled (adapter : Adapter World) (tables : Tables World) (spec : PortSpec World) :
    Prop where
  words : ∀ word < spec.wordCount,
    spec.id + word < adapter.signalCount ∧ tables.driven (spec.id + word) = spec.driven
  packed : ∀ offset, spec.transport = .packed offset → ∀ word < spec.wordCount,
    (if spec.driven then adapter.drivenSignalWordIds else adapter.observedSignalWordIds)[
      offset + word]? = some (spec.id + word)
  onDemand : ∀ port, spec.transport = .onDemand port → ∀ word < spec.wordCount,
    OnDemandAt tables spec.id port.getWords port.setWords word

theorem Signalled.grown {adapter : Adapter World} {tables tables' : Tables World}
    {spec : PortSpec World} (signalled : Signalled adapter tables spec)
    (grown : Grown tables tables') : Signalled adapter tables' spec where
  words word inside := by
    rw [grown.driven]
    exact signalled.words word inside
  packed := signalled.packed
  onDemand port transport word inside :=
    grown.onDemandAt (signalled.onDemand port transport word inside)

theorem makeSignal_spec {adapter : Adapter World} {tables tables' : Tables World}
    {spec : PortSpec World} (ok : makeSignal adapter tables spec = .ok tables') :
    Grown tables tables' ∧ Signalled adapter tables' spec := by
  obtain ⟨_, metadata, ok⟩ := bind_ok ok
  obtain ⟨_, span, directions⟩ := bind_ok metadata
  have span := require_ok span
  have directions := require_ok directions
  obtain ⟨middle, bound, ok⟩ := bind_ok ok
  -- the two kinds of transport
  have transported : Grown tables middle ∧ Signalled adapter middle spec := by
    have words : ∀ word < spec.wordCount, spec.id + word < adapter.signalCount ∧
        tables.driven (spec.id + word) = spec.driven :=
      fun word inside => ⟨by omega, directions word inside⟩
    unfold bindTransport at bound
    cases kind : spec.transport with
    | packed offset =>
      rw [kind] at bound
      obtain ⟨_, checked, bound⟩ := bind_ok bound
      obtain rfl := Except.ok.inj bound
      obtain ⟨_, _, entries⟩ := bind_ok checked
      have entries := require_ok entries
      refine ⟨.refl _, words, fun offset' same word inside => ?_, fun port same => ?_⟩
      · rw [kind] at same
        obtain rfl := Transport.packed.inj same
        exact entries word inside
      · rw [kind] at same
        cases same
    | onDemand port =>
      rw [kind] at bound
      obtain ⟨_, _, turns⟩ := bind_ok bound
      obtain ⟨grown, entries⟩ := registerOnDemandWords_spec turns
      refine ⟨grown, fun word inside => ?_, fun offset same => ?_, fun port' same word inside => ?_⟩
      · rw [grown.driven]
        exact words word inside
      · rw [kind] at same
        cases same
      · rw [kind] at same
        obtain rfl := Transport.onDemand.inj same
        exact entries word (List.mem_range.mpr inside)
  obtain rfl := Except.ok.inj ok
  unfold markLocalEdges
  split
  · exact ⟨⟨transported.1.driven, transported.1.kept, transported.1.paired⟩,
      ⟨transported.2.words, transported.2.packed, transported.2.onDemand⟩⟩
  · exact transported

/-- **`bind_dut` checks every port.** -/
theorem makeSignals_spec {adapter : Adapter World} {ports : List (PortSpec World)}
    {tables tables' : Tables World} (ok : ports.foldlM (makeSignal adapter) tables = .ok tables') :
    Grown tables tables' ∧ ∀ spec ∈ ports, Signalled adapter tables' spec := by
  induction ports generalizing tables with
  | nil =>
    obtain rfl := Except.ok.inj ok
    exact ⟨.refl _, nofun⟩
  | cons spec rest ih =>
    rw [List.foldlM_cons] at ok
    obtain ⟨next, one, ok⟩ := bind_ok ok
    obtain ⟨grown, here⟩ := makeSignal_spec one
    obtain ⟨grown', later⟩ := ih ok
    exact ⟨grown.trans grown', List.forall_mem_cons.mpr ⟨here.grown grown', later⟩⟩

/-- The offsets after some observed words. -/
theorem observeWords_spec {adapter : Adapter World} {turns : List (ℕ × ℕ)}
    {offsets offsets' : ℕ → Option ℕ}
    (ok : turns.foldlM (observeWord adapter) offsets = .ok offsets') :
    (∀ id, offsets id ≠ none → offsets' id = offsets id) ∧
    (∀ turn ∈ turns, offsets' turn.1 = some turn.2) ∧
    ∀ id offset, offsets' id = some offset → offsets id = some offset ∨ (id, offset) ∈ turns := by
  induction turns generalizing offsets with
  | nil =>
    obtain rfl := Except.ok.inj ok
    exact ⟨fun _ _ => rfl, nofun, fun _ _ found => .inl found⟩
  | cons turn rest ih =>
    rw [List.foldlM_cons] at ok
    obtain ⟨next, one, ok⟩ := bind_ok ok
    obtain ⟨_, free, one⟩ := bind_ok one
    have free : offsets turn.1 = none := Option.isNone_iff_eq_none.mp (require_ok free).2
    obtain rfl := Except.ok.inj one
    obtain ⟨kept, entries, origin⟩ := ih ok
    have here : offsets' turn.1 = some turn.2 := by
      have present : update offsets turn.1 (some turn.2) turn.1 = some turn.2 :=
        Function.update_self ..
      rw [kept turn.1 (by rw [present]; exact Option.some_ne_none _), present]
    refine ⟨fun id present => ?_, List.forall_mem_cons.mpr ⟨here, entries⟩, fun id offset found => ?_⟩
    · have different : id ≠ turn.1 := by
        rintro rfl
        exact present free
      have same : update offsets turn.1 (some turn.2) id = offsets id :=
        Function.update_of_ne different ..
      rw [kept id (by rw [same]; exact present), same]
    · rcases origin id offset found with before | later
      · by_cases same : id = turn.1
        · rw [same, Function.update_self] at before
          obtain rfl := Option.some.inj before
          exact .inr (same ▸ List.mem_cons_self)
        · rw [Function.update_of_ne same] at before
          exact .inl before
      · exact .inr (List.mem_cons_of_mem _ later)

/-- The driven words are seen. -/
theorem driveWords_seen {adapter : Adapter World} {driven : ℕ → Bool} {ids : List ℕ}
    {seen seen' : ℕ → Bool} (ok : ids.foldlM (driveWord adapter driven) seen = .ok seen') :
    (∀ id, seen id = true → seen' id = true) ∧ ∀ id ∈ ids, seen' id = true := by
  induction ids generalizing seen with
  | nil =>
    obtain rfl := Except.ok.inj ok
    exact ⟨fun _ present => present, nofun⟩
  | cons id rest ih =>
    rw [List.foldlM_cons] at ok
    obtain ⟨next, one, ok⟩ := bind_ok ok
    obtain ⟨_, _, one⟩ := bind_ok one
    obtain rfl := Except.ok.inj one
    obtain ⟨kept, entries⟩ := ih ok
    refine ⟨fun other present => kept other ?_,
      List.forall_mem_cons.mpr ⟨kept id (Function.update_self ..), entries⟩⟩
    by_cases same : other = id
    · rw [same]
      exact Function.update_self ..
    · rw [Function.update_of_ne same]
      exact present

/-- **The tables of a binding that passes the checks.** -/
theorem checked_of_completeness {adapter : Adapter World} {tables tables' : Tables World}
    (ports : ∀ spec ∈ adapter.ports, Signalled adapter tables spec)
    (paired : ∀ id, tables.onDemandGetWords id = none → tables.onDemandSetWords id = none)
    (ok : validateTransportCompleteness adapter tables = .ok tables') : Checked adapter tables' := by
  obtain ⟨offsets, observed, ok⟩ := bind_ok ok
  obtain ⟨drivenSeen, drives, ok⟩ := bind_ok ok
  obtain ⟨_, apart, ok⟩ := bind_ok ok
  have apart := require_ok apart
  obtain ⟨seen, _, ok⟩ := bind_ok ok
  obtain ⟨_, _, ok⟩ := bind_ok ok
  obtain rfl := Except.ok.inj ok
  obtain ⟨-, entries, origin⟩ := observeWords_spec observed
  obtain ⟨-, drives⟩ := driveWords_seen drives
  have offsetAt : ∀ index id, adapter.observedSignalWordIds[index]? = some id →
      offsets id = some index := fun index id found =>
    entries (id, index) (List.mk_mem_zipIdx_iff_getElem?.mpr found)
  refine ⟨fun spec member => (ports spec member).words, fun spec member offset transport word inside =>
    ?_, fun spec member => (ports spec member).onDemand, fun id offset found => ?_⟩
  · obtain ⟨bound, -⟩ := (ports spec member).words word inside
    have entry := (ports spec member).packed offset transport word inside
    have packed : ((offsets (spec.id + word)).isSome || drivenSeen (spec.id + word)) = true := by
      cases direction : spec.driven with
      | true =>
        rw [direction, if_pos rfl] at entry
        rw [drives _ (List.mem_of_getElem? entry), Bool.or_true]
      | false =>
        rw [direction, if_neg Bool.false_ne_true] at entry
        rw [offsetAt _ _ entry]
        rfl
    have free : tables.onDemandGetWords (spec.id + word) = none := by
      rw [← Option.not_isSome_iff_eq_none]
      intro present
      exact Bool.false_ne_true ((apart _ bound present).symm.trans packed)
    refine ⟨free, paired _ free, fun direction => ?_⟩
    rw [direction, if_neg Bool.false_ne_true] at entry
    exact offsetAt _ _ entry
  · rcases origin id offset found with none' | turn
    · cases none'
    · exact (List.getElem?_eq_some_iff.mp (List.mk_mem_zipIdx_iff_getElem?.mp turn)).1

end TableChecks

/-! ### States after `init` -/

section States

/-- What holds after `init`, between any two events. -/
structure Bound (adapter : Adapter World) (runtime : Runtime World) : Prop where
  shared : runtime.staticBinding.currentInputs = runtime.currentInputs
  scheduled : runtime.staticBinding.scheduler = runtime.scheduler.isSome
  zero : adapter.compactInputTransport = true → ∀ id, runtime.inputs id = 0
  view : ∀ words, runtime.currentInputs = some words → adapter.inputCount ≤ words.length
  saved : ∀ phase words, .step phase (some words) ∈ runtime.scopes → adapter.inputCount ≤ words.length
  checked : Checked adapter runtime.toTables

/-- A state that differs in nothing that `Bound` speaks of. -/
theorem Bound.of_same {adapter : Adapter World} {runtime runtime' : Runtime World}
    (bound : Bound adapter runtime) (context : runtime'.staticBinding = runtime.staticBinding)
    (current : runtime'.currentInputs = runtime.currentInputs)
    (scheduler : runtime'.scheduler.isSome = runtime.scheduler.isSome)
    (inputs : runtime'.inputs = runtime.inputs) (scopes : runtime'.scopes = runtime.scopes)
    (tables : runtime'.toTables = runtime.toTables) : Bound adapter runtime' where
  shared := by rw [context, current]; exact bound.shared
  scheduled := by rw [context, scheduler]; exact bound.scheduled
  zero := by rw [inputs]; exact bound.zero
  view := by rw [current]; exact bound.view
  saved := by rw [scopes]; exact bound.saved
  checked := tables ▸ bound.checked

theorem init_checked {adapter : Adapter World} {runtime runtime' : Runtime World} {precision : ℕ}
    (ok : runtime.init adapter precision = .ok runtime') : Checked adapter runtime'.toTables := by
  obtain ⟨driven, _, ok⟩ := bind_ok ok
  obtain ⟨clocks, _, ok⟩ := bind_ok ok
  obtain ⟨observers, _, ok⟩ := bind_ok ok
  obtain ⟨tables, ports, ok⟩ := bind_ok ok
  obtain ⟨complete, checks, ok⟩ := bind_ok ok
  obtain rfl := Except.ok.inj ok
  obtain ⟨grown, signalled⟩ := makeSignals_spec ports
  exact checked_of_completeness signalled (grown.paired fun _ _ => rfl) checks

/-- What `init` leaves behind, whatever was before. -/
theorem init_bound {adapter : Adapter World} {runtime runtime' : Runtime World} {precision : ℕ}
    (saved : ∀ phase words, .step phase (some words) ∈ runtime.scopes →
      adapter.inputCount ≤ words.length)
    (ok : runtime.init adapter precision = .ok runtime') : Bound adapter runtime' := by
  have checked := init_checked ok
  obtain ⟨driven, _, ok⟩ := bind_ok ok
  obtain ⟨clocks, _, ok⟩ := bind_ok ok
  obtain ⟨observers, _, ok⟩ := bind_ok ok
  obtain ⟨tables, _, ok⟩ := bind_ok ok
  obtain ⟨complete, _, ok⟩ := bind_ok ok
  obtain rfl := Except.ok.inj ok
  refine ⟨rfl, rfl, fun _ _ => rfl, nofun, fun phase words member => ?_, checked⟩
  rcases List.mem_cons.mp member with here | before
  · cases here
  · exact saved phase words before

/-- What a write can change. -/
structure Written (runtime runtime' : Runtime World) : Prop where
  context : runtime'.staticBinding = runtime.staticBinding
  current : runtime'.currentInputs = runtime.currentInputs
  scheduler : runtime'.scheduler.isSome = runtime.scheduler.isSome
  inputs : runtime'.inputs = runtime.inputs
  scopes : runtime'.scopes = runtime.scopes
  tables : runtime'.toTables = runtime.toTables

theorem Written.refl (runtime : Runtime World) : Written runtime runtime := ⟨rfl, rfl, rfl, rfl, rfl, rfl⟩

theorem Written.trans {first second third : Runtime World} (one : Written first second)
    (two : Written second third) : Written first third :=
  ⟨two.context.trans one.context, two.current.trans one.current, two.scheduler.trans one.scheduler,
    two.inputs.trans one.inputs, two.scopes.trans one.scopes, two.tables.trans one.tables⟩

theorem Bound.written {adapter : Adapter World} {runtime runtime' : Runtime World}
    (bound : Bound adapter runtime) (written : Written runtime runtime') : Bound adapter runtime' :=
  bound.of_same written.context written.current written.scheduler written.inputs written.scopes
    written.tables

theorem written_notifyInterested (runtime : Runtime World) (id : ℕ) (edge : Coro.EdgeKind) :
    Written runtime (runtime.notifyInterested id edge) := by
  unfold Runtime.notifyInterested
  cases found : runtime.scheduler with
  | none => exact .refl _
  | some scheduler =>
    simp only
    split
    · exact ⟨rfl, rfl, by rw [found]; rfl, rfl, rfl, rfl⟩
    · exact .refl _

theorem Written.deliverLocalEdge {runtime middle : Runtime World} (written : Written runtime middle)
    (id : ℕ) (previous value : UInt32) :
    Written runtime (middle.deliverLocalEdge id previous value) := by
  unfold Runtime.deliverLocalEdge
  split
  · exact written
  · exact written.trans (written_notifyInterested ..)

/-- The two ways to deliver an edge. -/
theorem Bound.deliverLocalEdge_eq {adapter : Adapter World} {runtime : Runtime World}
    (bound : Bound adapter runtime) (id : ℕ) (previous value : UInt32) :
    StaticBindingContext.deliverLocalEdge runtime id previous value =
      runtime.deliverLocalEdge id previous value := by
  unfold StaticBindingContext.deliverLocalEdge Runtime.deliverLocalEdge
  rw [bound.scheduled, Option.not_isSome]

theorem written_set {adapter : Adapter World} {runtime runtime' : Runtime World} {id : ℕ}
    {value : UInt32} (ok : runtime.set adapter id value = .ok runtime') : Written runtime runtime' := by
  obtain ⟨_, _, ok⟩ := bind_ok ok
  split at ok
  · obtain rfl := Except.ok.inj ok
    exact ⟨rfl, rfl, rfl, rfl, rfl, rfl⟩
  obtain ⟨_, _, ok⟩ := bind_ok ok
  split at ok
  · obtain ⟨previous, _, ok⟩ := bind_ok ok
    split at ok
    · obtain rfl := Except.ok.inj ok
      exact .refl _
    split at ok
    · obtain rfl := Except.ok.inj ok
      apply Written.deliverLocalEdge
      exact ⟨rfl, rfl, rfl, rfl, rfl, rfl⟩
    · cases ok
  · simp only at ok
    split at ok
    · obtain rfl := Except.ok.inj ok
      exact .refl _
    · obtain rfl := Except.ok.inj ok
      apply Written.deliverLocalEdge
      exact ⟨rfl, rfl, rfl, rfl, rfl, rfl⟩

theorem written_registerClock {adapter : Adapter World} {runtime runtime' : Runtime World}
    {id period phase : ℕ} (ok : runtime.registerClock adapter id period phase = .ok runtime') :
    Written runtime runtime' := by
  obtain ⟨_, _, ok⟩ := bind_ok ok
  obtain ⟨_, _, ok⟩ := bind_ok ok
  obtain ⟨_, _, ok⟩ := bind_ok ok
  obtain ⟨_, _, ok⟩ := bind_ok ok
  obtain ⟨_, _, ok⟩ := bind_ok ok
  obtain ⟨_, _, ok⟩ := bind_ok ok
  obtain ⟨_, _, ok⟩ := bind_ok ok
  obtain ⟨_, _, ok⟩ := bind_ok ok
  obtain rfl := Except.ok.inj ok
  exact ⟨rfl, rfl, rfl, rfl, rfl, rfl⟩

theorem written_setNowWide {ref : StaticPackedRef}
    {runtime runtime' : Runtime World} {words : ℕ → UInt32}
    (ok : ref.setNowWide runtime words = .ok runtime') : Written runtime runtime' := by
  obtain ⟨_, _, ok⟩ := bind_ok ok
  obtain rfl := Except.ok.inj ok
  exact ⟨rfl, rfl, rfl, rfl, rfl, rfl⟩

theorem Written.staticDeliver {runtime middle : Runtime World} (written : Written runtime middle)
    (id : ℕ) (previous value : UInt32) :
    Written runtime (StaticBindingContext.deliverLocalEdge middle id previous value) := by
  unfold StaticBindingContext.deliverLocalEdge
  split
  · exact written
  · exact written.trans (written_notifyInterested ..)

theorem written_setNow {ref : StaticRef World} {runtime runtime' : Runtime World} {value : UInt32}
    (ok : ref.setNow runtime value = .ok runtime') : Written runtime runtime' := by
  cases ref with
  | packed ref =>
    obtain ⟨_, _, ok⟩ := bind_ok ok
    obtain rfl := Except.ok.inj ok
    unfold StaticBindingContext.setPackedScalar
    simp only
    split
    · exact .refl _
    · apply Written.staticDeliver
      exact ⟨rfl, rfl, rfl, rfl, rfl, rfl⟩
  | onDemand ref =>
    obtain ⟨_, _, ok⟩ := bind_ok ok
    obtain ⟨previous, _, ok⟩ := bind_ok ok
    split at ok
    · obtain rfl := Except.ok.inj ok
      exact .refl _
    split at ok
    · obtain rfl := Except.ok.inj ok
      apply Written.staticDeliver
      exact ⟨rfl, rfl, rfl, rfl, rfl, rfl⟩
    · cases ok

theorem Bound.enterStep {adapter : Adapter World} {runtime : Runtime World}
    (bound : Bound adapter runtime) (phase : Phase) (view : InputView adapter.inputCount) :
    Bound adapter (runtime.enterStep adapter phase view) := by
  have entered : Bound adapter { runtime with
      phase := callbackPhase phase
      currentInputs := some view.words
      staticBinding := { runtime.staticBinding with currentInputs := some view.words }
      scopes := .step runtime.phase runtime.currentInputs :: runtime.scopes
      inputs := if adapter.compactInputTransport then runtime.inputs
        else fun id => view.words.getD id 0 } := by
    refine ⟨rfl, bound.scheduled, fun compact => ?_, fun words same => ?_, fun phase words member => ?_,
      bound.checked⟩
    · simp only [compact, if_true]
      exact bound.zero compact
    · obtain rfl := Option.some.inj same
      exact view.enough
    · rcases List.mem_cons.mp member with here | before
      · exact bound.view words (Scope.step.inj here).2.symm
      · exact bound.saved phase words before
  unfold Runtime.enterStep
  simp only
  split
  · split
    · exact entered.of_same rfl rfl (Option.isSome_map ..) rfl rfl rfl
    · exact entered.of_same rfl rfl (Option.isSome_map ..) rfl rfl rfl
  · exact entered

theorem Bound.leave {adapter : Adapter World} {runtime : Runtime World}
    (bound : Bound adapter runtime) : Bound adapter runtime.leave := by
  have saved := bound.saved
  unfold Runtime.leave
  split
  · exact bound
  · next phase scopes same =>
    exact ⟨bound.shared, bound.scheduled, bound.zero, bound.view, fun phase words member =>
      saved phase words (same ▸ List.mem_cons_of_mem _ member), bound.checked⟩
  · next phase previous scopes same =>
    refine ⟨rfl, bound.scheduled, bound.zero, fun words current => ?_, fun phase words member =>
      saved phase words (same ▸ List.mem_cons_of_mem _ member), bound.checked⟩
    exact saved phase words (by rw [same, show previous = some words from current]; exact
      List.mem_cons_self)

/-- **Every event keeps a binding.** -/
theorem perform_bound {adapter : Adapter World} {runtime runtime' : Runtime World}
    (bound : Bound adapter runtime) {event : Event World adapter.inputCount}
    (ok : adapter.perform runtime event = .ok runtime') : Bound adapter runtime' := by
  cases event with
  | init precision => exact init_bound bound.saved ok
  | finishInit =>
    obtain ⟨_, _, ok⟩ := bind_ok ok
    obtain rfl := Except.ok.inj ok
    exact bound.of_same rfl rfl rfl rfl rfl rfl
  | enterStep phase view =>
    obtain rfl := Except.ok.inj ok
    exact bound.enterStep phase view
  | finishStep violation =>
    obtain rfl := Except.ok.inj ok
    exact bound.of_same rfl rfl rfl rfl rfl rfl
  | leave =>
    obtain rfl := Except.ok.inj ok
    exact bound.leave
  | registerClock element period phase =>
    simp only [Adapter.perform] at ok
    split at ok
    · exact bound.written (written_registerClock ok)
    · cases ok
  | set element value =>
    simp only [Adapter.perform] at ok
    split at ok
    · unfold StaticRef.set at ok
      split at ok
      · obtain ⟨_, _, ok⟩ := bind_ok ok
        obtain rfl := Except.ok.inj ok
        exact bound.of_same rfl rfl rfl rfl rfl rfl
      · exact bound.written (written_setNow ok)
    · cases ok
  | setNow element value =>
    simp only [Adapter.perform] at ok
    split at ok
    · exact bound.written (written_setNow ok)
    · cases ok
  | setWide element words =>
    simp only [Adapter.perform] at ok
    split at ok
    · unfold StaticPackedRef.setWide at ok
      split at ok
      · obtain ⟨_, _, ok⟩ := bind_ok ok
        obtain rfl := Except.ok.inj ok
        exact bound.of_same rfl rfl rfl rfl rfl rfl
      · exact bound.written (written_setNowWide ok)
    · cases ok
  | signalSet element value =>
    simp only [Adapter.perform] at ok
    split at ok
    · exact bound.written (written_set ok)
    · cases ok
  | applyDeferred =>
    unfold Adapter.perform Runtime.applyDeferred at ok
    simp only at ok
    split at ok
    · obtain rfl := Except.ok.inj ok
      exact bound
    · next ref value later same =>
      have popped : Bound adapter { runtime with deferredWrites := later } :=
        bound.of_same rfl rfl rfl rfl rfl rfl
      exact popped.written (written_setNow ok)
    · next ref words later same =>
      have popped : Bound adapter { runtime with deferredWrites := later } :=
        bound.of_same rfl rfl rfl rfl rfl rfl
      exact popped.written (written_setNowWide ok)
  | interest hasEdgeInterest =>
    obtain rfl := Except.ok.inj ok
    exact bound.of_same rfl rfl (Option.isSome_map ..) rfl rfl rfl
  | world world =>
    obtain rfl := Except.ok.inj ok
    exact bound.of_same rfl rfl rfl rfl rfl rfl

theorem run_bound {adapter : Adapter World} {runtime runtime' : Runtime World}
    (bound : Bound adapter runtime) {events : List (Event World adapter.inputCount)}
    (ok : adapter.run runtime events = .ok runtime') : Bound adapter runtime' := by
  induction events generalizing runtime with
  | nil =>
    obtain rfl := Except.ok.inj ok
    exact bound
  | cons event rest ih =>
    rw [Adapter.run, List.foldlM_cons] at ok
    obtain ⟨next, one, ok⟩ := bind_ok ok
    exact ih (perform_bound bound one) ok

/-- **Every run that begins with `init`.** -/
theorem bound_of_run {adapter : Adapter World} {world : World} {precision : ℕ}
    {events : List (Event World adapter.inputCount)} {runtime : Runtime World}
    (ok : adapter.run { world := world } (.init precision :: events) = .ok runtime) :
    Bound adapter runtime := by
  rw [Adapter.run, List.foldlM_cons] at ok
  obtain ⟨start, init, ok⟩ := bind_ok ok
  exact run_bound (init_bound (fun _ _ member => absurd member List.not_mem_nil) init) ok

end States

/-! ### Elements -/

section Elements

/-- An index that is in bounds stays inside the port, and moves the id and the transport alike. -/
theorem arrayAt_spec {elementWords : ℕ} (positive : 0 < elementWords)
    {dimensions : List ArrayDimension} {idOffset transportOffset : ℕ} {indices : List ℤ}
    {found : ℕ × ℕ} (at' : arrayAt elementWords dimensions idOffset transportOffset indices = some found) :
    ∃ offset < PortSpec.elementCount dimensions * elementWords,
      found = (idOffset + offset, transportOffset + offset) := by
  induction dimensions generalizing idOffset transportOffset indices with
  | nil =>
    cases indices with
    | nil =>
      obtain rfl := Option.some.inj at'
      refine ⟨0, ?_, rfl⟩
      rw [PortSpec.elementCount, List.map_nil, List.prod_nil, Nat.one_mul]
      exact positive
    | cons index indices => cases at'
  | cons dimension remaining ih =>
    cases indices with
    | nil => cases at'
    | cons index indices =>
      rw [arrayAt] at at'
      split at at'
      next inBounds =>
        obtain ⟨offset, inside, rfl⟩ := ih at'
        have rows : (index - dimension.low).toNat + 1 ≤ dimension.size := by
          unfold ArrayDimension.size
          omega
        have count : PortSpec.elementCount (dimension :: remaining) =
            dimension.size * PortSpec.elementCount remaining := by
          rw [PortSpec.elementCount, List.map_cons, List.prod_cons]
          rfl
        refine ⟨(index - dimension.low).toNat * (elementWords * PortSpec.elementCount remaining) +
          offset, ?_, by rw [Nat.add_assoc, Nat.add_assoc]⟩
        calc (index - dimension.low).toNat * (elementWords * PortSpec.elementCount remaining) + offset
            < (index - dimension.low).toNat * (elementWords * PortSpec.elementCount remaining) +
                PortSpec.elementCount remaining * elementWords := by omega
          _ = ((index - dimension.low).toNat + 1) *
                (PortSpec.elementCount remaining * elementWords) := by ring
          _ ≤ dimension.size * (PortSpec.elementCount remaining * elementWords) :=
              Nat.mul_le_mul_right _ rows
          _ = PortSpec.elementCount (dimension :: remaining) * elementWords := by rw [count]; ring
      · cases at'

/-- A reference to a word of a port. -/
inductive Resolved (adapter : Adapter World) : StaticRef World → Prop
  | packed {spec : PortSpec World} {offset word : ℕ} (member : spec ∈ adapter.ports)
      (transport : spec.transport = .packed offset) (inside : word < spec.wordCount) :
      Resolved adapter (.packed ⟨spec.width, spec.writable, spec.driven, spec.id + word, offset + word⟩)
  | onDemand {spec : PortSpec World} {port : OnDemandPort World spec.width} {word : ℕ}
      (member : spec ∈ adapter.ports) (transport : spec.transport = .onDemand port)
      (inside : word < spec.wordCount) :
      Resolved adapter (.onDemand ⟨spec.width, spec.writable, spec.driven, spec.id + word, word,
        port.getWords, port.setWords⟩)

theorem resolved_of_ref {adapter : Adapter World} {element : Element} {ref : StaticRef World}
    (found : adapter.ref element = some ref) : Resolved adapter ref := by
  obtain ⟨spec, port, found⟩ := Option.bind_eq_some_iff.mp found
  have member := List.mem_of_getElem? port
  obtain ⟨offsets, at', found⟩ := Option.map_eq_some_iff.mp found
  have positive : 0 < spec.elementWords := by
    have := spec.positive
    unfold PortSpec.elementWords
    omega
  obtain ⟨word, inside, rfl⟩ := arrayAt_spec positive at'
  rw [Nat.zero_add] at found
  obtain rfl := found
  cases transport : spec.transport with
  | packed offset => exact .packed member transport inside
  | onDemand port => exact .onDemand member transport inside

end Elements

/-! ### Reading -/

section Reading

/-- The condition under which the two reads agree: a driven word of the arrays that is a clock has a
place in the input array, or there is no input array and the clock was driven to zero. -/
def ReadsAlike (runtime : Runtime World) : StaticRef World → Prop
  | .onDemand _ => True
  | .packed ref => ref.driven = true → runtime.configuredClock ref.id = true →
    (runtime.currentInputs.isSome → (runtime.observedTransportOffsets ref.id).isSome) ∧
      (runtime.currentInputs = none → normalizeScalar ref.width (runtime.outputs ref.id) = 0)

theorem map_ok_inj {f : UInt32 → UInt32} {first second : UInt32} :
    (f <$> (.ok first : Except Failure UInt32)) = f <$> (.ok second : Except Failure UInt32) ↔
      f first = f second :=
  ⟨Except.ok.inj, congrArg Except.ok⟩

/-- **The two reads of an element.** -/
theorem get_agree {adapter : Adapter World} {runtime : Runtime World} (bound : Bound adapter runtime)
    (compact : adapter.compactInputTransport = true) {ref : StaticRef World}
    (resolved : Resolved adapter ref) :
    ref.get runtime = ref.dynamicGet adapter runtime ↔ ReadsAlike runtime ref := by
  have observed : ∀ words, runtime.currentInputs = some words →
      ∀ id offset, runtime.observedTransportOffsets id = some offset → offset < words.length := by
    intro words current id offset found
    have enough := bound.view words current
    rw [Adapter.inputCount, if_pos compact] at enough
    exact (bound.checked.offsets id offset found).trans_le enough
  cases resolved with
  | @onDemand spec port word member transport inside =>
    obtain ⟨valid, -⟩ := bound.checked.words spec member word inside
    obtain ⟨get, -, base⟩ := bound.checked.onDemand spec member port transport word inside
    refine iff_of_true ?_ trivial
    simp only [StaticRef.get, StaticOnDemandRef.get, StaticRef.dynamicGet, StaticRef.id,
      StaticRef.width, Runtime.get, if_neg (Nat.not_le.mpr valid), get, base, Nat.add_sub_cancel_left]
    cases port.getWords runtime.world word with
    | none => rfl
    | some value => rfl
  | @packed spec offset word member transport inside =>
    obtain ⟨valid, direction⟩ := bound.checked.words spec member word inside
    obtain ⟨get, -, observedAt⟩ := bound.checked.packed spec member offset transport word inside
    have zero := bound.zero compact (spec.id + word)
    simp only [StaticRef.get, StaticPackedRef.get, StaticPackedRef.word, StaticRef.dynamicGet,
      StaticRef.id, StaticRef.width, Runtime.get, if_neg (Nat.not_le.mpr valid), get, direction,
      bound.shared, ReadsAlike, compact, if_true, Nat.add_zero]
    cases driven : spec.driven with
    | false =>
      refine iff_of_true ?_ (fun absurd' => absurd absurd' Bool.false_ne_true)
      cases current : runtime.currentInputs with
      | none => rfl
      | some words =>
        have here := observedAt driven
        simp only [here, access, Option.bind_some, Bool.false_and, Bool.false_eq_true, if_false]
    | true =>
      cases clock : runtime.configuredClock (spec.id + word) with
      | false =>
        refine iff_of_true ?_ (fun _ absurd' => absurd absurd' Bool.false_ne_true)
        cases runtime.currentInputs <;> rfl
      | true =>
        simp only [forall_const, Bool.not_true, Bool.and_false, Bool.false_eq_true, if_false, if_true]
        cases current : runtime.currentInputs with
        | none =>
          simp only [zero, map_ok_inj, Option.isSome_none, Bool.false_eq_true, false_implies,
            true_and, forall_const]
          have nothing : normalizeScalar spec.width 0 = 0 := by
            unfold normalizeScalar
            split
            · exact UInt32.zero_and
            · rfl
          rw [nothing]
        | some words =>
          simp only [Option.isSome_some, forall_const, reduceCtorEq, false_implies, and_true]
          cases place : runtime.observedTransportOffsets (spec.id + word) with
          | none =>
            refine iff_of_false ?_ Bool.false_ne_true
            exact fun same => nomatch Except.error.inj same
          | some offset' =>
            refine iff_of_true ?_ rfl
            have inside' := observed words current _ _ place
            simp only [access, Option.bind_some, List.getElem?_eq_getElem inside']

end Reading

/-! ### Writing -/

section Writing

/-- What a write leaves behind: the outputs, whether they have changed, the edges that were notified,
and the design. -/
def Runtime.effect (runtime : Runtime World) :
    (ℕ → UInt32) × Bool × Option (List (ℕ × Coro.EdgeKind)) × World :=
  (runtime.outputs, runtime.outputsDirty, runtime.scheduler.map Scheduler.notifications, runtime.world)

/-- `set`, of a word of the arrays. -/
theorem set_packed {adapter : Adapter World} {runtime : Runtime World} {id : ℕ}
    (valid : id < adapter.signalCount) (driven : runtime.driven id = true)
    (set : runtime.onDemandSetWords id = none) (value : UInt32) :
    runtime.set adapter id value = runtime.requireWriteAllowed.bind fun _ =>
      .ok (if runtime.outputs id = value then runtime
        else { runtime with
          outputs := update runtime.outputs id value
          outputsDirty := true }.deliverLocalEdge id (runtime.outputs id) value) := by
  unfold Runtime.set
  rw [require_of valid, driven, set]
  by_cases same : runtime.outputs id = value
  · simp only [if_pos same]
    rfl
  · simp only [if_neg same]
    rfl

/-- `set`, of a word on demand. -/
theorem set_onDemand {adapter : Adapter World} {runtime : Runtime World} {id base : ℕ}
    {assign : World → ℕ → UInt32 → Option World} (valid : id < adapter.signalCount)
    (driven : runtime.driven id = true) (set : runtime.onDemandSetWords id = some assign)
    (base' : runtime.onDemandBaseIds id = base) (value : UInt32) :
    runtime.set adapter id value = runtime.requireWriteAllowed.bind fun _ =>
      (runtime.get adapter id).bind fun previous =>
        if previous = value then .ok runtime
        else
          match assign runtime.world (id - base) value with
          | some world => .ok ({ runtime with world }.deliverLocalEdge id previous value)
          | none => .error .aborted := by
  unfold Runtime.set
  rw [require_of valid, driven, set, base']
  rfl

/-- **`set_now` is `set` of the signal.** -/
theorem setNow_eq {adapter : Adapter World} {runtime : Runtime World} (bound : Bound adapter runtime)
    {ref : StaticRef World} (resolved : Resolved adapter ref)
    (directions : ∀ spec ∈ adapter.ports, spec.driven = spec.writable) (narrow : ref.width ≤ 32)
    (writable : ref.writable = true) (value : UInt32) :
    ref.setNow runtime value = ref.dynamicSet adapter runtime value := by
  have deliver : ∀ runtime' : Runtime World, Written runtime runtime' → ∀ id previous value,
      StaticBindingContext.deliverLocalEdge runtime' id previous value =
        runtime'.deliverLocalEdge id previous value := fun runtime' written =>
    (bound.written written).deliverLocalEdge_eq
  cases resolved with
  | @onDemand spec port word member transport inside =>
    change spec.width ≤ 32 at narrow
    obtain ⟨valid, direction⟩ := bound.checked.words spec member word inside
    obtain ⟨get, set, base⟩ := bound.checked.onDemand spec member port transport word inside
    have driven : runtime.driven (spec.id + word) = true :=
      direction.trans ((directions spec member).trans writable)
    obtain ⟨assign, assigns⟩ := Option.isSome_iff_exists.mp
      ((spec.settable port transport).trans writable)
    have read : (StaticOnDemandRef.get ⟨spec.width, spec.writable, spec.driven, spec.id + word, word,
        port.getWords, port.setWords⟩ runtime) = runtime.get adapter (spec.id + word) := by
      simp only [StaticOnDemandRef.get, Runtime.get, if_neg (Nat.not_le.mpr valid), get, base,
        Nat.add_sub_cancel_left]
      cases found : port.getWords runtime.world word with
      | none => rfl
      | some value => exact congrArg Except.ok (normalizeScalar_of_lt narrow (port.bounded found))
    have dynamic := set_onDemand valid driven (set.trans assigns) base (normalizeScalar spec.width value)
    rw [Nat.add_sub_cancel_left] at dynamic
    refine Eq.trans ?_ dynamic.symm
    rw [StaticRef.setNow, StaticOnDemandRef.setNow, read]
    simp only [assigns, Option.bind_some]
    refine congrArg _ (funext fun _ => congrArg _ (funext fun previous => ?_))
    split
    · rfl
    · cases assign runtime.world word (normalizeScalar spec.width value) with
      | none => rfl
      | some world =>
        refine congrArg Except.ok ?_
        apply deliver
        exact ⟨rfl, rfl, rfl, rfl, rfl, rfl⟩
  | @packed spec offset word member transport inside =>
    obtain ⟨valid, direction⟩ := bound.checked.words spec member word inside
    obtain ⟨-, set, -⟩ := bound.checked.packed spec member offset transport word inside
    have driven : runtime.driven (spec.id + word) = true :=
      direction.trans ((directions spec member).trans writable)
    refine Eq.trans ?_ (set_packed valid driven set (normalizeScalar spec.width value)).symm
    refine congrArg _ (funext fun _ => congrArg Except.ok ?_)
    unfold StaticBindingContext.setPackedScalar
    simp only
    split
    · rfl
    · apply deliver
      exact ⟨rfl, rfl, rfl, rfl, rfl, rfl⟩

theorem effect_notifyInterested (runtime : Runtime World) (id : ℕ) (edge : Coro.EdgeKind) :
    (runtime.notifyInterested id edge).outputs = runtime.outputs ∧
      (runtime.notifyInterested id edge).world = runtime.world := by
  unfold Runtime.notifyInterested
  split
  · split <;> exact ⟨rfl, rfl⟩
  · exact ⟨rfl, rfl⟩

/-- Delivering an edge changes neither outputs nor the design. -/
theorem effect_deliverLocalEdge (runtime : Runtime World) (id : ℕ) (previous value : UInt32) :
    (runtime.deliverLocalEdge id previous value).outputs = runtime.outputs ∧
      (runtime.deliverLocalEdge id previous value).world = runtime.world := by
  unfold Runtime.deliverLocalEdge
  split
  · exact ⟨rfl, rfl⟩
  · exact effect_notifyInterested ..

/-- The value that is written is there already. -/
def AlreadySet (runtime : Runtime World) (ref : StaticRef World) (value : UInt32) : Prop :=
  match ref with
  | .packed ref => runtime.outputs ref.id = normalizeScalar ref.width value
  | .onDemand ref => ref.getWords runtime.world ref.wordOffset = some (normalizeScalar ref.width value)

/-- The condition under which the two writes agree: writes are not deferred, or no write is allowed, or
there is nothing to write. -/
def SetsAlike (adapter : Adapter World) (runtime : Runtime World) (ref : StaticRef World)
    (value : UInt32) : Prop :=
  adapter.deferredWrites = false ∨ (runtime.scopes ≠ [] ∧ runtime.phase = .readOnly) ∨
    AlreadySet runtime ref value

/-- When a write through the signal has no effect. -/
theorem dynamicSet_effect {adapter : Adapter World} {runtime : Runtime World}
    (bound : Bound adapter runtime) {ref : StaticRef World} (resolved : Resolved adapter ref)
    (directions : ∀ spec ∈ adapter.ports, spec.driven = spec.writable) (narrow : ref.width ≤ 32)
    (writable : ref.writable = true) (allowed : runtime.requireWriteAllowed = .ok ()) (value : UInt32) :
    Except.ok runtime.effect = (ref.dynamicSet adapter runtime value).map Runtime.effect ↔
      AlreadySet runtime ref value := by
  cases resolved with
  | @onDemand spec port word member transport inside =>
    change spec.width ≤ 32 at narrow
    obtain ⟨valid, direction⟩ := bound.checked.words spec member word inside
    obtain ⟨get, set, base⟩ := bound.checked.onDemand spec member port transport word inside
    have driven : runtime.driven (spec.id + word) = true :=
      direction.trans ((directions spec member).trans writable)
    obtain ⟨assign, assigns⟩ := Option.isSome_iff_exists.mp
      ((spec.settable port transport).trans writable)
    have dynamic := set_onDemand valid driven (set.trans assigns) base (normalizeScalar spec.width value)
    simp only [StaticRef.dynamicSet, StaticRef.id, StaticRef.width, AlreadySet, dynamic, allowed,
      Nat.add_sub_cancel_left]
    cases found : port.getWords runtime.world word with
    | none =>
      have read : runtime.get adapter (spec.id + word) = .error .aborted := by
        simp only [Runtime.get, if_neg (Nat.not_le.mpr valid), get, base, Nat.add_sub_cancel_left, found]
      rw [read]
      refine iff_of_false (fun returns => ?_) fun same => ?_
      · cases returns
      · cases same
    | some previous =>
      have read : runtime.get adapter (spec.id + word) = .ok previous := by
        simp only [Runtime.get, if_neg (Nat.not_le.mpr valid), get, base, Nat.add_sub_cancel_left, found]
      rw [read]
      simp only [Except.bind, Option.some.injEq]
      by_cases same : previous = normalizeScalar spec.width value
      · rw [if_pos same]
        exact iff_of_true rfl same
      · rw [if_neg same]
        refine iff_of_false (fun equal => ?_) same
        cases assigned : assign runtime.world word (normalizeScalar spec.width value) with
        | none =>
          rw [assigned] at equal
          cases equal
        | some world =>
          rw [assigned] at equal
          have worlds : runtime.world = world :=
            (congrArg (·.2.2.2) (Except.ok.inj equal)).trans (effect_deliverLocalEdge ..).2
          have stored := port.stored assigns assigned (normalizeScalar_lt narrow value)
          rw [← worlds, found] at stored
          exact same (Option.some.inj stored)
  | @packed spec offset word member transport inside =>
    obtain ⟨valid, direction⟩ := bound.checked.words spec member word inside
    obtain ⟨-, set, -⟩ := bound.checked.packed spec member offset transport word inside
    have driven : runtime.driven (spec.id + word) = true :=
      direction.trans ((directions spec member).trans writable)
    have dynamic := set_packed valid driven set (normalizeScalar spec.width value)
    simp only [StaticRef.dynamicSet, StaticRef.id, StaticRef.width, AlreadySet, dynamic, allowed]
    by_cases same : runtime.outputs (spec.id + word) = normalizeScalar spec.width value
    · simp only [if_pos same]
      exact iff_of_true rfl same
    · simp only [if_neg same]
      refine iff_of_false (fun equal => ?_) same
      have outputs := (congrArg (·.1) (Except.ok.inj equal)).trans (effect_deliverLocalEdge ..).1
      have here := congrFun outputs (spec.id + word)
      simp only [Runtime.effect, Function.update_self] at here
      exact same here

/-- **The two writes of an element.** -/
theorem set_agree {adapter : Adapter World} {runtime : Runtime World} (bound : Bound adapter runtime)
    {ref : StaticRef World} (resolved : Resolved adapter ref)
    (directions : ∀ spec ∈ adapter.ports, spec.driven = spec.writable) (narrow : ref.width ≤ 32)
    (writable : ref.writable = true) (value : UInt32) :
    (ref.set adapter runtime value).map Runtime.effect =
      (ref.dynamicSet adapter runtime value).map Runtime.effect ↔
        SetsAlike adapter runtime ref value := by
  have now := setNow_eq bound resolved directions narrow writable value
  unfold StaticRef.set SetsAlike
  cases deferred : adapter.deferredWrites with
  | false =>
    rw [if_neg Bool.false_ne_true, now]
    exact iff_of_true rfl (.inl rfl)
  | true =>
    rw [if_pos rfl]
    by_cases readOnly : runtime.scopes = [] ∨ runtime.phase ≠ .readOnly
    · have allowed : runtime.requireWriteAllowed = .ok () := if_pos readOnly
      have notReadOnly : ¬(runtime.scopes ≠ [] ∧ runtime.phase = .readOnly) := by tauto
      rw [allowed]
      simp only [Bool.true_eq_false, notReadOnly, false_or]
      exact dynamicSet_effect bound resolved directions narrow writable allowed value
    · have refused : runtime.requireWriteAllowed = .error .aborted := if_neg readOnly
      refine iff_of_true ?_ (.inr (.inl (by tauto)))
      have refusedNow : ref.setNow runtime value = .error .aborted := by
        cases ref with
        | packed ref =>
          rw [StaticRef.setNow, StaticPackedRef.setNow, refused]
          rfl
        | onDemand ref =>
          rw [StaticRef.setNow, StaticOnDemandRef.setNow, refused]
          rfl
      rw [refused, ← now, refusedNow]
      rfl

end Writing

/-! ### Runs -/

section Runs

/-- A design with a clock and an output of eight bits. -/
def clockedDesign (deferredWrites : Bool) : Adapter Unit where
  signalCount := 2
  compactInputTransport := true
  drivenSignalSpans := [(0, 1)]
  observedSignalWordIds := [1]
  drivenSignalWordIds := [0]
  clockSignalIds := some []
  registeredClockConfigs := []
  edgeObserverSignalIds := []
  transportlessEdgeSignalIds := []
  ports := [
    { width := 1, writable := true, driven := true, id := 0, dimensions := []
      transport := .packed 0, positive := by decide, drivable := fun _ => rfl, settable := nofun },
    { width := 8, writable := false, driven := false, id := 1, dimensions := []
      transport := .packed 0, positive := by decide, drivable := nofun, settable := nofun }]
  deferredWrites

/-- The clock of the design. -/
def clockRef : StaticRef Unit := .packed ⟨1, true, true, 0, 0⟩

end Runs

end Cpptb.Dpi
