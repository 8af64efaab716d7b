/-
The cycles of an APB bus.

What a bus shows at a rising edge is idle, the setup phase of a request, or its access phase; a monitor and a
checker that have sampled all earlier cycles are in a state that depends on that phase only.

* `ApbPhase`, `Shows`: what the signals of the master say.
* `ApbSeen`, `ApbPhase.before`, `ApbPhase.after`: what an observer knows before and behind the sample.
* `observe_spec`, `sample_spec`, `sampleReady_spec`: monitor, checker and master take the same step.
-/

import Cpptb.Vc.Apb

set_option linter.unusedSectionVars false

namespace Cpptb.Vc

variable {A D B : Type}

namespace ApbRequest

/-- Whether a request writes. -/
def isWrite : ApbRequest A D B → Bool
  | .write _ _ _ => true
  | .read _ => false

def address : ApbRequest A D B → A
  | .write address _ _ => address
  | .read address => address

/-- The data of a write. -/
def data? : ApbRequest A D B → Option D
  | .write _ data _ => some data
  | .read _ => none

end ApbRequest

/-- What the bus shows in a cycle: nothing, or the setup or access phase of a request. An access phase comes
with the wait cycles before it; `waited` says whether there were any. -/
inductive ApbPhase (A D B : Type)
  | idle
  | setup (request : ApbRequest A D B)
  | access (request : ApbRequest A D B) (waitCycles : UInt32) (waited : Bool)

/-- What an observer has seen of the present transfer. -/
inductive ApbSeen (A D B : Type)
  | nothing
  | transfer (request : ApbRequest A D B) (waitCycles : UInt32) (waited : Bool)

namespace ApbPhase

/-- Before the sample. -/
def before : ApbPhase A D B → ApbSeen A D B
  | .idle | .setup _ => .nothing
  | .access request waitCycles waited => .transfer request waitCycles waited

/-- Behind the sample. -/
def after (phase : ApbPhase A D B) (inputs : ApbInputs D) : ApbSeen A D B :=
  match phase with
  | .idle => .nothing
  | .setup request => .transfer request 0 false
  | .access request waitCycles _ =>
      if inputs.ready then .nothing else .transfer request (waitCycles + 1) true

end ApbPhase

/-- The signals of the slave. -/
def ApbSignals.inputs (signals : ApbSignals A D B) : ApbInputs D where
  ready := signals.ready
  error := signals.error
  readData := signals.readData

namespace ApbConfig

variable (config : ApbConfig B)

/-- A request that `write` or `read` accepts. -/
def Fits (request : ApbRequest A D B) : Prop :=
  ∀ address data byteEnable, request = .write address data byteEnable → config.hasStrobe = false →
    byteEnable = config.allBytes

/-- The strobe of a request, as the components read it. -/
def strobeOf [Inhabited B] (request : ApbRequest A D B) : B :=
  if config.hasStrobe then
    match request with
    | .write _ _ byteEnable => byteEnable
    | .read _ => default
  else config.allBytes

/-- The signals carry a request. -/
structure Carries [Inhabited B] (request : ApbRequest A D B) (signals : ApbSignals A D B) : Prop where
  address : signals.address = request.address
  write : signals.write = request.isWrite
  data : ∀ data, request.data? = some data → signals.writeData = data
  strobe : config.strobe signals = config.strobeOf request
  fits : config.Fits request

/-- The signals show a phase. -/
def Shows [Inhabited B] (signals : ApbSignals A D B) : ApbPhase A D B → Prop
  | .idle => signals.select = false ∧ signals.enable = false
  | .setup request => signals.select = true ∧ signals.enable = false ∧ config.Carries request signals
  | .access request _ _ => signals.select = true ∧ signals.enable = true ∧ config.Carries request signals

/-- The transaction of a request and its response. -/
def transactionOf [Inhabited D] (request : ApbRequest A D B) (response : ApbResponse D) :
    ApbTransaction A D B :=
  match request with
  | .write address data byteEnable =>
      { operation := .write, address := address, data := data, byteEnable := byteEnable
        status := response.status, waitCycles := response.waitCycles }
  | .read address =>
      { operation := .read, address := address, data := response.data.getD default
        byteEnable := config.allBytes, status := response.status, waitCycles := response.waitCycles }

/-- The status of a completion. -/
def statusOf (inputs : ApbInputs D) : MemoryStatus :=
  if inputs.error then .slaveError else .okay

/-- The response that a cycle completes. -/
def completes [Inhabited D] (inputs : ApbInputs D) : ApbPhase A D B → Option (ApbRequest A D B × ApbResponse D)
  | .access request waitCycles _ =>
      if inputs.ready then some (request, respond request (statusOf inputs) waitCycles inputs.readData)
      else none
  | _ => none

/-! ### The monitor -/

section

variable {config} [Inhabited B] [Inhabited D] {signals : ApbSignals A D B} {request : ApbRequest A D B}

/-- The monitor behind a setup phase and some wait cycles. -/
def Follows (config : ApbConfig B) (request : ApbRequest A D B) (waitCycles : UInt32)
    (capture : ApbCapture A D B) : Prop :=
  capture.write = request.isWrite ∧
    capture.transaction = config.transactionOf request ⟨none, .okay, waitCycles⟩

/-- What the monitor knows. -/
def MonitorAt (config : ApbConfig B) : ApbSeen A D B → ApbFrame A D B → Prop
  | .nothing, .seek | .nothing, .inspect => True
  | .transfer request waitCycles _, .track capture | .transfer request waitCycles _, .settle capture =>
      config.Follows request waitCycles capture
  | _, _ => False

/-- What a request without a strobe signal, or with one, shows as its byte enables. -/
theorem byteEnable_of_fits {address : A} {data : D} {byteEnable : B}
    (fits : config.Fits (.write address data byteEnable)) :
    config.strobeOf (.write address data byteEnable) = byteEnable := by
  unfold strobeOf
  cases strobe : config.hasStrobe with
  | true => rfl
  | false => exact (fits address data byteEnable rfl strobe).symm

/-- A setup phase is captured. -/
theorem follows_captureSetup (carries : config.Carries request signals) (now : Nat) :
    config.Follows request 0 (config.captureSetup now signals) := by
  refine ⟨carries.write, ?_⟩
  unfold captureSetup transactionOf
  rw [carries.write, carries.address, carries.strobe]
  cases request with
  | write address data byteEnable =>
      rw [byteEnable_of_fits carries.fits]
      simp [ApbRequest.isWrite, ApbRequest.address, carries.data data rfl]
  | read address => rfl

/-- The monitor behind its sample. -/
def sampled (config : ApbConfig B) (now : Nat) (frame : ApbFrame A D B) (signals : ApbSignals A D B) :
    ApbFrame A D B × List (ApbObservation A D B) :=
  match frame with
  | .track capture | .settle capture => config.sampleAccess now capture signals
  | _ => (config.sampleSetup now signals, [])

/-- **The monitor samples a cycle.** -/
theorem observe_spec {phase : ApbPhase A D B} {frame : ApbFrame A D B} (now : Nat)
    (shows' : config.Shows signals phase) (here : config.MonitorAt phase.before frame) :
    config.MonitorAt (phase.after signals.inputs) (config.sampled now frame signals).1 ∧
      (config.sampled now frame signals).2.map ApbObservation.value =
        ((completes signals.inputs phase).map fun done => config.transactionOf done.1 done.2).toList := by
  cases phase with
  | idle =>
      obtain ⟨select, enable⟩ := shows'
      cases frame with
      | seek | inspect => simp [sampled, sampleSetup, select, ApbPhase.after, MonitorAt, completes]
      | _ => exact here.elim
  | setup request =>
      obtain ⟨select, enable, carries⟩ := shows'
      cases frame with
      | seek | inspect =>
          simp only [sampled, sampleSetup, select, enable, Bool.not_false, Bool.and_self, if_true]
          exact ⟨follows_captureSetup carries now, rfl⟩
      | _ => exact here.elim
  | access request waitCycles waited =>
      obtain ⟨select, enable, carries⟩ := shows'
      cases frame with
      | track capture | settle capture =>
          obtain ⟨writes, opened⟩ := here
          simp only [sampled, sampleAccess, select, enable, Bool.not_true, Bool.false_eq_true, if_false]
          cases ready : signals.ready with
          | false =>
              simp only [ApbPhase.after, completes, ApbSignals.inputs, ready, Bool.not_false, if_true,
                Bool.false_eq_true, if_false, Option.map_none, Option.toList_none, List.map_nil, and_true]
              exact ⟨writes, by rw [opened]; cases request <;> rfl⟩
          | true =>
              simp only [ApbPhase.after, completes, ApbSignals.inputs, ready, Bool.not_true, if_true,
                Bool.false_eq_true, if_false, Option.map_some, Option.toList_some, List.map_cons, List.map_nil]
              refine ⟨trivial, ?_⟩
              rw [opened, writes]
              cases request with
              | write address data byteEnable => rfl
              | read address =>
                  cases signals.error <;> simp [transactionOf, respond, statusOf, ApbRequest.isWrite]
      | _ => exact here.elim

/-! ### The checker -/

/-- What the checker knows. -/
def CheckerAt (config : ApbConfig B) : ApbSeen A D B → ApbChecker A D B → Prop
  | .nothing, checker => checker.setupSeen = false ∧ checker.waiting = false
  | .transfer request _ waited, checker => checker.setupSeen = (!waited) ∧ checker.waiting = waited ∧
      checker.address = request.address ∧ checker.write = request.isWrite ∧
      (∀ data, request.data? = some data → checker.writeData = data) ∧
      checker.strobe = config.strobeOf request

/-- **The checker samples a cycle**, and reports nothing. -/
theorem sample_spec [DecidableEq A] [DecidableEq D] [DecidableEq B] {phase : ApbPhase A D B}
    {checker : ApbChecker A D B} (shows' : config.Shows signals phase)
    (here : config.CheckerAt phase.before checker) :
    config.CheckerAt (phase.after signals.inputs) (config.sample checker signals).1 ∧
      (config.sample checker signals).2 = [] := by
  cases phase with
  | idle =>
      obtain ⟨select, enable⟩ := shows'
      obtain ⟨setup, waiting⟩ := here
      simp [sample, report, select, enable, setup, waiting, ApbPhase.after, CheckerAt]
  | setup request =>
      obtain ⟨select, enable, carries⟩ := shows'
      obtain ⟨setup, waiting⟩ := here
      have silent : config.hasStrobe = true → signals.write = false → config.strobe signals = default := by
        rw [carries.write, carries.strobe]
        intro present reads
        cases request with
        | write address data byteEnable => cases reads
        | read address => exact if_pos present
      simp only [sample, report, select, enable, setup, waiting]
      refine ⟨⟨rfl, rfl, carries.address, carries.write, carries.data, carries.strobe⟩, ?_⟩
      cases present : config.hasStrobe with
      | false => simp
      | true => simpa using silent present
  | access request waitCycles waited =>
      obtain ⟨select, enable, carries⟩ := shows'
      obtain ⟨setup, waiting, address, write, data, strobe⟩ := here
      -- the signals are those of the setup phase
      have same : signals.address = checker.address ∧ signals.write = checker.write ∧
          (checker.write = true → signals.writeData = checker.writeData) ∧
            config.strobe signals = checker.strobe := by
        refine ⟨carries.address.trans address.symm, carries.write.trans write.symm, ?_,
          carries.strobe.trans strobe.symm⟩
        rw [write]
        cases request with
        | write address' data' byteEnable => exact fun _ => (carries.data _ rfl).trans (data _ rfl).symm
        | read address' => exact fun none => absurd none Bool.false_ne_true
      obtain ⟨sameAddress, sameWrite, sameData, sameStrobe⟩ := same
      simp only [sample, report, select, enable, setup, waiting, sameAddress, sameWrite, sameStrobe]
      constructor
      · cases ready : signals.ready with
        | true => simp [ApbPhase.after, ApbSignals.inputs, ready, CheckerAt]
        | false =>
            simp only [ApbPhase.after, ApbSignals.inputs, ready]
            exact ⟨rfl, rfl, address, write, data, strobe⟩
      · cases waited <;> simpa using sameData

/-! ### The master -/

/-- **The master samples an access phase.** -/
theorem sampleReady_spec (unlimited : config.maxWaitCycles = 0) (waitCycles : UInt32) :
    config.sampleReady request waitCycles signals =
      if signals.inputs.ready then
        .finish request (respond request (statusOf signals.inputs) waitCycles signals.inputs.readData)
      else .complete request (waitCycles + 1) := by
  have never : ¬(config.maxWaitCycles ≠ 0 ∧ config.maxWaitCycles ≤ waitCycles + 1) := fun limit =>
    limit.1 unlimited
  rw [sampleReady, if_neg never]
  rfl

/-- The signals of a setup phase. -/
theorem shows_drive (fits : config.Fits request) :
    config.Shows (config.drive request signals) (.setup request) := by
  cases request with
  | write address data byteEnable =>
      refine ⟨rfl, rfl, rfl, rfl, fun _ same => Option.some.inj same, ?_, fits⟩
      unfold strobe strobeOf drive
      cases config.hasStrobe <;> rfl
  | read address =>
      refine ⟨rfl, rfl, rfl, rfl, (fun _ none => nomatch none), ?_, fits⟩
      unfold strobe strobeOf drive
      cases config.hasStrobe <;> rfl

/-- The signals of the access phase behind it. -/
theorem shows_enable (shows' : config.Shows signals (.setup request)) (waitCycles : UInt32) (waited : Bool) :
    config.Shows { signals with enable := true } (.access request waitCycles waited) := by
  obtain ⟨select, -, carries⟩ := shows'
  exact ⟨select, rfl, carries.address, carries.write, carries.data, carries.strobe, carries.fits⟩

/-- What the slave drives does not matter. -/
theorem shows_inputs {phase : ApbPhase A D B} (shows' : config.Shows signals phase) (ready error : Bool)
    (readData : D) :
    config.Shows { signals with ready := ready, error := error, readData := readData } phase := by
  cases phase with
  | idle => exact shows'
  | setup request =>
      obtain ⟨select, enable, carries⟩ := shows'
      exact ⟨select, enable, carries.address, carries.write, carries.data, carries.strobe, carries.fits⟩
  | access request waitCycles waited =>
      obtain ⟨select, enable, carries⟩ := shows'
      exact ⟨select, enable, carries.address, carries.write, carries.data, carries.strobe, carries.fits⟩

end

end ApbConfig

end Cpptb.Vc
