/-
Coroutines on a clock.

A system of tasks that share some state. A task is suspended at a frame that says what it waits for: an
edge of the clock, the end of a delay, or another task. Time stands still while a task can run, so that
all tasks an instant wakes see what the others leave, in any order; the inputs from outside change only
with time. A call may start at any moment.

* `Sampling`: delays begin at rising edges and are shorter than half a period.
* `Timely`, `timely_of_reach`: every task that an edge woke runs before time goes on, and every delay ends
  before the falling edge.
* `Timely.no_delay_at_edge`, `Timely.due_eq`, `Timely.at_sample`: what proofs about samplers use.
-/

import Cpptb.Lib.Runs

set_option linter.unusedSectionVars false

namespace Cpptb.Clocked

open Function (update)
open Runs

variable {I L S C E : Type} [DecidableEq I]

/-- What a suspended task waits for. -/
inductive Wait
  | rising
  | falling
  | delay (span : Nat)
  | wake
  deriving DecidableEq, Repr

/-- A task: its frame, the end of its delay, and whether it is about to run. -/
structure Task (L : Type) where
  frame : L
  due : Option Nat := none
  runnable : Bool := false

/-- The tasks of a system, by what a frame does. -/
structure Program (I L S C E : Type) where
  half : Nat
  wait : L → Wait
  /-- A frame runs up to its next suspension, and may wake other tasks. -/
  resume : I → Nat → L → S → L × S × List I
  /-- A call starts, if it can, and runs up to its first suspension. -/
  enter : I → C → L → S → Option (L × S)
  /-- What the outside does when time goes on. -/
  react : E → S → S

/-- A state, with the shared states at the rising edges so far, the last one first. -/
structure State (I L S : Type) where
  now : Nat := 0
  level : Bool := false
  edge : Nat
  tasks : I → Task L
  shared : S
  risings : List S := []

/-- What happens next. -/
inductive Action (I C E : Type)
  | advance (time : Nat) (inputs : E)
  | clock
  | timer (task : I)
  | run (task : I)
  | start (task : I) (call : C)

/-- No task is about to run. -/
def Settled (s : State I L S) : Prop :=
  ∀ i, (s.tasks i).runnable = false

namespace Program

variable (program : Program I L S C E)

/-- A task that has just been suspended at a frame. -/
def suspended (now : Nat) (frame : L) : Task L where
  frame := frame
  due := match program.wait frame with
    | .delay span => some (now + span)
    | _ => none

/-- Wake some tasks, as far as they wait for it. -/
def wakeAll (woken : List I) (tasks : I → Task L) : I → Task L := fun i =>
  if i ∈ woken ∧ program.wait (tasks i).frame = .wake then { tasks i with runnable := true } else tasks i

/-- The edge of a level. -/
def edgeOf (level : Bool) : Wait :=
  if level then .rising else .falling

/-- The tasks after an edge. -/
def atEdge (level : Bool) (tasks : I → Task L) : I → Task L := fun i =>
  if program.wait (tasks i).frame = edgeOf level then { tasks i with runnable := true } else tasks i

/-- One action. -/
def step (s : State I L S) : Action I C E → Option (State I L S)
  | .advance time inputs => some { s with now := time, shared := program.react inputs s.shared }
  | .clock =>
      some { s with
        level := !s.level
        edge := s.edge + program.half
        tasks := program.atEdge (!s.level) s.tasks
        risings := if s.level then s.risings else s.shared :: s.risings }
  | .timer i =>
      if (s.tasks i).due = some s.now then
        some { s with tasks := update s.tasks i { (s.tasks i) with due := none, runnable := true } }
      else none
  | .run i =>
      if (s.tasks i).runnable then
        let (frame, shared, woken) := program.resume i s.now (s.tasks i).frame s.shared
        some { s with
          tasks := program.wakeAll woken (update s.tasks i (program.suspended s.now frame))
          shared := shared }
      else none
  | .start i call =>
      (program.enter i call (s.tasks i).frame s.shared).map fun (frame, shared) =>
        { s with tasks := update s.tasks i (program.suspended s.now frame), shared := shared }

/-- When an action may happen: time goes on only when no task can run, and stops at every edge and at the
end of every delay. -/
def Allowed (s : State I L S) : Action I C E → Prop
  | .advance time _ =>
      Settled s ∧ s.now < time ∧ time ≤ s.edge ∧ ∀ i due, (s.tasks i).due = some due → time ≤ due
  | .clock => Settled s ∧ s.now = s.edge
  | .timer _ | .run _ | .start _ _ => True

instance [Fintype I] (s : State I L S) : Decidable (Settled s) :=
  inferInstanceAs (Decidable (∀ i, (s.tasks i).runnable = false))

instance [Fintype I] (s : State I L S) : (a : Action I C E) → Decidable (Allowed s a)
  | .advance time _ => inferInstanceAs (Decidable (Settled s ∧ s.now < time ∧ time ≤ s.edge ∧
      ∀ i, ∀ due ∈ (s.tasks i).due, time ≤ due))
  | .clock => inferInstanceAs (Decidable (Settled s ∧ s.now = s.edge))
  | .timer _ | .run _ | .start _ _ => inferInstanceAs (Decidable True)

/-- Delays begin at rising edges and are shorter than half a period. -/
structure Sampling : Prop where
  positive : 0 < program.half
  delays : ∀ i now frame shared span,
    program.wait (program.resume i now frame shared).1 = .delay span →
      program.wait frame = .rising ∧ span < program.half
  entries : ∀ i call frame shared next span, program.enter i call frame shared = some next →
    program.wait next.1 ≠ .delay span

variable {program}

@[simp] theorem suspended_frame (now : Nat) (frame : L) : (program.suspended now frame).frame = frame := rfl

@[simp] theorem suspended_runnable (now : Nat) (frame : L) :
    (program.suspended now frame).runnable = false := rfl

theorem suspended_due (now : Nat) (frame : L) {due : Nat} :
    (program.suspended now frame).due = some due ↔
      ∃ span, program.wait frame = .delay span ∧ due = now + span := by
  unfold suspended
  cases program.wait frame <;> simp [eq_comm]

@[simp] theorem wakeAll_frame (woken : List I) (tasks : I → Task L) (i : I) :
    (program.wakeAll woken tasks i).frame = (tasks i).frame := by
  unfold wakeAll
  split <;> rfl

@[simp] theorem wakeAll_due (woken : List I) (tasks : I → Task L) (i : I) :
    (program.wakeAll woken tasks i).due = (tasks i).due := by
  unfold wakeAll
  split <;> rfl

theorem wakeAll_runnable (woken : List I) (tasks : I → Task L) (i : I) :
    (program.wakeAll woken tasks i).runnable = true ↔
      (tasks i).runnable = true ∨ (i ∈ woken ∧ program.wait (tasks i).frame = .wake) := by
  unfold wakeAll
  split
  · rename_i woke
    simp [woke]
  · rename_i notWoken
    simp [notWoken]

@[simp] theorem wakeAll_nil (tasks : I → Task L) : program.wakeAll [] tasks = tasks := by
  funext i
  simp [wakeAll]

@[simp] theorem atEdge_frame (level : Bool) (tasks : I → Task L) (i : I) :
    (program.atEdge level tasks i).frame = (tasks i).frame := by
  unfold atEdge
  split <;> rfl

@[simp] theorem atEdge_due (level : Bool) (tasks : I → Task L) (i : I) :
    (program.atEdge level tasks i).due = (tasks i).due := by
  unfold atEdge
  split <;> rfl

theorem atEdge_runnable (level : Bool) (tasks : I → Task L) (i : I) :
    (program.atEdge level tasks i).runnable = true ↔
      (tasks i).runnable = true ∨ program.wait (tasks i).frame = edgeOf level := by
  unfold atEdge
  split
  · rename_i woke
    simp [woke]
  · rename_i notWoken
    simp [notWoken]

theorem step_timer {s t : State I L S} {i : I} (stepped : program.step s (.timer i) = some t) :
    (s.tasks i).due = some s.now ∧
      t = { s with tasks := update s.tasks i { (s.tasks i) with due := none, runnable := true } } := by
  simp only [step] at stepped
  split at stepped
  · rename_i ended
    exact ⟨ended, (Option.some.inj stepped).symm⟩
  · cases stepped

theorem step_run {s t : State I L S} {i : I} (stepped : program.step s (.run i) = some t) :
    (s.tasks i).runnable = true ∧
      t = { s with
        tasks := program.wakeAll (program.resume i s.now (s.tasks i).frame s.shared).2.2
          (update s.tasks i
            (program.suspended s.now (program.resume i s.now (s.tasks i).frame s.shared).1))
        shared := (program.resume i s.now (s.tasks i).frame s.shared).2.1 } := by
  simp only [step] at stepped
  split at stepped
  · rename_i runs
    exact ⟨runs, (Option.some.inj stepped).symm⟩
  · cases stepped

theorem step_start {s t : State I L S} {i : I} {call : C}
    (stepped : program.step s (.start i call) = some t) :
    ∃ next, program.enter i call (s.tasks i).frame s.shared = some next ∧
      t = { s with tasks := update s.tasks i (program.suspended s.now next.1), shared := next.2 } := by
  obtain ⟨next, entered, same⟩ := Option.map_eq_some_iff.mp stepped
  exact ⟨next, entered, same.symm⟩

end Program

/-! ### Time -/

/-- Where the tasks are within a period: `half` before the next edge is the last one. -/
structure Timely (program : Program I L S C E) (s : State I L S) : Prop where
  within : s.now ≤ s.edge
  edged : ∀ i, (s.tasks i).runnable = true → ∀ level, program.wait (s.tasks i).frame = Program.edgeOf level →
    s.level = level ∧ s.edge = s.now + program.half
  delayed : ∀ i span, program.wait (s.tasks i).frame = .delay span →
    s.level = true ∧ span < program.half ∧
      ((s.tasks i).due = none → (s.tasks i).runnable = true ∧ s.edge + span = s.now + program.half)
  due : ∀ i due, (s.tasks i).due = some due → s.now ≤ due ∧
    ∃ span, program.wait (s.tasks i).frame = .delay span ∧ s.edge + span = due + program.half
  ended : ∀ i, (s.tasks i).runnable = true → (s.tasks i).due = none

section

variable {program : Program I L S C E} {s t : State I L S}

/-- **At an edge no task is in a delay.** -/
theorem Timely.no_delay_at_edge (timely : Timely program s) (settled : Settled s) (here : s.now = s.edge)
    (i : I) (span : Nat) : program.wait (s.tasks i).frame ≠ .delay span := by
  intro delayed
  obtain ⟨-, short, ended⟩ := timely.delayed i span delayed
  cases atTime : (s.tasks i).due with
  | none =>
      have := (ended atTime).1
      rw [settled i] at this
      cases this
  | some due =>
      obtain ⟨later, span', same, ends⟩ := timely.due i due atTime
      rw [delayed] at same
      cases same
      omega

/-- **All delays of one length end at one moment.** -/
theorem Timely.due_eq (timely : Timely program s) {i : I} {span : Nat}
    (delayed : program.wait (s.tasks i).frame = .delay span) :
    (s.tasks i).due = none ∧ s.edge + span = s.now + program.half ∨
      ∃ due, (s.tasks i).due = some due ∧ s.edge + span = due + program.half := by
  cases atTime : (s.tasks i).due with
  | none => exact .inl ⟨rfl, ((timely.delayed i span delayed).2.2 atTime).2⟩
  | some due =>
      obtain ⟨-, span', same, ends⟩ := timely.due i due atTime
      rw [delayed] at same
      cases same
      exact .inr ⟨due, rfl, ends⟩

/-- **A task that samples `span` after a rising edge does so at one moment.** -/
theorem Timely.at_sample (timely : Timely program s) {i : I} {span : Nat}
    (runs : (s.tasks i).runnable = true)
    (here : program.wait (s.tasks i).frame = .delay span ∨
      program.wait (s.tasks i).frame = .rising ∧ span = 0) :
    s.edge + span = s.now + program.half := by
  rcases here with delayed | ⟨rising, rfl⟩
  · exact ((timely.delayed i span delayed).2.2 (timely.ended i runs)).2
  · exact (timely.edged i runs true rising).2

theorem edgeOf_ne_delay (level : Bool) (span : Nat) : Program.edgeOf level ≠ .delay span := by
  cases level <;> simp [Program.edgeOf]

/-- One task is suspended anew, and some that wait for it are woken. -/
theorem Timely.suspend (timely : Timely program s) {i : I} {frame : L} {shared : S} {woken : List I}
    (fresh : ∀ span, program.wait frame = .delay span →
      s.level = true ∧ span < program.half ∧ s.edge = s.now + program.half) :
    Timely program { s with
      tasks := program.wakeAll woken (update s.tasks i (program.suspended s.now frame))
      shared := shared } := by
  have frameOf : ∀ j, (update s.tasks i (program.suspended s.now frame) j).frame =
      if j = i then frame else (s.tasks j).frame := by
    intro j
    by_cases same : j = i
    · subst same
      simp
    · simp [same]
  refine ⟨timely.within, ?_, ?_, ?_, ?_⟩
  · intro j runs level waits
    rw [Program.wakeAll_frame] at waits
    rcases (Program.wakeAll_runnable _ _ _).mp runs with before | ⟨-, wake⟩
    · by_cases same : j = i
      · subst same
        simp at before
      · rw [Function.update_of_ne same] at before waits
        exact timely.edged j before level waits
    · rw [waits] at wake
      cases level <;> cases wake
  · intro j span delayed
    rw [Program.wakeAll_frame] at delayed
    rw [Program.wakeAll_due]
    by_cases same : j = i
    · subst same
      rw [Function.update_self, Program.suspended_frame] at delayed
      obtain ⟨high, short, -⟩ := fresh span delayed
      refine ⟨high, short, fun none => ?_⟩
      rw [Function.update_self] at none
      have some := (Program.suspended_due s.now frame).mpr ⟨span, delayed, rfl⟩
      rw [none] at some
      cases some
    · rw [Function.update_of_ne same] at delayed ⊢
      obtain ⟨high, short, ended⟩ := timely.delayed j span delayed
      refine ⟨high, short, fun none => ⟨?_, (ended none).2⟩⟩
      rw [Program.wakeAll_runnable, Function.update_of_ne same]
      exact .inl (ended none).1
  · intro j due atTime
    rw [Program.wakeAll_due] at atTime
    rw [Program.wakeAll_frame]
    by_cases same : j = i
    · subst same
      rw [Function.update_self] at atTime ⊢
      obtain ⟨span, delayed, rfl⟩ := (Program.suspended_due s.now frame).mp atTime
      obtain ⟨-, -, last⟩ := fresh span delayed
      refine ⟨Nat.le_add_right _ _, span, delayed, ?_⟩
      change s.edge + span = s.now + span + program.half
      omega
    · rw [Function.update_of_ne same] at atTime ⊢
      exact timely.due j due atTime
  · intro j runs
    rw [Program.wakeAll_due]
    rcases (Program.wakeAll_runnable _ _ _).mp runs with before | ⟨-, wake⟩
    · by_cases same : j = i
      · subst same
        simp at before
      · rw [Function.update_of_ne same] at before ⊢
        exact timely.ended j before
    · by_cases same : j = i
      · subst same
        rw [Function.update_self, Program.suspended_frame] at wake
        simp [Program.suspended, wake]
      · rw [Function.update_of_ne same] at wake ⊢
        cases atTime : (s.tasks j).due with
        | none => rfl
        | some due =>
            obtain ⟨-, span, delayed, -⟩ := timely.due j due atTime
            rw [wake] at delayed
            cases delayed

/-- **One action.** -/
theorem Timely.step (sampling : program.Sampling) (timely : Timely program s) {a : Action I C E}
    (allowed : Program.Allowed s a) (stepped : program.step s a = some t) : Timely program t := by
  cases a with
  | advance time inputs =>
      obtain ⟨settled, later, before, pending⟩ := allowed
      cases stepped
      refine ⟨before, fun i runs => ?_, fun i span delayed => ?_, fun i due atTime => ?_, timely.ended⟩
      · rw [settled i] at runs
        cases runs
      · obtain ⟨high, short, ended⟩ := timely.delayed i span delayed
        refine ⟨high, short, fun none => ?_⟩
        have := (ended none).1
        rw [settled i] at this
        cases this
      · exact ⟨pending i due atTime, (timely.due i due atTime).2⟩
  | clock =>
      obtain ⟨settled, here⟩ := allowed
      cases stepped
      have noDelay := timely.no_delay_at_edge settled here
      have within : s.now ≤ s.edge + program.half := by omega
      refine ⟨within, fun i runs level waits => ?_, fun i span delayed => ?_, fun i due atTime => ?_,
        fun i _ => ?_⟩
      · rw [Program.atEdge_frame] at waits
        rcases (Program.atEdge_runnable _ _ _).mp runs with before | woke
        · rw [settled i] at before
          cases before
        · rw [waits] at woke
          refine ⟨?_, by change s.edge + program.half = s.now + program.half; omega⟩
          cases level <;> cases high : s.level <;> simp [Program.edgeOf, high] at woke ⊢
      · rw [Program.atEdge_frame] at delayed
        exact absurd delayed (noDelay i span)
      · rw [Program.atEdge_due] at atTime
        obtain ⟨-, span, delayed, -⟩ := timely.due i due atTime
        exact absurd delayed (noDelay i span)
      · rw [Program.atEdge_due]
        cases atTime : (s.tasks i).due with
        | none => rfl
        | some due =>
            obtain ⟨-, span, delayed, -⟩ := timely.due i due atTime
            exact absurd delayed (noDelay i span)
  | timer i =>
      obtain ⟨ended, rfl⟩ := Program.step_timer stepped
      obtain ⟨-, span, delayed, ends⟩ := timely.due i s.now ended
      obtain ⟨high, short, -⟩ := timely.delayed i span delayed
      refine ⟨timely.within, fun j runs level waits => ?_, fun j span' delayed' => ?_,
        fun j due atTime => ?_, fun j runs => ?_⟩
      · by_cases same : j = i
        · subst same
          simp only [Function.update_self] at waits
          rw [delayed] at waits
          exact absurd waits.symm (edgeOf_ne_delay level span)
        · simp only [Function.update_of_ne same] at runs waits
          exact timely.edged j runs level waits
      · by_cases same : j = i
        · subst same
          simp only [Function.update_self] at delayed' ⊢
          rw [delayed] at delayed'
          cases delayed'
          exact ⟨high, short, fun _ => ⟨trivial, ends⟩⟩
        · simp only [Function.update_of_ne same] at delayed' ⊢
          exact timely.delayed j span' delayed'
      · by_cases same : j = i
        · subst same
          simp at atTime
        · simp only [Function.update_of_ne same] at atTime ⊢
          exact timely.due j due atTime
      · by_cases same : j = i
        · subst same
          simp
        · simp only [Function.update_of_ne same] at runs ⊢
          exact timely.ended j runs
  | run i =>
      obtain ⟨runs, rfl⟩ := Program.step_run stepped
      refine timely.suspend fun span delayed => ?_
      obtain ⟨rising, short⟩ := sampling.delays i s.now (s.tasks i).frame s.shared span delayed
      obtain ⟨high, last⟩ := timely.edged i runs true rising
      exact ⟨high, short, last⟩
  | start i call =>
      obtain ⟨next, entered, rfl⟩ := Program.step_start stepped
      have suspended := @Timely.suspend _ _ _ _ _ _ program s timely i next.1 next.2 []
        fun span delayed => absurd delayed (sampling.entries i call _ _ next span entered)
      rwa [Program.wakeAll_nil] at suspended

/-- **Every reachable state.** -/
theorem timely_of_reach (sampling : program.Sampling) {init : State I L S → Prop}
    (initially : ∀ s, init s → Timely program s)
    (reach : Reach program.step Program.Allowed init s) : Timely program s :=
  reach.invariant initially fun _ _ _ timely allowed stepped => timely.step sampling allowed stepped

end

end Cpptb.Clocked
