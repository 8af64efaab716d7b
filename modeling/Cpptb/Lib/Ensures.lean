/-
What a stateful computation that may throw ensures of what it returns.

`Ensures computation post` says that every value the computation returns, from any state, satisfies
`post`. It says nothing of a run that throws. The rules follow the computation: `pure`, `bind`, `throw`
and `ite`. `Raises computation allowed` says that every exception it throws is an allowed one, with the
same rules. `Yields computation state post` is the total form: from `state` the computation does return,
and `post` holds of the value and of the state it leaves. Its rules for loops are `forM_keeps`, for what
every iteration keeps, and `forM_reaches`, for what one iteration brings about and the others keep.
-/

import Mathlib

namespace Cpptb

variable {ρ ε α β : Type}

/-- Every value that the computation returns satisfies `post`. -/
def Ensures (computation : StateT ρ (Except ε) α) (post : α → Prop) : Prop :=
  ∀ state value state', computation.run state = .ok (value, state') → post value

namespace Ensures

variable {computation : StateT ρ (Except ε) α} {next : α → StateT ρ (Except ε) β}
  {post post' : α → Prop} {after : β → Prop}

theorem pure {value : α} (holds : post value) :
    Ensures (Pure.pure value : StateT ρ (Except ε) α) post := by
  intro state value' state' ran
  have same : (Except.ok (value, state) : Except ε (α × ρ)) = .ok (value', state') := ran
  simp only [Except.ok.injEq, Prod.mk.injEq] at same
  exact same.1 ▸ holds

theorem throw (error : ε) : Ensures (throw error : StateT ρ (Except ε) α) post := by
  intro state value state' ran
  exact absurd (show (Except.error error : Except ε (α × ρ)) = .ok (value, state') from ran) nofun

theorem bind (first : Ensures computation post) (second : ∀ value, post value → Ensures (next value) after) :
    Ensures (computation >>= next) after := by
  intro state value state' ran
  rw [StateT.run_bind] at ran
  cases begun : computation.run state with
  | error error =>
      rw [begun] at ran
      exact absurd (show (Except.error error : Except ε (β × ρ)) = .ok (value, state') from ran) nofun
  | ok result =>
      rw [begun] at ran
      exact second result.1 (first state result.1 result.2 begun) result.2 value state' ran

theorem weaken (ensured : Ensures computation post) (weaker : ∀ value, post value → post' value) :
    Ensures computation post' :=
  fun state value state' ran => weaker value (ensured state value state' ran)

/-- Nothing is asked of what the computation returns. -/
theorem trivial (computation : StateT ρ (Except ε) α) : Ensures computation fun _ => True :=
  fun _ _ _ _ => True.intro

/-- A computation that comes first, and whose value does not matter. -/
theorem bind_any (computation : StateT ρ (Except ε) α)
    (second : ∀ value, Ensures (next value) after) : Ensures (computation >>= next) after :=
  bind (trivial computation) fun value _ => second value

/-- What comes second may be replaced where it does the same on what the first part returns. -/
theorem bind_congr {next' : α → StateT ρ (Except ε) β} (ensured : Ensures computation post)
    (same : ∀ value, post value → next value = next' value) :
    computation >>= next = computation >>= next' := by
  funext state
  show (computation.run state >>= fun p => (next p.1).run p.2)
    = (computation.run state >>= fun p => (next' p.1).run p.2)
  cases begun : computation.run state with
  | error error => rfl
  | ok result =>
    show (next result.1).run result.2 = (next' result.1).run result.2
    rw [same result.1 (ensured state result.1 result.2 begun)]

theorem ite {condition : Prop} [Decidable condition] {other : StateT ρ (Except ε) α}
    (whenTrue : condition → Ensures computation post)
    (whenFalse : ¬ condition → Ensures other post) :
    Ensures (if condition then computation else other) post := by
  split
  · rename_i holds
    exact whenTrue holds
  · rename_i fails
    exact whenFalse fails

end Ensures

/-- Every exception that the computation throws is an allowed one. -/
def Raises (computation : StateT ρ (Except ε) α) (allowed : ε → Prop) : Prop :=
  ∀ state error, computation.run state = .error error → allowed error

namespace Raises

variable {computation : StateT ρ (Except ε) α} {next : α → StateT ρ (Except ε) β}
  {post : α → Prop} {allowed : ε → Prop}

theorem pure (value : α) : Raises (Pure.pure value : StateT ρ (Except ε) α) allowed := by
  intro state error ran
  exact absurd (show (Except.ok (value, state) : Except ε (α × ρ)) = .error error from ran) nofun

theorem throw {error : ε} (holds : allowed error) :
    Raises (throw error : StateT ρ (Except ε) α) allowed := by
  intro state error' ran
  have same : (Except.error error : Except ε (α × ρ)) = .error error' := ran
  exact Except.error.inj same ▸ holds

/-- The second part may rely on what the first ensures. -/
theorem bind (first : Raises computation allowed) (ensured : Ensures computation post)
    (second : ∀ value, post value → Raises (next value) allowed) :
    Raises (computation >>= next) allowed := by
  intro state error ran
  rw [StateT.run_bind] at ran
  cases begun : computation.run state with
  | error thrown =>
      rw [begun] at ran
      have same : (Except.error thrown : Except ε (β × ρ)) = .error error := ran
      exact Except.error.inj same ▸ first state thrown begun
  | ok result =>
      rw [begun] at ran
      exact second result.1 (ensured state result.1 result.2 begun) result.2 error ran

theorem bind_any (first : Raises computation allowed) (second : ∀ value, Raises (next value) allowed) :
    Raises (computation >>= next) allowed :=
  bind first (Ensures.trivial computation) fun value _ => second value

theorem ite {condition : Prop} [Decidable condition] {other : StateT ρ (Except ε) α}
    (whenTrue : condition → Raises computation allowed)
    (whenFalse : ¬ condition → Raises other allowed) :
    Raises (if condition then computation else other) allowed := by
  split
  · rename_i holds
    exact whenTrue holds
  · rename_i fails
    exact whenFalse fails

end Raises

/-- From `state` the computation returns, and `post` holds of what it returns and leaves. -/
def Yields (computation : StateT ρ (Except ε) α) (state : ρ) (post : α → ρ → Prop) : Prop :=
  ∃ value state', computation.run state = .ok (value, state') ∧ post value state'

namespace Yields

variable {computation : StateT ρ (Except ε) α} {next : α → StateT ρ (Except ε) β} {state : ρ}
  {post post' : α → ρ → Prop} {after : β → ρ → Prop}

theorem pure {value : α} (holds : post value state) :
    Yields (Pure.pure value : StateT ρ (Except ε) α) state post :=
  ⟨value, state, rfl, holds⟩

theorem bind (first : Yields computation state post)
    (second : ∀ value state', post value state' → Yields (next value) state' after) :
    Yields (computation >>= next) state after := by
  obtain ⟨value, state', ran, holds⟩ := first
  obtain ⟨value', state'', ran', holds'⟩ := second value state' holds
  refine ⟨value', state'', ?_, holds'⟩
  rw [StateT.run_bind, ran]
  exact ran'

theorem weaken (yielded : Yields computation state post)
    (weaker : ∀ value state', post value state' → post' value state') :
    Yields computation state post' := by
  obtain ⟨value, state', ran, holds⟩ := yielded
  exact ⟨value, state', ran, weaker value state' holds⟩

/-- A computation that reads the state first. -/
theorem get_bind {next : ρ → StateT ρ (Except ε) β} (rest : Yields (next state) state after) :
    Yields ((MonadState.get : StateT ρ (Except ε) ρ) >>= next) state after := rest

theorem modify {update : ρ → ρ} {post : PUnit → ρ → Prop} (holds : post ⟨⟩ (update state)) :
    Yields (modify update : StateT ρ (Except ε) PUnit) state post :=
  ⟨⟨⟩, update state, rfl, holds⟩

/-- A computation that changes the state first. -/
theorem modify_bind {update : ρ → ρ} {next : PUnit → StateT ρ (Except ε) β}
    (rest : Yields (next ⟨⟩) (update state) after) :
    Yields ((MonadState.modifyGet fun s => (⟨⟩, update s) : StateT ρ (Except ε) PUnit) >>= next) state
      after := rest

theorem ite {condition : Prop} [Decidable condition] {other : StateT ρ (Except ε) α}
    (whenTrue : condition → Yields computation state post)
    (whenFalse : ¬ condition → Yields other state post) :
    Yields (if condition then computation else other) state post := by
  split
  · rename_i holds
    exact whenTrue holds
  · rename_i fails
    exact whenFalse fails

section Loops

variable {ι : Type} {items : List ι} {body : ι → StateT ρ (Except ε) PUnit} {I P : ρ → Prop}

/-- What every iteration keeps. -/
theorem forM_keeps (kept : ∀ item ∈ items, ∀ s, I s → Yields (body item) s fun _ s' => I s') (holds : I state) :
    Yields (items.forM body) state fun _ s' => I s' := by
  induction items generalizing state with
  | nil => exact pure holds
  | cons item rest ih =>
    show Yields (body item >>= fun _ => rest.forM body) state _
    exact bind (kept item List.mem_cons_self state holds) fun _ _ holds' =>
      ih (fun other member => kept other (List.mem_cons_of_mem item member)) holds'

/-- What one iteration brings about and the others keep. -/
theorem forM_reaches {item : ι} (member : item ∈ items)
    (kept : ∀ other ∈ items, ∀ s, I s → Yields (body other) s fun _ s' => I s')
    (reached : ∀ s, I s → Yields (body item) s fun _ s' => I s' ∧ P s')
    (stays : ∀ other ∈ items, ∀ s, I s ∧ P s → Yields (body other) s fun _ s' => I s' ∧ P s')
    (holds : I state) : Yields (items.forM body) state fun _ s' => I s' ∧ P s' := by
  induction items generalizing state with
  | nil => exact absurd member List.not_mem_nil
  | cons first rest ih =>
    show Yields (body first >>= fun _ => rest.forM body) state _
    rcases List.mem_cons.mp member with rfl | later
    · exact bind (reached state holds) fun _ _ both =>
        forM_keeps (fun other inRest => stays other (List.mem_cons_of_mem item inRest)) both
    · exact bind (kept first List.mem_cons_self state holds) fun _ _ holds' =>
        ih later (fun other inRest => kept other (List.mem_cons_of_mem first inRest))
          (fun other inRest => stays other (List.mem_cons_of_mem first inRest)) holds'

end Loops

end Yields

end Cpptb
