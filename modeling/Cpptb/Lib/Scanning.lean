/-
Records in a stream, found by what they begin with.

A record is a pattern, a body and a terminator. `find` goes to the next occurrence of the pattern, and
`scan` hands the bodies of all records to a function, one after the other.

* `find_append`: what the pattern does not occur in is passed, before anything that no tail of the
  pattern begins.
* `Woven`: a stream with the bodies of its records.
* `scan_woven`: the scan of such a stream meets exactly its bodies, in order.
-/

import Mathlib

namespace Cpptb.Scanning

variable {α : Type}

section Apart

/-- No proper tail of the pattern begins the stream. -/
def Apart (pattern stream : List α) : Prop :=
  ∀ k, 0 < k → k < pattern.length → ¬pattern.drop k <+: stream

theorem apart_nil (pattern : List α) : Apart pattern [] := by
  intro k _ small tail
  have := tail.length_le
  rw [List.length_drop, List.length_nil] at this
  omega

/-- A stream may begin with what is not in the pattern. -/
theorem apart_cons {pattern : List α} {head : α} (absent : head ∉ pattern) (rest : List α) :
    Apart pattern (head :: rest) := by
  intro k _ small tail
  cases same : pattern.drop k with
  | nil => exact absurd (List.drop_eq_nil_iff.mp same) (Nat.not_le.mpr small)
  | cons first others =>
    rw [same] at tail
    obtain ⟨rfl, -⟩ := List.cons_prefix_cons.mp tail
    exact absent ((List.drop_suffix k pattern).subset (same ▸ List.mem_cons_self))

/-- A stream may begin with what agrees with no proper tail of the pattern. -/
theorem apart_append {pattern lead : List α}
    (differ : ∀ k < pattern.length, 0 < k → ¬pattern.drop k <+: lead ∧ ¬lead <+: pattern.drop k)
    (rest : List α) : Apart pattern (lead ++ rest) := by
  intro k big small tail
  rcases List.prefix_or_prefix_of_prefix tail (List.prefix_append lead rest) with inside | beyond
  · exact (differ k small big).1 inside
  · exact (differ k small big).2 beyond

end Apart

section Finding

variable [DecidableEq α]

/-- The stream from the first occurrence of a pattern on. -/
def find (pattern : List α) : List α → Option (List α)
  | [] => if pattern = [] then some [] else none
  | head :: rest => if pattern <+: head :: rest then some (head :: rest) else find pattern rest

theorem find_here {pattern stream : List α} (here : pattern <+: stream) : find pattern stream = some stream := by
  cases stream with
  | nil => rw [find, if_pos (List.prefix_nil.mp here)]
  | cons head rest => rw [find, if_pos here]

theorem find_suffix {pattern stream found : List α} (ok : find pattern stream = some found) :
    found <:+ stream := by
  induction stream with
  | nil =>
    rw [find, Option.ite_none_right_eq_some] at ok
    exact Option.some.inj ok.2 ▸ List.suffix_refl _
  | cons head rest ih =>
    rw [find] at ok
    split_ifs at ok
    · exact Option.some.inj ok ▸ List.suffix_refl _
    · exact (ih ok).trans (List.suffix_cons _ _)

/-- **A stretch without the pattern is passed.** -/
theorem find_append {pattern stretch rest : List α} (clear : ¬pattern <:+: stretch)
    (apart : Apart pattern rest) : find pattern (stretch ++ rest) = find pattern rest := by
  induction stretch with
  | nil => rfl
  | cons head others ih =>
    have other : ¬pattern <+: head :: (others ++ rest) := by
      intro here
      rcases List.prefix_or_prefix_of_prefix here (List.prefix_append (head :: others) rest) with inside | beyond
      · exact clear inside.isInfix
      · obtain ⟨tail, rfl⟩ := beyond
        refine apart (head :: others).length (by simp) ?_ ?_
        · rcases tail with _ | ⟨first, tail⟩
          · exact absurd (by rw [List.append_nil]) clear
          · simp
        · rw [List.drop_left]
          exact (List.prefix_append_right_inj (head :: others)).mp here
    rw [List.cons_append, find, if_neg other]
    exact ih fun inside => clear (inside.trans (List.suffix_cons _ _).isInfix)

theorem find_none {pattern stream : List α} (clear : ¬pattern <:+: stream) : find pattern stream = none := by
  have nonempty : pattern ≠ [] := fun same => clear (same ▸ List.nil_infix)
  have passed := find_append clear (apart_nil pattern)
  rwa [List.append_nil, find, if_neg nonempty] at passed

end Finding

/-! ### Scanning -/

section Scan

variable [DecidableEq α] {ε σ : Type} {pattern : List α} {terminator : α} {unterminated : ε}
  {note : σ → List α → Except ε σ}

/-- Every record of a stream, in order. No stream has more records than items. -/
def scan (pattern : List α) (terminator : α) (unterminated : ε) (note : σ → List α → Except ε σ) :
    ℕ → σ → List α → Except ε σ
  | 0, state, _ => .ok state
  | fuel + 1, state, stream =>
    match find pattern stream with
    | none => .ok state
    | some found =>
      if terminator ∈ found then do
        let state ← note state ((found.takeWhile (· ≠ terminator)).drop pattern.length)
        scan pattern terminator unterminated note fuel state (found.dropWhile (· ≠ terminator))
      else .error unterminated

/-- A stream whose records have these bodies. -/
inductive Woven (pattern : List α) (terminator : α) : List (List α) → List α → Prop
  | done {stream : List α} (clear : find pattern stream = none) : Woven pattern terminator [] stream
  | record {body rest stream : List α} {bodies : List (List α)}
      (found : find pattern stream = some (pattern ++ body ++ terminator :: rest))
      (ends : terminator ∉ body) (later : Woven pattern terminator bodies (terminator :: rest)) :
      Woven pattern terminator (body :: bodies) stream

/-- What is passed makes no difference. -/
theorem Woven.of_find {bodies : List (List α)} {stream passed : List α}
    (woven : Woven pattern terminator bodies stream) (same : find pattern passed = find pattern stream) :
    Woven pattern terminator bodies passed := by
  cases woven with
  | done clear => exact .done (same.trans clear)
  | record found ends later => exact .record (same.trans found) ends later

theorem Woven.length_le (nonempty : pattern ≠ []) {bodies : List (List α)} {stream : List α}
    (woven : Woven pattern terminator bodies stream) : bodies.length ≤ stream.length := by
  induction woven with
  | done => exact Nat.zero_le _
  | record found _ _ ih =>
    have shorter := (find_suffix found).length_le
    have positive := List.length_pos_iff.mpr nonempty
    simp only [List.length_append, List.length_cons] at shorter ih ⊢
    omega

/-- **The scan meets the bodies, in order.** -/
theorem scan_woven (absent : terminator ∉ pattern) {bodies : List (List α)} {stream : List α}
    (woven : Woven pattern terminator bodies stream) {fuel : ℕ} (enough : bodies.length ≤ fuel) (state : σ) :
    scan pattern terminator unterminated note fuel state stream = bodies.foldlM note state := by
  induction woven generalizing fuel state with
  | done clear =>
    cases fuel with
    | zero => rfl
    | succ fuel => rw [scan, clear]; rfl
  | @record body rest stream bodies found ends later ih =>
    obtain ⟨fuel, rfl⟩ : ∃ less, fuel = less + 1 := ⟨fuel - 1, by rw [List.length_cons] at enough; omega⟩
    have before : ∀ item ∈ pattern ++ body, (item ≠ terminator : Bool) = true := by
      intro item mem
      refine decide_eq_true fun same => ?_
      rcases List.mem_append.mp mem with mem | mem
      · exact absent (same ▸ mem)
      · exact ends (same ▸ mem)
    have here : (terminator ≠ terminator : Bool) = false := decide_eq_false fun differ => differ rfl
    have inside : terminator ∈ pattern ++ body ++ terminator :: rest :=
      List.mem_append_right _ List.mem_cons_self
    have taken : (pattern ++ body ++ terminator :: rest).takeWhile (· ≠ terminator) = pattern ++ body := by
      rw [List.takeWhile_append_of_pos before, List.takeWhile_cons_of_neg (by rw [here]; decide), List.append_nil]
    have dropped : (pattern ++ body ++ terminator :: rest).dropWhile (· ≠ terminator) = terminator :: rest := by
      rw [List.dropWhile_append_of_pos before, List.dropWhile_cons_of_neg (by rw [here]; decide)]
    rw [scan, found]
    dsimp only
    rw [if_pos inside, taken, dropped, List.drop_left, List.foldlM_cons]
    refine congrArg (note state body >>= ·) (funext fun state => ?_)
    exact ih (Nat.le_of_succ_le_succ enough) state

end Scan

end Cpptb.Scanning
