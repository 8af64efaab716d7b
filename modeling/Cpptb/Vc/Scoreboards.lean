/-
Scoreboards.

`InOrderScoreboard` compares the expected and the actual transactions in the order of arrival on each
side, `KeyedScoreboard` those of equal keys. A write returns the comparisons it makes, each a call of
`expect_eq` (`recordComparison`).

* `InOrderMatched`, `KeyedMatched`: the state of a scoreboard and all its comparisons are functions of
  the two sequences alone. The n-th comparison (of a key) is of the n-th transactions (of the key), what
  is pending is what has no partner, and only queues that hold something are kept.
* `scoreboards_matched`: they hold after every sequence of writes, so that two interleavings of the
  same transactions make the same comparisons.
* `failures_recordComparisons`: a running test records one failure for each mismatch.
-/

import Cpptb.Testing.RunState
import Cpptb.Testing.Verdict

namespace Cpptb.Vc

open Testing (TestRunState Moment)
open Coro (SourceLocation)
open Function (update)

variable {T Key : Type}

/-! ### The scoreboards -/

/-- `Side`. -/
inductive Side
  | expected
  | actual
  deriving DecidableEq, Repr

/-- One call of `write_expected` or `write_actual`. -/
structure Write (T : Type) where
  side : Side
  value : T
  deriving DecidableEq, Repr

/-- One call of `expect_eq`. -/
structure Comparison (T : Type) where
  actual : T
  expected : T
  deriving DecidableEq, Repr

/-- The outcome of a comparison. -/
def Comparison.matches [BEq T] (comparison : Comparison T) : Bool :=
  comparison.actual == comparison.expected

/-- `InOrderScoreboard`. -/
structure InOrderScoreboard (T : Type) where
  expected : List T := []
  actual : List T := []
  compared : Nat := 0
  deriving DecidableEq, Repr

namespace InOrderScoreboard

/-- `compare_available`, on the two queues and the counter. -/
def compareAvailable : List T → List T → Nat → InOrderScoreboard T × List (Comparison T)
  | expected :: restExpected, actual :: restActual, compared =>
      let (board, comparisons) := compareAvailable restExpected restActual (compared + 1)
      (board, ⟨actual, expected⟩ :: comparisons)
  | expected, actual, compared => (⟨expected, actual, compared⟩, [])

/-- `write_expected` and `write_actual`. -/
def write (board : InOrderScoreboard T) (write : Write T) :
    InOrderScoreboard T × List (Comparison T) :=
  match write.side with
  | .expected => compareAvailable (board.expected ++ [write.value]) board.actual board.compared
  | .actual => compareAvailable board.expected (board.actual ++ [write.value]) board.compared

/-- `expected_pending`. -/
def expectedPending (board : InOrderScoreboard T) : Nat := board.expected.length

/-- `actual_pending`. -/
def actualPending (board : InOrderScoreboard T) : Nat := board.actual.length

/-- A new scoreboard after a sequence of writes, and the comparisons made. -/
def after (writes : List (Write T)) : InOrderScoreboard T × List (Comparison T) :=
  writes.foldl (fun (board, comparisons) w =>
    ((board.write w).1, comparisons ++ (board.write w).2)) ({}, [])

end InOrderScoreboard

/-- The other side. -/
def Side.peer : Side → Side
  | .expected => .actual
  | .actual => .expected

/-- `KeyedScoreboard`: `pending` is `expected_` and `actual_`, with `none` for the keys a map does not
hold, and `pendingCount` is `expected_pending_` and `actual_pending_`. -/
structure KeyedScoreboard (T Key : Type) where
  pending : Side → Key → Option (List T) := fun _ _ => none
  pendingCount : Side → Nat := fun _ => 0
  compared : Nat := 0

namespace KeyedScoreboard

variable [DecidableEq Key] (keyOf : T → Key)

/-- `write`. -/
def write (board : KeyedScoreboard T Key) (write : Write T) :
    KeyedScoreboard T Key × List (Comparison T) :=
  let key := keyOf write.value
  let own := write.side
  let peer := write.side.peer
  match board.pending peer key with
  | none | some [] =>
      ({ board with
        pending := update board.pending own (update (board.pending own) key
          (some ((board.pending own key).getD [] ++ [write.value])))
        pendingCount := update board.pendingCount own (board.pendingCount own + 1) }, [])
  | some (peerValue :: rest) =>
      ({ board with
        pending := update board.pending peer (update (board.pending peer) key
          (if rest = [] then none else some rest))
        pendingCount := update board.pendingCount peer (board.pendingCount peer - 1)
        compared := board.compared + 1 },
        [match own with
          | .expected => ⟨peerValue, write.value⟩
          | .actual => ⟨write.value, peerValue⟩])

/-- A new scoreboard after a sequence of writes, and the comparisons made. -/
def after (writes : List (Write T)) : KeyedScoreboard T Key × List (Comparison T) :=
  writes.foldl (fun (board, comparisons) w =>
    ((board.write keyOf w).1, comparisons ++ (board.write keyOf w).2)) ({}, [])

end KeyedScoreboard

/-! ### The sequences that are matched -/

/-- The transactions written to one side. -/
def valuesOf (side : Side) (writes : List (Write T)) : List T :=
  (writes.filter (·.side = side)).map (·.value)

/-- The transactions of a key written to one side. -/
def keyedOf [DecidableEq Key] (keyOf : T → Key) (side : Side) (key : Key) (writes : List (Write T)) :
    List T :=
  (valuesOf side writes).filter (keyOf · = key)

/-- The transactions of a key on a side that have no partner on the other side. -/
def unmatched [DecidableEq Key] (keyOf : T → Key) (side : Side) (key : Key)
    (writes : List (Write T)) : List T :=
  (keyedOf keyOf side key writes).drop (keyedOf keyOf side.peer key writes).length

/-- The keys of the transactions written. -/
def keysOf [DecidableEq Key] (keyOf : T → Key) (writes : List (Write T)) : Finset Key :=
  (writes.map (keyOf ·.value)).toFinset

/-- What an in-order scoreboard holds and has compared, as a function of the two sequences. -/
structure InOrderMatched (writes : List (Write T)) (board : InOrderScoreboard T)
    (comparisons : List (Comparison T)) : Prop where
  made : comparisons =
    List.zipWith Comparison.mk (valuesOf .actual writes) (valuesOf .expected writes)
  compared : board.compared = comparisons.length
  expected : board.expected = (valuesOf .expected writes).drop (valuesOf .actual writes).length
  actual : board.actual = (valuesOf .actual writes).drop (valuesOf .expected writes).length

/-- What a keyed scoreboard holds and has compared, key by key. -/
structure KeyedMatched [DecidableEq Key] (keyOf : T → Key) (writes : List (Write T))
    (board : KeyedScoreboard T Key) (comparisons : List (Comparison T)) : Prop where
  made : ∀ key, comparisons.filter (keyOf ·.expected = key) =
    List.zipWith Comparison.mk (keyedOf keyOf .actual key writes) (keyedOf keyOf .expected key writes)
  sameKey : ∀ comparison ∈ comparisons, keyOf comparison.actual = keyOf comparison.expected
  compared : board.compared = comparisons.length
  pending : ∀ side key, (board.pending side key).getD [] = unmatched keyOf side key writes
  held : ∀ side key, board.pending side key ≠ some []
  pendingCount : ∀ side, board.pendingCount side =
    ∑ key ∈ keysOf keyOf writes, (unmatched keyOf side key writes).length

/-! ### In order -/

section

variable (f : T → T → Comparison T)

/-- Pairs of two lists, one of them grown. -/
theorem zipWith_append_right (left right more : List T) :
    List.zipWith f left (right ++ more) = List.zipWith f left right ++
      List.zipWith f (left.drop right.length) (right.drop left.length ++ more) := by
  induction left generalizing right with
  | nil => simp
  | cons a left ih =>
      cases right with
      | nil => simp
      | cons b right => simp [ih]

theorem zipWith_append_left (left right more : List T) :
    List.zipWith f (left ++ more) right = List.zipWith f left right ++
      List.zipWith f (left.drop right.length ++ more) (right.drop left.length) := by
  induction left generalizing right with
  | nil => simp
  | cons a left ih =>
      cases right with
      | nil => simp
      | cons b right => simp [ih]

/-- What is left of a list when it grows. -/
theorem drop_append_drop (own other : List T) (value : T) :
    (own.drop other.length ++ [value]).drop (other.drop own.length).length =
      (own ++ [value]).drop other.length := by
  rcases Nat.le_total other.length own.length with shorter | longer
  · rw [List.drop_eq_nil_of_le shorter, List.length_nil, List.drop_zero,
      List.drop_append_of_le_length shorter]
  · rw [List.drop_eq_nil_of_le longer, List.nil_append, List.length_drop,
      List.drop_append, List.drop_eq_nil_of_le longer, List.nil_append]

theorem drop_drop_append (own other : List T) (value : T) :
    (other.drop own.length).drop (own.drop other.length ++ [value]).length =
      other.drop (own ++ [value]).length := by
  rw [List.drop_drop, List.length_append, List.length_append, List.length_drop]
  rcases Nat.le_total other.length own.length with shorter | longer
  · rw [List.drop_eq_nil_of_le (by omega), List.drop_eq_nil_of_le (by simp; omega)]
  · rw [Nat.sub_eq_zero_of_le longer, Nat.zero_add]

end

theorem compareAvailable_eq (expected actual : List T) (compared : Nat) :
    InOrderScoreboard.compareAvailable expected actual compared =
      (⟨expected.drop actual.length, actual.drop expected.length,
        compared + (List.zipWith Comparison.mk actual expected).length⟩,
        List.zipWith Comparison.mk actual expected) := by
  induction expected generalizing actual compared with
  | nil => cases actual <;> simp [InOrderScoreboard.compareAvailable]
  | cons e expected ih =>
      cases actual with
      | nil => simp [InOrderScoreboard.compareAvailable]
      | cons a actual =>
          simp [InOrderScoreboard.compareAvailable, ih]
          omega

theorem valuesOf_concat (side : Side) (writes : List (Write T)) (w : Write T) :
    valuesOf side (writes ++ [w]) =
      valuesOf side writes ++ if w.side = side then [w.value] else [] := by
  unfold valuesOf
  by_cases same : w.side = side <;> simp [List.filter_append, same]

theorem InOrderScoreboard.after_concat (writes : List (Write T)) (w : Write T) :
    after (writes ++ [w]) =
      (((after writes).1.write w).1, (after writes).2 ++ ((after writes).1.write w).2) := by
  simp [after, List.foldl_append]

/-- One write to an in-order scoreboard. -/
theorem InOrderMatched.write {writes : List (Write T)} {board : InOrderScoreboard T}
    {comparisons : List (Comparison T)} (matched : InOrderMatched writes board comparisons)
    (w : Write T) :
    InOrderMatched (writes ++ [w]) (board.write w).1 (comparisons ++ (board.write w).2) := by
  obtain ⟨side, value⟩ := w
  cases side with
  | expected =>
      have ownGrows : valuesOf .expected (writes ++ [⟨.expected, value⟩]) =
          valuesOf .expected writes ++ [value] := by simp [valuesOf_concat]
      have peerStays : valuesOf .actual (writes ++ [⟨.expected, value⟩]) =
          valuesOf .actual writes := by simp [valuesOf_concat]
      simp only [InOrderScoreboard.write, compareAvailable_eq]
      refine ⟨?_, ?_, ?_, ?_⟩
      · rw [ownGrows, peerStays, matched.made, matched.expected, matched.actual]
        exact (zipWith_append_right _ _ _ _).symm
      · exact (congrArg (· + _) matched.compared).trans List.length_append.symm
      · rw [ownGrows, peerStays, matched.expected, matched.actual, drop_append_drop]
      · rw [ownGrows, peerStays, matched.expected, matched.actual, drop_drop_append]
  | actual =>
      have ownGrows : valuesOf .actual (writes ++ [⟨.actual, value⟩]) =
          valuesOf .actual writes ++ [value] := by simp [valuesOf_concat]
      have peerStays : valuesOf .expected (writes ++ [⟨.actual, value⟩]) =
          valuesOf .expected writes := by simp [valuesOf_concat]
      simp only [InOrderScoreboard.write, compareAvailable_eq]
      refine ⟨?_, ?_, ?_, ?_⟩
      · rw [ownGrows, peerStays, matched.made, matched.expected, matched.actual]
        exact (zipWith_append_left _ _ _ _).symm
      · exact (congrArg (· + _) matched.compared).trans List.length_append.symm
      · rw [ownGrows, peerStays, matched.expected, matched.actual, drop_drop_append]
      · rw [ownGrows, peerStays, matched.expected, matched.actual, drop_append_drop]

theorem inOrderMatched_after (writes : List (Write T)) :
    InOrderMatched writes (InOrderScoreboard.after writes).1 (InOrderScoreboard.after writes).2 := by
  induction writes using List.reverseRecOn with
  | nil => exact ⟨rfl, rfl, rfl, rfl⟩
  | append_singleton writes w ih =>
      rw [InOrderScoreboard.after_concat]
      exact ih.write w

/-! ### By key -/

section

variable [DecidableEq Key] {keyOf : T → Key}

theorem keyedOf_concat (side : Side) (key : Key) (writes : List (Write T)) (w : Write T) :
    keyedOf keyOf side key (writes ++ [w]) = keyedOf keyOf side key writes ++
      if w.side = side ∧ keyOf w.value = key then [w.value] else [] := by
  unfold keyedOf
  rw [valuesOf_concat, List.filter_append]
  by_cases sameSide : w.side = side <;> by_cases sameKey : keyOf w.value = key <;>
    simp [sameSide, sameKey]

/-- A write extends one sequence. -/
theorem keyedOf_concat_self (writes : List (Write T)) (w : Write T) :
    keyedOf keyOf w.side (keyOf w.value) (writes ++ [w]) =
      keyedOf keyOf w.side (keyOf w.value) writes ++ [w.value] := by
  rw [keyedOf_concat, if_pos ⟨rfl, rfl⟩]

theorem keyedOf_concat_of_ne {side : Side} {key : Key} (writes : List (Write T)) {w : Write T}
    (other : side ≠ w.side ∨ key ≠ keyOf w.value) :
    keyedOf keyOf side key (writes ++ [w]) = keyedOf keyOf side key writes := by
  rw [keyedOf_concat, if_neg, List.append_nil]
  rintro ⟨rfl, rfl⟩
  exact other.elim (· rfl) (· rfl)

theorem Side.peer_ne (side : Side) : side.peer ≠ side := by cases side <;> decide

theorem Side.eq_or_eq_peer (side other : Side) : other = side ∨ other = side.peer := by
  cases side <;> cases other <;> decide

@[simp] theorem Side.peer_peer (side : Side) : side.peer.peer = side := by cases side <;> rfl

theorem KeyedScoreboard.after_concat (writes : List (Write T)) (w : Write T) :
    after keyOf (writes ++ [w]) =
      (((after keyOf writes).1.write keyOf w).1,
        (after keyOf writes).2 ++ ((after keyOf writes).1.write keyOf w).2) := by
  simp [after, List.foldl_append]

/-- A key nobody wrote has no transactions. -/
theorem keyedOf_eq_nil {key : Key} {writes : List (Write T)} (absent : key ∉ keysOf keyOf writes)
    (side : Side) : keyedOf keyOf side key writes = [] := by
  rw [keyedOf, List.filter_eq_nil_iff]
  intro value member
  have written : value ∈ writes.map (·.value) := by
    obtain ⟨w, mem, rfl⟩ := List.mem_map.mp member
    exact List.mem_map_of_mem (List.mem_filter.mp mem).1
  obtain ⟨w, mem, rfl⟩ := List.mem_map.mp written
  intro same
  exact absent (List.mem_toFinset.mpr (List.mem_map.mpr ⟨w, mem, of_decide_eq_true same⟩))

theorem unmatched_eq_nil {key : Key} {writes : List (Write T)}
    (absent : key ∉ keysOf keyOf writes) (side : Side) : unmatched keyOf side key writes = [] := by
  rw [unmatched, keyedOf_eq_nil absent side, List.drop_nil]

theorem keysOf_concat (writes : List (Write T)) (w : Write T) :
    keysOf keyOf (writes ++ [w]) = insert (keyOf w.value) (keysOf keyOf writes) := by
  ext key
  simp [keysOf, eq_comm]

/-- The sum over the keys before a write is the sum over the keys after it. -/
theorem sum_unmatched_concat (writes : List (Write T)) (w : Write T) (side : Side) :
    ∑ key ∈ keysOf keyOf writes, (unmatched keyOf side key writes).length =
      ∑ key ∈ keysOf keyOf (writes ++ [w]), (unmatched keyOf side key writes).length := by
  rw [keysOf_concat]
  refine Finset.sum_subset (Finset.subset_insert _ _) fun key _ absent => ?_
  rw [unmatched_eq_nil absent, List.length_nil]

/-- A sum that grows by one at one place. -/
theorem sum_succ_at {S : Finset Key} {f g : Key → Nat} {key : Key} (member : key ∈ S)
    (others : ∀ other, other ≠ key → f other = g other) (grows : f key = g key + 1) :
    ∑ k ∈ S, f k = ∑ k ∈ S, g k + 1 := by
  have rest : ∑ k ∈ S.erase key, f k = ∑ k ∈ S.erase key, g k :=
    Finset.sum_congr rfl fun k mem => others k (Finset.ne_of_mem_erase mem)
  rw [← Finset.add_sum_erase S f member, ← Finset.add_sum_erase S g member, grows, rest]
  omega

variable {writes : List (Write T)} {board : KeyedScoreboard T Key}
  {comparisons : List (Comparison T)}

/-- A write whose peer has nothing pending is queued. -/
theorem write_of_nil {w : Write T}
    (empty : (board.pending w.side.peer (keyOf w.value)).getD [] = []) :
    board.write keyOf w = ({ board with
      pending := update board.pending w.side (update (board.pending w.side) (keyOf w.value)
        (some ((board.pending w.side (keyOf w.value)).getD [] ++ [w.value])))
      pendingCount := update board.pendingCount w.side (board.pendingCount w.side + 1) }, []) := by
  unfold KeyedScoreboard.write
  cases found : board.pending w.side.peer (keyOf w.value) with
  | none => simp only [found]
  | some queue =>
      rw [found] at empty
      obtain rfl : queue = [] := empty
      simp only [found]

/-- A write whose peer has a transaction pending is compared with the oldest. -/
theorem write_of_cons {w : Write T} {peerValue : T} {rest : List T}
    (found : board.pending w.side.peer (keyOf w.value) = some (peerValue :: rest)) :
    board.write keyOf w = ({ board with
      pending := update board.pending w.side.peer
        (update (board.pending w.side.peer) (keyOf w.value) (if rest = [] then none else some rest))
      pendingCount := update board.pendingCount w.side.peer (board.pendingCount w.side.peer - 1)
      compared := board.compared + 1 },
      [match w.side with
        | .expected => ⟨peerValue, w.value⟩
        | .actual => ⟨w.value, peerValue⟩]) := by
  unfold KeyedScoreboard.write
  simp only [found]

/-- The sequence of a key on the peer side of a write does not change. -/
theorem keyedOf_peer (writes : List (Write T)) (w : Write T) (key : Key) :
    keyedOf keyOf w.side.peer key (writes ++ [w]) = keyedOf keyOf w.side.peer key writes :=
  keyedOf_concat_of_ne writes (.inl w.side.peer_ne)

theorem unmatched_of_ne (side : Side) {key : Key} {w : Write T} (other : key ≠ keyOf w.value) :
    unmatched keyOf side key (writes ++ [w]) = unmatched keyOf side key writes := by
  rw [unmatched, keyedOf_concat_of_ne writes (.inr other),
    keyedOf_concat_of_ne writes (.inr other), unmatched]

section

variable {w : Write T}

/-- One side of a key at most has transactions without a partner. -/
theorem unmatched_or (keyOf : T → Key) (side : Side) (key : Key) (writes : List (Write T)) :
    unmatched keyOf side key writes = [] ∨ unmatched keyOf side.peer key writes = [] := by
  rw [unmatched, unmatched, Side.peer_peer, List.drop_eq_nil_iff, List.drop_eq_nil_iff]
  exact Nat.le_total _ _

/-- A write without a partner is pending. -/
theorem unmatched_own_of_nil (empty : unmatched keyOf w.side.peer (keyOf w.value) writes = []) :
    unmatched keyOf w.side (keyOf w.value) (writes ++ [w]) =
      unmatched keyOf w.side (keyOf w.value) writes ++ [w.value] := by
  rw [unmatched, Side.peer_peer, List.drop_eq_nil_iff] at empty
  rw [unmatched, keyedOf_concat_self, keyedOf_peer, List.drop_append_of_le_length empty, unmatched]

/-- A write takes the oldest pending transaction of its key from the other side. -/
theorem unmatched_peer (keyOf : T → Key) (w : Write T) (writes : List (Write T)) :
    unmatched keyOf w.side.peer (keyOf w.value) (writes ++ [w]) =
      (unmatched keyOf w.side.peer (keyOf w.value) writes).tail := by
  rw [unmatched, Side.peer_peer, keyedOf_concat_self, keyedOf_peer, List.length_append,
    List.length_singleton, unmatched, Side.peer_peer, List.tail_drop]

/-- A write with a partner is not pending. -/
theorem unmatched_own_of_cons {peerValue : T} {rest : List T}
    (found : unmatched keyOf w.side.peer (keyOf w.value) writes = peerValue :: rest) :
    unmatched keyOf w.side (keyOf w.value) (writes ++ [w]) = [] ∧
      unmatched keyOf w.side (keyOf w.value) writes = [] := by
  have longer : (keyedOf keyOf w.side (keyOf w.value) writes).length <
      (keyedOf keyOf w.side.peer (keyOf w.value) writes).length := by
    rw [unmatched, Side.peer_peer] at found
    have nonempty := congrArg List.length found
    rw [List.length_drop, List.length_cons] at nonempty
    omega
  constructor
  · rw [unmatched, keyedOf_concat_self, keyedOf_peer, List.drop_eq_nil_iff, List.length_append,
      List.length_singleton]
    omega
  · rw [unmatched, List.drop_eq_nil_iff]
    exact longer.le

/-- The comparison a write makes with what is pending on the other side. -/
def comparisonOf (w : Write T) : List T → List (Comparison T)
  | [] => []
  | peerValue :: _ =>
      [match w.side with
        | .expected => ⟨peerValue, w.value⟩
        | .actual => ⟨w.value, peerValue⟩]

/-- The comparisons of a key after one more write. -/
theorem zipWith_keyedOf_concat (w : Write T) (writes : List (Write T)) :
    List.zipWith Comparison.mk (keyedOf keyOf .actual (keyOf w.value) (writes ++ [w]))
        (keyedOf keyOf .expected (keyOf w.value) (writes ++ [w])) =
      List.zipWith Comparison.mk (keyedOf keyOf .actual (keyOf w.value) writes)
          (keyedOf keyOf .expected (keyOf w.value) writes) ++
        comparisonOf w (unmatched keyOf w.side.peer (keyOf w.value) writes) := by
  have oneSide := unmatched_or keyOf w.side (keyOf w.value) writes
  have own : keyedOf keyOf w.side (keyOf w.value) (writes ++ [w]) =
      keyedOf keyOf w.side (keyOf w.value) writes ++ [w.value] := keyedOf_concat_self writes w
  have peer : keyedOf keyOf w.side.peer (keyOf w.value) (writes ++ [w]) =
      keyedOf keyOf w.side.peer (keyOf w.value) writes := keyedOf_peer writes w (keyOf w.value)
  obtain ⟨side, value⟩ := w
  cases side with
  | expected =>
      dsimp only [Side.peer] at own peer oneSide ⊢
      rw [own, peer, zipWith_append_right]
      congr 1
      change List.zipWith _ (unmatched keyOf .actual (keyOf value) writes)
        (unmatched keyOf .expected (keyOf value) writes ++ [value]) = _
      cases found : unmatched keyOf .actual (keyOf value) writes with
      | nil => rfl
      | cons peerValue rest =>
          rw [oneSide.resolve_right (by rw [found]; exact List.cons_ne_nil _ _)]
          simp [comparisonOf]
  | actual =>
      dsimp only [Side.peer] at own peer oneSide ⊢
      rw [own, peer, zipWith_append_left]
      congr 1
      change List.zipWith _ (unmatched keyOf .actual (keyOf value) writes ++ [value])
        (unmatched keyOf .expected (keyOf value) writes) = _
      cases found : unmatched keyOf .expected (keyOf value) writes with
      | nil => simp [comparisonOf]
      | cons peerValue rest =>
          rw [oneSide.resolve_right (by rw [found]; exact List.cons_ne_nil _ _)]
          simp [comparisonOf]

theorem update_update_apply {α : Type} (f : Side → Key → α) (side : Side) (key : Key) (value : α)
    (side' : Side) (key' : Key) :
    update f side (update (f side) key value) side' key' =
      if side' = side ∧ key' = key then value else f side' key' := by
  by_cases sameSide : side' = side
  · subst sameSide
    by_cases sameKey : key' = key <;> simp [sameKey]
  · simp [sameSide]

/-- The comparisons of a key other than that of the write. -/
theorem zipWith_keyedOf_of_ne {key : Key} (other : key ≠ keyOf w.value) :
    List.zipWith Comparison.mk (keyedOf keyOf .actual key (writes ++ [w]))
        (keyedOf keyOf .expected key (writes ++ [w])) =
      List.zipWith Comparison.mk (keyedOf keyOf .actual key writes)
        (keyedOf keyOf .expected key writes) := by
  rw [keyedOf_concat_of_ne writes (.inr other), keyedOf_concat_of_ne writes (.inr other)]

/-- A write that finds no partner. -/
theorem KeyedMatched.write_of_nil (matched : KeyedMatched keyOf writes board comparisons)
    (empty : unmatched keyOf w.side.peer (keyOf w.value) writes = []) :
    KeyedMatched keyOf (writes ++ [w]) (board.write keyOf w).1
      (comparisons ++ (board.write keyOf w).2) := by
  have peerNil := unmatched_peer keyOf w writes
  rw [empty, List.tail_nil] at peerNil
  have member : keyOf w.value ∈ keysOf keyOf (writes ++ [w]) := by
    rw [keysOf_concat]
    exact Finset.mem_insert_self _ _
  rw [Vc.write_of_nil ((matched.pending _ _).trans empty), List.append_nil]
  refine ⟨fun key => ?_, matched.sameKey, matched.compared, fun side key => ?_, fun side key => ?_,
    fun side => ?_⟩
  · rw [matched.made]
    by_cases here : key = keyOf w.value
    · rw [here, zipWith_keyedOf_concat, empty, comparisonOf, List.append_nil]
    · rw [zipWith_keyedOf_of_ne here]
  · dsimp only
    rw [update_update_apply]
    by_cases here : key = keyOf w.value
    · rw [here]
      rcases w.side.eq_or_eq_peer side with own | peer
      · rw [own, if_pos ⟨rfl, rfl⟩, Option.getD_some, matched.pending, unmatched_own_of_nil empty]
      · rw [peer, if_neg (fun both => w.side.peer_ne both.1), matched.pending, empty, peerNil]
    · rw [if_neg (fun both => here both.2), matched.pending, unmatched_of_ne side here]
  · dsimp only
    rw [update_update_apply]
    split
    · exact fun same => List.append_ne_nil_of_right_ne_nil _ (List.cons_ne_nil _ _)
        (Option.some.inj same)
    · exact matched.held side key
  · rcases w.side.eq_or_eq_peer side with own | peer
    · dsimp only
      rw [own, Function.update_self, matched.pendingCount, sum_unmatched_concat writes w]
      refine (sum_succ_at member (fun key other => ?_) ?_).symm
      · rw [unmatched_of_ne _ other]
      · rw [unmatched_own_of_nil empty, List.length_append, List.length_singleton]
    · dsimp only
      rw [peer, Function.update_of_ne w.side.peer_ne, matched.pendingCount,
        sum_unmatched_concat writes w]
      refine Finset.sum_congr rfl fun key _ => ?_
      by_cases here : key = keyOf w.value
      · rw [here, empty, peerNil]
      · rw [unmatched_of_ne _ here]

/-- A write that is compared with its partner. -/
theorem KeyedMatched.write_of_cons (matched : KeyedMatched keyOf writes board comparisons)
    {peerValue : T} {rest : List T}
    (found : unmatched keyOf w.side.peer (keyOf w.value) writes = peerValue :: rest) :
    KeyedMatched keyOf (writes ++ [w]) (board.write keyOf w).1
      (comparisons ++ (board.write keyOf w).2) := by
  have pending : board.pending w.side.peer (keyOf w.value) = some (peerValue :: rest) := by
    have queue := (matched.pending w.side.peer (keyOf w.value)).trans found
    cases here : board.pending w.side.peer (keyOf w.value) with
    | none => rw [here] at queue; exact nomatch queue
    | some values => rw [here] at queue; exact congrArg some queue
  have peerTail := unmatched_peer keyOf w writes
  rw [found, List.tail_cons] at peerTail
  obtain ⟨ownAfter, ownBefore⟩ := unmatched_own_of_cons found
  have member : keyOf w.value ∈ keysOf keyOf (writes ++ [w]) := by
    rw [keysOf_concat]
    exact Finset.mem_insert_self _ _
  have sameKey : keyOf peerValue = keyOf w.value := by
    have held : peerValue ∈ keyedOf keyOf w.side.peer (keyOf w.value) writes :=
      List.mem_of_mem_drop (by rw [unmatched] at found; rw [found]; exact List.mem_cons_self)
    exact of_decide_eq_true (List.mem_filter.mp held).2
  have made := Vc.write_of_cons (w := w) pending
  have comparison : (board.write keyOf w).2 = comparisonOf w (peerValue :: rest) := by
    rw [made, comparisonOf]
  have keys : ∀ c ∈ comparisonOf w (peerValue :: rest),
      keyOf c.actual = keyOf w.value ∧ keyOf c.expected = keyOf w.value := by
    intro c inComparison
    rw [comparisonOf, List.mem_singleton] at inComparison
    subst inComparison
    cases w.side
    · exact ⟨sameKey, rfl⟩
    · exact ⟨rfl, sameKey⟩
  rw [comparison, made]
  refine ⟨fun key => ?_, fun c inComparisons => ?_, ?_, fun side key => ?_, fun side key => ?_,
    fun side => ?_⟩
  · rw [List.filter_append, matched.made]
    by_cases here : key = keyOf w.value
    · rw [here, zipWith_keyedOf_concat, found, List.filter_eq_self.mpr]
      exact fun c inComparison => decide_eq_true (keys c inComparison).2
    · rw [zipWith_keyedOf_of_ne here, List.filter_eq_nil_iff.mpr, List.append_nil]
      exact fun c inComparison same =>
        here ((of_decide_eq_true same).symm.trans (keys c inComparison).2)
  · rcases List.mem_append.mp inComparisons with before | now
    · exact matched.sameKey c before
    · exact (keys c now).1.trans (keys c now).2.symm
  · rw [List.length_append, comparisonOf, List.length_singleton, ← matched.compared]
  · dsimp only
    rw [update_update_apply]
    by_cases here : key = keyOf w.value
    · rw [here]
      rcases w.side.eq_or_eq_peer side with own | peer
      · rw [own, if_neg (fun both => w.side.peer_ne both.1.symm), matched.pending, ownBefore, ownAfter]
      · rw [peer, if_pos ⟨rfl, rfl⟩, peerTail]
        split
        · next none => rw [none]; rfl
        · rfl
    · rw [if_neg (fun both => here both.2), matched.pending, unmatched_of_ne side here]
  · dsimp only
    rw [update_update_apply]
    split
    · split
      · exact fun same => nomatch same
      · next some => exact fun same => some (Option.some.inj same)
    · exact matched.held side key
  · rcases w.side.eq_or_eq_peer side with own | peer
    · dsimp only
      rw [own, Function.update_of_ne w.side.peer_ne.symm, matched.pendingCount,
        sum_unmatched_concat writes w]
      refine Finset.sum_congr rfl fun key _ => ?_
      by_cases here : key = keyOf w.value
      · rw [here, ownBefore, ownAfter]
      · rw [unmatched_of_ne _ here]
    · dsimp only
      rw [peer, Function.update_self, matched.pendingCount, sum_unmatched_concat writes w,
        sum_succ_at (g := fun key => (unmatched keyOf w.side.peer key (writes ++ [w])).length) member
          (fun key other => by rw [unmatched_of_ne _ other])
          (by rw [found, peerTail, List.length_cons]), Nat.add_sub_cancel]

end

end

theorem keyedMatched_after [DecidableEq Key] (keyOf : T → Key) (writes : List (Write T)) :
    KeyedMatched keyOf writes (KeyedScoreboard.after keyOf writes).1
      (KeyedScoreboard.after keyOf writes).2 := by
  induction writes using List.reverseRecOn with
  | nil =>
      refine ⟨fun key => rfl, fun _ member => (List.not_mem_nil member).elim, rfl, fun side key => rfl, fun side key => ?_, fun side => ?_⟩
      · exact fun same => nomatch same
      · rfl
  | append_singleton writes w ih =>
      rw [KeyedScoreboard.after_concat]
      cases found : unmatched keyOf w.side.peer (keyOf w.value) writes with
      | nil => exact ih.write_of_nil found
      | cons peerValue rest => exact ih.write_of_cons found

theorem KeyedMatched.oneSide [DecidableEq Key] {keyOf : T → Key} {writes : List (Write T)}
    {board : KeyedScoreboard T Key} {comparisons : List (Comparison T)}
    (matched : KeyedMatched keyOf writes board comparisons) (key : Key) :
    board.pending .expected key = none ∨ board.pending .actual key = none := by
  have none_of_nil (side : Side) (empty : unmatched keyOf side key writes = []) :
      board.pending side key = none := by
    have queue := (matched.pending side key).trans empty
    cases here : board.pending side key with
    | none => rfl
    | some values =>
        rw [here] at queue
        exact absurd (here.trans (congrArg some queue)) (matched.held side key)
  exact (unmatched_or keyOf .expected key writes).imp (none_of_nil _) (none_of_nil _)

/-! ### Interleavings -/

/-- Two lists with the same elements in every class are permutations of each other. -/
theorem perm_of_filter_eq {α : Type} [DecidableEq Key] (classOf : α → Key) {left right : List α}
    (same : ∀ key, left.filter (classOf · = key) = right.filter (classOf · = key)) :
    left.Perm right := by
  classical
  rw [List.perm_iff_count]
  intro a
  have inClass (l : List α) : (l.filter (classOf · = classOf a)).count a = l.count a :=
    List.count_filter (decide_eq_true rfl)
  rw [← inClass left, ← inClass right, same]

theorem keyedOf_congr [DecidableEq Key] (keyOf : T → Key) {writes writes' : List (Write T)}
    (same : ∀ side, valuesOf side writes = valuesOf side writes') (side : Side) (key : Key) :
    keyedOf keyOf side key writes = keyedOf keyOf side key writes' := by
  rw [keyedOf, same, keyedOf]

/-- Whatever the order in which the transactions of the two sides arrive, the n-th expected transaction
is compared with the n-th actual one, for a keyed scoreboard those of one key, once; what is pending
is what has no partner; and another interleaving has as many matches and mismatches. -/
theorem scoreboards_matched [BEq T] [DecidableEq Key] (keyOf : T → Key) (writes : List (Write T)) :
    InOrderMatched writes (InOrderScoreboard.after writes).1 (InOrderScoreboard.after writes).2 ∧
    KeyedMatched keyOf writes (KeyedScoreboard.after keyOf writes).1
      (KeyedScoreboard.after keyOf writes).2 ∧
    (∀ key, (KeyedScoreboard.after keyOf writes).1.pending .expected key = none ∨
      (KeyedScoreboard.after keyOf writes).1.pending .actual key = none) ∧
    ∀ writes' : List (Write T), (∀ side, valuesOf side writes = valuesOf side writes') →
      ∀ outcome : Bool,
        (InOrderScoreboard.after writes).2.countP (·.matches == outcome) =
          (InOrderScoreboard.after writes').2.countP (·.matches == outcome) ∧
        (KeyedScoreboard.after keyOf writes).2.countP (·.matches == outcome) =
          (KeyedScoreboard.after keyOf writes').2.countP (·.matches == outcome) := by
  refine ⟨inOrderMatched_after writes, keyedMatched_after keyOf writes,
    (keyedMatched_after keyOf writes).oneSide, fun writes' same outcome => ⟨?_, ?_⟩⟩
  · rw [(inOrderMatched_after writes).made, (inOrderMatched_after writes').made, same, same]
  · refine (perm_of_filter_eq (fun c => keyOf c.expected) fun key => ?_).countP_eq _
    rw [(keyedMatched_after keyOf writes).made, (keyedMatched_after keyOf writes').made,
      keyedOf_congr keyOf same, keyedOf_congr keyOf same]

/-! ### The test -/

/-- The call of `expect_eq` that a comparison is. -/
def recordComparison [BEq T] (format : T → Option String) (label : String) (location : SourceLocation)
    (s : TestRunState) (call : Moment × Comparison T) : TestRunState :=
  s.expectEq call.1 .expectation format label call.2.actual call.2.expected location

/-- A running test counts every comparison as a check, and records one failure for each mismatch. -/
theorem failures_recordComparisons [BEq T] (format : T → Option String) (label : String)
    (location : SourceLocation) (calls : List (Moment × Comparison T)) (s : TestRunState)
    (running : s.result.finished = false) :
    (calls.foldl (recordComparison format label location) s).result.failureRecords.length =
      s.result.failureRecords.length + calls.countP (!·.2.matches) := by
  have unfinished : ¬ s.result.finished = true := by rw [running]; exact Bool.false_ne_true
  induction calls generalizing s with
  | nil => rfl
  | cons call rest ih =>
      have checkRuns : s.recordCheck.result.finished = false := by
        unfold TestRunState.recordCheck
        rw [if_neg unfinished]
        exact running
      have checkKeeps : s.recordCheck.result.failureRecords = s.result.failureRecords := by
        unfold TestRunState.recordCheck
        rw [if_neg unfinished]
      rw [List.foldl_cons, List.countP_cons]
      by_cases agree : call.2.actual == call.2.expected
      · have same : recordComparison format label location s call = s.recordCheck := if_pos agree
        rw [same, ih _ checkRuns (by rw [checkRuns]; exact Bool.false_ne_true), checkKeeps]
        simp [Comparison.matches, agree]
      · have failed := Testing.failed_recordFailure (m := call.1) checkRuns
          (Testing.comparisonFailure .expectation label (format call.2.actual)
            (format call.2.expected) location)
        have same : recordComparison format label location s call = s.recordCheck.recordFailure call.1
            (Testing.comparisonFailure .expectation label (format call.2.actual)
              (format call.2.expected) location) := if_neg agree
        obtain ⟨record, records⟩ := failed.records
        have stillRuns := failed.finished.trans checkRuns
        rw [same, ih _ stillRuns (by rw [stillRuns]; exact Bool.false_ne_true), records, checkKeeps]
        simp [Comparison.matches, agree]
        omega

end Cpptb.Vc
