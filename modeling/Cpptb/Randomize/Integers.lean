/-
`Random::randint` for all integral types.

A value of a type is its bits; `orderedUnsigned` puts the values of a signed type in the order of the
unsigned ones (`toNat_orderedUnsigned`). `uniform_below` draws words until one is accepted
(`run_uniformBelow`). The accepted words are spread evenly over the values of the interval
(`randint_fair`).
-/

import Cpptb.Lib.Draws
import Cpptb.Randomize.Sampling

namespace Cpptb.Randomize

open Cpptb.Draws

section Ordered

variable (type : ScalarType)

/-- The integer that the bits of a value stand for. -/
def ScalarType.value (raw : BitVec type.width) : ℤ := if type.isSigned then raw.toInt else raw.toNat

/-- `ordered_unsigned`. -/
def ScalarType.orderedUnsigned (value : BitVec type.width) : BitVec type.width :=
  if type.isSigned then value ^^^ BitVec.twoPow type.width (type.width - 1) else value

/-- `from_ordered_unsigned`. -/
def ScalarType.fromOrderedUnsigned (value : BitVec type.width) : BitVec type.width :=
  if type.isSigned then value ^^^ BitVec.twoPow type.width (type.width - 1) else value

namespace ScalarType

variable {type}

theorem fromOrderedUnsigned_orderedUnsigned (value : BitVec type.width) :
    type.fromOrderedUnsigned (type.orderedUnsigned value) = value := by
  unfold fromOrderedUnsigned orderedUnsigned
  split
  · rw [BitVec.xor_assoc, BitVec.xor_self, BitVec.xor_zero]
  · rfl

theorem orderedUnsigned_fromOrderedUnsigned (value : BitVec type.width) :
    type.orderedUnsigned (type.fromOrderedUnsigned value) = value :=
  fromOrderedUnsigned_orderedUnsigned value

/-- The least value of a type, below zero. -/
def offset (type : ScalarType) : ℤ := if type.isSigned then type.sign else 0

/-- The ordered bits count from the least value on. -/
theorem toNat_orderedUnsigned (value : BitVec type.width) :
    ((type.orderedUnsigned value).toNat : ℤ) = type.value value + type.offset := by
  have small : value.toNat < type.count := value.isLt
  have half := type.count_eq
  unfold orderedUnsigned ScalarType.value offset
  split
  · have positive := type.positive
    rw [BitVec.toNat_xor, BitVec.toNat_twoPow_of_lt (by omega)]
    show ((value.toNat ^^^ type.sign : ℕ) : ℤ) = _
    rw [type.xor_sign small, BitVec.toInt_eq_toNat_cond]
    rw [show (2 : ℕ) ^ type.width = 2 * type.sign from half]
    rw [half] at small
    split <;> split <;> push_cast <;> omega
  · rw [add_zero]

theorem value_inj {left right : BitVec type.width} : type.value left = type.value right ↔ left = right := by
  constructor
  · intro same
    have ordered : (type.orderedUnsigned left).toNat = (type.orderedUnsigned right).toNat := by
      have := toNat_orderedUnsigned left
      have := toNat_orderedUnsigned right
      omega
    rw [← fromOrderedUnsigned_orderedUnsigned left, BitVec.eq_of_toNat_eq ordered,
      fromOrderedUnsigned_orderedUnsigned]
  · rintro rfl
    rfl

end ScalarType

end Ordered

section Draws

variable {ρ : Type} (random : Generator ρ)

/-- `uniform_below` takes the word. -/
def accepts (bound word : ℕ) : Bool := bound = 0 ∨ (2 ^ 64 - bound) % bound ≤ word

/-- What `uniform_below` makes of the word that it takes. -/
def residue (bound word : ℕ) : ℕ := if bound = 0 then word else word % bound

/-- The first of some words that is taken. -/
def Generator.firstAccepted (bound : ℕ) : (words : ℕ) → ρ → Option (ℕ × ρ)
  | 0, _ => none
  | words + 1, state =>
    let (word, state') := random.nextU64 state
    if accepts bound word.toNat then some (word.toNat, state')
    else firstAccepted bound words state'

/-- `uniform_below` takes the first word that it accepts: without a bound it accepts every word. -/
theorem run_uniformBelow (bound : ℕ) (state : ρ) : (random.uniformBelow bound).run state =
    match random.firstAccepted bound (if bound = 0 then 1 else random.patience) state with
    | none => .error .unfinished
    | some (word, state') => .ok (residue bound word, state') := by
  unfold Generator.uniformBelow residue
  by_cases zero : bound = 0
  · simp only [zero, if_true, Generator.firstAccepted, accepts, true_or, decide_true]
    rfl
  · simp only [zero, if_false]
    generalize random.patience = words
    induction words generalizing state with
    | zero => rfl
    | succ words ih =>
      simp only [Generator.firstAccepted, accepts, zero, false_or, decide_eq_true_eq]
      show (if (2 ^ 64 - bound) % bound ≤ (random.nextU64 state).1.toNat
        then (pure ((random.nextU64 state).1.toNat % bound) : Draw ρ ℕ)
        else random.drawAtLeast ((2 ^ 64 - bound) % bound) bound words) (random.nextU64 state).2 = _
      split
      next => rfl
      next rejected =>
        have rest := ih (random.nextU64 state).2
        exact rest

/-- `randint`. -/
def Generator.randintOf (type : ScalarType) (minimum maximum : BitVec type.width) :
    Draw ρ (BitVec type.width) :=
  let low := type.orderedUnsigned minimum
  let high := type.orderedUnsigned maximum
  if high < low then
    throw (.invalidArgument "cpptb::Random::randint minimum exceeds maximum")
  else do
    let span := high - low + BitVec.ofNat type.width 1
    let offset ← random.uniformBelow span.toNat
    return type.fromOrderedUnsigned (low + BitVec.ofNat type.width offset)

/-- The numbers that `randint` from zero draws. -/
theorem randint_zero (maximum : ℕ) :
    random.randint 0 maximum
      = random.uniformBelow ((maximum + 1) % 2 ^ 64) >>= fun offset => pure (offset % 2 ^ 64) := by
  rw [Generator.randint, if_neg (Nat.not_lt_zero maximum), Nat.sub_zero]
  simp only [Nat.zero_add]

theorem drawAtLeast_lt (threshold : ℕ) {bound : ℕ} (positive : 0 < bound) (words : ℕ) :
    Ensures (random.drawAtLeast threshold bound words) (· < bound) := by
  induction words with
  | zero => exact Ensures.throw _
  | succ words ih =>
    refine Ensures.bind_any _ fun value => Ensures.ite (fun _ => ?_) fun _ => ih
    exact Ensures.pure (Nat.mod_lt value positive)

theorem randint_le {maximum : ℕ} (fits : maximum < 2 ^ 64) :
    Ensures (random.randint 0 maximum) (· ≤ maximum) := by
  rw [randint_zero]
  rcases Nat.lt_or_eq_of_le (Nat.succ_le_of_lt fits) with narrow | full
  · rw [Nat.mod_eq_of_lt narrow, Generator.uniformBelow, if_neg (Nat.succ_ne_zero maximum)]
    refine Ensures.bind (drawAtLeast_lt random _ (Nat.succ_pos maximum) _) fun offset below => ?_
    exact Ensures.pure ((Nat.mod_le _ _).trans (Nat.lt_succ_iff.mp below))
  · refine Ensures.bind_any _ fun offset => Ensures.pure ?_
    have := Nat.mod_lt offset (show 0 < 2 ^ 64 by decide)
    omega

theorem drawAtLeast_raises (threshold bound words : ℕ) :
    Raises (random.drawAtLeast threshold bound words) (· = .unfinished) := by
  induction words with
  | zero => exact Raises.throw rfl
  | succ words ih =>
    refine Raises.bind_any (fun _ _ ran => absurd ran nofun) fun value => ?_
    exact Raises.ite (fun _ => Raises.pure _) fun _ => ih

/-- `randint` of ordered bounds throws nothing. -/
theorem randint_raises {minimum maximum : ℕ} (ordered : minimum ≤ maximum) :
    Raises (random.randint minimum maximum) (· = .unfinished) := by
  rw [Generator.randint, if_neg (Nat.not_lt.mpr ordered)]
  refine Raises.bind_any ?_ fun offset => Raises.pure _
  exact Raises.ite (fun _ _ _ ran => absurd ran nofun) fun _ => drawAtLeast_raises random _ _ _

theorem uint64_positive : 0 < 64 := by decide

theorem uint64_bounded : 64 ≤ 64 := by decide

/-- `uint64_t`. -/
def uint64 : ScalarType := ⟨64, false, uint64_positive, uint64_bounded⟩

/-- `randint<uint64_t>`, of which `Generator.randint` is the case that the search uses. -/
theorem randint_eq_randintOf {minimum maximum : ℕ} (small : minimum < 2 ^ 64) (small' : maximum < 2 ^ 64) :
    random.randint minimum maximum = (do
      let value ← random.randintOf uint64 (BitVec.ofNat 64 minimum) (BitVec.ofNat 64 maximum)
      return value.toNat) := by
  have low : (BitVec.ofNat 64 minimum).toNat = minimum := by
    rw [BitVec.toNat_ofNat, Nat.mod_eq_of_lt small]
  have high : (BitVec.ofNat 64 maximum).toNat = maximum := by
    rw [BitVec.toNat_ofNat, Nat.mod_eq_of_lt small']
  have reverses : BitVec.ofNat 64 maximum < BitVec.ofNat 64 minimum ↔ maximum < minimum := by
    rw [BitVec.lt_def, low, high]
  unfold Generator.randint
  by_cases reversed : minimum > maximum
  · have thrown : random.randintOf uint64 (BitVec.ofNat 64 minimum) (BitVec.ofNat 64 maximum)
        = throw (.invalidArgument "cpptb::Random::randint minimum exceeds maximum") :=
      if_pos (reverses.mpr reversed)
    rw [if_pos reversed, thrown]
    rfl
  · have span : (BitVec.ofNat 64 maximum - BitVec.ofNat 64 minimum + 1#64).toNat
        = (maximum - minimum + 1) % 2 ^ 64 := by
      rw [BitVec.toNat_add, BitVec.toNat_sub_of_le (by rw [BitVec.le_def, low, high]; omega), low, high]
      rfl
    have drawn : random.randintOf uint64 (BitVec.ofNat 64 minimum) (BitVec.ofNat 64 maximum)
        = random.uniformBelow ((maximum - minimum + 1) % 2 ^ 64) >>= fun offset =>
          pure (BitVec.ofNat 64 minimum + BitVec.ofNat 64 offset) := by
      rw [← span]
      exact if_neg fun less => reversed (reverses.mp less)
    rw [if_neg reversed, drawn]
    show (random.uniformBelow ((maximum - minimum + 1) % 2 ^ 64) >>= fun offset =>
        pure ((minimum + offset) % 2 ^ 64))
      = (random.uniformBelow ((maximum - minimum + 1) % 2 ^ 64) >>= fun offset =>
        (pure (BitVec.ofNat 64 minimum + BitVec.ofNat 64 offset) : Draw ρ (BitVec 64))) >>= fun value =>
          pure value.toNat
    rw [bind_assoc]
    congr 1
    funext offset
    rw [pure_bind, BitVec.toNat_add, low, BitVec.toNat_ofNat, Nat.add_mod_mod]

end Draws

section Fairness

variable {type : ScalarType} (minimum maximum : BitVec type.width)

/-- The bound of `uniform_below` in `randint`: it wraps to 0 for the full range of the type. -/
def ScalarType.span : ℕ :=
  (type.orderedUnsigned maximum - type.orderedUnsigned minimum + BitVec.ofNat type.width 1).toNat

/-- What `randint` makes of an accepted word. -/
def ScalarType.rolled (word : ℕ) : BitVec type.width :=
  type.fromOrderedUnsigned
    (type.orderedUnsigned minimum + BitVec.ofNat type.width (residue (type.span minimum maximum) word))

namespace ScalarType

variable {minimum maximum} (ordered : type.value minimum ≤ type.value maximum)

include ordered

/-- The number of values, which the span is but for a full range. -/
theorem span_eq : ∃ values : ℕ, 0 < values ∧ values ≤ type.count ∧
    (values : ℤ) = type.value maximum - type.value minimum + 1 ∧
    type.span minimum maximum = values % type.count := by
  have low := toNat_orderedUnsigned minimum
  have high := toNat_orderedUnsigned maximum
  have small : (type.orderedUnsigned maximum).toNat < type.count := BitVec.isLt _
  refine ⟨(type.orderedUnsigned maximum).toNat - (type.orderedUnsigned minimum).toNat + 1, by omega,
    by omega, by omega, ?_⟩
  rw [span, BitVec.toNat_add, BitVec.toNat_sub_of_le (by rw [BitVec.le_def]; omega), BitVec.toNat_ofNat,
    Nat.add_mod_mod]
  rfl

/-- The words that are accepted, and what they are: both as for the number of values. -/
theorem accepts_iff {values : ℕ} (positive : 0 < values) (fits : values ≤ type.count)
    (spans : type.span minimum maximum = values % type.count) (word : ℕ) :
    (accepts (type.span minimum maximum) word = true ↔ 2 ^ 64 % values ≤ word) ∧
      BitVec.ofNat type.width (residue (type.span minimum maximum) word)
        = BitVec.ofNat type.width (word % values) := by
  have within := fits.trans type.count_le
  unfold accepts residue
  rw [spans]
  rcases Nat.lt_or_eq_of_le fits with narrow | rfl
  · rw [Nat.mod_eq_of_lt narrow]
    simp only [positive.ne', false_or, if_false, decide_eq_true_eq, and_true]
    rw [← Nat.mod_eq_sub_mod within]
  · rw [Nat.mod_self]
    simp only [true_or, decide_true, if_true, true_iff]
    refine ⟨(Nat.mod_eq_zero_of_dvd type.count_dvd).le.trans (Nat.zero_le _), ?_⟩
    refine BitVec.eq_of_toNat_eq ?_
    rw [BitVec.toNat_ofNat, BitVec.toNat_ofNat]
    exact (Nat.mod_mod _ _).symm

/-- The value of an accepted word. -/
theorem value_rolled {values : ℕ} (positive : 0 < values) (fits : values ≤ type.count)
    (exact : (values : ℤ) = type.value maximum - type.value minimum + 1)
    (spans : type.span minimum maximum = values % type.count) (word : ℕ) :
    type.value (type.rolled minimum maximum word) = type.value minimum + (word % values : ℕ) := by
  have low := toNat_orderedUnsigned minimum
  have high := toNat_orderedUnsigned maximum
  have small : (type.orderedUnsigned maximum).toNat < type.count := BitVec.isLt _
  have below := Nat.mod_lt word positive
  have sum : (type.orderedUnsigned (type.rolled minimum maximum word)).toNat
      = (type.orderedUnsigned minimum).toNat + word % values := by
    rw [rolled, orderedUnsigned_fromOrderedUnsigned, (accepts_iff ordered positive fits spans word).2,
      BitVec.toNat_add, BitVec.toNat_ofNat, Nat.add_mod_mod]
    exact Nat.mod_eq_of_lt (show _ < type.count by omega)
  have value := toNat_orderedUnsigned (type.rolled minimum maximum word)
  omega

end ScalarType

end Fairness

/-- **`randint` is in range and unbiased.** For every integral type and every interval, the first
accepted word decides; it gives a value of the interval, each value is given by the same number of
accepted words, and at least half of all words are accepted. Reversed bounds throw. -/
theorem randint_fair (type : ScalarType) (minimum maximum : BitVec type.width) :
    (type.value maximum < type.value minimum → ∀ {ρ : Type} (random : Generator ρ) (state : ρ),
      (random.randintOf type minimum maximum).run state
        = .error (.invalidArgument "cpptb::Random::randint minimum exceeds maximum")) ∧
    (type.value minimum ≤ type.value maximum →
      (∀ {ρ : Type} (random : Generator ρ) (state : ρ),
        (random.randintOf type minimum maximum).run state =
          match random.firstAccepted (type.span minimum maximum)
            (if type.span minimum maximum = 0 then 1 else random.patience) state with
          | none => .error .unfinished
          | some (word, state') => .ok (type.rolled minimum maximum word, state')) ∧
      (∀ word, type.value minimum ≤ type.value (type.rolled minimum maximum word) ∧
        type.value (type.rolled minimum maximum word) ≤ type.value maximum) ∧
      (∃ count, 0 < count ∧ ∀ value : BitVec type.width,
        type.value minimum ≤ type.value value → type.value value ≤ type.value maximum →
        ((Finset.range (2 ^ 64)).filter fun word => accepts (type.span minimum maximum) word = true ∧
          type.rolled minimum maximum word = value).card = count) ∧
      2 ^ 64 ≤ 2 * ((Finset.range (2 ^ 64)).filter fun word =>
        accepts (type.span minimum maximum) word = true).card) := by
  have lowest := ScalarType.toNat_orderedUnsigned minimum
  have highest := ScalarType.toNat_orderedUnsigned maximum
  refine ⟨fun reversed ρ random state => ?_, fun ordered => ?_⟩
  · rw [Generator.randintOf, if_pos (by rw [BitVec.lt_def]; omega)]
    rfl
  obtain ⟨values, positive, fits, exact, spans⟩ := ScalarType.span_eq ordered
  have accepted := fun word => (ScalarType.accepts_iff ordered positive fits spans word).1
  have rolled := ScalarType.value_rolled ordered positive fits exact spans
  have within : values ≤ 2 ^ 64 := fits.trans type.count_le
  refine ⟨fun random state => ?_, fun word => ?_, ⟨2 ^ 64 / values, Nat.div_pos within positive, ?_⟩, ?_⟩
  · have drawn : random.randintOf type minimum maximum
        = random.uniformBelow (type.span minimum maximum) >>= fun offset => pure
          (type.fromOrderedUnsigned (type.orderedUnsigned minimum + BitVec.ofNat type.width offset)) :=
      if_neg (by rw [BitVec.lt_def]; omega)
    rw [drawn, StateT.run_bind, run_uniformBelow]
    cases random.firstAccepted (type.span minimum maximum)
      (if type.span minimum maximum = 0 then 1 else random.patience) state with
    | none => rfl
    | some taken => rfl
  · have := Nat.mod_lt word positive
    rw [rolled]
    omega
  · intro value above below
    -- the words of a value are those of its distance from the minimum
    obtain ⟨r, distance⟩ := Int.eq_ofNat_of_zero_le (sub_nonneg.mpr above)
    have words : ((Finset.range (2 ^ 64)).filter fun word =>
          accepts (type.span minimum maximum) word = true ∧ type.rolled minimum maximum word = value)
        = (Finset.Ico (2 ^ 64 % values) (2 ^ 64)).filter (· % values = r) := by
      ext word
      rw [Finset.mem_filter, Finset.mem_filter, Finset.mem_range, Finset.mem_Ico, accepted,
        ← ScalarType.value_inj, rolled]
      constructor
      · rintro ⟨inWords, taken, same⟩
        exact ⟨⟨taken, inWords⟩, by omega⟩
      · rintro ⟨⟨taken, inWords⟩, same⟩
        exact ⟨inWords, taken, by omega⟩
    rw [words]
    exact card_residue (by omega) _
  · have words : ((Finset.range (2 ^ 64)).filter fun word =>
        accepts (type.span minimum maximum) word = true) = Finset.Ico (2 ^ 64 % values) (2 ^ 64) := by
      ext word
      rw [Finset.mem_filter, Finset.mem_range, Finset.mem_Ico, accepted, and_comm]
    have half := two_mul_mod_le positive within
    rw [words, Nat.card_Ico]
    omega

end Cpptb.Randomize
