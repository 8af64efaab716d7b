/-
`Bits::from_hex` and `format_bits`.

`from_hex` reads the digits from the last to the first, and sets the bits of each where they fit
(`placeDigit_spec`, `scan_spec`). `HexText` says what it accepts and of which value. `format_bits` prints
the digits of the value (`hexValue_digits`), and `from_hex` reads them back.
-/

import Cpptb.FixedPoint.Slices

namespace Cpptb.FixedPoint

section Source

/-- `hex_digit`. -/
def hexDigit (value : Char) : Except Fault ℕ :=
  if '0' ≤ value ∧ value ≤ '9' then return value.toNat - '0'.toNat
  else if 'a' ≤ value ∧ value ≤ 'f' then return value.toNat - 'a'.toNat + 10
  else if 'A' ≤ value ∧ value ≤ 'F' then return value.toNat - 'A'.toNat + 10
  else throw (.fail "invalid hexadecimal digit")

/-- One round of the loop of `from_hex` over the bits of a digit. -/
def placeBit (W nibble digit : ℕ) (words : List Word) (bit : ℕ) : Except Fault (List Word) := do
  if digit &&& (1 <<< bit) = 0 then return words
  else
    let position := nibble * 4 + bit
    if position ≥ W then throw (.fail "hexadecimal value does not fit Bits width")
    else
      let word ← readWord words (position / 32)
      writeWord words (position / 32) (word ||| (← shiftWordLeft 1 (position % 32)))

/-- The locals of `from_hex`. -/
structure HexScan where
  words : List Word
  sawDigit : Bool := false
  nibble : ℕ := 0
  deriving DecidableEq, Repr

/-- One round of the loop of `from_hex` over the characters. -/
def scanCharacter (W : ℕ) (scan : HexScan) (character : Char) : Except Fault HexScan := do
  if character = '_' then return scan
  else
    let digit ← hexDigit character
    let words ← (List.range 4).foldlM (placeBit W scan.nibble digit) scan.words
    return { words, sawDigit := true, nibble := scan.nibble + 1 }

/-- `begin`: the length of the prefix. -/
def hexBegin (text : List Char) : ℕ :=
  if text.length ≥ 2 ∧ text[0]? = some '0' ∧ (text[1]? = some 'x' ∨ text[1]? = some 'X') then 2 else 0

/-- `from_hex`: the words of the result. -/
def fromHex (W : ℕ) (text : List Char) : Except Fault (List Word) := do
  let scan ← (text.drop (hexBegin text)).reverse.foldlM (scanCharacter W)
    { words := List.replicate (wordCount W) 0 }
  if !scan.sawDigit then throw (.fail "hexadecimal value has no digits")
  else return maskPadding W scan.words

/-- `kHexDigits`. -/
def kHexDigits : List Char :=
  ['0', '1', '2', '3', '4', '5', '6', '7', '8', '9', 'a', 'b', 'c', 'd', 'e', 'f']

variable {W : ℕ}

/-- One round of the loop of `format_bits` over the bits of a digit. -/
def gatherBit (value : Bits W) (lsb nibble bit : ℕ) : Except Fault ℕ := do
  if ← value.bit (lsb + bit) then return nibble ||| (1 <<< bit) else return nibble

/-- One round of the loop of `format_bits` over the digits. -/
def formatDigit (value : Bits W) (digit : ℕ) : Except Fault Char := do
  let lsb := digit * 4
  let nibble ← (List.range (min 4 (W - lsb))).foldlM (gatherBit value lsb) 0
  match kHexDigits[nibble]? with
  | some character => return character
  | none => throw (.outside nibble)

/-- `format_bits`. -/
def formatBits (value : Bits W) : Except Fault (List Char) := do
  let digits ← (List.range ((W + 3) / 4)).reverse.mapM (formatDigit value)
  return (toString W).toList ++ "'h".toList ++ digits

end Source

section Text

/-- A hexadecimal digit, of either case. -/
def IsHexDigit (character : Char) : Prop := character.toLower ∈ kHexDigits

instance (character : Char) : Decidable (IsHexDigit character) := inferInstanceAs (Decidable (_ ∈ _))

/-- What a hexadecimal digit stands for. -/
def digitValue (character : Char) : ℕ := kHexDigits.idxOf character.toLower

/-- The number that some digits stand for, the first one the most significant. -/
def hexValue (body : List Char) : ℕ :=
  body.foldl (fun value character =>
    if character = '_' then value else 16 * value + digitValue character) 0

/-- Digits and underscores, with at least one digit, after the prefix if there is one. -/
def HexText (text : List Char) (value : ℕ) : Prop :=
  ∃ body, (text = body ∨ text = '0' :: 'x' :: body ∨ text = '0' :: 'X' :: body) ∧
    (∀ character ∈ body, character = '_' ∨ IsHexDigit character) ∧
    (∃ character ∈ body, IsHexDigit character) ∧ hexValue body = value

example : hexValue "ab_c".toList = 2748 := by decide +kernel

/-- The characters of 7 bits, one by one. -/
theorem hexDigit_ofNat (code : Fin 128) : hexDigit (Char.ofNat code) =
    if IsHexDigit (Char.ofNat code) then .ok (digitValue (Char.ofNat code))
    else .error (.fail "invalid hexadecimal digit") := by
  revert code
  decide +kernel

theorem not_isHexDigit_of_large {character : Char} (large : 128 ≤ character.toNat) :
    ¬ IsHexDigit character := by
  have same : character.toLower = character := by
    refine dif_neg fun ⟨_, below⟩ => ?_
    have : character.toNat ≤ 90 := below
    omega
  rw [IsHexDigit, same]
  intro member
  have ascii : ∀ digit ∈ kHexDigits, digit.toNat < 128 := by simp [kHexDigits]
  exact absurd (ascii character member) (by omega)

/-- `hex_digit` takes the digits of both cases, and nothing else. -/
theorem hexDigit_eq (character : Char) : hexDigit character =
    if IsHexDigit character then .ok (digitValue character)
    else .error (.fail "invalid hexadecimal digit") := by
  rcases Nat.lt_or_ge character.toNat 128 with ascii | large
  · have known := hexDigit_ofNat ⟨character.toNat, ascii⟩
    rwa [Char.ofNat_toNat] at known
  · have outside : ∀ {low high : Char}, high.toNat < 128 → ¬ (low ≤ character ∧ character ≤ high) :=
      fun {_ high} small ⟨_, below⟩ => by
        have : character.toNat ≤ high.toNat := below
        omega
    rw [if_neg (not_isHexDigit_of_large large), hexDigit, if_neg (outside (by decide)),
      if_neg (outside (by decide)), if_neg (outside (by decide))]
    rfl

theorem digitValue_lt {character : Char} (digit : IsHexDigit character) : digitValue character < 16 :=
  List.idxOf_lt_length_of_mem digit

theorem not_isHexDigit_underscore : ¬ IsHexDigit '_' := by decide +kernel

end Text

section Digits

variable {W : ℕ}

/-- One more bit of a number. -/
theorem mod_two_pow_succ (x k : ℕ) : x % 2 ^ (k + 1) = x % 2 ^ k + if x.testBit k then 2 ^ k else 0 := by
  rw [Nat.mod_pow_succ, ← Nat.toNat_testBit]
  cases x.testBit k <;> simp

theorem and_shiftLeft_eq_zero {digit bit : ℕ} : digit &&& (1 <<< bit) = 0 ↔ digit.testBit bit = false := by
  rw [Nat.one_shiftLeft, Nat.and_two_pow]
  cases digit.testBit bit <;> simp

/-- Setting a bit above all others adds its weight. -/
theorem wordsValue_set_bit {words : List Word} {p : ℕ} (inside : p / 32 < words.length)
    (below : wordsValue words < 2 ^ p) :
    wordsValue (words.set (p / 32) (words.getD (p / 32) 0 ||| (1 : Word) <<< (p % 32)))
      = wordsValue words + 2 ^ p := by
  have sum := Nat.two_pow_add_eq_or_of_lt below 1
  rw [mul_one] at sum
  rw [Nat.add_comm, sum]
  refine Nat.eq_of_testBit_eq fun i => ?_
  rw [testBit_set inside, Nat.testBit_or, Nat.testBit_two_pow]
  by_cases here : i / 32 = p / 32
  · rw [if_pos here, BitVec.getLsbD_or, getLsbD_bitMask (Nat.mod_lt p (by decide)), ← here,
      ← testBit_wordsValue, Bool.or_comm]
    congr 1
    exact decide_eq_decide.mpr (by omega)
  · rw [if_neg here, decide_eq_false fun same => here (by rw [same]), Bool.false_or]

/-- The low bits of a digit are set where they fit, and the digit is refused where one does not. -/
theorem placeBits_spec {nibble : ℕ} {words : List Word} (size : words.length = wordCount W)
    (below : wordsValue words < 2 ^ (nibble * 4)) (fits : wordsValue words < 2 ^ W) (digit k : ℕ) :
    (digit % 2 ^ k * 2 ^ (nibble * 4) + wordsValue words < 2 ^ W ∧ ∃ words',
      (List.range k).foldlM (placeBit W nibble digit) words = .ok words' ∧
      words'.length = wordCount W ∧
      wordsValue words' = digit % 2 ^ k * 2 ^ (nibble * 4) + wordsValue words) ∨
    (2 ^ W ≤ digit % 2 ^ k * 2 ^ (nibble * 4) ∧ ∃ message,
      (List.range k).foldlM (placeBit W nibble digit) words = .error (.fail message)) := by
  induction k with
  | zero =>
    rw [pow_zero, Nat.mod_one, zero_mul, zero_add]
    exact .inl ⟨fits, words, rfl, size, rfl⟩
  | succ k ih =>
    rw [List.range_succ, List.foldlM_append, mod_two_pow_succ, add_mul]
    rcases ih with ⟨room, before, ran, length, value⟩ | ⟨full, message, ran⟩
    · rw [ran]
      show (_ ∧ ∃ words', (placeBit W nibble digit before k >>= pure) = .ok words' ∧ _) ∨
        (_ ∧ ∃ message, (placeBit W nibble digit before k >>= pure) = .error (.fail message))
      rw [bind_pure, placeBit]
      cases bit : digit.testBit k with
      | false =>
        rw [if_pos (and_shiftLeft_eq_zero.mpr bit), if_neg Bool.false_ne_true, zero_mul, add_zero]
        exact .inl ⟨room, before, rfl, length, value⟩
      | true =>
        -- the bits so far are below the position of this one
        have weight : 2 ^ k * 2 ^ (nibble * 4) = 2 ^ (nibble * 4 + k) := by rw [pow_add, mul_comm]
        have lower : wordsValue before < 2 ^ (nibble * 4 + k) := by
          have part := Nat.mul_le_mul_right (2 ^ (nibble * 4))
            (Nat.succ_le_of_lt (Nat.mod_lt digit (Nat.two_pow_pos k)))
          rw [weight, Nat.succ_mul] at part
          rw [value]
          omega
        have nonzero : ¬ digit &&& (1 <<< k) = 0 := fun zero =>
          absurd (bit.symm.trans (and_shiftLeft_eq_zero.mp zero)) (by decide)
        rw [if_pos (rfl : true = true), weight, if_neg nonzero]
        simp only
        by_cases outside : nibble * 4 + k ≥ W
        · rw [if_pos outside]
          have := Nat.pow_le_pow_right (show 0 < 2 by decide) outside
          exact .inr ⟨by omega, _, rfl⟩
        · rw [if_neg outside]
          have inside : (nibble * 4 + k) / 32 < before.length := by
            rw [length, wordCount]
            omega
          rw [readWord_eq inside]
          simp only [bind, Except.bind]
          rw [shiftWordLeft_eq _ (Nat.mod_lt _ (by decide))]
          simp only
          rw [writeWord_eq inside]
          have sum := wordsValue_set_bit inside lower
          have double := Nat.pow_le_pow_right (show 0 < 2 by decide)
            (show nibble * 4 + k + 1 ≤ W by omega)
          rw [pow_succ] at double
          exact .inl ⟨by omega, _, rfl, List.length_set.trans length, by omega⟩
    · rw [ran]
      exact .inr ⟨by omega, message, rfl⟩

/-- The number of digits of a text. -/
def digitCount (body : List Char) : ℕ := body.countP (· ≠ '_')

theorem digitCount_cons (character : Char) (body : List Char) :
    digitCount (character :: body) = digitCount body + if character = '_' then 0 else 1 := by
  rw [digitCount, List.countP_cons]
  by_cases underscore : character = '_' <;> simp [underscore, digitCount]

/-- A digit in front of others has its weight. -/
theorem hexValue_cons (character : Char) (body : List Char) : hexValue (character :: body)
    = (if character = '_' then 0 else digitValue character * 2 ^ (digitCount body * 4)) + hexValue body := by
  have general : ∀ (rest : List Char) (start : ℕ), rest.foldl (fun value character =>
      if character = '_' then value else 16 * value + digitValue character) start
      = start * 2 ^ (digitCount rest * 4) + hexValue rest := by
    intro rest
    induction rest with
    | nil => exact fun start => (mul_one start).symm
    | cons next rest ih =>
      intro start
      rw [hexValue, List.foldl_cons, List.foldl_cons, ih, ih, digitCount_cons]
      split
      next => rw [zero_mul, zero_add, add_zero]
      next =>
        rw [Nat.add_mul _ 1 4, pow_add]
        ring
  rw [hexValue, List.foldl_cons, general]
  split
  next => rw [zero_mul]
  next => rw [mul_zero, zero_add]

/-- Digits and underscores only, of a value that fits. -/
def Readable (W : ℕ) (body : List Char) : Prop :=
  (∀ character ∈ body, character = '_' ∨ IsHexDigit character) ∧ hexValue body < 2 ^ W

theorem hexValue_lt {body : List Char} (digits : ∀ character ∈ body, character = '_' ∨ IsHexDigit character) :
    hexValue body < 2 ^ (digitCount body * 4) := by
  induction body with
  | nil => exact Nat.one_pos
  | cons character rest ih =>
    have restBelow := ih fun other member => digits other (List.mem_cons_of_mem _ member)
    rw [hexValue_cons, digitCount_cons]
    rcases digits character List.mem_cons_self with underscore | digit
    · rw [if_pos underscore, if_pos underscore, zero_add, add_zero]
      exact restBelow
    · have other : character ≠ '_' := fun same => not_isHexDigit_underscore (same ▸ digit)
      have small := Nat.mul_le_mul_right (2 ^ (digitCount rest * 4))
        (Nat.succ_le_of_lt (digitValue_lt digit))
      rw [if_neg other, if_neg other, Nat.add_mul _ 1 4, pow_add]
      rw [Nat.succ_mul] at small
      omega

/-- The characters of a readable text give its digits and its value; another text is refused. -/
theorem scan_spec (W : ℕ) (body : List Char) :
    (Readable W body ∧ ∃ words, body.reverse.foldlM (scanCharacter W)
        { words := List.replicate (wordCount W) 0 }
        = .ok ⟨words, decide (0 < digitCount body), digitCount body⟩ ∧
      words.length = wordCount W ∧ wordsValue words = hexValue body) ∨
    (¬ Readable W body ∧ ∃ message, body.reverse.foldlM (scanCharacter W)
        { words := List.replicate (wordCount W) 0 } = .error (.fail message)) := by
  induction body with
  | nil =>
    refine .inl ⟨⟨fun _ member => absurd member List.not_mem_nil, Nat.two_pow_pos W⟩, _, rfl,
      List.length_replicate, wordsValue_replicate_zero _⟩
  | cons character rest ih =>
    rw [List.reverse_cons, List.foldlM_append]
    have tail : Readable W (character :: rest) → Readable W rest := fun ⟨digits, fits⟩ =>
      ⟨fun other member => digits other (List.mem_cons_of_mem _ member), by
        rw [hexValue_cons] at fits
        omega⟩
    rcases ih with ⟨readable, words, ran, size, value⟩ | ⟨unreadable, message, ran⟩
    · rw [ran]
      show (_ ∧ ∃ words', (scanCharacter W ⟨words, _, _⟩ character >>= pure) = .ok _ ∧ _) ∨
        (_ ∧ ∃ message, (scanCharacter W ⟨words, _, _⟩ character >>= pure) = .error (.fail message))
      rw [bind_pure, scanCharacter]
      by_cases underscore : character = '_'
      · have same : hexValue (character :: rest) = hexValue rest := by
          rw [hexValue_cons, if_pos underscore, zero_add]
        have count : digitCount (character :: rest) = digitCount rest := by
          rw [digitCount_cons, if_pos underscore, add_zero]
        rw [if_pos underscore, same, count]
        refine .inl ⟨⟨fun other member => ?_, same ▸ readable.2⟩, words, rfl, size, value⟩
        rcases List.mem_cons.mp member with rfl | later
        · exact .inl underscore
        · exact readable.1 other later
      · rw [if_neg underscore, hexDigit_eq]
        by_cases digit : IsHexDigit character
        · rw [if_pos digit]
          have small := digitValue_lt digit
          have sum : hexValue (character :: rest)
              = digitValue character * 2 ^ (digitCount rest * 4) + hexValue rest := by
            rw [hexValue_cons, if_neg underscore]
          have count : digitCount (character :: rest) = digitCount rest + 1 := by
            rw [digitCount_cons, if_neg underscore]
          have whole : digitValue character % 2 ^ 4 = digitValue character := Nat.mod_eq_of_lt small
          rcases placeBits_spec size (by rw [value]; exact hexValue_lt readable.1)
              (by rw [value]; exact readable.2) (digitValue character) 4 with
            ⟨room, words', placed, size', value'⟩ | ⟨full, message, refused⟩
          · rw [whole, value] at room value'
            refine .inl ⟨⟨fun other member => ?_, sum ▸ room⟩, words', ?_, size', value'.trans sum.symm⟩
            · rcases List.mem_cons.mp member with rfl | later
              · exact .inr digit
              · exact readable.1 other later
            · rw [count, decide_eq_true (Nat.succ_pos _)]
              simp only [bind, Except.bind]
              rw [placed]
              rfl
          · rw [whole] at full
            refine .inr ⟨fun ⟨_, fits⟩ => ?_, message, ?_⟩
            · rw [sum] at fits
              omega
            · simp only [bind, Except.bind]
              rw [refused]
        · rw [if_neg digit]
          refine .inr ⟨fun ⟨digits, _⟩ => ?_, _, rfl⟩
          exact (digits character List.mem_cons_self).elim underscore digit
    · rw [ran]
      exact .inr ⟨fun readable => unreadable (tail readable), message, rfl⟩

end Digits

section Prefix

variable {text : List Char}

/-- The text after the prefix is what `from_hex` reads. -/
theorem hexText_iff {value : ℕ} : HexText text value ↔
    (∀ character ∈ text.drop (hexBegin text), character = '_' ∨ IsHexDigit character) ∧
    (∃ character ∈ text.drop (hexBegin text), IsHexDigit character) ∧
    hexValue (text.drop (hexBegin text)) = value := by
  constructor
  · rintro ⟨body, form, digits, some, rfl⟩
    have read : text.drop (hexBegin text) = body := by
      rcases form with rfl | rfl | rfl
      · -- an `x` is no digit, so there is no prefix
        refine congrArg (text.drop ·) (if_neg ?_)
        rintro ⟨-, -, second | second⟩ <;>
          exact absurd (digits _ (List.mem_of_getElem? second)) (by decide +kernel)
      · rfl
      · rfl
    rw [read]
    exact ⟨digits, some, rfl⟩
  · rintro ⟨digits, some, value⟩
    refine ⟨text.drop (hexBegin text), ?_, digits, some, value⟩
    unfold hexBegin
    split
    next has =>
      obtain ⟨-, first, second⟩ := has
      obtain _ | ⟨zero, _ | ⟨mark, rest⟩⟩ := text
      · cases first
      · simp at second
      · simp only [List.getElem?_cons_zero, List.getElem?_cons_succ, Option.some.injEq] at first second
        rcases second with rfl | rfl
        · exact .inr (.inl (by rw [first]; rfl))
        · exact .inr (.inr (by rw [first]; rfl))
    next => exact .inl rfl

/-- A text has digits when it counts one. -/
theorem digitCount_pos {body : List Char} (digits : ∀ character ∈ body, character = '_' ∨ IsHexDigit character) :
    0 < digitCount body ↔ ∃ character ∈ body, IsHexDigit character := by
  rw [digitCount, List.countP_pos_iff]
  refine exists_congr fun character => and_congr_right fun member => ?_
  rw [decide_eq_true_eq]
  refine ⟨fun other => (digits character member).resolve_left other, fun digit same => ?_⟩
  exact not_isHexDigit_underscore (same ▸ digit)

/-- `from_hex` returns the value of a text that fits, and refuses another text. -/
theorem fromHex_spec {W : ℕ} (positive : 0 < W) (text : List Char) :
    (∃ value < 2 ^ W, HexText text value ∧ ∃ bits : Bits W, fromHex W text = .ok bits.words ∧
      bits.toNat = value) ∨
    ((¬ ∃ value < 2 ^ W, HexText text value) ∧ ∃ message, fromHex W text = .error (.fail message)) := by
  unfold fromHex
  rcases scan_spec W (text.drop (hexBegin text)) with
    ⟨readable, words, ran, size, value⟩ | ⟨unreadable, message, ran⟩
  · rw [ran]
    simp only [bind, Except.bind]
    by_cases digit : 0 < digitCount (text.drop (hexBegin text))
    · have masked := wordsValue_maskPadding positive words size
      have same : wordsValue (maskPadding W words) = hexValue (text.drop (hexBegin text)) := by
        rw [masked, value, Nat.mod_eq_of_lt readable.2]
      refine .inl ⟨_, readable.2, hexText_iff.mpr ⟨readable.1, (digitCount_pos readable.1).mp digit, rfl⟩,
        Bits.fromWords positive words size, ?_, same⟩
      rw [decide_eq_true digit]
      rfl
    · rw [decide_eq_false digit]
      refine .inr ⟨?_, _, rfl⟩
      rintro ⟨_, _, accepted⟩
      exact digit ((digitCount_pos readable.1).mpr (hexText_iff.mp accepted).2.1)
  · rw [ran]
    refine .inr ⟨?_, message, rfl⟩
    rintro ⟨_, fits, accepted⟩
    obtain ⟨digits, -, rfl⟩ := hexText_iff.mp accepted
    exact unreadable ⟨digits, fits⟩

theorem HexText.unique {value value' : ℕ} (first : HexText text value) (second : HexText text value') :
    value = value' :=
  (hexText_iff.mp first).2.2.symm.trans (hexText_iff.mp second).2.2

end Prefix

section Printing

variable {W : ℕ}

/-- The digit of a number below 16. -/
def hexChar (nibble : ℕ) : Char := kHexDigits.getD nibble '0'

theorem hexChar_spec {nibble : ℕ} (small : nibble < 16) :
    IsHexDigit (hexChar nibble) ∧ digitValue (hexChar nibble) = nibble := by
  have table : ∀ nibble : Fin 16, IsHexDigit (hexChar nibble) ∧ digitValue (hexChar nibble) = nibble := by
    decide +kernel
  exact table ⟨nibble, small⟩

theorem hexChar_ne_underscore {nibble : ℕ} (small : nibble < 16) : hexChar nibble ≠ '_' := fun same =>
  not_isHexDigit_underscore (same ▸ (hexChar_spec small).1)

/-- The loop over the bits gathers the low bits from a position on. -/
theorem gatherBits_eq (value : Bits W) {lsb k : ℕ} (inside : lsb + k ≤ W) :
    (List.range k).foldlM (gatherBit value lsb) 0 = .ok ((value.toNat >>> lsb) % 2 ^ k) := by
  induction k with
  | zero =>
    rw [pow_zero, Nat.mod_one]
    rfl
  | succ k ih =>
    have below := Nat.mod_lt (value.toNat >>> lsb) (Nat.two_pow_pos k)
    have sum := Nat.two_pow_add_eq_or_of_lt below 1
    rw [mul_one] at sum
    rw [List.range_succ, List.foldlM_append, ih (by omega), mod_two_pow_succ, Nat.testBit_shiftRight]
    show (gatherBit value lsb _ k >>= pure) = _
    rw [bind_pure, gatherBit, value.bit_eq (by omega)]
    simp only [bind, Except.bind]
    show (if value.toNat.testBit (lsb + k) = true then _ else _) = _
    split
    next =>
      rw [Nat.one_shiftLeft, Nat.or_comm, Nat.add_comm, sum]
      rfl
    next => rfl

/-- A printed digit is the one of its four bits. -/
theorem formatDigit_eq (value : Bits W) (digit : ℕ) :
    formatDigit value digit = pure (hexChar ((value.toNat >>> (digit * 4)) % 16)) := by
  have nibble : (List.range (min 4 (W - digit * 4))).foldlM (gatherBit value (digit * 4)) 0
      = .ok ((value.toNat >>> (digit * 4)) % 16) := by
    rcases Nat.le_total (digit * 4) W with inside | outside
    · rw [gatherBits_eq value (by omega)]
      rcases Nat.le_total 4 (W - digit * 4) with whole | part
      · rw [Nat.min_eq_left whole]
        rfl
      · -- the last digit has fewer bits, and the value has none above them
        have small : value.toNat >>> (digit * 4) < 2 ^ (W - digit * 4) := by
          rw [Nat.shiftRight_eq_div_pow]
          refine Nat.div_lt_of_lt_mul ?_
          rw [← pow_add, Nat.add_sub_cancel' inside]
          exact value.toNat_lt
        have small' := small.trans_le (Nat.pow_le_pow_right (show 0 < 2 by decide) part)
        rw [Nat.min_eq_right part, Nat.mod_eq_of_lt small, Nat.mod_eq_of_lt small']
    · have none : value.toNat >>> (digit * 4) = 0 := by
        rw [Nat.shiftRight_eq_div_pow]
        exact Nat.div_eq_of_lt
          (value.toNat_lt.trans_le (Nat.pow_le_pow_right (by decide) outside))
      rw [none, Nat.sub_eq_zero_of_le outside]
      rfl
  have found : kHexDigits[(value.toNat >>> (digit * 4)) % 16]?
      = some (hexChar ((value.toNat >>> (digit * 4)) % 16)) := by
    have small : (value.toNat >>> (digit * 4)) % 16 < kHexDigits.length := Nat.mod_lt _ (by decide)
    rw [hexChar, List.getD_eq_getElem _ _ small, List.getElem?_eq_getElem small]
  rw [formatDigit]
  simp only [nibble, bind, Except.bind, found]

/-- The printed digits. -/
def printedDigits (value : Bits W) : List Char :=
  (List.range ((W + 3) / 4)).reverse.map fun digit => hexChar ((value.toNat >>> (digit * 4)) % 16)

theorem formatBits_eq (value : Bits W) :
    formatBits value = .ok ((toString W).toList ++ "'h".toList ++ printedDigits value) := by
  have digits : formatDigit value = fun digit =>
      (pure (hexChar ((value.toNat >>> (digit * 4)) % 16)) : Except Fault Char) :=
    funext (formatDigit_eq value)
  rw [formatBits, digits, List.mapM_pure]
  rfl

/-- The digits of a number stand for it. -/
theorem hexValue_digits (number n : ℕ) :
    hexValue ((List.range n).reverse.map fun digit => hexChar ((number >>> (digit * 4)) % 16))
        = number % 2 ^ (n * 4) ∧
      digitCount ((List.range n).reverse.map fun digit => hexChar ((number >>> (digit * 4)) % 16)) = n := by
  induction n with
  | zero =>
    rw [Nat.zero_mul, pow_zero, Nat.mod_one]
    exact ⟨rfl, rfl⟩
  | succ n ih =>
    have small : number >>> (n * 4) % 16 < 16 := Nat.mod_lt _ (by decide)
    have other := hexChar_ne_underscore small
    rw [List.range_succ, List.reverse_append, List.reverse_singleton, List.singleton_append,
      List.map_cons, hexValue_cons, digitCount_cons, if_neg other, if_neg other, ih.1, ih.2,
      (hexChar_spec small).2, Nat.shiftRight_eq_div_pow,
      show (n + 1) * 4 = n * 4 + 4 by omega, pow_add, Nat.mod_mul]
    refine ⟨?_, rfl⟩
    show _ = number % 2 ^ (n * 4) + 2 ^ (n * 4) * (number / 2 ^ (n * 4) % 16)
    ring

end Printing

/-- **`from_hex` accepts exactly its format and returns the value, and reads back what `format_bits`
prints.** It refuses another text by `fail`, and reads or writes no word outside the array. -/
theorem from_hex_exact :
    (∀ (W : ℕ), 0 < W → ∀ text : List Char,
      ((∃ words, fromHex W text = .ok words) ↔ ∃ value < 2 ^ W, HexText text value) ∧
      (∀ value < 2 ^ W, HexText text value → ∃ bits : Bits W, fromHex W text = .ok bits.words ∧
        bits.toNat = value) ∧
      ∀ fault, fromHex W text = .error fault → ∃ message, fault = .fail message) ∧
    ∀ (W : ℕ), 0 < W → ∀ bits : Bits W, ∃ digits,
      formatBits bits = .ok ((toString W).toList ++ "'h".toList ++ digits) ∧
      fromHex W digits = .ok bits.words := by
  refine ⟨fun W positive text => ?_, fun W positive bits => ⟨printedDigits bits, formatBits_eq bits, ?_⟩⟩
  · rcases fromHex_spec positive text with
      ⟨value, fits, accepted, bits, parsed, isValue⟩ | ⟨refused, message, failed⟩
    · refine ⟨⟨fun _ => ⟨value, fits, accepted⟩, fun _ => ⟨_, parsed⟩⟩, fun other _ accepted' => ?_,
        fun fault failed => ?_⟩
      · exact ⟨bits, parsed, isValue.trans (accepted.unique accepted')⟩
      · rw [parsed] at failed
        cases failed
    · refine ⟨⟨fun ⟨words, parsed⟩ => ?_, fun accepted => absurd accepted refused⟩,
        fun value fits accepted => absurd ⟨value, fits, accepted⟩ refused, fun fault failed' => ?_⟩
      · rw [failed] at parsed
        cases parsed
      · rw [failed] at failed'
        exact ⟨message, (Except.error.inj failed').symm⟩
  · have digits : ∀ character ∈ printedDigits bits, IsHexDigit character := fun character member => by
      obtain ⟨digit, -, rfl⟩ := List.mem_map.mp member
      exact (hexChar_spec (Nat.mod_lt _ (by decide))).1
    obtain ⟨value, count⟩ := hexValue_digits bits.toNat ((W + 3) / 4)
    have valid : ∀ character ∈ printedDigits bits, character = '_' ∨ IsHexDigit character :=
      fun character member => .inr (digits character member)
    have accepted : HexText (printedDigits bits) bits.toNat := by
      refine ⟨printedDigits bits, .inl rfl, valid, (digitCount_pos valid).mp ?_, ?_⟩
      · rw [printedDigits, count]
        omega
      · refine value.trans (Nat.mod_eq_of_lt (bits.toNat_lt.trans_le ?_))
        exact Nat.pow_le_pow_right (by decide) (by omega)
    rcases fromHex_spec positive (printedDigits bits) with
      ⟨value', _, accepted', bits', parsed, isValue⟩ | ⟨refused, -⟩
    · have same : bits' = bits := Bits.ext_test fun i => by
        rw [Bits.test, Bits.test, isValue, accepted'.unique accepted]
      rw [parsed, same]
    · exact absurd ⟨bits.toNat, bits.toNat_lt, accepted⟩ refused

end Cpptb.FixedPoint
