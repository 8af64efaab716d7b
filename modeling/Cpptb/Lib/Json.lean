/-
JSON texts that are assembled by hand.

* `parse`: a parser of JSON texts, as bytes. Its numbers are integers, without fraction or exponent, and
  its `\u` escapes are those of ASCII: it accepts no text that is not JSON.
* `Body`, `literal_of_body`: the inside of a string literal, and that it reads back.
* `Reads`: a text that is read as a value wherever it stands.
* `reads_array`, `reads_object`: arrays and objects whose elements are put together with commas and white
  space.
* `get_of_member`: the member of a name.
-/

import Mathlib

namespace Cpptb.Json

/-- Bytes. -/
abbrev Text := List UInt8

/-- The bytes of an ASCII text. -/
def ascii (text : String) : Text := text.toList.map fun character => UInt8.ofNat character.toNat

theorem ascii_append (first second : String) : ascii (first ++ second) = ascii first ++ ascii second := by
  simp only [ascii, String.toList_append, List.map_append]

/-- Adjacent fragments. -/
theorem ascii_merge (first second : String) (rest : Text) :
    ascii first ++ (ascii second ++ rest) = ascii (first ++ second) ++ rest := by
  rw [ascii_append, List.append_assoc]

/-- A JSON value. The members of an object keep their order. -/
inductive Value where
  | null
  | boolean (value : Bool)
  | number (value : ℤ)
  | string (bytes : Text)
  | array (elements : List Value)
  | object (members : List (Text × Value))

/-! ### The parser -/

section Parser

def quote : UInt8 := 0x22
def backslash : UInt8 := 0x5c
def comma : UInt8 := 0x2c
def colon : UInt8 := 0x3a
def minus : UInt8 := 0x2d
def openBracket : UInt8 := 0x5b
def closeBracket : UInt8 := 0x5d
def openBrace : UInt8 := 0x7b
def closeBrace : UInt8 := 0x7d

/-- The letter of an escape by code. -/
def letterU : UInt8 := 0x75

def isSpace (byte : UInt8) : Bool := byte = 0x20 || byte = 0x0a || byte = 0x0d || byte = 0x09

/-- What is behind the white space. -/
def skip (text : Text) : Text := text.dropWhile isSpace

/-- The value of a hexadecimal digit. -/
def hexValue (digit : UInt8) : Option ℕ :=
  if 0x30 ≤ digit ∧ digit ≤ 0x39 then some (digit.toNat - 0x30)
  else if 0x61 ≤ digit ∧ digit ≤ 0x66 then some (digit.toNat - 0x57)
  else if 0x41 ≤ digit ∧ digit ≤ 0x46 then some (digit.toNat - 0x37)
  else none

/-- The byte of an escape by code. -/
def codeUnit (a b c d : UInt8) : Option UInt8 := do
  let code := (((← hexValue a) * 16 + (← hexValue b)) * 16 + (← hexValue c)) * 16 + (← hexValue d)
  if code < 0x80 then some (UInt8.ofNat code) else none

/-- The byte of an escape by letter. -/
def unescape (kind : UInt8) : Option UInt8 :=
  if kind = quote ∨ kind = backslash ∨ kind = 0x2f then some kind
  else if kind = 0x62 then some 0x08
  else if kind = 0x66 then some 0x0c
  else if kind = 0x6e then some 0x0a
  else if kind = 0x72 then some 0x0d
  else if kind = 0x74 then some 0x09
  else none

/-- The bytes of a string literal behind its opening quote, and what follows it. -/
def literal : Text → Option (Text × Text)
  | [] => none
  | byte :: rest =>
    if byte = quote then some ([], rest)
    else if byte = backslash then
      match rest with
      | [] => none
      | kind :: rest =>
        if kind = letterU then
          match rest with
          | a :: b :: c :: d :: rest =>
            (codeUnit a b c d).bind fun byte =>
              (literal rest).map fun found => (byte :: found.1, found.2)
          | _ => none
        else (unescape kind).bind fun byte =>
          (literal rest).map fun found => (byte :: found.1, found.2)
    else if byte < 0x20 then none
    else (literal rest).map fun found => (byte :: found.1, found.2)

def isDigit (byte : UInt8) : Bool := 0x30 ≤ byte && byte ≤ 0x39

/-- A natural number, without leading zeros. -/
def natural (text : Text) : Option (ℕ × Text) :=
  let digits := text.takeWhile isDigit
  if digits = [] ∨ (digits.head? = some 0x30 ∧ 1 < digits.length) then none
  else some (digits.foldl (fun value digit => value * 10 + (digit.toNat - 0x30)) 0,
    text.dropWhile isDigit)

def number : Text → Option (ℤ × Text)
  | [] => none
  | head :: rest =>
    if head = minus then (natural rest).map fun found => (-(found.1 : ℤ), found.2)
    else (natural (head :: rest)).map fun found => ((found.1 : ℤ), found.2)

def keyword (word : String) (value : Value) (text : Text) : Option (Value × Text) :=
  if (ascii word).isPrefixOf text then some (value, text.drop (ascii word).length) else none

/-- A value that is no string, array or object. -/
def atom (text : Text) : Option (Value × Text) :=
  keyword "null" .null text <|> keyword "true" (.boolean true) text <|>
    keyword "false" (.boolean false) text <|>
      (number text).map fun found => (.number found.1, found.2)

mutual

/-- A value and what follows it. No text needs more fuel than it has bytes. -/
def value : ℕ → Text → Option (Value × Text)
  | 0, _ => none
  | fuel + 1, text =>
    match skip text with
    | [] => none
    | head :: rest =>
      if head = quote then (literal rest).map fun found => (.string found.1, found.2)
      else if head = openBracket then
        if (skip rest).head? = some closeBracket then some (.array [], (skip rest).tail)
        else (elements fuel rest).map fun found => (.array found.1, found.2)
      else if head = openBrace then
        if (skip rest).head? = some closeBrace then some (.object [], (skip rest).tail)
        else (members fuel rest).map fun found => (.object found.1, found.2)
      else atom (head :: rest)

/-- The elements of an array, up to its closing bracket. -/
def elements : ℕ → Text → Option (List Value × Text)
  | 0, _ => none
  | fuel + 1, text =>
    (value fuel text).bind fun first =>
      match skip first.2 with
      | [] => none
      | head :: rest =>
        if head = comma then (elements fuel rest).map fun found => (first.1 :: found.1, found.2)
        else if head = closeBracket then some ([first.1], rest)
        else none

/-- The members of an object, up to its closing brace. -/
def members : ℕ → Text → Option (List (Text × Value) × Text)
  | 0, _ => none
  | fuel + 1, text =>
    match skip text with
    | [] => none
    | head :: rest =>
      if head = quote then
        (literal rest).bind fun name =>
          match skip name.2 with
          | [] => none
          | head :: rest =>
            if head = colon then
              (value fuel rest).bind fun first =>
                match skip first.2 with
                | [] => none
                | head :: rest =>
                  if head = comma then
                    (members fuel rest).map fun found => ((name.1, first.1) :: found.1, found.2)
                  else if head = closeBrace then some ([(name.1, first.1)], rest)
                  else none
            else none
      else none

end

/-- The value of a whole text. -/
def parse (text : Text) : Option Value :=
  (value text.length text).bind fun found => if skip found.2 = [] then some found.1 else none

end Parser

/-! ### String literals -/

section Literals

/-- The inside of a literal of some bytes: printable bytes, and escapes. -/
inductive Body : Text → Text → Prop
  | nil : Body [] []
  | raw {byte : UInt8} {bytes text : Text} (printable : 0x20 ≤ byte) (noQuote : byte ≠ quote)
      (noBackslash : byte ≠ backslash) (rest : Body bytes text) : Body (byte :: bytes) (byte :: text)
  | escape {kind byte : UInt8} {bytes text : Text} (letter : kind ≠ letterU)
      (known : unescape kind = some byte) (rest : Body bytes text) :
      Body (byte :: bytes) (backslash :: kind :: text)
  | code {a b c d byte : UInt8} {bytes text : Text} (known : codeUnit a b c d = some byte)
      (rest : Body bytes text) : Body (byte :: bytes) (backslash :: letterU :: a :: b :: c :: d :: text)

/-- **A literal reads back.** -/
theorem literal_of_body {bytes text : Text} (body : Body bytes text) (rest : Text) :
    literal (text ++ quote :: rest) = some (bytes, rest) := by
  induction body with
  | nil =>
    rw [List.nil_append, literal.eq_def]
    rfl
  | raw printable noQuote noBackslash _ ih =>
    rw [List.cons_append, literal.eq_def]
    simp only [if_neg noQuote, if_neg noBackslash, if_neg (UInt8.not_lt.mpr printable), ih,
      Option.map_some]
  | escape letter known _ ih =>
    rw [List.cons_append, List.cons_append, literal.eq_def]
    have other : backslash ≠ quote := by decide
    simp only [if_neg other, if_true, if_neg letter, known, Option.bind_some, ih, Option.map_some]
  | code known _ ih =>
    simp only [List.cons_append]
    rw [literal.eq_def]
    have other : backslash ≠ quote := by decide
    simp only [if_neg other, if_true, known, Option.bind_some, ih, Option.map_some]

/-- What holds of the 256 bytes holds of every byte. -/
theorem forall_byte {P : UInt8 → Prop} (all : ∀ n < 256, P (UInt8.ofNat n)) (byte : UInt8) :
    P byte := by
  have one := all byte.toNat byte.toNat_lt
  rwa [UInt8.ofNat_toNat] at one

theorem hexValue_printable {digit : UInt8} {value : ℕ} (known : hexValue digit = some value) :
    0x20 ≤ digit := by
  have all : ∀ n < 256, (hexValue (UInt8.ofNat n)).isSome = true → 0x20 ≤ UInt8.ofNat n := by
    decide +kernel
  exact @forall_byte (fun digit => (hexValue digit).isSome = true → 0x20 ≤ digit) all digit
    (Option.isSome_of_eq_some known)

theorem unescape_printable {kind byte : UInt8} (known : unescape kind = some byte) :
    0x20 ≤ kind := by
  have all : ∀ n < 256, (unescape (UInt8.ofNat n)).isSome = true → 0x20 ≤ UInt8.ofNat n := by
    decide +kernel
  exact @forall_byte (fun kind => (unescape kind).isSome = true → 0x20 ≤ kind) all kind
    (Option.isSome_of_eq_some known)

/-- The inside of a literal has no control byte. -/
theorem Body.printable {bytes text : Text} (body : Body bytes text) : ∀ byte ∈ text, 0x20 ≤ byte := by
  induction body with
  | nil => nofun
  | raw printable _ _ _ ih =>
    exact List.forall_mem_cons.mpr ⟨printable, ih⟩
  | escape _ known _ ih =>
    exact List.forall_mem_cons.mpr
      ⟨by decide, List.forall_mem_cons.mpr ⟨unescape_printable known, ih⟩⟩
  | @code a b c d _ _ _ known _ ih =>
    unfold codeUnit at known
    simp only [Option.bind_eq_bind, Option.bind_eq_some_iff] at known
    obtain ⟨_, first, _, second, _, third, _, fourth, -⟩ := known
    simp only [List.forall_mem_cons]
    exact ⟨by decide, by decide, hexValue_printable first, hexValue_printable second,
      hexValue_printable third, hexValue_printable fourth, ih⟩

/-- A name of printable ASCII characters that need no escape. -/
def plain (name : String) : Bool := name.toList.all fun character =>
  0x20 ≤ character.toNat && character.toNat < 0x80 && character.toNat != 0x22 &&
    character.toNat != 0x5c

/-- A plain name is its own literal. -/
theorem body_ascii {name : String} (isPlain : plain name = true) : Body (ascii name) (ascii name) := by
  unfold plain at isPlain
  unfold ascii
  generalize name.toList = characters at isPlain ⊢
  induction characters with
  | nil => exact .nil
  | cons character rest ih =>
    rw [List.all_cons, Bool.and_eq_true] at isPlain
    obtain ⟨here, later⟩ := isPlain
    simp only [Bool.and_eq_true, decide_eq_true_eq, bne_iff_ne] at here
    obtain ⟨⟨⟨low, high⟩, noQuote⟩, noBackslash⟩ := here
    have value : (UInt8.ofNat character.toNat).toNat = character.toNat :=
      UInt8.toNat_ofNat_of_lt' (show character.toNat < 2 ^ 8 by omega)
    refine .raw (UInt8.le_iff_toNat_le.mpr (value ▸ low)) (fun same => noQuote ?_)
      (fun same => noBackslash ?_) (ih later)
    · exact value.symm.trans (congrArg UInt8.toNat same)
    · exact value.symm.trans (congrArg UInt8.toNat same)

end Literals

/-! ### Numbers -/

section Numbers

/-- The decimal digits of a number, most significant first. -/
def decimal (n : ℕ) : Text :=
  if n = 0 then ascii "0" else ((Nat.digits 10 n).reverse.map fun digit => UInt8.ofNat (0x30 + digit))

def integer (z : ℤ) : Text := if z < 0 then minus :: decimal z.natAbs else decimal z.natAbs

/-- What may follow a number. -/
def Stops (rest : Text) : Prop := ∀ head ∈ rest.head?, isDigit head = false

theorem span_stops {digits rest : Text} (all : ∀ digit ∈ digits, isDigit digit = true)
    (stops : Stops rest) : (digits ++ rest).takeWhile isDigit = digits ∧
      (digits ++ rest).dropWhile isDigit = rest := by
  have none' : rest.takeWhile isDigit = [] ∧ rest.dropWhile isDigit = rest := by
    cases rest with
    | nil => exact ⟨rfl, rfl⟩
    | cons head later =>
      have other := stops head rfl
      rw [List.takeWhile_cons, List.dropWhile_cons, other]
      exact ⟨rfl, rfl⟩
  rw [List.takeWhile_append_of_pos all, List.dropWhile_append_of_pos all, none'.1, none'.2,
    List.append_nil]
  exact ⟨rfl, rfl⟩

/-- A digit of a number as a byte. -/
theorem digit_byte {digit : ℕ} (small : digit < 10) : isDigit (UInt8.ofNat (0x30 + digit)) = true ∧
    (UInt8.ofNat (0x30 + digit)).toNat - 0x30 = digit ∧
    (UInt8.ofNat (0x30 + digit) = 0x30 → digit = 0) := by
  have all : ∀ digit < 10, isDigit (UInt8.ofNat (0x30 + digit)) = true ∧
      (UInt8.ofNat (0x30 + digit)).toNat - 0x30 = digit ∧
      (UInt8.ofNat (0x30 + digit) = 0x30 → digit = 0) := by decide
  exact all digit small

/-- The digits of a number, folded up again. -/
theorem foldl_digits {digits : List ℕ} (small : ∀ digit ∈ digits, digit < 10) :
    (digits.reverse.map fun digit => UInt8.ofNat (0x30 + digit)).foldl
      (fun value digit => value * 10 + (digit.toNat - 0x30)) 0 = Nat.ofDigits 10 digits := by
  induction digits with
  | nil => rfl
  | cons digit rest ih =>
    rw [List.reverse_cons, List.map_append, List.foldl_append,
      ih fun other member => small other (List.mem_cons_of_mem _ member), List.map_singleton,
      List.foldl_cons, List.foldl_nil, (digit_byte (small digit List.mem_cons_self)).2.1,
      Nat.ofDigits_cons]
    ring

theorem isDigit_decimal (n : ℕ) : ∀ digit ∈ decimal n, isDigit digit = true := by
  by_cases zero : n = 0
  · rw [decimal, if_pos zero]
    decide +kernel
  · rw [decimal, if_neg zero]
    intro byte member
    obtain ⟨digit, inside, rfl⟩ := List.mem_map.mp member
    exact (digit_byte (Nat.digits_lt_base (by decide) (List.mem_reverse.mp inside))).1

/-- **A decimal number reads back.** -/
theorem natural_decimal (n : ℕ) {rest : Text} (stops : Stops rest) :
    natural (decimal n ++ rest) = some (n, rest) := by
  have digits : decimal n ≠ [] ∧ ¬((decimal n).head? = some 0x30 ∧ 1 < (decimal n).length) ∧
      (decimal n).foldl (fun value digit => value * 10 + (digit.toNat - 0x30)) 0 = n := by
    by_cases zero : n = 0
    · rw [decimal, if_pos zero, zero]
      decide +kernel
    · have small : ∀ digit ∈ Nat.digits 10 n, digit < 10 := fun digit => Nat.digits_lt_base (by decide)
      rw [decimal, if_neg zero]
      refine ⟨?_, ?_, ?_⟩
      · rw [Ne, List.map_eq_nil_iff, List.reverse_eq_nil_iff, Nat.digits_eq_nil_iff_eq_zero]
        exact zero
      · rintro ⟨leading, -⟩
        rw [List.head?_map, List.head?_reverse, Option.map_eq_some_iff] at leading
        obtain ⟨digit, last, byte⟩ := leading
        have none' : Nat.digits 10 n ≠ [] := Nat.digits_ne_nil_iff_ne_zero.mpr zero
        rw [List.getLast?_eq_some_getLast none', Option.some.injEq] at last
        have small' := small _ (List.getLast_mem none')
        rw [last] at small'
        exact Nat.getLast_digit_ne_zero 10 zero (last.trans ((digit_byte small').2.2 byte))
      · rw [foldl_digits small, Nat.ofDigits_digits]
  obtain ⟨nonempty, leading, value⟩ := digits
  unfold natural
  obtain ⟨taken, dropped⟩ := span_stops (isDigit_decimal n) stops
  simp only [taken, dropped, value]
  rw [if_neg (not_or.mpr ⟨nonempty, leading⟩)]

theorem decimal_digits (n : ℕ) : ∃ head rest, decimal n = head :: rest ∧ isDigit head = true := by
  cases found : decimal n with
  | nil =>
    have back := @natural_decimal n [] nofun
    rw [found] at back
    cases back
  | cons head rest => exact ⟨head, rest, rfl, isDigit_decimal n head (found ▸ List.mem_cons_self)⟩

/-- An integer reads back. -/
theorem number_integer (z : ℤ) {rest : Text} (stops : Stops rest) :
    number (integer z ++ rest) = some (z, rest) := by
  unfold integer
  by_cases negative : z < 0
  · rw [if_pos negative, List.cons_append, number, if_pos rfl, natural_decimal _ stops,
      Option.map_some]
    congr 2
    omega
  · have back := natural_decimal z.natAbs stops
    obtain ⟨head, later, first, isDigit⟩ := decimal_digits z.natAbs
    have other : head ≠ minus := by
      rintro rfl
      exact absurd isDigit (by decide)
    rw [if_neg negative]
    rw [first, List.cons_append] at back ⊢
    rw [number, if_neg other, back, Option.map_some]
    congr 2
    omega

end Numbers

/-! ### Texts that are read as a value -/

section Reading

/-- White space. -/
def Blank (space : Text) : Prop := ∀ byte ∈ space, isSpace byte = true

instance (space : Text) : Decidable (Blank space) := inferInstanceAs (Decidable (∀ _ ∈ _, _))

/-- A text that is read as a value, before anything that does not go on with a number. -/
def Reads (v : Value) (text : Text) : Prop :=
  ∀ fuel rest, text.length ≤ fuel → Stops rest → value fuel (text ++ rest) = some (v, rest)

/-- Elements up to the closing bracket. -/
def ReadsElements (vs : List Value) (text : Text) : Prop :=
  ∀ fuel rest, text.length < fuel → elements fuel (text ++ closeBracket :: rest) = some (vs, rest)

/-- Members up to the closing brace. -/
def ReadsMembers (ms : List (Text × Value)) (text : Text) : Prop :=
  ∀ fuel rest, text.length < fuel → members fuel (text ++ closeBrace :: rest) = some (ms, rest)

theorem skip_blank {space : Text} (blank : Blank space) (rest : Text) :
    skip (space ++ rest) = skip rest :=
  List.dropWhile_append_of_pos blank

theorem skip_cons {head : UInt8} (other : isSpace head = false) (rest : Text) :
    skip (head :: rest) = head :: rest := by
  rw [skip, List.dropWhile_cons, other]
  rfl

/-- A byte that is not a digit stops a number. -/
theorem stops_cons {head : UInt8} (other : isDigit head = false) (rest : Text) :
    Stops (head :: rest) := by
  rintro _ ⟨⟩
  exact other

theorem stops_blank {space : Text} (blank : Blank space) {rest : Text} (stops : Stops rest) :
    Stops (space ++ rest) := by
  cases space with
  | nil => exact stops
  | cons head later =>
    refine stops_cons ?_ _
    have white := blank head List.mem_cons_self
    by_contra digit
    unfold isSpace isDigit at *
    simp only [Bool.not_eq_false, Bool.and_eq_true, Bool.or_eq_true, decide_eq_true_eq] at digit white
    rcases white with ((rfl | rfl) | rfl) | rfl <;> exact absurd digit.1 (by decide)

theorem value_skip (fuel : ℕ) {space : Text} (blank : Blank space) (text : Text) :
    value fuel (space ++ text) = value fuel text := by
  cases fuel with
  | zero => rfl
  | succ fuel =>
    rw [value, value, skip_blank blank]

theorem reads_blank {space text : Text} {v : Value} (blank : Blank space) (reads : Reads v text) :
    Reads v (space ++ text) := by
  intro fuel rest enough stops
  rw [List.length_append] at enough
  rw [List.append_assoc, value_skip fuel blank]
  exact reads fuel rest (by omega) stops

/-- A byte that begins an atom. -/
def BeginsAtom (head : UInt8) : Prop :=
  isSpace head = false ∧ head ≠ quote ∧ head ≠ openBracket ∧ head ≠ openBrace

instance (head : UInt8) : Decidable (BeginsAtom head) := inferInstanceAs (Decidable (_ ∧ _))

theorem reads_atom {head : UInt8} {later : Text} {v : Value} (begins : BeginsAtom head)
    (known : ∀ rest, Stops rest → atom (head :: later ++ rest) = some (v, rest)) :
    Reads v (head :: later) := by
  intro fuel rest enough stops
  obtain ⟨noSpace, noQuote, noBracket, noBrace⟩ := begins
  cases fuel with
  | zero => exact absurd enough (by simp)
  | succ fuel =>
    rw [value, List.cons_append, skip_cons noSpace]
    simp only [if_neg noQuote, if_neg noBracket, if_neg noBrace]
    exact known rest stops

theorem keyword_here (word : String) (v : Value) (rest : Text) :
    keyword word v (ascii word ++ rest) = some (v, rest) := by
  rw [keyword, if_pos (List.isPrefixOf_iff_prefix.mpr (List.prefix_append _ _)), List.drop_left]

theorem keyword_other {word : String} {v : Value} {head : UInt8} {rest : Text}
    (other : (ascii word).head? ≠ some head) (nonempty : ascii word ≠ []) :
    keyword word v (head :: rest) = none := by
  refine if_neg fun isPrefix => ?_
  cases letters : ascii word with
  | nil => exact nonempty letters
  | cons first more =>
    rw [letters, List.isPrefixOf, Bool.and_eq_true, beq_iff_eq] at isPrefix
    rw [letters, isPrefix.1] at other
    exact other rfl

theorem reads_null : Reads .null (ascii "null") :=
  reads_atom (by decide) fun rest _ => by
    have here := keyword_here "null" .null rest
    change atom (ascii "null" ++ rest) = _
    rw [atom, here]
    rfl

theorem reads_boolean (b : Bool) : Reads (.boolean b) (ascii (if b then "true" else "false")) := by
  cases b with
  | true =>
    refine reads_atom (by decide) fun rest _ => ?_
    have here := keyword_here "true" (.boolean true) rest
    have other : keyword "null" .null (ascii "true" ++ rest) = none :=
      keyword_other (by decide) (by decide)
    change atom (ascii "true" ++ rest) = _
    rw [atom, other, here]
    rfl
  | false =>
    refine reads_atom (by decide) fun rest _ => ?_
    have here := keyword_here "false" (.boolean false) rest
    have other : keyword "null" .null (ascii "false" ++ rest) = none :=
      keyword_other (by decide) (by decide)
    have other' : keyword "true" (.boolean true) (ascii "false" ++ rest) = none :=
      keyword_other (by decide) (by decide)
    change atom (ascii "false" ++ rest) = _
    rw [atom, other, other', here]
    rfl

/-- A byte that begins a number. -/
theorem begins_number {head : UInt8} (begins : isDigit head = true ∨ head = minus) :
    BeginsAtom head ∧ (ascii "null").head? ≠ some head ∧ (ascii "true").head? ≠ some head ∧
      (ascii "false").head? ≠ some head := by
  have all : ∀ n < 256, (isDigit (UInt8.ofNat n) = true ∨ UInt8.ofNat n = minus) →
      BeginsAtom (UInt8.ofNat n) ∧ (ascii "null").head? ≠ some (UInt8.ofNat n) ∧
        (ascii "true").head? ≠ some (UInt8.ofNat n) ∧
        (ascii "false").head? ≠ some (UInt8.ofNat n) := by
    decide +kernel
  exact @forall_byte (fun head => (isDigit head = true ∨ head = minus) → BeginsAtom head ∧
    (ascii "null").head? ≠ some head ∧ (ascii "true").head? ≠ some head ∧
      (ascii "false").head? ≠ some head) all head begins

theorem reads_number (z : ℤ) : Reads (.number z) (integer z) := by
  obtain ⟨head, later, first, begins⟩ :
      ∃ head later, integer z = head :: later ∧ (isDigit head = true ∨ head = minus) := by
    unfold integer
    obtain ⟨head, later, first, isDigit⟩ := decimal_digits z.natAbs
    split
    · exact ⟨minus, _, rfl, .inr rfl⟩
    · exact ⟨head, later, first, .inl isDigit⟩
  obtain ⟨isAtom, notNull, notTrue, notFalse⟩ := begins_number begins
  rw [first]
  refine reads_atom isAtom fun rest stops => ?_
  have back := number_integer z stops
  rw [first] at back
  rw [atom, List.cons_append, keyword_other notNull (by decide), keyword_other notTrue (by decide),
    keyword_other notFalse (by decide), ← List.cons_append, back]
  rfl

theorem reads_decimal (n : ℕ) : Reads (.number n) (decimal n) := by
  have same : integer n = decimal n := if_neg (by omega)
  exact same ▸ reads_number n

/-- A literal, with its quotes. -/
theorem reads_string {bytes text : Text} (body : Body bytes text) :
    Reads (.string bytes) (quote :: (text ++ [quote])) := by
  intro fuel rest enough _
  cases fuel with
  | zero => exact absurd enough (by simp)
  | succ fuel =>
    rw [value, List.cons_append, skip_cons (by decide), List.append_assoc, List.singleton_append]
    simp only [if_true, literal_of_body body, Option.map_some]

/-! ### Arrays and objects -/

/-- A value begins with none of the closing bytes. -/
theorem reads_head {v : Value} {text : Text} (reads : Reads v text) {closing : UInt8}
    (known : closing = closeBracket ∨ closing = closeBrace) {rest : Text} (stops : Stops rest) :
    (skip (text ++ rest)).head? ≠ some closing := by
  intro same
  obtain ⟨later, shape⟩ := List.head?_eq_some_iff.mp same
  have found := reads (text.length + 1) rest (Nat.le_succ _) stops
  have none' : atom (closing :: later) = none := by
    rcases known with rfl | rfl <;> rfl
  have other : closing ≠ quote ∧ closing ≠ openBracket ∧ closing ≠ openBrace := by
    rcases known with rfl | rfl <;> decide
  rw [value, shape] at found
  simp only [if_neg other.1, if_neg other.2.1, if_neg other.2.2, none'] at found
  cases found

theorem readsElements_one {v : Value} {text space : Text} (reads : Reads v text)
    (blank : Blank space) : ReadsElements [v] (text ++ space) := by
  intro fuel rest enough
  cases fuel with
  | zero => omega
  | succ fuel =>
    rw [List.length_append] at enough
    have stops : Stops (space ++ closeBracket :: rest) :=
      stops_blank blank (stops_cons (by decide) rest)
    rw [elements, List.append_assoc, reads fuel _ (by omega) stops, Option.bind_some]
    simp only [skip_blank blank, skip_cons (show isSpace closeBracket = false by decide)]
    rfl

theorem readsElements_cons {v : Value} {vs : List Value} {text later : Text} (reads : Reads v text)
    (others : ReadsElements vs later) : ReadsElements (v :: vs) (text ++ comma :: later) := by
  intro fuel rest enough
  cases fuel with
  | zero => omega
  | succ fuel =>
    rw [List.length_append, List.length_cons] at enough
    rw [elements, List.append_assoc, List.cons_append,
      reads fuel _ (by omega) (stops_cons (by decide) _), Option.bind_some]
    simp only [skip_cons (show isSpace comma = false by decide), if_true,
      others fuel rest (by omega), Option.map_some]

/-- Elements with commas between them. -/
theorem readsElements_join {vs : List Value} {texts : List Text} (each : List.Forall₂ Reads vs texts)
    (nonempty : vs ≠ []) {space : Text} (blank : Blank space) :
    ReadsElements vs ([comma].intercalate texts ++ space) := by
  induction each with
  | nil => exact absurd rfl nonempty
  | @cons v text vs texts reads others ih =>
    cases others with
    | nil => simpa [List.intercalate] using readsElements_one reads blank
    | @cons v' text' vs texts reads' others =>
      have later := ih (List.cons_ne_nil _ _)
      have step := readsElements_cons reads later
      simpa [List.intercalate] using step

/-- **An array**, with white space before its closing bracket. -/
theorem reads_array {vs : List Value} {texts : List Text} (each : List.Forall₂ Reads vs texts)
    {space : Text} (blank : Blank space) :
    Reads (.array vs) (openBracket :: ([comma].intercalate texts ++ space ++ [closeBracket])) := by
  intro fuel rest enough _
  cases fuel with
  | zero => exact absurd enough (by simp)
  | succ fuel =>
    simp only [List.length_cons, List.length_append, List.length_nil] at enough
    rw [value, List.cons_append, skip_cons (by decide), List.append_assoc _ [closeBracket],
      List.singleton_append]
    have noQuote : openBracket ≠ quote := by decide
    simp only [if_neg noQuote, if_true]
    cases each with
    | nil =>
      rw [show [comma].intercalate ([] : List Text) = [] from rfl, List.nil_append, skip_blank blank,
        skip_cons (by decide)]
      rfl
    | @cons v text vs texts reads others =>
      have all := readsElements_join (.cons reads others) (List.cons_ne_nil _ _) blank
      have first : (skip ([comma].intercalate (text :: texts) ++ space ++ closeBracket :: rest)).head? ≠
          some closeBracket := by
        cases texts with
        | nil =>
          have here := reads_head reads (.inl rfl)
            (stops_blank blank (stops_cons (by decide : isDigit closeBracket = false) rest))
          simpa [List.intercalate] using here
        | cons next more =>
          have here := reads_head reads (.inl rfl) (stops_cons (by decide : isDigit comma = false)
            ([comma].intercalate (next :: more) ++ space ++ closeBracket :: rest))
          simpa [List.intercalate] using here
      rw [if_neg first, all fuel rest (by rw [List.length_append]; omega)]
      rfl

/-- A member: white space, its name, a colon and its value. -/
inductive ReadsMember : Text × Value → Text → Prop
  | intro {space name body text : Text} {v : Value} (blank : Blank space) (inside : Body name body)
      (reads : Reads v text) :
      ReadsMember (name, v) (space ++ quote :: (body ++ quote :: colon :: text))

/-- One member, before a byte that goes on. -/
theorem members_step {m : Text × Value} {text : Text} (member : ReadsMember m text) {fuel : ℕ}
    (enough : text.length ≤ fuel + 1) {rest : Text} (stops : Stops rest) :
    members (fuel + 1) (text ++ rest) = match skip rest with
      | [] => none
      | head :: rest =>
        if head = comma then (members fuel rest).map fun found => (m :: found.1, found.2)
        else if head = closeBrace then some ([m], rest)
        else none := by
  obtain ⟨blank, inside, reads⟩ := member
  simp only [List.length_append, List.length_cons] at enough
  rw [members, List.append_assoc, skip_blank blank, List.cons_append, skip_cons (by decide),
    List.append_assoc]
  simp only [if_true, List.cons_append, literal_of_body inside, Option.bind_some,
    skip_cons (show isSpace colon = false by decide), reads fuel rest (by omega) stops]

theorem readsMembers_join {ms : List (Text × Value)} {texts : List Text}
    (each : List.Forall₂ ReadsMember ms texts) (nonempty : ms ≠ []) {space : Text}
    (blank : Blank space) : ReadsMembers ms ([comma].intercalate texts ++ space) := by
  induction each with
  | nil => exact absurd rfl nonempty
  | @cons m text ms texts member others ih =>
    intro fuel rest enough
    cases fuel with
    | zero => omega
    | succ fuel =>
      cases others with
      | nil =>
        have stops : Stops (space ++ closeBrace :: rest) :=
          stops_blank blank (stops_cons (by decide) rest)
        rw [show [comma].intercalate [text] = text by simp [List.intercalate]] at enough ⊢
        rw [List.length_append] at enough
        rw [List.append_assoc, members_step member (by omega) stops]
        simp only [skip_blank blank, skip_cons (show isSpace closeBrace = false by decide)]
        rfl
      | @cons m' text' ms texts member' others =>
        have later := ih (List.cons_ne_nil _ _)
        have joined : [comma].intercalate (text :: text' :: texts) ++ space =
            text ++ comma :: ([comma].intercalate (text' :: texts) ++ space) := by
          simp [List.intercalate]
        rw [joined, List.length_append, List.length_cons] at enough
        rw [joined, List.append_assoc, List.cons_append,
          members_step member (by omega) (stops_cons (by decide) _)]
        simp only [skip_cons (show isSpace comma = false by decide), if_true,
          later fuel rest (by omega), Option.map_some]

/-- The first byte of a member is a quote. -/
theorem skip_member {m : Text × Value} {text : Text} (member : ReadsMember m text) (rest : Text) :
    (skip (text ++ rest)).head? = some quote := by
  obtain ⟨blank, inside, reads⟩ := member
  rw [List.append_assoc, skip_blank blank, List.cons_append, skip_cons (by decide)]
  rfl

/-- **An object**, with white space before its closing brace. -/
theorem reads_object {ms : List (Text × Value)} {texts : List Text}
    (each : List.Forall₂ ReadsMember ms texts) {space : Text} (blank : Blank space) :
    Reads (.object ms) (openBrace :: ([comma].intercalate texts ++ space ++ [closeBrace])) := by
  intro fuel rest enough _
  cases fuel with
  | zero => exact absurd enough (by simp)
  | succ fuel =>
    simp only [List.length_cons, List.length_append, List.length_nil] at enough
    rw [value, List.cons_append, skip_cons (by decide), List.append_assoc _ [closeBrace],
      List.singleton_append]
    have noQuote : openBrace ≠ quote := by decide
    have noBracket : openBrace ≠ openBracket := by decide
    simp only [if_neg noQuote, if_neg noBracket, if_true]
    cases each with
    | nil =>
      rw [show [comma].intercalate ([] : List Text) = [] from rfl, List.nil_append, skip_blank blank,
        skip_cons (by decide)]
      rfl
    | @cons m text ms texts member others =>
      have all := readsMembers_join (.cons member others) (List.cons_ne_nil _ _) blank
      have first : (skip ([comma].intercalate (text :: texts) ++ space ++ closeBrace :: rest)).head? ≠
          some closeBrace := by
        obtain ⟨more, shape⟩ : ∃ more, [comma].intercalate (text :: texts) = text ++ more := by
          cases texts with
          | nil => exact ⟨[], by simp [List.intercalate]⟩
          | cons next texts =>
            exact ⟨comma :: [comma].intercalate (next :: texts), by simp [List.intercalate]⟩
        rw [shape, List.append_assoc, List.append_assoc, skip_member member]
        decide
      rw [if_neg first, all fuel rest (by rw [List.length_append]; omega)]
      rfl

/-- **A whole text**, with white space behind it. -/
theorem parse_reads {v : Value} {text : Text} (reads : Reads v text) {space : Text}
    (blank : Blank space) : parse (text ++ space) = some v := by
  have stops : Stops (space ++ []) := stops_blank blank nofun
  have found := reads (text ++ space).length (space ++ []) (by rw [List.length_append]; omega) stops
  rw [List.append_nil] at found
  have behind : skip space = [] := by
    have := skip_blank blank []
    rwa [List.append_nil] at this
  rw [parse, found, Option.bind_some, if_pos behind]

end Reading

/-! ### Texts put together from fragments -/

section Fragments

/-- A member of an object, behind some white space. -/
def memberText (space name : String) (value : Text) : Text :=
  ascii (space ++ "\"" ++ name ++ "\":") ++ value

/-- Adding to a text with separators. -/
theorem intercalate_one (separator text : Text) : separator.intercalate [text] = text := by
  simp [List.intercalate]

/-- What follows the first of some texts. -/
theorem intercalate_flatMap (separator text : Text) (texts : List Text) :
    separator.intercalate (text :: texts) = text ++ texts.flatMap (separator ++ ·) := by
  induction texts generalizing text with
  | nil => simp [List.intercalate]
  | cons next texts ih =>
    have later := ih next
    simp only [List.intercalate] at later
    simp [List.intercalate, later]

theorem intercalate_cons (separator text next : Text) (texts : List Text) :
    separator.intercalate (text :: next :: texts) =
      text ++ (separator ++ separator.intercalate (next :: texts)) := by
  simp [List.intercalate]

/-- An object, with white space before its closing brace. -/
def objectText (texts : List Text) (space : String) : Text :=
  ascii "\x7b" ++ (ascii ",").intercalate texts ++ ascii (space ++ "\x7d")

/-- An array, with white space before its closing bracket. -/
def arrayText (texts : List Text) (space : String) : Text :=
  ascii "[" ++ (ascii ",").intercalate texts ++ ascii (space ++ "]")

theorem reads_memberText {space name : String} {v : Value} {value : Text}
    (blank : Blank (ascii space)) (isPlain : plain name = true) (reads : Reads v value) :
    ReadsMember (ascii name, v) (memberText space name value) := by
  have same : memberText space name value =
      ascii space ++ quote :: (ascii name ++ quote :: colon :: value) := by
    simp only [memberText, ascii_append, List.append_assoc]
    rfl
  exact same ▸ .intro blank (body_ascii isPlain) reads

theorem reads_objectText {ms : List (Text × Value)} {texts : List Text} (space : String)
    (each : List.Forall₂ ReadsMember ms texts) (blank : Blank (ascii space)) :
    Reads (.object ms) (objectText texts space) := by
  have same : objectText texts space =
      openBrace :: ([comma].intercalate texts ++ ascii space ++ [closeBrace]) := by
    simp only [objectText, ascii_append, List.append_assoc]
    rfl
  exact same ▸ reads_object each blank

/-- A member of an object: the white space before it, its name, its value and the text of that. -/
structure Member where
  space : String
  name : String
  value : Value
  text : Text

/-- The value that members make up. -/
def objectValue (ms : List Member) : Value := .object (ms.map fun m => (ascii m.name, m.value))

/-- The white space and the names of members can be told apart from their values. -/
def wellSpaced (layout : List (String × String)) : Bool :=
  layout.all fun place => decide (Blank (ascii place.1)) && plain place.2

/-- **An object, member by member.** -/
theorem reads_objectValue {ms : List Member} (layout : List (String × String))
    (same : ms.map (fun m => (m.space, m.name)) = layout) (spaced : wellSpaced layout = true)
    (each : ∀ m ∈ ms, Reads m.value m.text) {space : String} (blank : Blank (ascii space)) :
    Reads (objectValue ms) (objectText (ms.map fun m => memberText m.space m.name m.text) space) := by
  refine reads_objectText space ?_ blank
  subst same
  induction ms with
  | nil => exact .nil
  | cons m rest ih =>
    unfold wellSpaced at spaced ih
    rw [List.map_cons, List.all_cons, Bool.and_eq_true, Bool.and_eq_true, decide_eq_true_eq] at spaced
    exact .cons (reads_memberText spaced.1.1 spaced.1.2 (each m List.mem_cons_self))
      (ih (fun other member => each other (List.mem_cons_of_mem _ member)) spaced.2)

theorem reads_arrayText {vs : List Value} {texts : List Text} (space : String)
    (each : List.Forall₂ Reads vs texts) (blank : Blank (ascii space)) :
    Reads (.array vs) (arrayText texts space) := by
  have same : arrayText texts space =
      openBracket :: ([comma].intercalate texts ++ ascii space ++ [closeBracket]) := by
    simp only [arrayText, ascii_append, List.append_assoc]
    rfl
  exact same ▸ reads_array each blank

end Fragments

/-! ### Reading values back -/

section Access

/-- The member of a name, the first of them. -/
def Value.get (name : String) : Value → Option Value
  | .object ms => (ms.find? fun m => m.1 = ascii name).map (·.2)
  | _ => none

/-- The member at a position, by its name. -/
theorem get_of_member {ms : List (Text × Value)} (distinct : (ms.map Prod.fst).Nodup) {index : ℕ}
    {name : String} {v : Value} (member : ms[index]? = some (ascii name, v)) :
    (Value.object ms).get name = some v := by
  have inside := List.mem_of_getElem? member
  unfold Value.get
  cases found : ms.find? fun m => m.1 = ascii name with
  | none =>
    have missing := List.find?_eq_none.mp found (ascii name, v) inside
    exact absurd (decide_eq_true rfl) missing
  | some m =>
    have hit := List.find?_some found
    have same : m.1 = ascii name := of_decide_eq_true hit
    have equal := List.inj_on_of_nodup_map distinct (List.mem_of_find?_eq_some found) inside same
    simp only [found, equal, Option.map_some]

/-- A way to write values as JSON, which reads back. -/
structure Codec (α : Type) where
  json : α → Value
  read : Value → Option α
  read_json : ∀ a, read (json a) = some a

namespace Codec

variable {α : Type}

def string : Codec Text where
  json := .string
  read
    | .string bytes => some bytes
    | _ => none
  read_json _ := rfl

def boolean : Codec Bool where
  json := .boolean
  read
    | .boolean value => some value
    | _ => none
  read_json _ := rfl

/-- Numbers of 64 bits. -/
def word : Codec UInt64 where
  json value := .number value.toNat
  read
    | .number value => if 0 ≤ value ∧ value < 2 ^ 64 then some (UInt64.ofNat value.toNat) else none
    | _ => none
  read_json value := by
    have := value.toNat_lt
    simp only [Int.toNat_natCast, UInt64.ofNat_toNat]
    exact if_pos (by omega)

/-- Numbers of 32 bits. -/
def half : Codec UInt32 where
  json value := .number value.toNat
  read
    | .number value => if 0 ≤ value ∧ value < 2 ^ 32 then some (UInt32.ofNat value.toNat) else none
    | _ => none
  read_json value := by
    have := value.toNat_lt
    simp only [Int.toNat_natCast, UInt32.ofNat_toNat]
    exact if_pos (by omega)

/-- `null`, or a value that is not null. -/
def option (codec : Codec α) (notNull : ∀ a, codec.json a ≠ .null) : Codec (Option α) where
  json
    | none => .null
    | some a => codec.json a
  read
    | .null => some none
    | value => (codec.read value).map some
  read_json a := by
    cases a with
    | none => rfl
    | some a =>
      have other := notNull a
      have back := codec.read_json a
      simp only
      generalize codec.json a = v at other back
      cases v with
      | null => exact absurd rfl other
      | _ => simp only [back, Option.map_some]

theorem mapM_read (codec : Codec α) (as : List α) :
    (as.map codec.json).mapM codec.read = some as := by
  induction as with
  | nil => rfl
  | cons a rest ih => simp only [List.map_cons, List.mapM_cons, codec.read_json, ih]; rfl

def list (codec : Codec α) : Codec (List α) where
  json as := .array (as.map codec.json)
  read
    | .array vs => vs.mapM codec.read
    | _ => none
  read_json := codec.mapM_read

/-- Enumerators, by names that are all different. -/
def named (all : List α) (name : α → String) (complete : ∀ a, a ∈ all)
    (distinct : (all.map fun a => ascii (name a)).Nodup) : Codec α where
  json a := .string (ascii (name a))
  read
    | .string bytes => all.find? fun a => ascii (name a) = bytes
    | _ => none
  read_json a := by
    simp only
    cases found : all.find? fun b => ascii (name b) = ascii (name a) with
    | none => exact absurd (decide_eq_true rfl) (List.find?_eq_none.mp found a (complete a))
    | some b =>
      have hit := List.find?_some found
      have same : ascii (name b) = ascii (name a) := of_decide_eq_true hit
      exact congrArg some
        (List.inj_on_of_nodup_map distinct (List.mem_of_find?_eq_some found) (complete a) same)

/-- A member that a codec writes. -/
theorem read_member (codec : Codec α) {ms : List Member}
    (distinct : (ms.map fun m => ascii m.name).Nodup) (index : ℕ) {name space : String} {a : α}
    {text : Text} (member : ms[index]? = some ⟨space, name, codec.json a, text⟩) :
    ((objectValue ms).get name).bind codec.read = some a := by
  have distinct' : ((ms.map fun m => (ascii m.name, m.value)).map Prod.fst).Nodup := by
    rw [List.map_map]
    exact distinct
  have here : (ms.map fun m => (ascii m.name, m.value))[index]? = some (ascii name, codec.json a) := by
    rw [List.getElem?_map, member]
    rfl
  rw [objectValue, get_of_member distinct' here, Option.bind_some, codec.read_json]

end Codec

end Access

end Cpptb.Json
