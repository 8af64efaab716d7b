/-
Names and literals of generated C++.

* `pascalCase`, `cppIdentifier`: how the generator makes identifiers of names. Digits are the ASCII
  digits.
* `jsonDumps`, `cppLiteral`: a text written by `json.dumps`, and the bytes that it stands for as a C++
  string literal, in UTF-8.
* `cppLiteral_jsonDumps`: these are the bytes of the text, unless a character takes a pair of surrogates,
  of which C++ has no literal.
-/

import Cpptb.Lib.Utf8

namespace Cpptb.Bindings

/-! ### Identifiers -/

section Identifiers

/-- A letter or a digit, of ASCII. -/
def isWord (character : Char) : Bool := character.isAlphanum || character = '_'

/-- `CPP_KEYWORDS`. -/
def cppKeywords : List String :=
  ["alignas", "alignof", "and", "asm", "auto", "bitand", "bitor", "bool", "break", "case", "catch", "char",
    "class", "compl", "concept", "const", "consteval", "constexpr", "constinit", "const_cast", "continue",
    "co_await", "co_return", "co_yield", "decltype", "default", "delete", "do", "double", "dynamic_cast",
    "else", "enum", "explicit", "export", "extern", "false", "float", "for", "friend", "goto", "if", "inline",
    "int", "long", "mutable", "namespace", "new", "noexcept", "not", "nullptr", "operator", "or", "private",
    "protected", "public", "register", "reinterpret_cast", "requires", "return", "short", "signed", "sizeof",
    "static", "static_assert", "static_cast", "struct", "switch", "template", "this", "thread_local", "throw",
    "true", "try", "typedef", "typeid", "typename", "union", "unsigned", "using", "virtual", "void",
    "volatile", "wchar_t", "while", "xor"]

/-- `re.findall(r"[A-Za-z]+|\d+", ...)`: the runs of letters and the runs of digits. -/
def words : List Char → List (List Char)
  | [] => []
  | character :: rest =>
    if character.isAlpha then
      match rest, words rest with
      | next :: _, word :: others =>
        if next.isAlpha then (character :: word) :: others else [character] :: word :: others
      | _, others => [character] :: others
    else if character.isDigit then
      match rest, words rest with
      | next :: _, word :: others =>
        if next.isDigit then (character :: word) :: others else [character] :: word :: others
      | _, others => [character] :: others
    else words rest

/-- `part[:1].upper() + part[1:].lower()`. -/
def capitalized : List Char → List Char
  | [] => []
  | first :: rest => first.toUpper :: rest.map Char.toLower

/-- `pascal_case`. The underscores it replaces are no part of a word. -/
def pascalCase (value : String) : String :=
  String.ofList ((words value.toList).flatMap capitalized)

/-- `cpp_identifier`. -/
def cppIdentifier (value : String) (pascal : Bool := false) : String :=
  let result := if pascal then pascalCase value else value.map fun character =>
    if isWord character then character else '_'
  let result := if result = "" then (if pascal then "Value" else "field") else result
  let result := if (result.toList.head?.elim false Char.isDigit) then
    (if pascal then "Type" else "field_") ++ result else result
  if result ∈ cppKeywords then result ++ "_" else result

end Identifiers

/-! ### Literals -/

section Literals

/-- `\uXXXX`. -/
def unicodeEscape (code : ℕ) : List Char :=
  ['\\', 'u', Nat.digitChar (code / 4096 % 16), Nat.digitChar (code / 256 % 16),
    Nat.digitChar (code / 16 % 16), Nat.digitChar (code % 16)]

/-- A character in a literal of `json.dumps`. -/
def jsonEscape (character : Char) : List Char :=
  if character = '\\' then ['\\', '\\']
  else if character = '"' then ['\\', '"']
  else if character = '\n' then ['\\', 'n']
  else if character = '\r' then ['\\', 'r']
  else if character = '\t' then ['\\', 't']
  else if character = '\x0c' then ['\\', 'f']
  else if character = '\x08' then ['\\', 'b']
  else if ' ' ≤ character ∧ character ≤ '~' then [character]
  else if character.toNat < 0x10000 then unicodeEscape character.toNat
  else
    let pair := character.toNat - 0x10000
    unicodeEscape (0xd800 + pair / 0x400) ++ unicodeEscape (0xdc00 + pair % 0x400)

/-- `json.dumps` of a text. -/
def jsonDumps (text : String) : String :=
  String.ofList ('"' :: (text.toList.flatMap jsonEscape ++ ['"']))

def hexValue (digit : Char) : Option ℕ :=
  if '0' ≤ digit ∧ digit ≤ '9' then some (digit.toNat - '0'.toNat)
  else if 'a' ≤ digit ∧ digit ≤ 'f' then some (digit.toNat - 'a'.toNat + 10)
  else if 'A' ≤ digit ∧ digit ≤ 'F' then some (digit.toNat - 'A'.toNat + 10)
  else none

/-- The code point of a universal character name, which is no surrogate. -/
def universalCharacter (a b c d : Char) : Option ℕ := do
  let code := (((← hexValue a) * 16 + (← hexValue b)) * 16 + (← hexValue c)) * 16 + (← hexValue d)
  if 0xd800 ≤ code ∧ code ≤ 0xdfff then none else some code

/-- The byte of a simple escape. -/
def simpleEscape (kind : Char) : Option UInt8 :=
  if kind = '\\' then some 0x5c
  else if kind = '"' then some 0x22
  else if kind = 'n' then some 0x0a
  else if kind = 'r' then some 0x0d
  else if kind = 't' then some 0x09
  else if kind = 'f' then some 0x0c
  else if kind = 'b' then some 0x08
  else none

/-- The bytes of a string literal behind its opening quote, up to the closing one. Of the escapes of
C++, those that `json.dumps` writes. -/
def literalBody : List Char → Option (List UInt8)
  | [] => none
  | character :: rest =>
    if character = '"' then (if rest = [] then some [] else none)
    else if character = '\\' then
      match rest with
      | [] => none
      | kind :: rest =>
        if kind = 'u' then
          match rest with
          | a :: b :: c :: d :: rest =>
            (universalCharacter a b c d).bind fun code =>
              (literalBody rest).map (String.utf8EncodeChar (Char.ofNat code) ++ ·)
          | _ => none
        else (simpleEscape kind).bind fun byte => (literalBody rest).map (byte :: ·)
    else if character = '\n' then none
    else (literalBody rest).map (String.utf8EncodeChar character ++ ·)

/-- The bytes of a C++ string literal; a program with `none` is ill-formed. -/
def cppLiteral (literal : String) : Option (List UInt8) :=
  match literal.toList with
  | '"' :: rest => literalBody rest
  | _ => none

theorem hexValue_digitChar (digit : ℕ) : hexValue (Nat.digitChar (digit % 16)) = some (digit % 16) := by
  have all : ∀ digit < 16, hexValue (Nat.digitChar digit) = some digit := by decide
  exact all _ (Nat.mod_lt _ (by decide))

theorem literalBody_unicodeEscape {code : ℕ} (small : code < 0x10000) (rest : List Char) :
    literalBody (unicodeEscape code ++ rest) =
      if 0xd800 ≤ code ∧ code ≤ 0xdfff then none
      else (literalBody rest).map (String.utf8EncodeChar (Char.ofNat code) ++ ·) := by
  have digits : ((code / 4096 % 16 * 16 + code / 256 % 16) * 16 + code / 16 % 16) * 16 + code % 16 = code := by
    omega
  have read : universalCharacter (Nat.digitChar (code / 4096 % 16)) (Nat.digitChar (code / 256 % 16))
      (Nat.digitChar (code / 16 % 16)) (Nat.digitChar (code % 16)) =
        if 0xd800 ≤ code ∧ code ≤ 0xdfff then none else some code := by
    simp only [universalCharacter, hexValue_digitChar, Option.bind_eq_bind, Option.bind_some, digits]
  have noQuote : ('\\' : Char) ≠ '"' := by decide
  rw [unicodeEscape, List.cons_append, literalBody.eq_def]
  simp only [List.cons_append, List.nil_append, if_neg noQuote, if_true, read]
  split_ifs
  · rfl
  · rfl

theorem literalBody_simple {kind : Char} {byte : UInt8} (letter : kind ≠ 'u')
    (known : simpleEscape kind = some byte) (rest : List Char) :
    literalBody ('\\' :: kind :: rest) = (literalBody rest).map (byte :: ·) := by
  have noQuote : ('\\' : Char) ≠ '"' := by decide
  rw [literalBody.eq_def]
  simp only [if_neg noQuote, if_true, if_neg letter, known, Option.bind_some]

/-- How a character is written. -/
theorem jsonEscape_cases (character : Char) :
    (∃ kind byte, jsonEscape character = ['\\', kind] ∧ kind ≠ 'u' ∧ simpleEscape kind = some byte ∧
      String.utf8EncodeChar character = [byte] ∧ character.toNat < 0x10000) ∨
    (jsonEscape character = [character] ∧ character ≠ '"' ∧ character ≠ '\\' ∧ character ≠ '\n' ∧
      character.toNat < 0x10000) ∨
    (jsonEscape character = unicodeEscape character.toNat ∧ character.toNat < 0x10000) ∨
    (∃ first second, jsonEscape character = unicodeEscape first ++ unicodeEscape second ∧
      0xd800 ≤ first ∧ first ≤ 0xdfff ∧ ¬character.toNat < 0x10000) := by
  generalize same : jsonEscape character = result
  unfold jsonEscape at same
  split_ifs at same with backslash quote newline carriage tab feed back printable small
  all_goals subst same
  · exact .inl ⟨'\\', 0x5c, rfl, by decide, rfl, backslash ▸ by decide, backslash ▸ by decide⟩
  · exact .inl ⟨'"', 0x22, rfl, by decide, rfl, quote ▸ by decide, quote ▸ by decide⟩
  · exact .inl ⟨'n', 0x0a, rfl, by decide, rfl, newline ▸ by decide, newline ▸ by decide⟩
  · exact .inl ⟨'r', 0x0d, rfl, by decide, rfl, carriage ▸ by decide, carriage ▸ by decide⟩
  · exact .inl ⟨'t', 0x09, rfl, by decide, rfl, tab ▸ by decide, tab ▸ by decide⟩
  · exact .inl ⟨'f', 0x0c, rfl, by decide, rfl, feed ▸ by decide, feed ▸ by decide⟩
  · exact .inl ⟨'b', 0x08, rfl, by decide, rfl, back ▸ by decide, back ▸ by decide⟩
  · have narrow : character.toNat ≤ '~'.toNat := printable.2
    exact .inr (.inl ⟨rfl, quote, backslash, newline, narrow.trans_lt (by decide)⟩)
  · exact .inr (.inr (.inl ⟨rfl, small⟩))
  · have valid : character.toNat < 0x110000 := by
      rcases character.valid with below | ⟨-, above⟩
      · exact lt_trans below (by decide)
      · exact above
    exact .inr (.inr (.inr ⟨_, _, rfl, by omega, by omega, small⟩))

/-- A character of a literal stands for its bytes. -/
theorem literalBody_jsonEscape (character : Char) (rest : List Char) :
    literalBody (jsonEscape character ++ rest) =
      if character.toNat < 0x10000 then (literalBody rest).map (String.utf8EncodeChar character ++ ·)
      else none := by
  rcases jsonEscape_cases character with ⟨kind, byte, escape, letter, known, bytes, small⟩ |
    ⟨escape, quote, backslash, newline, small⟩ | ⟨escape, small⟩ | ⟨first, second, escape, low, high, big⟩
  · rw [escape, if_pos small, bytes]
    exact literalBody_simple letter known rest
  · rw [escape, if_pos small, List.singleton_append, literalBody.eq_def]
    simp only [if_neg quote, if_neg backslash, if_neg newline]
  · have legal : ¬(0xd800 ≤ character.toNat ∧ character.toNat ≤ 0xdfff) := by
      rcases character.valid with below | ⟨above, -⟩
      · exact fun surrogate => absurd below (Nat.not_lt.mpr surrogate.1)
      · exact fun surrogate => absurd above (Nat.not_lt.mpr surrogate.2)
    rw [escape, if_pos small, literalBody_unicodeEscape small, if_neg legal, Char.ofNat_toNat]
  · rw [escape, if_neg big, List.append_assoc, literalBody_unicodeEscape (by omega), if_pos ⟨low, high⟩]

/-- **A literal of `json.dumps` stands for the bytes of the text**, unless it has a surrogate. -/
theorem cppLiteral_jsonDumps (text : String) : cppLiteral (jsonDumps text) =
    if ∀ character ∈ text.toList, character.toNat < 0x10000 then some (Utf8.encode text) else none := by
  unfold cppLiteral jsonDumps Utf8.encode
  rw [String.toList_ofList]
  show literalBody (text.toList.flatMap jsonEscape ++ ['"']) = _
  generalize text.toList = characters
  induction characters with
  | nil =>
    rw [List.flatMap_nil, List.nil_append, literalBody, if_pos rfl, if_pos rfl,
      if_pos fun _ mem => absurd mem List.not_mem_nil]
    rfl
  | cons character rest ih =>
    rw [List.flatMap_cons, List.append_assoc, literalBody_jsonEscape, ih, List.flatMap_cons]
    simp only [List.forall_mem_cons]
    by_cases small : character.toNat < 0x10000
    · by_cases others : ∀ character ∈ rest, character.toNat < 0x10000
      · rw [if_pos small, if_pos others, if_pos ⟨small, others⟩, Option.map_some]
      · rw [if_pos small, if_neg others, if_neg fun all => others all.2, Option.map_none]
    · rw [if_neg small, if_neg fun all => small all.1]

end Literals

end Cpptb.Bindings
