/-
Texts as UTF-8 bytes.

* `encode`, `decode`: a text and its bytes.
* `encode_lt_iff`: the order of the bytes is the order of the characters.
* `encode_flatMap`: a replacement of ASCII characters is a replacement of bytes.
-/

import Mathlib
import Cpptb.Lib.Json

namespace Cpptb.Utf8

def encode (text : String) : List UInt8 := text.toList.flatMap String.utf8EncodeChar

/-- The text of bytes that are UTF-8. -/
def decode (bytes : List UInt8) : Option String := String.fromUTF8? bytes.toByteArray

theorem encode_append (first second : String) : encode (first ++ second) = encode first ++ encode second := by
  simp only [encode, String.toList_append, List.flatMap_append]

theorem decode_encode (text : String) : decode (encode text) = some text := by
  have bytes : (encode text).toByteArray = text.toByteArray := String.utf8Encode_toList
  unfold decode
  rw [bytes, String.fromUTF8?, dif_pos text.isValidUTF8]
  rfl

theorem encode_injective : Function.Injective encode := fun first second same =>
  Option.some.inj ((decode_encode first).symm.trans ((congrArg decode same).trans (decode_encode second)))

/-! ### ASCII -/

section Ascii

theorem encodeChar_ascii {character : Char} (ascii : character.toNat < 0x80) :
    String.utf8EncodeChar character = [UInt8.ofNat character.toNat] := by
  have low : character.val.toNat ≤ 0x7f := Nat.le_of_lt_succ ascii
  rw [String.utf8EncodeChar, if_pos low]
  rfl

/-- The bytes of a character beyond ASCII are beyond ASCII. -/
theorem le_of_mem_encodeChar {character : Char} (beyond : 0x80 ≤ character.toNat) :
    ∀ byte ∈ String.utf8EncodeChar character, 0x80 ≤ byte.toNat := by
  have low : ¬character.val.toNat ≤ 0x7f := Nat.not_le.mpr beyond
  have leading : ∀ n, 0x80 ≤ n → n < 0x100 → 0x80 ≤ (UInt8.ofNat n).toNat := fun n big small => by
    rwa [UInt8.toNat_ofNat_of_lt' small]
  have top : character.val.toNat < 0x110000 := by
    rcases character.valid with valid | valid <;> omega
  unfold String.utf8EncodeChar
  generalize character.val.toNat = n at low top ⊢
  dsimp only
  rw [if_neg low]
  split_ifs <;> simp only [List.forall_mem_cons] <;> repeat' apply And.intro
  all_goals first | exact leading _ (by omega) (by omega) | exact fun _ mem => nomatch mem

/-- The bytes of an ASCII text are its characters. -/
theorem encode_ascii {text : String} (ascii : text.toList.all fun character => character.toNat < 0x80) :
    encode text = Json.ascii text := by
  unfold encode Json.ascii
  generalize text.toList = characters at ascii ⊢
  induction characters with
  | nil => rfl
  | cons character rest ih =>
    rw [List.all_cons, Bool.and_eq_true, decide_eq_true_eq] at ascii
    rw [List.flatMap_cons, List.map_cons, encodeChar_ascii ascii.1, ih ascii.2]
    rfl

/-- **A replacement of ASCII characters is a replacement of bytes.** -/
theorem encode_flatMap {f : Char → List Char} {g : UInt8 → List UInt8}
    (low : ∀ character, character.toNat < 0x80 →
      (f character).flatMap String.utf8EncodeChar = g (UInt8.ofNat character.toNat))
    (high : ∀ character, 0x80 ≤ character.toNat → f character = [character])
    (highByte : ∀ byte, 0x80 ≤ byte.toNat → g byte = [byte]) (text : String) :
    encode (String.ofList (text.toList.flatMap f)) = (encode text).flatMap g := by
  have one : ∀ character,
      (f character).flatMap String.utf8EncodeChar = (String.utf8EncodeChar character).flatMap g := by
    intro character
    by_cases ascii : character.toNat < 0x80
    · rw [low character ascii, encodeChar_ascii ascii, List.flatMap_singleton]
    · have beyond := Nat.le_of_not_lt ascii
      have same : (String.utf8EncodeChar character).flatMap g =
          (String.utf8EncodeChar character).flatMap fun byte => [byte] :=
        List.flatMap_congr fun byte mem => highByte byte (le_of_mem_encodeChar beyond byte mem)
      rw [high character beyond, List.flatMap_singleton, same, List.flatMap_singleton']
  unfold encode
  rw [String.toList_ofList, List.flatMap_assoc, List.flatMap_assoc]
  exact List.flatMap_congr fun character _ => one character

end Ascii

/-! ### The order -/

section Order

theorem ofNat_lt_iff {m n : ℕ} (hm : m < 256) (hn : n < 256) : UInt8.ofNat m < UInt8.ofNat n ↔ m < n := by
  rw [UInt8.lt_iff_toNat_lt, UInt8.toNat_ofNat_of_lt' hm, UInt8.toNat_ofNat_of_lt' hn]

theorem ofNat_eq_iff {m n : ℕ} (hm : m < 256) (hn : n < 256) : UInt8.ofNat m = UInt8.ofNat n ↔ m = n := by
  rw [← UInt8.toNat_inj, UInt8.toNat_ofNat_of_lt' hm, UInt8.toNat_ofNat_of_lt' hn]

/-- The bytes of a smaller character are smaller, whatever follows. -/
theorem encodeChar_lt {first second : Char} (less : first < second) (xs ys : List UInt8) :
    String.utf8EncodeChar first ++ xs < String.utf8EncodeChar second ++ ys := by
  have order : first.val.toNat < second.val.toNat := less
  have top : second.val.toNat < 0x110000 := by
    have := second.valid
    rcases this with valid | valid <;> omega
  unfold String.utf8EncodeChar
  generalize first.val.toNat = m at order ⊢
  generalize second.val.toNat = n at order top ⊢
  -- Lengths come in the order of the characters; characters of one length differ at a first digit.
  have twice : ∀ k : ℕ, k / 4096 = k / 64 / 64 := fun k => by omega
  have thrice : ∀ k : ℕ, k / 262144 = k / 64 / 64 / 64 := fun k => by omega
  dsimp only
  split_ifs <;>
    first
    | omega
    | (simp (disch := omega) only [List.cons_append, List.nil_append, List.cons_lt_cons_iff, ofNat_lt_iff,
        ofNat_eq_iff, twice, thrice]
       omega)

/-- **The order of the bytes is the order of the characters.** -/
theorem encode_lt {first second : String} (less : first < second) : encode first < encode second := by
  have order : first.toList < second.toList := less
  unfold encode
  generalize first.toList = xs at order ⊢
  generalize second.toList = ys at order ⊢
  induction order with
  | nil =>
    rename_i y ys
    obtain ⟨byte, rest, same⟩ := List.exists_cons_of_ne_nil (String.utf8EncodeChar_ne_nil (c := y))
    rw [List.flatMap_nil, List.flatMap_cons, same]
    exact List.nil_lt_cons _ _
  | rel less =>
    rw [List.flatMap_cons, List.flatMap_cons]
    exact encodeChar_lt less _ _
  | cons _ ih =>
    rw [List.flatMap_cons, List.flatMap_cons]
    exact List.append_left_lt ih

theorem encode_lt_iff {first second : String} : encode first < encode second ↔ first < second := by
  refine ⟨fun less => ?_, encode_lt⟩
  rcases lt_trichotomy first second with order | rfl | order
  · exact order
  · exact absurd less (List.lt_irrefl _)
  · exact absurd (List.lt_trans less (encode_lt order)) (List.lt_irrefl _)

end Order

end Cpptb.Utf8
