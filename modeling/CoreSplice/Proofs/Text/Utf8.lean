import Mathlib.Tactic.Common
import CoreSplice.Text.Utf8

/-!
# Text that was written as UTF-8

Reading bytes as text never fails, as what is no text is replaced.  Of bytes that were written as
text nothing is replaced: whatever the text is, it is read as it was.

* `Utf8.decodeFrom_two` and its siblings — the first byte of a character, by the number of bytes
  that the character has.
* `Utf8.decodeFrom_more`, `Utf8.decodeFrom_last` — the bytes behind it.
* `Utf8.decodeFrom_encoded` — all bytes of a character.
* **`Utf8.decode_toUTF8`** — all bytes of a text.
-/

namespace CoreSplice.Text.Utf8

variable {n : Nat}

/-! ## One byte -/

lemma toNat_ofNat (hn : n < 256) : (UInt8.ofNat n).toNat = n := by
  rw [UInt8.toNat_ofNat', Nat.mod_eq_of_lt hn]

/-- A byte of ASCII is a character. -/
lemma decodeFrom_one (hn : n < 0x80) (bs : Bytes) :
    decodeFrom none (UInt8.ofNat n :: bs) = Char.ofNat n :: decodeFrom none bs := by
  rw [decodeFrom, toNat_ofNat (by omega), if_pos hn]

/-- The first byte of two. -/
lemma decodeFrom_two (hn : n < 0x20) (hlong : 2 ≤ n) (bs : Bytes) :
    decodeFrom none (UInt8.ofNat (n + 0xc0) :: bs) = decodeFrom (some ⟨1, n, 0x80, 0xbf⟩) bs := by
  rw [decodeFrom_cons, step, start, toNat_ofNat (by omega), if_neg (by omega), if_neg (by omega),
    if_pos (by omega), Nat.add_sub_cancel, List.nil_append]

/-- The first byte of three.  What is too small for three bytes is kept out, and what is a
surrogate. -/
lemma decodeFrom_three (hn : n < 0x10) (bs : Bytes) :
    decodeFrom none (UInt8.ofNat (n + 0xe0) :: bs)
      = decodeFrom (some ⟨2, n, if n = 0 then 0xa0 else 0x80, if n = 0xd then 0x9f else 0xbf⟩)
          bs := by
  have hsmall : n + 0xe0 = 0xe0 ↔ n = 0 := by omega
  have hsurrogate : n + 0xe0 = 0xed ↔ n = 0xd := by omega
  rw [decodeFrom_cons, step, start, toNat_ofNat (by omega), if_neg (by omega), if_neg (by omega),
    if_neg (by omega), if_pos (by omega), Nat.add_sub_cancel, List.nil_append]
  simp only [hsmall, hsurrogate]

/-- The first byte of four.  What is too small for four bytes is kept out, and what is too large
for a character. -/
lemma decodeFrom_four (hn : n < 5) (bs : Bytes) :
    decodeFrom none (UInt8.ofNat (n + 0xf0) :: bs)
      = decodeFrom (some ⟨3, n, if n = 0 then 0x90 else 0x80, if n = 4 then 0x8f else 0xbf⟩)
          bs := by
  have hsmall : n + 0xf0 = 0xf0 ↔ n = 0 := by omega
  have hlarge : n + 0xf0 = 0xf4 ↔ n = 4 := by omega
  rw [decodeFrom_cons, step, start, toNat_ofNat (by omega), if_neg (by omega), if_neg (by omega),
    if_neg (by omega), if_neg (by omega), if_pos (by omega), Nat.add_sub_cancel, List.nil_append]
  simp only [hsmall, hlarge]

/-- A byte that continues a character adds six bits to it. -/
lemma decodeFrom_more {missing bits low high : Nat} (hn : n < 0x40) (hlow : low ≤ n + 0x80)
    (hhigh : n + 0x80 ≤ high) (bs : Bytes) :
    decodeFrom (some ⟨missing + 2, bits, low, high⟩) (UInt8.ofNat (n + 0x80) :: bs)
      = decodeFrom (some ⟨missing + 1, bits * 64 + n, 0x80, 0xbf⟩) bs := by
  rw [decodeFrom_cons, step, toNat_ofNat (by omega), if_pos ⟨hlow, hhigh⟩, Nat.add_sub_cancel]
  rfl

/-- The last byte completes the character. -/
lemma decodeFrom_last {bits : Nat} (hn : n < 0x40) (bs : Bytes) :
    decodeFrom (some ⟨1, bits, 0x80, 0xbf⟩) (UInt8.ofNat (n + 0x80) :: bs)
      = Char.ofNat (bits * 64 + n) :: decodeFrom none bs := by
  rw [decodeFrom_cons, step, toNat_ofNat (by omega), if_pos (by dsimp only; omega),
    Nat.add_sub_cancel]
  rfl

/-! ## Characters -/

/-- **The bytes of a character** are read as this character. -/
lemma decodeFrom_encoded (c : Char) (bs : Bytes) :
    decodeFrom none (String.utf8EncodeChar c ++ bs) = c :: decodeFrom none bs := by
  have hvalid : c.toNat < 0xd800 ∨ 0xdfff < c.toNat ∧ c.toNat < 0x110000 := c.valid
  have hchar : Char.ofNat c.toNat = c := Char.ofNat_toNat c
  rw [String.utf8EncodeChar, show c.val.toNat = c.toNat from rfl]
  generalize c.toNat = v at hvalid hchar
  -- The first byte and the six bits of each byte behind it are the code point.
  split
  case isTrue hone =>
    rw [List.cons_append, List.nil_append, decodeFrom_one (by omega), hchar]
  case isFalse hone =>
    simp only [apply_ite (· ++ bs), List.cons_append, List.nil_append]
    split
    case isTrue htwo =>
      have hbits : v / 64 % 32 * 64 + v % 64 = v := by omega
      rw [decodeFrom_two (by omega) (by omega), decodeFrom_last (by omega), hbits, hchar]
    case isFalse htwo =>
      split
      case isTrue hthree =>
        have hbits : (v / 4096 % 16 * 64 + v / 64 % 64) * 64 + v % 64 = v := by omega
        rw [decodeFrom_three (by omega), decodeFrom_more (by omega) (by split <;> omega)
          (by split <;> omega), decodeFrom_last (by omega), hbits, hchar]
      case isFalse hthree =>
        have hbits : ((v / 262144 % 8 * 64 + v / 4096 % 64) * 64 + v / 64 % 64) * 64 + v % 64 = v :=
          by omega
        rw [decodeFrom_four (by omega), decodeFrom_more (by omega) (by split <;> omega)
          (by split <;> omega), decodeFrom_more (by omega) (by omega) (by omega),
          decodeFrom_last (by omega), hbits, hchar]

lemma decode_encoded (text : List Char) :
    decode (text.flatMap String.utf8EncodeChar) = text := by
  induction text with
  | nil => rfl
  | cons c text ih =>
    rw [decode] at ih ⊢
    rw [List.flatMap_cons, decodeFrom_encoded, ih]

/-- **The bytes of a text** are read as this text. -/
theorem decode_toUTF8 (text : String) : decode text.toUTF8.data.toList = text.toList := by
  have hbytes : text.toUTF8.data.toList = text.toList.flatMap String.utf8EncodeChar := by
    rw [String.toUTF8, ← String.utf8Encode_toList, List.utf8Encode, List.data_toByteArray]
  rw [hbytes, decode_encoded]

end CoreSplice.Text.Utf8
