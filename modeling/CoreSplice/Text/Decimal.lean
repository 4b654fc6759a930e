/-!
# Numbers to the base ten

Sizes and offsets on the command line and in messages are decimal.  Numerals are limited to 4300
digits, leading zeros included, in both directions; longer ones are refused.

* `Decimal.read?` — the number that a string of digits stands for.
* `Decimal.write` — the text of a number.
* `Decimal.write?` — the same with the limit, with `read?_write?` for numbers that are not negative,
  and with `write?_ne_none_of_read?` for numbers that were read.
-/

namespace CoreSplice.Text.Decimal

/-- The largest number of digits of a numeral. -/
def maxDigits : Nat := 4300

/-- The number that the digits stand for, unless there are too many. -/
def read? (digits : List Char) : Option Nat :=
  if maxDigits < digits.length then none else some (Nat.ofDigitChars 10 digits 0)

/-- The digits of the number, with its sign if it is negative. -/
def write (n : Int) : String :=
  (if n < 0 then "-" else "") ++ Nat.repr n.natAbs

/-- A number of bits that is enough for every number which can be written.  The digits of a number
with more bits need not be counted. -/
def maxBits : Nat := 15000

/-- The text of the number, unless it has too many digits. -/
def write? (n : Int) : Option String :=
  if maxBits ≤ n.natAbs.log2 then none
  else if maxDigits < (Nat.toDigits 10 n.natAbs).length then none
  else some (write n)

/-- A number with too many bits has too many digits. -/
theorem maxDigits_lt_length {n : Nat} (h : maxBits ≤ n.log2) :
    maxDigits < (Nat.toDigits 10 n).length := by
  have hn : n ≠ 0 := by rintro rfl; exact absurd h (by decide)
  have hpow : 10 ^ maxDigits ≤ 2 ^ maxBits := by decide +kernel
  have hle : 2 ^ maxBits ≤ n := (Nat.le_log2 hn).1 h
  apply Nat.lt_of_not_le
  rw [Nat.length_toDigits_le_iff (by decide) (by decide)]
  exact Nat.not_lt.2 (Nat.le_trans hpow hle)

/-- Only numbers of more than 4300 digits cannot be written. -/
theorem write?_eq_none_iff (n : Int) :
    write? n = none ↔ maxDigits < (Nat.toDigits 10 n.natAbs).length := by
  unfold write?
  split
  · rename_i h
    exact ⟨fun _ => maxDigits_lt_length h, fun _ => rfl⟩
  · simp

/-- The text of a number that can be written. -/
theorem write?_eq_some_iff {n : Int} {text : String} :
    write? n = some text ↔
      (Nat.toDigits 10 n.natAbs).length ≤ maxDigits ∧ write n = text := by
  by_cases h : maxDigits < (Nat.toDigits 10 n.natAbs).length
  · rw [(write?_eq_none_iff n).2 h]
    simp [Nat.not_le.2 h]
  · have hbits := mt maxDigits_lt_length h
    simp [write?, hbits, h, Nat.not_lt.1 h]

/-- A number that was written is read back. -/
theorem read?_write? {n : Nat} {text : String} (h : write? n = some text) :
    read? text.toList = some n := by
  obtain ⟨hlen, rfl⟩ := write?_eq_some_iff.1 h
  have hneg : ¬((n : Int) < 0) := by omega
  simp only [write, Int.natAbs_natCast, hneg, if_false, String.empty_append] at hlen ⊢
  rw [read?, Nat.toList_repr, if_neg (Nat.not_lt.2 hlen),
    Nat.ofDigitChars_toDigits (by decide) (by decide)]

/-- A row of digits stands for a number below the power of ten with as many zeros. -/
theorem ofDigitChars_lt {digits : List Char} (h : digits.all Char.isDigit) (start : Nat) :
    Nat.ofDigitChars 10 digits start < (start + 1) * Nat.pow 10 digits.length := by
  induction digits generalizing start with
  | nil => simp [Nat.ofDigitChars]
  | cons c cs ih =>
    simp only [List.all_cons, Bool.and_eq_true] at h
    have hdigit : c.toNat - '0'.toNat ≤ 9 := by
      have hlast := h.1
      simp only [Char.isDigit, Bool.and_eq_true, decide_eq_true_eq] at hlast
      exact Nat.sub_le_sub_right (UInt32.le_iff_toNat_le.1 hlast.2) _
    have hstep : 10 * start + (c.toNat - '0'.toNat) + 1 ≤ (start + 1) * 10 := by omega
    have hpow : Nat.pow 10 (cs.length + 1) = 10 * Nat.pow 10 cs.length := Nat.pow_succ'
    rw [Nat.ofDigitChars_cons, List.length_cons, hpow, ← Nat.mul_assoc]
    exact Nat.lt_of_lt_of_le (ih h.2 _) (Nat.mul_le_mul_right _ hstep)

/-- A number that was read can be written. -/
theorem write?_ne_none_of_read? {digits : List Char} {n : Nat} (hdigits : digits.all Char.isDigit)
    (h : read? digits = some n) : write? n ≠ none := by
  rw [ne_eq, write?_eq_none_iff, Nat.not_lt, Int.natAbs_natCast]
  simp only [read?] at h
  split at h
  · cases h
  · rename_i hlength
    cases h
    rw [Nat.length_toDigits_le_iff (by decide) (by decide)]
    have hlt := ofDigitChars_lt hdigits 0
    rw [Nat.zero_add, Nat.one_mul] at hlt
    exact Nat.lt_of_lt_of_le hlt (Nat.pow_le_pow_right (by decide) (Nat.not_lt.1 hlength))

end CoreSplice.Text.Decimal
