import Mathlib.Data.List.Induction
import CoreSplice.Text.Decimal

/-!
# Decimal numerals

A number is written in one way, and any further zeros in front are read all the same.  So what is
read and written again is what it was, unless there are such zeros, and then it is shorter.

* `Decimal.IsDigits`, `Decimal.IsPlain` — numerals, and those without superfluous zeros.
* `Decimal.toDigits_ofDigitChars` — the digits of a number that was read.
* `Decimal.repr_ofDigitChars_eq_iff` — the numerals that are written as they were read.
-/

namespace CoreSplice.Text.Decimal

/-- A text of one or more digits of ASCII. -/
structure IsDigits (text : String) : Prop where
  ne_empty : text ≠ ""
  all : ∀ c ∈ text.toList, c.isDigit = true

/-- A zero stands in front of the numeral only if it is all of it. -/
def IsPlain (digits : String) : Prop :=
  digits.toList.head? = some '0' → digits = "0"

lemma isDigits_repr (n : Nat) : IsDigits (Nat.repr n) := by
  constructor
  · rw [ne_eq, ← String.toList_eq_nil_iff, Nat.toList_repr]
    exact Nat.toDigits_ne_nil
  · intro c hc
    rw [Nat.toList_repr] at hc
    exact Nat.isDigit_of_mem_toDigits (by decide) (by decide) hc

lemma ofDigitChars_repr (n : Nat) : Nat.ofDigitChars 10 (Nat.repr n).toList 0 = n := by
  rw [Nat.toList_repr, Nat.ofDigitChars_toDigits (by decide) (by decide)]

variable {c : Char} {cs : List Char} {digits : String}

lemma toNat_of_isDigit (h : c.isDigit = true) : 48 ≤ c.toNat ∧ c.toNat ≤ 57 := by
  simp only [Char.isDigit, Bool.and_eq_true, decide_eq_true_eq] at h
  exact ⟨UInt32.le_iff_toNat_le.1 h.1, UInt32.le_iff_toNat_le.1 h.2⟩

lemma digitChar_of_isDigit (h : c.isDigit = true) : (c.toNat - '0'.toNat).digitChar = c := by
  obtain ⟨hfirst, hlast⟩ := toNat_of_isDigit h
  have hzero : '0'.toNat = 48 := rfl
  rw [← Char.toNat_inj, Nat.toNat_digitChar_of_lt_ten (by omega)]
  omega

lemma le_ofDigitChars (cs : List Char) (start : Nat) : start ≤ Nat.ofDigitChars 10 cs start := by
  induction cs generalizing start with
  | nil => exact Nat.le_refl start
  | cons c cs ih =>
    rw [Nat.ofDigitChars_cons]
    exact Nat.le_trans (by omega) (ih _)

/-- A number whose numeral starts with another digit than zero is positive. -/
lemma ofDigitChars_pos (hc : c.isDigit = true) (hzero : c ≠ '0') :
    0 < Nat.ofDigitChars 10 (c :: cs) 0 := by
  obtain ⟨hfirst, -⟩ := toNat_of_isDigit hc
  have hne : c.toNat ≠ '0'.toNat := fun h => hzero (Char.toNat_inj.1 h)
  have h48 : '0'.toNat = 48 := rfl
  rw [Nat.ofDigitChars_cons]
  exact Nat.lt_of_lt_of_le (by omega) (le_ofDigitChars cs _)

/-- **The digits of a number that was read** are those that it was read from, unless it was read
with a zero in front. -/
lemma toDigits_ofDigitChars (hall : ∀ c ∈ cs, c.isDigit = true) (hne : cs ≠ [])
    (hplain : cs.head? = some '0' → cs = ['0']) :
    Nat.toDigits 10 (Nat.ofDigitChars 10 cs 0) = cs := by
  induction cs using List.reverseRecOn with
  | nil => exact absurd rfl hne
  | append_singleton cs last ih =>
    have hlast : last.isDigit = true := hall last (List.mem_append_right _ List.mem_cons_self)
    have hsmall : last.toNat - '0'.toNat < 10 := by
      have := toNat_of_isDigit hlast
      have : '0'.toNat = 48 := rfl
      omega
    rw [Nat.ofDigitChars_append, Nat.ofDigitChars_cons]
    cases cs with
    | nil =>
      show Nat.toDigits 10 (10 * 0 + (last.toNat - '0'.toNat)) = [last]
      rw [Nat.mul_zero, Nat.zero_add, Nat.toDigits_of_lt_base hsmall, digitChar_of_isDigit hlast]
    | cons c cs =>
      have hc : c ≠ '0' := by
        rintro rfl
        simpa using hplain rfl
      have hfront := ih (fun d hd => hall d (List.mem_append_left _ hd)) (List.cons_ne_nil _ _)
        fun h => absurd (Option.some.inj h) hc
      have hpos : 0 < Nat.ofDigitChars 10 (c :: cs) 0 :=
        ofDigitChars_pos (hall c List.mem_cons_self) hc
      show Nat.toDigits 10 (10 * Nat.ofDigitChars 10 (c :: cs) 0 + (last.toNat - '0'.toNat)) = _
      rw [← Nat.toDigits_append_toDigits (by decide) hpos hsmall, hfront,
        Nat.toDigits_of_lt_base hsmall, digitChar_of_isDigit hlast]

/-- A number has no more digits than any of its numerals. -/
lemma length_toDigits_ofDigitChars_le (hall : ∀ c ∈ cs, c.isDigit = true) (hne : cs ≠ []) :
    (Nat.toDigits 10 (Nat.ofDigitChars 10 cs 0)).length ≤ cs.length := by
  rw [Nat.length_toDigits_le_iff (by decide) (List.length_pos_iff.2 hne)]
  simpa using ofDigitChars_lt (List.all_eq_true.2 hall) 0

/-- **The numerals that are written as they were read** are those without superfluous zeros. -/
lemma repr_ofDigitChars_eq_iff (h : IsDigits digits) :
    Nat.repr (Nat.ofDigitChars 10 digits.toList 0) = digits ↔ IsPlain digits := by
  have hne : digits.toList ≠ [] := mt String.toList_eq_nil_iff.1 h.ne_empty
  rw [← String.toList_inj, Nat.toList_repr, IsPlain, ← String.toList_inj]
  constructor
  · intro heq hzero
    obtain ⟨cs, hcs⟩ := List.head?_eq_some_iff.1 hzero
    rw [hcs] at heq ⊢
    -- The zero adds nothing to the number, so what stands behind it has room for all digits.
    have hvalue : Nat.ofDigitChars 10 ('0' :: cs) 0 = Nat.ofDigitChars 10 cs 0 := rfl
    cases cs with
    | nil => rfl
    | cons c cs =>
      have hle := length_toDigits_ofDigitChars_le
        (fun d (hd : d ∈ c :: cs) => h.all d (hcs ▸ List.mem_cons_of_mem _ hd))
        (List.cons_ne_nil _ _)
      rw [← hvalue, heq] at hle
      simp only [List.length_cons] at hle
      omega
  · exact toDigits_ofDigitChars h.all hne

lemma length_repr_ofDigitChars_le (h : IsDigits digits) :
    (Nat.repr (Nat.ofDigitChars 10 digits.toList 0)).length ≤ digits.length := by
  rw [← String.length_toList, Nat.toList_repr, ← String.length_toList]
  exact length_toDigits_ofDigitChars_le h.all (mt String.toList_eq_nil_iff.1 h.ne_empty)

end CoreSplice.Text.Decimal
