import Mathlib.Data.List.TakeWhile
import Mathlib.Tactic.Common
import CoreSplice.Text.Blank
import CoreSplice.Text.Lines

/-!
# What stands at the ends of a text

A numeral may have blanks on both of its sides, and a line has its line ends behind it.  Taking
them away leaves the one part of the text that has none of them at its ends, with nothing but them
around it.

* `dropWhile_reverse_eq_iff` — characters of a class taken away at the end of any text.
* `exists_trimBlanks`, `trimBlanks_append` — a text without the blanks around it.
* **`trimLineEnd_eq_iff`** — a line without the line ends that close it (`Closes`).
-/

namespace CoreSplice.Text

variable {p : Char → Bool} {text rest : List Char}

/-! ## Characters of a class -/

lemma dropWhile_eq_iff :
    text.dropWhile p = rest ↔ ∃ front, text = front ++ rest ∧ (∀ c ∈ front, p c = true) ∧
      ∀ c ∈ rest.head?, p c = false := by
  constructor
  · rintro rfl
    refine ⟨text.takeWhile p, List.takeWhile_append_dropWhile.symm, ?_, ?_⟩
    · intro c hc
      exact List.mem_takeWhile_imp hc
    · intro c hc
      have hnot := List.head?_dropWhile_not p text
      rw [Option.mem_def.1 hc] at hnot
      simpa using hnot
  · rintro ⟨front, rfl, hfront, hhead⟩
    rw [List.dropWhile_append_of_pos hfront]
    cases rest with
    | nil => rfl
    | cons c cs => simp [List.dropWhile, hhead c (by simp)]

lemma dropWhile_reverse_eq_iff :
    (text.reverse.dropWhile p).reverse = rest ↔
      ∃ back, text = rest ++ back ∧ (∀ c ∈ back, p c = true) ∧
        ∀ c ∈ rest.getLast?, p c = false := by
  rw [List.reverse_eq_iff, dropWhile_eq_iff]
  constructor
  · rintro ⟨front, htext, hfront, hlast⟩
    refine ⟨front.reverse, ?_, ?_, ?_⟩
    · rw [← List.reverse_inj, htext, List.reverse_append, List.reverse_reverse]
    · simpa using hfront
    · simpa using hlast
  · rintro ⟨back, rfl, hback, hlast⟩
    exact ⟨back.reverse, List.reverse_append, by simpa using hback, by simpa using hlast⟩

/-! ## Blanks -/

/-- Around a text without its blanks there are blanks only. -/
lemma exists_trimBlanks (text : List Char) :
    ∃ front back, text = front ++ trimBlanks text ++ back ∧ (∀ c ∈ front, isBlank c = true) ∧
      ∀ c ∈ back, isBlank c = true := by
  obtain ⟨front, htext, hfront, -⟩ := dropWhile_eq_iff.1 (Eq.refl (text.dropWhile isBlank))
  obtain ⟨back, hmiddle, hback, -⟩ := dropWhile_reverse_eq_iff.1 (Eq.refl (trimBlanks text))
  refine ⟨front, back, ?_, hfront, hback⟩
  rw [List.append_assoc, ← hmiddle]
  exact htext

/-- Blanks around a text whose ends are not blank are taken away. -/
lemma trimBlanks_append {front core back : List Char} (hfront : ∀ c ∈ front, isBlank c = true)
    (hback : ∀ c ∈ back, isBlank c = true) (hcore : core ≠ [])
    (hfirst : ∀ c ∈ core.head?, isBlank c = false)
    (hlast : ∀ c ∈ core.getLast?, isBlank c = false) :
    trimBlanks (front ++ core ++ back) = core := by
  have hhead : (core ++ back).head? = core.head? := by
    cases core with
    | nil => exact absurd rfl hcore
    | cons c cs => rfl
  have hmiddle : (front ++ core ++ back).dropWhile isBlank = core ++ back :=
    dropWhile_eq_iff.2 ⟨front, List.append_assoc .., hfront, by rwa [hhead]⟩
  rw [trimBlanks, hmiddle]
  exact dropWhile_reverse_eq_iff.2 ⟨back, rfl, hback, hlast⟩

/-! ## Line ends -/

/-- The line is the given text with any number of line ends behind it, all of them. -/
structure Closes (line text : List Char) : Prop where
  behind : ∃ ends, line = text ++ ends ∧ ∀ c ∈ ends, c = '\r' ∨ c = '\n'
  last : ∀ c ∈ text.getLast?, c ≠ '\r' ∧ c ≠ '\n'

lemma isLineEnd_iff {c : Char} : isLineEnd c = true ↔ c = '\r' ∨ c = '\n' := by
  simp [isLineEnd]

/-- **A line without the line ends that close it.** -/
theorem trimLineEnd_eq_iff {line text : List Char} :
    trimLineEnd line = text ↔ Closes line text := by
  have hnot (c : Char) : isLineEnd c = false ↔ c ≠ '\r' ∧ c ≠ '\n' := by
    rw [← Bool.not_eq_true, isLineEnd_iff, not_or]
  rw [trimLineEnd, dropWhile_reverse_eq_iff]
  simp only [isLineEnd_iff, hnot]
  constructor
  · rintro ⟨ends, hline, hends, hlast⟩
    exact ⟨⟨ends, hline, hends⟩, hlast⟩
  · rintro ⟨⟨ends, hline, hends⟩, hlast⟩
    exact ⟨ends, hline, hends, hlast⟩

end CoreSplice.Text
