import Mathlib.Tactic.Common
import CoreSplice.Bytes.Overlay

/-!
# Contents that grow

Every change that is made to a core keeps its length or adds to it, keeps the bytes outside the
range that it is meant for, and adds nothing but zeros beside that range.  The relation below says
this of a content and a later one, and it is what a row of such changes adds up to.

* `Bytes.Grows` — outside the touched positions old bytes are kept and added ones are zero.
* `Bytes.Grows.trans`, `Bytes.Grows.mono` — changes in a row, and more positions touched.
* `Bytes.grows_overlay`, `Bytes.grows_resize` — the change that a write makes, and a new length.
* `Bytes.Grows.overlay` — a write of bytes that are the first ones outside the touched positions.
-/

namespace CoreSplice.Bytes

/-- The new content is as long as the old one at least.  Outside the touched positions it holds
the old bytes, and zeros behind them. -/
structure Grows (touched : Nat → Prop) (old new : Bytes) : Prop where
  length_le : old.length ≤ new.length
  kept : ∀ i, i < old.length → ¬ touched i → new[i]? = old[i]?
  added : ∀ i, old.length ≤ i → i < new.length → ¬ touched i → new[i]? = some 0

namespace Grows

variable {touched touched' : Nat → Prop} {first second third : Bytes}

lemma refl (touched : Nat → Prop) (content : Bytes) : Grows touched content content :=
  ⟨Nat.le_refl _, fun _ _ _ => rfl, fun _ hle hlt _ => absurd hlt (Nat.not_lt.2 hle)⟩

lemma mono (h : Grows touched first second) (hsub : ∀ i, touched i → touched' i) :
    Grows touched' first second :=
  ⟨h.length_le, fun i hi ht => h.kept i hi fun hti => ht (hsub i hti),
    fun i hle hlt ht => h.added i hle hlt fun hti => ht (hsub i hti)⟩

lemma trans (h₁ : Grows touched first second) (h₂ : Grows touched second third) :
    Grows touched first third := by
  refine ⟨Nat.le_trans h₁.length_le h₂.length_le, ?_, ?_⟩
  · intro i hi ht
    rw [h₂.kept i (Nat.lt_of_lt_of_le hi h₁.length_le) ht, h₁.kept i hi ht]
  · intro i hle hlt ht
    by_cases hi : i < second.length
    · rw [h₂.kept i hi ht, h₁.added i hle hi ht]
    · exact h₂.added i (Nat.not_lt.1 hi) hlt ht

end Grows

lemma grows_overlay (content : Bytes) (position : Nat) (data : Bytes) :
    Grows (fun i => position ≤ i ∧ i < position + data.length) content
      (overlay content position data) := by
  refine ⟨length_le_length_overlay content position data, ?_, ?_⟩
  · intro i hi ht
    exact getElem?_overlay_of_outside content hi (by omega)
  · intro i hle hlt ht
    by_cases hd : data = []
    · rw [hd, overlay_nil] at hlt
      omega
    · rw [length_overlay, if_neg hd] at hlt
      rw [getElem?_overlay content position hd, if_neg ht, if_pos (by omega)]

lemma grows_resize (touched : Nat → Prop) {content : Bytes} {length : Nat}
    (h : content.length ≤ length) : Grows touched content (resize content length) := by
  refine ⟨by rwa [length_resize], ?_, ?_⟩
  · intro i hi _
    rw [getElem?_resize, if_pos (by omega), if_pos hi]
  · intro i hle hlt _
    rw [length_resize] at hlt
    rw [getElem?_resize, if_pos hlt, if_neg (by omega)]

/-- A write inside the first content restores or keeps what stood there, touched positions
apart. -/
lemma Grows.overlay {touched : Nat → Prop} {first second : Bytes} (h : Grows touched first second)
    {position : Nat} {data : Bytes} (hbound : position + data.length ≤ first.length)
    (hdata : ∀ i < data.length, ¬ touched (position + i) → data[i]? = first[position + i]?) :
    Grows touched first (second.overlay position data) := by
  have hlength := h.length_le
  have hlaid : (second.overlay position data).length = second.length := by
    rw [length_overlay]
    split <;> omega
  refine ⟨by rwa [hlaid], ?_, ?_⟩
  · intro i hi ht
    by_cases hin : position ≤ i ∧ i < position + data.length
    · have hplace : position + (i - position) = i := by omega
      have hnonempty : data ≠ [] := by
        rintro rfl
        rw [List.length_nil] at hin
        omega
      rw [getElem?_overlay _ _ hnonempty, if_pos hin,
        hdata (i - position) (by omega) (by rwa [hplace]), hplace]
    · rw [getElem?_overlay_of_outside _ (by omega) (by omega), h.kept i hi ht]
  · intro i hle hlt ht
    rw [hlaid] at hlt
    rw [getElem?_overlay_of_outside _ hlt (by omega), h.added i hle hlt ht]

end CoreSplice.Bytes
