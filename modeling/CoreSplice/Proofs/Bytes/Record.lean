import Mathlib.Tactic.Common
import CoreSplice.Bytes.Word

/-!
# Records that were read

A record that was read is written back as it was, and a record in which one word is replaced
differs from it in the bytes of that word only.

* `writeWords_of_readWords` — reading and then writing.
* `writeWords_append` — a record in two parts.
* `Bytes.slice_slice`, `Bytes.slice_overlay_of_disjoint` — a part of a part, and what a write
  beside a part leaves of it.
-/

namespace CoreSplice

/-! ## Words -/

lemma readWords_cons_eq_ok {order : ByteOrder} {width : Nat} {widths : List Nat} {content : Bytes}
    {words : List Nat} (h : readWords order (width :: widths) content = .ok words) :
    width ≤ content.length ∧ ∃ rest, words = order.decode (content.take width) :: rest ∧
      readWords order widths (content.drop width) = .ok rest := by
  simp only [readWords] at h
  split at h
  · cases h
  · rename_i hlength
    rw [List.length_take] at hlength
    cases hrest : readWords order widths (content.drop width) with
    | error shortfall =>
      rw [hrest] at h
      cases h
    | ok rest =>
      rw [hrest] at h
      cases h
      exact ⟨by omega, rest, rfl, rfl⟩

lemma length_of_readWords {order : ByteOrder} {widths : List Nat} {content : Bytes}
    {words : List Nat} (h : readWords order widths content = .ok words) :
    words.length = widths.length ∧ recordSize widths ≤ content.length := by
  induction widths generalizing content words with
  | nil =>
    cases h
    exact ⟨rfl, Nat.zero_le _⟩
  | cons width widths ih =>
    obtain ⟨hwidth, rest, rfl, hrest⟩ := readWords_cons_eq_ok h
    obtain ⟨hwords, hsize⟩ := ih hrest
    rw [List.length_drop] at hsize
    refine ⟨by rw [List.length_cons, List.length_cons, hwords], ?_⟩
    simp only [recordSize]
    omega

/-- A record is read of a content that is long enough. -/
lemma exists_readWords (order : ByteOrder) {widths : List Nat} {content : Bytes}
    (h : recordSize widths ≤ content.length) :
    ∃ words, readWords order widths content = .ok words := by
  induction widths generalizing content with
  | nil => exact ⟨[], rfl⟩
  | cons width widths ih =>
    rw [recordSize] at h
    have hrest : recordSize widths ≤ (content.drop width).length := by
      rw [List.length_drop]
      omega
    obtain ⟨words, hwords⟩ := ih hrest
    have hword : ¬ (content.take width).length < width := by
      rw [List.length_take]
      omega
    exact ⟨_, by rw [readWords, if_neg hword, hwords]; rfl⟩

/-- A word that was read is in the range of its width. -/
lemma getD_lt_of_readWords {order : ByteOrder} {widths : List Nat} {content : Bytes}
    {words : List Nat} (h : readWords order widths content = .ok words) (i : Nat) :
    words.getD i 0 < Bytes.wordLimit (widths.getD i 0) := by
  induction widths generalizing content words i with
  | nil =>
    cases h
    exact Nat.one_pos
  | cons width widths ih =>
    obtain ⟨hwidth, rest, rfl, hrest⟩ := readWords_cons_eq_ok h
    cases i with
    | zero =>
      have hlt := order.decode_lt (content.take width)
      rwa [List.length_take, Nat.min_eq_left hwidth] at hlt
    | succ i => exact ih hrest i

lemma writeWords_cons (order : ByteOrder) (field : Nat × Nat) (fields : List (Nat × Nat)) :
    writeWords order (field :: fields)
      = order.encode field.1 field.2 ++ writeWords order fields := by
  simp only [writeWords, List.flatMap_cons]

lemma writeWords_append (order : ByteOrder) (first second : List (Nat × Nat)) :
    writeWords order (first ++ second) = writeWords order first ++ writeWords order second := by
  simp only [writeWords, List.flatMap_append]

lemma length_writeWords (order : ByteOrder) (fields : List (Nat × Nat)) :
    (writeWords order fields).length = recordSize (fields.map Prod.fst) := by
  induction fields with
  | nil => rfl
  | cons field fields ih =>
    rw [writeWords_cons, List.length_append, ih, ByteOrder.length_encode]
    rfl

/-- **What was read is written back as it was**, and every word fits its field. -/
theorem writeWords_of_readWords {order : ByteOrder} {widths : List Nat} {content : Bytes}
    {words : List Nat} (h : readWords order widths content = .ok words) :
    writeWords order (widths.zip words) = content.take (recordSize widths) ∧
      ∀ field ∈ widths.zip words, field.2 < Bytes.wordLimit field.1 := by
  induction widths generalizing content words with
  | nil =>
    cases h
    refine ⟨rfl, ?_⟩
    intro field hfield
    cases hfield
  | cons width widths ih =>
    obtain ⟨hwidth, rest, rfl, hrest⟩ := readWords_cons_eq_ok h
    obtain ⟨hbytes, hfits⟩ := ih hrest
    have hlength : (content.take width).length = width := by
      rw [List.length_take]
      omega
    have hword : order.encode width (order.decode (content.take width)) = content.take width := by
      have hround := order.encode_decode (content.take width)
      rwa [hlength] at hround
    constructor
    · rw [List.zip_cons_cons, writeWords_cons, hbytes, hword, recordSize, List.take_add]
    · intro field hfield
      rw [List.zip_cons_cons] at hfield
      rcases List.mem_cons.1 hfield with rfl | hfield
      · have hlt := order.decode_lt (content.take width)
        rwa [hlength] at hlt
      · exact hfits field hfield

/-! ## Parts of a content -/

namespace Bytes

lemma slice_eq_of_getElem? {first second : Bytes} {position count : Nat}
    (h : ∀ i, position ≤ i → i < position + count → first[i]? = second[i]?) :
    slice first position count = slice second position count := by
  apply List.ext_getElem?
  intro i
  rw [getElem?_slice, getElem?_slice]
  split
  · exact h _ (Nat.le_add_right _ _) (by omega)
  · rfl

lemma slice_slice (content : Bytes) {position count start length : Nat}
    (h : start + length ≤ count) :
    slice (slice content position count) start length
      = slice content (position + start) length := by
  apply List.ext_getElem?
  intro i
  rw [getElem?_slice, getElem?_slice, getElem?_slice]
  split
  · rw [if_pos (by omega), Nat.add_assoc]
  · rfl

/-- A write beside a part of the content leaves the part alone. -/
lemma slice_overlay_of_disjoint {content : Bytes} {position count place : Nat} {data : Bytes}
    (hin : position + count ≤ content.length)
    (h : position + count ≤ place ∨ place + data.length ≤ position) :
    slice (overlay content place data) position count = slice content position count := by
  apply slice_eq_of_getElem?
  intro i hfirst hlast
  exact getElem?_overlay_of_outside content (by omega) (by omega)

/-- A content that is made longer keeps its parts. -/
lemma slice_resize {content : Bytes} {position count length : Nat}
    (hin : position + count ≤ content.length) (hlength : content.length ≤ length) :
    slice (resize content length) position count = slice content position count := by
  apply slice_eq_of_getElem?
  intro i hfirst hlast
  rw [getElem?_resize, if_pos (by omega), if_pos (by omega)]

end Bytes

end CoreSplice
