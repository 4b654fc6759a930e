import CoreSplice.Bytes.Overlay

/-!
# Content that is looked at in many places

The tables of a file send a reader from one place to another.  A list is gone through from its
start, so content that is read like this is held by position instead.

* `IndexedBytes` — the bytes by position.
* `IndexedBytes.slice` — the bytes a read at a position delivers.
* `IndexedBytes.untilZero?` — the bytes from a position on that a zero byte closes.

Each gives what it gives on the list of the bytes (`slice_toArray`, `untilZero?_toArray`).
-/

namespace CoreSplice

/-- The content of a file by position. -/
abbrev IndexedBytes := Array UInt8

namespace IndexedBytes

/-- At most `count` bytes of the content, from `position` on. -/
def slice (content : IndexedBytes) (position count : Nat) : Bytes :=
  (content.extract position (position + count)).toList

/-- The bytes from a position on that a zero byte closes, if it is among the next `count`. -/
def zeroWithin? (content : IndexedBytes) (position : Nat) : Nat → Option Bytes
  | 0 => none
  | count + 1 =>
    match content[position]? with
    | none => none
    | some b => if b = 0 then some [] else (zeroWithin? content (position + 1) count).map (b :: ·)

/-- The bytes from a position on that a zero byte closes, if there is one. -/
def untilZero? (content : IndexedBytes) (position : Nat) : Option Bytes :=
  zeroWithin? content position (content.size - position)

/-- Held by position or as a list, content gives the same bytes to a read. -/
theorem slice_toArray (content : Bytes) (position count : Nat) :
    slice content.toArray position count = content.slice position count := by
  simp [slice, Bytes.slice]

/-- A closing zero byte is found where the list has its first one. -/
theorem zeroWithin?_toArray (content : Bytes) (position count : Nat) :
    zeroWithin? content.toArray position count =
      if 0 ∈ content.slice position count then
        some ((content.drop position).takeWhile (· ≠ 0))
      else none := by
  induction count generalizing position with
  | zero => simp [zeroWithin?, Bytes.slice]
  | succ count ih =>
    rw [zeroWithin?, List.getElem?_toArray]
    cases hb : content[position]? with
    | none =>
      have hdrop : content.drop position = [] := List.drop_eq_nil_iff.2 (by simpa using hb)
      simp [Bytes.slice, hdrop]
    | some b =>
      obtain ⟨hlt, hget⟩ := List.getElem?_eq_some_iff.1 hb
      have hdrop : content.drop position = b :: content.drop (position + 1) := by
        rw [List.drop_eq_getElem_cons hlt, hget]
      by_cases hzero : b = 0
      · simp [Bytes.slice, hdrop, hzero]
      · simp only [hzero, if_false, ih, Bytes.slice, hdrop, List.take_succ_cons, List.mem_cons,
          Ne.symm hzero, false_or, List.takeWhile_cons]
        split <;> simp_all

/-- What a zero byte closes is read up to it. -/
theorem untilZero?_toArray (content : Bytes) (position : Nat) :
    untilZero? content.toArray position =
      if 0 ∈ content.drop position then some ((content.drop position).takeWhile (· ≠ 0))
      else none := by
  have hslice : content.slice position (content.length - position) = content.drop position := by
    rw [Bytes.slice, List.take_of_length_le (by simp)]
  rw [untilZero?, List.size_toArray, zeroWithin?_toArray, hslice]

end IndexedBytes

end CoreSplice
