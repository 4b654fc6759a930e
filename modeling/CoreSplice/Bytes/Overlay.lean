/-!
# Laying bytes over the content of a file

The content of a file is a list of bytes, and every change that is made to a core is one of two:
bytes are laid over the content at a position, or the content is given another length.

* `slice` — the bytes a read at a position delivers, cut short at the end of the content.
* `overlay` — the content after a write at a position.  A write past the end fills the gap with
  zeros, and a write of no bytes changes nothing, wherever it is aimed.
* `resize` — the content cut or extended with zeros to a given length.

Each has a lemma for its length and one for every position of the result (`getElem?_slice`,
`getElem?_overlay`, `getElem?_resize`); arguments about files need no more than these.
-/

namespace CoreSplice

/-- The content of a file, or a part of it. -/
abbrev Bytes := List UInt8

namespace Bytes

/-- At most `count` bytes of the content, from `position` on. -/
def slice (content : Bytes) (position count : Nat) : Bytes :=
  (content.drop position).take count

/-- The content after `data` was written at `position`. -/
def overlay (content : Bytes) (position : Nat) (data : Bytes) : Bytes :=
  if data = [] then content
  else content.take position ++ List.replicate (position - content.length) 0 ++ data
    ++ content.drop (position + data.length)

/-- The content cut, or extended with zeros, to `length` bytes. -/
def resize (content : Bytes) (length : Nat) : Bytes :=
  content.take length ++ List.replicate (length - content.length) 0

/-! ## Reading a part -/

/-- A read delivers what was asked for, or what there is until the end. -/
@[simp] theorem length_slice (content : Bytes) (position count : Nat) :
    (slice content position count).length = min count (content.length - position) := by
  simp [slice]

/-- What stands at each position of a part. -/
theorem getElem?_slice (content : Bytes) (position count i : Nat) :
    (slice content position count)[i]? = if i < count then content[position + i]? else none := by
  simp [slice, List.getElem?_take]

/-! ## Writing a part -/

/-- Writing no bytes changes nothing, not even the length. -/
@[simp] theorem overlay_nil (content : Bytes) (position : Nat) :
    overlay content position [] = content := by
  simp [overlay]

/-- A write makes the content reach the end of the data, if there is any. -/
theorem length_overlay (content : Bytes) (position : Nat) (data : Bytes) :
    (overlay content position data).length =
      if data = [] then content.length else max content.length (position + data.length) := by
  unfold overlay
  split
  · rfl
  · simp only [List.length_append, List.length_take, List.length_replicate, List.length_drop]
    omega

/-- No write makes the content shorter. -/
theorem length_le_length_overlay (content : Bytes) (position : Nat) (data : Bytes) :
    content.length ≤ (overlay content position data).length := by
  rw [length_overlay]
  split <;> omega

/-- What stands at each position after a write: the data where it was written, zeros in the gap
before it, and the old content elsewhere. -/
theorem getElem?_overlay (content : Bytes) (position : Nat) {data : Bytes} (h : data ≠ [])
    (i : Nat) :
    (overlay content position data)[i]? =
      if position ≤ i ∧ i < position + data.length then data[i - position]?
      else if content.length ≤ i ∧ i < position then some 0
      else content[i]? := by
  have hlen : 0 < data.length := List.length_pos_iff.2 h
  simp only [overlay, h, if_false, List.getElem?_append, List.length_append, List.length_take,
    List.length_replicate, List.getElem?_take, List.getElem?_replicate, List.getElem?_drop]
  grind

/-- Outside the bytes it covers and the gap it fills, a write leaves the content alone. -/
theorem getElem?_overlay_of_outside (content : Bytes) {position : Nat} {data : Bytes} {i : Nat}
    (hi : i < content.length) (h : i < position ∨ position + data.length ≤ i) :
    (overlay content position data)[i]? = content[i]? := by
  by_cases hd : data = []
  · simp [hd]
  · rw [getElem?_overlay content position hd]
    grind

/-- What was written is read back. -/
theorem slice_overlay (content : Bytes) (position : Nat) (data : Bytes) :
    slice (overlay content position data) position data.length = data := by
  by_cases hd : data = []
  · simp [hd, slice]
  · apply List.ext_getElem?
    intro i
    rw [getElem?_slice, getElem?_overlay content position hd]
    grind

/-- Writing back what was read changes nothing. -/
theorem overlay_slice (content : Bytes) {position count : Nat}
    (h : position + count ≤ content.length) :
    overlay content position (slice content position count) = content := by
  by_cases hd : slice content position count = []
  · simp [hd]
  · apply List.ext_getElem?
    intro i
    rw [getElem?_overlay content position hd, length_slice]
    grind [getElem?_slice]

/-! ## Changing the length -/

/-- Content that has the length is left as it is. -/
@[simp] theorem resize_self (content : Bytes) : resize content content.length = content := by
  rw [resize, List.take_length, Nat.sub_self, List.replicate_zero, List.append_nil]

/-- The length is the one that was asked for. -/
@[simp] theorem length_resize (content : Bytes) (length : Nat) :
    (resize content length).length = length := by
  simp only [resize, List.length_append, List.length_take, List.length_replicate]
  omega

/-- What stands at each position after the length was changed: the old bytes as far as they reach,
and zeros behind them. -/
theorem getElem?_resize (content : Bytes) (length i : Nat) :
    (resize content length)[i]? =
      if i < length then (if i < content.length then content[i]? else some 0) else none := by
  simp only [resize, List.getElem?_append, List.length_take, List.getElem?_take,
    List.getElem?_replicate]
  grind

end Bytes

end CoreSplice
