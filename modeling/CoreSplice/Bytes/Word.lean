import CoreSplice.Bytes.Overlay

/-!
# Words of a fixed width

Every number in an object file is a word of one, two, four or eight bytes in one of two byte
orders, and the records of the file are such words in a row.

* `ByteOrder.encode`, `ByteOrder.decode` — one word, with the round trip in both directions
  (`decode_encode`, `encode_decode`) and the bound `decode_lt`.
* `readWords` — the words of a record, read one after the other.  The first word that the
  content cannot fill is reported with the number of bytes that were there.
* `writeWords` — the bytes of a record, with `readWords_writeWords`.
-/

namespace CoreSplice

/-- Which end of a word is stored first. -/
inductive ByteOrder where
  | little
  | big
  deriving DecidableEq, Repr

namespace Bytes

/-- The low `width` bytes of `n`, least significant first. -/
def ofNatLittle : Nat → Nat → Bytes
  | 0, _ => []
  | width + 1, n => UInt8.ofNat n :: ofNatLittle width (n / 256)

/-- How many numbers there are of `width` bytes. -/
def wordLimit : Nat → Nat
  | 0 => 1
  | width + 1 => 256 * wordLimit width

/-- The number whose bytes, least significant first, are given. -/
def toNatLittle : Bytes → Nat
  | [] => 0
  | b :: bs => b.toNat + 256 * toNatLittle bs

/-- A word has the width that was asked for. -/
@[simp] theorem length_ofNatLittle (width n : Nat) : (ofNatLittle width n).length = width := by
  induction width generalizing n with
  | zero => rfl
  | succ width ih => simp [ofNatLittle, ih]

/-- A number that fits a word is read back from it. -/
theorem toNatLittle_ofNatLittle {width n : Nat} (h : n < wordLimit width) :
    toNatLittle (ofNatLittle width n) = n := by
  induction width generalizing n with
  | zero => simp only [wordLimit, Nat.lt_one_iff] at h; simp [ofNatLittle, toNatLittle, h]
  | succ width ih =>
    have hdiv : n / 256 < wordLimit width := Nat.div_lt_of_lt_mul h
    simp only [ofNatLittle, toNatLittle, ih hdiv, UInt8.toNat_ofNat']
    omega

/-- A word stands for a number that fits it. -/
theorem toNatLittle_lt (bs : Bytes) : toNatLittle bs < wordLimit bs.length := by
  induction bs with
  | nil => simp [toNatLittle, wordLimit]
  | cons b bs ih =>
    have hb : b.toNat < 256 := b.toNat_lt
    simp only [toNatLittle, List.length_cons, wordLimit]
    omega

/-- A word that was read is written back as it was. -/
theorem ofNatLittle_toNatLittle (bs : Bytes) : ofNatLittle bs.length (toNatLittle bs) = bs := by
  induction bs with
  | nil => rfl
  | cons b bs ih =>
    have hb : b.toNat < 256 := b.toNat_lt
    have hdiv : (b.toNat + 256 * toNatLittle bs) / 256 = toNatLittle bs := by omega
    simp only [List.length_cons, ofNatLittle, toNatLittle, hdiv, ih, List.cons.injEq, and_true]
    apply UInt8.toNat_inj.1
    simp only [UInt8.toNat_ofNat']
    omega

end Bytes

namespace ByteOrder

/-- The low `width` bytes of `n` in this order. -/
def encode (order : ByteOrder) (width n : Nat) : Bytes :=
  match order with
  | little => Bytes.ofNatLittle width n
  | big => (Bytes.ofNatLittle width n).reverse

/-- The number that the bytes stand for in this order. -/
def decode (order : ByteOrder) (bytes : Bytes) : Nat :=
  match order with
  | little => Bytes.toNatLittle bytes
  | big => Bytes.toNatLittle bytes.reverse

/-- In either order a word has the width that was asked for. -/
@[simp] theorem length_encode (order : ByteOrder) (width n : Nat) :
    (order.encode width n).length = width := by
  cases order <;> simp [encode]

/-- A number that fits a word is read back from it. -/
theorem decode_encode (order : ByteOrder) {width n : Nat} (h : n < Bytes.wordLimit width) :
    order.decode (order.encode width n) = n := by
  cases order <;> simp [encode, decode, Bytes.toNatLittle_ofNatLittle h]

/-- In either order a word stands for a number that fits it. -/
theorem decode_lt (order : ByteOrder) (bytes : Bytes) :
    order.decode bytes < Bytes.wordLimit bytes.length := by
  cases order
  · exact Bytes.toNatLittle_lt bytes
  · simpa [decode] using Bytes.toNatLittle_lt bytes.reverse

/-- A word that was read is written back as it was. -/
theorem encode_decode (order : ByteOrder) (bytes : Bytes) :
    order.encode bytes.length (order.decode bytes) = bytes := by
  cases order
  · exact Bytes.ofNatLittle_toNatLittle bytes
  · have h := Bytes.ofNatLittle_toNatLittle bytes.reverse
    rw [List.length_reverse] at h
    simp [encode, decode, h]

end ByteOrder

/-! ## Records -/

/-- A word that the content ends in: its width, and how many bytes of it were there. -/
structure Shortfall where
  expected : Nat
  found : Nat
  deriving DecidableEq, Repr

/-- The number of bytes of a record with words of the given widths. -/
def recordSize : List Nat → Nat
  | [] => 0
  | width :: widths => width + recordSize widths

/-- The words of the given widths at the start of the content. -/
def readWords (order : ByteOrder) : List Nat → Bytes → Except Shortfall (List Nat)
  | [], _ => .ok []
  | width :: widths, content =>
    let word := content.take width
    if word.length < width then .error ⟨width, word.length⟩
    else (readWords order widths (content.drop width)).map (order.decode word :: ·)

/-- The record of words with the given widths and values. -/
def writeWords (order : ByteOrder) (fields : List (Nat × Nat)) : Bytes :=
  fields.flatMap fun (width, value) => order.encode width value

/-- A record whose values fit is read back, whatever follows it. -/
theorem readWords_writeWords (order : ByteOrder) (fields : List (Nat × Nat)) (rest : Bytes)
    (h : ∀ field ∈ fields, field.2 < Bytes.wordLimit field.1) :
    readWords order (fields.map Prod.fst) (writeWords order fields ++ rest) =
      .ok (fields.map Prod.snd) := by
  induction fields with
  | nil => rfl
  | cons field fields ih =>
    obtain ⟨width, value⟩ := field
    have hv : value < Bytes.wordLimit width := h (width, value) List.mem_cons_self
    have ih := ih fun field hf => h field (List.mem_cons_of_mem _ hf)
    have htake : (order.encode width value ++ (writeWords order fields ++ rest)).take width =
        order.encode width value := by
      rw [List.take_append_of_le_length (by simp), List.take_of_length_le (by simp)]
    have hdrop : (order.encode width value ++ (writeWords order fields ++ rest)).drop width =
        writeWords order fields ++ rest := by
      rw [List.drop_append_of_le_length (by simp), List.drop_of_length_le (by simp),
        List.nil_append]
    have hsplit : writeWords order ((width, value) :: fields) ++ rest =
        order.encode width value ++ (writeWords order fields ++ rest) := by
      simp [writeWords]
    rw [hsplit]
    simp only [List.map_cons, readWords, htake, hdrop, ih, ByteOrder.length_encode, Nat.lt_irrefl,
      if_false, ByteOrder.decode_encode order hv]
    rfl

end CoreSplice
