import CoreSplice.Elf.Segment
import CoreSplice.Proofs.Bytes.Record

/-!
# Entries of the program header table

An entry that was read has the bytes that it was read from.  Of its fields only the size of the
stored part is ever changed, and the bytes of that field are all that changes of the entry.

* `Segment.stored` — a segment with another size of its stored part.
* `Segment.fileszOffset` — where that size stands in an entry.
* `Segment.exists_encode?_stored` — the sizes that an entry can be given.
* `Segment.InRange` — the values that the fields of an entry can hold, with
  `Segment.exists_encode?_iff_inRange`.
* **`Segment.encode?_ofWords`** — the bytes of an entry that was read.
* **`Segment.readWords_of_encode?`** — what is read from the bytes of an entry.
* **`Segment.getElem?_encode?_stored`**, **`Segment.slice_encode?`** — the bytes outside and inside
  of the field.
-/

namespace CoreSplice.Elf.Segment

/-- The segment with the given size of its stored part. -/
def stored (s : Segment) (filesz : Int) : Segment :=
  { s with filesz }

@[simp] lemma stored_filesz (s : Segment) : s.stored s.filesz = s := rfl

@[simp] lemma contains_stored (s : Segment) (filesz : Int) (region : Region) :
    (s.stored filesz).contains region = s.contains region := rfl

/-- A region that lies in the memory of a segment ends there. -/
lemma end_le_of_contains {s : Segment} {region : Region} (h : s.contains region = true) :
    region.address + region.size ≤ s.vaddr + s.memsz :=
  (of_decide_eq_true h).2

/-- Where the size of the stored part stands in an entry.  It is as wide as an address. -/
def fileszOffset : Width → Nat
  | .bits32 => 16
  | .bits64 => 32

lemma fileszOffset_le (width : Width) : fileszOffset width + width.addressSize ≤ size width := by
  cases width <;> decide

/-! ## The fields around the size -/

/-- The fields before the size of the stored part. -/
def fieldsBefore (s : Segment) : Width → List (Nat × Int)
  | .bits32 => [(4, s.kind), (4, s.offset), (4, s.vaddr), (4, s.paddr)]
  | .bits64 => [(4, s.kind), (4, s.flags), (8, s.offset), (8, s.vaddr), (8, s.paddr)]

/-- The fields behind the size of the stored part. -/
def fieldsBehind (s : Segment) : Width → List (Nat × Int)
  | .bits32 => [(4, s.memsz), (4, s.flags), (4, s.align)]
  | .bits64 => [(8, s.memsz), (8, s.align)]

lemma fields_eq (s : Segment) (width : Width) :
    s.fields width
      = s.fieldsBefore width ++ (width.addressSize, s.filesz) :: s.fieldsBehind width := by
  cases width <;> rfl

/-- The record that stores the fields. -/
def record (encoding : Encoding) (fields : List (Nat × Int)) : Bytes :=
  writeWords encoding.order (fields.map fun field => (field.1, field.2.toNat))

lemma length_record_fieldsBefore (s : Segment) (encoding : Encoding) :
    (record encoding (s.fieldsBefore encoding.width)).length = fileszOffset encoding.width := by
  rw [record, length_writeWords, List.map_map]
  cases encoding.width <;> rfl

/-- An entry that has bytes has three parts, of which the one in the middle is the size. -/
lemma encode?_eq_some {s : Segment} {encoding : Encoding} {bytes : Bytes}
    (h : s.encode? encoding = some bytes) :
    bytes = record encoding (s.fieldsBefore encoding.width)
        ++ (encoding.order.encode encoding.width.addressSize s.filesz.toNat
          ++ record encoding (s.fieldsBehind encoding.width)) ∧
      0 ≤ s.filesz ∧ s.filesz < Bytes.wordLimit encoding.width.addressSize := by
  simp only [encode?] at h
  split at h
  · rename_i hfits
    have hbytes := Option.some.inj h
    rw [fields_eq, List.all_append, List.all_cons] at hfits
    rw [fields_eq, List.map_append, List.map_cons, writeWords_append, writeWords_cons] at hbytes
    refine ⟨hbytes.symm, ?_⟩
    simp only [Bool.and_eq_true] at hfits
    simpa [fits] using hfits.2.1
  · cases h

/-- **Outside of its size** an entry stays as it is. -/
lemma getElem?_encode?_stored {s : Segment} {encoding : Encoding} {filesz : Int}
    {bytes bytes' : Bytes} (h : s.encode? encoding = some bytes)
    (h' : (s.stored filesz).encode? encoding = some bytes') {i : Nat}
    (hi : i < fileszOffset encoding.width ∨
      fileszOffset encoding.width + encoding.width.addressSize ≤ i) :
    bytes'[i]? = bytes[i]? := by
  have hbefore := length_record_fieldsBefore s encoding
  have hsize (n : Nat) := encoding.order.length_encode encoding.width.addressSize n
  obtain ⟨rfl, -⟩ := encode?_eq_some h
  obtain ⟨rfl, -⟩ := encode?_eq_some h'
  have hsame : record encoding ((s.stored filesz).fieldsBefore encoding.width)
      = record encoding (s.fieldsBefore encoding.width) := by
    cases encoding.width <;> rfl
  have hsame' : record encoding ((s.stored filesz).fieldsBehind encoding.width)
      = record encoding (s.fieldsBehind encoding.width) := by
    cases encoding.width <;> rfl
  rw [hsame, hsame']
  rcases hi with hi | hi
  · rw [List.getElem?_append_left (by omega), List.getElem?_append_left (by omega)]
  · have hbehind (n : Nat) (rest : Bytes) :
        (record encoding (s.fieldsBefore encoding.width)
          ++ (encoding.order.encode encoding.width.addressSize n ++ rest))[i]?
        = rest[i - fileszOffset encoding.width - encoding.width.addressSize]? := by
      rw [List.getElem?_append_right (by omega), hbefore,
        List.getElem?_append_right (by rw [hsize]; omega), hsize]
    rw [hbehind, hbehind]

/-- **In the field of its size** an entry holds the size. -/
lemma slice_encode? {s : Segment} {encoding : Encoding} {bytes : Bytes}
    (h : s.encode? encoding = some bytes) :
    (encoding.order.decode (bytes.slice (fileszOffset encoding.width) encoding.width.addressSize)
      : Int) = s.filesz := by
  have hbefore := length_record_fieldsBefore s encoding
  have hsize := encoding.order.length_encode encoding.width.addressSize s.filesz.toNat
  obtain ⟨rfl, hnonneg, hlimit⟩ := encode?_eq_some h
  rw [Bytes.slice, ← hbefore, List.drop_left, List.take_append_of_le_length (by omega),
    List.take_of_length_le (by omega), ByteOrder.decode_encode encoding.order (by omega)]
  omega

/-! ## Entries that have bytes -/

lemma exists_encode?_iff {s : Segment} {encoding : Encoding} :
    (∃ bytes, s.encode? encoding = some bytes) ↔ (s.fields encoding.width).all fits = true := by
  rw [encode?]
  split
  · rename_i hfits
    exact iff_of_true ⟨_, rfl⟩ hfits
  · rename_i hfits
    refine iff_of_false ?_ hfits
    rintro ⟨bytes, ⟨⟩⟩

/-- The smallest number that is no word of as many bits as an address has. -/
def addressLimit : Width → Int
  | .bits32 => 0x100000000
  | .bits64 => 0x10000000000000000

/-- Every field of the entry can hold its value.  Kind and flags are words of thirty-two bits, and
the other fields are as wide as an address. -/
@[mk_iff] structure InRange (s : Segment) (width : Width) : Prop where
  kind : 0 ≤ s.kind ∧ s.kind < 0x100000000
  flags : 0 ≤ s.flags ∧ s.flags < 0x100000000
  offset : 0 ≤ s.offset ∧ s.offset < addressLimit width
  vaddr : 0 ≤ s.vaddr ∧ s.vaddr < addressLimit width
  paddr : 0 ≤ s.paddr ∧ s.paddr < addressLimit width
  filesz : 0 ≤ s.filesz ∧ s.filesz < addressLimit width
  memsz : 0 ≤ s.memsz ∧ s.memsz < addressLimit width
  align : 0 ≤ s.align ∧ s.align < addressLimit width

/-- **An entry has bytes** if every field can hold its value, and only then. -/
lemma exists_encode?_iff_inRange {s : Segment} {encoding : Encoding} :
    (∃ bytes, s.encode? encoding = some bytes) ↔ s.InRange encoding.width := by
  have hfour : (Bytes.wordLimit 4 : Int) = 0x100000000 := by decide
  have height : (Bytes.wordLimit 8 : Int) = 0x10000000000000000 := by decide
  rw [exists_encode?_iff, inRange_iff]
  cases encoding.width <;>
    simp only [fields, widths, values, List.zip_cons_cons, List.zip_nil_right, List.all_cons,
      List.all_nil, Bool.and_true, Bool.and_eq_true, fits, decide_eq_true_iff, hfour, height,
      addressLimit]
  -- In narrow entries the flags stand behind the sizes.
  tauto

/-- Sizes and offset of a segment are fields of its entry that hold an address. -/
lemma range_of_encode? {s : Segment} {encoding : Encoding} {bytes : Bytes}
    (h : s.encode? encoding = some bytes) :
    (0 ≤ s.offset ∧ s.offset < Bytes.wordLimit encoding.width.addressSize) ∧
      (0 ≤ s.filesz ∧ s.filesz < Bytes.wordLimit encoding.width.addressSize) ∧
      (0 ≤ s.memsz ∧ s.memsz < Bytes.wordLimit encoding.width.addressSize) := by
  have hfits := exists_encode?_iff.1 ⟨bytes, h⟩
  cases hwidth : encoding.width <;>
    (simp only [hwidth, fields, widths, values, List.zip_cons_cons, List.zip_nil_right,
      List.all_cons, Bool.and_eq_true, fits, decide_eq_true_iff] at hfits
     exact ⟨by tauto, by tauto, by tauto⟩)

/-- An entry has bytes with any size of its stored part that a field can hold. -/
lemma exists_encode?_stored {s : Segment} {encoding : Encoding} {bytes : Bytes}
    (h : s.encode? encoding = some bytes) {filesz : Int} (hnonneg : 0 ≤ filesz)
    (hlimit : filesz < Bytes.wordLimit encoding.width.addressSize) :
    ∃ bytes', (s.stored filesz).encode? encoding = some bytes' := by
  have hfits := exists_encode?_iff.1 ⟨bytes, h⟩
  have hsame : (s.stored filesz).fieldsBefore encoding.width = s.fieldsBefore encoding.width ∧
      (s.stored filesz).fieldsBehind encoding.width = s.fieldsBehind encoding.width := by
    cases encoding.width <;> exact ⟨rfl, rfl⟩
  have hfit : fits (encoding.width.addressSize, filesz) = true :=
    decide_eq_true ⟨hnonneg, hlimit⟩
  rw [fields_eq, List.all_append, List.all_cons, Bool.and_eq_true, Bool.and_eq_true] at hfits
  rw [exists_encode?_iff, fields_eq, hsame.1, hsame.2, List.all_append, List.all_cons, hfits.1,
    hfits.2.2, Bool.and_true, Bool.true_and]
  exact hfit

/-! ## Entries that were read -/

lemma values_ofWords (width : Width) (index position : Nat) {words : List Nat}
    (h : words.length = 8) :
    (ofWords width index position words).values width = words.map Int.ofNat := by
  match words, h with
  | [_, _, _, _, _, _, _, _], _ => cases width <;> rfl

/-- **An entry that was read** has the bytes that it was read from. -/
theorem encode?_ofWords {encoding : Encoding} {content : Bytes} {words : List Nat}
    (h : readWords encoding.order (widths encoding.width) content = .ok words)
    (index position : Nat) :
    (ofWords encoding.width index position words).encode? encoding
      = some (content.take (size encoding.width)) := by
  obtain ⟨hbytes, hfits⟩ := writeWords_of_readWords h
  have hlength : words.length = 8 := by
    rw [(length_of_readWords h).1]
    cases encoding.width <;> rfl
  have hfields : (ofWords encoding.width index position words).fields encoding.width
      = ((widths encoding.width).zip words).map fun field => (field.1, (field.2 : Int)) := by
    rw [fields, values_ofWords _ _ _ hlength, List.zip_map_right]
    rfl
  have hall : ((ofWords encoding.width index position words).fields encoding.width).all fits := by
    rw [hfields, List.all_map, List.all_eq_true]
    intro field hfield
    have hlt := hfits field hfield
    simp only [Function.comp_apply, fits, decide_eq_true_eq]
    omega
  have hrecord : (((widths encoding.width).zip words).map fun field =>
      (field.1, (field.2 : Int))).map (fun field => (field.1, field.2.toNat))
        = (widths encoding.width).zip words := by
    rw [List.map_map]
    exact List.map_id _
  rw [encode?, if_pos hall, hfields, hrecord, hbytes]
  rfl

lemma ofWords_toNat {s : Segment} {width : Width} (h : ∀ value ∈ s.values width, 0 ≤ value)
    {index position : Nat} (hindex : s.index = index) (hposition : s.entryOffset = position) :
    ofWords width index position ((s.values width).map Int.toNat) = s := by
  obtain ⟨_, _, _, _, _, _, _, _, _, _⟩ := s
  cases hindex
  cases hposition
  cases width <;>
    (simp only [values, List.forall_mem_cons] at h
     simp [ofWords, values]
     omega)

/-- **An entry that is read back** is the one that was written. -/
theorem readWords_of_encode? {s : Segment} {encoding : Encoding} {bytes : Bytes}
    (h : s.encode? encoding = some bytes) :
    ∃ words, readWords encoding.order (widths encoding.width) bytes = .ok words ∧
      ∀ index position : Nat, s.index = index → s.entryOffset = position →
        ofWords encoding.width index position words = s := by
  simp only [encode?] at h
  split at h
  · rename_i hfits
    cases h
    rw [List.all_eq_true] at hfits
    have hfit : ∀ field ∈ s.fields encoding.width,
        0 ≤ field.2 ∧ field.2 < Bytes.wordLimit field.1 := by
      intro field hfield
      simpa [fits] using hfits field hfield
    have hstored : ∀ field ∈ (s.fields encoding.width).map fun field => (field.1, field.2.toNat),
        field.2 < Bytes.wordLimit field.1 := by
      intro field hfield
      obtain ⟨stored, hmem, rfl⟩ := List.mem_map.1 hfield
      obtain ⟨hnonneg, hlt⟩ := hfit stored hmem
      dsimp only
      omega
    have hwidths : ((s.fields encoding.width).map fun field => (field.1, field.2.toNat)).map
        Prod.fst = widths encoding.width := by
      cases encoding.width <;> rfl
    have hvalues : ((s.fields encoding.width).map fun field => (field.1, field.2.toNat)).map
        Prod.snd = (s.values encoding.width).map Int.toNat := by
      cases encoding.width <;> rfl
    have hread := readWords_writeWords encoding.order _ [] hstored
    rw [List.append_nil, hwidths, hvalues] at hread
    refine ⟨_, hread, fun index position => ofWords_toNat ?_⟩
    have hsecond : (s.fields encoding.width).map Prod.snd = s.values encoding.width := by
      cases encoding.width <;> rfl
    intro value hvalue
    rw [← hsecond] at hvalue
    obtain ⟨field, hfield, rfl⟩ := List.mem_map.1 hvalue
    exact (hfit field hfield).1
  · cases h

end CoreSplice.Elf.Segment
