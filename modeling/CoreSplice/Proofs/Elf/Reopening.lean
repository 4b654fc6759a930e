import CoreSplice.Proofs.Elf.Covering

/-!
# Opening a file again

What is read when a file is opened is its header and the entries of its program header table.  So
a file in which entries of loaded segments were written again can be opened again, and the table
that is read then has the segments that were written.

* `Orderly` — a file with a header and a table of entries that need no sections to be read.
* `Orderly.of_agrees` — another file with the same bytes there.
* `Rewritten` — a file in which other segments stand in the place of the loaded ones.
* **`LoadTable.ofContent_rewritten`** — its table has these segments.
-/

namespace CoreSplice.Elf

/-! ## Reading at a position -/

lemma Reading.outcome_seek_eq_ok_iff {position : Nat} {done : Unit} :
    (Reading.seek position).outcome = .ok done ↔ position < positionLimit := by
  constructor
  · intro h
    simp only [Reading.seek] at h
    obtain ⟨n, hn, -⟩ := Outcome.map_eq_ok.1 h
    have hoffset := Outcome.mapError_eq_ok.1 hn
    simp only [checkOffset] at hoffset
    split at hoffset
    · cases hoffset
    · rename_i hin
      have hlimit := (isOffset_iff.1 (by simpa using hin)).2
      omega
  · exact Reading.outcome_seek

lemma outcome_readRecord_iff {order : ByteOrder} {content : Bytes} {position : Nat}
    {widths words : List Nat} :
    (readRecord order content.toArray position widths).outcome = .ok words ↔
      position < positionLimit ∧
        readWords order widths (content.slice position (recordSize widths)) = .ok words := by
  rw [readRecord, Reading.outcome_bind, Outcome.bind_eq_ok]
  simp only [Reading.outcome_seek_eq_ok_iff, Reading.outcome_ofOutcome, IndexedBytes.slice_toArray,
    Outcome.mapError_eq_ok, exists_const]

/-- What is read as an entry. -/
lemma readSegment_eq_ok_iff {header : Header} {content : Bytes} {index : Nat} {s : Segment} :
    (LoadTable.readSegment header content.toArray index).outcome = .ok s ↔
      (header.segmentTable = 0 ∨ Segment.size header.encoding.width ≤ header.segmentEntrySize) ∧
        header.segmentTable + index * header.segmentEntrySize < positionLimit ∧
        ∃ words, readWords header.encoding.order (Segment.widths header.encoding.width)
            (content.slice (header.segmentTable + index * header.segmentEntrySize)
              (Segment.size header.encoding.width)) = .ok words ∧
          s = Segment.ofWords header.encoding.width index
            (header.segmentTable + index * header.segmentEntrySize) words := by
  rw [LoadTable.readSegment, Reading.outcome_bind, Outcome.bind_eq_ok]
  simp only [Reading.outcome_require, Reading.outcome_bind, Reading.outcome_pure]
  constructor
  · rintro ⟨done, hroom, hread⟩
    obtain ⟨words, hwords, hs⟩ := Outcome.bind_eq_ok.1 hread
    obtain ⟨hposition, hwords⟩ := outcome_readRecord_iff.1 hwords
    cases hs
    split at hroom
    · rename_i hfits
      exact ⟨hfits, hposition, words, hwords, rfl⟩
    · cases hroom
  · rintro ⟨hroom, hposition, words, hwords, rfl⟩
    exact ⟨(), if_pos hroom, Outcome.bind_eq_ok.2
      ⟨words, outcome_readRecord_iff.2 ⟨hposition, hwords⟩, rfl⟩⟩

/-- Where the same bytes stand the same entry is read. -/
lemma readSegment_of_slice {header : Header} {old new : Bytes} {index : Nat} {s : Segment}
    (h : (LoadTable.readSegment header old.toArray index).outcome = .ok s)
    (hslice : new.slice (header.segmentTable + index * header.segmentEntrySize)
        (Segment.size header.encoding.width)
      = old.slice (header.segmentTable + index * header.segmentEntrySize)
        (Segment.size header.encoding.width)) :
    (LoadTable.readSegment header new.toArray index).outcome = .ok s := by
  rw [readSegment_eq_ok_iff] at h ⊢
  rwa [hslice]

/-- Where the bytes of another segment stand that segment is read. -/
lemma readSegment_of_encode? {header : Header} {old new : Bytes} {index : Nat} {s s' : Segment}
    (h : (LoadTable.readSegment header old.toArray index).outcome = .ok s)
    (hindex : s'.index = s.index) (hentry : s'.entryOffset = s.entryOffset)
    (hbytes : s'.encode? header.encoding
      = some (new.slice s.entryOffset.toNat (Segment.size header.encoding.width))) :
    (LoadTable.readSegment header new.toArray index).outcome = .ok s' := by
  obtain ⟨hfits, hposition, words, -, rfl⟩ := readSegment_eq_ok_iff.1 h
  have hplace (words : List Nat) (position : Nat) :
      (Segment.ofWords header.encoding.width index position words).index = index ∧
        (Segment.ofWords header.encoding.width index position words).entryOffset = position := by
    cases header.encoding.width <;> exact ⟨rfl, rfl⟩
  obtain ⟨hown, hoffset⟩ := hplace words
    (header.segmentTable + index * header.segmentEntrySize)
  rw [hoffset, Int.toNat_natCast] at hbytes
  obtain ⟨words', hwords', hsame⟩ := Segment.readWords_of_encode? hbytes
  exact readSegment_eq_ok_iff.2 ⟨hfits, hposition, words', hwords',
    (hsame index _ (hindex.trans hown) (hentry.trans hoffset)).symm⟩

/-! ## Reading the header -/

namespace Header

/-- How many bytes of a file are read as its header. -/
def size (width : Width) : Nat :=
  recordSize (widths width)

lemma encoding_ofContent_congr {old new : Bytes} {length : Nat} (hlength : 6 ≤ length)
    (hsame : new.slice 0 length = old.slice 0 length) :
    Encoding.ofContent new.toArray = Encoding.ofContent old.toArray := by
  have hmagic : new.slice 0 4 = old.slice 0 4 := by
    have hpart (content : Bytes) : content.slice 0 4 = (content.slice 0 length).take 4 := by
      rw [Bytes.slice, Bytes.slice, List.take_take, Nat.min_eq_left (by omega)]
    rw [hpart, hpart, hsame]
  have hbyte (i : Nat) (hi : i < length) : new[i]? = old[i]? := by
    have hget := congrArg (fun bytes : Bytes => bytes[i]?) hsame
    simpa only [Bytes.getElem?_slice, if_pos hi, Nat.zero_add] using hget
  simp only [Encoding.ofContent, IndexedBytes.slice_toArray, List.getElem?_toArray, hmagic,
    hbyte 4 (by omega), hbyte 5 (by omega)]

/-- What is read as a header. -/
lemma ofContent_eq_ok_iff {content : Bytes} {header : Header} :
    (Header.ofContent content.toArray).outcome = .ok header ↔
      content.length < positionLimit ∧
        Encoding.ofContent content.toArray = .ok header.encoding ∧
        ∃ words, readWords header.encoding.order (widths header.encoding.width)
            (content.slice 0 (size header.encoding.width)) = .ok words ∧
          header = ofWords header.encoding words := by
  have hstart : 0 < positionLimit := by decide
  rw [Header.ofContent]
  simp only [Reading.outcome_bind, Outcome.bind_eq_ok, Reading.outcome_seek_eq_ok_iff,
    Reading.outcome_ofOutcome, Outcome.mapError_eq_ok, outcome_readRecord_iff,
    Reading.outcome_pure, List.size_toArray]
  constructor
  · rintro ⟨-, hlength, -, -, encoding, hencoding, words, ⟨-, hwords⟩, -, -, hheader⟩
    cases hheader
    exact ⟨hlength, hencoding, words, hwords, rfl⟩
  · rintro ⟨hlength, hencoding, words, hwords, hheader⟩
    exact ⟨(), hlength, (), hstart, _, hencoding, words, ⟨hstart, hwords⟩, (), hstart,
      congrArg Except.ok hheader.symm⟩

/-- A file that begins with the bytes of a header has that header. -/
lemma ofContent_of_slice {old new : Bytes} {header : Header}
    (h : (Header.ofContent old.toArray).outcome = .ok header) (hlength : new.length < positionLimit)
    (hsame : new.slice 0 (size header.encoding.width) = old.slice 0 (size header.encoding.width)) :
    (Header.ofContent new.toArray).outcome = .ok header := by
  have hsix : 6 ≤ size header.encoding.width := by
    cases header.encoding.width <;> decide
  obtain ⟨-, hencoding, hwords⟩ := ofContent_eq_ok_iff.1 h
  refine ofContent_eq_ok_iff.2 ⟨hlength, ?_, ?_⟩
  · rw [encoding_ofContent_congr hsix hsame, hencoding]
  · rwa [hsame]

lemma size_le_length {content : Bytes} {header : Header}
    (h : (Header.ofContent content.toArray).outcome = .ok header) :
    size header.encoding.width ≤ content.length := by
  obtain ⟨-, -, words, hwords, -⟩ := ofContent_eq_ok_iff.1 h
  have hin := (length_of_readWords hwords).2
  rw [Bytes.length_slice] at hin
  rw [size] at hin ⊢
  omega

/-- Where the entry with an index stands. -/
def entryAt (header : Header) (index : Nat) : Nat :=
  header.segmentTable + index * header.segmentEntrySize

end Header

/-- The file begins with the header, and has a program header table behind it whose entries can be
read without the sections of the file. -/
structure Orderly (content : Bytes) (header : Header) : Prop where
  read : (Header.ofContent content.toArray).outcome = .ok header
  few : header.segmentEntries < numberElsewhere
  behind : Header.size header.encoding.width ≤ header.segmentTable
  room : Segment.size header.encoding.width ≤ header.segmentEntrySize
  inside : ∀ index < header.segmentEntries,
    header.entryAt index + Segment.size header.encoding.width ≤ content.length
  noDynamic : ∀ index < header.segmentEntries, ∀ s,
    (LoadTable.readSegment header content.toArray index).outcome = .ok s → s.kind ≠ dynamicKind

/-- The position lies in the header or in the program header table. -/
def Header.Reaches (header : Header) (i : Nat) : Prop :=
  i < Header.size header.encoding.width ∨ (header.segmentTable ≤ i ∧
    i < header.segmentTable + header.segmentEntries * header.segmentEntrySize)

/-- An entry lies in the program header table. -/
lemma Orderly.reaches_entry {content : Bytes} {header : Header} (h : Orderly content header)
    {index : Nat} (hindex : index < header.segmentEntries) {i : Nat}
    (hle : header.entryAt index ≤ i)
    (hlt : i < header.entryAt index + Segment.size header.encoding.width) : header.Reaches i := by
  have hnext : (index + 1) * header.segmentEntrySize
      = index * header.segmentEntrySize + header.segmentEntrySize := Nat.succ_mul ..
  have hmul := Nat.mul_le_mul_right header.segmentEntrySize (Nat.succ_le_of_lt hindex)
  have hroom := h.room
  simp only [Header.entryAt] at hle hlt
  refine Or.inr ⟨by omega, ?_⟩
  rw [Nat.succ_eq_add_one] at hmul
  omega

/-- A file that is no shorter and has the same bytes in header and table is as orderly. -/
theorem Orderly.of_agrees {old new : Bytes} {header : Header} (h : Orderly old header)
    (hlimit : new.length < positionLimit) (hlength : old.length ≤ new.length)
    (hsame : ∀ i < old.length, header.Reaches i → new[i]? = old[i]?) : Orderly new header := by
  have hsize := Header.size_le_length h.read
  have hheader : new.slice 0 (Header.size header.encoding.width)
      = old.slice 0 (Header.size header.encoding.width) := by
    refine Bytes.slice_eq_of_getElem? ?_
    intro i _ hi
    exact hsame i (by omega) (Or.inl (by omega))
  have hentry : ∀ index < header.segmentEntries,
      old.slice (header.entryAt index) (Segment.size header.encoding.width)
        = new.slice (header.entryAt index) (Segment.size header.encoding.width) := by
    intro index hindex
    refine Bytes.slice_eq_of_getElem? ?_
    intro i hle hlt
    have hin := h.inside index hindex
    exact (hsame i (by omega) (h.reaches_entry hindex hle hlt)).symm
  refine ⟨Header.ofContent_of_slice h.read hlimit hheader, h.few, h.behind, h.room, ?_, ?_⟩
  · intro index hindex
    exact Nat.le_trans (h.inside index hindex) hlength
  · intro index hindex s hs
    exact h.noDynamic index hindex s (readSegment_of_slice hs (hentry index hindex))

/-- The header of a core with two loaded segments. -/
def twoLoadsHeader : Header :=
  ⟨⟨.bits32, .big⟩, 0, 52, 0, 32, 2, 0, 0, 0⟩

lemma orderly_twoLoads : Orderly twoLoads twoLoadsHeader := by
  have hfirst : (LoadTable.readSegment twoLoadsHeader twoLoads.toArray 0).outcome
      = .ok ⟨0, 52, 1, 116, 0x1000, 0, 2, 0x20, 4, 1⟩ := by
    decide +kernel
  have hsecond : (LoadTable.readSegment twoLoadsHeader twoLoads.toArray 1).outcome
      = .ok ⟨1, 84, 1, 118, 0x1010, 0, 0, 0x20, 6, 1⟩ := by
    decide +kernel
  refine ⟨by decide +kernel, by decide, by decide, by decide, by decide +kernel, ?_⟩
  intro index hindex s hread
  have hcases : index = 0 ∨ index = 1 := by
    have hlt : index < 2 := hindex
    omega
  rcases hcases with rfl | rfl
  · rw [hfirst] at hread
    cases hread
    decide
  · rw [hsecond] at hread
    cases hread
    decide

/-! ## Reading the table -/

/-- The new content has other segments in the place of the loaded ones of the old content. -/
structure Rewritten (header : Header) (old new : Bytes) (loads loads' : List Segment) : Prop where
  length : loads'.length = loads.length
  entries : ∀ (n : Nat) (s : Segment), loads[n]? = some s → ∃ s', loads'[n]? = some s' ∧
    s'.kind = s.kind ∧ s'.index = s.index ∧ s'.entryOffset = s.entryOffset ∧
    s'.encode? header.encoding
      = some (new.slice s.entryOffset.toNat (Segment.size header.encoding.width))
  others : ∀ index < header.segmentEntries, ∀ s,
    (LoadTable.readSegment header old.toArray index).outcome = .ok s → s.kind ≠ loadKind →
      new.slice (header.entryAt index) (Segment.size header.encoding.width)
        = old.slice (header.entryAt index) (Segment.size header.encoding.width)

namespace LoadTable

lemma openSegment_of_not_dynamic {header : Header} {content : Bytes} {index : Nat} {s : Segment}
    (h : (readSegment header content.toArray index).outcome = .ok s)
    (hkind : s.kind ≠ dynamicKind) (known : Option SectionHeader) :
    (openSegment header content.toArray known index).outcome = .ok (s, known) := by
  rw [openSegment, Reading.outcome_bind, h]
  show (if s.kind = dynamicKind then _ else _ : Reading _).outcome = _
  rw [if_neg hkind]
  rfl

/-- The segments of a table that was read are loaded ones, each read at its index. -/
lemma mem_of_readLoads {header : Header} {content : Bytes} {count index seeks : Nat}
    {known : Option SectionHeader} {before loads : List Segment}
    (h : (readLoads header content.toArray index count seeks known before).outcome = .ok loads)
    {s : Segment} (hs : s ∈ loads) :
    s ∈ before ∨ ∃ i < index + count, s.kind = loadKind ∧
      (readSegment header content.toArray i).outcome = .ok s := by
  induction count generalizing index seeks known before with
  | zero =>
    cases h
    exact Or.inl (List.mem_reverse.1 hs)
  | succ count ih =>
    rw [readLoads] at h
    split at h
    · cases h
    · rename_i t known' hopen
      rcases ih h with hbefore | ⟨i, hi, hread⟩
      · split at hbefore
        · rename_i hkind
          rcases List.mem_cons.1 hbefore with rfl | hbefore
          · exact Or.inr ⟨index, by omega, hkind, of_openSegment hopen⟩
          · exact Or.inl hbefore
        · exact Or.inl hbefore
      · exact Or.inr ⟨i, by omega, hread⟩

/-- Where other segments were written these are read. -/
lemma readLoads_rewritten {header : Header} {old new : Bytes} {loads loads' : List Segment}
    (hrewritten : Rewritten header old new loads loads')
    (hdynamic : ∀ index < header.segmentEntries, ∀ s,
      (readSegment header old.toArray index).outcome = .ok s → s.kind ≠ dynamicKind)
    {count index seeks : Nat} {known : Option SectionHeader} {before : List Segment}
    (hrange : index + count ≤ header.segmentEntries)
    (h : (readLoads header old.toArray index count seeks known before).outcome = .ok loads)
    (seeks' : Nat) (known' : Option SectionHeader) :
    (readLoads header new.toArray index count seeks' known'
      (loads'.take before.length).reverse).outcome = .ok loads' := by
  induction count generalizing index seeks known before seeks' known' with
  | zero =>
    cases h
    have hlength : loads'.length = before.length := by
      rw [hrewritten.length, List.length_reverse]
    rw [readLoads, List.reverse_reverse, List.take_of_length_le (Nat.le_of_eq hlength)]
  | succ count ih =>
    rw [readLoads] at h
    split at h
    · cases h
    · rename_i s known₁ hopen
      have hread := of_openSegment hopen
      have hkind := hdynamic index (by omega) s hread
      by_cases hload : s.kind = loadKind
      · rw [if_pos hload] at h
        -- The segment comes next in the table.
        obtain ⟨rest, hrest, -⟩ := readFrom_of_readLoads h
        have hget : loads[before.length]? = some s := by
          rw [hrest, List.reverse_cons, List.append_assoc, List.getElem?_append_right (by simp),
            List.length_reverse, Nat.sub_self]
          rfl
        obtain ⟨s', hget', hkind', hindex, hentry, hbytes⟩ := hrewritten.entries _ s hget
        have hread' := readSegment_of_encode? hread hindex hentry hbytes
        have htake : s' :: (loads'.take before.length).reverse
            = (loads'.take (s :: before).length).reverse := by
          rw [List.length_cons, List.take_add_one, hget']
          simp
        rw [readLoads, openSegment_of_not_dynamic hread' (hkind' ▸ hkind) known']
        dsimp only
        rw [if_pos (hkind'.trans hload), htake]
        exact ih (by omega) h _ _
      · rw [if_neg hload] at h
        have hsame := hrewritten.others index (by omega) s hread hload
        rw [readLoads, openSegment_of_not_dynamic (readSegment_of_slice hread hsame) hkind known']
        dsimp only
        rw [if_neg hload]
        exact ih (by omega) h _ _

lemma ofContent_eq_ok_iff {content : Bytes} {header : Header} {table : LoadTable}
    (hheader : (Header.ofContent content.toArray).outcome = .ok header)
    (hfew : header.segmentEntries < numberElsewhere) :
    (ofContent content).outcome = .ok table ↔ table.encoding = header.encoding ∧
      (readLoads header content.toArray 0 header.segmentEntries 0 none []).outcome
        = .ok table.loads := by
  have hcount : (segmentCount header content.toArray).outcome
      = .ok (header.segmentEntries, none) := by
    rw [segmentCount, if_pos hfew]
    rfl
  rw [ofContent, Reading.outcome_bind]
  constructor
  · intro h
    obtain ⟨read, hread, h⟩ := Outcome.bind_eq_ok.1 h
    rw [hheader] at hread
    cases hread
    rw [Reading.outcome_bind] at h
    obtain ⟨counted, hcounted, h⟩ := Outcome.bind_eq_ok.1 h
    rw [hcount] at hcounted
    cases hcounted
    rw [Reading.outcome_bind] at h
    obtain ⟨loads, hloads, h⟩ := Outcome.bind_eq_ok.1 h
    cases h
    exact ⟨rfl, hloads⟩
  · rintro ⟨hencoding, hloads⟩
    refine Outcome.bind_eq_ok.2 ⟨header, hheader, ?_⟩
    rw [Reading.outcome_bind]
    refine Outcome.bind_eq_ok.2 ⟨_, hcount, ?_⟩
    rw [Reading.outcome_bind]
    refine Outcome.bind_eq_ok.2 ⟨_, hloads, ?_⟩
    rw [← hencoding]
    rfl

/-- **A file in which other segments were written** has these segments when it is opened. -/
theorem ofContent_rewritten {header : Header} {old new : Bytes} {table table' : LoadTable}
    (horderly : Orderly old header) (hopen : (ofContent old).outcome = .ok table)
    (hrewritten : Rewritten header old new table.loads table'.loads)
    (hencoding : table'.encoding = table.encoding)
    (hheader : (Header.ofContent new.toArray).outcome = .ok header) :
    (ofContent new).outcome = .ok table' := by
  obtain ⟨hsame, hloads⟩ := (ofContent_eq_ok_iff horderly.read horderly.few).1 hopen
  refine (ofContent_eq_ok_iff hheader horderly.few).2 ⟨hencoding.trans hsame, ?_⟩
  exact readLoads_rewritten hrewritten horderly.noDynamic (by omega) hloads 0 none

end LoadTable

end CoreSplice.Elf
