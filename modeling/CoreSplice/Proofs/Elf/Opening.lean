import CoreSplice.Elf.LoadTable
import CoreSplice.Proofs.Elf.Entry
import CoreSplice.Proofs.Outcome

/-!
# Tables that were opened

The entries of a table that was read stand in the file, each with its own bytes, and no two of
them share a byte if the table leaves room enough for each of them.

* `LoadTable.StandsIn` — the table is that of a content.
* **`LoadTable.standsIn_of_ofContent`** — a table that was read is that of its file.
-/

namespace CoreSplice.Elf

/-- The entries of the table stand in the content, and apart from each other. -/
structure LoadTable.StandsIn (table : LoadTable) (content : Bytes) : Prop where
  /-- Each entry lies in the content. -/
  bound : ∀ s ∈ table.loads, 0 ≤ s.entryOffset ∧
    s.entryOffset.toNat + Segment.size table.encoding.width ≤ content.length
  /-- Its bytes are those of the segment. -/
  bytes : ∀ s ∈ table.loads, s.encode? table.encoding
    = some (content.slice s.entryOffset.toNat (Segment.size table.encoding.width))
  /-- No two entries share a byte. -/
  apart : table.loads.Pairwise fun s t =>
    s.entryOffset.toNat + Segment.size table.encoding.width ≤ t.entryOffset.toNat

namespace LoadTable

/-! ## One entry -/

lemma outcome_readRecord {order : ByteOrder} {content : Bytes} {position : Nat}
    {widths words : List Nat}
    (h : (readRecord order content.toArray position widths).outcome = .ok words) :
    readWords order widths (content.slice position (recordSize widths)) = .ok words := by
  rw [readRecord, Reading.outcome_bind] at h
  obtain ⟨-, -, hwords⟩ := Outcome.bind_eq_ok.1 h
  rw [Reading.outcome_ofOutcome, IndexedBytes.slice_toArray] at hwords
  exact Outcome.mapError_eq_ok.1 hwords

/-- What is read at an index has the bytes that stand there. -/
lemma of_readSegment {header : Header} {content : Bytes} {index : Nat} {s : Segment}
    (h : (readSegment header content.toArray index).outcome = .ok s) :
    s.entryOffset = (header.segmentTable + index * header.segmentEntrySize : Nat) ∧
      s.entryOffset.toNat + Segment.size header.encoding.width ≤ content.length ∧
      s.encode? header.encoding
        = some (content.slice s.entryOffset.toNat (Segment.size header.encoding.width)) := by
  rw [readSegment, Reading.outcome_bind] at h
  obtain ⟨-, -, h⟩ := Outcome.bind_eq_ok.1 h
  rw [Reading.outcome_bind] at h
  obtain ⟨words, hread, h⟩ := Outcome.bind_eq_ok.1 h
  have hwords := outcome_readRecord hread
  cases h
  have hoffset (position : Nat) : (Segment.ofWords header.encoding.width index position
      words).entryOffset = position := by
    cases header.encoding.width <;> rfl
  have hin := (length_of_readWords hwords).2
  have hpositive : 0 < recordSize (Segment.widths header.encoding.width) := by
    cases header.encoding.width <;> decide
  rw [Bytes.length_slice] at hin
  refine ⟨hoffset _, ?_, ?_⟩
  · rw [hoffset, Int.toNat_natCast, Segment.size]
    omega
  · rw [Segment.encode?_ofWords hwords, hoffset, Int.toNat_natCast, Segment.size, Bytes.slice,
      List.take_take, Nat.min_self]

lemma of_openSegment {header : Header} {content : IndexedBytes}
    {known known' : Option SectionHeader} {index : Nat} {s : Segment}
    (h : (openSegment header content known index).outcome = .ok (s, known')) :
    (readSegment header content index).outcome = .ok s := by
  rw [openSegment, Reading.outcome_bind] at h
  obtain ⟨t, hread, h⟩ := Outcome.bind_eq_ok.1 h
  split at h
  · rw [Reading.outcome_bind] at h
    obtain ⟨_, _, h⟩ := Outcome.bind_eq_ok.1 h
    cases h
    exact hread
  · cases h
    exact hread

/-! ## All entries -/

/-- The segments were read in order, none of them before the given index. -/
inductive ReadFrom (header : Header) (content : Bytes) : Nat → List Segment → Prop where
  | nil (index : Nat) : ReadFrom header content index []
  | cons {index first : Nat} {s : Segment} {rest : List Segment} (hfirst : index ≤ first)
      (hread : (readSegment header content.toArray first).outcome = .ok s)
      (hrest : ReadFrom header content (first + 1) rest) : ReadFrom header content index (s :: rest)

lemma ReadFrom.of_le {header : Header} {content : Bytes} {first second : Nat}
    {loads : List Segment} (h : ReadFrom header content second loads) (hle : first ≤ second) :
    ReadFrom header content first loads := by
  cases h with
  | nil => exact .nil _
  | cons hfirst hread hrest => exact .cons (Nat.le_trans hle hfirst) hread hrest

/-- Reading adds segments behind those that were read before. -/
lemma readFrom_of_readLoads {header : Header} {content : Bytes} {count index seeks : Nat}
    {known : Option SectionHeader} {before loads : List Segment}
    (h : (readLoads header content.toArray index count seeks known before).outcome = .ok loads) :
    ∃ new, loads = before.reverse ++ new ∧ ReadFrom header content index new := by
  induction count generalizing index seeks known before with
  | zero =>
    cases h
    exact ⟨[], (List.append_nil _).symm, .nil index⟩
  | succ count ih =>
    rw [readLoads] at h
    split at h
    · cases h
    · rename_i s known' hopen
      obtain ⟨new, hnew, hread⟩ := ih h
      split at hnew
      · refine ⟨s :: new, by rw [hnew]; simp, ?_⟩
        exact .cons (Nat.le_refl _) (of_openSegment hopen) hread
      · exact ⟨new, hnew, hread.of_le (Nat.le_succ _)⟩

/-- Segments that were read stand in the file, apart from each other if there is room. -/
lemma ReadFrom.standsIn {header : Header} {content : Bytes} {index : Nat} {loads : List Segment}
    (h : ReadFrom header content index loads)
    (hroom : Segment.size header.encoding.width ≤ header.segmentEntrySize) :
    (LoadTable.mk header.encoding loads).StandsIn content ∧
      ∀ s ∈ loads, header.segmentTable + index * header.segmentEntrySize
        ≤ s.entryOffset.toNat := by
  induction h with
  | nil =>
    refine ⟨⟨?_, ?_, List.Pairwise.nil⟩, ?_⟩ <;>
      (intro s hs; cases hs)
  | @cons index first s rest hfirst hread hrest ih =>
    obtain ⟨hoffset, hbound, hbytes⟩ := of_readSegment hread
    obtain ⟨hstands, hlater⟩ := ih
    have hnext : (first + 1) * header.segmentEntrySize
        = first * header.segmentEntrySize + header.segmentEntrySize := Nat.succ_mul ..
    have hmul := Nat.mul_le_mul_right header.segmentEntrySize hfirst
    have hoffset' : s.entryOffset.toNat
        = header.segmentTable + first * header.segmentEntrySize := by
      rw [hoffset, Int.toNat_natCast]
    refine ⟨⟨?_, ?_, List.pairwise_cons.2 ⟨?_, hstands.apart⟩⟩, ?_⟩
    · intro t ht
      rcases List.mem_cons.1 ht with rfl | ht
      · exact ⟨by omega, hbound⟩
      · exact hstands.bound t ht
    · intro t ht
      rcases List.mem_cons.1 ht with rfl | ht
      · exact hbytes
      · exact hstands.bytes t ht
    · intro t ht
      have := hlater t ht
      dsimp only
      omega
    · intro t ht
      rcases List.mem_cons.1 ht with rfl | ht
      · omega
      · have := hlater t ht
        omega

/-- **A table that was read** stands in its file, apart from each other if there is room for its
entries. -/
theorem standsIn_of_ofContent {content : Bytes} {table : LoadTable} {header : Header}
    (hopen : (ofContent content).outcome = .ok table)
    (hheader : (Header.ofContent content.toArray).outcome = .ok header)
    (hroom : Segment.size header.encoding.width ≤ header.segmentEntrySize) :
    table.StandsIn content := by
  rw [ofContent, Reading.outcome_bind, hheader] at hopen
  obtain ⟨first, hfirst, hopen⟩ := Outcome.bind_eq_ok.1 hopen
  cases hfirst
  rw [Reading.outcome_bind] at hopen
  obtain ⟨⟨count, known⟩, -, hopen⟩ := Outcome.bind_eq_ok.1 hopen
  rw [Reading.outcome_bind] at hopen
  obtain ⟨loads, hloads, hopen⟩ := Outcome.bind_eq_ok.1 hopen
  cases hopen
  obtain ⟨new, hnew, hread⟩ := readFrom_of_readLoads hloads
  rw [List.reverse_nil, List.nil_append] at hnew
  exact hnew ▸ (hread.standsIn hroom).1

end LoadTable

end CoreSplice.Elf
