import CoreSplice.Proofs.Bytes.Growth
import CoreSplice.Proofs.Elf.Reopening

/-!
# What the header step leaves alone

Nothing says that the entries of a program header table stand apart from each other, or from the
header of the file.  An entry is written again as a whole, from what was read of it when the file
was opened, and that may be written over bytes that another entry has changed meanwhile.  All that
is changed is still the sizes of stored parts, in the fields of the loaded segments: every other
byte that is written is the one that stood there first.

* `LoadTable.TakenFrom` — the segments of a table that was read, whatever its layout.
* `LoadTable.HoldsSize` — the positions of the fields for the sizes of stored parts.
* `CoreImage.Framed` — an image that differs from the file in these fields and by zeros behind it.
* `CoreImage.Framed.cover`, `CoreImage.Framed.coverAll` — one region and all of them, whether a
  fault or a number ends them or not.
* **`adjustRead_frame`** — the header step with any table whose segments are taken from the file,
  whatever read it.
* **`adjust_frame`** — the header step.
-/

namespace CoreSplice.Elf

/-! ## Tables of any layout -/

namespace LoadTable

variable {table : LoadTable} {content : Bytes}

/-- The loaded segments were read from entries of the content, which may share bytes. -/
structure TakenFrom (table : LoadTable) (content : Bytes) : Prop where
  position : ∀ s ∈ table.loads, 0 ≤ s.entryOffset ∧ s.entryOffset < positionLimit
  bound : ∀ s ∈ table.loads,
    s.entryOffset.toNat + Segment.size table.encoding.width ≤ content.length
  bytes : ∀ s ∈ table.loads, s.encode? table.encoding
    = some (content.slice s.entryOffset.toNat (Segment.size table.encoding.width))

/-- The position lies in the field of a loaded segment for the size of its stored part. -/
def HoldsSize (table : LoadTable) (i : Nat) : Prop :=
  ∃ s ∈ table.loads, CoreImage.HoldsFilesz table.encoding s i

/-- The segments of a table are loaded ones that were read with its header. -/
lemma exists_readSegment (hopen : (ofContent content).outcome = .ok table) :
    ∃ header, (Header.ofContent content.toArray).outcome = .ok header ∧
      table.encoding = header.encoding ∧ ∀ s ∈ table.loads, ∃ index, s.kind = loadKind ∧
        (readSegment header content.toArray index).outcome = .ok s := by
  rw [ofContent, Reading.outcome_bind] at hopen
  obtain ⟨header, hheader, hopen⟩ := Outcome.bind_eq_ok.1 hopen
  rw [Reading.outcome_bind] at hopen
  obtain ⟨⟨count, known⟩, -, hopen⟩ := Outcome.bind_eq_ok.1 hopen
  rw [Reading.outcome_bind] at hopen
  obtain ⟨loads, hloads, hopen⟩ := Outcome.bind_eq_ok.1 hopen
  cases hopen
  refine ⟨header, hheader, rfl, ?_⟩
  intro s hs
  rcases mem_of_readLoads hloads hs with hnone | ⟨index, -, hread⟩
  · cases hnone
  · exact ⟨index, hread⟩

/-- **A table that was read** is taken from its file, whatever its layout. -/
theorem takenFrom_of_ofContent (hopen : (ofContent content).outcome = .ok table) :
    table.TakenFrom content := by
  obtain ⟨header, -, hencoding, hloads⟩ := exists_readSegment hopen
  refine ⟨?position, ?bound, ?bytes⟩
  case position =>
    intro s hs
    obtain ⟨index, -, hread⟩ := hloads s hs
    obtain ⟨-, hposition, -⟩ := readSegment_eq_ok_iff.1 hread
    rw [(of_readSegment hread).1]
    omega
  case bound =>
    intro s hs
    obtain ⟨index, -, hread⟩ := hloads s hs
    rw [hencoding]
    exact (of_readSegment hread).2.1
  case bytes =>
    intro s hs
    obtain ⟨index, -, hread⟩ := hloads s hs
    rw [hencoding]
    exact (of_readSegment hread).2.2

end LoadTable

namespace CoreImage

variable {table : LoadTable} {old : Bytes} {image : CoreImage}

/-! ## One entry -/

/-- Storing an entry lays some of its first bytes over the file, all of them or none. -/
lemma storeEntry_cases (image : CoreImage) (s : Segment) :
    ∃ faults data, (image.storeEntry s).1 =
        { image with faults, content := image.content.overlay s.entryOffset.toNat data } ∧
      (data = [] ∨ ∃ bytes, s.encode? image.table.encoding = some bytes ∧ data <+: bytes) := by
  have hnone (faults : CoreFaults) : ({ image with faults } : CoreImage)
      = { image with faults, content := image.content.overlay s.entryOffset.toNat [] } := by
    rw [Bytes.overlay_nil]
  simp only [storeEntry]
  split
  · exact ⟨_, [], hnone _, Or.inl rfl⟩
  · split
    · exact ⟨_, [], hnone _, Or.inl rfl⟩
    · rename_i position hposition
      obtain ⟨-, rfl⟩ := checkOffset_eq_ok hposition
      split
      · exact ⟨_, [], hnone _, Or.inl rfl⟩
      · rename_i bytes hbytes
        simp only [storeBytes]
        split
        · exact ⟨_, bytes, rfl, Or.inr ⟨bytes, hbytes, List.prefix_refl bytes⟩⟩
        · rename_i count _
          exact ⟨_, bytes.take count, rfl, Or.inr ⟨bytes, hbytes, List.take_prefix count bytes⟩⟩
        · exact ⟨_, [], rfl, Or.inl rfl⟩
        · exact ⟨_, [], hnone _, Or.inl rfl⟩

/-- The image differs from the file that the table was read from in the sizes of stored parts and
by zeros behind it. -/
structure Framed (table : LoadTable) (old : Bytes) (image : CoreImage) : Prop where
  encoding : image.table.encoding = table.encoding
  loads : ∀ s ∈ image.table.loads, ∃ t ∈ table.loads, ∃ filesz, s = t.stored filesz
  grows : Bytes.Grows table.HoldsSize old image.content

lemma framed_start (table : LoadTable) (old : Bytes) (faults : CoreFaults) :
    Framed table old ⟨table, old, faults⟩ :=
  ⟨rfl, fun s hs => ⟨s, hs, s.filesz, (Segment.stored_filesz s).symm⟩, Bytes.Grows.refl _ _⟩

/-- What is written of an entry outside of its size is what stood there when it was read. -/
lemma getElem?_of_prefix (htaken : table.TakenFrom old) {t : Segment} (ht : t ∈ table.loads)
    {filesz : Int} {data bytes : Bytes}
    (hbytes : (t.stored filesz).encode? table.encoding = some bytes) (hdata : data <+: bytes)
    {i : Nat} (hi : i < data.length) (hfield : ¬ table.HoldsSize (t.entryOffset.toNat + i)) :
    data[i]? = old[t.entryOffset.toNat + i]? := by
  have hsize := Segment.length_of_encode? hbytes
  have hle := hdata.length_le
  have hsame : data[i]? = bytes[i]? := by
    obtain ⟨rest, rfl⟩ := hdata
    exact (List.getElem?_append_left hi).symm
  have houtside : i < Segment.fileszOffset table.encoding.width ∨
      Segment.fileszOffset table.encoding.width + table.encoding.width.addressSize ≤ i := by
    by_contra hin
    exact hfield ⟨t, ht, by omega, by omega⟩
  rw [hsame, Segment.getElem?_encode?_stored (htaken.bytes t ht) hbytes houtside,
    Bytes.getElem?_slice, if_pos (by omega)]

/-- **One entry.**  However much of it is written, the image stays in its frame. -/
lemma Framed.storeEntry (h : Framed table old image) (htaken : table.TakenFrom old) {t : Segment}
    (ht : t ∈ table.loads) (filesz : Int) :
    Framed table old (image.storeEntry (t.stored filesz)).1 ∧
      (image.storeEntry (t.stored filesz)).1.content.length = image.content.length := by
  obtain ⟨faults, data, hstore, hdata⟩ := storeEntry_cases image (t.stored filesz)
  have hplace : (t.stored filesz).entryOffset = t.entryOffset := rfl
  rw [hstore, hplace]
  rw [h.encoding] at hdata
  rcases hdata with rfl | ⟨bytes, hbytes, hdata⟩
  · rw [Bytes.overlay_nil]
    exact ⟨⟨h.encoding, h.loads, h.grows⟩, rfl⟩
  · have hsize := Segment.length_of_encode? hbytes
    have hle := hdata.length_le
    have hbound := htaken.bound t ht
    have hlong := h.grows.length_le
    refine ⟨⟨h.encoding, h.loads, ?_⟩, ?_⟩
    · exact h.grows.overlay (by omega) fun i hi hfield =>
        getElem?_of_prefix htaken ht hbytes hdata hi hfield
    · dsimp only
      rw [Bytes.length_overlay]
      split <;> omega

/-! ## Regions -/

lemma Framed.growFor (h : Framed table old image) (s : Segment) (notices : List Diagnostic) :
    let grown := image.growFor s image.content.length notices
    Framed table old grown.image ∧
      ∀ size, grown.outcome = .ok size → size = grown.image.content.length := by
  intro grown
  cases houtcome : grown.outcome with
  | ok size =>
    obtain ⟨hsize, himage⟩ := growFor_eq_ok houtcome
    have hlong : image.content.length ≤ size.toNat := by omega
    have hgrown : grown.image = { image with content := image.content.resize size.toNat } := himage
    rw [hgrown]
    refine ⟨⟨h.encoding, h.loads, h.grows.trans (Bytes.grows_resize _ hlong)⟩, ?_⟩
    intro size' hsize'
    cases hsize'
    rw [Bytes.length_resize]
    omega
  | error obstacle =>
    have hsame : grown.image = image := by
      simp only [grown, CoreImage.growFor] at houtcome ⊢
      split at houtcome
      · rename_i hshort
        rw [if_pos hshort]
        split at houtcome
        · rfl
        · cases houtcome
      · cases houtcome
    rw [hsame]
    refine ⟨h, ?_⟩
    intro size hsize
    cases hsize

/-- **One region** leaves the image in its frame, and gives the length of the file. -/
lemma Framed.cover (h : Framed table old image) (htaken : table.TakenFrom old) (region : Region) :
    let covered := image.cover region image.content.length
    Framed table old covered.image ∧
      ∀ size, covered.outcome = .ok size → size = covered.image.content.length := by
  simp only [CoreImage.cover]
  split
  · exact ⟨h, fun size hsize => by cases hsize; rfl⟩
  · rename_i n s hfind
    obtain ⟨hget, -⟩ := firstMatch?_eq_some_iff.1 hfind
    split
    · obtain ⟨t, ht, filesz, hs⟩ := h.loads s (List.mem_of_getElem? hget)
      -- The segment that is written again is one of the table, with another size.
      have hextended (reach : Int) : { s with filesz := reach } = t.stored reach := by
        rw [hs]
        rfl
      rw [hextended]
      have hset (reach : Int) :
          Framed table old { image with table := image.table.set n (t.stored reach) } := by
        refine ⟨h.encoding, ?_, h.grows⟩
        intro r hr
        rcases List.mem_or_eq_of_mem_set hr with hr | rfl
        · exact h.loads r hr
        · exact ⟨t, ht, reach, rfl⟩
      obtain ⟨hstored, hlength⟩ :=
        (hset (region.address + region.size - s.vaddr)).storeEntry htaken ht
          (region.address + region.size - s.vaddr)
      generalize CoreImage.storeEntry _ _ = stored at hstored hlength
      obtain ⟨stored, _ | _⟩ := stored
      · refine ⟨hstored, ?_⟩
        intro size hsize
        cases hsize
      · dsimp only at hstored hlength ⊢
        rw [← hlength]
        exact hstored.growFor _ _
    · exact h.growFor s []

/-- **All regions** leave the image in its frame, whatever ends them. -/
lemma Framed.coverAll (h : Framed table old image) (htaken : table.TakenFrom old)
    (regions : List Region) :
    Framed table old (image.coverAll image.content.length regions).image := by
  induction regions generalizing image with
  | nil => exact h
  | cons region regions ih =>
    rw [CoreImage.coverAll]
    split
    · exact ih h
    · obtain ⟨hcovered, hsize⟩ := h.cover htaken region
      dsimp only
      split
      · exact hcovered
      · rename_i size houtcome
        rw [hsize size houtcome]
        exact ih hcovered

end CoreImage

/-! ## The header step -/

lemma content_adjustOpened (image : CoreImage) (regions : List Region) (coreSize : Int) :
    (adjustOpened image regions coreSize).content
      = (image.coverAll coreSize regions).image.content := by
  simp only [adjustOpened]
  split
  · rfl
  · split <;> rfl

lemma content_adjustRead_cases (content : Bytes) (reading : Reading LoadTable)
    (faults : CoreFaults) (regions : List Region) (coreSize : Int) :
    (adjustRead content reading faults regions coreSize).content = content ∨
      ∃ table faults', reading.outcome = .ok table ∧
        (adjustRead content reading faults regions coreSize).content
          = (CoreImage.coverAll ⟨table, content, faults'⟩ coreSize regions).image.content := by
  simp only [adjustRead]
  split
  · exact Or.inl rfl
  · split
    · exact Or.inl rfl
    · exact Or.inl rfl
    · rename_i table hopen
      exact Or.inr ⟨table, _, hopen, content_adjustOpened _ _ _⟩

/-- The header step leaves the file alone or goes by its table. -/
lemma adjust_flush_cases (content : Bytes) (regions : List Region) (coreSize : Int)
    (faults : CoreFaults) :
    (adjust content regions coreSize faults).content = content ∨ ∃ faults',
      adjust content regions coreSize faults
        = adjustRead content (LoadTable.ofContent content) faults' regions coreSize := by
  rw [adjust]
  split
  · exact Or.inl rfl
  · exact Or.inr ⟨_, rfl⟩

/-- The header step leaves the file alone or covers the regions. -/
lemma content_adjust_cases (content : Bytes) (regions : List Region) (coreSize : Int)
    (faults : CoreFaults) :
    (adjust content regions coreSize faults).content = content ∨
      ∃ table faults', (LoadTable.ofContent content).outcome = .ok table ∧
        (adjust content regions coreSize faults).content
          = (CoreImage.coverAll ⟨table, content, faults'⟩ coreSize regions).image.content := by
  rcases adjust_flush_cases content regions coreSize faults with hsame | ⟨faults', hread⟩
  · exact Or.inl hsame
  · rw [hread]
    exact content_adjustRead_cases content _ _ regions coreSize

/-- **What any table leaves alone.**  The table may come from any reading, as long as its segments
are taken from the file: the file gets no shorter, outside of the fields for the sizes of stored
parts every byte is kept, and all bytes behind the old ones are zero.  Without a table the file is
left as it is. -/
theorem adjustRead_frame {content : Bytes} {reading : Reading LoadTable}
    (htaken : ∀ table, reading.outcome = .ok table → table.TakenFrom content)
    (regions : List Region) (faults : CoreFaults) :
    let new := (adjustRead content reading faults regions content.length).content
    content.length ≤ new.length ∧
      (∀ i < content.length, (∀ table, reading.outcome = .ok table → ¬ table.HoldsSize i) →
        new[i]? = content[i]?) ∧
      (∀ i, content.length ≤ i → i < new.length → new[i]? = some 0) ∧
      ∀ error, reading.outcome = .error error → new = content := by
  intro new
  rcases content_adjustRead_cases content reading faults regions content.length
    with hsame | ⟨table, faults', hopen, hcovered⟩
  · have hnew : new = content := hsame
    rw [hnew]
    exact ⟨Nat.le_refl _, fun _ _ _ => rfl, fun i hle hlt => absurd hlt (Nat.not_lt.2 hle),
      fun _ _ => rfl⟩
  · have hframed := (CoreImage.framed_start table content faults').coverAll (htaken table hopen)
      regions
    have hnew : new = (CoreImage.coverAll ⟨table, content, faults'⟩ content.length
      regions).image.content := hcovered
    rw [hnew]
    refine ⟨hframed.grows.length_le, ?kept, ?added, ?unread⟩
    case kept =>
      intro i hi houtside
      exact hframed.grows.kept i hi (houtside table hopen)
    case added =>
      intro i hle hlt
      refine hframed.grows.added i hle hlt ?_
      rintro ⟨s, hs, -, hin⟩
      have hbound := (htaken table hopen).bound s hs
      have hfield := Segment.fileszOffset_le table.encoding.width
      omega
    case unread =>
      intro error herror
      rw [hopen] at herror
      cases herror

/-- **What the header step leaves alone.**  Whatever the file holds, whatever the regions are, and
whatever ends the step: the file gets no shorter, outside of the fields for the sizes of stored
parts of its loaded segments every byte is kept, and all bytes behind the old ones are zero.  A
file whose table cannot be read is left as it is, and keeps its size if its bytes are the
reason. -/
theorem adjust_frame (content : Bytes) (regions : List Region) (faults : CoreFaults) :
    let new := (adjust content regions content.length faults).content
    content.length ≤ new.length ∧
      (∀ i < content.length, (∀ table, (LoadTable.ofContent content).outcome = .ok table →
        ¬ table.HoldsSize i) → new[i]? = content[i]?) ∧
      (∀ i, content.length ≤ i → i < new.length → new[i]? = some 0) ∧
      (∀ error, (LoadTable.ofContent content).outcome = .error error → new = content) ∧
      ∀ why, (LoadTable.ofContent content).outcome = .error (.malformed why) →
        (adjust content regions content.length).outcome = .ok (content.length : Int) := by
  intro new
  have hmalformed : ∀ why, (LoadTable.ofContent content).outcome = .error (.malformed why) →
      (adjust content regions content.length).outcome = .ok (content.length : Int) := by
    intro why hopen
    rw [adjust_of_malformed hopen]
  rcases adjust_flush_cases content regions content.length faults with hsame | ⟨faults', hread⟩
  · have hnew : new = content := hsame
    rw [hnew]
    exact ⟨Nat.le_refl _, fun _ _ _ => rfl, fun i hle hlt => absurd hlt (Nat.not_lt.2 hle),
      fun _ _ => rfl, hmalformed⟩
  · obtain ⟨hlength, hkept, hadded, hunread⟩ := adjustRead_frame
      (fun _ hopen => LoadTable.takenFrom_of_ofContent hopen) regions faults'
    rw [← hread] at hlength hkept hadded hunread
    exact ⟨hlength, hkept, hadded, hunread, hmalformed⟩

/-- A core whose program header table begins with the header of the file.  Its entries are four
bytes apart, so that the two loaded segments share most of their bytes. -/
def tangledLoads : Bytes :=
  magicBytes ++ [1, 1, 0, 0, 0, 0, 0, 0, 1, 0, 0, 0]
    ++ writeWords .little [(2, 1), (2, 0), (4, 0x10), (4, 0x100), (4, 0), (4, 8), (4, 0x40),
      (2, 52), (2, 4), (2, 5), (2, 0), (2, 0), (2, 0)]

/-- What is written for the first region is undone when the other entry is written again. -/
example :
    (adjust tangledLoads [⟨0x100, 32⟩] 52).content = tangledLoads.overlay 32 [32, 0, 0, 0] ∧
      (adjust tangledLoads [⟨0x100, 32⟩, ⟨0x10, 4⟩] 52).content
        = tangledLoads.overlay 28 [4, 0, 0, 0] := by
  decide +kernel

end CoreSplice.Elf
