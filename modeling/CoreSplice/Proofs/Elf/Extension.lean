import CoreSplice.Proofs.Elf.Frame
import CoreSplice.Proofs.Elf.Settled

/-!
# What can end the covering of regions

Every entry of a table that was read can be written again: the size that it is given is that of a
part of the memory of its segment, so its field can hold it.  What is left to go wrong is the
length of the file, which must stay below the limit of positions.  So the covering ends with the
length that the regions ask for, or at the first region whose segment ends behind the limit.

* `LoadTable.Writable` — the entries of the table can be written, in their places.
* `CoreImage.storeEntry_of_writable`, `CoreImage.growFor_of_nonneg` — the two steps of a region.
* `Reached` — the length was reached, or a number behind the limit ended the way to it.
* **`CoreImage.coverAll_reached`** — all regions.
* **`adjust_reached`** — the header step on a file whose table can be read.
-/

namespace CoreSplice.Elf

/-! ## Entries that can be written -/

namespace LoadTable

/-- The entries of the table can be written, in their places. -/
structure Writable (table : LoadTable) : Prop where
  position : ∀ s ∈ table.loads, 0 ≤ s.entryOffset ∧ s.entryOffset < positionLimit
  encode : ∀ s ∈ table.loads, ∃ bytes, s.encode? table.encoding = some bytes

variable {table : LoadTable} {content : Bytes} {region : Region} {n : Nat} {s : Segment}

lemma TakenFrom.writable (h : table.TakenFrom content) : table.Writable :=
  ⟨h.position, fun s hs => ⟨_, h.bytes s hs⟩⟩

lemma Writable.range (h : table.Writable) (hs : s ∈ table.loads) :
    (0 ≤ s.offset ∧ s.offset < Bytes.wordLimit table.encoding.width.addressSize) ∧
      (0 ≤ s.filesz ∧ s.filesz < Bytes.wordLimit table.encoding.width.addressSize) ∧
      (0 ≤ s.memsz ∧ s.memsz < Bytes.wordLimit table.encoding.width.addressSize) := by
  obtain ⟨bytes, hbytes⟩ := h.encode s hs
  exact Segment.range_of_encode? hbytes

/-- The size that reaches the end of a region is no larger than the memory of the segment. -/
lemma Writable.exists_encode? (h : table.Writable) (hs : s ∈ table.loads)
    (hcontains : s.contains region = true) :
    ∃ bytes, (s.stored (max s.filesz (region.address + region.size - s.vaddr))).encode?
      table.encoding = some bytes := by
  obtain ⟨bytes, hbytes⟩ := h.encode s hs
  obtain ⟨-, hfilesz, hmemsz⟩ := h.range hs
  have hend := Segment.end_le_of_contains hcontains
  exact Segment.exists_encode?_stored hbytes (by omega) (by omega)

/-- A table stays writable when a segment is extended to the end of a region. -/
lemma Writable.set (h : table.Writable) (hget : table.loads[n]? = some s)
    (hcontains : s.contains region = true) {filesz : Int}
    (hfilesz : max s.filesz (region.address + region.size - s.vaddr) = filesz) :
    (table.set n (s.stored filesz)).Writable := by
  have hs := List.mem_of_getElem? hget
  constructor
  · intro t ht
    rcases List.mem_or_eq_of_mem_set ht with ht | rfl
    · exact h.position t ht
    · exact h.position s hs
  · intro t ht
    rcases List.mem_or_eq_of_mem_set ht with ht | rfl
    · exact h.encode t ht
    · exact hfilesz ▸ h.exists_encode? hs hcontains

end LoadTable

/-! ## The steps of one region -/

lemma checkOffset_of_nonneg {n : Int} (hn : 0 ≤ n) :
    checkOffset n = if n < positionLimit then .ok n.toNat else .error (.beyondOffsets n) := by
  by_cases hlt : n < positionLimit
  · have hoffset : isOffset n = true := isOffset_iff.2 ⟨by omega, hlt⟩
    simp only [checkOffset, hoffset, Bool.not_true, Bool.false_eq_true, if_false,
      Int.not_lt.2 hn, if_pos hlt]
  · have hoffset : isOffset n = false := by
      rw [Bool.eq_false_iff, Ne, isOffset_iff]
      omega
    simp only [checkOffset, hoffset, Bool.not_false, if_true, if_neg hlt]

namespace CoreImage

variable {image : CoreImage} {region : Region} {n : Nat} {s : Segment}

/-- An entry with a place and with bytes is stored. -/
lemma storeEntry_of_writable (image : CoreImage) (hfaults : image.faults = {})
    (hposition : 0 ≤ s.entryOffset ∧ s.entryOffset < positionLimit)
    (hencode : ∃ bytes, s.encode? image.table.encoding = some bytes) :
    ∃ content, image.storeEntry s = ({ image with content }, .ok ()) := by
  obtain ⟨bytes, hbytes⟩ := hencode
  have hcheck := checkOffset_of_nonneg hposition.1
  rw [if_pos hposition.2] at hcheck
  simp only [storeEntry, hfaults, CoreFaults.positioned_empty, hcheck, hbytes, storeBytes,
    CoreFaults.written_empty]
  exact ⟨_, rfl⟩

/-- The file can be made as long as any number below the limit. -/
lemma growFor_of_nonneg (image : CoreImage) {length : Nat} (hlength : length < positionLimit)
    (hstop : 0 ≤ s.offset + s.filesz) (notices : List Diagnostic) :
    (image.growFor s length notices).outcome
        = (if s.offset + s.filesz < positionLimit then
            .ok (max (length : Int) (s.offset + s.filesz))
          else .error (.beyondOffsets (s.offset + s.filesz))) ∧
      ∃ content, (image.growFor s length notices).image = { image with content } := by
  simp only [growFor, setSize, checkOffset_of_nonneg hstop]
  by_cases hshort : (length : Int) < s.offset + s.filesz
  · by_cases hlt : s.offset + s.filesz < positionLimit
    · rw [if_pos hshort, if_pos hlt, if_pos hlt]
      exact ⟨congrArg Except.ok (by omega), _, rfl⟩
    · rw [if_pos hshort, if_neg hlt, if_neg hlt]
      exact ⟨rfl, _, rfl⟩
  · rw [if_neg hshort, if_pos (by omega)]
    exact ⟨congrArg Except.ok (by omega), _, rfl⟩

/-- **One region** of a segment is covered if the file can hold the stored part, and only then. -/
lemma cover_of_writable (hwritable : image.table.Writable) (hfaults : image.faults = {})
    {length : Nat} (hlength : length < positionLimit)
    (hfind : image.table.find? region = some (n, s)) {filesz : Int}
    (hfilesz : max s.filesz (region.address + region.size - s.vaddr) = filesz) :
    (image.cover region length).outcome
        = (if s.offset + filesz < positionLimit then
            .ok (max (length : Int) (s.offset + filesz))
          else .error (.beyondOffsets (s.offset + filesz))) ∧
      (image.cover region length).image.table = image.table.set n (s.stored filesz) ∧
      (image.cover region length).image.faults = {} := by
  obtain ⟨hget, hcontains, -⟩ := firstMatch?_eq_some_iff.1 hfind
  obtain ⟨hoffset, hsize, -⟩ := hwritable.range (List.mem_of_getElem? hget)
  have hstop : 0 ≤ (s.stored filesz).offset + (s.stored filesz).filesz := by
    dsimp only [Segment.stored]
    omega
  by_cases hless : s.filesz < region.address + region.size - s.vaddr
  · have hend : region.address + region.size - s.vaddr = filesz := by omega
    have hset := hwritable.set hget hcontains hfilesz
    have hmem : s.stored filesz ∈ (image.table.set n (s.stored filesz)).loads :=
      List.mem_set (List.getElem?_eq_some_iff.1 hget).1 _
    obtain ⟨content, hstore⟩ :=
      storeEntry_of_writable { image with table := image.table.set n (s.stored filesz) }
        hfaults (hset.position _ hmem) (hset.encode _ hmem)
    rw [hend] at hless
    rw [Segment.stored] at hstore
    simp only [cover, hfind, hend, if_pos hless, hstore]
    obtain ⟨houtcome, grown, himage⟩ := growFor_of_nonneg
      ⟨image.table.set n (s.stored filesz), content, image.faults⟩ hlength hstop
      [.segmentExtended s.index s.filesz filesz]
    refine ⟨houtcome, ?_⟩
    rw [show ({ s with filesz } : Segment) = s.stored filesz from rfl, himage]
    exact ⟨rfl, hfaults⟩
  · obtain rfl : s.filesz = filesz := by omega
    simp only [cover, hfind, if_neg hless, Segment.stored_filesz, LoadTable.set_eq_self hget]
    rw [Segment.stored_filesz] at hstop
    obtain ⟨houtcome, grown, himage⟩ := growFor_of_nonneg image hlength hstop []
    refine ⟨houtcome, ?_⟩
    rw [himage]
    exact ⟨rfl, hfaults⟩

end CoreImage

/-! ## All regions -/

/-- The length was reached, or the way to it was ended by a number that is no position. -/
inductive Reached (length : Int) : Except Obstacle Int → Prop where
  | within (h : length < positionLimit) : Reached length (.ok length)
  | beyond {stop : Int} (h : positionLimit ≤ stop) (hle : stop ≤ length) :
    Reached length (.error (.beyondOffsets stop))

lemma Reached.eq_ok {length : Int} {outcome : Except Obstacle Int} (h : Reached length outcome)
    (hlimit : length < positionLimit) : outcome = .ok length := by
  cases h with
  | within h => rfl
  | beyond h hle => omega

/-- **All regions.**  A table that can be written is extended to them until the file would be too
long. -/
theorem CoreImage.coverAll_reached (image : CoreImage) (hwritable : image.table.Writable)
    (hfaults : image.faults = {}) {length : Nat} (hlength : length < positionLimit)
    (regions : List Region) :
    Reached (image.table.extent regions length) (image.coverAll length regions).outcome ∧
      (image.coverAll length regions).image.faults = {} := by
  induction regions generalizing image length with
  | nil =>
    have hextent : image.table.extent [] length = length := by
      refine Int.le_antisymm (LoadTable.extent_le_iff.2 ⟨Int.le_refl _, ?_⟩)
        (image.table.length_le_extent [] length)
      intro region hregion
      cases hregion
    rw [hextent]
    exact ⟨.within (Int.ofNat_lt.2 hlength), hfaults⟩
  | cons region regions ih =>
    rw [CoreImage.coverAll]
    by_cases hsize : region.size = 0
    · have howner : image.table.owner? region = none := by rw [LoadTable.owner?, if_pos hsize]
      rw [if_pos hsize, LoadTable.extent_cons_of_none howner]
      exact ih _ hwritable hfaults hlength
    · rw [if_neg hsize]
      cases hfind : image.table.find? region with
      | none =>
        have howner : image.table.owner? region = none := by
          rw [LoadTable.owner?, if_neg hsize, hfind, Option.map_none]
        rw [LoadTable.extent_cons_of_none howner]
        simp only [CoreImage.cover, hfind]
        exact ih _ hwritable hfaults hlength
      | some found =>
        obtain ⟨n, s⟩ := found
        obtain ⟨hget, hcontains, -⟩ := firstMatch?_eq_some_iff.1 hfind
        have howner : image.table.owner? region = some n := by
          rw [LoadTable.owner?, if_neg hsize, hfind, Option.map_some]
        obtain ⟨filesz, hfilesz⟩ :
            ∃ filesz, max s.filesz (region.address + region.size - s.vaddr) = filesz := ⟨_, rfl⟩
        obtain ⟨houtcome, htable, hfaults'⟩ :=
          CoreImage.cover_of_writable hwritable hfaults hlength hfind hfilesz
        have hnext := hwritable.set hget hcontains hfilesz
        rw [LoadTable.extent_cons_of_owner howner hget hfilesz]
        dsimp only
        split at houtcome
        · rename_i hstop
          have hmax : max (length : Int) (s.offset + filesz)
              = ((max (length : Int) (s.offset + filesz)).toNat : Int) := by omega
          rw [houtcome, hmax, ← htable]
          exact ih _ (htable ▸ hnext) hfaults' (by omega)
        · rename_i hstop
          have hle := (image.table.set n (s.stored filesz)).length_le_extent regions
            (max (length : Int) (s.offset + filesz))
          rw [houtcome]
          dsimp only
          rw [houtcome]
          exact ⟨.beyond (by omega) (by omega), hfaults'⟩

/-! ## The header step -/

/-- **A file whose table can be read** gets the length that the regions ask for, or is too long
for that. -/
theorem adjust_reached {content : Bytes} {table : LoadTable}
    (hopen : (LoadTable.ofContent content).outcome = .ok table)
    (hlength : content.length < positionLimit) (regions : List Region) :
    Reached (table.extent regions content.length)
      (adjust content regions content.length).outcome := by
  have hwritable := (LoadTable.takenFrom_of_ofContent hopen).writable
  obtain ⟨hreached, hfaults⟩ := CoreImage.coverAll_reached ⟨table, content, {}⟩ hwritable rfl
    hlength regions
  rw [adjust_eq_adjustOpened hopen, adjustOpened]
  generalize CoreImage.coverAll ⟨table, content, {}⟩ content.length regions = result
    at hreached hfaults
  obtain ⟨image, notices, outcome⟩ := result
  dsimp only at hreached hfaults ⊢
  rw [hfaults, CoreFaults.flushed_empty]
  cases hreached with
  | within h => exact .within h
  | beyond h hle => exact .beyond h hle

end CoreSplice.Elf
