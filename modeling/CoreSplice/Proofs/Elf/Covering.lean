import CoreSplice.Proofs.Elf.Opening
import CoreSplice.Proofs.Elf.Reach

/-!
# What covering regions makes of a file

Regions are covered one after the other.  Each may write the entry of its segment again and make
the file longer, and what an earlier region did is seen by the later ones.  The result does not
depend on any of that: for each segment that has regions the size of its stored part is the one
that reaches them all, the file is as long as the stored parts ask for, and nothing else is
changed.

* `CoreImage.cover_some` — what one region does to the image.
* `CoreImage.Covered` — the image after some regions, in terms of the image before them.
* `CoreImage.Covered.cover`, `CoreImage.Covered.coverAll` — one region more, and all of them.
* **`adjustOpened_closed_form`** — the header step with any table whose entries stand in the file,
  whatever read it.
* **`adjust_closed_form`** — the header step.
-/

namespace CoreSplice.Elf

/-- A segment that is put where it stands changes nothing. -/
lemma LoadTable.set_eq_self {table : LoadTable} {n : Nat} {s : Segment}
    (hget : table.loads[n]? = some s) : table.set n s = table := by
  obtain ⟨hlt, rfl⟩ := List.getElem?_eq_some_iff.1 hget
  rw [set, List.set_getElem_self]

namespace CoreImage

/-! ## One region -/

lemma checkOffset_eq_ok {n : Int} {position : Nat} (h : checkOffset n = .ok position) :
    0 ≤ n ∧ n.toNat = position := by
  simp only [checkOffset] at h
  split at h
  · cases h
  · split at h
    · cases h
    · rename_i hnonneg
      exact ⟨Int.not_lt.1 hnonneg, Except.ok.inj h⟩

/-- An entry that was stored stands in its place. -/
lemma storeEntry_eq_ok {image stored : CoreImage} {s : Segment}
    (h : image.storeEntry s = (stored, .ok ())) (hfaults : image.faults = {}) :
    ∃ bytes, s.encode? image.table.encoding = some bytes ∧
      stored = { image with content := image.content.overlay s.entryOffset.toNat bytes } := by
  have himage : ({ image with faults := {} } : CoreImage) = image := by rw [← hfaults]
  simp only [storeEntry, hfaults, CoreFaults.positioned_empty, himage] at h
  split at h
  · cases h
  · rename_i position hposition
    obtain ⟨-, rfl⟩ := checkOffset_eq_ok hposition
    split at h
    · cases h
    · rename_i bytes hbytes
      simp only [storeBytes, hfaults, CoreFaults.written_empty] at h
      cases h
      exact ⟨bytes, hbytes, by rw [← himage]⟩

/-- The file is made as long as the stored part of the segment asks for. -/
lemma growFor_eq_ok {image : CoreImage} {s : Segment} {notices : List Diagnostic} {size : Int}
    (h : (image.growFor s image.content.length notices).outcome = .ok size) :
    size = max (image.content.length : Int) (s.offset + s.filesz) ∧
      (image.growFor s image.content.length notices).image
        = { image with content := image.content.resize size.toNat } := by
  simp only [growFor] at h ⊢
  split at h
  · rename_i hshort
    rw [if_pos hshort]
    cases hset : image.setSize (s.offset + s.filesz) with
    | error obstacle =>
      rw [hset] at h
      cases h
    | ok grown =>
      rw [hset] at h
      cases h
      obtain ⟨length, hlength, hgrown⟩ := Outcome.map_eq_ok.1 hset
      obtain ⟨-, rfl⟩ := checkOffset_eq_ok hlength
      exact ⟨by omega, hgrown.symm⟩
  · rename_i hlong
    cases h
    rw [if_neg hlong, Int.toNat_natCast, Bytes.resize_self]
    exact ⟨by omega, rfl⟩

/-- A write of an entry inside the file leaves its length. -/
lemma length_overlay_encode? {content bytes : Bytes} {encoding : Encoding} {s : Segment}
    {position : Nat} (hbytes : s.encode? encoding = some bytes)
    (hbound : position + Segment.size encoding.width ≤ content.length) :
    (content.overlay position bytes).length = content.length := by
  rw [Bytes.length_overlay, Segment.length_of_encode? hbytes]
  split <;> omega

/-- **One region.**  The segment that contains it reaches its end, the entry of the segment says
so, and the file is long enough. -/
lemma cover_some {image : CoreImage} {region : Region} {position : Nat} {s : Segment}
    {size filesz : Int} (hfaults : image.faults = {})
    (hfind : image.table.find? region = some (position, s))
    (hbound : s.entryOffset.toNat + Segment.size image.table.encoding.width
      ≤ image.content.length)
    (hbytes : s.encode? image.table.encoding = some (image.content.slice s.entryOffset.toNat
      (Segment.size image.table.encoding.width)))
    (hfilesz : max s.filesz (region.address + region.size - s.vaddr) = filesz)
    (h : (image.cover region image.content.length).outcome = .ok size) :
    ∃ bytes, (s.stored filesz).encode? image.table.encoding = some bytes ∧
      size = max (image.content.length : Int) (s.offset + filesz) ∧
      (image.cover region image.content.length).image =
        ⟨image.table.set position (s.stored filesz),
          (image.content.overlay s.entryOffset.toNat bytes).resize size.toNat, {}⟩ := by
  by_cases hless : s.filesz < region.address + region.size - s.vaddr
  · have hend : region.address + region.size - s.vaddr = filesz := by omega
    rw [hend] at hless
    simp only [cover, hfind, hend, if_pos hless] at h ⊢
    generalize hstore : storeEntry _ _ = result at h ⊢
    obtain ⟨stored, obstacle | _⟩ := result
    · cases h
    · obtain ⟨bytes, hencode, rfl⟩ := storeEntry_eq_ok hstore hfaults
      have hlength : (image.content.overlay s.entryOffset.toNat bytes).length
          = image.content.length := length_overlay_encode? hencode hbound
      rw [← hlength] at h ⊢
      obtain ⟨hsize, himage⟩ := growFor_eq_ok h
      refine ⟨bytes, hencode, hsize, ?_⟩
      rw [← hfaults]
      exact himage
  · have hend : s.filesz = filesz := by omega
    have hcover : image.cover region image.content.length
        = image.growFor s image.content.length [] := by
      rw [cover, hfind]
      dsimp only
      rw [if_neg hless]
    rw [hcover] at h ⊢
    obtain ⟨hsize, himage⟩ := growFor_eq_ok h
    obtain ⟨hget, -⟩ := firstMatch?_eq_some_iff.1 hfind
    rw [← hend, Segment.stored_filesz]
    refine ⟨_, hbytes, hsize, ?_⟩
    rw [himage, Bytes.overlay_slice _ hbound, LoadTable.set_eq_self hget, hfaults]

/-! ## Some regions -/

/-- The position lies in the field that holds the size of the stored part of the segment. -/
def HoldsFilesz (encoding : Encoding) (s : Segment) (i : Nat) : Prop :=
  s.entryOffset.toNat + Segment.fileszOffset encoding.width ≤ i ∧
    i < s.entryOffset.toNat + Segment.fileszOffset encoding.width + encoding.width.addressSize

/-- The image after the regions were covered, where the table and the content before are given. -/
structure Covered (table : LoadTable) (old : Bytes) (regions : List Region) (image : CoreImage) :
    Prop where
  encoding : image.table.encoding = table.encoding
  faults : image.faults = {}
  /-- Regions belong to the segments that they belonged to before. -/
  owner : ∀ region, image.table.owner? region = table.owner? region
  /-- Every segment reaches the ends of its regions. -/
  loads : ∀ n : Nat, image.table.loads[n]?
    = (table.loads[n]?).map fun s : Segment => s.stored (table.reach regions n s)
  length : (image.content.length : Int) = table.extent regions old.length
  /-- The entries of the file are those of the table. -/
  entries : ∀ (n : Nat) (s : Segment), table.loads[n]? = some s →
    (s.stored (table.reach regions n s)).encode? table.encoding
      = some (image.content.slice s.entryOffset.toNat (Segment.size table.encoding.width))
  /-- All other bytes are the old ones. -/
  kept : ∀ i < old.length, (∀ (n : Nat) (s : Segment), table.loads[n]? = some s →
    table.assigned regions n ≠ [] → ¬ HoldsFilesz table.encoding s i) →
      image.content[i]? = old[i]?
  /-- Behind the old bytes there are zeros. -/
  added : ∀ i, old.length ≤ i → i < image.content.length → image.content[i]? = some 0

variable {table : LoadTable} {old : Bytes} {regions : List Region} {image : CoreImage}

/-- Before any region the image is the one that was opened. -/
lemma covered_nil (hstands : table.StandsIn old) : Covered table old [] ⟨table, old, {}⟩ where
  encoding := rfl
  faults := rfl
  owner _ := rfl
  loads n := by
    have hsame : (fun s : Segment => s.stored (table.reach [] n s)) = id := rfl
    rw [hsame, Option.map_id, id]
  length := by
    have hstops : table.stops [] = [] := by
      rw [List.eq_nil_iff_forall_not_mem]
      intro stop hstop
      obtain ⟨_, _, _, hassigned, _⟩ := LoadTable.mem_stops.1 hstop
      exact hassigned rfl
    rw [LoadTable.extent, hstops]
    rfl
  entries _ s hget := hstands.bytes s (List.mem_of_getElem? hget)
  kept _ _ _ := rfl
  added i hle hlt := absurd hlt (Nat.not_lt.2 hle)

lemma Covered.length_le (h : Covered table old regions image) :
    old.length ≤ image.content.length := by
  have hlength := h.length
  have hle := table.length_le_extent regions old.length
  omega

/-- A region that belongs to no segment leaves everything as it is. -/
lemma Covered.snoc_none (h : Covered table old regions image) {region : Region}
    (hnone : table.owner? region = none) : Covered table old (regions ++ [region]) image := by
  obtain ⟨hassigned, hreach, hextent⟩ := LoadTable.snoc_of_none hnone regions
  refine ⟨h.encoding, h.faults, h.owner, ?_, ?_, ?_, ?_, h.added⟩
  · rw [hreach]; exact h.loads
  · rw [hextent]; exact h.length
  · rw [hreach]; exact h.entries
  · rw [hassigned]; exact h.kept

/-- Entries of different segments share no byte. -/
lemma apart_of_ne (hstands : table.StandsIn old) {n m : Nat} {s t : Segment}
    (hs : table.loads[n]? = some s) (ht : table.loads[m]? = some t) (hne : m ≠ n) :
    t.entryOffset.toNat + Segment.size table.encoding.width ≤ s.entryOffset.toNat ∨
      s.entryOffset.toNat + Segment.size table.encoding.width ≤ t.entryOffset.toNat := by
  obtain ⟨hn, rfl⟩ := List.getElem?_eq_some_iff.1 hs
  obtain ⟨hm, rfl⟩ := List.getElem?_eq_some_iff.1 ht
  have hapart := List.pairwise_iff_getElem.1 hstands.apart
  rcases Nat.lt_or_gt_of_ne hne with hlt | hlt
  · exact Or.inl (hapart m n hm hn hlt)
  · exact Or.inr (hapart n m hn hm hlt)

/-- A region belongs to a segment, whose entry is to be written again. -/
structure Extends (table : LoadTable) (regions : List Region) (region : Region) (n : Nat)
    (s : Segment) (bytes : Bytes) : Prop where
  get : table.loads[n]? = some s
  owner : table.owner? region = some n
  encode : (s.stored (table.reach (regions ++ [region]) n s)).encode? table.encoding = some bytes

section

variable {region : Region} {n : Nat} {s : Segment} {bytes : Bytes} {length : Nat}

/-- An entry is written again inside the file. -/
lemma Covered.length_overlay (h : Covered table old regions image) (hstands : table.StandsIn old)
    (e : Extends table regions region n s bytes) :
    (image.content.overlay s.entryOffset.toNat bytes).length = image.content.length := by
  have hbound := (hstands.bound s (List.mem_of_getElem? e.get)).2
  exact length_overlay_encode? e.encode (Nat.le_trans hbound h.length_le)

/-- Where an entry is written again, only the field with the size changes. -/
lemma Covered.getElem?_overlay (h : Covered table old regions image)
    (e : Extends table regions region n s bytes) {i : Nat} (hi : i < image.content.length)
    (hfield : ¬ HoldsFilesz table.encoding s i) :
    (image.content.overlay s.entryOffset.toNat bytes)[i]? = image.content[i]? := by
  have hsize := Segment.length_of_encode? e.encode
  by_cases hin : s.entryOffset.toNat ≤ i ∧ i < s.entryOffset.toNat + bytes.length
  · have hnonempty : bytes ≠ [] := by
      rintro rfl
      rw [List.length_nil] at hin
      omega
    have hentry := h.entries n s e.get
    have hbytes : ((s.stored (table.reach regions n s)).stored
        (table.reach (regions ++ [region]) n s)).encode? table.encoding = some bytes := e.encode
    have houtside : i - s.entryOffset.toNat < Segment.fileszOffset table.encoding.width ∨
        Segment.fileszOffset table.encoding.width + table.encoding.width.addressSize
          ≤ i - s.entryOffset.toNat := by
      rw [HoldsFilesz] at hfield
      omega
    have hsame := Segment.getElem?_encode?_stored hentry hbytes houtside
    rw [Bytes.getElem?_overlay _ _ hnonempty, if_pos hin, hsame, Bytes.getElem?_slice,
      if_pos (by omega), Nat.add_sub_cancel' hin.1]
  · exact Bytes.getElem?_overlay_of_outside _ hi (by omega)

lemma Covered.loads_set (h : Covered table old regions image)
    (e : Extends table regions region n s bytes) (m : Nat) :
    (image.table.loads.set n (s.stored (table.reach (regions ++ [region]) n s)))[m]?
      = (table.loads[m]?).map fun t : Segment =>
          t.stored (table.reach (regions ++ [region]) m t) := by
  have hload : image.table.loads[n]? = some (s.stored (table.reach regions n s)) := by
    rw [h.loads, e.get, Option.map_some]
  rw [List.getElem?_set]
  split
  · rename_i heq
    rw [if_pos (List.getElem?_eq_some_iff.1 hload).1, ← heq, e.get, Option.map_some]
  · rename_i hne
    rw [h.loads]
    cases table.loads[m]? with
    | none => rfl
    | some t =>
      have hsame := LoadTable.snoc_of_ne e.owner (Ne.symm hne) regions t
      rw [Option.map_some, Option.map_some, hsame.2]

/-- The entries of the other segments are not touched. -/
lemma Covered.entries_overlay (h : Covered table old regions image) (hstands : table.StandsIn old)
    (e : Extends table regions region n s bytes) (hlong : image.content.length ≤ length)
    {m : Nat} {t : Segment} (ht : table.loads[m]? = some t) :
    (t.stored (table.reach (regions ++ [region]) m t)).encode? table.encoding
      = some (((image.content.overlay s.entryOffset.toNat bytes).resize length).slice
          t.entryOffset.toNat (Segment.size table.encoding.width)) := by
  have hsize := Segment.length_of_encode? e.encode
  have hlaid := h.length_overlay hstands e
  have hbound := (hstands.bound t (List.mem_of_getElem? ht)).2
  have hold := h.length_le
  rw [Bytes.slice_resize (by omega) (by omega)]
  by_cases hm : m = n
  · rw [hm, e.get] at ht
    cases ht
    rw [hm, e.encode, ← hsize, Bytes.slice_overlay]
  · have hapart := apart_of_ne hstands e.get ht hm
    rw [(LoadTable.snoc_of_ne e.owner hm regions t).2, h.entries m t ht,
      Bytes.slice_overlay_of_disjoint (by omega)]
    omega

lemma Covered.kept_overlay (h : Covered table old regions image) (hstands : table.StandsIn old)
    (e : Extends table regions region n s bytes) (hlong : image.content.length ≤ length)
    {i : Nat} (hi : i < old.length)
    (hfields : ∀ (m : Nat) (t : Segment), table.loads[m]? = some t →
      table.assigned (regions ++ [region]) m ≠ [] → ¬ HoldsFilesz table.encoding t i) :
    ((image.content.overlay s.entryOffset.toNat bytes).resize length)[i]? = old[i]? := by
  have hlaid := h.length_overlay hstands e
  have hold := h.length_le
  have hfield : ¬ HoldsFilesz table.encoding s i := by
    refine hfields n s e.get ?_
    rw [LoadTable.assigned_snoc, if_pos e.owner]
    simp
  rw [Bytes.getElem?_resize, if_pos (by omega), if_pos (by omega),
    h.getElem?_overlay e (by omega) hfield]
  refine h.kept i hi ?_
  intro m t ht hassigned
  exact hfields m t ht (LoadTable.assigned_snoc_ne_nil hassigned region)

lemma Covered.added_overlay (h : Covered table old regions image) (hstands : table.StandsIn old)
    (e : Extends table regions region n s bytes) {i : Nat} (hle : old.length ≤ i)
    (hlt : i < length) :
    ((image.content.overlay s.entryOffset.toNat bytes).resize length)[i]? = some 0 := by
  have hsize := Segment.length_of_encode? e.encode
  have hbound := (hstands.bound s (List.mem_of_getElem? e.get)).2
  have hlaid := h.length_overlay hstands e
  rw [Bytes.getElem?_resize, if_pos hlt]
  split
  · rename_i hin
    rw [hlaid] at hin
    rw [Bytes.getElem?_overlay_of_outside _ hin (by omega)]
    exact h.added i hle hin
  · rfl

/-- **A region that belongs to a segment.**  Its entry is written again, and the file made long
enough. -/
lemma Covered.snoc_some (h : Covered table old regions image) (hstands : table.StandsIn old)
    (e : Extends table regions region n s bytes) {size : Int}
    (hsize : size = max (image.content.length : Int)
      (s.offset + table.reach (regions ++ [region]) n s)) :
    Covered table old (regions ++ [region])
      ⟨image.table.set n (s.stored (table.reach (regions ++ [region]) n s)),
        (image.content.overlay s.entryOffset.toNat bytes).resize size.toNat, {}⟩ := by
  have hload : image.table.loads[n]? = some (s.stored (table.reach regions n s)) := by
    rw [h.loads, e.get, Option.map_some]
  have hlong : image.content.length ≤ size.toNat := by omega
  refine ⟨h.encoding, rfl, ?owner, h.loads_set e, ?length, ?entries, ?kept, ?added⟩
  case owner =>
    intro other
    exact (LoadTable.owner?_set hload _ other).trans (h.owner other)
  case length =>
    have hextent := LoadTable.extent_snoc e.get e.owner regions old.length
    rw [← h.length, ← hsize] at hextent
    rw [hextent, Bytes.length_resize]
    omega
  case entries =>
    intro m t ht
    exact h.entries_overlay hstands e hlong ht
  case kept =>
    intro i hi hfields
    exact h.kept_overlay hstands e hlong hi hfields
  case added =>
    intro i hle hlt
    rw [Bytes.length_resize] at hlt
    exact h.added_overlay hstands e hle hlt

end

/-! ## All regions -/

/-- The segment that a region is found in is that of its owner, as far as it was extended. -/
lemma Covered.owner_of_find? (h : Covered table old regions image) {region : Region}
    (hregion : region.size ≠ 0) {n : Nat} {found : Segment}
    (hfind : image.table.find? region = some (n, found)) :
    table.owner? region = some n ∧ ∃ s, table.loads[n]? = some s ∧
      found = s.stored (table.reach regions n s) := by
  have howner : table.owner? region = some n := by
    rw [← h.owner region, LoadTable.owner?, if_neg hregion, hfind, Option.map_some]
  obtain ⟨-, s, hget, -⟩ := LoadTable.owner?_eq_some_iff.1 howner
  have hload := (firstMatch?_eq_some_iff.1 hfind).1
  rw [h.loads, hget, Option.map_some] at hload
  exact ⟨howner, s, hget, (Option.some.inj hload).symm⟩

lemma Covered.cover (h : Covered table old regions image) (hstands : table.StandsIn old)
    {region : Region} (hregion : region.size ≠ 0) {size : Int}
    (hsize : (image.cover region image.content.length).outcome = .ok size) :
    Covered table old (regions ++ [region]) (image.cover region image.content.length).image ∧
      size = (image.cover region image.content.length).image.content.length := by
  cases hfind : image.table.find? region with
  | none =>
    have howner : table.owner? region = none := by
      rw [← h.owner region, LoadTable.owner?, if_neg hregion, hfind, Option.map_none]
    have hcover : image.cover region image.content.length
        = ⟨image, [.noSegment region], .ok (image.content.length : Int)⟩ := by
      rw [CoreImage.cover, hfind]
    rw [hcover] at hsize ⊢
    cases hsize
    exact ⟨h.snoc_none howner, rfl⟩
  | some found =>
    obtain ⟨n, found⟩ := found
    obtain ⟨howner, s, hget, rfl⟩ := h.owner_of_find? hregion hfind
    have hreach := LoadTable.reach_snoc table regions region n s
    rw [if_pos howner] at hreach
    have hbound := (hstands.bound s (List.mem_of_getElem? hget)).2
    have hentry := h.entries n s hget
    rw [← h.encoding] at hbound hentry
    obtain ⟨bytes, hbytes, hmax, himage⟩ := cover_some h.faults hfind
      (Nat.le_trans hbound h.length_le) hentry hreach.symm hsize
    rw [h.encoding] at hbytes
    rw [himage]
    refine ⟨h.snoc_some hstands ⟨hget, howner, hbytes⟩ hmax, ?_⟩
    rw [Bytes.length_resize]
    omega

lemma Covered.coverAll (h : Covered table old regions image) (hstands : table.StandsIn old)
    (more : List Region) {size : Int}
    (hsize : (image.coverAll image.content.length more).outcome = .ok size) :
    Covered table old (regions ++ more) (image.coverAll image.content.length more).image ∧
      size = (image.coverAll image.content.length more).image.content.length := by
  induction more generalizing regions image with
  | nil =>
    cases hsize
    rw [List.append_nil]
    exact ⟨h, rfl⟩
  | cons region more ih =>
    have happend : regions ++ region :: more = (regions ++ [region]) ++ more := by simp
    rw [happend]
    rw [CoreImage.coverAll] at hsize ⊢
    by_cases hregion : region.size = 0
    · rw [if_pos hregion] at hsize ⊢
      have hnone : table.owner? region = none := by rw [LoadTable.owner?, if_pos hregion]
      exact ih (h.snoc_none hnone) hsize
    · rw [if_neg hregion] at hsize ⊢
      dsimp only at hsize ⊢
      cases hstep : (image.cover region image.content.length).outcome with
      | error obstacle =>
        rw [hstep] at hsize
        dsimp only at hsize
        rw [hstep] at hsize
        cases hsize
      | ok next =>
        obtain ⟨hcovered, hnext⟩ := h.cover hstands hregion hstep
        rw [hstep] at hsize
        dsimp only at hsize ⊢
        rw [hnext] at hsize ⊢
        exact ih hcovered hsize

end CoreImage

/-! ## The header step -/

/-- What the content holds in the field of the segment for the size of its stored part. -/
def LoadTable.fileszIn (table : LoadTable) (content : Bytes) (s : Segment) : Nat :=
  table.encoding.order.decode (content.slice
    (s.entryOffset.toNat + Segment.fileszOffset table.encoding.width)
    table.encoding.width.addressSize)

lemma fileszIn_of_encode? {table : LoadTable} {content : Bytes} {s : Segment} {filesz : Int}
    (h : (s.stored filesz).encode? table.encoding
      = some (content.slice s.entryOffset.toNat (Segment.size table.encoding.width))) :
    table.fileszIn content s = filesz := by
  have hfield := Segment.slice_encode? h
  rwa [Bytes.slice_slice _ (Segment.fileszOffset_le table.encoding.width)] at hfield

lemma adjustRead_congr {reading : Reading LoadTable} {outcome : Except OpenError LoadTable}
    (h : reading.outcome = outcome) (content : Bytes) (regions : List Region) (coreSize : Int) :
    adjustRead content reading {} regions coreSize
      = adjustRead content (.ofOutcome outcome) {} regions coreSize := by
  simp only [adjustRead, CoreFaults.positioned_empty, h, Reading.outcome_ofOutcome]

/-- Without faults the header step goes by what reading the table gives. -/
lemma adjust_of_outcome {content : Bytes} {outcome : Except OpenError LoadTable}
    (hopen : (LoadTable.ofContent content).outcome = outcome) (regions : List Region)
    (coreSize : Int) :
    adjust content regions coreSize
      = adjustRead content (.ofOutcome outcome) {} regions coreSize := by
  rw [adjust, CoreFaults.flushed_empty]
  exact adjustRead_congr hopen content regions coreSize

/-- A file whose bytes are not those of an object file keeps its size. -/
lemma adjust_of_malformed {content : Bytes} {why : Malformation}
    (hopen : (LoadTable.ofContent content).outcome = .error (.malformed why))
    (regions : List Region) (coreSize : Int) :
    adjust content regions coreSize = ⟨content, {}, [.headersLeft why], .ok coreSize⟩ :=
  adjust_of_outcome hopen regions coreSize

lemma adjust_of_obstructed {content : Bytes} {obstacle : Obstacle}
    (hopen : (LoadTable.ofContent content).outcome = .error (.obstructed obstacle))
    (regions : List Region) (coreSize : Int) :
    adjust content regions coreSize = ⟨content, {}, [], .error obstacle⟩ :=
  adjust_of_outcome hopen regions coreSize

lemma adjust_eq_adjustOpened {content : Bytes} {table : LoadTable}
    (hopen : (LoadTable.ofContent content).outcome = .ok table) (regions : List Region)
    (coreSize : Int) :
    adjust content regions coreSize = adjustOpened ⟨table, content, {}⟩ regions coreSize :=
  adjust_of_outcome hopen regions coreSize

/-- What is made of an open file is what covering the regions makes of it. -/
lemma adjustOpened_spec (image : CoreImage) (regions : List Region) (coreSize : Int) :
    let result := image.coverAll coreSize regions
    (adjustOpened image regions coreSize).content = result.image.content ∧
      ∀ size, (adjustOpened image regions coreSize).outcome = .ok size →
        result.outcome = .ok size := by
  intro result
  rw [adjustOpened]
  split
  · rename_i obstacle hobstacle
    refine ⟨rfl, ?_⟩
    intro size hsize
    cases hsize
  · rename_i covered hcovered
    split
    · refine ⟨rfl, ?_⟩
      intro size hsize
      cases hsize
    · refine ⟨rfl, ?_⟩
      intro size hsize
      cases hsize
      exact hcovered

/-- The header step without faults covers the regions. -/
lemma adjust_of_ofContent {content : Bytes} {table : LoadTable}
    (hopen : (LoadTable.ofContent content).outcome = .ok table) (regions : List Region)
    (coreSize : Int) :
    let result := CoreImage.coverAll ⟨table, content, {}⟩ coreSize regions
    (adjust content regions coreSize).content = result.image.content ∧
      ∀ size, (adjust content regions coreSize).outcome = .ok size →
        result.outcome = .ok size := by
  rw [adjust_eq_adjustOpened hopen]
  exact adjustOpened_spec _ regions coreSize

/-- **Any table in closed form.**  The table may come from anywhere, as long as its entries stand in
the file, apart from each other.  For every list of regions: a step that succeeds makes the file as
long as the stored parts of the segments with regions ask for, and puts the size of each stored part
into its field.  No other byte of the file is changed, and the new bytes are zero. -/
theorem adjustOpened_closed_form {content : Bytes} {table : LoadTable}
    (hstands : table.StandsIn content) (regions : List Region) {size : Int}
    (hsize : (adjustOpened ⟨table, content, {}⟩ regions content.length).outcome = .ok size) :
    let new := (adjustOpened ⟨table, content, {}⟩ regions content.length).content
    size = table.extent regions content.length ∧ (new.length : Int) = size ∧
      (∀ (n : Nat) (s : Segment), table.loads[n]? = some s →
        table.fileszIn content s = s.filesz ∧
          table.fileszIn new s = table.reach regions n s) ∧
      (∀ i < content.length, (∀ (n : Nat) (s : Segment), table.loads[n]? = some s →
        table.assigned regions n ≠ [] → ¬ CoreImage.HoldsFilesz table.encoding s i) →
          new[i]? = content[i]?) ∧
      ∀ i, content.length ≤ i → i < new.length → new[i]? = some 0 := by
  intro new
  obtain ⟨hnew, houtcome⟩ := adjustOpened_spec ⟨table, content, {}⟩ regions content.length
  have hcoverAll := (CoreImage.covered_nil hstands).coverAll hstands regions
    (houtcome size hsize)
  dsimp only [List.nil_append] at hnew hcoverAll
  generalize CoreImage.coverAll ⟨table, content, {}⟩ content.length regions = result
    at hnew hcoverAll
  obtain ⟨hcovered, hlength⟩ := hcoverAll
  have hnew' : new = result.image.content := hnew
  rw [hnew']
  refine ⟨hlength.trans hcovered.length, hlength.symm, ?_, hcovered.kept, hcovered.added⟩
  intro n s hget
  have hold := (CoreImage.covered_nil hstands).entries n s hget
  exact ⟨fileszIn_of_encode? hold, fileszIn_of_encode? (hcovered.entries n s hget)⟩

/-- **The header step in closed form.**  For every file whose table can be opened and has room for
its entries, and for every list of regions: a step that succeeds makes the file as long as the
stored parts of the segments with regions ask for, and puts the size of each stored part into its
field.  No other byte of the file is changed, and the new bytes are zero. -/
theorem adjust_closed_form {content : Bytes} {table : LoadTable} {header : Header}
    (hopen : (LoadTable.ofContent content).outcome = .ok table)
    (hheader : (Header.ofContent content.toArray).outcome = .ok header)
    (hroom : Segment.size header.encoding.width ≤ header.segmentEntrySize)
    (regions : List Region) {size : Int}
    (hsize : (adjust content regions content.length).outcome = .ok size) :
    let new := (adjust content regions content.length).content
    size = table.extent regions content.length ∧ (new.length : Int) = size ∧
      (∀ (n : Nat) (s : Segment), table.loads[n]? = some s →
        table.fileszIn content s = s.filesz ∧
          table.fileszIn new s = table.reach regions n s) ∧
      (∀ i < content.length, (∀ (n : Nat) (s : Segment), table.loads[n]? = some s →
        table.assigned regions n ≠ [] → ¬ CoreImage.HoldsFilesz table.encoding s i) →
          new[i]? = content[i]?) ∧
      ∀ i, content.length ≤ i → i < new.length → new[i]? = some 0 := by
  rw [adjust_eq_adjustOpened hopen] at hsize ⊢
  exact adjustOpened_closed_form (LoadTable.standsIn_of_ofContent hopen hheader hroom) regions hsize

/-- A core with two loaded segments, of which the second begins in the memory of the first. -/
def twoLoads : Bytes :=
  magicBytes ++ [1, 2, 1, 0, 0]
    ++ writeWords .big [(7, 0), (2, 4), (2, 0), (4, 1), (4, 0), (4, 52), (4, 0), (4, 0),
      (2, 52), (2, 32), (2, 2), (2, 0), (2, 0), (2, 0)]
    ++ writeWords .big ([1, 116, 0x1000, 0, 2, 0x20, 4, 1].map fun value => (4, value))
    ++ writeWords .big ([1, 118, 0x1010, 0, 0, 0x20, 6, 1].map fun value => (4, value))
    ++ [0xaa, 0xbb]

/-- The segments of that core. -/
def twoLoadsTable : LoadTable where
  encoding := ⟨.bits32, .big⟩
  loads :=
    [⟨0, 52, 1, 116, 0x1000, 0, 2, 0x20, 4, 1⟩, ⟨1, 84, 1, 118, 0x1010, 0, 0, 0x20, 6, 1⟩]

/-- The first region lies in both segments, the last in none. -/
theorem adjust_closed_form_twoLoads :
    let regions : List Region := [⟨0x1018, 8⟩, ⟨0x1000, 1⟩, ⟨0x1018, 16⟩, ⟨0x5000, 1⟩]
    let new := (adjust twoLoads regions twoLoads.length).content
    twoLoadsTable.extent regions twoLoads.length = 148 ∧ (new.length : Int) = 148 ∧
      (∀ (n : Nat) (s : Segment), twoLoadsTable.loads[n]? = some s →
        (twoLoadsTable.fileszIn new s : Int) = ([32, 24] : List Int).getD n 0) ∧
      ∀ i, twoLoads.length ≤ i → i < new.length → new[i]? = some 0 := by
  intro regions new
  obtain ⟨hextent, hlength, hfilesz, -, hadded⟩ := adjust_closed_form
    (show (LoadTable.ofContent twoLoads).outcome = .ok twoLoadsTable by decide +kernel)
    (show (Header.ofContent twoLoads.toArray).outcome
      = .ok ⟨⟨.bits32, .big⟩, 0, 52, 0, 32, 2, 0, 0, 0⟩ by decide +kernel)
    (show Segment.size .bits32 ≤ 32 by decide) regions
    (show (adjust twoLoads regions twoLoads.length).outcome = .ok 148 by decide +kernel)
  refine ⟨hextent.symm, hlength, ?_, hadded⟩
  intro n s hget
  apply (hfilesz n s hget).2.trans
  match n with
  | 0 =>
    cases hget
    decide +kernel
  | 1 =>
    cases hget
    decide +kernel
  | _ + 2 => cases hget

end CoreSplice.Elf
