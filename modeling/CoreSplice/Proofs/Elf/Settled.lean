import CoreSplice.Proofs.Elf.Reopening

/-!
# Regions that are covered already

When the regions of a list were covered, each segment reaches the ends of its regions, the entries
of the file say so, and the file is long enough.  So there is nothing left to do for these regions,
neither for the image itself nor for one that is made of the file later.

* `CoreImage.Covered.coverAll_idle` — the image after covering is left as it is.
* `CoreImage.Covered.ofContent_content` — the file has the table of the image when it is opened.
* `adjust_kept` — the header step changes no byte outside of the program header table.
* **`adjust_twice`** — the header step on its own result changes nothing.
-/

namespace CoreSplice.Elf

namespace CoreImage

/-! ## Lengths that a file can have -/

lemma checkOffset_lt {n : Int} {position : Nat} (h : checkOffset n = .ok position) :
    position < positionLimit := by
  simp only [checkOffset] at h
  split at h
  · cases h
  · rename_i hin
    split at h
    · cases h
    · cases h
      have hlimit := (isOffset_iff.1 (by simpa using hin)).2
      omega

lemma growFor_lt {image : CoreImage} {s : Segment} {coreSize size : Int}
    {notices : List Diagnostic} (hcore : coreSize < positionLimit)
    (h : (image.growFor s coreSize notices).outcome = .ok size) : size < positionLimit := by
  simp only [growFor] at h
  split at h
  · cases hset : image.setSize (s.offset + s.filesz) with
    | error obstacle =>
      rw [hset] at h
      cases h
    | ok grown =>
      rw [hset] at h
      cases h
      obtain ⟨length, hlength, -⟩ := Outcome.map_eq_ok.1 hset
      obtain ⟨-, rfl⟩ := checkOffset_eq_ok hlength
      have hlimit := checkOffset_lt hlength
      omega
  · cases h
    exact hcore

lemma cover_lt {image : CoreImage} {region : Region} {coreSize size : Int}
    (hcore : coreSize < positionLimit) (h : (image.cover region coreSize).outcome = .ok size) :
    size < positionLimit := by
  simp only [cover] at h
  split at h
  · cases h
    exact hcore
  · split at h
    · split at h
      · cases h
      · exact growFor_lt hcore h
    · exact growFor_lt hcore h

lemma coverAll_lt {image : CoreImage} {regions : List Region} {coreSize size : Int}
    (hcore : coreSize < positionLimit) (h : (image.coverAll coreSize regions).outcome = .ok size) :
    size < positionLimit := by
  induction regions generalizing image coreSize with
  | nil =>
    cases h
    exact hcore
  | cons region regions ih =>
    rw [coverAll] at h
    split at h
    · exact ih hcore h
    · dsimp only at h
      split at h
      · rename_i obstacle hstep
        rw [hstep] at h
        cases h
      · rename_i next hstep
        exact ih (cover_lt hcore hstep) h

variable {table : LoadTable} {old : Bytes} {regions : List Region} {image : CoreImage}
  {header : Header}

/-! ## The image again -/

/-- A region of the list is covered already. -/
lemma Covered.cover_idle (h : Covered table old regions image) {region : Region}
    (hmem : region ∈ regions) (hregion : region.size ≠ 0) :
    (image.cover region image.content.length).image = image ∧
      (image.cover region image.content.length).outcome = .ok (image.content.length : Int) := by
  cases hfind : image.table.find? region with
  | none =>
    rw [CoreImage.cover, hfind]
    exact ⟨rfl, rfl⟩
  | some found =>
    obtain ⟨n, found⟩ := found
    obtain ⟨howner, s, hget, hfound⟩ := h.owner_of_find? hregion hfind
    have hassigned : region ∈ table.assigned regions n := by
      simpa [LoadTable.assigned, howner] using hmem
    have hreach : region.address + region.size - s.vaddr ≤ table.reach regions n s :=
      (largest_le_iff.1 (Int.le_refl _)).2 _ (List.mem_map_of_mem hassigned)
    have hstop : s.offset + table.reach regions n s ≤ image.content.length := by
      rw [h.length]
      exact (largest_le_iff.1 (Int.le_refl _)).2 _
        (LoadTable.mem_stops.2 ⟨n, s, hget, List.ne_nil_of_mem hassigned, rfl⟩)
    have hreached : ¬ found.filesz < region.address + region.size - found.vaddr := by
      rw [hfound]
      exact Int.not_lt.2 hreach
    have hlong : ¬ (image.content.length : Int) < found.offset + found.filesz := by
      rw [hfound]
      exact Int.not_lt.2 hstop
    rw [CoreImage.cover, hfind]
    dsimp only
    rw [if_neg hreached, growFor]
    dsimp only
    rw [if_neg hlong]
    exact ⟨rfl, rfl⟩

/-- **The image after covering** is left as it is by the same regions. -/
lemma Covered.coverAll_idle (h : Covered table old regions image) {more : List Region}
    (hmore : ∀ region ∈ more, region ∈ regions) :
    (image.coverAll image.content.length more).image = image ∧
      (image.coverAll image.content.length more).outcome
        = .ok (image.content.length : Int) := by
  induction more with
  | nil => exact ⟨rfl, rfl⟩
  | cons region more ih =>
    obtain ⟨hregion, hrest⟩ := List.forall_mem_cons.1 hmore
    rw [CoreImage.coverAll]
    by_cases hsize : region.size = 0
    · rw [if_pos hsize]
      exact ih hrest
    · obtain ⟨himage, houtcome⟩ := h.cover_idle hregion hsize
      rw [if_neg hsize]
      dsimp only
      rw [houtcome]
      dsimp only
      rw [himage]
      exact ih hrest

/-! ## The file again -/

/-- A segment of a table stands at an entry of the program header table. -/
lemma exists_entry (horderly : Orderly old header)
    (hopen : (LoadTable.ofContent old).outcome = .ok table) {s : Segment} (hs : s ∈ table.loads) :
    ∃ index < header.segmentEntries, s.kind = loadKind ∧
      (LoadTable.readSegment header old.toArray index).outcome = .ok s := by
  have hloads := ((LoadTable.ofContent_eq_ok_iff horderly.read horderly.few).1 hopen).2
  rcases LoadTable.mem_of_readLoads hloads hs with hnone | ⟨index, hindex, hkind, hread⟩
  · cases hnone
  · exact ⟨index, by omega, hkind, hread⟩

/-- The field for the size of the stored part lies inside its entry. -/
lemma HoldsFilesz.mem_entry {s : Segment} {i : Nat} (hfield : HoldsFilesz header.encoding s i)
    {index : Nat} (hread : (LoadTable.readSegment header old.toArray index).outcome = .ok s) :
    header.entryAt index ≤ i ∧
      i < header.entryAt index + Segment.size header.encoding.width := by
  have hoffset : s.entryOffset.toNat = header.entryAt index := by
    rw [(LoadTable.of_readSegment hread).1, Int.toNat_natCast, Header.entryAt]
  have hle := Segment.fileszOffset_le header.encoding.width
  rw [HoldsFilesz, hoffset] at hfield
  omega

/-- Bytes outside of the program header table are kept. -/
lemma Covered.kept_outside (h : Covered table old regions image) (horderly : Orderly old header)
    (hopen : (LoadTable.ofContent old).outcome = .ok table) {i : Nat} (hi : i < old.length)
    (houtside : i < header.segmentTable ∨ ¬ header.Reaches i) :
    image.content[i]? = old[i]? := by
  have hencoding := ((LoadTable.ofContent_eq_ok_iff horderly.read horderly.few).1 hopen).1
  refine h.kept i hi ?_
  intro n s hget _ hfield
  rw [hencoding] at hfield
  obtain ⟨index, hindex, -, hread⟩ := exists_entry horderly hopen (List.mem_of_getElem? hget)
  obtain ⟨hle, hlt⟩ := hfield.mem_entry hread
  rcases houtside with hbefore | houtside
  · rw [Header.entryAt] at hle
    omega
  · exact houtside (horderly.reaches_entry hindex hle hlt)

/-- Entries with different indices share no byte. -/
lemma apart_of_index_ne (horderly : Orderly old header) {first second : Nat}
    (hne : first ≠ second) :
    header.entryAt first + Segment.size header.encoding.width ≤ header.entryAt second ∨
      header.entryAt second + Segment.size header.encoding.width ≤ header.entryAt first := by
  have hroom := horderly.room
  have hbefore {first second : Nat} (hlt : first < second) :
      header.entryAt first + Segment.size header.encoding.width ≤ header.entryAt second := by
    have hmul := Nat.mul_le_mul_right header.segmentEntrySize (Nat.succ_le_of_lt hlt)
    rw [Nat.succ_mul] at hmul
    simp only [Header.entryAt]
    omega
  rcases Nat.lt_or_gt_of_ne hne with hlt | hlt
  · exact Or.inl (hbefore hlt)
  · exact Or.inr (hbefore hlt)

/-- Covering writes the segments of the image in the place of the loaded ones. -/
lemma Covered.rewritten (h : Covered table old regions image) (horderly : Orderly old header)
    (hopen : (LoadTable.ofContent old).outcome = .ok table) :
    Rewritten header old image.content table.loads image.table.loads := by
  have hencoding := ((LoadTable.ofContent_eq_ok_iff horderly.read horderly.few).1 hopen).1
  refine ⟨?length, ?entries, ?others⟩
  case length =>
    have hmap : image.table.loads
        = table.loads.mapIdx fun n s => s.stored (table.reach regions n s) := by
      apply List.ext_getElem?
      intro n
      rw [h.loads, List.getElem?_mapIdx]
    rw [hmap, List.length_mapIdx]
  case entries =>
    intro n s hget
    have hentry := h.entries n s hget
    rw [hencoding] at hentry
    exact ⟨s.stored (table.reach regions n s), by rw [h.loads, hget, Option.map_some], rfl, rfl,
      rfl, hentry⟩
  case others =>
    intro index hindex s hread hkind
    refine Bytes.slice_eq_of_getElem? ?_
    intro i hle hlt
    have hin := horderly.inside index hindex
    refine h.kept i (by omega) ?_
    intro n t hget _ hfield
    rw [hencoding] at hfield
    obtain ⟨other, -, hload, hread'⟩ := exists_entry horderly hopen (List.mem_of_getElem? hget)
    obtain ⟨hle', hlt'⟩ := hfield.mem_entry hread'
    have hne : index ≠ other := by
      rintro rfl
      rw [hread] at hread'
      cases hread'
      exact hkind hload
    have hapart := apart_of_index_ne horderly hne
    omega

/-- **The file after covering** has the table of the image when it is opened. -/
lemma Covered.ofContent_content (h : Covered table old regions image)
    (horderly : Orderly old header) (hopen : (LoadTable.ofContent old).outcome = .ok table)
    (hlimit : image.content.length < positionLimit) :
    (LoadTable.ofContent image.content).outcome = .ok image.table := by
  have hsize := Header.size_le_length horderly.read
  have hbehind := horderly.behind
  have hheader : image.content.slice 0 (Header.size header.encoding.width)
      = old.slice 0 (Header.size header.encoding.width) := by
    refine Bytes.slice_eq_of_getElem? ?_
    intro i _ hi
    exact h.kept_outside horderly hopen (by omega) (Or.inl (by omega))
  exact LoadTable.ofContent_rewritten horderly hopen (h.rewritten horderly hopen) h.encoding
    (Header.ofContent_of_slice horderly.read hlimit hheader)

end CoreImage

/-! ## The header step again -/

section

variable {content new : Bytes} {header : Header} {regions : List Region} {size : Int}

/-- The header step leaves a file alone whose table cannot be read, and succeeds if the bytes of
the file are the reason. -/
lemma adjust_of_error {error : OpenError}
    (h : (LoadTable.ofContent content).outcome = .error error) (regions : List Region)
    (coreSize : Int) :
    (adjust content regions coreSize).content = content ∧
      ∀ size, (adjust content regions coreSize).outcome = .ok size →
        ∃ why, error = .malformed why := by
  cases error with
  | malformed why =>
    rw [adjust_of_malformed h]
    exact ⟨rfl, fun _ _ => ⟨why, rfl⟩⟩
  | obstructed obstacle =>
    rw [adjust_of_obstructed h]
    exact ⟨rfl, fun _ hsize => by cases hsize⟩

/-- A file that the header step succeeds on is no longer than positions go. -/
lemma length_lt_of_adjust {coreSize : Int}
    (hsize : (adjust content regions coreSize).outcome = .ok size) :
    content.length < positionLimit := by
  by_contra hlong
  have hseek : (Reading.seek content.length).outcome
      = .error (.obstructed (.beyondOffsets content.length)) := by
    have hbeyond : isOffset content.length = false := by
      rw [Bool.eq_false_iff, Ne, isOffset_iff]
      omega
    simp only [Reading.seek, checkOffset, hbeyond]
    rfl
  have hopen : (LoadTable.ofContent content).outcome
      = .error (.obstructed (.beyondOffsets content.length)) := by
    simp only [LoadTable.ofContent, Header.ofContent, Reading.outcome_bind, List.size_toArray,
      hseek]
    rfl
  obtain ⟨why, hwhy⟩ := (adjust_of_error hopen regions coreSize).2 size hsize
  cases hwhy

/-- A header step that succeeded on a file whose table was read has covered the regions. -/
lemma covered_of_adjust (horderly : Orderly content header) {table : LoadTable}
    (hopen : (LoadTable.ofContent content).outcome = .ok table)
    (hsize : (adjust content regions content.length).outcome = .ok size) :
    ∃ image, CoreImage.Covered table content regions image ∧ size = image.content.length ∧
      image.content.length < positionLimit ∧
      (adjust content regions content.length).content = image.content := by
  have hlength : (content.length : Int) < positionLimit :=
    Int.ofNat_lt.2 (Header.ofContent_eq_ok_iff.1 horderly.read).1
  have hstands := LoadTable.standsIn_of_ofContent hopen horderly.read horderly.room
  obtain ⟨hcontent, houtcome⟩ := adjust_of_ofContent hopen regions content.length
  obtain ⟨hcovered, hsame⟩ := (CoreImage.covered_nil hstands).coverAll hstands regions
    (houtcome size hsize)
  have hlimit := CoreImage.coverAll_lt hlength (houtcome size hsize)
  exact ⟨_, hcovered, hsame, Int.ofNat_lt.1 (hsame ▸ hlimit), hcontent⟩

/-- A header step that succeeded has left the file alone or covered the regions. -/
lemma adjust_cases (horderly : Orderly content header)
    (hsize : (adjust content regions content.length).outcome = .ok size) :
    (adjust content regions content.length).content = content ∨
      ∃ table image, (LoadTable.ofContent content).outcome = .ok table ∧
        CoreImage.Covered table content regions image ∧ size = image.content.length ∧
        image.content.length < positionLimit ∧
        (adjust content regions content.length).content = image.content := by
  cases hopen : (LoadTable.ofContent content).outcome with
  | error error => exact Or.inl (adjust_of_error hopen regions content.length).1
  | ok table =>
    obtain ⟨image, himage⟩ := covered_of_adjust horderly hopen hsize
    exact Or.inr ⟨table, image, rfl, himage⟩

/-- A header step whose regions can be covered succeeds. -/
lemma adjust_of_coverAll {table : LoadTable} {coreSize : Int}
    (hopen : (LoadTable.ofContent content).outcome = .ok table)
    (hcover : (CoreImage.coverAll ⟨table, content, {}⟩ coreSize regions).outcome = .ok size)
    (hfaults : (CoreImage.coverAll ⟨table, content, {}⟩ coreSize regions).image.faults = {}) :
    (adjust content regions coreSize).outcome = .ok size := by
  rw [adjust_eq_adjustOpened hopen, adjustOpened, hcover]
  dsimp only
  rw [hfaults, CoreFaults.flushed_empty]

/-- The header step changes no byte outside of header and program header table. -/
theorem adjust_kept (horderly : Orderly content header)
    (hsize : (adjust content regions content.length).outcome = .ok size)
    (hnew : (adjust content regions content.length).content = new) :
    content.length ≤ new.length ∧
      ∀ i < content.length, ¬ header.Reaches i → new[i]? = content[i]? := by
  rcases adjust_cases horderly hsize with hsame | ⟨table, image, hopen, hcovered, -, -, hsame⟩
  · obtain rfl : content = new := hsame.symm.trans hnew
    exact ⟨Nat.le_refl _, fun _ _ _ => rfl⟩
  · obtain rfl : image.content = new := hsame.symm.trans hnew
    refine ⟨hcovered.length_le, ?_⟩
    intro i hi houtside
    exact hcovered.kept_outside horderly hopen hi (Or.inr houtside)

/-- **The header step on its own result** succeeds and changes nothing. -/
theorem adjust_twice (horderly : Orderly content header)
    (hsize : (adjust content regions content.length).outcome = .ok size)
    (hnew : (adjust content regions content.length).content = new) :
    (adjust new regions new.length).content = new ∧
      (adjust new regions new.length).outcome = .ok size := by
  rcases adjust_cases horderly hsize
    with hsame | ⟨table, ⟨table', content', faults⟩, hopen, hcovered, hlength, hlimit, hsame⟩
  · obtain rfl : content = new := hsame.symm.trans hnew
    exact ⟨hnew, hsize⟩
  · obtain rfl : content' = new := hsame.symm.trans hnew
    obtain rfl : faults = {} := hcovered.faults
    have hreopen := hcovered.ofContent_content horderly hopen hlimit
    obtain ⟨hidle, houtcome⟩ := hcovered.coverAll_idle (fun _ hregion => hregion)
    rw [hlength]
    refine ⟨?_, adjust_of_coverAll hreopen houtcome ?_⟩
    · rw [(adjust_of_ofContent hreopen regions _).1]
      exact congrArg CoreImage.content hidle
    · exact congrArg CoreImage.faults hidle

end

end CoreSplice.Elf
