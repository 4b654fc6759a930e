import Mathlib.Data.List.Forall2
import CoreSplice.Proofs.Elf.Extension

/-!
# The fields stay in their range

Nothing limits the addresses and sizes of regions, and the end of a segment in memory may lie
behind the last address.  Still no entry gets a value that its field cannot hold: the size that a
segment is given is that of a part of its memory, and the size of its memory was read from a field
as wide as that one.  This depends on the table alone: not on the file, on its faults, or on the
size of the core that a call is given.

* `Segment.StretchedTo` — a larger stored part, within the memory.
* `LoadTable.extendTo` — the table after a region, with `CoreImage.cover_spec`.
* `LoadTable.forall₂_stretchedTo`, `LoadTable.Writable.extendTo` — what one region keeps.
* `CoreImage.coverEach` — calls for one region each, of which any may fail.
* **`CoreImage.coverEach_inRange`** — all segments, after any calls.
-/

namespace CoreSplice.Elf

/-! ## Larger stored parts -/

/-- Nothing but the stored part is changed, which is no smaller, and no larger than it was or than
the memory of the segment. -/
structure Segment.StretchedTo (s t : Segment) : Prop where
  eq : t = s.stored t.filesz
  le : s.filesz ≤ t.filesz
  le_max : t.filesz ≤ max s.filesz s.memsz

lemma Segment.StretchedTo.refl (s : Segment) : s.StretchedTo s :=
  ⟨rfl, Int.le_refl _, Int.le_max_left _ _⟩

instance : Std.Refl Segment.StretchedTo :=
  ⟨Segment.StretchedTo.refl⟩

lemma Segment.StretchedTo.trans {s t u : Segment} (h : s.StretchedTo t) (h' : t.StretchedTo u) :
    s.StretchedTo u := by
  have hmemsz : t.memsz = s.memsz := by rw [h.eq, Segment.stored]
  have hle := h'.le_max
  have hle' := h.le_max
  refine ⟨?_, Int.le_trans h.le h'.le, by omega⟩
  rw [h'.eq, h.eq]
  rfl

/-- A segment that contains a region can be stretched to its end. -/
lemma Segment.stretchedTo_stored {s : Segment} {region : Region}
    (h : s.contains region = true) :
    s.StretchedTo (s.stored (max s.filesz (region.address + region.size - s.vaddr))) := by
  have hend := Segment.end_le_of_contains h
  refine ⟨rfl, Int.le_max_left _ _, ?_⟩
  dsimp only [Segment.stored]
  omega

namespace LoadTable

variable {table : LoadTable}

/-- The table after a region was covered: the first segment that contains it reaches its end. -/
def extendTo (table : LoadTable) (region : Region) : LoadTable :=
  match table.find? region with
  | none => table
  | some (n, s) =>
    table.set n (s.stored (max s.filesz (region.address + region.size - s.vaddr)))

lemma extendTo_cases (table : LoadTable) (region : Region) :
    table.extendTo region = table ∨ ∃ n s, table.loads[n]? = some s ∧
      s.contains region = true ∧ table.extendTo region
        = table.set n (s.stored (max s.filesz (region.address + region.size - s.vaddr))) := by
  rw [extendTo]
  cases hfind : table.find? region with
  | none => exact Or.inl rfl
  | some found =>
    obtain ⟨n, s⟩ := found
    obtain ⟨hget, hcontains, -⟩ := firstMatch?_eq_some_iff.1 hfind
    exact Or.inr ⟨n, s, hget, hcontains, rfl⟩

@[simp] lemma encoding_extendTo (table : LoadTable) (region : Region) :
    (table.extendTo region).encoding = table.encoding := by
  rcases table.extendTo_cases region with h | ⟨n, s, -, -, h⟩ <;> rw [h]
  rfl

lemma forall₂_trans {first second third : List Segment}
    (h : List.Forall₂ Segment.StretchedTo first second)
    (h' : List.Forall₂ Segment.StretchedTo second third) :
    List.Forall₂ Segment.StretchedTo first third := by
  induction h generalizing third with
  | nil => exact h'
  | cons hhead _ ih =>
    cases h' with
    | cons hhead' htail' => exact .cons (hhead.trans hhead') (ih htail')

lemma forall₂_set {loads : List Segment} {n : Nat} {s t : Segment} (hget : loads[n]? = some s)
    (h : s.StretchedTo t) : List.Forall₂ Segment.StretchedTo loads (loads.set n t) := by
  induction loads generalizing n with
  | nil => cases hget
  | cons first loads ih =>
    cases n with
    | zero =>
      cases hget
      exact .cons h (List.forall₂_refl _)
    | succ n => exact .cons (.refl first) (ih hget)

/-- **One region** stretches the segments of a table. -/
lemma forall₂_stretchedTo (table : LoadTable) (region : Region) :
    List.Forall₂ Segment.StretchedTo table.loads (table.extendTo region).loads := by
  rcases table.extendTo_cases region with h | ⟨n, s, hget, hcontains, h⟩
  · rw [h]
    exact List.forall₂_refl _
  · rw [h]
    exact forall₂_set hget (Segment.stretchedTo_stored hcontains)

lemma Writable.extendTo (h : table.Writable) (region : Region) :
    (table.extendTo region).Writable := by
  rcases table.extendTo_cases region with heq | ⟨n, s, hget, hcontains, heq⟩
  · rw [heq]
    exact h
  · rw [heq]
    exact h.set hget hcontains rfl

/-- **Any regions** in turn stretch the segments of a table. -/
lemma forall₂_foldl (table : LoadTable) (regions : List Region) :
    List.Forall₂ Segment.StretchedTo table.loads (regions.foldl extendTo table).loads := by
  induction regions generalizing table with
  | nil => exact List.forall₂_refl _
  | cons region regions ih => exact forall₂_trans (table.forall₂_stretchedTo region) (ih _)

lemma Writable.foldl (h : table.Writable) (regions : List Region) :
    (regions.foldl LoadTable.extendTo table).Writable ∧
      (regions.foldl LoadTable.extendTo table).encoding = table.encoding := by
  induction regions generalizing table with
  | nil => exact ⟨h, rfl⟩
  | cons region regions ih =>
    obtain ⟨hwritable, hencoding⟩ := ih (h.extendTo region)
    exact ⟨hwritable, hencoding.trans (encoding_extendTo table region)⟩

end LoadTable

/-! ## One call -/

lemma checkOffset_ne_field (n : Int) : checkOffset n ≠ .error .field := by
  intro hfield
  rw [checkOffset] at hfield
  split at hfield
  · cases hfield
  · split at hfield <;> cases hfield

namespace CoreImage

variable {image : CoreImage} {region : Region} {s : Segment}

lemma storeEntry_table (image : CoreImage) (s : Segment) :
    (image.storeEntry s).1.table = image.table := by
  obtain ⟨faults, data, hstore, -⟩ := storeEntry_cases image s
  rw [hstore]

/-- An entry with bytes ends in a fault or at its position, if it is not stored. -/
lemma storeEntry_ne_field (image : CoreImage)
    (hencode : ∃ bytes, s.encode? image.table.encoding = some bytes) :
    (image.storeEntry s).2 ≠ .error .field := by
  obtain ⟨bytes, hbytes⟩ := hencode
  intro hfield
  simp only [storeEntry] at hfield
  split at hfield
  · cases hfield
  · split at hfield
    · rename_i obstacle hcheck
      cases hfield
      exact checkOffset_ne_field _ hcheck
    · rw [hbytes] at hfield
      simp only [storeBytes] at hfield
      split at hfield <;> cases hfield

lemma growFor_spec (image : CoreImage) (s : Segment) (coreSize : Int)
    (notices : List Diagnostic) :
    (image.growFor s coreSize notices).image.table = image.table ∧
      (image.growFor s coreSize notices).outcome ≠ .error .field := by
  simp only [growFor, setSize]
  split
  · cases hcheck : checkOffset (s.offset + s.filesz) with
    | error obstacle =>
      refine ⟨rfl, ?_⟩
      rintro ⟨⟩
      exact checkOffset_ne_field _ hcheck
    | ok length =>
      refine ⟨rfl, ?_⟩
      rintro ⟨⟩
  · refine ⟨rfl, ?_⟩
    rintro ⟨⟩

/-- **One call.**  Whether it fails or not, the table is that of its region afterwards; and if the
table could be written, it does not fail because of a field. -/
theorem cover_spec (image : CoreImage) (region : Region) (coreSize : Int) :
    (image.cover region coreSize).image.table = image.table.extendTo region ∧
      (image.table.Writable → (image.cover region coreSize).outcome ≠ .error .field) := by
  rw [LoadTable.extendTo]
  cases hfind : image.table.find? region with
  | none =>
    have hcover : image.cover region coreSize = ⟨image, [.noSegment region], .ok coreSize⟩ := by
      rw [cover, hfind]
    rw [hcover]
    refine ⟨rfl, fun _ => ?_⟩
    rintro ⟨⟩
  | some found =>
    obtain ⟨n, s⟩ := found
    obtain ⟨hget, hcontains, -⟩ := firstMatch?_eq_some_iff.1 hfind
    simp only [cover, hfind]
    obtain ⟨filesz, hfilesz⟩ : ∃ filesz, region.address + region.size - s.vaddr = filesz := ⟨_, rfl⟩
    rw [hfilesz]
    split
    · rename_i hless
      have hmax : max s.filesz filesz = filesz := Int.max_eq_right (Int.le_of_lt hless)
      have htable := storeEntry_table
        { image with table := image.table.set n (s.stored filesz) } (s.stored filesz)
      have hencode (hwritable : image.table.Writable) :
          ∃ bytes, (s.stored filesz).encode? image.table.encoding = some bytes := by
        have h := hwritable.exists_encode? (List.mem_of_getElem? hget) hcontains
        rwa [hfilesz, hmax] at h
      rw [hmax]
      split
      · rename_i stored obstacle heq
        rw [Segment.stored, heq] at htable
        refine ⟨htable, fun hwritable => ?_⟩
        have hstore := storeEntry_ne_field
          { image with table := image.table.set n (s.stored filesz) } (hencode hwritable)
        rw [Segment.stored, heq] at hstore
        rintro ⟨⟩
        exact hstore rfl
      · rename_i stored heq
        rw [Segment.stored, heq] at htable
        obtain ⟨hgrown, hfield⟩ := growFor_spec stored (s.stored filesz) coreSize
          [.segmentExtended s.index s.filesz filesz]
        exact ⟨hgrown.trans htable, fun _ => hfield⟩
    · rename_i hless
      obtain ⟨hgrown, hfield⟩ := growFor_spec image s coreSize []
      rw [Int.max_eq_left (Int.not_lt.1 hless), Segment.stored_filesz, LoadTable.set_eq_self hget]
      exact ⟨hgrown, fun _ => hfield⟩

/-! ## Any calls -/

/-- Calls for one region each, with the size of the core that each is given.  A call that fails
does not keep the next from being made.  What they return is given in their order. -/
def coverEach (image : CoreImage) :
    List (Region × Int) → CoreImage × List (Except Obstacle Int)
  | [] => (image, [])
  | (region, coreSize) :: calls =>
    let step := image.cover region coreSize
    let rest := step.image.coverEach calls
    (rest.1, step.outcome :: rest.2)

/-- The table after any calls is that of their regions. -/
lemma coverEach_table (image : CoreImage) (calls : List (Region × Int)) :
    (image.coverEach calls).1.table
      = (calls.map Prod.fst).foldl LoadTable.extendTo image.table := by
  induction calls generalizing image with
  | nil => rfl
  | cons call calls ih =>
    obtain ⟨region, coreSize⟩ := call
    rw [List.map_cons, List.foldl_cons, ← (cover_spec image region coreSize).1]
    exact ih _

lemma coverEach_ne_field (hwritable : image.table.Writable) (calls : List (Region × Int)) :
    ∀ outcome ∈ (image.coverEach calls).2, outcome ≠ .error .field := by
  induction calls generalizing image with
  | nil => exact List.forall_mem_nil _
  | cons call calls ih =>
    obtain ⟨region, coreSize⟩ := call
    rw [coverEach, List.forall_mem_cons]
    refine ⟨(cover_spec image region coreSize).2 hwritable, ih ?_⟩
    rw [(cover_spec image region coreSize).1]
    exact hwritable.extendTo region

/-- **Any calls** on a file that was opened.  Whatever regions, sizes and faults they meet, each
segment keeps its fields but for the size of its stored part.  That size never decreases, and it
is never larger than it was in the file or than the memory of the segment.  So the fields of every
entry can hold their values, and no call fails because of one. -/
theorem coverEach_inRange {content : Bytes} {table : LoadTable}
    (hopen : (LoadTable.ofContent content).outcome = .ok table) (faults : CoreFaults)
    (first more : List (Region × Int)) :
    let before := coverEach ⟨table, content, faults⟩ first
    let after := coverEach ⟨table, content, faults⟩ (first ++ more)
    List.Forall₂ Segment.StretchedTo table.loads after.1.table.loads ∧
      List.Forall₂ Segment.StretchedTo before.1.table.loads after.1.table.loads ∧
      after.1.table.encoding = table.encoding ∧
      (∀ s ∈ after.1.table.loads, s.InRange table.encoding.width) ∧
      ∀ outcome ∈ after.2, outcome ≠ .error .field := by
  intro before after
  have hwritable := (LoadTable.takenFrom_of_ofContent hopen).writable
  obtain ⟨hafter, hencoding⟩ := hwritable.foldl ((first ++ more).map Prod.fst)
  have htable : after.1.table = ((first ++ more).map Prod.fst).foldl LoadTable.extendTo table :=
    coverEach_table _ _
  have hbefore : before.1.table = (first.map Prod.fst).foldl LoadTable.extendTo table :=
    coverEach_table _ _
  refine ⟨?_, ?_, htable ▸ hencoding, ?_, coverEach_ne_field hwritable _⟩
  · rw [htable]
    exact LoadTable.forall₂_foldl _ _
  · rw [htable, hbefore, List.map_append, List.foldl_append]
    exact LoadTable.forall₂_foldl _ _
  · intro s hs
    rw [htable] at hs
    rw [← hencoding]
    exact Segment.exists_encode?_iff_inRange.1 (hafter.encode s hs)

/-- A core with a loaded segment whose memory ends behind the last address. -/
def highLoad : Bytes :=
  magicBytes ++ [1, 1, 1, 0, 0]
    ++ writeWords .little [(7, 0), (2, 4), (2, 0), (4, 1), (4, 0), (4, 52), (4, 0), (4, 0),
      (2, 52), (2, 32), (2, 1), (2, 0), (2, 0), (2, 0)]
    ++ writeWords .little ([1, 84, 0xfffffff0, 0, 2, 0x20, 4, 1].map fun value => (4, value))
    ++ [0xaa, 0xbb]

/-- The calls are for a region behind the last address, for one with a negative size, for one that
no segment contains, and for one whose end is written by an operation that fails. -/
theorem coverEach_inRange_highLoad :
    let load : Segment := ⟨0, 52, 1, 84, 0xfffffff0, 0, 2, 0x20, 4, 1⟩
    let image : CoreImage := ⟨⟨⟨.bits32, .little⟩, [load]⟩, highLoad,
      { write := [none, some (.error .noSpace)] }⟩
    let first : List (Region × Int) := [(⟨0x100000000, 8⟩, 86), (⟨0xfffffff8, -8⟩, -1)]
    let more : List (Region × Int) :=
      [(⟨0x5000, 0x10000000000000000⟩, 0x10000000000000000), (⟨0x10000000f, 1⟩, 0)]
    (image.coverEach (first ++ more)).2
        = [.ok 108, .ok 108, .ok 0x10000000000000000, .error (.system .noSpace)] ∧
      (image.coverEach (first ++ more)).1.table.loads = [load.stored 0x20] ∧
      ∀ s ∈ (image.coverEach (first ++ more)).1.table.loads, s.InRange .bits32 := by
  intro load image first more
  have hopen : (LoadTable.ofContent highLoad).outcome = .ok image.table := by decide +kernel
  obtain ⟨-, -, -, hrange, -⟩ := coverEach_inRange hopen image.faults first more
  have himage : (⟨image.table, highLoad, image.faults⟩ : CoreImage) = image := rfl
  rw [himage] at hrange
  refine ⟨?_, ?_, hrange⟩
  · decide +kernel
  · decide +kernel

end CoreImage

end CoreSplice.Elf
