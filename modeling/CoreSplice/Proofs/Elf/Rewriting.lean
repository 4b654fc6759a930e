import CoreSplice.Proofs.Elf.Extension

/-!
# An entry that is written again

The table in memory and the entries of the file say the same when a file was opened.  When fields
of a segment are changed and its entry is written again, they say the same again: the entry has the
new values, no other byte is changed, and the file has the table in memory when it is opened once
more.  An entry that cannot hold its values is not written at all.

* `LoadTable.exists_ofContent` — an orderly file can be opened.
* `Segment.SameEntry` — other values in the fields of the same entry.
* `CoreImage.storeEntry_eq` — what writing an entry does.
* `CoreImage.rewritten_overlay`, `CoreImage.ofContent_overlay` — the entries of the file
  afterwards, and the table when it is opened again.
* **`storeEntry_reopened`** — the file and its table.
-/

namespace CoreSplice.Elf

variable {content : Bytes} {header : Header} {table : LoadTable}

/-! ## Opening an orderly file -/

namespace LoadTable

lemma exists_readSegment_of_lt (horderly : Orderly content header) {index : Nat}
    (hindex : index < header.segmentEntries) :
    ∃ s, (readSegment header content.toArray index).outcome = .ok s := by
  have hin := horderly.inside index hindex
  have hlimit := (Header.ofContent_eq_ok_iff.1 horderly.read).1
  rw [Header.entryAt] at hin
  have hsize : recordSize (Segment.widths header.encoding.width)
      ≤ (content.slice (header.segmentTable + index * header.segmentEntrySize)
        (Segment.size header.encoding.width)).length := by
    rw [Bytes.length_slice, Segment.size] at *
    omega
  obtain ⟨words, hwords⟩ := exists_readWords header.encoding.order hsize
  have hpositive : 0 < Segment.size header.encoding.width := by
    cases header.encoding.width <;> decide
  exact ⟨_, readSegment_eq_ok_iff.2 ⟨Or.inr horderly.room, by omega, words, hwords, rfl⟩⟩

lemma exists_readLoads (horderly : Orderly content header) {count index : Nat}
    (hrange : index + count ≤ header.segmentEntries) (seeks : Nat)
    (known : Option SectionHeader) (before : List Segment) :
    ∃ loads, (readLoads header content.toArray index count seeks known before).outcome
      = .ok loads := by
  induction count generalizing index seeks known before with
  | zero => exact ⟨_, rfl⟩
  | succ count ih =>
    obtain ⟨s, hread⟩ := exists_readSegment_of_lt horderly (show index < _ by omega)
    have hopen := openSegment_of_not_dynamic hread
      (horderly.noDynamic index (by omega) s hread) known
    rw [readLoads, hopen]
    exact ih (by omega) _ _ _

/-- **An orderly file can be opened.** -/
theorem exists_ofContent (horderly : Orderly content header) :
    ∃ table, (ofContent content).outcome = .ok table := by
  obtain ⟨loads, hloads⟩ := exists_readLoads horderly (Nat.le_of_eq (Nat.zero_add _)) 0 none []
  exact ⟨⟨header.encoding, loads⟩,
    (ofContent_eq_ok_iff horderly.read horderly.few).2 ⟨rfl, hloads⟩⟩

end LoadTable

/-! ## One entry -/

/-- The segment has other values in its fields, but the kind and the place of the other one. -/
structure Segment.SameEntry (s s' : Segment) : Prop where
  index : s'.index = s.index
  entryOffset : s'.entryOffset = s.entryOffset
  kind : s'.kind = s.kind

namespace CoreImage

/-- **Writing an entry** lays its bytes over the file, if it has any. -/
lemma storeEntry_eq {s : Segment} (table : LoadTable) (content : Bytes)
    (hposition : 0 ≤ s.entryOffset ∧ s.entryOffset < positionLimit) :
    storeEntry ⟨table, content, {}⟩ s
      = match s.encode? table.encoding with
        | none => (⟨table, content, {}⟩, .error .field)
        | some bytes => (⟨table, content.overlay s.entryOffset.toNat bytes, {}⟩, .ok ()) := by
  have hcheck := checkOffset_of_nonneg hposition.1
  rw [if_pos hposition.2] at hcheck
  cases hbytes : s.encode? table.encoding <;>
    simp only [storeEntry, CoreFaults.positioned_empty, hcheck, hbytes, storeBytes,
      CoreFaults.written_empty]

/-- The entries of the file after one of them was written again. -/
lemma rewritten_overlay (horderly : Orderly content header)
    (hopen : (LoadTable.ofContent content).outcome = .ok table) {n : Nat} {s s' : Segment}
    (hget : table.loads[n]? = some s) (hsame : s.SameEntry s') {bytes : Bytes}
    (hbytes : s'.encode? header.encoding = some bytes) :
    Rewritten header content (content.overlay s.entryOffset.toNat bytes) table.loads
      (table.set n s').loads := by
  have hencoding := ((LoadTable.ofContent_eq_ok_iff horderly.read horderly.few).1 hopen).1
  have hstands := LoadTable.standsIn_of_ofContent hopen horderly.read horderly.room
  have hsize := Segment.length_of_encode? hbytes
  refine ⟨List.length_set, ?entries, ?others⟩
  case entries =>
    intro m t ht
    by_cases hm : m = n
    · subst hm
      rw [hget] at ht
      cases ht
      have hlt := (List.getElem?_eq_some_iff.1 hget).1
      refine ⟨s', List.getElem?_set_self hlt, hsame.kind, hsame.index, hsame.entryOffset, ?_⟩
      rw [hbytes, ← hsize, Bytes.slice_overlay]
    · refine ⟨t, ?_, rfl, rfl, rfl, ?_⟩
      · rw [LoadTable.set, List.getElem?_set_ne (Ne.symm hm)]
        exact ht
      · have hmem := List.mem_of_getElem? ht
        have hbound := (hstands.bound t hmem).2
        have hapart := apart_of_ne hstands hget ht hm
        rw [hencoding] at hbound hapart
        rw [Bytes.slice_overlay_of_disjoint hbound (by omega), ← hencoding]
        exact hstands.bytes t hmem
  case others =>
    intro index hindex t hread hkind
    obtain ⟨own, -, hload, hread'⟩ := exists_entry horderly hopen (List.mem_of_getElem? hget)
    have hne : index ≠ own := by
      rintro rfl
      rw [hread] at hread'
      cases hread'
      exact hkind hload
    have hplace : s.entryOffset.toNat = header.entryAt own := by
      rw [(LoadTable.of_readSegment hread').1, Int.toNat_natCast, Header.entryAt]
    have hapart := apart_of_index_ne horderly hne
    exact Bytes.slice_overlay_of_disjoint (horderly.inside index hindex) (by omega)

/-- Outside of an entry that is laid over the file nothing is changed. -/
lemma getElem?_overlay_encode? {s : Segment} {encoding : Encoding} {bytes : Bytes} {position : Nat}
    (hbytes : s.encode? encoding = some bytes)
    (hbound : position + Segment.size encoding.width ≤ content.length) {i : Nat}
    (hi : i < position ∨ position + Segment.size encoding.width ≤ i) :
    (content.overlay position bytes)[i]? = content[i]? := by
  have hsize := Segment.length_of_encode? hbytes
  have hlength := length_overlay_encode? hbytes hbound
  rcases Nat.lt_or_ge i content.length with hin | hout
  · exact Bytes.getElem?_overlay_of_outside content hin (by omega)
  · rw [List.getElem?_eq_none (by omega), List.getElem?_eq_none hout]

/-- **The file opened again** after one of its entries was written again. -/
lemma ofContent_overlay (horderly : Orderly content header)
    (hopen : (LoadTable.ofContent content).outcome = .ok table) {n : Nat} {s s' : Segment}
    (hget : table.loads[n]? = some s) (hsame : s.SameEntry s') {bytes : Bytes}
    (hbytes : s'.encode? header.encoding = some bytes) :
    (LoadTable.ofContent (content.overlay s.entryOffset.toNat bytes)).outcome
      = .ok (table.set n s') := by
  obtain ⟨index, hindex, -, hread⟩ := exists_entry horderly hopen (List.mem_of_getElem? hget)
  have hplace := (LoadTable.of_readSegment hread).1
  have hbound := (LoadTable.of_readSegment hread).2.1
  -- The entry stands behind the header, which is read as before.
  have hheader : (content.overlay s.entryOffset.toNat bytes).slice 0
      (Header.size header.encoding.width)
        = content.slice 0 (Header.size header.encoding.width) := by
    have hbehind := horderly.behind
    refine Bytes.slice_eq_of_getElem? ?_
    intro i _ hi
    exact getElem?_overlay_encode? hbytes hbound (Or.inl (by omega))
  have hlimit := (Header.ofContent_eq_ok_iff.1 horderly.read).1
  have hlength := length_overlay_encode? hbytes hbound
  exact LoadTable.ofContent_rewritten horderly hopen
    (rewritten_overlay horderly hopen hget hsame hbytes) rfl
    (Header.ofContent_of_slice horderly.read (by omega) hheader)

end CoreImage

/-- **An entry that is written again.**  An orderly file can be opened.  For each of its loaded
segments, writing the entry as it is changes nothing.  With other values that its fields can hold
it is written, nothing outside of it is changed, and the file opened again has the table that is
in memory.  With values that do not fit nothing is written. -/
theorem storeEntry_reopened (horderly : Orderly content header) :
    ∃ table, (LoadTable.ofContent content).outcome = .ok table ∧
      table.encoding = header.encoding ∧
      ∀ (n : Nat) (s : Segment), table.loads[n]? = some s →
        CoreImage.storeEntry ⟨table, content, {}⟩ s = (⟨table, content, {}⟩, .ok ()) ∧
        (∀ s', s.SameEntry s' → s'.InRange header.encoding.width →
          ∃ new, CoreImage.storeEntry ⟨table.set n s', content, {}⟩ s'
              = (⟨table.set n s', new, {}⟩, .ok ()) ∧
            new.length = content.length ∧
            (∀ i, i < s.entryOffset.toNat ∨
              s.entryOffset.toNat + Segment.size header.encoding.width ≤ i →
                new[i]? = content[i]?) ∧
            (LoadTable.ofContent new).outcome = .ok (table.set n s')) ∧
        ∀ s', s'.entryOffset = s.entryOffset → ¬ s'.InRange header.encoding.width →
          CoreImage.storeEntry ⟨table.set n s', content, {}⟩ s'
            = (⟨table.set n s', content, {}⟩, .error .field) := by
  obtain ⟨table, hopen⟩ := LoadTable.exists_ofContent horderly
  have hencoding := ((LoadTable.ofContent_eq_ok_iff horderly.read horderly.few).1 hopen).1
  have htaken := LoadTable.takenFrom_of_ofContent hopen
  refine ⟨table, hopen, hencoding, ?_⟩
  intro n s hget
  have hmem := List.mem_of_getElem? hget
  have hposition := htaken.position s hmem
  have hbound := htaken.bound s hmem
  rw [hencoding] at hbound
  refine ⟨?unchanged, ?written, ?refused⟩
  case unchanged =>
    rw [CoreImage.storeEntry_eq table content hposition, htaken.bytes s hmem]
    dsimp only
    rw [hencoding, Bytes.overlay_slice _ hbound]
  case written =>
    intro s' hsame hrange
    obtain ⟨bytes, hbytes⟩ := Segment.exists_encode?_iff_inRange.2 hrange
    refine ⟨content.overlay s.entryOffset.toNat bytes, ?_,
      CoreImage.length_overlay_encode? hbytes hbound,
      fun i hi => CoreImage.getElem?_overlay_encode? hbytes hbound hi,
      CoreImage.ofContent_overlay horderly hopen hget hsame hbytes⟩
    rw [CoreImage.storeEntry_eq _ content (hsame.entryOffset ▸ hposition), LoadTable.set,
      hencoding, hbytes, hsame.entryOffset]
  case refused =>
    intro s' hentry hrange
    have hnone : s'.encode? header.encoding = none := by
      rw [Option.eq_none_iff_forall_ne_some]
      intro bytes hbytes
      exact hrange (Segment.exists_encode?_iff_inRange.1 ⟨bytes, hbytes⟩)
    rw [CoreImage.storeEntry_eq _ content (hentry ▸ hposition), LoadTable.set, hencoding, hnone]

/-- The second segment with the largest numbers that its entry can hold, and with one that is
larger. -/
theorem storeEntry_reopened_twoLoads :
    let largest : Segment :=
      ⟨1, 84, 1, 0xffffffff, 0xffffffff, 0xffffffff, 0xffffffff, 0xffffffff, 0xffffffff, 0⟩
    let changed := twoLoadsTable.set 1 largest
    (∃ new, CoreImage.storeEntry ⟨changed, twoLoads, {}⟩ largest = (⟨changed, new, {}⟩, .ok ()) ∧
      new.length = 118 ∧ new.take 84 = twoLoads.take 84 ∧
      (LoadTable.ofContent new).outcome = .ok changed) ∧
      let larger := largest.stored 0x100000000
      CoreImage.storeEntry ⟨twoLoadsTable.set 1 larger, twoLoads, {}⟩ larger
        = (⟨twoLoadsTable.set 1 larger, twoLoads, {}⟩, .error .field) := by
  intro largest changed
  obtain ⟨table, hopen, -, hentries⟩ := storeEntry_reopened orderly_twoLoads
  have hread : (LoadTable.ofContent twoLoads).outcome = .ok twoLoadsTable := by decide +kernel
  obtain rfl : table = twoLoadsTable := Except.ok.inj (hopen.symm.trans hread)
  obtain ⟨-, hwritten, hrefused⟩ :=
    hentries 1 ⟨1, 84, 1, 118, 0x1010, 0, 0, 0x20, 6, 1⟩ rfl
  refine ⟨?_, hrefused _ rfl ?_⟩
  · obtain ⟨new, hstore, hlength, houtside, hreopen⟩ :=
      hwritten largest ⟨rfl, rfl, rfl⟩ (by constructor <;> decide)
    refine ⟨new, hstore, hlength, ?_, hreopen⟩
    refine List.ext_getElem? fun i => ?_
    rw [List.getElem?_take, List.getElem?_take]
    split
    · rename_i hi
      exact houtside i (Or.inl hi)
    · rfl
  · rintro ⟨-, -, -, -, -, ⟨-, hlimit⟩, -, -⟩
    revert hlimit
    decide

end CoreSplice.Elf
