import CoreSplice.Proofs.Elf.Extension

/-!
# Regions in other groups

The header step may be given all regions at once, or some of them first and the others later, when
the file is opened again.  The file is the same in the end, since both leave each segment with the
size that reaches all of its regions, and the file with the length that all of them ask for.  For
the same reason it does not matter in which order the regions come, nor how often.

* `CoreImage.Covered.content_eq` — images in which the same regions are covered have equal files.
* `CoreImage.Covered.reopened` — the second step goes on with what the first made of the image.
* **`adjust_regrouped`** — two steps one after the other, and one step on the same regions.
-/

namespace CoreSplice.Elf

namespace CoreImage

variable {table : LoadTable} {old : Bytes} {regions regions' : List Region}
  {image image' : CoreImage}

/-- Where the size of a segment with regions stands, it stands in both files. -/
lemma Covered.getElem?_field (h : Covered table old regions image)
    (h' : Covered table old regions' image') (hsame : LoadTable.SameRegions regions regions')
    {n : Nat} {s : Segment} (hget : table.loads[n]? = some s) {i : Nat}
    (hfield : HoldsFilesz table.encoding s i) : image.content[i]? = image'.content[i]? := by
  have hentry := h.entries n s hget
  rw [LoadTable.reach_congr hsame, h'.entries n s hget] at hentry
  have hbyte := congrArg (fun bytes : Bytes => bytes[i - s.entryOffset.toNat]?)
    (Option.some.inj hentry)
  have hle := Segment.fileszOffset_le table.encoding.width
  obtain ⟨hfrom, hto⟩ := hfield
  simp only [Bytes.getElem?_slice] at hbyte
  rw [if_pos (by omega), if_pos (by omega), Nat.add_sub_cancel' (by omega)] at hbyte
  exact hbyte.symm

/-- **Images in which the same regions are covered** have equal files. -/
lemma Covered.content_eq (h : Covered table old regions image)
    (h' : Covered table old regions' image') (hsame : LoadTable.SameRegions regions regions') :
    image.content = image'.content := by
  have hlength : image.content.length = image'.content.length := by
    have heq := h.length.trans ((LoadTable.extent_congr hsame _).trans h'.length.symm)
    exact Int.ofNat_inj.1 heq
  apply List.ext_getElem?
  intro i
  rcases Nat.lt_or_ge i old.length with hold | hold
  · by_cases hfield : ∃ (n : Nat) (s : Segment), table.loads[n]? = some s ∧
        table.assigned regions n ≠ [] ∧ HoldsFilesz table.encoding s i
    · obtain ⟨n, s, hget, -, hin⟩ := hfield
      exact h.getElem?_field h' hsame hget hin
    · have hkept := h.kept i hold fun n s hget hassigned hin =>
        hfield ⟨n, s, hget, hassigned, hin⟩
      have hkept' := h'.kept i hold fun n s hget hassigned hin =>
        hfield ⟨n, s, hget, (LoadTable.assigned_ne_nil_congr hsame).2 hassigned, hin⟩
      rw [hkept, hkept']
  · rcases Nat.lt_or_ge i image.content.length with hnew | hnew
    · rw [h.added i hold hnew, h'.added i hold (hlength ▸ hnew)]
    · rw [List.getElem?_eq_none hnew, List.getElem?_eq_none (hlength ▸ hnew)]

/-- **The second step** covers its regions besides those of the first. -/
lemma Covered.reopened (h : Covered table old regions image) {header : Header}
    (horderly : Orderly old header) (hopen : (LoadTable.ofContent old).outcome = .ok table)
    (hlimit : image.content.length < positionLimit) {more : List Region} {size : Int}
    (hsize : (adjust image.content more image.content.length).outcome = .ok size) :
    ∃ image', Covered table old (regions ++ more) image' ∧ size = image'.content.length ∧
      image'.content.length < positionLimit ∧
      (adjust image.content more image.content.length).content = image'.content := by
  have hstands := LoadTable.standsIn_of_ofContent hopen horderly.read horderly.room
  have hreopen := h.ofContent_content horderly hopen hlimit
  obtain ⟨hcontent, houtcome⟩ := adjust_of_ofContent hreopen more image.content.length
  have himage : (⟨image.table, image.content, {}⟩ : CoreImage) = image := by rw [← h.faults]
  rw [himage] at hcontent houtcome
  obtain ⟨hcovered, hsame⟩ := h.coverAll hstands more (houtcome size hsize)
  have hlt := coverAll_lt (Int.ofNat_lt.2 hlimit) (houtcome size hsize)
  exact ⟨_, hcovered, hsame, Int.ofNat_lt.1 (hsame ▸ hlt), hcontent⟩

end CoreImage

/-! ## The header step -/

section

variable {content new : Bytes} {header : Header} {first second : List Region}
  {size size' : Int}

/-- **Regions in other groups.**  When a step on some regions and then a step on others succeed,
the second on the file as the first left it, then one step on all of them succeeds as well, in any
order and with any repetitions, and leaves the same file and the same size.  The first step again
changes nothing. -/
theorem adjust_regrouped (horderly : Orderly content header)
    (hsize : (adjust content first content.length).outcome = .ok size)
    (hnew : (adjust content first content.length).content = new)
    (hsize' : (adjust new second new.length).outcome = .ok size') :
    (∀ regions, LoadTable.SameRegions regions (first ++ second) →
      (adjust content regions content.length).content = (adjust new second new.length).content ∧
        (adjust content regions content.length).outcome = .ok size') ∧
      size = new.length ∧ size' = (adjust new second new.length).content.length ∧
      (adjust new first new.length).content = new ∧
      (adjust new first new.length).outcome = .ok size := by
  cases hopen : (LoadTable.ofContent content).outcome with
  | error error =>
    obtain ⟨why, rfl⟩ := (adjust_of_error hopen first content.length).2 size hsize
    -- A file whose table cannot be read is left alone by every step.
    have hleft (regions : List Region) := adjust_of_malformed hopen regions content.length
    rw [hleft] at hsize hnew
    obtain rfl : content = new := hnew
    rw [hleft] at hsize'
    cases hsize
    cases hsize'
    refine ⟨fun regions _ => ?_, rfl, ?_, ?_⟩
    · rw [hleft, hleft]
      exact ⟨rfl, rfl⟩
    · rw [hleft]
    · rw [hleft]
      exact ⟨rfl, rfl⟩
  | ok table =>
    obtain ⟨image, hcovered, hlength, hlimit, hcontent⟩ :=
      covered_of_adjust horderly hopen hsize
    obtain rfl : image.content = new := hcontent.symm.trans hnew
    obtain ⟨image', hcovered', hlength', hlimit', hcontent'⟩ :=
      hcovered.reopened horderly hopen hlimit hsize'
    refine ⟨?_, hlength, by rw [hcontent', hlength'], adjust_twice horderly hsize hnew⟩
    intro regions hsame
    have hextent : table.extent regions content.length = size' := by
      rw [LoadTable.extent_congr hsame, ← hcovered'.length, hlength']
    have hbelow : content.length < positionLimit :=
      (Header.ofContent_eq_ok_iff.1 horderly.read).1
    have houtcome := (adjust_reached hopen hbelow regions).eq_ok (by omega)
    rw [hextent] at houtcome
    obtain ⟨image'', hcovered'', -, -, hcontent''⟩ := covered_of_adjust horderly hopen houtcome
    rw [hcontent', hcontent'']
    exact ⟨hcovered''.content_eq hcovered' hsame, houtcome⟩

/-- Regions in two groups, and in another order with one of them twice. -/
theorem adjust_regrouped_twoLoads :
    let first : List Region := [⟨0x1018, 8⟩, ⟨0x5000, 0⟩]
    let second : List Region := [⟨0x1000, 1⟩, ⟨0x1020, 16⟩]
    let new := (adjust twoLoads first twoLoads.length).content
    let mixed : List Region := [⟨0x1020, 16⟩, ⟨0x1000, 1⟩, ⟨0x1018, 8⟩, ⟨0x1020, 16⟩]
    (adjust twoLoads first twoLoads.length).outcome = .ok 148 ∧
      (adjust twoLoads mixed twoLoads.length).outcome = .ok 150 ∧
      (adjust twoLoads mixed twoLoads.length).content = (adjust new second new.length).content := by
  intro first second new mixed
  have hsize : (adjust twoLoads first twoLoads.length).outcome = .ok 148 := by decide +kernel
  have hsize' : (adjust new second new.length).outcome = .ok 150 := by decide +kernel
  obtain ⟨hregrouped, -⟩ := adjust_regrouped orderly_twoLoads hsize rfl hsize'
  have hsame : LoadTable.SameRegions mixed (first ++ second) := by
    intro region hregion
    have hempty : region ≠ ⟨0x5000, 0⟩ := fun heq => hregion (heq ▸ rfl)
    simp only [mixed, first, second, List.cons_append, List.nil_append, List.mem_cons,
      List.not_mem_nil, or_false]
    grind
  obtain ⟨hcontent, houtcome⟩ := hregrouped mixed hsame
  exact ⟨hsize, houtcome, hcontent⟩

end

end CoreSplice.Elf
