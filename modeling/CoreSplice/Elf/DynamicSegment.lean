import CoreSplice.Elf.SectionContent

/-!
# Dynamic segments

A segment that says what a program needs to be linked goes together with the section that starts
at the same place of the file, and with the names that this section links to.  When such a segment
is read, the sections are opened one after the other until that section is met, as the library
that reads object files does it (elftools 0.33).

* `sectionCount` — the number of sections.
* `findDynamicSection` — the search, which gives the section of names that it came to know.
-/

namespace CoreSplice.Elf

/-- The number of sections, which is in section 0 when the header gives none. -/
def sectionCount (header : Header) (content : IndexedBytes) : Reading Nat :=
  if header.sectionTable = 0 then pure 0
  else if header.sectionEntries = 0 then
    SectionHeader.size <$> SectionHeader.read header content 0
  else pure header.sectionEntries

/-- Opens `count` sections from `index` on, until one describes what starts at the offset. -/
def searchDynamicSection (header : Header) (content : IndexedBytes) (offset : Int) (index : Nat) :
    Nat → Option SectionHeader → Reading (Option SectionHeader)
  | 0, known => pure known
  | count + 1, known => do
    let (sec, names) ← openSection header content known index
    if sec.kind.form = .dynamic ∧ sec.offset = offset then
      discard (openSection header content (some names) sec.link)
      return some names
    else searchDynamicSection header content offset (index + 1) count (some names)

/-- Searches the sections for the one that describes the dynamic segment at the offset. -/
def findDynamicSection (header : Header) (content : IndexedBytes) (known : Option SectionHeader)
    (offset : Int) : Reading (Option SectionHeader) := do
  let count ← sectionCount header content
  searchDynamicSection header content offset 0 count known

end CoreSplice.Elf
