import CoreSplice.Elf.Section

/-!
# What sections must look like

A section is read with its name and with what its kind asks for: entries of the right size, a
linked section of the right kind, the first words of a table.  Links end after two steps, since a
section of names links to nothing: the checks below are listed from the end of the links on.  They
are the checks of one version of the library that reads object files (elftools 0.33), in the order
in which it makes them; other versions leave some of them out.

* `checkPlain`, `checkNamesAt`, `checkSymbols`, `checkSymbolsAt` — what a link can lead to.
* `checkHash`, `checkFilteredHash`, `checkAttributes` — what stands at the start of the data.
* `checkSection` — any section.
* `openSection` — a section by its index, together with the section of names, which is looked up
  when the first section is opened.
-/

namespace CoreSplice.Elf

/-! ## Linked sections -/

/-- A section of which nothing is read but its name and the start of compressed data. -/
def checkPlain (header : Header) (content : IndexedBytes) (names sec : SectionHeader) :
    Reading Unit := do
  discard (sec.name content names)
  sec.checkData header content

/-- The section of a link to names. -/
def checkNamesAt (header : Header) (content : IndexedBytes) (names : SectionHeader) (index : Nat) :
    Reading Unit := do
  let sec ← SectionHeader.read header content index
  Reading.require (sec.kind.form = .strings) (.linkWithoutNames index sec.kind)
  checkPlain header content names sec

/-- The section of a link to the names of what is needed for linking. -/
def checkDynamicNamesAt (header : Header) (content : IndexedBytes) (names : SectionHeader)
    (index : Nat) : Reading Unit := do
  let sec ← SectionHeader.read header content index
  Reading.require sec.kind.isDynamicNames (.linkWithoutDynamicNames sec.kind)
  checkPlain header content names sec

/-- A section of symbols: its names are linked, and its symbols have a size that divides its
own. -/
def checkSymbols (header : Header) (content : IndexedBytes) (names sec : SectionHeader) :
    Reading Unit := do
  let name ← sec.name content names
  checkNamesAt header content names sec.link
  sec.checkData header content
  Reading.require (0 < sec.entrySize) (.emptySymbols name)
  Reading.require (sec.size % sec.entrySize = 0) (.unevenSymbols name)

/-- The section of a link to symbols. -/
def checkSymbolsAt (header : Header) (content : IndexedBytes) (names : SectionHeader)
    (index : Nat) : Reading Unit := do
  let sec ← SectionHeader.read header content index
  Reading.require sec.kind.isSymbolTable (.linkWithoutSymbols index sec.kind)
  checkSymbols header content names sec

/-! ## The start of the data -/

/-- A row of words of one width that stands where the file was read up to. -/
def checkRow (content : IndexedBytes) (position count width : Nat) : Reading Unit :=
  let rest := content.size - position
  Reading.require (count ≤ rest / width)
    (.truncatedRow count (rest / width) ⟨width, rest % width⟩)

/-- A table of buckets and chains: their numbers, the buckets and the chains.  An empty section
holds no table, so nothing is read of it. -/
def checkHash (header : Header) (content : IndexedBytes) (sec : SectionHeader) : Reading Unit :=
  if sec.size = 0 then pure ()
  else do
    let words ← readRecord header.encoding.order content sec.offset [4, 4]
    let buckets := words.getD 0 0
    checkRow content (sec.offset + 8) buckets 4
    checkRow content (sec.offset + 8 + 4 * buckets) (words.getD 1 0) 4

/-- A table of buckets behind a filter: the numbers of both, the filter and the buckets.  They are
read whatever the size of the section is. -/
def checkFilteredHash (header : Header) (content : IndexedBytes) (sec : SectionHeader) :
    Reading Unit := do
  let words ← readRecord header.encoding.order content sec.offset [4, 4, 4, 4]
  let address := header.encoding.width.addressSize
  let filter := words.getD 2 0
  checkRow content (sec.offset + 16) filter address
  checkRow content (sec.offset + 16 + address * filter) (words.getD 0 0) 4

/-- The version that attributes start with. -/
def knownAttributes : UInt8 := 65

/-- Attributes: their format starts with its version. -/
def checkAttributes (header : Header) (content : IndexedBytes) (sec : SectionHeader) :
    Reading Unit := do
  let words ← readRecord header.encoding.order content sec.offset [1]
  let version := UInt8.ofNat (words.getD 0 0)
  Reading.require (version = knownAttributes) (.attributesVersion version)

/-! ## Any section -/

/-- The number of bytes of a relocation, which is two addresses, or three with an addend. -/
def relocationSize (width : Width) (addend : Bool) : Nat :=
  width.addressSize * if addend then 3 else 2

/-- A section with its name and with what its kind asks for. -/
def checkSection (header : Header) (content : IndexedBytes) (names sec : SectionHeader) :
    Reading Unit := do
  let width := header.encoding.width
  match sec.kind.form with
  | .plain | .strings => checkPlain header content names sec
  | .symbols => checkSymbols header content names sec
  | .aboutSymbols =>
    discard (sec.name content names)
    checkSymbolsAt header content names sec.link
    sec.checkData header content
  | .versions =>
    discard (sec.name content names)
    checkNamesAt header content names sec.link
    sec.checkData header content
  | .symbolHash =>
    discard (sec.name content names)
    checkSymbolsAt header content names sec.link
    sec.checkData header content
    checkHash header content sec
  | .filteredHash =>
    discard (sec.name content names)
    checkSymbolsAt header content names sec.link
    sec.checkData header content
    checkFilteredHash header content sec
  | .relocations addend =>
    checkPlain header content names sec
    let expected := relocationSize width addend
    Reading.require (sec.entrySize = expected) (.relocationSize sec.kind expected)
  | .packedRelocations =>
    checkPlain header content names sec
    let expected := width.addressSize
    Reading.require (sec.entrySize = expected) (.packedRelocationSize expected sec.entrySize)
  | .dynamic =>
    checkPlain header content names sec
    checkDynamicNamesAt header content names sec.link
  | .attributes =>
    checkPlain header content names sec
    checkAttributes header content sec

/-- The section with the given index, and the section of names, which is looked up unless it is
known. -/
def openSection (header : Header) (content : IndexedBytes) (known : Option SectionHeader)
    (index : Nat) : Reading (SectionHeader × SectionHeader) := do
  let sec ← SectionHeader.read header content index
  let names ← match known with
    | some names => pure names
    | none => nameTable header content
  checkSection header content names sec
  return (sec, names)

end CoreSplice.Elf
