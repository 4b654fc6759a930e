import CoreSplice.Diagnostic
import CoreSplice.Disk.Fault
import CoreSplice.Elf.DynamicSegment
import CoreSplice.Elf.Segment
import CoreSplice.FirstMatch

/-!
# The loaded segments of a core

Data that is put into a core lies in the memory of a loaded segment, but the program header may
say that the file does not hold that part of the segment.  The header is then extended so that the
stored part reaches the end of the data, and the file is made long enough to hold all of it.

How a table is read is decided by a library, elftools, that is no part of the program: which bytes
are looked at, in which order, and which files are refused with which text.  `LoadTable.ofContent`,
with the header and the sections that it may look at, follows version 0.33 of it.  Other versions
read the same entries from the same places, but not all of them refuse the same files: the sizes of
table entries (`Malformation.smallSegmentEntry`, `Malformation.smallSectionEntry`), a section header
behind the end of the file and most of what sections must look like are checked by some versions
only.  What is said of the header step does not rest on these checks where it is said of any table
whose entries are those of the file (`adjustRead_frame`, `adjustOpened_closed_form`).

* `LoadTable` — the program headers of the loaded segments, read by `LoadTable.ofContent`.
* `LoadTable.find?` — the segment that a region belongs to: the first that contains it.
* `CoreImage` — the table together with the file that it was read from, and with the faults that
  the file still meets.
* `CoreImage.cover` — one region made part of the stored part of its segment.
* `adjust` — a file adjusted to a list of regions.  A fault ends it like a number that is out of
  range does, and what was stored before stays.
-/

namespace CoreSplice.Elf

/-- The program headers of the loaded segments of a file. -/
structure LoadTable where
  encoding : Encoding
  loads : List Segment
  deriving DecidableEq, Repr

namespace LoadTable

/-! ## Reading the table -/

/-- The number of program headers, which is in section 0 when the header has no room for it, and
the section of names if it had to be looked up for that. -/
def segmentCount (header : Header) (content : IndexedBytes) :
    Reading (Nat × Option SectionHeader) :=
  if header.segmentEntries < numberElsewhere then pure (header.segmentEntries, none)
  else do
    let (first, names) ← openSection header content none 0
    return (first.info, some names)

/-- The program header with the given index.  Its entry must be large enough to hold it, unless the
table stands at the start of the file. -/
def readSegment (header : Header) (content : IndexedBytes) (index : Nat) : Reading Segment := do
  let width := header.encoding.width
  Reading.require (header.segmentTable = 0 ∨ Segment.size width ≤ header.segmentEntrySize)
    (.smallSegmentEntry header.segmentEntrySize)
  let position := header.segmentTable + index * header.segmentEntrySize
  let words ← readRecord header.encoding.order content position (Segment.widths width)
  return Segment.ofWords width index position words

/-- The program header with the given index and, for a dynamic segment, the search for the section
that describes it.  The section of names is given and returned. -/
def openSegment (header : Header) (content : IndexedBytes) (known : Option SectionHeader)
    (index : Nat) : Reading (Segment × Option SectionHeader) := do
  let segment ← readSegment header content index
  if segment.kind = dynamicKind then
    let known ← findDynamicSection header content known segment.offset
    return (segment, known)
  else return (segment, known)

/-- The loaded ones among `count` program headers from `index` on.  What was read before is given:
the number of positions, the section of names, and the loaded segments in reverse order. -/
def readLoads (header : Header) (content : IndexedBytes) (index : Nat) :
    Nat → Nat → Option SectionHeader → List Segment → Reading (List Segment)
  | 0, seeks, _, loads => ⟨seeks, .ok loads.reverse⟩
  | count + 1, seeks, known, loads =>
    let step := openSegment header content known index
    match step.outcome with
    | .error e => ⟨seeks + step.seeks, .error e⟩
    | .ok (segment, known) =>
      readLoads header content (index + 1) count (seeks + step.seeks) known
        (if segment.kind = loadKind then segment :: loads else loads)

/-- The table of a file: its header, the number of its program headers, and the loaded ones among
them. -/
def ofContent (content : Bytes) : Reading LoadTable := do
  let content := content.toArray
  let header ← Header.ofContent content
  let (count, known) ← segmentCount header content
  let loads ← readLoads header content 0 count 0 known []
  return ⟨header.encoding, loads⟩

/-! ## Segments of regions -/

/-- The first segment that contains the region, with its position in the table. -/
def find? (table : LoadTable) (region : Region) : Option (Nat × Segment) :=
  firstMatch? (fun s => s.contains region) table.loads

/-- The table with another segment at a position. -/
def set (table : LoadTable) (position : Nat) (s : Segment) : LoadTable :=
  { table with loads := table.loads.set position s }

end LoadTable

/-! ## Changing the file -/

/-- A file together with the table that was read from it, and the faults that it still meets. -/
structure CoreImage where
  table : LoadTable
  content : Bytes
  faults : CoreFaults := {}
  deriving DecidableEq, Repr

/-- What an operation on a file leads to: the file, what was reported, and the size of the core or
what ended the operation. -/
structure Adjustment where
  image : CoreImage
  notices : List Diagnostic
  outcome : Except Obstacle Int

namespace CoreImage

/-- The file with an entry laid over its bytes, as far as a fault lets it.  Nobody looks whether
all of it was stored. -/
def storeBytes (image : CoreImage) (position : Nat) (bytes : Bytes) :
    CoreImage × Except Obstacle Unit :=
  let (fault, faults) := image.faults.written
  let image := { image with faults }
  let stored (bytes : Bytes) : CoreImage × Except Obstacle Unit :=
    ({ image with content := image.content.overlay position bytes }, .ok ())
  match fault with
  | none => stored bytes
  | some (.short count) => stored (bytes.take count)
  | some .nothing => stored []
  | some (.error error) => (image, .error (.system error))

/-- The file with the entry of a segment written in its place. -/
def storeEntry (image : CoreImage) (s : Segment) : CoreImage × Except Obstacle Unit :=
  let (error?, faults) := image.faults.positioned 1
  let image := { image with faults }
  match error? with
  | some error => (image, .error (.system error))
  | none =>
    match checkOffset s.entryOffset with
    | .error obstacle => (image, .error obstacle)
    | .ok position =>
      match s.encode? image.table.encoding with
      | none => (image, .error .field)
      | some bytes => image.storeBytes position bytes

/-- The content cut or extended to a size that the core must have.  The system is taken to do that
for every size that is a length of files: no fault keeps it from changing the length. -/
def setSize (image : CoreImage) (size : Int) : Except Obstacle CoreImage :=
  (checkOffset size).map fun length => { image with content := image.content.resize length }

/-- The file after it was made long enough for the stored part of a segment. -/
def growFor (image : CoreImage) (s : Segment) (coreSize : Int) (notices : List Diagnostic) :
    Adjustment :=
  let stop := s.offset + s.filesz
  if coreSize < stop then
    let notices := notices ++ [.coreGrown coreSize stop]
    match image.setSize stop with
    | .error obstacle => ⟨image, notices, .error obstacle⟩
    | .ok image => ⟨image, notices, .ok stop⟩
  else ⟨image, notices, .ok coreSize⟩

/-- **One region.**  The stored part of the segment that contains the region reaches the end of
the region afterwards, and the file holds all of it.  The size of the core is given, and its new
size is the outcome. -/
def cover (image : CoreImage) (region : Region) (coreSize : Int) : Adjustment :=
  match image.table.find? region with
  | none => ⟨image, [.noSegment region], .ok coreSize⟩
  | some (position, s) =>
    let filesz := region.address + region.size - s.vaddr
    if s.filesz < filesz then
      let extended := { s with filesz }
      let notices := [.segmentExtended s.index s.filesz filesz]
      let image := { image with table := image.table.set position extended }
      match image.storeEntry extended with
      | (image, .error obstacle) => ⟨image, notices, .error obstacle⟩
      | (image, .ok ()) => image.growFor extended coreSize notices
    else image.growFor s coreSize []

/-- All regions in turn, those without bytes apart.  The first obstacle ends the operation. -/
def coverAll (image : CoreImage) (coreSize : Int) : List Region → Adjustment
  | [] => ⟨image, [], .ok coreSize⟩
  | region :: regions =>
    if region.size = 0 then coverAll image coreSize regions
    else
      let step := image.cover region coreSize
      match step.outcome with
      | .error _ => step
      | .ok coreSize =>
        let rest := coverAll step.image coreSize regions
        { rest with notices := step.notices ++ rest.notices }

end CoreImage

/-- What adjusting a file leads to: its content, the faults that it did not meet, what was
reported, and the size of the core or what ended the operation. -/
structure Update where
  content : Bytes
  faults : CoreFaults
  notices : List Diagnostic
  outcome : Except Obstacle Int

/-- The header step on a file that was opened. -/
def adjustOpened (image : CoreImage) (regions : List Region) (coreSize : Int) : Update :=
  let result := image.coverAll coreSize regions
  let content := result.image.content
  let notices := .loadsRead image.table.loads.length :: result.notices
  match result.outcome with
  | .error obstacle => ⟨content, result.image.faults, notices, .error obstacle⟩
  | .ok coreSize =>
    match result.image.faults.flushed with
    | (some error, faults) => ⟨content, faults, notices, .error (.system error)⟩
    | (none, faults) =>
      ⟨content, faults, notices ++ [.headersUpdated regions.length coreSize], .ok coreSize⟩

/-- The header step on a file that was flushed and whose table was read. -/
def adjustRead (content : Bytes) (reading : Reading LoadTable) (faults : CoreFaults)
    (regions : List Region) (coreSize : Int) : Update :=
  match faults.positioned reading.seeks with
  | (some error, faults) => ⟨content, faults, [], .error (.system error)⟩
  | (none, faults) =>
    match reading.outcome with
    | .error (.malformed why) => ⟨content, faults, [.headersLeft why], .ok coreSize⟩
    | .error (.obstructed obstacle) => ⟨content, faults, [], .error obstacle⟩
    | .ok table => adjustOpened ⟨table, content, faults⟩ regions coreSize

/-- **The header step.**  A file adjusted to the regions that were filled.  The file is flushed,
its table is read, the regions are covered, and the file is flushed again.  A file that is no
object file is left alone. -/
def adjust (content : Bytes) (regions : List Region) (coreSize : Int)
    (faults : CoreFaults := {}) : Update :=
  match faults.flushed with
  | (some error, faults) => ⟨content, faults, [], .error (.system error)⟩
  | (none, faults) => adjustRead content (LoadTable.ofContent content) faults regions coreSize

end CoreSplice.Elf
