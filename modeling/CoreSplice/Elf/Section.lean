import CoreSplice.Elf.Header
import CoreSplice.Text.Utf8

/-!
# Section headers

A core has no use for sections, but there are two occasions to read them: section 0 holds the
number of program headers when it is too large for the header, and a dynamic segment is described
by a section.  A section has a name, which stands in a section of names, and its data may be
compressed, with a header of its own before it.  This follows the library that reads object files
(elftools 0.33); that entries must be large enough, and that a header must not stand behind the end
of the file, is checked by some of its versions only.

* `SectionHeader` — the fields that are used, read by `SectionHeader.read`.
* `SectionHeader.name`, `SectionHeader.checkData` — what is read of every section.
* `nameTable` — the section that holds the names.
-/

namespace CoreSplice.Elf

/-- The fields of a section header that are used. -/
structure SectionHeader where
  nameOffset : Nat
  kind : SectionKind
  flags : Nat
  offset : Nat
  size : Nat
  link : Nat
  info : Nat
  entrySize : Nat
  deriving DecidableEq, Repr

namespace SectionHeader

/-! ## The header -/

/-- The widths of the fields of a section header. -/
def widths : Width → List Nat
  | .bits32 => [4, 4, 4, 4, 4, 4, 4, 4, 4, 4]
  | .bits64 => [4, 4, 8, 8, 8, 8, 4, 4, 8, 8]

/-- The number of bytes of a section header. -/
def headerSize (width : Width) : Nat := recordSize (widths width)

/-- The section header with the given fields, in a file for the given machine. -/
def ofWords (machine : Nat) (words : List Nat) : SectionHeader where
  nameOffset := words.getD 0 0
  kind := ⟨machine, words.getD 1 0⟩
  flags := words.getD 2 0
  offset := words.getD 4 0
  size := words.getD 5 0
  link := words.getD 6 0
  info := words.getD 7 0
  entrySize := words.getD 9 0

/-- The header of a section, which must not start behind the end of the file. -/
def read (header : Header) (content : IndexedBytes) (index : Nat) : Reading SectionHeader := do
  let width := header.encoding.width
  Reading.require (header.sectionTable = 0 ∨ headerSize width ≤ header.sectionEntrySize)
    (.smallSectionEntry header.sectionEntrySize)
  let position := header.sectionTable + index * header.sectionEntrySize
  Reading.require (position ≤ content.size) (.sectionPastEnd index position content.size)
  let words ← readRecord header.encoding.order content position (widths width)
  return ofWords header.machine words

/-! ## Name and data -/

/-- The name of a section: the text up to the next zero byte in the section of names.  Where no
such byte follows, the name is empty. -/
def name (sec : SectionHeader) (content : IndexedBytes) (names : SectionHeader) :
    Reading String := do
  let position := names.offset + sec.nameOffset
  Reading.seek position
  return match content.untilZero? position with
    | some bytes => String.ofList (Text.Utf8.decode bytes)
    | none => ""

/-- The widths of the header that stands before compressed data. -/
def compressionWidths : Width → List Nat
  | .bits32 => [4, 4, 4]
  | .bits64 => [4, 4, 8, 8]

/-- Whether the data of the section is compressed. -/
def isCompressed (sec : SectionHeader) : Bool := sec.flags.testBit 11

/-- Reads what stands before the data of a compressed section. -/
def checkData (sec : SectionHeader) (header : Header) (content : IndexedBytes) : Reading Unit :=
  if sec.isCompressed then do
    discard (readRecord header.encoding.order content sec.offset
      (compressionWidths header.encoding.width))
  else pure ()

end SectionHeader

/-! ## The names of the sections -/

/-- The header field value which says that section 0 holds the number. -/
def numberElsewhere : Nat := 0xffff

/-- What the section of names gives if its header gives something else: a header that is not there
in full means that there are no names. -/
def namesOrNone (outcome : Except OpenError SectionHeader) : Except OpenError SectionHeader :=
  outcome.mapError fun
    | .malformed why => .malformed (if why.isStructural then .noSectionNames else why)
    | e => e

/-- The section that holds the names of the sections. -/
def nameTable (header : Header) (content : IndexedBytes) : Reading SectionHeader := do
  let index ←
    if header.sectionNames = numberElsewhere then
      SectionHeader.link <$> SectionHeader.read header content 0
    else pure header.sectionNames
  let found := SectionHeader.read header content index
  let names ← { found with outcome := namesOrNone found.outcome }
  names.checkData header content
  return names

end CoreSplice.Elf
