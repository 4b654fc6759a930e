import CoreSplice.Elf.Header
import CoreSplice.Ledger

/-!
# Program headers

A program header describes a segment: a range of memory of which the first bytes are stored in the
file.  The order of its fields in the file depends on the width of addresses.

* `Segment` — a program header with its place in the file.
* `Segment.contains` — whether a region lies in the memory of a segment.
* `Segment.ofWords`, `Segment.encode?` — a program header from and to its bytes.  An entry whose
  values do not fit their fields has no bytes.
* `Segment.describe?` — a program header in one line.
-/

namespace CoreSplice.Elf

/-- A program header. -/
structure Segment where
  index : Int
  /-- Where the entry stands in the file. -/
  entryOffset : Int
  kind : Int
  offset : Int
  vaddr : Int
  paddr : Int
  filesz : Int
  memsz : Int
  flags : Int
  align : Int
  deriving DecidableEq, Repr

/-- The kind of the segments that are loaded into memory. -/
def loadKind : Nat := 1

/-- The kind of the segments that say what a program needs to be linked. -/
def dynamicKind : Nat := 2

namespace Segment

/-- Whether the region lies in the memory of the segment. -/
def contains (s : Segment) (region : Region) : Bool :=
  s.vaddr ≤ region.address ∧ region.address + region.size ≤ s.vaddr + s.memsz

/-! ## The entry in the file -/

/-- The widths of the fields of a program header. -/
def widths : Width → List Nat
  | .bits32 => [4, 4, 4, 4, 4, 4, 4, 4]
  | .bits64 => [4, 4, 8, 8, 8, 8, 8, 8]

/-- The number of bytes of a program header. -/
def size (width : Width) : Nat := recordSize (widths width)

/-- The program header with the given fields.  In 64-bit files the flags stand behind the kind. -/
def ofWords (width : Width) (index entryOffset : Nat) (words : List Nat) : Segment :=
  let word (i : Nat) : Int := words.getD i 0
  match width with
  | .bits32 => ⟨index, entryOffset, word 0, word 1, word 2, word 3, word 4, word 5, word 6, word 7⟩
  | .bits64 => ⟨index, entryOffset, word 0, word 2, word 3, word 4, word 5, word 6, word 1, word 7⟩

/-- The values of the fields in the order in which they are stored. -/
def values (s : Segment) : Width → List Int
  | .bits32 => [s.kind, s.offset, s.vaddr, s.paddr, s.filesz, s.memsz, s.flags, s.align]
  | .bits64 => [s.kind, s.flags, s.offset, s.vaddr, s.paddr, s.filesz, s.memsz, s.align]

/-- The fields of the entry: each with its width and its value. -/
def fields (s : Segment) (width : Width) : List (Nat × Int) :=
  (widths width).zip (s.values width)

/-- Whether a field can hold its value. -/
def fits (field : Nat × Int) : Bool :=
  0 ≤ field.2 ∧ field.2 < Bytes.wordLimit field.1

/-- The bytes of the entry, if every field can hold its value. -/
def encode? (s : Segment) (encoding : Encoding) : Option Bytes :=
  if (s.fields encoding.width).all fits then
    some (writeWords encoding.order
      ((s.fields encoding.width).map fun field => (field.1, field.2.toNat)))
  else none

/-- An entry is as long as the file says entries of its width are. -/
theorem length_of_encode? {s : Segment} {encoding : Encoding} {bytes : Bytes}
    (h : s.encode? encoding = some bytes) : bytes.length = size encoding.width := by
  unfold encode? at h
  split at h
  · cases h
    cases encoding.width <;> simp [writeWords, fields, widths, values, size, recordSize]
  · cases h

/-! ## In one line -/

/-- The program header in one line, unless its alignment has too many digits. -/
def describe? (s : Segment) : Option String := do
  let hex := Text.Hexadecimal.write
  let wide := Text.Hexadecimal.writePadded 8
  let align ← Text.Decimal.write? s.align
  return s!"Type: 0x{hex s.kind}, Offset: 0x{wide s.offset}, Vaddr: 0x{wide s.vaddr}, " ++
    s!"Paddr: 0x{wide s.paddr}, Filesize: 0x{wide s.filesz}, Memsize: 0x{wide s.memsz}, " ++
    s!"Flags: 0x{wide s.flags}, Align: {align}"

end Segment

end CoreSplice.Elf
