import CoreSplice.Bytes.Indexed
import CoreSplice.Elf.Reading

/-!
# The header of an object file

The first bytes of an object file say how wide its addresses are and in which byte order its words
are stored; the header behind them says where the tables of the file stand.  The order in which the
file is put to its positions, and the text of what is wrong, are those of the library that reads
object files (elftools 0.33).

* `Encoding` — address width and byte order, read by `Encoding.ofContent`.
* `readRecord` — the words of a record at a position, the first word that the file ends in being
  the error.
* `Header` — what the header says about the machine and the tables, read by `Header.ofContent`.
-/

namespace CoreSplice.Elf

/-- How wide the addresses of a file are. -/
inductive Width where
  | bits32
  | bits64
  deriving DecidableEq, Repr

namespace Width

/-- The number of bits of an address. -/
def bits : Width → Nat
  | bits32 => 32
  | bits64 => 64

/-- The number of bytes of an address. -/
def addressSize : Width → Nat
  | bits32 => 4
  | bits64 => 8

end Width

/-- How the words of a file are to be read. -/
structure Encoding where
  width : Width
  order : ByteOrder
  deriving DecidableEq, Repr

/-- The bytes that every object file starts with. -/
def magicBytes : Bytes := [0x7f, 0x45, 0x4c, 0x46]

/-- The width that the fifth byte of a file gives. -/
def Width.ofByte? : Option UInt8 → Option Width
  | some 1 => some .bits32
  | some 2 => some .bits64
  | _ => none

/-- The byte order that the sixth byte of a file gives. -/
def orderOfByte? : Option UInt8 → Option ByteOrder
  | some 1 => some .little
  | some 2 => some .big
  | _ => none

/-- The encoding that the first bytes of a file give. -/
def Encoding.ofContent (content : IndexedBytes) : Except Malformation Encoding :=
  if content.slice 0 4 ≠ magicBytes then .error .magic
  else
    match Width.ofByte? content[4]?, orderOfByte? content[5]? with
    | none, _ => .error (.unknownClass content[4]?)
    | some _, none => .error (.unknownByteOrder content[5]?)
    | some width, some order => .ok ⟨width, order⟩

/-- The words of a record at a position of the file. -/
def readRecord (order : ByteOrder) (content : IndexedBytes) (position : Nat) (widths : List Nat) :
    Reading (List Nat) := do
  Reading.seek position
  let record := content.slice position (recordSize widths)
  .ofOutcome ((readWords order widths record).mapError fun shortfall =>
    .malformed (.truncated shortfall))

/-- What the header of a file says about its machine and its tables. -/
structure Header where
  encoding : Encoding
  machine : Nat
  segmentTable : Nat
  sectionTable : Nat
  segmentEntrySize : Nat
  segmentEntries : Nat
  sectionEntrySize : Nat
  sectionEntries : Nat
  sectionNames : Nat
  deriving DecidableEq, Repr

namespace Header

/-- The widths of the fields of the header.  The padding that closes the identification is one
field. -/
def widths (width : Width) : List Nat :=
  let address := width.addressSize
  [1, 1, 1, 1, 1, 1, 1, 1, 1, 7,
   2, 2, 4, address, address, address, 4, 2, 2, 2, 2, 2, 2]

/-- The header with the given fields. -/
def ofWords (encoding : Encoding) (words : List Nat) : Header where
  encoding := encoding
  machine := words.getD 11 0
  segmentTable := words.getD 14 0
  sectionTable := words.getD 15 0
  segmentEntrySize := words.getD 18 0
  segmentEntries := words.getD 19 0
  sectionEntrySize := words.getD 20 0
  sectionEntries := words.getD 21 0
  sectionNames := words.getD 22 0

/-- The header of a file.  The file is put to its end, for its length, and then three times to its
start: for the identification, for the header, and for the identification as it stands. -/
def ofContent (content : IndexedBytes) : Reading Header := do
  Reading.seek content.size
  Reading.seek 0
  let encoding ← .ofOutcome ((Encoding.ofContent content).mapError .malformed)
  let words ← readRecord encoding.order content 0 (widths encoding.width)
  Reading.seek 0
  return ofWords encoding words

end Header

end CoreSplice.Elf
