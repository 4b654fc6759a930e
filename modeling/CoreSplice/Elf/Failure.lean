import CoreSplice.Bytes.Word
import CoreSplice.Disk.Offset
import CoreSplice.Disk.SystemError
import CoreSplice.Elf.SectionKind
import CoreSplice.Text.Hexadecimal
import CoreSplice.Text.Quoted

/-!
# Why an object file cannot be read or changed

Two things can be wrong.  The bytes may not be those of an object file (`Malformation`): then the
program headers are left alone, and the run goes on.  Or the file cannot be worked with at all,
because a number is out of the range of its use or the system refuses (`Obstacle`): that ends the
operation.

* `Malformation.message`, `Malformation.isStructural` — the text of a malformation, and whether
  it was met while the structures of the file were read.
* `showByte` — how a byte that is out of place is shown.
-/

namespace CoreSplice.Elf

/-- What ends the work on a file. -/
inductive Obstacle where
  /-- A position or a length that is no offset. -/
  | beyondOffsets (value : Int)
  /-- A field of an entry that cannot hold its value. -/
  | field
  | system (error : SystemError)
  deriving DecidableEq, Repr

/-- A number as a position of a file or as its length. -/
def checkOffset (n : Int) : Except Obstacle Nat :=
  if !isOffset n then .error (.beyondOffsets n)
  else if n < 0 then .error (.system .invalidArgument)
  else .ok n.toNat

/-- A natural number below the limit is a position. -/
theorem checkOffset_of_lt {position : Nat} (h : position < positionLimit) :
    checkOffset position = .ok position := by
  unfold checkOffset
  rw [isOffset_of_lt h]
  simp [Int.not_lt.2 (Int.natCast_nonneg position)]

/-- What is wrong with the bytes of a file that should be an object file. -/
inductive Malformation where
  | magic
  | unknownClass (found : Option UInt8)
  | unknownByteOrder (found : Option UInt8)
  | truncated (shortfall : Shortfall)
  | truncatedRow (expected found : Nat) (shortfall : Shortfall)
  /-- The entries of the section table are smaller than a section header. -/
  | smallSectionEntry (size : Nat)
  /-- The entries of the program header table are smaller than a program header. -/
  | smallSegmentEntry (size : Nat)
  /-- A section header stands behind the end of the file. -/
  | sectionPastEnd (index position length : Nat)
  | noSectionNames
  /-- A section needs names, and the one that it is linked to holds none. -/
  | linkWithoutNames (index : Nat) (kind : SectionKind)
  /-- A section needs symbols, and the one that it is linked to holds none. -/
  | linkWithoutSymbols (index : Nat) (kind : SectionKind)
  /-- What is needed for linking is named in a section that holds something else. -/
  | linkWithoutDynamicNames (kind : SectionKind)
  /-- The symbols of the section with this name have no size. -/
  | emptySymbols (name : String)
  /-- The section with this name ends inside a symbol. -/
  | unevenSymbols (name : String)
  /-- The relocations of a section have another size than those of the file. -/
  | relocationSize (kind : SectionKind) (expected : Nat)
  /-- The packed relocations of a section have another size than addresses of the file. -/
  | packedRelocationSize (expected found : Nat)
  /-- The format of the attributes is of an unknown version. -/
  | attributesVersion (found : UInt8)
  deriving DecidableEq, Repr

/-- Why the program headers of a file cannot be read. -/
inductive OpenError where
  | malformed (what : Malformation)
  | obstructed (obstacle : Obstacle)
  deriving DecidableEq, Repr

/-- A byte in quotes: as its character if that is printable, and in hexadecimal if not. -/
def showByte (b : UInt8) : String :=
  let c := Char.ofNat b.toNat
  if c = '\'' then "b\"'\""
  else if c = '\\' then "b'\\\\'"
  else if c = '\t' then "b'\\t'"
  else if c = '\n' then "b'\\n'"
  else if c = '\r' then "b'\\r'"
  else if 32 ≤ b.toNat ∧ b.toNat < 127 then "b'" ++ c.toString ++ "'"
  else "b'\\x" ++ String.ofList [(b.toNat / 16).digitChar, (b.toNat % 16).digitChar] ++ "'"

namespace Malformation

/-- The byte that was found, or nothing where the file ended before it. -/
private def showFound (found : Option UInt8) : String :=
  match found with
  | some b => showByte b
  | none => "b''"

/-- How many there should be, and how many there are. -/
private def showCounts (expected found : Nat) : String :=
  "expected " ++ Text.Decimal.write expected ++ ", found " ++ Text.Decimal.write found

/-- The text of a malformation. -/
def message : Malformation → String
  | magic => "Magic number does not match"
  | unknownClass found => "Invalid EI_CLASS " ++ showFound found
  | unknownByteOrder found => "Invalid EI_DATA " ++ showFound found
  | truncated shortfall => showCounts shortfall.expected shortfall.found
  | truncatedRow expected found shortfall =>
    "('" ++ showCounts expected found ++ "', FieldError(FieldError('" ++
      showCounts shortfall.expected shortfall.found ++ "')))"
  | smallSectionEntry size => "Too small e_shentsize: " ++ Text.Decimal.write size
  | smallSegmentEntry size => "Too small e_phentsize: " ++ Text.Decimal.write size
  | sectionPastEnd index position length =>
    "Reading section " ++ Text.Decimal.write index ++ " at offset " ++
      Text.Decimal.write position ++ " past EOF " ++ Text.Decimal.write length
  | noSectionNames => "String Table not found"
  | linkWithoutNames index kind =>
    "SHT_SYMTAB section points at section " ++ Text.Decimal.write index ++ " of type " ++
      kind.name ++ ", expected SHT_STRTAB"
  | linkWithoutSymbols index kind =>
    "Section points at section " ++ Text.Decimal.write index ++ " of type " ++ kind.name ++
      ", expected SHT_SYMTAB/SHT_DYNSYM"
  | linkWithoutDynamicNames kind =>
    "Unexpected section type " ++ kind.name ++
      ", expected ('SHT_STRTAB', 'SHT_NOBITS', 'SHT_NULL')"
  | emptySymbols name =>
    "Expected entry size of section " ++ Text.Quoted.write name ++ " to be > 0"
  | unevenSymbols name =>
    "Expected section size to be a multiple of entry size in section " ++ Text.Quoted.write name
  | relocationSize kind expected =>
    "Expected sh_entsize of " ++ kind.name ++ " section to be " ++ Text.Decimal.write expected
  | packedRelocationSize expected found =>
    "Expected RELR entry size to be " ++ Text.Decimal.write expected ++ ", got " ++
      Text.Decimal.write found
  | attributesVersion found =>
    "Unknown attributes version " ++ (Char.ofNat found.toNat).toString ++ ", expecting 'A'."

/-- Whether the malformation was met while a structure of the file was read. -/
def isStructural : Malformation → Bool
  | truncated _ | truncatedRow .. | sectionPastEnd .. | noSectionNames => true
  | _ => false

end Malformation

end CoreSplice.Elf
