import CoreSplice.Diagnostic
import CoreSplice.Placement
import CoreSplice.SymbolMap.Entry
import CoreSplice.Text.Utf8

/-!
# Looking up an ident in a symbol map

A symbol map is a list of lines, each of them an entry or of another form.  A look-up goes through
all of them: for each slot of the ident the last entry counts, whatever came before it.  Lines of
other forms, entries of other idents and entries of other kinds have no influence.

* `SymbolMap` — what the lines of a map give, from a text (`SymbolMap.ofText`) or from a file
  (`SymbolMap.ofContent`).
* `SymbolMap.placements` — the placements of an ident.  When it has both, the direct data stands
  behind the indirect data in a binary dump.
* `SymbolMap.latest?` — the entry that counts for a slot.
* `SymbolMap.remarks` — what a look-up reports about the lines it passes over.
-/

namespace CoreSplice

/-- What the lines of a symbol map give: an entry, or nothing for a line of another form. -/
abbrev SymbolMap := List (Option Entry)

/-- The two placements of an ident. -/
structure Placements where
  direct : Placement
  indirect : Placement
  deriving DecidableEq, Repr

namespace Placements

/-- The placements of an ident that no entry was seen of. -/
def none (ident : String) : Placements :=
  ⟨{ ident }, { ident }⟩

/-- The placement with the target and the size that an entry gives. -/
def target (p : Placement) (entry : Entry) : Placement :=
  { p with coreOffset := entry.coreOffset, memAddress := entry.memAddress, size := entry.size }

/-- The placements after one more entry of the ident. -/
def note (found : Placements) (entry : Entry) : Placements :=
  match entry.slot? with
  | some .direct => { found with direct := target found.direct entry }
  | some .indirect => { found with indirect := target found.indirect entry }
  | Option.none => found

/-- The placements with the direct data behind the indirect data, if there are both. -/
def arrange (found : Placements) : Placements :=
  if found.indirect.size ≠ 0 ∧ found.direct.size ≠ 0 then
    { found with direct := { found.direct with
        sourceOffset := found.direct.sourceOffset + found.indirect.size } }
  else found

end Placements

namespace SymbolMap

/-- The map of lines. -/
def ofLines (lines : List (List Char)) : SymbolMap :=
  lines.map Entry.parse?

/-- The map in a text whose lines end with line feeds. -/
def ofText (text : String) : SymbolMap :=
  ofLines (Text.lines text.toList)

/-- The map in a file, whose lines may end in any way. -/
def ofContent (content : Bytes) : SymbolMap :=
  ofLines (Text.lines (Text.unifyLineEnds (Text.Utf8.decode content)))

/-- The placements of an ident after one more line. -/
def scanLine (ident : String) (found : Placements) (line : Option Entry) : Placements :=
  match line with
  | some entry => if entry.ident = ident then found.note entry else found
  | none => found

/-- The placements of an ident. -/
def placements (map : SymbolMap) (ident : String) : Placements :=
  (map.foldl (scanLine ident) (Placements.none ident)).arrange

/-- The last entry of an ident for a slot. -/
def latest? (map : SymbolMap) (ident : String) (slot : Slot) : Option Entry :=
  (map.filterMap id).reverse.find? fun entry =>
    entry.ident = ident ∧ entry.slot? = some slot

/-- What a look-up of an ident reports about a line. -/
def remark? (ident : String) (line : Option Entry) (number : Nat) : Option Diagnostic :=
  match line with
  | none => some (.invalidLine number)
  | some entry =>
    if entry.ident = ident ∧ entry.slot? = none then
      some (.unknownKind entry.kind ident number)
    else none

/-- What a look-up of an ident reports, line by line. -/
def remarks (map : SymbolMap) (ident : String) : List Diagnostic :=
  (map.zipIdx 1).filterMap fun (line, number) => remark? ident line number

end SymbolMap

end CoreSplice
