import CoreSplice.Text.Hexadecimal

/-!
# Placements

A placement says where a piece of data goes and where it comes from.  It starts as what the symbol
map says about an ident; the source is filled in from the name of a binary dump or from an
override.

* `Placement` — target, size and source of the data.
* `Placement.describe` — a placement in one line.
-/

namespace CoreSplice

/-- Where the data of an ident goes and where it comes from.  A size of 0 means that there is no
data. -/
structure Placement where
  ident : String
  /-- Where the data goes in the core. -/
  coreOffset : Int := 0
  /-- The memory address that the data belongs to. -/
  memAddress : Int := 0
  size : Int := 0
  /-- Where the data starts in its source. -/
  sourceOffset : Int := 0
  source : Option String := none
  deriving DecidableEq, Repr

/-- The placement in one line. -/
def Placement.describe (p : Placement) : String :=
  let hex := Text.Hexadecimal.write
  let source := p.source.getD "None"
  s!"Ident: {p.ident}, Core offset: 0x{hex p.coreOffset}, Mem: 0x{hex p.memAddress}, " ++
    s!"Size: 0x{hex p.size}, Dump offset: 0x{hex p.sourceOffset}, File: {source}"

end CoreSplice
