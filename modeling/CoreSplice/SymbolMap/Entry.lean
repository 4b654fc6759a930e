import CoreSplice.Text.Cut
import CoreSplice.Text.Hexadecimal
import CoreSplice.Text.Lines

/-!
# Entries of a symbol map

A line of a symbol map gives one piece of data of an ident:

    <core-offset> <mem-address> <size> <kind> <ident>

The fields are separated by single spaces.  The numbers are hexadecimal and not negative, the kind
is one character, and the ident is the rest of the line.

* `Entry.parse?` — the entry of a line, or `none` for a line of another form.
* `Slot` — the two pieces of data that an ident may have, and which kinds of entries give them.
-/

namespace CoreSplice

/-- One line of a symbol map. -/
structure Entry where
  coreOffset : Nat
  memAddress : Nat
  size : Nat
  kind : Char
  ident : String
  deriving DecidableEq, Repr

/-- The pieces of data of an ident.  In a binary dump the indirect piece comes first and the
direct one follows it. -/
inductive Slot where
  | direct
  | indirect
  deriving DecidableEq, Repr

namespace Entry

/-- The slot that an entry fills.  Entries of other kinds fill none. -/
def slot? (entry : Entry) : Option Slot :=
  if entry.kind = 'D' ∨ entry.kind = 'N' then some .direct
  else if entry.kind = 'I' then some .indirect
  else none

/-- A hexadecimal number that is not negative. -/
def natural? (field : List Char) : Option Nat :=
  match Text.Hexadecimal.read? field with
  | some (.ofNat n) => some n
  | _ => none

/-- The entry of a line.  Line ends that close the line are no part of it. -/
def parse? (line : List Char) : Option Entry := do
  let (coreOffset, rest) ← Text.cut? ' ' (Text.trimLineEnd line)
  let (memAddress, rest) ← Text.cut? ' ' rest
  let (size, rest) ← Text.cut? ' ' rest
  let (kind, ident) ← Text.cut? ' ' rest
  let coreOffset ← natural? coreOffset
  let memAddress ← natural? memAddress
  let size ← natural? size
  match kind with
  | [kind] => some ⟨coreOffset, memAddress, size, kind, String.ofList ident⟩
  | _ => none

end Entry

end CoreSplice
