import CoreSplice.Abort
import CoreSplice.Disk.Basic
import CoreSplice.Disk.Fault
import CoreSplice.Disk.Offset
import CoreSplice.Ledger
import CoreSplice.Override.Registry
import CoreSplice.SymbolMap.Placements

/-!
# The state of an injection

A session holds everything that putting data into a core works on: the files, the core among them,
the symbol map, the overrides and the ledger, the memory there is for data, and what was printed and
reported so far.

* `Session` — that state.
* `HasRoom` — whether a memory has room for data of a size.
* `Session.symbolMap` — the map as it is now.  A map whose file may change is read again for each
  look-up.
* `Session.register`, `Session.takeRegions` — the operations that touch no file.
* `Session.closeCore` — the core closed before its time.
-/

namespace CoreSplice

/-- Where the symbol map is. -/
inductive MapSource where
  /-- It is known and stays as it is. -/
  | lines (map : SymbolMap)
  /-- It is in a file that may change. -/
  | file (node : Node)
  deriving DecidableEq, Repr

/-- What the addresses of a process reach if they have 47 bits. -/
def usualMemory : Nat := 0x800000000000

/-- The memory has room for data of the size, as long as none of it is in use.  What cannot be an
offset is no size of data in any memory. -/
def HasRoom (memory : Nat) (size : Int) : Prop :=
  0 ≤ size ∧ size < positionLimit ∧ size < memory

/-- Room is a matter of three comparisons. -/
instance (memory : Nat) (size : Int) : Decidable (HasRoom memory size) :=
  inferInstanceAs (Decidable (_ ∧ _ ∧ _))

/-- The state of an injection. -/
structure Session where
  disk : Disk
  core : Node
  coreIsOpen : Bool := true
  map : MapSource
  faults : FaultPlan := {}
  /-- The memory that there is for data.  How much of it is in use is a matter of the faults. -/
  memory : Nat := usualMemory
  registry : Registry := []
  ledger : Ledger := []
  printed : List String := []
  notices : List Diagnostic := []

namespace Session

/-- The symbol map as it is now. -/
def symbolMap (s : Session) : SymbolMap :=
  match s.map with
  | .lines map => map
  | .file node => SymbolMap.ofContent (s.disk.content node)

/-- The content of the core as it is now. -/
def coreContent (s : Session) : Bytes :=
  s.disk.content s.core

/-- The session after diagnostics were reported. -/
def report (s : Session) (notices : List Diagnostic) : Session :=
  { s with notices := s.notices ++ notices }

/-- The session with one more override, which is reported. -/
def register (s : Session) (o : Override) : Session :=
  { s with registry := s.registry.add o }.report [.registered o]

/-- All regions that were filled and not handed on yet. -/
def takeRegions (s : Session) : List Region × Session :=
  (s.ledger.takeAll.1, { s with ledger := s.ledger.takeAll.2 })

/-- The session with other faults ahead of the core. -/
def withCoreFaults (s : Session) (core : CoreFaults) : Session :=
  { s with faults := { s.faults with core } }

/-- Closes the core.  A core that is open is flushed before, and closed even if that fails. -/
def closeCore (s : Session) : Session × Except Abort Unit :=
  if s.coreIsOpen then
    let (error?, faults) := s.faults.core.flushed
    ({ s with coreIsOpen := false }.withCoreFaults faults,
      match error? with
      | some error => .error (.obstructed (.system error))
      | none => .ok ())
  else (s, .ok ())

end Session

end CoreSplice
