import CoreSplice.Disk.SystemError

/-!
# Faults

A file may fail in ways that its content does not show: a device breaks, a disk fills up, a
network file goes away.  Memory may be in use elsewhere.  A plan of faults says which operations
fail, and how.  Operations on the core fail by their count, one entry for each; operations on a
source fail by its name, each time, or by the count of the sources that were used before, and by
that count there is no room for what is to be read.

Two things are taken to work: changing the length of the core, unless the length is no offset at
all, and printing.  A plan has no entries for them, so what is proved for all plans is proved for
all faults but these.

* `Fault` — what goes wrong with one operation.
* `CoreFaults` — the faults that the operations on the core still meet, with what more operations
  meet of them (`positioned`, `written`, `flushed`).
* `SourceFaults` — what the operations on one source meet.
* `FaultPlan` — the faults of a run; the empty plan is the run without any.  What the next source
  meets is `FaultPlan.ofSource`.
-/

namespace CoreSplice

/-- What goes wrong with an operation. -/
inductive Fault where
  | error (error : SystemError)
  /-- A read delivers or a write stores this many bytes at most. -/
  | short (count : Nat)
  /-- A read or write does nothing and gives no count. -/
  | nothing
  deriving DecidableEq, Repr

namespace Fault

/-- The error with which an operation fails that knows no other fault. -/
def error? : Option Fault → Option SystemError
  | some (.error e) => some e
  | _ => none

/-- Whether the fault lets a part of the data through. -/
def isShort : Fault → Bool
  | short _ => true
  | _ => false

end Fault

/-! ## Operations on the core -/

/-- The faults that the next operations on the core meet, for each kind of operation in order.
Changing its length is not among them. -/
structure CoreFaults where
  seek : List (Option Fault) := []
  write : List (Option Fault) := []
  flush : List (Option Fault) := []
  deriving DecidableEq, Repr

namespace CoreFaults

/-- What `count` operations in a row meet that know no fault but an error: the first error, which
ends the row, and the faults that are left then. -/
def row : Nat → List (Option Fault) → Option SystemError × List (Option Fault)
  | 0, faults => (none, faults)
  | _ + 1, [] => (none, [])
  | count + 1, fault :: faults =>
    match Fault.error? fault with
    | some error => (some error, faults)
    | none => row count faults

/-- What putting the core to `count` positions in a row meets. -/
def positioned (faults : CoreFaults) (count : Nat) : Option SystemError × CoreFaults :=
  let (error?, seek) := row count faults.seek
  (error?, { faults with seek })

/-- What one write to the core meets. -/
def written (faults : CoreFaults) : Option Fault × CoreFaults :=
  (faults.write.head?.join, { faults with write := faults.write.tail })

/-- What flushing the core meets. -/
def flushed (faults : CoreFaults) : Option SystemError × CoreFaults :=
  let (error?, flush) := row 1 faults.flush
  (error?, { faults with flush })

/-- A row of operations without faults meets none and leaves none. -/
@[simp] theorem row_nil (count : Nat) : row count [] = (none, []) := by
  cases count <;> rfl

/-- Without faults the core can be put anywhere. -/
@[simp] theorem positioned_empty (count : Nat) :
    ({} : CoreFaults).positioned count = (none, {}) := by
  simp [positioned]

/-- Without faults a write meets none. -/
@[simp] theorem written_empty : ({} : CoreFaults).written = (none, {}) := rfl

/-- Without faults a flush meets none. -/
@[simp] theorem flushed_empty : ({} : CoreFaults).flushed = (none, {}) := rfl

end CoreFaults

/-! ## Operations on a source -/

/-- What the operations on one source meet: it is opened, put to a position and read, each at most
once, and room is made for what is read. -/
structure SourceFaults where
  opening : Option Fault := none
  seek : Option Fault := none
  read : Option Fault := none
  /-- So much of the memory is in use that no room can be made. -/
  lacksRoom : Bool := false
  deriving DecidableEq, Repr

/-! ## A whole run -/

/-- The faults of a run.  Those of sources are given by the name under which a source is opened,
for every use of it, and by the count of the uses, one entry for each. -/
structure FaultPlan where
  core : CoreFaults := {}
  sourceOpen : List (String × Fault) := []
  sourceSeek : List (String × Fault) := []
  sourceRead : List (String × Fault) := []
  nextSources : List SourceFaults := []
  deriving DecidableEq, Repr

namespace FaultPlan

/-- What the next source meets if it is opened under the given name.  What is due by the count goes
before what is due by the name, and by its name no source is read in part or lacks room. -/
def ofSource (plan : FaultPlan) (name : String) : SourceFaults :=
  let next := plan.nextSources.headD {}
  { opening := next.opening <|> plan.sourceOpen.lookup name
    seek := next.seek <|> plan.sourceSeek.lookup name
    read := next.read <|> (plan.sourceRead.lookup name).filter fun fault => !fault.isShort
    lacksRoom := next.lacksRoom }

/-- The faults that are left after one more source was used. -/
def afterSource (plan : FaultPlan) : FaultPlan :=
  { plan with nextSources := plan.nextSources.tail }

/-- Without faults a source meets none. -/
@[simp] theorem ofSource_empty (name : String) : ({} : FaultPlan).ofSource name = {} := rfl

/-- Without faults none are left. -/
@[simp] theorem afterSource_empty : ({} : FaultPlan).afterSource = {} := rfl

end FaultPlan

end CoreSplice
