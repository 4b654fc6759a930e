import CoreSplice.Injection.Session

/-!
# Putting one piece of data into the core

One piece of data passes a fixed row of stages, and nothing is written before all of the data is
at hand: the source is opened, the core is put to the target, the source to the start of the data,
room is made, the data is read, and then it is written and flushed.  The first stage that fails
ends the row.

* `Session.openSource`, `Session.seekCore`, `Session.seekSource`, `Session.makeRoom`,
  `Session.gather`, `Session.store` — the stages.
* `Session.stages` — the row.  A piece that passes all stages is noted in the ledger and printed.
* `Session.splice` — the row, after which the faults that its source could meet are over.
-/

namespace CoreSplice

/-- What ends a row of stages. -/
inductive Stop where
  | failure (failure : Failure)
  | abort (abort : Abort)
  deriving DecidableEq, Repr

namespace Slot

/-- How the slot is called in what is printed. -/
def name : Slot → String
  | direct => "direct"
  | indirect => "indirect"

end Slot

namespace Session

/-! ## The stages -/

/-- The name of the source of a placement that has one. -/
def sourceName (p : Placement) : String :=
  p.source.getD ""

/-- Opens the source of a placement.  A fault is met before anybody looks whether the name can be
spoken. -/
def openSource (s : Session) (p : Placement) : Except Stop Node :=
  match p.source with
  | none => .error (.abort .noSource)
  | some name =>
    match Fault.error? (s.faults.ofSource name).opening with
    | some error => .error (.failure (.sourceNotOpened p.ident name error))
    | none =>
      if Disk.isUnspeakable name then .error (.abort (.unspeakableName name))
      else
        match s.disk.resolveFile name with
        | .error error => .error (.failure (.sourceNotOpened p.ident name error))
        | .ok node => .ok node

/-- The problem with putting the core to a position, if there is one. -/
def coreSeekProblem? (s : Session) (position : Int) : Option SeekProblem :=
  match (s.faults.core.positioned 1).1 with
  | some error => some (.system error)
  | none =>
    if !s.coreIsOpen then some .closed
    else if !isOffset position then some .beyondCoreOffsets
    else (s.core.seekError? position).map .system

/-- The session after the core was put to a position, whether that worked or not. -/
def afterCoreSeek (s : Session) : Session :=
  s.withCoreFaults (s.faults.core.positioned 1).2

/-- Puts the core to the target of a placement. -/
def seekCore (s : Session) (p : Placement) : Except Stop Nat :=
  match s.coreSeekProblem? p.coreOffset with
  | some problem => .error (.failure (.notPositioned p.ident .core p.coreOffset problem))
  | none => .ok p.coreOffset.toNat

/-- The problem with putting a source to a position, if there is one. -/
def sourceSeekProblem? (s : Session) (name : String) (node : Node) (position : Int) :
    Option SeekProblem :=
  match Fault.error? (s.faults.ofSource name).seek with
  | some error => some (.system error)
  | none =>
    if !isOffset position then some .beyondSourceOffsets
    else (node.seekError? position).map .system

/-- Puts the source of a placement to the start of the data. -/
def seekSource (s : Session) (p : Placement) (node : Node) : Except Stop Nat :=
  match s.sourceSeekProblem? (sourceName p) node p.sourceOffset with
  | some problem => .error (.failure (.notPositioned p.ident .source p.sourceOffset problem))
  | none => .ok p.sourceOffset.toNat

/-- There is room for the data of a placement: the memory has it, and it is not in use. -/
def GivesRoom (s : Session) (p : Placement) : Prop :=
  (s.faults.ofSource (sourceName p)).lacksRoom = false ∧ HasRoom s.memory p.size

/-- Whether there is room can be seen from the session. -/
instance (s : Session) (p : Placement) : Decidable (s.GivesRoom p) :=
  inferInstanceAs (Decidable (_ ∧ _))

/-- Makes room for the data of a placement.  A size below 0 is no failure of the memory, and the
failure is reported with the size in decimal, which is not to be had for every size. -/
def makeRoom (s : Session) (p : Placement) : Except Stop Nat :=
  if s.GivesRoom p then .ok p.size.toNat
  else if p.size < 0 ∧ isOffset p.size then .error (.abort (.negativeSize p.size))
  else
    match Text.Decimal.write? p.size with
    | none => .error (.abort .tooManyDigits)
    | some _ => .error (.failure (.noRoom p.ident p.size))

/-- The part of the data that a fault lets through. -/
def passed (fault : Option Fault) (data : Delivery) : Delivery :=
  match fault with
  | some (.short count) => data.take count
  | _ => data

/-- Reads the data of a placement.  What is read in part is not enough. -/
def gather (s : Session) (p : Placement) (node : Node) (position size : Nat) :
    Except Stop Delivery :=
  let name := sourceName p
  let short (problem : TransferProblem) : Except Stop Delivery :=
    .error (.failure (.shortRead p.ident name p.size problem))
  match (s.faults.ofSource name).read with
  | some (.error error) => short (.system error)
  | some .nothing => short (.partly 0)
  | fault =>
    let data := passed fault (s.disk.readAt node position size)
    if data.length = size then .ok data else short (.partly data.length)

/-- The files after a write, and how many bytes the write took, if it gave a count.  Without a fault
it takes all of them at once, whatever their number.  A system whose calls take a certain number of
bytes at most, such as 0x7ffff000, is one with a fault `Fault.short` for each larger write. -/
def writeData (disk : Disk) (core : Node) (fault : Option Fault) (position : Nat)
    (data : Delivery) : Disk × Except SystemError (Option Nat) :=
  match fault with
  | some (.error error) => (disk, .error error)
  | some .nothing => (disk, .ok none)
  | fault =>
    let data := passed fault data
    match core with
    | .device .full => (disk, .error .noSpace)
    | core => (disk.write core position data, .ok (some data.length))

/-- Writes the data to the core and flushes it. -/
def store (s : Session) (p : Placement) (position : Nat) (data : Delivery) :
    Session × Except Stop Unit :=
  let failed (problem : TransferProblem) : Except Stop Unit :=
    .error (.failure (.shortWrite p.ident p.size problem))
  let (write, faults) := s.faults.core.written
  let (disk, count) := writeData s.disk s.core write position data
  let s := { s with disk }.withCoreFaults faults
  match count with
  | .error error => (s, failed (.system error))
  | .ok count =>
    let (flush, faults) := faults.flushed
    let s := s.withCoreFaults faults
    match flush with
    | some error => (s, failed (.system error))
    | none =>
      if count = some data.length then (s, .ok ())
      else (s, failed (.partly (count.getD 0)))

/-! ## The row of stages -/

/-- The stages that read, from the source being open on. -/
def collect (s : Session) (p : Placement) (node : Node) : Except Stop Delivery := do
  let position ← s.seekSource p node
  let size ← s.makeRoom p
  s.gather p node position size

/-- The session after a piece of data is in its place. -/
def credit (s : Session) (p : Placement) (slot : Slot) : Session :=
  let size := Text.Decimal.write p.size
  { s with
    ledger := s.ledger.enter ⟨p.memAddress, p.size⟩
    printed := s.printed ++ ["injected: " ++ p.ident ++ ", " ++ size ++ " bytes, " ++ slot.name] }

/-- What is reported when reading ended: for direct data that was too short, how the user can
supply it. -/
def advise (p : Placement) (slot : Slot) : Stop → List Diagnostic
  | .failure (.shortRead ..) => if slot = .direct then [.advice p.ident p.size] else []
  | _ => []

/-- The stages one after the other, up to the first that fails. -/
def stages (s : Session) (p : Placement) (slot : Slot) : Session × Except Stop Unit :=
  match s.openSource p with
  | .error stop => (s, .error stop)
  | .ok node =>
    match s.seekCore p with
    | .error stop => (s.afterCoreSeek, .error stop)
    | .ok position =>
      match s.afterCoreSeek.collect p node with
      | .error stop => (s.afterCoreSeek.report (advise p slot stop), .error stop)
      | .ok data =>
        match s.afterCoreSeek.store p position data with
        | (s, .error stop) => (s, .error stop)
        | (s, .ok ()) => (s.credit p slot, .ok ())

/-- The session after the use of a source. -/
def afterSource (s : Session) : Session :=
  { s with faults := s.faults.afterSource }

/-- **One piece of data.**  It is put into the core, or the first stage that fails says why
not. -/
def splice (s : Session) (p : Placement) (slot : Slot) : Session × Except Stop Unit :=
  let (s, result) := s.stages p slot
  (s.afterSource, result)

end Session

end CoreSplice
