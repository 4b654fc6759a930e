import CoreSplice.Injection.Inject
import CoreSplice.Proofs.Disk.Put
import CoreSplice.Proofs.Outcome

/-!
# What putting one piece of data into the core does

A piece of data goes through a row of stages, and only the last of them, the write, can change a
file.  So a piece either ends before the write and leaves every file alone, or it comes to the
write with all of its data at hand.

* `reachedWrite` — whether a piece that ended with a given result came to the write.
* `Fault.taken` — how many bytes a write takes that meets a given fault.
* `Node.HasPosition` — where a file can be put, with `Session.coreSeekProblem?_eq_none` and
  `Session.sourceSeekProblem?_eq_none`.
* `Session.Gathers` — the source is open, both positions are right and the data was read.
* **`Session.splice_cases`** — the two ways of a piece.  Everything below follows from them.
* `Session.settles` — what a piece that came to the write leads to.
* `Session.splice_content` — what every file holds afterwards.
* `Attempt.regions`, `Attempt.lines` — what is noted of a piece, with `Session.noted_splice`.
-/

namespace CoreSplice

/-! ## What is noted of an attempt -/

namespace Attempt

/-- The memory region that the attempt filled, if it did. -/
def regions (a : Attempt) : List Region :=
  if a.isDone then [⟨a.placement.memAddress, a.placement.size⟩] else []

/-- The line that is printed of the attempt, if it succeeded. -/
def lines (a : Attempt) : List String :=
  if a.isDone then
    ["injected: " ++ a.placement.ident ++ ", " ++ Text.Decimal.write a.placement.size
      ++ " bytes, " ++ a.slot.name]
  else []

lemma isDone_iff {a : Attempt} : a.isDone = true ↔ a.result = .ok () := by
  rw [isDone]
  split
  · rename_i h; simp [h]
  · rename_i h; simp [h]

/-- Attempts give a result unless one of them ended their operation: whether all succeeded. -/
lemma status_eq_ok_iff {attempts : List Attempt} {all : Bool} :
    status attempts = .ok all ↔
      attempts.findSome? abort? = none ∧ attempts.all isDone = all := by
  simp only [status]
  split
  · rename_i h; simp [h]
  · rename_i h; simp [h]

/-- The result is that all succeeded if they did, as what succeeds ends nothing. -/
lemma status_eq_ok_true_iff {attempts : List Attempt} :
    status attempts = .ok true ↔ ∀ a ∈ attempts, a.result = .ok () := by
  simp only [status_eq_ok_iff, List.all_eq_true, isDone_iff, and_iff_right_iff_imp,
    List.findSome?_eq_none_iff]
  intro h a ha
  rw [abort?, h a ha]

end Attempt

/-! ## What a write takes -/

/-- Whether a piece of data that ended like this came to the write. -/
def reachedWrite : Except Stop Unit → Bool
  | .ok () => true
  | .error (.failure (.shortWrite ..)) => true
  | .error _ => false

/-- How many of `size` bytes a write takes that meets a fault. -/
def Fault.taken (fault : Option Fault) (size : Nat) : Nat :=
  match fault with
  | none => size
  | some (.short count) => min count size
  | some .nothing => 0
  | some (.error _) => 0

/-- A read delivers at most what was asked for. -/
lemma Disk.length_readAt_le (disk : Disk) (node : Node) (position count : Nat) :
    (disk.readAt node position count).length ≤ count := by
  simp only [Disk.readAt]
  split
  · exact Nat.le_refl count
  · rw [Delivery.length, Bytes.length_slice]
    exact Nat.min_le_left ..

/-! ## Positions -/

/-- The file can be put to the position.  Only devices have positions before their start. -/
structure Node.HasPosition (node : Node) (position : Int) : Prop where
  offset : isOffset position = true
  start : 0 ≤ position ∨ ∃ device, node = .device device

lemma Node.hasPosition_iff {node : Node} {position : Int} :
    node.HasPosition position ↔
      isOffset position = true ∧ node.seekError? position = none := by
  constructor
  · rintro ⟨hoffset, hstart | ⟨device, rfl⟩⟩
    · refine ⟨hoffset, ?_⟩
      rw [← Int.toNat_of_nonneg hstart]
      exact node.seekError?_natCast _
    · exact ⟨hoffset, rfl⟩
  · rintro ⟨hoffset, hseek⟩
    refine ⟨hoffset, ?_⟩
    cases node with
    | device device => exact Or.inr ⟨device, rfl⟩
    | file place | directory place =>
      simp only [seekError?] at hseek
      split at hseek
      · cases hseek
      · exact Or.inl (by omega)

lemma Node.hasPosition_iff_of_nonneg {node : Node} {position : Int} (h : 0 ≤ position) :
    node.HasPosition position ↔ position < positionLimit := by
  constructor
  · intro hposition
    exact (isOffset_iff.1 hposition.offset).2
  · intro hlimit
    exact ⟨isOffset_iff.2 ⟨by omega, hlimit⟩, Or.inl h⟩

lemma Node.HasPosition.nonneg {place : Place} {position : Int}
    (h : (Node.file place).HasPosition position) : 0 ≤ position := by
  rcases h.start with hstart | ⟨device, hdevice⟩
  · exact hstart
  · cases hdevice

/-- One operation meets the first fault of its row. -/
lemma CoreFaults.row_one (faults : List (Option Fault)) :
    (CoreFaults.row 1 faults).1 = Fault.error? faults.head?.join := by
  cases faults with
  | nil => rfl
  | cons fault faults =>
    rw [CoreFaults.row]
    cases herror : Fault.error? fault with
    | some error => exact herror.symm
    | none => exact herror.symm

namespace Session

lemma coreSeekProblem?_eq_none {s : Session} {position : Int} :
    s.coreSeekProblem? position = none ↔ Fault.error? s.faults.core.seek.head?.join = none ∧
      s.coreIsOpen = true ∧ s.core.HasPosition position := by
  have hfault : (s.faults.core.positioned 1).1 = Fault.error? s.faults.core.seek.head?.join :=
    CoreFaults.row_one _
  rw [Node.hasPosition_iff, coreSeekProblem?, hfault]
  cases Fault.error? s.faults.core.seek.head?.join with
  | some error => simp
  | none => cases s.coreIsOpen <;> cases isOffset position <;> simp

lemma sourceSeekProblem?_eq_none {s : Session} {name : String} {node : Node} {position : Int} :
    s.sourceSeekProblem? name node position = none ↔
      Fault.error? (s.faults.ofSource name).seek = none ∧ node.HasPosition position := by
  rw [Node.hasPosition_iff, sourceSeekProblem?]
  cases Fault.error? (s.faults.ofSource name).seek with
  | some error => simp
  | none => cases isOffset position <;> simp

/-! ## What a piece has at hand -/

/-- The fault that the next write to the core meets. -/
def writeFault (s : Session) : Option Fault :=
  s.faults.core.write.head?.join

/-- The bytes that stand in the source of a placement where its data is. -/
def sourceBytes (s : Session) (p : Placement) : Bytes :=
  match s.disk.resolveFile (sourceName p) with
  | .ok node => (s.disk.readAt node p.sourceOffset.toNat p.size.toNat).toBytes
  | .error _ => []

/-- All stages before the write were passed: the source led to `node`, both files were put to
their positions, and `data` was read. -/
structure Gathers (s : Session) (p : Placement) (node : Node) (data : Delivery) : Prop where
  opened : s.openSource p = .ok node
  positioned : s.coreSeekProblem? p.coreOffset = none
  collected : s.afterCoreSeek.collect p node = .ok data

/-! ## The two ways of a piece -/

lemma reachedWrite_of_openSource {s : Session} {p : Placement} {stop : Stop}
    (h : s.openSource p = .error stop) : reachedWrite (.error stop) = false := by
  simp only [openSource] at h
  split at h
  · cases h; rfl
  · split at h
    · cases h; rfl
    · split at h
      · cases h; rfl
      · split at h
        · cases h; rfl
        · cases h

lemma reachedWrite_of_seekCore {s : Session} {p : Placement} {stop : Stop}
    (h : s.seekCore p = .error stop) : reachedWrite (.error stop) = false := by
  simp only [seekCore] at h
  split at h
  · cases h; rfl
  · cases h

lemma reachedWrite_of_seekSource {s : Session} {p : Placement} {node : Node} {stop : Stop}
    (h : s.seekSource p node = .error stop) : reachedWrite (.error stop) = false := by
  simp only [seekSource] at h
  split at h
  · cases h; rfl
  · cases h

lemma reachedWrite_of_makeRoom {s : Session} {p : Placement} {stop : Stop}
    (h : s.makeRoom p = .error stop) : reachedWrite (.error stop) = false := by
  simp only [makeRoom] at h
  split at h
  · cases h
  · split at h
    · cases h; rfl
    · split at h <;> (cases h; rfl)

lemma reachedWrite_of_gather {s : Session} {p : Placement} {node : Node} {position size : Nat}
    {stop : Stop} (h : s.gather p node position size = .error stop) :
    reachedWrite (.error stop) = false := by
  simp only [gather] at h
  split at h
  · cases h; rfl
  · cases h; rfl
  · split at h
    · cases h
    · cases h; rfl

/-- A piece whose data could not be collected did not come to the write. -/
lemma reachedWrite_of_collect {s : Session} {p : Placement} {node : Node} {stop : Stop}
    (h : s.collect p node = .error stop) : reachedWrite (.error stop) = false := by
  rcases Outcome.bind_eq_error.1 h with h | ⟨position, _, h⟩
  · exact reachedWrite_of_seekSource h
  · rcases Outcome.bind_eq_error.1 h with h | ⟨size, _, h⟩
    · exact reachedWrite_of_makeRoom h
    · exact reachedWrite_of_gather h

lemma resolveFile_of_openSource {s : Session} {p : Placement} {node : Node}
    (h : s.openSource p = .ok node) : s.disk.resolveFile (sourceName p) = .ok node := by
  simp only [openSource] at h
  split at h
  · cases h
  · rename_i name hname
    split at h
    · cases h
    · split at h
      · cases h
      · split at h
        · cases h
        · rename_i hresolve
          cases h
          rw [sourceName, hname]
          exact hresolve

lemma seekCore_eq_ok {s : Session} {p : Placement} {position : Nat} :
    s.seekCore p = .ok position ↔
      s.coreSeekProblem? p.coreOffset = none ∧ p.coreOffset.toNat = position := by
  simp only [seekCore]
  cases s.coreSeekProblem? p.coreOffset with
  | none => simp
  | some problem => simp

/-- What the write leaves, noted if it was done in full. -/
def settle (s : Session) (p : Placement) (slot : Slot) (data : Delivery) :
    Session × Except Stop Unit :=
  match s.afterCoreSeek.store p p.coreOffset.toNat data with
  | (s, .error stop) => (s.afterSource, .error stop)
  | (s, .ok ()) => ((s.credit p slot).afterSource, .ok ())

/-- A piece with all of its data comes to the write. -/
lemma Gathers.splice_eq {s : Session} {p : Placement} {node : Node} {data : Delivery}
    (h : s.Gathers p node data) (slot : Slot) : s.splice p slot = s.settle p slot data := by
  have hseek : s.seekCore p = .ok p.coreOffset.toNat := seekCore_eq_ok.2 ⟨h.positioned, rfl⟩
  simp only [splice, stages, h.opened, hseek, h.collected, settle]
  rcases s.afterCoreSeek.store p p.coreOffset.toNat data with ⟨t, _ | _⟩ <;> rfl

/-- **The two ways of a piece of data.**  It ends before the write, and then no file and no note
is changed; or it comes to the write with all of its data. -/
theorem splice_cases (s : Session) (p : Placement) (slot : Slot) :
    (∃ stop notices faults, reachedWrite (.error stop) = false ∧
      s.splice p slot = ({ s with faults, notices }, .error stop)) ∨
    (∃ node data, s.Gathers p node data ∧ s.splice p slot = s.settle p slot data) := by
  cases hopen : s.openSource p with
  | error stop =>
    have heq : s.splice p slot = (s.afterSource, .error stop) := by
      simp only [splice, stages, hopen]
    exact Or.inl ⟨stop, _, _, reachedWrite_of_openSource hopen, heq⟩
  | ok node =>
    cases hseek : s.seekCore p with
    | error stop =>
      have heq : s.splice p slot = (s.afterCoreSeek.afterSource, .error stop) := by
        simp only [splice, stages, hopen, hseek]
      exact Or.inl ⟨stop, _, _, reachedWrite_of_seekCore hseek, heq⟩
    | ok position =>
      obtain ⟨hpositioned, -⟩ := seekCore_eq_ok.1 hseek
      cases hcollect : s.afterCoreSeek.collect p node with
      | error stop =>
        have heq : s.splice p slot
            = ((s.afterCoreSeek.report (advise p slot stop)).afterSource, .error stop) := by
          simp only [splice, stages, hopen, hseek, hcollect]
        exact Or.inl ⟨stop, _, _, reachedWrite_of_collect hcollect, heq⟩
      | ok data =>
        have hdata : s.Gathers p node data := ⟨hopen, hpositioned, hcollect⟩
        exact Or.inr ⟨node, data, hdata, hdata.splice_eq slot⟩

/-! ## Collecting the data -/

lemma seekSource_eq_ok {s : Session} {p : Placement} {node : Node} {position : Nat} :
    s.seekSource p node = .ok position ↔
      s.sourceSeekProblem? (sourceName p) node p.sourceOffset = none ∧
        p.sourceOffset.toNat = position := by
  simp only [seekSource]
  cases s.sourceSeekProblem? (sourceName p) node p.sourceOffset with
  | none => simp
  | some problem => simp

lemma makeRoom_eq_ok {s : Session} {p : Placement} {size : Nat} :
    s.makeRoom p = .ok size ↔ s.GivesRoom p ∧ p.size.toNat = size := by
  rw [makeRoom]
  split
  · rename_i hroom
    rw [Except.ok.injEq]
    exact (and_iff_right hroom).symm
  · rename_i hroom
    refine iff_of_false (fun h => ?_) fun h => hroom h.1
    split at h
    · cases h
    · split at h <;> cases h

/-- What lets all of the data through changes nothing of it. -/
lemma toBytes_passed_of_length {fault : Option Fault} {data : Delivery} {size : Nat}
    (hle : data.length ≤ size) (h : (passed fault data).length = size) :
    (passed fault data).toBytes = data.toBytes ∧ data.length = size := by
  simp only [passed] at h ⊢
  split at h
  · rename_i count
    rw [← Delivery.length_toBytes, Delivery.toBytes_take, List.length_take,
      Delivery.length_toBytes] at h
    refine ⟨?_, by omega⟩
    rw [Delivery.toBytes_take, List.take_of_length_le]
    rw [Delivery.length_toBytes]
    omega
  · exact ⟨rfl, h⟩

/-- Data that was gathered is what stands in the source, all of it. -/
lemma gather_eq_ok {s : Session} {p : Placement} {node : Node} {position size : Nat}
    {data : Delivery} (h : s.gather p node position size = .ok data) :
    data.toBytes = (s.disk.readAt node position size).toBytes ∧ data.length = size := by
  simp only [gather] at h
  split at h
  · cases h
  · cases h
  · split at h
    · rename_i hlength
      cases h
      have hle := s.disk.length_readAt_le node position size
      exact ⟨(toBytes_passed_of_length hle hlength).1, hlength⟩
    · cases h

/-- A piece that comes to the write has all of its data: the bytes that stand in its source. -/
lemma Gathers.toBytes_eq {s : Session} {p : Placement} {node : Node} {data : Delivery}
    (h : s.Gathers p node data) :
    data.toBytes = s.sourceBytes p ∧ data.length = p.size.toNat ∧ 0 ≤ p.size := by
  obtain ⟨position, hseek, hrest⟩ := Outcome.bind_eq_ok.1 h.collected
  obtain ⟨size, hroom, hgather⟩ := Outcome.bind_eq_ok.1 hrest
  obtain ⟨-, rfl⟩ := seekSource_eq_ok.1 hseek
  obtain ⟨⟨-, hnonneg, -⟩, rfl⟩ := makeRoom_eq_ok.1 hroom
  obtain ⟨hbytes, hlength⟩ := gather_eq_ok hgather
  refine ⟨?_, hlength, hnonneg⟩
  have hresolve : s.disk.resolveFile (sourceName p) = .ok node := resolveFile_of_openSource h.opened
  rw [hbytes, sourceBytes, hresolve]
  rfl

/-! ## The write -/

/-- What the files hold after a write to a regular file that may meet a fault. -/
lemma content_writeData {disk : Disk} {place : Place} (hfile : disk.IsFile place)
    (fault : Option Fault) (position : Nat) (data : Delivery) (node : Node) :
    (writeData disk (.file place) fault position data).1.content node
      = if node = .file place then
          (disk.content (.file place)).overlay position
            (data.toBytes.take (Fault.taken fault data.length))
        else disk.content node := by
  have hnothing : disk.content node
      = if node = .file place then (disk.content (.file place)).overlay position
          (data.toBytes.take 0) else disk.content node := by
    rw [List.take_zero, Bytes.overlay_nil]
    split
    · rename_i heq; rw [heq]
    · rfl
  have hall : data.toBytes.take data.length = data.toBytes :=
    List.take_of_length_le (Nat.le_of_eq data.length_toBytes)
  rcases fault with _ | error | count | _
  · simp only [writeData, passed, Disk.write_eq_put, Disk.content_put hfile, Fault.taken, hall]
  · exact hnothing
  · have hcut : data.toBytes.take (min count data.length) = data.toBytes.take count := by
      rw [← List.take_take, hall]
    simp only [writeData, passed, Disk.write_eq_put, Disk.content_put hfile, Fault.taken,
      Delivery.toBytes_take, hcut]
  · exact hnothing

/-- A write changes the content of the core and nothing else. -/
lemma writeData_cases (disk : Disk) (core : Node) (fault : Option Fault) (position : Nat)
    (data : Delivery) :
    (writeData disk core fault position data).1 = disk ∨
      ∃ content, (writeData disk core fault position data).1 = disk.put core content := by
  simp only [writeData]
  split
  · exact Or.inl rfl
  · exact Or.inl rfl
  · split
    · exact Or.inl rfl
    · exact Or.inr ⟨_, Disk.write_eq_put ..⟩

lemma content_writeData_of_ne (disk : Disk) {core node : Node} (hnode : node ≠ core)
    (fault : Option Fault) (position : Nat) (data : Delivery) :
    (writeData disk core fault position data).1.content node = disk.content node := by
  rcases writeData_cases disk core fault position data with heq | ⟨content, heq⟩
  · rw [heq]
  · rw [heq, Disk.content_put_of_ne disk hnode]

lemma isFile_writeData (disk : Disk) (core : Node) (fault : Option Fault) (position : Nat)
    (data : Delivery) (place : Place) :
    (writeData disk core fault position data).1.IsFile place ↔ disk.IsFile place := by
  rcases writeData_cases disk core fault position data with heq | ⟨content, heq⟩
  · rw [heq]
  · rw [heq, Disk.isFile_put]

/-- The result of a write and flush, given what the write itself gave. -/
inductive Stored (p : Placement) (length : Nat) (count : Except SystemError (Option Nat)) :
    Except Stop Unit → Prop where
  | full (h : count = .ok (some length)) : Stored p length count (.ok ())
  | failed (error : SystemError) :
    Stored p length count (.error (.failure (.shortWrite p.ident p.size (.system error))))
  | short {taken : Option Nat} (h : count = .ok taken) :
    Stored p length count (.error (.failure (.shortWrite p.ident p.size (.partly (taken.getD 0)))))

lemma Stored.reached {p : Placement} {length : Nat} {count : Except SystemError (Option Nat)}
    {result : Except Stop Unit} (h : Stored p length count result) :
    reachedWrite result = true := by
  cases h <;> rfl

/-- The files are what the write makes of them, and the flush adds nothing to that. -/
lemma store_cases (s : Session) (p : Placement) (position : Nat) (data : Delivery) :
    let write := writeData s.disk s.core s.writeFault position data
    ∃ faults result, s.store p position data = ({ s with disk := write.1, faults }, result) ∧
      Stored p data.length write.2 result := by
  intro write
  have hwrite : writeData s.disk s.core s.faults.core.write.head?.join position data = write := rfl
  simp only [store, CoreFaults.written, hwrite]
  clear_value write
  obtain ⟨disk, error | count⟩ := write
  · exact ⟨_, _, rfl, .failed error⟩
  · dsimp only
    split
    · exact ⟨_, _, rfl, .failed _⟩
    · split
      · rename_i hfull
        exact ⟨_, _, rfl, .full (by rw [hfull])⟩
      · exact ⟨_, _, rfl, .short rfl⟩

/-- What a session keeps while pieces of data are put into its core. -/
structure SameSetting (s t : Session) : Prop where
  core : t.core = s.core
  coreIsOpen : t.coreIsOpen = s.coreIsOpen
  map : t.map = s.map
  registry : t.registry = s.registry
  memory : t.memory = s.memory

/-- What a session comes to after a write, given what the write came to. -/
structure Settles (s : Session) (p : Placement) (slot : Slot) (length : Nat)
    (write : Disk × Except SystemError (Option Nat)) (done : Session × Except Stop Unit) :
    Prop where
  stored : Stored p length write.2 done.2
  disk : done.1.disk = write.1
  setting : s.SameSetting done.1
  ledger : done.1.ledger = s.ledger ++ (Attempt.mk p slot done.2).regions
  printed : done.1.printed = s.printed ++ (Attempt.mk p slot done.2).lines

lemma settles (s : Session) (p : Placement) (slot : Slot) (data : Delivery) :
    s.Settles p slot data.length (writeData s.disk s.core s.writeFault p.coreOffset.toNat data)
      (s.settle p slot data) := by
  obtain ⟨faults, result, heq, hstored⟩ :=
    store_cases s.afterCoreSeek p p.coreOffset.toNat data
  rw [settle, heq]
  cases hstored with
  | full hcount => exact ⟨.full hcount, rfl, ⟨rfl, rfl, rfl, rfl, rfl⟩, rfl, rfl⟩
  | failed error =>
    exact ⟨.failed error, rfl, ⟨rfl, rfl, rfl, rfl, rfl⟩, (List.append_nil _).symm,
      (List.append_nil _).symm⟩
  | short hcount =>
    exact ⟨.short hcount, rfl, ⟨rfl, rfl, rfl, rfl, rfl⟩, (List.append_nil _).symm,
      (List.append_nil _).symm⟩

/-! ## What every file holds afterwards -/

/-- How many bytes of its data a piece laid over the core, given the result that it ended with. -/
def bytesTaken (s : Session) (p : Placement) (result : Except Stop Unit) : Nat :=
  if reachedWrite result then Fault.taken s.writeFault p.size.toNat else 0

/-- **A piece of data changes the core by a prefix of its source bytes.**  The prefix stands at the
target, and it is empty unless the piece came to the write.  Other files stay as they are. -/
theorem splice_content {s : Session} {place : Place} (hcore : s.core = .file place)
    (hfile : s.disk.IsFile place) (p : Placement) (slot : Slot) (node : Node) :
    (s.splice p slot).1.disk.content node
      = if node = s.core then
          s.coreContent.overlay p.coreOffset.toNat
            ((s.sourceBytes p).take (s.bytesTaken p (s.splice p slot).2))
        else s.disk.content node := by
  rcases splice_cases s p slot with ⟨stop, notices, faults, hreached, heq⟩ | ⟨src, data, hdata, heq⟩
  · rw [heq, bytesTaken, hreached]
    simp only [Bool.false_eq_true, if_false, List.take_zero, Bytes.overlay_nil]
    split
    · rename_i hnode; rw [hnode]; rfl
    · rfl
  · obtain ⟨hbytes, hlength, -⟩ := hdata.toBytes_eq
    have hsettles := s.settles p slot data
    rw [heq, hsettles.disk, hcore, content_writeData hfile, bytesTaken, hsettles.stored.reached,
      if_pos rfl, ← hbytes, hlength, coreContent, hcore]

lemma content_splice_of_ne (s : Session) (p : Placement) (slot : Slot) {node : Node}
    (hnode : node ≠ s.core) :
    (s.splice p slot).1.disk.content node = s.disk.content node := by
  rcases splice_cases s p slot with ⟨_, _, _, _, heq⟩ | ⟨_, data, _, heq⟩
  · rw [heq]
  · rw [heq, (s.settles p slot data).disk, content_writeData_of_ne s.disk hnode]

/-- A piece of data that came to the write was read in full. -/
lemma length_sourceBytes {s : Session} {p : Placement} {slot : Slot}
    (h : reachedWrite (s.splice p slot).2 = true) :
    (s.sourceBytes p).length = p.size.toNat ∧ 0 ≤ p.size := by
  rcases splice_cases s p slot with ⟨stop, notices, faults, hreached, heq⟩ | ⟨src, data, hdata, heq⟩
  · rw [heq, hreached] at h
    cases h
  · obtain ⟨hbytes, hlength, hnonneg⟩ := hdata.toBytes_eq
    exact ⟨by rw [← hbytes, Delivery.length_toBytes, hlength], hnonneg⟩

lemma isFile_splice (s : Session) (p : Placement) (slot : Slot) (place : Place) :
    (s.splice p slot).1.disk.IsFile place ↔ s.disk.IsFile place := by
  rcases splice_cases s p slot with ⟨_, _, _, _, heq⟩ | ⟨_, data, _, heq⟩
  · rw [heq]
  · rw [heq, (s.settles p slot data).disk, isFile_writeData]

/-! ## What is kept and what is noted -/

lemma sameSetting_splice (s : Session) (p : Placement) (slot : Slot) :
    s.SameSetting (s.splice p slot).1 := by
  rcases splice_cases s p slot with ⟨_, _, _, _, heq⟩ | ⟨_, data, _, heq⟩
  · rw [heq]
    exact ⟨rfl, rfl, rfl, rfl, rfl⟩
  · rw [heq]
    exact (s.settles p slot data).setting

/-- A piece of data that is in its place is entered in the ledger and printed, and no other is. -/
lemma noted_splice (s : Session) (p : Placement) (slot : Slot) :
    (s.splice p slot).1.ledger
        = s.ledger ++ (Attempt.mk p slot (s.splice p slot).2).regions ∧
      (s.splice p slot).1.printed
        = s.printed ++ (Attempt.mk p slot (s.splice p slot).2).lines := by
  rcases splice_cases s p slot with ⟨_, _, _, _, heq⟩ | ⟨_, data, _, heq⟩
  · rw [heq]
    exact ⟨(List.append_nil _).symm, (List.append_nil _).symm⟩
  · rw [heq]
    exact ⟨(s.settles p slot data).ledger, (s.settles p slot data).printed⟩

end Session

end CoreSplice
