import CoreSplice.Proofs.Injection.Splice

/-!
# The first stage that fails

What a stage needs can be said without the stages before it: faults, positions, room in memory and
the bytes of the source, all as they are before the piece of data is begun.  A piece is put into the
core if every stage has what it needs.  If not, the failure comes from the first stage that lacks
something, whatever the stages behind it lack, and only a failure to read direct data is reported
with advice.

* `Stage`, `Stage.row`, `Failure.stage` — the stages, in their order, and the failures of each.
* `Session.Passes` — what a stage needs.
* `Stage.Decides` — a row of stages gives a value if all of them have what they need, and a failure
  of the first that lacks something if not.  Rows are put together by `Stage.Decides.bind`, and
  there is one lemma for each stage.
* `Session.decides_splice`, `Session.notices_splice` — the row of all stages, and what is reported.
* `Session.Fails`, `Session.fails_of_splice` — what a failure says of the placement.
* `Session.Filled` — the core afterwards.
* **`Session.splice_stages`** — one piece of data.
-/

namespace CoreSplice

/-! ## Stages -/

/-- The stages of a piece of data. -/
inductive Stage where
  | opening
  | corePosition
  | sourcePosition
  | room
  | reading
  | writing
  deriving DecidableEq, Repr

/-- The stages in their order. -/
def Stage.row : List Stage :=
  [.opening, .corePosition, .sourcePosition, .room, .reading, .writing]

lemma Stage.mem_row (stage : Stage) : stage ∈ Stage.row := by
  cases stage <;> decide

/-- The stage that a failure comes from. -/
def Failure.stage : Failure → Stage
  | sourceNotOpened .. => .opening
  | notPositioned _ .core .. => .corePosition
  | notPositioned _ .source .. => .sourcePosition
  | noRoom .. => .room
  | shortRead .. => .reading
  | shortWrite .. => .writing

/-- A read or write of the given size is not kept from doing all of its work. -/
inductive Fault.LetsThrough (size : Nat) : Option Fault → Prop where
  | none : LetsThrough size none
  | short {count : Nat} (h : size ≤ count) : LetsThrough size (some (.short count))

@[simp] lemma Fault.letsThrough_none (size : Nat) : Fault.LetsThrough size none :=
  .none

@[simp] lemma Fault.letsThrough_short {size count : Nat} :
    Fault.LetsThrough size (some (.short count)) ↔ size ≤ count := by
  constructor
  · rintro ⟨⟩
    assumption
  · exact .short

@[simp] lemma Fault.not_letsThrough_error (size : Nat) (error : SystemError) :
    ¬ Fault.LetsThrough size (some (.error error)) := by
  rintro ⟨⟩

@[simp] lemma Fault.not_letsThrough_nothing (size : Nat) :
    ¬ Fault.LetsThrough size (some .nothing) := by
  rintro ⟨⟩

namespace Session

/-- What the operations on the source of a placement meet. -/
def sourceFaults (s : Session) (p : Placement) : SourceFaults :=
  s.faults.ofSource (sourceName p)

/-- What a stage needs, said of the session before the first stage. -/
def Passes (s : Session) (p : Placement) : Stage → Prop
  | .opening => Fault.error? (s.sourceFaults p).opening = none ∧
      ∃ node, s.disk.resolveFile (sourceName p) = .ok node
  | .corePosition => Fault.error? s.faults.core.seek.head?.join = none ∧
      s.coreIsOpen = true ∧ s.core.HasPosition p.coreOffset
  | .sourcePosition => Fault.error? (s.sourceFaults p).seek = none ∧
      ∃ node, s.disk.resolveFile (sourceName p) = .ok node ∧ node.HasPosition p.sourceOffset
  | .room => (s.sourceFaults p).lacksRoom = false ∧ HasRoom s.memory p.size
  | .reading => Fault.LetsThrough p.size.toNat (s.sourceFaults p).read ∧
      (s.sourceBytes p).length = p.size.toNat
  | .writing => Fault.LetsThrough p.size.toNat s.writeFault ∧
      Fault.error? s.faults.core.flush.head?.join = none ∧ s.core ≠ .device .full

end Session

namespace Stage

/-- The stage lacks something, and no stage before it in the row does. -/
inductive FirstFailing (passes : Stage → Prop) (row : List Stage) (stage : Stage) : Prop where
  | intro (before behind : List Stage) (hrow : row = before ++ stage :: behind)
      (hbefore : ∀ earlier ∈ before, passes earlier) (hfails : ¬ passes stage)

/-- A row of stages decides a result: it is a value if all of them have what they need, and if not
a failure of the first that lacks something. -/
inductive Decides {α : Type} (passes : Stage → Prop) (p : Placement) (row : List Stage)
    (result : Except Stop α) : Prop where
  | passed (value : α) (heq : result = .ok value) (hall : ∀ stage ∈ row, passes stage)
  | failed (failure : Failure) (heq : result = .error (.failure failure))
      (hfirst : FirstFailing passes row failure.stage) (hident : failure.ident = p.ident)

variable {α β : Type} {passes : Stage → Prop} {p : Placement} {row row' : List Stage}
  {stage : Stage}

lemma FirstFailing.mem (h : FirstFailing passes row stage) : stage ∈ row := by
  obtain ⟨before, behind, rfl, -, -⟩ := h
  exact List.mem_append_right before List.mem_cons_self

/-- A row of which a stage fails does not pass. -/
lemma FirstFailing.not_all (h : FirstFailing passes row stage) :
    ¬ ∀ stage ∈ row, passes stage := by
  intro hall
  have hmem := h.mem
  obtain ⟨-, -, -, -, hfails⟩ := h
  exact hfails (hall stage hmem)

lemma Decides.of_passes {result : Except Stop α} (value : α) (h : passes stage)
    (heq : result = .ok value) : Decides passes p [stage] result :=
  .passed value heq (List.forall_mem_singleton.2 h)

lemma Decides.of_fails {result : Except Stop α} (failure : Failure)
    (h : ¬ passes failure.stage) (heq : result = .error (.failure failure))
    (hident : failure.ident = p.ident) :
    Decides passes p [failure.stage] result :=
  .failed failure heq ⟨[], [], rfl, List.forall_mem_nil _, h⟩ hident

/-- **Two rows in turn.**  The second is gone through if the first was passed. -/
lemma Decides.bind {result : Except Stop α} {next : α → Except Stop β}
    (h : Decides passes p row result)
    (hnext : ∀ value, result = .ok value → Decides passes p row' (next value)) :
    Decides passes p (row ++ row') (result >>= next) := by
  cases h with
  | failed failure heq hfirst hident =>
    obtain ⟨before, behind, rfl, hbefore, hfails⟩ := hfirst
    refine .failed failure (by rw [heq]; rfl) ⟨before, behind ++ row', ?_, hbefore, hfails⟩ hident
    rw [List.append_assoc, List.cons_append]
  | passed value heq hall =>
    have heq' : result >>= next = next value := by rw [heq]; rfl
    rw [heq']
    cases hnext value heq with
    | passed value' hvalue hall' =>
      exact .passed value' hvalue (List.forall_mem_append.2 ⟨hall, hall'⟩)
    | failed failure hfailure hfirst hident =>
      obtain ⟨before, behind, rfl, hbefore, hfails⟩ := hfirst
      refine .failed failure hfailure ⟨row ++ before, behind, ?_, ?_, hfails⟩ hident
      · rw [List.append_assoc]
      · exact List.forall_mem_append.2 ⟨hall, hbefore⟩

/-- Only what is said of the stages of the row matters. -/
lemma Decides.congr {passes' : Stage → Prop} {result : Except Stop α}
    (h : Decides passes p row result) (hsame : ∀ stage ∈ row, passes' stage ↔ passes stage) :
    Decides passes' p row result := by
  cases h with
  | passed value heq hall =>
    exact .passed value heq fun stage hstage => (hsame stage hstage).2 (hall stage hstage)
  | failed failure heq hfirst hident =>
    have hmem := hfirst.mem
    obtain ⟨before, behind, hrow, hbefore, hfails⟩ := hfirst
    refine .failed failure heq ⟨before, behind, hrow, ?_, mt (hsame _ hmem).1 hfails⟩ hident
    intro earlier hearlier
    exact (hsame _ (hrow ▸ List.mem_append_left _ hearlier)).2 (hbefore earlier hearlier)

end Stage

lemma Delivery.length_take (data : Delivery) (count : Nat) :
    (data.take count).length = min count data.length := by
  rw [← Delivery.length_toBytes, Delivery.toBytes_take, List.length_take,
    Delivery.length_toBytes]

namespace Session

variable {s : Session} {p : Placement} {node : Node}

/-! ## One lemma for each stage -/

lemma decides_openSource (s : Session) {name : String} (hsource : p.source = some name)
    (hname : Disk.isUnspeakable name = false) :
    Stage.Decides (s.Passes p) p [.opening] (s.openSource p) := by
  have hsourceName : sourceName p = name := by rw [sourceName, hsource, Option.getD_some]
  have hpasses : s.Passes p .opening ↔ Fault.error? (s.faults.ofSource name).opening = none ∧
      ∃ node, s.disk.resolveFile name = .ok node := by
    rw [Passes, sourceFaults, hsourceName]
  cases herror : Fault.error? (s.faults.ofSource name).opening with
  | some error =>
    refine .of_fails (.sourceNotOpened p.ident name error) ?_ ?_ rfl
    · rw [Failure.stage, hpasses, herror]
      rintro ⟨⟨⟩, -⟩
    · simp only [openSource, hsource, herror]
  | none =>
    cases hresolve : s.disk.resolveFile name with
    | error error =>
      refine .of_fails (.sourceNotOpened p.ident name error) ?_ ?_ rfl
      · rw [Failure.stage, hpasses, hresolve]
        rintro ⟨-, node, h⟩
        cases h
      · simp only [openSource, hsource, herror, hname, Bool.false_eq_true, if_false, hresolve]
    | ok node =>
      refine .of_passes node (hpasses.2 ⟨herror, node, hresolve⟩) ?_
      simp only [openSource, hsource, herror, hname, Bool.false_eq_true, if_false, hresolve]

lemma decides_seekCore (s : Session) (p : Placement) :
    Stage.Decides (s.Passes p) p [.corePosition] (s.seekCore p) := by
  have hpasses : s.Passes p .corePosition ↔ s.coreSeekProblem? p.coreOffset = none :=
    coreSeekProblem?_eq_none.symm
  rw [seekCore]
  cases hproblem : s.coreSeekProblem? p.coreOffset with
  | some problem =>
    refine .of_fails (.notPositioned p.ident .core p.coreOffset problem) ?_ rfl rfl
    rw [Failure.stage, hpasses, hproblem]
    rintro ⟨⟩
  | none => exact .of_passes _ (hpasses.2 hproblem) rfl

lemma decides_seekSource (hresolve : s.disk.resolveFile (sourceName p) = .ok node) :
    Stage.Decides (s.Passes p) p [.sourcePosition] (s.seekSource p node) := by
  have hpasses : s.Passes p .sourcePosition ↔
      s.sourceSeekProblem? (sourceName p) node p.sourceOffset = none := by
    rw [Passes, sourceSeekProblem?_eq_none, hresolve, sourceFaults]
    simp only [Except.ok.injEq, exists_eq_left']
  rw [seekSource]
  cases hproblem : s.sourceSeekProblem? (sourceName p) node p.sourceOffset with
  | some problem =>
    refine .of_fails (.notPositioned p.ident .source p.sourceOffset problem) ?_ rfl rfl
    rw [Failure.stage, hpasses, hproblem]
    rintro ⟨⟩
  | none => exact .of_passes _ (hpasses.2 hproblem) rfl

lemma decides_makeRoom (s : Session) (hsize : 0 ≤ p.size)
    (hdigits : (Nat.toDigits 10 p.size.natAbs).length ≤ Text.Decimal.maxDigits) :
    Stage.Decides (s.Passes p) p [.room] (s.makeRoom p) := by
  by_cases hroom : s.GivesRoom p
  · exact .of_passes p.size.toNat hroom (by rw [makeRoom, if_pos hroom])
  · have hwrite : Text.Decimal.write? p.size ≠ none := by
      rw [ne_eq, Text.Decimal.write?_eq_none_iff]
      exact Nat.not_lt.2 hdigits
    refine .of_fails (.noRoom p.ident p.size) hroom ?_ rfl
    rw [makeRoom, if_neg hroom, if_neg (by omega)]
    split
    · contradiction
    · rfl

lemma decides_gather (hresolve : s.disk.resolveFile (sourceName p) = .ok node) :
    Stage.Decides (s.Passes p) p [.reading]
      (s.gather p node p.sourceOffset.toNat p.size.toNat) := by
  have hle := s.disk.length_readAt_le node p.sourceOffset.toNat p.size.toNat
  have hpasses : s.Passes p .reading ↔
      Fault.LetsThrough p.size.toNat (s.faults.ofSource (sourceName p)).read ∧
        (s.disk.readAt node p.sourceOffset.toNat p.size.toNat).length = p.size.toNat := by
    simp only [Passes, sourceBytes, sourceFaults, hresolve, Delivery.length_toBytes]
  have hfails {problem : TransferProblem} (h : ¬ s.Passes p .reading) :
      Stage.Decides (s.Passes p) p [.reading]
        (.error (.failure (.shortRead p.ident (sourceName p) p.size problem)) :
          Except Stop Delivery) :=
    .of_fails (.shortRead p.ident (sourceName p) p.size problem) h rfl rfl
  rw [gather]
  generalize s.disk.readAt node p.sourceOffset.toNat p.size.toNat = data at hle hpasses
  generalize (s.faults.ofSource (sourceName p)).read = fault at hpasses
  rcases fault with _ | error | count | _
  · simp only [Fault.letsThrough_none, true_and] at hpasses
    dsimp only [passed]
    split
    · rename_i hfull
      exact .of_passes _ (hpasses.2 hfull) rfl
    · rename_i hshort
      exact hfails (mt hpasses.1 hshort)
  · simp only [Fault.not_letsThrough_error, false_and, iff_false] at hpasses
    exact hfails hpasses
  · rw [Fault.letsThrough_short] at hpasses
    dsimp only [passed]
    rw [Delivery.length_take]
    split
    · rename_i hfull
      exact .of_passes _ (hpasses.2 (by omega)) rfl
    · rename_i hshort
      refine hfails fun h => hshort ?_
      obtain ⟨hcount, hlength⟩ := hpasses.1 h
      omega
  · simp only [Fault.not_letsThrough_nothing, false_and, iff_false] at hpasses
    exact hfails hpasses

/-- A write takes all of the data unless a fault keeps it from that or the core has no room. -/
lemma writeData_eq_full_iff (disk : Disk) (core : Node) (fault : Option Fault) (position : Nat)
    (data : Delivery) :
    (writeData disk core fault position data).2 = .ok (some data.length) ↔
      Fault.LetsThrough data.length fault ∧ core ≠ .device .full := by
  have herror {error : SystemError} :
      (.error error : Except SystemError (Option Nat)) ≠ .ok (some data.length) := by
    rintro ⟨⟩
  rcases fault with _ | error | count | _
  · simp only [writeData, passed, Fault.letsThrough_none, true_and]
    split
    · exact iff_of_false herror fun h => h rfl
    · rename_i hroom
      exact iff_of_true rfl fun h => hroom h
  · exact iff_of_false herror fun h => Fault.not_letsThrough_error _ _ h.1
  · simp only [writeData, passed, Fault.letsThrough_short]
    split
    · exact iff_of_false herror fun h => h.2 rfl
    · rename_i hroom
      rw [Delivery.length_take, Except.ok.injEq, Option.some.injEq]
      constructor
      · intro hcount
        exact ⟨by omega, fun h => hroom h⟩
      · rintro ⟨hcount, -⟩
        exact Nat.min_eq_right hcount
  · refine iff_of_false ?_ fun h => Fault.not_letsThrough_nothing _ h.1
    rintro ⟨⟩

/-- The write and the flush are one stage, and a write that was too short is looked at last. -/
lemma decides_store (s : Session) (p : Placement) (position : Nat) {data : Delivery}
    (hlength : data.length = p.size.toNat) :
    Stage.Decides (s.Passes p) p [.writing] (s.store p position data).2 := by
  obtain ⟨write, hwrite⟩ : ∃ write,
      writeData s.disk s.core s.faults.core.write.head?.join position data = write := ⟨_, rfl⟩
  have hfull := writeData_eq_full_iff s.disk s.core s.writeFault position data
  rw [writeFault, hwrite, hlength] at hfull
  have hflush : (s.faults.core.written.2.flushed).1
      = Fault.error? s.faults.core.flush.head?.join := CoreFaults.row_one _
  have hpasses : s.Passes p .writing ↔ write.2 = .ok (some p.size.toNat) ∧
      (s.faults.core.written.2.flushed).1 = none := by
    rw [Passes, hfull, hflush, writeFault]
    tauto
  have hfails {problem : TransferProblem} (h : ¬ s.Passes p .writing) :
      Stage.Decides (s.Passes p) p [.writing]
        (.error (.failure (.shortWrite p.ident p.size problem)) : Except Stop Unit) :=
    .of_fails (.shortWrite p.ident p.size problem) h rfl rfl
  simp only [store, CoreFaults.written, hwrite] at hpasses ⊢
  generalize CoreFaults.flushed _ = flush at hpasses ⊢
  obtain ⟨disk, error | count⟩ := write
  · refine hfails fun h => ?_
    cases (hpasses.1 h).1
  · obtain ⟨_ | error, faults⟩ := flush
    · dsimp only
      split
      · rename_i hcount
        exact .of_passes _ (hpasses.2 ⟨by rw [hcount, hlength], rfl⟩) rfl
      · rename_i hcount
        refine hfails fun h => hcount ?_
        rw [Except.ok.inj (hpasses.1 h).1, hlength]
    · refine hfails fun h => ?_
      cases (hpasses.1 h).2

/-! ## What is reported -/

lemma advise_failure (p : Placement) (slot : Slot) (failure : Failure) :
    advise p slot (.failure failure)
      = if failure.stage = .reading ∧ slot = .direct then [.advice p.ident p.size] else [] := by
  cases failure with
  | notPositioned _ file => cases file <;> rfl
  | shortRead => simp [advise, Failure.stage]
  | sourceNotOpened | noRoom | shortWrite => rfl

/-- What is reported of a piece that ended with the given result. -/
def advised (p : Placement) (slot : Slot) : Except Stop Unit → List Diagnostic
  | .ok () => []
  | .error stop => advise p slot stop

/-- Stages that do not read give no advice. -/
lemma advise_eq_nil {α : Type} {row : List Stage} {passes : Stage → Prop} {result : Except Stop α}
    (h : Stage.Decides passes p row result) (hrow : Stage.reading ∉ row) {stop : Stop}
    (hstop : result = .error stop) (slot : Slot) : advise p slot stop = [] := by
  cases h with
  | passed value heq _ =>
    rw [heq] at hstop
    cases hstop
  | failed failure heq hfirst _ =>
    rw [heq] at hstop
    cases hstop
    rw [advise_failure, if_neg]
    rintro ⟨hstage, -⟩
    exact hrow (hstage ▸ hfirst.mem)

lemma notices_store (s : Session) (p : Placement) (position : Nat) (data : Delivery) :
    (s.store p position data).1.notices = s.notices := by
  obtain ⟨faults, result, heq, -⟩ := store_cases s p position data
  rw [heq]

/-! ## The row of stages -/

/-- Only the position of the core depends on the faults that the core was put to it with. -/
lemma decides_of_afterCoreSeek {α : Type} {row : List Stage} {result : Except Stop α}
    (hrow : Stage.corePosition ∉ row)
    (h : Stage.Decides (s.afterCoreSeek.Passes p) p row result) :
    Stage.Decides (s.Passes p) p row result := by
  refine h.congr fun stage hstage => ?_
  cases stage with
  | corePosition => contradiction
  | opening | sourcePosition | room | reading | writing => exact Iff.rfl

/-- The stages that read. -/
lemma decides_collect (hresolve : s.disk.resolveFile (sourceName p) = .ok node)
    (hsize : 0 ≤ p.size)
    (hdigits : (Nat.toDigits 10 p.size.natAbs).length ≤ Text.Decimal.maxDigits) :
    Stage.Decides (s.Passes p) p [.sourcePosition, .room, .reading] (s.collect p node) := by
  refine (decides_seekSource hresolve).bind fun position hposition => ?_
  refine (s.decides_makeRoom hsize hdigits).bind fun size hmake => ?_
  rw [← (seekSource_eq_ok.1 hposition).2, ← (makeRoom_eq_ok.1 hmake).2]
  exact decides_gather hresolve

/-- The result of a piece is that of its stages, each of which ends the row if it fails. -/
lemma result_splice (s : Session) (p : Placement) (slot : Slot) :
    (s.splice p slot).2 = (do
      let node ← s.openSource p
      let position ← s.seekCore p
      let data ← s.afterCoreSeek.collect p node
      (s.afterCoreSeek.store p position data).2) := by
  simp only [splice, stages]
  cases s.openSource p with
  | error stop => rfl
  | ok node =>
    cases s.seekCore p with
    | error stop => rfl
    | ok position =>
      cases hcollect : s.afterCoreSeek.collect p node with
      | error stop => simp only [hcollect, bind, Except.bind]
      | ok data =>
        simp only [hcollect, bind, Except.bind]
        rcases s.afterCoreSeek.store p position data with ⟨t, _ | _⟩ <;> rfl

/-- **The row of stages** decides the result of a piece. -/
theorem decides_splice (s : Session) {name : String} (hsource : p.source = some name)
    (hname : Disk.isUnspeakable name = false) (hsize : 0 ≤ p.size)
    (hdigits : (Nat.toDigits 10 p.size.natAbs).length ≤ Text.Decimal.maxDigits) (slot : Slot) :
    Stage.Decides (s.Passes p) p Stage.row (s.splice p slot).2 := by
  rw [result_splice]
  refine (s.decides_openSource hsource hname).bind fun node hopen => ?_
  refine (s.decides_seekCore p).bind fun position hseek => ?_
  have hcollect := decides_collect (s := s.afterCoreSeek) (resolveFile_of_openSource hopen) hsize
    hdigits
  refine (decides_of_afterCoreSeek (by decide) hcollect).bind fun data hdata => ?_
  have hgathers : s.Gathers p node data := ⟨hopen, (seekCore_eq_ok.1 hseek).1, hdata⟩
  exact decides_of_afterCoreSeek (by decide)
    (s.afterCoreSeek.decides_store p position hgathers.toBytes_eq.2.1)

/-- Nothing is reported of a piece but the advice for direct data that could not be read. -/
theorem notices_splice (s : Session) {name : String} (hsource : p.source = some name)
    (hname : Disk.isUnspeakable name = false) (slot : Slot) :
    (s.splice p slot).1.notices = s.notices ++ advised p slot (s.splice p slot).2 := by
  cases hopen : s.openSource p with
  | error stop =>
    have hquiet := advise_eq_nil (s.decides_openSource hsource hname) (by decide) hopen slot
    simp only [splice, stages, hopen, advised, hquiet, List.append_nil]
    rfl
  | ok node =>
    cases hseek : s.seekCore p with
    | error stop =>
      have hquiet := advise_eq_nil (s.decides_seekCore p) (by decide) hseek slot
      simp only [splice, stages, hopen, hseek, advised, hquiet, List.append_nil]
      rfl
    | ok position =>
      cases hcollect : s.afterCoreSeek.collect p node with
      | error stop =>
        simp only [splice, stages, hopen, hseek, hcollect]
        rfl
      | ok data =>
        have hgathers : s.Gathers p node data := ⟨hopen, (seekCore_eq_ok.1 hseek).1, hcollect⟩
        have hdecides := s.afterCoreSeek.decides_store p position hgathers.toBytes_eq.2.1
        have hnotices := s.afterCoreSeek.notices_store p position data
        simp only [splice, stages, hopen, hseek, hcollect]
        generalize s.afterCoreSeek.store p position data = stored at hdecides hnotices
        obtain ⟨t, stop | _⟩ := stored
        · have hquiet := advise_eq_nil hdecides (by decide) rfl slot
          simp only [advised, hquiet, List.append_nil]
          exact hnotices
        · rw [advised, List.append_nil]
          exact hnotices

/-! ## Failures -/

/-- What a failure of a piece says of its placement.  One to read comes after the core was put to
its position and room was made. -/
inductive Fails (s : Session) (p : Placement) : Failure → Prop where
  | sourceNotOpened (name : String) (error : SystemError) :
      Fails s p (.sourceNotOpened p.ident name error)
  | coreNotPositioned (problem : SeekProblem) :
      Fails s p (.notPositioned p.ident .core p.coreOffset problem)
  | sourceNotPositioned (problem : SeekProblem) :
      Fails s p (.notPositioned p.ident .source p.sourceOffset problem)
  | noRoom : Fails s p (.noRoom p.ident p.size)
  | shortRead {node : Node} (problem : TransferProblem) (hopen : s.openSource p = .ok node)
      (hposition : s.coreSeekProblem? p.coreOffset = none) (hroom : HasRoom s.memory p.size) :
      Fails s p (.shortRead p.ident (sourceName p) p.size problem)
  | shortWrite (problem : TransferProblem) : Fails s p (.shortWrite p.ident p.size problem)

lemma fails_of_openSource {failure : Failure} (h : s.openSource p = .error (.failure failure)) :
    s.Fails p failure := by
  simp only [openSource] at h
  split at h
  · cases h
  · split at h
    · cases h
      exact .sourceNotOpened _ _
    · split at h
      · cases h
      · split at h
        · cases h
          exact .sourceNotOpened _ _
        · cases h

/-- A source that was opened has a name that can be spoken. -/
lemma speakable_of_openSource (h : s.openSource p = .ok node) :
    ∃ name, p.source = some name ∧ Disk.isUnspeakable name = false := by
  simp only [openSource] at h
  split at h
  · cases h
  · rename_i name hsource
    split at h
    · cases h
    · split at h
      · cases h
      · rename_i hspeakable
        exact ⟨name, hsource, by simpa using hspeakable⟩

/-- The stages that read, from the source being open and the core at its position on. -/
lemma fails_of_collect {failure : Failure} (hopen : s.openSource p = .ok node)
    (hposition : s.coreSeekProblem? p.coreOffset = none)
    (h : s.afterCoreSeek.collect p node = .error (.failure failure)) : s.Fails p failure := by
  rcases Outcome.bind_eq_error.1 h with hseek | ⟨position, -, h⟩
  · simp only [seekSource] at hseek
    split at hseek
    · cases hseek
      exact .sourceNotPositioned _
    · cases hseek
  rcases Outcome.bind_eq_error.1 h with hmake | ⟨size, hmake, hgather⟩
  · simp only [makeRoom] at hmake
    split at hmake
    · cases hmake
    · split at hmake
      · cases hmake
      · split at hmake
        · cases hmake
        · cases hmake
          exact .noRoom
  · obtain ⟨⟨-, hroom⟩, -⟩ := makeRoom_eq_ok.1 hmake
    obtain ⟨problem, rfl⟩ :
        ∃ problem, failure = .shortRead p.ident (sourceName p) p.size problem := by
      simp only [gather] at hgather
      split at hgather
      · cases hgather
        exact ⟨_, rfl⟩
      · cases hgather
        exact ⟨_, rfl⟩
      · split at hgather
        · cases hgather
        · cases hgather
          exact ⟨_, rfl⟩
    exact .shortRead problem hopen hposition hroom

/-- **Every failure of a piece** is one of these. -/
lemma fails_of_splice {slot : Slot} {failure : Failure}
    (h : (s.splice p slot).2 = .error (.failure failure)) : s.Fails p failure := by
  rw [result_splice] at h
  rcases Outcome.bind_eq_error.1 h with hopen | ⟨node, hopen, h⟩
  · exact fails_of_openSource hopen
  rcases Outcome.bind_eq_error.1 h with hseek | ⟨position, hseek, h⟩
  · simp only [seekCore] at hseek
    split at hseek
    · cases hseek
      exact .coreNotPositioned _
    · cases hseek
  rcases Outcome.bind_eq_error.1 h with hcollect | ⟨data, -, hstore⟩
  · exact fails_of_collect hopen (seekCore_eq_ok.1 hseek).1 hcollect
  · obtain ⟨faults, result, heq, hstored⟩ := store_cases s.afterCoreSeek p position data
    rw [heq] at hstore
    cases hstore
    cases hstored <;> exact .shortWrite _

/-! ## The core afterwards -/

/-- The core, a regular file, holds the data of the placement at its target, and what it held
before elsewhere.  Data that begins behind its end makes it longer, unless there is none. -/
structure Filled (s : Session) (p : Placement) (new : Bytes) : Prop where
  size : (s.sourceBytes p).length = p.size.toNat
  content : new = s.coreContent.overlay p.coreOffset.toNat (s.sourceBytes p)
  length : (new.length : Int) = if p.size = 0 then (s.coreContent.length : Int)
    else max s.coreContent.length (p.coreOffset + p.size)

/-- A write that nothing keeps from its work takes all of the data. -/
lemma taken_of_letsThrough {fault : Option Fault} {size : Nat} (h : Fault.LetsThrough size fault) :
    Fault.taken fault size = size := by
  cases h with
  | none => rfl
  | short hcount => exact Nat.min_eq_right hcount

lemma filled_of_passes (hall : ∀ stage, s.Passes p stage) (hsize : 0 ≤ p.size) {place : Place}
    (hcore : s.core = .file place) (hfile : s.disk.IsFile place) {slot : Slot}
    (hresult : (s.splice p slot).2 = .ok ()) :
    s.Filled p (s.splice p slot).1.coreContent := by
  obtain ⟨-, hlength⟩ := hall .reading
  obtain ⟨hwrite, -, -⟩ := hall .writing
  obtain ⟨-, -, hposition⟩ := hall .corePosition
  have hstart : 0 ≤ p.coreOffset := by
    rw [hcore] at hposition
    exact hposition.nonneg
  have hcontent : (s.splice p slot).1.coreContent
      = s.coreContent.overlay p.coreOffset.toNat (s.sourceBytes p) := by
    rw [coreContent, (sameSetting_splice s p slot).core, splice_content hcore hfile, if_pos rfl,
      hresult, bytesTaken, reachedWrite, if_pos rfl, taken_of_letsThrough hwrite, ← hlength,
      List.take_length]
  refine ⟨hlength, hcontent, ?_⟩
  rw [hcontent, Bytes.length_overlay, hlength]
  by_cases hzero : p.size = 0
  · rw [if_pos hzero, if_pos]
    rw [← List.length_eq_zero_iff, hlength, hzero]
    rfl
  · rw [if_neg hzero, if_neg]
    · omega
    · rw [← List.length_eq_zero_iff, hlength]
      omega

/-- **One piece of data** that has a source and a size.  It is put into the core if every stage
has what it needs, and only then; and nothing is reported.  If not, it fails in the first stage
that lacks something, whatever the others lack, and only direct data that could not be read is
reported, with the advice how to supply it. -/
theorem splice_stages (s : Session) {p : Placement} {name : String} (hsource : p.source = some name)
    (hname : Disk.isUnspeakable name = false) (hsize : 0 ≤ p.size)
    (hdigits : (Nat.toDigits 10 p.size.natAbs).length ≤ Text.Decimal.maxDigits) (slot : Slot) :
    let after := s.splice p slot
    (after.2 = .ok () ↔ ∀ stage, s.Passes p stage) ∧
      (after.2 = .ok () → after.1.notices = s.notices ∧ ∀ place, s.core = .file place →
        s.disk.IsFile place → s.Filled p after.1.coreContent) ∧
      (after.2 ≠ .ok () → ∃ failure, after.2 = .error (.failure failure) ∧
        Stage.FirstFailing (s.Passes p) Stage.row failure.stage ∧ failure.ident = p.ident ∧
        after.1.notices = s.notices ++
          if failure.stage = .reading ∧ slot = .direct then [.advice p.ident p.size] else []) := by
  intro after
  have hdecides := s.decides_splice hsource hname hsize hdigits slot
  have hnotices := s.notices_splice hsource hname slot
  have hiff : after.2 = .ok () ↔ ∀ stage, s.Passes p stage := by
    cases hdecides with
    | passed value heq hall => exact iff_of_true heq fun stage => hall stage stage.mem_row
    | failed failure heq hfirst _ =>
      have hended : after.2 ≠ .ok () := by
        rw [show after.2 = _ from heq]
        rintro ⟨⟩
      exact iff_of_false hended fun hall => hfirst.not_all fun stage _ => hall stage
  refine ⟨hiff, ?success, ?failure⟩
  case success =>
    intro hresult
    have hall := hiff.1 hresult
    refine ⟨?_, fun place hcore hfile => filled_of_passes hall hsize hcore hfile hresult⟩
    rw [show after.1.notices = _ from hnotices, show (s.splice p slot).2 = _ from hresult, advised,
      List.append_nil]
  case failure =>
    intro hresult
    cases hdecides with
    | passed value heq _ => exact absurd heq hresult
    | failed failure heq hfirst hident =>
      refine ⟨failure, heq, hfirst, hident, ?_⟩
      rw [show after.1.notices = _ from hnotices, heq, advised, advise_failure]

/-- A session whose next read, write and flush all meet faults. -/
def strained : Session where
  disk :=
    { home := []
      directories := []
      files := [(["core"], List.replicate 8 0xee), (["a"], [1, 2, 3, 4])] }
  core := .file ["core"]
  map := .lines []
  faults :=
    { core := { write := [some .nothing], flush := [some (.error .noSpace)] }
      nextSources := [{ read := some (.short 3) }] }

/-- The read is the first to fail: of four bytes it delivers three. -/
theorem splice_stages_strained :
    let p : Placement := { ident := "a", coreOffset := 6, size := 4, source := some "a" }
    let after := strained.splice p .direct
    after.2 = .error (.failure (.shortRead "a" "a" 4 (.partly 3))) ∧
      Stage.FirstFailing (strained.Passes p) Stage.row .reading ∧
      after.1.notices = [.advice "a" 4] ∧ after.1.coreContent = List.replicate 8 0xee := by
  intro p after
  have hresult : after.2 = .error (.failure (.shortRead "a" "a" 4 (.partly 3))) := by
    decide +kernel
  have hended : after.2 ≠ .ok () := by
    rw [hresult]
    rintro ⟨⟩
  obtain ⟨-, -, hfails⟩ := splice_stages strained (p := p) rfl (show Disk.isUnspeakable "a" = false
    by decide) (by decide) (by decide) .direct
  obtain ⟨failure, heq, hfirst, -, hnotices⟩ := hfails hended
  obtain rfl : failure = .shortRead "a" "a" 4 (.partly 3) := by
    have h := heq.symm.trans hresult
    cases h
    rfl
  exact ⟨hresult, hfirst, hnotices, by decide +kernel⟩

/-- A piece without bytes leaves the core as long as it is, wherever it is aimed. -/
theorem splice_empty_behind_end :
    ¬ ∀ (s : Session) (p : Placement) (name : String) (place : Place),
      p.source = some name → Disk.isUnspeakable name = false → 0 ≤ p.size →
      (Nat.toDigits 10 p.size.natAbs).length ≤ Text.Decimal.maxDigits →
      s.core = .file place → s.disk.IsFile place →
      ∀ slot, (s.splice p slot).2 = .ok () →
        ((s.splice p slot).1.coreContent.length : Int)
          = max (s.coreContent.length : Int) (p.coreOffset + p.size) := by
  intro hall
  have hlength := hall { strained with faults := {} }
    { ident := "a", coreOffset := 16, source := some "a" } "a" ["core"] rfl (by decide) (by decide)
    (by decide) rfl (by decide) .direct (by decide +kernel)
  revert hlength
  decide +kernel

end Session

end CoreSplice
