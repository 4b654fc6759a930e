import CoreSplice.Proofs.Injection.Plan
import CoreSplice.Proofs.Override.Given

/-!
# What ends an injection

A piece of data that fails is reported, and the injection goes on.  A few placements cannot be
worked with at all and end it: those without a source, with a source that cannot be spoken, or with
a size that is no size.  The pieces of a dump are none of these, with one exception: the symbol map
may give a size of any length, and room that cannot be made for it is reported with the size in
decimal.  A size that has too many digits for that ends the injection.  All of this is said of the
faults that a plan can hold, and printing always works there.

* `Placement.Ends` — the placements that end an injection, and how.
* **`Session.ends_of_splice`** — no other placement does.
* `Session.Completes` — a dump whose pieces were all attempted, and whose result says whether all of
  them succeeded.
* **`Session.injectDump_completes`** — every dump does, but for sizes with too many digits.
-/

namespace CoreSplice

/-- The placement cannot be worked with at all. -/
inductive Placement.Ends (p : Placement) : Abort → Prop where
  | noSource (h : p.source = none) : Ends p .noSource
  | unspeakable {name : String} (h : p.source = some name)
      (hname : Disk.isUnspeakable name = true) : Ends p (.unspeakableName name)
  | negative (h : p.size < 0) : Ends p (.negativeSize p.size)
  | digits (h : Text.Decimal.write? p.size = none) : Ends p .tooManyDigits

namespace Session

/-! ## One piece of data -/

variable {s : Session} {p : Placement} {slot : Slot} {abort : Abort}

lemma ends_of_openSource (h : s.openSource p = .error (.abort abort)) : p.Ends abort := by
  simp only [openSource] at h
  split at h
  · rename_i hnone
    cases h
    exact .noSource hnone
  · rename_i name hname
    split at h
    · cases h
    · split at h
      · rename_i hunspeakable
        cases h
        exact .unspeakable hname hunspeakable
      · split at h <;> cases h

lemma ends_of_makeRoom (h : s.makeRoom p = .error (.abort abort)) : p.Ends abort := by
  simp only [makeRoom] at h
  split at h
  · cases h
  · split at h
    · rename_i hnegative
      cases h
      exact .negative hnegative.1
    · split at h
      · rename_i hdigits
        cases h
        exact .digits hdigits
      · cases h

lemma gather_ne_abort (s : Session) (p : Placement) (node : Node) (position size : Nat)
    (abort : Abort) : s.gather p node position size ≠ .error (.abort abort) := by
  intro h
  simp only [gather] at h
  split at h
  · cases h
  · cases h
  · split at h <;> cases h

lemma ends_of_collect {node : Node} (h : s.collect p node = .error (.abort abort)) :
    p.Ends abort := by
  rcases Outcome.bind_eq_error.1 h with h | ⟨position, _, h⟩
  · simp only [seekSource] at h
    split at h <;> cases h
  · rcases Outcome.bind_eq_error.1 h with h | ⟨size, _, h⟩
    · exact ends_of_makeRoom h
    · exact absurd h (s.gather_ne_abort p node position size abort)

/-- What comes to the write is not ended by it. -/
lemma settle_ne_abort (s : Session) (p : Placement) (slot : Slot) (data : Delivery)
    (abort : Abort) : (s.settle p slot data).2 ≠ .error (.abort abort) := by
  intro h
  have hstored := (s.settles p slot data).stored
  rw [h] at hstored
  cases hstored

/-- **What ends a piece of data** is its placement alone, whatever faults it meets. -/
theorem ends_of_splice (h : (s.splice p slot).2 = .error (.abort abort)) : p.Ends abort := by
  cases hopen : s.openSource p with
  | error stop =>
    simp only [splice, stages, hopen] at h
    cases h
    exact ends_of_openSource hopen
  | ok node =>
    cases hseek : s.seekCore p with
    | error stop =>
      simp only [splice, stages, hopen, hseek] at h
      cases h
      simp only [seekCore] at hseek
      split at hseek <;> cases hseek
    | ok position =>
      cases hcollect : s.afterCoreSeek.collect p node with
      | error stop =>
        simp only [splice, stages, hopen, hseek, hcollect] at h
        cases h
        exact ends_of_collect hcollect
      | ok data =>
        have hdata : s.Gathers p node data := ⟨hopen, (seekCore_eq_ok.1 hseek).1, hcollect⟩
        rw [hdata.splice_eq] at h
        exact absurd h (s.settle_ne_abort p slot data abort)

end Session

/-! ## The pieces of a dump -/

/-- The size of the piece is one that the map gives for the ident. -/
def Piece.SizedBy (map : SymbolMap) (ident : String) (piece : Piece) : Prop :=
  ∃ slot entry, map.target? ident slot = some entry ∧ piece.placement.size = entry.size

/-- The piece can be worked with, unless the map gives it a size with too many digits. -/
structure Piece.Workable (map : SymbolMap) (ident : String) (piece : Piece) : Prop where
  source : ∃ name, piece.placement.source = some name ∧ Disk.isUnspeakable name = false
  size_nonneg : 0 ≤ piece.placement.size
  digits : Text.Decimal.write? piece.placement.size = none → piece.SizedBy map ident

/-- Only the digits of a size that the map gives are left to end a workable piece. -/
lemma Piece.Workable.eq_of_ends {map : SymbolMap} {ident : String} {piece : Piece} {abort : Abort}
    (h : piece.Workable map ident) (hends : piece.placement.Ends abort) :
    abort = .tooManyDigits ∧ ∃ slot entry, map.target? ident slot = some entry ∧
      Text.Decimal.write? entry.size = none := by
  obtain ⟨name, hname, hspeakable⟩ := h.source
  cases hends with
  | noSource hnone =>
    rw [hname] at hnone
    cases hnone
  | unspeakable hsource hunspeakable =>
    rw [hname] at hsource
    cases hsource
    rw [hspeakable] at hunspeakable
    cases hunspeakable
  | negative hnegative => exact absurd h.size_nonneg (Int.not_le.2 hnegative)
  | digits hdigits =>
    obtain ⟨slot, entry, htarget, hsize⟩ := h.digits hdigits
    exact ⟨rfl, slot, entry, htarget, hsize ▸ hdigits⟩

namespace Plan

lemma workable_dump {map : SymbolMap} {registry : Registry} {path : String}
    (hpath : Disk.isUnspeakable path = false)
    (hregistry : ∀ o ∈ registry, o.Given ∧ Disk.isUnspeakable o.source = false) :
    ∀ piece ∈ (dump map registry path).pieces,
      piece.Workable map (Path.lastComponent path) := by
  intro piece hpiece
  cases mem_pieces_dump.1 hpiece with
  | override _ hfirst _ =>
    obtain ⟨hgiven, hspeakable⟩ := hregistry _ (Registry.mem_of_firstFor? hfirst).1
    exact ⟨⟨_, rfl, hspeakable⟩, hgiven.size_nonneg,
      fun hdigits => absurd hdigits hgiven.write?_size⟩
  | direct htarget _ =>
    exact ⟨⟨_, rfl, hpath⟩, Int.natCast_nonneg _, fun _ => ⟨_, _, htarget, rfl⟩⟩
  | indirect htarget =>
    exact ⟨⟨_, rfl, hpath⟩, Int.natCast_nonneg _, fun _ => ⟨_, _, htarget, rfl⟩⟩

end Plan

namespace Session

/-! ## One dump -/

/-- The dump came to its end with the given result. -/
structure Completes (s : Session) (path : String) (attempts : List Attempt) (all : Bool) :
    Prop where
  status : Attempt.status attempts = .ok all
  /-- The result says whether all attempts succeeded. -/
  all_iff : all = true ↔ ∀ a ∈ attempts, a.isDone = true
  /-- Every piece of the dump was attempted, the direct one first. -/
  pieces : attempts.map Attempt.piece = (Plan.dump s.symbolMap s.registry path).pieces
  /-- The indirect piece was attempted, whatever happened to the direct one. -/
  indirect : ∀ entry, s.symbolMap.target? (Path.lastComponent path) .indirect = some entry →
    ∃ a ∈ attempts,
      a.piece = .aimed .indirect (Path.lastComponent path) entry entry.size 0 path

lemma completes_of_gone {s : Session} {path : String}
    (hgone : (s.injectDump path).2.findSome? Attempt.abort? = none) :
    s.Completes path (s.injectDump path).2 ((s.injectDump path).2.all Attempt.isDone) := by
  have hpieces := ((follows_injectDump s path).finished hgone).1
  refine ⟨by rw [Attempt.status, hgone], List.all_eq_true, hpieces, ?_⟩
  intro entry hentry
  have hdue : Plan.DueFor s.symbolMap s.registry path _ := .indirect hentry
  have hmem := Plan.mem_pieces_dump.2 hdue
  rw [← hpieces] at hmem
  exact List.mem_map.1 hmem

/-- An attempt that ended its dump did so by its placement. -/
lemma ends_of_abort? {s : Session} {path : String} {a : Attempt} {abort : Abort}
    (ha : a ∈ (s.injectDump path).2) (habort : a.abort? = some abort) :
    a.placement.Ends abort := by
  obtain ⟨n, hn⟩ := List.mem_iff_getElem?.1 ha
  have hresult := (row_injectDump s path).result_eq hn
  simp only [Attempt.abort?] at habort
  split at habort
  · rename_i hend
    cases habort
    exact ends_of_splice (hresult.symm.trans hend)
  · cases habort

/-- **An injection comes to its end.**  Whatever faults of its plan it meets, whether the core is
open or not, and whatever the map and the registry hold: all pieces of the dump are attempted, and
the result says whether all of them succeeded.  The exception is a size of the ident in the map that
has too many digits to be written.  That a line cannot be printed is no fault of any plan, so
nothing is said of an injection that fails to print. -/
theorem injectDump_completes {s : Session} {path : String}
    (hpath : Disk.isUnspeakable path = false)
    (hregistry : ∀ o ∈ s.registry, o.Given ∧ Disk.isUnspeakable o.source = false) :
    (∃ all, s.Completes path (s.injectDump path).2 all) ∨
      Attempt.status (s.injectDump path).2 = .error .tooManyDigits ∧
        ∃ slot entry, s.symbolMap.target? (Path.lastComponent path) slot = some entry ∧
          Text.Decimal.maxDigits < (Nat.toDigits 10 entry.size).length := by
  cases hgone : (s.injectDump path).2.findSome? Attempt.abort? with
  | none => exact Or.inl ⟨_, completes_of_gone hgone⟩
  | some abort =>
    obtain ⟨a, ha, habort⟩ := List.exists_of_findSome?_eq_some hgone
    have hpiece : a.piece ∈ (Plan.dump s.symbolMap s.registry path).pieces :=
      (follows_injectDump s path).started.subset (List.mem_map_of_mem ha)
    have hworkable := Plan.workable_dump hpath hregistry a.piece hpiece
    obtain ⟨rfl, slot, entry, htarget, hdigits⟩ :=
      hworkable.eq_of_ends (ends_of_abort? ha habort)
    refine Or.inr ⟨by rw [Attempt.status, hgone], slot, entry, htarget, ?_⟩
    rwa [Text.Decimal.write?_eq_none_iff, Int.natAbs_natCast] at hdigits

/-- A session whose direct data comes from a file that cannot be opened. -/
def hampered : Session where
  disk :=
    { home := []
      directories := []
      files := [(["core"], List.replicate 8 0xee), (["a"], [1, 2, 3, 4]), (["b"], [5, 6])] }
  core := .file ["core"]
  map := .lines [some ⟨2, 0x100, 2, 'D', "a"⟩, some ⟨6, 0x200, 3, 'I', "a"⟩]
  faults := { sourceOpen := [("b", .error (.numbered 13))] }
  registry := [⟨"a", 2, "b", 0, false⟩]

/-- The direct piece fails, and the indirect one is put into the core. -/
theorem injectDump_completes_hampered :
    (∃ all, hampered.Completes "a" (hampered.injectDump "a").2 all) ∧
      (hampered.injectDump "a").2.map Attempt.isDone = [false, true] ∧
      (hampered.injectDump "a").1.coreContent = [0xee, 0xee, 0xee, 0xee, 0xee, 0xee, 1, 2, 3] := by
  have hstatus : Attempt.status (hampered.injectDump "a").2 = .ok false := by rfl
  have hcompletes := injectDump_completes (s := hampered)
    (show Disk.isUnspeakable "a" = false by decide) ?_
  · refine ⟨hcompletes.resolve_right ?_, by decide +kernel, by decide +kernel⟩
    rw [hstatus]
    rintro ⟨hended, -⟩
    cases hended
  · intro o ho
    rw [List.mem_singleton.1 ho]
    exact ⟨⟨"--data=a:2@b+0", _, rfl, rfl⟩, by decide⟩

/-- A session whose map gives direct data more bytes than can be written in decimal. -/
def oversized : Session where
  disk :=
    { home := []
      directories := []
      files := [(["core"], List.replicate 8 0xee), (["a"], [1, 2, 3, 4])] }
  core := .file ["core"]
  map := .lines [some ⟨0, 0x100, Nat.pow 16 3600, 'D', "a"⟩, some ⟨4, 0x200, 2, 'I', "a"⟩]

/-- No result is returned, and the indirect piece is left out. -/
theorem injectDump_oversized :
    Attempt.status (oversized.injectDump "a").2 = .error .tooManyDigits ∧
      (oversized.injectDump "a").2.map Attempt.slot = [.direct] ∧
      (∃ entry, oversized.symbolMap.target? "a" .indirect = some entry) ∧
      ¬ ∀ s : Session, s.faults = {} → s.registry = [] →
        ∃ all, s.Completes "a" (s.injectDump "a").2 all := by
  have habort : (oversized.injectDump "a").2.findSome? Attempt.abort? = some .tooManyDigits := by
    decide +kernel
  have hended : Attempt.status (oversized.injectDump "a").2 = .error .tooManyDigits := by
    rw [Attempt.status, habort]
  refine ⟨hended, by decide +kernel, ⟨⟨4, 0x200, 2, 'I', "a"⟩, by decide +kernel⟩, ?_⟩
  intro hall
  obtain ⟨all, hcompletes⟩ := hall oversized rfl rfl
  have hstatus := hcompletes.status
  rw [hended] at hstatus
  cases hstatus

end Session

end CoreSplice
