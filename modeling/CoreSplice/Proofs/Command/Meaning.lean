import CoreSplice.Command.Run
import CoreSplice.Proofs.Injection.Faultless
import CoreSplice.Proofs.Override.Form

/-!
# What a run means

A run is a list of pieces of data, laid over the core one after the other.  The list is known from
the symbol map, the overrides and the names of the dumps, so that nothing that happens on the way
changes it.  If every piece was there, the program headers are adjusted to the regions that were
filled, and the status is 0; if one was not, the core is left as the pieces made it, and the
status is 1.

* `Plan.run` — the list, and the overrides that it spends.
* `Piece.layAll` — what the pieces make of the files.
* **`Command.run_meaning`** — a run that returns does just that.
-/

namespace CoreSplice

/-! ## The pieces of a run -/

/-- The piece names a source and a position in it. -/
def Piece.Sourced (piece : Piece) : Prop :=
  piece.placement.source.isSome ∧ 0 ≤ piece.placement.sourceOffset

namespace Plan

/-- Pieces of a dump are taken from the dump or from an override that is pending. -/
lemma sourced_dump {map : SymbolMap} {registry : Registry}
    (hoffsets : ∀ o ∈ registry, o.consumed = false → 0 ≤ o.offset) (path : String) :
    ∀ piece ∈ (dump map registry path).pieces, piece.Sourced := by
  intro piece hpiece
  cases mem_pieces_dump.1 hpiece with
  | override _ hfirst _ =>
    obtain ⟨hmem, hpending, -⟩ := Registry.mem_of_firstFor? hfirst
    exact ⟨rfl, hoffsets _ hmem hpending⟩
  | direct _ _ => exact ⟨rfl, Int.natCast_nonneg _⟩
  | indirect _ => exact ⟨rfl, Int.le_refl 0⟩

lemma sourced_leftover {map : SymbolMap} {registry : Registry}
    (hoffsets : ∀ o ∈ registry, o.consumed = false → 0 ≤ o.offset) (position : Nat) :
    ∀ piece ∈ (leftover map registry position).pieces, piece.Sourced := by
  intro piece hpiece
  simp only [leftover] at hpiece
  split at hpiece
  · cases hpiece
  · split at hpiece
    · cases hpiece
    · exact sourced_dump hoffsets _ piece hpiece

/-- All pieces of a run have sources, if the overrides start inside their files. -/
lemma sourced_run (map : SymbolMap) {registry : Registry}
    (hoffsets : ∀ o ∈ registry, 0 ≤ o.offset) (paths : List String) :
    ∀ piece ∈ (run map registry paths).pieces, piece.Sourced := by
  have hlater (later : Registry) (hspends : registry.Spends later) :
      ∀ o ∈ later, o.consumed = false → 0 ≤ o.offset :=
    fun o ho hpending => hoffsets o (hspends o ho hpending)
  obtain ⟨hdumps, hrest⟩ := forall_inTurn (spends_dump map)
    (fun later path hspends => sourced_dump (hlater later hspends) path)
    (fun o ho _ => ho : registry.Spends registry) paths
  intro piece hpiece
  rcases List.mem_append.1 hpiece with hpiece | hpiece
  · exact hdumps piece hpiece
  · exact (forall_inTurn (spends_leftover map)
      (fun later position hspends => sourced_leftover (hlater later hspends) position)
      hrest _).1 piece hpiece

end Plan

/-! ## What is noted of pieces -/

/-- The memory regions of the pieces that had their data. -/
def Piece.regions (results : List (Piece × Bool)) : List Region :=
  (results.filter Prod.snd).map fun (piece, _) =>
    ⟨piece.placement.memAddress, piece.placement.size⟩

/-- The lines that are printed of the pieces that had their data. -/
def Piece.lines (results : List (Piece × Bool)) : List String :=
  (results.filter Prod.snd).map fun (piece, _) =>
    "injected: " ++ piece.placement.ident ++ ", " ++ Text.Decimal.write piece.placement.size
      ++ " bytes, " ++ piece.slot.name

lemma Attempt.regions_results (attempts : List Attempt) :
    attempts.flatMap Attempt.regions
      = Piece.regions (attempts.map fun a => (a.piece, a.isDone)) := by
  induction attempts with
  | nil => rfl
  | cons a attempts ih =>
    rw [List.flatMap_cons, ih, Attempt.regions]
    cases hdone : a.isDone <;> simp [Piece.regions, hdone, Attempt.piece]

lemma Attempt.lines_results (attempts : List Attempt) :
    attempts.flatMap Attempt.lines
      = Piece.lines (attempts.map fun a => (a.piece, a.isDone)) := by
  induction attempts with
  | nil => rfl
  | cons a attempts ih =>
    rw [List.flatMap_cons, ih, Attempt.lines]
    cases hdone : a.isDone <;> simp [Piece.lines, hdone, Attempt.piece]

namespace Command

/-! ## The run -/

lemma row_injections (s : Session) (dumps : List String) :
    s.Row (injections s dumps).2 (injections s dumps).1 :=
  Session.row_continued (Session.row_injectAll s dumps) Session.row_injectPending

/-- The injections of a run follow its plan. -/
lemma follows_injections (s : Session) (hmap : s.map ≠ .file s.core) (dumps : List String) :
    s.Follows (.run s.symbolMap s.registry dumps) (injections s dumps) := by
  obtain ⟨hsame, hmap'⟩ := Session.symbolMap_of_row (Session.row_injectAll s dumps) hmap
  have hrest := Session.follows_injectPending (s.injectAll dumps).1 hmap'
  rw [hsame] at hrest
  exact Session.follows_continued (Session.follows_injectAll s hmap dumps) hrest

/-- A conclusion is what the pieces of a plan lead to, with some memory for their data, on a disk
whose core is at a place. -/
structure Fulfils (c : Conclusion) (status memory : Nat) (place : Place) (disk : Disk)
    (plan : Plan) : Prop where
  /-- The overrides that the plan spends are applied, and no other. -/
  registry : c.registry = plan.registry
  /-- The pieces were attempted in order, and those succeeded that had their data. -/
  attempts : c.attempts.map (fun a => (a.piece, a.isDone))
    = (Piece.layAll memory place disk plan.pieces).2
  printed : c.printed = Piece.lines (Piece.layAll memory place disk plan.pieces).2
  /-- If a piece failed, the core is left as the pieces made it. -/
  failed : (Piece.layAll memory place disk plan.pieces).2.all Prod.snd = false →
    status = 1 ∧ c.disk = (Piece.layAll memory place disk plan.pieces).1
  /-- If none failed, the headers of the core are adjusted to the regions that were filled. -/
  succeeded : (Piece.layAll memory place disk plan.pieces).2.all Prod.snd = true →
    let (files, results) := Piece.layAll memory place disk plan.pieces
    let content := files.content (.file place)
    let update := Elf.adjust content (Piece.regions results) content.length
    status = 0 ∧ (∃ size, update.outcome = .ok size) ∧
      c.disk = files.put (.file place) update.content

/-- The header step without faults. -/
lemma adjustHeaders_eq {s : Session} {place : Place} (h : s.Sound place) :
    let content := s.disk.content (.file place)
    let update := Elf.adjust content s.ledger content.length
    s.adjustHeaders.1.disk = s.disk.put (.file place) update.content ∧
      s.adjustHeaders.1.registry = s.registry ∧ s.adjustHeaders.1.printed = s.printed ∧
      s.adjustHeaders.2 = update.outcome.mapError .obstructed := by
  have hfaults : s.faults.core = {} := by rw [h.faults]
  simp only [Session.adjustHeaders, Session.takeRegions, Ledger.takeAll, Session.coreContent,
    h.coreIsOpen, h.core, hfaults, if_true]
  exact ⟨rfl, rfl, rfl, trivial⟩

/-- What the injections of a run come to, unless one of their attempts ended them. -/
structure Injected (memory : Nat) (place : Place) (disk : Disk) (plan : Plan) (all : Bool)
    (t : Session) (results : List (Piece × Bool)) : Prop where
  laid : Piece.layAll memory place disk plan.pieces = (t.disk, results)
  sound : t.Sound place
  registry : t.registry = plan.registry
  ledger : t.ledger = Piece.regions results
  printed : t.printed = Piece.lines results
  all : results.all Prod.snd = all

lemma injected {s : Session} {place : Place} (hsound : s.Sound place)
    (hmap : s.map ≠ .file s.core) (hledger : s.ledger = []) (hprinted : s.printed = [])
    (hoffsets : ∀ o ∈ s.registry, 0 ≤ o.offset) (dumps : List String) (all : Bool)
    (hstatus : Attempt.status (injections s dumps).2 = .ok all) :
    Injected s.memory place s.disk (.run s.symbolMap s.registry dumps) all (injections s dumps).1
      ((injections s dumps).2.map fun a => (a.piece, a.isDone)) := by
  have hrow := row_injections s dumps
  have hfollows := follows_injections s hmap dumps
  have hsourced := Plan.sourced_run s.symbolMap hoffsets dumps
  obtain ⟨hgone, hdone⟩ := Attempt.status_eq_ok_iff.1 hstatus
  obtain ⟨hpieces, hregistry⟩ := hfollows.finished hgone
  rw [← hpieces] at hsourced
  obtain ⟨hlaid, hsound'⟩ := hrow.layAll_eq hsound hgone
    fun a ha => hsourced a.piece (List.mem_map_of_mem ha)
  rw [hpieces] at hlaid
  refine ⟨hlaid, hsound', hregistry, ?_, ?_, ?_⟩
  · rw [hfollows.ledger, hledger, List.nil_append, Attempt.regions_results]
  · rw [hfollows.printed, hprinted, List.nil_append, Attempt.lines_results]
  · rw [← hdone, List.all_map]
    rfl

/-- **What an open core and an open map lead to.** -/
lemma fulfils_work {s : Session} {place : Place} (hsound : s.Sound place)
    (hmap : s.map ≠ .file s.core) (hledger : s.ledger = []) (hprinted : s.printed = [])
    (hoffsets : ∀ o ∈ s.registry, 0 ≤ o.offset) (dumps : List String) {status : Nat}
    (hstatus : (work s dumps).status = .ok status) :
    Fulfils (work s dumps) status s.memory place s.disk (.run s.symbolMap s.registry dumps) := by
  have hinjected := injected hsound hmap hledger hprinted hoffsets dumps
  simp only [work] at hstatus ⊢
  generalize injections s dumps = done at *
  obtain ⟨t, attempts⟩ := done
  cases hall : Attempt.status attempts with
  | error abort =>
    rw [hall] at hstatus
    cases hstatus
  | ok all =>
    have h := hinjected all hall
    rw [hall] at hstatus
    cases all with
    | false =>
      cases hstatus
      refine ⟨h.registry, by rw [h.laid]; rfl, by rw [h.laid]; exact h.printed, ?_, ?_⟩
      · intro _
        rw [h.laid]
        exact ⟨rfl, rfl⟩
      · intro hsucceeded
        rw [h.laid, h.all] at hsucceeded
        cases hsucceeded
    | true =>
      obtain ⟨hdisk, hregistry, hprinted', hsize⟩ := adjustHeaders_eq h.sound
      rw [h.ledger] at hdisk hsize
      dsimp only at hstatus ⊢
      simp only [conclude] at hstatus ⊢
      refine ⟨hregistry.trans h.registry, by rw [h.laid],
        by rw [h.laid]; exact hprinted'.trans h.printed, ?_, ?_⟩
      · intro hfailed
        rw [h.laid, h.all] at hfailed
        cases hfailed
      · intro _
        rw [h.laid]
        obtain ⟨size, hok, hzero⟩ := Outcome.map_eq_ok.1 hstatus
        rw [hsize] at hok
        exact ⟨hzero.symm, ⟨size, Outcome.mapError_eq_ok.1 hok⟩, hdisk⟩

/-- **What a run means.**  For every core, every symbol map that is another file, every list of
dumps, every list of overrides that were given as options and every memory: a run that returns has
put the pieces of its plan into the core in turn, each of them if its data could be had. -/
theorem run_meaning {disk : Disk} {core map : String} {place : Place} {mapNode : Node}
    {overrides : Registry} (hname : Disk.isUnspeakable core = false)
    (hcore : disk.resolveFile core = .ok (.file place))
    (hmap : disk.resolveFile map = .ok mapNode) (hother : mapNode ≠ .file place)
    (hoptions : ∀ o ∈ overrides, ∃ argument, Override.parse argument = .ok o)
    (dumps : List String) {status memory : Nat}
    (hstatus : (run disk core map dumps overrides memory).status = .ok status) :
    Fulfils (run disk core map dumps overrides memory) status memory place disk
      (.run (SymbolMap.ofContent (disk.content mapNode)) overrides dumps) := by
  have hreaches := Disk.reaches_of_resolveFile hname hcore
  have hoffsets : ∀ o ∈ overrides, 0 ≤ o.offset := by
    intro o ho
    obtain ⟨argument, hparse⟩ := hoptions o ho
    exact Override.offset_nonneg_of_parse hparse
  simp only [run, hreaches, hcore, hmap, Bool.not_true, Bool.false_eq_true, if_false] at hstatus ⊢
  split at hstatus
  · cases hstatus
  · rename_i hspeakable
    rw [if_neg hspeakable]
    rw [mapSource, if_neg hother] at hstatus ⊢
    exact fulfils_work ⟨rfl, rfl, rfl⟩ (by simp) rfl rfl hoffsets dumps hstatus

/-- A core, a map of `1 10 2 D a`, `4 30 1 I a` and `6 20 2 D b`, and a dump of `a`. -/
def smallDisk : Disk where
  home := []
  directories := []
  files :=
    [(["core"], List.replicate 8 0xee), (["a"], [7, 8, 9]),
      (["map"], "1 10 2 D a\n4 30 1 I a\n6 20 2 D b\n".toUTF8.toList)]

/-- One dump with both kinds of data, and one override that takes its data from it. -/
theorem run_meaning_small :
    let overrides : Registry := [⟨"b", 2, "a", 1, false⟩]
    let c := run smallDisk "core" "map" ["a"] overrides
    c.disk.content (.file ["core"]) = [0xee, 8, 9, 0xee, 7, 0xee, 8, 9] ∧
      Fulfils c 0 usualMemory ["core"] smallDisk
        (.run (SymbolMap.ofContent (smallDisk.content (.file ["map"]))) overrides ["a"]) := by
  refine ⟨by decide +kernel, ?_⟩
  refine run_meaning (by decide) rfl rfl (by decide) ?_ ["a"] (by decide +kernel)
  intro o ho
  rw [List.mem_singleton.1 ho]
  exact ⟨"--data=b:2@a+1", rfl⟩

end Command

end CoreSplice
