import CoreSplice.Command.Run
import CoreSplice.Proofs.Injection.Accounting
import CoreSplice.Proofs.Injection.Completion
import CoreSplice.Proofs.Injection.Stages
import CoreSplice.Proofs.Injection.Steady

/-!
# Records that can be worked with

Numbers come from two parsers, which take no negative ones.  But a record is made of them in several
steps: an override replaces the size, which may become 0 by that, and direct data is moved behind
the indirect data.  No step makes a number negative, and an attempt is made of data only whose size
is not 0 at the end.  So whatever the map holds and whatever was applied before, no attempt fails
for a number that is negative.

* `Attempt.WellFormed` — the record of an attempt can be worked with.
* `Registry.Marks` — the overrides are the same, some of them applied since.
* `Session.Makes` — an operation makes attempts of this kind and keeps the overrides, with one lemma
  for each operation.
* **`Session.performAll_wellFormed`** — all attempts of all operations, and the regions that the
  header step is given.
-/

namespace CoreSplice

/-! ## Records -/

/-- The record of the attempt can be worked with, and takes its data from a file with one of the
names. -/
structure Attempt.WellFormed (names : List String) (a : Attempt) : Prop where
  size_pos : 0 < a.placement.size
  coreOffset_nonneg : 0 ≤ a.placement.coreOffset
  memAddress_nonneg : 0 ≤ a.placement.memAddress
  sourceOffset_nonneg : 0 ≤ a.placement.sourceOffset
  source : ∃ name ∈ names, a.placement.source = some name
  /-- The attempt was not ended by a size below 0. -/
  size_accepted : ∀ size, a.result ≠ .error (.abort (.negativeSize size))
  /-- No file was to be put to a position below 0. -/
  position_nonneg : ∀ ident file position problem,
    a.result = .error (.failure (.notPositioned ident file position problem)) → 0 ≤ position

/-- The names of the files that an operation may take data from. -/
def Operation.names (registry : Registry) : Operation → List String
  | .inject path => path :: registry.map Override.source
  | .leftovers => registry.map Override.ident ++ registry.map Override.source
  | .writeCore p _ => p.source.toList
  | .add _ | .drain => []

/-! ## Overrides -/

/-- The overrides are those of the registry before, some of them applied since. -/
def Registry.Marks (before after : Registry) : Prop :=
  ∀ o ∈ after, ∃ first ∈ before, o = { first with consumed := o.consumed }

namespace Registry

variable {before after : Registry} {names : List String}

lemma Marks.refl (registry : Registry) : registry.Marks registry :=
  fun o ho => ⟨o, ho, rfl⟩

lemma Marks.trans {last : Registry} (h : before.Marks after) (hlast : after.Marks last) :
    before.Marks last := by
  intro o ho
  obtain ⟨next, hnext, heq⟩ := hlast o ho
  obtain ⟨first, hfirst, heq'⟩ := h next hnext
  exact ⟨first, hfirst, by rw [heq, heq']⟩

lemma marks_consumeAt (registry : Registry) (position : Nat) :
    registry.Marks (registry.consumeAt position) := by
  intro o ho
  rcases mem_consumeAt ho with hthere | ⟨first, hfirst, rfl⟩
  · exact ⟨o, hthere, rfl⟩
  · exact ⟨first, hfirst, rfl⟩

/-- What holds of overrides whether they were applied or not stays so. -/
lemma Marks.forall_mem (h : before.Marks after) {P : Override → Prop}
    (hP : ∀ (o : Override) (consumed : Bool), P o → P { o with consumed })
    (hbefore : ∀ o ∈ before, P o) : ∀ o ∈ after, P o := by
  intro o ho
  obtain ⟨first, hfirst, heq⟩ := h o ho
  rw [heq]
  exact hP first o.consumed (hbefore first hfirst)

lemma Marks.given (h : before.Marks after) (hgiven : ∀ o ∈ before, o.Given) :
    ∀ o ∈ after, o.Given := by
  refine h.forall_mem ?_ hgiven
  rintro o consumed ⟨argument, parsed, hparse, hparsed⟩
  exact ⟨argument, parsed, hparse, by rw [hparsed]⟩

lemma Marks.ident_mem (h : before.Marks after)
    (hnames : ∀ o ∈ before, o.ident ∈ names) : ∀ o ∈ after, o.ident ∈ names :=
  h.forall_mem (fun _ _ hident => hident) hnames

/-- The overrides were given as options, and take their data from files with one of the names. -/
structure Supplied (names : List String) (registry : Registry) : Prop where
  given : ∀ o ∈ registry, o.Given
  source_mem : ∀ o ∈ registry, o.source ∈ names

lemma Supplied.of_marks (h : Supplied names before) (hmarks : before.Marks after) :
    Supplied names after :=
  ⟨hmarks.given h.given, hmarks.forall_mem (fun _ _ hsource => hsource) h.source_mem⟩

end Registry

namespace Session

variable {s : Session} {names : List String}

/-! ## One attempt -/

/-- Numbers that are not negative are all that an attempt needs. -/
lemma wellFormed_of_splice {a : Attempt} (hresult : a.result = (s.splice a.placement a.slot).2)
    (hsize : 0 < a.placement.size) (hcore : 0 ≤ a.placement.coreOffset)
    (haddress : 0 ≤ a.placement.memAddress) (hsource : 0 ≤ a.placement.sourceOffset)
    (hname : ∃ name ∈ names, a.placement.source = some name) : a.WellFormed names := by
  refine ⟨hsize, hcore, haddress, hsource, hname, ?_, ?_⟩
  · intro size hended
    cases ends_of_splice (hresult.symm.trans hended) with
    | negative hnegative => exact Int.not_lt.2 (Int.le_of_lt hsize) hnegative
  · intro ident file position problem hfailed
    cases fails_of_splice (hresult.symm.trans hfailed) with
    | coreNotPositioned => exact hcore
    | sourceNotPositioned => exact hsource

/-- The pieces of a dump. -/
lemma wellFormed_of_dueFor {a : Attempt} {map : SymbolMap} {registry : Registry} {path : String}
    (hresult : a.result = (s.splice a.placement a.slot).2)
    (hdue : Plan.DueFor map registry path a.piece) (hpath : path ∈ names)
    (hsupplied : registry.Supplied names) : a.WellFormed names := by
  obtain ⟨p, slot, result⟩ := a
  have hsized {slot : Slot} {entry : Entry}
      (h : map.target? (Path.lastComponent path) slot = some entry) : (0 : Int) < entry.size := by
    have hne := (Option.filter_eq_some_iff.1 h).2
    simp only [ne_eq, decide_eq_true_eq] at hne
    omega
  generalize hpiece : Attempt.piece ⟨p, slot, result⟩ = piece at hdue
  cases hdue with
  | @override entry position o htarget hfirst hsize =>
    cases hpiece
    have ho := (Registry.mem_of_firstFor? hfirst).1
    have hnonneg := (hsupplied.given o ho).size_nonneg
    refine wellFormed_of_splice hresult (show 0 < o.size by omega) (Int.natCast_nonneg _)
      (Int.natCast_nonneg _) (hsupplied.given o ho).offset_nonneg
      ⟨o.source, hsupplied.source_mem o ho, rfl⟩
  | direct htarget hnone =>
    cases hpiece
    exact wellFormed_of_splice hresult (hsized htarget) (Int.natCast_nonneg _)
      (Int.natCast_nonneg _) (Int.natCast_nonneg _) ⟨path, hpath, rfl⟩
  | indirect htarget =>
    cases hpiece
    exact wellFormed_of_splice hresult (hsized htarget) (Int.natCast_nonneg _)
      (Int.natCast_nonneg _) (Int.le_refl 0) ⟨path, hpath, rfl⟩

/-! ## Operations -/

/-- The operation made attempts with records that can be worked with, and applied overrides at
most. -/
structure Makes (s : Session) (names : List String) (done : Session × List Attempt) : Prop where
  attempts : ∀ a ∈ done.2, a.WellFormed names
  marks : s.registry.Marks done.1.registry

lemma makes_idle {t : Session} (h : t.registry = s.registry) : s.Makes names (t, []) :=
  ⟨List.forall_mem_nil _, h ▸ .refl _⟩

lemma makes_continued {first : Session × List Attempt} {next : Session → Session × List Attempt}
    (hfirst : s.Makes names first) (hnext : first.1.Makes names (next first.1)) :
    s.Makes names (continued first next) := by
  simp only [continued]
  split
  · exact hfirst
  · exact ⟨List.forall_mem_append.2 ⟨hfirst.attempts, hnext.attempts⟩,
      hfirst.marks.trans hnext.marks⟩

lemma registry_attempt (s : Session) (p : Placement) (slot : Slot) :
    (s.attempt p slot).1.registry = s.registry := by
  by_cases hsize : p.size = 0
  · rw [attempt, if_pos hsize]
  · rw [attempt_eq s hsize]
    exact (sameSetting_splice s p slot).registry

lemma marks_redirect (s : Session) (p : Placement) :
    s.registry.Marks (s.redirect p).1.registry := by
  simp only [redirect, Registry.redirect?]
  cases s.registry.firstFor? p.ident with
  | none => exact .refl _
  | some found => exact Registry.marks_consumeAt _ _

/-- One override is applied at most, whether the dump was ended early or not. -/
lemma marks_injectDump (s : Session) (path : String) :
    s.registry.Marks (s.injectDump path).1.registry := by
  have hindirect (t : Session) (p : Placement) :
      (t.injectIndirect path p).1.registry = t.registry := by
    simp only [injectIndirect]
    split
    · exact registry_attempt t _ _
    · rfl
  have hdirect (t : Session) (p : Placement) :
      t.registry.Marks (t.injectDirect path p).1.registry := by
    simp only [injectDirect]
    split
    · rw [registry_attempt]
      exact marks_redirect t _
    · exact .refl _
  simp only [injectDump, continued]
  split
  · exact .refl _
  · split
    · exact hdirect _ _
    · dsimp only
      rw [hindirect]
      exact hdirect _ _

/-- **One dump.** -/
lemma makes_injectDump (hsupplied : s.registry.Supplied names) {path : String}
    (hpath : path ∈ names) : s.Makes names (s.injectDump path) := by
  refine ⟨?_, marks_injectDump s path⟩
  intro a ha
  have hpiece : a.piece ∈ (Plan.dump s.symbolMap s.registry path).pieces :=
    (follows_injectDump s path).started.subset (List.mem_map_of_mem ha)
  obtain ⟨n, hn⟩ := List.mem_iff_getElem?.1 ha
  exact wellFormed_of_dueFor ((row_injectDump s path).result_eq hn) (Plan.mem_pieces_dump.1 hpiece)
    hpath hsupplied

lemma makes_injectAll (hsupplied : s.registry.Supplied names) {paths : List String}
    (hpaths : ∀ path ∈ paths, path ∈ names) : s.Makes names (s.injectAll paths) := by
  induction paths generalizing s with
  | nil => exact makes_idle rfl
  | cons path paths ih =>
    obtain ⟨hpath, hpaths⟩ := List.forall_mem_cons.1 hpaths
    have hdump := makes_injectDump hsupplied hpath
    exact makes_continued hdump (ih (hsupplied.of_marks hdump.marks) hpaths)

lemma makes_injectPositions (hsupplied : s.registry.Supplied names)
    (hidents : ∀ o ∈ s.registry, o.ident ∈ names) (positions : List Nat) :
    s.Makes names (s.injectPositions positions) := by
  induction positions generalizing s with
  | nil => exact makes_idle rfl
  | cons position positions ih =>
    simp only [injectPositions]
    split
    · exact ih hsupplied hidents
    · rename_i o ho
      split
      · exact ih hsupplied hidents
      · have hdump := makes_injectDump hsupplied (hidents o (List.mem_of_getElem? ho))
        exact makes_continued hdump
          (ih (hsupplied.of_marks hdump.marks) (hdump.marks.ident_mem hidents))

/-- **One operation.**  Only data that is put into the core directly may have any record. -/
lemma makes_perform (hgiven : ∀ o ∈ s.registry, o.Given) {operation : Operation}
    (hcall : ∀ p slot, operation ≠ .writeCore p slot) :
    (∀ a ∈ (s.perform operation).2, a.WellFormed (operation.names s.registry)) ∧
      ∀ o ∈ (s.perform operation).1.registry, o.Given := by
  cases operation with
  | inject path =>
    have hsupplied : s.registry.Supplied (path :: s.registry.map Override.source) :=
      ⟨hgiven, fun o ho => List.mem_cons_of_mem _ (List.mem_map_of_mem ho)⟩
    have hmakes := makes_injectDump hsupplied List.mem_cons_self
    exact ⟨hmakes.attempts, hmakes.marks.given hgiven⟩
  | leftovers =>
    have hsupplied : s.registry.Supplied
        (s.registry.map Override.ident ++ s.registry.map Override.source) :=
      ⟨hgiven, fun o ho => List.mem_append_right _ (List.mem_map_of_mem ho)⟩
    have hmakes : s.Makes _ s.injectPending := makes_injectPositions hsupplied
      (fun o ho => List.mem_append_left _ (List.mem_map_of_mem ho)) _
    exact ⟨hmakes.attempts, hmakes.marks.given hgiven⟩
  | add argument =>
    simp only [perform]
    split
    · exact ⟨List.forall_mem_nil _, hgiven⟩
    · rename_i o hparse
      refine ⟨List.forall_mem_nil _, ?_⟩
      exact List.forall_mem_append.2
        ⟨hgiven, List.forall_mem_singleton.2 (Override.given_of_parse hparse)⟩
  | writeCore p slot => exact absurd rfl (hcall p slot)
  | drain => exact ⟨List.forall_mem_nil _, hgiven⟩

/-- **Operations in turn.**  Every attempt belongs to one of them, and its record can be worked
with. -/
lemma wellFormed_performAll (hgiven : ∀ o ∈ s.registry, o.Given) {operations : List Operation}
    (hcalls : ∀ operation ∈ operations, ∀ p slot, operation ≠ .writeCore p slot) {a : Attempt}
    (ha : a ∈ (s.performAll operations).2) :
    ∃ before operation behind, operations = before ++ operation :: behind ∧
      a ∈ ((s.performAll before).1.perform operation).2 ∧
      a.WellFormed (operation.names (s.performAll before).1.registry) := by
  induction operations generalizing s with
  | nil => cases ha
  | cons operation operations ih =>
    obtain ⟨hcall, hcalls⟩ := List.forall_mem_cons.1 hcalls
    obtain ⟨hattempts, hgiven'⟩ := makes_perform hgiven hcall
    rcases List.mem_append.1 ha with ha | ha
    · exact ⟨[], operation, operations, rfl, ha, hattempts a ha⟩
    · obtain ⟨before, later, behind, rfl, hmem, hwell⟩ := ih hgiven' hcalls ha
      exact ⟨operation :: before, later, behind, rfl, hmem, hwell⟩

/-! ## A run -/

/-- The regions that records of this kind fill are somewhere and not empty. -/
lemma regions_of_wellFormed {a : Attempt} (h : a.WellFormed names) {region : Region}
    (hregion : region ∈ a.regions) : 0 ≤ region.address ∧ 0 < region.size := by
  simp only [Attempt.regions] at hregion
  split at hregion
  · rw [List.mem_singleton.1 hregion]
    exact ⟨h.memAddress_nonneg, h.size_pos⟩
  · cases hregion

lemma makes_injections (hgiven : ∀ o ∈ s.registry, o.Given) (dumps : List String) :
    s.Makes (dumps ++ s.registry.map Override.ident ++ s.registry.map Override.source)
      (Command.injections s dumps) := by
  have hsupplied : s.registry.Supplied
      (dumps ++ s.registry.map Override.ident ++ s.registry.map Override.source) :=
    ⟨hgiven, fun o ho => List.mem_append_right _ (List.mem_map_of_mem ho)⟩
  have hdumps := makes_injectAll hsupplied
    fun path hpath => List.mem_append_left _ (List.mem_append_left _ hpath)
  refine makes_continued hdumps (makes_injectPositions (hsupplied.of_marks hdumps.marks) ?_ _)
  exact hdumps.marks.ident_mem
    fun o ho => List.mem_append_left _ (List.mem_append_right _ (List.mem_map_of_mem ho))

/-- **Records can be worked with.**  Let all overrides come from options.  Whatever the map holds,
and whatever dumps and leftover overrides are injected with whatever faults: every attempt is made
of data with a size above 0 and with numbers that are not negative, from the file that its operation
was called with or from the file of an override that was registered then.  So no attempt is ended by
a negative size, and no file is to be put to a negative position.  The same holds of a run, and the
header step is given regions with an address that is not negative and a size above 0. -/
theorem performAll_wellFormed (s : Session) (hgiven : ∀ o ∈ s.registry, o.Given) :
    (∀ operations : List Operation,
      (∀ operation ∈ operations, ∀ p slot, operation ≠ .writeCore p slot) →
      ∀ a ∈ (s.performAll operations).2, ∃ before operation behind,
        operations = before ++ operation :: behind ∧
        a ∈ ((s.performAll before).1.perform operation).2 ∧
        a.WellFormed (operation.names (s.performAll before).1.registry)) ∧
      ∀ dumps : List String,
        (∀ a ∈ (Command.injections s dumps).2, a.WellFormed
          (dumps ++ s.registry.map Override.ident ++ s.registry.map Override.source)) ∧
        (s.ledger = [] → ∀ region ∈ (Command.injections s dumps).1.takeRegions.1,
          0 ≤ region.address ∧ 0 < region.size) := by
  refine ⟨fun operations hcalls a ha => wellFormed_performAll hgiven hcalls ha, ?_⟩
  intro dumps
  have hmakes := makes_injections hgiven dumps
  refine ⟨hmakes.attempts, ?_⟩
  intro hledger region hregion
  have hnoted : s.Noted (Command.injections s dumps) :=
    noted_continued (noted_injectAll s dumps) (noted_injectPositions _ _)
  have hfilled : region ∈ (Command.injections s dumps).2.flatMap Attempt.regions := by
    rw [← List.nil_append (List.flatMap _ _), ← hledger, ← hnoted.ledger]
    exact hregion
  obtain ⟨a, ha, hmem⟩ := List.mem_flatMap.1 hfilled
  exact regions_of_wellFormed (hmakes.attempts a ha) hmem

/-- A session with an override that leaves nothing, and with another of the same ident. -/
def varied : Session where
  disk :=
    { home := []
      directories := [["d"]]
      files := [(["core"], List.replicate 8 0xee), (["d", "a"], [0xd0, 0xd1, 0xd2, 0xd3, 0xd4]),
        (["blob"], [0xb0, 0xb1, 0xb2])] }
  core := .file ["core"]
  map := .lines [some ⟨2, 0x100, 4, 'D', "a"⟩, some ⟨6, 0x200, 1, 'I', "a"⟩, none,
    some ⟨0, 0x300, 2, 'I', "b"⟩]
  faults := { nextSources := [{ read := some .nothing }] }
  registry := [⟨"a", 0, "blob", 0, false⟩, ⟨"a", 2, "blob", 1, false⟩]

/-- The first dump has its direct data overridden away, the leftover pass supplies it, and after
that it comes from the dump again, behind the indirect data. -/
theorem performAll_wellFormed_varied :
    let operations : List Operation :=
      [.inject "d/a", .add "--data=x/b:1@blob+2", .leftovers, .drain, .inject "d/a"]
    let done := varied.performAll operations
    done.2.map (fun a => (a.slot, a.placement.size, a.placement.sourceOffset, a.placement.source))
        = [(.indirect, 1, 0, some "d/a"), (.direct, 2, 1, some "blob"), (.indirect, 1, 0, some "a"),
          (.indirect, 2, 0, some "x/b"), (.direct, 4, 1, some "d/a"),
          (.indirect, 1, 0, some "d/a")] ∧
      (∀ a ∈ done.2, ∃ names, a.WellFormed names) ∧
      (Command.injections varied ["d/a"]).1.takeRegions.1 = [⟨0x100, 2⟩] ∧
      ∀ region ∈ (Command.injections varied ["d/a"]).1.takeRegions.1,
        0 ≤ region.address ∧ 0 < region.size := by
  intro operations done
  obtain ⟨hperform, hrun⟩ := performAll_wellFormed varied (by
    intro o ho
    rcases List.mem_cons.1 ho with rfl | ho
    · exact ⟨"--data=a:0@blob+0", _, rfl, rfl⟩
    · rw [List.mem_singleton.1 ho]
      exact ⟨"--data=a:2@blob+1", _, rfl, rfl⟩)
  refine ⟨by decide +kernel, ?_, by decide +kernel, (hrun ["d/a"]).2 rfl⟩
  intro a ha
  obtain ⟨before, operation, behind, -, -, hwell⟩ := hperform operations (by simp [operations]) a ha
  exact ⟨_, hwell⟩

end Session

end CoreSplice
