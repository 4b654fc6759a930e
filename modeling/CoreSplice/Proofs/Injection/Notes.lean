import CoreSplice.Proofs.Injection.Row

/-!
# Notes decide nothing

A session notes what it filled, prints and reports, but looks at none of this itself.  So two
sessions that differ in their notes only do the same whatever they are asked to do.

* `Session.SameButNotes` — sessions that differ in ledger, printed lines and reports at most.
* `Session.SameSteps` — two operations that make the same attempts, and leave such sessions.
* **`Session.SameButNotes.injectPending`** — the leftover pass, from one lemma for each operation
  that it consists of.
-/

namespace CoreSplice.Session

/-- The sessions differ in ledger, printed lines and reports at most. -/
structure SameButNotes (s t : Session) : Prop where
  disk : t.disk = s.disk
  core : t.core = s.core
  coreIsOpen : t.coreIsOpen = s.coreIsOpen
  map : t.map = s.map
  faults : t.faults = s.faults
  registry : t.registry = s.registry
  memory : t.memory = s.memory

/-- The operations made the same attempts and led to sessions that differ in their notes at
most. -/
structure SameSteps (first second : Session × List Attempt) : Prop where
  attempts : second.2 = first.2
  session : first.1.SameButNotes second.1

variable {s t : Session}

lemma SameButNotes.bare (h : s.SameButNotes t) : t.bare = s.bare := by
  simp only [Session.bare, h.disk, h.core, h.coreIsOpen, h.map, h.faults, h.memory]

lemma sameButNotes_of_bare (h : t.bare = s.bare) (hregistry : t.registry = s.registry) :
    s.SameButNotes t := by
  obtain ⟨hdisk, hcore, hmap, hfaults⟩ := eq_of_bare h
  have hopen : t.bare.coreIsOpen = s.bare.coreIsOpen := by rw [h]
  exact ⟨hdisk, hcore, hopen, hmap, hfaults, hregistry, memory_of_bare h⟩

lemma SameButNotes.symbolMap (h : s.SameButNotes t) : t.symbolMap = s.symbolMap :=
  symbolMap_of_bare h.bare

lemma SameButNotes.report (h : s.SameButNotes t) (first second : List Diagnostic) :
    (s.report first).SameButNotes (t.report second) :=
  ⟨h.disk, h.core, h.coreIsOpen, h.map, h.faults, h.registry, h.memory⟩

/-! ## The operations -/

lemma SameButNotes.attempt (h : s.SameButNotes t) (p : Placement) (slot : Slot) :
    SameSteps (s.attempt p slot) (t.attempt p slot) := by
  simp only [Session.attempt]
  split
  · exact ⟨rfl, h⟩
  · obtain ⟨hresult, hbare⟩ := splice_congr h.bare p slot
    have hregistry : (t.splice p slot).1.registry = (s.splice p slot).1.registry := by
      rw [(sameSetting_splice t p slot).registry, (sameSetting_splice s p slot).registry,
        h.registry]
    have hsession := sameButNotes_of_bare hbare hregistry
    generalize s.splice p slot = first at hresult hsession
    generalize t.splice p slot = second at hresult hsession
    obtain ⟨u, result⟩ := first
    obtain ⟨v, result'⟩ := second
    obtain rfl : result' = result := hresult
    rcases result' with (failure | abort) | _
    · exact ⟨rfl, hsession.report _ _⟩
    · exact ⟨rfl, hsession⟩
    · exact ⟨rfl, hsession⟩

lemma SameButNotes.redirect (h : s.SameButNotes t) (p : Placement) :
    (t.redirect p).2 = (s.redirect p).2 ∧ (s.redirect p).1.SameButNotes (t.redirect p).1 := by
  simp only [Session.redirect, h.registry]
  split
  · exact ⟨rfl, h⟩
  · exact ⟨rfl, h.disk, h.core, h.coreIsOpen, h.map, h.faults, rfl, h.memory⟩

lemma SameButNotes.injectDirect (h : s.SameButNotes t) (path : String) (p : Placement) :
    SameSteps (s.injectDirect path p) (t.injectDirect path p) := by
  simp only [Session.injectDirect]
  split
  · obtain ⟨hplacement, hsession⟩ := h.redirect { p with source := some path }
    rw [hplacement]
    exact hsession.attempt _ _
  · exact ⟨rfl, h⟩

lemma SameButNotes.injectIndirect (h : s.SameButNotes t) (path : String) (p : Placement) :
    SameSteps (s.injectIndirect path p) (t.injectIndirect path p) := by
  simp only [Session.injectIndirect]
  split
  · exact h.attempt _ _
  · exact ⟨rfl, h⟩

lemma SameSteps.continued {first second : Session × List Attempt}
    {next : Session → Session × List Attempt} (h : SameSteps first second)
    (hnext : first.1.SameButNotes second.1 → SameSteps (next first.1) (next second.1)) :
    SameSteps (continued first next) (continued second next) := by
  have hrest := hnext h.session
  simp only [Session.continued, h.attempts]
  split
  · exact h
  · exact ⟨by rw [hrest.attempts], hrest.session⟩

lemma SameButNotes.injectDump (h : s.SameButNotes t) (path : String) :
    SameSteps (s.injectDump path) (t.injectDump path) := by
  simp only [Session.injectDump, h.symbolMap]
  have hreported := h.report (s.symbolMap.remarks (Path.lastComponent path))
    (s.symbolMap.remarks (Path.lastComponent path))
  split
  · exact ⟨rfl, hreported.report _ _⟩
  · exact (hreported.injectDirect path _).continued fun hnext => hnext.injectIndirect path _

lemma SameButNotes.injectPositions (h : s.SameButNotes t) (positions : List Nat) :
    SameSteps (s.injectPositions positions) (t.injectPositions positions) := by
  induction positions generalizing s t with
  | nil => exact ⟨rfl, h⟩
  | cons position positions ih =>
    simp only [Session.injectPositions, h.registry]
    split
    · exact ih h
    · split
      · exact ih h
      · exact (h.injectDump _).continued ih

/-- **The leftover pass** does the same for sessions that differ in their notes. -/
theorem SameButNotes.injectPending (h : s.SameButNotes t) :
    SameSteps s.injectPending t.injectPending := by
  simp only [Session.injectPending, h.registry]
  exact h.injectPositions _

end CoreSplice.Session
