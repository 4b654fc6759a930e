import CoreSplice.Injection.Headers
import CoreSplice.Proofs.Injection.Plan

/-!
# Accounting for what was filled

The header step acts on the ledger alone, so the ledger must hold each region that was filled, once
and in order, and no other.  Regions leave it when they are handed on, to the header step or to
the user, and then all of them leave.

* `Attempt.region`, `Attempt.line` — what is noted of a piece of data that is in its place.
* `Session.Noted` — an operation has noted its attempts, with a lemma for each operation.
* `Step`, `History` — what may happen to a session, and what did: the attempts that were made, and
  the lists of regions that were handed on.
* `History.Balanced.take` — one step.
* **`History.balanced_takeAll`** — any sequence of steps, whatever fails in it.
-/

namespace CoreSplice

namespace Attempt

/-- The memory region that the attempt is for. -/
def region (a : Attempt) : Region :=
  ⟨a.placement.memAddress, a.placement.size⟩

/-- The line that says that the data is in its place. -/
def line (a : Attempt) : String :=
  "injected: " ++ a.placement.ident ++ ", " ++ Text.Decimal.write a.placement.size
    ++ " bytes, " ++ a.slot.name

lemma flatMap_regions (attempts : List Attempt) :
    attempts.flatMap regions = (attempts.filter isDone).map region := by
  induction attempts with
  | nil => rfl
  | cons a attempts ih =>
    rw [List.flatMap_cons, List.filter_cons, regions, ih]
    split <;> rfl

lemma flatMap_lines (attempts : List Attempt) :
    attempts.flatMap lines = (attempts.filter isDone).map line := by
  induction attempts with
  | nil => rfl
  | cons a attempts ih =>
    rw [List.flatMap_cons, List.filter_cons, lines, ih]
    split <;> rfl

end Attempt

namespace Session

variable {s : Session}

/-! ## What operations note -/

/-- The operation has entered what its attempts filled in the ledger, and printed it. -/
structure Noted (s : Session) (done : Session × List Attempt) : Prop where
  ledger : done.1.ledger = s.ledger ++ done.2.flatMap Attempt.regions
  printed : done.1.printed = s.printed ++ done.2.flatMap Attempt.lines

lemma noted_idle (s : Session) {t : Session} (hledger : t.ledger = s.ledger)
    (hprinted : t.printed = s.printed) : s.Noted (t, []) :=
  ⟨by rw [hledger, List.flatMap_nil, List.append_nil],
    by rw [hprinted, List.flatMap_nil, List.append_nil]⟩

lemma noted_injectDump (s : Session) (path : String) : s.Noted (s.injectDump path) :=
  ⟨(follows_injectDump s path).ledger, (follows_injectDump s path).printed⟩

lemma noted_continued {first : Session × List Attempt}
    {next : Session → Session × List Attempt} (hfirst : s.Noted first)
    (hnext : first.1.Noted (next first.1)) : s.Noted (continued first next) := by
  simp only [continued]
  split
  · exact hfirst
  · constructor
    · rw [hnext.ledger, hfirst.ledger, List.flatMap_append, List.append_assoc]
    · rw [hnext.printed, hfirst.printed, List.flatMap_append, List.append_assoc]

lemma noted_injectAll (s : Session) (paths : List String) : s.Noted (s.injectAll paths) := by
  induction paths generalizing s with
  | nil => exact noted_idle s rfl rfl
  | cons path paths ih => exact noted_continued (noted_injectDump s path) (ih _)

lemma noted_injectPositions (s : Session) (positions : List Nat) :
    s.Noted (s.injectPositions positions) := by
  induction positions generalizing s with
  | nil => exact noted_idle s rfl rfl
  | cons position positions ih =>
    simp only [injectPositions]
    split
    · exact ih s
    · split
      · exact ih s
      · exact noted_continued (noted_injectDump s _) (ih _)

lemma noted_writeCore (s : Session) (p : Placement) (slot : Slot) :
    s.Noted (s.perform (.writeCore p slot)) := by
  obtain ⟨hledger, hprinted⟩ := noted_splice s p slot
  constructor
  · rw [perform, List.flatMap_singleton]
    exact hledger
  · rw [perform, List.flatMap_singleton]
    exact hprinted

/-- The header step empties the ledger and prints nothing. -/
lemma notes_adjustHeaders (s : Session) :
    s.adjustHeaders.1.ledger = [] ∧ s.adjustHeaders.1.printed = s.printed := by
  simp only [adjustHeaders]
  split <;> exact ⟨rfl, rfl⟩

end Session

/-! ## Steps -/

/-- What may happen to a session. -/
inductive Step where
  | operation (operation : Operation)
  /-- The header step, for all regions of the ledger. -/
  | adjustHeaders

/-- What has happened to a session: where it came to, the attempts that were made, and the lists of
regions that were handed on. -/
structure History where
  session : Session
  attempts : List Attempt := []
  handedOn : List (List Region) := []

namespace History

/-- One step more.  A step that was ended early is a step, and others may follow. -/
def take (h : History) : Step → History
  | .operation .drain =>
    { h with session := h.session.takeRegions.2
             handedOn := h.handedOn ++ [h.session.takeRegions.1] }
  | .operation operation =>
    { h with session := (h.session.perform operation).1
             attempts := h.attempts ++ (h.session.perform operation).2 }
  | .adjustHeaders =>
    { h with session := h.session.adjustHeaders.1
             handedOn := h.handedOn ++ [h.session.takeRegions.1] }

/-- Steps in turn. -/
def takeAll (h : History) (steps : List Step) : History :=
  steps.foldl take h

/-- What was handed on and what is still in the ledger are the regions that were filled since the
session was as given, and these were printed. -/
structure Balanced (s : Session) (h : History) : Prop where
  regions : h.handedOn.flatten ++ h.session.ledger
    = s.ledger ++ h.attempts.flatMap Attempt.regions
  printed : h.session.printed = s.printed ++ h.attempts.flatMap Attempt.lines

variable {s : Session} {h : History}

/-- Regions that are handed on are in the ledger no longer. -/
lemma Balanced.handOn (hbalanced : h.Balanced s) {t : Session} (hledger : t.ledger = [])
    (hprinted : t.printed = h.session.printed) :
    Balanced s { h with session := t, handedOn := h.handedOn ++ [h.session.takeRegions.1] } := by
  constructor
  · have hall : h.session.takeRegions.1 = h.session.ledger := rfl
    rw [hledger, hall, List.append_nil, List.flatten_append, List.flatten_singleton]
    exact hbalanced.regions
  · exact hprinted.trans hbalanced.printed

lemma Balanced.note (hbalanced : h.Balanced s) {done : Session × List Attempt}
    (hnoted : h.session.Noted done) :
    Balanced s { h with session := done.1, attempts := h.attempts ++ done.2 } := by
  constructor
  · rw [hnoted.ledger, ← List.append_assoc, hbalanced.regions, List.flatMap_append,
      List.append_assoc]
  · rw [hnoted.printed, hbalanced.printed, List.flatMap_append, List.append_assoc]

/-- **One step** keeps the balance. -/
lemma Balanced.take (hbalanced : h.Balanced s) (step : Step) : (h.take step).Balanced s := by
  cases step with
  | operation operation =>
    cases operation with
    | inject path => exact hbalanced.note (Session.noted_injectDump _ path)
    | leftovers => exact hbalanced.note (Session.noted_injectPositions _ _)
    | add argument =>
      refine hbalanced.note ?_
      simp only [Session.perform]
      split <;> exact Session.noted_idle _ rfl rfl
    | writeCore p slot => exact hbalanced.note (Session.noted_writeCore _ p slot)
    | drain => exact hbalanced.handOn rfl rfl
  | adjustHeaders =>
    obtain ⟨hledger, hprinted⟩ := Session.notes_adjustHeaders h.session
    exact hbalanced.handOn hledger hprinted

/-- **Any sequence of steps.**  The regions that were handed on and then those of the ledger are
the regions of the attempts that succeeded, each once and in the order in which they were made,
behind those that were in the ledger before.  For each of them one line was printed, in the same
order.  An attempt that failed has left neither. -/
theorem balanced_takeAll (s : Session) (steps : List Step) :
    let h := (History.mk s [] []).takeAll steps
    h.handedOn.flatten ++ h.session.ledger
        = s.ledger ++ (h.attempts.filter Attempt.isDone).map Attempt.region ∧
      h.session.printed
        = s.printed ++ (h.attempts.filter Attempt.isDone).map Attempt.line := by
  intro h
  have hstart : (History.mk s [] []).Balanced s :=
    ⟨by rw [List.flatMap_nil, List.append_nil]; rfl,
      by rw [List.flatMap_nil, List.append_nil]⟩
  have hrun : ∀ start : History, start.Balanced s → (start.takeAll steps).Balanced s := by
    induction steps with
    | nil => exact fun start hbalanced => hbalanced
    | cons step steps ih => exact fun start hbalanced => ih _ (hbalanced.take step)
  obtain ⟨hregions, hprinted⟩ := hrun _ hstart
  rw [Attempt.flatMap_regions] at hregions
  rw [Attempt.flatMap_lines] at hprinted
  exact ⟨hregions, hprinted⟩

end History

/-- A session whose core fails to be flushed once. -/
def unflushed : Session where
  disk :=
    { home := []
      directories := []
      files := [(["core"], List.replicate 8 0xee), (["a"], [1, 2, 3, 4])] }
  core := .file ["core"]
  map := .lines [some ⟨2, 0x100, 2, 'D', "a"⟩, some ⟨6, 0x200, 2, 'I', "a"⟩]
  faults := { core := { flush := [some (.error (.numbered 28))] } }

/-- The direct data is in the file after the first step, but it is not noted before the third. -/
example :
    let inject : Step := .operation (.inject "a")
    let first := (History.mk unflushed [] []).takeAll [inject]
    let last := first.takeAll [.operation .drain, inject, .adjustHeaders]
    first.session.coreContent = [0xee, 0xee, 3, 4, 0xee, 0xee, 1, 2] ∧
      first.session.ledger = [⟨0x200, 2⟩] ∧
      last.handedOn = [[⟨0x200, 2⟩], [⟨0x100, 2⟩, ⟨0x200, 2⟩]] ∧ last.session.ledger = [] := by
  decide +kernel

end CoreSplice
