import CoreSplice.Proofs.Command.Meaning
import CoreSplice.Proofs.Elf.Settled
import CoreSplice.Proofs.Injection.Steady

/-!
# A second run

After a run the core holds the data of every piece that succeeded, and if all of them did, headers
that cover the regions that were filled.  A second run with the same arguments has the same pieces
to put, of which the same succeed.  It puts bytes where they are already, and finds the headers as
it would make them, so the core is left as it is.

* `Conclusion.Repeats` — a conclusion that differs from another in what was reported at most.
* `Session.onCore` — a session on another content of the core.
* `Completed.onCore`, `Completed.disk_of_held` — the injections on another content, and on one that
  holds their data already.
* `adjustHeaders_again` — the header step on its own result.
* `work_again`, **`run_again`** — a second run repeats the first.
-/

namespace CoreSplice

/-! ## Another content of the core -/

namespace Session

variable {s : Session} {place : Place}

/-- The session with another content of the core. -/
def onCore (s : Session) (content : Bytes) : Session :=
  { s with disk := s.disk.put s.core content }

lemma disk_onCore (s : Session) (content : Bytes) :
    (s.onCore content).disk = s.disk.put s.core content := rfl

lemma sameOutside_onCore (s : Session) (content : Bytes) : s.SameOutside (s.onCore content) where
  core := rfl
  coreIsOpen := rfl
  memory := rfl
  names name := Disk.resolveFile_put s.disk s.core content name
  others _ hnode := Disk.content_put_of_ne s.disk hnode content

lemma Sound.onCore (h : s.Sound place) (content : Bytes) : (s.onCore content).Sound place :=
  ⟨h.faults, h.coreIsOpen, h.core⟩

lemma onCore_onCore (s : Session) (first second : Bytes) :
    (s.onCore first).onCore second = s.onCore second := by
  simp only [onCore, Disk.put_put]

lemma coreContent_onCore (hcore : s.core = .file place) (hfile : s.disk.IsFile place)
    (content : Bytes) : (s.onCore content).coreContent = content := by
  rw [coreContent, onCore, hcore]
  exact Disk.content_put_self _ hfile content

lemma symbolMap_onCore (hmap : s.map ≠ .file s.core) (content : Bytes) :
    (s.onCore content).symbolMap = s.symbolMap := by
  have hothers := (s.sameOutside_onCore content).others
  simp only [symbolMap]
  rw [show (s.onCore content).map = s.map from rfl]
  cases hsource : s.map with
  | lines map => rfl
  | file node =>
    dsimp only
    rw [hothers node]
    rintro rfl
    exact hmap hsource

end Session

namespace Command

variable {s : Session} {place : Place} {header : Elf.Header} {dumps : List String}

/-- The second conclusion differs from the first in what was reported at most. -/
structure Conclusion.Repeats (first second : Conclusion) : Prop where
  status : second.status = first.status
  attempts : second.attempts = first.attempts
  registry : second.registry = first.registry
  printed : second.printed = first.printed
  disk : second.disk = first.disk

lemma Conclusion.Repeats.refl (c : Conclusion) : c.Repeats c :=
  ⟨rfl, rfl, rfl, rfl, rfl⟩

@[simp] lemma disk_conclude (s : Session) (attempts : List Attempt) (status : Except Abort Nat) :
    (conclude s attempts status).disk = s.disk := rfl

@[simp] lemma attempts_conclude (s : Session) (attempts : List Attempt)
    (status : Except Abort Nat) : (conclude s attempts status).attempts = attempts := rfl

@[simp] lemma status_conclude (s : Session) (attempts : List Attempt)
    (status : Except Abort Nat) : (conclude s attempts status).status = status := rfl

lemma repeats_conclude {s t : Session} {attempts attempts' : List Attempt}
    {status status' : Except Abort Nat} (hstatus : status' = status)
    (hattempts : attempts' = attempts) (hregistry : t.registry = s.registry)
    (hprinted : t.printed = s.printed) (hdisk : t.disk = s.disk) :
    (conclude s attempts status).Repeats (conclude t attempts' status') :=
  ⟨hstatus, hattempts, hregistry, hprinted, hdisk⟩

/-! ## The injections again -/

/-- Injections that no attempt ended, into a core that no attempt reads. -/
structure Completed (s : Session) (place : Place) (dumps : List String) : Prop where
  sound : s.Sound place
  file : s.disk.IsFile place
  map : s.map ≠ .file s.core
  gone : (injections s dumps).2.findSome? Attempt.abort? = none
  sources : ∀ a ∈ (injections s dumps).2, ¬ s.ReadsCore a.placement

namespace Completed

lemma sound_injections (h : Completed s place dumps) : (injections s dumps).1.Sound place :=
  (row_injections s dumps).sound h.sound

lemma coreContent_eq (h : Completed s place dumps) :
    (injections s dumps).1.coreContent
      = Bytes.overlayAll s.coreContent (s.layers (injections s dumps).2) :=
  (row_injections s dumps).coreContent_eq h.sound.faults h.sound.core h.file h.sources

lemma disk_eq (h : Completed s place dumps) :
    (injections s dumps).1.disk = if (injections s dumps).2.any Attempt.isDone
      then (s.onCore (injections s dumps).1.coreContent).disk else s.disk :=
  (row_injections s dumps).disk_eq h.sound.faults h.sound.core h.file

/-- The injections change no file but the core. -/
lemma disk_onCore_injections (h : Completed s place dumps) (content : Bytes) :
    ((injections s dumps).1.onCore content).disk = (s.onCore content).disk := by
  rw [Session.disk_onCore, h.sound_injections.core.trans h.sound.core.symm, h.disk_eq]
  split
  · rw [Session.disk_onCore, Disk.put_put, Session.disk_onCore]
  · rw [Session.disk_onCore]

/-- **The injections on another core** make the same attempts. -/
lemma onCore (h : Completed s place dumps) (content : Bytes) :
    let first := injections s dumps
    let second := injections (s.onCore content) dumps
    Completed (s.onCore content) place dumps ∧ second.2 = first.2 ∧
      second.1.registry = first.1.registry ∧ second.1.ledger = first.1.ledger ∧
      second.1.printed = first.1.printed := by
  intro first second
  have hs := h.sound.faults
  have hsame := s.sameOutside_onCore content
  have hrow := row_injections s dumps
  have hrow' := row_injections (s.onCore content) dumps
  have hfollows := follows_injections s h.map dumps
  have hfollows' := follows_injections (s.onCore content) h.map dumps
  rw [Session.symbolMap_onCore h.map] at hfollows'
  have hharmless := hfollows.harmless hrow hs h.gone h.sources
  obtain ⟨hattempts, hregistry, -⟩ := hfollows.attempts_eq hrow (.refl s) hs hs hharmless
  obtain ⟨hattempts', hregistry', hgone⟩ := hfollows'.attempts_eq hrow' hsame hs hs hharmless
  have hagain : second.2 = first.2 := hattempts'.trans hattempts.symm
  refine ⟨⟨h.sound.onCore content, (Disk.isFile_put ..).2 h.file, h.map, hgone, ?_⟩, hagain,
    hregistry'.trans hregistry.symm, ?_, ?_⟩
  · intro a ha hreads
    exact h.sources a (hagain ▸ ha) ((hsame.readsCore_iff _).1 hreads)
  · rw [hfollows'.ledger, hfollows.ledger]
    exact congrArg (s.ledger ++ ·.flatMap Attempt.regions) hagain
  · rw [hfollows'.printed, hfollows.printed]
    exact congrArg (s.printed ++ ·.flatMap Attempt.lines) hagain

/-- A core that holds the data of the attempts is left as it is. -/
lemma disk_of_held (h : Completed s place dumps) {content : Bytes}
    (hheld : Bytes.overlayAll content (s.layers (injections s dumps).2) = content) :
    (injections (s.onCore content) dumps).1.disk = (s.onCore content).disk ∧
      (injections (s.onCore content) dumps).1.coreContent = content := by
  obtain ⟨h', hattempts, -⟩ := h.onCore content
  have hcontent : (injections (s.onCore content) dumps).1.coreContent = content := by
    rw [h'.coreContent_eq, hattempts, Session.coreContent_onCore h.sound.core h.file,
      (s.sameOutside_onCore content).layers h.sources, hheld]
  refine ⟨?_, hcontent⟩
  rw [h'.disk_eq, hcontent, Session.onCore_onCore]
  exact ite_self _

end Completed

/-! ## The header step again -/

/-- The header step without faults, on the core of a session. -/
lemma adjustHeaders_onCore (h : s.Sound place) {update : Elf.Update}
    (hupdate : Elf.adjust s.coreContent s.ledger s.coreContent.length = update) :
    s.adjustHeaders.1.disk = (s.onCore update.content).disk ∧
      s.adjustHeaders.1.registry = s.registry ∧ s.adjustHeaders.1.printed = s.printed ∧
      s.adjustHeaders.2 = update.outcome.mapError .obstructed := by
  have heq := adjustHeaders_eq h
  rw [← h.core] at heq
  rw [← hupdate]
  exact heq

/-- The header step on its own result succeeds and leaves the core alone. -/
lemma adjustHeaders_again {t : Session} (ht : t.Sound place)
    (horderly : Elf.Orderly s.coreContent header) {update : Elf.Update}
    (hupdate : Elf.adjust s.coreContent s.ledger s.coreContent.length = update)
    (hcore : t.coreContent = update.content) (hledger : t.ledger = s.ledger) {size : Int}
    (hsize : update.outcome = .ok size) :
    t.adjustHeaders.1.disk = (t.onCore update.content).disk ∧
      t.adjustHeaders.1.registry = t.registry ∧ t.adjustHeaders.1.printed = t.printed ∧
      t.adjustHeaders.2 = .ok size := by
  obtain ⟨hsame, hsize'⟩ := Elf.adjust_twice horderly
    ((congrArg Elf.Update.outcome hupdate).trans hsize) (congrArg Elf.Update.content hupdate)
  rw [← hcore, ← hledger] at hsame hsize'
  generalize hagain : Elf.adjust t.coreContent t.ledger t.coreContent.length = update'
    at hsame hsize'
  obtain ⟨hdisk, hregistry, hprinted, hresult⟩ := adjustHeaders_onCore ht hagain
  rw [hsame, hcore] at hdisk
  rw [hsize'] at hresult
  exact ⟨hdisk, hregistry, hprinted, hresult⟩

/-! ## What an open core and an open map lead to again -/

lemma work_of_failed (h : Attempt.status (injections s dumps).2 = .ok false) :
    work s dumps = conclude (injections s dumps).1 (injections s dumps).2 (.ok 1) := by
  simp only [work, h]

lemma work_of_succeeded (h : Attempt.status (injections s dumps).2 = .ok true) :
    work s dumps = conclude (injections s dumps).1.adjustHeaders.1 (injections s dumps).2
      ((injections s dumps).1.adjustHeaders.2.map fun _ => 0) := by
  simp only [work, h]

/-- The core has a header and a table that the targets of the attempts do not reach. -/
structure Beside (s : Session) (header : Elf.Header) (dumps : List String) : Prop where
  orderly : Elf.Orderly s.coreContent header
  apart : ∀ a ∈ (injections s dumps).2, ∀ i, a.Covers i → ¬ header.Reaches i

namespace Beside

/-- What shows of the data of the attempts is outside of header and table. -/
lemma not_reaches (hbeside : Beside s header dumps) (h : Completed s place dumps) {i : Nat}
    {b : UInt8} (htop : Bytes.top? (s.layers (injections s dumps).2) i = some b) :
    ¬ header.Reaches i := by
  obtain ⟨a, ha, hcovers⟩ := Session.covers_of_top? h.sound.core
    ((row_injections s dumps).eq_attemptOf h.sound.faults h.sources) htop
  exact hbeside.apart a ha i hcovers

/-- The attempts leave header and table alone. -/
lemma orderly_injections (hbeside : Beside s header dumps) (h : Completed s place dumps)
    (hlimit : (injections s dumps).1.coreContent.length < positionLimit) :
    Elf.Orderly (injections s dumps).1.coreContent header := by
  rw [h.coreContent_eq] at hlimit ⊢
  refine hbeside.orderly.of_agrees hlimit (Bytes.length_le_length_overlayAll _ _) ?_
  intro i hi hreaches
  refine Bytes.getElem?_overlayAll_of_none hi ?_
  by_contra hsome
  obtain ⟨b, htop⟩ := Option.ne_none_iff_exists'.1 hsome
  exact hbeside.not_reaches h htop hreaches

/-- What changes header and table at most leaves the data of the attempts in its place. -/
lemma held (hbeside : Beside s header dumps) (h : Completed s place dumps) {laid content : Bytes}
    (hlaid : (injections s dumps).1.coreContent = laid) (hlonger : laid.length ≤ content.length)
    (hkept : ∀ i < laid.length, ¬ header.Reaches i → content[i]? = laid[i]?) :
    Bytes.overlayAll content (s.layers (injections s dumps).2) = content := by
  obtain rfl := hlaid.symm.trans h.coreContent_eq
  refine Bytes.overlayAll_of_agrees hlonger ?_
  intro i b htop
  have hshown := Bytes.getElem?_overlayAll_of_some htop s.coreContent
  exact hkept i (List.getElem?_eq_some_iff.1 hshown).1 (hbeside.not_reaches h htop)

end Beside

/-- Where one of the injections failed, the core holds the data of the others. -/
lemma work_again_of_failed (h : Completed s place dumps)
    (hfailed : Attempt.status (injections s dumps).2 = .ok false) :
    (work s dumps).disk = s.disk ∨ ∃ content, (work s dumps).disk = (s.onCore content).disk ∧
      (work s dumps).Repeats (work (s.onCore content) dumps) := by
  have hfirst := h.disk_eq
  rw [work_of_failed hfailed, disk_conclude]
  split at hfirst
  · have hlaid := h.coreContent_eq
    have hheld := Bytes.overlayAll_of_agrees (Nat.le_of_eq (congrArg List.length hlaid.symm))
      fun i _ _ => congrArg (·[i]?) hlaid
    obtain ⟨hsecond, -⟩ := h.disk_of_held hheld
    obtain ⟨-, hattempts, hregistry, -, hprinted⟩ := h.onCore (injections s dumps).1.coreContent
    refine Or.inr ⟨(injections s dumps).1.coreContent, hfirst, ?_⟩
    rw [work_of_failed (hattempts ▸ hfailed)]
    exact repeats_conclude rfl hattempts hregistry hprinted (hsecond.trans hfirst.symm)
  · exact Or.inl hfirst

/-- Where all injections succeeded, the core holds their data, and its headers cover them. -/
lemma work_again_of_succeeded (h : Completed s place dumps) (hbeside : Beside s header dumps)
    (hsucceeded : Attempt.status (injections s dumps).2 = .ok true) {status : Nat}
    (hstatus : (work s dumps).status = .ok status) :
    ∃ content, (work s dumps).disk = (s.onCore content).disk ∧
      (work s dumps).Repeats (work (s.onCore content) dumps) := by
  obtain ⟨update, hupdate⟩ : ∃ update, Elf.adjust (injections s dumps).1.coreContent
    (injections s dumps).1.ledger (injections s dumps).1.coreContent.length = update := ⟨_, rfl⟩
  obtain ⟨hadjusted, hregistry, hprinted, hresult⟩ :=
    adjustHeaders_onCore h.sound_injections hupdate
  rw [work_of_succeeded hsucceeded] at hstatus ⊢
  rw [status_conclude, hresult] at hstatus
  obtain ⟨size, hsize, -⟩ := Outcome.map_eq_ok.1 hstatus
  rw [Outcome.mapError_eq_ok] at hsize
  have hfirst := hadjusted.trans (h.disk_onCore_injections update.content)
  -- The core still holds the data of the pieces, as the header step did not reach it.
  have hok := (congrArg Elf.Update.outcome hupdate).trans hsize
  have horderly := hbeside.orderly_injections h (Elf.length_lt_of_adjust hok)
  obtain ⟨hlonger, hkept⟩ := Elf.adjust_kept horderly hok (congrArg Elf.Update.content hupdate)
  -- So the second time the pieces leave it alone, and the header step does.
  obtain ⟨hdisk, hcore⟩ := h.disk_of_held (hbeside.held h rfl hlonger hkept)
  obtain ⟨h', hattempts, hregistry', hledger, hprinted'⟩ := h.onCore update.content
  obtain ⟨hadjusted', hregistry'', hprinted'', hresult'⟩ :=
    adjustHeaders_again h'.sound_injections horderly hupdate hcore hledger hsize
  have hsecond := hadjusted'.trans (h'.disk_onCore_injections update.content)
  rw [Session.onCore_onCore] at hsecond
  refine ⟨update.content, by rw [disk_conclude, hfirst], ?_⟩
  rw [work_of_succeeded (hattempts ▸ hsucceeded)]
  refine repeats_conclude ?_ hattempts (hregistry''.trans (hregistry'.trans hregistry.symm))
    (hprinted''.trans (hprinted'.trans hprinted.symm)) (hsecond.trans hfirst.symm)
  rw [hresult, hresult', hsize]
  rfl

/-- **What an open core and an open map lead to again.** -/
lemma work_again (hsound : s.Sound place) (hfile : s.disk.IsFile place)
    (hmap : s.map ≠ .file s.core) (horderly : Elf.Orderly s.coreContent header)
    (hsources : ∀ a ∈ (work s dumps).attempts, ¬ s.ReadsCore a.placement)
    (hbeside : ∀ a ∈ (work s dumps).attempts, ∀ i, a.Covers i → ¬ header.Reaches i)
    {status : Nat} (hstatus : (work s dumps).status = .ok status) :
    (work s dumps).disk = s.disk ∨ ∃ content, (work s dumps).disk = (s.onCore content).disk ∧
      (work s dumps).Repeats (work (s.onCore content) dumps) := by
  cases hall : Attempt.status (injections s dumps).2 with
  | error abort =>
    rw [show work s dumps = conclude (injections s dumps).1 (injections s dumps).2 (.error abort)
      by simp only [work, hall]] at hstatus
    cases hstatus
  | ok all =>
    have hattempts : (work s dumps).attempts = (injections s dumps).2 := by
      cases all with
      | false => rw [work_of_failed hall, attempts_conclude]
      | true => rw [work_of_succeeded hall, attempts_conclude]
    rw [hattempts] at hsources hbeside
    have h : Completed s place dumps :=
      ⟨hsound, hfile, hmap, (Attempt.status_eq_ok_iff.1 hall).1, hsources⟩
    cases all with
    | false => exact work_again_of_failed h hall
    | true => exact Or.inr (work_again_of_succeeded h ⟨horderly, hbeside⟩ hall hstatus)

/-! ## The run again -/

/-- The session of a run that opened its core, and as its map another file. -/
def opened (disk : Disk) (place : Place) (node : Node) (overrides : Registry) (memory : Nat) :
    Session where
  disk := disk
  core := .file place
  map := .lines (SymbolMap.ofContent (disk.content node))
  memory := memory
  registry := overrides

lemma run_eq_work {disk : Disk} {core map : String} {node : Node}
    (hreaches : disk.reaches core = true) (hcore : disk.resolveFile core = .ok (.file place))
    (hspeakable : Disk.isUnspeakable map = false) (hmap : disk.resolveFile map = .ok node)
    (hother : node ≠ .file place) (dumps : List String) (overrides : Registry) (memory : Nat) :
    run disk core map dumps overrides memory
      = work (opened disk place node overrides memory) dumps := by
  simp only [run, hreaches, hcore, hspeakable, hmap, mapSource, if_neg hother, Bool.not_true,
    Bool.false_eq_true, if_false, opened]

/-- A run that does not open both files leaves the disk alone.  Any other is the work of a session,
and on another content of the core of the same session with that content. -/
lemma run_cases {disk : Disk} {core map : String}
    (hcore : disk.resolveFile core = .ok (.file place))
    (hmap : disk.resolveFile map ≠ .ok (.file place)) (dumps : List String)
    (overrides : Registry) (memory : Nat) :
    (run disk core map dumps overrides memory).disk = disk ∨ ∃ node,
      run disk core map dumps overrides memory
        = work (opened disk place node overrides memory) dumps ∧
      ∀ content, run (disk.put (.file place) content) core map dumps overrides memory
        = work ((opened disk place node overrides memory).onCore content) dumps := by
  by_cases hreaches : disk.reaches core = true
  case neg =>
    left
    simp only [run, hreaches, Bool.not_false, if_true]
  cases hspeakable : Disk.isUnspeakable map with
  | true =>
    left
    simp only [run, hreaches, hcore, hspeakable, Bool.not_true, Bool.false_eq_true, if_true,
      if_false]
  | false =>
    cases hnode : disk.resolveFile map with
    | error error =>
      left
      simp only [run, hreaches, hcore, hspeakable, hnode, Bool.not_true, Bool.false_eq_true,
        if_false]
    | ok node =>
      right
      have hother : node ≠ .file place := by
        rintro rfl
        exact hmap hnode
      refine ⟨node, run_eq_work hreaches hcore hspeakable hnode hother dumps overrides memory, ?_⟩
      intro content
      have hput : opened (disk.put (.file place) content) place node overrides memory
          = (opened disk place node overrides memory).onCore content := by
        rw [opened, Disk.content_put_of_ne disk hother]
        rfl
      rw [← hput]
      exact run_eq_work (by rwa [Disk.reaches_put]) (by rwa [Disk.resolveFile_put]) hspeakable
        (by rwa [Disk.resolveFile_put]) hother dumps overrides memory

/-- **A second run.**  For every core that begins with a header and has a table of entries behind
it, every symbol map that is another file, every list of dumps, every list of overrides and every
memory: if a run returns, none of whose sources was the core and none of whose targets reaches
header or table, then a run with the same arguments on what it left has the same status, makes the
same attempts with the same results, and leaves every file as it is. -/
theorem run_again {disk : Disk} {core map : String} {overrides : Registry} {memory : Nat}
    (hcore : disk.resolveFile core = .ok (.file place))
    (horderly : Elf.Orderly (disk.content (.file place)) header)
    (hmap : disk.resolveFile map ≠ .ok (.file place))
    (hsources : ∀ a ∈ (run disk core map dumps overrides memory).attempts,
      disk.resolveFile (Session.sourceName a.placement) ≠ .ok (.file place))
    (hbeside : ∀ a ∈ (run disk core map dumps overrides memory).attempts, ∀ i, a.Covers i →
      ¬ header.Reaches i) {status : Nat}
    (hstatus : (run disk core map dumps overrides memory).status = .ok status) :
    let first := run disk core map dumps overrides memory
    first.Repeats (run first.disk core map dumps overrides memory) := by
  intro first
  rcases run_cases hcore hmap dumps overrides memory with hdisk | ⟨node, hrun, hagain⟩
  · rw [show first.disk = disk from hdisk]
    exact .refl first
  · rw [hrun] at hsources hbeside hstatus
    have hwork := work_again (s := opened disk place node overrides memory) ⟨rfl, rfl, rfl⟩
      (Disk.isFile_of_resolveFile hcore) (by simp [opened]) horderly hsources hbeside hstatus
    rw [← hrun] at hwork
    rcases hwork with hdisk | ⟨content, hdisk, hrepeats⟩
    · rw [show first.disk = disk from hdisk]
      exact .refl first
    · rw [show first.disk = disk.put (.file place) content from hdisk, hagain]
      exact hrepeats

/-- A core with two loaded segments, a map for `a` and `b`, and a dump of `a`. -/
def loadedDisk : Disk where
  home := []
  directories := []
  files :=
    [(["core"], Elf.twoLoads), (["a"], [1, 2, 3, 4]),
      (["map"], "76 1018 4 D a\n78 101a 2 D b\n".toUTF8.toList)]

/-- The override puts its data over that of the dump, and the header step makes the core longer. -/
theorem run_again_loaded :
    let overrides : Registry := [⟨"b", 2, "a", 0, false⟩]
    let first := run loadedDisk "core" "map" ["a"] overrides
    let second := run first.disk "core" "map" ["a"] overrides
    (first.disk.content (.file ["core"])).slice 118 26
        = [1, 2, 1, 2] ++ List.replicate 22 0 ∧
      second.status.toOption = some 0 ∧ second.disk = first.disk := by
  intro overrides first second
  have hplaced : ∀ a ∈ first.attempts, 118 ≤ a.placement.coreOffset ∧
      loadedDisk.resolveFile (Session.sourceName a.placement) ≠ .ok (.file ["core"]) := by
    decide +kernel
  have hstatus : first.status = .ok 0 := by decide +kernel
  have hrepeats := run_again (show loadedDisk.resolveFile "core" = .ok (.file ["core"]) by rfl)
    Elf.orderly_twoLoads (by decide) (fun a ha => (hplaced a ha).2) ?_ hstatus
  · refine ⟨by decide +kernel, ?_, hrepeats.disk⟩
    rw [show second.status = first.status from hrepeats.status, hstatus]
    rfl
  · intro a ha i hcovers hreaches
    have hoffset := (hplaced a ha).1
    have hend : i < 116 := by
      rcases hreaches with hheader | ⟨-, htable⟩
      · exact Nat.lt_trans hheader (by decide)
      · exact htable
    have hle := hcovers.1
    omega

end Command

end CoreSplice
