import CoreSplice.Proofs.Bytes.Layers
import CoreSplice.Proofs.Injection.Containment
import CoreSplice.Proofs.Injection.Faultless

/-!
# Results that are known beforehand

Without faults, how a piece of data ends depends on its source and on its target, and pieces change
no file but the core.  So if no source is the core, how each piece ends is known before any of them
is put into the core, and the pieces that succeed make of the core what layers of their data make
of it.

* `Session.ReadsCore` — the source of a placement is the core.
* `Session.SameOutside` — two sessions that differ in the content of the core at most.
* `Session.attemptOf` — what a piece comes to if it is put into the core now, with
  `Session.attempt_eq`.
* `Session.Harmless` — a piece that neither reads the core nor ends its operation.
* **`Session.Row.eq_attemptOf`**, **`Session.Follows.attempts_eq`** — the attempts of a row, and of
  an operation, are those that are known beforehand.
* `Session.layers` — the data of the attempts that succeeded, with **`Session.Row.coreContent_eq`**
  and **`Session.Row.disk_eq`** for the core and for all files.
-/

namespace CoreSplice

namespace Session

/-- The source of the placement is the core. -/
def ReadsCore (s : Session) (p : Placement) : Prop :=
  s.disk.resolveFile (sourceName p) = .ok s.core

instance (s : Session) (p : Placement) : Decidable (s.ReadsCore p) :=
  inferInstanceAs (Decidable (s.disk.resolveFile (sourceName p) = .ok s.core))

/-- The second session differs from the first in the content of the core at most, as far as pieces
of data look at it. -/
structure SameOutside (s t : Session) : Prop where
  core : t.core = s.core
  coreIsOpen : t.coreIsOpen = s.coreIsOpen
  memory : t.memory = s.memory
  names : ∀ name, t.disk.resolveFile name = s.disk.resolveFile name
  others : ∀ node, node ≠ s.core → t.disk.content node = s.disk.content node

/-- The attempt that a piece comes to if it is put into the core now. -/
def attemptOf (s : Session) (piece : Piece) : Attempt :=
  ⟨piece.placement, piece.slot, (s.splice piece.placement piece.slot).2⟩

variable {s t u : Session} {p : Placement} {slot : Slot} {place : Place}

/-! ## What stays as it is outside the core -/

lemma SameOutside.refl (s : Session) : s.SameOutside s :=
  ⟨rfl, rfl, rfl, fun _ => rfl, fun _ _ => rfl⟩

lemma SameOutside.trans (h₁ : s.SameOutside t) (h₂ : t.SameOutside u) : s.SameOutside u := by
  refine ⟨h₂.core.trans h₁.core, h₂.coreIsOpen.trans h₁.coreIsOpen, h₂.memory.trans h₁.memory,
    fun name => (h₂.names name).trans (h₁.names name), ?_⟩
  intro node hnode
  rw [h₂.others node (h₁.core ▸ hnode), h₁.others node hnode]

lemma resolveFile_splice (s : Session) (p : Placement) (slot : Slot) (name : String) :
    (s.splice p slot).1.disk.resolveFile name = s.disk.resolveFile name := by
  rcases splice_cases s p slot with ⟨_, _, _, _, heq⟩ | ⟨_, data, _, heq⟩
  · rw [heq]
  · rw [heq, (s.settles p slot data).disk]
    rcases writeData_cases s.disk s.core s.writeFault p.coreOffset.toNat data
      with heq | ⟨content, heq⟩
    · rw [heq]
    · rw [heq, Disk.resolveFile_put]

lemma sameOutside_splice (s : Session) (p : Placement) (slot : Slot) :
    s.SameOutside (s.splice p slot).1 where
  core := (sameSetting_splice s p slot).core
  coreIsOpen := (sameSetting_splice s p slot).coreIsOpen
  memory := (sameSetting_splice s p slot).memory
  names := resolveFile_splice s p slot
  others _ hnode := content_splice_of_ne s p slot hnode

lemma SameOutside.readsCore_iff (h : s.SameOutside t) (p : Placement) :
    t.ReadsCore p ↔ s.ReadsCore p := by
  rw [ReadsCore, ReadsCore, h.names, h.core]

lemma SameOutside.readAt (h : s.SameOutside t) (hsource : ¬ s.ReadsCore p) {node : Node}
    (hnode : s.disk.resolveFile (sourceName p) = .ok node) (position count : Nat) :
    t.disk.readAt node position count = s.disk.readAt node position count := by
  refine Disk.readAt_congr (h.others node ?_) position count
  rintro rfl
  exact hsource hnode

lemma SameOutside.sourceBytes (h : s.SameOutside t) (hsource : ¬ s.ReadsCore p) :
    t.sourceBytes p = s.sourceBytes p := by
  simp only [Session.sourceBytes, h.names]
  split
  · rename_i node hnode
    rw [h.readAt hsource hnode]
  · rfl

/-! ## One piece -/

/-- How a write and flush without faults ends depends on the kind of the core. -/
lemma result_store_congr (hs : s.faults = {}) (ht : t.faults = {}) (hcore : t.core = s.core)
    (p : Placement) (position : Nat) (data : Delivery) :
    (t.store p position data).2 = (s.store p position data).2 := by
  simp only [store, hs, ht, hcore, CoreFaults.written_empty, CoreFaults.flushed_empty, writeData]
  rcases s.core with _ | _ | _ | _ <;> simp [passed]

/-- **How a piece ends** does not depend on the content of the core, unless it is the source. -/
theorem SameOutside.result_splice (h : s.SameOutside t) (hs : s.faults = {}) (ht : t.faults = {})
    (hsource : ¬ s.ReadsCore p) : (t.splice p slot).2 = (s.splice p slot).2 := by
  have hopen : t.openSource p = s.openSource p := by
    simp only [openSource, hs, ht, h.names]
  have hseek : t.seekCore p = s.seekCore p := by
    simp only [seekCore, coreSeekProblem?, hs, ht, h.core, h.coreIsOpen]
  simp only [splice, stages, hopen, hseek, afterCoreSeek_eq hs, afterCoreSeek_eq ht]
  cases hnode : s.openSource p with
  | error stop => rfl
  | ok node =>
    have hread := h.readAt hsource (resolveFile_of_openSource hnode)
    have hroom : t.makeRoom p = s.makeRoom p := by
      simp only [makeRoom, GivesRoom, hs, ht, h.memory]
    have hcollect : t.collect p node = s.collect p node := by
      simp only [collect, seekSource, sourceSeekProblem?, hroom, gather, hs, ht, hread]
    cases s.seekCore p with
    | error stop => rfl
    | ok position =>
      dsimp only
      rw [hcollect]
      cases s.collect p node with
      | error stop => rfl
      | ok data =>
        have hresult := result_store_congr hs ht h.core p position data
        dsimp only
        generalize s.store p position data = first at hresult
        generalize t.store p position data = second at hresult
        rcases first with ⟨_, _ | _⟩ <;> rcases second with ⟨_, _ | _⟩ <;> cases hresult <;> rfl

lemma SameOutside.attemptOf (h : s.SameOutside t) (hs : s.faults = {}) (ht : t.faults = {})
    {piece : Piece} (hsource : ¬ s.ReadsCore piece.placement) :
    t.attemptOf piece = s.attemptOf piece := by
  rw [Session.attemptOf, Session.attemptOf, h.result_splice hs ht hsource]

/-- A piece whose data can be had succeeds. -/
lemma Sound.attemptOf_of_data? (h : s.Sound place) {piece : Piece} {name : String}
    (hname : piece.placement.source = some name) (hspeakable : Disk.isUnspeakable name = false)
    {data : Bytes} (hdata : piece.data? s.memory s.disk = some data) :
    (s.attemptOf piece).result = .ok () ∧ s.sourceBytes piece.placement = data := by
  have hdata' : Piece.data? s.memory s.disk ⟨piece.placement, piece.slot⟩ = some data := hdata
  obtain ⟨node, d, hgathers⟩ := h.gathers_of_data? hname hspeakable hdata'
  constructor
  · rw [Session.attemptOf, hgathers.splice_eq]
    exact (settle_eq h.faults h.core piece.placement piece.slot d).1
  · simp only [Piece.data?] at hdata
    rw [Session.sourceBytes, sourceName]
    split at hdata
    · cases hdata
    · rename_i node hnode
      rw [hnode]
      split at hdata
      · exact Option.some.inj hdata
      · cases hdata

/-! ## One attempt -/

/-- What is reported of an attempt that ended with the given result. -/
def reported : Except Stop Unit → List Diagnostic
  | .error (.failure failure) => [.failed failure]
  | _ => []

/-- An attempt is one piece of data, unless there is none. -/
lemma attempt_eq (s : Session) (h : p.size ≠ 0) (slot : Slot) :
    s.attempt p slot
      = ((s.splice p slot).1.report (reported (s.splice p slot).2), [s.attemptOf ⟨p, slot⟩]) := by
  have hquiet (t : Session) : t.report [] = t := by rw [Session.report, List.append_nil]
  simp only [attempt, if_neg h, attemptOf]
  generalize s.splice p slot = done
  rcases done with ⟨t, (failure | abort) | _⟩
  · rfl
  · simp only [reported, hquiet]
  · simp only [reported, hquiet]

lemma mem_attempt {a : Attempt} (h : a ∈ (s.attempt p slot).2) :
    p.size ≠ 0 ∧ a = s.attemptOf ⟨p, slot⟩ := by
  by_cases hsize : p.size = 0
  · rw [attempt, if_pos hsize] at h
    cases h
  · rw [attempt_eq s hsize] at h
    exact ⟨hsize, List.mem_singleton.1 h⟩

/-! ## Rows and operations -/

lemma Row.sameOutside {attempts : List Attempt} (hrow : s.Row attempts t) : s.SameOutside t := by
  induction attempts generalizing s with
  | nil =>
    obtain ⟨hdisk, hcore, -, -⟩ := eq_of_bare hrow
    have hopen : t.bare.coreIsOpen = s.bare.coreIsOpen := by rw [hrow]
    exact ⟨hcore, hopen, memory_of_bare hrow, fun _ => by rw [hdisk], fun _ _ => by rw [hdisk]⟩
  | cons a attempts ih => exact (sameOutside_splice s a.placement a.slot).trans (ih hrow.2)

lemma Row.faults {attempts : List Attempt} (hrow : s.Row attempts t) (hs : s.faults = {}) :
    t.faults = {} := by
  induction attempts generalizing s with
  | nil => exact (eq_of_bare hrow).2.2.2.trans hs
  | cons a attempts ih => exact ih hrow.2 (faults_splice hs a.placement a.slot)

lemma Row.sound {attempts : List Attempt} (hrow : s.Row attempts t) (h : s.Sound place) :
    t.Sound place where
  faults := hrow.faults h.faults
  coreIsOpen := hrow.sameOutside.coreIsOpen.trans h.coreIsOpen
  core := hrow.sameOutside.core.trans h.core

lemma Row.map_eq {attempts : List Attempt} (hrow : s.Row attempts t) : t.map = s.map :=
  (eq_of_bare hrow.bare_eq).2.2.1.trans (setting_after s attempts).2

lemma SameOutside.row (h : s.SameOutside t) (hs : s.faults = {}) (ht : t.faults = {})
    {attempts : List Attempt} (hrow : t.Row attempts u)
    (hsources : ∀ a ∈ attempts, ¬ s.ReadsCore a.placement) :
    ∀ a ∈ attempts, a = s.attemptOf a.piece := by
  induction attempts generalizing t with
  | nil =>
    intro a ha
    cases ha
  | cons b attempts ih =>
    obtain ⟨hresult, hrest⟩ := hrow
    have hnext := h.trans (sameOutside_splice t b.placement b.slot)
    have hfaults := faults_splice ht b.placement b.slot
    intro a ha
    rcases List.mem_cons.1 ha with rfl | ha
    · have hsame : t.attemptOf a.piece = s.attemptOf a.piece :=
        h.attemptOf hs ht (hsources a List.mem_cons_self)
      rw [← hsame, Session.attemptOf, Attempt.piece, ← hresult]
    · exact ih hnext hfaults hrest (fun c hc => hsources c (List.mem_cons_of_mem b hc)) a ha

/-- **The attempts of a row** are those that are known beforehand. -/
theorem Row.eq_attemptOf {attempts : List Attempt} (hrow : s.Row attempts t)
    (hs : s.faults = {}) (hsources : ∀ a ∈ attempts, ¬ s.ReadsCore a.placement) :
    ∀ a ∈ attempts, a = s.attemptOf a.piece :=
  (SameOutside.refl s).row hs hs hrow hsources

lemma map_attemptOf_piece {attempts : List Attempt}
    (h : ∀ a ∈ attempts, a = s.attemptOf a.piece) :
    attempts = (attempts.map Attempt.piece).map s.attemptOf := by
  rw [List.map_map]
  exact ((List.map_congr_left fun a ha => (h a ha).symm).trans (List.map_id attempts)).symm

/-- The piece neither reads the core nor ends the operation that it belongs to. -/
structure Harmless (s : Session) (piece : Piece) : Prop where
  source : ¬ s.ReadsCore piece.placement
  gone : (s.attemptOf piece).abort? = none

/-- An operation that came to its end shows that the pieces of its plan are harmless. -/
lemma Follows.harmless {plan : Plan} {done : Session × List Attempt} (h : s.Follows plan done)
    (hrow : s.Row done.2 done.1) (hs : s.faults = {})
    (hgone : done.2.findSome? Attempt.abort? = none)
    (hsources : ∀ a ∈ done.2, ¬ s.ReadsCore a.placement) :
    ∀ piece ∈ plan.pieces, s.Harmless piece := by
  rw [← (h.finished hgone).1]
  intro piece hpiece
  obtain ⟨a, ha, rfl⟩ := List.mem_map.1 hpiece
  refine ⟨hsources a ha, ?_⟩
  rw [← hrow.eq_attemptOf hs hsources a ha]
  exact List.findSome?_eq_none_iff.1 hgone a ha

/-- **The attempts of an operation** are known from its plan, if the pieces of the plan are
harmless. -/
theorem Follows.attempts_eq {plan : Plan} {done : Session × List Attempt}
    (h : t.Follows plan done) (hrow : t.Row done.2 done.1) (hsame : s.SameOutside t)
    (hs : s.faults = {}) (ht : t.faults = {})
    (hharmless : ∀ piece ∈ plan.pieces, s.Harmless piece) :
    done.2 = plan.pieces.map s.attemptOf ∧ done.1.registry = plan.registry ∧
      done.2.findSome? Attempt.abort? = none := by
  have hpieces : ∀ a ∈ done.2, a.piece ∈ plan.pieces :=
    fun a ha => h.started.subset (List.mem_map_of_mem ha)
  have hattempts := hsame.row hs ht hrow fun a ha => (hharmless a.piece (hpieces a ha)).source
  have hnone : done.2.findSome? Attempt.abort? = none := by
    rw [List.findSome?_eq_none_iff]
    intro a ha
    rw [hattempts a ha]
    exact (hharmless a.piece (hpieces a ha)).gone
  obtain ⟨hall, hregistry⟩ := h.finished hnone
  refine ⟨?_, hregistry, hnone⟩
  rw [← hall]
  exact map_attemptOf_piece hattempts

/-! ## What becomes of the core -/

/-- The data of the attempts that succeeded, where they put it. -/
def layers (s : Session) (attempts : List Attempt) : List Bytes.Layer :=
  (attempts.filter Attempt.isDone).map fun a =>
    ⟨a.placement.coreOffset.toNat, s.sourceBytes a.placement⟩

lemma layers_cons (s : Session) (a : Attempt) (attempts : List Attempt) :
    s.layers (a :: attempts)
      = (if a.isDone then [⟨a.placement.coreOffset.toNat, s.sourceBytes a.placement⟩] else [])
        ++ s.layers attempts := by
  rw [layers, List.filter_cons]
  split <;> rfl

lemma SameOutside.layers (h : s.SameOutside t) {attempts : List Attempt}
    (hsources : ∀ a ∈ attempts, ¬ s.ReadsCore a.placement) :
    t.layers attempts = s.layers attempts := by
  refine List.map_congr_left ?_
  intro a ha
  rw [h.sourceBytes (hsources a (List.mem_filter.1 ha).1)]

/-- A piece without faults lays its data over the core if it succeeds, and changes no file if it
does not. -/
lemma disk_splice (hs : s.faults = {}) (hcore : s.core = .file place) (p : Placement)
    (slot : Slot) :
    (s.splice p slot).1.disk
      = if (s.attemptOf ⟨p, slot⟩).isDone then
          s.disk.put s.core (s.coreContent.overlay p.coreOffset.toNat (s.sourceBytes p))
        else s.disk := by
  rcases splice_cases s p slot with ⟨stop, _, _, _, heq⟩ | ⟨node, data, hdata, heq⟩
  · have hfailed : (s.attemptOf ⟨p, slot⟩).isDone = false := by
      rw [attemptOf, heq, Attempt.isDone]
    rw [hfailed, heq]
    rfl
  · obtain ⟨hresult, hdisk⟩ := settle_eq hs hcore p slot data
    have hdone : (s.attemptOf ⟨p, slot⟩).isDone = true := by
      rw [attemptOf, heq, hresult, Attempt.isDone]
    rw [hdone, heq, hdisk, hdata.toBytes_eq.1, coreContent, hcore]
    rfl

/-- **The core after a row** is the core under the data of the attempts that succeeded. -/
theorem Row.coreContent_eq {attempts : List Attempt} (hrow : s.Row attempts t)
    (hs : s.faults = {}) (hcore : s.core = .file place) (hfile : s.disk.IsFile place)
    (hsources : ∀ a ∈ attempts, ¬ s.ReadsCore a.placement) :
    t.coreContent = Bytes.overlayAll s.coreContent (s.layers attempts) := by
  induction attempts generalizing s with
  | nil =>
    obtain ⟨hdisk, hsame, -⟩ := eq_of_bare hrow
    rw [coreContent, hdisk, hsame]
    rfl
  | cons a attempts ih =>
    obtain ⟨hresult, hrest⟩ := hrow
    have hsame := sameOutside_splice s a.placement a.slot
    have hlater : ∀ b ∈ attempts, ¬ s.ReadsCore b.placement :=
      fun b hb => hsources b (List.mem_cons_of_mem a hb)
    have ha : s.attemptOf ⟨a.placement, a.slot⟩ = a := by rw [attemptOf, ← hresult]
    rw [ih hrest (faults_splice hs _ _) (hsame.core.trans hcore)
      ((isFile_splice s _ _ place).2 hfile)
      (fun b hb hreads => hlater b hb ((hsame.readsCore_iff _).1 hreads)),
      hsame.layers hlater, layers_cons, Bytes.overlayAll_append, coreContent, hsame.core,
      disk_splice hs hcore, ha]
    congr 1
    cases a.isDone with
    | false => rfl
    | true => rw [if_pos rfl, hcore, Disk.content_put_self _ hfile]; rfl

/-- **All files after a row** are those before it, with the core as the row left it. -/
theorem Row.disk_eq {attempts : List Attempt} (hrow : s.Row attempts t) (hs : s.faults = {})
    (hcore : s.core = .file place) (hfile : s.disk.IsFile place) :
    t.disk = if attempts.any Attempt.isDone then s.disk.put s.core t.coreContent
      else s.disk := by
  induction attempts generalizing s with
  | nil => exact (eq_of_bare hrow).1
  | cons a attempts ih =>
    obtain ⟨hresult, hrest⟩ := hrow
    have hsame := sameOutside_splice s a.placement a.slot
    have ha : s.attemptOf ⟨a.placement, a.slot⟩ = a := by rw [attemptOf, ← hresult]
    have hdisk := disk_splice hs hcore a.placement a.slot
    rw [ha] at hdisk
    have hlast := ih hrest (faults_splice hs _ _) (hsame.core.trans hcore)
      ((isFile_splice s _ _ place).2 hfile)
    rw [hsame.core] at hlast
    cases hany : attempts.any Attempt.isDone with
    | true =>
      rw [hlast, List.any_cons, hany, Bool.or_true, if_pos rfl, if_pos rfl, hdisk]
      split
      · exact Disk.put_put ..
      · rfl
    | false =>
      rw [hany, if_neg Bool.false_ne_true, hdisk] at hlast
      rw [List.any_cons, hany, Bool.or_false]
      cases hdone : a.isDone with
      | false => rw [hlast, hdone]; rfl
      | true =>
        -- No later piece succeeded, so the core is as this one left it.
        rw [hdone, if_pos rfl] at hlast
        have hcontent : t.coreContent
            = s.coreContent.overlay a.placement.coreOffset.toNat (s.sourceBytes a.placement) := by
          rw [coreContent, hrest.sameOutside.core, hsame.core, hlast, hcore,
            Disk.content_put_self _ hfile]
        rw [if_pos rfl, hcontent, hlast]

/-- Where no regular file is the core, nothing is changed. -/
lemma disk_splice_of_not_file (h : ∀ place, s.core = .file place → ¬ s.disk.IsFile place)
    (p : Placement) (slot : Slot) : (s.splice p slot).1.disk = s.disk := by
  rcases splice_cases s p slot with ⟨_, _, _, _, heq⟩ | ⟨_, data, _, heq⟩
  · rw [heq]
  · rw [heq, (s.settles p slot data).disk]
    rcases writeData_cases s.disk s.core s.writeFault p.coreOffset.toNat data
      with heq | ⟨content, heq⟩
    · rw [heq]
    · rw [heq, Disk.put_of_not_file h]

lemma Row.disk_of_not_file {attempts : List Attempt} (hrow : s.Row attempts t)
    (h : ∀ place, s.core = .file place → ¬ s.disk.IsFile place) : t.disk = s.disk := by
  induction attempts generalizing s with
  | nil => exact (eq_of_bare hrow).1
  | cons a attempts ih =>
    have hdisk := disk_splice_of_not_file h a.placement a.slot
    refine (ih hrow.2 ?_).trans hdisk
    rw [hdisk, (sameSetting_splice s a.placement a.slot).core]
    exact h

/-- What shows of the layers of attempts shows in the range of one of them. -/
lemma covers_of_top? {attempts : List Attempt} (hcore : s.core = .file place)
    (hattempts : ∀ a ∈ attempts, a = s.attemptOf a.piece) {i : Nat} {b : UInt8}
    (h : Bytes.top? (s.layers attempts) i = some b) : ∃ a ∈ attempts, a.Covers i := by
  obtain ⟨layer, hlayer, hget⟩ := Bytes.exists_of_top?_eq_some h
  obtain ⟨a, ha, rfl⟩ := List.mem_map.1 hlayer
  obtain ⟨hmem, hdone⟩ := List.mem_filter.1 ha
  have hreached : reachedWrite (s.splice a.placement a.slot).2 = true := by
    have hresult := Attempt.isDone_iff.1 hdone
    rw [hattempts a hmem] at hresult
    rw [show (s.splice a.placement a.slot).2 = .ok () from hresult, reachedWrite]
  have hoffset := coreOffset_nonneg hcore hreached
  obtain ⟨hlength, hsize⟩ := length_sourceBytes hreached
  have hin : a.placement.coreOffset.toNat ≤ i ∧
      i < a.placement.coreOffset.toNat + (s.sourceBytes a.placement).length := by
    by_contra hnot
    rw [Bytes.Layer.get?_eq_none_iff.2 hnot] at hget
    cases hget
  refine ⟨a, hmem, ?_, ?_⟩ <;> omega

end Session

end CoreSplice
