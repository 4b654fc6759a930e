import CoreSplice.Proofs.Injection.Plan

/-!
# Plans without faults

When nothing fails but what the files themselves refuse, what a piece of data leads to can be said
without the row of stages: the data is there or it is not, and if it is, it is laid over the core.

* `Piece.data?` — the data of a piece, if it can be had and has a place to go.
* `Piece.layAll` — pieces laid over the core in turn, with whether each had its data.
* **`Session.splice_faultless`** — one piece.
* **`Session.Row.layAll_eq`** — a row of attempts.
-/

namespace CoreSplice

/-! ## Laying pieces over a core -/

namespace Piece

/-- The bytes of the piece, if its source leads to a file that holds all of them, the memory has
room for them, and there is a position for them in the source and in the core. -/
def data? (memory : Nat) (disk : Disk) (piece : Piece) : Option Bytes :=
  let p := piece.placement
  match disk.resolveFile (p.source.getD "") with
  | .error _ => none
  | .ok node =>
    let data := disk.readAt node p.sourceOffset.toNat p.size.toNat
    if (0 ≤ p.coreOffset ∧ p.coreOffset < positionLimit) ∧
        (0 ≤ p.sourceOffset ∧ p.sourceOffset < positionLimit) ∧
        HasRoom memory p.size ∧ data.length = p.size.toNat then
      some data.toBytes
    else none

/-- The disk after the piece.  Without its data nothing is changed. -/
def lay (memory : Nat) (place : Place) (disk : Disk) (piece : Piece) : Disk :=
  match piece.data? memory disk with
  | none => disk
  | some data =>
    disk.put (.file place)
      ((disk.content (.file place)).overlay piece.placement.coreOffset.toNat data)

/-- The disk after pieces in turn, with whether each of them had its data when it was due. -/
def layAll (memory : Nat) (place : Place) (disk : Disk) : List Piece → Disk × List (Piece × Bool)
  | [] => (disk, [])
  | piece :: rest =>
    let (last, results) := layAll memory place (piece.lay memory place disk) rest
    (last, (piece, (piece.data? memory disk).isSome) :: results)

end Piece

namespace Session

/-- Nothing fails, and the core is an open regular file. -/
structure Sound (s : Session) (place : Place) : Prop where
  faults : s.faults = {}
  coreIsOpen : s.coreIsOpen = true
  core : s.core = .file place

variable {s : Session} {place : Place} {p : Placement} {slot : Slot}

/-! ## The stages without faults -/

lemma afterCoreSeek_eq (h : s.faults = {}) : s.afterCoreSeek = s := by
  have hseek : s.faults.core.positioned 1 = (none, s.faults.core) := by
    rw [h]; rfl
  simp only [afterCoreSeek, hseek, withCoreFaults]

lemma Sound.coreSeekProblem?_eq_none (h : s.Sound place) {position : Int} :
    s.coreSeekProblem? position = none ↔ 0 ≤ position ∧ position < positionLimit := by
  rw [Session.coreSeekProblem?_eq_none, h.faults, h.coreIsOpen, h.core]
  constructor
  · rintro ⟨-, -, hposition⟩
    exact ⟨hposition.nonneg, (Node.hasPosition_iff_of_nonneg hposition.nonneg).1 hposition⟩
  · rintro ⟨hnonneg, hlimit⟩
    exact ⟨rfl, rfl, (Node.hasPosition_iff_of_nonneg hnonneg).2 hlimit⟩

lemma Sound.sourceSeekProblem?_eq_none (h : s.Sound place) {name : String} {node : Node}
    {position : Int} (hnonneg : 0 ≤ position) :
    s.sourceSeekProblem? name node position = none ↔ position < positionLimit := by
  rw [Session.sourceSeekProblem?_eq_none, h.faults, Node.hasPosition_iff_of_nonneg hnonneg]
  exact and_iff_right rfl

lemma Sound.gather_eq_ok (h : s.Sound place) {node : Node} {position size : Nat} {d : Delivery} :
    s.gather p node position size = .ok d ↔
      s.disk.readAt node position size = d ∧ d.length = size := by
  have hread : (s.faults.ofSource (sourceName p)).read = none := by rw [h.faults]; rfl
  have hpassed : passed none (s.disk.readAt node position size)
      = s.disk.readAt node position size := rfl
  simp only [gather, hread]
  rw [hpassed]
  constructor
  · intro hgather
    split at hgather
    · rename_i hlength
      cases hgather
      exact ⟨rfl, hlength⟩
    · cases hgather
  · rintro ⟨rfl, hlength⟩
    rw [if_pos hlength]

/-- Without faults no memory is in use. -/
lemma Sound.givesRoom_iff (h : s.Sound place) : s.GivesRoom p ↔ HasRoom s.memory p.size := by
  rw [GivesRoom, h.faults]
  exact and_iff_right rfl

/-- What a name leads to is opened, unless the name cannot be spoken, which ends everything. -/
lemma Sound.openSource_eq_ok (h : s.Sound place) {name : String} (hname : p.source = some name)
    (hspeakable : Disk.isUnspeakable name = false) {node : Node} :
    s.openSource p = .ok node ↔ s.disk.resolveFile name = .ok node := by
  have hopen : Fault.error? (s.faults.ofSource name).opening = none := by rw [h.faults]; rfl
  simp only [openSource, hname, hopen, hspeakable]
  cases s.disk.resolveFile name <;> simp

lemma store_eq (h : s.faults = {}) (hcore : s.core = .file place) (position : Nat) (d : Delivery) :
    s.store p position d = ({ s with disk := s.disk.write (.file place) position d }, .ok ()) := by
  have hwritten : s.faults.core.written = (none, s.faults.core) := by rw [h]; rfl
  have hflushed : s.faults.core.flushed = (none, s.faults.core) := by rw [h]; rfl
  simp only [store, hwritten, hflushed, writeData, passed, hcore, withCoreFaults, if_true]

lemma settle_eq (h : s.faults = {}) (hcore : s.core = .file place) (p : Placement) (slot : Slot)
    (d : Delivery) :
    (s.settle p slot d).2 = .ok () ∧
      (s.settle p slot d).1.disk = s.disk.put (.file place)
        ((s.disk.content (.file place)).overlay p.coreOffset.toNat d.toBytes) := by
  simp only [settle, afterCoreSeek_eq h, store_eq h hcore]
  refine ⟨trivial, ?_⟩
  rw [← Disk.write_eq_put]
  rfl

lemma faults_store (h : s.faults = {}) (position : Nat) (d : Delivery) :
    (s.store p position d).1.faults = {} := by
  have hwritten : s.faults.core.written = (none, {}) := by rw [h]; rfl
  have hempty (faults : FaultPlan) (hfaults : faults = {}) : { faults with core := {} } = faults :=
    by rw [hfaults]
  simp only [store, hwritten, CoreFaults.flushed_empty, withCoreFaults, hempty s.faults h]
  split
  · exact h
  · split <;> exact h

/-- Without faults nothing comes up that would be a fault for the next piece. -/
lemma faults_splice (h : s.faults = {}) (p : Placement) (slot : Slot) :
    (s.splice p slot).1.faults = {} := by
  have hafter : s.faults.afterSource = {} := by rw [h]; rfl
  simp only [Session.splice, stages, afterCoreSeek_eq h]
  cases s.openSource p with
  | error stop => exact hafter
  | ok node =>
    cases s.seekCore p with
    | error stop => exact hafter
    | ok position =>
      dsimp only
      cases s.collect p node with
      | error stop => exact hafter
      | ok d =>
        have hstored : (s.store p position d).1.faults = {} := faults_store h position d
        dsimp only
        generalize s.store p position d = done at hstored
        have hlast : done.1.faults.afterSource = {} := by rw [hstored]; rfl
        rcases done with ⟨t, _ | _⟩ <;> exact hlast

/-! ## One piece without faults -/

lemma Sound.splice (h : s.Sound place) (p : Placement) (slot : Slot) :
    (s.splice p slot).1.Sound place := by
  have hsame := sameSetting_splice s p slot
  exact ⟨faults_splice h.faults p slot, hsame.coreIsOpen.trans h.coreIsOpen,
    hsame.core.trans h.core⟩

/-- What is collected is the data of the piece. -/
lemma Sound.data?_of_gathers (h : s.Sound place) (hoffset : 0 ≤ p.sourceOffset) {node : Node}
    {d : Delivery} (hgathers : s.Gathers p node d) :
    Piece.data? s.memory s.disk ⟨p, slot⟩ = some d.toBytes := by
  have hnode : s.disk.resolveFile (p.source.getD "") = .ok node :=
    resolveFile_of_openSource hgathers.opened
  have hcollected := hgathers.collected
  rw [afterCoreSeek_eq h.faults] at hcollected
  obtain ⟨position, hseek, hrest⟩ := Outcome.bind_eq_ok.1 hcollected
  obtain ⟨size, hroom, hgather⟩ := Outcome.bind_eq_ok.1 hrest
  obtain ⟨hsource, rfl⟩ := seekSource_eq_ok.1 hseek
  obtain ⟨hgives, rfl⟩ := makeRoom_eq_ok.1 hroom
  obtain ⟨rfl, hlength⟩ := h.gather_eq_ok.1 hgather
  simp only [Piece.data?, hnode]
  exact if_pos ⟨h.coreSeekProblem?_eq_none.1 hgathers.positioned,
    ⟨hoffset, (h.sourceSeekProblem?_eq_none hoffset).1 hsource⟩, h.givesRoom_iff.1 hgives, hlength⟩

lemma Sound.gathers_of_data? (h : s.Sound place) {name : String} (hname : p.source = some name)
    (hspeakable : Disk.isUnspeakable name = false) {bytes : Bytes}
    (hdata : Piece.data? s.memory s.disk ⟨p, slot⟩ = some bytes) :
    ∃ node d, s.Gathers p node d := by
  simp only [Piece.data?, hname, Option.getD_some] at hdata
  split at hdata
  · cases hdata
  · rename_i node hnode
    split at hdata
    · rename_i hall
      obtain ⟨hcore, ⟨hoffset, hsource⟩, hhas, hlength⟩ := hall
      have hseek : s.seekSource p node = .ok p.sourceOffset.toNat :=
        seekSource_eq_ok.2 ⟨(h.sourceSeekProblem?_eq_none hoffset).2 hsource, rfl⟩
      have hroom : s.makeRoom p = .ok p.size.toNat :=
        makeRoom_eq_ok.2 ⟨h.givesRoom_iff.2 hhas, rfl⟩
      have hcollected : s.collect p node
          = .ok (s.disk.readAt node p.sourceOffset.toNat p.size.toNat) :=
        Outcome.bind_eq_ok.2 ⟨_, hseek, Outcome.bind_eq_ok.2
          ⟨_, hroom, h.gather_eq_ok.2 ⟨rfl, hlength⟩⟩⟩
      rw [← afterCoreSeek_eq h.faults] at hcollected
      exact ⟨node, _, (h.openSource_eq_ok hname hspeakable).2 hnode,
        h.coreSeekProblem?_eq_none.2 hcore, hcollected⟩
    · cases hdata

/-- A source that cannot be spoken ends everything. -/
lemma Sound.speakable (h : s.Sound place) {name : String} (hname : p.source = some name)
    (hgone : (Attempt.mk p slot (s.splice p slot).2).abort? = none) :
    Disk.isUnspeakable name = false := by
  by_contra hname'
  have hopening : Fault.error? (s.faults.ofSource name).opening = none := by rw [h.faults]; rfl
  have hopen : s.openSource p = .error (.abort (.unspeakableName name)) := by
    simp only [openSource, hname, hopening]
    rw [if_pos (by simpa using hname')]
  simp [Session.splice, stages, hopen, Attempt.abort?] at hgone

/-- **One piece without faults.**  It is laid over the core if its data can be had, and otherwise
nothing is changed. -/
theorem splice_faultless (h : s.Sound place) (hsource : p.source.isSome)
    (hoffset : 0 ≤ p.sourceOffset)
    (hgone : (Attempt.mk p slot (s.splice p slot).2).abort? = none) :
    (s.splice p slot).1.disk = Piece.lay s.memory place s.disk ⟨p, slot⟩ ∧
      (Attempt.mk p slot (s.splice p slot).2).isDone
        = (Piece.data? s.memory s.disk ⟨p, slot⟩).isSome := by
  obtain ⟨name, hname⟩ := Option.isSome_iff_exists.1 hsource
  rcases splice_cases s p slot with ⟨stop, _, _, hreached, heq⟩ | ⟨node, d, hgathers, heq⟩
  · have hnone : Piece.data? s.memory s.disk ⟨p, slot⟩ = none := by
      cases hdata : Piece.data? s.memory s.disk ⟨p, slot⟩ with
      | none => rfl
      | some bytes =>
        obtain ⟨node, d, hgathers⟩ :=
          h.gathers_of_data? hname (h.speakable hname hgone) hdata
        have hresult := settle_eq h.faults h.core p slot d
        rw [← hgathers.splice_eq, heq] at hresult
        cases hresult.1
    rw [Piece.lay, hnone, heq]
    exact ⟨rfl, rfl⟩
  · obtain ⟨hresult, hdisk⟩ := settle_eq h.faults h.core p slot d
    rw [Piece.lay, h.data?_of_gathers hoffset hgathers, heq, hresult, hdisk]
    exact ⟨rfl, rfl⟩

/-! ## A row without faults -/

lemma Sound.of_bare {t : Session} (h : s.Sound place) (hbare : t.bare = s.bare) :
    t.Sound place := by
  obtain ⟨-, hcore, -, hfaults⟩ := eq_of_bare hbare
  have hopen : t.bare.coreIsOpen = s.bare.coreIsOpen := by rw [hbare]
  exact ⟨hfaults.trans h.faults, hopen.trans h.coreIsOpen, hcore.trans h.core⟩

/-- **A row of attempts without faults** lays its pieces over the core in turn. -/
theorem Row.layAll_eq {t : Session} {attempts : List Attempt} (hrow : s.Row attempts t)
    (h : s.Sound place) (hgone : attempts.findSome? Attempt.abort? = none)
    (hpieces : ∀ a ∈ attempts, a.placement.source.isSome ∧ 0 ≤ a.placement.sourceOffset) :
    Piece.layAll s.memory place s.disk (attempts.map Attempt.piece)
        = (t.disk, attempts.map fun a => (a.piece, a.isDone)) ∧ t.Sound place := by
  induction attempts generalizing s with
  | nil =>
    obtain ⟨hdisk, -⟩ := eq_of_bare hrow
    exact ⟨by rw [hdisk]; rfl, h.of_bare hrow⟩
  | cons a attempts ih =>
    obtain ⟨hresult, hrest⟩ := hrow
    obtain ⟨hsource, hoffset⟩ := hpieces a List.mem_cons_self
    rw [List.findSome?_cons] at hgone
    have ha : (Attempt.mk a.placement a.slot (s.splice a.placement a.slot).2).abort? = none := by
      rw [← hresult]
      cases habort : a.abort? with
      | none => rfl
      | some abort => rw [habort] at hgone; cases hgone
    obtain ⟨hdisk, hdone⟩ := splice_faultless h hsource hoffset ha
    rw [← hresult] at ha hdone
    rw [show a.abort? = none from ha] at hgone
    obtain ⟨hlast, hsound⟩ := ih hrest (h.splice a.placement a.slot) hgone
      fun b hb => hpieces b (List.mem_cons_of_mem a hb)
    rw [hdisk, (sameSetting_splice s a.placement a.slot).memory] at hlast
    refine ⟨?_, hsound⟩
    have hlast' : Piece.layAll s.memory place (a.piece.lay s.memory place s.disk)
        (attempts.map Attempt.piece) = _ := hlast
    have hdone' : (a.piece.data? s.memory s.disk).isSome = a.isDone := hdone.symm
    rw [List.map_cons, List.map_cons, Piece.layAll, hlast', hdone']

end Session

end CoreSplice
