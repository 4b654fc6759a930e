import CoreSplice.Proofs.Bytes.Growth
import CoreSplice.Proofs.Injection.Row

/-!
# Failures stay outside the core

Whatever fails while data is put into a core, the core changes in one way only: at the target of a
piece of data, by a prefix of the bytes that stand in the source of the piece.  The prefix is empty
unless all stages before the write were passed, it is the whole of the data if the piece succeeds,
and in between it is what the write took.  Over a sequence of operations the core never gets
shorter, and a byte outside the targets of the pieces that came to the write keeps its value.

* `Attempt.Covers` — the positions that a piece is meant for.
* `Attempt.Lays` — the change that one attempt makes, with the length of the prefix.
* **`Session.performAll_containment`** — the change that a sequence of operations makes.
-/

namespace CoreSplice

/-- The position lies in the range of the core that the attempt is meant for. -/
def Attempt.Covers (a : Attempt) (i : Nat) : Prop :=
  a.placement.coreOffset ≤ i ∧ (i : Int) < a.placement.coreOffset + a.placement.size

/-- The attempt led from one session to another by laying a prefix of `count` bytes of its source
over the core. -/
structure Attempt.Lays (a : Attempt) (before after : Session) (count : Nat) : Prop where
  /-- The attempt ended as its piece of data ends at this point. -/
  result_eq : a.result = (before.splice a.placement a.slot).2
  /-- The prefix stands at the target.  An empty prefix changes nothing. -/
  core_eq : after.coreContent = before.coreContent.overlay a.placement.coreOffset.toNat
    ((before.sourceBytes a.placement).take count)
  /-- No other file is changed. -/
  others : ∀ node, node ≠ before.core → after.disk.content node = before.disk.content node
  /-- What ends before the write lays nothing. -/
  early : reachedWrite a.result = false → count = 0
  /-- What comes to the write has a target in the core and all of its data. -/
  reached : reachedWrite a.result = true → 0 ≤ a.placement.coreOffset ∧
    (before.sourceBytes a.placement).length = a.placement.size.toNat
  /-- What comes to the write lays as much as the write takes. -/
  taken : reachedWrite a.result = true →
    count = Fault.taken before.writeFault a.placement.size.toNat
  /-- What succeeds lays all of the data. -/
  done : a.result = .ok () → count = a.placement.size.toNat
  /-- What falls short lays as many bytes as the failure says. -/
  short : ∀ ident size partly,
    a.result = .error (.failure (.shortWrite ident size (.partly partly))) →
      count = partly

namespace Session

/-! ## One piece -/

/-- The count that a write to a regular file gives is what it took. -/
lemma count_writeData (disk : Disk) (place : Place) (fault : Option Fault) (position : Nat)
    (data : Delivery) (count : Option Nat)
    (h : (writeData disk (.file place) fault position data).2 = .ok count) :
    count.getD 0 = Fault.taken fault data.length := by
  rcases fault with _ | error | limit | _
  · cases h; rfl
  · cases h
  · cases h
    show (data.take limit).length = min limit data.length
    rw [← Delivery.length_toBytes, Delivery.toBytes_take, List.length_take,
      Delivery.length_toBytes]
  · cases h; rfl

/-- What a piece that came to the write ended with says how much the write took. -/
lemma taken_of_splice {s : Session} {place : Place} (hcore : s.core = .file place) (p : Placement)
    (slot : Slot) :
    ((s.splice p slot).2 = .ok () →
        Fault.taken s.writeFault p.size.toNat = p.size.toNat) ∧
      ∀ ident size partly, (s.splice p slot).2
          = .error (.failure (.shortWrite ident size (.partly partly))) →
        Fault.taken s.writeFault p.size.toNat = partly := by
  rcases splice_cases s p slot with ⟨stop, notices, faults, hreached, heq⟩ | ⟨src, data, hdata, heq⟩
  · rw [heq]
    constructor
    · intro h; cases h
    · intro _ _ _ h; cases h; cases hreached
  · have hstored := (s.settles p slot data).stored
    have hcount := count_writeData s.disk place s.writeFault p.coreOffset.toNat data
    rw [← heq, hcore, hdata.toBytes_eq.2.1] at hstored
    rw [hdata.toBytes_eq.2.1] at hcount
    generalize (s.splice p slot).2 = result at hstored ⊢
    cases hstored with
    | full hfull =>
      refine ⟨fun _ => (hcount _ hfull).symm, ?_⟩
      intro _ _ _ h
      cases h
    | failed error =>
      refine ⟨nofun, ?_⟩
      intro _ _ _ h
      cases h
    | short hshort =>
      refine ⟨nofun, ?_⟩
      intro _ _ _ h
      cases h
      exact (hcount _ hshort).symm

/-- A piece that comes to the write of a regular file has a target in it. -/
lemma coreOffset_nonneg {s : Session} {place : Place} (hcore : s.core = .file place)
    {p : Placement} {slot : Slot} (h : reachedWrite (s.splice p slot).2 = true) :
    0 ≤ p.coreOffset := by
  rcases splice_cases s p slot with ⟨stop, notices, faults, hreached, heq⟩ | ⟨src, data, hdata, heq⟩
  · rw [heq, hreached] at h
    cases h
  · obtain ⟨-, -, hposition⟩ := coreSeekProblem?_eq_none.1 hdata.positioned
    rw [hcore] at hposition
    exact hposition.nonneg

/-- **One attempt.**  It lays a prefix of its source bytes over the core and does nothing else to
any file. -/
theorem lays_splice {s : Session} {place : Place} (hcore : s.core = .file place)
    (hfile : s.disk.IsFile place) (p : Placement) (slot : Slot) :
    (Attempt.mk p slot (s.splice p slot).2).Lays s (s.splice p slot).1
      (s.bytesTaken p (s.splice p slot).2) := by
  have hcontent := splice_content hcore hfile p slot
  obtain ⟨hdone, hshort⟩ := taken_of_splice hcore p slot
  have htaken (h : reachedWrite (s.splice p slot).2 = true) :
      s.bytesTaken p (s.splice p slot).2 = Fault.taken s.writeFault p.size.toNat := by
    rw [bytesTaken, h, if_pos rfl]
  constructor
  · rfl
  · rw [coreContent, (sameSetting_splice s p slot).core, hcontent, if_pos rfl]
  · intro node hnode
    rw [hcontent, if_neg hnode]
  · intro hearly
    rw [bytesTaken, hearly]
    rfl
  · intro hreached
    exact ⟨coreOffset_nonneg hcore hreached, (length_sourceBytes hreached).1⟩
  · exact htaken
  · intro (hresult : (s.splice p slot).2 = .ok ())
    rw [htaken (by rw [hresult]; rfl)]
    exact hdone hresult
  · intro ident size partly (hresult : (s.splice p slot).2 = _)
    rw [htaken (by rw [hresult]; rfl)]
    exact hshort ident size partly hresult

end Session

/-- An attempt touches no byte of the core outside its range, and none at all if it did not come
to the write. -/
lemma Attempt.Lays.grows {a : Attempt} {before after : Session} {count : Nat}
    (h : a.Lays before after count) :
    Bytes.Grows (fun i => reachedWrite a.result = true ∧ a.Covers i) before.coreContent
      after.coreContent := by
  rw [h.core_eq]
  cases hreached : reachedWrite a.result with
  | false =>
    rw [h.early hreached, List.take_zero, Bytes.overlay_nil]
    exact Bytes.Grows.refl _ _
  | true =>
    obtain ⟨hoffset, hlength⟩ := h.reached hreached
    refine (Bytes.grows_overlay _ _ _).mono ?_
    rintro i ⟨hfirst, hlast⟩
    rw [List.length_take, hlength] at hlast
    refine ⟨rfl, ?_, ?_⟩ <;> omega

namespace Session

/-! ## Any number of pieces -/

lemma coreContent_of_bare {s t : Session} (h : s.bare = t.bare) :
    s.coreContent = t.coreContent := by
  obtain ⟨hdisk, hcore, -⟩ := eq_of_bare h
  rw [coreContent, coreContent, hdisk, hcore]

/-- The attempts of a row each lay a prefix over the core, in order. -/
lemma Row.lays {s t : Session} {attempts : List Attempt} {place : Place} (h : s.Row attempts t)
    (hcore : s.core = .file place) (hfile : s.disk.IsFile place) {n : Nat} {a : Attempt}
    (ha : attempts[n]? = some a) :
    ∃ count, a.Lays (s.after (attempts.take n)) (s.after (attempts.take (n + 1))) count := by
  have hcore' := (setting_after s (attempts.take n)).1.trans hcore
  have hfile' := (isFile_after s (attempts.take n) place).2 hfile
  have hlays := lays_splice hcore' hfile' a.placement a.slot
  rw [← h.result_eq ha, ← after_take_succ ha] at hlays
  exact ⟨_, hlays⟩

/-- What a row leaves outside the ranges of its attempts. -/
lemma Row.grows {s t : Session} {attempts : List Attempt} {place : Place} (h : s.Row attempts t)
    (hcore : s.core = .file place) (hfile : s.disk.IsFile place) :
    Bytes.Grows (fun i => ∃ a ∈ attempts, reachedWrite a.result = true ∧ a.Covers i)
      s.coreContent t.coreContent := by
  induction attempts generalizing s with
  | nil =>
    rw [coreContent_of_bare h]
    exact Bytes.Grows.refl _ _
  | cons a attempts ih =>
    obtain ⟨hresult, hrest⟩ := h
    have hsame := (sameSetting_splice s a.placement a.slot).core
    have hlays := lays_splice hcore hfile a.placement a.slot
    rw [← hresult] at hlays
    have hgrows := ih hrest (hsame.trans hcore)
      ((isFile_splice s a.placement a.slot place).2 hfile)
    refine (hlays.grows.mono ?_).trans (hgrows.mono ?_)
    · intro i hi
      exact ⟨a, List.mem_cons_self, hi⟩
    · rintro i ⟨b, hb, hi⟩
      exact ⟨b, List.mem_cons_of_mem a hb, hi⟩

/-- **Failures stay outside the core.**  Whatever operations are performed, in whatever order, and
whatever faults they meet: each attempt lays a prefix of its source bytes over the core, the
attempts together are all that happens to it, and outside the ranges of those that came to the
write every byte is kept and every new byte is zero. -/
theorem performAll_containment {s : Session} {place : Place} (hcore : s.core = .file place)
    (hfile : s.disk.IsFile place) (operations : List Operation) :
    let t := (s.performAll operations).1
    let attempts := (s.performAll operations).2
    (∀ (n : Nat) (a : Attempt), attempts[n]? = some a →
        ∃ count, a.Lays (s.after (attempts.take n)) (s.after (attempts.take (n + 1))) count) ∧
      t.coreContent = (s.after attempts).coreContent ∧
      (∀ node, node ≠ s.core → t.disk.content node = s.disk.content node) ∧
      Bytes.Grows (fun i => ∃ a ∈ attempts, reachedWrite a.result = true ∧ a.Covers i)
        s.coreContent t.coreContent := by
  intro t attempts
  have hrow : s.Row attempts t := row_performAll s operations
  refine ⟨?_, coreContent_of_bare hrow.bare_eq, ?_, hrow.grows hcore hfile⟩
  · intro n a ha
    exact hrow.lays hcore hfile ha
  · intro node hnode
    rw [(eq_of_bare hrow.bare_eq).1, content_after_of_ne s attempts hnode]

/-- A core that cannot be put to its first position, and that takes one byte of the first write. -/
def faulty : Session where
  disk :=
    { home := []
      directories := []
      files := [(["core"], List.replicate 8 0xee), (["a"], [1, 2, 3, 4]), (["b"], [5, 6])] }
  core := .file ["core"]
  map := .lines [some ⟨2, 0x100, 4, 'D', "a"⟩, some ⟨10, 0x200, 2, 'D', "b"⟩]
  faults :=
    { core := { seek := [some (.error (.numbered 5))], write := [some (.short 1)] } }

/-- One failed seek, one write that falls short, and one piece behind the end of the core. -/
theorem performAll_containment_faulty :
    let t := faulty.performAll [.inject "a", .inject "a", .inject "b", .leftovers, .drain]
    t.2.map (fun a => reachedWrite a.result) = [false, true, true] ∧
      t.1.coreContent = [0xee, 0xee, 1, 0xee, 0xee, 0xee, 0xee, 0xee, 0, 0, 5, 6] ∧
      Bytes.Grows (fun i => ∃ a ∈ t.2, reachedWrite a.result = true ∧ a.Covers i)
        faulty.coreContent t.1.coreContent :=
  ⟨by decide +kernel, by decide +kernel,
    (performAll_containment (rfl : faulty.core = .file ["core"]) (by decide +kernel) _).2.2.2⟩

end Session

end CoreSplice
