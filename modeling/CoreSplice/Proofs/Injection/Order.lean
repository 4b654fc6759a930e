import Mathlib.Data.List.Perm.Basic
import CoreSplice.Proofs.Injection.Calls
import CoreSplice.Proofs.Injection.Notes
import CoreSplice.Proofs.Injection.Steady
import CoreSplice.Proofs.Override.Independence

/-!
# Dumps in another order

Dumps of different idents do not get in each other's way: none spends an override of another one,
and if neither a source nor the symbol map is the core, none changes what another one reads.  So if
their targets do not meet either, they may be injected in any order, whether all of their pieces
succeed or not.  A map that is the core may gain a line for one dump from another
(`Session.injectAll_not_perm`).

* `Plan.inTurn_dump` — the plan for dumps of different idents.
* `Session.Independent` — such dumps beside a map that stays as it is, none of which reads the core
  or ends the row.
* `Session.Independent.calls_eq` — the attempts of each dump do not depend on the dumps before it.
* `Session.Independent.disk_eq_of_perm` — the files in the end do not depend on the order.
* **`Session.injectAll_perm`** — all that dumps in another order lead to, and a leftover pass behind
  them.
-/

namespace CoreSplice

namespace Plan

/-! ## The plan for dumps of different idents -/

/-- The overrides after a dump of the ident. -/
def spent (map : SymbolMap) (registry : Registry) (ident : String) : Registry :=
  match map.target? ident .direct with
  | none => registry
  | some _ => registry.spend ident

lemma registry_dump (map : SymbolMap) (registry : Registry) (path : String) :
    (dump map registry path).registry = spent map registry (Path.lastComponent path) := by
  simp only [dump, andThen, direct, indirect, spent, Registry.spend, idle]
  cases map.target? (Path.lastComponent path) .direct <;>
    cases map.target? (Path.lastComponent path) .indirect <;>
    cases registry.firstFor? (Path.lastComponent path) <;> rfl

/-- A plan for a dump depends on the override that is next for its ident. -/
lemma pieces_dump_congr {map : SymbolMap} {registry registry' : Registry} {path : String}
    (h : registry'.firstFor? (Path.lastComponent path)
      = registry.firstFor? (Path.lastComponent path)) :
    (dump map registry' path).pieces = (dump map registry path).pieces := by
  simp only [dump, andThen, direct, indirect, idle, h]
  cases map.target? (Path.lastComponent path) .direct <;>
    cases map.target? (Path.lastComponent path) .indirect <;>
    cases registry.firstFor? (Path.lastComponent path) <;> rfl

lemma firstFor?_spent_of_ne (map : SymbolMap) (registry : Registry) {ident other : String}
    (hne : ident ≠ other) :
    (spent map registry other).firstFor? ident = registry.firstFor? ident := by
  rw [spent]
  split
  · rfl
  · exact Registry.firstFor?_spend_of_ne hne

lemma spent_comm (map : SymbolMap) (registry : Registry) (ident other : String) :
    spent map (spent map registry ident) other = spent map (spent map registry other) ident := by
  simp only [spent]
  split <;> split
  · rfl
  · rfl
  · rfl
  · exact Registry.spend_comm registry ident other

/-- **Dumps of different idents** each make the plan that they make alone. -/
theorem inTurn_dump (map : SymbolMap) (registry : Registry) {paths : List String}
    (hdistinct : (paths.map Path.lastComponent).Nodup) :
    inTurn (dump map) registry paths
      = ⟨paths.flatMap fun path => (dump map registry path).pieces,
        (paths.map Path.lastComponent).foldl (spent map) registry⟩ := by
  induction paths generalizing registry with
  | nil => rfl
  | cons path paths ih =>
    rw [List.map_cons, List.nodup_cons] at hdistinct
    have hrest : (paths.flatMap fun other =>
        (dump map (spent map registry (Path.lastComponent path)) other).pieces)
          = paths.flatMap fun other => (dump map registry other).pieces := by
      refine List.flatMap_congr ?_
      intro other hother
      refine pieces_dump_congr (firstFor?_spent_of_ne map registry ?_)
      exact fun heq => hdistinct.1 (heq ▸ List.mem_map_of_mem hother)
    rw [inTurn, andThen, registry_dump, ih _ hdistinct.2, hrest, List.flatMap_cons, List.map_cons,
      List.foldl_cons]

/-- Idents in another order spend the same overrides. -/
lemma foldl_spent_of_perm (map : SymbolMap) (registry : Registry) {idents idents' : List String}
    (hperm : idents'.Perm idents) :
    idents'.foldl (spent map) registry = idents.foldl (spent map) registry := by
  have hcomm : RightCommutative (spent map) := ⟨spent_comm map⟩
  exact hperm.foldl_eq registry

/-- The pieces of a dump are for its ident. -/
lemma ident_of_mem_dump {map : SymbolMap} {registry : Registry} {path : String} {piece : Piece}
    (h : piece ∈ (dump map registry path).pieces) :
    piece.placement.ident = Path.lastComponent path := by
  cases mem_pieces_dump.1 h <;> rfl

end Plan

namespace Session

variable {s t t' : Session} {place : Place} {paths paths' : List String}

/-! ## The attempts of each dump -/

/-- The attempts that a dump makes if it is the first. -/
def alone (s : Session) (path : String) : List Attempt :=
  (Plan.dump s.symbolMap s.registry path).pieces.map s.attemptOf

/-- A later session in which the dumps make the attempts that they make at first. -/
lemma SameOutside.calls_eq (h : s.SameOutside t) (hs : s.faults = {}) (ht : t.faults = {})
    (hmap : t.map ≠ .file t.core) (hsame : t.symbolMap = s.symbolMap)
    (hfirst : ∀ path ∈ paths, t.registry.firstFor? (Path.lastComponent path)
      = s.registry.firstFor? (Path.lastComponent path))
    (hdistinct : (paths.map Path.lastComponent).Nodup)
    (hharmless : ∀ path ∈ paths, ∀ piece ∈ (Plan.dump s.symbolMap s.registry path).pieces,
      s.Harmless piece) :
    t.calls paths = paths.map fun path => (path, s.alone path) := by
  induction paths generalizing t with
  | nil => rfl
  | cons path paths ih =>
    rw [List.map_cons, List.nodup_cons] at hdistinct
    have hrow := row_injectDump t path
    have hfollows := follows_injectDump t path
    have hpieces : (Plan.dump s.symbolMap t.registry path).pieces
        = (Plan.dump s.symbolMap s.registry path).pieces :=
      Plan.pieces_dump_congr (hfirst path List.mem_cons_self)
    have hown : ∀ piece ∈ (Plan.dump t.symbolMap t.registry path).pieces, s.Harmless piece := by
      rw [hsame, hpieces]
      exact hharmless path List.mem_cons_self
    obtain ⟨hattempts, hregistry, -⟩ := hfollows.attempts_eq hrow h hs ht hown
    obtain ⟨hsame', hmap'⟩ := symbolMap_of_row hrow hmap
    rw [hsame, hpieces] at hattempts
    rw [calls, hattempts, List.map_cons, ih (h.trans hrow.sameOutside) (hrow.faults ht) hmap'
      (hsame'.trans hsame) ?_ hdistinct.2
      fun other hother => hharmless other (List.mem_cons_of_mem path hother)]
    · rfl
    · intro other hother
      rw [hregistry, Plan.registry_dump, Plan.firstFor?_spent_of_ne,
        hfirst other (List.mem_cons_of_mem path hother)]
      exact fun heq => hdistinct.1 (heq ▸ List.mem_map_of_mem hother)

/-- Dumps of different idents, none of which reads the core or ends the row.  The symbol map is not
the core either. -/
structure Independent (s : Session) (paths : List String) : Prop where
  faults : s.faults = {}
  map : s.map ≠ .file s.core
  distinct : (paths.map Path.lastComponent).Nodup
  harmless : ∀ path ∈ paths, ∀ piece ∈ (Plan.dump s.symbolMap s.registry path).pieces,
    s.Harmless piece

lemma Independent.of_perm (h : s.Independent paths) (hperm : paths'.Perm paths) :
    s.Independent paths' :=
  ⟨h.faults, h.map, (hperm.map Path.lastComponent).nodup_iff.2 h.distinct,
    fun path hpath => h.harmless path (hperm.subset hpath)⟩

/-- **The attempts of each dump** are those that it makes alone. -/
theorem Independent.calls_eq (h : s.Independent paths) :
    s.calls paths = paths.map fun path => (path, s.alone path) :=
  (SameOutside.refl s).calls_eq h.faults h.faults h.map rfl (fun _ _ => rfl) h.distinct h.harmless

lemma Independent.attempts_eq (h : s.Independent paths) :
    (s.injectAll paths).2 = paths.flatMap s.alone ∧
      (s.injectAll paths).1.registry
        = (paths.map Path.lastComponent).foldl (Plan.spent s.symbolMap) s.registry ∧
      (s.injectAll paths).2.findSome? Attempt.abort? = none := by
  have hfollows := follows_injectAll s h.map paths
  rw [Plan.inTurn_dump _ _ h.distinct] at hfollows
  obtain ⟨hattempts, hregistry, hgone⟩ := hfollows.attempts_eq (row_injectAll s paths) (.refl s)
    h.faults h.faults fun piece hpiece => by
      obtain ⟨path, hpath, hpiece⟩ := List.mem_flatMap.1 hpiece
      exact h.harmless path hpath piece hpiece
  refine ⟨?_, hregistry, hgone⟩
  rw [hattempts, List.map_flatMap]
  rfl

lemma Independent.source (h : s.Independent paths) :
    ∀ a ∈ (s.injectAll paths).2, ¬ s.ReadsCore a.placement := by
  rw [h.attempts_eq.1]
  intro a ha
  obtain ⟨path, hpath, ha⟩ := List.mem_flatMap.1 ha
  obtain ⟨piece, hpiece, rfl⟩ := List.mem_map.1 ha
  exact (h.harmless path hpath piece hpiece).source

/-! ## The files in the end -/

/-- The ranges of attempts for different idents do not meet. -/
def Disjoint (attempts : List Attempt) : Prop :=
  ∀ a ∈ attempts, ∀ b ∈ attempts, a.placement.ident ≠ b.placement.ident →
    ∀ i, ¬ (a.Covers i ∧ b.Covers i)

/-- Ranges do not meet if one of them ends where the other starts, or before. -/
lemma disjoint_of_ranges {attempts : List Attempt}
    (h : ∀ a ∈ attempts, ∀ b ∈ attempts, a.placement.ident ≠ b.placement.ident →
      a.placement.coreOffset + a.placement.size ≤ b.placement.coreOffset ∨
        b.placement.coreOffset + b.placement.size ≤ a.placement.coreOffset) :
    Disjoint attempts := by
  rintro a ha b hb hne i ⟨⟨hle₁, hlt₁⟩, ⟨hle₂, hlt₂⟩⟩
  have hapart := h a ha b hb hne
  omega

lemma layers_flatMap (s : Session) (attempts : String → List Attempt) (paths : List String) :
    s.layers (paths.flatMap attempts) = paths.flatMap fun path => s.layers (attempts path) := by
  simp only [layers, List.filter_flatMap, List.map_flatMap]

lemma Independent.pairwise_apart (h : s.Independent paths) (hcore : s.core = .file place)
    (hdisjoint : Disjoint (s.injectAll paths).2) :
    paths.Pairwise fun path other =>
      Bytes.Apart (s.layers (s.alone path)) (s.layers (s.alone other)) := by
  rw [h.attempts_eq.1] at hdisjoint
  have hknown (path : String) : ∀ a ∈ s.alone path, a = s.attemptOf a.piece := by
    intro a ha
    obtain ⟨piece, -, rfl⟩ := List.mem_map.1 ha
    rfl
  have hident (path : String) : ∀ a ∈ s.alone path,
      a.placement.ident = Path.lastComponent path := by
    intro a ha
    obtain ⟨piece, hpiece, rfl⟩ := List.mem_map.1 ha
    exact Plan.ident_of_mem_dump hpiece
  refine (List.pairwise_map.1 h.distinct).imp_of_mem ?_
  intro path other hpath hother hne i
  by_contra hboth
  rw [not_or, ← Ne, ← Ne, Option.ne_none_iff_exists', Option.ne_none_iff_exists'] at hboth
  obtain ⟨⟨b, hb⟩, ⟨c, hc⟩⟩ := hboth
  obtain ⟨a₁, ha₁, hcovers₁⟩ := covers_of_top? hcore (hknown path) hb
  obtain ⟨a₂, ha₂, hcovers₂⟩ := covers_of_top? hcore (hknown other) hc
  refine hdisjoint a₁ (List.mem_flatMap.2 ⟨path, hpath, ha₁⟩) a₂
    (List.mem_flatMap.2 ⟨other, hother, ha₂⟩) ?_ i ⟨hcovers₁, hcovers₂⟩
  rw [hident path a₁ ha₁, hident other a₂ ha₂]
  exact hne

/-- **The files in the end** are the same in any order. -/
theorem Independent.disk_eq_of_perm (h : s.Independent paths) (hperm : paths'.Perm paths)
    (hdisjoint : Disjoint (s.injectAll paths).2) :
    (s.injectAll paths').1.disk = (s.injectAll paths).1.disk := by
  have h' := h.of_perm hperm
  have hrow := row_injectAll s paths
  have hrow' := row_injectAll s paths'
  by_cases hnofile : ∀ place, s.core = .file place → ¬ s.disk.IsFile place
  · rw [hrow.disk_of_not_file hnofile, hrow'.disk_of_not_file hnofile]
  · push Not at hnofile
    obtain ⟨place, hcore, hfile⟩ := hnofile
    have hany : (s.injectAll paths').2.any Attempt.isDone
        = (s.injectAll paths).2.any Attempt.isDone := by
      rw [h.attempts_eq.1, h'.attempts_eq.1]
      exact (hperm.flatMap_right s.alone).any_eq
    have hcontent : (s.injectAll paths').1.coreContent = (s.injectAll paths).1.coreContent := by
      rw [hrow.coreContent_eq h.faults hcore hfile h.source,
        hrow'.coreContent_eq h.faults hcore hfile h'.source, h.attempts_eq.1, h'.attempts_eq.1,
        layers_flatMap, layers_flatMap]
      exact (Bytes.overlayAll_of_perm hperm.symm (h.pairwise_apart hcore hdisjoint) _).symm
    rw [hrow.disk_eq h.faults hcore hfile, hrow'.disk_eq h.faults hcore hfile, hany, hcontent]

lemma Independent.sameButNotes (h : s.Independent paths) (hperm : paths'.Perm paths)
    (hdisjoint : Disjoint (s.injectAll paths).2) :
    (s.injectAll paths).1.SameButNotes (s.injectAll paths').1 := by
  have h' := h.of_perm hperm
  have hrow := row_injectAll s paths
  have hrow' := row_injectAll s paths'
  refine ⟨h.disk_eq_of_perm hperm hdisjoint, ?_, ?_, ?_, ?_, ?_, ?_⟩
  · rw [hrow.sameOutside.core, hrow'.sameOutside.core]
  · rw [hrow.sameOutside.coreIsOpen, hrow'.sameOutside.coreIsOpen]
  · rw [hrow.map_eq, hrow'.map_eq]
  · rw [hrow.faults h.faults, hrow'.faults h.faults]
  · rw [h.attempts_eq.2.1, h'.attempts_eq.2.1]
    exact Plan.foldl_spent_of_perm _ _ (hperm.map Path.lastComponent)
  · rw [hrow.sameOutside.memory, hrow'.sameOutside.memory]

/-! ## Any order -/

/-- A row of dumps of different idents that came to its end, without reading the core. -/
lemma independent_of_status (hfaults : s.faults = {}) (hmap : s.map ≠ .file s.core)
    (hdistinct : (paths.map Path.lastComponent).Nodup) {all : Bool}
    (hstatus : Attempt.status (s.injectAll paths).2 = .ok all)
    (hsources : ∀ a ∈ (s.injectAll paths).2, ¬ s.ReadsCore a.placement) :
    s.Independent paths := by
  refine ⟨hfaults, hmap, hdistinct, ?_⟩
  have hharmless := (follows_injectAll s hmap paths).harmless (row_injectAll s paths) hfaults
    (Attempt.status_eq_ok_iff.1 hstatus).1 hsources
  rw [Plan.inTurn_dump _ _ hdistinct] at hharmless
  exact fun path hpath piece hpiece => hharmless piece (List.mem_flatMap.2 ⟨path, hpath, hpiece⟩)

/-- **Dumps in another order.**  For every core, list of overrides, files without faults and map
that is not the core itself: if dumps of different idents come to their end, read no data from the
core and have ranges that do not meet, then in any other order they lead to the same files and
overrides, each of them makes the same attempts with the same results, and the same regions are
noted.  A leftover pass does the same behind either. -/
theorem injectAll_perm (hfaults : s.faults = {}) (hmap : s.map ≠ .file s.core)
    (hperm : paths'.Perm paths) (hdistinct : (paths.map Path.lastComponent).Nodup) {all : Bool}
    (hstatus : Attempt.status (s.injectAll paths).2 = .ok all)
    (hsources : ∀ a ∈ (s.injectAll paths).2, ¬ s.ReadsCore a.placement)
    (hdisjoint : Disjoint (s.injectAll paths).2) :
    let first := (s.injectAll paths).1
    let second := (s.injectAll paths').1
    Attempt.status (s.injectAll paths').2 = .ok all ∧
      (s.calls paths').Perm (s.calls paths) ∧
      second.coreContent = first.coreContent ∧
      first.SameButNotes second ∧
      second.ledger.Perm first.ledger ∧
      SameSteps first.injectPending second.injectPending ∧
      second.injectPending.1.ledger.Perm first.injectPending.1.ledger := by
  intro first second
  have h := independent_of_status hfaults hmap hdistinct hstatus hsources
  have h' := h.of_perm hperm
  have hattempts : (s.injectAll paths').2.Perm (s.injectAll paths).2 := by
    rw [h.attempts_eq.1, h'.attempts_eq.1]
    exact hperm.flatMap_right s.alone
  have hsame : first.SameButNotes second := h.sameButNotes hperm hdisjoint
  have hpending := hsame.injectPending
  have hledger : second.ledger.Perm first.ledger := by
    rw [(follows_injectAll s hmap paths).ledger, (follows_injectAll s hmap paths').ledger]
    exact (hattempts.flatMap_right Attempt.regions).append_left s.ledger
  refine ⟨?_, ?_, ?_, hsame, hledger, hpending, ?_⟩
  · rw [Attempt.status_eq_ok_iff] at hstatus ⊢
    exact ⟨h'.attempts_eq.2.2, hattempts.all_eq.trans hstatus.2⟩
  · rw [h.calls_eq, h'.calls_eq]
    exact hperm.map _
  · rw [coreContent, coreContent, hsame.disk, hsame.core]
  · have hmap₁ := (symbolMap_of_row (row_injectAll s paths) hmap).2
    have hmap₂ := (symbolMap_of_row (row_injectAll s paths') hmap).2
    rw [(follows_injectPending first hmap₁).ledger, (follows_injectPending second hmap₂).ledger,
      hpending.attempts]
    exact hledger.append_right _

/-- A core of six bytes, a dump with both kinds of data, a dump with an override, and one that is
too short. -/
def crowded : Session where
  disk :=
    { home := []
      directories := []
      files := [(["core"], List.replicate 6 0xee), (["a"], [1, 2, 3, 4]), (["b"], [5, 6]),
        (["c"], [7]), (["blob"], [8, 9, 10])] }
  core := .file ["core"]
  map := .lines [some ⟨0, 0x100, 2, 'D', "a"⟩, some ⟨8, 0x200, 2, 'I', "a"⟩,
    some ⟨3, 0x300, 2, 'D', "b"⟩, some ⟨10, 0x400, 2, 'D', "c"⟩]
  registry := [⟨"b", 3, "blob", 0, false⟩]

/-- The dump that is too short fails in either order, and leaves no gap behind. -/
theorem injectAll_perm_crowded :
    let first := (crowded.injectAll ["a", "b", "c"]).1
    let second := (crowded.injectAll ["c", "b", "a"]).1
    Attempt.status (crowded.injectAll ["c", "b", "a"]).2 = .ok false ∧
      first.coreContent = [3, 4, 0xee, 8, 9, 10, 0, 0, 1, 2] ∧
      second.coreContent = first.coreContent ∧ first.SameButNotes second ∧
      SameSteps first.injectPending second.injectPending := by
  intro first second
  have hdisjoint : Disjoint (crowded.injectAll ["a", "b", "c"]).2 :=
    disjoint_of_ranges (by decide +kernel)
  have hperm : List.Perm ["c", "b", "a"] ["a", "b", "c"] := List.reverse_perm ["a", "b", "c"]
  obtain ⟨hstatus, -, hcontent, hsame, -, hpending, -⟩ := injectAll_perm (s := crowded) rfl
    (by decide) hperm (by decide +kernel)
    (show Attempt.status (crowded.injectAll ["a", "b", "c"]).2 = .ok false by decide +kernel)
    (by decide +kernel) hdisjoint
  exact ⟨hstatus, by decide +kernel, hcontent, hsame, hpending⟩

/-- A core that is its own map.  The indirect data of `a` is a line of the map, for `b`. -/
def selfExtending : Session where
  disk :=
    { home := []
      directories := []
      files := [(["core"], "a 0 a I a\n".toUTF8.toList), (["a"], "0 0 1 D b\n".toUTF8.toList),
        (["b"], "z".toUTF8.toList)] }
  core := .file ["core"]
  map := .file (.file ["core"])

/-- **A core that is its own map.**  The dump `b` has a range only after the dump `a`, which writes
the line that gives it one, so the order matters although nothing else stands in the way. -/
theorem injectAll_not_perm :
    let first := selfExtending.injectAll ["a", "b"]
    let second := selfExtending.injectAll ["b", "a"]
    Attempt.status second.2 = .ok true ∧
      first.1.coreContent = "z 0 a I a\n0 0 1 D b\n".toUTF8.toList ∧
      second.1.coreContent = "a 0 a I a\n0 0 1 D b\n".toUTF8.toList ∧
      first.1.ledger = [⟨0, 10⟩, ⟨0, 1⟩] ∧ second.1.ledger = [⟨0, 10⟩] ∧
      ¬ ∀ (s : Session) (paths paths' : List String), s.faults = {} → paths'.Perm paths →
        (paths.map Path.lastComponent).Nodup →
        ∀ all : Bool, Attempt.status (s.injectAll paths).2 = .ok all →
          (∀ a ∈ (s.injectAll paths).2, ¬ s.ReadsCore a.placement) →
          Disjoint (s.injectAll paths).2 →
            (s.injectAll paths').1.coreContent = (s.injectAll paths).1.coreContent := by
  intro first second
  have hfirst : first.1.coreContent = "z 0 a I a\n0 0 1 D b\n".toUTF8.toList := by decide +kernel
  have hsecond : second.1.coreContent = "a 0 a I a\n0 0 1 D b\n".toUTF8.toList := by
    decide +kernel
  refine ⟨by decide +kernel, hfirst, hsecond, by decide +kernel, by decide +kernel, ?_⟩
  intro hall
  have hdisjoint : Disjoint first.2 := disjoint_of_ranges (by decide +kernel)
  have hperm : List.Perm ["b", "a"] ["a", "b"] := .swap "a" "b" []
  have hsame : second.1.coreContent = first.1.coreContent :=
    hall selfExtending ["a", "b"] ["b", "a"] rfl hperm (by decide +kernel) true
      (by decide +kernel) (by decide +kernel) hdisjoint
  rw [hfirst, hsecond] at hsame
  exact absurd hsame (by decide +kernel)

end Session

end CoreSplice
