import CoreSplice.Proofs.Injection.Plan

/-!
# Where the data of the leftover pass comes from

The leftover pass treats an override that belongs to no dump as a dump of its own, named by the
ident of the override.  The data of the override reaches the core that way.  But an ident that the
map gives indirect data as well gets that from a file with the name of the ident, and an ident that
holds a slash stands for the ident behind it, so that its direct data may come from a file too.
Nothing else is put into the core by the pass.

* `Piece.FromOverride` — the piece is the direct data of an ident, supplied by an override of it.
* `Piece.FromName` — the piece comes from a file that is named like an override.
* **`Session.injectPending_pieces`** — every piece of the pass is one of the two.
-/

namespace CoreSplice

/-! ## The two kinds of pieces -/

/-- The piece is for the direct slot of the ident of a pending override, with the size, the source
and the offset of the override. -/
def Piece.FromOverride (map : SymbolMap) (registry : Registry) (piece : Piece) : Prop :=
  ∃ o ∈ registry, o.consumed = false ∧ ∃ entry, map.target? o.ident .direct = some entry ∧
    piece = .aimed .direct o.ident entry o.size o.offset o.source

/-- The piece is data of the size that the map gives, from the file that is named like a pending
override.  It is indirect data, or direct data if the name holds a slash. -/
inductive Piece.FromName (map : SymbolMap) (registry : Registry) : Piece → Prop where
  | indirect (o : Override) (entry : Entry) (hmem : o ∈ registry) (hpending : o.consumed = false)
      (htarget : map.target? (Path.lastComponent o.ident) .indirect = some entry) :
      FromName map registry
        (.aimed .indirect (Path.lastComponent o.ident) entry entry.size 0 o.ident)
  | direct (o : Override) (entry : Entry) (hmem : o ∈ registry) (hpending : o.consumed = false)
      (hslash : '/' ∈ o.ident.toList)
      (htarget : map.target? (Path.lastComponent o.ident) .direct = some entry) :
      FromName map registry
        (.aimed .direct (Path.lastComponent o.ident) entry entry.size
          (map.shift (Path.lastComponent o.ident)) o.ident)

/-! ## The plan of one override -/

namespace Plan

/-- A piece of a dump that is named like a pending override. -/
lemma stems_dump {map : SymbolMap} {registry : Registry} {o : Override} (ho : o ∈ registry)
    (hpending : o.consumed = false) {piece : Piece}
    (h : piece ∈ (dump map registry o.ident).pieces) :
    piece.FromOverride map registry ∨ piece.FromName map registry := by
  cases mem_pieces_dump.1 h with
  | @override entry position first htarget hfirst _ =>
    obtain ⟨hmem, hfree, hident⟩ := Registry.mem_of_firstFor? hfirst
    refine Or.inl ⟨first, hmem, hfree, entry, hident ▸ htarget, ?_⟩
    rw [hident]
  | direct htarget hnone =>
    refine Or.inr (.direct o _ ho hpending ?_ htarget)
    -- Without a slash the override would have been found for its own ident.
    by_contra hslash
    rw [Registry.firstFor?, firstMatch?_eq_none_iff] at hnone
    have := hnone o ho
    simp [Override.isPendingFor, hpending, Path.lastComponent_eq_self hslash] at this
  | indirect htarget => exact Or.inr (.indirect o _ ho hpending htarget)

end Plan

/-- What was pending later may be looked for among what was pending before. -/
lemma Piece.stems_of_spends {map : SymbolMap} {before after : Registry} {piece : Piece}
    (hspends : before.Spends after)
    (h : piece.FromOverride map after ∨ piece.FromName map after) :
    piece.FromOverride map before ∨ piece.FromName map before := by
  rcases h with ⟨o, ho, hpending, hentry⟩ | h
  · exact Or.inl ⟨o, hspends o ho hpending, hpending, hentry⟩
  · right
    cases h with
    | indirect o entry ho hpending htarget =>
      exact .indirect o entry (hspends o ho hpending) hpending htarget
    | direct o entry ho hpending hslash htarget =>
      exact .direct o entry (hspends o ho hpending) hpending hslash htarget

namespace Session

/-! ## The pass -/

/-- Every attempt is a piece of one of the two kinds, for the symbol map as it was when one of the
attempts up to this one was due. -/
def Stem (s : Session) (registry : Registry) (attempts : List Attempt) : Prop :=
  ∀ (n : Nat) (a : Attempt), attempts[n]? = some a → ∃ k ≤ n,
    let map := (s.after (attempts.take k)).symbolMap
    a.piece.FromOverride map registry ∨ a.piece.FromName map registry

lemma stem_injectDump (s : Session) {registry : Registry} (hspends : registry.Spends s.registry)
    {o : Override} (ho : o ∈ s.registry) (hpending : o.consumed = false) :
    s.Stem registry (s.injectDump o.ident).2 := by
  intro n a ha
  refine ⟨0, Nat.zero_le n, ?_⟩
  have hpiece : a.piece ∈ (Plan.dump s.symbolMap s.registry o.ident).pieces :=
    (follows_injectDump s o.ident).started.subset
      (List.mem_map_of_mem (List.mem_of_getElem? ha))
  exact Piece.stems_of_spends hspends (Plan.stems_dump ho hpending hpiece)

lemma Stem.append {s t : Session} {registry : Registry} {first second : List Attempt}
    (h₁ : s.Stem registry first) (hrow : s.Row first t) (h₂ : t.Stem registry second) :
    s.Stem registry (first ++ second) := by
  intro n a ha
  by_cases hn : n < first.length
  · rw [List.getElem?_append_left hn] at ha
    obtain ⟨k, hk, hstem⟩ := h₁ n a ha
    refine ⟨k, hk, ?_⟩
    rw [List.take_append_of_le_length (by omega)]
    exact hstem
  · rw [List.getElem?_append_right (by omega)] at ha
    obtain ⟨k, hk, hstem⟩ := h₂ _ a ha
    refine ⟨first.length + k, by omega, ?_⟩
    rw [List.take_length_add_append, symbolMap_of_bare (hrow.after_append _)]
    exact hstem

lemma stem_injectPositions (s : Session) {registry : Registry}
    (hspends : registry.Spends s.registry) (positions : List Nat) :
    s.Stem registry (s.injectPositions positions).2 := by
  induction positions generalizing s with
  | nil =>
    intro n a ha
    cases ha
  | cons position positions ih =>
    simp only [injectPositions]
    split
    · exact ih s hspends
    · rename_i o ho
      split
      · exact ih s hspends
      · rename_i hpending
        have hmem := List.mem_of_getElem? ho
        have hdump := stem_injectDump s hspends hmem (by simpa using hpending)
        simp only [continued]
        split
        · exact hdump
        · rename_i hgone
          obtain ⟨-, hregistry⟩ :=
            (follows_injectDump s o.ident).finished (by simpa using hgone)
          have hrest := ih (s.injectDump o.ident).1
            (by rw [hregistry]; exact hspends.trans (Plan.spends_dump _ _ _))
          exact hdump.append (row_injectDump s o.ident) hrest

/-- **Where the data of the leftover pass comes from.**  All that the pass does to a file it does
by its attempts.  Each of them is for an override that was pending when the pass began, and takes
its data either from such an override or from the file that is named like one.  The map is the one
that the pass began with, unless it is the core itself. -/
theorem injectPending_pieces (s : Session) :
    let attempts := s.injectPending.2
    s.Row attempts s.injectPending.1 ∧
      (∀ (n : Nat) (a : Attempt), attempts[n]? = some a → ∃ k ≤ n,
        let map := (s.after (attempts.take k)).symbolMap
        a.piece.FromOverride map s.registry ∨ a.piece.FromName map s.registry) ∧
      ∀ k, s.map ≠ .file s.core → (s.after (attempts.take k)).symbolMap = s.symbolMap := by
  intro attempts
  refine ⟨row_injectPending s, ?_, ?_⟩
  · have hspends : s.registry.Spends s.registry := fun _ ho _ => ho
    exact stem_injectPositions s hspends _
  · intro k hmap
    exact symbolMap_after hmap _

/-- A session with one override that belongs to no dump.  The map gives `a` both kinds of data. -/
def unclaimed (o : Override) : Session where
  disk :=
    { home := []
      directories := []
      files := [(["core"], List.replicate 16 0xee), (["a"], [1, 2]), (["x", "b"], [3, 4]),
        (["blob"], [5, 6, 7, 8])] }
  core := .file ["core"]
  map := .lines [some ⟨0, 0x100, 2, 'D', "a"⟩, some ⟨4, 0x200, 2, 'I', "a"⟩,
    some ⟨8, 0x300, 2, 'D', "b"⟩]
  registry := [o]

/-- Files that no override names as a source are put into the core. -/
theorem injectPending_not_only_overrides :
    (∃ a ∈ (unclaimed ⟨"a", 2, "blob", 0, false⟩).injectPending.2,
        a.slot = .indirect ∧ a.placement.source = some "a" ∧ a.isDone = true) ∧
      (∃ a ∈ (unclaimed ⟨"x/b", 2, "blob", 0, false⟩).injectPending.2,
        a.slot = .direct ∧ a.placement.source = some "x/b" ∧ a.isDone = true) ∧
      ¬ ∀ s : Session, s.map ≠ .file s.core → ∀ a ∈ s.injectPending.2,
        a.piece.FromOverride s.symbolMap s.registry := by
  have hindirect : ∃ a ∈ (unclaimed ⟨"a", 2, "blob", 0, false⟩).injectPending.2,
      a.slot = .indirect ∧ a.placement.source = some "a" ∧ a.isDone = true := by
    decide +kernel
  refine ⟨hindirect, by decide +kernel, ?_⟩
  intro hall
  obtain ⟨a, ha, hslot, -, -⟩ := hindirect
  obtain ⟨o, -, -, entry, -, hpiece⟩ := hall _ (by decide) a ha
  have hdirect : a.piece.slot = .direct := by rw [hpiece]; rfl
  rw [show a.piece.slot = a.slot from rfl, hslot] at hdirect
  cases hdirect

end Session

end CoreSplice
