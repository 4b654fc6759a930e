import CoreSplice.Proofs.Injection.Row
import CoreSplice.Proofs.Override.Spending
import CoreSplice.Proofs.SymbolMap.LastEntry

/-!
# Which pieces are due

Which pieces of data an operation puts into the core depends on the symbol map and on the overrides
alone: no file is looked at to choose them, and a piece that fails is no reason to choose the next
one otherwise.  So the pieces can be listed beforehand, and an operation goes through its list until
the end, unless one of its attempts ends it.

* `Piece` — where data goes, where it comes from, and which slot of its ident it is for.
* `Plan.dump` — the pieces of one dump, which `Plan.mem_pieces_dump` lists.
* `Plan.leftovers` — the pieces of the overrides that belong to no dump.
* `Session.Follows` — the attempts of an operation are the pieces of its plan, in order.
* **`Session.follows_injectAll`**, **`Session.follows_injectPending`** — the operations follow
  their plans.
-/

namespace CoreSplice

/-- A piece of data for a slot of its ident. -/
structure Piece where
  placement : Placement
  slot : Slot

/-- The piece of data that an attempt is about. -/
def Attempt.piece (a : Attempt) : Piece :=
  ⟨a.placement, a.slot⟩

/-- The piece with the target of an entry, its data being `size` bytes at an offset of a source. -/
def Piece.aimed (slot : Slot) (ident : String) (entry : Entry) (size offset : Int)
    (source : String) : Piece where
  placement :=
    { ident
      coreOffset := entry.coreOffset
      memAddress := entry.memAddress
      size
      sourceOffset := offset
      source := some source }
  slot := slot

/-- Pieces that are due in order, and the overrides after them. -/
structure Plan where
  pieces : List Piece
  registry : Registry

namespace Plan

/-! ## Lists of pieces -/

/-- The plan that does nothing. -/
def idle (registry : Registry) : Plan :=
  ⟨[], registry⟩

/-- One plan and then the one that is made with the overrides that the first leaves. -/
def andThen (first : Plan) (next : Registry → Plan) : Plan :=
  ⟨first.pieces ++ (next first.registry).pieces, (next first.registry).registry⟩

/-- Plans in turn. -/
def inTurn {α : Type} (step : Registry → α → Plan) (registry : Registry) : List α → Plan
  | [] => idle registry
  | a :: rest => (step registry a).andThen fun registry => inTurn step registry rest

/-- The direct data of a dump.  The first pending override of the ident is spent on it, and one of
size 0 leaves nothing to do. -/
def direct (map : SymbolMap) (registry : Registry) (path : String) : Plan :=
  let ident := Path.lastComponent path
  match map.target? ident .direct with
  | none => idle registry
  | some entry =>
    match registry.firstFor? ident with
    | some (position, o) =>
      ⟨if o.size = 0 then [] else [.aimed .direct ident entry o.size o.offset o.source],
        registry.consumeAt position⟩
    | none => ⟨[.aimed .direct ident entry entry.size (map.shift ident) path], registry⟩

/-- The indirect data of a dump, which stands at its start. -/
def indirect (map : SymbolMap) (registry : Registry) (path : String) : Plan :=
  let ident := Path.lastComponent path
  match map.target? ident .indirect with
  | none => idle registry
  | some entry => ⟨[.aimed .indirect ident entry entry.size 0 path], registry⟩

/-- All data of a dump, the direct data first. -/
def dump (map : SymbolMap) (registry : Registry) (path : String) : Plan :=
  (direct map registry path).andThen fun registry => indirect map registry path

/-- The override at a position, which is treated as a dump that is named like it, unless it was
spent before. -/
def leftover (map : SymbolMap) (registry : Registry) (position : Nat) : Plan :=
  match registry[position]? with
  | none => idle registry
  | some o => if o.consumed then idle registry else dump map registry o.ident

/-- The overrides that belong to no dump. -/
def leftovers (map : SymbolMap) (registry : Registry) : Plan :=
  inTurn (leftover map) registry (List.range registry.length)

/-- Dumps in turn, and then the overrides that belong to none of them. -/
def run (map : SymbolMap) (registry : Registry) (paths : List String) : Plan :=
  (inTurn (dump map) registry paths).andThen (leftovers map)

/-- The piece is due for a dump. -/
inductive DueFor (map : SymbolMap) (registry : Registry) (path : String) : Piece → Prop where
  | override {entry : Entry} {position : Nat} {o : Override}
      (htarget : map.target? (Path.lastComponent path) .direct = some entry)
      (hfirst : registry.firstFor? (Path.lastComponent path) = some (position, o))
      (hsize : o.size ≠ 0) :
      DueFor map registry path
        (.aimed .direct (Path.lastComponent path) entry o.size o.offset o.source)
  | direct {entry : Entry} (htarget : map.target? (Path.lastComponent path) .direct = some entry)
      (hnone : registry.firstFor? (Path.lastComponent path) = none) :
      DueFor map registry path
        (.aimed .direct (Path.lastComponent path) entry entry.size
          (map.shift (Path.lastComponent path)) path)
  | indirect {entry : Entry}
      (htarget : map.target? (Path.lastComponent path) .indirect = some entry) :
      DueFor map registry path
        (.aimed .indirect (Path.lastComponent path) entry entry.size 0 path)

lemma mem_pieces_dump {map : SymbolMap} {registry : Registry} {path : String} {piece : Piece} :
    piece ∈ (dump map registry path).pieces ↔ DueFor map registry path piece := by
  simp only [dump, andThen, List.mem_append]
  constructor
  · rintro (hpiece | hpiece)
    · simp only [direct] at hpiece
      split at hpiece
      · cases hpiece
      · rename_i entry htarget
        split at hpiece
        · rename_i position o hfirst
          dsimp only at hpiece
          split at hpiece
          · cases hpiece
          · rename_i hsize
            rw [List.mem_singleton.1 hpiece]
            exact .override htarget hfirst hsize
        · rename_i hnone
          rw [List.mem_singleton.1 hpiece]
          exact .direct htarget hnone
    · simp only [indirect] at hpiece
      split at hpiece
      · cases hpiece
      · rename_i entry htarget
        rw [List.mem_singleton.1 hpiece]
        exact .indirect htarget
  · intro hdue
    cases hdue with
    | override htarget hfirst hsize => left; simp [direct, htarget, hfirst, hsize]
    | direct htarget hnone => left; simp [direct, htarget, hnone]
    | indirect htarget => right; simp [indirect, htarget]

/-! ## What holds of all pieces of a plan -/

/-- A plan for a dump spends overrides and does nothing else to them. -/
lemma spends_dump (map : SymbolMap) (registry : Registry) (path : String) :
    registry.Spends (dump map registry path).registry := by
  have hdirect : registry.Spends (direct map registry path).registry := by
    simp only [direct]
    split
    · exact fun _ ho _ => ho
    · split
      · exact Registry.spends_consumeAt registry _
      · exact fun _ ho _ => ho
  simp only [dump, andThen, indirect]
  split <;> exact hdirect

lemma spends_leftover (map : SymbolMap) (registry : Registry) (position : Nat) :
    registry.Spends (leftover map registry position).registry := by
  simp only [leftover]
  split
  · exact fun _ ho _ => ho
  · split
    · exact fun _ ho _ => ho
    · exact spends_dump map registry _

/-- What holds of the pieces of every step holds of the pieces of all steps in turn. -/
lemma forall_inTurn {α : Type} {step : Registry → α → Plan} {holds : Piece → Prop}
    {first : Registry}
    (hspends : ∀ (registry : Registry) (a : α), registry.Spends (step registry a).registry)
    (hstep : ∀ (registry : Registry) (a : α), first.Spends registry →
      ∀ piece ∈ (step registry a).pieces, holds piece)
    {registry : Registry} (hregistry : first.Spends registry) (steps : List α) :
    (∀ piece ∈ (inTurn step registry steps).pieces, holds piece) ∧
      first.Spends (inTurn step registry steps).registry := by
  induction steps generalizing registry with
  | nil =>
    constructor
    · intro piece hpiece
      cases hpiece
    · exact hregistry
  | cons a steps ih =>
    obtain ⟨hpieces, hlast⟩ := ih (hregistry.trans (hspends registry a))
    refine ⟨?_, hlast⟩
    intro piece hpiece
    rcases List.mem_append.1 hpiece with hpiece | hpiece
    · exact hstep registry a hregistry piece hpiece
    · exact hpieces piece hpiece

end Plan

namespace Session

/-! ## Following a plan -/

/-- The attempts of an operation are the pieces of a plan, up to the first that ended it.  What
succeeded is noted. -/
structure Follows (s : Session) (plan : Plan) (done : Session × List Attempt) : Prop where
  started : done.2.map Attempt.piece <+: plan.pieces
  finished : done.2.findSome? Attempt.abort? = none →
    done.2.map Attempt.piece = plan.pieces ∧ done.1.registry = plan.registry
  ledger : done.1.ledger = s.ledger ++ done.2.flatMap Attempt.regions
  printed : done.1.printed = s.printed ++ done.2.flatMap Attempt.lines

lemma follows_idle (s : Session) {t : Session} (hregistry : t.registry = s.registry)
    (hledger : t.ledger = s.ledger) (hprinted : t.printed = s.printed) :
    s.Follows (.idle s.registry) (t, []) :=
  ⟨List.prefix_refl [], fun _ => ⟨rfl, hregistry⟩, by simp [hledger], by simp [hprinted]⟩

/-- What follows a plan from a session follows it from any other with the same notes. -/
lemma Follows.congr {s t : Session} {plan : Plan} {done : Session × List Attempt}
    (h : s.Follows plan done) (hledger : t.ledger = s.ledger) (hprinted : t.printed = s.printed) :
    t.Follows plan done :=
  ⟨h.started, h.finished, hledger ▸ h.ledger, hprinted ▸ h.printed⟩

lemma follows_continued {s : Session} {plan : Plan} {first : Session × List Attempt}
    {next : Session → Session × List Attempt} {rest : Registry → Plan}
    (hfirst : s.Follows plan first)
    (hnext : first.1.Follows (rest first.1.registry) (next first.1)) :
    s.Follows (plan.andThen rest) (continued first next) := by
  simp only [continued, Plan.andThen]
  split
  · rename_i haborted
    refine ⟨hfirst.started.trans (List.prefix_append _ _), ?_, hfirst.ledger, hfirst.printed⟩
    intro hnone
    rw [hnone] at haborted
    cases haborted
  · rename_i hgone
    obtain ⟨hpieces, hregistry⟩ := hfirst.finished (by simpa using hgone)
    rw [hregistry] at hnext
    constructor
    · rw [List.map_append, hpieces]
      exact (List.prefix_append_right_inj _).2 hnext.started
    · intro hnone
      rw [List.findSome?_append, Option.or_eq_none_iff] at hnone
      obtain ⟨hrest, hlast⟩ := hnext.finished hnone.2
      exact ⟨by rw [List.map_append, hpieces, hrest], hlast⟩
    · rw [hnext.ledger, hfirst.ledger, List.flatMap_append, List.append_assoc]
    · rw [hnext.printed, hfirst.printed, List.flatMap_append, List.append_assoc]

lemma follows_attempt (s : Session) (p : Placement) (slot : Slot) :
    s.Follows ⟨if p.size = 0 then [] else [⟨p, slot⟩], s.registry⟩ (s.attempt p slot) := by
  simp only [attempt]
  split
  · exact follows_idle s rfl rfl rfl
  · obtain ⟨hledger, hprinted⟩ := noted_splice s p slot
    have hregistry := (sameSetting_splice s p slot).registry
    have hdone : s.Follows ⟨[⟨p, slot⟩], s.registry⟩
        ((s.splice p slot).1, [⟨p, slot, (s.splice p slot).2⟩]) :=
      ⟨List.prefix_refl _, fun _ => ⟨rfl, hregistry⟩, by simpa using hledger,
        by simpa using hprinted⟩
    generalize s.splice p slot = done at hdone
    rcases done with ⟨t, (failure | abort) | _⟩
    · exact ⟨hdone.started, hdone.finished, hdone.ledger, hdone.printed⟩
    · exact hdone
    · exact hdone

/-! ## One dump -/

lemma follows_injectDirect (s : Session) (map : SymbolMap) (path : String) :
    s.Follows (.direct map s.registry path)
      (s.injectDirect path (map.placements (Path.lastComponent path)).direct) := by
  have htarget := map.direct_of_target? (Path.lastComponent path)
  simp only [Plan.direct, injectDirect]
  cases hentry : map.target? (Path.lastComponent path) .direct with
  | none =>
    rw [hentry] at htarget
    rw [if_neg (by omega)]
    exact follows_idle s rfl rfl rfl
  | some entry =>
    rw [hentry] at htarget
    obtain ⟨hsize, hdirect⟩ := htarget
    have hpositive : 0 < (map.placements (Path.lastComponent path)).direct.size := by
      rw [hdirect]
      exact Int.natCast_pos.2 (Nat.pos_of_ne_zero hsize)
    rw [if_pos hpositive, hdirect]
    simp only [redirect, Registry.redirect?, Placements.target]
    cases s.registry.firstFor? (Path.lastComponent path) with
    | none =>
      have h := follows_attempt s ⟨Path.lastComponent path, entry.coreOffset, entry.memAddress,
        entry.size, map.shift (Path.lastComponent path), some path⟩ .direct
      rwa [if_neg (Int.natCast_ne_zero.2 hsize)] at h
    | some found =>
      obtain ⟨position, o⟩ := found
      have h := follows_attempt
        ({ s with registry := s.registry.consumeAt position }.report
          [.applied o (Path.lastComponent path)])
        ⟨Path.lastComponent path, entry.coreOffset, entry.memAddress, o.size, o.offset,
          some o.source⟩ .direct
      exact h.congr rfl rfl

lemma follows_injectIndirect (s : Session) (map : SymbolMap) (path : String) :
    s.Follows (.indirect map s.registry path)
      (s.injectIndirect path (map.placements (Path.lastComponent path)).indirect) := by
  have htarget := map.indirect_of_target? (Path.lastComponent path)
  simp only [Plan.indirect, injectIndirect]
  cases hentry : map.target? (Path.lastComponent path) .indirect with
  | none =>
    rw [hentry] at htarget
    rw [if_neg (by omega)]
    exact follows_idle s rfl rfl rfl
  | some entry =>
    rw [hentry] at htarget
    obtain ⟨hsize, hindirect⟩ := htarget
    have hpositive : 0 < (map.placements (Path.lastComponent path)).indirect.size := by
      rw [hindirect]
      exact Int.natCast_pos.2 (Nat.pos_of_ne_zero hsize)
    rw [if_pos hpositive, hindirect]
    have h := follows_attempt s ⟨Path.lastComponent path, entry.coreOffset, entry.memAddress,
      entry.size, 0, some path⟩ .indirect
    rwa [if_neg (Int.natCast_ne_zero.2 hsize)] at h

lemma follows_injectDump (s : Session) (path : String) :
    s.Follows (.dump s.symbolMap s.registry path) (s.injectDump path) := by
  have hfirst := follows_injectDirect (s.report (s.symbolMap.remarks (Path.lastComponent path)))
    s.symbolMap path
  have h : s.Follows (.dump s.symbolMap s.registry path)
      (continued _ fun t => t.injectIndirect path
        (s.symbolMap.placements (Path.lastComponent path)).indirect) :=
    follows_continued (hfirst.congr rfl rfl) (follows_injectIndirect _ _ _)
  simp only [injectDump]
  split
  · rename_i hnone
    -- A dump without data is treated apart, but its two pieces would do nothing either.
    simp only [continued, injectDirect, injectIndirect, hnone, Int.lt_irrefl, if_false,
      List.findSome?_nil, Option.isSome_none, Bool.false_eq_true, List.append_nil] at h
    exact ⟨h.started, h.finished, h.ledger, h.printed⟩
  · exact h

/-! ## Operations in turn -/

lemma symbolMap_of_row {s t : Session} {attempts : List Attempt} (h : s.Row attempts t)
    (hmap : s.map ≠ .file s.core) : t.symbolMap = s.symbolMap ∧ t.map ≠ .file t.core := by
  obtain ⟨hcore, hsource⟩ := setting_after s attempts
  obtain ⟨-, hcore', hsource', -⟩ := eq_of_bare h.bare_eq
  refine ⟨(symbolMap_of_bare h.bare_eq).trans (symbolMap_after hmap attempts), ?_⟩
  rwa [hcore', hsource', hcore, hsource]

/-- Dumps in turn follow their plan, as long as the symbol map is not the core itself. -/
lemma follows_injectAll (s : Session) (hmap : s.map ≠ .file s.core) (paths : List String) :
    s.Follows (.inTurn (Plan.dump s.symbolMap) s.registry paths) (s.injectAll paths) := by
  induction paths generalizing s with
  | nil => exact follows_idle s rfl rfl rfl
  | cons path paths ih =>
    obtain ⟨hsame, hmap'⟩ := symbolMap_of_row (row_injectDump s path) hmap
    have hrest := ih (s.injectDump path).1 hmap'
    rw [hsame] at hrest
    exact follows_continued (follows_injectDump s path) hrest

lemma follows_injectPositions (s : Session) (hmap : s.map ≠ .file s.core) (positions : List Nat) :
    s.Follows (.inTurn (Plan.leftover s.symbolMap) s.registry positions)
      (s.injectPositions positions) := by
  induction positions generalizing s with
  | nil => exact follows_idle s rfl rfl rfl
  | cons position positions ih =>
    simp only [injectPositions, Plan.inTurn, Plan.leftover]
    cases s.registry[position]? with
    | none => exact ih s hmap
    | some o =>
      dsimp only
      split
      · exact ih s hmap
      · obtain ⟨hsame, hmap'⟩ := symbolMap_of_row (row_injectDump s o.ident) hmap
        have hrest := ih (s.injectDump o.ident).1 hmap'
        rw [hsame] at hrest
        exact follows_continued (follows_injectDump s o.ident) hrest

lemma follows_injectPending (s : Session) (hmap : s.map ≠ .file s.core) :
    s.Follows (.leftovers s.symbolMap s.registry) s.injectPending :=
  follows_injectPositions s hmap _

end Session

end CoreSplice
