import CoreSplice.Proofs.Injection.Order

/-!
# Every leftover override has its turn

The leftover pass walks over the overrides while each of its steps looks for an override of its own,
from the start of the list, and marks what it finds.  Two things could go wrong: an override could
be marked before the walk comes to it, and the search could find another override of the same ident.

**Turns.**  As long as no ident holds a slash, a step marks nothing behind the place of the walk,
because an override of the right ident stands there at the latest.  So every override that was
pending at the start has its turn, and the pass is the same as injecting their idents one by one
(`Session.injectPositions_range`).

**Its own override.**  If the symbol map stays as it is, then all overrides that the walk has passed
are settled: spent if the map has direct data for their ident, and of no use to anyone if not
(`Session.settledTo_beforeTurn`).  So nothing before the place of the walk is found any more, and
each turn spends its own override (`Session.takesOwn_of_first`).

**`Session.injectPending_turns`** says both of a whole pass.  The second part fails for a map that
is the core itself (`Session.injectPending_not_own`): a step may write the very line that makes an
override useful which the walk has passed.
-/

namespace CoreSplice

/-! ## Overrides and their turns -/

namespace Override

/-- What a pass leaves of an override: it is spent if the map has direct data for its ident. -/
def settled (map : SymbolMap) (o : Override) : Override :=
  if (map.placements o.ident).direct.size = 0 then o else o.consume

variable {map : SymbolMap} {o : Override}

lemma settled_of_consumed (h : o.consumed = true) : o.settled map = o := by
  rw [settled, consume, ← h]
  split <;> rfl

/-- A settled override is of no use to an ident that the map has direct data for. -/
lemma isPendingFor_settled {ident : String} (h : (map.placements ident).direct.size ≠ 0) :
    (o.settled map).isPendingFor ident = false := by
  rw [settled]
  split
  · rename_i hnone
    have hne : o.ident ≠ ident := fun heq => h (heq ▸ hnone)
    simp [isPendingFor, hne]
  · rfl

lemma not_consumed_settled :
    (!(o.settled map).consumed)
      = (!o.consumed && decide ((map.placements o.ident).direct.size = 0)) := by
  rw [settled]
  split
  · rename_i hnone
    simp [hnone]
  · rename_i hsome
    simp [hsome, consume]

end Override

namespace Registry

variable {registry : Registry} {position : Nat} {o : Override}

/-- The idents of the overrides before a position that are pending. -/
def turns (registry : Registry) (position : Nat) : List String :=
  (Registry.pending (registry.take position)).map Override.ident

lemma turns_length (registry : Registry) :
    registry.turns registry.length = registry.pending.map Override.ident := by
  rw [turns, List.take_length]

lemma turns_succ (hget : registry[position]? = some o) :
    registry.turns (position + 1)
      = registry.turns position ++ if o.consumed then [] else [o.ident] := by
  rw [turns, turns, List.take_add_one, hget, Option.toList_some, pending, pending,
    List.filter_append, List.map_append]
  cases hconsumed : o.consumed <;> simp [hconsumed]

lemma exists_turns_append (registry : Registry) (position : Nat) :
    ∃ rest, registry.pending.map Override.ident = registry.turns position ++ rest := by
  refine ⟨(Registry.pending (registry.drop position)).map Override.ident, ?_⟩
  rw [turns, pending, pending, pending, ← List.map_append, ← List.filter_append,
    List.take_append_drop]

/-- A pending override is found at its own position at the latest. -/
lemma position_le_of_firstFor? (hget : registry[position]? = some o) (hpending : o.consumed = false)
    {found : Nat} {first : Override} (h : registry.firstFor? o.ident = some (found, first)) :
    found ≤ position := by
  obtain ⟨-, -, hbefore⟩ := firstMatch?_eq_some_iff.1 h
  by_contra hlt
  have hmem : o ∈ registry.take found := by
    refine List.mem_of_getElem? (i := position) ?_
    rw [List.getElem?_take_of_lt (by omega), hget]
  have hpassed := hbefore o hmem
  simp [Override.isPendingFor, hpending] at hpassed

lemma getElem?_spend_of_lt (hget : registry[position]? = some o) (hpending : o.consumed = false)
    {i : Nat} (hi : position < i) : (registry.spend o.ident)[i]? = registry[i]? := by
  rw [spend]
  cases hfirst : registry.firstFor? o.ident with
  | none => rfl
  | some found =>
    obtain ⟨found, first⟩ := found
    have hle := position_le_of_firstFor? hget hpending hfirst
    exact getElem?_consumeAt_of_ne (by omega)

end Registry

/-! ## Operations in turn -/

namespace Session

variable {s : Session}

lemma continued_idle (first : Session × List Attempt) :
    continued first (fun t => (t, [])) = first := by
  simp only [continued, List.append_nil]
  split <;> rfl

lemma continued_assoc (first : Session × List Attempt)
    (next last : Session → Session × List Attempt) :
    continued (continued first next) last
      = continued first fun t => continued (next t) last := by
  cases hfirst : first.2.findSome? Attempt.abort? with
  | some abort =>
    have hstays (next : Session → Session × List Attempt) : continued first next = first := by
      simp only [continued, hfirst, Option.isSome_some, if_true]
    rw [hstays, hstays, hstays]
  | none =>
    simp only [continued, hfirst, Option.isSome_none, Bool.false_eq_true, if_false,
      List.findSome?_append, Option.none_or]
    split
    · rfl
    · rw [List.append_assoc]

lemma continued_congr {first : Session × List Attempt}
    {next next' : Session → Session × List Attempt}
    (h : first.2.findSome? Attempt.abort? = none → next first.1 = next' first.1) :
    continued first next = continued first next' := by
  simp only [continued]
  split
  · rfl
  · rename_i hgone
    rw [h (by simpa using hgone)]

lemma injectAll_append (s : Session) (paths paths' : List String) :
    s.injectAll (paths ++ paths') = continued (s.injectAll paths) fun t => t.injectAll paths' := by
  induction paths generalizing s with
  | nil => rfl
  | cons path paths ih =>
    rw [List.cons_append, injectAll, injectAll, continued_assoc]
    exact congrArg _ (funext ih)

lemma injectAll_singleton (s : Session) (path : String) :
    s.injectAll [path] = s.injectDump path :=
  continued_idle _

lemma injectPositions_append (s : Session) (positions positions' : List Nat) :
    s.injectPositions (positions ++ positions')
      = continued (s.injectPositions positions) fun t => t.injectPositions positions' := by
  induction positions generalizing s with
  | nil => rfl
  | cons position positions ih =>
    rw [List.cons_append, injectPositions, injectPositions]
    split
    · exact ih s
    · split
      · exact ih s
      · rw [continued_assoc]
        exact congrArg _ (funext ih)

lemma injectPositions_singleton {position : Nat} {o : Override}
    (hget : s.registry[position]? = some o) :
    s.injectPositions [position] = if o.consumed then (s, []) else s.injectDump o.ident := by
  simp only [injectPositions, hget, continued_idle]

/-- What a dump leaves of the overrides. -/
lemma registry_injectDump {path : String}
    (hgone : (s.injectDump path).2.findSome? Attempt.abort? = none) :
    (s.injectDump path).1.registry
      = Plan.spent s.symbolMap s.registry (Path.lastComponent path) := by
  rw [((follows_injectDump s path).finished hgone).2, Plan.registry_dump]

/-- **A turn** marks nothing behind its own override. -/
lemma getElem?_registry_injectDump {position : Nat} {o : Override}
    (hget : s.registry[position]? = some o) (hpending : o.consumed = false)
    (hplain : '/' ∉ o.ident.toList)
    (hgone : (s.injectDump o.ident).2.findSome? Attempt.abort? = none) {i : Nat}
    (hi : position < i) : (s.injectDump o.ident).1.registry[i]? = s.registry[i]? := by
  rw [registry_injectDump hgone, Path.lastComponent_eq_self hplain, Plan.spent]
  split
  · rfl
  · exact Registry.getElem?_spend_of_lt hget hpending hi

/-- The session in which the override at the position has its turn. -/
def beforeTurn (s : Session) (position : Nat) : Session × List Attempt :=
  s.injectAll (s.registry.turns position)

lemma beforeTurn_succ {position : Nat} {o : Override} (hget : s.registry[position]? = some o) :
    s.beforeTurn (position + 1)
      = if o.consumed then s.beforeTurn position
        else continued (s.beforeTurn position) fun t => t.injectDump o.ident := by
  rw [beforeTurn, Registry.turns_succ hget]
  split
  · rw [List.append_nil, beforeTurn]
  · rw [injectAll_append, beforeTurn]
    exact congrArg _ (funext fun t => injectAll_singleton t o.ident)

/-- **The walk.**  What it has not come to yet is as it was at the start, and what it has done is
what injecting the idents of the pending overrides in turn does. -/
lemma injectPositions_range (hplain : ∀ o ∈ s.registry, '/' ∉ o.ident.toList) {n : Nat}
    (hn : n ≤ s.registry.length) :
    s.injectPositions (List.range n) = s.beforeTurn n ∧
      ((s.beforeTurn n).2.findSome? Attempt.abort? = none →
        ∀ i, n ≤ i → (s.beforeTurn n).1.registry[i]? = s.registry[i]?) := by
  induction n with
  | zero => exact ⟨rfl, fun _ _ _ => rfl⟩
  | succ n ih =>
    obtain ⟨hwalk, hahead⟩ := ih (by omega)
    obtain ⟨o, hget⟩ : ∃ o, s.registry[n]? = some o := ⟨_, List.getElem?_eq_getElem hn⟩
    have hturn (hgone : (s.beforeTurn n).2.findSome? Attempt.abort? = none) :
        (s.beforeTurn n).1.registry[n]? = some o := (hahead hgone n (Nat.le_refl n)).trans hget
    have hlast : continued (s.beforeTurn n) (fun t => t.injectPositions [n])
        = continued (s.beforeTurn n) fun t =>
          if o.consumed then (t, []) else t.injectDump o.ident :=
      continued_congr fun hgone => injectPositions_singleton (hturn hgone)
    rw [List.range_succ, injectPositions_append, hwalk, beforeTurn_succ hget, hlast]
    cases hconsumed : o.consumed with
    | true =>
      rw [if_pos rfl]
      exact ⟨continued_idle _, fun hgone i hi => hahead hgone i (by omega)⟩
    | false =>
      refine ⟨rfl, ?_⟩
      rw [if_neg Bool.false_ne_true]
      intro hgone i hi
      obtain ⟨hbefore, heq⟩ := continued_of_gone hgone
      rw [heq, List.findSome?_append, Option.or_eq_none_iff] at hgone
      rw [heq, getElem?_registry_injectDump (hturn hbefore) hconsumed
        (hplain o (List.mem_of_getElem? hget)) hgone.2 hi, hahead hbefore i (by omega)]

/-! ## Its own override -/

/-- The direct data of a dump is what the first part of its plan lists. -/
lemma filter_pieces_dump (map : SymbolMap) (registry : Registry) (path : String) :
    ((Plan.dump map registry path).pieces.filter fun piece => piece.slot = .direct)
      = (Plan.direct map registry path).pieces := by
  have hdirect : ∀ piece ∈ (Plan.direct map registry path).pieces,
      decide (piece.slot = .direct) = true := by
    intro piece hpiece
    simp only [Plan.direct] at hpiece
    split at hpiece
    · cases hpiece
    · split at hpiece
      · dsimp only at hpiece
        split at hpiece
        · cases hpiece
        · rw [List.mem_singleton.1 hpiece]
          rfl
      · rw [List.mem_singleton.1 hpiece]
        rfl
  have hindirect (rest : Registry) : ∀ piece ∈ (Plan.indirect map rest path).pieces,
      ¬ decide (piece.slot = .direct) = true := by
    intro piece hpiece
    simp only [Plan.indirect] at hpiece
    split at hpiece
    · cases hpiece
    · rw [List.mem_singleton.1 hpiece]
      exact Bool.false_ne_true
  rw [Plan.dump, Plan.andThen, List.filter_append, List.filter_eq_self.2 hdirect,
    List.filter_eq_nil_iff.2 (hindirect _), List.append_nil]

/-- The pieces of direct data among the attempts. -/
def directs (attempts : List Attempt) : List Placement :=
  (attempts.filter fun a => a.slot = .direct).map Attempt.placement

lemma directs_injectDump {path : String}
    (hgone : (s.injectDump path).2.findSome? Attempt.abort? = none) :
    directs (s.injectDump path).2
      = (Plan.direct s.symbolMap s.registry path).pieces.map Piece.placement := by
  rw [← filter_pieces_dump, ← ((follows_injectDump s path).finished hgone).1, List.filter_map,
    List.map_map]
  rfl

/-- The turn of the override at a position, in the session `s` and for a symbol map.  If the map has
direct data for the ident, just this override is spent, and its data is attempted at the target of
the map unless it is empty.  If not, nothing happens to any override. -/
structure TakesOwn (map : SymbolMap) (position : Nat) (o : Override) (s : Session) : Prop where
  pending : s.registry[position]? = some o
  spent : (map.placements o.ident).direct.size ≠ 0 →
    (s.injectDump o.ident).1.registry = s.registry.consumeAt position ∧
      directs (s.injectDump o.ident).2
        = if o.size = 0 then [] else [o.redirect (map.placements o.ident).direct]
  kept : (map.placements o.ident).direct.size = 0 →
    (s.injectDump o.ident).1.registry = s.registry ∧ directs (s.injectDump o.ident).2 = []

/-- **A turn** in which nothing before the override is pending for its ident. -/
lemma takesOwn_of_first {position : Nat} {o : Override} (hget : s.registry[position]? = some o)
    (hplain : '/' ∉ o.ident.toList)
    (hgone : (s.injectDump o.ident).2.findSome? Attempt.abort? = none)
    (hfirst : (s.symbolMap.placements o.ident).direct.size ≠ 0 →
      s.registry.firstFor? o.ident = some (position, o)) :
    TakesOwn s.symbolMap position o s := by
  have hregistry := registry_injectDump hgone
  have hdirects := directs_injectDump hgone
  have htarget := s.symbolMap.direct_of_target? o.ident
  simp only [Path.lastComponent_eq_self hplain, Plan.spent] at hregistry
  simp only [Plan.direct, Path.lastComponent_eq_self hplain] at hdirects
  cases hentry : s.symbolMap.target? o.ident .direct with
  | none =>
    rw [hentry] at hregistry hdirects htarget
    exact ⟨hget, fun hsize => absurd htarget hsize, fun _ => ⟨hregistry, hdirects⟩⟩
  | some entry =>
    rw [hentry] at hregistry hdirects htarget
    obtain ⟨hsize, hdirect⟩ := htarget
    have hpositive : (s.symbolMap.placements o.ident).direct.size ≠ 0 := by
      rw [hdirect]
      exact Int.natCast_ne_zero.2 hsize
    refine ⟨hget, fun _ => ?_, fun hzero => absurd hzero hpositive⟩
    dsimp only at hregistry hdirects
    rw [Registry.spend, hfirst hpositive] at hregistry
    rw [hfirst hpositive] at hdirects
    refine ⟨hregistry, hdirects.trans ?_⟩
    dsimp only
    split
    · rfl
    · rw [hdirect]
      rfl

/-- The first `n` overrides of a registry are settled, and the others are as they were. -/
def SettledTo (map : SymbolMap) (n : Nat) (before after : Registry) : Prop :=
  ∀ i : Nat, after[i]? = if i < n then before[i]?.map (Override.settled map) else before[i]?

variable {map : SymbolMap} {n : Nat} {before : Registry} {o : Override}

/-- An override is settled by its turn. -/
lemma SettledTo.succ {after after' : Registry} (h : SettledTo map n before after)
    (hget : before[n]? = some o) (hown : after'[n]? = some (o.settled map))
    (hothers : ∀ i, n ≠ i → after'[i]? = after[i]?) : SettledTo map (n + 1) before after' := by
  intro i
  by_cases hi : n = i
  · subst hi
    rw [hown, hget, if_pos (Nat.lt_succ_self n), Option.map_some]
  · rw [hothers i hi, h i]
    by_cases hlt : i < n
    · rw [if_pos hlt, if_pos (Nat.lt_succ_of_lt hlt)]
    · rw [if_neg hlt, if_neg (by omega)]

lemma SettledTo.takesOwn (h : SettledTo s.symbolMap n before s.registry)
    (hget : before[n]? = some o) (hpending : o.consumed = false) (hplain : '/' ∉ o.ident.toList)
    (hgone : (s.injectDump o.ident).2.findSome? Attempt.abort? = none) :
    TakesOwn s.symbolMap n o s := by
  have hown : s.registry[n]? = some o := by rw [h n, if_neg (Nat.lt_irrefl n), hget]
  refine takesOwn_of_first hown hplain hgone fun hsize => ?_
  refine firstMatch?_eq_some_iff.2 ⟨hown, by simp [Override.isPendingFor, hpending], ?_⟩
  intro b hb
  obtain ⟨i, hi⟩ := List.mem_iff_getElem?.1 hb
  rw [List.getElem?_take] at hi
  split at hi
  · rename_i hlt
    rw [h i, if_pos hlt] at hi
    obtain ⟨a, -, rfl⟩ := Option.map_eq_some_iff.1 hi
    exact Override.isPendingFor_settled hsize
  · cases hi

lemma TakesOwn.settledTo (hturn : TakesOwn map n o s) (h : SettledTo map n before s.registry)
    (hget : before[n]? = some o) :
    SettledTo map (n + 1) before (s.injectDump o.ident).1.registry := by
  by_cases hsize : (map.placements o.ident).direct.size = 0
  · rw [(hturn.kept hsize).1]
    refine h.succ hget ?_ fun _ _ => rfl
    rw [hturn.pending, Override.settled, if_pos hsize]
  · rw [(hturn.spent hsize).1]
    refine h.succ hget ?_ fun i hi => Registry.getElem?_consumeAt_of_ne hi
    rw [Registry.getElem?_consumeAt_self hturn.pending, Override.settled, if_neg hsize]

lemma symbolMap_beforeTurn (hmap : s.map ≠ .file s.core) (n : Nat) :
    (s.beforeTurn n).1.symbolMap = s.symbolMap :=
  (symbolMap_of_row (row_injectAll s _) hmap).1

/-- **All that the walk has passed is settled**, if the symbol map stays as it is. -/
lemma settledTo_beforeTurn (hmap : s.map ≠ .file s.core)
    (hplain : ∀ o ∈ s.registry, '/' ∉ o.ident.toList) (hn : n ≤ s.registry.length)
    (hgone : (s.beforeTurn n).2.findSome? Attempt.abort? = none) :
    SettledTo s.symbolMap n s.registry (s.beforeTurn n).1.registry := by
  induction n with
  | zero => exact fun _ => rfl
  | succ n ih =>
    obtain ⟨o, hget⟩ : ∃ o, s.registry[n]? = some o := ⟨_, List.getElem?_eq_getElem hn⟩
    have hsame := symbolMap_beforeTurn hmap n
    rw [beforeTurn_succ hget] at hgone ⊢
    cases hconsumed : o.consumed with
    | true =>
      rw [hconsumed, if_pos rfl] at hgone
      rw [if_pos rfl]
      have hsettled := ih (by omega) hgone
      refine hsettled.succ hget ?_ fun _ _ => rfl
      rw [hsettled n, if_neg (Nat.lt_irrefl n), hget, Override.settled_of_consumed hconsumed]
    | false =>
      rw [hconsumed, if_neg Bool.false_ne_true] at hgone
      obtain ⟨hbefore, heq⟩ := continued_of_gone hgone
      rw [heq, List.findSome?_append, Option.or_eq_none_iff] at hgone
      have hsettled := ih (by omega) hbefore
      rw [← hsame] at hsettled
      have hturn := hsettled.takesOwn hget hconsumed (hplain o (List.mem_of_getElem? hget)) hgone.2
      rw [if_neg Bool.false_ne_true, heq, ← hsame]
      exact hturn.settledTo hsettled hget

/-! ## The whole pass -/

lemma pending_settled (map : SymbolMap) (registry : Registry) :
    Registry.pending (registry.map (Override.settled map))
      = registry.pending.filter fun o => (map.placements o.ident).direct.size = 0 := by
  induction registry with
  | nil => rfl
  | cons o registry ih =>
    simp only [Registry.pending] at ih ⊢
    rw [List.map_cons, List.filter_cons, List.filter_cons, ih, Override.not_consumed_settled]
    cases hconsumed : o.consumed with
    | true => rfl
    | false =>
      by_cases hnone : (map.placements o.ident).direct.size = 0
      · simp [hnone, Override.settled]
      · simp [hnone]

/-- A pass that comes to its end gives every pending override its turn. -/
lemma gone_beforeTurn (hgone : (s.injectAll (s.registry.pending.map Override.ident)).2.findSome?
      Attempt.abort? = none) (n : Nat) :
    (s.beforeTurn n).2.findSome? Attempt.abort? = none := by
  obtain ⟨rest, hrest⟩ := s.registry.exists_turns_append n
  rw [hrest, injectAll_append] at hgone
  exact (continued_of_gone hgone).1

/-- **The turns of the leftover pass.**  Let no ident of an override hold a slash.  Then the pass is
the same as injecting the idents of all overrides that are pending at its start, each once and in
the order in which they were added, and if it comes to its end, every override is still pending when
its turn comes.  If the symbol map is not the core itself, so that it stays as it is, each turn
spends its own override or none, as the map says, whether or not the data then reaches the core.
What is pending at the end are the overrides that the map has no direct data for. -/
theorem injectPending_turns (hplain : ∀ o ∈ s.registry, '/' ∉ o.ident.toList) {all : Bool}
    (hstatus : Attempt.status s.injectPending.2 = .ok all) :
    s.injectPending = s.injectAll (s.registry.pending.map Override.ident) ∧
      (∀ (position : Nat) (o : Override), s.registry[position]? = some o → o.consumed = false →
        (s.beforeTurn position).1.registry[position]? = some o) ∧
      (s.map ≠ .file s.core →
        (∀ (position : Nat) (o : Override), s.registry[position]? = some o → o.consumed = false →
          TakesOwn s.symbolMap position o (s.beforeTurn position).1) ∧
        s.injectPending.1.registry.pending
          = s.registry.pending.filter fun o =>
            (s.symbolMap.placements o.ident).direct.size = 0) := by
  have hpass : s.injectPending = s.injectAll (s.registry.pending.map Override.ident) := by
    rw [injectPending, (injectPositions_range hplain (Nat.le_refl _)).1, beforeTurn,
      Registry.turns_length]
  have hgone := (Attempt.status_eq_ok_iff.1 hstatus).1
  rw [hpass] at hgone
  have hbefore := gone_beforeTurn hgone
  refine ⟨hpass, ?_, ?_⟩
  · intro position o hget _
    have hn := (List.getElem?_eq_some_iff.1 hget).1
    rw [(injectPositions_range hplain (Nat.le_of_lt hn)).2 (hbefore position) position
      (Nat.le_refl position), hget]
  · intro hmap
    constructor
    · intro position o hget hpending
      have hn := (List.getElem?_eq_some_iff.1 hget).1
      have hsettled := settledTo_beforeTurn hmap hplain (Nat.le_of_lt hn) (hbefore position)
      have hturn := hbefore (position + 1)
      rw [beforeTurn_succ hget, hpending, if_neg Bool.false_ne_true] at hturn
      obtain ⟨-, heq⟩ := continued_of_gone hturn
      rw [heq, List.findSome?_append, Option.or_eq_none_iff] at hturn
      have hsame := symbolMap_beforeTurn hmap position
      rw [← hsame] at hsettled ⊢
      exact hsettled.takesOwn hget hpending (hplain o (List.mem_of_getElem? hget)) hturn.2
    · have hsettled := settledTo_beforeTurn hmap hplain (Nat.le_refl _) (hbefore _)
      have hregistry : (s.beforeTurn s.registry.length).1.registry
          = s.registry.map (Override.settled s.symbolMap) := by
        refine List.ext_getElem? fun i => ?_
        rw [hsettled i, List.getElem?_map]
        split
        · rfl
        · rename_i hout
          rw [List.getElem?_eq_none (by omega)]
          rfl
      rw [hpass, ← Registry.turns_length, ← beforeTurn, hregistry, pending_settled]

/-- Overrides of three idents, one of them applied before.  The first source is too short, and the
map gives `b` nothing. -/
def unclaimedMany : Session where
  disk :=
    { home := []
      directories := []
      files := [(["core"], List.replicate 6 0xee), (["blob"], [1, 2, 3, 4])] }
  core := .file ["core"]
  map := .lines [some ⟨1, 0x100, 2, 'D', "a"⟩, some ⟨4, 0x200, 1, 'D', "c"⟩]
  registry := [⟨"a", 9, "blob", 0, true⟩, ⟨"a", 9, "blob", 0, false⟩, ⟨"b", 1, "blob", 0, false⟩,
    ⟨"c", 0, "blob", 0, false⟩, ⟨"a", 2, "blob", 1, false⟩]

/-- Both overrides of `a` have their own turns, though the data of the first is not there. -/
theorem injectPending_turns_unclaimedMany :
    Attempt.status unclaimedMany.injectPending.2 = .ok false ∧
      unclaimedMany.injectPending = unclaimedMany.injectAll ["a", "b", "c", "a"] ∧
      TakesOwn unclaimedMany.symbolMap 4 ⟨"a", 2, "blob", 1, false⟩
        (unclaimedMany.beforeTurn 4).1 ∧
      unclaimedMany.injectPending.1.registry.pending = [⟨"b", 1, "blob", 0, false⟩] ∧
      unclaimedMany.injectPending.1.coreContent = [0xee, 2, 3, 0xee, 0xee, 0xee] := by
  have hstatus : Attempt.status unclaimedMany.injectPending.2 = .ok false := by decide +kernel
  obtain ⟨hpass, -, hown⟩ := injectPending_turns (s := unclaimedMany) (by decide) hstatus
  obtain ⟨hturns, hpending⟩ := hown (by decide)
  refine ⟨hstatus, hpass, hturns 4 _ rfl rfl, ?_, by decide +kernel⟩
  rw [hpending]
  decide +kernel

/-- A core that is its own map.  It gives `a` indirect data, which is a line of the map. -/
def selfMapped : Session where
  disk :=
    { home := []
      directories := []
      files := [(["core"], "a 0 a I a\n".toUTF8.toList), (["a"], "0 0 1 D a\n".toUTF8.toList),
        (["blob"], "b".toUTF8.toList), (["clob"], "c".toUTF8.toList)] }
  core := .file ["core"]
  map := .file (.file ["core"])
  registry := [⟨"a", 1, "blob", 0, false⟩, ⟨"a", 1, "clob", 0, false⟩]

/-- **A core that is its own map.**  The turn of the first override spends nothing and writes the
line that gives direct data to its ident, so the turn of the second spends the first.  Neither the
map that the pass began with nor the one that this turn finds has it so. -/
theorem injectPending_not_own :
    let s := selfMapped
    let t := (s.beforeTurn 1).1
    Attempt.status s.injectPending.2 = .ok true ∧
      t.registry = s.registry ∧ (t.symbolMap.placements "a").direct.size = 1 ∧
      (t.injectDump "a").1.registry = s.registry.consumeAt 0 ∧
      directs (t.injectDump "a").2 = [{ ident := "a", size := 1, source := some "blob" }] ∧
      s.injectPending.1.registry.pending = [⟨"a", 1, "clob", 0, false⟩] ∧
      ¬ ∀ s : Session, (∀ o ∈ s.registry, '/' ∉ o.ident.toList) →
        ∀ all : Bool, Attempt.status s.injectPending.2 = .ok all →
          ∀ (position : Nat) (o : Override), s.registry[position]? = some o →
            o.consumed = false →
              let t := (s.beforeTurn position).1
              TakesOwn s.symbolMap position o t ∨ TakesOwn t.symbolMap position o t := by
  intro s t
  have hstatus : Attempt.status s.injectPending.2 = .ok true := by decide +kernel
  have hspent : (t.injectDump "a").1.registry = s.registry.consumeAt 0 := by decide +kernel
  have hkept : t.registry = s.registry := by decide +kernel
  have hsize : (t.symbolMap.placements "a").direct.size = 1 := by decide +kernel
  have hdirects : directs (t.injectDump "a").2
      = [{ ident := "a", size := 1, source := some "blob" }] := by
    decide +kernel
  refine ⟨hstatus, hkept, hsize, hspent, hdirects, by decide +kernel, ?_⟩
  intro hall
  rcases hall s (by decide) true hstatus 1 ⟨"a", 1, "clob", 0, false⟩ rfl rfl with hturn | hturn
  · -- The map at the start has nothing for the ident, so nothing should have been spent.
    have hnone : (s.symbolMap.placements "a").direct.size = 0 := by decide +kernel
    have hsame := (hturn.kept hnone).1
    rw [hspent, hkept] at hsame
    exact absurd hsame (by decide)
  · -- The map of this turn has direct data, so the second override should have been spent.
    have hown := (hturn.spent (hsize.trans_ne (by decide))).1
    rw [hspent, hkept] at hown
    exact absurd hown (by decide)

end Session

end CoreSplice
