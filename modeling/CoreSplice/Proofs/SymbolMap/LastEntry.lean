import Mathlib.Tactic.Common
import CoreSplice.SymbolMap.Placements

/-!
# The last entry counts

A look-up goes forward through the lines and lets every entry of the ident replace what stood in
its slot.  What is left at the end is the last entry of each slot, so a look-up is the same as two
searches from the end.

* `SymbolMap.target?` — where the data of a slot goes, if the slot has any.
* `SymbolMap.shift` — how far the direct data stands behind the start of a dump.
* **`SymbolMap.direct_of_target?`**, **`SymbolMap.indirect_of_target?`** — a look-up in these
  terms.
-/

namespace CoreSplice

namespace Placements

/-- The placement with the target of the entry, if there is one. -/
def aim (p : Placement) : Option Entry → Placement
  | some entry => target p entry
  | Option.none => p

end Placements

namespace SymbolMap

/-- Where the data of the slot goes.  An entry of size 0 says that there is no data. -/
def target? (map : SymbolMap) (ident : String) (slot : Slot) : Option Entry :=
  (map.latest? ident slot).filter fun entry => entry.size ≠ 0

/-- Where the direct data starts in a dump: behind the indirect data. -/
def shift (map : SymbolMap) (ident : String) : Nat :=
  match map.target? ident .indirect with
  | some entry => entry.size
  | none => 0

/-! ## One line more -/

lemma latest?_cons (line : Option Entry) (map : SymbolMap) (ident : String) (slot : Slot) :
    latest? (line :: map) ident slot
      = (latest? map ident slot).or
          (line.filter fun entry => entry.ident = ident ∧ entry.slot? = some slot) := by
  cases line with
  | none =>
    simp [latest?]
  | some entry =>
    have hline : ((some entry :: map).filterMap id).reverse
        = (map.filterMap id).reverse ++ [entry] := by simp
    rw [latest?, hline, List.find?_append, latest?, List.find?_singleton]
    congr 1

/-- A line changes the slot of its entry, if that is one of the ident. -/
lemma scanLine_eq (ident : String) (found : Placements) (line : Option Entry) :
    scanLine ident found line
      = ⟨Placements.aim found.direct
            (line.filter fun entry => entry.ident = ident ∧ entry.slot? = some .direct),
          Placements.aim found.indirect
            (line.filter fun entry => entry.ident = ident ∧ entry.slot? = some .indirect)⟩ := by
  cases line with
  | none => rfl
  | some entry =>
    by_cases hident : entry.ident = ident
    · cases hslot : entry.slot? with
      | none => simp [scanLine, hident, hslot, Placements.note, Option.filter, Placements.aim]
      | some slot =>
        cases slot <;>
          simp [scanLine, hident, hslot, Placements.note, Option.filter, Placements.aim]
    · simp [scanLine, hident, Option.filter, Placements.aim]

lemma aim_or (p : Placement) (first second : Option Entry) :
    Placements.aim (Placements.aim p first) second = Placements.aim p (second.or first) := by
  cases first with
  | none => cases second <;> rfl
  | some first => cases second <;> rfl

/-- **The last entry of each slot is left.** -/
lemma foldl_scanLine (map : SymbolMap) (ident : String) (found : Placements) :
    map.foldl (scanLine ident) found
      = ⟨Placements.aim found.direct (map.latest? ident .direct),
          Placements.aim found.indirect (map.latest? ident .indirect)⟩ := by
  induction map generalizing found with
  | nil => rfl
  | cons line map ih =>
    rw [List.foldl_cons, ih, scanLine_eq, latest?_cons, latest?_cons, ← aim_or, ← aim_or]

/-! ## A look-up -/

/-- The size of a slot is that of its target. -/
lemma size_aim (ident : String) (found : Option Entry) :
    (Placements.aim { ident } found).size
      = match found.filter fun entry => entry.size ≠ 0 with
        | some entry => (entry.size : Int)
        | none => 0 := by
  cases found with
  | none => rfl
  | some entry =>
    by_cases hsize : entry.size = 0
    · simp [Placements.aim, Placements.target, Option.filter, hsize]
    · simp [Placements.aim, Placements.target, Option.filter, hsize]

lemma aim_of_filter (ident : String) {found : Option Entry} {entry : Entry}
    (h : (found.filter fun entry => entry.size ≠ 0) = some entry) :
    Placements.aim { ident } found = Placements.target { ident } entry ∧ entry.size ≠ 0 := by
  cases found with
  | none => cases h
  | some first =>
    by_cases hsize : first.size = 0
    · simp [Option.filter, hsize] at h
    · simp only [Option.filter, ne_eq, hsize, not_false_eq_true, decide_true, if_true,
        Option.some.injEq] at h
      exact ⟨by rw [← h]; rfl, h ▸ hsize⟩

lemma indirect_placements (map : SymbolMap) (ident : String) :
    (map.placements ident).indirect
      = Placements.aim { ident } (map.latest? ident .indirect) := by
  rw [placements, foldl_scanLine, Placements.arrange]
  split <;> rfl

/-- **The indirect data of an ident** goes to the target of its slot. -/
theorem indirect_of_target? (map : SymbolMap) (ident : String) :
    match map.target? ident .indirect with
    | none => (map.placements ident).indirect.size = 0
    | some entry => entry.size ≠ 0 ∧
        (map.placements ident).indirect = Placements.target { ident } entry := by
  rw [indirect_placements]
  cases h : map.target? ident .indirect with
  | none => rw [size_aim]; rw [target?] at h; rw [h]
  | some entry =>
    obtain ⟨haim, hsize⟩ := aim_of_filter ident h
    exact ⟨hsize, haim⟩

lemma size_indirect (map : SymbolMap) (ident : String) :
    (Placements.aim { ident } (map.latest? ident .indirect)).size = map.shift ident := by
  rw [size_aim, shift, target?]
  split <;> rfl

lemma sourceOffset_aim (ident : String) (found : Option Entry) :
    (Placements.aim { ident } found).sourceOffset = 0 := by
  cases found <;> rfl

lemma direct_placements (map : SymbolMap) (ident : String) {p : Placement}
    (hp : Placements.aim { ident } (map.latest? ident .direct) = p) :
    (map.placements ident).direct
      = if p.size = 0 then p else { p with sourceOffset := map.shift ident } := by
  have hshift := size_indirect map ident
  have hoffset : p.sourceOffset = 0 := hp ▸ sourceOffset_aim ident _
  rw [placements, foldl_scanLine, Placements.arrange]
  simp only [Placements.none, hp]
  generalize Placements.aim { ident } (map.latest? ident .indirect) = q at hshift
  by_cases hsize : p.size = 0
  · simp [hsize]
  · by_cases hzero : q.size = 0
    · rw [if_neg (by simp [hzero]), if_neg hsize, ← hshift, hzero, ← hoffset]
    · rw [if_pos ⟨hzero, hsize⟩, if_neg hsize, hoffset, hshift, Int.zero_add]

/-- **The direct data of an ident** goes to the target of its slot, and stands behind the indirect
data in a dump. -/
theorem direct_of_target? (map : SymbolMap) (ident : String) :
    match map.target? ident .direct with
    | none => (map.placements ident).direct.size = 0
    | some entry => entry.size ≠ 0 ∧
        (map.placements ident).direct
          = { Placements.target { ident } entry with sourceOffset := map.shift ident } := by
  cases h : map.target? ident .direct with
  | none =>
    have hsize : (Placements.aim { ident } (map.latest? ident .direct)).size = 0 := by
      rw [size_aim]; rw [target?] at h; rw [h]
    rw [direct_placements map ident rfl, if_pos hsize]
    exact hsize
  | some entry =>
    obtain ⟨haim, hsize⟩ := aim_of_filter ident h
    have hsize' : (Placements.target { ident } entry).size ≠ 0 := Int.natCast_ne_zero.2 hsize
    rw [direct_placements map ident haim, if_neg hsize']
    exact ⟨hsize, rfl⟩

end SymbolMap

end CoreSplice
