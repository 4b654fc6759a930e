import Mathlib.Data.Int.Order.Basic
import Mathlib.Order.Basic
import CoreSplice.Proofs.Elf.Entry
import CoreSplice.Elf.LoadTable

/-!
# How far segments reach

The stored part of a segment has to reach the end of every region that belongs to the segment, and
the file has to reach the end of every stored part that has such a region.  Both are the largest of
some numbers, so the order in which regions come does not matter.

* `largest` — the largest of some numbers, with `largest_le_iff`.
* `LoadTable.owner?` — the segment that a region belongs to, with `LoadTable.owner?_eq_some_iff`.
* `LoadTable.reach`, `LoadTable.extent` — the size of a stored part, and of the file.
* `LoadTable.reach_snoc`, `LoadTable.extent_snoc` — one region more.
* `LoadTable.reach_congr`, `LoadTable.extent_congr` — other lists with the same regions.
* `LoadTable.extent_cons_of_owner` — a region that was covered before the others.
-/

namespace CoreSplice.Elf

/-! ## The largest of some numbers -/

/-- The largest of some numbers, of which there is at least one. -/
def largest (first : Int) (others : List Int) : Int :=
  others.foldl max first

lemma largest_snoc (first : Int) (others : List Int) (last : Int) :
    largest first (others ++ [last]) = max (largest first others) last := by
  simp only [largest, List.foldl_append, List.foldl_cons, List.foldl_nil]

lemma largest_le_iff {first : Int} {others : List Int} {m : Int} :
    largest first others ≤ m ↔ first ≤ m ∧ ∀ n ∈ others, n ≤ m := by
  induction others generalizing first with
  | nil => simp [largest]
  | cons next others ih =>
    have hstep : largest first (next :: others) = largest (max first next) others := rfl
    rw [hstep, ih, Int.max_le, List.forall_mem_cons, and_assoc]

/-- Another element in the place of one that is accepted alike is found where that one was. -/
lemma firstMatch?_set {α : Type} {accept : α → Bool} {xs : List α} {position : Nat} {a b : α}
    (hget : xs[position]? = some a) (haccept : accept b = accept a) :
    (firstMatch? accept (xs.set position b)).map Prod.fst
      = (firstMatch? accept xs).map Prod.fst := by
  induction xs generalizing position with
  | nil => simp at hget
  | cons x rest ih =>
    cases position with
    | zero =>
      cases hget
      rw [List.set_cons_zero, firstMatch?, firstMatch?, haccept]
      split <;> rfl
    | succ position =>
      have hrest : (firstMatch? accept (rest.set position b)).map Prod.fst
          = (firstMatch? accept rest).map Prod.fst := ih hget
      rw [List.set_cons_succ, firstMatch?, firstMatch?]
      split
      · rfl
      · have hnext := congrArg (Option.map (· + 1)) hrest
        rw [Option.map_map, Option.map_map] at hnext ⊢
        exact hnext

namespace LoadTable

/-! ## Regions and segments -/

/-- The position of the segment that the region belongs to: the first that contains it.  A region
without bytes belongs to none. -/
def owner? (table : LoadTable) (region : Region) : Option Nat :=
  if region.size = 0 then none else (table.find? region).map Prod.fst

/-- The regions that belong to the segment at a position. -/
def assigned (table : LoadTable) (regions : List Region) (position : Nat) : List Region :=
  regions.filter fun region => table.owner? region = some position

/-- The size of the stored part of a segment that reaches the ends of its regions. -/
def reach (table : LoadTable) (regions : List Region) (position : Nat) (s : Segment) : Int :=
  largest s.filesz ((table.assigned regions position).map fun region =>
    region.address + region.size - s.vaddr)

/-- Where the stored parts end of the segments that have regions. -/
def stops (table : LoadTable) (regions : List Region) : List Int :=
  table.loads.zipIdx.filterMap fun (s, position) =>
    if table.assigned regions position = [] then none
    else some (s.offset + table.reach regions position s)

/-- The length of a file that holds these stored parts. -/
def extent (table : LoadTable) (regions : List Region) (length : Int) : Int :=
  largest length (table.stops regions)

variable {table : LoadTable} {regions : List Region} {region : Region} {s : Segment}
  {position : Nat}

lemma owner?_eq_some_iff :
    table.owner? region = some position ↔
      region.size ≠ 0 ∧ ∃ s, table.loads[position]? = some s ∧ s.contains region = true ∧
        ∀ earlier < position, ∀ t, table.loads[earlier]? = some t → t.contains region = false := by
  have htake : (∀ earlier < position, ∀ t, table.loads[earlier]? = some t →
      t.contains region = false) ↔
        ∀ t ∈ table.loads.take position, t.contains region = false := by
    constructor
    · intro h t ht
      obtain ⟨earlier, hget⟩ := List.mem_iff_getElem?.1 ht
      rw [List.getElem?_take] at hget
      split at hget
      · rename_i hlt
        exact h earlier hlt t hget
      · cases hget
    · intro h earlier hlt t hget
      refine h t (List.mem_iff_getElem?.2 ⟨earlier, ?_⟩)
      rw [List.getElem?_take, if_pos hlt, hget]
  simp only [owner?]
  by_cases hsize : region.size = 0
  · simp [hsize]
  · rw [if_neg hsize, Option.map_eq_some_iff]
    constructor
    · rintro ⟨⟨first, s⟩, hfind, rfl⟩
      obtain ⟨hget, hin, hbefore⟩ := firstMatch?_eq_some_iff.1 hfind
      exact ⟨hsize, s, hget, hin, htake.2 hbefore⟩
    · rintro ⟨-, s, hget, hin, hbefore⟩
      exact ⟨(position, s), firstMatch?_eq_some_iff.2 ⟨hget, hin, htake.1 hbefore⟩, rfl⟩

/-- Regions belong to the same segments, whatever the sizes of the stored parts are. -/
lemma owner?_set (hget : table.loads[position]? = some s) (filesz : Int) (region : Region) :
    (table.set position (s.stored filesz)).owner? region = table.owner? region := by
  simp only [owner?, find?, set]
  split
  · rfl
  · exact firstMatch?_set hget (Segment.contains_stored s filesz region)

/-! ## One region more -/

lemma assigned_snoc (table : LoadTable) (regions : List Region) (region : Region)
    (position : Nat) :
    table.assigned (regions ++ [region]) position = table.assigned regions position
      ++ if table.owner? region = some position then [region] else [] := by
  rw [assigned, List.filter_append]
  congr 1
  by_cases h : table.owner? region = some position <;> simp [h]

/-- A region changes the reach of its own segment. -/
lemma reach_snoc (table : LoadTable) (regions : List Region) (region : Region) (position : Nat)
    (s : Segment) :
    table.reach (regions ++ [region]) position s =
      if table.owner? region = some position then
        max (table.reach regions position s) (region.address + region.size - s.vaddr)
      else table.reach regions position s := by
  simp only [reach, assigned_snoc]
  split
  · rw [List.map_append, List.map_singleton, largest_snoc]
  · rw [List.append_nil]

lemma mem_stops {stop : Int} :
    stop ∈ table.stops regions ↔ ∃ position s, table.loads[position]? = some s ∧
      table.assigned regions position ≠ [] ∧
        stop = s.offset + table.reach regions position s := by
  simp only [stops, List.mem_filterMap, Prod.exists, List.mem_zipIdx_iff_getElem?]
  constructor
  · rintro ⟨s, position, hget, hstop⟩
    split at hstop
    · cases hstop
    · rename_i hassigned
      exact ⟨position, s, hget, hassigned, (Option.some.inj hstop).symm⟩
  · rintro ⟨position, s, hget, hassigned, rfl⟩
    exact ⟨s, position, hget, by rw [if_neg hassigned]⟩

lemma length_le_extent (table : LoadTable) (regions : List Region) (length : Int) :
    length ≤ table.extent regions length :=
  (largest_le_iff.1 (Int.le_refl _)).1

/-- A region that belongs to no segment changes nothing. -/
lemma snoc_of_none (h : table.owner? region = none) (regions : List Region) :
    table.assigned (regions ++ [region]) = table.assigned regions ∧
      table.reach (regions ++ [region]) = table.reach regions ∧
      table.extent (regions ++ [region]) = table.extent regions := by
  have hassigned : table.assigned (regions ++ [region]) = table.assigned regions := by
    funext position
    rw [assigned_snoc, h]
    exact List.append_nil _
  have hreach : table.reach (regions ++ [region]) = table.reach regions := by
    funext position s
    rw [reach, reach, hassigned]
  refine ⟨hassigned, hreach, ?_⟩
  funext length
  rw [extent, extent, stops, stops, hassigned, hreach]

/-- Other segments take no notice of a region. -/
lemma snoc_of_ne (howner : table.owner? region = some position) {other : Nat}
    (hne : other ≠ position) (regions : List Region) (t : Segment) :
    table.assigned (regions ++ [region]) other = table.assigned regions other ∧
      table.reach (regions ++ [region]) other t = table.reach regions other t := by
  have hnot : table.owner? region ≠ some other := by
    rw [howner]
    exact fun heq => hne (Option.some.inj heq).symm
  rw [assigned_snoc, reach_snoc, if_neg hnot, if_neg hnot, List.append_nil]
  exact ⟨rfl, rfl⟩

/-- A region takes nothing back of what earlier regions made of a segment. -/
lemma le_reach_snoc (table : LoadTable) (regions : List Region) (region : Region) (position : Nat)
    (s : Segment) :
    table.reach regions position s ≤ table.reach (regions ++ [region]) position s := by
  rw [reach_snoc]
  split <;> omega

lemma assigned_snoc_ne_nil (h : table.assigned regions position ≠ []) (region : Region) :
    table.assigned (regions ++ [region]) position ≠ [] := by
  rw [assigned_snoc]
  intro hnil
  exact h (List.append_eq_nil_iff.1 hnil).1

/-- A region makes the file reach the end of the stored part of its segment. -/
lemma extent_snoc (hget : table.loads[position]? = some s)
    (howner : table.owner? region = some position) (regions : List Region) (length : Int) :
    table.extent (regions ++ [region]) length
      = max (table.extent regions length)
          (s.offset + table.reach (regions ++ [region]) position s) := by
  obtain ⟨hlength, hstops⟩ := largest_le_iff.1 (Int.le_refl (table.extent regions length))
  obtain ⟨hlength', hstops'⟩ :=
    largest_le_iff.1 (Int.le_refl (table.extent (regions ++ [region]) length))
  apply Int.le_antisymm
  · refine largest_le_iff.2 ⟨by omega, ?_⟩
    intro stop hstop
    obtain ⟨other, t, ht, hassigned, rfl⟩ := mem_stops.1 hstop
    by_cases hne : other = position
    · rw [hne, hget] at ht
      cases ht
      rw [hne]
      omega
    · obtain ⟨hsame, hsame'⟩ := snoc_of_ne howner hne regions t
      rw [hsame] at hassigned
      rw [hsame']
      have hold := hstops _ (mem_stops.2 ⟨other, t, ht, hassigned, rfl⟩)
      omega
  · refine Int.max_le.2 ⟨largest_le_iff.2 ⟨hlength', ?_⟩, ?_⟩
    · intro stop hstop
      obtain ⟨other, t, ht, hassigned, rfl⟩ := mem_stops.1 hstop
      have hmore := le_reach_snoc table regions region other t
      have hnew := hstops' _
        (mem_stops.2 ⟨other, t, ht, assigned_snoc_ne_nil hassigned region, rfl⟩)
      omega
    · refine hstops' _ (mem_stops.2 ⟨position, s, hget, ?_, rfl⟩)
      rw [assigned_snoc, if_pos howner]
      simp

/-! ## Lists with the same regions -/

lemma mem_assigned :
    region ∈ table.assigned regions position ↔
      region ∈ regions ∧ table.owner? region = some position := by
  rw [assigned, List.mem_filter, decide_eq_true_iff]

lemma reach_le_iff {m : Int} :
    table.reach regions position s ≤ m ↔ s.filesz ≤ m ∧ ∀ region ∈ regions,
      table.owner? region = some position → region.address + region.size - s.vaddr ≤ m := by
  simp only [reach, largest_le_iff, List.forall_mem_map, mem_assigned, and_imp]

/-- The length is one that every region asks for, or the old one. -/
lemma extent_le_iff {length m : Int} :
    table.extent regions length ≤ m ↔ length ≤ m ∧ ∀ region ∈ regions, ∀ position s,
      table.owner? region = some position → table.loads[position]? = some s →
        s.offset + max s.filesz (region.address + region.size - s.vaddr) ≤ m := by
  rw [extent, largest_le_iff]
  refine and_congr_right fun _ => ⟨?_, ?_⟩
  · intro hstops region hmem position s howner hget
    have hassigned := mem_assigned.2 ⟨hmem, howner⟩
    have hstop := hstops _ (mem_stops.2 ⟨position, s, hget, List.ne_nil_of_mem hassigned, rfl⟩)
    obtain ⟨hfilesz, hends⟩ := reach_le_iff.1 (Int.le_refl (table.reach regions position s))
    have hend := hends region hmem howner
    omega
  · rintro hregions stop hstop
    obtain ⟨position, s, hget, hassigned, rfl⟩ := mem_stops.1 hstop
    obtain ⟨region, hregion⟩ := List.exists_mem_of_ne_nil _ hassigned
    obtain ⟨hmem, howner⟩ := mem_assigned.1 hregion
    have hfirst := hregions region hmem position s howner hget
    have hreach : table.reach regions position s ≤ m - s.offset := by
      refine reach_le_iff.2 ⟨by omega, ?_⟩
      intro other hother howner'
      have hend := hregions other hother position s howner' hget
      omega
    omega

/-- The lists have the same regions, those without bytes apart. -/
def SameRegions (regions regions' : List Region) : Prop :=
  ∀ region : Region, region.size ≠ 0 → (region ∈ regions ↔ region ∈ regions')

lemma mem_congr {regions' : List Region} (hsame : SameRegions regions regions')
    (howner : table.owner? region = some position) : region ∈ regions ↔ region ∈ regions' :=
  hsame region (owner?_eq_some_iff.1 howner).1

/-- Neither the order of the regions matters nor how often they come. -/
lemma reach_congr {regions' : List Region} (hsame : SameRegions regions regions')
    (position : Nat) (s : Segment) :
    table.reach regions position s = table.reach regions' position s := by
  refine eq_of_forall_ge_iff fun m => ?_
  rw [reach_le_iff, reach_le_iff]
  refine and_congr_right fun _ => forall_congr' fun region => ?_
  constructor <;> intro h hmem howner
  · exact h ((mem_congr hsame howner).2 hmem) howner
  · exact h ((mem_congr hsame howner).1 hmem) howner

lemma extent_congr {regions' : List Region} (hsame : SameRegions regions regions')
    (length : Int) : table.extent regions length = table.extent regions' length := by
  refine eq_of_forall_ge_iff fun m => ?_
  rw [extent_le_iff, extent_le_iff]
  refine and_congr_right fun _ => forall_congr' fun region => ?_
  constructor <;> intro h hmem position s howner
  · exact h ((mem_congr hsame howner).2 hmem) position s howner
  · exact h ((mem_congr hsame howner).1 hmem) position s howner

lemma assigned_ne_nil_congr {regions' : List Region} (hsame : SameRegions regions regions') :
    table.assigned regions position ≠ [] ↔ table.assigned regions' position ≠ [] := by
  simp only [ne_eq, List.eq_nil_iff_forall_not_mem, mem_assigned]
  refine not_congr (forall_congr' fun region => not_congr (and_congr_left fun howner => ?_))
  exact mem_congr hsame howner

/-! ## One region before the others -/

/-- A region that belongs to no segment asks for no length. -/
lemma extent_cons_of_none (howner : table.owner? region = none) (regions : List Region)
    (length : Int) : table.extent (region :: regions) length = table.extent regions length := by
  refine eq_of_forall_ge_iff fun m => ?_
  rw [extent_le_iff, extent_le_iff, List.forall_mem_cons]
  have hfirst : ∀ position s, table.owner? region = some position →
      table.loads[position]? = some s →
        s.offset + max s.filesz (region.address + region.size - s.vaddr) ≤ m := by
    intro position s howner'
    rw [howner] at howner'
    cases howner'
  exact and_congr_right fun _ => and_iff_right hfirst

/-- A region may be covered before the others are looked at. -/
lemma extent_cons_of_owner (howner : table.owner? region = some position)
    (hget : table.loads[position]? = some s) {filesz : Int}
    (hfilesz : max s.filesz (region.address + region.size - s.vaddr) = filesz)
    (regions : List Region) (length : Int) :
    table.extent (region :: regions) length
      = (table.set position (s.stored filesz)).extent regions
          (max length (s.offset + filesz)) := by
  refine eq_of_forall_ge_iff fun m => ?_
  rw [extent_le_iff, extent_le_iff, List.forall_mem_cons, Int.max_le, and_assoc]
  have hfirst : (∀ n t, table.owner? region = some n → table.loads[n]? = some t →
      t.offset + max t.filesz (region.address + region.size - t.vaddr) ≤ m) ↔
        s.offset + filesz ≤ m := by
    constructor
    · intro h
      rw [← hfilesz]
      exact h position s howner hget
    · intro h n t howner' hget'
      rw [howner] at howner'
      cases howner'
      rw [hget] at hget'
      cases hget'
      rwa [hfilesz]
  rw [hfirst]
  refine and_congr_right fun _ => and_congr_right fun hstop =>
    forall_congr' fun other => forall_congr' fun _ => forall_congr' fun n => ?_
  have hn : position < table.loads.length := (List.getElem?_eq_some_iff.1 hget).1
  have hload : (table.set position (s.stored filesz)).loads[n]?
      = if position = n then some (s.stored filesz) else table.loads[n]? := by
    simp only [set, List.getElem?_set, hn, if_true]
  rw [owner?_set hget, hload]
  by_cases hne : position = n
  · -- What the segment reaches already is no more than the length.
    subst hne
    have hreached : (s.stored filesz).offset + max (s.stored filesz).filesz
        (other.address + other.size - (s.stored filesz).vaddr) ≤ m ↔
          s.offset + max s.filesz (other.address + other.size - s.vaddr) ≤ m := by
      dsimp only [Segment.stored]
      omega
    rw [if_pos rfl, hget]
    constructor
    · intro h t howner' ht
      cases ht
      exact hreached.2 (h s howner' rfl)
    · intro h t howner' ht
      cases ht
      exact hreached.1 (h _ howner' rfl)
  · rw [if_neg hne]

end LoadTable

end CoreSplice.Elf
