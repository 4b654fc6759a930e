import CoreSplice.Proofs.Injection.Plan

/-!
# The answer to a look-up

A look-up goes through all lines once and fills both slots as it goes, so what it answers seems to
hang on how the lines of the two slots alternate.  It does not.  Each slot is what the last of its
lines says, all other lines might as well not be there, and only then the place of the direct data
in a dump follows from both sizes.

* `SymbolMap.lastEntry?` — the last line of a slot.
* `SymbolMap.answer` — the two slots by their last lines, and the place of the direct data.
* `SymbolMap.placements_ofLines` — a look-up gives this answer.
* `SymbolMap.answer_of_ignored` — a line of another form, ident or kind may be left out.
* **`SymbolMap.placements_eq_answer`** — the answer to every look-up, whatever was done before it.
-/

namespace CoreSplice

/-- The kinds of the lines that fill a slot. -/
def Slot.kinds : Slot → List Char
  | direct => ['D', 'N']
  | indirect => ['I']

lemma Entry.slot?_eq_some_iff {entry : Entry} {slot : Slot} :
    entry.slot? = some slot ↔ entry.kind ∈ slot.kinds := by
  simp only [Entry.slot?]
  cases slot with
  | direct =>
    by_cases hdirect : entry.kind = 'D' ∨ entry.kind = 'N'
    · simp [Slot.kinds, hdirect]
    · by_cases hindirect : entry.kind = 'I' <;> simp [Slot.kinds, hdirect, hindirect]
  | indirect =>
    by_cases hdirect : entry.kind = 'D' ∨ entry.kind = 'N'
    · rcases hdirect with hkind | hkind <;> simp [Slot.kinds, hkind]
    · by_cases hindirect : entry.kind = 'I' <;> simp [Slot.kinds, hdirect, hindirect]

/-- The placement of a slot. -/
def Placements.ofSlot (found : Placements) : Slot → Placement
  | .direct => found.direct
  | .indirect => found.indirect

namespace SymbolMap

/-! ## The answer -/

/-- The entries that fill a slot of the ident, in the order of their lines. -/
def entriesOf (lines : List (List Char)) (ident : String) (slot : Slot) : List Entry :=
  (lines.filterMap Entry.parse?).filter fun entry => entry.ident = ident ∧ entry.kind ∈ slot.kinds

/-- The entry of the last line that fills a slot of the ident. -/
def lastEntry? (lines : List (List Char)) (ident : String) (slot : Slot) : Option Entry :=
  (entriesOf lines ident slot).getLast?

/-- What the last line of a slot says.  Without such a line all numbers are 0. -/
def lastTarget (lines : List (List Char)) (ident : String) (slot : Slot) : Placement :=
  match lastEntry? lines ident slot with
  | some entry =>
    { ident, coreOffset := entry.coreOffset, memAddress := entry.memAddress, size := entry.size,
      sourceOffset := 0, source := none }
  | none =>
    { ident, coreOffset := 0, memAddress := 0, size := 0, sourceOffset := 0, source := none }

/-- Both slots, the direct data standing behind the indirect data if neither is empty. -/
def answer (lines : List (List Char)) (ident : String) : Placements :=
  let direct := lastTarget lines ident .direct
  let indirect := lastTarget lines ident .indirect
  { direct := { direct with
      sourceOffset := if indirect.size ≠ 0 ∧ direct.size ≠ 0 then indirect.size else 0 }
    indirect }

/-- A line that is no entry, or an entry of another ident or of a kind that fills no slot. -/
def Ignored (ident : String) (line : List Char) : Prop :=
  ∀ entry, Entry.parse? line = some entry →
    entry.ident ≠ ident ∨ ∀ slot : Slot, entry.kind ∉ slot.kinds

variable {lines before after : List (List Char)} {line : List Char} {ident : String} {slot : Slot}

/-! ## Looking up -/

/-- Searching from the end finds the last entry. -/
lemma latest?_ofLines (lines : List (List Char)) (ident : String) (slot : Slot) :
    (ofLines lines).latest? ident slot = lastEntry? lines ident slot := by
  have hentries : (ofLines lines).filterMap id = lines.filterMap Entry.parse? := by
    rw [ofLines, List.filterMap_map]
    rfl
  simp only [latest?, lastEntry?, entriesOf, hentries, Entry.slot?_eq_some_iff]
  rw [← List.head?_filter, List.filter_reverse, List.head?_reverse]

lemma aim_latest? (lines : List (List Char)) (ident : String) (slot : Slot) :
    Placements.aim { ident } ((ofLines lines).latest? ident slot)
      = lastTarget lines ident slot := by
  rw [latest?_ofLines, lastTarget]
  cases lastEntry? lines ident slot <;> rfl

lemma sourceOffset_lastTarget (lines : List (List Char)) (ident : String) (slot : Slot) :
    (lastTarget lines ident slot).sourceOffset = 0 := by
  rw [lastTarget]
  split <;> rfl

/-- **A look-up** fills each slot from its last line. -/
lemma placements_ofLines (lines : List (List Char)) (ident : String) :
    (ofLines lines).placements ident = answer lines ident := by
  rw [placements, foldl_scanLine, Placements.none, aim_latest?, aim_latest?]
  have hoffset := sourceOffset_lastTarget lines ident .direct
  simp only [Placements.arrange, answer]
  split
  · rw [hoffset, Int.zero_add]
  · rw [← hoffset]

/-! ## Lines that do not count -/

lemma entriesOf_append (first second : List (List Char)) (ident : String) (slot : Slot) :
    entriesOf (first ++ second) ident slot
      = entriesOf first ident slot ++ entriesOf second ident slot := by
  rw [entriesOf, List.filterMap_append, List.filter_append]
  rfl

lemma entriesOf_cons_of_ignored (h : Ignored ident line) (after : List (List Char)) (slot : Slot) :
    entriesOf (line :: after) ident slot = entriesOf after ident slot := by
  cases hentry : Entry.parse? line with
  | none => rw [entriesOf, List.filterMap_cons_none hentry, entriesOf]
  | some entry =>
    have hother : ¬ (entry.ident = ident ∧ entry.kind ∈ slot.kinds) := by
      rintro ⟨hident, hkind⟩
      rcases h entry hentry with hne | hnone
      · exact hne hident
      · exact hnone slot hkind
    rw [entriesOf, List.filterMap_cons_some hentry, List.filter_cons_of_neg (by simpa using hother),
      entriesOf]

/-- **A line that does not count** may be left out, wherever it stands. -/
lemma answer_of_ignored (h : Ignored ident line) (before after : List (List Char)) :
    answer (before ++ line :: after) ident = answer (before ++ after) ident := by
  have htarget (slot : Slot) : lastTarget (before ++ line :: after) ident slot
      = lastTarget (before ++ after) ident slot := by
    rw [lastTarget, lastTarget, lastEntry?, lastEntry?, entriesOf_append, entriesOf_append,
      entriesOf_cons_of_ignored h]
  rw [answer, htarget, htarget]
  rfl

/-- A slot whose last line says size 0 is empty, and there is nothing to stand behind then. -/
lemma answer_of_size_eq_zero {entry : Entry} (h : lastEntry? lines ident slot = some entry)
    (hsize : entry.size = 0) :
    ((answer lines ident).ofSlot slot).size = 0 ∧ (answer lines ident).direct.sourceOffset = 0 := by
  have htarget : (lastTarget lines ident slot).size = 0 := by
    rw [lastTarget, h]
    exact congrArg Nat.cast hsize
  cases slot with
  | direct => exact ⟨htarget, if_neg fun hboth => hboth.2 htarget⟩
  | indirect => exact ⟨htarget, if_neg fun hboth => hboth.1 htarget⟩

/-! ## Every look-up -/

/-- **The answer to every look-up.**  For the lines of any map, in memory or in a file, and every
ident, a look-up gives what the last line of each slot says.  Operations that looked up idents
before, on a map that is not the core itself, make no difference, lines that do not count make
none, and a last line of size 0 leaves its slot empty whatever the lines before it say. -/
theorem placements_eq_answer (lines : List (List Char)) (ident : String) :
    let found := (ofLines lines).placements ident
    found = answer lines ident ∧
      (∀ (s : Session) (operations : List Operation), s.map ≠ .file s.core →
        s.symbolMap = ofLines lines →
          (s.performAll operations).1.symbolMap.placements ident = found) ∧
      (∀ (before : List (List Char)) (line : List Char) (after : List (List Char)),
        lines = before ++ line :: after → Ignored ident line →
          (ofLines (before ++ after)).placements ident = found) ∧
      ∀ (slot : Slot) (entry : Entry), lastEntry? lines ident slot = some entry →
        entry.size = 0 → (found.ofSlot slot).size = 0 ∧ found.direct.sourceOffset = 0 := by
  intro found
  have hfound : found = answer lines ident := placements_ofLines lines ident
  refine ⟨hfound, ?_, ?_, ?_⟩
  · intro s operations hmap hlines
    obtain ⟨hsame, -⟩ := Session.symbolMap_of_row (Session.row_performAll s operations) hmap
    rw [hsame, hlines]
  · intro before line after hsplit hignored
    rw [hfound, placements_ofLines, hsplit, answer_of_ignored hignored]
  · intro slot entry hlast hsize
    rw [hfound]
    exact answer_of_size_eq_zero hlast hsize

/-- A map in which lines of three idents, of all kinds and of no form alternate. -/
def alternating : List (List Char) :=
  ["4 100 2 D a", "8 200 3 I a", "no line", "c 300 4 N a", "0 400 0 I b", "10 500 6 X a",
    "14 600 0 I a", "18 700 5 D ab"].map String.toList

/-- The last direct line counts, and the last indirect one says that there is no such data.  A line
of an unknown kind could be left out, and a dump that was injected before changes nothing. -/
theorem placements_eq_answer_alternating :
    let s : Session :=
      { disk := { home := [], directories := [], files := [(["core"], [0xee]), (["a"], [1, 2])] }
        core := .file ["core"]
        map := .lines (ofLines alternating) }
    let found := (ofLines alternating).placements "a"
    found = ⟨{ ident := "a", coreOffset := 12, memAddress := 0x300, size := 4 },
        { ident := "a", coreOffset := 20, memAddress := 0x600, size := 0 }⟩ ∧
      (s.performAll [.inject "a", .leftovers]).1.symbolMap.placements "a" = found ∧
      (ofLines (alternating.take 5 ++ alternating.drop 6)).placements "a" = found ∧
      (found.ofSlot .indirect).size = 0 := by
  intro s found
  obtain ⟨-, hlater, hignored, hempty⟩ := placements_eq_answer alternating "a"
  refine ⟨by decide +kernel, ?_, ?_, ?_⟩
  · exact hlater s [.inject "a", .leftovers] (by decide) rfl
  · refine hignored (alternating.take 5) "10 500 6 X a".toList (alternating.drop 6)
      (by decide +kernel) ?_
    intro entry hentry
    have hparse : Entry.parse? "10 500 6 X a".toList = some ⟨16, 0x500, 6, 'X', "a"⟩ := by
      decide +kernel
    rw [hparse] at hentry
    cases hentry
    right
    intro slot
    cases slot <;> decide
  · exact (hempty .indirect ⟨20, 0x600, 0, 'I', "a"⟩ (by decide +kernel) rfl).1

end SymbolMap

end CoreSplice
