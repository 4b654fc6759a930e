import Mathlib.Data.List.Basic
import CoreSplice.Proofs.Injection.Calls
import CoreSplice.Proofs.Injection.Steady

/-!
# A core is put together from its dumps

A dump of an ident holds the parts of a full core that the symbol map gives the ident: the indirect
part, and the direct part behind it.  If all that a core lacks lies in such parts, injecting the
dumps gives the full core, whatever order they come in and whether the parts share bytes or not.
The core must be neither the map nor one of the dumps (`Session.injectAll_not_reconstructs`): a dump
may overwrite the line that another one needs, or its data.

* `SymbolMap.targets` — the entries that give an ident its parts.
* `SymbolMap.part` — the part of a full core that the data of a slot is.
* `Session.IsDump` — a file holds both parts of its ident.
* `SymbolMap.Lacking` — a core differs from the full one in such parts at most.
* **`Session.injectAll_reconstructs`** — injecting the dumps gives the full core.
-/

namespace CoreSplice

namespace Entry

/-- The position lies in the range of the core that the entry gives. -/
def Covers (entry : Entry) (i : Nat) : Prop :=
  entry.coreOffset ≤ i ∧ i < entry.coreOffset + entry.size

instance (entry : Entry) (i : Nat) : Decidable (entry.Covers i) :=
  inferInstanceAs (Decidable (_ ∧ _))

/-- The memory region that the data of the entry fills. -/
def region (entry : Entry) : Region :=
  ⟨entry.memAddress, entry.size⟩

/-- The range of the entry lies inside the full core, and the system can work with it: it has a
position in the core, and the memory has room for what is in it. -/
structure Within (entry : Entry) (full : Bytes) (memory : Nat) : Prop where
  inside : entry.coreOffset + entry.size ≤ full.length
  position : entry.coreOffset < positionLimit
  room : HasRoom memory entry.size

instance (entry : Entry) (full : Bytes) (memory : Nat) : Decidable (entry.Within full memory) :=
  decidable_of_iff (entry.coreOffset + entry.size ≤ full.length ∧
      entry.coreOffset < positionLimit ∧ HasRoom memory entry.size)
    ⟨fun ⟨hinside, hposition, hroom⟩ => ⟨hinside, hposition, hroom⟩,
      fun h => ⟨h.inside, h.position, h.room⟩⟩

lemma Within.length_slice {entry : Entry} {full : Bytes} {memory : Nat}
    (h : entry.Within full memory) :
    (full.slice entry.coreOffset entry.size).length = entry.size := by
  have hinside := h.inside
  rw [Bytes.length_slice]
  omega

end Entry

namespace SymbolMap

/-- The entries that give the ident ranges of the core, that of the direct data first. -/
def targets (map : SymbolMap) (ident : String) : List Entry :=
  [Slot.direct, .indirect].filterMap (map.target? ident)

lemma mem_targets {map : SymbolMap} {ident : String} {slot : Slot} {entry : Entry}
    (h : map.target? ident slot = some entry) : entry ∈ map.targets ident :=
  List.mem_filterMap.2 ⟨slot, by cases slot <;> simp, h⟩

/-- The position lies in a range of one of the idents. -/
def Reaches (map : SymbolMap) (idents : List String) (i : Nat) : Prop :=
  ∃ ident ∈ idents, ∃ entry ∈ map.targets ident, entry.Covers i

instance (map : SymbolMap) (idents : List String) (i : Nat) : Decidable (map.Reaches idents i) :=
  inferInstanceAs (Decidable (∃ ident ∈ idents, ∃ entry ∈ map.targets ident, entry.Covers i))

/-- A core that lacks nothing of the full core but bytes in ranges of the idents. -/
structure Lacking (map : SymbolMap) (idents : List String) (skeleton full : Bytes) : Prop where
  length_le : skeleton.length ≤ full.length
  kept : ∀ i < skeleton.length, ¬ map.Reaches idents i → skeleton[i]? = full[i]?
  reached : ∀ i < full.length, skeleton.length ≤ i → map.Reaches idents i

/-- The part of a full core that the data of the slot is. -/
def part (map : SymbolMap) (full : Bytes) (ident : String) (slot : Slot) : Bytes :=
  match map.target? ident slot with
  | some entry => full.slice entry.coreOffset entry.size
  | none => []

/-- Where the data of the slot starts in a dump. -/
def start (map : SymbolMap) (ident : String) : Slot → Nat
  | .direct => map.shift ident
  | .indirect => 0

end SymbolMap

/-- The name leads to a file, other than the core, that begins with the parts of its ident. -/
structure Session.IsDump (s : Session) (full : Bytes) (path : String) : Prop where
  speakable : Disk.isUnspeakable path = false
  holds : ∃ place trailing, s.disk.resolveFile path = .ok (.file place) ∧ .file place ≠ s.core ∧
    s.disk.content (.file place)
      = s.symbolMap.part full (Path.lastComponent path) .indirect
        ++ s.symbolMap.part full (Path.lastComponent path) .direct ++ trailing

/-! ## The pieces of a dump without overrides -/

/-- The piece of a dump that fills a slot. -/
def Piece.ofDump (map : SymbolMap) (path : String) (slot : Slot) (entry : Entry) : Piece :=
  .aimed slot (Path.lastComponent path) entry entry.size
    (map.start (Path.lastComponent path) slot) path

namespace Plan

lemma dump_nil (map : SymbolMap) (path : String) :
    dump map [] path = ⟨[Slot.direct, .indirect].filterMap fun slot =>
      (map.target? (Path.lastComponent path) slot).map (.ofDump map path slot), []⟩ := by
  simp only [dump, andThen, direct, indirect, Registry.firstFor?, firstMatch?, idle,
    List.filterMap_cons, List.filterMap_nil]
  cases map.target? (Path.lastComponent path) .direct <;>
    cases map.target? (Path.lastComponent path) .indirect <;> rfl

lemma inTurn_dump_nil (map : SymbolMap) (paths : List String) :
    inTurn (dump map) [] paths = ⟨paths.flatMap fun path => (dump map [] path).pieces, []⟩ := by
  induction paths with
  | nil => rfl
  | cons path paths ih =>
    have hnone : (dump map [] path).registry = [] := by rw [dump_nil]
    rw [inTurn, andThen, hnone, ih, List.flatMap_cons]

lemma mem_dumps_nil {map : SymbolMap} {paths : List String} {piece : Piece} :
    piece ∈ (inTurn (dump map) [] paths).pieces ↔ ∃ path ∈ paths, ∃ slot entry,
      map.target? (Path.lastComponent path) slot = some entry ∧
        piece = .ofDump map path slot entry := by
  rw [inTurn_dump_nil]
  simp only [List.mem_flatMap, dump_nil, List.mem_filterMap, Option.map_eq_some_iff]
  constructor
  · rintro ⟨path, hpath, slot, -, entry, hentry, rfl⟩
    exact ⟨path, hpath, slot, entry, hentry, rfl⟩
  · rintro ⟨path, hpath, slot, entry, hentry, rfl⟩
    exact ⟨path, hpath, slot, by cases slot <;> simp, entry, hentry, rfl⟩

end Plan

namespace Session

variable {s : Session} {full : Bytes} {path : String} {slot : Slot} {entry : Entry}
  {place : Place} {paths : List String}

/-! ## The data of a dump -/

/-- The direct part of a dump stands behind the indirect one. -/
lemma length_part_indirect {map : SymbolMap} {ident : String} {memory : Nat}
    (h : ∀ entry ∈ map.targets ident, entry.Within full memory) :
    (map.part full ident .indirect).length = map.shift ident := by
  rw [SymbolMap.part, SymbolMap.shift]
  cases hentry : map.target? ident .indirect with
  | none => rfl
  | some entry => exact (h entry (SymbolMap.mem_targets hentry)).length_slice

lemma start_lt {map : SymbolMap} {ident : String} {memory : Nat}
    (h : ∀ entry ∈ map.targets ident, entry.Within full memory) (slot : Slot) :
    map.start ident slot < positionLimit := by
  have hpositive : 0 < positionLimit := by decide
  cases slot with
  | indirect => exact hpositive
  | direct =>
    rw [SymbolMap.start, SymbolMap.shift]
    cases hentry : map.target? ident .indirect with
    | none => exact hpositive
    | some entry => exact Int.ofNat_lt.1 (h entry (SymbolMap.mem_targets hentry)).room.2.1

/-- What stands in a dump where the data of a slot starts is the part of the slot. -/
lemma slice_dump {trailing : Bytes}
    (hwithin : ∀ entry ∈ s.symbolMap.targets (Path.lastComponent path), entry.Within full s.memory)
    (hcontent : s.disk.content (.file place)
      = s.symbolMap.part full (Path.lastComponent path) .indirect
        ++ s.symbolMap.part full (Path.lastComponent path) .direct ++ trailing)
    (hentry : s.symbolMap.target? (Path.lastComponent path) slot = some entry) :
    (s.disk.content (.file place)).slice (s.symbolMap.start (Path.lastComponent path) slot)
        entry.size
      = full.slice entry.coreOffset entry.size := by
  have hlength := (hwithin entry (SymbolMap.mem_targets hentry)).length_slice
  have hpart : s.symbolMap.part full (Path.lastComponent path) slot
      = full.slice entry.coreOffset entry.size := by
    rw [SymbolMap.part, hentry]
  rw [hcontent, Bytes.slice]
  cases slot with
  | direct =>
    rw [SymbolMap.start, ← length_part_indirect hwithin, List.append_assoc, List.drop_left, hpart,
      List.take_left' hlength]
  | indirect =>
    rw [SymbolMap.start, List.drop_zero, List.append_assoc, hpart, List.take_left' hlength]

/-- The data of a dump can be had. -/
lemma IsDump.data? (h : s.IsDump full path)
    (hwithin : ∀ entry ∈ s.symbolMap.targets (Path.lastComponent path), entry.Within full s.memory)
    (hentry : s.symbolMap.target? (Path.lastComponent path) slot = some entry) :
    (Piece.ofDump s.symbolMap path slot entry).data? s.memory s.disk
      = some (full.slice entry.coreOffset entry.size) := by
  obtain ⟨place, trailing, hresolve, -, hcontent⟩ := h.holds
  have hslice := slice_dump hwithin hcontent hentry
  have hin := hwithin entry (SymbolMap.mem_targets hentry)
  have hstart := start_lt hwithin slot
  simp only [Piece.data?, Piece.ofDump, Piece.aimed, Option.getD_some, hresolve, Disk.readAt,
    Int.toNat_natCast, hslice, Delivery.length, hin.length_slice, Delivery.toBytes]
  exact if_pos ⟨⟨Int.natCast_nonneg _, Int.ofNat_lt.2 hin.position⟩,
    ⟨Int.natCast_nonneg _, Int.ofNat_lt.2 hstart⟩, hin.room, trivial⟩

/-- A piece of a dump succeeds, and its data is the part of its slot. -/
lemma IsDump.attemptOf (hsound : s.Sound place) (h : s.IsDump full path)
    (hwithin : ∀ entry ∈ s.symbolMap.targets (Path.lastComponent path), entry.Within full s.memory)
    (hentry : s.symbolMap.target? (Path.lastComponent path) slot = some entry) :
    (s.attemptOf (.ofDump s.symbolMap path slot entry)).result = .ok () ∧
      s.sourceBytes (Piece.ofDump s.symbolMap path slot entry).placement
        = full.slice entry.coreOffset entry.size :=
  hsound.attemptOf_of_data? rfl h.speakable (h.data? hwithin hentry)

/-! ## All dumps -/

/-- What the dumps lay over a core. -/
lemma mem_layers_dumps (hsound : s.Sound place) (hdumps : ∀ path ∈ paths, s.IsDump full path)
    (hwithin : ∀ path ∈ paths, ∀ entry ∈ s.symbolMap.targets (Path.lastComponent path),
      entry.Within full s.memory)
    (layer : Bytes.Layer) :
    layer ∈ s.layers ((Plan.inTurn (.dump s.symbolMap) [] paths).pieces.map s.attemptOf) ↔
      ∃ path ∈ paths, ∃ entry ∈ s.symbolMap.targets (Path.lastComponent path),
        layer = ⟨entry.coreOffset, full.slice entry.coreOffset entry.size⟩ := by
  simp only [layers, List.mem_map, List.mem_filter, Plan.mem_dumps_nil]
  constructor
  · rintro ⟨a, ⟨⟨piece, ⟨path, hpath, slot, entry, hentry, rfl⟩, rfl⟩, -⟩, rfl⟩
    refine ⟨path, hpath, entry, SymbolMap.mem_targets hentry, ?_⟩
    exact congrArg (Bytes.Layer.mk entry.coreOffset)
      ((hdumps path hpath).attemptOf hsound (hwithin path hpath) hentry).2
  · rintro ⟨path, hpath, entry, hmem, rfl⟩
    obtain ⟨slot, -, hentry⟩ := List.mem_filterMap.1 hmem
    obtain ⟨hresult, hdata⟩ := (hdumps path hpath).attemptOf hsound (hwithin path hpath) hentry
    refine ⟨_, ⟨⟨_, ⟨path, hpath, slot, entry, hentry, rfl⟩, rfl⟩,
      Attempt.isDone_iff.2 hresult⟩, ?_⟩
    exact congrArg (Bytes.Layer.mk entry.coreOffset) hdata

/-- **Parts of a full core make it whole.** -/
lemma overlayAll_dumps (hsound : s.Sound place) (hdumps : ∀ path ∈ paths, s.IsDump full path)
    (hwithin : ∀ path ∈ paths, ∀ entry ∈ s.symbolMap.targets (Path.lastComponent path),
      entry.Within full s.memory)
    (hlacking : s.symbolMap.Lacking (paths.map Path.lastComponent) s.coreContent full) :
    Bytes.overlayAll s.coreContent
        (s.layers ((Plan.inTurn (.dump s.symbolMap) [] paths).pieces.map s.attemptOf))
      = full := by
  have hmem := mem_layers_dumps hsound hdumps hwithin
  refine Bytes.overlayAll_eq_of_parts hlacking.length_le ?_ ?_
  · intro layer hlayer
    obtain ⟨path, hpath, entry, hentry, rfl⟩ := (hmem layer).1 hlayer
    have hin := hwithin path hpath entry hentry
    exact ⟨by rw [hin.length_slice]; exact hin.inside, by rw [hin.length_slice]⟩
  · intro i hi htop
    have hnot : ¬ s.symbolMap.Reaches (paths.map Path.lastComponent) i := by
      rintro ⟨ident, hident, entry, hentry, hcovers⟩
      obtain ⟨path, hpath, rfl⟩ := List.mem_map.1 hident
      have hnone := Bytes.top?_eq_none_iff.1 htop _
        ((hmem _).2 ⟨path, hpath, entry, hentry, rfl⟩)
      rw [Bytes.Layer.get?_eq_none_iff, (hwithin path hpath entry hentry).length_slice] at hnone
      exact hnone hcovers
    by_cases hin : i < s.coreContent.length
    · exact hlacking.kept i hin hnot
    · exact absurd (hlacking.reached i hi (Nat.not_lt.1 hin)) hnot

/-- The regions that one dump fills. -/
lemma regions_dump (hsound : s.Sound place) (h : s.IsDump full path)
    (hwithin : ∀ entry ∈ s.symbolMap.targets (Path.lastComponent path),
      entry.Within full s.memory) :
    ((Plan.dump s.symbolMap [] path).pieces.map s.attemptOf).flatMap Attempt.regions
      = (s.symbolMap.targets (Path.lastComponent path)).map Entry.region := by
  rw [Plan.dump_nil, SymbolMap.targets]
  dsimp only
  induction [Slot.direct, .indirect] with
  | nil => rfl
  | cons slot slots ih =>
    rw [List.filterMap_cons, List.filterMap_cons]
    cases hentry : s.symbolMap.target? (Path.lastComponent path) slot with
    | none => exact ih
    | some entry =>
      have hdone : (s.attemptOf (.ofDump s.symbolMap path slot entry)).isDone = true :=
        Attempt.isDone_iff.2 (h.attemptOf hsound hwithin hentry).1
      simp only [Option.map_some, List.map_cons, List.flatMap_cons, ih, Attempt.regions, hdone]
      rfl

lemma regions_dumps (hsound : s.Sound place) (hdumps : ∀ path ∈ paths, s.IsDump full path)
    (hwithin : ∀ path ∈ paths, ∀ entry ∈ s.symbolMap.targets (Path.lastComponent path),
      entry.Within full s.memory) :
    ((Plan.inTurn (.dump s.symbolMap) [] paths).pieces.map s.attemptOf).flatMap Attempt.regions
      = paths.flatMap fun path =>
        (s.symbolMap.targets (Path.lastComponent path)).map Entry.region := by
  rw [Plan.inTurn_dump_nil]
  dsimp only
  rw [List.map_flatMap, List.flatMap_assoc]
  exact List.flatMap_congr fun path hpath =>
    regions_dump hsound (hdumps path hpath) (hwithin path hpath)

/-- **A core is put together from its dumps.**  Let the core be neither the map nor one of the
dumps.  Whatever it lacks, as long as that lies in ranges of the idents of the dumps: every call
succeeds, the core becomes the full one, and the ledger holds the region of each range. -/
theorem injectAll_reconstructs (hsound : s.Sound place) (hfile : s.disk.IsFile place)
    (hmap : s.map ≠ .file s.core) (hregistry : s.registry = [])
    (hdumps : ∀ path ∈ paths, s.IsDump full path)
    (hwithin : ∀ path ∈ paths, ∀ entry ∈ s.symbolMap.targets (Path.lastComponent path),
      entry.Within full s.memory)
    (hlacking : s.symbolMap.Lacking (paths.map Path.lastComponent) s.coreContent full) :
    (∀ call ∈ s.calls paths, Attempt.status call.2 = .ok true) ∧
      (s.injectAll paths).1.coreContent = full ∧
      (s.injectAll paths).1.ledger = s.ledger ++ paths.flatMap fun path =>
        (s.symbolMap.targets (Path.lastComponent path)).map Entry.region := by
  have hfollows := follows_injectAll s hmap paths
  have hrow := row_injectAll s paths
  rw [hregistry] at hfollows
  have hresult : ∀ piece ∈ (Plan.inTurn (.dump s.symbolMap) [] paths).pieces,
      (s.attemptOf piece).result = .ok () := by
    intro piece hpiece
    obtain ⟨path, hpath, slot, entry, hentry, rfl⟩ := Plan.mem_dumps_nil.1 hpiece
    exact ((hdumps path hpath).attemptOf hsound (hwithin path hpath) hentry).1
  have hharmless : ∀ piece ∈ (Plan.inTurn (.dump s.symbolMap) [] paths).pieces,
      s.Harmless piece := by
    intro piece hpiece
    refine ⟨?_, by rw [Attempt.abort?, hresult piece hpiece]⟩
    obtain ⟨path, hpath, slot, entry, hentry, rfl⟩ := Plan.mem_dumps_nil.1 hpiece
    obtain ⟨q, -, hresolve, hother, -⟩ := (hdumps path hpath).holds
    intro (hreads : s.disk.resolveFile path = .ok s.core)
    rw [hresolve] at hreads
    exact hother (Except.ok.inj hreads)
  obtain ⟨hattempts, -, -⟩ :=
    hfollows.attempts_eq hrow (.refl s) hsound.faults hsound.faults hharmless
  have hstatus : Attempt.status (s.injectAll paths).2 = .ok true := by
    rw [Attempt.status_eq_ok_true_iff, hattempts]
    intro a ha
    obtain ⟨piece, hpiece, rfl⟩ := List.mem_map.1 ha
    exact hresult piece hpiece
  refine ⟨fun call hcall => status_of_mem_calls hstatus hcall, ?_, ?_⟩
  · rw [hrow.coreContent_eq hsound.faults hsound.core hfile, hattempts]
    · exact overlayAll_dumps hsound hdumps hwithin hlacking
    · rw [hattempts]
      intro a ha
      obtain ⟨piece, hpiece, rfl⟩ := List.mem_map.1 ha
      exact (hharmless piece hpiece).source
  · rw [hfollows.ledger, hattempts, regions_dumps hsound hdumps hwithin]

/-- A core of twelve bytes of which two are left, and three dumps of what it lacks. -/
def torn : Session where
  disk :=
    { home := []
      directories := []
      files := [(["core"], [0xee, 0xee, 3, 4, 0xee, 0xee]), (["d", "a"], [5, 6, 1, 2, 0xff]),
        (["b"], [10, 11, 12]), (["c"], [7, 8, 9])] }
  core := .file ["core"]
  map := .lines [some ⟨0, 0x100, 2, 'D', "a"⟩, some ⟨4, 0x200, 2, 'I', "a"⟩,
    some ⟨9, 0x300, 3, 'D', "b"⟩, some ⟨6, 0x400, 3, 'N', "c"⟩]

/-- The first dump leaves a gap that the last one fills. -/
theorem injectAll_reconstructs_torn :
    let t := torn.injectAll ["b", "d/a", "c"]
    t.1.coreContent = [1, 2, 3, 4, 5, 6, 7, 8, 9, 10, 11, 12] ∧
      t.1.ledger = [⟨0x300, 3⟩, ⟨0x100, 2⟩, ⟨0x200, 2⟩, ⟨0x400, 3⟩] := by
  have hdumps : ∀ path ∈ ["b", "d/a", "c"],
      torn.IsDump [1, 2, 3, 4, 5, 6, 7, 8, 9, 10, 11, 12] path := by
    simp only [List.forall_mem_cons, List.not_mem_nil, false_implies, implies_true, and_true]
    refine ⟨⟨by decide, ["b"], [], ?_⟩, ⟨by decide, ["d", "a"], [0xff], ?_⟩,
      ⟨by decide, ["c"], [], ?_⟩⟩ <;> decide +kernel
  have hwithin : ∀ path ∈ ["b", "d/a", "c"],
      ∀ entry ∈ torn.symbolMap.targets (Path.lastComponent path),
        entry.Within [1, 2, 3, 4, 5, 6, 7, 8, 9, 10, 11, 12] torn.memory := by
    decide +kernel
  have hsound : torn.Sound ["core"] := ⟨rfl, rfl, rfl⟩
  obtain ⟨-, hcore, hledger⟩ := injectAll_reconstructs hsound (by decide) (by decide) rfl hdumps
    hwithin ⟨by decide +kernel, by decide +kernel, by decide +kernel⟩
  exact ⟨hcore, hledger.trans (by decide +kernel)⟩

/-- The dumps hold what the core lacks, each for an ident of its own and in ranges that do not meet.
The core may be its own map, or one of the dumps. -/
structure Complements (s : Session) (place : Place) (full : Bytes) (paths : List String) :
    Prop where
  sound : s.Sound place
  file : s.disk.IsFile place
  registry : s.registry = []
  distinct : (paths.map Path.lastComponent).Nodup
  apart : (paths.flatMap fun path => s.symbolMap.targets (Path.lastComponent path)).Pairwise
    fun entry other => entry.coreOffset + entry.size ≤ other.coreOffset ∨
      other.coreOffset + other.size ≤ entry.coreOffset
  within : ∀ path ∈ paths, ∀ entry ∈ s.symbolMap.targets (Path.lastComponent path),
    entry.Within full s.memory
  holds : ∀ path ∈ paths, ∃ q trailing, s.disk.resolveFile path = .ok (.file q) ∧
    s.disk.content (.file q)
      = s.symbolMap.part full (Path.lastComponent path) .indirect
        ++ s.symbolMap.part full (Path.lastComponent path) .direct ++ trailing
  lacking : s.symbolMap.Lacking (paths.map Path.lastComponent) s.coreContent full

/-- A core that is its own map.  The byte that it lacks for `a` separates two fields of the line
for `b`. -/
def selfCovered : Session where
  disk :=
    { home := []
      directories := []
      files := [(["core"], "d 0 1 D a\n0 0 1 D b\n".toUTF8.toList), (["a"], "x".toUTF8.toList),
        (["b"], "y".toUTF8.toList)] }
  core := .file ["core"]
  map := .file (.file ["core"])

lemma complements_selfCovered :
    selfCovered.Complements ["core"] "y 0 1 D a\n0 0x1 D b\n".toUTF8.toList ["a", "b"] where
  sound := ⟨rfl, rfl, rfl⟩
  file := by decide
  registry := rfl
  distinct := by decide +kernel
  apart := by decide +kernel
  within := by decide +kernel
  holds := by
    simp only [List.forall_mem_cons, List.not_mem_nil, false_implies, implies_true, and_true]
    refine ⟨⟨["a"], [], ?_⟩, ⟨["b"], [], ?_⟩⟩ <;> decide +kernel
  lacking := ⟨by decide +kernel, by decide +kernel, by decide +kernel⟩

/-- A core of two bytes that is the dump of its last two, while the dump `b` holds its first. -/
def selfDumped : Session where
  disk :=
    { home := []
      directories := []
      files := [(["core"], [5, 6]), (["b"], [1, 2])] }
  core := .file ["core"]
  map := .lines [some ⟨2, 0x100, 2, 'D', "core"⟩, some ⟨0, 0x200, 2, 'D', "b"⟩]

lemma complements_selfDumped :
    selfDumped.Complements ["core"] [1, 2, 5, 6] ["b", "core"] where
  sound := ⟨rfl, rfl, rfl⟩
  file := by decide
  registry := rfl
  distinct := by decide +kernel
  apart := by decide +kernel
  within := by decide +kernel
  holds := by
    simp only [List.forall_mem_cons, List.not_mem_nil, false_implies, implies_true, and_true]
    refine ⟨⟨["b"], [], ?_⟩, ⟨["core"], [], ?_⟩⟩ <;> decide +kernel
  lacking := ⟨by decide +kernel, by decide +kernel, by decide +kernel⟩

/-- **A core that is its own map, or one of the dumps.**  In the first case the dump `a` spoils the
line for `b`, which then does nothing.  In the second the dump `b` overwrites what the core was to
supply.  So neither of the two conditions on the core is enough without the other. -/
theorem injectAll_not_reconstructs :
    (selfCovered.injectAll ["a", "b"]).1.coreContent = "d 0 1 D a\n0 0x1 D b\n".toUTF8.toList ∧
      (selfDumped.injectAll ["b", "core"]).1.coreContent = [1, 2, 1, 2] ∧
      (¬ ∀ (s : Session) (place : Place) (full : Bytes) (paths : List String),
        s.Complements place full paths →
        (∀ path ∈ paths, s.disk.resolveFile path ≠ .ok s.core) →
          (s.injectAll paths).1.coreContent = full) ∧
      ¬ ∀ (s : Session) (place : Place) (full : Bytes) (paths : List String),
        s.Complements place full paths → s.map ≠ .file s.core →
          (s.injectAll paths).1.coreContent = full := by
  have hcovered : (selfCovered.injectAll ["a", "b"]).1.coreContent
      = "d 0 1 D a\n0 0x1 D b\n".toUTF8.toList := by
    decide +kernel
  have hdumped : (selfDumped.injectAll ["b", "core"]).1.coreContent = [1, 2, 1, 2] := by
    decide +kernel
  refine ⟨hcovered, hdumped, fun hall => ?_, fun hall => ?_⟩
  · have hfull := hall _ _ _ _ complements_selfCovered (by decide +kernel)
    rw [hcovered] at hfull
    exact absurd hfull (by decide +kernel)
  · have hfull := hall _ _ _ _ complements_selfDumped (by decide)
    rw [hdumped] at hfull
    exact absurd hfull (by decide)

end Session

end CoreSplice
