import CoreSplice.Proofs.Injection.Stages
import CoreSplice.Proofs.Injection.Steady
import CoreSplice.Proofs.Override.RoundTrip

/-!
# Advice that works

Direct data whose source held too little is reported with the option that would supply it.  A user
who fills in a file with enough bytes, adds the option and injects the dump again gets the data into
the core.  This goes through every part of an injection: what the failed attempt had passed before
it read, what the option is read as, which override a dump takes, and what the next attempt needs.

**The first injection.**  An attempt that fell short had put the core to its position and made room
for the data (`Session.FallsShort`).  The position is that of the map, whether the source of the
attempt was the dump or an override, so the next attempt has it as well (`Session.LacksDirect`).

**The next injection.**  `Session.Applies` is what the direct part does with the one override that
is pending.  `Session.GoesOn` is what comes after it: the indirect part as it is in a session that
never had the override.

**`Session.injectDump_of_advice`** says that the advice works.  It does so as long as the symbol map
is not lost with the first injection, as it may be if it is the core itself
(`Session.injectDump_of_advice_not_applied`).
-/

namespace CoreSplice

/-- The name leads to a file that holds `count` bytes from the position on. -/
structure Disk.Holds (disk : Disk) (name : String) (node : Node) (position count : Nat) :
    Prop where
  leads : disk.resolveFile name = .ok node
  /-- No file reaches beyond the positions that there are. -/
  position_lt : position < positionLimit
  length : (disk.readAt node position count).length = count

namespace SymbolMap

/-- Direct data is aimed at where the map has its ident. -/
lemma direct_aimed {map : SymbolMap} {ident : String}
    (h : 0 < (map.placements ident).direct.size) :
    (map.placements ident).direct.ident = ident ∧
      0 ≤ (map.placements ident).direct.coreOffset := by
  have htarget := map.direct_of_target? ident
  cases hentry : map.target? ident .direct with
  | none =>
    rw [hentry] at htarget
    exact absurd htarget (Int.ne_of_gt h)
  | some entry =>
    rw [hentry] at htarget
    rw [htarget.2]
    exact ⟨rfl, Int.natCast_nonneg _⟩

end SymbolMap

namespace Session

variable {s t u : Session} {place : Place} {path ident name : String} {p q : Placement}
  {slot : Slot} {n : Int} {problem : TransferProblem}

/-! ## The parts of a dump -/

lemma mem_injectIndirect {a : Attempt} (h : a ∈ (s.injectIndirect path p).2) :
    a = s.attemptOf ⟨{ p with source := some path }, .indirect⟩ := by
  simp only [injectIndirect] at h
  split at h
  · exact (mem_attempt h).2
  · cases h

lemma mem_continued {first : Session × List Attempt} {next : Session → Session × List Attempt}
    {a : Attempt} (h : a ∈ (continued first next).2) : a ∈ first.2 ∨ a ∈ (next first.1).2 := by
  simp only [continued] at h
  split at h
  · exact .inl h
  · exact List.mem_append.1 h

/-- The two parts of a dump that has data. -/
lemma injectDump_of_data {map : SymbolMap} (hmap : s.symbolMap = map)
    (hends : Path.lastComponent path = ident)
    (hdata : ¬ ((map.placements ident).direct.size = 0 ∧
      (map.placements ident).indirect.size = 0)) :
    s.injectDump path
      = continued ((s.report (map.remarks ident)).injectDirect path (map.placements ident).direct)
          fun t => t.injectIndirect path (map.placements ident).indirect := by
  subst hmap hends
  simp only [injectDump, if_neg hdata]

/-- A dump without data makes no attempt. -/
lemma data_of_mem_injectDump {a : Attempt} (h : a ∈ (s.injectDump path).2) :
    ¬ ((s.symbolMap.placements (Path.lastComponent path)).direct.size = 0 ∧
      (s.symbolMap.placements (Path.lastComponent path)).indirect.size = 0) := by
  intro hnone
  simp only [injectDump, if_pos hnone] at h
  cases h

/-! ## What is reported stays reported -/

lemma notices_splice_extends (s : Session) (p : Placement) (slot : Slot) :
    s.notices <+: (s.splice p slot).1.notices := by
  simp only [splice, stages]
  cases s.openSource p with
  | error stop => exact List.prefix_rfl
  | ok node =>
    cases s.seekCore p with
    | error stop => exact List.prefix_rfl
    | ok position =>
      dsimp only
      cases s.afterCoreSeek.collect p node with
      | error stop => exact List.prefix_append _ _
      | ok data =>
        have hnotices := s.afterCoreSeek.notices_store p position data
        dsimp only
        generalize s.afterCoreSeek.store p position data = stored at hnotices
        obtain ⟨t, _ | _⟩ := stored <;> exact hnotices ▸ List.prefix_rfl

lemma notices_injectIndirect_extends (s : Session) (path : String) (p : Placement) :
    s.notices <+: (s.injectIndirect path p).1.notices := by
  rw [injectIndirect]
  split
  · rename_i hsize
    rw [attempt_eq s (p := { p with source := some path }) (Int.ne_of_gt hsize)]
    exact (notices_splice_extends s _ _).trans (List.prefix_append _ _)
  · exact List.prefix_rfl

/-! ## Data that fell short -/

/-- A piece whose source held too little came as far as reading it. -/
structure FallsShort (s : Session) (p : Placement) (slot : Slot) (ident : String) (n : Int) :
    Prop where
  ident_eq : p.ident = ident
  size_eq : p.size = n
  positioned : s.coreSeekProblem? p.coreOffset = none
  room : HasRoom s.memory n
  notices : (s.splice p slot).1.notices
    = s.notices ++ if slot = .direct then [.advice ident n] else []

lemma fallsShort (h : (s.splice p slot).2 = .error (.failure (.shortRead ident name n problem))) :
    s.FallsShort p slot ident n := by
  cases fails_of_splice h with
  | shortRead _ hopen hposition hroom =>
    obtain ⟨source, hsource, hspeakable⟩ := speakable_of_openSource hopen
    refine ⟨rfl, rfl, hposition, hroom, ?_⟩
    rw [notices_splice s hsource hspeakable, h]
    rfl

/-- An override changes the source of a placement, and nothing of its target. -/
lemma target_redirect (s : Session) (p : Placement) :
    (s.redirect p).2.ident = p.ident ∧ (s.redirect p).2.coreOffset = p.coreOffset := by
  simp only [redirect, Registry.redirect?]
  cases s.registry.firstFor? p.ident <;> exact ⟨rfl, rfl⟩

/-- Direct data was not to be had, though `n` bytes of it would have had a place in the core. -/
structure LacksDirect (s : Session) (q : Placement) (n : Int) : Prop where
  asked : 0 < q.size
  coreIsOpen : s.coreIsOpen = true
  position : s.core.HasPosition q.coreOffset
  size_pos : 0 < n
  room : HasRoom s.memory n

/-- What is outside of the core does not depend on the faults to come. -/
lemma SameOutside.withFaults (h : s.SameOutside t) (faults : FaultPlan) :
    s.SameOutside { t with faults } :=
  ⟨h.core, h.coreIsOpen, h.memory, h.names, h.others⟩

/-- Redirecting a placement changes nothing that pieces of data look at. -/
lemma sameOutside_redirect (s : Session) (p : Placement) : s.SameOutside (s.redirect p).1 := by
  have hrow : s.Row [] (s.redirect p).1 := bare_redirect s p
  exact hrow.sameOutside

/-- The source of a direct part that fell short was the dump or an override. -/
lemma lacksDirect_of_direct
    (h : ⟨p, .direct, .error (.failure (.shortRead ident name n problem))⟩
      ∈ (s.injectDirect path q).2) :
    q.ident = ident ∧ s.LacksDirect q n ∧ .advice ident n ∈ (s.injectDirect path q).1.notices := by
  by_cases hasked : 0 < q.size
  case neg =>
    rw [injectDirect, if_neg hasked] at h
    cases h
  case pos =>
    rw [injectDirect, if_pos hasked] at h ⊢
    dsimp only at h ⊢
    obtain ⟨hsize, hattempt⟩ := mem_attempt h
    have hshort := fallsShort (congrArg Attempt.result hattempt).symm
    obtain ⟨-, hopen, hposition⟩ := coreSeekProblem?_eq_none.1 hshort.positioned
    -- The override would have taken the same place.
    obtain ⟨hident, hoffset⟩ := s.target_redirect { q with source := some path }
    have hsame := s.sameOutside_redirect { q with source := some path }
    rw [hsame.coreIsOpen] at hopen
    rw [hsame.core, hoffset] at hposition
    have hroom := hshort.room
    rw [hsame.memory] at hroom
    have hpositive : 0 < n :=
      Int.lt_iff_le_and_ne.2 ⟨hroom.1, Ne.symm (hshort.size_eq ▸ hsize)⟩
    refine ⟨hident.symm.trans hshort.ident_eq, ⟨hasked, hopen, hposition, hpositive, hroom⟩, ?_⟩
    rw [attempt_eq _ hsize, report, hshort.notices, if_pos rfl]
    exact List.mem_append_left _ (List.mem_append_right _ List.mem_cons_self)

/-- **Direct data that fell short** lacks nothing but its bytes. -/
lemma lacksDirect
    (h : ⟨p, .direct, .error (.failure (.shortRead ident name n problem))⟩
      ∈ (s.injectDump path).2) :
    Path.lastComponent path = ident ∧ s.LacksDirect (s.symbolMap.placements ident).direct n ∧
      .advice ident n ∈ (s.injectDump path).1.notices := by
  have hdump := injectDump_of_data rfl rfl (data_of_mem_injectDump h)
  rw [hdump] at h
  rcases mem_continued h with hdirect | hindirect
  case inr => cases congrArg Attempt.slot (mem_injectIndirect hindirect)
  obtain ⟨hident, hlacks, hadvised⟩ := lacksDirect_of_direct hdirect
  obtain rfl : Path.lastComponent path = ident := by
    rw [← hident, (SymbolMap.direct_aimed hlacks.asked).1]
  refine ⟨rfl, ⟨hlacks.asked, hlacks.coreIsOpen, hlacks.position, hlacks.size_pos,
    hlacks.room⟩, ?_⟩
  rw [hdump, continued]
  split
  · exact hadvised
  · exact (notices_injectIndirect_extends _ path _).subset hadvised

/-- Enough bytes are all that is wanted of an override. -/
lemma LacksDirect.data? (h : s.LacksDirect q n) (hnonneg : 0 ≤ q.coreOffset) {disk : Disk}
    {node : Node} {m : Nat} (hholds : disk.Holds name node m n.toNat) :
    Piece.data? s.memory disk
        ⟨Override.redirect { ident, size := n, source := name, offset := m } q, .direct⟩
      = some (disk.readAt node m n.toNat).toBytes := by
  have hlimit := (Node.hasPosition_iff_of_nonneg hnonneg).1 h.position
  have hposition : (m : Int) < positionLimit := Int.ofNat_lt.2 hholds.position_lt
  simp only [Piece.data?, Override.redirect, Option.getD_some, hholds.leads, Int.toNat_natCast]
  exact if_pos ⟨⟨hnonneg, hlimit⟩, ⟨Int.natCast_nonneg m, hposition⟩, h.room, hholds.length⟩

/-! ## The direct part -/

/-- The direct part of a dump applied the override `o`, which was the one to be applied, and put
its data into the core.  The session `s` is one without the override. -/
structure Applies (s : Session) (o : Override) (q : Placement) (data : Bytes)
    (done : Session × List Attempt) : Prop where
  attempts : done.2 = [⟨o.redirect q, .direct, .ok ()⟩]
  registry : done.1.registry = s.registry ++ [o.consume]
  reported : .applied o q.ident ∈ done.1.notices
  ledger : done.1.ledger = s.ledger ++ [⟨q.memAddress, o.size⟩]
  content : done.1.coreContent = s.coreContent.overlay q.coreOffset.toNat data
  /-- So the data stands at the target. -/
  placed : done.1.coreContent.slice q.coreOffset.toNat o.size.toNat = data

lemma firstFor?_append {registry : Registry} {o : Override}
    (hspent : ∀ other ∈ registry, other.isPendingFor ident = false)
    (ho : o.isPendingFor ident = true) :
    Registry.firstFor? (registry ++ [o]) ident = some (registry.length, o) :=
  firstMatch?_eq_some_iff.2 ⟨List.getElem?_concat_length, ho, by simpa using hspent⟩

lemma consumeAt_append (registry : Registry) (o : Override) :
    Registry.consumeAt (registry ++ [o]) registry.length = registry ++ [o.consume] := by
  rw [Registry.consumeAt, List.modify_eq_take_drop, List.take_left, List.drop_left,
    List.modifyHead_cons]

/-- A piece whose data can be had gets it into the core. -/
lemma Sound.splice_of_data? (h : s.Sound place) (hfile : s.disk.IsFile place)
    (hsource : p.source = some name) (hspeakable : Disk.isUnspeakable name = false) {data : Bytes}
    (hdata : Piece.data? s.memory s.disk ⟨p, slot⟩ = some data) :
    (s.splice p slot).2 = .ok () ∧ data.length = p.size.toNat ∧
      (s.splice p slot).1.coreContent = s.coreContent.overlay p.coreOffset.toNat data := by
  obtain ⟨hok, hbytes⟩ : (s.splice p slot).2 = .ok () ∧ s.sourceBytes p = data :=
    h.attemptOf_of_data? hsource hspeakable hdata
  have hdone : (s.attemptOf ⟨p, slot⟩).isDone = true := Attempt.isDone_iff.2 hok
  have hreached : reachedWrite (s.splice p slot).2 = true := by rw [hok]; rfl
  refine ⟨hok, hbytes ▸ (length_sourceBytes hreached).1, ?_⟩
  have hdisk := disk_splice h.faults h.core p slot
  rw [if_pos hdone, hbytes, h.core] at hdisk
  rw [coreContent, (sameSetting_splice s p slot).core, h.core, hdisk, Disk.content_put_self _ hfile]

/-- The one pending override of an ident is what the direct part takes. -/
lemma redirect_registered {o : Override}
    (hspent : ∀ other ∈ s.registry, other.isPendingFor q.ident = false)
    (ho : o.isPendingFor q.ident = true) (remarks : List Diagnostic) (source : Option String) :
    ((s.register o).report remarks).redirect { q with source }
      = ({ (s.register o).report remarks with registry := s.registry ++ [o.consume] }.report
          [.applied o q.ident], o.redirect q) := by
  have hfirst : Registry.firstFor? (s.registry.add o) q.ident = some (s.registry.length, o) :=
    firstFor?_append hspent ho
  simp only [redirect, Registry.redirect?, register, report, hfirst, Option.map_some]
  rw [Registry.add, consumeAt_append]
  rfl

/-- **The one pending override** is applied, and its data gets into the core. -/
lemma applies_injectDirect (h : s.Sound place) (hfile : s.disk.IsFile place) {o : Override}
    (hspent : ∀ other ∈ s.registry, other.isPendingFor q.ident = false)
    (ho : o.isPendingFor q.ident = true) (hsize : 0 < q.size) (hpositive : 0 < o.size)
    (hspeakable : Disk.isUnspeakable o.source = false) {data : Bytes}
    (hdata : Piece.data? s.memory s.disk ⟨o.redirect q, .direct⟩ = some data)
    (remarks : List Diagnostic) (path : String) :
    s.Applies o q data (((s.register o).report remarks).injectDirect path q) := by
  have hredirect := redirect_registered hspent ho remarks (some path)
  obtain ⟨t, ht⟩ : ∃ t : Session, { (s.register o).report remarks with
      registry := s.registry ++ [o.consume] }.report [.applied o q.ident] = t := ⟨_, rfl⟩
  have hbare : t.bare = s.bare := by rw [← ht]; rfl
  obtain ⟨hdisk, hcore, -⟩ := eq_of_bare hbare
  obtain ⟨hok, hlength, hcontent⟩ := (h.of_bare hbare).splice_of_data? (p := o.redirect q)
    (hdisk ▸ hfile) rfl hspeakable (by rwa [hdisk, memory_of_bare hbare])
  rw [coreContent_of_bare hbare] at hcontent
  have hdone : ((s.register o).report remarks).injectDirect path q
      = ((t.splice (o.redirect q) .direct).1.report [], [⟨o.redirect q, .direct, .ok ()⟩]) := by
    rw [injectDirect, if_pos hsize, hredirect, ht]
    dsimp only
    rw [attempt_eq t (p := o.redirect q) (Int.ne_of_gt hpositive), attemptOf, hok]
    rfl
  rw [hdone]
  constructor
  case attempts => rfl
  case registry =>
    show (t.splice (o.redirect q) .direct).1.registry = _
    rw [(sameSetting_splice t (o.redirect q) .direct).registry, ← ht]
    rfl
  case reported =>
    refine List.mem_append_left _ ((notices_splice_extends t _ _).subset ?_)
    rw [← ht]
    exact List.mem_append_right _ List.mem_cons_self
  case ledger =>
    show (t.splice (o.redirect q) .direct).1.ledger = _
    rw [(noted_splice t (o.redirect q) .direct).1, hok, ← ht]
    rfl
  case content => exact hcontent
  case placed =>
    have hplaced := Bytes.slice_overlay s.coreContent q.coreOffset.toNat data
    rw [hlength] at hplaced
    exact (congrArg (Bytes.slice · _ _) hcontent).trans hplaced

/-! ## The indirect part -/

lemma Row.isFile_iff {attempts : List Attempt} (hrow : s.Row attempts t) :
    t.disk.IsFile place ↔ s.disk.IsFile place := by
  rw [(eq_of_bare hrow.bare_eq).1, isFile_after]

/-- The indirect part changes no override and notes its attempts. -/
lemma notes_injectIndirect (s : Session) (path : String) (p : Placement) :
    (s.injectIndirect path p).1.registry = s.registry ∧
      (s.injectIndirect path p).1.ledger
        = s.ledger ++ (s.injectIndirect path p).2.flatMap Attempt.regions := by
  rw [injectIndirect]
  split
  · rename_i hsize
    rw [attempt_eq s (p := { p with source := some path }) (Int.ne_of_gt hsize)]
    refine ⟨(sameSetting_splice s _ _).registry, ?_⟩
    rw [List.flatMap_singleton]
    exact (noted_splice s _ _).1
  · exact ⟨rfl, (List.append_nil _).symm⟩

/-- The indirect part does not depend on what the direct part made of the core. -/
lemma SameOutside.attempts_injectIndirect (h : s.SameOutside t) (hs : s.faults = {})
    (ht : t.faults = {}) (hpath : s.disk.resolveFile path ≠ .ok s.core) (p : Placement) :
    (t.injectIndirect path p).2 = (s.injectIndirect path p).2 := by
  rw [injectIndirect, injectIndirect]
  split
  · rename_i hsize
    have hzero : ({ p with source := some path } : Placement).size ≠ 0 := Int.ne_of_gt hsize
    rw [attempt_eq t hzero, attempt_eq s hzero]
    exact congrArg (fun a => [a]) (h.attemptOf hs ht hpath)
  · rfl

/-- After the direct part the indirect part of a dump goes on as it does in the session `s`: with
the same attempts, which lay the same data over the core. -/
structure GoesOn (s : Session) (path : String) (p : Placement)
    (direct done : Session × List Attempt) : Prop where
  attempts : done.2 = direct.2 ++ (s.injectIndirect path p).2
  registry : done.1.registry = direct.1.registry
  ledger : done.1.ledger
    = direct.1.ledger ++ (s.injectIndirect path p).2.flatMap Attempt.regions
  content : done.1.coreContent
    = Bytes.overlayAll direct.1.coreContent (s.layers (s.injectIndirect path p).2)
  alone : (s.injectIndirect path p).1.coreContent
    = Bytes.overlayAll s.coreContent (s.layers (s.injectIndirect path p).2)

lemma SameOutside.goesOn {direct : Session × List Attempt} (h : s.SameOutside direct.1)
    (hs : s.Sound place) (hdirect : direct.1.faults = {}) (hfile : s.disk.IsFile place)
    (hfile' : direct.1.disk.IsFile place) (hpath : s.disk.resolveFile path ≠ .ok s.core)
    (hgone : direct.2.findSome? Attempt.abort? = none) (p : Placement) :
    s.GoesOn path p direct (continued direct fun t => t.injectIndirect path p) := by
  have hattempts := h.attempts_injectIndirect hs.faults hdirect hpath p
  have hsources : ∀ a ∈ (s.injectIndirect path p).2, ¬ s.ReadsCore a.placement := by
    intro a ha
    rw [mem_injectIndirect ha]
    exact hpath
  have hrow := row_injectIndirect direct.1 path p
  obtain ⟨hregistry, hledger⟩ := notes_injectIndirect direct.1 path p
  rw [hattempts] at hrow hledger
  have hcontinued : continued direct (fun t => t.injectIndirect path p)
      = ((direct.1.injectIndirect path p).1, direct.2 ++ (s.injectIndirect path p).2) := by
    rw [continued, hgone, if_neg (by simp), ← hattempts]
  rw [hcontinued]
  refine ⟨rfl, hregistry, hledger, ?_, ?_⟩
  · have hcontent := hrow.coreContent_eq hdirect (h.core.trans hs.core) hfile'
      fun a ha hreads => hsources a ha ((h.readsCore_iff _).1 hreads)
    rwa [h.layers hsources] at hcontent
  · exact (row_injectIndirect s path p).coreContent_eq hs.faults hs.core hfile hsources

/-- **The indirect part** goes on whatever was taken for direct data. -/
lemma Sound.goesOn_injectDirect (h : s.Sound place) (hfile : s.disk.IsFile place)
    (hpath : s.disk.resolveFile path ≠ .ok s.core) (ht : t.bare = s.bare)
    (hgone : (t.injectDirect path p).2.findSome? Attempt.abort? = none) :
    s.GoesOn path q (t.injectDirect path p)
      (continued (t.injectDirect path p) fun u => u.injectIndirect path q) := by
  have hrow : s.Row (t.injectDirect path p).2 (t.injectDirect path p).1 :=
    (row_injectDirect t path p).congr ht.symm rfl
  exact hrow.sameOutside.goesOn h (hrow.faults h.faults) hfile (hrow.isFile_iff.2 hfile) hpath
    hgone q

/-! ## The option -/

/-- A position has few enough digits to be written and read. -/
lemma length_repr_le {position : Nat} (h : position < positionLimit) :
    (Nat.repr position).length ≤ 4300 := by
  have hpow : positionLimit ≤ 10 ^ 20 := by decide
  rw [← String.length_toList, Nat.toList_repr]
  refine Nat.le_trans (m := 20) ?_ (by decide)
  exact (Nat.length_toDigits_le_iff (by decide) (by decide)).2 (Nat.lt_of_lt_of_le h hpow)

/-- The option that the advice asks for is read as the override that it stands for. -/
lemma parse_option {file : String} {m : Nat} (hident : ident ≠ "") (hcolon : ':' ∉ ident.toList)
    (hfile : file ≠ "") (hplus : '+' ∉ file.toList) (hn : 0 < n)
    (hsize : n < positionLimit) (hm : m < positionLimit) :
    Override.parse (Override.option ident (Text.Decimal.write n) file (Text.Decimal.write m))
      = .ok { ident, size := n, source := file, offset := m } := by
  have hwrite {v : Int} (hv : 0 ≤ v) : Text.Decimal.write v = Nat.repr v.natAbs := by
    rw [Text.Decimal.write, if_neg (Int.not_lt.2 hv), String.empty_append]
  rw [hwrite (Int.le_of_lt hn), hwrite (Int.natCast_nonneg m)]
  refine Override.parse_eq_ok_iff.2 ⟨.ofOverride { ident, size := n, source := file, offset := m },
    ⟨Override.Form.fits_ofOverride hident hcolon hfile hplus, .inl rfl⟩,
    ⟨length_repr_le (show n.natAbs < positionLimit by omega), length_repr_le hm⟩, ?_⟩
  exact (Override.Form.override_ofOverride (o := { ident, size := n, source := file, offset := m })
    (Int.le_of_lt hn) (Int.natCast_nonneg m)).symm

/-! ## The advice -/

/-- **The advice works.**  Let direct data of a dump fall short, for whatever reason, and let no
override of its ident be pending afterwards.  Then an option was reported in which a file and an
offset are left to be filled in.  Fill in a file that holds enough bytes, add the option, and
inject the dump again, without faults: the option is read as an override, the direct part applies it
and nothing else, its bytes stand in the core where the map puts the direct data, and the indirect
part is what it would be if the override had never been added.  A map that is the core itself must
have come through the first injection as it was. -/
theorem injectDump_of_advice {file : String} {node : Node} {m : Nat}
    (hcore : s.core = .file place) (hplace : s.disk.IsFile place)
    (hshort : ⟨p, .direct, .error (.failure (.shortRead ident name n problem))⟩
      ∈ (s.injectDump path).2)
    (hident : ident ≠ "") (hcolon : ':' ∉ ident.toList)
    (hspent : ∀ o ∈ (s.injectDump path).1.registry, o.isPendingFor ident = false)
    (hmap : s.map = .file s.core → (s.injectDump path).1.symbolMap = s.symbolMap)
    (hpath : s.disk.resolveFile path ≠ .ok s.core)
    (hfile : file ≠ "") (hplus : '+' ∉ file.toList) (hspeakable : Disk.isUnspeakable file = false)
    (hholds : (s.injectDump path).1.disk.Holds file node m n.toNat) :
    let t : Session := { (s.injectDump path).1 with faults := {} }
    let argument := Override.option ident (Text.Decimal.write n) file (Text.Decimal.write m)
    let o : Override := { ident, size := n, source := file, offset := m }
    let u := (t.perform (.add argument)).1
    let found := s.symbolMap.placements ident
    let direct := (u.report (s.symbolMap.remarks ident)).injectDirect path found.direct
    let without := (t.report (s.symbolMap.remarks ident)).injectDirect path found.direct
    (.advice ident n ∈ (s.injectDump path).1.notices ∧
      (Diagnostic.advice ident n).message? = some ("specify the data source for " ++ ident ++
        " with: " ++ Override.option ident (Text.Decimal.write n) "<filename>" "<offset>")) ∧
      (Override.parse argument = .ok o ∧ u = t.register o) ∧
      t.Applies o found.direct (t.disk.readAt node m n.toNat).toBytes direct ∧
      t.GoesOn path found.indirect direct (u.injectDump path) ∧
      (without.2.findSome? Attempt.abort? = none →
        t.GoesOn path found.indirect without (t.injectDump path)) := by
  intro t argument o u found direct without
  obtain ⟨hends, hlacks, hadvised⟩ := lacksDirect hshort
  obtain ⟨haimed, hnonneg⟩ := SymbolMap.direct_aimed hlacks.asked
  -- The first injection left everything as it was, apart from the core.
  have hrow := row_injectDump s path
  have hsame : s.SameOutside t := hrow.sameOutside.withFaults {}
  have hsound : t.Sound place :=
    ⟨rfl, hsame.coreIsOpen.trans hlacks.coreIsOpen, hsame.core.trans hcore⟩
  have hplace' : t.disk.IsFile place := hrow.isFile_iff.2 hplace
  have hpath' : t.disk.resolveFile path ≠ .ok t.core := by rwa [hsame.names, hsame.core]
  have hmap' : t.symbolMap = s.symbolMap := by
    by_cases hcoreMap : s.map = .file s.core
    · exact hmap hcoreMap
    · exact (symbolMap_of_row hrow hcoreMap).1
  have hparse : Override.parse argument = .ok o :=
    parse_option hident hcolon hfile hplus hlacks.size_pos hlacks.room.2.1 hholds.position_lt
  have hu : u = t.register o := by simp only [u, perform, hparse]
  have happlies : t.Applies o found.direct (t.disk.readAt node m n.toNat).toBytes direct := by
    have hpending : o.isPendingFor found.direct.ident = true := by
      simp [Override.isPendingFor, o, found, haimed]
    have h := applies_injectDirect hsound hplace' (haimed.symm ▸ hspent) hpending hlacks.asked
      hlacks.size_pos hspeakable (hsame.memory ▸ hlacks.data? hnonneg hholds)
      (s.symbolMap.remarks ident) path
    rwa [← hu] at h
  have hdata : ¬ (found.direct.size = 0 ∧ found.indirect.size = 0) :=
    fun hnone => Int.ne_of_gt hlacks.asked hnone.1
  refine ⟨⟨hadvised, rfl⟩, ⟨hparse, hu⟩, happlies, ?_, ?_⟩
  · have hsymbols : u.symbolMap = s.symbolMap := by rw [hu]; exact hmap'
    rw [injectDump_of_data hsymbols hends hdata]
    exact hsound.goesOn_injectDirect hplace' hpath' (by rw [hu]; rfl)
      (by rw [happlies.attempts]; rfl)
  · intro hgone
    rw [injectDump_of_data hmap' hends hdata]
    exact hsound.goesOn_injectDirect hplace' hpath' rfl hgone

/-- A session whose first override for the dump supplies too little, and which meets a fault when it
reads the indirect data. -/
def stinted : Session where
  disk :=
    { home := []
      directories := [["d"]]
      files := [(["core"], List.replicate 8 0xee), (["d", "a"], [0xd0, 0xd1]),
        (["short"], [0xb0, 0xb1]), (["a b"], [0xf0, 0xf1, 0xf2, 0xf3, 0xf4])] }
  core := .file ["core"]
  map := .lines [some ⟨2, 0x100, 4, 'D', "a"⟩, some ⟨6, 0x200, 1, 'I', "a"⟩]
  faults := { nextSources := [{}, { read := some (.error (.numbered 5)) }] }
  registry := [⟨"x", 1, "short", 0, false⟩, ⟨"a", 3, "short", 0, false⟩]

/-- The size in the advice is that of the override which was spent.  The file that is filled in has
a blank in its name, and three bytes from its third on. -/
theorem injectDump_of_advice_stinted :
    let t : Session := { (stinted.injectDump "d/a").1 with faults := {} }
    let m : Nat := 2
    let argument := Override.option "a" (Text.Decimal.write 3) "a b" (Text.Decimal.write m)
    let u := (t.perform (.add argument)).1
    let o : Override := { ident := "a", size := 3, source := "a b", offset := m }
    argument = "--data=a:3@a b+2" ∧
      (stinted.injectDump "d/a").1.coreContent = List.replicate 8 0xee ∧
      .advice "a" 3 ∈ (stinted.injectDump "d/a").1.notices ∧
      (u.injectDump "d/a").2.map Attempt.isDone = [true, true] ∧
      (u.injectDump "d/a").1.registry = t.registry ++ [o.consume] ∧
      (u.injectDump "d/a").1.ledger = [⟨0x100, 3⟩, ⟨0x200, 1⟩] ∧
      (u.injectDump "d/a").1.coreContent
        = [0xee, 0xee, 0xf2, 0xf3, 0xf4, 0xee, 0xd0, 0xee] := by
  intro t m argument u o
  have hfirst : (stinted.injectDump "d/a").2
      = [⟨{ ident := "a", coreOffset := 2, memAddress := 0x100, size := 3, source := some "short" },
          .direct, .error (.failure (.shortRead "a" "short" 3 (.partly 2)))⟩,
        ⟨{ ident := "a", coreOffset := 6, memAddress := 0x200, size := 1, source := some "d/a" },
          .indirect, .error (.failure (.shortRead "a" "d/a" 1 (.system (.numbered 5))))⟩] := by
    rfl
  have hplace : stinted.disk.IsFile ["core"] := by decide
  have hholds : (stinted.injectDump "d/a").1.disk.Holds "a b" (.file ["a b"]) m 3 :=
    ⟨by decide +kernel, by decide, by decide +kernel⟩
  obtain ⟨⟨hadvised, -⟩, -, happlies, hgoes, -⟩ := injectDump_of_advice rfl hplace
    (hfirst ▸ List.mem_cons_self) (by decide) (by decide) (by decide +kernel) (by decide)
    (by decide +kernel) (by decide) (by decide) (by decide) hholds
  exact ⟨by decide +kernel, by decide +kernel, hadvised, by decide +kernel,
    hgoes.registry.trans happlies.registry, by decide +kernel, by decide +kernel⟩

deriving instance DecidableEq for Attempt

/-- A core that is its own map.  The indirect data of `a` is the kind of its line of direct data,
and the override for that data has an empty source. -/
def selfErasing : Session where
  disk :=
    { home := []
      directories := []
      files := [(["core"], "0 0 1 D a\n6 0 1 I a\n".toUTF8.toList), (["a"], "z".toUTF8.toList),
        (["s"], []), (["f"], "y".toUTF8.toList)] }
  core := .file ["core"]
  map := .file (.file ["core"])
  registry := [⟨"a", 1, "s", 0, false⟩]

/-- **A core that is its own map.**  The indirect part of the first injection writes over the line
of the direct data that fell short, so there is no direct part in the next one, and the override
that was added stays pending. -/
theorem injectDump_of_advice_not_applied :
    let s := selfErasing
    let t : Session := { (s.injectDump "a").1 with faults := {} }
    let u := (t.perform (.add "--data=a:1@f+0")).1
    .advice "a" 1 ∈ (s.injectDump "a").1.notices ∧
      u.registry = t.registry ++ [⟨"a", 1, "f", 0, false⟩] ∧
      (u.injectDump "a").2
        = [⟨{ ident := "a", coreOffset := 6, size := 1, source := some "a" }, .indirect, .ok ()⟩] ∧
      (u.injectDump "a").1.registry = u.registry ∧
      ¬ ∀ (s : Session) (place : Place) (p : Placement) (path ident name file : String) (n : Int)
          (problem : TransferProblem) (node : Node) (m : Nat),
        s.core = .file place → s.disk.IsFile place →
        ⟨p, .direct, .error (.failure (.shortRead ident name n problem))⟩
          ∈ (s.injectDump path).2 →
        ident ≠ "" → ':' ∉ ident.toList →
        (∀ o ∈ (s.injectDump path).1.registry, o.isPendingFor ident = false) →
        s.disk.resolveFile path ≠ .ok s.core → file ≠ "" → '+' ∉ file.toList →
        Disk.isUnspeakable file = false →
        (s.injectDump path).1.disk.Holds file node m n.toNat → node ≠ s.core →
          let t : Session := { (s.injectDump path).1 with faults := {} }
          let argument := Override.option ident (Text.Decimal.write n) file (Text.Decimal.write m)
          let o : Override := { ident, size := n, source := file, offset := m }
          (((t.perform (.add argument)).1).injectDump path).1.registry
            = t.registry ++ [o.consume] := by
  intro s t u
  have hadded : u.registry = t.registry ++ [⟨"a", 1, "f", 0, false⟩] := by decide +kernel
  have hkept : (u.injectDump "a").1.registry = u.registry := by decide +kernel
  refine ⟨by decide +kernel, hadded, by decide +kernel, hkept, ?_⟩
  intro hall
  have hfirst : (s.injectDump "a").2
      = [⟨{ ident := "a", size := 1, source := some "s" }, .direct,
          .error (.failure (.shortRead "a" "s" 1 (.partly 0)))⟩,
        ⟨{ ident := "a", coreOffset := 6, size := 1, source := some "a" }, .indirect, .ok ()⟩] := by
    decide +kernel
  have hholds : (s.injectDump "a").1.disk.Holds "f" (.file ["f"]) 0 1 :=
    ⟨by decide +kernel, by decide, by decide +kernel⟩
  have happlied : (u.injectDump "a").1.registry = t.registry ++ [⟨"a", 1, "f", 0, true⟩] :=
    hall s ["core"] _ "a" "a" "s" "f" 1 _ _ 0 rfl (by decide) (hfirst ▸ List.mem_cons_self)
      (by decide) (by decide) (by decide +kernel) (by decide +kernel) (by decide) (by decide)
      (by decide) hholds (by decide)
  rw [hkept, hadded, List.append_cancel_left_eq] at happlied
  exact absurd happlied (by decide)

end Session

end CoreSplice
