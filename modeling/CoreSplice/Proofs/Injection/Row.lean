import CoreSplice.Proofs.Injection.Splice

/-!
# Every operation is a row of pieces of data

An operation on a session looks up idents, applies overrides and reports, but all that it does to
a file it does by putting pieces of data into the core, one after the other.  How a piece ends
depends on the files and on the faults that are due, and on nothing else, so an operation can be
replayed from the attempts that it made.  What holds of one piece then carries over to a sequence
of operations by an induction over the row of attempts.

* `Session.bare` — a session without what putting data into the core does not look at.
* `Session.Row` — the session leads to another one by the given attempts, each of them ending as
  it really ends.
* `Session.after` — the session after the pieces of the given attempts.
* `Operation`, `Session.performAll` — what a user of the injector may do, in any order.
* **`Session.row_performAll`** — every sequence of operations is a row of its attempts.
-/

namespace CoreSplice

namespace Session

/-! ## What a piece of data looks at -/

/-- The session without registry, notes and reports. -/
def bare (s : Session) : Session :=
  { s with registry := [], ledger := [], printed := [], notices := [] }

lemma eq_of_bare {s t : Session} (h : s.bare = t.bare) :
    s.disk = t.disk ∧ s.core = t.core ∧ s.map = t.map ∧ s.faults = t.faults :=
  ⟨show s.bare.disk = t.bare.disk by rw [h], show s.bare.core = t.bare.core by rw [h],
    show s.bare.map = t.bare.map by rw [h], show s.bare.faults = t.bare.faults by rw [h]⟩

lemma memory_of_bare {s t : Session} (h : s.bare = t.bare) : s.memory = t.memory :=
  show s.bare.memory = t.bare.memory by rw [h]

lemma store_bare (s : Session) (p : Placement) (position : Nat) (data : Delivery) :
    (s.bare.store p position data).2 = (s.store p position data).2 ∧
      (s.bare.store p position data).1.bare = (s.store p position data).1.bare := by
  simp only [store, bare, withCoreFaults]
  split
  · exact ⟨rfl, rfl⟩
  · split
    · exact ⟨rfl, rfl⟩
    · split <;> exact ⟨rfl, rfl⟩

lemma splice_bare (s : Session) (p : Placement) (slot : Slot) :
    (s.bare.splice p slot).2 = (s.splice p slot).2 ∧
      (s.bare.splice p slot).1.bare = (s.splice p slot).1.bare := by
  have hopen : s.bare.openSource p = s.openSource p := rfl
  have hseek : s.bare.seekCore p = s.seekCore p := rfl
  have hcollect (node : Node) :
      s.bare.afterCoreSeek.collect p node = s.afterCoreSeek.collect p node := rfl
  simp only [splice, stages, hopen, hseek, hcollect]
  cases s.openSource p with
  | error stop => exact ⟨rfl, rfl⟩
  | ok node =>
    cases s.seekCore p with
    | error stop => exact ⟨rfl, rfl⟩
    | ok position =>
      dsimp only
      cases s.afterCoreSeek.collect p node with
      | error stop => exact ⟨rfl, rfl⟩
      | ok data =>
        obtain ⟨hresult, hfiles⟩ := store_bare s.afterCoreSeek p position data
        have hafter : s.bare.afterCoreSeek = s.afterCoreSeek.bare := rfl
        rw [hafter]
        dsimp only
        generalize s.afterCoreSeek.bare.store p position data = first at hresult hfiles
        generalize s.afterCoreSeek.store p position data = second at hresult hfiles
        rcases first with ⟨t, _ | _⟩ <;> rcases second with ⟨u, _ | _⟩
        · cases hresult
          exact ⟨rfl, congrArg afterSource hfiles⟩
        · cases hresult
        · cases hresult
        · exact ⟨rfl, congrArg afterSource hfiles⟩

/-- Sessions that differ in what a piece does not look at treat it alike. -/
lemma splice_congr {s t : Session} (h : s.bare = t.bare) (p : Placement) (slot : Slot) :
    (s.splice p slot).2 = (t.splice p slot).2 ∧
      (s.splice p slot).1.bare = (t.splice p slot).1.bare := by
  obtain ⟨hs, hs'⟩ := splice_bare s p slot
  obtain ⟨ht, ht'⟩ := splice_bare t p slot
  rw [← hs, ← hs', ← ht, ← ht', h]
  exact ⟨rfl, rfl⟩

/-! ## Rows of attempts -/

/-- The session leads to `t` by the attempts, each of which ends as putting its piece into the
core ends at this point. -/
def Row (s : Session) : List Attempt → Session → Prop
  | [], t => t.bare = s.bare
  | a :: attempts, t =>
    a.result = (s.splice a.placement a.slot).2 ∧
      Row (s.splice a.placement a.slot).1 attempts t

/-- The session after the pieces of the attempts were put into its core. -/
def after (s : Session) (attempts : List Attempt) : Session :=
  attempts.foldl (fun s a => (s.splice a.placement a.slot).1) s

lemma after_congr {s t : Session} (h : s.bare = t.bare) (attempts : List Attempt) :
    (s.after attempts).bare = (t.after attempts).bare := by
  induction attempts generalizing s t with
  | nil => exact h
  | cons a attempts ih => exact ih (splice_congr h a.placement a.slot).2

lemma after_append (s : Session) (first second : List Attempt) :
    s.after (first ++ second) = (s.after first).after second :=
  List.foldl_append

lemma Row.congr {s s' t t' : Session} {attempts : List Attempt} (h : s.Row attempts t)
    (hs : s'.bare = s.bare) (ht : t'.bare = t.bare) : s'.Row attempts t' := by
  induction attempts generalizing s s' with
  | nil => exact ht.trans (Eq.trans h hs.symm)
  | cons a attempts ih =>
    obtain ⟨hresult, hrest⟩ := h
    obtain ⟨heq, hbare⟩ := splice_congr hs a.placement a.slot
    exact ⟨hresult.trans heq.symm, ih hrest hbare⟩

lemma Row.append {s t u : Session} {first second : List Attempt} (h₁ : s.Row first t)
    (h₂ : t.Row second u) : s.Row (first ++ second) u := by
  induction first generalizing s with
  | nil => exact h₂.congr (Eq.symm h₁) rfl
  | cons a first ih => exact ⟨h₁.1, ih h₁.2⟩

lemma Row.bare_eq {s t : Session} {attempts : List Attempt} (h : s.Row attempts t) :
    t.bare = (s.after attempts).bare := by
  induction attempts generalizing s with
  | nil => exact h
  | cons a attempts ih => exact ih h.2

lemma Row.after_append {s t : Session} {attempts : List Attempt} (h : s.Row attempts t)
    (more : List Attempt) : (s.after (attempts ++ more)).bare = (t.after more).bare := by
  rw [Session.after_append, after_congr h.bare_eq more]

/-- Every attempt of a row ended as its piece ends after those before it. -/
lemma Row.result_eq {s t : Session} {attempts : List Attempt} (h : s.Row attempts t) {n : Nat}
    {a : Attempt} (ha : attempts[n]? = some a) :
    a.result = ((s.after (attempts.take n)).splice a.placement a.slot).2 := by
  induction attempts generalizing s n with
  | nil => simp at ha
  | cons b attempts ih =>
    cases n with
    | zero =>
      simp only [List.getElem?_cons_zero, Option.some.injEq] at ha
      exact ha ▸ h.1
    | succ n => exact ih h.2 (by simpa using ha)

lemma after_take_succ {s : Session} {attempts : List Attempt} {n : Nat} {a : Attempt}
    (ha : attempts[n]? = some a) :
    s.after (attempts.take (n + 1))
      = ((s.after (attempts.take n)).splice a.placement a.slot).1 := by
  rw [List.take_add_one, ha]
  simp [after, List.foldl_append]

/-! ## What pieces leave alone -/

lemma setting_after (s : Session) (attempts : List Attempt) :
    (s.after attempts).core = s.core ∧ (s.after attempts).map = s.map := by
  induction attempts generalizing s with
  | nil => exact ⟨rfl, rfl⟩
  | cons a attempts ih =>
    obtain ⟨hcore, hmap⟩ := ih (s.splice a.placement a.slot).1
    have hsame := sameSetting_splice s a.placement a.slot
    exact ⟨hcore.trans hsame.core, hmap.trans hsame.map⟩

lemma isFile_after (s : Session) (attempts : List Attempt) (place : Place) :
    (s.after attempts).disk.IsFile place ↔ s.disk.IsFile place := by
  induction attempts generalizing s with
  | nil => exact Iff.rfl
  | cons a attempts ih => exact (ih _).trans (isFile_splice s a.placement a.slot place)

lemma content_after_of_ne (s : Session) (attempts : List Attempt) {node : Node}
    (hnode : node ≠ s.core) : (s.after attempts).disk.content node = s.disk.content node := by
  induction attempts generalizing s with
  | nil => rfl
  | cons a attempts ih =>
    have hsame := (sameSetting_splice s a.placement a.slot).core
    have hrest := ih (s.splice a.placement a.slot).1 (by rwa [hsame])
    exact hrest.trans (content_splice_of_ne s a.placement a.slot hnode)

/-- A symbol map that is not the core itself stays as it is. -/
lemma symbolMap_after {s : Session} (hmap : s.map ≠ .file s.core) (attempts : List Attempt) :
    (s.after attempts).symbolMap = s.symbolMap := by
  simp only [symbolMap, (setting_after s attempts).2]
  cases hsource : s.map with
  | lines map => rfl
  | file node =>
    have hne : node ≠ s.core := fun heq => hmap (by rw [hsource, heq])
    exact congrArg SymbolMap.ofContent (content_after_of_ne s attempts hne)

lemma symbolMap_of_bare {s t : Session} (h : s.bare = t.bare) : s.symbolMap = t.symbolMap := by
  obtain ⟨hdisk, -, hmap, -⟩ := eq_of_bare h
  rw [symbolMap, symbolMap, hdisk, hmap]

/-! ## The operations of an injection -/

lemma row_attempt (s : Session) (p : Placement) (slot : Slot) :
    s.Row (s.attempt p slot).2 (s.attempt p slot).1 := by
  simp only [attempt]
  split
  · exact rfl
  · have hrow : s.Row [⟨p, slot, (s.splice p slot).2⟩] (s.splice p slot).1 := ⟨rfl, rfl⟩
    generalize s.splice p slot = done at hrow
    rcases done with ⟨t, (failure | abort) | _⟩
    · exact hrow.congr rfl rfl
    · exact hrow
    · exact hrow

lemma bare_redirect (s : Session) (p : Placement) : (s.redirect p).1.bare = s.bare := by
  simp only [redirect]
  split <;> rfl

lemma row_injectDirect (s : Session) (path : String) (p : Placement) :
    s.Row (s.injectDirect path p).2 (s.injectDirect path p).1 := by
  simp only [injectDirect]
  split
  · exact (row_attempt _ _ _).congr (bare_redirect s _).symm rfl
  · exact rfl

lemma row_injectIndirect (s : Session) (path : String) (p : Placement) :
    s.Row (s.injectIndirect path p).2 (s.injectIndirect path p).1 := by
  simp only [injectIndirect]
  split
  · exact row_attempt _ _ _
  · exact rfl

lemma row_continued {s : Session} {first : Session × List Attempt}
    {next : Session → Session × List Attempt} (hfirst : s.Row first.2 first.1)
    (hnext : ∀ t : Session, t.Row (next t).2 (next t).1) :
    s.Row (continued first next).2 (continued first next).1 := by
  simp only [continued]
  split
  · exact hfirst
  · exact hfirst.append (hnext first.1)

lemma row_injectDump (s : Session) (path : String) :
    s.Row (s.injectDump path).2 (s.injectDump path).1 := by
  simp only [injectDump]
  split
  · exact rfl
  · exact row_continued ((row_injectDirect _ _ _).congr rfl rfl) fun t => row_injectIndirect t _ _

lemma row_injectAll (s : Session) (paths : List String) :
    s.Row (s.injectAll paths).2 (s.injectAll paths).1 := by
  induction paths generalizing s with
  | nil => exact rfl
  | cons path paths ih => exact row_continued (row_injectDump s path) ih

lemma row_injectPositions (s : Session) (positions : List Nat) :
    s.Row (s.injectPositions positions).2 (s.injectPositions positions).1 := by
  induction positions generalizing s with
  | nil => exact rfl
  | cons position positions ih =>
    simp only [injectPositions]
    split
    · exact ih s
    · split
      · exact ih s
      · exact row_continued (row_injectDump s _) ih

lemma row_injectPending (s : Session) : s.Row s.injectPending.2 s.injectPending.1 :=
  row_injectPositions s _

end Session

/-! ## Sequences of operations -/

/-- What a user of the injector may do with a session. -/
inductive Operation where
  | inject (path : String)
  /-- The overrides that belonged to no dump are injected. -/
  | leftovers
  | add (argument : String)
  /-- One piece of data is put into the core. -/
  | writeCore (p : Placement) (slot : Slot)
  | drain

namespace Session

/-- The session after an operation, with the attempts that it made. -/
def perform (s : Session) : Operation → Session × List Attempt
  | .inject path => s.injectDump path
  | .leftovers => s.injectPending
  | .add argument =>
    match Override.parse argument with
    | .error _ => (s, [])
    | .ok o => (s.register o, [])
  | .writeCore p slot =>
    let (t, result) := s.splice p slot
    (t, [⟨p, slot, result⟩])
  | .drain => (s.takeRegions.2, [])

/-- The session after operations in turn, whether those before were ended early or not. -/
def performAll (s : Session) : List Operation → Session × List Attempt
  | [] => (s, [])
  | operation :: operations =>
    let (t, attempts) := s.perform operation
    let (u, rest) := performAll t operations
    (u, attempts ++ rest)

lemma row_perform (s : Session) (operation : Operation) :
    s.Row (s.perform operation).2 (s.perform operation).1 := by
  cases operation with
  | inject path => exact row_injectDump s path
  | leftovers => exact row_injectPending s
  | add argument =>
    simp only [perform]
    split <;> exact rfl
  | writeCore p slot => exact ⟨rfl, rfl⟩
  | drain => exact rfl

/-- **Operations are rows of pieces.**  All that a sequence of operations does to the files is
done by its attempts, in order. -/
theorem row_performAll (s : Session) (operations : List Operation) :
    s.Row (s.performAll operations).2 (s.performAll operations).1 := by
  induction operations generalizing s with
  | nil => exact rfl
  | cons operation operations ih => exact (row_perform s operation).append (ih _)

end Session

end CoreSplice
