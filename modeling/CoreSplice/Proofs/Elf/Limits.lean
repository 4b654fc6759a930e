import CoreSplice.Proofs.Elf.Extension

/-!
# Numbers that are no positions

Without faults a header step ends without a size only because of numbers, as giving a file another
length works for every length that files can have.  The fields of a file are words of up to eight
bytes, but a position and a length stay below a limit that such a word can pass.  The fields of a
file with addresses of four bytes cannot: all of its positions are below the limit, as are the ends
of its segments.

* `Overruns` — the obstacle is a number that is no position, in a file with the wide addresses.
* `Reading.Yields` — what a reading gives, if no such number is met.  There is one lemma for each
  reading: of a record, of a section, of what a section needs, and of the table.
* **`LoadTable.overruns_of_ofContent`** — the table of a file.
* **`adjust_completes`** — the header step.
-/

namespace CoreSplice.Elf

/-! ## Readings that meet no obstacle but a number -/

/-- A number of a file with wide addresses is no position. -/
def Overruns (width : Width) (obstacle : Obstacle) : Prop :=
  width = .bits64 ∧ ∃ position : Nat, positionLimit ≤ position ∧
    obstacle = .beyondOffsets position

namespace Reading

variable {α β : Type} {width : Width} {reading : Reading α} {post post' : α → Prop}

/-- What the reading gives has the property.  If it gives nothing, the bytes are not those of an
object file, or a number is no position. -/
structure Yields (width : Width) (reading : Reading α) (post : α → Prop) : Prop where
  value : ∀ a, reading.outcome = .ok a → post a
  obstacle : ∀ o, reading.outcome = .error (.obstructed o) → Overruns width o

/-- Nothing is said about what the reading gives. -/
abbrev Passes (width : Width) (reading : Reading α) : Prop :=
  reading.Yields width fun _ => True

lemma yields_pure {a : α} (h : post a) : (pure a : Reading α).Yields width post :=
  ⟨fun _ ha => by cases ha; exact h, nofun⟩

lemma Yields.bind {next : α → Reading β} {post' : β → Prop} (h : reading.Yields width post)
    (hnext : ∀ a, post a → (next a).Yields width post') :
    (reading >>= next).Yields width post' := by
  constructor
  · intro b hb
    rw [outcome_bind] at hb
    obtain ⟨a, ha, hb⟩ := Outcome.bind_eq_ok.1 hb
    exact (hnext a (h.value a ha)).value b hb
  · intro o ho
    rw [outcome_bind] at ho
    rcases Outcome.bind_eq_error.1 ho with ho | ⟨a, ha, ho⟩
    · exact h.obstacle o ho
    · exact (hnext a (h.value a ha)).obstacle o ho

lemma Yields.mono (h : reading.Yields width post) (himp : ∀ a, post a → post' a) :
    reading.Yields width post' :=
  ⟨fun a ha => himp a (h.value a ha), h.obstacle⟩

lemma Yields.passes (h : reading.Yields width post) : Passes width reading :=
  h.mono fun _ _ => trivial

lemma Yields.map (h : reading.Yields width post) (f : α → β) : Passes width (f <$> reading) :=
  h.bind fun _ _ => yields_pure trivial

lemma Yields.discard (h : reading.Yields width post) : Passes width (discard reading) :=
  h.bind fun _ _ => yields_pure trivial

lemma yields_require (p : Prop) [Decidable p] (why : Malformation) :
    (require p why).Yields width fun _ => p := by
  constructor
  · intro done hdone
    rw [outcome_require] at hdone
    split at hdone
    · assumption
    · cases hdone
  · intro o ho
    rw [outcome_require] at ho
    split at ho <;> cases ho

lemma passes_seek {position : Nat} (h : width = .bits32 → position < positionLimit) :
    Passes width (seek position) := by
  refine ⟨fun _ _ => trivial, ?_⟩
  intro o ho
  have hnonneg : (0 : Int) ≤ position := Int.natCast_nonneg _
  rw [seek, checkOffset_of_nonneg hnonneg] at ho
  by_cases hlt : position < positionLimit
  · rw [if_pos (Int.ofNat_lt.2 hlt)] at ho
    cases ho
  · rw [if_neg (fun hlt' => hlt (Int.ofNat_lt.1 hlt'))] at ho
    cases ho
    refine ⟨?_, position, Nat.not_lt.1 hlt, rfl⟩
    cases width with
    | bits32 => exact absurd (h rfl) hlt
    | bits64 => rfl

end Reading

open Reading (Passes Yields yields_pure yields_require passes_seek)

variable {width : Width} {header : Header} {content : IndexedBytes}

/-- The words of a record are in the ranges of their widths. -/
lemma yields_readRecord {order : ByteOrder} {position : Nat}
    (h : width = .bits32 → position < positionLimit) (widths : List Nat) :
    (readRecord order content position widths).Yields width fun words =>
      ∀ i, words.getD i 0 < Bytes.wordLimit (widths.getD i 0) := by
  refine (passes_seek h).bind fun _ _ => ⟨?_, ?_⟩
  · intro words hwords
    exact getD_lt_of_readWords (Outcome.mapError_eq_ok.1 hwords)
  · intro o ho
    dsimp only [Reading.outcome_ofOutcome] at ho
    generalize readWords _ _ _ = result at ho
    cases result <;> cases ho

/-! ## Sections -/

/-- The words of a section header that give positions are in the ranges of their widths. -/
structure SectionHeader.InRange (width : Width) (sec : SectionHeader) : Prop where
  nameOffset : sec.nameOffset < Bytes.wordLimit 4
  offset : sec.offset < Bytes.wordLimit width.addressSize
  info : sec.info < Bytes.wordLimit 4

/-- A position that is given by an address of four bytes is below the limit. -/
lemma lt_positionLimit {n : Nat} (h : n < Bytes.wordLimit width.addressSize) {more : Nat}
    (hmore : more ≤ Bytes.wordLimit 4) (hwidth : width = .bits32) : n + more < positionLimit := by
  subst hwidth
  have hlimit : Bytes.wordLimit 4 + Bytes.wordLimit 4 ≤ positionLimit := by decide
  exact Nat.lt_of_lt_of_le (Nat.add_lt_add_of_lt_of_le h hmore) hlimit

namespace SectionHeader

variable {sec names : SectionHeader}

lemma yields_read (hcontent : content.size < positionLimit) (index : Nat) :
    (read header content index).Yields header.encoding.width
      (InRange header.encoding.width) := by
  simp only [read]
  refine (yields_require _ _).bind fun _ _ => (yields_require _ _).bind fun _ hin => ?_
  refine (yields_readRecord (fun _ => Nat.lt_of_le_of_lt hin hcontent) _).bind fun words hwords =>
    yields_pure ?_
  generalize header.encoding.width = width at hwords ⊢
  cases width <;> exact ⟨hwords 0, hwords 4, hwords 7⟩

lemma passes_name (hsec : sec.InRange width) (hnames : names.InRange width) :
    Passes width (sec.name content names) :=
  (passes_seek (lt_positionLimit hnames.offset (Nat.le_of_lt hsec.nameOffset))).bind fun _ _ =>
    yields_pure trivial

lemma passes_checkData (hsec : sec.InRange header.encoding.width) :
    Passes header.encoding.width (sec.checkData header content) := by
  rw [checkData]
  split
  · exact (yields_readRecord (lt_positionLimit hsec.offset (Nat.zero_le _)) _).discard
  · exact yields_pure trivial

end SectionHeader

open SectionHeader (yields_read passes_name passes_checkData)

lemma Reading.Yields.namesOrNone {reading : Reading SectionHeader} {post : SectionHeader → Prop}
    (h : reading.Yields width post) :
    ({ reading with outcome := namesOrNone reading.outcome } : Reading _).Yields width post := by
  obtain ⟨seeks, outcome⟩ := reading
  constructor
  · intro sec hsec
    exact h.value sec (Outcome.mapError_eq_ok.1 hsec)
  · intro o ho
    match outcome, ho with
    | .error (.obstructed o), ho =>
      cases ho
      exact h.obstacle o rfl

lemma yields_nameTable (hcontent : content.size < positionLimit) :
    (nameTable header content).Yields header.encoding.width
      (SectionHeader.InRange header.encoding.width) := by
  simp only [nameTable]
  split
  · refine ((yields_read hcontent 0).map SectionHeader.link).bind fun index _ => ?_
    exact (yields_read hcontent index).namesOrNone.bind fun names hnames =>
      (passes_checkData hnames).bind fun _ _ => yields_pure hnames
  · have hnames : Passes header.encoding.width (pure header.sectionNames) := yields_pure trivial
    refine hnames.bind fun index _ => ?_
    exact (yields_read hcontent index).namesOrNone.bind fun names hnames =>
      (passes_checkData hnames).bind fun _ _ => yields_pure hnames

/-! ## What a section needs -/

section

variable {sec names : SectionHeader}

lemma passes_checkPlain (hnames : names.InRange header.encoding.width)
    (hsec : sec.InRange header.encoding.width) :
    Passes header.encoding.width (checkPlain header content names sec) :=
  (passes_name hsec hnames).discard.bind fun _ _ => passes_checkData hsec

lemma passes_checkNamesAt (hcontent : content.size < positionLimit)
    (hnames : names.InRange header.encoding.width) (index : Nat) :
    Passes header.encoding.width (checkNamesAt header content names index) :=
  (yields_read hcontent index).bind fun _ hsec => (yields_require _ _).bind fun _ _ =>
    passes_checkPlain hnames hsec

lemma passes_checkDynamicNamesAt (hcontent : content.size < positionLimit)
    (hnames : names.InRange header.encoding.width) (index : Nat) :
    Passes header.encoding.width (checkDynamicNamesAt header content names index) :=
  (yields_read hcontent index).bind fun _ hsec => (yields_require _ _).bind fun _ _ =>
    passes_checkPlain hnames hsec

lemma passes_checkSymbols (hcontent : content.size < positionLimit)
    (hnames : names.InRange header.encoding.width) (hsec : sec.InRange header.encoding.width) :
    Passes header.encoding.width (checkSymbols header content names sec) :=
  (passes_name hsec hnames).bind fun _ _ =>
    (passes_checkNamesAt hcontent hnames sec.link).bind fun _ _ =>
      (passes_checkData hsec).bind fun _ _ => (yields_require _ _).bind fun _ _ =>
        (yields_require _ _).passes

lemma passes_checkSymbolsAt (hcontent : content.size < positionLimit)
    (hnames : names.InRange header.encoding.width) (index : Nat) :
    Passes header.encoding.width (checkSymbolsAt header content names index) :=
  (yields_read hcontent index).bind fun _ hsec => (yields_require _ _).bind fun _ _ =>
    passes_checkSymbols hcontent hnames hsec

lemma passes_checkRow (position count size : Nat) :
    Passes width (checkRow content position count size) :=
  (yields_require _ _).passes

lemma passes_checkHash (hsec : sec.InRange header.encoding.width) :
    Passes header.encoding.width (checkHash header content sec) := by
  rw [checkHash]
  split
  · exact yields_pure trivial
  · exact (yields_readRecord (lt_positionLimit hsec.offset (Nat.zero_le _)) _).bind fun _ _ =>
      (passes_checkRow _ _ _).bind fun _ _ => passes_checkRow _ _ _

lemma passes_checkFilteredHash (hsec : sec.InRange header.encoding.width) :
    Passes header.encoding.width (checkFilteredHash header content sec) :=
  (yields_readRecord (lt_positionLimit hsec.offset (Nat.zero_le _)) _).bind fun _ _ =>
    (passes_checkRow _ _ _).bind fun _ _ => passes_checkRow _ _ _

lemma passes_checkAttributes (hsec : sec.InRange header.encoding.width) :
    Passes header.encoding.width (checkAttributes header content sec) :=
  (yields_readRecord (lt_positionLimit hsec.offset (Nat.zero_le _)) _).bind fun _ _ =>
    (yields_require _ _).passes

/-- **Any section** is opened without meeting an obstacle but a number. -/
lemma passes_checkSection (hcontent : content.size < positionLimit)
    (hnames : names.InRange header.encoding.width) (hsec : sec.InRange header.encoding.width) :
    Passes header.encoding.width (checkSection header content names sec) := by
  have hname : Passes header.encoding.width (discard (sec.name content names)) :=
    (passes_name hsec hnames).discard
  have hdata : Passes header.encoding.width (sec.checkData header content) :=
    passes_checkData hsec
  have hplain : Passes header.encoding.width (checkPlain header content names sec) :=
    passes_checkPlain hnames hsec
  have hnamesAt := passes_checkNamesAt hcontent hnames sec.link
  have hsymbolsAt := passes_checkSymbolsAt hcontent hnames sec.link
  rw [checkSection]
  dsimp only
  split
  case h_1 | h_2 => exact hplain
  case h_3 => exact passes_checkSymbols hcontent hnames hsec
  case h_4 => exact hname.bind fun _ _ => hsymbolsAt.bind fun _ _ => hdata
  case h_5 => exact hname.bind fun _ _ => hnamesAt.bind fun _ _ => hdata
  case h_6 =>
    exact hname.bind fun _ _ => hsymbolsAt.bind fun _ _ => hdata.bind fun _ _ =>
      passes_checkHash hsec
  case h_7 =>
    exact hname.bind fun _ _ => hsymbolsAt.bind fun _ _ => hdata.bind fun _ _ =>
      passes_checkFilteredHash hsec
  case h_8 | h_9 => exact hplain.bind fun _ _ => (yields_require _ _).passes
  case h_10 => exact hplain.bind fun _ _ => passes_checkDynamicNamesAt hcontent hnames sec.link
  case h_11 => exact hplain.bind fun _ _ => passes_checkAttributes hsec

end

/-- The section of names is in range, if it is known. -/
def NamesInRange (width : Width) (known : Option SectionHeader) : Prop :=
  ∀ names, known = some names → names.InRange width

lemma namesInRange_none (width : Width) : NamesInRange width none := by
  intro names heq
  cases heq

lemma namesInRange_some {names : SectionHeader} (h : names.InRange width) :
    NamesInRange width (some names) := by
  intro names' heq
  cases heq
  exact h

lemma yields_openSection (hcontent : content.size < positionLimit)
    {known : Option SectionHeader} (hknown : NamesInRange header.encoding.width known)
    (index : Nat) :
    (openSection header content known index).Yields header.encoding.width fun opened =>
      opened.1.InRange header.encoding.width ∧ opened.2.InRange header.encoding.width := by
  simp only [openSection]
  refine (yields_read hcontent index).bind fun sec hsec => ?_
  split
  · rename_i names
    exact (yields_pure (hknown names rfl)).bind fun names hnames =>
      (passes_checkSection hcontent hnames hsec).bind fun _ _ => yields_pure ⟨hsec, hnames⟩
  · exact (yields_nameTable hcontent).bind fun names hnames =>
      (passes_checkSection hcontent hnames hsec).bind fun _ _ => yields_pure ⟨hsec, hnames⟩

/-! ## Dynamic segments -/

lemma passes_sectionCount (hcontent : content.size < positionLimit) :
    Passes header.encoding.width (sectionCount header content) := by
  rw [sectionCount]
  split
  · exact yields_pure trivial
  · split
    · exact (yields_read hcontent 0).map SectionHeader.size
    · exact yields_pure trivial

lemma yields_searchDynamicSection (hcontent : content.size < positionLimit) (offset : Int)
    (count : Nat) {index : Nat} {known : Option SectionHeader}
    (hknown : NamesInRange header.encoding.width known) :
    (searchDynamicSection header content offset index count known).Yields header.encoding.width
      (NamesInRange header.encoding.width) := by
  induction count generalizing index known with
  | zero => exact yields_pure hknown
  | succ count ih =>
    rw [searchDynamicSection]
    refine (yields_openSection hcontent hknown index).bind fun opened hopened => ?_
    have hnames := namesInRange_some hopened.2
    dsimp only
    split
    · exact (yields_openSection hcontent hnames _).discard.bind fun _ _ => yields_pure hnames
    · exact ih hnames

lemma yields_findDynamicSection (hcontent : content.size < positionLimit)
    {known : Option SectionHeader} (hknown : NamesInRange header.encoding.width known)
    (offset : Int) :
    (findDynamicSection header content known offset).Yields header.encoding.width
      (NamesInRange header.encoding.width) :=
  (passes_sectionCount hcontent).bind fun count _ =>
    yields_searchDynamicSection hcontent offset count hknown

/-! ## The table -/

/-- The words of a header that give the positions of entries are in the ranges of their widths. -/
structure Header.InRange (header : Header) : Prop where
  segmentTable : header.segmentTable < Bytes.wordLimit header.encoding.width.addressSize
  segmentEntrySize : header.segmentEntrySize < Bytes.wordLimit 2

lemma Header.yields_ofContent (hcontent : content.size < positionLimit) :
    (Header.ofContent content).Yields .bits32 Header.InRange := by
  have hstart : Width.bits32 = .bits32 → 0 < positionLimit := fun _ => by decide
  simp only [Header.ofContent]
  refine (passes_seek fun _ => hcontent).bind fun _ _ => (passes_seek hstart).bind fun _ _ => ?_
  have hencoding : Passes .bits32
      (Reading.ofOutcome ((Encoding.ofContent content).mapError .malformed)) := by
    refine ⟨fun _ _ => trivial, ?_⟩
    intro o ho
    dsimp only [Reading.outcome_ofOutcome] at ho
    cases hresult : Encoding.ofContent content <;> rw [hresult] at ho <;> cases ho
  refine hencoding.bind fun encoding _ => (yields_readRecord hstart _).bind fun words hwords =>
    (passes_seek hstart).bind fun _ _ => yields_pure ?_
  obtain ⟨width, order⟩ := encoding
  cases width <;> exact ⟨hwords 14, hwords 18⟩

namespace LoadTable

lemma yields_segmentCount (hcontent : content.size < positionLimit) :
    (segmentCount header content).Yields header.encoding.width fun counted =>
      counted.1 < Bytes.wordLimit 4 ∧ NamesInRange header.encoding.width counted.2 := by
  rw [segmentCount]
  split
  · rename_i hfew
    have hlimit : numberElsewhere < Bytes.wordLimit 4 := by decide
    exact yields_pure ⟨Nat.lt_trans hfew hlimit, namesInRange_none _⟩
  · exact (yields_openSection hcontent (namesInRange_none _) 0).bind fun opened hopened =>
      yields_pure ⟨hopened.1.info, namesInRange_some hopened.2⟩

/-- The entries of a table with addresses of four bytes stand below the limit, however many there
are. -/
lemma position_lt (hheader : header.InRange) {index : Nat} (hindex : index < Bytes.wordLimit 4)
    (hwidth : header.encoding.width = .bits32) :
    header.segmentTable + index * header.segmentEntrySize < positionLimit := by
  have htable := hheader.segmentTable
  rw [hwidth] at htable
  have hmul : index * header.segmentEntrySize ≤ Bytes.wordLimit 4 * Bytes.wordLimit 2 :=
    Nat.mul_le_mul (Nat.le_of_lt hindex) (Nat.le_of_lt hheader.segmentEntrySize)
  have hlimit : Bytes.wordLimit 4 + Bytes.wordLimit 4 * Bytes.wordLimit 2 ≤ positionLimit := by
    decide
  exact Nat.lt_of_lt_of_le (Nat.add_lt_add_of_lt_of_le htable hmul) hlimit

lemma passes_readSegment (hheader : header.InRange) {index : Nat}
    (hindex : index < Bytes.wordLimit 4) :
    Passes header.encoding.width (readSegment header content index) := by
  simp only [readSegment]
  exact (yields_require _ _).bind fun _ _ =>
    (yields_readRecord (position_lt hheader hindex) _).bind fun _ _ => yields_pure trivial

lemma yields_openSegment (hcontent : content.size < positionLimit) (hheader : header.InRange)
    {known : Option SectionHeader} (hknown : NamesInRange header.encoding.width known)
    {index : Nat} (hindex : index < Bytes.wordLimit 4) :
    (openSegment header content known index).Yields header.encoding.width fun opened =>
      NamesInRange header.encoding.width opened.2 := by
  rw [openSegment]
  refine (passes_readSegment hheader hindex).bind fun segment _ => ?_
  split
  · exact (yields_findDynamicSection hcontent hknown _).bind fun _ hknown' => yields_pure hknown'
  · exact yields_pure hknown

lemma passes_readLoads (hcontent : content.size < positionLimit) (hheader : header.InRange)
    {count index seeks : Nat} {known : Option SectionHeader} {loads : List Segment}
    (hknown : NamesInRange header.encoding.width known)
    (hcount : index + count < Bytes.wordLimit 4) :
    Passes header.encoding.width (readLoads header content index count seeks known loads) := by
  induction count generalizing index seeks known loads with
  | zero => exact ⟨fun _ _ => trivial, nofun⟩
  | succ count ih =>
    have hopen := yields_openSegment hcontent hheader hknown
      (show index < Bytes.wordLimit 4 by omega)
    rw [readLoads]
    split
    · rename_i error herror
      refine ⟨fun _ _ => trivial, ?_⟩
      intro o ho
      cases ho
      exact hopen.obstacle o herror
    · rename_i segment known' houtcome
      exact ih (hopen.value _ houtcome) (by omega)

/-- **The table of a file** is read, or the bytes of the file are not those of an object file, or
a number of the file is no position. -/
theorem overruns_of_ofContent {bytes : Bytes} (hbytes : bytes.length < positionLimit) {o : Obstacle}
    (ho : (ofContent bytes).outcome = .error (.obstructed o)) :
    ∃ header, (Header.ofContent bytes.toArray).outcome = .ok header ∧
      Overruns header.encoding.width o := by
  have hcontent : bytes.toArray.size < positionLimit := by rwa [List.size_toArray]
  have hyields := Header.yields_ofContent hcontent
  rw [ofContent, Reading.outcome_bind] at ho
  rcases Outcome.bind_eq_error.1 ho with ho | ⟨header, hheader, ho⟩
  · -- The header is read in front of any position that the file gives.
    obtain ⟨hwidth, -⟩ := hyields.obstacle o ho
    cases hwidth
  · have hinRange := hyields.value header hheader
    refine ⟨header, hheader, Yields.obstacle (?_ : Passes header.encoding.width _) o ho⟩
    exact (yields_segmentCount hcontent).bind fun counted hcounted =>
      (passes_readLoads hcontent hinRange hcounted.2 (by omega)).bind fun _ _ =>
        yields_pure trivial

/-- No region asks a file with addresses of four bytes for a length behind the limit. -/
lemma Writable.extent_lt {table : LoadTable} (h : table.Writable)
    (hwidth : table.encoding.width = .bits32) {length : Nat} (hlength : length < positionLimit)
    (regions : List Region) : table.extent regions length < positionLimit := by
  apply Int.lt_of_le_sub_one
  refine extent_le_iff.2 ⟨by omega, ?_⟩
  intro region _ position s howner hget
  obtain ⟨-, t, hget', hcontains, -⟩ := owner?_eq_some_iff.1 howner
  rw [hget] at hget'
  cases hget'
  obtain ⟨hoffset, hfilesz, hmemsz⟩ := h.range (List.mem_of_getElem? hget)
  have hend := Segment.end_le_of_contains hcontains
  rw [hwidth] at hoffset hfilesz hmemsz
  have hlimit : Bytes.wordLimit Width.bits32.addressSize
      + Bytes.wordLimit Width.bits32.addressSize < positionLimit := by decide
  omega

end LoadTable

/-! ## The header step -/

section

variable {content : Bytes} {regions : List Region}

/-- A file whose table can be read has wide addresses if the step meets an obstacle. -/
lemma overruns_of_adjust {table : LoadTable} {obstacle : Obstacle}
    (hopen : (LoadTable.ofContent content).outcome = .ok table)
    (hlength : content.length < positionLimit)
    (hobstacle : (adjust content regions content.length).outcome = .error obstacle) :
    ∃ header, (Header.ofContent content.toArray).outcome = .ok header ∧
      Overruns header.encoding.width obstacle := by
  obtain ⟨header, hheader, hencoding, -⟩ := LoadTable.exists_readSegment hopen
  have hwritable := (LoadTable.takenFrom_of_ofContent hopen).writable
  have hreached := adjust_reached hopen hlength regions
  rw [hobstacle] at hreached
  cases hreached with
  | @beyond stop hlimit hle =>
    refine ⟨header, hheader, ?_, stop.toNat, by omega, congrArg _ (by omega)⟩
    rw [← hencoding]
    cases hwidth : table.encoding.width with
    | bits32 =>
      have hlt := hwritable.extent_lt hwidth hlength regions
      omega
    | bits64 => rfl

/-- **How the header step ends.**  On a file whose bytes are not those of an object file it gives
the old size.  On a file whose table can be read it gives the length that the regions ask for, if
this is a length that files can have.  Whatever it meets instead, where no operation fails, is a
number of the file that is no position, and the file has wide addresses.  A disk without room for
the length is not among the operations that can fail here (`CoreImage.setSize`). -/
theorem adjust_completes (hlength : content.length < positionLimit) (regions : List Region) :
    (∀ why, (LoadTable.ofContent content).outcome = .error (.malformed why) →
      (adjust content regions content.length).outcome = .ok (content.length : Int)) ∧
      (∀ table, (LoadTable.ofContent content).outcome = .ok table →
        Reached (table.extent regions content.length)
          (adjust content regions content.length).outcome) ∧
      ∀ obstacle, (adjust content regions content.length).outcome = .error obstacle →
        ∃ header, (Header.ofContent content.toArray).outcome = .ok header ∧
          Overruns header.encoding.width obstacle := by
  refine ⟨?malformed, fun table hopen => adjust_reached hopen hlength regions, ?obstacle⟩
  case malformed =>
    intro why hopen
    rw [adjust_of_malformed hopen]
  case obstacle =>
    intro obstacle hobstacle
    rcases hopen : (LoadTable.ofContent content).outcome with (why | o) | table
    · rw [adjust_of_malformed hopen] at hobstacle
      cases hobstacle
    · rw [adjust_of_obstructed hopen] at hobstacle
      cases hobstacle
      exact LoadTable.overruns_of_ofContent hlength hopen
    · exact overruns_of_adjust hopen hlength hobstacle

end

/-- A file with narrow addresses gets the length that its regions ask for. -/
theorem adjust_completes_twoLoads :
    let regions : List Region := [⟨0x1018, 8⟩, ⟨0x5000, 1⟩]
    twoLoadsTable.extent regions twoLoads.length = 148 ∧
      (adjust twoLoads regions twoLoads.length).outcome = .ok 148 := by
  intro regions
  have hopen : (LoadTable.ofContent twoLoads).outcome = .ok twoLoadsTable := by decide +kernel
  have hextent : twoLoadsTable.extent regions twoLoads.length = 148 := by decide +kernel
  obtain ⟨-, hreached, -⟩ := adjust_completes (show twoLoads.length < positionLimit by decide)
    regions
  have houtcome := (hreached twoLoadsTable hopen).eq_ok (hextent ▸ by decide)
  rw [hextent] at houtcome
  exact ⟨hextent, houtcome⟩

/-- A core with wide addresses, whose only segment stands behind the last position of files. -/
def steepLoad : Bytes :=
  magicBytes ++ [2, 1, 1, 0, 0, 0, 0, 0, 0, 0, 0, 0]
    ++ writeWords .little [(2, 4), (2, 62), (4, 1), (8, 0), (8, 64), (8, 0), (4, 0),
      (2, 64), (2, 56), (2, 1), (2, 64), (2, 0), (2, 0)]
    ++ writeWords .little [(4, 1), (4, 6), (8, 0x8000000000000000), (8, 0x400000), (8, 0), (8, 0),
      (8, 0x1000), (8, 0x1000)]

/-- The header step does not always give a size. -/
theorem adjust_incomplete :
    ¬ ∀ (content : Bytes) (regions : List Region), content.length < positionLimit →
      (∀ region ∈ regions, 0 ≤ region.address ∧ 0 < region.size) →
        ∃ size, (adjust content regions content.length).outcome = .ok size := by
  intro hall
  have hobstacle : (adjust steepLoad [⟨0x400000, 8⟩] steepLoad.length).outcome
      = .error (.beyondOffsets 0x8000000000000008) := by
    decide +kernel
  obtain ⟨size, hsize⟩ := hall steepLoad [⟨0x400000, 8⟩] (by decide +kernel) (by decide)
  rw [hobstacle] at hsize
  cases hsize

end CoreSplice.Elf
