import CoreSplice.Command.Run
import CoreSplice.Proofs.SymbolMap.Answer
import CoreSplice.Proofs.Text.Utf8

/-!
# Symbol maps in files

A map in a file is bytes, and its lines may end in any of three ways, each line in its own.  When
the file is read, the bytes are decoded, every line end becomes a line feed, and two ends may
merge into one: a carriage return that ends a line swallows the line feed of an empty line behind
it.  A look-up does not notice, since an empty line is no entry.

* `LineEnd` — the ways to end a line.
* `Text.writeEnds` — a text whose line feeds are written as the line ends that a choice gives.
* `SymbolMap.entries_unifyLineEnds` — reading a written text gives the entries of the text.  The
  induction carries along the line that is not finished.
* `SymbolMap.ofText_writeEnds_both` — in memory, carriage returns in front of the line feeds stay
  in their lines, where they count as parts of the line ends.
* **`SymbolMap.placements_written`** — every look-up gives the same, in memory and in a file.
-/

namespace CoreSplice

/-- How a line may end in a file. -/
inductive LineEnd where
  | lineFeed
  | carriageReturn
  | both
  deriving DecidableEq, Repr

/-- The characters of a line end. -/
def LineEnd.chars : LineEnd → List Char
  | lineFeed => ['\n']
  | carriageReturn => ['\r']
  | both => ['\r', '\n']

namespace Text

/-- The text with each line feed written as the line end that is chosen for it.  The choices are
numbered from 0. -/
def writeEnds (choose : Nat → LineEnd) : List Char → List Char
  | [] => []
  | c :: cs =>
    if c = '\n' then (choose 0).chars ++ writeEnds (fun n => choose (n + 1)) cs
    else c :: writeEnds choose cs

variable {line text : List Char}

/-! ## One line -/

lemma writeEnds_lineFeed (choose : Nat → LineEnd) (text : List Char) :
    writeEnds choose ('\n' :: text)
      = (choose 0).chars ++ writeEnds (fun n => choose (n + 1)) text :=
  if_pos rfl

lemma writeEnds_cons {c : Char} (hc : c ≠ '\n') (choose : Nat → LineEnd) (text : List Char) :
    writeEnds choose (c :: text) = c :: writeEnds choose text :=
  if_neg hc

/-- The first line of a text ends at the first line feed. -/
lemma lines_append_lineFeed (hline : '\n' ∉ line) (text : List Char) :
    lines (line ++ '\n' :: text) = line :: lines text := by
  induction line with
  | nil => exact lines_lineFeed text
  | cons c line ih =>
    obtain ⟨hc, hline⟩ := List.ne_and_not_mem_of_not_mem_cons hline
    rw [List.cons_append, lines, if_neg (Ne.symm hc), ih hline]

lemma unifyLineEnds_cons {c : Char} (hc : c ≠ '\r') (text : List Char) :
    unifyLineEnds (c :: text) = c :: unifyLineEnds text := by
  rw [unifyLineEnds]
  · exact fun _ h _ => hc h
  · exact hc

/-- A carriage return is a line end by itself, or the first half of one. -/
lemma unifyLineEnds_carriageReturn (text : List Char) :
    unifyLineEnds ('\r' :: text) = '\n' :: unifyLineEnds text ∨
      (∃ rest, unifyLineEnds text = '\n' :: rest) ∧
        unifyLineEnds ('\r' :: text) = unifyLineEnds text := by
  cases text with
  | nil => exact .inl rfl
  | cons c text =>
    by_cases hc : c = '\n'
    · subst hc
      exact .inr ⟨⟨_, unifyLineEnds_cons (by decide) text⟩,
        (unifyLineEnds_cons (by decide) text).symm⟩
    · left
      rw [unifyLineEnds]
      simpa using hc

lemma trimLineEnd_append_carriageReturn (line : List Char) :
    trimLineEnd (line ++ ['\r']) = trimLineEnd line := by
  rw [trimLineEnd, List.reverse_append, List.reverse_singleton, List.singleton_append,
    List.dropWhile_cons_of_pos (by decide), trimLineEnd]

end Text

namespace SymbolMap

open Text

variable {line text : List Char}

/-! ## Reading a written text -/

lemma parse?_nil : Entry.parse? [] = none := rfl

lemma parse?_append_carriageReturn (line : List Char) :
    Entry.parse? (line ++ ['\r']) = Entry.parse? line := by
  rw [Entry.parse?, trimLineEnd_append_carriageReturn, Entry.parse?]

/-- A carriage return ends its line.  If the line feed behind it is lost by that, it is one that
ended an empty line. -/
lemma entries_carriageReturn (hline : '\n' ∉ line) (text : List Char) :
    (lines (line ++ unifyLineEnds ('\r' :: text))).filterMap Entry.parse?
      = (line :: lines (unifyLineEnds text)).filterMap Entry.parse? := by
  rcases unifyLineEnds_carriageReturn text with hreturn | ⟨⟨rest, hrest⟩, hreturn⟩
  · rw [hreturn, lines_append_lineFeed hline]
  · rw [hreturn, hrest, lines_append_lineFeed hline, lines_lineFeed, List.filterMap_cons,
      List.filterMap_cons, List.filterMap_cons_none parse?_nil]

/-- **Reading a written text** gives the entries of the text.  The `line` is what was read of a line
that is not finished. -/
lemma entries_unifyLineEnds (choose : Nat → LineEnd) (hline : '\n' ∉ line)
    (htext : '\r' ∉ text) :
    (lines (line ++ unifyLineEnds (writeEnds choose text))).filterMap Entry.parse?
      = (lines (line ++ text)).filterMap Entry.parse? := by
  induction text generalizing choose line with
  | nil => rfl
  | cons c text ih =>
    obtain ⟨hreturn, hbehind⟩ := List.ne_and_not_mem_of_not_mem_cons htext
    by_cases hc : c = '\n'
    case neg =>
      have hlonger : '\n' ∉ line ++ [c] := by simpa [hline] using Ne.symm hc
      rw [writeEnds_cons hc, unifyLineEnds_cons (Ne.symm hreturn), List.append_cons,
        ih choose hlonger hbehind, ← List.append_cons]
    case pos =>
      subst hc
      -- The rest of the text starts with a new line.
      have hrest := ih (fun n => choose (n + 1)) List.not_mem_nil hbehind
      rw [List.nil_append, List.nil_append] at hrest
      have hended : (line :: lines (unifyLineEnds (writeEnds (fun n => choose (n + 1)) text))
          ).filterMap Entry.parse? = (line :: lines text).filterMap Entry.parse? := by
        rw [List.filterMap_cons, hrest, ← List.filterMap_cons]
      rw [writeEnds_lineFeed, lines_append_lineFeed hline, ← hended]
      cases choose 0 with
      | lineFeed =>
        rw [LineEnd.chars, List.singleton_append, unifyLineEnds_cons (by decide),
          lines_append_lineFeed hline]
      | carriageReturn =>
        rw [LineEnd.chars, List.singleton_append, entries_carriageReturn hline]
      | both =>
        rw [LineEnd.chars, List.cons_append, List.singleton_append, unifyLineEnds,
          lines_append_lineFeed hline]

/-- Only the entries of a text count. -/
lemma placements_ofLines_congr {first second : List (List Char)}
    (h : first.filterMap Entry.parse? = second.filterMap Entry.parse?) (ident : String) :
    (ofLines first).placements ident = (ofLines second).placements ident := by
  have htarget (slot : Slot) : lastTarget first ident slot = lastTarget second ident slot := by
    rw [lastTarget, lastEntry?, entriesOf, h, lastTarget, lastEntry?, entriesOf]
  rw [placements_ofLines, placements_ofLines, answer, htarget, htarget, answer]

lemma ofContent_toUTF8 (text : List Char) :
    ofContent (String.ofList text).toUTF8.data.toList = ofLines (lines (unifyLineEnds text)) := by
  rw [ofContent, Utf8.decode_toUTF8, String.toList_ofList]

/-! ## A text in memory -/

lemma parse?_lines_writeEnds_both (hline : '\n' ∉ line) (text : List Char) :
    (lines (line ++ writeEnds (fun _ => .both) text)).map Entry.parse?
      = (lines (line ++ text)).map Entry.parse? := by
  induction text generalizing line with
  | nil => rfl
  | cons c text ih =>
    by_cases hc : c = '\n'
    case neg =>
      have hlonger : '\n' ∉ line ++ [c] := by simpa [hline] using Ne.symm hc
      rw [writeEnds_cons hc, List.append_cons, ih hlonger, ← List.append_cons]
    case pos =>
      subst hc
      have hlonger : '\n' ∉ line ++ ['\r'] := by simp [hline]
      have hrest := ih List.not_mem_nil
      rw [List.nil_append, List.nil_append] at hrest
      rw [writeEnds_lineFeed, LineEnd.chars, List.cons_append, List.singleton_append,
        List.append_cons, lines_append_lineFeed hlonger, lines_append_lineFeed hline,
        List.map_cons, List.map_cons, parse?_append_carriageReturn, hrest]

/-- A text in memory may have a carriage return in front of each line feed. -/
lemma ofText_writeEnds_both (text : String) :
    ofText (String.ofList (writeEnds (fun _ => .both) text.toList)) = ofText text := by
  rw [ofText, ofLines, String.toList_ofList, ofText, ofLines]
  exact parse?_lines_writeEnds_both List.not_mem_nil text.toList

/-! ## Every way to store a map -/

/-- **A map reads the same however it is stored.**  Take a text without carriage returns, and a file
with its UTF-8 bytes in which each line feed was written as the line end that was chosen for it.
In a session over the opened file every look-up gives what it gives in the text itself, and it
gives the same in the text with a carriage return in front of each line feed. -/
theorem placements_written (s : Session) (map : Node) (text : String) (choose : Nat → LineEnd)
    (htext : '\r' ∉ text.toList) (hopened : s.map = Command.mapSource s.disk s.core map)
    (hstored : s.disk.content map
      = (String.ofList (writeEnds choose text.toList)).toUTF8.data.toList) (ident : String) :
    s.symbolMap.placements ident = (ofText text).placements ident ∧
      (ofText (String.ofList (writeEnds (fun _ => .both) text.toList))).placements ident
        = (ofText text).placements ident := by
  refine ⟨?_, by rw [ofText_writeEnds_both]⟩
  have hmap : s.symbolMap = ofContent (s.disk.content map) := by
    rw [Session.symbolMap, hopened, Command.mapSource]
    split_ifs <;> rfl
  rw [hmap, hstored, ofContent_toUTF8, ofText]
  refine placements_ofLines_congr ?_ ident
  exact entries_unifyLineEnds choose List.not_mem_nil htext

/-- A map of an ident that is not ASCII, with empty lines and with all kinds of line ends.  The
first carriage return and the line feed of the empty line behind it are read as one line end. -/
theorem placements_written_mixed :
    let text := "4 100 2 D ä→𝄞\n\n8 200 3 I ä→𝄞\nno entry\n0 400 1 D ä→"
    let choose : Nat → LineEnd
      | 0 => .carriageReturn
      | 2 => .both
      | 3 => .carriageReturn
      | _ => .lineFeed
    let stored := (String.ofList (writeEnds choose text.toList)).toUTF8.data.toList
    let s : Session :=
      { disk := { home := [], directories := [], files := [(["map"], stored)] }
        core := .file ["core"]
        map := .lines (ofContent stored) }
    (lines (unifyLineEnds (Utf8.decode stored))).length = 4 ∧ (lines text.toList).length = 5 ∧
      s.symbolMap.placements "ä→𝄞"
        = ⟨{ ident := "ä→𝄞", coreOffset := 4, memAddress := 0x100, size := 2, sourceOffset := 3 },
          { ident := "ä→𝄞", coreOffset := 8, memAddress := 0x200, size := 3 }⟩ ∧
      s.symbolMap.placements "ä→𝄞" = (ofText text).placements "ä→𝄞" ∧
      (ofText (String.ofList (writeEnds (fun _ => .both) text.toList))).placements "ä→𝄞"
        = (ofText text).placements "ä→𝄞" := by
  intro text choose stored s
  have hread := placements_written s (.file ["map"]) text choose (by decide +kernel) rfl rfl "ä→𝄞"
  have hfound : (ofText text).placements "ä→𝄞"
      = ⟨{ ident := "ä→𝄞", coreOffset := 4, memAddress := 0x100, size := 2, sourceOffset := 3 },
        { ident := "ä→𝄞", coreOffset := 8, memAddress := 0x200, size := 3 }⟩ := by
    decide +kernel
  exact ⟨by decide +kernel, by decide +kernel, hread.1.trans hfound, hread⟩

end SymbolMap

end CoreSplice
