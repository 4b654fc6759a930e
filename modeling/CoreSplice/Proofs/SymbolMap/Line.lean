import CoreSplice.Proofs.Text.Literal
import CoreSplice.SymbolMap.Entry

/-!
# The lines of a symbol map

A line that gives an entry has five fields with single spaces between them: three literals of
numbers that are not negative, one character, and the rest of the line, which is the ident,
whatever it holds.  Line ends that close the line belong to no field.

* `Entry.Says` — the text gives the entry.
* `Entry.writeIn` — the line of an entry with each number written in a form of its own.
* **`Entry.parse?_line`** — a line is read as an entry if it gives it, and every line that is
  written is read back.
-/

namespace CoreSplice

open Text Text.Hexadecimal

namespace Entry

/-- **The text gives the entry.**  A field before the kind may hold any blank but the space that
ends it. -/
inductive Says : List Char → Entry → Prop where
  | intro {e : Entry} {first second third : List Char}
      (hcore : Literal first e.coreOffset) (hmemory : Literal second e.memAddress)
      (hsize : Literal third e.size) (hfirst : ' ' ∉ first) (hsecond : ' ' ∉ second)
      (hthird : ' ' ∉ third) (hkind : e.kind ≠ ' ') :
    Says (first ++ ' ' :: second ++ ' ' :: third ++ ' ' :: e.kind :: ' ' :: e.ident.toList) e

/-- The line of the entry, with its three numbers in the given forms, and without a line end. -/
def writeIn (e : Entry) (core memory size : Form) : List Char :=
  core.write e.coreOffset ++ ' ' :: memory.write e.memAddress ++ ' ' :: size.write e.size ++
    ' ' :: e.kind :: ' ' :: e.ident.toList

/-! ## Reading -/

lemma natural?_eq_some_iff {field : List Char} {n : Nat} :
    natural? field = some n ↔ Literal field n := by
  rw [← read?_eq_some_iff, natural?]
  split
  · rename_i m hm
    rw [hm]
    simp
  · rename_i hnot
    constructor
    · rintro ⟨⟩
    · intro h
      exact absurd h (hnot n)

/-- **What is read of a line** is the entry that it gives. -/
lemma parse?_eq_some_iff {line : List Char} {e : Entry} :
    parse? line = some e ↔ Says (trimLineEnd line) e := by
  simp only [parse?, Option.bind_eq_bind, Option.bind_eq_some_iff, Prod.exists, cut?_eq_some_iff,
    natural?_eq_some_iff]
  generalize trimLineEnd line = text
  constructor
  · rintro ⟨first, _, ⟨rfl, hfirst⟩, second, _, ⟨rfl, hsecond⟩, third, _, ⟨rfl, hthird⟩,
      kind, ident, ⟨rfl, hkind⟩, core, hcore, memory, hmemory, size, hsize, hentry⟩
    split at hentry
    · rename_i kind
      cases hentry
      have hsays : Says _ ⟨core, memory, size, kind, String.ofList ident⟩ :=
        .intro hcore hmemory hsize hfirst hsecond hthird (Ne.symm (List.ne_of_not_mem_cons hkind))
      simpa using hsays
    · cases hentry
  · rintro ⟨hcore, hmemory, hsize, hfirst, hsecond, hthird, hkind⟩
    refine ⟨_, _, ⟨by simp, hfirst⟩, _, _, ⟨rfl, hsecond⟩, _, _, ⟨rfl, hthird⟩, [e.kind],
      e.ident.toList, ⟨rfl, by simpa using Ne.symm hkind⟩, _, hcore, _, hmemory, _, hsize, ?_⟩
    simp

/-! ## Writing -/

lemma space_not_mem_write (form : Form) (n : Nat) : ' ' ∉ form.write n := by
  intro hspace
  have hnot := not_blank_write form n ' ' hspace
  revert hnot
  decide

/-- A line that was written gives its entry. -/
lemma says_writeIn {e : Entry} (hkind : e.kind ≠ ' ') (core memory size : Form) :
    Says (e.writeIn core memory size) e :=
  .intro (literal_write core _) (literal_write memory _) (literal_write size _)
    (space_not_mem_write core _) (space_not_mem_write memory _) (space_not_mem_write size _) hkind

/-- The last character of a line that was written belongs to the ident, if that has any. -/
lemma getLast?_writeIn (e : Entry) (core memory size : Form) :
    (e.writeIn core memory size).getLast? = some (e.ident.toList.getLast?.getD ' ') := by
  simp [writeIn, List.getLast?_append, List.getLast?_cons]

/-- **Reading a line.**  An entry is read of a line if, without the line ends that close it, the
line gives the entry; nothing is read of any other line.  So whatever the forms of its numbers, a
line that was written is read back, with each of the usual line ends or with none. -/
theorem parse?_line :
    (∀ (line : List Char) (e : Entry),
        parse? line = some e ↔ ∃ text, Closes line text ∧ Says text e) ∧
      ∀ (e : Entry) (core memory size : Form) (ends : List Char), e.kind ≠ ' ' →
        (∀ c ∈ e.ident.toList.getLast?, c ≠ '\r' ∧ c ≠ '\n') →
          ends ∈ [[], ['\n'], ['\r', '\n']] →
            parse? (e.writeIn core memory size ++ ends) = some e := by
  have hread (line : List Char) (e : Entry) :
      parse? line = some e ↔ ∃ text, Closes line text ∧ Says text e := by
    rw [parse?_eq_some_iff]
    constructor
    · intro h
      exact ⟨_, trimLineEnd_eq_iff.1 rfl, h⟩
    · rintro ⟨text, hcloses, hsays⟩
      rwa [trimLineEnd_eq_iff.2 hcloses]
  refine ⟨hread, ?_⟩
  intro e core memory size ends hkind hident hends
  refine (hread _ _).2 ⟨_, ⟨⟨ends, rfl, ?ends⟩, ?last⟩, says_writeIn hkind core memory size⟩
  case ends =>
    intro c hc
    simp only [List.mem_cons, List.not_mem_nil, or_false] at hends
    rcases hends with rfl | rfl | rfl <;> simp_all
  case last =>
    intro c hc
    rw [getLast?_writeIn] at hc
    cases hlast : e.ident.toList.getLast? with
    | none =>
      rw [hlast] at hc
      cases hc
      decide
    | some d =>
      rw [hlast] at hc
      cases hc
      exact hident _ (by rw [hlast]; rfl)

/-- An entry of an unusual kind, whose ident has spaces and a carriage return in it, is read back
in whatever form its numbers have; and a line is read in which a blank and signs stand before
numbers, and underscores between digits. -/
theorem parse?_line_unusual :
    let e : Entry := ⟨0xbeef, 0, 0x10, '\n', " a\r b "⟩
    (e.kind ≠ ' ' ∧ (∀ c ∈ e.ident.toList.getLast?, c ≠ '\r' ∧ c ≠ '\n') ∧
      parse? (e.writeIn ⟨some .capital, 2, .small⟩ {} ⟨some .small, 0, .capital⟩ ++ ['\r', '\n'])
        = some e) ∧
      ∃ text, Closes "\t+0xBe_ef -0 0_1\u0660\t \n  a\r b \r\r\n".toList text ∧ Says text e := by
  intro e
  have hkind : e.kind ≠ ' ' := by decide
  have hident : ∀ c ∈ e.ident.toList.getLast?, c ≠ '\r' ∧ c ≠ '\n' := by
    have hlast : e.ident.toList.getLast? = some ' ' := by decide
    rw [hlast]
    rintro c ⟨⟩
    decide
  exact ⟨⟨hkind, hident, parse?_line.2 e _ _ _ _ hkind hident (by decide)⟩,
    (parse?_line.1 _ _).1 (by decide)⟩

end Entry

end CoreSplice
