import Mathlib.Data.Nat.Digits.Defs
import Mathlib.Tactic.Common
import CoreSplice.Proofs.Text.Ends
import CoreSplice.Text.Hexadecimal

/-!
# The grammar of hexadecimal literals

A literal is a row of digits with a single underscore between two of them at most.  The mark `0x`
may stand before the row, again with an underscore behind it, a sign before that, and blanks around
the whole.  The relations below say this without any order of reading.

* `IsDigit`, `Row`, `Mark`, `Sign` — the parts, and `Literal`, the whole with its number.
* **`read?_eq_some_iff`** — what is read is the number of a literal, and every literal is read.
* `Form` — the ways to write a number: with or without a mark, with zeros in front, with letters in
  either case.
* **`literal_write`** — what is written is a literal of the number.
-/

namespace CoreSplice.Text.Hexadecimal

/-! ## The parts of a literal -/

/-- The character is a digit with the given value: a decimal digit of some script, or one of six
letters. -/
inductive IsDigit (c : Char) : Nat → Prop where
  | decimal {d : Nat} (h : decimalDigit? c = some d) : IsDigit c d
  | small {i : Nat} (h : "abcdef".toList[i]? = some c) : IsDigit c (10 + i)
  | capital {i : Nat} (h : "ABCDEF".toList[i]? = some c) : IsDigit c (10 + i)

/-- The text is a row of digits with the given values.  Between two digits there may be one
underscore. -/
inductive Row : List Char → List Nat → Prop where
  | last {c : Char} {d : Nat} (h : IsDigit c d) : Row [c] [d]
  | next {c : Char} {d : Nat} {cs : List Char} {ds : List Nat} (h : IsDigit c d)
      (rest : Row cs ds) : Row (c :: cs) (d :: ds)
  | spaced {c : Char} {d : Nat} {cs : List Char} {ds : List Nat} (h : IsDigit c d)
      (rest : Row cs ds) : Row (c :: '_' :: cs) (d :: ds)

/-- The text may stand before a row: nothing, or a zero and an `x`, with an underscore or without
one. -/
inductive Mark : List Char → Prop where
  | absent : Mark []
  | plain {zero x : Char} (hzero : decimalDigit? zero = some 0) (hx : x = 'x' ∨ x = 'X') :
    Mark [zero, x]
  | spaced {zero x : Char} (hzero : decimalDigit? zero = some 0) (hx : x = 'x' ∨ x = 'X') :
    Mark [zero, x, '_']

/-- The text is a sign or nothing, and multiplies the number by the given factor. -/
inductive Sign : List Char → Int → Prop where
  | absent : Sign [] 1
  | plus : Sign ['+'] 1
  | minus : Sign ['-'] (-1)

/-- **The text is a literal of the number.** -/
inductive Literal : List Char → Int → Prop where
  | intro {before sign mark row behind : List Char} {factor : Int} {ds : List Nat}
      (hbefore : ∀ c ∈ before, isBlank c = true) (hsign : Sign sign factor) (hmark : Mark mark)
      (hrow : Row row ds) (hbehind : ∀ c ∈ behind, isBlank c = true) :
    Literal (before ++ (sign ++ (mark ++ row)) ++ behind)
      (factor * (Nat.ofDigits 16 ds.reverse : Nat))

/-! ## Digits -/

/-- A letter of a range of six is one of the six. -/
lemma getElem?_of_range {first last c : Char} {letters : List Char}
    (hletters : ∀ i < 6, letters[i]? = some (Char.ofNat (first.toNat + i)))
    (hlast : last.toNat = first.toNat + 5) (h : first ≤ c ∧ c ≤ last) :
    letters[c.toNat - first.toNat]? = some c := by
  have hle : first.toNat ≤ c.toNat := UInt32.le_iff_toNat_le.1 h.1
  have hle' : c.toNat ≤ last.toNat := UInt32.le_iff_toNat_le.1 h.2
  rw [hletters _ (by omega), Nat.add_sub_cancel' hle, Char.ofNat_toNat]

lemma digit?_of_getElem? {letters : List Char} {c : Char} {i : Nat}
    (hletters : ∀ i (hi : i < letters.length), digit? letters[i] = some (10 + i))
    (h : letters[i]? = some c) : digit? c = some (10 + i) := by
  obtain ⟨hi, rfl⟩ := List.getElem?_eq_some_iff.1 h
  exact hletters i hi

/-- **What counts as a digit.** -/
lemma digit?_eq_some_iff {c : Char} {d : Nat} : digit? c = some d ↔ IsDigit c d := by
  constructor
  · intro h
    simp only [digit?] at h
    split at h
    · rename_i hsmall
      cases h
      rw [Nat.add_comm]
      exact .small (getElem?_of_range (by decide) rfl hsmall)
    · split at h
      · rename_i hcapital
        cases h
        rw [Nat.add_comm]
        exact .capital (getElem?_of_range (by decide) rfl hcapital)
      · exact .decimal h
  · intro h
    cases h with
    | small h => exact digit?_of_getElem? (by decide) h
    | capital h => exact digit?_of_getElem? (by decide) h
    | decimal h =>
      -- No letter is a decimal digit.
      have hletter (letters : List Char)
          (hnone : letters.all (fun l => decimalDigit? l = none) = true) (i : Nat)
          (hget : letters[i]? = some c) : False := by
        rw [List.all_eq_true] at hnone
        rw [of_decide_eq_true (hnone c (List.mem_of_getElem? hget))] at h
        cases h
      rw [digit?, if_neg, if_neg, h]
      · intro hcapital
        exact hletter "ABCDEF".toList (by decide) _ (getElem?_of_range (by decide) rfl hcapital)
      · intro hsmall
        exact hletter "abcdef".toList (by decide) _ (getElem?_of_range (by decide) rfl hsmall)

/-- No blank, no sign and no underscore is a digit. -/
lemma not_isDigit {c : Char} (h : isBlank c = true ∨ c = '+' ∨ c = '-' ∨ c = '_') (d : Nat) :
    ¬ IsDigit c d := by
  have hcodes : ∀ n ∈ 32 :: 43 :: 45 :: 95 :: (List.range' 9 5 ++ wideBlanks),
      digit? (Char.ofNat n) = none := by
    decide
  have hmem : c.toNat ∈ 32 :: 43 :: 45 :: 95 :: (List.range' 9 5 ++ wideBlanks) := by
    rcases h with hblank | rfl | rfl | rfl
    · simp only [isBlank, decide_eq_true_eq] at hblank
      rcases hblank with rfl | hlow | hwide
      · decide
      · have hrange : c.toNat ∈ List.range' 9 5 := List.mem_range'_1.2 (by omega)
        simp [hrange]
      · simp [hwide]
    · decide
    · decide
    · decide
  rw [← digit?_eq_some_iff, ← Char.ofNat_toNat c, hcodes _ hmem]
  exact nofun

lemma IsDigit.isBlank_eq_false {c : Char} {d : Nat} (h : IsDigit c d) : isBlank c = false := by
  rw [← Bool.not_eq_true]
  exact fun hblank => not_isDigit (Or.inl hblank) d h

lemma IsDigit.ne_underscore {c : Char} {d : Nat} (h : IsDigit c d) : c ≠ '_' :=
  fun heq => not_isDigit (Or.inr (Or.inr (Or.inr heq))) d h

/-! ## Rows of digits -/

/-- What stands behind a digit: nothing, or a row with an underscore before it or without one. -/
inductive Behind : List Char → List Nat → Prop where
  | nothing : Behind [] []
  | next {cs : List Char} {ds : List Nat} (rest : Row cs ds) : Behind cs ds
  | spaced {cs : List Char} {ds : List Nat} (rest : Row cs ds) : Behind ('_' :: cs) ds

/-- A row is a digit and what stands behind it. -/
lemma row_cons_iff {c : Char} {cs : List Char} {ds : List Nat} :
    Row (c :: cs) ds ↔ ∃ d rest, ds = d :: rest ∧ IsDigit c d ∧ Behind cs rest := by
  constructor
  · intro h
    cases h with
    | last h => exact ⟨_, _, rfl, h, .nothing⟩
    | next h rest => exact ⟨_, _, rfl, h, .next rest⟩
    | spaced h rest => exact ⟨_, _, rfl, h, .spaced rest⟩
  · rintro ⟨d, rest, rfl, hdigit, hbehind⟩
    cases hbehind with
    | nothing => exact .last hdigit
    | next rest => exact .next hdigit rest
    | spaced rest => exact .spaced hdigit rest

lemma Row.ne_nil {cs : List Char} {ds : List Nat} (h : Row cs ds) : cs ≠ [] := by
  cases h <;> exact List.cons_ne_nil _ _

/-- A row is closed by a digit. -/
lemma Row.exists_getLast? {cs : List Char} {ds : List Nat} (h : Row cs ds) :
    ∃ c d, cs.getLast? = some c ∧ IsDigit c d := by
  induction h with
  | last h => exact ⟨_, _, rfl, h⟩
  | next _ rest ih =>
    obtain ⟨c, d, hlast, hdigit⟩ := ih
    exact ⟨c, d, by rw [List.getLast?_cons, hlast, Option.getD_some], hdigit⟩
  | spaced _ rest ih =>
    obtain ⟨c, d, hlast, hdigit⟩ := ih
    exact ⟨c, d, by simp [List.getLast?_cons, hlast], hdigit⟩

/-- Digits are read up to the end of the text, each behind the one before it. -/
lemma moreDigits_eq_some_iff {before all : List Nat} {cs : List Char} :
    moreDigits before cs = some all ↔ ∃ ds, Behind cs ds ∧ all = ds.reverse ++ before := by
  fun_induction moreDigits before cs with
  | case1 before =>
    constructor
    · rintro ⟨⟩
      exact ⟨[], .nothing, rfl⟩
    · rintro ⟨ds, hbehind, rfl⟩
      cases hbehind with
      | nothing => rfl
      | next rest => exact absurd rfl rest.ne_nil
  | case2 before c cs ih =>
    simp only [Option.bind_eq_some_iff, digit?_eq_some_iff, ih]
    constructor
    · rintro ⟨d, hdigit, ds, hbehind, rfl⟩
      exact ⟨d :: ds, .spaced (row_cons_iff.2 ⟨d, ds, rfl, hdigit, hbehind⟩), by simp⟩
    · rintro ⟨ds, hbehind, rfl⟩
      cases hbehind with
      | next rest =>
        obtain ⟨d, -, -, hdigit, -⟩ := row_cons_iff.1 rest
        exact absurd rfl hdigit.ne_underscore
      | spaced rest =>
        obtain ⟨d, ds, rfl, hdigit, hbehind⟩ := row_cons_iff.1 rest
        exact ⟨d, hdigit, ds, hbehind, by simp⟩
  | case3 before c cs hne ih =>
    simp only [Option.bind_eq_some_iff, digit?_eq_some_iff, ih]
    constructor
    · rintro ⟨d, hdigit, ds, hbehind, rfl⟩
      exact ⟨d :: ds, .next (row_cons_iff.2 ⟨d, ds, rfl, hdigit, hbehind⟩), by simp⟩
    · rintro ⟨ds, hbehind, rfl⟩
      cases hbehind with
      | next rest =>
        obtain ⟨d, ds, rfl, hdigit, hbehind⟩ := row_cons_iff.1 rest
        exact ⟨d, hdigit, ds, hbehind, by simp⟩
      | spaced rest =>
        obtain ⟨c', cs', rfl⟩ := List.exists_cons_of_ne_nil rest.ne_nil
        exact absurd rfl (hne c' cs' rfl)

/-- The value of digits, the last one first, is the number that they are the digits of. -/
lemma value_eq_ofDigits (base : Nat) (ds : List Nat) :
    Positional.value base ds = Nat.ofDigits base ds := by
  induction ds with
  | nil => rfl
  | cons d ds ih => rw [Positional.value, Nat.ofDigits_cons, ih]

/-- **What is read as a row of digits.** -/
lemma digits_eq_some_iff {cs : List Char} {n : Nat} :
    digits cs = some n ↔ ∃ ds, Row cs ds ∧ n = Nat.ofDigits 16 ds.reverse := by
  cases cs with
  | nil =>
    constructor
    · rintro ⟨⟩
    · rintro ⟨ds, hrow, -⟩
      exact absurd rfl hrow.ne_nil
  | cons c cs =>
    simp only [digits, Option.bind_eq_some_iff, Option.map_eq_some_iff, digit?_eq_some_iff,
      moreDigits_eq_some_iff, Positional.number_eq_value, value_eq_ofDigits, row_cons_iff]
    constructor
    · rintro ⟨d, hdigit, all, ⟨ds, hbehind, rfl⟩, rfl⟩
      exact ⟨d :: ds, ⟨d, ds, rfl, hdigit, hbehind⟩, by rw [List.reverse_cons]⟩
    · rintro ⟨_, ⟨d, ds, rfl, hdigit, hbehind⟩, rfl⟩
      exact ⟨d, hdigit, _, ⟨ds, hbehind, rfl⟩, by rw [List.reverse_cons]⟩

/-! ## The mark and the sign -/

lemma digit?_eq_zero_iff {c : Char} : digit? c = some 0 ↔ decimalDigit? c = some 0 := by
  rw [digit?_eq_some_iff]
  constructor
  · intro h
    -- The values of letters are larger.
    generalize hzero : 0 = d at h
    cases h with
    | decimal h => exact hzero ▸ h
    | small h => omega
    | capital h => omega
  · exact .decimal

/-- What is taken away before the digits is a mark. -/
lemma exists_mark (body : List Char) : ∃ mark, Mark mark ∧ body = mark ++ dropMark body := by
  rw [dropMark.eq_def]
  split
  · rename_i zero x rest
    split
    · rename_i hmark
      obtain ⟨hzero, hx⟩ := hmark
      rw [digit?_eq_zero_iff] at hzero
      split
      · exact ⟨_, .spaced hzero hx, rfl⟩
      · exact ⟨_, .plain hzero hx, rfl⟩
    · exact ⟨[], .absent, rfl⟩
  · exact ⟨[], .absent, rfl⟩

/-- No letter of a mark is a digit. -/
lemma not_isDigit_markLetter {x : Char} (hx : x = 'x' ∨ x = 'X') (d : Nat) : ¬ IsDigit x d := by
  rw [← digit?_eq_some_iff]
  rcases hx with rfl | rfl
  · exact nofun
  · exact nofun

/-- A mark before a row is taken away. -/
lemma dropMark_append {mark row : List Char} {ds : List Nat} (hmark : Mark mark)
    (hrow : Row row ds) : dropMark (mark ++ row) = row := by
  rw [dropMark.eq_def]
  cases hmark with
  | absent =>
    rw [List.nil_append]
    split
    · rename_i c x rest
      -- Behind the first character of a row stands a digit or an underscore.
      have hx : ¬ (x = 'x' ∨ x = 'X') := by
        intro hx
        obtain ⟨d, ds, -, -, hbehind⟩ := row_cons_iff.1 hrow
        cases hbehind with
        | next rest =>
          obtain ⟨e, -, -, hdigit, -⟩ := row_cons_iff.1 rest
          exact not_isDigit_markLetter hx e hdigit
        | spaced rest => revert hx; decide
      rw [if_neg fun h => hx h.2]
    · rfl
  | plain hzero hx =>
    obtain ⟨c, cs, rfl⟩ := List.exists_cons_of_ne_nil hrow.ne_nil
    obtain ⟨d, -, -, hc, -⟩ := row_cons_iff.1 hrow
    dsimp only [List.cons_append, List.nil_append]
    rw [if_pos ⟨digit?_eq_zero_iff.2 hzero, hx⟩]
    split
    · rename_i heq
      exact absurd (List.cons.inj heq).1 hc.ne_underscore
    · rfl
  | spaced hzero hx =>
    dsimp only [List.cons_append, List.nil_append]
    rw [if_pos ⟨digit?_eq_zero_iff.2 hzero, hx⟩]
    rfl

/-- A mark and a row begin with a digit and are closed by one. -/
lemma exists_ends {mark row : List Char} {ds : List Nat} (hmark : Mark mark) (hrow : Row row ds) :
    (∃ c cs d, mark ++ row = c :: cs ∧ IsDigit c d) ∧
      ∃ c d, (mark ++ row).getLast? = some c ∧ IsDigit c d := by
  constructor
  · cases hmark with
    | absent =>
      obtain ⟨c, cs, rfl⟩ := List.exists_cons_of_ne_nil hrow.ne_nil
      obtain ⟨d, -, -, hdigit, -⟩ := row_cons_iff.1 hrow
      exact ⟨c, cs, d, rfl, hdigit⟩
    | plain hzero => exact ⟨_, _, 0, rfl, .decimal hzero⟩
    | spaced hzero => exact ⟨_, _, 0, rfl, .decimal hzero⟩
  · obtain ⟨c, d, hlast, hdigit⟩ := hrow.exists_getLast?
    exact ⟨c, d, by rw [List.getLast?_append, hlast, Option.some_or], hdigit⟩

lemma Sign.not_blank {sign : List Char} {factor : Int} (h : Sign sign factor) :
    ∀ c ∈ sign, isBlank c = false := by
  cases h with
  | absent => nofun
  | plus | minus => exact List.forall_mem_singleton.2 (by decide)

/-! ## The whole -/

/-- Digits behind a mark and a sign, with blanks around them, are a literal. -/
lemma literal_of_digits {text sign body : List Char} {factor : Int} {n : Nat}
    (htrim : trimBlanks text = sign ++ body) (hsign : Sign sign factor)
    (h : digits (dropMark body) = some n) : Literal text (factor * n) := by
  obtain ⟨before, behind, htext, hbefore, hbehind⟩ := exists_trimBlanks text
  obtain ⟨mark, hmark, hbody⟩ := exists_mark body
  obtain ⟨ds, hrow, rfl⟩ := digits_eq_some_iff.1 h
  rw [htext, htrim, hbody]
  exact .intro hbefore hsign hmark hrow hbehind

/-- A literal without the blanks around it. -/
lemma trimBlanks_literal {before sign mark row behind : List Char} {factor : Int} {ds : List Nat}
    (hbefore : ∀ c ∈ before, isBlank c = true) (hsign : Sign sign factor) (hmark : Mark mark)
    (hrow : Row row ds) (hbehind : ∀ c ∈ behind, isBlank c = true) :
    trimBlanks (before ++ (sign ++ (mark ++ row)) ++ behind) = sign ++ (mark ++ row) := by
  obtain ⟨⟨first, rest, d, hbody, hfirst⟩, ⟨last, e, hlast, hlastDigit⟩⟩ := exists_ends hmark hrow
  refine trimBlanks_append hbefore hbehind ?_ ?_ ?_
  · rw [hbody]
    simp
  · intro c hc
    cases hs : sign with
    | nil =>
      rw [hs, List.nil_append, hbody] at hc
      cases hc
      exact hfirst.isBlank_eq_false
    | cons s ss =>
      rw [hs] at hc
      cases hc
      exact hsign.not_blank c (by rw [hs]; exact List.mem_cons_self)
  · intro c hc
    rw [List.getLast?_append, hlast, Option.some_or] at hc
    cases hc
    exact hlastDigit.isBlank_eq_false

/-- **What is read** is the number of a literal, and every literal is read. -/
theorem read?_eq_some_iff {text : List Char} {n : Int} : read? text = some n ↔ Literal text n := by
  constructor
  · intro h
    simp only [read?, bind_pure_comp, Option.map_eq_map, Option.map_map] at h
    split at h
    · rename_i body htrim
      obtain ⟨m, hm, rfl⟩ := Option.map_eq_some_iff.1 h
      have hliteral : Literal text (-1 * m) := literal_of_digits htrim .minus hm
      rwa [neg_one_mul] at hliteral
    · rename_i body htrim
      obtain ⟨m, hm, rfl⟩ := Option.map_eq_some_iff.1 h
      have hliteral : Literal text (1 * m) := literal_of_digits htrim .plus hm
      rwa [one_mul] at hliteral
    · obtain ⟨m, hm, rfl⟩ := Option.map_eq_some_iff.1 h
      have hliteral : Literal text (1 * m) := literal_of_digits (List.nil_append _).symm .absent hm
      rwa [one_mul] at hliteral
  · rintro ⟨hbefore, hsign, hmark, hrow, hbehind⟩
    have hdigits := digits_eq_some_iff.2 ⟨_, hrow, rfl⟩
    have hdrop := dropMark_append hmark hrow
    simp only [read?, bind_pure_comp, Option.map_eq_map, Option.map_map,
      trimBlanks_literal hbefore hsign hmark hrow hbehind]
    cases hsign with
    | minus =>
      change (digits (dropMark (_ ++ _))).map _ = _
      rw [List.nil_append, hdrop, hdigits, neg_one_mul]
      rfl
    | plus =>
      change (digits (dropMark (_ ++ _))).map _ = _
      rw [List.nil_append, hdrop, hdigits, one_mul]
      rfl
    | absent =>
      obtain ⟨⟨first, rest, d, hbody, hfirst⟩, -⟩ := exists_ends hmark hrow
      rw [List.nil_append]
      split
      · rename_i heq
        rw [hbody] at heq
        exact absurd (List.cons.inj heq).1 fun h => not_isDigit (by simp [h]) d hfirst
      · rename_i heq
        rw [hbody] at heq
        exact absurd (List.cons.inj heq).1 fun h => not_isDigit (by simp [h]) d hfirst
      · rw [hdrop, hdigits, one_mul]
        rfl

/-! ## Ways to write a number -/

/-- The two cases of a letter. -/
inductive Case where
  | small
  | capital
  deriving DecidableEq, Repr

/-- A letter in a case.  Characters that are no letters stay as they are. -/
def Case.letter : Case → Char → Char
  | small => id
  | capital => Char.toUpper

/-- How a number is written: with which mark, if with any, with how many zeros in front, and with
which letters. -/
structure Form where
  mark : Option Case := none
  zeros : Nat := 0
  letters : Case := .small
  deriving DecidableEq, Repr

/-- The number in the form. -/
def Form.write (form : Form) (n : Nat) : List Char :=
  (match form.mark with
    | none => []
    | some case => ['0', case.letter 'x']) ++
    (List.replicate form.zeros '0' ++ (Nat.toDigits 16 n).map form.letters.letter)

lemma isDigit_letter (case : Case) {d : Nat} (h : d < 16) :
    IsDigit (case.letter d.digitChar) d := by
  rw [← digit?_eq_some_iff]
  cases case with
  | small => exact digit?_digitChar h
  | capital =>
    have all : ∀ d : Fin 16, digit? d.val.digitChar.toUpper = some d.val := by decide
    exact all ⟨d, h⟩

/-- A row goes on with one more digit. -/
lemma Row.snoc {cs : List Char} {ds : List Nat} (h : Row cs ds) {c : Char} {d : Nat}
    (hdigit : IsDigit c d) : Row (cs ++ [c]) (ds ++ [d]) := by
  induction h with
  | last h => exact .next h (.last hdigit)
  | next h _ ih => exact .next h ih
  | spaced h _ ih => exact .spaced h ih

/-- The digits of a number are a row, in letters of either case. -/
lemma exists_row_toDigits (case : Case) (n : Nat) :
    ∃ ds, Row ((Nat.toDigits 16 n).map case.letter) ds ∧ Nat.ofDigits 16 ds.reverse = n := by
  induction n using Nat.strong_induction_on with
  | _ n ih =>
    by_cases hlt : n < 16
    · rw [Nat.toDigits_of_lt_base hlt]
      exact ⟨[n], .last (isDigit_letter case hlt), Nat.ofDigits_singleton⟩
    · obtain ⟨ds, hrow, hvalue⟩ := ih (n / 16) (by omega)
      have hlast : n % 16 < 16 := Nat.mod_lt _ (by decide)
      have hsplit : Nat.toDigits 16 (n / 16) ++ [(n % 16).digitChar] = Nat.toDigits 16 n := by
        rw [← Nat.toDigits_of_lt_base hlast,
          Nat.toDigits_append_toDigits (by decide) (by omega) hlast, Nat.div_add_mod]
      refine ⟨ds ++ [n % 16], ?_, ?_⟩
      · rw [← hsplit, List.map_append]
        exact hrow.snoc (isDigit_letter case hlast)
      · rw [List.reverse_append, List.reverse_singleton, List.singleton_append, Nat.ofDigits_cons,
          hvalue]
        exact Nat.mod_add_div n 16

/-- Zeros in front of a row change nothing of its number. -/
lemma Row.zeros {cs : List Char} {ds : List Nat} (h : Row cs ds) (zeros : Nat) :
    Row (List.replicate zeros '0' ++ cs) (List.replicate zeros 0 ++ ds) ∧
      Nat.ofDigits 16 (List.replicate zeros 0 ++ ds).reverse = Nat.ofDigits 16 ds.reverse := by
  constructor
  · induction zeros with
    | zero => exact h
    | succ zeros ih => exact .next (.decimal rfl) ih
  · rw [List.reverse_append, List.reverse_replicate, Nat.ofDigits_append_replicate_zero]

/-- What is written is a mark and a row of digits. -/
lemma exists_write (form : Form) (n : Nat) :
    ∃ mark row ds, form.write n = mark ++ row ∧ Mark mark ∧ Row row ds ∧
      Nat.ofDigits 16 ds.reverse = n := by
  obtain ⟨mark, zeros, letters⟩ := form
  obtain ⟨ds, hdigits, hvalue⟩ := exists_row_toDigits letters n
  obtain ⟨hrow, hzeros⟩ := hdigits.zeros zeros
  refine ⟨_, _, _, rfl, ?_, hrow, hzeros.trans hvalue⟩
  rcases mark with _ | _ | _
  · exact .absent
  · exact .plain rfl (Or.inl rfl)
  · exact .plain rfl (Or.inr rfl)

/-- **What is written is a literal** of the number, in whatever form. -/
theorem literal_write (form : Form) (n : Nat) : Literal (form.write n) n := by
  obtain ⟨mark, row, ds, hwrite, hmark, hrow, hvalue⟩ := exists_write form n
  have hliteral : Literal ([] ++ ([] ++ (mark ++ row)) ++ []) _ :=
    .intro nofun .absent hmark hrow nofun
  rw [hvalue, one_mul, List.append_nil] at hliteral
  rw [hwrite]
  exact hliteral

lemma Row.not_blank {cs : List Char} {ds : List Nat} (h : Row cs ds) :
    ∀ c ∈ cs, isBlank c = false := by
  induction h with
  | last h => simpa using h.isBlank_eq_false
  | next h _ ih => exact List.forall_mem_cons.2 ⟨h.isBlank_eq_false, ih⟩
  | spaced h _ ih =>
    exact List.forall_mem_cons.2 ⟨h.isBlank_eq_false, List.forall_mem_cons.2 ⟨by decide, ih⟩⟩

lemma Mark.not_blank {mark : List Char} (h : Mark mark) : ∀ c ∈ mark, isBlank c = false := by
  have hletter {x : Char} (hx : x = 'x' ∨ x = 'X') : isBlank x = false := by
    rcases hx with rfl | rfl <;> decide
  cases h with
  | absent => exact nofun
  | plain hzero hx => simp [(IsDigit.decimal hzero).isBlank_eq_false, hletter hx]
  | spaced hzero hx =>
    have hunderscore : isBlank '_' = false := by decide
    simp [(IsDigit.decimal hzero).isBlank_eq_false, hletter hx, hunderscore]

/-- What is written holds no blank. -/
lemma not_blank_write (form : Form) (n : Nat) : ∀ c ∈ form.write n, isBlank c = false := by
  obtain ⟨mark, row, ds, hwrite, hmark, hrow, -⟩ := exists_write form n
  rw [hwrite]
  intro c hc
  rcases List.mem_append.1 hc with hc | hc
  · exact hmark.not_blank c hc
  · exact hrow.not_blank c hc

/-- A number in a form of no great help to the reader. -/
example : read? "\t-0X_0\u0661_fF\n".toList = some (-0x1ff) := by decide

end CoreSplice.Text.Hexadecimal
