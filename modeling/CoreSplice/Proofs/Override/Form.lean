import CoreSplice.Override.Basic
import CoreSplice.Proofs.Text.Numeral

/-!
# The form of an option

An option is four texts with separators between them: the ident, the size, the file name and the
offset.  The ident holds no colon and the file name no plus sign, and a numeral holds nothing but
digits, so that the first colon, the at sign behind the size and the first plus sign behind that are
where the texts end, whatever separators stand inside an ident or a file name.  Hence no argument
has two forms, and cutting it from the left finds the one it has.

* `Override.Form`, `Form.Gives` — the four texts, and the arguments that they make.
* `Override.fields?_eq_some_iff` — the cuts find the form.
* `Override.Reading`, `Override.reading_parse` — an argument is read in one of four ways.
* **`Override.parse_form`** — what is read of an argument, and when it is refused.
-/

namespace CoreSplice.Override

open Text

/-! ## Forms -/

/-- The four texts of an option. -/
structure Form where
  ident : String
  size : String
  source : String
  offset : String

namespace Form

/-- The texts can be told from each other in a row. -/
structure Fits (form : Form) : Prop where
  ident_ne_empty : form.ident ≠ ""
  colon_not_mem : ':' ∉ form.ident.toList
  size : Decimal.IsDigits form.size
  source_ne_empty : form.source ≠ ""
  plus_not_mem : '+' ∉ form.source.toList
  offset : Decimal.IsDigits form.offset

/-- The option of the texts. -/
def write (form : Form) : String :=
  option form.ident form.size form.source form.offset

/-- The argument is the option of the texts, perhaps with a line feed behind it. -/
def Gives (form : Form) (argument : String) : Prop :=
  form.Fits ∧ (argument = form.write ∨ argument = form.write ++ "\n")

/-- Neither numeral is too long to be read. -/
def IsShort (form : Form) : Prop :=
  form.size.length ≤ 4300 ∧ form.offset.length ≤ 4300

/-- The override that the texts stand for. -/
def override (form : Form) : Override where
  ident := form.ident
  size := Nat.ofDigitChars 10 form.size.toList 0
  source := form.source
  offset := Nat.ofDigitChars 10 form.offset.toList 0
  consumed := false

variable {form other : Form} {argument : String}

lemma toList_write (form : Form) :
    form.write.toList = "--data=".toList ++ (form.ident.toList ++ ':' :: (form.size.toList ++
      '@' :: (form.source.toList ++ '+' :: form.offset.toList))) := by
  simp [write, option]

end Form

/-! ## Cutting an argument -/

variable {text rest : List Char} {form other : Form} {argument : String}

/-- The name of the option comes first. -/
lemma afterMark?_eq_some_iff :
    afterMark? text = some rest ↔ text = "--data=".toList ++ rest := by
  constructor
  · intro h
    unfold afterMark? at h
    split at h
    · cases h
      rfl
    · cases h
  · rintro rfl
    rfl

lemma afterMark?_eq_none_iff : afterMark? text = none ↔ ¬ "--data=".toList <+: text := by
  rw [Option.eq_none_iff_forall_ne_some]
  constructor
  · rintro h ⟨rest, hrest⟩
    exact h rest (afterMark?_eq_some_iff.2 hrest.symm)
  · intro h rest hrest
    exact h ⟨rest, (afterMark?_eq_some_iff.1 hrest).symm⟩

lemma isNumeral_iff {digits : String} :
    isNumeral digits.toList = true ↔ Decimal.IsDigits digits := by
  simp only [isNumeral, decide_eq_true_eq, ne_eq, String.toList_eq_nil_iff, List.all_eq_true]
  exact ⟨fun ⟨hne, hall⟩ => ⟨hne, hall⟩, fun h => ⟨h.ne_empty, h.all⟩⟩

/-- No separator and no line feed is a digit. -/
lemma not_mem_of_isNumeral {digits : List Char} (h : isNumeral digits = true) {c : Char}
    (hc : c.isDigit = false) : c ∉ digits := by
  simp only [isNumeral, decide_eq_true_eq, List.all_eq_true] at h
  intro hmem
  rw [h.2 c hmem] at hc
  cases hc

/-- One line feed may stand behind a numeral. -/
lemma dropLineFeed_eq_iff {digits : List Char} (h : isNumeral digits = true) :
    dropLineFeed text = digits ↔ ∃ ends ∈ [[], ['\n']], text = digits ++ ends := by
  have hlast : '\n' ∉ digits := not_mem_of_isNumeral h (by decide)
  simp only [List.mem_cons, List.not_mem_nil, or_false, exists_eq_or_imp, exists_eq_left,
    List.append_nil]
  unfold dropLineFeed
  split
  · rename_i front hfront
    rw [List.reverse_eq_cons_iff] at hfront
    subst hfront
    simp only [List.append_left_inj]
    refine ⟨Or.inr, fun hor => hor.resolve_left ?_⟩
    rintro rfl
    exact hlast (List.mem_append_right _ List.mem_cons_self)
  · rename_i hother
    refine ⟨Or.inl, fun hor => hor.resolve_right ?_⟩
    rintro rfl
    exact hother digits.reverse (by rw [List.reverse_append]; rfl)

/-- **The cuts find the texts** of an option, without its name. -/
lemma fields?_eq_some_iff {ident size source offset : List Char} :
    fields? text = some (ident, size, source, offset) ↔
      (ident ≠ [] ∧ ':' ∉ ident ∧ isNumeral size = true ∧ source ≠ [] ∧ '+' ∉ source ∧
        isNumeral offset = true) ∧
      ∃ ends ∈ [[], ['\n']],
        text = ident ++ ':' :: (size ++ '@' :: (source ++ '+' :: (offset ++ ends))) := by
  simp only [fields?, Option.bind_eq_bind, Option.bind_eq_some_iff, Prod.exists, cut?_eq_some_iff]
  constructor
  · rintro ⟨ident', _, ⟨rfl, hcolon⟩, size', _, ⟨rfl, hat⟩, source', last, ⟨rfl, hplus⟩, hsome⟩
    split at hsome
    · rename_i hfits
      cases hsome
      obtain ⟨hident, hsize, hsource, hoffset⟩ := hfits
      obtain ⟨ends, hends, hlast⟩ := (dropLineFeed_eq_iff hoffset).1 rfl
      exact ⟨⟨hident, hcolon, hsize, hsource, hplus, hoffset⟩, ends, hends, by rw [← hlast]⟩
    · cases hsome
  · rintro ⟨⟨hident, hcolon, hsize, hsource, hplus, hoffset⟩, ends, hends, rfl⟩
    have hlast : dropLineFeed (offset ++ ends) = offset :=
      (dropLineFeed_eq_iff hoffset).2 ⟨ends, hends, rfl⟩
    refine ⟨ident, _, ⟨rfl, hcolon⟩, size, _, ⟨rfl, not_mem_of_isNumeral hsize (by decide)⟩,
      source, _, ⟨rfl, hplus⟩, ?_⟩
    rw [hlast, if_pos ⟨hident, hsize, hsource, hoffset⟩]

namespace Form

lemma gives_iff_toList : form.Gives argument ↔
    form.Fits ∧ ∃ ends ∈ [[], ['\n']], argument.toList = form.write.toList ++ ends := by
  simp only [Gives, ← String.toList_inj, String.toList_append, List.mem_cons, List.not_mem_nil,
    or_false, exists_eq_or_imp, exists_eq_left, List.append_nil]
  rfl

/-- **An argument has the form that the cuts find**, and no other. -/
lemma gives_iff : form.Gives argument ↔ ∃ text, afterMark? argument.toList = some text ∧
    fields? text = some (form.ident.toList, form.size.toList, form.source.toList,
      form.offset.toList) := by
  simp only [gives_iff_toList, afterMark?_eq_some_iff, fields?_eq_some_iff, isNumeral_iff, ne_eq,
    String.toList_eq_nil_iff, toList_write]
  constructor
  · rintro ⟨hfits, ends, hends, hargument⟩
    refine ⟨_, by rw [hargument, List.append_assoc], ⟨hfits.ident_ne_empty, hfits.colon_not_mem,
      hfits.size, hfits.source_ne_empty, hfits.plus_not_mem, hfits.offset⟩, ends, hends, ?_⟩
    simp only [List.append_assoc, List.cons_append]
  · rintro ⟨text, hmark, ⟨hident, hcolon, hsize, hsource, hplus, hoffset⟩, ends, hends, rfl⟩
    refine ⟨⟨hident, hcolon, hsize, hsource, hplus, hoffset⟩, ends, hends, ?_⟩
    rw [hmark]
    simp only [List.append_assoc, List.cons_append]

lemma Gives.unique (h : form.Gives argument) (hother : other.Gives argument) : form = other := by
  obtain ⟨text, hmark, hfields⟩ := gives_iff.1 h
  obtain ⟨text', hmark', hfields'⟩ := gives_iff.1 hother
  rw [hmark] at hmark'
  cases hmark'
  rw [hfields] at hfields'
  simp only [Option.some.injEq, Prod.mk.injEq, String.toList_inj] at hfields'
  obtain ⟨hident, hsize, hsource, hoffset⟩ := hfields'
  cases form
  cases other
  simp_all

/-- A numeral is no longer than the argument. -/
lemma Gives.isShort (h : form.Gives argument) (hshort : argument.length ≤ 4300) :
    form.IsShort := by
  obtain ⟨-, ends, -, hargument⟩ := gives_iff_toList.1 h
  have hlength := congrArg List.length hargument
  simp only [toList_write, List.length_append, List.length_cons, String.length_toList] at hlength
  constructor <;> omega

lemma Gives.isMarked (h : form.Gives argument) : "--data=".toList <+: argument.toList := by
  obtain ⟨text, hmark, -⟩ := gives_iff.1 h
  exact ⟨text, (afterMark?_eq_some_iff.1 hmark).symm⟩

end Form

/-! ## Reading an argument -/

lemma read?_toList (digits : String) : Decimal.read? digits.toList
    = if digits.length ≤ 4300 then some (Nat.ofDigitChars 10 digits.toList 0) else none := by
  rw [Decimal.read?, String.length_toList, Decimal.maxDigits]
  split
  · rename_i hlong
    rw [if_neg (Nat.not_le.2 hlong)]
  · rename_i hshort
    rw [if_pos (Nat.not_lt.1 hshort)]

lemma parse_of_gives (h : form.Gives argument) :
    (form.IsShort → parse argument = .ok form.override) ∧
      (¬ form.IsShort → parse argument = .error (.tooManyDigits argument)) := by
  obtain ⟨text, hmark, hfields⟩ := Form.gives_iff.1 h
  simp only [parse, hmark, hfields, read?_toList, Form.IsShort]
  by_cases hsize : form.size.length ≤ 4300
  · by_cases hoffset : form.offset.length ≤ 4300
    · simp [hsize, hoffset, Form.override]
    · simp [hsize, hoffset]
  · simp [hsize]

/-- **The ways to read an argument.** -/
inductive Reading (argument : String) : Except OptionError Override → Prop where
  | unknown (hmark : ¬ "--data=".toList <+: argument.toList) :
      Reading argument (.error (.unknown argument))
  | malformed (hmark : "--data=".toList <+: argument.toList)
      (hnone : ¬ ∃ form : Form, form.Gives argument) :
      Reading argument (.error (.malformed argument))
  | tooManyDigits (form : Form) (hgives : form.Gives argument) (hlong : ¬ form.IsShort) :
      Reading argument (.error (.tooManyDigits argument))
  | ok (form : Form) (hgives : form.Gives argument) (hshort : form.IsShort) :
      Reading argument (.ok form.override)

lemma reading_parse (argument : String) : Reading argument (parse argument) := by
  by_cases hform : ∃ form : Form, form.Gives argument
  · obtain ⟨form, hgives⟩ := hform
    obtain ⟨hok, herror⟩ := parse_of_gives hgives
    by_cases hshort : form.IsShort
    · rw [hok hshort]
      exact .ok form hgives hshort
    · rw [herror hshort]
      exact .tooManyDigits form hgives hshort
  · cases hmark : afterMark? argument.toList with
    | none =>
      have hparse : parse argument = .error (.unknown argument) := by simp only [parse, hmark]
      rw [hparse]
      exact .unknown (afterMark?_eq_none_iff.1 hmark)
    | some text =>
      have hfields : fields? text = none := by
        cases hfields : fields? text with
        | none => rfl
        | some fields =>
          obtain ⟨ident, size, source, offset⟩ := fields
          refine absurd ⟨⟨.ofList ident, .ofList size, .ofList source, .ofList offset⟩, ?_⟩ hform
          exact Form.gives_iff.2 ⟨text, hmark, by simpa using hfields⟩
      have hparse : parse argument = .error (.malformed argument) := by
        simp only [parse, hmark, hfields]
      rw [hparse]
      exact .malformed ⟨text, (afterMark?_eq_some_iff.1 hmark).symm⟩ hform

lemma parse_eq_ok_iff {o : Override} : parse argument = .ok o ↔
    ∃ form : Form, form.Gives argument ∧ form.IsShort ∧ o = form.override := by
  constructor
  · intro h
    have hreading := reading_parse argument
    rw [h] at hreading
    cases hreading with
    | ok form hgives hshort => exact ⟨form, hgives, hshort, rfl⟩
  · rintro ⟨form, hgives, hshort, rfl⟩
    exact (parse_of_gives hgives).1 hshort

lemma consumed_of_parse {o : Override} (h : parse argument = .ok o) : o.consumed = false := by
  obtain ⟨form, -, -, rfl⟩ := parse_eq_ok_iff.1 h
  rfl

/-- The override of an option starts at or after the start of its file. -/
lemma offset_nonneg_of_parse {o : Override} (h : parse argument = .ok o) : 0 ≤ o.offset := by
  obtain ⟨form, -, -, rfl⟩ := parse_eq_ok_iff.1 h
  exact Int.natCast_nonneg _

lemma parse_eq_tooManyDigits_iff : parse argument = .error (.tooManyDigits argument) ↔
    ∃ form : Form, form.Gives argument ∧ ¬ form.IsShort := by
  constructor
  · intro h
    have hreading := reading_parse argument
    rw [h] at hreading
    cases hreading with
    | tooManyDigits form hgives hlong => exact ⟨form, hgives, hlong⟩
  · rintro ⟨form, hgives, hlong⟩
    exact (parse_of_gives hgives).2 hlong

/-- **What is read of an argument.**  An argument without the name of the option is no option.  One
that has it is read if it has a form whose numerals are short enough, and then the override that the
four texts stand for is what is read of it; an argument with a form of longer numerals is refused
for that, and one without a form is malformed.  No argument has two forms, and each refusal tells
what was refused. -/
theorem parse_form (argument : String) :
    (parse argument = .error (.unknown argument) ↔ ¬ "--data=".toList <+: argument.toList) ∧
      (∀ o, parse argument = .ok o ↔
        ∃ form : Form, form.Gives argument ∧ form.IsShort ∧ o = form.override) ∧
      (parse argument = .error (.tooManyDigits argument) ↔
        ∃ form : Form, form.Gives argument ∧ ¬ form.IsShort) ∧
      (parse argument = .error (.malformed argument) ↔
        "--data=".toList <+: argument.toList ∧ ¬ ∃ form : Form, form.Gives argument) ∧
      (∀ form other : Form, form.Gives argument → other.Gives argument → form = other) ∧
      (∀ error, parse argument = .error error → error.argument = argument) ∧
      (OptionError.unknown argument).message = "unknown option: " ++ argument ∧
      (OptionError.malformed argument).message = "invalid --data syntax: " ++ argument := by
  have hreading := reading_parse argument
  refine ⟨?unknown, fun _ => parse_eq_ok_iff, parse_eq_tooManyDigits_iff, ?malformed,
    fun _ _ => Form.Gives.unique, ?argument, rfl, rfl⟩
  case unknown =>
    generalize parse argument = result at hreading
    cases hreading with
    | unknown hmark => exact iff_of_true rfl hmark
    | malformed hmark _ => exact iff_of_false (by rintro ⟨⟩) (not_not_intro hmark)
    | tooManyDigits form hgives _ =>
      exact iff_of_false (by rintro ⟨⟩) (not_not_intro hgives.isMarked)
    | ok form hgives _ => exact iff_of_false (by rintro ⟨⟩) (not_not_intro hgives.isMarked)
  case malformed =>
    generalize parse argument = result at hreading
    cases hreading with
    | unknown hmark => exact iff_of_false (by rintro ⟨⟩) fun h => hmark h.1
    | malformed hmark hnone => exact iff_of_true rfl ⟨hmark, hnone⟩
    | tooManyDigits form hgives _ => exact iff_of_false (by rintro ⟨⟩) fun h => h.2 ⟨form, hgives⟩
    | ok form hgives _ => exact iff_of_false (by rintro ⟨⟩) fun h => h.2 ⟨form, hgives⟩
  case argument =>
    intro error herror
    rw [herror] at hreading
    cases hreading <;> rfl

/-- Separators in an ident and in a file name, zeros in front of a size, and a line feed. -/
example : parse "--data=a@+:007@x:@y+0\n" = .ok ⟨"a@+", 7, "x:@y", 0, false⟩ := by
  decide +kernel

end CoreSplice.Override
