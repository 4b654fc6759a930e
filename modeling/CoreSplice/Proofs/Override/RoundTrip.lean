import CoreSplice.Proofs.Override.Form

/-!
# Overrides written and read again

An override is written as the option whose numerals have no superfluous zeros, and without a line
feed.  An option has one form only, so one that was read is written as it was if it is of that kind,
and otherwise as another option of the same override.

* `Form.ofOverride` — the texts that an override is written with.
* `Override.write?_eq_some` — the option that is written of an override.
* `Form.ofOverride_override_eq_iff` — the forms that are written as they were read.
* **`Override.parse_write?`** — both directions.
-/

namespace CoreSplice.Override

open Text

/-! ## The written form -/

namespace Form

/-- The texts that the override is written with. -/
def ofOverride (o : Override) : Form where
  ident := o.ident
  size := Nat.repr o.size.natAbs
  source := o.source
  offset := Nat.repr o.offset.natAbs

variable {form : Form} {o : Override} {argument : String}

/-- What is written stands for the override, as one that was not applied. -/
lemma override_ofOverride (hsize : 0 ≤ o.size) (hoffset : 0 ≤ o.offset) :
    (ofOverride o).override = { o with consumed := false } := by
  simp only [override, ofOverride, Decimal.ofDigitChars_repr, Int.natAbs_of_nonneg hsize,
    Int.natAbs_of_nonneg hoffset]

lemma override_ofOverride_override (form : Form) :
    (ofOverride form.override).override = form.override :=
  override_ofOverride (Int.natCast_nonneg _) (Int.natCast_nonneg _)

lemma ofOverride_override (form : Form) :
    ofOverride form.override =
      { form with size := Nat.repr (Nat.ofDigitChars 10 form.size.toList 0)
                  offset := Nat.repr (Nat.ofDigitChars 10 form.offset.toList 0) } :=
  rfl

/-- **The forms that are written as they were read** have no superfluous zeros. -/
lemma ofOverride_override_eq_iff (h : form.Fits) :
    ofOverride form.override = form ↔
      Decimal.IsPlain form.size ∧ Decimal.IsPlain form.offset := by
  rw [← Decimal.repr_ofDigitChars_eq_iff h.size, ← Decimal.repr_ofDigitChars_eq_iff h.offset,
    ofOverride_override]
  constructor
  · intro heq
    exact ⟨congrArg Form.size heq, congrArg Form.offset heq⟩
  · rintro ⟨hsize, hoffset⟩
    rw [hsize, hoffset]

/-- A form that was read can be written. -/
lemma isShort_ofOverride_override (h : form.Fits) (hshort : form.IsShort) :
    (ofOverride form.override).IsShort :=
  ⟨Nat.le_trans (Decimal.length_repr_ofDigitChars_le h.size) hshort.1,
    Nat.le_trans (Decimal.length_repr_ofDigitChars_le h.offset) hshort.2⟩

lemma fits_ofOverride (hident : o.ident ≠ "") (hcolon : ':' ∉ o.ident.toList)
    (hsource : o.source ≠ "") (hplus : '+' ∉ o.source.toList) : (ofOverride o).Fits :=
  ⟨hident, hcolon, Decimal.isDigits_repr _, hsource, hplus, Decimal.isDigits_repr _⟩

/-- The option of a form ends with a digit. -/
lemma getLast?_write_ne (h : form.Fits) : form.write.toList.getLast? ≠ some '\n' := by
  have hne : form.offset.toList ≠ [] := mt String.toList_eq_nil_iff.1 h.offset.ne_empty
  obtain ⟨front, last, hoffset⟩ : ∃ front last, form.offset.toList = front ++ [last] :=
    ⟨_, _, (List.dropLast_concat_getLast hne).symm⟩
  have hdigit : last.isDigit = true := h.offset.all last (by rw [hoffset]; simp)
  rw [toList_write, hoffset]
  intro hlast
  obtain rfl : last = '\n' := by
    simpa [List.getLast?_append, List.getLast?_cons] using hlast
  revert hdigit
  decide

end Form

/-! ## Both directions -/

variable {o : Override}

/-- An option can be made of the override: ident and file name can stand in it, and the numbers can
be written. -/
structure Writable (o : Override) : Prop where
  ident_ne_empty : o.ident ≠ ""
  colon_not_mem : ':' ∉ o.ident.toList
  source_ne_empty : o.source ≠ ""
  plus_not_mem : '+' ∉ o.source.toList
  size_nonneg : 0 ≤ o.size
  offset_nonneg : 0 ≤ o.offset
  short_size : (Nat.repr o.size.natAbs).length ≤ 4300
  short_offset : (Nat.repr o.offset.natAbs).length ≤ 4300

lemma write?_eq_some_repr {n : Int} (hn : 0 ≤ n) (hshort : (Nat.repr n.natAbs).length ≤ 4300) :
    Decimal.write? n = some (Nat.repr n.natAbs) := by
  rw [← String.length_toList, Nat.toList_repr] at hshort
  refine Decimal.write?_eq_some_iff.2 ⟨hshort, ?_⟩
  rw [Decimal.write, if_neg (Int.not_lt.2 hn), String.empty_append]

/-- The option that is written of an override. -/
lemma write?_eq_some (hsize : 0 ≤ o.size) (hoffset : 0 ≤ o.offset)
    (hshort : (Form.ofOverride o).IsShort) : o.write? = some (Form.ofOverride o).write := by
  simp only [write?, write?_eq_some_repr hsize hshort.1, write?_eq_some_repr hoffset hshort.2]
  rfl

/-- **Overrides written and read again.**  An override of which an option can be made is written,
and the option is read as that override, not applied yet.  An argument that is read as an override
gives an option that is read as the same override, and this is the argument itself if neither of its
numerals has a superfluous zero and no line feed ends it. -/
theorem parse_write? :
    (∀ o : Override, o.Writable →
      ∃ text, o.write? = some text ∧ parse text = .ok { o with consumed := false }) ∧
    ∀ (argument : String) (o : Override), parse argument = .ok o →
      ∃ (form : Form) (text : String), form.Gives argument ∧ o.write? = some text ∧
        parse text = .ok o ∧
        (text = argument ↔ (Decimal.IsPlain form.size ∧ Decimal.IsPlain form.offset) ∧
          argument.toList.getLast? ≠ some '\n') := by
  constructor
  · intro o h
    have hshort : (Form.ofOverride o).IsShort := ⟨h.short_size, h.short_offset⟩
    have hfits : (Form.ofOverride o).Fits :=
      Form.fits_ofOverride h.ident_ne_empty h.colon_not_mem h.source_ne_empty h.plus_not_mem
    refine ⟨_, write?_eq_some h.size_nonneg h.offset_nonneg hshort, parse_eq_ok_iff.2 ?_⟩
    exact ⟨Form.ofOverride o, ⟨hfits, Or.inl rfl⟩, hshort,
      (Form.override_ofOverride h.size_nonneg h.offset_nonneg).symm⟩
  · intro argument o hparse
    obtain ⟨form, hgives, hshort, rfl⟩ := parse_eq_ok_iff.1 hparse
    let plain := Form.ofOverride form.override
    have hfits : form.Fits := hgives.1
    have hplain : plain.IsShort := Form.isShort_ofOverride_override hfits hshort
    have hwrite : form.override.write? = some plain.write :=
      write?_eq_some (Int.natCast_nonneg _) (Int.natCast_nonneg _) hplain
    have hgives' : plain.Gives plain.write :=
      ⟨Form.fits_ofOverride hfits.ident_ne_empty hfits.colon_not_mem hfits.source_ne_empty
        hfits.plus_not_mem, Or.inl rfl⟩
    refine ⟨form, plain.write, hgives, hwrite, parse_eq_ok_iff.2
      ⟨plain, hgives', hplain, (Form.override_ofOverride_override form).symm⟩, ?_⟩
    rw [← Form.ofOverride_override_eq_iff hfits]
    constructor
    · intro heq
      rw [heq] at hgives'
      refine ⟨hgives'.unique hgives, ?_⟩
      rw [← heq]
      exact Form.getLast?_write_ne hgives'.1
    · rintro ⟨heq, hlast⟩
      rcases hgives.2 with hargument | hargument
      · rw [hargument]
        exact congrArg Form.write heq
      · rw [hargument, String.toList_append] at hlast
        exact absurd List.getLast?_concat hlast

/-- An override whose ident and file name hold the separators that they may hold, and an option of
it with zeros in front of a numeral and a line feed at the end. -/
theorem parse_write?_padded :
    let o : Override := ⟨"a@+", 7, "x:@\n", 0, true⟩
    let argument := "--data=a@+:007@x:@\n+0\n"
    (o.Writable ∧ ∃ text, o.write? = some text ∧ parse text = .ok { o with consumed := false }) ∧
      parse argument = .ok { o with consumed := false } ∧
      ∃ (form : Form) (text : String), form.Gives argument ∧ form.size = "007" ∧
        text ≠ argument ∧ parse text = .ok { o with consumed := false } := by
  intro o argument
  have hwritable : o.Writable :=
    ⟨by decide, by decide, by decide, by decide, by decide, by decide, by decide, by decide⟩
  have hparse : parse argument = .ok { o with consumed := false } := by decide +kernel
  obtain ⟨hwrite, hread⟩ := parse_write?
  refine ⟨⟨hwritable, hwrite o hwritable⟩, hparse, ?_⟩
  obtain ⟨form, text, hgives, -, htext, hiff⟩ := hread argument _ hparse
  have hpadded : Form.Gives ⟨"a@+", "007", "x:@\n", "0"⟩ argument :=
    ⟨⟨by decide, by decide, isNumeral_iff.1 (by decide), by decide, by decide,
      isNumeral_iff.1 (by decide)⟩, Or.inr (by decide +kernel)⟩
  refine ⟨form, text, hgives, by rw [hgives.unique hpadded], ?_, htext⟩
  intro heq
  exact absurd (hiff.1 heq).2 (by decide +kernel)

end CoreSplice.Override
