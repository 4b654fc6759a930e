import CoreSplice.Proofs.Override.Form

/-!
# What is known of overrides that were given

Overrides come from options, and applying one changes nothing of it but that it was applied.  So
its size is a natural number, and short enough to be written again.

* `Override.Given` — the override of an option, applied or not.
* `Override.Given.size_nonneg`, `Override.Given.offset_nonneg`, `Override.Given.write?_size` — what
  is known of its numbers.
-/

namespace CoreSplice

namespace Override

/-- The override of an option, whether it was applied since or not. -/
def Given (o : Override) : Prop :=
  ∃ argument parsed, Override.parse argument = .ok parsed ∧
    o = { parsed with consumed := o.consumed }

variable {o : Override}

/-- The size of an override was read from its option. -/
lemma Given.exists_form (h : o.Given) :
    ∃ form : Form, form.Fits ∧ form.IsShort ∧ o.size = form.override.size := by
  obtain ⟨argument, parsed, hparse, ho⟩ := h
  obtain ⟨form, hgives, hshort, rfl⟩ := parse_eq_ok_iff.1 hparse
  exact ⟨form, hgives.1, hshort, by rw [ho]⟩

lemma Given.size_nonneg (h : o.Given) : 0 ≤ o.size := by
  obtain ⟨form, -, -, hsize⟩ := h.exists_form
  exact hsize ▸ Int.natCast_nonneg _

lemma Given.offset_nonneg (h : o.Given) : 0 ≤ o.offset := by
  obtain ⟨argument, parsed, hparse, ho⟩ := h
  have hoffset : o.offset = parsed.offset := by rw [ho]
  rw [hoffset]
  exact offset_nonneg_of_parse hparse

lemma given_of_parse {argument : String} (h : parse argument = .ok o) : o.Given :=
  ⟨argument, o, h, rfl⟩

/-- The size of an override has few enough digits to be written. -/
lemma Given.write?_size (h : o.Given) : Text.Decimal.write? o.size ≠ none := by
  obtain ⟨form, hfits, hshort, hsize⟩ := h.exists_form
  rw [hsize]
  refine Text.Decimal.write?_ne_none_of_read? (List.all_eq_true.2 hfits.size.all) ?_
  rw [read?_toList, if_pos hshort.1]

end Override

end CoreSplice
