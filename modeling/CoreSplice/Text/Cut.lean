/-!
# Cutting a text at a separator

The fields of a symbol map line and of a data option end at a separator, and the last field runs
to the end of the text, whatever it holds.  So every such text is taken apart from the left, one
cut at a time.

* `cut?` — the text before the first separator, and the text after it.
* `cut?_eq_some_iff` — a cut is the one decomposition whose first part holds no separator.
-/

namespace CoreSplice.Text

/-- The text before the first `separator` and the text after it, if there is one. -/
def cut? (separator : Char) : List Char → Option (List Char × List Char)
  | [] => none
  | c :: cs =>
    if c = separator then some ([], cs)
    else (cut? separator cs).map fun (before, after) => (c :: before, after)

/-- A cut is the one decomposition whose first part holds no separator. -/
theorem cut?_eq_some_iff {separator : Char} {text before after : List Char} :
    cut? separator text = some (before, after) ↔
      text = before ++ separator :: after ∧ separator ∉ before := by
  induction text generalizing before with
  | nil => simp [cut?]
  | cons c cs ih =>
    unfold cut?
    split
    · rename_i hc
      subst hc
      cases before with
      | nil => simp
      | cons b before =>
        constructor
        · intro h; simp at h
        · rintro ⟨h, hmem⟩
          simp only [List.cons_append, List.cons.injEq] at h
          exact absurd (h.1 ▸ List.mem_cons_self) hmem
    · rename_i hc
      cases before with
      | nil => simp [hc]
      | cons b before =>
        simp only [Option.map_eq_some_iff, Prod.mk.injEq, List.cons.injEq, Prod.exists,
          List.cons_append, List.mem_cons, not_or]
        constructor
        · rintro ⟨x, y, h, ⟨rfl, rfl⟩, rfl⟩
          obtain ⟨rfl, hx⟩ := ih.1 h
          exact ⟨⟨rfl, rfl⟩, fun h => hc h.symm, hx⟩
        · rintro ⟨⟨rfl, rfl⟩, _, hx⟩
          exact ⟨before, after, ih.2 ⟨rfl, hx⟩, ⟨rfl, rfl⟩, rfl⟩

/-- A text is left whole only if it holds no separator. -/
theorem cut?_eq_none_iff {separator : Char} {text : List Char} :
    cut? separator text = none ↔ separator ∉ text := by
  induction text with
  | nil => simp [cut?]
  | cons c cs ih =>
    unfold cut?
    split
    · rename_i hc; simp [hc]
    · rename_i hc; simp [ih, Ne.symm hc]

end CoreSplice.Text
