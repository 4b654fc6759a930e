/-!
# The first element that is accepted

Overrides and segments are both chosen by a walk over a list that stops at the first element with
a property, and the element is changed where it stands.

* `firstMatch?` — the first accepted element, with its position.
* `firstMatch?_eq_some_iff`, `firstMatch?_eq_none_iff` — what it finds, and when it finds nothing.
-/

namespace CoreSplice

variable {α : Type}

/-- The first element that is accepted, with its position. -/
def firstMatch? (accept : α → Bool) : List α → Option (Nat × α)
  | [] => none
  | a :: rest =>
    if accept a then some (0, a)
    else (firstMatch? accept rest).map fun (position, a) => (position + 1, a)

/-- The element that is found stands at its position, is accepted, and none before it is. -/
theorem firstMatch?_eq_some_iff {accept : α → Bool} {xs : List α} {position : Nat} {a : α} :
    firstMatch? accept xs = some (position, a) ↔
      xs[position]? = some a ∧ accept a ∧ ∀ b ∈ xs.take position, accept b = false := by
  induction xs generalizing position with
  | nil => simp [firstMatch?]
  | cons x rest ih =>
    unfold firstMatch?
    split
    · rename_i hx
      cases position with
      | zero =>
        simp only [Option.some.injEq, Prod.mk.injEq, true_and, List.getElem?_cons_zero,
          List.take_zero, List.not_mem_nil, false_implies, implies_true, and_true]
        exact ⟨fun h => ⟨h, h ▸ hx⟩, fun h => h.1⟩
      | succ position => simp [hx]
    · rename_i hx
      cases position with
      | zero =>
        simp only [Option.map_eq_some_iff, Prod.mk.injEq, Nat.add_eq_zero_iff, Nat.one_ne_zero,
          and_false, false_and, exists_false, List.getElem?_cons_zero,
          Option.some.injEq, false_iff, not_and]
        exact fun h ha => absurd (h ▸ ha) hx
      | succ position =>
        simp only [Option.map_eq_some_iff, Prod.mk.injEq, Prod.exists, Nat.add_right_cancel_iff,
          List.getElem?_cons_succ, List.take_succ_cons, List.mem_cons, forall_eq_or_imp]
        constructor
        · rintro ⟨p, b, h, rfl, rfl⟩
          obtain ⟨hget, hb, hbefore⟩ := ih.1 h
          exact ⟨hget, hb, by simpa using hx, hbefore⟩
        · rintro ⟨hget, ha, _, hbefore⟩
          exact ⟨position, a, ih.2 ⟨hget, ha, hbefore⟩, rfl, rfl⟩

/-- Nothing is found if no element is accepted. -/
theorem firstMatch?_eq_none_iff {accept : α → Bool} {xs : List α} :
    firstMatch? accept xs = none ↔ ∀ a ∈ xs, accept a = false := by
  induction xs with
  | nil => simp [firstMatch?]
  | cons x rest ih =>
    unfold firstMatch?
    split
    · rename_i hx; simp [hx]
    · rename_i hx; simp [ih, hx]

end CoreSplice
