import CoreSplice.Proofs.Override.Spending

/-!
# Overrides of different idents

What a registry gives one ident does not depend on what was spent on others, and spending on two
idents comes to the same in either order.

* `Registry.spend` — the registry after the next override of an ident was applied, if there is one.
* `Registry.firstFor?_spend_of_ne` — what another ident is given.
* `Registry.spend_comm` — two idents in either order.
-/

namespace CoreSplice

/-- An element that is not accepted, neither before nor after it is changed, may be changed before
the search. -/
lemma firstMatch?_modify {α : Type} {accept : α → Bool} {change : α → α} {xs : List α}
    {position : Nat}
    (h : ∀ a, xs[position]? = some a → accept a = false ∧ accept (change a) = false) :
    firstMatch? accept (xs.modify position change) = firstMatch? accept xs := by
  induction xs generalizing position with
  | nil => rw [List.modify_nil]
  | cons x rest ih =>
    cases position with
    | zero =>
      obtain ⟨hbefore, hafter⟩ := h x rfl
      rw [List.modify_zero_cons, firstMatch?, firstMatch?, hbefore, hafter]
      rfl
    | succ position =>
      rw [List.modify_succ_cons, firstMatch?, firstMatch?, ih h]

namespace Registry

/-- The registry after the next override of the ident was applied, if there is one. -/
def spend (registry : Registry) (ident : String) : Registry :=
  match registry.firstFor? ident with
  | none => registry
  | some (position, _) => registry.consumeAt position

variable {registry : Registry} {ident other : String}

lemma firstFor?_spend_of_ne (hne : ident ≠ other) :
    (registry.spend other).firstFor? ident = registry.firstFor? ident := by
  rw [spend]
  cases hfirst : registry.firstFor? other with
  | none => rfl
  | some found =>
    obtain ⟨position, o⟩ := found
    obtain ⟨hget, haccept, -⟩ := firstMatch?_eq_some_iff.1 hfirst
    refine firstMatch?_modify ?_
    intro a ha
    rw [hget] at ha
    cases ha
    simp only [Override.isPendingFor, Bool.and_eq_true, beq_iff_eq] at haccept
    have hident : o.ident ≠ ident := fun heq => hne (heq.symm.trans haccept.2)
    constructor
    · simp [Override.isPendingFor, hident]
    · simp [Override.isPendingFor, Override.consume]

/-- Applying overrides at two positions comes to the same in either order. -/
lemma consumeAt_comm (registry : Registry) (first second : Nat) :
    (registry.consumeAt first).consumeAt second = (registry.consumeAt second).consumeAt first := by
  by_cases h : first = second
  · rw [h]
  · exact List.modify_modify_ne _ _ registry h

/-- **Spending on two idents** comes to the same in either order. -/
theorem spend_comm (registry : Registry) (ident other : String) :
    (registry.spend ident).spend other = (registry.spend other).spend ident := by
  by_cases hne : ident = other
  · rw [hne]
  · rw [spend, firstFor?_spend_of_ne (Ne.symm hne), spend.eq_def (registry.spend other),
      firstFor?_spend_of_ne hne]
    simp only [spend]
    cases registry.firstFor? ident <;> cases registry.firstFor? other
    · rfl
    · rfl
    · rfl
    · exact consumeAt_comm ..

end Registry

end CoreSplice
