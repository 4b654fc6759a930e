import Mathlib.Tactic.Common
import CoreSplice.Override.Registry

/-!
# Overrides are spent

An override is applied once at most, and no operation but its registration brings a pending one
about.  So the overrides that are pending at any time were pending before.

* `Registry.Spends` — one registry came from another by applying overrides.
* `Registry.spends_consumeAt` — applying an override.
-/

namespace CoreSplice

namespace Registry

lemma getElem?_consumeAt_self {registry : Registry} {position : Nat} {o : Override}
    (h : registry[position]? = some o) :
    (registry.consumeAt position)[position]? = some o.consume := by
  rw [consumeAt, List.getElem?_modify_eq, h]
  rfl

lemma getElem?_consumeAt_of_ne {registry : Registry} {position other : Nat}
    (h : position ≠ other) : (registry.consumeAt position)[other]? = registry[other]? :=
  List.getElem?_modify_ne _ _ h

/-- Applying an override marks it, and nothing else. -/
lemma mem_consumeAt {registry : Registry} {position : Nat} {o : Override}
    (h : o ∈ registry.consumeAt position) :
    o ∈ registry ∨ ∃ first ∈ registry, o = first.consume := by
  obtain ⟨n, hn⟩ := List.mem_iff_getElem?.1 h
  by_cases hposition : position = n
  · subst hposition
    cases hget : registry[position]? with
    | none => simp [consumeAt, hget] at hn
    | some first =>
      rw [getElem?_consumeAt_self hget] at hn
      cases hn
      exact .inr ⟨first, List.mem_of_getElem? hget, rfl⟩
  · rw [getElem?_consumeAt_of_ne hposition] at hn
    exact .inl (List.mem_of_getElem? hn)

/-- What is pending later was pending before. -/
def Spends (before after : Registry) : Prop :=
  ∀ o ∈ after, o.consumed = false → o ∈ before

lemma spends_consumeAt (registry : Registry) (position : Nat) :
    Spends registry (registry.consumeAt position) := by
  intro o ho hpending
  rcases mem_consumeAt ho with hthere | ⟨first, -, rfl⟩
  · exact hthere
  · cases hpending

lemma Spends.trans {first second third : Registry} (h₁ : Spends first second)
    (h₂ : Spends second third) : Spends first third := by
  intro o ho hpending
  exact h₁ o (h₂ o ho hpending) hpending

/-- The override that a placement takes is a pending one of its ident. -/
lemma mem_of_firstFor? {registry : Registry} {ident : String} {position : Nat} {o : Override}
    (h : registry.firstFor? ident = some (position, o)) :
    o ∈ registry ∧ o.consumed = false ∧ o.ident = ident := by
  obtain ⟨hget, haccept, -⟩ := firstMatch?_eq_some_iff.1 h
  simp only [Override.isPendingFor, Bool.and_eq_true, Bool.not_eq_true', beq_iff_eq] at haccept
  exact ⟨List.mem_of_getElem? hget, haccept⟩

end Registry

end CoreSplice
