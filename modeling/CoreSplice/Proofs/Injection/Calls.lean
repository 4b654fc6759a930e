import CoreSplice.Proofs.Injection.Plan

/-!
# Dumps one by one

When dumps are injected in turn, each of them makes its own attempts, and the attempts of all of
them are these one after the other, as long as none of them ends the row.

* `Session.calls` — each dump with the attempts that it makes in its turn.
* `Session.injectAll_eq_calls` — the attempts of all dumps.
-/

namespace CoreSplice.Session

/-- Each dump with the attempts that it makes in its turn. -/
def calls (s : Session) : List String → List (String × List Attempt)
  | [] => []
  | path :: paths => (path, (s.injectDump path).2) :: calls (s.injectDump path).1 paths

variable {s : Session}

lemma continued_of_gone {first : Session × List Attempt}
    {next : Session → Session × List Attempt}
    (h : (continued first next).2.findSome? Attempt.abort? = none) :
    first.2.findSome? Attempt.abort? = none ∧
      continued first next = ((next first.1).1, first.2 ++ (next first.1).2) := by
  simp only [continued] at h ⊢
  split
  · rename_i hended
    rw [if_pos hended] at h
    rw [h] at hended
    cases hended
  · rename_i hgone
    exact ⟨by simpa using hgone, rfl⟩

/-- The attempts of all dumps are those of each of them in turn. -/
lemma injectAll_eq_calls {paths : List String}
    (h : (s.injectAll paths).2.findSome? Attempt.abort? = none) :
    (s.injectAll paths).2 = (s.calls paths).flatMap Prod.snd := by
  induction paths generalizing s with
  | nil => rfl
  | cons path paths ih =>
    obtain ⟨-, heq⟩ := continued_of_gone h
    have hall : (s.injectAll (path :: paths)).2
        = (s.injectDump path).2 ++ ((s.injectDump path).1.injectAll paths).2 :=
      congrArg Prod.snd heq
    rw [hall, List.findSome?_append, Option.or_eq_none_iff] at h
    rw [hall, ih h.2, calls, List.flatMap_cons]

/-- If all attempts succeed, each dump returns that it succeeded. -/
lemma status_of_mem_calls {paths : List String}
    (h : Attempt.status (s.injectAll paths).2 = .ok true) {call : String × List Attempt}
    (hcall : call ∈ s.calls paths) : Attempt.status call.2 = .ok true := by
  have hall := Attempt.status_eq_ok_true_iff.1 h
  rw [injectAll_eq_calls (Attempt.status_eq_ok_iff.1 h).1] at hall
  exact Attempt.status_eq_ok_true_iff.2 fun a ha =>
    hall a (List.mem_flatMap.2 ⟨call, hcall, ha⟩)

end CoreSplice.Session
