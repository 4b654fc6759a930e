import CoreSplice.Proofs.Override.Spending

/-!
# What may be done with a registry

Overrides are added to a registry and applied to placements, in any order.  An override stays where
it was put, so the positions number the overrides in the order in which they were added.

* `Action`, `Registry.act` — what is done, and what is answered.
* `Registry.keeps_actAll` — overrides that were added stay, and marks are not taken back.
* `Registry.Opens` — a position that may still be applied to an ident.  One that is closed stays
  closed.
* **`Registry.pairwise_takings`** — no override is applied twice, and those of one ident are applied
  in the order in which they were added.
-/

namespace CoreSplice

/-! ## Actions -/

/-- What may be added to a registry: the override of an option, or an override with given fields.
It is a new one, which was neither added nor applied before. -/
inductive Offer where
  | option (argument : String)
  | fields (ident : String) (size : Int) (source : String) (offset : Int)

/-- The override that is added, unless the argument gives none. -/
def Offer.read : Offer → Except OptionError Override
  | option argument => Override.parse argument
  | fields ident size source offset => .ok { ident, size, source, offset }

/-- What may be done with a registry. -/
inductive Action where
  | add (offer : Offer)
  | apply (p : Placement)

/-- What an action gives back. -/
inductive Reply where
  | refused (error : OptionError)
  | added (o : Override)
  /-- The override was applied and left the placement like this. -/
  | applied (o : Override) (p : Placement)
  /-- No override was waiting, and the placement is what it was. -/
  | untouched (p : Placement)
  deriving DecidableEq

/-- A reply, with the number of the override if one was applied.  Overrides are numbered in the
order in which they were added. -/
structure Answer where
  reply : Reply
  number : Option Nat := none
  deriving DecidableEq

/-- The override that was applied, with its number. -/
def Answer.taking? : Answer → Option (Nat × Override)
  | ⟨.applied o _, some number⟩ => some (number, o)
  | _ => none

/-- Whether the action is for an ident.  An option that is refused is for none. -/
def Action.concerns (ident : String) : Action → Bool
  | add offer =>
    match offer.read with
    | .ok o => o.ident == ident
    | .error _ => false
  | apply p => p.ident == ident

/-- Actions in turn. -/
def Action.inTurn {State : Type} (act : State → Action → State × Answer) (state : State) :
    List Action → State × List Answer
  | [] => (state, [])
  | action :: actions =>
    let done := act state action
    let rest := inTurn act done.1 actions
    (rest.1, done.2 :: rest.2)

lemma Action.length_inTurn {State : Type} (act : State → Action → State × Answer) (state : State)
    (actions : List Action) : (inTurn act state actions).2.length = actions.length := by
  induction actions generalizing state with
  | nil => rfl
  | cons action actions ih => exact congrArg (· + 1) (ih _)

namespace Registry

/-- One action on the flat list.  What is refused or finds no override leaves the list alone. -/
def act (registry : Registry) : Action → Registry × Answer
  | .add offer =>
    match offer.read with
    | .error error => (registry, { reply := .refused error })
    | .ok o => (registry.add o, { reply := .added o })
  | .apply p =>
    match registry.redirect? p with
    | none => (registry, { reply := .untouched p })
    | some redirection =>
      (redirection.registry,
        ⟨.applied redirection.override redirection.placement, some redirection.position⟩)

/-- Actions in turn, with their answers. -/
def actAll (registry : Registry) (actions : List Action) : Registry × List Answer :=
  Action.inTurn act registry actions

variable {registry before after : Registry} {ident : String} {o : Override} {position : Nat}

/-- What applying an override does: it finds the first one that is pending for the ident. -/
lemma act_apply_cases (registry : Registry) (p : Placement) :
    registry.act (.apply p) = (registry, { reply := .untouched p }) ∨
      ∃ position o, registry.firstFor? p.ident = some (position, o) ∧
        registry.act (.apply p)
          = (registry.consumeAt position, ⟨.applied o (o.redirect p), some position⟩) := by
  simp only [act, redirect?]
  cases registry.firstFor? p.ident with
  | none => exact Or.inl rfl
  | some found => exact Or.inr ⟨found.1, found.2, rfl, rfl⟩

/-- What adding does: nothing, or one more override at the end. -/
lemma act_add_cases (registry : Registry) (offer : Offer) :
    (registry.act (.add offer)).2.taking? = none ∧
      ((registry.act (.add offer)).1 = registry ∨
        ∃ o, (registry.act (.add offer)).1 = registry.add o) := by
  simp only [act]
  cases offer.read with
  | error error => exact ⟨rfl, Or.inl rfl⟩
  | ok o => exact ⟨rfl, Or.inr ⟨o, rfl⟩⟩

/-! ## Marks are kept -/

/-- Every override stands where it stood, marked if it was marked. -/
def Keeps (before after : Registry) : Prop :=
  ∀ (position : Nat) (o : Override), before[position]? = some o →
    after[position]? = some o ∨ (o.consumed = false ∧ after[position]? = some o.consume)

lemma Keeps.refl (registry : Registry) : registry.Keeps registry :=
  fun _ _ hget => Or.inl hget

lemma Keeps.trans {last : Registry} (h : before.Keeps after) (hlast : after.Keeps last) :
    before.Keeps last := by
  intro position o hget
  rcases h position o hget with hsame | ⟨hpending, hspent⟩
  · exact hlast position o hsame
  · rcases hlast position o.consume hspent with hkept | ⟨hpending', -⟩
    · exact Or.inr ⟨hpending, hkept⟩
    · cases hpending'

lemma Keeps.length_le (h : before.Keeps after) : before.length ≤ after.length := by
  by_contra hless
  have hthere : before[after.length]? = some before[after.length] :=
    List.getElem?_eq_getElem (Nat.not_le.1 hless)
  have hnone : after[after.length]? = none := List.getElem?_eq_none (Nat.le_refl _)
  rcases h _ _ hthere with hsame | ⟨-, hspent⟩
  · rw [hnone] at hsame
    cases hsame
  · rw [hnone] at hspent
    cases hspent

/-- The override at the position that is applied was pending. -/
lemma keeps_consumeAt (hget : registry[position]? = some o) (hpending : o.consumed = false) :
    registry.Keeps (registry.consumeAt position) := by
  intro other a ha
  by_cases hposition : position = other
  · subst hposition
    rw [hget] at ha
    cases ha
    exact Or.inr ⟨hpending, getElem?_consumeAt_self hget⟩
  · exact Or.inl (by rw [getElem?_consumeAt_of_ne hposition, ha])

lemma keeps_add (registry : Registry) (o : Override) : registry.Keeps (registry.add o) := by
  intro position a hget
  left
  rw [add, List.getElem?_append_left (List.getElem?_eq_some_iff.1 hget).1, hget]

lemma keeps_act (registry : Registry) (action : Action) :
    registry.Keeps (registry.act action).1 := by
  cases action with
  | add offer =>
    obtain ⟨-, hsame | ⟨o, hadded⟩⟩ := act_add_cases registry offer
    · rw [hsame]
      exact .refl registry
    · rw [hadded]
      exact keeps_add registry o
  | apply p =>
    rcases act_apply_cases registry p with hnone | ⟨position, o, hfirst, hact⟩
    · rw [hnone]
      exact .refl registry
    · rw [hact]
      exact keeps_consumeAt (firstMatch?_eq_some_iff.1 hfirst).1 (mem_of_firstFor? hfirst).2.1

lemma keeps_actAll (registry : Registry) (actions : List Action) :
    registry.Keeps (registry.actAll actions).1 := by
  induction actions generalizing registry with
  | nil => exact .refl registry
  | cons action actions ih => exact (keeps_act registry action).trans (ih _)

lemma actAll_append (registry : Registry) (first second : List Action) :
    (registry.actAll (first ++ second)).1
      = ((registry.actAll first).1.actAll second).1 := by
  induction first generalizing registry with
  | nil => rfl
  | cons action first ih => exact ih _

/-! ## Positions in order -/

/-- What stands at the position may still be applied to the ident.  So may what does not stand there
yet. -/
def Opens (registry : Registry) (ident : String) (position : Nat) : Prop :=
  ∀ o, registry[position]? = some o → o.isPendingFor ident = true

/-- A position that is closed to an ident stays closed. -/
lemma Keeps.opens (h : before.Keeps after) (hopen : after.Opens ident position) :
    before.Opens ident position := by
  intro o hget
  rcases h position o hget with hsame | ⟨-, hspent⟩
  · exact hopen o hsame
  · cases hopen o.consume hspent

/-- The override that is found is the first one open to its ident. -/
lemma opens_of_firstFor? (h : registry.firstFor? ident = some (position, o)) :
    registry.Opens ident position := by
  obtain ⟨hget, hpending, -⟩ := firstMatch?_eq_some_iff.1 h
  intro a ha
  rw [hget] at ha
  cases ha
  exact hpending

/-- Behind an override that was applied, no position up to its own is open to its ident, and its own
is open to none. -/
lemma apart_of_opens (h : registry.firstFor? ident = some (position, o)) {other : String} {n : Nat}
    (hopen : (registry.consumeAt position).Opens other n) :
    position ≠ n ∧ (ident = other → position < n) := by
  obtain ⟨hget, -, hbefore⟩ := firstMatch?_eq_some_iff.1 h
  have hne : position ≠ n := by
    rintro rfl
    cases hopen o.consume (getElem?_consumeAt_self hget)
  refine ⟨hne, ?_⟩
  rintro rfl
  by_contra hle
  have hlt : n < position := by omega
  have hlength : n < registry.length := by
    have := (List.getElem?_eq_some_iff.1 hget).1
    omega
  -- An earlier element was passed over, so it is not pending for the ident, and it is still there.
  have hpassed : registry[n].isPendingFor ident = false :=
    hbefore _ (List.mem_take_iff_getElem.2 ⟨n, by omega, rfl⟩)
  have hkept : (registry.consumeAt position)[n]? = some registry[n] := by
    rw [getElem?_consumeAt_of_ne hne, List.getElem?_eq_getElem hlength]
  have hpending := hopen _ hkept
  rw [hpassed] at hpending
  cases hpending

/-! ## The overrides that are applied -/

/-- The overrides that the actions apply, with their positions. -/
def takings (registry : Registry) (actions : List Action) : List (Nat × Override) :=
  (registry.actAll actions).2.filterMap Answer.taking?

/-- One action applies nothing, or it applies the override that is found for its ident. -/
lemma takings_cons_cases (registry : Registry) (action : Action) (actions : List Action) :
    let after := (registry.act action).1
    registry.takings (action :: actions) = after.takings actions ∨
      ∃ position o, registry.firstFor? o.ident = some (position, o) ∧
        after = registry.consumeAt position ∧
        registry.takings (action :: actions) = (position, o) :: after.takings actions := by
  intro after
  have hcons : registry.takings (action :: actions)
      = ((registry.act action).2 :: (after.actAll actions).2).filterMap Answer.taking? := rfl
  cases action with
  | add offer =>
    left
    rw [hcons, List.filterMap_cons_none (act_add_cases registry offer).1, takings]
  | apply p =>
    rcases act_apply_cases registry p with hnone | ⟨position, o, hfound, hact⟩
    · left
      rw [hcons, List.filterMap_cons_none (by rw [hnone]; rfl), takings]
    · right
      have hident : o.ident = p.ident := (mem_of_firstFor? hfound).2.2
      refine ⟨position, o, hident ▸ hfound, congrArg Prod.fst hact, ?_⟩
      rw [hcons, List.filterMap_cons_some (by rw [hact]; rfl), takings]

lemma opens_of_mem_takings {actions : List Action} {entry : Nat × Override}
    (h : entry ∈ registry.takings actions) : registry.Opens entry.2.ident entry.1 := by
  induction actions generalizing registry with
  | nil => cases h
  | cons action actions ih =>
    have hlater (hmem : entry ∈ (registry.act action).1.takings actions) :
        registry.Opens entry.2.ident entry.1 := (keeps_act registry action).opens (ih hmem)
    rcases takings_cons_cases registry action actions with hnone | ⟨position, o, hfound, -, hsome⟩
    · rw [hnone] at h
      exact hlater h
    · rw [hsome] at h
      rcases List.mem_cons.1 h with rfl | hmem
      · exact opens_of_firstFor? hfound
      · exact hlater hmem

/-- **Overrides are applied in order**: none a second time, and those of one ident as they were
added. -/
lemma pairwise_takings (registry : Registry) (actions : List Action) :
    (registry.takings actions).Pairwise fun first second =>
      first.1 ≠ second.1 ∧ (first.2.ident = second.2.ident → first.1 < second.1) := by
  induction actions generalizing registry with
  | nil => exact List.Pairwise.nil
  | cons action actions ih =>
    rcases takings_cons_cases registry action actions with
      hnone | ⟨position, o, hfound, hafter, hsome⟩
    · rw [hnone]
      exact ih _
    · rw [hsome]
      refine List.pairwise_cons.2 ⟨?_, ih _⟩
      intro second hsecond
      have hopen := opens_of_mem_takings hsecond
      rw [hafter] at hopen
      exact apart_of_opens hfound hopen

end Registry

end CoreSplice
