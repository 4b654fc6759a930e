import Mathlib.Logic.Function.Basic
import CoreSplice.Proofs.Override.Actions
import CoreSplice.Proofs.Override.Form

/-!
# A registry is a family of queues

A registry is one list for all idents, whose elements stay where they are and are marked once they
were applied, and it is searched from the start each time.  Seen from one ident it is a queue: new
overrides go to the end, and the one that has waited longest is applied.

* `Queues` — one queue for each ident, and nothing else but a count that numbers the overrides.
* `Registry.waiting` — the queue of an ident as a registry holds it: its pending overrides with
  their positions.
* `Queues.Mirrors` — these are the same.  Every action keeps that (`Queues.Mirrors.act`), so both
  give the same answers (`Queues.Mirrors.actAll`).
* `Queues.replies_filter` — what one ident is told does not depend on the actions of others.
* **`Registry.actAll_eq_queues`** — all of this for a registry that was empty at first.
-/

namespace CoreSplice

/-! ## Queues -/

/-- One queue of numbered overrides for each ident. -/
structure Queues where
  /-- How many overrides were added, to whichever queue. -/
  count : Nat := 0
  queue : String → List (Nat × Override) := fun _ => []

namespace Queues

/-- One more override, behind all that wait for its ident. -/
def enqueue (queues : Queues) (o : Override) : Queues where
  count := queues.count + 1
  queue := Function.update queues.queue o.ident (queues.queue o.ident ++ [(queues.count, o)])

/-- The queues when `rest` is left of the queue of the ident. -/
def leave (queues : Queues) (ident : String) (rest : List (Nat × Override)) : Queues :=
  { queues with queue := Function.update queues.queue ident rest }

/-- One action on the queues.  Applying takes the head of one queue and looks at no other. -/
def act (queues : Queues) : Action → Queues × Answer
  | .add offer =>
    match offer.read with
    | .error error => (queues, { reply := .refused error })
    | .ok o => (queues.enqueue o, { reply := .added o })
  | .apply p =>
    match queues.queue p.ident with
    | [] => (queues, { reply := .untouched p })
    | (number, o) :: rest =>
      (queues.leave p.ident rest,
        ⟨.applied o { p with size := o.size, sourceOffset := o.offset, source := some o.source },
          some number⟩)

/-- Actions in turn, with their answers. -/
def actAll (queues : Queues) (actions : List Action) : Queues × List Answer :=
  Action.inTurn act queues actions

variable {queues : Queues} {o : Override} {ident other : String} {rest : List (Nat × Override)}

lemma actAll_cons (queues : Queues) (action : Action) (actions : List Action) :
    (queues.actAll (action :: actions)).2
      = (queues.act action).2 :: ((queues.act action).1.actAll actions).2 :=
  rfl

@[simp] lemma queue_enqueue_self :
    (queues.enqueue o).queue o.ident = queues.queue o.ident ++ [(queues.count, o)] :=
  Function.update_self ..

lemma queue_enqueue_of_ne (h : o.ident ≠ ident) :
    (queues.enqueue o).queue ident = queues.queue ident :=
  Function.update_of_ne (Ne.symm h) ..

@[simp] lemma queue_leave_self : (queues.leave ident rest).queue ident = rest :=
  Function.update_self ..

lemma queue_leave_of_ne (h : other ≠ ident) :
    (queues.leave other rest).queue ident = queues.queue ident :=
  Function.update_of_ne (Ne.symm h) ..

end Queues

lemma Offer.consumed_of_read {offer : Offer} {o : Override} (h : offer.read = .ok o) :
    o.consumed = false := by
  cases offer with
  | option argument => exact Override.consumed_of_parse h
  | fields ident size source offset => cases h; rfl

namespace Registry

/-! ## The queue of an ident in a registry -/

/-- The overrides that are pending for the ident, with their positions, which count from `start`. -/
def waitingFrom (start : Nat) (registry : Registry) (ident : String) : List (Nat × Override) :=
  ((registry.zipIdx start).filter fun entry => entry.1.isPendingFor ident).map Prod.swap

/-- The queue of the ident. -/
def waiting (registry : Registry) (ident : String) : List (Nat × Override) :=
  waitingFrom 0 registry ident

variable {registry before after : Registry} {ident : String} {o : Override} {position : Nat}

lemma waitingFrom_cons (start : Nat) (o : Override) (registry : Registry) (ident : String) :
    waitingFrom start (o :: registry) ident
      = if o.isPendingFor ident then (start, o) :: waitingFrom (start + 1) registry ident
        else waitingFrom (start + 1) registry ident := by
  rw [waitingFrom, List.zipIdx_cons, List.filter_cons]
  split <;> rfl

lemma waiting_add (registry : Registry) (o : Override) (ident : String) :
    (registry.add o).waiting ident
      = registry.waiting ident
        ++ if o.isPendingFor ident then [(registry.length, o)] else [] := by
  have hlast : waitingFrom registry.length [o] ident
      = if o.isPendingFor ident then [(registry.length, o)] else [] := waitingFrom_cons ..
  rw [add, waiting, waitingFrom, List.zipIdx_append, List.filter_append, List.map_append,
    Nat.zero_add, ← hlast]
  rfl

lemma waiting_of_firstFor?_eq_none (h : registry.firstFor? ident = none) :
    registry.waiting ident = [] := by
  rw [firstFor?, firstMatch?_eq_none_iff] at h
  rw [waiting, waitingFrom, List.map_eq_nil_iff, List.filter_eq_nil_iff]
  intro entry hentry
  simp [h entry.1 (List.fst_mem_of_mem_zipIdx hentry)]

/-- The override that is found waits at the head of its queue, and leaves the rest behind. -/
lemma waitingFrom_of_firstFor? (start : Nat)
    (h : registry.firstFor? ident = some (position, o)) :
    waitingFrom start registry ident
      = (start + position, o) :: waitingFrom start (registry.consumeAt position) ident := by
  rw [firstFor?] at h
  induction registry generalizing position start with
  | nil => cases h
  | cons first rest ih =>
    rw [firstMatch?] at h
    split at h
    · rename_i hpending
      cases h
      have hspent : o.consume.isPendingFor ident = false := rfl
      rw [consumeAt, List.modify_zero_cons, waitingFrom_cons, waitingFrom_cons, if_pos hpending,
        hspent]
      rfl
    · rename_i hother
      obtain ⟨⟨p, a⟩, hrest, heq⟩ := Option.map_eq_some_iff.1 h
      cases heq
      rw [consumeAt, List.modify_succ_cons, waitingFrom_cons, waitingFrom_cons, if_neg hother,
        if_neg hother, ih (start + 1) hrest, Nat.add_assoc, Nat.add_comm 1]
      rfl

lemma waiting_of_firstFor? (h : registry.firstFor? ident = some (position, o)) :
    registry.waiting ident = (position, o) :: (registry.consumeAt position).waiting ident := by
  have hstart := waitingFrom_of_firstFor? 0 h
  rwa [Nat.zero_add] at hstart

/-- Applying an override of another ident leaves a queue as it is. -/
lemma waitingFrom_consumeAt_of_ne (start : Nat) (hget : registry[position]? = some o)
    (hne : o.ident ≠ ident) :
    waitingFrom start (registry.consumeAt position) ident = waitingFrom start registry ident := by
  induction registry generalizing position start with
  | nil => rw [consumeAt, List.modify_nil]
  | cons first rest ih =>
    cases position with
    | zero =>
      cases hget
      have hbefore : o.isPendingFor ident = false := by simp [Override.isPendingFor, hne]
      have hafter : o.consume.isPendingFor ident = false := rfl
      rw [consumeAt, List.modify_zero_cons, waitingFrom_cons, waitingFrom_cons, hbefore, hafter]
      rfl
    | succ position =>
      have hrest := ih (start + 1) hget
      rw [consumeAt, List.modify_succ_cons, waitingFrom_cons, waitingFrom_cons, ← hrest]
      rfl

lemma waiting_consumeAt_of_ne (hget : registry[position]? = some o) (hne : o.ident ≠ ident) :
    (registry.consumeAt position).waiting ident = registry.waiting ident :=
  waitingFrom_consumeAt_of_ne 0 hget hne

end Registry

namespace Queues

/-! ## A registry and its queues -/

variable {queues queues' : Queues} {registry : Registry} {ident : String}

/-- The queues are those that the registry holds for its idents. -/
structure Mirrors (queues : Queues) (registry : Registry) : Prop where
  count : queues.count = registry.length
  queue (ident : String) : queues.queue ident = registry.waiting ident

lemma mirrors_empty : Mirrors {} [] :=
  ⟨rfl, fun _ => rfl⟩

/-- **One action** gets the same answer from both, and keeps them the same. -/
lemma Mirrors.act (h : queues.Mirrors registry) (action : Action) :
    (registry.act action).2 = (queues.act action).2 ∧
      (queues.act action).1.Mirrors (registry.act action).1 := by
  cases action with
  | add offer =>
    cases hread : offer.read with
    | error error =>
      simp only [Registry.act, Queues.act, hread]
      exact ⟨trivial, h⟩
    | ok o =>
      simp only [Registry.act, Queues.act, hread]
      refine ⟨trivial, by simp [enqueue, Registry.add, h.count], ?_⟩
      intro ident
      have hpending : o.isPendingFor ident = (o.ident == ident) := by
        simp [Override.isPendingFor, Offer.consumed_of_read hread]
      rw [Registry.waiting_add, hpending]
      by_cases hident : o.ident = ident
      · subst hident
        rw [queue_enqueue_self, h.queue, h.count, if_pos (beq_self_eq_true _)]
      · rw [queue_enqueue_of_ne hident, h.queue, if_neg (by simpa using hident), List.append_nil]
  | apply p =>
    cases hfirst : registry.firstFor? p.ident with
    | none =>
      have hqueue : queues.queue p.ident = [] :=
        (h.queue p.ident).trans (Registry.waiting_of_firstFor?_eq_none hfirst)
      simp only [Registry.act, Registry.redirect?, hfirst, Queues.act, hqueue, Option.map_none]
      exact ⟨trivial, h⟩
    | some found =>
      obtain ⟨position, o⟩ := found
      have hqueue := (h.queue p.ident).trans (Registry.waiting_of_firstFor? hfirst)
      simp only [Registry.act, Registry.redirect?, hfirst, Queues.act, hqueue, Option.map_some]
      refine ⟨rfl, by rw [leave, h.count, Registry.length_consumeAt], ?_⟩
      intro ident
      by_cases hident : p.ident = ident
      · subst hident
        rw [queue_leave_self]
      · have hget := (firstMatch?_eq_some_iff.1 hfirst).1
        have hown : o.ident = p.ident := (Registry.mem_of_firstFor? hfirst).2.2
        rw [queue_leave_of_ne hident, h.queue,
          Registry.waiting_consumeAt_of_ne hget (hown.trans_ne hident)]

/-- **Actions in turn** get the same answers from both. -/
lemma Mirrors.actAll (h : queues.Mirrors registry) (actions : List Action) :
    (registry.actAll actions).2 = (queues.actAll actions).2 ∧
      (queues.actAll actions).1.Mirrors (registry.actAll actions).1 := by
  induction actions generalizing queues registry with
  | nil => exact ⟨rfl, h⟩
  | cons action actions ih =>
    obtain ⟨hanswer, hnext⟩ := h.act action
    obtain ⟨hanswers, hlast⟩ := ih hnext
    exact ⟨List.cons_eq_cons.2 ⟨hanswer, hanswers⟩, hlast⟩

/-! ## Other idents -/

/-- An action of another ident leaves a queue as it is. -/
lemma queue_act_of_not_concerns {action : Action} (h : action.concerns ident = false) :
    (queues.act action).1.queue ident = queues.queue ident := by
  cases action with
  | add offer =>
    simp only [Action.concerns] at h
    simp only [act]
    split at h
    · rename_i o hread
      rw [hread]
      exact queue_enqueue_of_ne (by simpa using h)
    · rename_i error hread
      rw [hread]
  | apply p =>
    have hne : p.ident ≠ ident := by simpa [Action.concerns] using h
    simp only [act]
    split
    · rfl
    · exact queue_leave_of_ne hne

/-- An action is answered out of its own queue, the numbers apart. -/
lemma act_congr {action : Action} (h : action.concerns ident = true)
    (hqueue : (queues.queue ident).map Prod.snd = (queues'.queue ident).map Prod.snd) :
    (queues.act action).2.reply = (queues'.act action).2.reply ∧
      ((queues.act action).1.queue ident).map Prod.snd
        = ((queues'.act action).1.queue ident).map Prod.snd := by
  cases action with
  | add offer =>
    simp only [Action.concerns] at h
    split at h
    · rename_i o hread
      rw [beq_iff_eq] at h
      subst h
      simp only [act, hread, queue_enqueue_self, List.map_append, hqueue]
      exact ⟨trivial, rfl⟩
    · cases h
  | apply p =>
    rw [Action.concerns, beq_iff_eq] at h
    subst h
    simp only [act]
    cases hfirst : queues.queue p.ident with
    | nil =>
      rw [hfirst] at hqueue
      rw [List.map_eq_nil_iff.1 hqueue.symm]
      exact ⟨rfl, by rw [hfirst, List.map_nil, ← hqueue, List.map_nil]⟩
    | cons entry rest =>
      rw [hfirst] at hqueue
      obtain ⟨entry', rest', hqueue', hentry, hrest⟩ := List.map_eq_cons_iff.1 hqueue.symm
      obtain ⟨number, o⟩ := entry
      obtain ⟨number', o'⟩ := entry'
      obtain rfl : o' = o := hentry
      rw [hqueue']
      simp only [queue_leave_self]
      exact ⟨trivial, hrest.symm⟩

/-- **What one ident is told** does not depend on the actions of others. -/
lemma replies_filter
    (hqueue : (queues.queue ident).map Prod.snd = (queues'.queue ident).map Prod.snd)
    (actions : List Action) :
    (((actions.zip (queues.actAll actions).2).filter fun done => done.1.concerns ident).map
        fun done => done.2.reply)
      = (queues'.actAll (actions.filter (Action.concerns ident))).2.map Answer.reply := by
  induction actions generalizing queues queues' with
  | nil => rfl
  | cons action actions ih =>
    rw [actAll_cons, List.zip_cons_cons, List.filter_cons, List.filter_cons]
    cases hown : action.concerns ident with
    | false =>
      have hsame : (queues.act action).1.queue ident = queues.queue ident :=
        queue_act_of_not_concerns hown
      exact ih (by rw [hsame, hqueue])
    | true =>
      obtain ⟨hreply, hnext⟩ := act_congr hown hqueue
      rw [if_pos rfl, if_pos rfl, actAll_cons, List.map_cons, List.map_cons, ih hnext, hreply]

end Queues

namespace Registry

/-! ## From an empty registry on -/

/-- **A registry is a family of queues.**  Whatever is done with a registry that was empty at first,
every action is answered as a queue for each ident answers it, and the pending overrides of each
ident are its queue.  So no override is applied twice, those of one ident are applied in the order
in which they were added, no mark is taken back, and each ident is answered as if the actions of the
other idents had not been.

What is added is a new override each time (`Offer`).  To add one that was applied already, or the
same one a second time, is left out: a queue would not know it for what it is. -/
theorem actAll_eq_queues (actions : List Action) :
    let done := actAll [] actions
    let reference := Queues.actAll {} actions
    done.2 = reference.2 ∧ done.2.length = actions.length ∧
      (∀ ident, done.1.waiting ident = reference.1.queue ident) ∧
      ((done.2.filterMap Answer.taking?).Pairwise fun first second =>
        first.1 ≠ second.1 ∧ (first.2.ident = second.2.ident → first.1 < second.1)) ∧
      (∀ first second, actions = first ++ second → (actAll [] first).1.Keeps done.1) ∧
      ∀ ident,
        (((actions.zip done.2).filter fun done => done.1.concerns ident).map
            fun done => done.2.reply)
          = (actAll [] (actions.filter (Action.concerns ident))).2.map Answer.reply := by
  intro done reference
  obtain ⟨hanswers, hmirrors⟩ := Queues.mirrors_empty.actAll actions
  refine ⟨hanswers, Action.length_inTurn act [] actions,
    fun ident => (hmirrors.queue ident).symm, pairwise_takings [] actions, ?_, ?_⟩
  · intro first second hsplit
    have hdone : done.1 = ((actAll [] first).1.actAll second).1 := by
      rw [← actAll_append, ← hsplit]
    rw [hdone]
    exact keeps_actAll _ second
  · intro ident
    have hown := (Queues.mirrors_empty.actAll (actions.filter (Action.concerns ident))).1
    rw [show done.2 = reference.2 from hanswers, hown]
    exact Queues.replies_filter rfl actions

end Registry

end CoreSplice
