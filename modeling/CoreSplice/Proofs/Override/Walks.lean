import Mathlib.Data.List.Induction
import Mathlib.Logic.Function.Basic
import CoreSplice.Proofs.Override.Actions

/-!
# Walks over the pending overrides

A walk gives the pending overrides one at a time.  It looks at the registry as it is whenever the
next one is asked for, and between two questions overrides may be added and applied, and other walks
may be asked.  What carries every promise of a walk is that an override stays where it was put and
that no mark is taken back: whatever is pending behind the point that the walk has reached was
pending when it came by, so it was given then.  Overrides are told apart by where they stand.

* `Registry.next?_eq_some_iff`, `Registry.next?_eq_none_iff` — what one question finds.
* `Walk`, `Walk.ask` — what a walk has given and where it looks next, and one question.
* `Walk.Covers` — the invariant.  It outlives what happens to the registry
  (`Walk.Covers.of_keeps`) and a question (`Walk.Covers.ask`).
* `Event`, `Walks` — a registry with any number of walks, and what may happen to it.
* `Walks.run_filter` — a walk goes on as if the others were not asked.
* **`Walks.walk_run`** — whatever happens, a walk gives each override that is pending at its end.
-/

namespace CoreSplice

namespace Registry

variable {registry after : Registry} {start position : Nat} {o : Override}

/-! ## One question -/

lemma next?_eq_some_iff :
    registry.next? start = some (position, o) ↔
      start ≤ position ∧ registry[position]? = some o ∧ o.consumed = false ∧
        ∀ n, start ≤ n → n < position → ∀ a, registry[n]? = some a → a.consumed = true := by
  simp only [next?, Option.map_eq_some_iff, Prod.exists, Prod.mk.injEq, firstMatch?_eq_some_iff,
    List.getElem?_drop, Bool.not_eq_true']
  constructor
  · rintro ⟨n, a, ⟨hget, hpending, hbefore⟩, rfl, rfl⟩
    refine ⟨Nat.le_add_right start n, hget, hpending, ?_⟩
    intro m hstart hm b hb
    have hmem : b ∈ (registry.drop start).take n := by
      refine List.mem_iff_getElem?.2 ⟨m - start, ?_⟩
      rw [List.getElem?_take_of_lt (by omega), List.getElem?_drop, Nat.add_sub_cancel' hstart, hb]
    simpa using hbefore b hmem
  · rintro ⟨hstart, hget, hpending, hbefore⟩
    refine ⟨position - start, o, ⟨?_, hpending, ?_⟩, Nat.add_sub_cancel' hstart, rfl⟩
    · rw [Nat.add_sub_cancel' hstart, hget]
    · intro b hb
      obtain ⟨m, hm⟩ := List.mem_iff_getElem?.1 hb
      rw [List.getElem?_take] at hm
      split at hm
      · rw [List.getElem?_drop] at hm
        simpa using hbefore (start + m) (Nat.le_add_right start m) (by omega) b hm
      · cases hm

lemma next?_eq_none_iff :
    registry.next? start = none ↔
      ∀ n, start ≤ n → ∀ a, registry[n]? = some a → a.consumed = true := by
  simp only [next?, Option.map_eq_none_iff, firstMatch?_eq_none_iff, Bool.not_eq_false']
  constructor
  · intro h n hstart a ha
    refine h a (List.mem_iff_getElem?.2 ⟨n - start, ?_⟩)
    rw [List.getElem?_drop, Nat.add_sub_cancel' hstart, ha]
  · intro h a ha
    obtain ⟨n, hn⟩ := List.mem_iff_getElem?.1 ha
    rw [List.getElem?_drop] at hn
    exact h _ (Nat.le_add_right start n) a hn

end Registry

/-! ## One walk -/

/-- A walk over the pending overrides: where it looks next, whether it has come to its end, and the
overrides that it gave, with their positions. -/
structure Walk where
  cursor : Nat := 0
  ended : Bool := false
  taken : List (Nat × Override) := []

namespace Walk

variable {registry after : Registry} {w : Walk}

/-- The next override is asked for.  A walk that finds none has ended, and gives none that is added
later. -/
def ask (registry : Registry) (w : Walk) : Walk :=
  if w.ended then w
  else
    match registry.next? w.cursor with
    | none => { w with ended := true }
    | some (position, o) =>
      { w with cursor := position + 1, taken := w.taken ++ [(position, o)] }

lemma ask_of_ended (h : w.ended = true) : w.ask registry = w :=
  if_pos h

/-- A question leads to the first pending override that the walk has not passed, or it ends the
walk. -/
lemma ask_cases (registry : Registry) (h : w.ended = false) :
    (registry.next? w.cursor = none ∧ w.ask registry = { w with ended := true }) ∨
      ∃ position o, registry.next? w.cursor = some (position, o) ∧
        w.ask registry
          = { w with cursor := position + 1, taken := w.taken ++ [(position, o)] } := by
  simp only [ask, h, Bool.false_eq_true, if_false]
  cases registry.next? w.cursor with
  | none => exact Or.inl ⟨rfl, rfl⟩
  | some found => exact Or.inr ⟨found.1, found.2, rfl, rfl⟩

/-- A question gives nothing, or one more override, which is pending. -/
lemma taken_ask (registry : Registry) (w : Walk) :
    (w.ask registry).taken = w.taken ∨ ∃ item, (w.ask registry).taken = w.taken ++ [item] ∧
      registry[item.1]? = some item.2 ∧ item.2.consumed = false := by
  cases hended : w.ended with
  | true => exact Or.inl (by rw [ask_of_ended hended])
  | false =>
    rcases ask_cases registry hended with ⟨-, hask⟩ | ⟨position, o, hnext, hask⟩
    · exact Or.inl (by rw [hask])
    · obtain ⟨-, hget, hpending, -⟩ := Registry.next?_eq_some_iff.1 hnext
      exact Or.inr ⟨(position, o), by rw [hask], hget, hpending⟩

/-- The walk has given overrides in ascending order, none of them in front of its cursor, and all of
those behind it that are pending. -/
structure Covers (w : Walk) (registry : Registry) : Prop where
  ascending : w.taken.Pairwise fun first second => first.1 < second.1
  behind : ∀ item ∈ w.taken, item.1 < w.cursor
  within : w.cursor ≤ registry.length
  pending : ∀ position < w.cursor, ∀ o, registry[position]? = some o → o.consumed = false →
    (position, o) ∈ w.taken

lemma covers_start (registry : Registry) : Covers {} registry :=
  ⟨.nil, fun _ h => absurd h List.not_mem_nil, Nat.zero_le _,
    fun _ h => absurd h (Nat.not_lt_zero _)⟩

/-- Overrides that are added or applied do not concern what the walk has passed. -/
lemma Covers.of_keeps (h : w.Covers registry) (hkeeps : registry.Keeps after) :
    w.Covers after := by
  refine ⟨h.ascending, h.behind, Nat.le_trans h.within hkeeps.length_le, ?_⟩
  intro position hposition o hget hpending
  have hthere : position < registry.length := Nat.lt_of_lt_of_le hposition h.within
  have hbefore : registry[position]? = some registry[position] := List.getElem?_eq_getElem hthere
  -- What is pending now was pending before, as no mark is taken back.
  rcases hkeeps position _ hbefore with hsame | ⟨-, hspent⟩
  · rw [hget] at hsame
    cases hsame
    exact h.pending position hposition _ hbefore hpending
  · rw [hget] at hspent
    cases hspent
    cases hpending

lemma Covers.ask (h : w.Covers registry) : (w.ask registry).Covers registry := by
  cases hended : w.ended with
  | true => rwa [ask_of_ended hended]
  | false =>
    rcases ask_cases registry hended with ⟨-, hask⟩ | ⟨position, o, hnext, hask⟩
    · rw [hask]
      exact ⟨h.ascending, h.behind, h.within, h.pending⟩
    · obtain ⟨hcursor, hget, -, hpassed⟩ := Registry.next?_eq_some_iff.1 hnext
      rw [hask]
      refine ⟨?ascending, ?behind, (List.getElem?_eq_some_iff.1 hget).1, ?pending⟩
      case ascending =>
        refine List.pairwise_append.2 ⟨h.ascending, List.pairwise_singleton .., ?_⟩
        intro first hfirst second hsecond
        rw [List.mem_singleton.1 hsecond]
        exact Nat.lt_of_lt_of_le (h.behind first hfirst) hcursor
      case behind =>
        intro item hitem
        rcases List.mem_append.1 hitem with hitem | hitem
        · exact Nat.lt_succ_of_lt (Nat.lt_of_lt_of_le (h.behind item hitem) hcursor)
        · rw [List.mem_singleton.1 hitem]
          exact Nat.lt_succ_self position
      case pending =>
        intro n hn a ha hpending
        rcases Nat.lt_or_ge n w.cursor with hbehind | hfront
        · exact List.mem_append_left _ (h.pending n hbehind a ha hpending)
        rcases Nat.lt_or_eq_of_le (Nat.le_of_lt_succ hn) with hlt | rfl
        · have hconsumed := hpassed n hfront hlt a ha
          rw [hpending] at hconsumed
          cases hconsumed
        · rw [hget] at ha
          cases ha
          exact List.mem_append_right _ (List.mem_singleton_self _)

/-- Every pending override was given by the walk, and given once. -/
def Exhausts (w : Walk) (registry : Registry) : Prop :=
  ∀ (position : Nat) (o : Override), registry[position]? = some o → o.consumed = false →
    w.taken.filter (fun item => item.1 = position) = [(position, o)]

/-- Positions in strictly ascending order occur once. -/
lemma filter_position {items : List (Nat × Override)}
    (h : items.Pairwise fun first second => first.1 < second.1) {item : Nat × Override}
    (hitem : item ∈ items) : items.filter (fun other => other.1 = item.1) = [item] := by
  obtain ⟨front, back, rfl⟩ := List.append_of_mem hitem
  obtain ⟨-, hback, hfront⟩ := List.pairwise_append.1 h
  have hbehind := (List.pairwise_cons.1 hback).1
  refine List.filter_eq_cons_iff.2 ⟨front, back, rfl, ?_, by simp, List.filter_eq_nil_iff.2 ?_⟩
  · intro other hother
    have hlt := hfront other hother item List.mem_cons_self
    simpa using Nat.ne_of_lt hlt
  · intro other hother
    simpa using Nat.ne_of_gt (hbehind other hother)

/-- **A walk that finds no override any more** has given all that are pending. -/
lemma Covers.exhausts (h : w.Covers registry) (hnone : registry.next? w.cursor = none) :
    w.Exhausts registry := by
  intro position o hget hpending
  have hbehind : position < w.cursor := by
    by_contra hfront
    have hconsumed := Registry.next?_eq_none_iff.1 hnone position (Nat.not_lt.1 hfront) o hget
    rw [hpending] at hconsumed
    cases hconsumed
  exact filter_position h.ascending (h.pending position hbehind o hget hpending)

end Walk

/-! ## Walks and actions in any order -/

/-- What may happen to a registry that is walked through. -/
inductive Event where
  /-- The walk of this name is asked for the next override. -/
  | ask (name : Nat)
  | act (action : Action)
  /-- An override is added as it is, applied or not. -/
  | put (o : Override)

/-- Whether the event happens to the walk of the name, or to the registry that it goes through. -/
def Event.concerns (name : Nat) : Event → Bool
  | ask other => other == name
  | act _ | put _ => true

/-- A registry with the walks over it, which are told apart by names.  As long as nothing was asked
of a walk, it does not matter when it was started. -/
structure Walks where
  registry : Registry
  walk : Nat → Walk := fun _ => {}

namespace Walks

variable {s t : Walks} {name : Nat}

/-- One event.  Only a walk that is asked moves on. -/
def step (s : Walks) : Event → Walks
  | .ask name => { s with walk := Function.update s.walk name ((s.walk name).ask s.registry) }
  | .act action => { s with registry := (s.registry.act action).1 }
  | .put o => { s with registry := s.registry.add o }

/-- Events in turn. -/
def run (s : Walks) (events : List Event) : Walks :=
  events.foldl step s

lemma run_append (s : Walks) (first second : List Event) :
    s.run (first ++ second) = (s.run first).run second :=
  List.foldl_append

lemma registry_step_ask (s : Walks) (name : Nat) : (s.step (.ask name)).registry = s.registry :=
  rfl

lemma walk_step_ask (s : Walks) (name : Nat) :
    (s.step (.ask name)).walk name = (s.walk name).ask s.registry :=
  Function.update_self ..

lemma walk_step_of_ne {event : Event} (h : event ≠ .ask name) :
    (s.step event).walk name = s.walk name := by
  cases event with
  | ask other =>
    have hother : name ≠ other := fun heq => h (by rw [heq])
    exact Function.update_of_ne hother ..
  | act action => rfl
  | put o => rfl

/-! ## What every walk keeps -/

lemma keeps_step (s : Walks) (event : Event) :
    s.registry.Keeps (s.step event).registry := by
  cases event with
  | ask other => exact .refl s.registry
  | act action => exact Registry.keeps_act s.registry action
  | put o => exact Registry.keeps_add s.registry o

lemma covers_step (h : (s.walk name).Covers s.registry) (event : Event) :
    ((s.step event).walk name).Covers (s.step event).registry := by
  by_cases hask : event = .ask name
  · subst hask
    rw [walk_step_ask, registry_step_ask]
    exact h.ask
  · rw [walk_step_of_ne hask]
    exact h.of_keeps (keeps_step s event)

lemma covers_run (h : (s.walk name).Covers s.registry) (events : List Event) :
    ((s.run events).walk name).Covers (s.run events).registry := by
  induction events generalizing s with
  | nil => exact h
  | cons event events ih => exact ih (covers_step h event)

/-- A walk that has ended stays as it is. -/
lemma walk_run_of_ended (h : (s.walk name).ended = true) (events : List Event) :
    (s.run events).walk name = s.walk name := by
  induction events generalizing s with
  | nil => rfl
  | cons event events ih =>
    have hstep : (s.step event).walk name = s.walk name := by
      by_cases hask : event = .ask name
      · subst hask
        rw [walk_step_ask, Walk.ask_of_ended h]
      · exact walk_step_of_ne hask
    have hrest := ih (s := s.step event) (by rwa [hstep])
    exact hrest.trans hstep

/-- **A walk goes on by itself**: events that are questions to other walks may be left out. -/
lemma run_filter (hregistry : s.registry = t.registry) (hwalk : s.walk name = t.walk name)
    (events : List Event) :
    (s.run events).registry = (t.run (events.filter (Event.concerns name))).registry ∧
      (s.run events).walk name = (t.run (events.filter (Event.concerns name))).walk name := by
  induction events generalizing s t with
  | nil => exact ⟨hregistry, hwalk⟩
  | cons event events ih =>
    cases event with
    | act action =>
      exact ih (s := s.step (.act action)) (t := t.step (.act action))
        (congrArg (fun registry => (registry.act action).1) hregistry) hwalk
    | put o =>
      exact ih (s := s.step (.put o)) (t := t.step (.put o))
        (congrArg (Registry.add · o) hregistry) hwalk
    | ask other =>
      by_cases hother : other = name
      · subst hother
        rw [List.filter_cons_of_pos (by simp [Event.concerns])]
        refine ih (s := s.step (.ask other)) (t := t.step (.ask other)) hregistry ?_
        rw [walk_step_ask, walk_step_ask, hregistry, hwalk]
      · rw [List.filter_cons_of_neg (by simpa [Event.concerns] using hother)]
        refine ih (s := s.step (.ask other)) hregistry ?_
        rw [walk_step_of_ne (by simpa using hother), hwalk]

/-! ## Where an override was given -/

lemma taken_step (s : Walks) (name : Nat) (event : Event) :
    ((s.step event).walk name).taken = (s.walk name).taken ∨
      ∃ item, event = .ask name ∧
        ((s.step event).walk name).taken = (s.walk name).taken ++ [item] ∧
        s.registry[item.1]? = some item.2 ∧ item.2.consumed = false := by
  by_cases hask : event = .ask name
  · subst hask
    rw [walk_step_ask]
    exact (Walk.taken_ask s.registry (s.walk name)).imp_right fun ⟨item, h⟩ => ⟨item, rfl, h⟩
  · exact Or.inl (by rw [walk_step_of_ne hask])

/-- Whatever a walk gave, it gave at a question, and it was pending then. -/
lemma exists_ask_of_taken {events : List Event} (hstart : (s.walk name).taken = []) {n : Nat}
    {item : Nat × Override} (h : ((s.run events).walk name).taken[n]? = some item) :
    ∃ past rest, events = past ++ .ask name :: rest ∧
      ((s.run past).walk name).taken = ((s.run events).walk name).taken.take n ∧
      (s.run past).registry[item.1]? = some item.2 ∧ item.2.consumed = false := by
  -- The last event gave the override, or one before it did.
  induction events using List.reverseRecOn with
  | nil =>
    have hnone : (s.walk name).taken[n]? = some item := h
    rw [hstart] at hnone
    cases hnone
  | append_singleton events event ih =>
    have hlast : s.run (events ++ [event]) = (s.run events).step event := run_append ..
    rw [hlast] at h ⊢
    rcases taken_step (s.run events) name event with hsame | ⟨given, rfl, hmore, hget, hpending⟩
    · rw [hsame] at h ⊢
      obtain ⟨past, rest, rfl, hearlier⟩ := ih h
      exact ⟨past, rest ++ [event], by simp, hearlier⟩
    · rw [hmore] at h ⊢
      by_cases hn : n < ((s.run events).walk name).taken.length
      · rw [List.getElem?_append_left hn] at h
        obtain ⟨past, rest, rfl, htaken, hearlier⟩ := ih h
        refine ⟨past, rest ++ [.ask name], by simp, ?_, hearlier⟩
        rw [List.take_append_of_le_length (Nat.le_of_lt hn), htaken]
      · rw [List.getElem?_append_right (Nat.not_lt.1 hn), List.getElem?_singleton] at h
        split at h
        · cases h
          refine ⟨events, [], rfl, ?_, hget, hpending⟩
          rw [List.take_append_of_le_length (by omega), List.take_of_length_le (by omega)]
        · cases h

/-- **Walks and actions in any order.**  The registry is any, and so are the events.  A walk gives
overrides in strictly ascending order, and each of them was pending when it was given.  A question
is answered by one more override, or it ends the walk for good, and at that moment each pending
override has been given, and given once, no matter when it was added.  The questions to other walks
make no difference to it, nor to the registry. -/
theorem walk_run (registry : Registry) (events : List Event) (name : Nat) :
    let after (past : List Event) : Walks := Walks.run { registry } past
    let walk := (after events).walk name
    (walk.taken.Pairwise fun first second => first.1 < second.1) ∧
      (∀ (n : Nat) (item : Nat × Override), walk.taken[n]? = some item →
        ∃ past rest, events = past ++ .ask name :: rest ∧
          ((after past).walk name).taken = walk.taken.take n ∧
          (after past).registry[item.1]? = some item.2 ∧ item.2.consumed = false) ∧
      (∀ past rest, events = past ++ .ask name :: rest →
        let before := (after past).walk name
        let answered := (after (past ++ [.ask name])).walk name
        (∃ item, answered.taken = before.taken ++ [item] ∧ answered.ended = false) ∨
          (answered.ended = true ∧ answered.taken = before.taken ∧ walk = answered ∧
            (before.ended = false → answered.Exhausts (after past).registry))) ∧
      (after events).registry = (after (events.filter (Event.concerns name))).registry ∧
      walk = (after (events.filter (Event.concerns name))).walk name := by
  intro after walk
  have hcovers (past : List Event) : ((after past).walk name).Covers (after past).registry :=
    covers_run (Walk.covers_start registry) past
  refine ⟨(hcovers events).ascending, fun n item h => exists_ask_of_taken rfl h, ?_,
    run_filter rfl rfl events⟩
  intro past rest hsplit before answered
  have hanswered : answered = before.ask (after past).registry := by
    show ((after (past ++ [.ask name])).walk name) = _
    simp only [after, run_append]
    exact walk_step_ask ..
  have hwalk (hended : answered.ended = true) : walk = answered := by
    have hlater := walk_run_of_ended hended rest
    rw [← run_append, List.append_assoc, List.singleton_append, ← hsplit] at hlater
    exact hlater
  cases hended : before.ended with
  | true =>
    have hsame : answered = before := hanswered.trans (Walk.ask_of_ended hended)
    have hstill : answered.ended = true := by rw [hsame, hended]
    exact Or.inr ⟨hstill, by rw [hsame], hwalk hstill, fun h => by cases h⟩
  | false =>
    rcases Walk.ask_cases (after past).registry hended with
      ⟨hnone, hask⟩ | ⟨position, o, -, hask⟩
    · have hnow : answered = { before with ended := true } := hanswered.trans hask
      have hstill : answered.ended = true := by rw [hnow]
      refine Or.inr ⟨hstill, by rw [hnow], hwalk hstill, fun _ => ?_⟩
      have hexhausts : before.Exhausts (after past).registry := (hcovers past).exhausts hnone
      rw [hnow]
      exact hexhausts
    · left
      have hnow : answered = _ := hanswered.trans hask
      rw [hnow]
      exact ⟨(position, o), rfl, hended⟩

/-- What is applied before a walk comes to it is passed over, what is added before the walk has
ended is given, and what is added afterwards is not. -/
example :
    let o (ident : String) : Override := ⟨ident, 1, "f", 0, false⟩
    let take (ident : String) : Event := .act (.apply { ident })
    let walks := Walks.run { registry := [o "a", o "b", o "a"] }
      [.ask 0, take "a", take "a", .ask 0, .put (o "c"), .ask 0, .ask 0, .put (o "d"), .ask 0]
    (walks.walk 0).taken.map Prod.fst = [0, 1, 3] ∧ (walks.walk 0).ended = true := by
  decide +kernel

end Walks

end CoreSplice
