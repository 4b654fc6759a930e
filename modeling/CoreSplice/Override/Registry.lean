import CoreSplice.FirstMatch
import CoreSplice.Override.Basic

/-!
# The registry of overrides

The overrides of a run are kept in the order in which they were given.  A placement takes the
first one for its ident that was not applied before, and whatever is left at the end is walked
through in order, while the walk itself applies overrides.

* `Registry.add` — one more override, at the end.
* `Registry.firstFor?` — the override that a placement takes.
* `Registry.redirect?` — the placement redirected, and the registry without that override.
* `Registry.next?` — one step of a walk over the overrides that are pending.  It looks at the
  registry as it is now, so overrides that were applied or added since the last step are seen.
-/

namespace CoreSplice

/-- The overrides of a run, in the order in which they were given. -/
abbrev Registry := List Override

namespace Registry

/-- The registry with one more override, behind all others. -/
def add (registry : Registry) (o : Override) : Registry :=
  registry ++ [o]

/-- The override that the next placement of the ident takes, with its position. -/
def firstFor? (registry : Registry) (ident : String) : Option (Nat × Override) :=
  firstMatch? (Override.isPendingFor ident) registry

/-- The registry after the override at the position was applied. -/
def consumeAt (registry : Registry) (position : Nat) : Registry :=
  registry.modify position Override.consume

/-- What applying an override to a placement gives. -/
structure Redirection where
  position : Nat
  override : Override
  placement : Placement
  registry : Registry

/-- The placement redirected to the first pending override of its ident, which is thereby
consumed. -/
def redirect? (registry : Registry) (p : Placement) : Option Redirection :=
  (registry.firstFor? p.ident).map fun (position, o) =>
    ⟨position, o, o.redirect p, registry.consumeAt position⟩

/-- The first pending override at or after a position. -/
def next? (registry : Registry) (start : Nat) : Option (Nat × Override) :=
  (firstMatch? (fun o => !o.consumed) (registry.drop start)).map fun (position, o) =>
    (start + position, o)

/-- The overrides that were not applied yet. -/
def pending (registry : Registry) : List Override :=
  registry.filter fun o => !o.consumed

/-- Applying an override takes none away. -/
@[simp] theorem length_consumeAt (registry : Registry) (position : Nat) :
    (registry.consumeAt position).length = registry.length := by
  simp [consumeAt]

end Registry

end CoreSplice
