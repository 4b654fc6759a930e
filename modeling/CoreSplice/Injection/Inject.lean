import CoreSplice.Injection.Splice

/-!
# Injecting binary dumps

A binary dump is for the ident that its name ends in.  The symbol map may give the ident direct
data, indirect data, both or neither; each piece is put into the core by itself, so that one that
fails does not keep the other out.  Direct data is taken from an override if there is one that
was not applied yet.

Every operation here gives the attempts that it made, in order.  Whether all went well, and
whether one of them ended the operation, is read off them (`Attempt.status`).

* `Attempt` — one piece of data with how putting it into the core ended.
* `Session.attempt` — one piece, its failure being reported.
* `Session.injectDump` — the data of one dump.
* `Session.injectAll` — dumps in turn.
* `Session.injectPending` — the overrides that belonged to no dump, each injected by its ident.
-/

namespace CoreSplice

/-! ## Attempts -/

/-- One piece of data with how putting it into the core ended. -/
structure Attempt where
  placement : Placement
  slot : Slot
  result : Except Stop Unit

namespace Attempt

/-- What ended the operation that the attempt belongs to, if it did. -/
def abort? (a : Attempt) : Option Abort :=
  match a.result with
  | .error (.abort abort) => some abort
  | _ => none

/-- Whether the data is in its place. -/
def isDone (a : Attempt) : Bool :=
  match a.result with
  | .ok () => true
  | .error _ => false

/-- What ended the operation that made these attempts, or whether all of them succeeded. -/
def status (attempts : List Attempt) : Except Abort Bool :=
  match attempts.findSome? abort? with
  | some abort => .error abort
  | none => .ok (attempts.all isDone)

end Attempt

namespace Session

/-- One operation after another, unless the first was ended by one of its attempts. -/
def continued (first : Session × List Attempt) (next : Session → Session × List Attempt) :
    Session × List Attempt :=
  if (first.2.findSome? Attempt.abort?).isSome then first
  else
    let rest := next first.1
    (rest.1, first.2 ++ rest.2)

/-! ## One piece of data -/

/-- Puts one piece of data into the core.  Data that an override made empty is left out. -/
def attempt (s : Session) (p : Placement) (slot : Slot) : Session × List Attempt :=
  if p.size = 0 then (s, [])
  else
    match s.splice p slot with
    | (s, .error (.failure failure)) =>
      (s.report [.failed failure], [⟨p, slot, .error (.failure failure)⟩])
    | (s, result) => (s, [⟨p, slot, result⟩])

/-- A placement with the override that is due for it, which is thereby applied. -/
def redirect (s : Session) (p : Placement) : Session × Placement :=
  match s.registry.redirect? p with
  | none => (s, p)
  | some redirection =>
    ({ s with registry := redirection.registry }.report [.applied redirection.override p.ident],
      redirection.placement)

/-- The direct data of a dump, if there is any, from the dump or from the override that is due. -/
def injectDirect (s : Session) (path : String) (p : Placement) : Session × List Attempt :=
  if 0 < p.size then
    let (s, p) := s.redirect { p with source := some path }
    s.attempt p .direct
  else (s, [])

/-- The indirect data of a dump, if there is any.  No override applies to it. -/
def injectIndirect (s : Session) (path : String) (p : Placement) : Session × List Attempt :=
  if 0 < p.size then s.attempt { p with source := some path } .indirect else (s, [])

/-! ## Dumps and overrides -/

/-- **One dump.**  The direct and then the indirect data of the ident that the name ends in. -/
def injectDump (s : Session) (path : String) : Session × List Attempt :=
  let ident := Path.lastComponent path
  let map := s.symbolMap
  let found := map.placements ident
  let s := s.report (map.remarks ident)
  if found.direct.size = 0 ∧ found.indirect.size = 0 then (s.report [.noData ident], [])
  else
    continued (s.injectDirect path found.direct) fun s => s.injectIndirect path found.indirect

/-- Dumps in turn, whether the ones before failed or not. -/
def injectAll (s : Session) : List String → Session × List Attempt
  | [] => (s, [])
  | path :: paths => continued (s.injectDump path) fun s => injectAll s paths

/-- The overrides at the given positions in turn, those left out that were applied by the time
they are reached. -/
def injectPositions (s : Session) : List Nat → Session × List Attempt
  | [] => (s, [])
  | position :: positions =>
    match s.registry[position]? with
    | none => injectPositions s positions
    | some o =>
      if o.consumed then injectPositions s positions
      else continued (s.injectDump o.ident) fun s => injectPositions s positions

/-- **The leftover pass.**  Every override that is pending when the pass reaches it is injected by
its ident, in the order in which they were given.  No override is added meanwhile, so the
positions are known at the start. -/
def injectPending (s : Session) : Session × List Attempt :=
  s.injectPositions (List.range s.registry.length)

end Session

end CoreSplice
