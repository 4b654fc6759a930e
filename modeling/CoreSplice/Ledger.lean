/-!
# The ledger of filled regions

Every piece of data that reaches the core is noted with the memory region it fills.  The program
headers are adjusted to these regions once all data is in place.

* `Region` — a range of memory addresses.
* `Ledger.enter`, `Ledger.takeAll` — one more region; all regions, leaving none.
-/

namespace CoreSplice

/-- A range of memory addresses. -/
structure Region where
  address : Int
  size : Int
  deriving DecidableEq, Repr

/-- The regions that were filled and not handed on yet, in the order in which they were filled. -/
abbrev Ledger := List Region

namespace Ledger

/-- The ledger with one more region. -/
def enter (ledger : Ledger) (region : Region) : Ledger :=
  ledger ++ [region]

/-- All regions of the ledger, and the ledger without them. -/
def takeAll (ledger : Ledger) : List Region × Ledger :=
  (ledger, [])

end Ledger

end CoreSplice
