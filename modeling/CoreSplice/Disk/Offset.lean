/-!
# Offsets

A position in a file and the length of one are signed numbers of sixty-four bits.  Other numbers
are no offsets at all, and an offset below zero is one that no file has.

* `positionLimit` — where positions and lengths end.
* `isOffset` — whether a number is an offset.
-/

namespace CoreSplice

/-- The smallest number that is no position in a file and no length of one. -/
def positionLimit : Nat := 0x8000000000000000

/-- Whether a number is in the range of offsets. -/
def isOffset (n : Int) : Bool :=
  -positionLimit ≤ n ∧ n < positionLimit

/-- The range of offsets by its two ends. -/
theorem isOffset_iff {n : Int} :
    isOffset n = true ↔ -(positionLimit : Int) ≤ n ∧ n < (positionLimit : Int) :=
  decide_eq_true_iff

/-- A natural number below the limit is an offset. -/
theorem isOffset_of_lt {position : Nat} (h : position < positionLimit) :
    isOffset position = true :=
  isOffset_iff.2 ⟨Int.le_trans (Int.neg_nonpos_of_nonneg (Int.natCast_nonneg _))
    (Int.natCast_nonneg _), Int.ofNat_lt.2 h⟩

end CoreSplice
