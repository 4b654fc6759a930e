import CoreSplice.Elf.Failure

/-!
# What ends an operation

Most failures are reported and the operation goes on.  A few inputs cannot be worked with at all,
and end the operation at once; what was done before stays done.

* `Abort` — these causes.
-/

namespace CoreSplice

/-- Why an operation ended at once. -/
inductive Abort where
  /-- A file name holds the character that ends names. -/
  | unspeakableName (name : String)
  | noSource
  | negativeSize (size : Int)
  /-- A number has too many digits to be written. -/
  | tooManyDigits
  | closedCore
  | obstructed (obstacle : Elf.Obstacle)
  deriving DecidableEq, Repr

end CoreSplice
