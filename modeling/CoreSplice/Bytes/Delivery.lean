import CoreSplice.Bytes.Overlay

/-!
# What a read delivers

A read of a file delivers some of its bytes.  A read of a device that holds zeros without end
delivers as many as were asked for, and as nobody looks at each of them, they are kept as a
number.

* `Delivery` — the bytes, or the number of zeros.
* `Delivery.toBytes` — the bytes in either case, with the laws of the other operations
  (`length_toBytes`, `toBytes_take`).
-/

namespace CoreSplice

/-- What a read delivers. -/
inductive Delivery where
  | bytes (content : Bytes)
  | zeros (count : Nat)
  deriving DecidableEq, Repr

namespace Delivery

/-- The bytes of a delivery, of either form. -/
def toBytes : Delivery → Bytes
  | bytes content => content
  | zeros count => List.replicate count 0

/-- How many bytes were delivered. -/
def length : Delivery → Nat
  | bytes content => content.length
  | zeros count => count

/-- The first `count` bytes of a delivery. -/
def take (d : Delivery) (count : Nat) : Delivery :=
  match d with
  | bytes content => bytes (content.take count)
  | zeros held => zeros (min count held)

/-- A delivery has as many bytes as its length says. -/
@[simp] theorem length_toBytes (d : Delivery) : d.toBytes.length = d.length := by
  cases d <;> simp [toBytes, length]

/-- Taking a part of a delivery takes that part of its bytes. -/
@[simp] theorem toBytes_take (d : Delivery) (count : Nat) :
    (d.take count).toBytes = d.toBytes.take count := by
  cases d <;> simp [toBytes, take]

end Delivery

end CoreSplice
