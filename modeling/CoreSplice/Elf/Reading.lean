import CoreSplice.Elf.Failure

/-!
# Reading from an object file

What a file holds decides what reading it gives.  But a file may also fail each time that it is
put to a position, so a reading counts how often it does that, and whoever knows which of these
operations fail can tell how far the reading gets.

* `Reading` — what was read, or why not, with the number of positions that the file was put to.
  Readings follow one another as a monad, and `outcome_bind` says that the outcome of a row is
  the row of the outcomes.
* `Reading.seek`, `Reading.refuse`, `Reading.require` — the steps.
-/

namespace CoreSplice.Elf

/-- What reading from a file gives, with the number of positions that it puts the file to. -/
structure Reading (α : Type) where
  seeks : Nat
  outcome : Except OpenError α

namespace Reading

variable {α β : Type}

/-- A value that is known without the file being put anywhere. -/
protected def pure (value : α) : Reading α :=
  ⟨0, .ok value⟩

/-- One reading after another, which depends on what the first gave. -/
protected def bind (first : Reading α) (next : α → Reading β) : Reading β :=
  match first.outcome with
  | .error e => ⟨first.seeks, .error e⟩
  | .ok value =>
    let rest := next value
    ⟨first.seeks + rest.seeks, rest.outcome⟩

/-- Readings follow one another, and the first that fails ends the row. -/
instance : Monad Reading where
  pure := Reading.pure
  bind := Reading.bind

/-- An outcome that is known without the file being put anywhere. -/
def ofOutcome (outcome : Except OpenError α) : Reading α :=
  ⟨0, outcome⟩

/-- The bytes that were read are not what they should be. -/
def refuse (why : Malformation) : Reading α :=
  ofOutcome (.error (.malformed why))

/-- The bytes that were read must have a property. -/
def require (p : Prop) [Decidable p] (why : Malformation) : Reading Unit :=
  if p then pure () else refuse why

/-- The file is put to a position. -/
def seek (position : Nat) : Reading Unit :=
  ⟨1, (checkOffset position).mapError .obstructed |>.map fun _ => ()⟩

/-- A known value is the outcome. -/
@[simp] theorem outcome_pure (value : α) : (pure value : Reading α).outcome = .ok value := rfl

/-- A known outcome is the outcome. -/
@[simp] theorem outcome_ofOutcome (outcome : Except OpenError α) :
    (ofOutcome outcome).outcome = outcome := rfl

/-- The outcome of a row is the row of the outcomes. -/
@[simp] theorem outcome_bind (first : Reading α) (next : α → Reading β) :
    (first >>= next).outcome = first.outcome >>= fun value => (next value).outcome := by
  change (Reading.bind first next).outcome = _
  unfold Reading.bind
  split
  · next h => rw [h]; rfl
  · next h => rw [h]; rfl

/-- A requirement fails if the property does not hold. -/
@[simp] theorem outcome_require (p : Prop) [Decidable p] (why : Malformation) :
    (require p why).outcome = if p then .ok () else .error (.malformed why) := by
  unfold require
  split <;> rfl

/-- A file can be put to every position below the limit. -/
theorem outcome_seek {position : Nat} (h : position < positionLimit) :
    (seek position).outcome = .ok () := by
  unfold seek
  rw [checkOffset_of_lt h]
  rfl

/-- A row counts the positions of its parts, as far as it gets. -/
@[simp] theorem seeks_bind (first : Reading α) (next : α → Reading β) :
    (first >>= next).seeks =
      first.seeks + match first.outcome with
        | .error _ => 0
        | .ok value => (next value).seeks := by
  change (Reading.bind first next).seeks = _
  unfold Reading.bind
  split <;> simp

end Reading

end CoreSplice.Elf
