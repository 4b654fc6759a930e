/-!
# Numbers in positional notation

A numeral is a row of digits, and each digit counts for the base times as much as the one behind
it.  Going through a long row digit by digit takes time in the square of its length, so rows are
halved, again and again: two neighbouring digits to a base are one digit to its square.

* `Positional.value` — the number that a row of digits stands for.
* `Positional.number` — the same number, found by halving the row (`number_eq_value`).
* `Positional.numeral` — the digits of a number, found by halving the number
  (`numeral_eq_toDigits`).
-/

namespace CoreSplice.Text.Positional

/-! ## Reading -/

/-- The number that digits to a base stand for, the last digit first. -/
def value (base : Nat) : List Nat → Nat
  | [] => 0
  | d :: ds => d + base * value base ds

/-- Neighbouring digits joined, which gives digits to the square of the base. -/
def join (base : Nat) : List Nat → List Nat
  | low :: high :: ds => (low + base * high) :: join base ds
  | ds => ds

/-- The number that digits stand for, after they were joined a number of times. -/
def joined : Nat → Nat → List Nat → Nat
  | 0, base, ds => value base ds
  | rounds + 1, base, ds => joined rounds (base * base) (join base ds)

/-- The number that digits to a base stand for, the last digit first. -/
def number (base : Nat) (ds : List Nat) : Nat :=
  joined ds.length.log2 base ds

/-- Joining changes the digits and the base, but not the number. -/
theorem value_join (base : Nat) (ds : List Nat) :
    value (base * base) (join base ds) = value base ds := by
  fun_induction join base ds with
  | case1 low high ds ih => simp only [value, ih, Nat.mul_add, Nat.mul_assoc, Nat.add_assoc]
  | case2 ds hds =>
    match ds, hds with
    | [], _ => rfl
    | [d], _ => simp [value]
    | low :: high :: ds, hds => exact absurd rfl (hds low high ds)

/-- However often digits are joined, they stand for the same number. -/
theorem joined_eq_value (rounds base : Nat) (ds : List Nat) :
    joined rounds base ds = value base ds := by
  induction rounds generalizing base ds with
  | zero => rfl
  | succ rounds ih => rw [joined, ih, value_join]

/-- Halving the row of digits finds the number that it stands for. -/
@[simp] theorem number_eq_value (base : Nat) (ds : List Nat) : number base ds = value base ds :=
  joined_eq_value ..

/-! ## Writing -/

/-- The base of digits that were joined a number of times. -/
def squared (base : Nat) : Nat → Nat
  | 0 => base
  | rounds + 1 =>
    let half := squared base rounds
    half * half

/-- The last `2 ^ rounds` digits of a number, zeros in front of it included. -/
def padded (base : Nat) : Nat → Nat → List Char
  | 0, n => [n.digitChar]
  | rounds + 1, n =>
    let half := squared base rounds
    padded base rounds (n / half) ++ padded base rounds (n % half)

/-- The digits of a number, which is halved a number of times. -/
def halved (base : Nat) : Nat → Nat → List Char
  | 0, n => Nat.toDigits base n
  | rounds + 1, n =>
    let half := squared base rounds
    if n < half then halved base rounds n
    else halved base rounds (n / half) ++ padded base rounds (n % half)

/-- The digits of a number.  Short numbers are not worth halving. -/
def numeral (base n : Nat) : List Char :=
  if n.log2 < 256 then Nat.toDigits base n else halved base (n.log2.log2 + 1) n

/-- A base that was squared is positive. -/
theorem squared_pos {base : Nat} (hbase : 1 < base) (rounds : Nat) : 0 < squared base rounds := by
  induction rounds with
  | zero => exact Nat.lt_trans Nat.zero_lt_one hbase
  | succ rounds ih => exact Nat.mul_pos ih ih

/-- Digits that are filled up with zeros continue the digits of another number. -/
theorem toDigits_append_padded {base : Nat} (hbase : 1 < base) (rounds : Nat) {m r : Nat}
    (hm : 0 < m) (hr : r < squared base rounds) :
    Nat.toDigits base m ++ padded base rounds r =
      Nat.toDigits base (m * squared base rounds + r) := by
  induction rounds generalizing m r with
  | zero =>
    simp only [squared] at hr ⊢
    rw [padded, ← Nat.toDigits_of_lt_base hr, Nat.toDigits_append_toDigits hbase hm hr,
      Nat.mul_comm]
  | succ rounds ih =>
    simp only [squared] at hr ⊢
    have hhalf := squared_pos hbase rounds
    have hm' : 0 < m * squared base rounds + r / squared base rounds :=
      Nat.add_pos_left (Nat.mul_pos hm hhalf) _
    rw [padded, ← List.append_assoc, ih hm (Nat.div_lt_of_lt_mul hr),
      ih hm' (Nat.mod_lt _ hhalf), Nat.add_mul, Nat.mul_assoc, Nat.add_assoc,
      Nat.div_add_mod']

/-- However often a number is halved, its digits are the same. -/
theorem halved_eq_toDigits {base : Nat} (hbase : 1 < base) (rounds n : Nat) :
    halved base rounds n = Nat.toDigits base n := by
  induction rounds generalizing n with
  | zero => rfl
  | succ rounds ih =>
    have hhalf := squared_pos hbase rounds
    rw [halved]
    split
    · exact ih n
    · rename_i h
      rw [ih, toDigits_append_padded hbase rounds (Nat.div_pos (Nat.not_lt.1 h) hhalf)
        (Nat.mod_lt _ hhalf), Nat.div_add_mod']

/-- Halving a number finds its digits. -/
@[simp] theorem numeral_eq_toDigits {base : Nat} (hbase : 1 < base) (n : Nat) :
    numeral base n = Nat.toDigits base n := by
  rw [numeral]
  split
  · rfl
  · exact halved_eq_toDigits hbase _ n

end CoreSplice.Text.Positional
