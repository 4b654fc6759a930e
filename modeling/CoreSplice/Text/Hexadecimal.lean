import CoreSplice.Text.Blank
import CoreSplice.Text.DecimalDigit
import CoreSplice.Text.Positional

/-!
# Numbers to the base sixteen

The numbers of a symbol map and of all messages about positions are hexadecimal.  Reading is
liberal: blanks around the number, a sign, the mark `0x`, the letters in either case, the decimal
digits of any script, and a single underscore between digits or right after the mark.  Writing has
one form: small letters and no superfluous zeros.

* `Hexadecimal.read?` — the number a text stands for, if it is such a literal.  It may have any
  length.
* `Hexadecimal.write`, `Hexadecimal.writePadded` — the text of a number.
-/

namespace CoreSplice.Text.Hexadecimal

/-! ## Reading -/

/-- The value of a hexadecimal digit: a letter in either case, or a decimal digit of any script. -/
def digit? (c : Char) : Option Nat :=
  if 'a' ≤ c ∧ c ≤ 'f' then some (c.toNat - 'a'.toNat + 10)
  else if 'A' ≤ c ∧ c ≤ 'F' then some (c.toNat - 'A'.toNat + 10)
  else decimalDigit? c

/-- The values of digits that follow others, in front of theirs, the last one first.  One
underscore may stand before each. -/
def moreDigits (before : List Nat) : List Char → Option (List Nat)
  | [] => some before
  | '_' :: c :: cs => (digit? c).bind fun d => moreDigits (d :: before) cs
  | c :: cs => (digit? c).bind fun d => moreDigits (d :: before) cs

/-- The number of at least one digit, and nothing else. -/
def digits : List Char → Option Nat
  | [] => none
  | c :: cs => (digit? c).bind fun d => (moreDigits [d] cs).map (Positional.number 16)

/-- The text without the mark `0x`, if it starts with it, and without an underscore after it. -/
def dropMark : List Char → List Char
  | zero :: x :: rest =>
    if digit? zero = some 0 ∧ (x = 'x' ∨ x = 'X') then
      match rest with
      | '_' :: rest => rest
      | rest => rest
    else zero :: x :: rest
  | text => text

/-- The number that a text stands for, if it is a literal. -/
def read? (text : List Char) : Option Int :=
  match trimBlanks text with
  | '-' :: body => (digits (dropMark body)).map fun n => -(n : Int)
  | '+' :: body => (digits (dropMark body)).map fun n => (n : Int)
  | body => (digits (dropMark body)).map fun n => (n : Int)

/-! ## Writing -/

/-- The number in hexadecimal, with its sign if it is negative. -/
def write (n : Int) : String :=
  (if n < 0 then "-" else "") ++ String.ofList (Positional.numeral 16 n.natAbs)

/-- The number in hexadecimal, with zeros between sign and digits up to `width` characters. -/
def writePadded (width : Nat) (n : Int) : String :=
  let sign := if n < 0 then "-" else ""
  let body := Positional.numeral 16 n.natAbs
  sign ++ String.ofList (List.replicate (width - sign.length - body.length) '0' ++ body)

/-! ## What is written reads back -/

/-- A digit that was written is read back. -/
theorem digit?_digitChar {d : Nat} (h : d < 16) : digit? d.digitChar = some d := by
  have all : ∀ d : Fin 16, digit? d.val.digitChar = some d.val := by decide
  exact all ⟨d, h⟩

end CoreSplice.Text.Hexadecimal
