/-!
# Blanks around a numeral

A numeral may have blanks before and after it.  Which characters count as blank is a table: the
six of ASCII, and the space characters beyond ASCII.  The separators of ASCII (code points 28 to
31) and characters without width are no blanks.

* `isBlank` — the table.
* `trimBlanks` — the text without the blanks at its two ends.
-/

namespace CoreSplice.Text

/-- The code points of the blanks beyond ASCII. -/
def wideBlanks : List Nat :=
  [0x85, 0xa0, 0x1680, 0x2000, 0x2001, 0x2002, 0x2003, 0x2004, 0x2005, 0x2006, 0x2007, 0x2008,
   0x2009, 0x200a, 0x2028, 0x2029, 0x202f, 0x205f, 0x3000]

/-- Whether a character may stand around a numeral without being a part of it. -/
def isBlank (c : Char) : Bool :=
  c = ' ' ∨ (9 ≤ c.toNat ∧ c.toNat ≤ 13) ∨ c.toNat ∈ wideBlanks

/-- The text without the blanks at its start and at its end. -/
def trimBlanks (text : List Char) : List Char :=
  ((text.dropWhile isBlank).reverse.dropWhile isBlank).reverse

end CoreSplice.Text
