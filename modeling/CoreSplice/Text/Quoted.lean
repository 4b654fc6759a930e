import CoreSplice.Text.Printable

/-!
# Text in quotes

A name that may hold anything is shown in quotes.  The quotes are single ones, unless the text
holds such and no double ones; a quote of the same form and a backslash stand behind a backslash,
and a character that cannot be shown is given by its number.

* `Quoted.escape` — one character.
* `Quoted.write` — a text.
-/

namespace CoreSplice.Text.Quoted

/-- The last `width` hexadecimal digits of a number. -/
def digits : Nat → Nat → List Char
  | 0, _ => []
  | width + 1, n => digits width (n / 16) ++ [(n % 16).digitChar]

/-- The quotes that a text is shown in. -/
def quoteOf (text : List Char) : Char :=
  if text.contains '\'' && !text.contains '"' then '"' else '\''

/-- One character as it stands between the quotes. -/
def escape (quote c : Char) : List Char :=
  if c = quote ∨ c = '\\' then ['\\', c]
  else if c = '\t' then ['\\', 't']
  else if c = '\n' then ['\\', 'n']
  else if c = '\r' then ['\\', 'r']
  else if isPrintable c then [c]
  else if c.toNat < 0x100 then '\\' :: 'x' :: digits 2 c.toNat
  else if c.toNat < 0x10000 then '\\' :: 'u' :: digits 4 c.toNat
  else '\\' :: 'U' :: digits 8 c.toNat

/-- The text in quotes. -/
def write (text : String) : String :=
  let quote := quoteOf text.toList
  String.ofList (quote :: text.toList.flatMap (escape quote) ++ [quote])

end CoreSplice.Text.Quoted
