/-!
# Lines

A file may end its lines with a line feed, a carriage return, or both in this order; a text in
memory ends them with a line feed alone.

* `unifyLineEnds` — every line end as a line feed.
* `lines` — the lines of a text without their line feeds.  Nothing after the last line feed is no
  line.
* `trimLineEnd` — a line without the carriage returns and line feeds at its end.
-/

namespace CoreSplice.Text

/-- The text with every line end written as a line feed. -/
def unifyLineEnds : List Char → List Char
  | [] => []
  | '\r' :: '\n' :: cs => '\n' :: unifyLineEnds cs
  | '\r' :: cs => '\n' :: unifyLineEnds cs
  | c :: cs => c :: unifyLineEnds cs

/-- The lines of a text, without their line feeds. -/
def lines : List Char → List (List Char)
  | [] => []
  | c :: cs =>
    if c = '\n' then [] :: lines cs
    else
      match lines cs with
      | [] => [[c]]
      | line :: rest => (c :: line) :: rest

/-- Whether a character may close a line. -/
def isLineEnd (c : Char) : Bool := c = '\r' ∨ c = '\n'

/-- The line without the line ends that close it. -/
def trimLineEnd (line : List Char) : List Char :=
  (line.reverse.dropWhile isLineEnd).reverse

/-- A line feed closes a line. -/
theorem lines_lineFeed (cs : List Char) : lines ('\n' :: cs) = [] :: lines cs := by
  simp [lines]

end CoreSplice.Text
