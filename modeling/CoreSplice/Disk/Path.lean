/-!
# Names of files

A name is a list of steps from a directory to the file, separated by slashes.  A slash at its end
asks for a directory, which is the same as one more step that stays where it is.

* `Path.steps` — the steps of a name.
* `Path.lastComponent` — what follows the last slash: the ident that a binary dump is for.
-/

namespace CoreSplice.Path

/-- The text cut at each slash.  There is one part more than there are slashes. -/
def parts : List Char → List (List Char)
  | [] => [[]]
  | c :: cs =>
    if c = '/' then [] :: parts cs
    else
      match parts cs with
      | [] => [[c]]
      | first :: rest => (c :: first) :: rest

/-- Whether a name starts at the root of the file system. -/
def isAbsolute (name : String) : Bool :=
  name.toList.head? = some '/'

/-- The steps of a name.  Slashes in a row count as one. -/
def steps (name : String) : List String :=
  let parts := parts name.toList
  let named := (parts.filter (· ≠ [])).map String.ofList
  if parts.getLast? = some [] ∧ named ≠ [] then named ++ ["."] else named

/-- What follows the last slash of a name. -/
def lastComponent (name : String) : String :=
  String.ofList (name.toList.reverse.takeWhile (· ≠ '/')).reverse

/-- A name without a slash is its own last component. -/
theorem lastComponent_eq_self {name : String} (h : '/' ∉ name.toList) :
    lastComponent name = name := by
  have take (text : List Char) (h : '/' ∉ text) : text.takeWhile (· ≠ '/') = text := by
    induction text with
    | nil => rfl
    | cons c cs ih =>
      simp only [List.mem_cons, not_or] at h
      simpa [List.takeWhile, Ne.symm h.1] using ih h.2
  rw [lastComponent, take _ (by simpa using h), List.reverse_reverse, String.ofList_toList]

end CoreSplice.Path
