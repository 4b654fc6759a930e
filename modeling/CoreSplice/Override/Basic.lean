import CoreSplice.Placement
import CoreSplice.Text.Cut
import CoreSplice.Text.Decimal

/-!
# Overrides

An override replaces the source of the direct data of an ident.  It is given as an option

    --data=<ident>:<bytecount>@<source-file>+<source-offset>

whose ident ends at the first colon and whose file name ends at the first plus sign; both numbers
are strings of ASCII digits, and one line feed may follow the last of them.

* `Override.parse` — the override of an option, or why there is none (`OptionError`).
* `Override.write?` — the option of an override.
* `Override.redirect` — a placement with its source replaced.
-/

namespace CoreSplice

/-- Data that the user supplies for an ident. -/
structure Override where
  ident : String
  size : Int
  source : String
  offset : Int
  /-- Whether the override was applied.  It is applied once at most. -/
  consumed : Bool := false
  deriving DecidableEq, Repr

/-- Why an argument gives no override. -/
inductive OptionError where
  | unknown (argument : String)
  | malformed (argument : String)
  | tooManyDigits (argument : String)
  deriving DecidableEq, Repr

namespace OptionError

/-- The argument that was refused. -/
def argument : OptionError → String
  | unknown argument | malformed argument | tooManyDigits argument => argument

/-- The text of the error. -/
def message : OptionError → String
  | unknown argument => s!"unknown option: {argument}"
  | malformed argument => s!"invalid --data syntax: {argument}"
  | tooManyDigits argument => s!"too many digits: {argument}"

end OptionError

namespace Override

/-! ## Reading an option -/

/-- What follows the name of the option. -/
def afterMark? : List Char → Option (List Char)
  | '-' :: '-' :: 'd' :: 'a' :: 't' :: 'a' :: '=' :: rest => some rest
  | _ => none

/-- Whether a text is a numeral: digits of ASCII, and at least one. -/
def isNumeral (text : List Char) : Bool :=
  text ≠ [] ∧ text.all Char.isDigit

/-- The text without the one line feed that may close it. -/
def dropLineFeed (text : List Char) : List Char :=
  match text.reverse with
  | '\n' :: rest => rest.reverse
  | _ => text

/-- The four fields of an option: ident, size, file name and offset. -/
def fields? (text : List Char) : Option (List Char × List Char × List Char × List Char) := do
  let (ident, rest) ← Text.cut? ':' text
  let (size, rest) ← Text.cut? '@' rest
  let (source, rest) ← Text.cut? '+' rest
  let offset := dropLineFeed rest
  if ident ≠ [] ∧ isNumeral size ∧ source ≠ [] ∧ isNumeral offset then
    some (ident, size, source, offset)
  else none

/-- The override that an argument gives, or why it gives none. -/
def parse (argument : String) : Except OptionError Override :=
  match afterMark? argument.toList with
  | none => .error (.unknown argument)
  | some text =>
    match fields? text with
    | none => .error (.malformed argument)
    | some (ident, size, source, offset) =>
      match Text.Decimal.read? size, Text.Decimal.read? offset with
      | some size, some offset =>
        .ok ⟨String.ofList ident, size, String.ofList source, offset, false⟩
      | _, _ => .error (.tooManyDigits argument)

/-! ## Writing an option -/

/-- The option with the given fields. -/
def option (ident size source offset : String) : String :=
  "--data=" ++ ident ++ ":" ++ size ++ "@" ++ source ++ "+" ++ offset

/-- The option that gives the override, unless a number has too many digits to be written. -/
def write? (o : Override) : Option String := do
  let size ← Text.Decimal.write? o.size
  let offset ← Text.Decimal.write? o.offset
  return option o.ident size o.source offset

/-! ## Use -/

/-- Whether the override is still to be applied to an ident. -/
def isPendingFor (ident : String) (o : Override) : Bool :=
  !o.consumed && o.ident == ident

/-- The placement with its data taken from the override.  Its target stays as it is. -/
def redirect (o : Override) (p : Placement) : Placement :=
  { p with size := o.size, sourceOffset := o.offset, source := some o.source }

/-- The override after it was applied. -/
def consume (o : Override) : Override :=
  { o with consumed := true }

end Override

end CoreSplice
