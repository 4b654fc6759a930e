import CoreSplice.Elf.Failure
import CoreSplice.Injection.Failure
import CoreSplice.Ledger
import CoreSplice.Override.Basic

/-!
# Diagnostics

Everything that a run tells its user beside its results is a diagnostic.  A diagnostic is what
happened; its level, the place that it is reported from and its text follow from that.  One that
holds a number with too many digits to be written has no text, and is passed over.

* `Diagnostic` — what may happen.
* `Diagnostic.level`, `Diagnostic.origin`, `Diagnostic.message?` — how it is reported.
* `Diagnostic.report` — the diagnostics as text in a given style.
-/

namespace CoreSplice

/-- How important a diagnostic is. -/
inductive Level where
  | debug
  | info
  | warning
  | error
  deriving DecidableEq, Repr

namespace Level

/-- The place of the level in the order of importance. -/
def rank : Level → Nat
  | debug => 0
  | info => 1
  | warning => 2
  | error => 3

/-- How the level is called. -/
def name : Level → String
  | debug => "DEBUG"
  | info => "INFO"
  | warning => "WARNING"
  | error => "ERROR"

end Level

/-- What a run reports. -/
inductive Diagnostic where
  | invalidLine (number : Nat)
  | unknownKind (kind : Char) (ident : String) (number : Nat)
  | registered (override : Override)
  | applied (override : Override) (ident : String)
  | noData (ident : String)
  /-- How the user can supply the data that its source did not hold. -/
  | advice (ident : String) (size : Int)
  | failed (failure : Failure)
  | loadsRead (count : Nat)
  | noSegment (region : Region)
  | segmentExtended (index before after : Int)
  | coreGrown (before after : Int)
  | headersLeft (why : Elf.Malformation)
  | headersUpdated (regions : Nat) (coreSize : Int)
  | coreMissing (name : String)
  | coreNotOpened (name : String) (error : SystemError)
  | mapNotOpened (name : String) (error : SystemError)
  | optionRefused (error : OptionError)
  deriving DecidableEq, Repr

namespace Diagnostic

/-- The level that the diagnostic is reported with. -/
def level : Diagnostic → Level
  | invalidLine _ | unknownKind .. | registered _ | loadsRead _ | segmentExtended ..
  | coreGrown .. => .debug
  | applied .. | noData _ | headersUpdated .. => .info
  | advice .. | noSegment _ | headersLeft _ => .warning
  | failed _ | coreMissing _ | coreNotOpened .. | mapNotOpened .. | optionRefused _ => .error

/-- The place that the diagnostic is reported from. -/
def origin : Diagnostic → String
  | invalidLine _ | unknownKind .. => "symmap.lookup"
  | registered _ => "options.add"
  | applied .. => "options.apply"
  | noData _ => "coreinject.inject"
  | advice .. => "coreinject.write_core"
  | failed _ => "coreinject._try_write"
  | loadsRead _ => "phdrs._init_loads"
  | noSegment _ | segmentExtended .. | coreGrown .. => "phdrs.add_region"
  | headersLeft _ | headersUpdated .. => "phdrs.update_phdrs"
  | coreMissing _ | coreNotOpened .. | mapNotOpened .. => "main.run"
  | optionRefused _ => "main.main"

/-- Whether the diagnostic is reported by the command line itself. -/
def isOfCommand : Diagnostic → Bool
  | coreMissing _ | coreNotOpened .. | mapNotOpened .. | optionRefused _ => true
  | _ => false

/-- The option that supplies data for an ident, with the source left to be filled in. -/
def adviceOption (ident : String) (size : Int) : String :=
  Override.option ident (Text.Decimal.write size) "<filename>" "<offset>"

/-- The text of the diagnostic, unless a number in it has too many digits to be written. -/
def message? : Diagnostic → Option String
  | invalidLine number =>
    let number := Text.Decimal.write number
    some s!"ignoring invalid line {number} in symbol map"
  | unknownKind kind ident number =>
    let number := Text.Decimal.write number
    some s!"ignoring unknown kind '{kind}' for {ident} on line {number}"
  | registered override => override.write?.map fun option => s!"registered {option}"
  | applied override ident => override.write?.map fun option => s!"using {option} for {ident}"
  | noData ident => some s!"no data for ident {ident} in symbol map"
  | advice ident size =>
    let option := adviceOption ident size
    some s!"specify the data source for {ident} with: {option}"
  | failed failure => some failure.message
  | loadsRead count =>
    let count := Text.Decimal.write count
    some s!"Copied {count} PT_LOAD program headers"
  | noSegment region =>
    let first := Text.Hexadecimal.write region.address
    let last := Text.Hexadecimal.write (region.address + region.size)
    some s!"no PT_LOAD segment contains 0x{first}-0x{last}"
  | segmentExtended index before after =>
    let before := Text.Hexadecimal.write before
    let after := Text.Hexadecimal.write after
    (Text.Decimal.write? index).map fun index =>
      s!"extending segment {index} file size 0x{before} -> 0x{after}"
  | coreGrown before after =>
    let before := Text.Hexadecimal.write before
    let after := Text.Hexadecimal.write after
    some s!"growing core 0x{before} -> 0x{after}"
  | headersLeft why => some ("not updating program headers: " ++ why.message)
  | headersUpdated regions coreSize =>
    let regions := Text.Decimal.write regions
    let coreSize := Text.Hexadecimal.write coreSize
    some s!"updated program headers for {regions} regions, core size 0x{coreSize}"
  | coreMissing name => some s!"failed to stat {name} (no such file)"
  | coreNotOpened name error => some s!"failed to open {name} for writing ({error.reason})"
  | mapNotOpened name error => some s!"failed to open {name} ({error.reason})"
  | optionRefused error => some error.message

/-- How diagnostics are written. -/
structure Style where
  /-- Whether everything is shown, or warnings and errors alone. -/
  verbose : Bool := false
  /-- Whether what the command line itself reports is shown without level and origin. -/
  bareCommand : Bool := false
  deriving DecidableEq, Repr

/-- The line of a diagnostic with the given text. -/
def line (style : Style) (d : Diagnostic) (message : String) : String :=
  if style.bareCommand && d.isOfCommand then message ++ "\n"
  else d.level.name ++ "   " ++ d.origin ++ " :: " ++ message ++ "\n"

/-- Whether the diagnostic is important enough to be shown. -/
def isShown (style : Style) (d : Diagnostic) : Bool :=
  style.verbose || Level.warning.rank ≤ d.level.rank

/-- The line of a diagnostic, if it is shown and has a text. -/
def line? (style : Style) (d : Diagnostic) : Option String :=
  if d.isShown style then d.message?.map (d.line style) else none

/-- The diagnostics as text, one line for each that is shown and has a text. -/
def report (style : Style) (diagnostics : List Diagnostic) : String :=
  String.join (diagnostics.filterMap (line? style))

end Diagnostic

end CoreSplice
