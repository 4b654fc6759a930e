import CoreSplice.Disk.SystemError
import CoreSplice.Text.Hexadecimal

/-!
# Why a piece of data did not reach the core

A piece of data goes through a fixed row of stages: its source is opened, the core and the source
are put to their positions, room is made for the data, the data is read, and it is written.  The
first stage that fails gives the failure.

* `Failure` — one constructor for each kind of stage.
* `Failure.ident`, `Failure.message` — the ident of the data, and the text of the failure.
-/

namespace CoreSplice

/-- Which file could not be put to a position. -/
inductive PositionedFile where
  | core
  | source
  deriving DecidableEq, Repr

/-- Why a file could not be put to a position. -/
inductive SeekProblem where
  | system (error : SystemError)
  /-- The position is beyond what an offset of the core can be. -/
  | beyondCoreOffsets
  /-- The position is beyond what an offset of a source can be. -/
  | beyondSourceOffsets
  | closed
  deriving DecidableEq, Repr

/-- Why a read or a write did not do all of its work. -/
inductive TransferProblem where
  | system (error : SystemError)
  | partly (count : Nat)
  deriving DecidableEq, Repr

/-- Why a piece of data did not reach the core. -/
inductive Failure where
  | sourceNotOpened (ident source : String) (error : SystemError)
  | notPositioned (ident : String) (file : PositionedFile) (position : Int)
      (problem : SeekProblem)
  | noRoom (ident : String) (size : Int)
  | shortRead (ident source : String) (size : Int) (problem : TransferProblem)
  | shortWrite (ident : String) (size : Int) (problem : TransferProblem)
  deriving DecidableEq, Repr

namespace SeekProblem

/-- The text of the problem. -/
def text : SeekProblem → String
  | system error => error.full
  | beyondCoreOffsets => "Python int too large to convert to C long"
  | beyondSourceOffsets => "cannot fit 'int' into an offset-sized integer"
  | closed => "I/O operation on closed file"

end SeekProblem

namespace TransferProblem

/-- The text of the problem, where `verb` says what was done to the bytes. -/
def text (verb : String) : TransferProblem → String
  | system error => error.reason
  | partly count => verb ++ " " ++ Text.Decimal.write count

end TransferProblem

namespace Failure

/-- The ident of the data that failed. -/
def ident : Failure → String
  | sourceNotOpened ident .. | notPositioned ident .. | noRoom ident _ | shortRead ident ..
  | shortWrite ident .. => ident

/-- The text of the failure. -/
def message : Failure → String
  | sourceNotOpened ident source error =>
    s!"failed to open {source} for ident {ident} ({error.reason})"
  | notPositioned ident file position problem =>
    let file := match file with
      | .core => "core"
      | .source => "dump"
    let position := Text.Hexadecimal.write position
    let reason := problem.text
    s!"failed to seek to position 0x{position} for ident {ident} in {file} ({reason})"
  | noRoom _ size =>
    let size := Text.Decimal.write size
    s!"out of memory allocating {size} bytes"
  | shortRead ident source size problem =>
    let size := Text.Decimal.write size
    let reason := problem.text "got"
    s!"failed to read {size} bytes from dump {source} for ident {ident} ({reason})"
  | shortWrite ident size problem =>
    let size := Text.Decimal.write size
    let reason := problem.text "wrote"
    s!"failed to write {size} bytes to core for ident {ident} ({reason})"

end Failure

end CoreSplice
