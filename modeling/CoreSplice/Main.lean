import CoreSplice.Command.Run
import CoreSplice.Disk.Snapshot

/-!
# The program

The files that the arguments name are read, the run is made on what was found, and files whose
content it changed are written back.
-/

namespace CoreSplice.Program

/-- The cause of a failed operation on a file. -/
def systemError (e : IO.Error) : SystemError :=
  match e with
  | .noFileOrDirectory _ code _ | .permissionDenied _ code _ | .inappropriateType _ code _
  | .invalidArgument _ code _ | .resourceExhausted _ code _ | .noSuchThing _ code _
  | .resourceBusy code _ | .hardwareFault code _ | .otherError code _ => .numbered code.toNat
  | e => .described e.toString

/-- What stands under a name.  Nothing is said of a name that leads nowhere. -/
def find? (name : String) (writable : Bool) : IO (Option Disk.Finding) := do
  try
    let handle ← IO.FS.Handle.mk name (if writable then .readWrite else .read)
    let content ← handle.readBinToEnd
    return some (.file content.toList)
  catch e =>
    match systemError e with
    | .numbered 2 | .numbered 20 => return none
    | .numbered 21 => return some .directory
    | error => return some (.blocked error)

/-- The disk with the files of the given names.  Devices are known without being read. -/
def load (disk : Disk) (core : String) : List String → IO Disk
  | [] => return disk
  | name :: names => do
    if Disk.isUnspeakable name ∨ (Disk.device? (disk.placeOf name)).isSome then
      load disk core names
    else
      match ← find? name (name == core) with
      | none => load disk core names
      | some finding => load (disk.install name finding) core names

/-- Writes back the files whose content was changed. -/
def save (before after : Disk) : List String → IO Unit
  | [] => return ()
  | name :: names => do
    let node := Node.file (before.placeOf name)
    if after.content node ≠ before.content node then
      IO.FS.writeBinFile name ⟨(after.content node).toArray⟩
    save before after names

/-- Runs the program on the files that the arguments name. -/
def run (arguments : List String) : IO UInt32 := do
  let here := (← IO.currentDir).toString
  let home := Path.steps here
  let empty : Disk := { home, directories := [], files := [] }
  let (disk, names) ←
    match Command.Arguments.parse arguments with
    | .ok a => pure (← load empty a.core a.names, a.names)
    | .error _ => pure (empty, [])
  let transcript := Command.execute disk false (Command.defaultProgram :: arguments)
  save disk transcript.disk names
  (← IO.getStdout).putStr transcript.output
  (← IO.getStderr).putStr transcript.errors
  return transcript.exitStatus.toUInt32

end CoreSplice.Program

/-- The program. -/
def main (arguments : List String) : IO UInt32 :=
  CoreSplice.Program.run arguments
