import CoreSplice.Command.Arguments
import CoreSplice.Command.Usage
import CoreSplice.Injection.Headers
import CoreSplice.Injection.Inject

/-!
# A run of the program

A run opens the core and the symbol map, injects the binary dumps and then the overrides that
belonged to none of them, and adjusts the headers of the core if all of that worked.

* `Command.run` — a run on named files.
* `Command.execute` — a run as the command line asks for it, with what it writes to its two
  streams of output.
-/

namespace CoreSplice.Command

/-! ## Named files -/

/-- What a run leads to. -/
structure Conclusion where
  disk : Disk
  registry : Registry
  attempts : List Attempt
  printed : List String
  notices : List Diagnostic
  /-- The exit status, or what ended the run. -/
  status : Except Abort Nat

/-- What a session leads to when the run ends with it. -/
def conclude (s : Session) (attempts : List Attempt) (status : Except Abort Nat) : Conclusion :=
  ⟨s.disk, s.registry, attempts, s.printed, s.notices, status⟩

/-- The injections of a run: the dumps, and then the overrides that belonged to none of them. -/
def injections (s : Session) (dumps : List String) : Session × List Attempt :=
  Session.continued (s.injectAll dumps) Session.injectPending

/-- What an open core and an open map lead to. -/
def work (s : Session) (dumps : List String) : Conclusion :=
  let (s, attempts) := injections s dumps
  match Attempt.status attempts with
  | .error abort => conclude s attempts (.error abort)
  | .ok false => conclude s attempts (.ok 1)
  | .ok true =>
    let (s, size) := s.adjustHeaders
    conclude s attempts (size.map fun _ => 0)

/-- The symbol map of a run.  One that is the core itself changes with it. -/
def mapSource (disk : Disk) (core map : Node) : MapSource :=
  if map = core then .file map else .lines (SymbolMap.ofContent (disk.content map))

/-- **A run on named files**, without faults and with the given memory for data.  The status is 0 if
everything was injected. -/
def run (disk : Disk) (core map : String) (dumps : List String) (overrides : Registry)
    (memory : Nat := usualMemory) : Conclusion :=
  let stop (notices : List Diagnostic) (status : Except Abort Nat) : Conclusion :=
    ⟨disk, overrides, [], [], notices, status⟩
  if !disk.reaches core then stop [.coreMissing core] (.ok 1)
  else
    match disk.resolveFile core with
    | .error error => stop [.coreNotOpened core error] (.ok 1)
    | .ok coreNode =>
      if Disk.isUnspeakable map then stop [] (.error (.unspeakableName map))
      else
        match disk.resolveFile map with
        | .error error => stop [.mapNotOpened map error] (.ok 1)
        | .ok mapNode =>
          let map := mapSource disk coreNode mapNode
          work { disk, core := coreNode, map, memory, registry := overrides } dumps

/-! ## The command line -/

/-- What a run writes and leaves. -/
structure Transcript where
  disk : Disk
  output : String
  errors : String
  status : Except Abort Nat

/-- The exit status.  It is 1 for a run that was ended early. -/
def Transcript.exitStatus (t : Transcript) : Nat :=
  match t.status with
  | .ok status => status
  | .error _ => 1

/-- What a run on named files writes, with its diagnostics in the given style. -/
def Conclusion.transcript (style : Diagnostic.Style) (c : Conclusion) : Transcript :=
  ⟨c.disk, String.join (c.printed.map (· ++ "\n")), Diagnostic.report style c.notices, c.status⟩

/-- The name of the program when it was called without one. -/
def defaultProgram : String := "coreinject"

/-- **The command line.**  The arguments start with the name of the program. -/
def execute (disk : Disk) (bareCommand : Bool) (arguments : List String) : Transcript :=
  let program := match arguments with
    | [] => defaultProgram
    | name :: _ => Path.lastComponent name
  let arguments := arguments.tail
  if Arguments.asksForHelp arguments then ⟨disk, usage program, "", .ok 0⟩
  else
    match Arguments.parse arguments with
    | .error (.usage _) => ⟨disk, "", usage program, .ok 1⟩
    | .error (.option (.tooManyDigits _)) => ⟨disk, "", "", .error .tooManyDigits⟩
    | .error (.option error) =>
      ⟨disk, "", Diagnostic.report { bareCommand } [.optionRefused error], .ok 1⟩
    | .ok a =>
      (run disk a.core a.map a.dumps a.overrides).transcript { verbose := a.verbose, bareCommand }

end CoreSplice.Command
