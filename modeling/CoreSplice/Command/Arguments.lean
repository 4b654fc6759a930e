import CoreSplice.Override.Registry

/-!
# The arguments of the command line

Options come first: the arguments that start with a dash, up to the first that does not.  They are
the switch for verbose reports and overrides.  A core, a symbol map and any number of binary dumps
follow, whatever they start with.

* `Arguments` — what the arguments say, read by `Arguments.parse`.
* `ArgumentError` — why they say nothing.
* `Arguments.asksForHelp` — whether an option asks for the usage text, which goes before
  everything else.
* `Arguments.names` — the files that may be opened.
-/

namespace CoreSplice.Command

/-- Why the arguments do not name the files to work on. -/
inductive UsageError where
  | tooFewArguments
  | filesMissing
  deriving DecidableEq, Repr

/-- The text of the error. -/
def UsageError.message : UsageError → String
  | tooFewArguments => "too few arguments"
  | filesMissing => "a core file and a symbol map are required"

/-- Why the arguments cannot be acted on: their number, or one of the options. -/
inductive ArgumentError where
  | usage (error : UsageError)
  | option (error : OptionError)
  deriving DecidableEq, Repr

/-- What the arguments say. -/
structure Arguments where
  overrides : Registry
  verbose : Bool
  core : String
  map : String
  dumps : List String
  deriving DecidableEq, Repr

namespace Arguments

/-- Whether an argument is an option where options may stand. -/
def isOption (argument : String) : Bool :=
  argument.toList.head? = some '-'

/-- The options: all arguments up to the first that is none. -/
def options (arguments : List String) : List String :=
  arguments.takeWhile isOption

/-- Whether an option asks for the usage text. -/
def asksForHelp (arguments : List String) : Bool :=
  (options arguments).any fun argument => argument = "-h" ∨ argument = "--help"

/-- Whether an option is the switch for verbose reports. -/
def isVerbose (argument : String) : Bool :=
  argument = "-v" ∨ argument = "--verbose"

/-- The overrides of the options, behind those in `registry`. -/
def readOverrides (registry : Registry) : List String → Except OptionError Registry
  | [] => .ok registry
  | argument :: arguments =>
    if isVerbose argument then readOverrides registry arguments
    else
      match Override.parse argument with
      | .error e => .error e
      | .ok o => readOverrides (registry.add o) arguments

/-- What the arguments say, the name of the program not being one of them. -/
def parse (arguments : List String) : Except ArgumentError Arguments :=
  if arguments.length < 3 then .error (.usage .tooFewArguments)
  else
    match readOverrides [] (options arguments) with
    | .error e => .error (.option e)
    | .ok overrides =>
      match arguments.dropWhile isOption with
      | core :: map :: dumps =>
        .ok ⟨overrides, (options arguments).any isVerbose, core, map, dumps⟩
      | _ => .error (.usage .filesMissing)

/-- The names of the files that a run with these arguments may open. -/
def names (a : Arguments) : List String :=
  a.core :: a.map :: a.dumps ++ a.overrides.flatMap fun o => [o.source, o.ident]

end Arguments

end CoreSplice.Command
