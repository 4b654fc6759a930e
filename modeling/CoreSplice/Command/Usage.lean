/-!
# The usage text

* `Command.usage` — what the command line accepts, for a program of a given name.
-/

namespace CoreSplice.Command

/-- What the command line accepts. -/
def usage (program : String) : String :=
  String.join <| List.map (· ++ "\n")
    ["usage: " ++ program ++ " <options> <core> <symbol.map> [binary-dump]...",
     "",
     "Available options:",
     "  --data=<ident>:<bytecount>@<source-file>+<source-offset>",
     "        Inject <bytecount> bytes of data at offset <source-offset>",
     "        of file <source-file> to the core. The data is injected to",
     "        the position of the <ident> stored in the symbol map.",
     "  -v, --verbose",
     "        Print debug messages.",
     "  -h, --help",
     "        Show this help and exit."]

end CoreSplice.Command
