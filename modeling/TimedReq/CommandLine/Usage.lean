import TimedReq.Text.Basic

/-!
# Help on the command line

The texts that tell how the program is called.
-/

namespace TimedReq.CommandLine

/-- How the program is called, in short. -/
def usage : Text :=
  ("usage: tctl [-h] (-s SPEC | -x EXPRESSION) [-l \x7bVHDL\x7d] [--format] [-w FILE]\n" ++
    "            [-o \x7bsilent,normal,verbose\x7d] [-d \x7b0,1,2,3\x7d] " ++
    "[--stats] [--version]\n").toList

/-- How the program is called, with a line or more on every switch. -/
def help : Text :=
  usage ++
    ("\nTCTL: parse and pretty-print Timed Computation Tree Logic requirements with\n" ++
      "embedded VHDL predicates\n" ++
      "\n" ++
      "options:\n" ++
      "  -h, --help            show this help message and exit\n" ++
      "  -s SPEC, --spec SPEC  Path to specification file (.tctl)\n" ++
      "  -x EXPRESSION, --expression EXPRESSION\n" ++
      "                        A single TCTL expression to check\n" ++
      "  -l \x7bVHDL\x7d, --language \x7bVHDL\x7d\n" ++
      "                        Embedded language of --expression predicates (default:\n" ++
      "                        VHDL)\n" ++
      "  --format              Print the canonical text of the parsed input\n" ++
      "  -w FILE, --write FILE\n" ++
      "                        Write the canonical text of the parsed input to FILE\n" ++
      "  -o \x7bsilent,normal,verbose\x7d, --output \x7bsilent,normal,verbose\x7d\n" ++
      "                        Output level (default: normal)\n" ++
      "  -d \x7b0,1,2,3\x7d, --debug \x7b0,1,2,3\x7d\n" ++
      "                        Debug level 0-3 (default: 0)\n" ++
      "  --stats               Print statistics after checking\n" ++
      "  --version             show program's version number and exit\n").toList

/-- The name and the version of the program. -/
def versionLine : Text := "tctl 0.1.0\n".toList

end TimedReq.CommandLine
