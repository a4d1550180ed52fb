import TapeRing.CommandLine.Arguments

/-! # Usage texts

What the command line says when it is asked for help or given arguments it does not accept. -/

namespace TapeRing.CommandLine

/-- The help text. -/
def helpText : String :=
  "Run a tape program split round-robin across N processors\n\n"
    ++ "Usage: mbf-run [OPTIONS] [PROGRAM]\n\n"
    ++ "Arguments:\n"
    ++ "  [PROGRAM]  Path to the program source\n\n"
    ++ "Options:\n"
    ++ "  -e, --eval <EVAL>              Inline program source (instead of a file)\n"
    ++ "  -n, --processors <PROCESSORS>  Number of processors to partition the program across"
    ++ " [default: 1]\n"
    ++ "      --halt <HALT>              When the round-robin run stops"
    ++ " [default: first-finished] [possible values: first-finished, all-finished]\n"
    ++ "      --jump-table               Resolve brackets from a precomputed table instead of"
    ++ " scanning\n"
    ++ "      --dump-state <DUMP_STATE>  Write a JSON dump of every processor after the run\n"
    ++ "  -h, --help                     Print help\n"

/-- What is wrong with the arguments, in words. -/
def ArgumentFault.message : ArgumentFault → String
  | .unknownArgument => "an argument is not known"
  | .invalidValue => "a value is missing or not possible"
  | .valueValidation => "a value is not a number in range"
  | .argumentConflict => "an argument is given twice or excludes another one"
  | .tooManyValues => "a flag does not take a value"
  | .displayHelp => "help was asked for"

/-- What is written to standard output when the arguments do not lead to a run. -/
def ArgumentFault.stdout : ArgumentFault → String
  | .displayHelp => helpText
  | _ => ""

/-- The exit code of arguments that do not lead to a run. -/
def ArgumentFault.exitCode : ArgumentFault → Nat
  | .displayHelp => 0
  | _ => 2

end TapeRing.CommandLine
