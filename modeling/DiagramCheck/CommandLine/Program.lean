/-
# The program

The program as a function: words and surroundings give what is printed and the
exit status. The status is 0 when every input is valid, 1 when one is not or
nothing could be run, and 2 when the command line is refused. Whoever asks for
help or the version gets it, with status 0.
-/

import DiagramCheck.CommandLine.Run

namespace DiagramCheck.CommandLine

/-- What the program leaves behind. -/
structure Transcript where
  exit : Nat
  output : String
  /-- What goes to the error stream. -/
  complaint : String
  deriving DecidableEq, Repr

/-- The name of the program and its version. -/
def versionText : String := "astrolabe-cli 0.1.0"

/-- How the program is used. -/
def helpText : String :=
  "Usage: astrolabe-cli [OPTIONS] <INPUTS>...\n\n" ++
    "  <INPUTS>...                 Paths to the input files, or - for stdin\n" ++
    "  -f, --format <FORMAT>       How to print the results: text or json\n" ++
    "  -c, --config <CONFIG>       Path to configuration file (TOML)\n" ++
    "      --target-version <V>    Renderer version the diagrams must be compatible with\n" ++
    "      --log-level <LEVEL>     Log level (off, error, warn, info, debug, trace)\n" ++
    "  -h, --help                  Print help\n" ++
    "  -V, --version               Print version"

/-- The name of an option. -/
def Setting.name : Setting → String
  | .format => "--format"
  | .config => "--config"
  | .targetVersion => "--target-version"
  | .logLevel => "--log-level"

/-- The name of a flag. -/
def Flag.name : Flag → String
  | .help => "--help"
  | .version => "--version"

namespace Refusal

/-- Whether a refusal only answers a question. -/
def isAnswer : Refusal → Bool
  | .asked _ => true
  | _ => false

/-- The wording of a refusal. -/
def message : Refusal → String
  | .asked .help => helpText
  | .asked .version => versionText
  | .missingInputs => "error: no inputs were given"
  | .invalidValue setting => s!"error: invalid value for {setting.name}"
  | .unknownWord text => s!"error: unexpected argument {text}"
  | .repeatedSetting setting => s!"error: {setting.name} was given twice"
  | .valueForFlag flag => s!"error: {flag.name} takes no value"

/-- What the program leaves behind after a refusal. -/
def transcript (refusal : Refusal) : Transcript :=
  if refusal.isAnswer then ⟨0, refusal.message ++ "\n", ""⟩
  else ⟨2, "", refusal.message ++ "\n"⟩

end Refusal

/-- What the program leaves behind after a run. -/
def Run.transcript (run : Run) : Transcript :=
  ⟨if run.isSuccess then 0 else 1, run.output, ""⟩

/-- What the program does with some words. -/
def perform (surroundings : Surroundings) (words : List String) : Transcript :=
  match Arguments.parse words with
  | .error refusal => refusal.transcript
  | .ok arguments =>
    match arguments.run surroundings with
    | .error failure => ⟨1, "", (Report.ofFailure failure).render⟩
    | .ok run => run.transcript

end DiagramCheck.CommandLine
