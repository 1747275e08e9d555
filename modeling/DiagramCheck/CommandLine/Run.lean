/-
# Runs

A run checks the inputs of a command line one by one, in order, each by itself:
one that is wrong or cannot be read does not stop the others. The input `-` is
standard input, which can be read once; after that it is empty.

The settings come from the configuration, and a target version on the command
line takes the place of the one there. Without settings nothing is run.
-/

import DiagramCheck.CommandLine.Arguments
import DiagramCheck.Document.Verdict
import DiagramCheck.Validation.Configuration

namespace DiagramCheck.CommandLine

/-! ## Inputs -/

/-- What came of one input. -/
inductive Finding
  | unreadable (reason : AccessError)
  /-- The text is what is shown of the bytes, sound or not. -/
  | judged (text : String) (verdict : Verdict)
  deriving Repr

/-- An input with what came of it. -/
structure Check where
  input : String
  finding : Finding
  deriving Repr

namespace Check

/-- The check of an input with its bytes. -/
def ofAccess (settings : Settings) (input : String) (access : Access) : Check :=
  match access with
  | .ok bytes =>
    ⟨input, .judged (Text.Utf8.decodeLossy bytes) (settings.validateBytes (some bytes))⟩
  | .error reason => ⟨input, .unreadable reason⟩

/-- A check fails when the input cannot be read or is not valid. -/
def failed (check : Check) : Bool :=
  match check.finding with
  | .unreadable _ => true
  | .judged _ verdict => !verdict.isValid

/-- The failure to read an input. -/
def failure (check : Check) (reason : AccessError) : Failure :=
  .unreadable check.input reason.message

/-- A check as a document. -/
def document (check : Check) : Document :=
  .record (("input", .text check.input) ::
    match check.finding with
    | .unreadable reason => [("error", .text (check.failure reason).message)]
    | .judged _ verdict => verdict.fields)

/-- A check as text. -/
def render (check : Check) : String :=
  match check.finding with
  | .unreadable reason => (Report.ofFailure (check.failure reason)).render
  | .judged text verdict =>
    if verdict.isValid then s!"{check.input}: ok ({verdict.type.tag})\n"
    else
      let count := Nat.repr verdict.diagnostics.length
      s!"{check.input}: {count} problem(s) in {verdict.type.tag} diagram\n" ++
        String.join ((verdict.reports text).map Report.render)

end Check

/-- The name of the input that is standard input. -/
def standardInputName : String := "-"

/-- What inputs give; `left` is what is left of standard input. -/
def readInputs (surroundings : Surroundings) :
    (left : List UInt8) → List String → List (String × Access)
  | _, [] => []
  | left, input :: rest =>
    if input = standardInputName then (input, .ok left) :: readInputs surroundings [] rest
    else (input, surroundings.read input) :: readInputs surroundings left rest

/-! ## Runs -/

/-- The checks of a command line and how they are shown. -/
structure Run where
  format : Format
  checks : List Check
  deriving Repr

namespace Run

/-- The number of inputs. -/
def checked (run : Run) : Nat := run.checks.length

/-- The number of inputs that failed. -/
def failed (run : Run) : Nat := run.checks.countP Check.failed

/-- A run succeeds when no input failed. -/
def isSuccess (run : Run) : Bool := run.failed == 0

/-- The documents of a run, one for each input in order. -/
def documents (run : Run) : List Document := run.checks.map Check.document

/-- What a run prints. -/
def output (run : Run) : String :=
  match run.format with
  | .json => String.join (run.documents.map fun document => document.render ++ "\n")
  | .text =>
    String.join (run.checks.map Check.render) ++
      s!"{Nat.repr run.checked} checked, {Nat.repr run.failed} failed\n"

/-- The run of some inputs under some settings. -/
def ofInputs (format : Format) (settings : Settings) (inputs : List (String × Access)) : Run :=
  ⟨format, inputs.map fun (input, access) => Check.ofAccess settings input access⟩

end Run

/-- The settings that a command line asks for. -/
def Arguments.settings (arguments : Arguments) (surroundings : Surroundings) :
    Except Failure Settings := do
  match Settings.load surroundings arguments.config with
  | .error problem => .error problem.toFailure
  | .ok settings =>
    return { settings with
      targetVersion := arguments.targetVersion.orElse fun _ => settings.targetVersion }

/-- Carries out a command line. -/
def Arguments.run (arguments : Arguments) (surroundings : Surroundings) : Except Failure Run := do
  let settings ← arguments.settings surroundings
  return .ofInputs arguments.format settings
    (readInputs surroundings surroundings.standardInput arguments.inputs)

end DiagramCheck.CommandLine
