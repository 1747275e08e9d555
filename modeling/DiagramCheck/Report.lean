/-
# Reports

A report is what a person is shown: a headline, a code, perhaps help, and the
place in the source that it is about. Diagnostics and failures are both shown
as reports, but only diagnostics have a source, and only one that is not empty
is shown.

A failure is something that went wrong around a check and not in a diagram: an
input could not be read, or something else could not.
-/

import DiagramCheck.Validation.Compatibility

namespace DiagramCheck

/-- Something that went wrong around a check, with its cause in words. -/
inductive Failure
  | io (cause : String)
  | unreadable (path cause : String)
  deriving DecidableEq, Repr

namespace Failure

/-- What made something fail. -/
def cause : Failure → String
  | .io cause => cause
  | .unreadable _ cause => cause

/-- The wording of a failure. -/
def message : Failure → String
  | .io cause => s!"I/O error: {cause}"
  | .unreadable path cause => s!"failed to read `{path}`: {cause}"

/-- The code of a failure. -/
def code : Failure → String
  | .io _ => "astrolabe::io"
  | .unreadable _ _ => "astrolabe::read"

end Failure

/-- A place of the source with what is said about it. -/
structure Mark where
  text : String
  span : Span
  deriving DecidableEq, Repr

/-- What a person is shown. -/
structure Report where
  headline : String
  code : String
  help : Option String
  /-- The places the report is about; absent when there is no source to show. -/
  marks : Option (List Mark)
  cause : Option String
  deriving DecidableEq, Repr

namespace Report

/-- The place of a diagnostic within a source. -/
def markOf (source : String) (diagnostic : Diagnostic) : Mark :=
  ⟨diagnostic.code.description, diagnostic.span.clamp source.utf8ByteSize⟩

/-- A diagnostic shown with its source. -/
def ofDiagnostic (source : String) (diagnostic : Diagnostic) : Report where
  headline := s!"{diagnostic.line}:{diagnostic.column}: {diagnostic.message}"
  code := diagnostic.code.tag
  help := diagnostic.suggestion
  marks := if source.isEmpty then none else some [markOf source diagnostic]
  cause := none

/-- A failure shown to a person. -/
def ofFailure (failure : Failure) : Report where
  headline := failure.message
  code := failure.code
  help := none
  marks := none
  cause := some failure.cause

/-- A text with every line moved to the right by some blanks. -/
def indent (width : Nat) (text : String) : String :=
  let margin := List.replicate width ' '
  String.ofList (margin ++ text.toList.flatMap fun c => if c = '\n' then c :: margin else [c])

/-- A report as text: the code on a line of its own and the rest indented below it. -/
def render (report : Report) : String :=
  let help := (report.help.map fun text => indent 4 s!"help: {text}" ++ "\n").getD ""
  report.code ++ "\n" ++ indent 2 report.headline ++ "\n" ++ help ++ "\n"

/-- The mark of a report on a diagnostic lies within the source. -/
theorem markOf_stop_le (source : String) (diagnostic : Diagnostic) :
    (markOf source diagnostic).span.stop ≤ source.utf8ByteSize :=
  Span.clamp_stop_le ..

end Report

/-- The reports of a verdict, one for each diagnostic in order. -/
def Verdict.reports (verdict : Verdict) (source : String) : List Report :=
  verdict.diagnostics.map (Report.ofDiagnostic source)

end DiagramCheck
