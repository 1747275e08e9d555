/-
# Verdicts

A verdict is what checking a source comes to: the diagnostics, and the first
diagram of the source if the source was read at all. Nothing else is stored. A
source is valid when there is nothing to report, and the type of a verdict is
that of its diagram, so neither can contradict what it is derived from.
Diagnostics may be added later, after those of the source; they change neither
the diagram nor the type.

A source with nothing but blanks is rejected unread. Any other is read: the
rules for comments, strings and directives look at all of its tokens, then the
grammars read the significant ones, diagram after diagram. What all of them
find is shown in source order, and the first diagram is the diagram of the
verdict.

Bytes are checked as the text they encode. Without input, or when the bytes
are not UTF-8, there is no text and the input is rejected.
-/

import DiagramCheck.Diagram.Basic

namespace DiagramCheck

/-- What checking a source comes to. -/
structure Verdict where
  diagnostics : List Diagnostic
  diagram? : Option Diagram
  deriving Repr

namespace Verdict

/-- A source is valid when there is nothing to report. -/
def isValid (verdict : Verdict) : Bool := verdict.diagnostics.isEmpty

/-- The type of the diagram, unknown when nothing was read. -/
def type (verdict : Verdict) : DiagramType := (verdict.diagram?.map Diagram.type).getD .unknown

/-- The verdict on an input that is never read. -/
def rejected (problem : Problem) : Verdict := ⟨[.unplaced problem], none⟩

/-- A verdict with one more diagnostic after the others. -/
def push (verdict : Verdict) (diagnostic : Diagnostic) : Verdict :=
  { verdict with diagnostics := verdict.diagnostics ++ [diagnostic] }

theorem isValid_iff (verdict : Verdict) : verdict.isValid = true ↔ verdict.diagnostics = [] :=
  List.isEmpty_iff

@[simp] theorem diagnostics_push (verdict : Verdict) (diagnostic : Diagnostic) :
    (verdict.push diagnostic).diagnostics = verdict.diagnostics ++ [diagnostic] := rfl

@[simp] theorem diagram?_push (verdict : Verdict) (diagnostic : Diagnostic) :
    (verdict.push diagnostic).diagram? = verdict.diagram? := rfl

@[simp] theorem type_push (verdict : Verdict) (diagnostic : Diagnostic) :
    (verdict.push diagnostic).type = verdict.type := rfl

end Verdict

/-! ## Checking a source -/

namespace Validation

/-- The diagrams of a source in order, each as it was read. -/
def diagrams (source : String) : Reading Diagram × List (Reading Diagram) :=
  Diagram.ofItems source.toList (Layout.finish source) (Layout.items (Token.tokenize source))

/-- What is found in a source, in the order it is found: by the rules for comments, strings and
directives, and then by the grammars. -/
def found (source : String) : List Diagnostic :=
  let (first, later) := diagrams source
  Layout.lexicalDiagnostics (Token.tokenize source) ++ first.diagnostics ++
    later.flatMap (·.diagnostics)

end Validation

/-- Checks a source. -/
def validate (source : String) : Verdict :=
  if Text.isBlankText source then .rejected .blankInput
  else
    ⟨Diagnostic.inSourceOrder (Validation.found source),
      some (Validation.diagrams source).1.value⟩

/-- Whether a source is valid. -/
def isValid (source : String) : Bool := (validate source).isValid

/-- The type of the first diagram of a source, valid or not. -/
def diagramType (source : String) : DiagramType := (validate source).type

/-- Checks an input given as bytes, if there is one. -/
def validateBytes (input : Option (List UInt8)) : Verdict :=
  match input with
  | none => .rejected .noInput
  | some bytes =>
    match Text.Utf8.decode bytes with
    | .ok source => validate source
    | .error defect => .rejected (.notUtf8 defect)

end DiagramCheck
