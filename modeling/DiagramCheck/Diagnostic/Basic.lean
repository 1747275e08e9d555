/-
# Diagnostics

A diagnostic is a problem as a reader sees it: a code, a message and perhaps a
suggestion, at a place in the source. One without a place of its own stands at
the start of the source and covers nothing.

Diagnostics are shown in source order. The sort looks at line and column only
and is stable, so diagnostics at one place keep the order they were found in.
-/

import DiagramCheck.Diagnostic.Problem

namespace DiagramCheck

/-- A problem as a reader sees it. -/
structure Diagnostic where
  code : Code
  message : String
  suggestion : Option String
  line : Nat
  column : Nat
  span : Span
  deriving DecidableEq, Repr

namespace Diagnostic

/-- A problem that belongs to no place in the source. -/
def unplaced (problem : Problem) : Diagnostic :=
  ⟨problem.code, problem.message, problem.suggestion?, 1, 1, .origin⟩

/-- A problem with the text that `span` covers, which begins at `position`. -/
def located (position : Position) (span : Span) (problem : Problem) : Diagnostic :=
  ⟨problem.code, problem.message, problem.suggestion?, position.line, position.column, span⟩

/-- A problem with a token. -/
def atToken (token : Token) (problem : Problem) : Diagnostic :=
  located token.position token.span problem

/-- The text of a diagnostic on one line. -/
def render (diagnostic : Diagnostic) : String :=
  s!"{diagnostic.line}:{diagnostic.column}: error[{diagnostic.code.tag}]: {diagnostic.message}"

/-- Whether a diagnostic comes no later in the source than another. -/
def precedes (first second : Diagnostic) : Bool :=
  first.line < second.line || (first.line == second.line && first.column ≤ second.column)

/-- Diagnostics in source order; those at one place keep their order. -/
def inSourceOrder (diagnostics : List Diagnostic) : List Diagnostic :=
  diagnostics.mergeSort precedes

end Diagnostic

end DiagramCheck
