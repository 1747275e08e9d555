/-
# Layout

The grammars read the significant tokens of a source: comments, directives and
the end of the input are left out. What they need of the layout is noted with
each token: whether it is the first on its line, and whether it may begin a
statement, which it does at the start of a line and after a semicolon. A token
is the first on its line when the significant token before it ends on an
earlier line.

Comments, strings and directives carry rules of their own, which hold in every
diagram: a comment stands on a line of its own, and a string or a directive is
closed. Each is checked against the token before it, of whatever kind.
-/

import DiagramCheck.Diagnostic.Basic
import DiagramCheck.Token.Basic

namespace DiagramCheck

/-- A significant token with what the grammars need of its layout. -/
structure Item extends Token where
  startsLine : Bool
  startsStatement : Bool
  deriving DecidableEq, Repr

namespace Token

/-- A token that the grammars read. -/
def isSignificant (token : Token) : Bool :=
  match token.kind with
  | .comment | .directive | .endOfInput => false
  | _ => true

/-- Whether a token is the first on its line, by the significant token before it. -/
def startsLineAfter (token : Token) : Option Token → Bool
  | none => true
  | some previous => previous.endLine < token.line

/-- Whether a token may begin a statement, by the significant token before it. -/
def startsStatementAfter (token : Token) (previous : Option Token) : Bool :=
  token.startsLineAfter previous || previous.any (·.kind == .semicolon)

/-- The problem with a comment, a string or a directive, by the token before it. -/
def lexicalProblem? (token : Token) (previous : Option Token) : Option Problem :=
  if token.kind = .comment then
    if previous.any (·.endLine == token.line) then some .inlineComment else none
  else if token.isUnterminatedDirective then some .unterminatedDirective
  else if token.isUnterminatedString then some .unterminatedString
  else none

end Token

namespace Layout

/-- The significant tokens as items; `previous` is the one before them. -/
def place (previous : Option Token) : List Token → List Item
  | [] => []
  | token :: rest =>
    ⟨token, token.startsLineAfter previous, token.startsStatementAfter previous⟩ ::
      place (some token) rest

/-- The items that the grammars read, out of all tokens of a source. -/
def items (tokens : List Token) : List Item := place none (tokens.filter Token.isSignificant)

/-- What the rules for comments, strings and directives find; `previous` is the token before. -/
def lexicalDiagnosticsAfter (previous : Option Token) : List Token → List Diagnostic
  | [] => []
  | token :: rest =>
    ((token.lexicalProblem? previous).map (Diagnostic.atToken token)).toList ++
      lexicalDiagnosticsAfter (some token) rest

/-- What the rules for comments, strings and directives find among all tokens of a source. -/
def lexicalDiagnostics (tokens : List Token) : List Diagnostic :=
  lexicalDiagnosticsAfter none tokens

/-- The end of a source as a token. -/
def finish (source : String) : Token := .endOfInput (Position.start.after source.toList)

end Layout

end DiagramCheck
