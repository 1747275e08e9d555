/-
# Reading decorations

A decoration begins at the start of a statement with its keyword and takes the
rest of the line. One that the diagram does not take gives a single diagnostic
and is skipped. Three are looked into further: a class definition needs a name
and writes its properties with colons, a link style refers to links drawn before
it, and a direction statement names a direction.
-/

import DiagramCheck.Decoration.Basic
import DiagramCheck.Flowchart.Tree
import DiagramCheck.Reading.Basic
import DiagramCheck.Text.Numeral

namespace DiagramCheck

/-- The decoration that begins with an item. -/
def Item.decoration? (item : Item) : Option Decoration :=
  if item.kind == .identifier && item.startsStatement then Decoration.ofKeyword? item.text
  else none

namespace Decoration

/-- A note is placed when its line goes on with `over`, `left of` or `right of`. -/
def isPlaced : List Item → Bool
  | [] => false
  | first :: rest =>
    first.text == "over" ||
      ((first.text == "left" || first.text == "right") && rest.head?.any (·.text == "of"))

/-- What is wrong with a decoration that the diagram does not take; `line` is the rest of its
line. -/
def misplaced (decoration : Decoration) (family : Family) (line : List Item) : Problem :=
  match decoration with
  | .title => .unsupportedTitle family
  | .note => if isPlaced line then .unsupportedDecoration .note family else .unplacedNote
  | other => .unsupportedDecoration other family

/-- What is wrong with a class definition; `line` is the rest of its line. -/
def classProblems (keyword : Token) (line : List Item) : List Diagnostic :=
  if line.isEmpty then [.atToken keyword .unnamedClass]
  else ((line.find? (·.kind == .equals)).map fun equals =>
    Diagnostic.atToken equals.toToken .equalsInClass).toList

/-- What is wrong with an index into the `links` links drawn so far. -/
def linkIndexProblem? (links : Nat) (token : Token) : Option Problem :=
  match Text.word? 64 token.text with
  | none => some (.malformedLinkIndex token.text)
  | some index => if index < links then none else some (.linkIndexOutOfRange index links)

/-- The numbers at the front of a list of numbers and commas. -/
def leadingNumbers (line : List Item) : List Item :=
  (line.takeWhile fun item => item.kind == .number || item.kind == .comma).filter
    (·.kind == .number)

/-- What is wrong with a link style; `line` is the rest of its line and `found` the next token of
the source, which may stand on a later line. -/
def linkStyleProblems (links : Nat) (keyword found : Token) (line : List Item) :
    List Diagnostic :=
  match line with
  | [] => [.atToken keyword (.missingLinkIndex found.found)]
  | first :: _ =>
    if first.text = "default" then []
    else if first.kind = .number then
      (leadingNumbers line).filterMap fun item =>
        (linkIndexProblem? links item.toToken).map (Diagnostic.atToken item.toToken)
    else [.atToken keyword (.missingLinkIndex found.found)]

/-- What is wrong with a direction statement; `line` is the rest of its line. -/
def directionProblems (keyword : Token) (line : List Item) : List Diagnostic :=
  match line with
  | [] => [.atToken keyword .missingDirection]
  | first :: _ =>
    if (Direction.ofKeyword? first.text).isSome then []
    else [.atToken first.toToken (.unknownDirection first.text)]

/-- What is wrong with a decoration; `links` links are drawn before it, `line` is the rest of its
line, and `found` is the next token of the source. -/
def diagnostics (decoration : Decoration) (family : Family) (links : Nat) (keyword found : Token)
    (line : List Item) : List Diagnostic :=
  if decoration.isLegalIn family then
    match decoration with
    | .classDefinition => classProblems keyword line
    | .linkStyle => linkStyleProblems links keyword found line
    | .direction => directionProblems keyword line
    | .classAssignment | .style | .click | .note | .title => []
  else [.atToken keyword (decoration.misplaced family line)]

/-- Reads a decoration after its keyword, to the end of the line. -/
def read (finish : Token) (decoration : Decoration) (family : Family) (links : Nat)
    (keyword : Token) (rest : List Item) : Reading Unit :=
  ⟨(), decoration.diagnostics family links keyword (Items.front finish rest)
    (Items.onLine keyword.line rest), Items.skipLine keyword.line rest⟩

theorem read_suffix (finish : Token) (decoration : Decoration) (family : Family) (links : Nat)
    (keyword : Token) (rest : List Item) :
    (read finish decoration family links keyword rest).rest <:+ rest :=
  Items.skipLine_suffix ..

end Decoration

end DiagramCheck
