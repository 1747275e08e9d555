/-
# Decorations

A decoration is a statement that styles, connects to behaviour, or comments a
diagram instead of describing its content. Its first word says which decoration
it is and is matched exactly. A flowchart takes all of them, a class or state
diagram only those that define and assign style classes, and any other diagram
none.
-/

import DiagramCheck.Diagram.Family

namespace DiagramCheck

/-- The statements that decorate a diagram. -/
inductive Decoration
  | classDefinition
  | classAssignment
  | linkStyle
  | style
  | click
  | note
  | direction
  | title
  deriving DecidableEq, Repr

namespace Decoration

/-- The word a decoration begins with. -/
def keyword : Decoration → String
  | .classDefinition => "classDef"
  | .classAssignment => "class"
  | .linkStyle => "linkStyle"
  | .style => "style"
  | .click => "click"
  | .note => "note"
  | .direction => "direction"
  | .title => "title"

/-- The decoration that begins with a word. -/
def ofKeyword? : String → Option Decoration
  | "classDef" => some .classDefinition
  | "class" => some .classAssignment
  | "linkStyle" => some .linkStyle
  | "style" => some .style
  | "click" => some .click
  | "note" => some .note
  | "direction" => some .direction
  | "title" => some .title
  | _ => none

/-- Whether the diagrams of a family take a decoration. -/
def isLegalIn (decoration : Decoration) : Family → Bool
  | .flowchart => true
  | .unmodelled .classes | .unmodelled .states =>
    decoration == .classDefinition || decoration == .classAssignment
  | _ => false

theorem ofKeyword?_keyword (decoration : Decoration) :
    ofKeyword? decoration.keyword = some decoration := by
  cases decoration <;> rfl

end Decoration

end DiagramCheck
