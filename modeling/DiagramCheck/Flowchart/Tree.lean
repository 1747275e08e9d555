/-
# Flowcharts

A flowchart is an optional direction and a list of elements in source order:
nodes, links and subgraphs, the last of which hold elements of their own. A link
does not say where it begins; the element before it is its source, and its
destination is the element after it.
-/

import DiagramCheck.Source
import DiagramCheck.Token.Kind

namespace DiagramCheck

/-- The direction a flowchart runs in. -/
inductive Direction
  | topDown
  | topBottom
  | bottomTop
  | rightLeft
  | leftRight
  deriving DecidableEq, Repr

namespace Direction

/-- How a direction is written. -/
def keyword : Direction → String
  | .topDown => "TD"
  | .topBottom => "TB"
  | .bottomTop => "BT"
  | .rightLeft => "RL"
  | .leftRight => "LR"

/-- The direction a word names; the case of its letters counts. -/
def ofKeyword? : String → Option Direction
  | "TD" => some .topDown
  | "TB" => some .topBottom
  | "BT" => some .bottomTop
  | "RL" => some .rightLeft
  | "LR" => some .leftRight
  | _ => none

theorem ofKeyword?_keyword (direction : Direction) :
    ofKeyword? direction.keyword = some direction := by
  cases direction <;> rfl

end Direction

/-- The outline of a node. -/
inductive Shape
  | rectangle
  | round
  | diamond
  | circle
  | subroutine
  | hexagon
  deriving DecidableEq, Repr

namespace Shape

/-- The name of a shape, as results show it. -/
def tag : Shape → String
  | .rectangle => "rectangle"
  | .round => "round"
  | .diamond => "diamond"
  | .circle => "circle"
  | .subroutine => "subroutine"
  | .hexagon => "hexagon"

/-- The outline that a bracket draws. -/
def ofBracket : Bracket → Shape
  | .square => .rectangle
  | .doubleSquare => .subroutine
  | .round => .round
  | .doubleRound => .circle
  | .curly => .diamond
  | .doubleCurly => .hexagon

end Shape

/-- The stroke of a link. -/
inductive Stroke
  | plain
  | dotted
  | thick
  | line
  deriving DecidableEq, Repr

namespace Stroke

/-- The name of a stroke, as results show it. -/
def tag : Stroke → String
  | .plain => "plain"
  | .dotted => "dotted"
  | .thick => "thick"
  | .line => "open"

/-- The stroke that an arrow draws. -/
def ofArrow : Arrow → Stroke
  | .dotted => .dotted
  | .thick => .thick
  | .line => .line
  | .plain | .dashedOpen | .short | .shortOpen => .plain

end Stroke

/-- A node of a flowchart. -/
structure Node where
  id : String
  label : Option String
  shape : Shape
  position : Position
  deriving DecidableEq, Repr

/-- A link to the next node; the destination is missing when no node follows. -/
structure Link where
  destination : Option String
  label : Option String
  stroke : Stroke
  position : Position
  deriving DecidableEq, Repr

/-- The name and the title of a subgraph. -/
structure SubgraphHeading where
  id : String
  label : Option String
  position : Position
  deriving DecidableEq, Repr

/-- An element of a flowchart. -/
inductive Element
  | node (node : Node)
  | link (link : Link)
  | subgraph (heading : SubgraphHeading) (elements : List Element)
  deriving Repr

namespace Element

/-- Where an element begins. -/
def position : Element → Position
  | .node n => n.position
  | .link l => l.position
  | .subgraph heading _ => heading.position

/-- An element that a link can begin at. -/
def isSource : Element → Bool
  | .node _ => true
  | .link _ => false
  | .subgraph _ _ => true

mutual

/-- An element and all elements inside it, each before those inside it. -/
def flatten : Element → List Element
  | .node n => [.node n]
  | .link l => [.link l]
  | .subgraph heading elements => .subgraph heading elements :: flattenAll elements

/-- All elements of a list and inside them, each before those inside it. -/
def flattenAll : List Element → List Element
  | [] => []
  | element :: rest => flatten element ++ flattenAll rest

end

mutual

/-- Whether two elements are the same. -/
def decEq : (first second : Element) → Decidable (first = second)
  | .node n, .node n' => decidable_of_iff (n = n') (by simp)
  | .link l, .link l' => decidable_of_iff (l = l') (by simp)
  | .subgraph heading elements, .subgraph heading' elements' =>
    have := decEqAll elements elements'
    decidable_of_iff (heading = heading' ∧ elements = elements') (by simp)
  | .node _, .link _ | .node _, .subgraph _ _ | .link _, .node _ | .link _, .subgraph _ _
  | .subgraph _ _, .node _ | .subgraph _ _, .link _ => .isFalse nofun

/-- Whether two lists of elements are the same. -/
def decEqAll : (first second : List Element) → Decidable (first = second)
  | [], [] => .isTrue rfl
  | element :: rest, element' :: rest' =>
    have := decEq element element'
    have := decEqAll rest rest'
    decidable_of_iff (element = element' ∧ rest = rest') (by simp)
  | [], _ :: _ | _ :: _, [] => .isFalse nofun

end

instance : DecidableEq Element := decEq

end Element

/-- A flowchart. -/
structure Flowchart where
  direction : Option Direction
  elements : List Element
  deriving DecidableEq, Repr

end DiagramCheck
