/-
# Families of diagrams

A diagram belongs to one of thirteen families, told by the first word of its
source. The content of four of them is modelled in full; for the other nine
only the statements that decorate a diagram are looked at.

A source whose first word names no family still gets an answer: its type is
unknown. Each type has a stable lower-case tag, and no two types share one.
-/

namespace DiagramCheck

/-- The families whose content is not modelled. -/
inductive Unmodelled
  | classes
  | states
  | entities
  | pie
  | journey
  | gantt
  | commits
  | mindmap
  | timeline
  deriving DecidableEq, Repr

/-- The families of diagrams. -/
inductive Family
  | flowchart
  | sequence
  | chart
  | blocks
  | unmodelled (kind : Unmodelled)
  deriving DecidableEq, Repr

/-- What the validator says a source is: a diagram of some family, or nothing it knows. -/
inductive DiagramType
  | known (family : Family)
  | unknown
  deriving DecidableEq, Repr

/-- The tag of a family whose content is not modelled. -/
def Unmodelled.tag : Unmodelled → String
  | .classes => "class"
  | .states => "state"
  | .entities => "er"
  | .pie => "pie"
  | .journey => "journey"
  | .gantt => "gantt"
  | .commits => "gitgraph"
  | .mindmap => "mindmap"
  | .timeline => "timeline"

/-- The tag of a family, as results show it. -/
def Family.tag : Family → String
  | .flowchart => "flowchart"
  | .sequence => "sequence"
  | .chart => "xychart"
  | .blocks => "block"
  | .unmodelled kind => kind.tag

namespace DiagramType

/-- The tag of a diagram type, as results show it. -/
def tag : DiagramType → String
  | .known family => family.tag
  | .unknown => "unknown"

/-- Every diagram type. -/
def all : List DiagramType :=
  [.known .flowchart, .known .sequence, .known (.unmodelled .classes),
   .known (.unmodelled .states), .known (.unmodelled .entities), .known (.unmodelled .pie),
   .known (.unmodelled .journey), .known (.unmodelled .gantt), .known (.unmodelled .commits),
   .known (.unmodelled .mindmap), .known (.unmodelled .timeline), .known .chart, .known .blocks,
   .unknown]

/-- The diagram type with a given tag. Tags are matched exactly. -/
def ofTag? (tag : String) : Option DiagramType := all.find? fun type => type.tag == tag

/-- What is said about a text that is no tag. -/
def unknownTagMessage (text : String) : String := s!"unknown diagram type tag `{text}`"

theorem mem_all (type : DiagramType) : type ∈ all := by
  rcases type with (_ | _ | _ | _ | kind) | _
  case known.unmodelled => cases kind <;> simp [all]
  all_goals simp [all]

end DiagramType

end DiagramCheck
