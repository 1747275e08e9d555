/-
# Diagrams

A diagram is its content at the place of its header. The family it belongs to is
told by the content, so the two never disagree.

A source may hold several diagrams, because a flowchart ends where another
header begins a line; every other diagram runs to the end of the input. All of
them are checked and the first is the diagram of the source. Something that is
no header where a diagram should begin is reported, and the rest of the source
is passed over.

The content of some diagrams is not modelled. It is passed over to the end of the
input, and only its decorations are looked at, for whether the family takes them.
The rest of the header line holds arguments of the header and is never looked at.
-/

import DiagramCheck.Blocks
import DiagramCheck.Chart.Reading
import DiagramCheck.Flowchart.Basic
import DiagramCheck.Sequence.Reading

namespace DiagramCheck

/-! ## Content that is not modelled -/

namespace Unmodelled

/-- Reads a decoration, or passes over any other item. -/
def readStatement (kind : Unmodelled) (finish : Token) (first : Item) (rest : List Item) :
    Reading Unit :=
  match first.decoration? with
  | some decoration => decoration.read finish (.unmodelled kind) 0 first.toToken rest
  | none => ⟨(), [], rest⟩

theorem readStatement_suffix (kind : Unmodelled) (finish : Token) (first : Item)
    (rest : List Item) : (readStatement kind finish first rest).rest <:+ rest := by
  unfold readStatement
  split
  · exact Decoration.read_suffix ..
  · exact List.suffix_refl _

/-- The statements of a diagram after its header line. -/
def statements (kind : Unmodelled) (finish header : Token) (rest : List Item) :
    List (Reading Unit) :=
  Reading.statements (readStatement kind finish) (readStatement_suffix kind finish)
    (Items.skipLine header.line rest)

/-- Reads a diagram after its header, to the end of the input. -/
def read (kind : Unmodelled) (finish header : Token) (rest : List Item) : Reading Unit :=
  ⟨(), (statements kind finish header rest).flatMap (·.diagnostics), []⟩

end Unmodelled

/-! ## Diagrams of all families -/

/-- The content of a diagram. -/
inductive Content
  | flowchart (body : Flowchart)
  | sequence (body : Sequence)
  | chart (body : Chart)
  | blocks (body : BlockDiagram)
  | unmodelled (kind : Unmodelled)
  | unknown
  deriving Repr

/-- A diagram with the place of its header. -/
structure Diagram where
  position : Position
  content : Content
  deriving Repr

/-- The type of a diagram with some content. -/
def Content.type : Content → DiagramType
  | .flowchart _ => .known .flowchart
  | .sequence _ => .known .sequence
  | .chart _ => .known .chart
  | .blocks _ => .known .blocks
  | .unmodelled kind => .known (.unmodelled kind)
  | .unknown => .unknown

namespace Content

/-- The flowchart, if the content is one. -/
def flowchart? : Content → Option Flowchart
  | .flowchart body => some body
  | _ => none

/-- The sequence diagram, if the content is one. -/
def sequence? : Content → Option Sequence
  | .sequence body => some body
  | _ => none

/-- The chart, if the content is one. -/
def chart? : Content → Option Chart
  | .chart body => some body
  | _ => none

/-- The block diagram, if the content is one. -/
def blocks? : Content → Option BlockDiagram
  | .blocks body => some body
  | _ => none

end Content

namespace Diagram

/-- The type of a diagram. -/
def type (diagram : Diagram) : DiagramType := diagram.content.type

/-- Reads the content of a diagram of some family after its header. -/
def readContent (source : List Char) (finish header : Token) (rest : List Item) :
    Family → Reading Content
  | .flowchart => (Flowchart.read finish header rest).map .flowchart
  | .sequence => (Sequence.read finish header rest).map .sequence
  | .chart => (Chart.read source finish header rest).map .chart
  | .blocks => (BlockDiagram.read finish header rest).map .blocks
  | .unmodelled kind =>
    (Unmodelled.read kind finish header rest).map fun _ => .unmodelled kind

/-- What is said where a diagram should begin and does not. -/
def headerProblem (token : Token) : Problem :=
  match token.found with
  | .endOfInput => .missingHeader
  | .text written => .unsupportedHeader written

/-- Reads the diagram at the front of the items. -/
def read (source : List Char) (finish : Token) (items : List Item) : Reading Diagram :=
  let header := Items.front finish items
  match header.kind.family? with
  | some family =>
    (readContent source finish header items.tail family).map fun content =>
      ⟨header.position, content⟩
  | none => ⟨⟨header.position, .unknown⟩, [.atToken header (headerProblem header)], []⟩

theorem readContent_suffix (source : List Char) (finish header : Token) (rest : List Item)
    (family : Family) : (readContent source finish header rest family).rest <:+ rest := by
  cases family with
  | flowchart => exact Flowchart.read_suffix ..
  | sequence => exact List.nil_suffix
  | chart => exact List.nil_suffix
  | blocks => exact List.nil_suffix
  | unmodelled kind => exact List.nil_suffix

theorem read_suffix (source : List Char) (finish : Token) (first : Item) (rest : List Item) :
    (read source finish (first :: rest)).rest <:+ rest := by
  unfold read
  dsimp only
  split
  · exact readContent_suffix ..
  · exact List.nil_suffix

/-- Reads diagram after diagram until no item is left. -/
def readAll (source : List Char) (finish : Token) (items : List Item) : List (Reading Diagram) :=
  Reading.statements (fun first rest => read source finish (first :: rest))
    (read_suffix source finish) items

/-- The diagrams of a source in order; a source without significant tokens holds an unknown one. -/
def ofItems (source : List Char) (finish : Token) (items : List Item) :
    Reading Diagram × List (Reading Diagram) :=
  let first := read source finish items
  (first, readAll source finish first.rest)

end Diagram

end DiagramCheck
