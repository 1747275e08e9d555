/-
# Verdicts as documents

How verdicts are shown to other programs. A diagnostic without a suggestion and
a verdict without a diagram leave the field out; every other value that is
missing is shown as `null`. Spans are not shown.
-/

import DiagramCheck.Document.Basic
import DiagramCheck.Validation.Compatibility

namespace DiagramCheck

open Document

/-- The fields that show a position. -/
def Position.fields (position : Position) : List (String × Document) :=
  [("line", .whole position.line), ("column", .whole position.column),
    ("offset", .whole position.offset)]

/-- A diagnostic as a document. -/
def Diagnostic.document (diagnostic : Diagnostic) : Document :=
  .record ([("line", .whole diagnostic.line), ("column", .whole diagnostic.column),
    ("message", .text diagnostic.message), ("code", .text diagnostic.code.tag)] ++
    optionalField "suggestion" .text diagnostic.suggestion)

namespace Element

mutual

/-- An element of a flowchart as a document. -/
def document : Element → Document
  | .node n =>
    .record ([("type", .text "node"), ("id", .text n.id), ("label", nullable .text n.label),
      ("shape", .text n.shape.tag)] ++ n.position.fields)
  | .link l =>
    .record ([("type", .text "arrow"), ("to", nullable .text l.destination),
      ("label", nullable .text l.label), ("stroke", .text l.stroke.tag)] ++ l.position.fields)
  | .subgraph heading elements =>
    .record ([("type", .text "subgraph"), ("id", .text heading.id),
      ("label", nullable .text heading.label), ("elements", .list (documents elements))] ++
      heading.position.fields)

/-- The elements of a list as documents. -/
def documents : List Element → List Document
  | [] => []
  | element :: rest => document element :: documents rest

end

end Element

/-- The fields that show a flowchart. -/
def Flowchart.fields (flowchart : Flowchart) : List (String × Document) :=
  [("direction", nullable (.text ·.keyword) flowchart.direction),
    ("elements", .list (Element.documents flowchart.elements))]

/-- A participant as a document. -/
def Participant.document (participant : Participant) : Document :=
  .record [("name", .text participant.name), ("alias", nullable .text participant.displayName)]

/-- A message as a document. -/
def Message.document (message : Message) : Document :=
  .record [("from", .text message.sender), ("to", .text message.receiver),
    ("message", .text message.text), ("arrowType", .text message.stroke.tag)]

/-- The fields that show a sequence diagram. -/
def Sequence.fields (sequence : Sequence) : List (String × Document) :=
  [("participants", .list (sequence.participants.map Participant.document)),
    ("messages", .list (sequence.messages.map Message.document))]

/-- The axis of values as a document. -/
def ValueAxis.document (axis : ValueAxis) : Document :=
  .record [("label", nullable .text axis.label), ("min", nullable .real axis.low),
    ("max", nullable .real axis.high)]

/-- A series as a document. -/
def Series.document (series : Series) : Document :=
  .record [("type", .text series.kind.tag), ("values", .list (series.values.map .real))]

/-- The fields that show a chart. -/
def Chart.fields (chart : Chart) : List (String × Document) :=
  [("title", nullable .text chart.title), ("horizontal", .truth chart.horizontal),
    ("xAxis", .list (chart.categories.map .text)),
    ("yAxis", nullable ValueAxis.document chart.valueAxis),
    ("series", .list (chart.series.map Series.document))]

/-- A block as a document. -/
def Block.document (block : Block) : Document :=
  .record [("id", .text block.id), ("label", nullable .text block.label)]

/-- The fields that show a block diagram. -/
def BlockDiagram.fields (diagram : BlockDiagram) : List (String × Document) :=
  [("columns", nullable .whole diagram.columns),
    ("blocks", .list (diagram.blocks.map Block.document))]

/-- The fields that show the content of a diagram. -/
def Content.fields : Content → List (String × Document)
  | .flowchart body => body.fields
  | .sequence body => body.fields
  | .chart body => body.fields
  | .blocks body => body.fields
  | .unmodelled _ => []
  | .unknown => []

/-- A diagram as a document. -/
def Diagram.document (diagram : Diagram) : Document :=
  .record ([("type", .text diagram.type.tag), ("line", .whole diagram.position.line),
    ("column", .whole diagram.position.column)] ++ diagram.content.fields)

/-- The fields that show a verdict. -/
def Verdict.fields (verdict : Verdict) : List (String × Document) :=
  [("isValid", .truth verdict.isValid), ("diagramType", .text verdict.type.tag),
    ("diagnostics", .list (verdict.diagnostics.map Diagnostic.document))] ++
    optionalField "ast" Diagram.document verdict.diagram?

end DiagramCheck
