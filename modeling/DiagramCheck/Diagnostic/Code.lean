/-
# Diagnostic codes

Every diagnostic carries a code from a closed list. Its tag is the stable form
that other tools match on; its description is the short text shown beside the
marked source.
-/

namespace DiagramCheck

/-- The codes of diagnostics. -/
inductive Code
  /-- The input is not text. -/
  | invalidInputType
  /-- The input is missing or blank. -/
  | emptyInput
  /-- Two nodes on one line with nothing linking them. -/
  | missingArrow
  /-- A link without a destination. -/
  | incompleteArrow
  /-- A subgraph that is never closed. -/
  | missingSubgraphEnd
  /-- An `end` with no open subgraph. -/
  | unmatchedEnd
  /-- A word that should name a direction and does not. -/
  | invalidDirection
  /-- A declaration without a name. -/
  | missingParticipantName
  /-- A message without its sender or its receiver. -/
  | incompleteMessage
  /-- A source that begins with no header. -/
  | unsupportedDiagramType
  /-- A styling statement in a diagram that takes none. -/
  | unsupportedStylingDirective
  /-- Style properties written with an equals sign. -/
  | unsupportedClassdefEqualsSyntax
  /-- An index that refers to no link defined so far. -/
  | invalidLinkstyleIndex
  /-- A title in a diagram that takes none. -/
  | unsupportedTitleDirective
  /-- A note without a placement. -/
  | invalidNoteSyntax
  /-- A comment that follows other content on its line. -/
  | inlineCommentNotSupported
  /-- A chart without data. -/
  | missingData
  /-- A kind of series that is not drawn. -/
  | unsupportedChartType
  /-- A series whose kind is not said. -/
  | unsupportedSeriesSyntax
  /-- A category axis without a list in brackets. -/
  | invalidXAxisSyntax
  /-- A value axis with a malformed range. -/
  | invalidYAxisSyntax
  /-- A category that must be quoted. -/
  | invalidIdentifier
  /-- The renderer version asked for is not the one validated. -/
  | versionMismatch
  /-- Any other error of syntax. -/
  | parseError
  /-- A failure of the validator itself. -/
  | validationError
  deriving DecidableEq, Repr

namespace Code

/-- The stable text of a code. -/
def tag : Code → String
  | .invalidInputType => "INVALID_INPUT_TYPE"
  | .emptyInput => "EMPTY_INPUT"
  | .missingArrow => "MISSING_ARROW"
  | .incompleteArrow => "INCOMPLETE_ARROW"
  | .missingSubgraphEnd => "MISSING_SUBGRAPH_END"
  | .unmatchedEnd => "UNMATCHED_END"
  | .invalidDirection => "INVALID_DIRECTION"
  | .missingParticipantName => "MISSING_PARTICIPANT_NAME"
  | .incompleteMessage => "INCOMPLETE_MESSAGE"
  | .unsupportedDiagramType => "UNSUPPORTED_DIAGRAM_TYPE"
  | .unsupportedStylingDirective => "UNSUPPORTED_STYLING_DIRECTIVE"
  | .unsupportedClassdefEqualsSyntax => "UNSUPPORTED_CLASSDEF_EQUALS_SYNTAX"
  | .invalidLinkstyleIndex => "INVALID_LINKSTYLE_INDEX"
  | .unsupportedTitleDirective => "UNSUPPORTED_TITLE_DIRECTIVE"
  | .invalidNoteSyntax => "INVALID_NOTE_SYNTAX"
  | .inlineCommentNotSupported => "INLINE_COMMENT_NOT_SUPPORTED"
  | .missingData => "MISSING_DATA"
  | .unsupportedChartType => "UNSUPPORTED_CHART_TYPE"
  | .unsupportedSeriesSyntax => "UNSUPPORTED_SERIES_SYNTAX"
  | .invalidXAxisSyntax => "INVALID_X_AXIS_SYNTAX"
  | .invalidYAxisSyntax => "INVALID_Y_AXIS_SYNTAX"
  | .invalidIdentifier => "INVALID_IDENTIFIER"
  | .versionMismatch => "VERSION_MISMATCH"
  | .parseError => "PARSE_ERROR"
  | .validationError => "VALIDATION_ERROR"

/-- What a code means, in a few words. -/
def description : Code → String
  | .invalidInputType => "input is not text"
  | .emptyInput => "empty input"
  | .missingArrow => "unconnected nodes"
  | .incompleteArrow => "arrow without destination"
  | .missingSubgraphEnd => "unclosed subgraph"
  | .unmatchedEnd => "unmatched end"
  | .invalidDirection => "invalid direction"
  | .missingParticipantName => "missing participant name"
  | .incompleteMessage => "incomplete message"
  | .unsupportedDiagramType => "unsupported diagram type"
  | .unsupportedStylingDirective => "unsupported styling directive"
  | .unsupportedClassdefEqualsSyntax => "unsupported classDef syntax"
  | .invalidLinkstyleIndex => "invalid linkStyle index"
  | .unsupportedTitleDirective => "unsupported title"
  | .invalidNoteSyntax => "invalid note"
  | .inlineCommentNotSupported => "inline comment"
  | .missingData => "missing chart data"
  | .unsupportedChartType => "unsupported chart type"
  | .unsupportedSeriesSyntax => "unsupported series syntax"
  | .invalidXAxisSyntax => "invalid x-axis"
  | .invalidYAxisSyntax => "invalid y-axis"
  | .invalidIdentifier => "label must be quoted"
  | .versionMismatch => "unsupported renderer version"
  | .parseError => "syntax error"
  | .validationError => "internal validation failure"

/-- Every code. -/
def all : List Code :=
  [.invalidInputType, .emptyInput, .missingArrow, .incompleteArrow, .missingSubgraphEnd,
   .unmatchedEnd, .invalidDirection, .missingParticipantName, .incompleteMessage,
   .unsupportedDiagramType, .unsupportedStylingDirective, .unsupportedClassdefEqualsSyntax,
   .invalidLinkstyleIndex, .unsupportedTitleDirective, .invalidNoteSyntax,
   .inlineCommentNotSupported, .missingData, .unsupportedChartType, .unsupportedSeriesSyntax,
   .invalidXAxisSyntax, .invalidYAxisSyntax, .invalidIdentifier, .versionMismatch, .parseError,
   .validationError]

/-- The code with a given tag. -/
def ofTag? (tag : String) : Option Code := all.find? fun code => code.tag == tag

theorem mem_all (code : Code) : code ∈ all := by cases code <;> simp [all]

end Code

end DiagramCheck
