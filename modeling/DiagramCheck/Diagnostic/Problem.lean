/-
# Problems

A problem is what is wrong with a source, as data: which rule is broken, and
what was found that breaks it. The code, the message and the suggested fix of a
problem are worded here and nowhere else.
-/

import DiagramCheck.Decoration.Basic
import DiagramCheck.Diagnostic.Code
import DiagramCheck.Text.Utf8
import DiagramCheck.Token.Basic

namespace DiagramCheck

/-- What stands where something else was expected. -/
inductive Found
  | text (written : String)
  | endOfInput
  deriving DecidableEq, Repr

namespace Found

/-- How messages speak of what was found. -/
def describe : Found → String
  | .text written => s!"`{written}`"
  | .endOfInput => "end of input"

end Found

/-- What a token is when it is found in the wrong place. -/
def Token.found (token : Token) : Found :=
  if token.kind = .endOfInput then .endOfInput else .text token.text

/-- What can be wrong with a source. -/
inductive Problem
  /-- There is no input. -/
  | noInput
  /-- The input is blank. -/
  | blankInput
  /-- The input is not UTF-8. -/
  | notUtf8 (defect : Text.Utf8.Defect)
  /-- A comment follows other content on its line. -/
  | inlineComment
  /-- A directive is not closed. -/
  | unterminatedDirective
  /-- A string is not closed. -/
  | unterminatedString
  /-- No header begins the source. -/
  | missingHeader
  /-- Something else than a header begins the source. -/
  | unsupportedHeader (text : String)
  /-- The label of `owner` is not closed. -/
  | unclosedLabel (owner : String) (bracket : Bracket) (found : Found)
  /-- A flowchart header names no direction. -/
  | unknownHeaderDirection (word : String)
  /-- A subgraph is never closed. -/
  | unclosedSubgraph
  /-- An `end` closes nothing. -/
  | unmatchedEnd
  /-- A link begins at no node. -/
  | linkWithoutSource
  /-- A link leads to no node. -/
  | linkWithoutDestination
  /-- The label of a link is not closed. -/
  | unclosedLinkLabel (found : Found)
  /-- A subgraph has no name. -/
  | unnamedSubgraph
  /-- A subgraph lies deeper than `limit` levels. -/
  | subgraphTooDeep (limit : Nat)
  /-- Two nodes share a line and no link joins them. -/
  | unconnectedNodes (first second : String)
  /-- No statement of a flowchart begins so. -/
  | unexpectedInFlowchart (found : Found)
  /-- A title in a diagram that takes none. -/
  | unsupportedTitle (family : Family)
  /-- A note that says not where it belongs. -/
  | unplacedNote
  /-- A decoration in a diagram that does not take it. -/
  | unsupportedDecoration (decoration : Decoration) (family : Family)
  /-- A class definition without a name. -/
  | unnamedClass
  /-- A class definition that uses an equals sign. -/
  | equalsInClass
  /-- A link style that names no link. -/
  | missingLinkIndex (found : Found)
  /-- A link index that is no whole number. -/
  | malformedLinkIndex (text : String)
  /-- A link index beyond the `count` links defined so far. -/
  | linkIndexOutOfRange (index count : Nat)
  /-- A direction statement that names no direction. -/
  | unknownDirection (word : String)
  /-- A direction statement without a direction. -/
  | missingDirection
  /-- A message without a sender. -/
  | messageWithoutSender
  /-- A message without a receiver; it is written `sender` and `arrow`. -/
  | messageWithoutReceiver (sender arrow : String)
  /-- A declaration without a name. -/
  | unnamedParticipant (keyword : String)
  /-- A declaration that announces an alias and gives none. -/
  | missingAlias (keyword name : String)
  /-- No statement of a sequence diagram begins so. -/
  | unexpectedInSequence (found : Found)
  /-- A kind of series that is not drawn. -/
  | unsupportedSeriesKind (keyword : String)
  /-- A series whose kind is not said. -/
  | genericSeries
  /-- A chart without series. -/
  | chartWithoutData
  /-- A title without text. -/
  | missingChartTitle
  /-- A category axis without a list in brackets. -/
  | missingCategories (found : Found)
  /-- A list of categories that is never closed. -/
  | unclosedCategories
  /-- A category that must be quoted. -/
  | unquotedCategory (raw : String)
  /-- No arrow between the bounds of the value axis. -/
  | missingRangeArrow (found : Found)
  /-- A bound given as the word `min` or `max`. -/
  | wordAsBound (word : String)
  /-- A bound that is no number. -/
  | missingBound (found : Found)
  /-- A series without a list in brackets. -/
  | missingSeriesValues (keyword : String) (found : Found)
  /-- A value of a series that is no number. -/
  | invalidSeriesValue (found : Found)
  /-- No statement of a chart begins so. -/
  | unexpectedInChart (found : Found)
  /-- A column statement without a count. -/
  | missingColumnCount (found : Found)
  /-- A link between blocks. -/
  | linkBetweenBlocks (found : Found)
  /-- No statement of a block diagram begins so. -/
  | unexpectedInBlocks (found : Found)
  /-- The renderer version asked for is not the one validated. -/
  | versionMismatch (target validated : String)
  deriving DecidableEq, Repr

namespace Problem

/-- The code of a problem. -/
def code : Problem → Code
  | .noInput | .blankInput => .emptyInput
  | .notUtf8 _ => .invalidInputType
  | .inlineComment => .inlineCommentNotSupported
  | .missingHeader | .unsupportedHeader _ => .unsupportedDiagramType
  | .unknownHeaderDirection _ | .unknownDirection _ | .missingDirection => .invalidDirection
  | .unclosedSubgraph => .missingSubgraphEnd
  | .unmatchedEnd => .unmatchedEnd
  | .linkWithoutDestination => .incompleteArrow
  | .unconnectedNodes _ _ => .missingArrow
  | .unsupportedTitle _ => .unsupportedTitleDirective
  | .unplacedNote => .invalidNoteSyntax
  | .unsupportedDecoration _ _ => .unsupportedStylingDirective
  | .equalsInClass => .unsupportedClassdefEqualsSyntax
  | .missingLinkIndex _ | .malformedLinkIndex _ | .linkIndexOutOfRange _ _ =>
    .invalidLinkstyleIndex
  | .messageWithoutSender | .messageWithoutReceiver _ _ => .incompleteMessage
  | .unnamedParticipant _ => .missingParticipantName
  | .unsupportedSeriesKind _ => .unsupportedChartType
  | .genericSeries => .unsupportedSeriesSyntax
  | .chartWithoutData => .missingData
  | .missingCategories _ | .unclosedCategories => .invalidXAxisSyntax
  | .unquotedCategory _ => .invalidIdentifier
  | .missingRangeArrow _ | .wordAsBound _ | .missingBound _ => .invalidYAxisSyntax
  | .versionMismatch _ _ => .versionMismatch
  | .unterminatedDirective | .unterminatedString | .unclosedLabel _ _ _ | .linkWithoutSource
  | .unclosedLinkLabel _ | .unnamedSubgraph | .subgraphTooDeep _ | .unexpectedInFlowchart _
  | .unnamedClass | .missingAlias _ _ | .unexpectedInSequence _ | .missingChartTitle
  | .missingSeriesValues _ _ | .invalidSeriesValue _ | .unexpectedInChart _
  | .missingColumnCount _ | .linkBetweenBlocks _ | .unexpectedInBlocks _ => .parseError

/-- What a problem says is wrong. -/
def message : Problem → String
  | .noInput => "no input given"
  | .blankInput => "input is empty"
  | .notUtf8 defect => s!"input is not valid UTF-8 text: {defect.message}"
  | .inlineComment => "comments must be on their own line"
  | .unterminatedDirective => "unterminated directive"
  | .unterminatedString => "unterminated string"
  | .missingHeader => "missing diagram type header"
  | .unsupportedHeader text => s!"unsupported diagram type `{text}`"
  | .unclosedLabel owner bracket found =>
    let closer := (TokenKind.closing bracket).name
    s!"expected {closer} to close `{owner}`, found {found.describe}"
  | .unknownHeaderDirection word => s!"invalid flowchart direction `{word}`"
  | .unclosedSubgraph => "subgraph is never closed"
  | .unmatchedEnd => "`end` without an open subgraph"
  | .linkWithoutSource => "link has no source node"
  | .linkWithoutDestination => "arrow has no destination node"
  | .unclosedLinkLabel found => s!"expected '|' to close the link label, found {found.describe}"
  | .unnamedSubgraph => "expected a subgraph id"
  | .subgraphTooDeep limit => s!"subgraphs are nested more than {limit} levels deep"
  | .unconnectedNodes first second => s!"nodes `{first}` and `{second}` are not connected"
  | .unexpectedInFlowchart found => s!"unexpected {found.describe} in flowchart"
  | .unsupportedTitle family => s!"`title` is not supported in {family.tag} diagrams"
  | .unplacedNote => "a note must be placed `left of`, `right of` or `over` a participant"
  | .unsupportedDecoration decoration family =>
    s!"`{decoration.keyword}` is not supported in {family.tag} diagrams"
  | .unnamedClass => "expected a class name after `classDef`"
  | .equalsInClass => "`classDef` properties use `key:value`, not `key=value`"
  | .missingLinkIndex found => s!"expected a link index after `linkStyle`, found {found.describe}"
  | .malformedLinkIndex text => s!"`{text}` is not a valid link index"
  | .linkIndexOutOfRange index count =>
    s!"linkStyle index {index} is out of range: {count} link(s) defined so far"
  | .unknownDirection word => s!"invalid direction `{word}`"
  | .missingDirection => "expected a direction after `direction`"
  | .messageWithoutSender => "message has no sender"
  | .messageWithoutReceiver _ _ => "message has no receiver"
  | .unnamedParticipant keyword => s!"`{keyword}` needs a name"
  | .missingAlias _ _ => "expected an alias after `as`"
  | .unexpectedInSequence found => s!"unexpected {found.describe} in sequence diagram"
  | .unsupportedSeriesKind keyword => s!"`{keyword}` series are not supported"
  | .genericSeries => "the generic `series` statement is not supported"
  | .chartWithoutData => "chart has no data series"
  | .missingChartTitle => "expected a chart title"
  | .missingCategories found =>
    s!"`x-axis` expects a bracketed category list, found {found.describe}"
  | .unclosedCategories => "`x-axis` category list is never closed"
  | .unquotedCategory raw => s!"category `{raw}` must be quoted"
  | .missingRangeArrow found =>
    s!"expected `-->` between the y-axis bounds, found {found.describe}"
  | .wordAsBound word => s!"`{word}` is not a number; y-axis bounds must be numeric"
  | .missingBound found => s!"expected a numeric y-axis bound, found {found.describe}"
  | .missingSeriesValues keyword found =>
    s!"expected `[` with values after `{keyword}`, found {found.describe}"
  | .invalidSeriesValue found => s!"expected a numeric value, found {found.describe}"
  | .unexpectedInChart found => s!"unexpected {found.describe} in xy chart"
  | .missingColumnCount found =>
    s!"expected a column count after `columns`, found {found.describe}"
  | .linkBetweenBlocks found => s!"unexpected {found.describe} in block diagram"
  | .unexpectedInBlocks found => s!"unexpected {found.describe} in block diagram"
  | .versionMismatch target validated =>
    s!"target renderer version {target} differs from the validated version {validated}"

/-- The category `raw` in double quotes, its own double quotes made single. -/
def quoted (raw : String) : String :=
  String.ofList ('"' :: raw.toList.map (fun c => if c = '"' then '\'' else c) ++ ['"'])

/-- How to mend a problem, where there is something to say. -/
def suggestion? : Problem → Option String
  | .noInput => none
  | .blankInput => some "start with a diagram header such as `flowchart TD`"
  | .notUtf8 _ => some "save the diagram as UTF-8"
  | .inlineComment => some "move the `%%` comment to a separate line"
  | .unterminatedDirective => some "close the directive with `\x7d%%`"
  | .unterminatedString => some "add the closing quote"
  | .missingHeader | .unsupportedHeader _ =>
    some "start with a diagram header such as `flowchart TD` or `sequenceDiagram`"
  | .unclosedLabel _ bracket _ =>
    let closer := (TokenKind.closing bracket).name
    some s!"add {closer}"
  | .unknownHeaderDirection _ | .unknownDirection _ | .missingDirection =>
    some "use one of TD, TB, BT, RL or LR"
  | .unclosedSubgraph => some "add `end` after the subgraph's content"
  | .unmatchedEnd => some "remove the `end` or open a block with `subgraph`"
  | .linkWithoutSource => some "start the link from a node, e.g. `A --> B`"
  | .linkWithoutDestination => some "add a target node after the arrow, e.g. `A --> B`"
  | .unclosedLinkLabel _ => some "close the label with `|`"
  | .unnamedSubgraph => some "name the subgraph, e.g. `subgraph one`"
  | .subgraphTooDeep _ => some "flatten the subgraph structure"
  | .unconnectedNodes first second =>
    some s!"connect them with an arrow, e.g. `{first} --> {second}`"
  | .unexpectedInFlowchart _ => some "node ids start with a letter, digit or underscore"
  | .unsupportedTitle _ => some "remove the title or put it in the diagram's front matter"
  | .unplacedNote => some "write the note as `note right of A: text`"
  | .unsupportedDecoration decoration _ => some s!"remove the `{decoration.keyword}` statement"
  | .unnamedClass => some "write `classDef name fill:#f9f`"
  | .equalsInClass => some "replace `=` with `:`, e.g. `fill:#f9f`"
  | .missingLinkIndex _ => some "write `linkStyle 0 stroke:#f00` or `linkStyle default ...`"
  | .malformedLinkIndex _ => some "link indices are whole numbers starting at 0"
  | .linkIndexOutOfRange _ 0 => some "define links before styling them"
  | .linkIndexOutOfRange _ (last + 1) => some s!"use an index between 0 and {last}"
  | .messageWithoutSender => some "write messages as `A->>B: text`"
  | .messageWithoutReceiver sender arrow =>
    some s!"name the receiver, e.g. `{sender}{arrow}B: text`"
  | .unnamedParticipant keyword => some s!"write `{keyword} Alice`"
  | .missingAlias keyword name => some s!"write `{keyword} {name} as Display Name`"
  | .unexpectedInSequence _ =>
    some "expected a participant declaration or a message like `A->>B: text`"
  | .unsupportedSeriesKind _ => some "use a `bar` or `line` series"
  | .genericSeries => some "declare each series as `bar [...]` or `line [...]`"
  | .chartWithoutData => some "add a series such as `bar [1, 2, 3]`"
  | .missingChartTitle => some "write `title \"Sales\"`"
  | .missingCategories _ => some "write `x-axis [jan, feb, mar]`"
  | .unclosedCategories => some "close the list with `]`"
  | .unquotedCategory raw => some (quoted raw)
  | .missingRangeArrow _ => some "write the range as `0 --> 100`"
  | .wordAsBound _ | .missingBound _ =>
    some "write the range as `y-axis \"Revenue\" 0 --> 100`"
  | .missingSeriesValues keyword _ => some s!"write `{keyword} [1, 2, 3]`"
  | .invalidSeriesValue _ => some "series values are numbers separated by commas"
  | .unexpectedInChart _ => some "expected `title`, `x-axis`, `y-axis`, `bar` or `line`"
  | .missingColumnCount _ => some "write `columns 3`"
  | .linkBetweenBlocks _ => some "links between blocks are not supported"
  | .unexpectedInBlocks _ => some "expected `columns N` or a block like `id[\"label\"]`"
  | .versionMismatch _ validated =>
    some s!"set the target version to {validated} or upgrade astrolabe"

end Problem

end DiagramCheck
