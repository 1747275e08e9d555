/-
# Reading charts

The statements of a chart begin at the start of a line or after a semicolon.
The list of categories and the values of a series stand in square brackets and
may run over several lines; what follows the closing bracket on the line of the
keyword is skipped.

A category is a quoted string or a run of other tokens. The latter is taken as
written in the source, blanks and comments included, and must not contain
characters that would need quotes.
-/

import DiagramCheck.Decoration.Reading
import DiagramCheck.Chart.Tree
import DiagramCheck.Reading.Label
import DiagramCheck.Text.Slice

namespace DiagramCheck.Chart

/-! ## Titles -/

/-- Reads a title after its keyword: the rest of the line. -/
def readTitle (keyword : Token) (rest : List Item) : Reading (Option Statement) :=
  let words := Items.onLine keyword.line rest
  let missing := if words.isEmpty then [Diagnostic.atToken keyword .missingChartTitle] else []
  ⟨some (.title (Label.ofItems? words)), missing, Items.skipLine keyword.line rest⟩

/-! ## Categories -/

/-- The characters that force a category to be quoted. -/
def needsQuotes (c : Char) : Bool :=
  Text.isBlank c || ['"', '\'', '[', ']', '\x7b', '\x7d', '|', '\\', '/'].contains c

/-- The source from the start of one token to the end of another. -/
def textBetween (source : List Char) (first last : Token) : String :=
  ((Text.slice? first.offset (max first.offset last.stop) source).map String.ofList).getD
    first.text

/-- The items between commas; there is always one group more than commas. -/
def splitAtCommas : List Item → List (List Item)
  | [] => [[]]
  | first :: rest =>
    if first.kind = .comma then [] :: splitAtCommas rest
    else
      match splitAtCommas rest with
      | [] => [[first]]
      | group :: groups => (first :: group) :: groups

/-- Reads one category. Nothing between two commas is no category. -/
def category (source : List Char) (group : List Item) : Option String × List Diagnostic :=
  match group with
  | [] => (none, [])
  | first :: rest =>
    if rest.isEmpty && first.kind == .string then (some first.value, [])
    else
      let raw := textBetween source first.toToken (rest.getLastD first).toToken
      let unquoted :=
        if raw.toList.any needsQuotes then
          [Diagnostic.atToken first.toToken (.unquotedCategory raw)]
        else []
      (some raw, unquoted)

/-- Reads a list of categories after its opening bracket, to the end of the keyword's line. -/
def readCategoryList (source : List Char) (keyword opening : Token) (items : List Item) :
    Reading (Option Statement) :=
  let inside := items.takeWhile fun item => item.kind != .closing .square
  let after := items.dropWhile fun item => item.kind != .closing .square
  let categories := (splitAtCommas inside).map (category source)
  let unclosed :=
    if after.isEmpty then [Diagnostic.atToken opening .unclosedCategories] else []
  ⟨some (.categories (categories.filterMap (·.1))),
    categories.flatMap (·.2) ++ unclosed, Items.skipLine keyword.line after.tail⟩

/-- Reads the category axis after its keyword: an optional title and the list. -/
def readCategories (source : List Char) (finish keyword : Token) (rest : List Item) :
    Reading (Option Statement) :=
  let items := Items.dropIf keyword.line (·.kind == .string) rest
  let found := Items.front finish items
  if Items.frontIs keyword.line (·.kind == .opening .square) items then
    readCategoryList source keyword found items.tail
  else
    let place := if Items.frontIs keyword.line (fun _ => true) items then found else keyword
    ⟨none, [.atToken place (.missingCategories found.found)],
      Items.skipLine keyword.line items⟩

/-! ## The value axis -/

/-- The number a token writes. -/
def number? (token : Token) : Option Text.Binary64 :=
  if token.kind = .number then (Text.Decimal.ofText? token.text).map (·.toBinary64) else none

/-- The words that stand for bounds elsewhere but not here. -/
def isBoundWord (token : Token) : Bool := token.text == "min" || token.text == "max"

/-- What is wrong with a token that should be a bound. -/
def boundProblem (token : Token) : Problem :=
  if isBoundWord token then .wordAsBound token.text else .missingBound token.found

/-- Reads a bound on `line`. -/
def readBound (finish : Token) (line : Nat) (items : List Item) :
    Reading (Option Text.Binary64) :=
  let found := Items.front finish items
  match (if Items.frontIs line (fun _ => true) items then number? found else none) with
  | some value => ⟨some value, [], items.tail⟩
  | none => ⟨none, [.atToken found (boundProblem found)], items⟩

/-- Reads the two bounds of a range on `line`, with an arrow between them. -/
def readRange (finish : Token) (line : Nat) (items : List Item) :
    Reading (Option (Text.Binary64 × Text.Binary64)) :=
  let low := readBound finish line items
  match low.value with
  | none => ⟨none, low.diagnostics, low.rest⟩
  | some lowValue =>
    let arrow := Items.front finish low.rest
    if Items.frontIs line (·.kind == .arrow .plain) low.rest then
      let high := readBound finish line low.rest.tail
      ⟨high.value.map fun highValue => (lowValue, highValue),
        low.diagnostics ++ high.diagnostics, high.rest⟩
    else
      ⟨none, low.diagnostics ++ [.atToken arrow (.missingRangeArrow arrow.found)], low.rest⟩

/-- A token that labels the value axis. -/
def isAxisLabel (token : Token) : Bool :=
  token.kind == .string || (token.kind == .identifier && !isBoundWord token)

/-- Reads the label of the value axis, if there is one on `line`. -/
def readAxisLabel (finish : Token) (line : Nat) (items : List Item) : Reading (Option String) :=
  if Items.frontIs line (isAxisLabel ·.toToken) items then
    ⟨some (Items.front finish items).value, [], items.tail⟩
  else ⟨none, [], items⟩

/-- Reads the range of the value axis, if anything is left on `line`. -/
def readAxisRange (finish : Token) (line : Nat) (items : List Item) :
    Reading (Option (Text.Binary64 × Text.Binary64)) :=
  if Items.frontIs line (fun _ => true) items then readRange finish line items
  else ⟨none, [], items⟩

/-- Reads the value axis after its keyword: an optional label and an optional range. -/
def readValueAxis (finish keyword : Token) (rest : List Item) : Reading (Option Statement) :=
  let label := readAxisLabel finish keyword.line rest
  let range := readAxisRange finish keyword.line label.rest
  ⟨some (.valueAxis ⟨label.value, range.value.map (·.1), range.value.map (·.2)⟩),
    range.diagnostics, Items.skipLine keyword.line range.rest⟩

/-! ## Series -/

/-- An item of a list of values. -/
def isValueItem (item : Item) : Bool := item.kind == .number || item.kind == .comma

/-- Reads the values of a series after the opening bracket, to the end of the keyword's line. Every
number counts, and commas are passed over. At anything else the list is given up. -/
def readValues (finish keyword : Token) (kind : SeriesKind) (items : List Item) :
    Reading (Option Statement) :=
  let inside := items.takeWhile isValueItem
  let after := items.dropWhile isValueItem
  let found := Items.front finish after
  let values := inside.filterMap (number? ·.toToken)
  let invalid :=
    if found.kind = .closing .square then []
    else [Diagnostic.atToken found (.invalidSeriesValue found.found)]
  let recovered := (after.dropWhile fun item => item.kind != .closing .square).tail
  ⟨some (.series ⟨kind, values⟩), invalid, Items.skipLine keyword.line recovered⟩

/-- Reads a series after its keyword: an optional title and the values. -/
def readSeries (finish keyword : Token) (kind : SeriesKind) (rest : List Item) :
    Reading (Option Statement) :=
  let items := Items.dropIf keyword.line (·.kind == .string) rest
  let found := Items.front finish items
  if Items.frontIs keyword.line (·.kind == .opening .square) items then
    readValues finish keyword kind items.tail
  else
    ⟨none, [.atToken keyword (.missingSeriesValues keyword.text found.found)],
      Items.skipLine keyword.line items⟩

/-! ## Statements -/

/-- The statements that begin with a keyword. -/
inductive Keyword
  | title
  | categories
  | valueAxis
  | series (kind : SeriesKind)
  | undrawn
  | generic
  deriving DecidableEq, Repr

/-- The statement that begins with a word. -/
def Keyword.ofWord? : String → Option Keyword
  | "title" => some .title
  | "x-axis" => some .categories
  | "y-axis" => some .valueAxis
  | "bar" => some (.series .bar)
  | "line" => some (.series .line)
  | "area" => some .undrawn
  | "scatter" => some .undrawn
  | "series" => some .generic
  | _ => none

/-- The statement that begins with an item. -/
def keyword? (item : Item) : Option Keyword :=
  if item.kind == .identifier && item.startsStatement then Keyword.ofWord? item.text else none

/-- Reads a statement after its keyword. -/
def readKeyword (source : List Char) (finish : Token) (keyword : Keyword) (first : Item)
    (rest : List Item) : Reading (Option Statement) :=
  match keyword with
  | .title => readTitle first.toToken rest
  | .categories => readCategories source finish first.toToken rest
  | .valueAxis => readValueAxis finish first.toToken rest
  | .series kind => readSeries finish first.toToken kind rest
  | .undrawn =>
    ⟨none, [.atToken first.toToken (.unsupportedSeriesKind first.text)],
      Items.skipLine first.line rest⟩
  | .generic =>
    ⟨none, [.atToken first.toToken .genericSeries], Items.skipLine first.line rest⟩

/-- Reads the statement that begins with `first`. -/
def readStatement (source : List Char) (finish : Token) (first : Item) (rest : List Item) :
    Reading (Option Statement) :=
  if first.kind = .semicolon then ⟨none, [], rest⟩
  else
    match keyword? first with
    | some keyword => readKeyword source finish keyword first rest
    | none =>
      match first.decoration? with
      | some decoration =>
        (decoration.read finish .chart 0 first.toToken rest).map fun _ => none
      | none =>
        ⟨none, [.atToken first.toToken (.unexpectedInChart first.found)],
          Items.skipLine first.line rest⟩

theorem readCategories_suffix (source : List Char) (finish keyword : Token) (rest : List Item) :
    (readCategories source finish keyword rest).rest <:+ rest := by
  unfold readCategories
  dsimp only
  split
  · exact (Items.skipLine_suffix ..).trans ((List.tail_suffix _).trans
      ((List.dropWhile_suffix _).trans ((List.tail_suffix _).trans (Items.dropIf_suffix ..))))
  · exact (Items.skipLine_suffix ..).trans (Items.dropIf_suffix ..)

theorem readBound_suffix (finish : Token) (line : Nat) (items : List Item) :
    (readBound finish line items).rest <:+ items := by
  unfold readBound
  dsimp only
  split
  · exact List.tail_suffix _
  · exact List.suffix_refl _

theorem readRange_suffix (finish : Token) (line : Nat) (items : List Item) :
    (readRange finish line items).rest <:+ items := by
  unfold readRange
  dsimp only
  split
  · exact readBound_suffix ..
  · split
    · exact (readBound_suffix ..).trans ((List.tail_suffix _).trans (readBound_suffix ..))
    · exact readBound_suffix ..

theorem readAxisLabel_suffix (finish : Token) (line : Nat) (items : List Item) :
    (readAxisLabel finish line items).rest <:+ items := by
  unfold readAxisLabel
  split
  · exact List.tail_suffix _
  · exact List.suffix_refl _

theorem readAxisRange_suffix (finish : Token) (line : Nat) (items : List Item) :
    (readAxisRange finish line items).rest <:+ items := by
  unfold readAxisRange
  split
  · exact readRange_suffix ..
  · exact List.suffix_refl _

theorem readValueAxis_suffix (finish keyword : Token) (rest : List Item) :
    (readValueAxis finish keyword rest).rest <:+ rest :=
  (Items.skipLine_suffix ..).trans
    ((readAxisRange_suffix ..).trans (readAxisLabel_suffix finish keyword.line rest))

theorem readSeries_suffix (finish keyword : Token) (kind : SeriesKind) (rest : List Item) :
    (readSeries finish keyword kind rest).rest <:+ rest := by
  unfold readSeries
  dsimp only
  split
  · exact (Items.skipLine_suffix ..).trans ((List.tail_suffix _).trans
      ((List.dropWhile_suffix _).trans ((List.dropWhile_suffix _).trans
        ((List.tail_suffix _).trans (Items.dropIf_suffix ..)))))
  · exact (Items.skipLine_suffix ..).trans (Items.dropIf_suffix ..)

theorem readStatement_suffix (source : List Char) (finish : Token) (first : Item)
    (rest : List Item) : (readStatement source finish first rest).rest <:+ rest := by
  unfold readStatement
  split
  · exact List.suffix_refl _
  · split
    · next keyword _ =>
      cases keyword with
      | title => exact Items.skipLine_suffix ..
      | categories => exact readCategories_suffix ..
      | valueAxis => exact readValueAxis_suffix ..
      | series kind => exact readSeries_suffix ..
      | undrawn => exact Items.skipLine_suffix ..
      | generic => exact Items.skipLine_suffix ..
    · split <;> exact Items.skipLine_suffix ..

/-- Whether the header line goes on with the word that turns a chart on its side. -/
def isHorizontal (header : Token) (rest : List Item) : Bool :=
  Items.frontIs header.line (·.text == "horizontal") rest

/-- The statements of a chart after its header line. -/
def statements (source : List Char) (finish header : Token) (rest : List Item) :
    List (Reading (Option Statement)) :=
  Reading.statements (readStatement source finish) (readStatement_suffix source finish)
    (Items.skipLine header.line rest)

/-- Reads a chart after its header. A chart must have a series. -/
def read (source : List Char) (finish header : Token) (rest : List Item) : Reading Chart :=
  let readings := statements source finish header rest
  let chart := ofStatements (isHorizontal header rest) (readings.filterMap (·.value))
  let missing :=
    if chart.series.isEmpty then [Diagnostic.atToken header .chartWithoutData] else []
  ⟨chart, readings.flatMap (·.diagnostics) ++ missing, []⟩

end DiagramCheck.Chart
