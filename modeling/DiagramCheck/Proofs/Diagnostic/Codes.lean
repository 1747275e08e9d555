/-
# Which diagrams report what

A diagram of one family is reported under few of the codes. What its decorations
can be reported for is the same in every family, and each family adds codes of its
own. So a code that only one statement of one family has tells where a diagnostic
comes from: a category that must be quoted belongs to the category axis of a chart.

Main statements: `Diagram.read_codes` and `Chart.readStatement_codes`.
-/

import DiagramCheck.Proofs.Diagnostic.Families
import DiagramCheck.Proofs.Flowchart.Codes

namespace DiagramCheck

open Diagnostic (CodesIn)

variable {finish : Token} {listed : List Code}

theorem Diagnostic.CodesIn.flatMap {α : Type} {list : List α} {diagnostics : α → List Diagnostic}
    (each : ∀ a ∈ list, CodesIn listed (diagnostics a)) :
    CodesIn listed (list.flatMap diagnostics) := by
  intro diagnostic member
  obtain ⟨a, inside, member⟩ := List.mem_flatMap.1 member
  exact each a inside diagnostic member

/-- Statement after statement has the codes of its statements. -/
theorem Reading.statements_codes {α : Type} {read : Item → List Item → Reading α}
    (suffix : ∀ first rest, (read first rest).rest <:+ rest)
    (each : ∀ first rest, CodesIn listed (read first rest).diagnostics) (items : List Item) :
    CodesIn listed ((Reading.statements read suffix items).flatMap (·.diagnostics)) := by
  refine .flatMap fun reading member => ?_
  obtain ⟨first, rest, -, rfl⟩ := exists_of_mem_statements member
  exact each first rest

/-! ## Decorations -/

namespace Decoration

/-- What the decorations of any diagram can be reported for. -/
def allCodes : List Code :=
  [.parseError, .unsupportedClassdefEqualsSyntax, .invalidLinkstyleIndex, .invalidDirection,
    .unsupportedTitleDirective, .invalidNoteSyntax, .unsupportedStylingDirective]

private theorem misplaced_codes (decoration : Decoration) (family : Family) (line : List Item) :
    (decoration.misplaced family line).code ∈ allCodes := by
  cases decoration with
  | note =>
    unfold misplaced
    dsimp only
    split <;> simp only [Problem.code] <;> decide
  | _ =>
    simp only [misplaced, Problem.code]
    decide

private theorem read_allCodes (decoration : Decoration) (family : Family) (links : Nat)
    (keyword : Token) (rest : List Item) :
    CodesIn allCodes (decoration.read finish family links keyword rest).diagnostics := by
  unfold read diagnostics
  dsimp only
  split
  · cases decoration with
    | classDefinition => exact (classProblems_codes _ _).mono (by decide)
    | linkStyle => exact (linkStyleProblems_codes _ _ _ _).mono (by decide)
    | direction => exact (directionProblems_codes _ _).mono (by decide)
    | _ => exact .nil
  · exact .one _ (misplaced_codes ..)

end Decoration

open Decoration (allCodes read_allCodes)

/-! ## Flowcharts -/

namespace Flowchart

/-- What a flowchart is reported for. -/
def codes : List Code :=
  allCodes ++ [.incompleteArrow, .missingSubgraphEnd, .unmatchedEnd, .missingArrow]

private theorem readPlain_allCodes (links : Nat) (hasSource : Bool) (first : Item)
    (rest : List Item) :
    CodesIn codes (readPlain finish links hasSource first rest).diagnostics := by
  cases decorated : first.decoration? with
  | none => exact (readPlain_codes decorated links hasSource rest).mono (by decide)
  | some decoration =>
    rw [readPlain_decoration decorated, Reading.diagnostics_map]
    exact (read_allCodes _ _ _ _ _).mono (List.subset_append_left ..)

variable {enclosing : Option Token} {depth links : Nat} {hasSource : Bool} {items : List Item}
  {run : Run}

theorem Runs.codesIn (runs : Runs finish enclosing depth links hasSource items run) :
    CodesIn codes run.diagnostics := by
  induction runs with
  | nil => exact (unclosed_codes _).mono (by decide)
  | boundary => exact (unclosed_codes _).mono (by decide)
  | closed => exact .nil
  | unmatched _ _ _ ih => exact .append (.one _ (by decide)) ih
  | subgraph _ _ _ _ _ nested later =>
    exact .append (.append ((readHeading_codes _ _).mono (by decide)) nested) later
  | tooDeep _ _ _ _ ih => exact .append (.one _ (by decide)) ih
  | plain _ _ _ read _ ih =>
    subst read
    exact .append (readPlain_allCodes _ _ _ _) ih

theorem read_codes (header : Token) (rest : List Item) :
    CodesIn codes (read finish header rest).diagnostics :=
  .append
    (.append ((readDirection_codes header rest).mono (by decide))
      (runs_run finish none 0 0 false _).codesIn)
    ((connectionDiagnostics_codes rest _).mono (by decide))

end Flowchart

/-! ## Sequence diagrams -/

namespace Sequence

/-- What a sequence diagram is reported for. -/
def codes : List Code := allCodes ++ [.missingParticipantName, .incompleteMessage]

private theorem readDeclaration_codes (keyword : Token) (rest : List Item) :
    CodesIn codes (readDeclaration finish keyword rest).diagnostics := by
  unfold readDeclaration
  split
  · unfold readAlias
    split
    · exact .nil
    · split
      · dsimp only
        split
        · exact .one _ (show Code.parseError ∈ codes by decide)
        · exact .nil
      · exact .nil
  · exact .one _ (show Code.missingParticipantName ∈ codes by decide)

private theorem readMessage_codes (first : Item) (rest : List Item) :
    CodesIn codes (readMessage finish first rest).diagnostics := by
  unfold readMessage
  split
  · exact .nil
  · split
    · unfold readReceiver
      dsimp only
      split
      · exact .nil
      · exact .one _ (show Code.incompleteMessage ∈ codes by decide)
    · exact .nil

theorem readStatement_codes (first : Item) (rest : List Item) :
    CodesIn codes (readStatement finish first rest).diagnostics := by
  unfold readStatement
  split
  · rw [Reading.diagnostics_map]
    exact (read_allCodes _ _ _ _ _).mono (List.subset_append_left ..)
  · split_ifs with semicolon declares message arrow block
    · exact .nil
    · exact readDeclaration_codes _ _
    · exact readMessage_codes _ _
    · exact .one _ (by decide)
    · exact .nil
    · exact .one _ (show Code.parseError ∈ codes by decide)

end Sequence

/-! ## Block diagrams and diagrams that are not modelled -/

theorem BlockDiagram.readStatement_codes (first : Item) (rest : List Item) :
    CodesIn allCodes (readStatement finish first rest).diagnostics := by
  unfold readStatement
  split
  · exact .nil
  · split
    · rw [Reading.diagnostics_map]
      exact read_allCodes _ _ _ _ _
    · split_ifs with columns name
      · unfold readColumns
        dsimp only
        split
        · exact .nil
        · exact .one _ (.head _)
      · unfold readBlock
        dsimp only
        split
        · exact (Label.read_codes _ _ _ _ _).mono (by decide)
        · exact .nil
      · refine .one _ ?_
        rw [unexpected]
        split <;> exact .head _

theorem Unmodelled.readStatement_codes (kind : Unmodelled) (first : Item) (rest : List Item) :
    CodesIn allCodes (readStatement kind finish first rest).diagnostics := by
  unfold readStatement
  split
  · exact read_allCodes _ _ _ _ _
  · exact .nil

/-! ## Charts -/

namespace Chart

/-- What a chart is reported for, but for its categories. -/
def codes : List Code :=
  allCodes ++ [.missingData, .unsupportedChartType, .unsupportedSeriesSyntax,
    .invalidXAxisSyntax, .invalidYAxisSyntax]

private theorem readBound_codes (line : Nat) (items : List Item) :
    CodesIn codes (readBound finish line items).diagnostics := by
  unfold readBound
  dsimp only
  split
  · exact .nil
  · refine .one _ ?_
    rw [boundProblem]
    split <;> simp only [Problem.code] <;> decide

private theorem readValueAxis_codes (keyword : Token) (rest : List Item) :
    CodesIn codes (readValueAxis finish keyword rest).diagnostics := by
  unfold readValueAxis readAxisRange
  dsimp only
  split
  · unfold readRange
    dsimp only
    split
    · exact readBound_codes _ _
    · split
      · exact .append (readBound_codes _ _) (readBound_codes _ _)
      · exact .append (readBound_codes _ _)
          (.one _ (show Code.invalidYAxisSyntax ∈ codes by decide))
  · exact .nil

private theorem readSeries_codes (keyword : Token) (kind : SeriesKind) (rest : List Item) :
    CodesIn codes (readSeries finish keyword kind rest).diagnostics := by
  unfold readSeries
  dsimp only
  split
  · unfold readValues
    dsimp only
    split
    · exact .nil
    · exact .one _ (.head _)
  · exact .one _ (.head _)

/-- Any statement of a chart but a list of categories. -/
theorem readStatement_codes (source : List Char) {first : Item}
    (other : keyword? first ≠ some .categories) (rest : List Item) :
    CodesIn codes (readStatement source finish first rest).diagnostics := by
  unfold readStatement
  split
  · exact .nil
  · split
    · next keyword begun =>
      cases keyword with
      | title =>
        simp only [readKeyword, readTitle]
        split
        · exact .one _ (.head _)
        · exact .nil
      | categories => exact absurd begun other
      | valueAxis => exact readValueAxis_codes _ _
      | series kind => exact readSeries_codes _ _ _
      | undrawn => exact .one _ (show Code.unsupportedChartType ∈ codes by decide)
      | generic => exact .one _ (by decide)
    · split
      · rw [Reading.diagnostics_map]
        exact (read_allCodes _ _ _ _ _).mono (List.subset_append_left ..)
      · exact .one _ (.head _)

end Chart

/-! ## Diagrams other than charts -/

/-- What any diagram but a chart is reported for, and a source without a header. -/
def Diagram.codes : List Code := .unsupportedDiagramType :: (Flowchart.codes ++ Sequence.codes)

theorem Diagram.read_codes (source : List Char) {items : List Item}
    (other : (Items.front finish items).kind ≠ .header .chart) :
    CodesIn codes (Diagram.read source finish items).diagnostics := by
  unfold read
  dsimp only
  split
  · next family found =>
    rw [Reading.diagnostics_map]
    cases family with
    | flowchart => exact (Flowchart.read_codes _ _).mono (by decide)
    | sequence =>
      exact (Reading.statements_codes _ Sequence.readStatement_codes _).mono (by decide)
    | chart => exact absurd (TokenKind.eq_header_of_family? found) other
    | blocks =>
      exact (Reading.statements_codes _ BlockDiagram.readStatement_codes _).mono (by decide)
    | unmodelled kind =>
      exact (Reading.statements_codes _ (Unmodelled.readStatement_codes kind) _).mono (by decide)
  · refine .one _ ?_
    unfold headerProblem
    split <;> exact .head _

end DiagramCheck
