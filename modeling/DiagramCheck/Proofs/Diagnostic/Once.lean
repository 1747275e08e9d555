/-
# Each problem is reported once

What the statements of a diagram report adds up along the source, one stretch
behind the other. Three reports come late and stand early: that a subgraph is
never closed, that two nodes are not connected, and that a chart has no series.
Each has a code of its own, and two of the same kind stand at different tokens.
The diagrams of a source are stretches again, and the rules for comments,
strings and directives report in a manner of their own.

A reader sees a line and a column instead of a byte. Walking through a text
moves on in that order too, so tokens at one line and column are the same.

Main statement: `diagnostics_nodup`.
-/

import DiagramCheck.Proofs.Diagnostic.Reported
import DiagramCheck.Proofs.Flowchart.Closing
import DiagramCheck.Proofs.Token.Places

namespace DiagramCheck

open Diagnostic (ReportedIn Apart StandsIn)
open Items (Rising)

variable {finish : Token} {header first : Item} {items rest : List Item}

/-! ## Lists of elements -/

namespace Element

mutual

/-- An element with the lists inside it holds what the flattened element holds. -/
theorem perm_flatten (element : Element) :
    (element :: (lists element).flatten).Perm (flatten element) := by
  cases element with
  | node => exact .refl _
  | link => exact .refl _
  | subgraph heading elements => exact (perm_flattenAll elements).cons _

private theorem perm_flattenAll (elements : List Element) :
    (allLists elements).flatten.Perm (flattenAll elements) := by
  cases elements with
  | nil => exact .refl _
  | cons element rest =>
    have own := perm_flatten element
    have others := perm_flattenAll rest
    rw [allLists, List.flatten_cons] at others ⊢
    rw [listsAll, List.flatten_append, flattenAll, List.cons_append, ← List.append_assoc]
    refine .trans ?_ (own.append others)
    rw [List.cons_append, ← List.append_assoc]
    exact ((List.perm_append_comm).append_right _).cons _

end

end Element

namespace Flowchart

open Element (allLists flattenAll)

/-! ## Nodes that are not connected -/

/-- Of neighbours in a list at most the second is reported, and no element is second twice. -/
theorem starts_neighbourDiagnostics (items : List Item) (elements : List Element) :
    ((neighbourDiagnostics items elements).map (·.span.start)).Sublist
      (elements.tail.map (·.position.offset)) := by
  fun_induction neighbourDiagnostics items elements with
  | case1 first second rest ih =>
    have pair : ((pairDiagnostics items first second).map (·.span.start)).Sublist
        [second.position.offset] := by
      unfold pairDiagnostics
      split
      · split
        · exact List.nil_sublist _
        · exact .refl _
      · exact List.nil_sublist _
    rw [List.map_append, List.tail_cons, List.map_cons]
    exact pair.append ih
  | case2 => exact List.nil_sublist _

private theorem starts_connectionDiagnostics (items : List Item) (elements : List Element) :
    ((connectionDiagnostics items elements).map (·.span.start)).Sublist
      ((allLists elements).flatten.map (·.position.offset)) := by
  rw [connectionDiagnostics_eq]
  induction allLists elements with
  | nil => exact .refl _
  | cons list lists ih =>
    rw [List.flatMap_cons, List.map_append, List.flatten_cons, List.map_append]
    exact .append ((starts_neighbourDiagnostics items list).trans
      ((List.tail_sublist list).map _)) ih

variable {enclosing : Option Token} {depth links low middle : Nat} {hasSource : Bool} {run : Run}

/-- No two reports of nodes that are not connected stand at one byte. -/
theorem Runs.starts_connection_nodup
    (runs : Runs finish enclosing depth links hasSource items run) (laid : Items.LaidOut items)
    (among : List Item) :
    ((connectionDiagnostics among run.elements).map (·.span.start)).Nodup := by
  have order : ((flattenAll run.elements).map (·.position.offset)).Pairwise (· < ·) :=
    List.pairwise_map.2 (runs.offset_lt laid)
  exact .sublist (starts_connectionDiagnostics among run.elements)
    (((Element.perm_flattenAll run.elements).map _).nodup_iff.2 (order.imp fun less => less.ne))

/-- Nodes that are not connected are reported where elements of the run begin. -/
theorem Runs.connection_reported
    (runs : Runs finish enclosing depth links hasSource items run) (rising : Rising finish items)
    (among : List Item) :
    ReportedIn (Items.front finish items).offset (Items.front finish run.rest).offset
      (connectionDiagnostics among run.elements) := by
  have distinct := runs.starts_connection_nodup rising.laid among
  refine ⟨(List.pairwise_map.1 distinct).imp .of_start, fun diagnostic member => .inl ?_⟩
  obtain ⟨left, right, drawn, rfl⟩ := exists_of_mem_connectionDiagnostics member
  obtain ⟨before, item, after, split, behind, begins⟩ := runs.begins _ drawn
  have start : (unconnected left right).span.start = item.offset :=
    congrArg Position.offset begins.position
  have listed : item ∈ items := by rw [split]; simp
  refine ⟨rfl, ?_, ?_⟩
  · rw [start]
    exact rising.front_le_of_mem listed
  · rw [start]
    refine (rising.suffix ?_).first_lt behind
    rw [split]
    exact List.suffix_append ..

/-! ## Runs -/

/-- What a run reports from `low` on; last of all may come the subgraph it belongs to. -/
def Run.Reports (finish : Token) (enclosing : Option Token) (low : Nat) (run : Run) : Prop :=
  ∃ inner ending, run.diagnostics = inner ++ ending ∧
    (ending = [] ∨ ending = unclosed enclosing) ∧
      ReportedIn low (Items.front finish run.rest).offset inner

/-- A statement before a run. -/
theorem Run.Reports.prepend {diagnostics : List Diagnostic}
    (reports : run.Reports finish enclosing middle) (own : ReportedIn low middle diagnostics)
    (start : low ≤ middle) (stop : middle ≤ (Items.front finish run.rest).offset)
    (element : Option Element) :
    (run.prepend element diagnostics).Reports finish enclosing low := by
  obtain ⟨inner, ending, split, last, reported⟩ := reports
  refine ⟨diagnostics ++ inner, ending, ?_, last, own.append reported start stop⟩
  rw [Run.prepend, split, List.append_assoc]

/-- A subgraph: its heading, what is inside, and that it is never closed. -/
theorem Run.Reports.inside (reports : run.Reports finish (some first.toToken) middle)
    {heading : List Diagnostic} (own : ReportedIn first.offset middle heading)
    (codes : Diagnostic.CodesIn [.parseError] heading) (start : first.offset < middle)
    (stop : middle ≤ (Items.front finish run.rest).offset) :
    ReportedIn first.offset (Items.front finish run.rest).offset (heading ++ run.diagnostics) := by
  obtain ⟨inner, ending, split, last, reported⟩ := reports
  have opened : ReportedIn first.offset middle (heading ++ ending) := by
    rcases last with rfl | rfl
    · rwa [List.append_nil]
    · refine own.both_of_codes (.taken rfl le_rfl start) fun diagnostic member other same => ?_
      rw [List.mem_singleton.1 (codes diagnostic member), List.mem_singleton.1 same]
      exact Code.noConfusion
  -- The missing end is said last, but stands at the keyword of the subgraph.
  rw [split, ← List.append_assoc]
  refine (opened.append reported start.le stop).perm ?_
  rw [List.append_assoc, List.append_assoc]
  exact List.perm_append_comm.append_left heading

theorem Runs.reports (runs : Runs finish enclosing depth links hasSource items run)
    (rising : Rising finish items) :
    run.Reports finish enclosing (Items.front finish items).offset := by
  -- By induction on the derivation: each statement is a stretch before that of the later ones.
  induction runs with
  | nil => exact ⟨[], _, rfl, .inr rfl, .nil⟩
  | boundary => exact ⟨[], _, rfl, .inr rfl, .nil⟩
  | closed => exact ⟨[], [], rfl, .inl rfl, .nil⟩
  | unmatched _ _ later ih =>
    have before := rising.first_lt (List.suffix_refl _)
    exact (ih rising.tail).prepend (.taken rfl le_rfl before) before.le
      (rising.tail.front_le later.suffix) _
  | @subgraph _ _ _ _ first rest body run _ _ _ nested later nestedReports laterReports =>
    have heading := readHeading_suffix finish first.toToken rest
    have inside := rising.tail.suffix heading
    have behind := inside.suffix nested.suffix
    have own := (nestedReports inside).inside (readHeading_reported rising)
      (readHeading_codes first.toToken rest) (rising.first_lt heading)
      (inside.front_le nested.suffix)
    exact (laterReports behind).prepend own (rising.first_lt (nested.suffix.trans heading)).le
      (behind.front_le later.suffix) _
  | @tooDeep _ _ _ _ first rest _ _ _ _ later ih =>
    have skipped := skipSubgraph_suffix 1 rest
    have before := rising.first_lt skipped
    exact (ih (rising.tail.suffix skipped)).prepend (.taken rfl le_rfl before) before.le
      ((rising.tail.suffix skipped).front_le later.suffix) _
  | @plain _ _ links hasSource first rest _ _ _ _ _ read later ih =>
    subst read
    have suffix := readPlain_suffix finish links hasSource first rest
    have left := rising.tail.suffix suffix
    exact (ih left).prepend (readPlain_reported rising _ _) (rising.first_lt suffix).le
      (left.front_le later.suffix) _

/-- Neither the direction nor the elements report that nodes are not connected. -/
theorem code_ne_missingArrow {header : Token} {diagnostic : Diagnostic}
    (member : diagnostic ∈ (readDirection header rest).diagnostics ++
      (Flowchart.run finish none 0 0 false (readDirection header rest).rest).diagnostics) :
    diagnostic.code ≠ .missingArrow := by
  have all : Items.Within (fun _ => True) rest := fun _ _ => trivial
  rcases List.mem_append.1 member with member | member
  · obtain ⟨token, problem, -, code, rfl⟩ := readDirection_standAt all diagnostic member
    exact code
  · have stands : Diagnostic.StandAt (fun _ => True) _ :=
      (runs_run finish none 0 0 false (readDirection header rest).rest).standAt trivial
        (fun _ _ => trivial) (all.suffix (readDirection_suffix header rest))
    obtain ⟨token, problem, -, code, rfl⟩ := stands diagnostic member
    exact code

/-- The direction, the elements, and the nodes that are not connected. -/
theorem read_reported (rising : Rising finish (header :: rest)) :
    (Flowchart.read finish header.toToken rest).ReportsFrom finish header.offset := by
  have direction := readDirection_reported rising
  have suffix := readDirection_suffix header.toToken rest
  have inside := rising.tail.suffix suffix
  have runs := runs_run finish none 0 0 false (readDirection header.toToken rest).rest
  obtain ⟨inner, ending, split, last, reported⟩ := runs.reports inside
  have closed : ending = [] := by
    rcases last with rfl | rfl <;> rfl
  rw [closed, List.append_nil] at split
  have before := (rising.first_lt suffix).le
  have after := inside.front_le runs.suffix
  have elements := direction.append reported before after
  rw [← split] at elements
  refine elements.both_of_codes ((runs.connection_reported inside rest).mono before le_rfl)
    fun diagnostic member other joined => ?_
  rw [List.mem_singleton.1 (connectionDiagnostics_codes _ _ other joined)]
  exact code_ne_missingArrow member

end Flowchart

/-! ## Diagrams -/

namespace Diagram

/-- A diagram read statement by statement, from behind its header line to the end of the input. -/
theorem statements_reported {α : Type} {read : Item → List Item → Reading α}
    (suffix : ∀ first rest, (read first rest).rest <:+ rest)
    (each : ∀ first rest, Rising finish (first :: rest) →
      (read first rest).ReportsFrom finish first.offset)
    (rising : Rising finish (header :: rest)) :
    ReportedIn (Items.front finish (Items.skipLine header.line rest)).offset finish.offset
      ((Reading.statements read suffix (Items.skipLine header.line rest)).flatMap
        (·.diagnostics)) :=
  Reading.statements_reported suffix each (rising.tail.suffix (Items.skipLine_suffix ..))

private theorem read_chart_reported (source : List Char) (rising : Rising finish (header :: rest)) :
    (Chart.read source finish header.toToken rest).ReportsFrom finish header.offset := by
  have statements := statements_reported (Chart.readStatement_suffix source finish)
    (fun _ _ rising => Chart.readStatement_reported source rising) rising
  have before := rising.first_lt (Items.skipLine_suffix header.line rest)
  have missing (chart : Chart) : ReportedIn header.offset (Items.front finish
      (Items.skipLine header.line rest)).offset
        (if chart.series.isEmpty then [Diagnostic.atToken header.toToken .chartWithoutData]
          else []) := by
    split
    · exact .taken rfl le_rfl before
    · exact .nil
  have left := (rising.tail.suffix (Items.skipLine_suffix header.line rest)).front_le
    List.nil_suffix
  -- That there are no series is known at the end and said of the header.
  exact ((missing _).append statements before.le left).perm List.perm_append_comm

theorem read_reported (source : List Char) (rising : Rising finish (first :: rest)) :
    (read source finish (first :: rest)).ReportsFrom finish first.offset := by
  have below := rising.below first (List.mem_cons_self ..)
  have before := (rising.first_lt (Items.skipLine_suffix first.line rest)).le
  unfold read
  dsimp only [Items.front]
  split
  · next family _ =>
    refine Reading.ReportsFrom.map ?_ _
    cases family with
    | flowchart => exact (Flowchart.read_reported rising).map _
    | sequence =>
      exact (statements_reported _ (fun _ _ => Sequence.readStatement_reported) rising).mono before
        le_rfl
    | chart => exact (read_chart_reported source rising).map _
    | blocks =>
      exact (statements_reported _ (fun _ _ => BlockDiagram.readStatement_reported) rising).mono
        before le_rfl
    | unmodelled kind =>
      exact (statements_reported _ (fun _ _ => Unmodelled.readStatement_reported kind) rising).mono
        before le_rfl
  · refine .taken ?_ le_rfl below
    unfold headerProblem
    split <;> rfl

end Diagram

/-! ## Sources -/

namespace Validation

/-- What the grammars report of a source. -/
theorem diagrams_reported (source : String) :
    ReportedIn 0 ((Layout.finish source).offset + 1)
      ((diagrams source).1.diagnostics ++ (diagrams source).2.flatMap (·.diagnostics)) := by
  have rising := Items.Rising.of_source source
  unfold diagrams Diagram.ofItems
  dsimp only
  generalize Layout.items (Token.tokenize source) = items at *
  cases items with
  | nil =>
    -- Without items the missing header is all that is said.
    have missing : (Diagram.read source.toList (Layout.finish source) []).diagnostics =
        [.atToken (Layout.finish source) .missingHeader] := rfl
    have none : Diagram.readAll source.toList (Layout.finish source)
        (Diagram.read source.toList (Layout.finish source) []).rest = [] :=
      Diagram.readAll_nil ..
    rw [missing, none]
    exact .taken rfl (Nat.zero_le _) (Nat.lt_succ_self _)
  | cons first rest =>
    have suffix := Diagram.read_suffix source.toList (Layout.finish source) first rest
    have left := rising.tail.suffix suffix
    have later := Reading.statements_reported
      (Diagram.read_suffix source.toList (Layout.finish source))
      (fun _ _ rising => Diagram.read_reported source.toList rising) left
    exact ((Diagram.read_reported source.toList rising).append later (rising.first_lt suffix).le
      (left.front_le List.nil_suffix)).mono (Nat.zero_le _) (Nat.le_succ _)

end Validation

namespace Layout

/-- The rules for comments, strings and directives report in their own manner, each at a token. -/
theorem mem_lexicalDiagnosticsAfter {previous : Option Token} {tokens : List Token}
    {diagnostic : Diagnostic} (member : diagnostic ∈ lexicalDiagnosticsAfter previous tokens) :
    diagnostic.manner = .lexical ∧ ∃ token ∈ tokens, diagnostic.span.start = token.offset := by
  obtain ⟨before, token, behind, problem, rfl, found, rfl⟩ :=
    mem_lexicalDiagnosticsAfter_iff.1 member
  refine ⟨?_, token, by simp, rfl⟩
  rw [Diagnostic.manner_atToken]
  unfold Token.lexicalProblem? at found
  repeat' split at found
  all_goals cases found
  all_goals rfl

private theorem lexicalDiagnosticsAfter_apart (previous : Option Token) {tokens : List Token}
    (order : tokens.Pairwise Token.Precedes) :
    (lexicalDiagnosticsAfter previous tokens).Pairwise Apart := by
  induction tokens generalizing previous with
  | nil => exact .nil
  | cons token rest ih =>
    obtain ⟨before, later⟩ := List.pairwise_cons.1 order
    refine List.pairwise_append.2 ⟨?_, ih (some token) later, fun own here other behind => ?_⟩
    · cases token.lexicalProblem? previous with
      | none => exact .nil
      | some problem => exact List.pairwise_singleton ..
    · obtain ⟨-, next, listed, start⟩ := mem_lexicalDiagnosticsAfter behind
      have place : own.span.start = token.offset := by
        obtain ⟨problem, -, rfl⟩ : ∃ problem, token.lexicalProblem? previous = some problem ∧
            Diagnostic.atToken token problem = own := by
          simpa using here
        rfl
      refine .of_start ?_
      rw [place, start]
      exact (before next listed).offset_lt.ne

end Layout

namespace Validation

/-- No two things found in a source are said of one byte in the same words. -/
theorem found_apart (source : String) : (found source).Pairwise Apart := by
  have grammars := diagrams_reported source
  have lexical := Layout.lexicalDiagnosticsAfter_apart none (Token.tiles_tokenize source).pairwise
  have split : found source = Layout.lexicalDiagnostics (Token.tokenize source) ++
      ((diagrams source).1.diagnostics ++ (diagrams source).2.flatMap (·.diagnostics)) :=
    List.append_assoc ..
  rw [split]
  refine List.pairwise_append.2 ⟨lexical, grammars.once, fun own member other said => ?_⟩
  refine .of_manner ?_
  rw [(Layout.mem_lexicalDiagnosticsAfter member).1]
  rcases grammars.stand other said with ⟨taken, -⟩ | ⟨ahead, -⟩
  · rw [taken]
    exact Manner.noConfusion
  · rw [ahead]
    exact Manner.noConfusion

end Validation

/-! ## Lines and columns -/

/-- Whatever is found in a source is found at a token of it. -/
theorem Validation.exists_token {source : String} {diagnostic : Diagnostic}
    (member : diagnostic ∈ found source) :
    ∃ token ∈ Token.tokenize source, diagnostic.line = token.line ∧
      diagnostic.column = token.column ∧ diagnostic.span.start = token.offset := by
  obtain ⟨before, token, behind, split, points⟩ := found_located source diagnostic member
  have listed : token ∈ Token.tokenize source := by rw [split]; simp
  exact ⟨token, listed, points.line, points.column, points.start⟩

/-- Things found at one line and column are found at one byte. -/
theorem Validation.start_eq_of_place {source : String} {first second : Diagnostic}
    (member : first ∈ found source) (member' : second ∈ found source)
    (line : first.line = second.line) (column : first.column = second.column) :
    first.span.start = second.span.start := by
  obtain ⟨token, listed, ownLine, ownColumn, own⟩ := exists_token member
  obtain ⟨token', listed', ownLine', ownColumn', own'⟩ := exists_token member'
  rw [ownLine, ownLine'] at line
  rw [ownColumn, ownColumn'] at column
  rw [own, own']
  exact Token.offset_eq_of_place listed listed' line column

/-- Each problem is reported once: no two diagnostics of a source agree in code, line, column and
message. -/
theorem diagnostics_nodup (source : String) :
    ((validate source).diagnostics.map fun diagnostic =>
      (diagnostic.code, diagnostic.line, diagnostic.column, diagnostic.message)).Nodup := by
  unfold validate
  split
  · exact List.pairwise_singleton ..
  · have sorted : (Diagnostic.inSourceOrder (Validation.found source)).Perm
        (Validation.found source) := List.mergeSort_perm ..
    refine (sorted.map _).nodup_iff.2 (List.pairwise_map.2 ?_)
    refine (Validation.found_apart source).imp_of_mem fun member member' apart same => ?_
    obtain ⟨code, line, column, message⟩ : _ ∧ _ ∧ _ ∧ _ := by simpa using same
    exact apart code message (Validation.start_eq_of_place member member' line column)

end DiagramCheck
