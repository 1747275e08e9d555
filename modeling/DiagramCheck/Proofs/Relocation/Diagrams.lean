/-
# Checking a relocated source

Diagram after diagram is read of a relocated source as it is of the source, and
the same is said of both. So what a source comes to does not depend on how its
lines end: with a carriage return before every newline it is as valid, its
diagram has the same type, and its diagnostics have the same codes and stand at
the same lines and columns, in the same order.

Main statement: `validate_withCarriageReturns`.
-/

import DiagramCheck.Proofs.Diagnostic.Location
import DiagramCheck.Proofs.Diagnostic.Order
import DiagramCheck.Proofs.Relocation.Families
import DiagramCheck.Proofs.Relocation.Flowchart

namespace DiagramCheck

open Items (Within)

namespace Layout

/-- The items of a source stand in it. -/
theorem standsIn_items (source : String) :
    Within (Token.StandsIn source.toList) (items (Token.tokenize source)) := by
  intro item member
  obtain ⟨passed, behind, split, starts⟩ :=
    (Token.tiles_tokenize source).exists_split [] rfl _ (toToken_mem_of_mem_items member)
  rw [List.nil_append] at split
  refine ⟨isCut_of_mem_items source item member, ⟨passed, _, split, starts⟩,
    passed ++ item.text.toList, behind, by rw [split, List.append_assoc], ?_⟩
  rw [starts, Position.after_append]

end Layout

namespace Relocation

variable (move : Relocation) {source before : List Char}

/-! ## Diagrams -/

section Diagrams

variable (size : Text.byteLength before = move.bytes) (finish : Token) {items : List Item}

include size

private theorem readContent_reads (header : Token) {rest : List Item}
    (within : Within (Token.StandsIn source) rest) (family : Family) :
    move.Reads (fun content content' => content'.type = content.type)
      (Diagram.readContent source finish header rest family)
      (Diagram.readContent (before ++ move.chars source) (move.token finish) (move.token header)
        (rest.map move.item) family) := by
  cases family with
  | flowchart =>
    rw [Diagram.readContent, Diagram.readContent]
    exact (move.flowchart_reads finish header within).map fun _ _ _ => rfl
  | sequence =>
    rw [Diagram.readContent, Diagram.readContent]
    exact (move.sequence_reads finish header within).map fun _ _ _ => rfl
  | chart =>
    rw [Diagram.readContent, Diagram.readContent]
    exact (move.chart_reads finish size header within).map fun _ _ _ => rfl
  | blocks =>
    rw [Diagram.readContent, Diagram.readContent]
    exact (move.blocks_reads finish header within).map fun _ _ _ => rfl
  | unmodelled kind =>
    rw [Diagram.readContent, Diagram.readContent]
    exact (move.unmodelled_reads kind finish header within).map fun _ _ _ => rfl

omit size in
private theorem code_headerProblem (token : Token) :
    (Diagram.headerProblem token).code = .unsupportedDiagramType := by
  unfold Diagram.headerProblem
  split <;> rfl

/-- A diagram of the relocated source is read as that of the source. -/
theorem diagram_reads (within : Within (Token.StandsIn source) items) :
    move.Reads (fun diagram diagram' => diagram'.type = diagram.type)
      (Diagram.read source finish items)
      (Diagram.read (before ++ move.chars source) (move.token finish) (items.map move.item)) := by
  simp only [Diagram.read, front_item, kind_token, ← List.map_tail]
  split
  · next family _ =>
    exact (move.readContent_reads size finish _ within.tail family).map fun _ _ same => same
  · refine ⟨rfl, move.tells_one _ ?_ fun exact => ?_, rfl⟩
    · rw [code_headerProblem, code_headerProblem]
    · rw [Diagram.headerProblem, Diagram.headerProblem, found_token move exact]

theorem readAll_reads (within : Within (Token.StandsIn source) items) :
    List.Forall₂ (move.Reads fun diagram diagram' => diagram'.type = diagram.type)
      (Diagram.readAll source finish items)
      (Diagram.readAll (before ++ move.chars source) (move.token finish) (items.map move.item)) :=
  move.statements_reads (fun _ _ within => move.diagram_reads size finish within) within

end Diagrams

/-! ## Tokens and items of a source -/

theorem tokens_match (source : String) :
    List.Forall₂ move.Matches (Token.tokenize source)
      (Token.stream (move.position .start) (move.chars source.toList)) :=
  move.stream_relocated (Nat.le_refl 1) source.toList

/-- The items of a relocated source are those of the source put elsewhere. -/
theorem items_relocated (source : String) :
    Layout.items (Token.stream (move.position .start) (move.chars source.toList)) =
      (Layout.items (Token.tokenize source)).map move.item := by
  rw [Layout.items, move.significant_relocated (move.tokens_match source)]
  exact move.place_token none _

theorem token_finish (source : String) :
    move.token (Layout.finish source) =
      .endOfInput ((move.position .start).after (move.chars source.toList)) := by
  rw [← move.position_after (Nat.le_refl 1)]
  rfl

end Relocation

/-! ## Line ends -/

/-- A text with a carriage return before every newline. -/
def Text.withCarriageReturns (text : String) : String :=
  String.ofList (text.toList.flatMap fun c => if c = '\n' then ['\r', '\n'] else [c])

namespace Relocation

/-- One carriage return before every newline, and nothing in front of the text. -/
def lineEnds : Relocation := ⟨0, 0, 1⟩

private theorem toList_withCarriageReturns (text : String) :
    (Text.withCarriageReturns text).toList = lineEnds.chars text.toList := by
  rw [Text.withCarriageReturns, String.toList_ofList]
  induction text.toList with
  | nil => rfl
  | cons c text ih =>
    rw [List.flatMap_cons, ih]
    by_cases newline : c = '\n'
    · subst newline
      rfl
    · rw [if_neg newline, chars_cons _ newline]
      rfl

private theorem position_start_lineEnds : lineEnds.position .start = .start := rfl

/-- What is found in a source does not depend on its line ends. -/
theorem diagrams_lineEnds (source : String) :
    lineEnds.Reads (fun diagram diagram' => diagram'.type = diagram.type)
        (Validation.diagrams source).1
        (Validation.diagrams (Text.withCarriageReturns source)).1 ∧
      List.Forall₂ lineEnds.Tells (Validation.found source)
        (Validation.found (Text.withCarriageReturns source)) := by
  have within := Layout.standsIn_items source
  have size : Text.byteLength [] = lineEnds.bytes := rfl
  -- The tokens, the items and the end of one source are those of the other.
  have text := toList_withCarriageReturns source
  have tokens : Token.tokenize (Text.withCarriageReturns source) =
      Token.stream (lineEnds.position .start) (lineEnds.chars source.toList) := by
    rw [Token.tokenize, text, position_start_lineEnds]
  have items : Layout.items (Token.tokenize (Text.withCarriageReturns source)) =
      (Layout.items (Token.tokenize source)).map lineEnds.item := by
    rw [tokens, items_relocated]
  have finish : Layout.finish (Text.withCarriageReturns source) =
      lineEnds.token (Layout.finish source) := by
    rw [Layout.finish, text, token_finish, position_start_lineEnds]
  have first : lineEnds.Reads (fun diagram diagram' => diagram'.type = diagram.type)
      (Validation.diagrams source).1
      (Validation.diagrams (Text.withCarriageReturns source)).1 := by
    have reads := lineEnds.diagram_reads size (Layout.finish source) within
    rwa [List.nil_append, ← text, ← finish, ← items] at reads
  have later := lineEnds.readAll_reads size (Layout.finish source)
    (within.suffix (Validation.diagrams_rest_suffix source))
  rw [List.nil_append, ← text, ← finish, ← first.rest] at later
  have lexical := lineEnds.lexicalDiagnosticsAfter_tells (lineEnds.tokens_match source)
    (Token.isCut_or_endOfInput source) .none
  rw [← tokens] at lexical
  exact ⟨first, List.rel_append (List.rel_append lexical first.diagnostics)
    (lineEnds.flatMap_diagnostics_tells later)⟩

private theorem all_isBlank_chars (move : Relocation) (text : List Char) :
    (move.chars text).all Text.isBlank = text.all Text.isBlank := by
  induction text with
  | nil => rfl
  | cons c text ih =>
    by_cases newline : c = '\n'
    · subst newline
      rw [chars_newline, List.all_append, all_isBlank_lead, List.all_cons, List.all_cons, ih,
        Bool.true_and]
    · rw [chars_cons move newline, List.all_cons, List.all_cons, ih]

end Relocation

/-- Whether lines end in a newline alone or with a carriage return before it has no bearing on
what is said of a source, except for the bytes it is said of. -/
theorem validate_withCarriageReturns (source : String) :
    (validate (Text.withCarriageReturns source)).isValid = (validate source).isValid ∧
      (validate (Text.withCarriageReturns source)).type = (validate source).type ∧
      List.Forall₂
        (fun diagnostic diagnostic' => diagnostic'.code = diagnostic.code ∧
          diagnostic'.line = diagnostic.line ∧ diagnostic'.column = diagnostic.column)
        (validate source).diagnostics
        (validate (Text.withCarriageReturns source)).diagnostics := by
  have blank : Text.isBlankText (Text.withCarriageReturns source) = Text.isBlankText source := by
    rw [Text.isBlankText, Text.isBlankText, Relocation.toList_withCarriageReturns,
      Relocation.all_isBlank_chars]
  obtain ⟨first, found⟩ := Relocation.diagrams_lineEnds source
  have told : List.Forall₂ Relocation.lineEnds.Tells (validate source).diagnostics
      (validate (Text.withCarriageReturns source)).diagnostics ∧
      (validate (Text.withCarriageReturns source)).type = (validate source).type := by
    rw [validate, validate, blank]
    split
    · exact ⟨.cons ⟨rfl, rfl, rfl, fun exact => absurd exact Nat.one_ne_zero⟩ .nil, rfl⟩
    · refine ⟨Diagnostic.forall₂_inSourceOrder ?_ found, first.value⟩
      intro first first' second second' own next
      rw [Bool.eq_iff_iff, Diagnostic.precedes_iff, Diagnostic.precedes_iff, own.line, next.line,
        own.column, next.column]
      omega
  refine ⟨?_, told.2, told.1.imp fun _ _ tells => ⟨tells.code, tells.line, tells.column⟩⟩
  rw [Verdict.isValid, Verdict.isValid, Bool.eq_iff_iff, List.isEmpty_iff_length_eq_zero,
    List.isEmpty_iff_length_eq_zero, told.1.length_eq]

end DiagramCheck
