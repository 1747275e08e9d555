/-
# Diagrams below a flowchart

When nothing is wrong with a flowchart, any diagrams may be put below it: the
flowchart is read as before, and the diagrams below it as they are read alone, only
further down. No directive may be open at the end of the flowchart, and every
header that begins one of its lines must be that of a flowchart, since any other
diagram would go on to the end of the input.

Main statement: `validate_below_flowchart`.
-/

import DiagramCheck.Proofs.Diagram.Progress
import DiagramCheck.Proofs.Flowchart.Frame
import DiagramCheck.Proofs.Relocation.Below

namespace DiagramCheck

open Items (Above)

/-! ## Sources with nothing wrong -/

namespace Layout

/-- Without directives a source in which nothing is left open has no token that runs on. -/
theorem settled_of_lexicalDiagnostics {previous : Option Token} {tokens : List Token}
    (clean : lexicalDiagnosticsAfter previous tokens = [])
    (undirected : ∀ token ∈ tokens, token.kind ≠ .directive) :
    ∀ token ∈ tokens, token.runsOn = false := by
  induction tokens generalizing previous with
  | nil => exact fun _ member => by cases member
  | cons token tokens ih =>
    obtain ⟨own, later⟩ := List.append_eq_nil_iff.1 clean
    obtain ⟨plain, undirected⟩ := List.forall_mem_cons.1 undirected
    refine List.forall_mem_cons.2 ⟨?_, ih later undirected⟩
    have plain : (token.kind == .directive) = false := beq_eq_false_iff_ne.2 plain
    cases runs : token.isUnterminatedString with
    | false => rw [Token.runsOn, plain, runs, Bool.or_self]
    | true =>
      have string : token.kind = .string := by
        rw [Token.isUnterminatedString, Bool.and_eq_true, beq_iff_eq] at runs
        exact runs.1
      simp [Token.lexicalProblem?, Token.isUnterminatedDirective, string, runs] at own

end Layout

namespace Diagram

variable {source source' : List Char} {finish finish' : Token} {first next : Item}
  {rest more : List Item}

/-- A flowchart with nothing wrong is read the same whatever diagram follows. -/
theorem read_append (above : Above (first :: rest) (next :: more))
    (boundary : Flowchart.isBoundary next = true) (finished : finish.kind = .endOfInput)
    (kind : first.kind = .header .flowchart)
    (clean : (read source finish (first :: rest)).diagnostics = []) :
    read source' finish' (first :: (rest ++ next :: more)) =
      (read source finish (first :: rest)).extend (next :: more) := by
  rw [Flowchart.read_of_flowchart_header kind] at clean
  rw [Flowchart.read_of_flowchart_header kind, Flowchart.read_of_flowchart_header kind,
    Flowchart.read_append above boundary finished clean]
  rfl

/-- Where every header that begins a line is that of a flowchart, all diagrams are flowcharts. -/
theorem readAll_flowcharts {items : List Item}
    (alone : ∀ item ∈ items, Flowchart.isBoundary item = true → item.kind = .header .flowchart)
    (begins : ∀ first rest, items = first :: rest → Flowchart.isBoundary first = true) :
    ∀ reading ∈ readAll source finish items, reading.value.type = .known .flowchart := by
  -- By induction on the diagrams: a flowchart ends where a header begins a line.
  rw [readAll]
  fun_induction Reading.statements (fun first rest => read source finish (first :: rest))
    (read_suffix source finish) items with
  | case1 => exact fun _ member => by cases member
  | case2 first rest ih =>
    have kind := alone first (List.mem_cons_self ..) (begins first rest rfl)
    have drawn := @Flowchart.read_of_flowchart_header source finish _ rest kind
    refine List.forall_mem_cons.2 ⟨by rw [drawn]; rfl, ih (fun item member => ?_) ?_⟩
    · have inside := (read_suffix source finish first rest).subset member
      exact alone item (List.mem_cons_of_mem _ inside)
    · rw [drawn]
      exact (Flowchart.runs_run ..).rest_of_none

/-- Diagrams that are flowcharts with nothing wrong are read the same whatever follows. -/
theorem readAll_append {items : List Item} (above : Above items (next :: more))
    (boundary : Flowchart.isBoundary next = true) (finished : finish.kind = .endOfInput)
    (flowcharts : ∀ reading ∈ readAll source finish items,
      reading.value.type = .known .flowchart ∧ reading.diagnostics = []) :
    readAll source' finish' (items ++ next :: more) =
      (readAll source finish items).map (·.extend (next :: more)) ++
        readAll source' finish' (next :: more) :=
  Reading.statements_append fun _ _ suffix member =>
    have own := flowcharts _ member
    read_append (above.suffix suffix) boundary finished (kind_of_type own.1) own.2

end Diagram

/-! ## Verdicts -/

namespace Validation

/-- The first significant token of a source begins a line. -/
theorem startsLine_of_items {source : String} {first : Item} {rest : List Item}
    (items : Layout.items (Token.tokenize source) = first :: rest) : first.startsLine = true := by
  rw [Layout.items] at items
  cases tokens : (Token.tokenize source).filter Token.isSignificant with
  | nil =>
    rw [tokens] at items
    cases items
  | cons token tokens' =>
    rw [tokens, Layout.place] at items
    rw [← (List.cons.inj items).1]
    rfl

/-- With a significant token a source is what its diagrams are, one after the other. -/
theorem validate_of_items {source : String} {first : Item} {rest : List Item}
    (items : Layout.items (Token.tokenize source) = first :: rest) :
    validate source =
      ⟨Diagnostic.inSourceOrder (Layout.lexicalDiagnostics (Token.tokenize source) ++
          (Diagram.readAll source.toList (Layout.finish source) (first :: rest)).flatMap
            (·.diagnostics)),
        some (Diagram.read source.toList (Layout.finish source) (first :: rest)).value⟩ := by
  rw [validate, Flowchart.isBlankText_of_items items, if_neg Bool.false_ne_true, found, diagrams,
    items, Diagram.ofItems, Diagram.readAll_cons, List.flatMap_cons, ← List.append_assoc]

/-- A source of some type has a significant token. -/
theorem exists_items_of_type {source : String} {family : Family}
    (drawn : diagramType source = .known family) :
    ∃ first rest, Layout.items (Token.tokenize source) = first :: rest := by
  cases items : Layout.items (Token.tokenize source) with
  | cons first rest => exact ⟨first, rest, rfl⟩
  | nil =>
    rw [diagramType, validate] at drawn
    split at drawn
    · cases drawn
    · rw [diagrams, items] at drawn
      cases drawn

/-- In a valid source neither the rules for comments, strings and directives nor the grammars find
anything. -/
theorem clean_of_isValid {source : String} {first : Item} {rest : List Item}
    (items : Layout.items (Token.tokenize source) = first :: rest)
    (valid : isValid source = true) :
    Layout.lexicalDiagnostics (Token.tokenize source) = [] ∧
      ∀ reading ∈ Diagram.readAll source.toList (Layout.finish source) (first :: rest),
        reading.diagnostics = [] := by
  rw [isValid, validate_of_items items, Verdict.isValid, Diagnostic.isEmpty_inSourceOrder,
    List.isEmpty_iff, List.append_eq_nil_iff, List.flatMap_eq_nil_iff] at valid
  exact valid

/-- A diagram of some family is read below its header, and in a valid source nothing is wrong
there. -/
theorem exists_content {source : String} {diagram : Diagram}
    (drawn : (validate source).diagram? = some diagram) (known : diagram.content ≠ .unknown) :
    ∃ header rest family, Layout.items (Token.tokenize source) = header :: rest ∧
      diagram.content = (Diagram.readContent source.toList (Layout.finish source) header.toToken
        rest family).value ∧
      (isValid source = true → (Diagram.readContent source.toList (Layout.finish source)
        header.toToken rest family).diagnostics = []) := by
  cases items : Layout.items (Token.tokenize source) with
  | nil =>
    rw [validate] at drawn
    split at drawn
    · cases drawn
    · rw [diagrams, items] at drawn
      cases drawn
      exact absurd rfl known
  | cons header rest =>
    have clean (valid : isValid source = true) :=
      (clean_of_isValid items valid).2 _ (Diagram.readAll_cons .. ▸ List.mem_cons_self ..)
    rw [validate_of_items items] at drawn
    obtain rfl := Option.some.inj drawn
    unfold Diagram.read at known clean ⊢
    dsimp only [Items.front] at known clean ⊢
    generalize header.kind.family? = family? at known clean ⊢
    cases family? with
    | some family => exact ⟨header, rest, family, rfl, rfl, clean⟩
    | none => exact absurd rfl known

end Validation

/-- Below a flowchart with nothing wrong, and without directives or headers of other diagrams that
begin a line, any diagrams are checked as they are alone, and the flowchart stays the diagram of
the source. -/
theorem validate_below_flowchart (above text : String) (valid : isValid above = true)
    (drawn : diagramType above = .known .flowchart)
    (undirected : ∀ token ∈ Token.tokenize above, token.kind ≠ .directive)
    (alone : ∀ item ∈ Layout.items (Token.tokenize above), item.kind.isHeader = true →
      item.startsLine = true → item.kind = .header .flowchart)
    (begins : (Layout.items (Token.tokenize text)).head?.any (·.kind.isHeader) = true) :
    (validate (above ++ "\n" ++ text)).type = .known .flowchart ∧
      (validate (above ++ "\n" ++ text)).diagram? = (validate above).diagram? ∧
      (validate (above ++ "\n" ++ text)).diagnostics =
        (validate text).diagnostics.map
          (·.shift (above.toList.count '\n' + 1) (above.utf8ByteSize + 1)) := by
  obtain ⟨first, rest, items⟩ := Validation.exists_items_of_type drawn
  obtain ⟨next, more, items', header⟩ : ∃ next more,
      Layout.items (Token.tokenize text) = next :: more ∧ next.kind.isHeader = true := by
    cases items' : Layout.items (Token.tokenize text) with
    | nil =>
      rw [items'] at begins
      cases begins
    | cons next more =>
      rw [items'] at begins
      exact ⟨next, more, rfl, begins⟩
  -- Nothing is found above, and every diagram there is a flowchart.
  obtain ⟨lexical, clean⟩ := Validation.clean_of_isValid items valid
  have kind : first.kind = .header .flowchart := by
    rw [diagramType, Validation.validate_of_items items] at drawn
    exact Diagram.kind_of_type drawn
  have start : ∀ item rest', first :: rest = item :: rest' → Flowchart.isBoundary item = true := by
    rintro _ _ ⟨⟩
    rw [Flowchart.isBoundary, kind, Validation.startsLine_of_items items]
    rfl
  rw [items] at alone
  have flowcharts := @Diagram.readAll_flowcharts above.toList (Layout.finish above) _
    (fun item member boundary => by
      rw [Flowchart.isBoundary, Bool.and_eq_true] at boundary
      exact alone item member boundary.1 boundary.2) start
  -- A header that begins a line stands below.
  have boundary : Flowchart.isBoundary ((Relocation.below above).item next) = true := by
    rw [Flowchart.isBoundary, Relocation.startsLine_item, Validation.startsLine_of_items items',
      Bool.and_true]
    exact header
  have settled := Layout.settled_of_lexicalDiagnostics lexical undirected
  have apart := Relocation.above_below above text
  have whole := Relocation.items_below text settled
  have diagrams := Relocation.readAll_below above text
  rw [items, items', List.map_cons] at apart whole
  rw [items', List.map_cons] at diagrams
  have readings := @Diagram.readAll_append _ (above ++ "\n" ++ text).toList _
    (Layout.finish (above ++ "\n" ++ text)) _ _ _ apart boundary rfl
    fun reading member => ⟨flowcharts reading member, clean reading member⟩
  have front := @Diagram.read_append _ (above ++ "\n" ++ text).toList _
    (Layout.finish (above ++ "\n" ++ text)) _ _ _ _ apart boundary rfl kind
    (clean _ (Diagram.read_mem_readAll ..))
  rw [List.cons_append] at whole readings
  have diagram : (validate (above ++ "\n" ++ text)).diagram? = (validate above).diagram? := by
    rw [Validation.validate_of_items whole, Validation.validate_of_items items, front]
    rfl
  refine ⟨?_, diagram, ?_⟩
  · rw [Verdict.type, diagram]
    exact drawn
  · have quiet : (Diagram.readAll above.toList (Layout.finish above)
        (first :: rest)).flatMap (·.diagnostics) = [] := List.flatMap_eq_nil_iff.2 clean
    rw [Validation.validate_of_items whole, Validation.validate_of_items items', readings,
      Relocation.lexicalDiagnostics_below text settled, lexical, List.flatMap_append,
      List.flatMap_map]
    simp only [Reading.extend]
    rw [quiet, diagrams, List.nil_append, List.nil_append, ← List.map_append,
      Diagnostic.inSourceOrder_shift]
    rfl

/-- A sequence diagram below a flowchart with a link and a second flowchart. -/
theorem validate_below_flowchart_sequence :
    (validate ("flowchart TD\nA --> B\ngraph" ++ "\n" ++ "sequenceDiagram\nA ->>")).type =
        .known .flowchart ∧
      (validate ("flowchart TD\nA --> B\ngraph" ++ "\n" ++ "sequenceDiagram\nA ->>")).diagram? =
        (validate "flowchart TD\nA --> B\ngraph").diagram? ∧
      (validate ("flowchart TD\nA --> B\ngraph" ++ "\n" ++ "sequenceDiagram\nA ->>")).diagnostics =
        (validate "sequenceDiagram\nA ->>").diagnostics.map (·.shift 3 27) ∧
      (validate "sequenceDiagram\nA ->>").diagnostics.map (·.line) = [2] :=
  have below := validate_below_flowchart "flowchart TD\nA --> B\ngraph" "sequenceDiagram\nA ->>"
    (by decide +kernel) (by decide +kernel) (by decide +kernel) (by decide +kernel)
    (by decide +kernel)
  ⟨below.1, below.2.1, below.2.2, by decide +kernel⟩

end DiagramCheck
