/-
# Reading to the end of a source

The diagrams of a source are read one after the other, each from where the one
before it stopped. Every reading takes at least the header it begins with, so
the readings come to an end, and they end only when no item is left. A flowchart
alone stops earlier, at a header that begins a line.

The same holds inside a diagram. The statements of the line-based grammars are
read in turn, each taking at least its first item, up to the end of the input. A
run of flowchart elements either stops, at the end of the input, at a boundary or
at the `end` of its subgraph, or it goes on behind at least one item more.

Main statement: `Validation.diagrams_consume_items`.
-/

import DiagramCheck.Proofs.Diagnostic.Location
import DiagramCheck.Proofs.Diagnostic.Order
import DiagramCheck.Proofs.Flowchart.Overrun
import DiagramCheck.Proofs.Flowchart.Stage

namespace DiagramCheck

/-! ## Statements in turn -/

namespace Reading

/-- Readings that follow one another over `items`: each begins with the item in front of it and
takes at least that one, and `left` is what the last of them leaves. -/
inductive InTurn {α : Type} (read : Item → List Item → Reading α) :
    List Item → List (Reading α) → List Item → Prop
  | done (items : List Item) : InTurn read items [] items
  | next {first : Item} {rest left : List Item} {readings : List (Reading α)}
      (taken : (read first rest).rest <:+ rest)
      (later : InTurn read (read first rest).rest readings left) :
      InTurn read (first :: rest) (read first rest :: readings) left

/-- Statement after statement is read, until no item is left. -/
theorem statements_inTurn {α : Type} {read : Item → List Item → Reading α}
    (suffix : ∀ first rest, (read first rest).rest <:+ rest) (items : List Item) :
    InTurn read items (statements read suffix items) [] := by
  fun_induction statements read suffix items with
  | case1 => exact .done []
  | case2 first rest later => exact .next (suffix first rest) later

end Reading

/-! ## Runs of elements -/

namespace Flowchart

variable {finish : Token}

/-- The stage at which the elements of a flowchart begin, behind its header. -/
def Stage.ofHeader (header : Token) (rest : List Item) : Stage :=
  .outermost (readDirection header rest).rest

theorem Stage.ofHeader_suffix (header : Token) (rest : List Item) :
    (ofHeader header rest).items <:+ rest :=
  readDirection_suffix header rest

/-- What the run of a stage does there: it stops before a boundary or the end of the input, it
takes the `end` of its subgraph and stops, or it goes on as the run of a stage behind the first
item. -/
inductive Stage.Advances (finish : Token) (stage : Stage) : Prop
  | stops (ahead : ∀ first ∈ stage.items.head?, isBoundary first = true)
      (left : (stage.run finish).rest = stage.items)
  | closes {first : Item} {rest : List Item} (inside : stage.enclosing.isSome = true)
      (items : stage.items = first :: rest) (closes : first.closesSubgraph = true)
      (left : (stage.run finish).rest = rest)
  | goesOn {next : Stage} {first : Item} {rest : List Item} {element : Option Element}
      {diagnostics : List Diagnostic} (items : stage.items = first :: rest)
      (taken : next.items <:+ rest) (enclosing : next.enclosing = stage.enclosing)
      (depth : next.depth = stage.depth)
      (run : stage.run finish = (next.run finish).prepend element diagnostics)

/-- A step that does not enter a subgraph takes the run of a stage on. -/
theorem Step.advances {stage next : Stage} (step : Step finish stage next)
    (enclosing : next.enclosing = stage.enclosing) (depth : next.depth = stage.depth)
    {element : Option Element} {diagnostics : List Diagnostic}
    (run : stage.run finish = (next.run finish).prepend element diagnostics) :
    stage.Advances finish := by
  obtain ⟨first, rest, items, taken⟩ := step.taken
  exact .goesOn items taken enclosing depth run

private theorem Stage.advances (finish : Token) (stage : Stage) : stage.Advances finish := by
  obtain ⟨enclosing, depth, links, hasSource, items⟩ := stage
  -- The cases are those of a run, in its order: boundaries, `end`, `subgraph`, other statements.
  cases items with
  | nil =>
    refine .stops (fun _ absent => by cases absent) ?_
    rw [Stage.run, run_nil]
  | cons first rest =>
    cases free : isBoundary first with
    | true =>
      refine .stops (fun _ same => Option.some.inj same ▸ free) ?_
      rw [Stage.run, run_boundary free]
    | false =>
      cases closes : first.closesSubgraph with
      | true =>
        cases enclosing with
        | some keyword =>
          refine .closes rfl rfl closes ?_
          rw [Stage.run, run_closed free closes]
        | none =>
          exact (Step.pastUnmatched free closes).advances rfl rfl
            (Stage.run_unmatched free closes)
      | false =>
        cases opens : first.opensSubgraph with
        | true =>
          by_cases shallow : depth < maxDepth
          · exact (Step.pastSubgraph free opens shallow rfl).advances rfl rfl
              (Stage.run_subgraph free opens shallow rfl)
          · exact (Step.pastTooDeep free opens shallow).advances rfl rfl
              (Stage.run_tooDeep free opens shallow)
        | false =>
          exact (Step.pastPlain free closes opens rfl).advances rfl rfl
            (Stage.run_plain free closes opens rfl)

end Flowchart

/-! ## Diagrams -/

namespace Diagram

open Flowchart (Reaches isBoundary)

theorem readAll_nil (source : List Char) (finish : Token) : readAll source finish [] = [] := by
  rw [readAll, Reading.statements]

theorem readAll_cons (source : List Char) (finish : Token) (first : Item) (rest : List Item) :
    readAll source finish (first :: rest) =
      read source finish (first :: rest) ::
        readAll source finish (read source finish (first :: rest)).rest := by
  rw [readAll, Reading.statements]
  rfl

theorem read_mem_readAll (source : List Char) (finish : Token) (first : Item) (rest : List Item) :
    read source finish (first :: rest) ∈ readAll source finish (first :: rest) := by
  rw [readAll_cons]
  exact List.mem_cons_self ..

/-- A diagram that is a flowchart begins with the header of one. -/
theorem kind_of_type {source : List Char} {finish : Token} {first : Item} {rest : List Item}
    (type : (read source finish (first :: rest)).value.type = .known .flowchart) :
    first.kind = .header .flowchart := by
  unfold read at type
  dsimp only [Items.front] at type
  split at type
  · next family header =>
    cases family with
    | flowchart => exact TokenKind.eq_header_of_family? header
    | _ => cases type
  · cases type

/-- How the grammar of the diagram that begins with `header` goes over the items behind it. -/
def GoesThrough (source : List Char) (finish : Token) (header : Item) (rest : List Item) :
    Option Family → Prop
  | none => True
  | some .flowchart =>
    ∀ stage, Reaches finish (.ofHeader header.toToken rest) stage → stage.Advances finish
  | some .sequence =>
    Reading.InTurn (Sequence.readStatement finish) (Items.skipLine header.line rest)
      (Sequence.statements finish header.toToken rest) []
  | some .chart =>
    Reading.InTurn (Chart.readStatement source finish) (Items.skipLine header.line rest)
      (Chart.statements source finish header.toToken rest) []
  | some .blocks =>
    Reading.InTurn (BlockDiagram.readStatement finish) (Items.skipLine header.line rest)
      (BlockDiagram.statements finish header.toToken rest) []
  | some (.unmodelled kind) =>
    Reading.InTurn (Unmodelled.readStatement kind finish) (Items.skipLine header.line rest)
      (Unmodelled.statements kind finish header.toToken rest) []

private theorem goesThrough (source : List Char) (finish : Token) (header : Item) (rest : List Item)
    (family : Option Family) : GoesThrough source finish header rest family := by
  cases family with
  | none => trivial
  | some family =>
    cases family with
    | flowchart => exact fun stage _ => stage.advances finish
    | sequence => exact Reading.statements_inTurn (Sequence.readStatement_suffix finish) _
    | chart => exact Reading.statements_inTurn (Chart.readStatement_suffix source finish) _
    | blocks => exact Reading.statements_inTurn (BlockDiagram.readStatement_suffix finish) _
    | unmodelled kind =>
      exact Reading.statements_inTurn (Unmodelled.readStatement_suffix kind finish) _

/-- A diagram goes on to the end of the input, unless it is a flowchart that meets a boundary. -/
theorem rest_read (source : List Char) (finish : Token) (first : Item) (rest : List Item) :
    (read source finish (first :: rest)).rest = [] ∨
      first.kind = .header .flowchart ∧ ∃ next after,
        (read source finish (first :: rest)).rest = next :: after ∧ isBoundary next = true := by
  unfold read
  dsimp only [Items.front]
  split
  · next family header =>
    cases family with
    | flowchart =>
      cases left : (Flowchart.read finish first.toToken rest).rest with
      | nil => exact .inl left
      | cons next after =>
        have stops := ((Flowchart.Stage.ofHeader first.toToken rest).runs finish).rest_of_none
        exact .inr ⟨TokenKind.eq_header_of_family? header, next, after, left,
          stops next after left⟩
    | _ => exact .inl rfl
  · exact .inl rfl

end Diagram

/-! ## Sources -/

namespace Validation

/-- The items that are left of a source after its first `count` diagrams. -/
def remaining (source : String) : Nat → List Item
  | 0 => Layout.items (Token.tokenize source)
  | count + 1 =>
    (Diagram.read source.toList (Layout.finish source) (remaining source count)).rest

/-- The diagram of a source behind its first `count` diagrams, as it is read. -/
def reading (source : String) (count : Nat) : Reading Diagram :=
  Diagram.read source.toList (Layout.finish source) (remaining source count)

/-- The stages that the diagram behind the first `count` comes to, if it is a flowchart. -/
def stages (source : String) (count : Nat) : List Flowchart.Stage :=
  match remaining source count with
  | [] => []
  | header :: rest =>
    if header.kind = .header .flowchart then
      (Flowchart.Stage.ofHeader header.toToken rest).all (Layout.finish source)
    else []

theorem remaining_succ (source : String) (count : Nat) :
    remaining source (count + 1) = (reading source count).rest := rfl

theorem reading_of_header {source : String} {count : Nat} {header : Item} {rest : List Item}
    (items : remaining source count = header :: rest) (kind : header.kind = .header .flowchart) :
    reading source count =
      (Flowchart.read (Layout.finish source) header.toToken rest).map fun chart =>
        ⟨header.position, .flowchart chart⟩ := by
  rw [reading, items, Flowchart.read_of_flowchart_header kind]

/-- A diagram whose content is a flowchart is read as one. -/
theorem flowchart_of_content {source : String} {count : Nat} {header : Item} {rest : List Item}
    {chart : Flowchart} (items : remaining source count = header :: rest)
    (drawn : (reading source count).value.content = .flowchart chart) :
    header.kind = .header .flowchart ∧
      chart = (Flowchart.read (Layout.finish source) header.toToken rest).value := by
  have kind : header.kind = .header .flowchart := by
    rw [reading, items] at drawn
    exact Diagram.kind_of_type (by rw [Diagram.type, drawn]; rfl)
  rw [reading_of_header items kind] at drawn
  exact ⟨kind, (Content.flowchart.inj drawn).symm⟩

/-- A diagram of a source that is drawn as a flowchart begins with an item. -/
theorem exists_header_of_flowchart? {source : String} {count : Nat} {chart : Flowchart}
    (drawn : (reading source count).value.content.flowchart? = some chart) :
    ∃ header rest, remaining source count = header :: rest ∧
      (reading source count).value.content = .flowchart chart := by
  have content : (reading source count).value.content = .flowchart chart := by
    unfold Content.flowchart? at drawn
    split at drawn <;> simp_all
  cases items : remaining source count with
  | nil =>
    rw [reading, items] at content
    cases content
  | cons header rest => exact ⟨header, rest, rfl, content⟩

private theorem reading_suffix {source : String} {count : Nat} {first : Item} {rest : List Item}
    (items : remaining source count = first :: rest) :
    remaining source (count + 1) <:+ rest := by
  rw [remaining_succ, reading, items]
  exact Diagram.read_suffix ..

private theorem remaining_suffix (source : String) (count : Nat) :
    remaining source (count + 1) <:+ remaining source count := by
  cases items : remaining source count with
  | nil =>
    rw [remaining_succ, reading, items]
    exact List.suffix_refl _
  | cons first rest => exact (reading_suffix items).trans (List.suffix_cons ..)

theorem remaining_suffix_of_le (source : String) {count more : Nat} (le : count ≤ more) :
    remaining source more <:+ remaining source count := by
  induction le with
  | refl => exact List.suffix_refl _
  | step _ ih => exact (remaining_suffix source _).trans ih

theorem laidOut_remaining (source : String) (count : Nat) :
    Items.LaidOut (remaining source count) :=
  (Layout.laidOut_items source).suffix (remaining_suffix_of_le source (Nat.zero_le count))

/-- From any number of diagrams on, the rest of a source is read in finitely many more. -/
theorem exists_readAll_remaining (source : String) (start : Nat) :
    ∃ count,
      Diagram.readAll source.toList (Layout.finish source) (remaining source start) =
        (List.range' start count).map (reading source) ∧
      remaining source (start + count) = [] ∧
      ∀ index < count, remaining source (start + index) ≠ [] := by
  -- By induction on what is left: every reading takes at least the item it begins with.
  induction length : (remaining source start).length using Nat.strongRecOn
    generalizing start with
  | ind size ih =>
    cases items : remaining source start with
    | nil => exact ⟨0, Diagram.readAll_nil .., items, fun _ absent => by omega⟩
    | cons first rest =>
      have shorter : (remaining source (start + 1)).length < size := by
        rw [← length, items]
        exact Nat.lt_succ_of_le (reading_suffix items).length_le
      obtain ⟨count, readings, done, before⟩ := ih _ shorter (start + 1) rfl
      refine ⟨count + 1, ?_, by rwa [Nat.add_assoc, Nat.add_comm 1] at done, fun index less => ?_⟩
      · rw [Diagram.readAll_cons, ← items, List.range'_succ, List.map_cons, ← readings]
        rfl
      · cases index with
        | zero =>
          rw [Nat.add_zero, items]
          exact List.cons_ne_nil first rest
        | succ index =>
          rw [Nat.add_comm index, ← Nat.add_assoc]
          exact before index (by omega)

/-- The readings of a source begin with its first diagram and go on until no item is left. -/
theorem exists_diagrams_eq (source : String) : ∃ count,
    (diagrams source).1 :: (diagrams source).2 =
        (List.range (count + 1)).map (reading source) ∧
      remaining source (count + 1) = [] ∧
      ∀ index < count, remaining source (index + 1) ≠ [] := by
  obtain ⟨count, readings, done, before⟩ := exists_readAll_remaining source 1
  rw [Nat.add_comm] at done
  refine ⟨count, ?_, done, fun index less => Nat.add_comm 1 index ▸ before index less⟩
  rw [List.range_eq_range', List.range'_succ, List.map_cons, ← readings]
  rfl

/-- What is said of a source with a significant token is said by the rules for comments, strings
and directives, or by the grammar of one of its diagrams. -/
theorem mem_diagnostics_validate {source : String}
    (written : Layout.items (Token.tokenize source) ≠ []) {diagnostic : Diagnostic} :
    diagnostic ∈ (validate source).diagnostics ↔
      diagnostic ∈ Layout.lexicalDiagnostics (Token.tokenize source) ∨
        ∃ index, remaining source index ≠ [] ∧
          diagnostic ∈ (reading source index).diagnostics := by
  obtain ⟨first, rest, items⟩ := List.exists_cons_of_ne_nil written
  obtain ⟨count, readings, done, before⟩ := exists_diagrams_eq source
  have all : found source = Layout.lexicalDiagnostics (Token.tokenize source) ++
      (List.range (count + 1)).flatMap fun index => (reading source index).diagnostics := by
    have grammars := congrArg (List.flatMap (·.diagnostics)) readings
    rw [List.flatMap_map, List.flatMap_cons] at grammars
    rw [← grammars, ← List.append_assoc]
    rfl
  rw [validate, Flowchart.isBlankText_of_items items, if_neg Bool.false_ne_true,
    Diagnostic.mem_inSourceOrder, all, List.mem_append, List.mem_flatMap]
  -- Diagrams are counted as long as something is left of the source.
  have counted (index : Nat) : index ∈ List.range (count + 1) ↔ remaining source index ≠ [] := by
    rw [List.mem_range]
    refine ⟨fun less => ?_, fun left => Nat.lt_of_not_le fun late => left ?_⟩
    · cases index with
      | zero => exact written
      | succ index => exact before index (Nat.lt_of_succ_lt_succ less)
    · exact List.suffix_nil.1 (done ▸ remaining_suffix_of_le source late)
  simp only [counted]

/-- Every source is read to its end, diagram by diagram. A reading takes at least the item it
begins with and stops only at the end of the input, or before a boundary if it is a flowchart; and
its grammar goes through the items behind the header in the same way. -/
theorem diagrams_consume_items (source : String) :
    (∃ count,
      (diagrams source).1 :: (diagrams source).2 =
          (List.range (count + 1)).map (reading source) ∧
        remaining source (count + 1) = [] ∧
        ∀ index < count, remaining source (index + 1) ≠ []) ∧
      ∀ index first rest, remaining source index = first :: rest →
        remaining source (index + 1) <:+ rest ∧
          (remaining source (index + 1) = [] ∨
            first.kind = .header .flowchart ∧ ∃ next after,
              remaining source (index + 1) = next :: after ∧
                Flowchart.isBoundary next = true) ∧
          Diagram.GoesThrough source.toList (Layout.finish source) first rest
            first.kind.family? := by
  refine ⟨exists_diagrams_eq source, fun index first rest items => ?_⟩
  refine ⟨reading_suffix items, ?_, Diagram.goesThrough ..⟩
  rw [remaining_succ, reading, items]
  exact Diagram.rest_read ..

end Validation

end DiagramCheck
