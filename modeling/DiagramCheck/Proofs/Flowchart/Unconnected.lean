/-
# Nodes that nothing connects

Two nodes that follow each other in a list of elements and share a line are
reported, unless a semicolon stands between them. Whether one does is found out
with little looking: the tokens behind the first node are found by halving, and
they are looked through only as far as the second. Because tokens stand in order,
what is looked through is all there is between the nodes, and so the answer is
that of looking through the whole source.

A flowchart has many lists, one for every subgraph. Each pair of neighbours
belongs to one of them and is reported on its own, at its second node; no two
pairs share that.

Main statement: `unconnected_nodes_reported`.
-/

import DiagramCheck.Proofs.Diagnostic.Once
import DiagramCheck.Proofs.Diagram.Checked

namespace DiagramCheck

namespace Element

/-- The two nodes of a pair of elements, if both are nodes. -/
def nodes? : Element × Element → Option (Node × Node)
  | (.node first, .node second) => some (first, second)
  | _ => none

/-- The nodes of a list that directly follow each other. -/
def adjacentNodes (elements : List Element) : List (Node × Node) :=
  (elements.zip elements.tail).filterMap nodes?

/-- The nodes that directly follow each other in a list of elements or in a list inside it. -/
def allAdjacentNodes (elements : List Element) : List (Node × Node) :=
  (allLists elements).flatMap adjacentNodes

private theorem nodes?_eq_some {pair : Element × Element} {first second : Node}
    (nodes : nodes? pair = some (first, second)) : pair = (.node first, .node second) := by
  unfold nodes? at nodes
  split at nodes <;> cases nodes
  rfl

private theorem first_mem_of_mem_allAdjacentNodes {elements : List Element} {first second : Node}
    (member : (first, second) ∈ allAdjacentNodes elements) :
    .node first ∈ flattenAll elements := by
  obtain ⟨list, inside, pair⟩ := List.mem_flatMap.1 member
  obtain ⟨pair, listed, nodes⟩ := List.mem_filterMap.1 pair
  rw [nodes?_eq_some nodes] at listed
  exact subset_flattenAll_of_mem_allLists inside (List.of_mem_zip listed).1

end Element

namespace Flowchart

open Element (adjacentNodes allAdjacentNodes allLists nodes?)

/-! ## Semicolons between nodes -/

/-- Among some tokens a semicolon stands strictly between two nodes. -/
def SemicolonBetween (tokens : List Token) (first second : Node) : Prop :=
  ∃ token ∈ tokens, token.kind = .semicolon ∧
    first.position.offset < token.offset ∧ token.offset < second.position.offset

instance (tokens : List Token) (first second : Node) :
    Decidable (SemicolonBetween tokens first second) :=
  inferInstanceAs (Decidable (∃ token ∈ tokens, token.kind = .semicolon ∧
    first.position.offset < token.offset ∧ token.offset < second.position.offset))

/-- In tokens in order, looking from one node to the next finds what looking through all finds. -/
theorem any_between_eq {tokens : List Token} (order : tokens.Pairwise (·.offset < ·.offset))
    (first second : Node) :
    ((tokens.dropWhile (·.offset ≤ first.position.offset)).takeWhile
        (·.offset < second.position.offset)).any (·.kind == .semicolon) =
      decide (SemicolonBetween tokens first second) := by
  have behind : tokens.dropWhile (·.offset ≤ first.position.offset) =
      tokens.filter fun token => !decide (token.offset ≤ first.position.offset) :=
    dropWhile_eq_filter (order.imp fun less => by simpa using less.le.trans)
  rw [behind, takeWhile_eq_filter]
  · rw [Bool.eq_iff_iff, decide_eq_true_eq, List.any_eq_true]
    simp only [List.mem_filter, SemicolonBetween, Bool.not_eq_true', decide_eq_false_iff_not,
      decide_eq_true_eq, beq_iff_eq, Nat.not_le]
    constructor
    · rintro ⟨token, ⟨⟨member, later⟩, earlier⟩, semicolon⟩
      exact ⟨token, member, semicolon, later, earlier⟩
    · rintro ⟨token, member, semicolon, later, earlier⟩
      exact ⟨token, ⟨⟨member, later⟩, earlier⟩, semicolon⟩
  · exact (order.filter _).imp fun less => by simpa using less.trans

/-- Nodes of a flowchart are separated when any token of the source is a semicolon between them. -/
theorem separated?_eq_some {source : String} (first second : Node) :
    separated? (Layout.kept (Token.tokenize source)) first second =
      some (decide (SemicolonBetween (Layout.kept (Token.tokenize source)) first second)) := by
  have order : (Layout.kept (Token.tokenize source)).Pairwise (·.offset < ·.offset) :=
    ((Token.tiles_tokenize source).pairwise.filter _).imp Token.Precedes.offset_lt
  rw [separated?_eq order, any_between_eq order]

/-! ## Pairs that are reported -/

/-- Two nodes on one line without a semicolon between them. -/
def Unconnected (tokens : List Token) (pair : Node × Node) : Prop :=
  pair.1.position.line = pair.2.position.line ∧ ¬ SemicolonBetween tokens pair.1 pair.2

instance (tokens : List Token) (pair : Node × Node) : Decidable (Unconnected tokens pair) :=
  inferInstanceAs (Decidable (pair.1.position.line = pair.2.position.line ∧
    ¬ SemicolonBetween tokens pair.1 pair.2))

/-- Of two elements something is said when both are nodes and nothing connects them. -/
theorem pairDiagnostics_eq {items : List Item} {tokens : List Token} (first second : Element)
    (separates : ∀ pair ∈ nodes? (first, second),
      separated items pair.1 pair.2 = decide (SemicolonBetween tokens pair.1 pair.2)) :
    pairDiagnostics items first second =
      ((nodes? (first, second)).toList.filter (Unconnected tokens ·)).map fun pair =>
        unconnected pair.1 pair.2 := by
  match first, second with
  | .node left, .node right =>
    have own : separated items left right = decide (SemicolonBetween tokens left right) :=
      separates (left, right) rfl
    rw [pairDiagnostics, own]
    by_cases line : left.position.line = right.position.line <;>
      by_cases between : SemicolonBetween tokens left right <;>
        simp [nodes?, Unconnected, line, between]
  | .node _, .link _ | .node _, .subgraph _ _ | .link _, _ | .subgraph _ _, _ => rfl

private theorem adjacentNodes_cons_cons (first second : Element) (rest : List Element) :
    adjacentNodes (first :: second :: rest) =
      (nodes? (first, second)).toList ++ adjacentNodes (second :: rest) := by
  cases nodes : nodes? (first, second) <;> simp [adjacentNodes, nodes]

/-- Of a list is said what is said of the adjacent nodes in it that nothing connects. -/
theorem neighbourDiagnostics_eq {items : List Item} {tokens : List Token}
    {elements : List Element}
    (separates : ∀ pair ∈ adjacentNodes elements,
      separated items pair.1 pair.2 = decide (SemicolonBetween tokens pair.1 pair.2)) :
    neighbourDiagnostics items elements =
      ((adjacentNodes elements).filter (Unconnected tokens ·)).map fun pair =>
        unconnected pair.1 pair.2 := by
  induction elements with
  | nil => rfl
  | cons first rest ih =>
    cases rest with
    | nil => rfl
    | cons second rest =>
      rw [adjacentNodes_cons_cons] at separates ⊢
      obtain ⟨own, later⟩ := List.forall_mem_append.1 separates
      rw [neighbourDiagnostics, ih later, List.filter_append, List.map_append,
        pairDiagnostics_eq first second fun pair member => own pair (Option.mem_toList.2 member)]

/-- The lists of a flowchart are looked at one by one. -/
theorem connectionDiagnostics_eq_map {items : List Item} {tokens : List Token}
    {elements : List Element}
    (separates : ∀ pair ∈ allAdjacentNodes elements,
      separated items pair.1 pair.2 = decide (SemicolonBetween tokens pair.1 pair.2)) :
    connectionDiagnostics items elements =
      ((allAdjacentNodes elements).filter (Unconnected tokens ·)).map fun pair =>
        unconnected pair.1 pair.2 := by
  rw [connectionDiagnostics_eq, allAdjacentNodes, List.filter_flatMap, List.map_flatMap]
  refine List.flatMap_congr fun list inside => neighbourDiagnostics_eq fun pair member => ?_
  exact separates pair (List.mem_flatMap.2 ⟨list, inside, member⟩)

/-! ## Flowcharts of a source -/

/-- Of a flowchart, missing arrows are reported by the check that follows its elements, and by
nothing before. -/
theorem filter_read (finish header : Token) (rest : List Item) :
    (Flowchart.read finish header rest).diagnostics.filter (·.code == .missingArrow) =
      connectionDiagnostics rest (Flowchart.read finish header rest).value.elements := by
  have others : ((readDirection header rest).diagnostics ++
      (Flowchart.run finish none 0 0 false (readDirection header rest).rest).diagnostics).filter
        (·.code == .missingArrow) = [] :=
    List.filter_eq_nil_iff.2 fun diagnostic member code =>
      code_ne_missingArrow member (beq_iff_eq.1 code)
  have joined (elements : List Element) :
      (connectionDiagnostics rest elements).filter (·.code == .missingArrow) =
        connectionDiagnostics rest elements :=
    List.filter_eq_self.2 fun diagnostic member =>
      beq_iff_eq.2 (List.mem_singleton.1 (connectionDiagnostics_codes _ _ diagnostic member))
  rw [Flowchart.read, List.filter_append, others, joined, List.nil_append]

/-- Among the items of a flowchart the same pairs are separated as among all tokens. -/
theorem connectionDiagnostics_of_reading {source : String} {index : Nat} {header : Item}
    {rest : List Item} {chart : Flowchart}
    (items : Validation.remaining source index = header :: rest)
    (content : (Validation.reading source index).value.content = .flowchart chart) :
    connectionDiagnostics rest chart.elements =
      ((allAdjacentNodes chart.elements).filter
        (Unconnected (Layout.kept (Token.tokenize source)) ·)).map
          fun pair => unconnected pair.1 pair.2 := by
  refine connectionDiagnostics_eq_map fun pair member => ?_
  have found := separated?_kept items content
    (Element.first_mem_of_mem_allAdjacentNodes member) pair.2
  rw [separated?_eq_some] at found
  exact (Option.some.inj found).symm

/-- No two nodes of a flowchart that lack an arrow before them stand at one byte. -/
theorem starts_connection_nodup_read {source : String} {index : Nat} {header : Item}
    {rest : List Item} (items : Validation.remaining source index = header :: rest)
    (finish : Token) :
    ((connectionDiagnostics rest
      (Flowchart.read finish header.toToken rest).value.elements).map (·.span.start)).Nodup := by
  have laid : Items.LaidOut (header :: rest) := items ▸ Validation.laidOut_remaining source index
  have inside := laid.tail.suffix (readDirection_suffix header.toToken rest)
  exact (runs_run finish none 0 0 false _).starts_connection_nodup inside rest

/-- In any flowchart of a source, what is reported of missing arrows are the pairs of nodes that
directly follow each other in one of its lists, stand on one line and have no semicolon between them
anywhere in the source. Each pair is reported once, at its second node, and no two pairs have that
in common. Looking for the semicolon by halving finds what looking through the source finds. -/
theorem unconnected_nodes_reported {source : String} {index : Nat} {chart : Flowchart}
    (drawn : (Validation.reading source index).value.content.flowchart? = some chart) :
    (Validation.reading source index).diagnostics.filter (·.code == .missingArrow) =
        ((allAdjacentNodes chart.elements).filter
          (Unconnected (Layout.kept (Token.tokenize source)) ·)).map
            (fun pair => unconnected pair.1 pair.2) ∧
      (((allAdjacentNodes chart.elements).filter
          (Unconnected (Layout.kept (Token.tokenize source)) ·)).map
            (·.2.position.offset)).Nodup ∧
      ∀ first second, separated? (Layout.kept (Token.tokenize source)) first second =
        some (decide (SemicolonBetween (Layout.kept (Token.tokenize source)) first second)) := by
  obtain ⟨header, rest, items, content⟩ := Validation.exists_header_of_flowchart? drawn
  obtain ⟨kind, own⟩ := Validation.flowchart_of_content items content
  have joined := connectionDiagnostics_of_reading items content
  have distinct := starts_connection_nodup_read items (Layout.finish source)
  rw [← own, joined, List.map_map] at distinct
  refine ⟨?_, distinct, separated?_eq_some⟩
  rw [Validation.reading_of_header items kind, Reading.diagnostics_map, filter_read, ← own, joined]

/-- A second flowchart: `B` and `C` are not connected, between `C` and `D` is a semicolon, and `E`
and `F` are not connected inside a subgraph. -/
theorem unconnected_nodes_reported_second :
    (Validation.reading "flowchart TD\nA\ngraph\nB C; D\nsubgraph s\nE F\nend" 1).diagnostics.filter
        (·.code == .missingArrow) =
      [unconnected ⟨"B", none, .rectangle, ⟨4, 1, 21⟩⟩ ⟨"C", none, .rectangle, ⟨4, 3, 23⟩⟩,
       unconnected ⟨"E", none, .rectangle, ⟨6, 1, 39⟩⟩ ⟨"F", none, .rectangle, ⟨6, 3, 41⟩⟩] := by
  have drawn : (Validation.reading "flowchart TD\nA\ngraph\nB C; D\nsubgraph s\nE F\nend"
      1).value.content.flowchart? =
        some ⟨none,
          [.node ⟨"B", none, .rectangle, ⟨4, 1, 21⟩⟩,
           .node ⟨"C", none, .rectangle, ⟨4, 3, 23⟩⟩,
           .node ⟨"D", none, .rectangle, ⟨4, 6, 26⟩⟩,
           .subgraph ⟨"s", none, ⟨5, 1, 28⟩⟩
             [.node ⟨"E", none, .rectangle, ⟨6, 1, 39⟩⟩,
              .node ⟨"F", none, .rectangle, ⟨6, 3, 41⟩⟩]]⟩ := by
    decide +kernel
  rw [(unconnected_nodes_reported drawn).1]
  decide +kernel

end Flowchart

end DiagramCheck
