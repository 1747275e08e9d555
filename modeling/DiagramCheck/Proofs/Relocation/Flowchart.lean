/-
# Reading a relocated flowchart

A flowchart read of a relocated text has the elements that it has in the text.
`Alike` says of two elements what the check of neighbours asks of them: both are
nodes, links or subgraphs, a node stands where the other has come to lie, and so
on inside a subgraph. What is said of neighbours that nothing joins is then the
same, because a semicolon stands between two nodes of the text exactly when it
does in the relocated text.

Main statements: `flowchart_reads` for whole flowcharts, and `runs_alike` for the
runs of elements that they are made of.
-/

import DiagramCheck.Proofs.Flowchart.Nesting
import DiagramCheck.Proofs.Relocation.Reading

namespace DiagramCheck

open Items (Within)

namespace Relocation

open Flowchart

variable (move : Relocation)

/-! ## Words -/

section Words

variable (token : Token)

@[simp] theorem closesSubgraph_token : (move.token token).closesSubgraph = token.closesSubgraph :=
  move.isWordIgnoringCase_token token (by decide)

@[simp] theorem opensSubgraph_token : (move.token token).opensSubgraph = token.opensSubgraph :=
  move.isWord_token token (by decide)

@[simp] theorem isNodeName_token : (move.token token).isNodeName = token.isNodeName := by
  simp only [Token.isNodeName, isName_token, closesSubgraph_token, opensSubgraph_token]

@[simp] theorem isBoundary_item (item : Item) : isBoundary (move.item item) = isBoundary item := rfl

private theorem labelBracket?_token (line : Nat) :
    labelBracket? (line + move.lines) (move.token token) = labelBracket? line token := by
  simp only [labelBracket?, kind_token, line_token, Nat.add_right_cancel_iff]

end Words

/-! ## Elements -/

/-- A node of the relocated text is a node of the text put elsewhere. -/
structure NodeAlike (source : List Char) (node node' : Node) : Prop where
  position : node'.position = move.position node.position
  lies : Lies source node.position
  id : move.Agree node.id node'.id

mutual

/-- An element of the relocated text is an element of the text put elsewhere, as far as its
neighbours are concerned. -/
def Alike (source : List Char) : Element → Element → Prop
  | .node node, .node node' => move.NodeAlike source node node'
  | .link _, .link _ => True
  | .subgraph _ elements, .subgraph _ elements' => AlikeAll source elements elements'
  | _, _ => False

/-- The elements of the relocated text are those of the text put elsewhere. -/
def AlikeAll (source : List Char) : List Element → List Element → Prop
  | [], [] => True
  | element :: rest, element' :: rest' =>
    Alike source element element' ∧ AlikeAll source rest rest'
  | _, _ => False

end

variable {source : List Char}

private theorem alike_subgraph (heading heading' : SubgraphHeading)
    {elements elements' : List Element}
    (alike : move.AlikeAll source elements elements') :
    move.Alike source (.subgraph heading elements) (.subgraph heading' elements') := by
  rw [Alike]
  exact alike

private theorem isSource_of_alike {element element' : Element}
    (alike : move.Alike source element element') :
    element'.isSource = element.isSource := by
  cases element <;> cases element' <;> first | rfl | exact alike.elim

/-! ## Nodes and links -/

section Statements

variable (finish : Token) {first : Item} {rest : List Item}

private theorem lies_peekName (within : Within (Token.StandsIn source) (first :: rest)) :
    Lies source (Items.peekName finish (first :: rest)).position := by
  rw [Items.position_peekName]
  exact within.head.start

private theorem readNode_reads (within : Within (Token.StandsIn source) (first :: rest)) :
    move.Reads (move.Alike source) (readNode finish (first :: rest))
      (readNode (move.token finish) ((first :: rest).map move.item)) := by
  have id : move.Agree (Items.peekName finish (first :: rest)).value
      (move.token (Items.peekName finish (first :: rest))).value :=
    fun exact => move.value_token _ exact
  simp only [readNode, peekName_item move finish within, afterName_item move within, front_item,
    endLine_token, labelBracket?_token, ← List.map_tail]
  cases labelBracket? _ _ with
  | none => exact ⟨⟨rfl, lies_peekName finish within, id⟩, .nil, rfl⟩
  | some bracket =>
    exact (move.label_reads ..).map fun _ _ _ => ⟨rfl, lies_peekName finish within, id⟩

private theorem readLinkLabel_reads (line : Nat) (items : List Item) :
    move.Reads move.Agree (readLinkLabel finish line items)
      (readLinkLabel (move.token finish) (line + move.lines) (items.map move.item)) := by
  have isWord : ∀ item ∈ items, ((move.item item).line == line + move.lines &&
      (move.item item).kind != .pipe) = (item.line == line && item.kind != .pipe) := by
    intro item _
    rw [line_beq, toToken_item, kind_token]
  have words := move.takeWhile_item (fun item => item.line == line && item.kind != .pipe)
    (fun item => item.line == line + move.lines && item.kind != .pipe) isWord
  have after := move.dropWhile_item (fun item => item.line == line && item.kind != .pipe)
    (fun item => item.line == line + move.lines && item.kind != .pipe) isWord
  simp only [readLinkLabel, words, after, front_item, frontIs_kind]
  split
  · exact ⟨fun exact => ofItems?_item move exact _, .nil, List.map_tail.symm⟩
  · exact ⟨fun exact => ofItems?_item move exact _,
      move.tells_one _ rfl fun exact => by rw [found_token move exact], rfl⟩

private theorem readOptionalLinkLabel_reads (line : Nat) (items : List Item) :
    move.Reads move.Agree (readOptionalLinkLabel finish line items)
      (readOptionalLinkLabel (move.token finish) (line + move.lines) (items.map move.item)) := by
  rw [readOptionalLinkLabel, readOptionalLinkLabel, frontIs_kind]
  split
  · rw [← List.map_tail]
    exact move.readLinkLabel_reads finish line items.tail
  · exact ⟨fun _ => rfl, .nil, rfl⟩

private theorem destination?_item (line : Nat) {items : List Item}
    (within : Within (Token.StandsIn source) items) :
    (destination? (move.token finish) (line + move.lines) (items.map move.item)).isNone =
      (destination? finish line items).isNone := by
  simp only [destination?, peekName_item move finish within, isNodeName_token, frontIs_any,
    apply_ite Option.isNone, Option.isNone_some]

private theorem readLink_reads (shape : Arrow) (arrow : Token)
    (within : Within (Token.StandsIn source) rest) :
    move.Reads (move.Alike source) (readLink finish shape arrow rest)
      (readLink (move.token finish) shape (move.token arrow) (rest.map move.item)) := by
  have label := move.readOptionalLinkLabel_reads finish arrow.line rest
  have later := within.suffix (readOptionalLinkLabel_suffix finish arrow.line rest)
  simp only [readLink, line_token, label.rest, move.destination?_item finish _ later]
  refine ⟨trivial, List.rel_append label.diagnostics ?_, rfl⟩
  split
  · exact move.tells_one _ rfl fun _ => rfl
  · exact .nil

private theorem readPlain_unexpected_reads (first : Item) (rest : List Item) :
    move.Reads (Option.Rel (move.Alike source)) (readPlain.unexpected first rest)
      (readPlain.unexpected (move.item first) (rest.map move.item)) := by
  refine ⟨.none, ?_, rfl⟩
  exact move.tells_one _ rfl fun exact => by rw [toToken_item, found_token move exact]

private theorem readPlain_reads (links : Nat) (hasSource : Bool)
    (within : Within (Token.StandsIn source) (first :: rest)) :
    move.Reads (Option.Rel (move.Alike source)) (readPlain finish links hasSource first rest)
      (readPlain (move.token finish) links hasSource (move.item first) (rest.map move.item)) := by
  simp only [readPlain, decoration?_item, toToken_item, kind_token, startsStatement_item,
    isNodeName_token, ← List.map_cons]
  split
  · exact (move.decoration_reads _ _ _ _ _ within.of_cons).map fun _ _ _ => .none
  · split
    · exact ⟨.none, .nil, rfl⟩
    · next shape _ =>
      split
      · -- A link is reported when it has no source, besides what its own reading finds.
        have link := move.readLink_reads finish shape first.toToken within.of_cons
        exact ⟨.some link.value, List.rel_append (move.tells_unless _ _ _) link.diagnostics,
          link.rest⟩
      · exact move.readPlain_unexpected_reads first rest
    · split
      · exact (move.readNode_reads finish within).map fun _ _ alike => .some alike
      · exact move.readPlain_unexpected_reads first rest

/-! ## Subgraphs -/

private theorem readHeading_reads (keyword : Token) (within : Within (Token.StandsIn source) rest) :
    move.Reads (fun _ _ => True) (readHeading finish keyword rest)
      (readHeading (move.token finish) (move.token keyword) (rest.map move.item)) := by
  simp only [readHeading, line_token, frontIs_any, peekName_item move finish within,
    afterName_item move within, frontIs_kind, front_item, endLine_token, ← List.map_tail]
  split
  · split
    · exact (move.label_reads ..).map fun _ _ _ => trivial
    · exact ⟨trivial, .nil, skipLine_item ..⟩
  · exact ⟨trivial, move.tells_one _ rfl fun _ => rfl, rfl⟩

private theorem skipSubgraph_item (opened : Nat) (items : List Item) :
    skipSubgraph opened (items.map move.item) = (skipSubgraph opened items).map move.item := by
  fun_induction skipSubgraph opened items with
  | case1 => rfl
  | case2 opened first rest boundary => simp [skipSubgraph, isBoundary_item, boundary]
  | case3 opened first rest inside opens ih =>
    rw [List.map_cons, skipSubgraph]
    simp [isBoundary_item, inside, opens, ih]
  | case4 opened first rest inside shut closes last =>
    rw [List.map_cons, skipSubgraph]
    simp [isBoundary_item, inside, shut, closes, last]
  | case5 opened first rest inside shut closes more ih =>
    rw [List.map_cons, skipSubgraph]
    simp [isBoundary_item, inside, shut, closes, more, ih]
  | case6 opened first rest inside shut stays ih =>
    rw [List.map_cons, skipSubgraph]
    simp [isBoundary_item, inside, shut, stays, ih]

end Statements

/-! ## Runs -/

/-- A run of elements of the relocated text is a run of the text put elsewhere. -/
structure RunAlike (source : List Char) (run run' : Run) : Prop where
  elements : move.AlikeAll source run.elements run'.elements
  diagnostics : List.Forall₂ move.Tells run.diagnostics run'.diagnostics
  links : run'.links = run.links
  rest : run'.rest = run.rest.map move.item

theorem RunAlike.prepend {move : Relocation} {run run' : Run}
    (alike : move.RunAlike source run run')
    {element element' : Option Element} (same : Option.Rel (move.Alike source) element element')
    {diagnostics diagnostics' : List Diagnostic}
    (tells : List.Forall₂ move.Tells diagnostics diagnostics') :
    move.RunAlike source (run.prepend element diagnostics)
      (run'.prepend element' diagnostics') := by
  refine ⟨?_, List.rel_append tells alike.diagnostics, alike.links, alike.rest⟩
  cases same with
  | none => exact alike.elements
  | some same => exact ⟨same, alike.elements⟩

private theorem unclosed_tells (enclosing : Option Token) :
    List.Forall₂ move.Tells (unclosed enclosing) (unclosed (enclosing.map move.token)) := by
  cases enclosing with
  | none => exact .nil
  | some keyword => exact move.tells_one keyword rfl fun _ => rfl

private theorem countLink_of_alike (links : Nat) {element element' : Option Element}
    (same : Option.Rel (move.Alike source) element element') :
    countLink links element' = countLink links element := by
  cases same with
  | none => rfl
  | @some element element' alike =>
    cases element <;> cases element' <;> first | rfl | exact alike.elim

private theorem sourceAfter_of_alike (hasSource : Bool) {element element' : Option Element}
    (same : Option.Rel (move.Alike source) element element') :
    sourceAfter hasSource element' = sourceAfter hasSource element := by
  cases same with
  | none => rfl
  | some alike => exact move.isSource_of_alike alike

/-- The run of elements at the front of relocated items is that at the front of the items. -/
theorem runs_alike {finish : Token} {enclosing : Option Token} {depth links : Nat}
    {hasSource : Bool} {items : List Item} {result : Run}
    (runs : Runs finish enclosing depth links hasSource items result)
    (within : Within (Token.StandsIn source) items) :
    move.RunAlike source result
      (run (move.token finish) (enclosing.map move.token) depth links hasSource
        (items.map move.item)) := by
  induction runs with
  | nil =>
    rw [List.map_nil, run_nil]
    exact ⟨trivial, move.unclosed_tells _, rfl, rfl⟩
  | boundary boundary =>
    rw [List.map_cons, run_boundary (by simpa)]
    exact ⟨trivial, move.unclosed_tells _, rfl, rfl⟩
  | closed inside closes =>
    rw [List.map_cons, Option.map_some, run_closed (by simpa) (by simpa)]
    exact ⟨trivial, .nil, rfl, rfl⟩
  | unmatched inside closes _ ih =>
    rw [List.map_cons, Option.map_none, run_unmatched (by simpa) (by simpa)]
    exact (ih within.of_cons).prepend .none (move.tells_one _ rfl fun _ => rfl)
  | @subgraph _ _ _ _ first rest _ _ inside opens shallow nested _ nestedAlike laterAlike =>
    -- The body begins behind the heading, and what follows the subgraph behind the body.
    have heading := move.readHeading_reads finish first.toToken within.of_cons
    have behind := within.of_cons.suffix (readHeading_suffix finish first.toToken rest)
    have body := nestedAlike behind
    have later := laterAlike (behind.suffix nested.suffix)
    rw [← heading.rest] at body
    rw [← body.rest, ← body.links] at later
    rw [List.map_cons, run_subgraph (by simpa)
      (closesSubgraph_eq_false (by simpa)) (by simpa) shallow rfl rfl]
    exact later.prepend (.some (move.alike_subgraph _ _ body.elements))
      (List.rel_append heading.diagnostics body.diagnostics)
  | tooDeep inside opens deep _ ih =>
    have later := ih (within.of_cons.suffix (skipSubgraph_suffix 1 _))
    rw [← skipSubgraph_item] at later
    rw [List.map_cons, run_tooDeep (by simpa)
      (closesSubgraph_eq_false (by simpa)) (by simpa) deep]
    exact later.prepend .none (move.tells_one _ rfl fun _ => rfl)
  | @plain _ _ links hasSource first rest _ _ inside stays shut read _ ih =>
    subst read
    have plain := move.readPlain_reads finish links hasSource within
    have later := ih (within.of_cons.suffix (readPlain_suffix ..))
    rw [← plain.rest, ← move.countLink_of_alike links plain.value,
      ← move.sourceAfter_of_alike hasSource plain.value] at later
    rw [List.map_cons, run_plain (by simpa) (by simpa) (by simpa) rfl]
    exact later.prepend plain.value plain.diagnostics

/-! ## Neighbours -/

section Neighbours

variable {items : List Item}

/-- A semicolon stands between two nodes of the text when it does in the relocated text. -/
theorem separated_item (within : Within (Token.StandsIn source) items) {first first' : Node}
    {second second' : Node} (left : move.NodeAlike source first first')
    (right : move.NodeAlike source second second') :
    separated (items.map move.item) first' second' = separated items first second := by
  have behind : ∀ item ∈ items, decide ((move.item item).offset ≤ first'.position.offset) =
      decide (item.offset ≤ first.position.offset) := by
    intro item member
    rw [left.position, decide_eq_decide]
    exact move.offset_position_le_iff (within item member).start left.lies
  have ahead : ∀ item ∈ items.dropWhile (·.offset ≤ first.position.offset),
      decide ((move.item item).offset < second'.position.offset) =
        decide (item.offset < second.position.offset) := by
    intro item member
    have stands := within item ((List.dropWhile_suffix _).subset member)
    rw [right.position, decide_eq_decide]
    exact move.offset_position_lt_iff stands.start right.lies
  rw [separated, separated, move.dropWhile_item _ _ behind, move.takeWhile_item _ _ ahead,
    List.any_map]
  rfl

private theorem unconnected_tells {first first' second second' : Node}
    (left : move.NodeAlike source first first') (right : move.NodeAlike source second second') :
    move.Tells (unconnected first second) (unconnected first' second') := by
  have place (exact : move.returns = 0) :
      second'.position.offset = second.position.offset + move.bytes := by
    simp [right.position, position, exact]
  have said : move.Tells (unconnected first second)
      (.located (move.position second.position)
        (.between second'.position.offset (second'.position.offset + second'.id.utf8ByteSize))
        (.unconnectedNodes first'.id second'.id)) := by
    refine move.tells_located rfl ?_ place fun exact => ?_
    · exact fun exact => by rw [left.id exact, right.id exact]
    · simp only [Span.between, place exact, right.id exact]
      omega
  rwa [← right.position] at said

private theorem pairDiagnostics_tells (within : Within (Token.StandsIn source) items)
    {first first' second second' : Element} (left : move.Alike source first first')
    (right : move.Alike source second second') :
    List.Forall₂ move.Tells (pairDiagnostics items first second)
      (pairDiagnostics (items.map move.item) first' second') := by
  cases first <;> cases first' <;> try exact left.elim
  case node.node first first' =>
    cases second <;> cases second' <;> try exact right.elim
    case node.node second second' =>
      have left : move.NodeAlike source first first' := left
      have right : move.NodeAlike source second second' := right
      have line : first'.position.line ≠ second'.position.line ↔
          first.position.line ≠ second.position.line := by
        simp [left.position, right.position, position]
      simp only [pairDiagnostics, separated_item move within left right, line]
      split
      · exact .nil
      · exact .cons (move.unconnected_tells left right) .nil
    all_goals exact .nil
  all_goals exact .nil

private theorem neighbourDiagnostics_tells (within : Within (Token.StandsIn source) items)
    {elements elements' : List Element} (alike : move.AlikeAll source elements elements') :
    List.Forall₂ move.Tells (neighbourDiagnostics items elements)
      (neighbourDiagnostics (items.map move.item) elements') := by
  induction elements generalizing elements' with
  | nil =>
    cases elements' with
    | nil => exact .nil
    | cons => exact alike.elim
  | cons first rest ih =>
    cases elements' with
    | nil => exact alike.elim
    | cons first' rest' =>
      obtain ⟨own, later⟩ : move.Alike source first first' ∧ move.AlikeAll source rest rest' :=
        alike
      cases rest <;> cases rest' <;> try exact later.elim
      case nil.nil => exact .nil
      case cons.cons second rest second' rest' =>
        have next : move.Alike source second second' ∧ move.AlikeAll source rest rest' := later
        exact List.rel_append (move.pairDiagnostics_tells within own next.1) (ih later)

mutual

private theorem insideDiagnostics_tells (within : Within (Token.StandsIn source) items)
    (element element' : Element) (alike : move.Alike source element element') :
    List.Forall₂ move.Tells (insideDiagnostics items element)
      (insideDiagnostics (items.map move.item) element') := by
  cases element <;> cases element' <;> try exact alike.elim
  case subgraph.subgraph heading elements heading' elements' =>
    have alike : move.AlikeAll source elements elements' := alike
    exact List.rel_append (move.neighbourDiagnostics_tells within alike)
      (insideAllDiagnostics_tells within elements elements' alike)
  all_goals exact .nil

private theorem insideAllDiagnostics_tells (within : Within (Token.StandsIn source) items)
    (elements elements' : List Element) (alike : move.AlikeAll source elements elements') :
    List.Forall₂ move.Tells (insideAllDiagnostics items elements)
      (insideAllDiagnostics (items.map move.item) elements') := by
  cases elements <;> cases elements' <;> try exact alike.elim
  case nil.nil => exact .nil
  case cons.cons element rest element' rest' =>
    have alike : move.Alike source element element' ∧ move.AlikeAll source rest rest' := alike
    exact List.rel_append (insideDiagnostics_tells within element element' alike.1)
      (insideAllDiagnostics_tells within rest rest' alike.2)

end

private theorem connectionDiagnostics_tells (within : Within (Token.StandsIn source) items)
    {elements elements' : List Element} (alike : move.AlikeAll source elements elements') :
    List.Forall₂ move.Tells (connectionDiagnostics items elements)
      (connectionDiagnostics (items.map move.item) elements') :=
  List.rel_append (move.neighbourDiagnostics_tells within alike)
    (move.insideAllDiagnostics_tells within elements elements' alike)

end Neighbours

/-! ## Whole flowcharts -/

private theorem readDirection_reads (header : Token) (rest : List Item) :
    move.Reads (fun _ _ => True) (readDirection header rest)
      (readDirection (move.token header) (rest.map move.item)) := by
  cases rest with
  | nil => exact ⟨trivial, .nil, rfl⟩
  | cons word after =>
    simp only [List.map_cons, readDirection, toToken_item, line_token, kind_token, text_token,
      Nat.add_right_cancel_iff, direction_ofKeyword?_text]
    split
    · split
      · exact ⟨trivial, .nil, rfl⟩
      · exact ⟨trivial, move.tells_one _ rfl fun exact => by rw [text_of_returns move exact], rfl⟩
    · exact ⟨trivial, .nil, rfl⟩

/-- A flowchart of the relocated text is read as that of the text. -/
theorem flowchart_reads (finish header : Token) {rest : List Item}
    (within : Within (Token.StandsIn source) rest) :
    move.Reads (fun _ _ => True) (Flowchart.read finish header rest)
      (Flowchart.read (move.token finish) (move.token header) (rest.map move.item)) := by
  have direction := move.readDirection_reads header rest
  have content := move.runs_alike (runs_run finish none 0 0 false (readDirection header rest).rest)
    (within.suffix (readDirection_suffix header rest))
  rw [← direction.rest] at content
  exact ⟨trivial, List.rel_append (List.rel_append direction.diagnostics content.diagnostics)
    (move.connectionDiagnostics_tells within content.elements), content.rest⟩

end Relocation

end DiagramCheck
