/-
# Whole flowcharts

A flowchart is read as the direction on its header line, a run of elements, and
the check that the nodes of each line are joined.

Two nodes that follow each other in a list of elements and share a line must be
joined by a link, unless a semicolon separates them. Each subgraph is a list of
its own. The diagnostic stands at the second node and covers its name.
-/

import DiagramCheck.Flowchart.Reading

namespace DiagramCheck.Flowchart

/-! ## Connected nodes -/

/-- Whether a semicolon stands between two nodes. -/
def separated (items : List Item) (first second : Node) : Bool :=
  ((items.dropWhile (·.offset ≤ first.position.offset)).takeWhile
    (·.offset < second.position.offset)).any (·.kind == .semicolon)

/-- What is said of two nodes that nothing joins. -/
def unconnected (first second : Node) : Diagnostic :=
  .located second.position
    (.between second.position.offset (second.position.offset + second.id.utf8ByteSize))
    (.unconnectedNodes first.id second.id)

/-- What is said of two elements that follow each other. -/
def pairDiagnostics (items : List Item) : Element → Element → List Diagnostic
  | .node first, .node second =>
    if first.position.line ≠ second.position.line || separated items first second then []
    else [unconnected first second]
  | _, _ => []

/-- What is said of the neighbours in a list of elements. -/
def neighbourDiagnostics (items : List Item) : List Element → List Diagnostic
  | first :: second :: rest =>
    pairDiagnostics items first second ++ neighbourDiagnostics items (second :: rest)
  | _ => []

mutual

/-- What is said of the elements inside an element. -/
def insideDiagnostics (items : List Item) : Element → List Diagnostic
  | .node _ => []
  | .link _ => []
  | .subgraph _ elements =>
    neighbourDiagnostics items elements ++ insideAllDiagnostics items elements

/-- What is said of the elements inside the elements of a list. -/
def insideAllDiagnostics (items : List Item) : List Element → List Diagnostic
  | [] => []
  | element :: rest => insideDiagnostics items element ++ insideAllDiagnostics items rest

end

/-- The nodes that share a line and are not joined, in a list and in every subgraph of it. -/
def connectionDiagnostics (items : List Item) (elements : List Element) : List Diagnostic :=
  neighbourDiagnostics items elements ++ insideAllDiagnostics items elements

/-! ## Reading flowcharts -/

/-- Reads the direction on the header line: the word after the header, if there is one. -/
def readDirection (header : Token) (rest : List Item) : Reading (Option Direction) :=
  match rest with
  | [] => ⟨none, [], []⟩
  | word :: after =>
    if word.line = header.line ∧ word.kind = .identifier then
      match Direction.ofKeyword? word.text with
      | some direction => ⟨some direction, [], after⟩
      | none => ⟨none, [.atToken word.toToken (.unknownHeaderDirection word.text)], after⟩
    else ⟨none, [], word :: after⟩

/-- Reads a flowchart after its header. -/
def read (finish header : Token) (rest : List Item) : Reading Flowchart :=
  let direction := readDirection header rest
  let content := run finish none 0 0 false direction.rest
  ⟨⟨direction.value, content.elements⟩,
    direction.diagnostics ++ content.diagnostics ++ connectionDiagnostics rest content.elements,
    content.rest⟩

theorem readDirection_suffix (header : Token) (rest : List Item) :
    (readDirection header rest).rest <:+ rest := by
  unfold readDirection
  split
  · exact List.suffix_refl _
  · split
    · split <;> exact List.suffix_cons ..
    · exact List.suffix_refl _

theorem read_suffix (finish header : Token) (rest : List Item) :
    (read finish header rest).rest <:+ rest :=
  (run_suffix ..).trans (readDirection_suffix ..)

end DiagramCheck.Flowchart
