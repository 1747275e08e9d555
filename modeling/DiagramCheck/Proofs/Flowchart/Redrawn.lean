/-
# Drawings are read as they were drawn

A printed drawing has no mistakes, and the flowchart read from it is the one that
was drawn. A row is read on its line, whatever stands below. A chain gives its nodes
and links, each link with the name of the node behind it as its destination. The two
rows around the rows of a subgraph give the subgraph with what those rows give. Two
nodes that follow each other in one list stand on different rows, so nothing is said
of neighbours either.

Main statements: `Drawing.Line.gives` for lines and `Drawing.validate_print`.
-/

import DiagramCheck.Proofs.Flowchart.Linking
import DiagramCheck.Proofs.Flowchart.Printed
import DiagramCheck.Proofs.Flowchart.Succession

namespace DiagramCheck

open Layout (OnRow)

/-! ## Names and labels -/

namespace Items

/-- A name that no other name touches is its first token. -/
theorem peekName_alone {first : Item} {rest : List Item}
    (alone : ∀ next ∈ rest.head?, next.isName = true → next.offset ≠ first.stop)
    (finish : Token) :
    peekName finish (first :: rest) = first.toToken ∧ afterName (first :: rest) = rest := by
  have none : touching first.stop rest = [] := by
    cases rest with
    | nil => rfl
    | cons next rest =>
      rw [touching, if_neg]
      rw [Bool.and_eq_true, beq_iff_eq]
      exact fun touches => alone next rfl touches.1 touches.2
  have short : nameLength (first :: rest) ≤ 1 := by
    rw [nameLength, none]
    split
    · exact Nat.le_refl 1
    · exact Nat.zero_le 1
  rw [peekName, if_pos short, afterName, Nat.max_eq_left short]
  exact ⟨rfl, rfl⟩

end Items

/-- What stands inside brackets that are closed is the label. -/
theorem Label.read_closed {bracket : Bracket} {owner finish : Token} {line : Nat}
    {stops : TokenKind → Bool} {words after : List Item} {closing : Item}
    (inside : ∀ item ∈ words, isInside bracket line item = true)
    (closes : closing.kind = .closing bracket) :
    read finish owner bracket line stops (words ++ closing :: after) =
      ⟨some ((ofItems? words).getD ""), [], after⟩ := by
  have outside : isInside bracket line closing = false := by simp [isInside, closes]
  rw [read, List.takeWhile_append_of_pos inside, List.dropWhile_append_of_pos inside,
    List.takeWhile_cons_of_neg (by simp [outside]), List.dropWhile_cons_of_neg (by simp [outside]),
    List.append_nil, List.tail_cons, Items.front, if_pos closes]

namespace Flowchart

namespace Drawing

variable {finish : Token} {line : Nat}

/-- The items of a row stand on its line and begin no statement behind its first item. -/
def Beside (line : Nat) (items : List Item) : Prop :=
  ∀ item ∈ items, (item.line = line ∧ item.endLine = line) ∧ item.startsStatement = false

theorem Caption.value_eq {caption : Caption} {item : Item} (same : item.word = caption.word) :
    item.value = caption.text := Token.value_quoted same

theorem Caption.ofItems?_eq {caption : Caption} {item : Item} (same : item.word = caption.word) :
    Label.ofItems? [item] = some caption.text := by
  rw [← Caption.value_eq same]
  simp [Label.ofItems?, Label.text?]

/-- The items of a caption between two marks. -/
theorem exists_of_framed {opens closes : TokenKind × String} {caption : Caption}
    {label : List Item} (spelled : label.map (·.word) = [opens, caption.word, closes]) :
    ∃ opening quoted closing, label = [opening, quoted, closing] ∧ opening.kind = opens.1 ∧
      quoted.word = caption.word ∧ closing.kind = closes.1 := by
  obtain ⟨opening, _, rfl, first, spelled⟩ := List.map_eq_cons_iff.1 spelled
  obtain ⟨quoted, _, rfl, same, spelled⟩ := List.map_eq_cons_iff.1 spelled
  obtain ⟨closing, _, rfl, last, none⟩ := List.map_eq_cons_iff.1 spelled
  obtain rfl := List.map_eq_nil_iff.1 none
  exact ⟨opening, quoted, closing, rfl, (Prod.ext_iff.1 first).1, same, (Prod.ext_iff.1 last).1⟩

/-- A caption in brackets is read as its text. -/
theorem read_label {bracket : Bracket} {caption : Caption} {owner : Token}
    {stops : TokenKind → Bool} {quoted closing : Item} {after : List Item}
    (same : quoted.word = caption.word)
    (closes : closing.kind = .closing bracket) (beside : quoted.line = line) :
    Label.read finish owner bracket line stops (quoted :: closing :: after) =
      ⟨some caption.text, [], after⟩ := by
  have kind : quoted.kind = .string := (Prod.ext_iff.1 same).1
  have inside : Label.isInside bracket line quoted = true := by
    simp [Label.isInside, kind, beside, TokenKind.isArrow]
  have read : Label.read finish owner bracket line stops ([quoted] ++ closing :: after) = _ :=
    Label.read_closed (List.forall_mem_singleton.2 inside) closes
  rw [Caption.ofItems?_eq same] at read
  exact read

/-! ## Items of names -/

section Named

variable {name : Name} {item : Item} (same : item.word = name.word)

include same

theorem Name.text_item : item.text = name.text := (Prod.ext_iff.1 same).2

/-- A name is a plain word or the keyword of a declaration. -/
theorem Name.kind_item : item.kind = .identifier ∨ item.kind = .participant := by
  have kind : item.kind = .ofWord name.text := (Prod.ext_iff.1 same).1
  have unheaded := name.isUntaken.unheaded
  rcases TokenKind.ofWord_cases name.text with word | word | ⟨family, word⟩
  · exact .inl (kind.trans word)
  · exact .inr (kind.trans word)
  · rw [word] at unheaded
    cases unheaded

theorem Name.isName_item : item.isName = true := by
  have letter : item.text.toList.head?.any Token.startsName = true := by
    have spelled := name.spellsWord
    rw [Name.text_item same]
    cases text : name.text.toList with
    | nil =>
      rw [text] at spelled
      cases spelled
    | cons c tail =>
      rw [text, Lexeme.spellsWord, Bool.and_eq_true] at spelled
      simp [Token.startsName, Char.isAlphanum, spelled.1]
  rcases Name.kind_item same with kind | kind
  · rw [Token.isName, kind]
    exact letter
  · rw [Token.isName, kind]

theorem Name.value_item : item.value = name.text :=
  (Token.value_of_isName (Name.isName_item same)).trans (Name.text_item same)

theorem Name.reserved_item : item.closesSubgraph = false ∧ item.opensSubgraph = false := by
  have unclosed : String.ofList (name.text.toList.map Char.toLower) ≠ "end" :=
    name.isUntaken.unclosed
  rw [Token.closesSubgraph, Token.isWordIgnoringCase, Token.opensSubgraph, Token.isWord,
    Name.text_item same, beq_eq_false_iff_ne.2 name.isUntaken.unopened,
    beq_eq_false_iff_ne.2 unclosed]
  simp

theorem Name.isNodeName_item : item.isNodeName = true := by
  rw [Token.isNodeName, Name.isName_item same, (Name.reserved_item same).1,
    (Name.reserved_item same).2]
  rfl

theorem Name.undecorated_item : item.decoration? = none := by
  rw [Item.decoration?, Name.text_item same, name.isUntaken.undecorated, ite_self]

theorem Name.isBoundary_item : isBoundary item = false := by
  rcases Name.kind_item same with kind | kind <;> exact isBoundary_of_kind kind rfl

end Named

/-! ## Nodes -/

/-- What may stand behind a name: an arrow, or something further down. -/
def Clear (name : Item) (after : List Item) : Prop :=
  ∀ next ∈ after.head?, next.kind.isArrow = true ∨
    name.endLine < next.line ∧ name.stop < next.offset

theorem Clear.alone {name : Item} {after : List Item} (clear : Clear name after) :
    ∀ next ∈ after.head?, next.isName = true → next.offset ≠ name.stop := by
  intro next front named
  rcases clear next front with arrow | below
  · unfold TokenKind.isArrow at arrow
    split at arrow
    · next kind =>
      rw [Token.isName, kind] at named
      cases named
    · cases arrow
  · exact below.2.ne'

theorem Clear.labelBracket?_eq {name : Item} {after : List Item} (clear : Clear name after)
    (finished : finish.kind = .endOfInput) :
    labelBracket? name.endLine (Items.front finish after) = none := by
  cases after with
  | nil => simp only [labelBracket?, Items.front, finished]
  | cons next after =>
    unfold labelBracket?
    split
    · next bracket kind =>
      rcases clear next rfl with arrow | below
      · simp [Items.front] at kind
        rw [kind] at arrow
        cases arrow
      · rw [Items.front, if_neg below.1.ne']
    · rfl

/-- Nothing behind the name of a node touches it. -/
theorem Node.alone (node : Node) {name : Item} {label after : List Item}
    (spelled : (name :: label).map (·.word) = node.words) (clear : Clear name after) :
    ∀ next ∈ (label ++ after).head?, next.isName = true → next.offset ≠ name.stop := by
  obtain ⟨id, _ | ⟨shape, caption⟩⟩ := node
  · obtain rfl := List.map_eq_nil_iff.1 (List.cons.inj spelled).2
    exact clear.alone
  · -- A bracket is no name.
    obtain ⟨opening, quoted, closing, rfl, opens, -⟩ := exists_of_framed (List.cons.inj spelled).2
    rintro _ ⟨⟩ other
    rw [Token.isName, opens] at other
    cases other

/-- A node is read as it was drawn. -/
theorem Node.readNode_eq (node : Node) (finished : finish.kind = .endOfInput) {name : Item}
    {label after : List Item} (spelled : (name :: label).map (·.word) = node.words)
    (lines : ∀ item ∈ name :: label, item.line = line ∧ item.endLine = line)
    (clear : Clear name after) :
    readNode finish (name :: (label ++ after)) =
      ⟨.node (node.placed name.position), [], after⟩ := by
  obtain ⟨peek, behind⟩ := Items.peekName_alone (node.alone spelled clear) finish
  obtain ⟨id, _ | ⟨shape, caption⟩⟩ := node
  · -- Without a label nothing on the line opens one.
    obtain ⟨named, none⟩ := List.cons.inj spelled
    obtain rfl := List.map_eq_nil_iff.1 none
    rw [List.nil_append] at peek behind
    unfold readNode
    dsimp only
    rw [List.nil_append, peek, behind, clear.labelBracket?_eq finished]
    dsimp only
    rw [Name.value_item named]
    rfl
  · -- The bracket stands on the line on which the name ends, and draws the shape again.
    obtain ⟨named, labelled⟩ := List.cons.inj spelled
    obtain ⟨opening, quoted, closing, rfl, opens, same, closes⟩ := exists_of_framed labelled
    have own := lines name (by simp)
    have front := lines opening (by simp)
    have bracketed : labelBracket? name.endLine opening.toToken = some shape.bracket := by
      simp only [labelBracket?, opens, front.1, own.2, if_true]
    unfold readNode
    dsimp only
    rw [peek, behind]
    simp only [List.cons_append, List.nil_append, Items.front, bracketed, List.tail_cons]
    rw [front.2, read_label same closes (lines quoted (by simp)).1, Name.value_item named,
      shape.ofBracket_bracket]
    rfl

/-! ## Runs without mistakes -/

end Drawing

/-- A run with more elements in front. -/
def Run.prependAll (run : Run) (elements : List Element) : Run :=
  { run with elements := elements ++ run.elements }

theorem Run.prependAll_prependAll (run : Run) (first second : List Element) :
    (run.prependAll second).prependAll first = run.prependAll (first ++ second) := by
  rw [prependAll, prependAll, prependAll, List.append_assoc]

namespace Drawing

section Runs

variable {enclosing : Option Token} {depth links : Nat}

/-- A run begins with the node that was drawn, and a link may follow. -/
theorem Node.run_eq (node : Node) (finished : finish.kind = .endOfInput) {hasSource : Bool}
    {name : Item} {label after : List Item} (spelled : (name :: label).map (·.word) = node.words)
    (lines : ∀ item ∈ name :: label, item.line = line ∧ item.endLine = line)
    (clear : Clear name after) :
    run finish enclosing depth links hasSource (name :: (label ++ after)) =
      (run finish enclosing depth links true after).prependAll
        [.node (node.placed name.position)] := by
  have named : name.word = node.name.word := (List.cons.inj spelled).1
  have read : readPlain finish links hasSource name (label ++ after) = _ :=
    readPlain_node (Name.undecorated_item named) (Name.isNodeName_item named)
  rw [node.readNode_eq finished spelled lines clear] at read
  rw [run_plain (Name.isBoundary_item named) (Name.reserved_item named).1
    (Name.reserved_item named).2 read]
  rfl

/-- What stands between two pipes on a line is read as the label of a link. -/
theorem readOptionalLinkLabel_framed {opening closing : Item} {words after : List Item}
    (opens : opening.kind = .pipe) (closes : closing.kind = .pipe)
    (lines : ∀ item ∈ opening :: (words ++ [closing]), item.line = line)
    (unpiped : ∀ item ∈ words, item.kind ≠ .pipe) :
    readOptionalLinkLabel finish line (opening :: (words ++ closing :: after)) =
      ⟨Label.ofItems? words, [], after⟩ := by
  obtain ⟨front, lines⟩ := List.forall_mem_cons.1 lines
  obtain ⟨inside, last⟩ := List.forall_mem_append.1 lines
  have own : closing.line = line := last closing (List.mem_singleton_self _)
  have words (item : Item) (member : item ∈ words) :
      (item.line == line && item.kind != .pipe) = true := by
    rw [inside item member, beq_self_eq_true, Bool.true_and]
    exact bne_iff_ne.2 (unpiped item member)
  have stop : (closing.line == line && closing.kind != .pipe) = false := by
    rw [closes, bne_self_eq_false, Bool.and_false]
  rw [readOptionalLinkLabel, Items.frontIs, front, opens, beq_self_eq_true, beq_self_eq_true,
    Bool.and_self, if_pos rfl, List.tail_cons, readLinkLabel, List.takeWhile_append_of_pos words,
    List.dropWhile_append_of_pos words,
    List.takeWhile_cons_of_neg (by simp [stop]), List.dropWhile_cons_of_neg (by simp [stop]),
    List.append_nil, Items.frontIs, own, closes, beq_self_eq_true, beq_self_eq_true,
    Bool.and_self, if_pos rfl, List.tail_cons]

/-- A link is read as it was drawn, with the name behind it as its destination. -/
theorem Link.readLink_eq (link : Link) {node : Node} {arrow target : Item}
    {label more : List Item} (spelled : (arrow :: label).map (·.word) = link.words)
    (lines : ∀ item ∈ arrow :: label, item.line = line ∧ item.endLine = line)
    (named : target.word = node.name.word) (beside : target.line = line)
    (alone : ∀ next ∈ more.head?, next.isName = true → next.offset ≠ target.stop) :
    readLink finish link.stroke.arrow arrow.toToken (label ++ target :: more) =
      ⟨.link (link.placed node arrow.position), [], target :: more⟩ := by
  have own : arrow.line = line := (lines arrow (List.mem_cons_self ..)).1
  have read : readOptionalLinkLabel finish line (label ++ target :: more) =
      ⟨link.label.map (·.text), [], target :: more⟩ := by
    obtain ⟨stroke, mark, spelling, _ | caption⟩ := link
    · -- Without a label the destination is next, and it is no pipe.
      obtain rfl := List.map_eq_nil_iff.1 (List.cons.inj spelled).2
      have plain : (target.kind == .pipe) = false := by
        rcases Name.kind_item named with kind | kind <;> rw [kind] <;> rfl
      simp [readOptionalLinkLabel, Items.frontIs, plain]
    · -- Between the pipes only the caption stands.
      obtain ⟨opening, quoted, closing, rfl, opens, same, closes⟩ :=
        exists_of_framed (List.cons.inj spelled).2
      have kind : quoted.kind = .string := (Prod.ext_iff.1 same).1
      have framed : readOptionalLinkLabel finish line
          (opening :: ([quoted] ++ closing :: target :: more)) = _ :=
        readOptionalLinkLabel_framed opens closes
          (fun item member => (lines item (List.mem_cons_of_mem _ member)).1)
          (List.forall_mem_singleton.2 (by simp [kind]))
      rw [Caption.ofItems?_eq same] at framed
      exact framed
  have destination : destination? finish line (target :: more) = some node.name.text := by
    obtain ⟨peek, -⟩ := Items.peekName_alone alone finish
    rw [destination?, peek, Name.isNodeName_item named, Name.value_item named]
    simp [Items.frontIs, beside]
  rw [readLink, own, read, link.stroke.ofArrow_arrow]
  simp only [destination]
  rfl

/-- A run whose last element a link can begin at goes on with the link that was drawn. -/
theorem Link.run_eq (link : Link) {node : Node} {arrow target : Item} {label more : List Item}
    (spelled : (arrow :: label).map (·.word) = link.words) (beside : Beside line (arrow :: label))
    (named : target.word = node.name.word) (front : target.line = line)
    (alone : ∀ next ∈ more.head?, next.isName = true → next.offset ≠ target.stop) :
    run finish enclosing depth links true (arrow :: (label ++ target :: more)) =
      (run finish enclosing depth (links + 1) false (target :: more)).prependAll
        [.link (link.placed node arrow.position)] := by
  have kind : arrow.kind = .arrow link.stroke.arrow := (Prod.ext_iff.1 (List.cons.inj spelled).1).1
  have inside : arrow.startsStatement = false := (beside arrow (List.mem_cons_self ..)).2
  have read := @readPlain_link finish links _ (label ++ target :: more) _ kind
    link.stroke.isLink_arrow inside
  rw [link.readLink_eq spelled (fun item member => (beside item member).1) named front alone]
    at read
  have plain : arrow.closesSubgraph = false ∧ arrow.opensSubgraph = false := by
    simp [Token.closesSubgraph, Token.opensSubgraph, Token.isWordIgnoringCase, Token.isWord, kind]
  rw [run_plain (isBoundary_of_kind kind rfl) plain.1 plain.2 read]
  rfl

end Runs

/-! ## Elements as they were drawn -/

/-- Two elements with nothing missing between them: not two nodes, or two on different lines. -/
def Apart : Element → Element → Prop
  | .node first, .node second => first.position.line ≠ second.position.line
  | _, _ => True

/-- Elements that are the expected ones without their positions. They begin on the lines from
`start` to before `stop`, and no link is missing among them or inside them. -/
structure Drawn (start stop : Nat) (expected elements : List Element) : Prop where
  unplaced : Element.unplacedAll elements = expected
  lines : ∀ element ∈ elements, start ≤ element.position.line ∧ element.position.line < stop
  apart : elements.IsChain Apart
  inside : ∀ list ∈ Element.listsAll elements, list.IsChain Apart

/-- Nothing is said of elements when nothing is said of any two neighbours. -/
theorem connectionDiagnostics_of_isChain {items : List Item} {elements : List Element}
    {joined : Element → Element → Prop}
    (silent : ∀ first second, joined first second → pairDiagnostics items first second = [])
    (own : elements.IsChain joined)
    (inside : ∀ list ∈ Element.listsAll elements, list.IsChain joined) :
    connectionDiagnostics items elements = [] := by
  have none {list : List Element} (chain : list.IsChain joined) :
      neighbourDiagnostics items list = [] := by
    refine List.eq_nil_iff_forall_not_mem.2 fun diagnostic said => ?_
    obtain ⟨before, left, right, after, rfl, own⟩ := mem_neighbourDiagnostics.1 said
    have next := (List.isChain_cons_cons.1 (List.isChain_append.1 chain).2.1).1
    rw [silent left right next] at own
    cases own
  rw [connectionDiagnostics_eq, List.flatMap_eq_nil_iff]
  exact List.forall_mem_cons.2 ⟨none own, fun list member => none (inside list member)⟩

theorem unplacedAll_append (first second : List Element) :
    Element.unplacedAll (first ++ second) =
      Element.unplacedAll first ++ Element.unplacedAll second := by
  induction first with
  | nil => rfl
  | cons element first ih =>
    rw [List.cons_append, Element.unplacedAll, Element.unplacedAll, ih, List.cons_append]

namespace Drawn

variable {start middle stop : Nat} {expected expected' elements elements' : List Element}

theorem nil : Drawn start stop [] [] :=
  ⟨rfl, List.forall_mem_nil _, .nil, List.forall_mem_nil _⟩

theorem cons {element : Element} (drawn : Drawn start stop expected elements)
    (lines : start ≤ element.position.line ∧ element.position.line < stop)
    (apart : ∀ next ∈ elements.head?, Apart element next)
    (inside : ∀ list ∈ Element.lists element, list.IsChain Apart) :
    Drawn start stop (Element.unplaced element :: expected) (element :: elements) := by
  refine ⟨?_, List.forall_mem_cons.2 ⟨lines, drawn.lines⟩, ?_, ?_⟩
  · rw [Element.unplacedAll, drawn.unplaced]
  · exact List.isChain_cons.2 ⟨apart, drawn.apart⟩
  · rw [Element.listsAll]
    exact List.forall_mem_append.2 ⟨inside, drawn.inside⟩

/-- In front of a node on a line there may be a link, and another node before that. -/
theorem linked {first second : DiagramCheck.Node} (link : DiagramCheck.Link) {line : Nat}
    (drawn : Drawn line (line + 1) expected (.node second :: elements))
    (start : first.position.line = line) (joins : link.position.line = line) :
    Drawn line (line + 1)
      (Element.unplaced (.node first) :: Element.unplaced (.link link) :: expected)
      (.node first :: .link link :: .node second :: elements) := by
  have behind := @cons _ _ _ _ (.link link) drawn (by simp [Element.position, joins])
    (fun _ _ => trivial) (List.forall_mem_nil _)
  refine behind.cons (by simp [Element.position, start]) ?_ (List.forall_mem_nil _)
  rintro _ ⟨⟩
  trivial

/-- Elements on the lines below others leave nothing missing between the two. -/
theorem append (first : Drawn start middle expected elements)
    (second : Drawn middle stop expected' elements') (order : start ≤ middle ∧ middle ≤ stop) :
    Drawn start stop (expected ++ expected') (elements ++ elements') := by
  refine ⟨?_, ?_, ?_, ?_⟩
  · rw [unplacedAll_append, first.unplaced, second.unplaced]
  · intro element member
    rcases List.mem_append.1 member with member | member
    · have := first.lines element member
      omega
    · have := second.lines element member
      omega
  · -- The last of the one and the first of the other stand on different lines.
    refine List.isChain_append.2 ⟨first.apart, second.apart, fun last ends next begins => ?_⟩
    have upper := (first.lines last (List.mem_of_mem_getLast? ends)).2
    have lower := (second.lines next (List.mem_of_mem_head? begins)).1
    unfold Apart
    split
    · exact (upper.trans_le lower).ne
    · trivial
  · rw [Element.listsAll_append]
    exact List.forall_mem_append.2 ⟨first.inside, second.inside⟩

/-- A subgraph around elements among which no link is missing. -/
theorem subgraph (heading : SubgraphHeading) {start' stop' : Nat}
    (drawn : Drawn start' stop' expected elements)
    (lines : start ≤ heading.position.line ∧ heading.position.line < stop) :
    Drawn start stop [.subgraph { heading with position := .start } expected]
      [.subgraph heading elements] := by
  have whole := @cons start stop [] [] (.subgraph heading elements) nil lines nofun
    (List.forall_mem_cons.2 ⟨drawn.apart, drawn.inside⟩)
  rwa [Element.unplaced, drawn.unplaced] at whole

/-- No node lacks a link. -/
theorem connectionDiagnostics_eq_nil (drawn : Drawn start stop expected elements)
    (items : List Item) : connectionDiagnostics items elements = [] := by
  refine connectionDiagnostics_of_isChain (fun first second apart => ?_) drawn.apart drawn.inside
  unfold pairDiagnostics
  split
  · exact if_pos (by simpa using .inl apart)
  · rfl

end Drawn

/-! ## Rows -/

/-- Behind the name of a node stands the next link of its chain, or a later row. -/
theorem clear_of_rest {rest : List (Link × Node)} {name : Item} {more later : List Item}
    (spelled : more.map (·.word) = restWords rest) {row : List Item} (member : name ∈ row)
    (above : Items.Above row later) : Clear name (more ++ later) := by
  cases rest with
  | nil =>
    obtain rfl := List.map_eq_nil_iff.1 spelled
    intro next front
    exact .inr (above name member next (List.mem_of_mem_head? front))
  | cons step rest =>
    obtain ⟨arrow, _, rfl, linked, -⟩ := List.map_eq_cons_iff.1 spelled
    rintro _ ⟨⟩
    have kind : arrow.kind = .arrow step.1.stroke.arrow := (Prod.ext_iff.1 linked).1
    rw [kind]
    exact .inl rfl

/-- The links of a chain and the nodes they lead to are read as they were drawn. -/
theorem run_rest (finished : finish.kind = .endOfInput) {later : List Item}
    (rest : List (Link × Node)) {items : List Item} (spelled : items.map (·.word) = restWords rest)
    (beside : Beside line items) (above : Items.Above items later) :
    ∃ elements, (∀ enclosing depth links, ∃ links',
        run finish enclosing depth links true (items ++ later) =
          (run finish enclosing depth links' true later).prependAll elements) ∧
      ∀ node, node.position.line = line → Drawn line (line + 1)
        (Element.unplaced (.node node) ::
          rest.flatMap fun (link, node) =>
            [.link (link.placed node .start), .node (node.placed .start)])
        (.node node :: elements) := by
  -- By induction on the links, each read from a node. What is drawn is said together with a node in
  -- front, since a link by itself joins nothing.
  induction rest generalizing items with
  | nil =>
    obtain rfl := List.map_eq_nil_iff.1 spelled
    refine ⟨[], fun _ _ links => ⟨links, rfl⟩, fun node own => ?_⟩
    exact Drawn.nil.cons (by simp [Element.position, own]) nofun (List.forall_mem_nil _)
  | cons step rest ih =>
    obtain ⟨link, node⟩ := step
    -- The items are those of the link, those of the node and those of the other links.
    obtain ⟨_, behind, rfl, linked, spelled⟩ := List.map_eq_append_iff.1 spelled
    obtain ⟨_, more, rfl, noded, restSpelled⟩ := List.map_eq_append_iff.1 spelled
    obtain ⟨arrow, label, rfl, -, -⟩ := List.map_eq_cons_iff.1 linked
    obtain ⟨name, label', rfl, named, -⟩ := List.map_eq_cons_iff.1 noded
    obtain ⟨besideLink, beside⟩ := List.forall_mem_append.1 beside
    obtain ⟨besideNode, besideRest⟩ := List.forall_mem_append.1 beside
    obtain ⟨elements, reads, drawn⟩ := ih restSpelled besideRest fun item member =>
      above item (by simp [member])
    have clear : Clear name (more ++ later) := clear_of_rest restSpelled (by simp) above
    have arrowLine : arrow.line = line := (besideLink arrow (List.mem_cons_self ..)).1.1
    have nameLine : name.line = line := (besideNode name (List.mem_cons_self ..)).1.1
    refine ⟨.link (link.placed node arrow.position) :: .node (node.placed name.position) ::
      elements, fun enclosing depth links => ?_, fun own start => ?_⟩
    · obtain ⟨links', reads⟩ := reads enclosing depth (links + 1)
      refine ⟨links', ?_⟩
      rw [List.append_assoc, List.cons_append, List.append_assoc, List.cons_append,
        link.run_eq linked besideLink named nameLine (node.alone noded clear),
        node.run_eq finished noded (fun item member => (besideNode item member).1) clear, reads,
        Run.prependAll_prependAll, Run.prependAll_prependAll]
      rfl
    · have target := drawn (node.placed name.position) nameLine
      exact target.linked (link.placed node arrow.position) start arrowLine

/-- What a run makes of some rows: elements on their lines, with nothing said of them. -/
def Gives (finish : Token) (depth start stop : Nat) (items later : List Item)
    (expected : List Element) : Prop :=
  ∃ elements, Drawn start stop expected elements ∧
    ∀ enclosing links hasSource, ∃ links' hasSource',
      run finish enclosing depth links hasSource (items ++ later) =
        (run finish enclosing depth links' hasSource' later).prependAll elements

/-- A chain is read as it was drawn. -/
theorem gives_chain (finished : finish.kind = .endOfInput) {depth : Nat} {first : Node}
    {rest : List (Link × Node)} {items later : List Item}
    (row : OnRow line (Row.chain first rest).words items) (above : Items.Above items later) :
    Gives finish depth line (line + 1) items later (chainElements first rest) := by
  obtain ⟨_, more, rfl, noded, restSpelled⟩ := List.map_eq_append_iff.1 row.spelled
  obtain ⟨name, label, rfl, -, -⟩ := List.map_eq_cons_iff.1 noded
  have beside : Beside line (label ++ more) := fun item member =>
    ⟨row.lines item (List.mem_cons_of_mem _ member), row.beside item member⟩
  obtain ⟨elements, reads, drawn⟩ := run_rest finished rest restSpelled
    (List.forall_mem_append.1 beside).2 fun item member => above item (by simp [member])
  have clear : Clear name (more ++ later) := clear_of_rest restSpelled (by simp) above
  have nameLine : name.line = line := (row.lines name (List.mem_cons_self ..)).1
  -- Behind the first node the links are read as if the chain began there.
  refine ⟨.node (first.placed name.position) :: elements,
    drawn (first.placed name.position) nameLine, ?_⟩
  intro enclosing links hasSource
  obtain ⟨links', reads⟩ := reads enclosing depth links
  refine ⟨links', true, ?_⟩
  rw [List.append_assoc, List.cons_append, first.run_eq finished noded
    (fun item member => row.lines item (List.mem_append_left _ member)) clear, reads,
    Run.prependAll_prependAll]
  rfl

/-- The row that opens a subgraph is read as its heading. -/
theorem readHeading_opening {name : Name} {title : Option Caption} {keyword : Item}
    {rest later : List Item} (row : OnRow line (Row.opening name title).words (keyword :: rest))
    (above : Items.Above (keyword :: rest) later) :
    readHeading finish keyword.toToken (rest ++ later) =
      ⟨⟨name.text, title.map (·.text), keyword.position⟩, [], later⟩ := by
  have own : keyword.line = line := (row.lines keyword (List.mem_cons_self ..)).1
  have below : Items.Below line later := own ▸ above.below
  obtain ⟨first, label, rfl, named, titled⟩ :=
    List.map_eq_cons_iff.1 (List.cons.inj row.spelled).2
  have beside : first.line = line := (row.lines first (by simp)).1
  -- The name and the title are written like a node and its label.
  have noded : (first :: label).map (·.word) =
      (Node.mk name (title.map (Shape.rectangle, ·))).words := by
    rw [List.map_cons, named, titled]
    cases title <;> rfl
  have clear : Clear first later := fun next front =>
    .inr (above first (by simp) next (List.mem_of_mem_head? front))
  obtain ⟨peek, behind⟩ := Items.peekName_alone (Node.alone _ noded clear) finish
  have found : Items.frontIs line (fun _ => true) (first :: (label ++ later)) = true := by
    simp [Items.frontIs, beside]
  unfold readHeading
  rw [own, List.cons_append, peek, behind, if_pos found]
  dsimp only
  rw [Name.value_item named]
  cases title with
  | none =>
    -- The name stands alone on its line, so there are no words to be a title.
    obtain rfl := List.map_eq_nil_iff.1 titled
    have unbracketed : Items.frontIs line (·.kind == .opening .square) later = false :=
      Items.frontIs_append below _ []
    have onLine : Items.onLine line later = [] := Items.onLine_append below []
    have skipLine : Items.skipLine line later = later := Items.skipLine_append below []
    have plain : (first.kind == .string) = false := by
      rcases Name.kind_item named with kind | kind <;> rw [kind] <;> rfl
    rw [List.nil_append, unbracketed, onLine, skipLine, plain]
    rfl
  | some title =>
    obtain ⟨opening, quoted, closing, rfl, opens, same, closes⟩ := exists_of_framed titled
    have front := row.lines opening (by simp)
    have inside : quoted.line = line := (row.lines quoted (by simp)).1
    have read (owner : Token) (stops : TokenKind → Bool) :=
      @read_label finish line .square title owner stops quoted closing later same closes inside
    have bracketed : Items.frontIs line (·.kind == .opening .square)
        (opening :: ([quoted, closing] ++ later)) = true := by
      simp [Items.frontIs, opens, front.1]
    rw [List.cons_append, if_pos bracketed, Items.front, front.2, List.tail_cons,
      List.cons_append, List.singleton_append, read]
    rfl

/-! ## Lines -/

theorem Gives.append {depth start middle stop : Nat} {front behind later : List Item}
    {expected expected' : List Element}
    (first : Gives finish depth start middle front (behind ++ later) expected)
    (second : Gives finish depth middle stop behind later expected')
    (order : start ≤ middle ∧ middle ≤ stop) :
    Gives finish depth start stop (front ++ behind) later (expected ++ expected') := by
  obtain ⟨elements, drawn, reads⟩ := first
  obtain ⟨elements', drawn', reads'⟩ := second
  refine ⟨elements ++ elements', drawn.append drawn' order, fun enclosing links hasSource => ?_⟩
  obtain ⟨links', hasSource', upper⟩ := reads enclosing links hasSource
  obtain ⟨links'', hasSource'', lower⟩ := reads' enclosing links' hasSource'
  refine ⟨links'', hasSource'', ?_⟩
  rw [List.append_assoc, upper, lower, Run.prependAll_prependAll]

private theorem opensSubgraph_of_word {item : Item} (same : item.word = (.identifier, "subgraph")) :
    isBoundary item = false ∧ item.opensSubgraph = true := by
  obtain ⟨kind, text⟩ := Prod.ext_iff.1 same
  have kind : item.kind = .identifier := kind
  have text : item.text = "subgraph" := text
  refine ⟨isBoundary_of_kind kind rfl, ?_⟩
  rw [Token.opensSubgraph, Token.isWord, kind, text]
  rfl

private theorem closesSubgraph_of_word {item : Item} (same : item.word = (.identifier, "end")) :
    isBoundary item = false ∧ item.closesSubgraph = true := by
  obtain ⟨kind, text⟩ := Prod.ext_iff.1 same
  have kind : item.kind = .identifier := kind
  have text : item.text = "end" := text
  refine ⟨isBoundary_of_kind kind rfl, ?_⟩
  rw [Token.closesSubgraph, Token.isWordIgnoringCase, kind, text]
  decide

/-- A subgraph is read as it was drawn when the rows inside it are. -/
theorem gives_subgraph {depth stop : Nat} {name : Name} {title : Option Caption}
    {heading body closing later : List Item} {expected : List Element}
    (opens : OnRow line (Row.opening name title).words heading)
    (closes : OnRow stop Row.closing.words closing) (shallow : depth < maxDepth)
    (above : Items.Above heading (body ++ (closing ++ later)))
    (given : Gives finish (depth + 1) (line + 1) stop body (closing ++ later) expected)
    (order : line < stop) :
    Gives finish depth line (stop + 1) (heading ++ (body ++ closing)) later
      [.subgraph ⟨name.text, title.map (·.text), .start⟩ expected] := by
  obtain ⟨elements, drawn, reads⟩ := given
  obtain ⟨keyword, rest, rfl, keyed, -⟩ := List.map_eq_cons_iff.1 opens.spelled
  obtain ⟨last, _, rfl, ended, none⟩ := List.map_eq_cons_iff.1 closes.spelled
  obtain rfl := List.map_eq_nil_iff.1 none
  have beside : keyword.line = line := (opens.lines keyword (List.mem_cons_self ..)).1
  obtain ⟨begins, opening⟩ := opensSubgraph_of_word keyed
  obtain ⟨ends, closing⟩ := closesSubgraph_of_word ended
  have read := @readHeading_opening line finish _ _ _ _ _ opens above
  refine ⟨[.subgraph ⟨name.text, title.map (·.text), keyword.position⟩ elements], ?_, ?_⟩
  · refine drawn.subgraph ⟨name.text, title.map (·.text), keyword.position⟩ ?_
    exact ⟨beside.ge, beside.trans_lt (order.trans (Nat.lt_succ_self _))⟩
  · -- The run of the rows inside ends at the row that closes the subgraph.
    intro enclosing links hasSource
    obtain ⟨links', hasSource', inside⟩ := reads (some keyword.toToken) links false
    rw [List.singleton_append, run_closed ends closing] at inside
    refine ⟨links', true, ?_⟩
    have whole : keyword :: rest ++ (body ++ [last]) ++ later =
        keyword :: (rest ++ (body ++ ([last] ++ later))) := by simp
    rw [whole, run_subgraph begins (closesSubgraph_eq_false opening) opening shallow read inside]
    simp [Run.prepend, Run.prependAll]

mutual

/-- A line is read as it was drawn. -/
theorem Line.gives (finished : finish.kind = .endOfInput) (line : Line) (depth : Nat) {start : Nat}
    {items later : List Item} (laid : Rows start line.rows items)
    (above : Items.Above items later) (shallow : depth + line.depth ≤ maxDepth) :
    Gives finish depth start (start + line.rows.length) items later line.elements := by
  match line with
  | .chain first rest => exact gives_chain finished laid.onRow above
  | .subgraph name title body =>
    rw [Line.depth] at shallow
    rw [Line.rows] at laid ⊢
    rw [Line.elements]
    cases laid with
    | @cons _ _ _ heading items opens inner apart =>
      -- The rows inside lie one subgraph deeper, between the row that opens it and the one that
      -- closes it.
      obtain ⟨inside, closing, rfl, within, closes, apart'⟩ := inner.append
      have given := Line.givesAll finished body (depth + 1) within
        (apart'.append (above.subset fun _ member => by simp [member])) (by omega)
      have further := apart.append (above.subset (List.subset_append_left ..))
      rw [List.append_assoc] at further
      have whole := gives_subgraph opens closes.onRow (by omega) further given (by omega)
      rwa [List.length_cons, List.length_append, List.length_singleton, ← Nat.add_assoc,
        Nat.add_right_comm start, ← Nat.add_assoc]

/-- Lines are read as they were drawn, one after the other. -/
theorem Line.givesAll (finished : finish.kind = .endOfInput) (lines : List Line) (depth : Nat)
    {start : Nat} {items later : List Item} (laid : Rows start (rowsAll lines) items)
    (above : Items.Above items later) (shallow : depth + depthAll lines ≤ maxDepth) :
    Gives finish depth start (start + (rowsAll lines).length) items later
      (elementsAll lines) := by
  match lines with
  | [] =>
    cases laid
    exact ⟨[], .nil, fun _ links hasSource => ⟨links, hasSource, rfl⟩⟩
  | line :: lines =>
    rw [depthAll] at shallow
    rw [rowsAll] at laid ⊢
    obtain ⟨front, behind, rfl, upper, lower, apart⟩ := laid.append
    have first := Line.gives finished line depth upper
      (apart.append (above.subset (List.subset_append_left ..))) (by omega)
    have second := Line.givesAll finished lines depth lower
      (above.subset (List.subset_append_right ..)) (by omega)
    have whole := first.append second (by omega)
    rwa [List.length_append, ← Nat.add_assoc, elementsAll]

end

/-! ## Drawings -/

/-- The rest of a header row is read as the direction that was drawn. -/
theorem readDirection_header {word : HeaderWord} {direction : Option Direction} {header : Item}
    {rest later : List Item} (row : OnRow line (Row.header word direction).words (header :: rest))
    (above : Items.Above (header :: rest) later) :
    readDirection header.toToken (rest ++ later) = ⟨direction, [], later⟩ := by
  have spelled := (List.cons.inj row.spelled).2
  cases direction with
  | none =>
    obtain rfl := List.map_eq_nil_iff.1 spelled
    cases later with
    | nil => rfl
    | cons next later =>
      have other : next.line ≠ header.line := (above.below next (List.mem_cons_self ..)).ne'
      rw [List.nil_append, readDirection, if_neg fun beside => other beside.1]
  | some direction =>
    obtain ⟨named, _, rfl, worded, none⟩ := List.map_eq_cons_iff.1 spelled
    obtain rfl := List.map_eq_nil_iff.1 none
    have kind : named.kind = .identifier := (Prod.ext_iff.1 worded).1
    have text : named.text = direction.keyword := (Prod.ext_iff.1 worded).2
    have beside : named.line = header.line := by
      rw [(row.lines named (by simp)).1, (row.lines header (by simp)).1]
    rw [List.singleton_append, readDirection, if_pos ⟨beside, kind⟩, text,
      Direction.ofKeyword?_keyword]

/-- The items of a drawing are read as the flowchart that was drawn. -/
theorem read_drawn (drawing : Drawing) (finished : finish.kind = .endOfInput) {items : List Item}
    (laid : Rows line drawing.rows items) :
    ∃ header rest elements, items = header :: rest ∧ header.kind = .header .flowchart ∧
      read finish header.toToken rest = ⟨⟨drawing.direction, elements⟩, [], []⟩ ∧
      Element.unplacedAll elements = Line.elementsAll drawing.lines := by
  cases laid with
  | @cons _ _ _ _ later row within above =>
    obtain ⟨header, rest, rfl, headed, -⟩ := List.map_eq_cons_iff.1 row.spelled
    have shallow : 0 + Line.depthAll drawing.lines ≤ maxDepth := by
      rw [Nat.zero_add]
      exact drawing.shallow
    obtain ⟨elements, drawn, reads⟩ := Line.givesAll finished drawing.lines 0 within
      (fun _ _ => List.forall_mem_nil _) shallow
    obtain ⟨links, hasSource, content⟩ := reads none 0 false
    rw [List.append_nil, run_nil] at content
    refine ⟨header, rest ++ later, elements, rfl, (Prod.ext_iff.1 headed).1, ?_, drawn.unplaced⟩
    rw [read, readDirection_header row above]
    simp only [content, Run.prependAll, List.append_nil, drawn.connectionDiagnostics_eq_nil]
    rfl

end Drawing

/-- A drawing that is printed has no mistakes, and the flowchart read from it is the one that was
drawn. -/
theorem Drawing.validate_print (drawing : Drawing) :
    (validate drawing.print).diagnostics = [] ∧
      (ofSource? drawing.print).map unplaced = some drawing.chart := by
  obtain ⟨laid, quiet⟩ := Drawing.rows_print drawing.rows
  rw [← Drawing.print] at laid quiet
  obtain ⟨header, rest, elements, items, kind, chart, unplaced⟩ :=
    @Drawing.read_drawn _ (Layout.finish drawing.print) drawing rfl _ laid
  -- Nothing is left over behind the flowchart, so it is the only diagram.
  have read : Diagram.read drawing.print.toList (Layout.finish drawing.print) (header :: rest) =
      ⟨⟨header.position, .flowchart ⟨drawing.direction, elements⟩⟩, [], []⟩ := by
    rw [read_of_flowchart_header kind, chart]
    rfl
  rw [ofSource?, Validation.validate_of_items items, quiet, Diagram.readAll_cons, read,
    Diagram.readAll_nil]
  refine ⟨Diagnostic.inSourceOrder_nil, ?_⟩
  rw [Drawing.chart, ← unplaced]
  rfl

/-- A link between two nodes, and a subgraph around a third. -/
example :
    (Drawing.mk ⟨"flowchart", by decide⟩ (some .topDown)
      [.chain ⟨⟨"A", by decide⟩, some (.round, ⟨"from", by decide, by decide⟩)⟩
          [(⟨.thick, "==>", by decide, some ⟨"to", by decide, by decide⟩⟩,
            ⟨⟨"B", by decide⟩, none⟩)],
        .subgraph ⟨"s", by decide⟩ (some ⟨"inside", by decide, by decide⟩)
          [.chain ⟨⟨"C", by decide⟩, none⟩ []]]
      (by decide)).print =
      "flowchart TD\nA(\"from\") ==>|\"to\"| B\nsubgraph s [\"inside\"]\nC\nend" := by
  decide +kernel

end Flowchart

end DiagramCheck
