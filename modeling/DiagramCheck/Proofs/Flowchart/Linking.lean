/-
# What links join

In a flowchart that is valid every link begins at the node or the subgraph
before it and names the node it leads to, and two nodes that follow each other on
one line have a semicolon between them. This holds of every list of elements, at
any depth.

That the named node is also the next element, and stands on the line of the
link, fails for some names: the destination is looked for under its whole name
and read again from its first token. When that token alone is a reserved word,
which happens when the name goes on beyond ASCII right after one, a subgraph is
opened or closed instead. `WellLinked` states this limit exactly.

Main statement: `links_join_nodes`.
-/

import Mathlib.Data.List.TakeWhile
import DiagramCheck.Proofs.Flowchart.Nesting
import DiagramCheck.Proofs.Flowchart.Run
import DiagramCheck.Proofs.Reading.Reserved
import DiagramCheck.Validation.Basic

namespace DiagramCheck.Flowchart

/-- What the list of elements behind a link has to do with the link: the link names its
destination, and the node of that name comes next and on the line of the link, unless the name goes
on beyond ASCII after a reserved word. -/
def Leads (link : Link) (after : List Element) : Prop :=
  ∃ name, link.destination = some name ∧
    ((∃ node more, after = .node node :: more ∧ node.id = name ∧
      node.position.line = link.position.line) ↔ ¬ ContinuesReserved name)

/-- Every link of a list begins at the element before it and leads on; `hasSource` says whether a
link can begin before the first element. -/
def Linked : Bool → List Element → Prop
  | _, [] => True
  | hasSource, element :: rest =>
    (∀ link, element = .link link → hasSource = true ∧ Leads link rest) ∧
      Linked element.isSource rest

theorem Linked.of_append {hasSource : Bool} {before after : List Element} {link : Link}
    (linked : Linked hasSource (before ++ .link link :: after)) :
    (before = [] ∧ hasSource = true ∨
      ∃ earlier source, before = earlier ++ [source] ∧ source.isSource = true) ∧
      Leads link after := by
  induction before generalizing hasSource with
  | nil =>
    obtain ⟨source, leads⟩ := linked.1 link rfl
    exact ⟨.inl ⟨rfl, source⟩, leads⟩
  | cons element before ih =>
    obtain ⟨begins, leads⟩ := ih linked.2
    refine ⟨.inr ?_, leads⟩
    rcases begins with ⟨rfl, source⟩ | ⟨earlier, source, rfl, isSource⟩
    · exact ⟨[], element, rfl, source⟩
    · exact ⟨element :: earlier, source, rfl, isSource⟩

/-! ## The item behind a link -/

section Link

variable {finish : Token} {first : Item} {rest : List Item}

/-- The label of a link, when it is closed, ends at an arrow or a pipe. -/
theorem readOptionalLinkLabel_behind {shape : Arrow} (kind : first.kind = .arrow shape)
    (line : Nat) (clean : (readOptionalLinkLabel finish line rest).diagnostics = []) :
    ∃ before previous,
      first :: rest = before ++ previous :: (readOptionalLinkLabel finish line rest).rest ∧
        previous.kind ≠ .semicolon := by
  unfold readOptionalLinkLabel at clean ⊢
  split at clean
  · next opened =>
    rw [if_pos opened]
    obtain ⟨pipe, items, rfl, -, -⟩ := Items.exists_of_frontIs opened
    rw [List.tail_cons] at clean ⊢
    simp only [readLinkLabel] at clean ⊢
    generalize (fun item : Item => item.line == line && item.kind != .pipe) = isWord at clean ⊢
    split at clean
    · next closed =>
      -- The label ends at the pipe that the words run up to.
      rw [if_pos closed]
      have whole := List.takeWhile_append_dropWhile (p := isWord) (l := items)
      obtain ⟨closing, behind, split, -, own⟩ := Items.exists_of_frontIs closed
      rw [split] at whole ⊢
      refine ⟨first :: pipe :: items.takeWhile isWord, closing, ?_, ?_⟩
      · rw [List.cons_append, List.cons_append, List.tail_cons, whole]
      · rw [beq_iff_eq.1 own]
        exact TokenKind.noConfusion
    · -- A label that is not closed is reported.
      cases clean
  · next unlabelled =>
    rw [if_neg unlabelled]
    exact ⟨[], first, rfl, by rw [kind]; exact TokenKind.noConfusion⟩

/-- The destination of a link begins with an item on the line of the link, which begins neither the
line nor a statement. -/
theorem readLink_destination {shape : Arrow} (kind : first.kind = .arrow shape)
    (laid : Items.LaidOut (first :: rest))
    (clean : (readLink finish shape first.toToken rest).diagnostics = []) :
    ∃ next behind, (readLink finish shape first.toToken rest).rest = next :: behind ∧
      next.line = first.line ∧ next.startsLine = false ∧ next.startsStatement = false ∧
      (Items.peekName finish (next :: behind)).isNodeName = true ∧
      ∃ label, (readLink finish shape first.toToken rest).value =
        .link ⟨some (Items.peekName finish (next :: behind)).value, label, .ofArrow shape,
          first.position⟩ := by
  simp only [readLink, List.append_eq_nil_iff] at clean ⊢
  obtain ⟨labelled, found⟩ := clean
  obtain ⟨before, previous, split, other⟩ :=
    readOptionalLinkLabel_behind kind first.line labelled
  have suffix := readOptionalLinkLabel_suffix finish first.line rest
  generalize readOptionalLinkLabel finish first.line rest = label at *
  cases destination : destination? finish first.line label.rest with
  | none =>
    rw [destination] at found
    cases found
  | some name =>
    unfold destination? at destination
    dsimp only at destination
    split at destination
    · next reached =>
      cases destination
      obtain ⟨reached, free⟩ := Bool.and_eq_true_iff.1 reached
      obtain ⟨next, behind, items, line, -⟩ := Items.exists_of_frontIs reached
      rw [items] at split suffix free ⊢
      have beside : next.startsLine = false :=
        laid.startsLine_eq_false (suffix.subset (List.mem_cons_self ..)) line.le
      -- A statement could still begin behind a semicolon, but what stands before is none.
      have order : previous.Before next :=
        Items.LaidOut.before (laid.suffix ⟨before, split.symm⟩)
      have statement : next.startsStatement = false := by
        rw [order.startsStatement, ← order.startsLine, beside, Bool.false_or,
          beq_eq_false_iff_ne]
        exact other
      exact ⟨next, behind, rfl, line, beside, statement, free, label.value, rfl⟩
    · cases destination

end Link

/-! ## Runs without a diagnostic -/

section Runs

variable {finish : Token} {enclosing : Option Token} {depth links : Nat} {hasSource : Bool}
  {items : List Item} {run : Run}

/-- A run that begins with a name in the middle of a statement begins with the node of that name,
unless the first token of the name opens or closes a subgraph. -/
theorem Runs.begins_node_iff {first : Item} {rest : List Item}
    (runs : Runs finish enclosing depth links hasSource (first :: rest) run)
    (clean : run.diagnostics = []) (beside : first.startsLine = false)
    (statement : first.startsStatement = false) (name : first.isName = true) {line : Nat}
    (same : first.line = line) :
    (∃ node more, run.elements = .node node :: more ∧
      node.id = (Items.peekName finish (first :: rest)).text ∧ node.position.line = line) ↔
      ¬ (first.closesSubgraph = true ∨ first.opensSubgraph = true) := by
  cases runs with
  | boundary header =>
    rw [isBoundary_of_beside beside] at header
    cases header
  | closed _ closes =>
    -- The raw token closes the subgraph, so nothing is read and there is no node.
    constructor
    · rintro ⟨node, more, absent, -⟩
      cases absent
    · intro free
      exact absurd (.inl closes) free
  | unmatched => cases clean
  | subgraph _ opens =>
    constructor
    · rintro ⟨node, more, head, -⟩
      cases head
    · intro free
      exact absurd (.inr opens) free
  | tooDeep => cases clean
  | @plain _ _ _ _ _ _ _ later _ stays shut read =>
    -- A decoration begins a statement, which this item does not.
    have undecorated : first.decoration? = none := by
      rw [Item.decoration?, statement, Bool.and_false, if_neg Bool.false_ne_true]
    have own : first.isNodeName = true := by
      rw [Token.isNodeName, name, stays, shut]
      rfl
    rw [readPlain_node undecorated own] at read
    subst read
    constructor
    · intro _ reserved
      rw [stays, shut] at reserved
      rcases reserved with closes | opens
      · cases closes
      · cases opens
    · intro _
      have begins := readNode_begins finish rest name
      obtain ⟨label, shape, value⟩ := readNode_value finish (first :: rest)
      rw [value] at begins
      refine ⟨_, later.elements, ?_, (begins.name _ rfl).2, ?_⟩
      · rw [Run.prepend, Reading.value_map, value]
        rfl
      · rw [← same]
        exact congrArg Position.line begins.position

/-- A link that is read without a diagnostic leads on to what the rest of its run begins with. -/
theorem Runs.leads {shape : Arrow} {first : Item} {rest : List Item} {link : Link}
    (kind : first.kind = .arrow shape) (laid : Items.LaidOut (first :: rest))
    (cut : ∀ item ∈ first :: rest, item.toToken.IsCut)
    (read : (readLink finish shape first.toToken rest).diagnostics = [])
    (value : (readLink finish shape first.toToken rest).value = .link link)
    (later : Runs finish enclosing depth links hasSource
      (readLink finish shape first.toToken rest).rest run)
    (clean : run.diagnostics = []) : Leads link run.elements := by
  obtain ⟨next, behind, items, line, beside, statement, free, label, same⟩ :=
    readLink_destination kind laid read
  have suffix : next :: behind <:+ first :: rest := by
    rw [← items]
    exact (readLink_suffix ..).trans (List.suffix_cons ..)
  have named := isName_of_isNodeName free
  have name : next.isName = true := Items.isName_of_peekName named
  rw [same, Token.value_of_isName named] at value
  cases value
  rw [items] at later
  refine ⟨_, rfl, (later.begins_node_iff clean beside statement name line).trans ?_⟩
  exact not_congr (Items.continuesReserved_iff (laid.suffix suffix)
    (fun item member => cut item (suffix.subset member)) name free).symm

/-- The lists of a run without a diagnostic are linked. -/
theorem Runs.linked (runs : Runs finish enclosing depth links hasSource items run)
    (laid : Items.LaidOut items) (cut : ∀ item ∈ items, item.toToken.IsCut)
    (clean : run.diagnostics = []) :
    Linked hasSource run.elements ∧
      ∀ list ∈ Element.listsAll run.elements, Linked false list := by
  induction runs with
  | nil => exact ⟨trivial, fun _ absent => by cases absent⟩
  | boundary => exact ⟨trivial, fun _ absent => by cases absent⟩
  | closed => exact ⟨trivial, fun _ absent => by cases absent⟩
  | unmatched => cases clean
  | tooDeep => cases clean
  | @subgraph _ _ _ _ first rest body run _ _ _ nested _ nestedLinked laterLinked =>
    -- The lists inside are that of the subgraph, those inside it, and those of what follows.
    have heading := (readHeading_suffix finish first.toToken rest).trans
      (List.suffix_cons first rest)
    have behind := nested.suffix.trans heading
    rw [Run.prepend, List.append_eq_nil_iff, List.append_eq_nil_iff] at clean
    obtain ⟨inside, insideAll⟩ := nestedLinked (laid.suffix heading)
      (fun item member => cut item (heading.subset member)) clean.1.2
    obtain ⟨after, afterAll⟩ := laterLinked (laid.suffix behind)
      (fun item member => cut item (behind.subset member)) clean.2
    refine ⟨⟨(fun _ same => by cases same), after⟩, ?_⟩
    intro list member
    rcases List.mem_append.1 member with member | member
    · rcases List.mem_cons.1 member with rfl | member
      · exact inside
      · exact insideAll list member
    · exact afterAll list member
  | @plain _ _ links hasSource first rest reading run _ _ _ read later ih =>
    have derived := plain_readPlain finish links hasSource first rest
    have suffix := (readPlain_suffix finish links hasSource first rest).trans
      (List.suffix_cons first rest)
    rw [read] at derived suffix
    rw [Run.prepend, List.append_eq_nil_iff] at clean
    obtain ⟨after, afterAll⟩ := ih (laid.suffix suffix)
      (fun item member => cut item (suffix.subset member)) clean.2
    clear read ih suffix
    cases derived with
    | decoration => exact ⟨after, afterAll⟩
    | semicolon => exact ⟨after, afterAll⟩
    | unexpected => exact ⟨after, afterAll⟩
    | node =>
      obtain ⟨label, shape, value⟩ := readNode_value finish (first :: rest)
      rw [Reading.value_map, value] at after
      rw [Run.prepend, Reading.value_map, value]
      exact ⟨⟨(fun _ same => by cases same), after⟩, afterAll⟩
    | @link shape kind =>
      obtain ⟨begins, read⟩ := List.append_eq_nil_iff.1 clean.1
      -- A link without a source would have been reported.
      have source : hasSource = true := by
        split at begins
        · next source => exact (Bool.and_eq_true_iff.1 source).1
        · cases begins
      refine ⟨⟨?_, after⟩, afterAll⟩
      intro link same
      exact ⟨source, later.leads kind laid cut read same clean.2⟩

end Runs

/-! ## Separated nodes -/

/-- Between two nodes that are separated stands a semicolon. -/
theorem exists_semicolon_of_separated {items : List Item} (laid : Items.LaidOut items)
    {first second : Node} (apart : separated items first second = true) :
    ∃ item ∈ items, item.kind = .semicolon ∧ first.position.offset < item.offset ∧
      item.offset < second.position.offset := by
  obtain ⟨item, member, kind⟩ := List.any_eq_true.1 apart
  have below : item.offset < second.position.offset := by
    simpa using List.mem_takeWhile_imp member
  have behind := (List.takeWhile_prefix _).subset member
  have suffix := List.dropWhile_suffix (l := items) (·.offset ≤ first.position.offset)
  refine ⟨item, suffix.subset behind, beq_iff_eq.1 kind, ?_, below⟩
  -- The first item that is kept lies behind the first node, and the others lie behind it.
  have head := List.head?_dropWhile_not (·.offset ≤ first.position.offset) items
  generalize items.dropWhile (·.offset ≤ first.position.offset) = kept at behind suffix head
  cases kept with
  | nil => cases behind
  | cons next kept =>
    rw [List.head?_cons] at head
    have head : first.position.offset < next.offset := by simpa using head
    rcases List.mem_cons.1 behind with rfl | later
    · exact head
    · exact head.trans ((laid.suffix suffix).precedes item later).offset_lt

/-! ## Valid sources -/

/-- What holds of a list of elements of a valid flowchart whose source has these tokens. -/
structure WellLinked (tokens : List Token) (elements : List Element) : Prop where
  /-- A link begins at the element before it. -/
  source : ∀ before link after, elements = before ++ .link link :: after →
    ∃ earlier source, before = earlier ++ [source] ∧ source.isSource = true
  /-- A link leads to the node after it, as far as reserved words allow. -/
  destination : ∀ before link after, elements = before ++ .link link :: after → Leads link after
  /-- A semicolon separates two nodes that follow each other on one line. -/
  separated : ∀ before first second after,
    elements = before ++ .node first :: .node second :: after →
    first.position.line = second.position.line →
    ∃ token ∈ tokens, token.kind = .semicolon ∧ first.position.offset < token.offset ∧
      token.offset < second.position.offset

/-- Where nothing is said of neighbours, nodes on one line are separated. -/
theorem separated_of_connectionDiagnostics {items : List Item} {elements list : List Element}
    (clean : connectionDiagnostics items elements = []) (inside : list ∈ Element.allLists elements)
    {before after : List Element} {first second : Node}
    (split : list = before ++ .node first :: .node second :: after)
    (line : first.position.line = second.position.line) : separated items first second = true := by
  rw [connectionDiagnostics_eq, List.flatMap_eq_nil_iff] at clean
  -- Whatever were said of these two would be said of their list.
  have none : pairDiagnostics items (.node first) (.node second) = [] := by
    refine List.eq_nil_iff_forall_not_mem.2 fun diagnostic said => ?_
    have member : diagnostic ∈ neighbourDiagnostics items list :=
      mem_neighbourDiagnostics.2 ⟨before, _, _, after, split, said⟩
    rw [clean list inside] at member
    cases member
  rw [pairDiagnostics] at none
  split at none
  · next apart =>
    have apart : first.position.line ≠ second.position.line ∨
        separated items first second = true := by
      simpa using apart
    exact apart.resolve_left fun other => other line
  · cases none

/-- The lists of a flowchart that is read without a diagnostic are well linked. -/
theorem read_wellLinked (source : String) {finish header : Token} {rest : List Item}
    (read : rest <:+ Layout.items (Token.tokenize source))
    (clean : (Flowchart.read finish header rest).diagnostics = []) :
    ∀ elements ∈ Element.allLists (Flowchart.read finish header rest).value.elements,
      WellLinked (Token.tokenize source) elements := by
  have laid := (Layout.laidOut_items source).suffix read
  have behind := readDirection_suffix header rest
  obtain ⟨content, neighbours⟩ := List.append_eq_nil_iff.1 clean
  have linked := (runs_run finish none 0 0 false (readDirection header rest).rest).linked
    (laid.suffix behind)
    (fun item member => Layout.isCut_of_mem_items source item ((behind.trans read).subset member))
    (List.append_eq_nil_iff.1 content).2
  intro elements inside
  -- The lists are linked one by one; the outermost begins without a source as the others do.
  have own : Linked false elements := by
    rcases List.mem_cons.1 inside with rfl | nested
    · exact linked.1
    · exact linked.2 elements nested
  refine ⟨?_, ?_, ?_⟩
  · rintro before link after rfl
    rcases own.of_append.1 with ⟨-, absent⟩ | begins
    · cases absent
    · exact begins
  · rintro before link after rfl
    exact own.of_append.2
  · intro before first second after split line
    obtain ⟨item, member, semicolon⟩ := exists_semicolon_of_separated laid
      (separated_of_connectionDiagnostics neighbours inside split line)
    exact ⟨item.toToken, Layout.toToken_mem_of_mem_items (read.subset member), semicolon⟩

private theorem exists_read_of_flowchart? {source : List Char} {finish : Token} {items : List Item}
    {chart : Flowchart}
    (drawn : (Diagram.read source finish items).value.content.flowchart? = some chart) :
    ∃ header, chart = (Flowchart.read finish header items.tail).value ∧
      (Diagram.read source finish items).diagnostics =
        (Flowchart.read finish header items.tail).diagnostics := by
  unfold Diagram.read at drawn ⊢
  dsimp only at drawn ⊢
  split at drawn
  · next family _ =>
    cases family with
    | flowchart => exact ⟨_, (Option.some.inj drawn).symm, rfl⟩
    | _ => cases drawn
  · cases drawn

/-- The flowchart that a source is read as, if it is read as one. -/
def ofSource? (source : String) : Option Flowchart :=
  (validate source).diagram?.bind fun diagram => diagram.content.flowchart?

/-- In a valid flowchart every link begins at the node or the subgraph before it and names its
destination, which comes next and on the same line exactly when its name does not go on beyond
ASCII after a reserved word; and nodes on one line are linked or have a semicolon between them. This
holds of every list of elements. -/
theorem links_join_nodes (source : String) (chart : Flowchart) (valid : isValid source = true)
    (drawn : ofSource? source = some chart) :
    ∀ elements ∈ Element.allLists chart.elements,
      WellLinked (Token.tokenize source) elements := by
  rw [isValid, Verdict.isValid_iff] at valid
  unfold ofSource? at drawn
  unfold validate at valid drawn
  split at valid
  · cases valid
  · next written =>
    rw [if_neg written] at drawn
    -- Sorting loses no diagnostic, so none was found in the first place.
    have found : Validation.found source = [] :=
      List.perm_nil.1 (valid ▸ (List.mergeSort_perm _ _).symm)
    have clean : (Validation.diagrams source).1.diagnostics = [] :=
      (List.append_eq_nil_iff.1 (List.append_eq_nil_iff.1 found).1).2
    obtain ⟨header, rfl, same⟩ := exists_read_of_flowchart? drawn
    exact read_wellLinked source (List.tail_suffix _) (same.symm.trans clean)

/-- A link and two nodes that a semicolon separates. -/
theorem links_join_nodes_semicolon :
    isValid "flowchart TD\nA --> B; C" = true ∧
      ofSource? "flowchart TD\nA --> B; C" =
        some ⟨some .topDown,
          [.node ⟨"A", none, .rectangle, ⟨2, 1, 13⟩⟩,
           .link ⟨some "B", none, .plain, ⟨2, 3, 15⟩⟩,
           .node ⟨"B", none, .rectangle, ⟨2, 7, 19⟩⟩,
           .node ⟨"C", none, .rectangle, ⟨2, 10, 22⟩⟩]⟩ ∧
      ∀ elements ∈ Element.allLists
          [.node ⟨"A", none, .rectangle, ⟨2, 1, 13⟩⟩,
           .link ⟨some "B", none, .plain, ⟨2, 3, 15⟩⟩,
           .node ⟨"B", none, .rectangle, ⟨2, 7, 19⟩⟩,
           .node ⟨"C", none, .rectangle, ⟨2, 10, 22⟩⟩],
        WellLinked (Token.tokenize "flowchart TD\nA --> B; C") elements :=
  ⟨by decide +kernel, by decide +kernel,
    links_join_nodes _ ⟨some .topDown, _⟩ (by decide +kernel) (by decide +kernel)⟩

/-- Two destinations that go on beyond ASCII after a reserved word: the first opens a subgraph that
is named `é`, and the second closes it. The source is valid, and neither link is followed by the
node it names. -/
theorem destination_opens_subgraph :
    ¬ ∀ (source : String) (chart : Flowchart), isValid source = true →
      ofSource? source = some chart →
      ∀ elements ∈ Element.allLists chart.elements,
        ∀ before link after, elements = before ++ .link link :: after →
          ∃ node more, after = .node node :: more ∧ link.destination = some node.id ∧
            node.position.line = link.position.line := by
  intro followed
  have chart : ofSource? "flowchart TD\nsubgraph s\nA --> subgraphé\nB --> endé\nend" =
      some ⟨some .topDown,
        [.subgraph ⟨"s", none, ⟨2, 1, 13⟩⟩
          [.node ⟨"A", none, .rectangle, ⟨3, 1, 24⟩⟩,
           .link ⟨some "subgraphé", none, .plain, ⟨3, 3, 26⟩⟩,
           .subgraph ⟨"é", none, ⟨3, 7, 30⟩⟩
             [.node ⟨"B", none, .rectangle, ⟨4, 1, 41⟩⟩,
              .link ⟨some "endé", none, .plain, ⟨4, 3, 43⟩⟩],
           .node ⟨"é", none, .rectangle, ⟨4, 10, 50⟩⟩]]⟩ := by
    decide +kernel
  have inside := followed _ _ (by decide +kernel) chart _
    (List.mem_cons_of_mem _ (List.mem_cons_self ..)) [_] _ _ rfl
  obtain ⟨node, more, head, -⟩ := inside
  cases head

end DiagramCheck.Flowchart
