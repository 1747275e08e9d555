/-
# Labels that overrun a boundary

A label in brackets that is not closed on its line is broken off, and reading
goes on at the bracket that closes it or at a link, wherever that is. A header
that begins a line does not stop this search. So a flowchart can run past the
header of the next diagram, and it does exactly when it reads a label for which
the search finds nothing before that header.

`ReadsLabel` lists the labels that a run reads. The main statement,
`boundary_ends_flowchart`, says that a flowchart ends at the first boundary, that
all its elements begin before it and that the next diagram begins there, if and
only if none of these labels overruns.
-/

import DiagramCheck.Proofs.Flowchart.Boundary
import DiagramCheck.Proofs.Token.Scan
import DiagramCheck.Validation.Basic

namespace DiagramCheck.Flowchart

/-! ## Labels -/

/-- A label in brackets as a statement reads it. -/
structure BracketLabel where
  bracket : Bracket
  /-- The line that the label is to be closed on. -/
  line : Nat
  /-- The kinds that stop the search for the end of a label that is broken off. -/
  stops : TokenKind → Bool
  /-- The items behind the opening bracket. -/
  items : List Item
  stops_header : ∀ kind : TokenKind, kind.isHeader = true → stops kind = false

namespace BracketLabel

/-- Reads a label that belongs to `owner`. -/
def read (label : BracketLabel) (finish owner : Token) : Reading (Option String) :=
  Label.read finish owner label.bracket label.line label.stops label.items

/-- The items from the one on at which the label is closed or broken off. -/
def brokenOff (label : BracketLabel) : List Item :=
  label.items.dropWhile (Label.isInside label.bracket label.line)

/-- Whether the search for the end of the label ends at an item. -/
def endsAt (label : BracketLabel) (item : Item) : Bool :=
  item.kind == .closing label.bracket || label.stops item.kind

/-- A label overruns when nothing that ends it stands before the next boundary. -/
def overruns (label : BracketLabel) : Bool :=
  (label.brokenOff.takeWhile fun item => !isBoundary item).all fun item => !label.endsAt item

variable {boundary : Item} {later : List Item} {label : BracketLabel}

private theorem endsAt_boundary (begins : isBoundary boundary = true) :
    label.endsAt boundary = false := by
  have header := (Bool.and_eq_true_iff.1 begins).1
  rw [endsAt, label.stops_header _ header, Bool.or_false, beq_eq_false_iff_ne]
  intro same
  rw [same] at header
  cases header

private theorem recover_cons {first : Item} (rest : List Item)
    (other : label.endsAt first = false) :
    Label.recover label.bracket label.stops (first :: rest) =
      Label.recover label.bracket label.stops rest := by
  rw [endsAt] at other
  rw [Label.recover, Label.recover, List.dropWhile_cons_of_pos (by rw [other]; rfl)]

/-- The search ends before the boundary when it finds something there to end at. -/
theorem ahead_recover {items : List Item} (ahead : Ahead boundary later items)
    (ends : (items.takeWhile fun item => !isBoundary item).all
      (fun item => !label.endsAt item) = false) :
    Ahead boundary later (Label.recover label.bracket label.stops items) := by
  induction items with
  | nil => cases ends
  | cons first rest ih =>
    cases inside : isBoundary first with
    | true =>
      -- Nothing stands before the boundary that the search could end at.
      simp [inside] at ends
    | false =>
      have behind := ahead.of_cons inside
      cases found : label.endsAt first with
      | true =>
        rw [endsAt] at found
        rw [Label.recover, List.dropWhile_cons_of_neg (by rw [found]; exact Bool.false_ne_true)]
        dsimp only
        split
        · exact behind
        · exact ahead
      | false =>
        rw [recover_cons rest found]
        refine ih behind ?_
        simpa [inside, found] using ends

/-- The search passes the boundary when it finds nothing before it. -/
theorem recover_suffix {items : List Item} (ahead : Ahead boundary later items)
    (none : (items.takeWhile fun item => !isBoundary item).all
      (fun item => !label.endsAt item) = true) :
    Label.recover label.bracket label.stops items <:+ later := by
  have begins := ahead.begins
  obtain ⟨between, rfl, free⟩ := ahead.split
  clear ahead
  induction between with
  | nil =>
    rw [List.nil_append, recover_cons later (endsAt_boundary begins)]
    exact Label.recover_suffix ..
  | cons first between ih =>
    obtain ⟨inside, free⟩ := List.forall_mem_cons.1 free
    rw [List.cons_append, List.takeWhile_cons_of_pos (by rw [inside]; rfl), List.all_cons,
      Bool.and_eq_true, Bool.not_eq_true'] at none
    rw [List.cons_append, recover_cons _ none.1]
    exact ih free none.2

theorem rest_read (label : BracketLabel) (finish owner : Token) :
    (label.read finish owner).rest =
      if (Items.front finish label.brokenOff).kind = .closing label.bracket then
        label.brokenOff.tail
      else Label.recover label.bracket label.stops label.brokenOff := by
  unfold read Label.read
  dsimp only
  split
  · next closed => exact (if_pos closed).symm
  · next broken => exact (if_neg broken).symm

private theorem ahead_brokenOff (ahead : Ahead boundary later label.items)
    (below : label.line < boundary.line) : Ahead boundary later label.brokenOff := by
  have other : (boundary.line != label.line) = true := bne_iff_ne.2 (Nat.ne_of_gt below)
  refine ahead.dropWhile _ ?_
  rw [Label.isInside, other, Bool.or_true, Bool.true_or, Bool.true_or, Bool.true_or]
  rfl

/-- A label that does not overrun is read without passing the boundary. -/
theorem ahead_read (ahead : Ahead boundary later label.items) (below : label.line < boundary.line)
    (fits : label.overruns = false) (finish owner : Token) :
    Ahead boundary later (label.read finish owner).rest := by
  have broken := ahead_brokenOff ahead below
  rw [rest_read]
  split
  · next closed =>
    rw [overruns] at fits
    generalize label.brokenOff = items at broken closed fits ⊢
    cases items with
    | nil => cases fits
    | cons first rest =>
      have kind : first.kind = .closing label.bracket := closed
      exact broken.of_cons (isBoundary_of_kind kind rfl)
  · exact ahead_recover broken fits

/-- A label that overruns is read past the boundary. -/
theorem read_suffix (ahead : Ahead boundary later label.items) (below : label.line < boundary.line)
    (far : label.overruns = true) (finish owner : Token) :
    (label.read finish owner).rest <:+ later := by
  have broken := ahead_brokenOff ahead below
  rw [rest_read]
  split
  · next closed =>
    rw [overruns] at far
    generalize label.brokenOff = items at broken closed far ⊢
    cases items with
    | nil => cases broken.mem
    | cons first rest =>
      -- The closing bracket would have ended the search before the boundary.
      have kind : first.kind = .closing label.bracket := closed
      have inside : isBoundary first = false := isBoundary_of_kind kind rfl
      have ends : label.endsAt first = true := by
        rw [endsAt, kind, beq_self_eq_true, Bool.true_or]
      rw [List.takeWhile_cons_of_pos (by rw [inside]; rfl), List.all_cons, ends] at far
      cases far
  · exact recover_suffix broken far

end BracketLabel

private theorem isLink_eq_false {kind : TokenKind} (header : kind.isHeader = true) :
    kind.isLink = false := by
  cases kind with
  | arrow => cases header
  | _ => rfl

/-- The label of a node. -/
def nodeLabel? (finish : Token) (items : List Item) : Option BracketLabel :=
  let opening := Items.front finish (Items.afterName items)
  (labelBracket? (Items.peekName finish items).endLine opening).map fun bracket =>
    ⟨bracket, opening.endLine, TokenKind.isLink, (Items.afterName items).tail,
      fun _ => isLink_eq_false⟩

/-- The title in brackets of a subgraph. -/
def headingLabel? (finish keyword : Token) (rest : List Item) : Option BracketLabel :=
  let after := Items.afterName rest
  if Items.frontIs keyword.line (fun _ => true) rest &&
      Items.frontIs keyword.line (·.kind == .opening .square) after then
    some ⟨.square, (Items.front finish after).endLine, fun _ => false, after.tail, fun _ _ => rfl⟩
  else none

section Reading

variable {boundary : Item} {later : List Item} {finish : Token} {first : Item} {rest : List Item}

/-- A bracket at the front of the items stands before the boundary. -/
theorem ahead_tail_of_opening (bracket : Bracket) {items : List Item}
    (laid : Items.LaidOut items) (ahead : Ahead boundary later items)
    (opening : (Items.front finish items).kind = .opening bracket) :
    Ahead boundary later items.tail ∧ (Items.front finish items).endLine < boundary.line := by
  cases items with
  | nil => cases ahead.mem
  | cons first rest =>
    have kind : first.kind = .opening bracket := opening
    have behind := ahead.of_cons (isBoundary_of_kind kind rfl)
    exact ⟨behind, laid.endLine_lt behind.mem behind.startsLine⟩

private theorem readNode_rest (finish : Token) (items : List Item) :
    (readNode finish items).rest =
      match nodeLabel? finish items with
      | none => Items.afterName items
      | some label => (label.read finish (Items.peekName finish items)).rest := by
  unfold readNode nodeLabel?
  dsimp only
  cases labelBracket? (Items.peekName finish items).endLine
    (Items.front finish (Items.afterName items)) <;> rfl

private theorem kind_of_labelBracket? {line : Nat} {token : Token} {bracket : Bracket}
    (found : labelBracket? line token = some bracket) : token.kind = .opening bracket := by
  unfold labelBracket? at found
  split at found
  · next kind =>
    split at found
    · cases found
      exact kind
    · cases found
  · cases found

/-- The label of a node stands before the boundary. -/
theorem ahead_nodeLabel? (laid : Items.LaidOut (first :: rest))
    (ahead : Ahead boundary later rest) {label : BracketLabel}
    (found : nodeLabel? finish (first :: rest) = some label) :
    Ahead boundary later label.items ∧ label.line < boundary.line := by
  obtain ⟨bracket, opens, rfl⟩ := Option.map_eq_some_iff.1 found
  exact ahead_tail_of_opening bracket (laid.suffix (Items.afterName_suffix _))
    (ahead.afterName laid) (kind_of_labelBracket? opens)

private theorem readNode_ahead (laid : Items.LaidOut (first :: rest))
    (ahead : Ahead boundary later rest)
    (fits : ∀ label ∈ nodeLabel? finish (first :: rest), label.overruns = false) :
    Ahead boundary later (readNode finish (first :: rest)).rest := by
  rw [readNode_rest]
  split
  · exact ahead.afterName laid
  · next label found =>
    obtain ⟨items, below⟩ := ahead_nodeLabel? laid ahead found
    exact BracketLabel.ahead_read items below (fits label found) _ _

private theorem readNode_passed (laid : Items.LaidOut (first :: rest))
    (ahead : Ahead boundary later rest)
    {label : BracketLabel} (found : nodeLabel? finish (first :: rest) = some label)
    (far : label.overruns = true) : (readNode finish (first :: rest)).rest <:+ later := by
  obtain ⟨items, below⟩ := ahead_nodeLabel? laid ahead found
  rw [readNode_rest, found]
  exact BracketLabel.read_suffix items below far _ _

/-- A plain statement without a label that overruns stops before the boundary. -/
theorem readPlain_ahead (laid : Items.LaidOut (first :: rest)) (ahead : Ahead boundary later rest)
    (links : Nat) (hasSource : Bool)
    (fits : first.decoration? = none → first.isNodeName = true →
      ∀ label ∈ nodeLabel? finish (first :: rest), label.overruns = false) :
    Ahead boundary later (readPlain finish links hasSource first rest).rest := by
  have plain := plain_readPlain finish links hasSource first rest
  generalize readPlain finish links hasSource first rest = reading at plain ⊢
  cases plain with
  | decoration => exact ahead.skipLine laid (List.suffix_refl _)
  | semicolon => exact ahead
  | link => exact ahead.readOptionalLinkLabel laid
  | node undecorated name => exact readNode_ahead laid ahead (fits undecorated name)
  | unexpected => exact ahead

private theorem ahead_afterName_of_frontIs (laid : Items.LaidOut (first :: rest))
    (ahead : Ahead boundary later rest)
    (reached : Items.frontIs first.line (fun _ => true) rest = true) :
    Ahead boundary later (Items.afterName rest) := by
  obtain ⟨name, rest, rfl, line, -⟩ := Items.exists_of_frontIs reached
  have beside := laid.startsLine_eq_false (List.mem_cons_self ..) line.le
  exact (ahead.of_cons (isBoundary_of_beside beside)).afterName laid.tail

private theorem readHeading_rest (finish keyword : Token) (rest : List Item) :
    (readHeading finish keyword rest).rest =
      match headingLabel? finish keyword rest with
      | some label => (label.read finish (Items.peekName finish rest)).rest
      | none =>
        if Items.frontIs keyword.line (fun _ => true) rest then
          Items.skipLine keyword.line (Items.afterName rest)
        else rest := by
  unfold readHeading headingLabel?
  dsimp only
  split
  · next reached =>
    rw [reached, Bool.true_and]
    split <;> rfl
  · next absent =>
    rw [Bool.eq_false_iff.2 absent, Bool.false_and]
    rfl

/-- The title in brackets of a subgraph stands before the boundary. -/
theorem ahead_headingLabel? (laid : Items.LaidOut (first :: rest))
    (ahead : Ahead boundary later rest) {label : BracketLabel}
    (found : headingLabel? finish first.toToken rest = some label) :
    Ahead boundary later label.items ∧ label.line < boundary.line := by
  unfold headingLabel? at found
  dsimp only at found
  split at found
  · next reached =>
    obtain ⟨named, opens⟩ := Bool.and_eq_true_iff.1 reached
    have after := ahead_afterName_of_frontIs laid ahead named
    have below := (laid.tail.suffix (Items.afterName_suffix rest))
    cases found
    refine ahead_tail_of_opening .square below after ?_
    obtain ⟨opening, items, split, -, kind⟩ := Items.exists_of_frontIs opens
    rw [split]
    exact beq_iff_eq.1 kind
  · cases found

private theorem readHeading_ahead (laid : Items.LaidOut (first :: rest))
    (ahead : Ahead boundary later rest)
    (fits : ∀ label ∈ headingLabel? finish first.toToken rest, label.overruns = false) :
    Ahead boundary later (readHeading finish first.toToken rest).rest := by
  rw [readHeading_rest]
  split
  · next label found =>
    obtain ⟨items, below⟩ := ahead_headingLabel? laid ahead found
    exact BracketLabel.ahead_read items below (fits label found) _ _
  · split
    · next reached =>
      exact (ahead_afterName_of_frontIs laid ahead reached).skipLine laid
        (Items.afterName_suffix rest)
    · exact ahead

private theorem readHeading_passed (laid : Items.LaidOut (first :: rest))
    (ahead : Ahead boundary later rest) {label : BracketLabel}
    (found : headingLabel? finish first.toToken rest = some label) (far : label.overruns = true) :
    (readHeading finish first.toToken rest).rest <:+ later := by
  obtain ⟨items, below⟩ := ahead_headingLabel? laid ahead found
  rw [readHeading_rest, found]
  exact BracketLabel.read_suffix items below far _ _

end Reading

/-! ## Runs -/

/-- The labels in brackets that a run of elements reads: those of its nodes and subgraphs, and those
in the runs of its subgraphs. -/
inductive ReadsLabel (finish : Token) :
    Option Token → Nat → Nat → Bool → List Item → BracketLabel → Prop
  | node {enclosing : Option Token} {depth links : Nat} {hasSource : Bool} {first : Item}
      {rest : List Item} {label : BracketLabel} (inside : isBoundary first = false)
      (stays : first.closesSubgraph = false) (shut : first.opensSubgraph = false)
      (undecorated : first.decoration? = none) (name : first.isNodeName = true)
      (found : nodeLabel? finish (first :: rest) = some label) :
      ReadsLabel finish enclosing depth links hasSource (first :: rest) label
  | heading {enclosing : Option Token} {depth links : Nat} {hasSource : Bool} {first : Item}
      {rest : List Item} {label : BracketLabel} (inside : isBoundary first = false)
      (opens : first.opensSubgraph = true) (shallow : depth < maxDepth)
      (found : headingLabel? finish first.toToken rest = some label) :
      ReadsLabel finish enclosing depth links hasSource (first :: rest) label
  | body {enclosing : Option Token} {depth links : Nat} {hasSource : Bool} {first : Item}
      {rest : List Item} {label : BracketLabel} (inside : isBoundary first = false)
      (opens : first.opensSubgraph = true) (shallow : depth < maxDepth)
      (nested : ReadsLabel finish (some first.toToken) (depth + 1) links false
        (readHeading finish first.toToken rest).rest label) :
      ReadsLabel finish enclosing depth links hasSource (first :: rest) label
  | afterSubgraph {enclosing : Option Token} {depth links : Nat} {hasSource : Bool} {first : Item}
      {rest : List Item} {label : BracketLabel} {body : Run} (inside : isBoundary first = false)
      (opens : first.opensSubgraph = true) (shallow : depth < maxDepth)
      (nested : run finish (some first.toToken) (depth + 1) links false
        (readHeading finish first.toToken rest).rest = body)
      (later : ReadsLabel finish enclosing depth body.links true body.rest label) :
      ReadsLabel finish enclosing depth links hasSource (first :: rest) label
  | afterUnmatched {depth links : Nat} {hasSource : Bool} {first : Item} {rest : List Item}
      {label : BracketLabel} (inside : isBoundary first = false)
      (closes : first.closesSubgraph = true)
      (later : ReadsLabel finish none depth links hasSource rest label) :
      ReadsLabel finish none depth links hasSource (first :: rest) label
  | afterTooDeep {enclosing : Option Token} {depth links : Nat} {hasSource : Bool} {first : Item}
      {rest : List Item} {label : BracketLabel} (inside : isBoundary first = false)
      (opens : first.opensSubgraph = true) (deep : ¬ depth < maxDepth)
      (later : ReadsLabel finish enclosing depth links hasSource (skipSubgraph 1 rest) label) :
      ReadsLabel finish enclosing depth links hasSource (first :: rest) label
  | afterPlain {enclosing : Option Token} {depth links : Nat} {hasSource : Bool} {first : Item}
      {rest : List Item} {label : BracketLabel} {plain : Reading (Option Element)}
      (inside : isBoundary first = false) (stays : first.closesSubgraph = false)
      (shut : first.opensSubgraph = false)
      (read : readPlain finish links hasSource first rest = plain)
      (later : ReadsLabel finish enclosing depth (countLink links plain.value)
        (sourceAfter hasSource plain.value) plain.rest label) :
      ReadsLabel finish enclosing depth links hasSource (first :: rest) label

section Runs

variable {boundary : Item} {later : List Item} {finish : Token} {enclosing : Option Token}
  {depth links : Nat} {hasSource : Bool} {items : List Item}

/-- A run none of whose labels overruns stops before the boundary. -/
theorem Runs.ahead {result : Run} (runs : Runs finish enclosing depth links hasSource items result)
    (laid : Items.LaidOut items) (ahead : Ahead boundary later items)
    (fits : ∀ label, ReadsLabel finish enclosing depth links hasSource items label →
      label.overruns = false) : Ahead boundary later result.rest := by
  -- By induction on the derivation: whatever a statement reads leaves the boundary ahead, and the
  -- labels of the rest are labels of the run.
  induction runs with
  | nil => cases ahead.mem
  | boundary => exact ahead
  | closed inside => exact ahead.of_cons inside
  | unmatched inside closes _ ih =>
    exact ih laid.tail (ahead.of_cons inside) fun label reads =>
      fits label (.afterUnmatched inside closes reads)
  | @subgraph _ _ _ _ first rest body _ inside opens shallow nested _ nestedAhead laterAhead =>
    have heading := readHeading_suffix finish first.toToken rest
    have title := readHeading_ahead laid (ahead.of_cons inside) fun label found =>
      fits label (.heading inside opens shallow found)
    have content := nestedAhead (laid.tail.suffix heading) title fun label reads =>
      fits label (.body inside opens shallow reads)
    exact laterAhead (laid.tail.suffix (nested.suffix.trans heading)) content fun label reads =>
      fits label (.afterSubgraph inside opens shallow nested.run_eq reads)
  | tooDeep inside opens deep _ ih =>
    exact ih (laid.tail.suffix (skipSubgraph_suffix ..)) ((ahead.of_cons inside).skipSubgraph 1)
      fun label reads => fits label (.afterTooDeep inside opens deep reads)
  | @plain _ _ links hasSource first rest _ _ inside stays shut read _ ih =>
    have suffix := readPlain_suffix finish links hasSource first rest
    have statement := readPlain_ahead laid (ahead.of_cons inside) links hasSource
      fun undecorated name label found =>
        fits label (.node inside stays shut undecorated name found)
    rw [read] at suffix statement
    exact ih (laid.tail.suffix suffix) statement fun label reads =>
      fits label (.afterPlain inside stays shut read reads)

/-- A run that reads a label which overruns passes the boundary. -/
theorem ReadsLabel.passed {label : BracketLabel}
    (reads : ReadsLabel finish enclosing depth links hasSource items label)
    (laid : Items.LaidOut items) (ahead : Ahead boundary later items)
    (far : label.overruns = true) :
    (run finish enclosing depth links hasSource items).rest <:+ later := by
  -- What is read before the label may have passed the boundary already; then the rest of the run
  -- lies behind it anyway.
  induction reads with
  | node inside stays shut undecorated name found =>
    rw [run_plain inside stays shut (readPlain_node undecorated name)]
    exact (run_suffix ..).trans (readNode_passed laid (ahead.of_cons inside) found far)
  | heading inside opens shallow found =>
    rw [run_subgraph inside (closesSubgraph_eq_false opens) opens shallow rfl rfl]
    exact (run_suffix ..).trans ((run_suffix ..).trans
      (readHeading_passed laid (ahead.of_cons inside) found far))
  | @body _ _ _ _ first rest _ inside opens shallow _ ih =>
    have heading := readHeading_suffix finish first.toToken rest
    rw [run_subgraph inside (closesSubgraph_eq_false opens) opens shallow rfl rfl]
    refine (run_suffix ..).trans ?_
    rcases (ahead.of_cons inside).or_passed heading with title | passed
    · exact ih (laid.tail.suffix heading) title far
    · exact (run_suffix ..).trans passed
  | @afterSubgraph _ _ links _ first rest _ body inside opens shallow nested _ ih =>
    have suffix : body.rest <:+ rest := by
      rw [← nested]
      exact (run_suffix ..).trans (readHeading_suffix ..)
    rw [run_subgraph inside (closesSubgraph_eq_false opens) opens shallow rfl nested]
    rcases (ahead.of_cons inside).or_passed suffix with content | passed
    · exact ih (laid.tail.suffix suffix) content far
    · exact (run_suffix ..).trans passed
  | afterUnmatched inside closes _ ih =>
    rw [run_unmatched inside closes]
    exact ih laid.tail (ahead.of_cons inside) far
  | @afterTooDeep _ _ _ _ first rest _ inside opens deep _ ih =>
    rw [run_tooDeep inside (closesSubgraph_eq_false opens) opens deep]
    exact ih (laid.tail.suffix (skipSubgraph_suffix ..)) ((ahead.of_cons inside).skipSubgraph 1) far
  | @afterPlain _ _ links hasSource first rest _ plain inside stays shut read _ ih =>
    have suffix := readPlain_suffix finish links hasSource first rest
    rw [read] at suffix
    rw [run_plain inside stays shut read]
    rcases (ahead.of_cons inside).or_passed suffix with statement | passed
    · exact ih (laid.tail.suffix suffix) statement far
    · exact (run_suffix ..).trans passed

/-- The outermost run ends at a boundary or at the end of the items. -/
theorem Runs.rest_of_none {result : Run}
    (runs : Runs finish none depth links hasSource items result) :
    ∀ first rest, result.rest = first :: rest → isBoundary first = true := by
  generalize none : (none : Option Token) = outermost at runs
  induction runs with
  | nil => exact fun _ _ absent => by cases absent
  | boundary boundary =>
    rintro _ _ ⟨⟩
    exact boundary
  | closed => cases none
  | unmatched _ _ _ ih => exact ih none
  | subgraph _ _ _ _ _ _ ih => exact ih none
  | tooDeep _ _ _ _ ih => exact ih none
  | plain _ _ _ _ _ ih => exact ih none

/-- The outermost run ends at the first boundary if and only if none of its labels overruns. -/
theorem run_rest_eq_iff (laid : Items.LaidOut items) (ahead : Ahead boundary later items) :
    (run finish none depth links hasSource items).rest = boundary :: later ↔
      ∀ label, ReadsLabel finish none depth links hasSource items label →
        label.overruns = false := by
  constructor
  · intro reached label reads
    cases far : label.overruns with
    | false => rfl
    | true =>
      have passed := reads.passed laid ahead far
      rw [reached] at passed
      exact absurd passed.length_le (Nat.not_succ_le_self _)
  · intro fits
    have runs := runs_run finish none depth links hasSource items
    obtain ⟨begins, between, split, free⟩ := runs.ahead laid ahead fits
    cases between with
    | nil => exact split
    | cons first between =>
      -- A run outside of all subgraphs goes on until it meets a boundary.
      have header := runs.rest_of_none first _ split
      rw [free first (List.mem_cons_self ..)] at header
      cases header

end Runs

/-! ## Sources -/

theorem items_of_isBlankText {source : String} (blank : Text.isBlankText source = true) :
    Layout.items (Token.tokenize source) = [] := by
  rw [Token.tokenize_of_isBlankText blank]
  rfl

theorem isBlankText_of_items {source : String} {first : Item} {rest : List Item}
    (items : Layout.items (Token.tokenize source) = first :: rest) :
    Text.isBlankText source = false := by
  cases blank : Text.isBlankText source with
  | false => rfl
  | true =>
    rw [items_of_isBlankText blank] at items
    cases items

theorem read_of_flowchart_header {source : List Char} {finish : Token} {header : Item}
    {rest : List Item} (kind : header.kind = .header .flowchart) :
    Diagram.read source finish (header :: rest) =
      (Flowchart.read finish header.toToken rest).map fun chart =>
        ⟨header.position, .flowchart chart⟩ := by
  unfold Diagram.read
  dsimp only [Items.front]
  rw [kind]
  rfl

/-- The first diagram of a source that begins with the header of a flowchart. -/
theorem diagrams_of_flowchart_header {source : String} {header : Item} {rest : List Item}
    (items : Layout.items (Token.tokenize source) = header :: rest)
    (kind : header.kind = .header .flowchart) :
    (Validation.diagrams source).1 =
      (Flowchart.read (Layout.finish source) header.toToken rest).map fun chart =>
        ⟨header.position, .flowchart chart⟩ := by
  rw [← read_of_flowchart_header kind, ← items]
  rfl

/-- The second diagram of a source begins where the first ends. -/
theorem diagrams_head? {source : String} {first : Item} {rest : List Item}
    (reached : (Validation.diagrams source).1.rest = first :: rest) :
    (Validation.diagrams source).2.head? =
      some (Diagram.read source.toList (Layout.finish source) (first :: rest)) := by
  have later : (Validation.diagrams source).2 =
      Diagram.readAll source.toList (Layout.finish source)
        (Validation.diagrams source).1.rest := rfl
  rw [later, reached, Diagram.readAll, Reading.statements]
  rfl

/-- The labels in brackets that a flowchart reads after its header. -/
def LabelOf (finish : Token) (header : Item) (rest : List Item) (label : BracketLabel) : Prop :=
  ReadsLabel finish none 0 0 false (readDirection header.toToken rest).rest label

section Reading

variable {boundary : Item} {later : List Item} {finish : Token} {header : Item} {rest : List Item}

/-- A flowchart ends at the first boundary if and only if none of its labels overruns. -/
theorem read_rest_eq_iff (laid : Items.LaidOut (header :: rest))
    (ahead : Ahead boundary later rest) :
    (Flowchart.read finish header.toToken rest).rest = boundary :: later ↔
      ∀ label, LabelOf finish header rest label → label.overruns = false :=
  run_rest_eq_iff (laid.tail.suffix (readDirection_suffix header.toToken rest))
    (ahead.readDirection laid)

/-- The elements of a flowchart that ends at a boundary all begin before it. -/
theorem offset_lt_of_rest (laid : Items.LaidOut (header :: rest))
    (reached : (Flowchart.read finish header.toToken rest).rest = boundary :: later) :
    ∀ element ∈ Element.flattenAll (Flowchart.read finish header.toToken rest).value.elements,
      element.position.offset < boundary.offset := by
  have inside := laid.tail.suffix (readDirection_suffix header.toToken rest)
  intro element member
  obtain ⟨before, first, behind, split, left, begins⟩ :=
    (runs_run finish none 0 0 false (readDirection header.toToken rest).rest).begins element member
  have reached : (run finish none 0 0 false (readDirection header.toToken rest).rest).rest =
      boundary :: later := reached
  rw [reached] at left
  rw [split] at inside
  have order := (inside.suffix (List.suffix_append ..)).precedes boundary
    (left.subset (List.mem_cons_self ..))
  rw [begins.position]
  exact order.offset_lt

end Reading

/-- Where a source begins with a flowchart and a later header begins a line, the flowchart ends at
the first such header, which no element of it reaches and at which the next diagram begins, if and
only if none of the labels that it reads overruns. -/
theorem boundary_ends_flowchart (source : String) (header boundary : Item)
    (before after : List Item)
    (items : Layout.items (Token.tokenize source) = header :: (before ++ boundary :: after))
    (drawn : header.kind = .header .flowchart) (begins : isBoundary boundary = true)
    (first : ∀ item ∈ before, isBoundary item = false) :
    ∃ chart, (validate source).diagram? = some ⟨header.position, .flowchart chart⟩ ∧
      ((∀ element ∈ Element.flattenAll chart.elements,
          element.position.offset < boundary.offset) ∧
        (Validation.diagrams source).1.rest = boundary :: after ∧
        (Validation.diagrams source).2.head? =
          some (Diagram.read source.toList (Layout.finish source) (boundary :: after)) ↔
      ∀ label, LabelOf (Layout.finish source) header (before ++ boundary :: after) label →
        label.overruns = false) := by
  have laid := Layout.laidOut_items source
  rw [items] at laid
  have ahead : Ahead boundary after (before ++ boundary :: after) := ⟨begins, before, rfl, first⟩
  have read := diagrams_of_flowchart_header items drawn
  refine ⟨(Flowchart.read (Layout.finish source) header.toToken
    (before ++ boundary :: after)).value, ?_, ?_⟩
  · rw [validate, isBlankText_of_items items, if_neg Bool.false_ne_true]
    exact congrArg (fun reading => some reading.value) read
  · -- Where the flowchart ends decides the other two parts.
    rw [← read_rest_eq_iff laid ahead]
    constructor
    · rintro ⟨-, rest, -⟩
      rw [read] at rest
      exact rest
    · intro reached
      have rest : (Validation.diagrams source).1.rest = boundary :: after := by
        rw [read]
        exact reached
      exact ⟨offset_lt_of_rest laid reached, rest, diagrams_head? rest⟩

/-- A flowchart of one node, before the header of a pie chart. -/
theorem boundary_ends_flowchart_pie :
    Layout.items (Token.tokenize "flowchart\nA\npie") =
        [⟨⟨.header .flowchart, "flowchart", ⟨1, 1, 0⟩⟩, true, true⟩,
         ⟨⟨.identifier, "A", ⟨2, 1, 10⟩⟩, true, true⟩,
         ⟨⟨.header (.unmodelled .pie), "pie", ⟨3, 1, 12⟩⟩, true, true⟩] ∧
      ∃ chart, (validate "flowchart\nA\npie").diagram? = some ⟨⟨1, 1, 0⟩, .flowchart chart⟩ ∧
        ((∀ element ∈ Element.flattenAll chart.elements, element.position.offset < 12) ∧
          (Validation.diagrams "flowchart\nA\npie").1.rest =
            [⟨⟨.header (.unmodelled .pie), "pie", ⟨3, 1, 12⟩⟩, true, true⟩] ∧
          (Validation.diagrams "flowchart\nA\npie").2.head? =
            some (Diagram.read "flowchart\nA\npie".toList (Layout.finish "flowchart\nA\npie")
              [⟨⟨.header (.unmodelled .pie), "pie", ⟨3, 1, 12⟩⟩, true, true⟩]) ↔
        ∀ label, LabelOf (Layout.finish "flowchart\nA\npie")
            ⟨⟨.header .flowchart, "flowchart", ⟨1, 1, 0⟩⟩, true, true⟩
            [⟨⟨.identifier, "A", ⟨2, 1, 10⟩⟩, true, true⟩,
             ⟨⟨.header (.unmodelled .pie), "pie", ⟨3, 1, 12⟩⟩, true, true⟩] label →
          label.overruns = false) :=
  ⟨by decide +kernel,
    boundary_ends_flowchart "flowchart\nA\npie"
      ⟨⟨.header .flowchart, "flowchart", ⟨1, 1, 0⟩⟩, true, true⟩
      ⟨⟨.header (.unmodelled .pie), "pie", ⟨3, 1, 12⟩⟩, true, true⟩
      [⟨⟨.identifier, "A", ⟨2, 1, 10⟩⟩, true, true⟩] []
      (by decide +kernel) rfl rfl (by decide)⟩

/-- The label of `A` is broken off at the end of its line, and the search for its end passes the
header `pie`; the first diagram is read to the end of the source. -/
theorem label_passes_boundary :
    ¬ ∀ (source : String) (header boundary : Item) (before after : List Item),
      Layout.items (Token.tokenize source) = header :: (before ++ boundary :: after) →
      header.kind = .header .flowchart → isBoundary boundary = true →
      (∀ item ∈ before, isBoundary item = false) →
      ∃ chart, (validate source).diagram? = some ⟨header.position, .flowchart chart⟩ ∧
        (∀ element ∈ Element.flattenAll chart.elements,
          element.position.offset < boundary.offset) ∧
        (Validation.diagrams source).1.rest = boundary :: after ∧
        (Validation.diagrams source).2.head? =
          some (Diagram.read source.toList (Layout.finish source) (boundary :: after)) := by
  intro ends
  have passed : (Validation.diagrams "flowchart TD\nA[x\npie\nB]\nC").1.rest = [] := by
    decide +kernel
  obtain ⟨chart, -, -, rest, -⟩ := ends "flowchart TD\nA[x\npie\nB]\nC"
    ⟨⟨.header .flowchart, "flowchart", ⟨1, 1, 0⟩⟩, true, true⟩
    ⟨⟨.header (.unmodelled .pie), "pie", ⟨3, 1, 17⟩⟩, true, true⟩
    [⟨⟨.identifier, "TD", ⟨1, 11, 10⟩⟩, false, false⟩,
     ⟨⟨.identifier, "A", ⟨2, 1, 13⟩⟩, true, true⟩,
     ⟨⟨.opening .square, "[", ⟨2, 2, 14⟩⟩, false, false⟩,
     ⟨⟨.identifier, "x", ⟨2, 3, 15⟩⟩, false, false⟩]
    [⟨⟨.identifier, "B", ⟨4, 1, 21⟩⟩, true, true⟩,
     ⟨⟨.closing .square, "]", ⟨4, 2, 22⟩⟩, false, false⟩,
     ⟨⟨.identifier, "C", ⟨5, 1, 24⟩⟩, true, true⟩]
    (by decide +kernel) rfl rfl (by decide)
  rw [passed] at rest
  cases rest

end DiagramCheck.Flowchart
