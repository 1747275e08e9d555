/-
# How a run of elements is read

`Plain` and `Runs` say once what a plain statement and a run of elements can be,
with one constructor for each thing that may stand at the front. Every reading
is such a derivation, so what holds of all runs is shown by induction on it.

The first thing shown is where the elements of a run come from. Each begins at
an item of its own, at any depth: the item gives the element its position, it
begins the name of a node, and it is the arrow of a link. What the run leaves
over lies behind that item.
-/

import DiagramCheck.Flowchart.Reading
import DiagramCheck.Proofs.Reading.Name

namespace DiagramCheck.Flowchart

/-! ## Names and boundaries -/

theorem isName_of_isNodeName {token : Token} (name : token.isNodeName = true) :
    token.isName = true := by
  rw [Token.isNodeName, Bool.and_eq_true, Bool.and_eq_true] at name
  exact name.1.1

theorem isBoundary_of_beside {item : Item} (beside : item.startsLine = false) :
    isBoundary item = false := by
  rw [isBoundary, beside, Bool.and_false]

theorem isBoundary_of_kind {item : Item} {kind : TokenKind} (same : item.kind = kind)
    (other : kind.isHeader = false) : isBoundary item = false := by
  rw [isBoundary, same, other, Bool.false_and]

/-! ## Derivations -/

/-- What a plain statement that begins with `first` can be, with what is read of it. -/
inductive Plain (finish : Token) (links : Nat) (hasSource : Bool) (first : Item)
    (rest : List Item) : Reading (Option Element) → Prop
  | decoration {decoration : Decoration} (found : first.decoration? = some decoration) :
      Plain finish links hasSource first rest
        ((decoration.read finish .flowchart links first.toToken rest).map fun _ => none)
  | semicolon (kind : first.kind = .semicolon) :
      Plain finish links hasSource first rest ⟨none, [], rest⟩
  | link {shape : Arrow} (kind : first.kind = .arrow shape) (joins : shape.isLink = true) :
      Plain finish links hasSource first rest
        ⟨some (readLink finish shape first.toToken rest).value,
          (if hasSource && !first.startsStatement then []
            else [.atToken first.toToken .linkWithoutSource]) ++
            (readLink finish shape first.toToken rest).diagnostics,
          (readLink finish shape first.toToken rest).rest⟩
  | node (undecorated : first.decoration? = none) (name : first.isNodeName = true) :
      Plain finish links hasSource first rest ((readNode finish (first :: rest)).map some)
  | unexpected : Plain finish links hasSource first rest (readPlain.unexpected first rest)

theorem plain_readPlain (finish : Token) (links : Nat) (hasSource : Bool) (first : Item)
    (rest : List Item) :
    Plain finish links hasSource first rest (readPlain finish links hasSource first rest) := by
  unfold readPlain
  split
  · next found => exact .decoration found
  · next undecorated =>
    split
    · next kind => exact .semicolon kind
    · next shape kind =>
      split
      · next joins => exact .link kind joins
      · exact .unexpected
    · split
      · next name => exact .node undecorated name
      · exact .unexpected

/-- A name that no decoration begins with is read as a node. -/
theorem readPlain_node {finish : Token} {links : Nat} {hasSource : Bool} {first : Item}
    {rest : List Item} (undecorated : first.decoration? = none)
    (name : first.isNodeName = true) :
    readPlain finish links hasSource first rest =
      (readNode finish (first :: rest)).map some := by
  unfold readPlain
  rw [undecorated]
  dsimp only
  split
  · next kind => simp [Token.isNodeName, Token.isName, kind] at name
  · next kind => simp [Token.isNodeName, Token.isName, kind] at name
  · rw [if_pos name]

/-- An arrow that links nodes, beside one of them, is read as a link. -/
theorem readPlain_link {finish : Token} {links : Nat} {first : Item} {rest : List Item}
    {shape : Arrow} (kind : first.kind = .arrow shape) (joins : shape.isLink = true)
    (beside : first.startsStatement = false) :
    readPlain finish links true first rest =
      (readLink finish shape first.toToken rest).map some := by
  have undecorated : first.decoration? = none := by simp [Item.decoration?, kind]
  unfold readPlain
  rw [undecorated, kind]
  dsimp only
  rw [if_pos joins, beside]
  rfl

/-- How a run of elements is read: what stands at its front, and what is made of it. -/
inductive Runs (finish : Token) :
    Option Token → Nat → Nat → Bool → List Item → Run → Prop
  | nil {enclosing : Option Token} {depth links : Nat} {hasSource : Bool} :
      Runs finish enclosing depth links hasSource [] ⟨[], unclosed enclosing, links, []⟩
  | boundary {enclosing : Option Token} {depth links : Nat} {hasSource : Bool} {first : Item}
      {rest : List Item} (boundary : isBoundary first = true) :
      Runs finish enclosing depth links hasSource (first :: rest)
        ⟨[], unclosed enclosing, links, first :: rest⟩
  | closed {keyword : Token} {depth links : Nat} {hasSource : Bool} {first : Item}
      {rest : List Item} (inside : isBoundary first = false)
      (closes : first.closesSubgraph = true) :
      Runs finish (some keyword) depth links hasSource (first :: rest) ⟨[], [], links, rest⟩
  | unmatched {depth links : Nat} {hasSource : Bool} {first : Item} {rest : List Item} {run : Run}
      (inside : isBoundary first = false) (closes : first.closesSubgraph = true)
      (later : Runs finish none depth links hasSource rest run) :
      Runs finish none depth links hasSource (first :: rest)
        (run.prepend none [.atToken first.toToken .unmatchedEnd])
  | subgraph {enclosing : Option Token} {depth links : Nat} {hasSource : Bool} {first : Item}
      {rest : List Item} {body run : Run} (inside : isBoundary first = false)
      (opens : first.opensSubgraph = true) (shallow : depth < maxDepth)
      (nested : Runs finish (some first.toToken) (depth + 1) links false
        (readHeading finish first.toToken rest).rest body)
      (later : Runs finish enclosing depth body.links true body.rest run) :
      Runs finish enclosing depth links hasSource (first :: rest)
        (run.prepend
          (some (.subgraph (readHeading finish first.toToken rest).value body.elements))
          ((readHeading finish first.toToken rest).diagnostics ++ body.diagnostics))
  | tooDeep {enclosing : Option Token} {depth links : Nat} {hasSource : Bool} {first : Item}
      {rest : List Item} {run : Run} (inside : isBoundary first = false)
      (opens : first.opensSubgraph = true) (deep : ¬ depth < maxDepth)
      (later : Runs finish enclosing depth links hasSource (skipSubgraph 1 rest) run) :
      Runs finish enclosing depth links hasSource (first :: rest)
        (run.prepend none [.atToken first.toToken (.subgraphTooDeep maxDepth)])
  | plain {enclosing : Option Token} {depth links : Nat} {hasSource : Bool} {first : Item}
      {rest : List Item} {plain : Reading (Option Element)} {run : Run}
      (inside : isBoundary first = false) (stays : first.closesSubgraph = false)
      (shut : first.opensSubgraph = false)
      (read : readPlain finish links hasSource first rest = plain)
      (later : Runs finish enclosing depth (countLink links plain.value)
        (sourceAfter hasSource plain.value) plain.rest run) :
      Runs finish enclosing depth links hasSource (first :: rest)
        (run.prepend plain.value plain.diagnostics)

/-- A word that closes a subgraph opens none. -/
theorem closesSubgraph_eq_false {token : Token} (opens : token.opensSubgraph = true) :
    token.closesSubgraph = false := by
  rw [Token.opensSubgraph, Token.isWord, Bool.and_eq_true, beq_iff_eq, beq_iff_eq] at opens
  rw [Token.closesSubgraph, Token.isWordIgnoringCase, opens.1, opens.2]
  decide

/-- Every run is read so. -/
theorem runs_run (finish : Token) (enclosing : Option Token) (depth links : Nat)
    (hasSource : Bool) (items : List Item) :
    Runs finish enclosing depth links hasSource items
      (run finish enclosing depth links hasSource items) := by
  -- What a statement leaves over is shorter than the items, but not their tail.
  induction length : items.length using Nat.strongRecOn
    generalizing enclosing depth links hasSource items with
  | ind length ih =>
    subst length
    cases items with
    | nil =>
      rw [run_nil]
      exact .nil
    | cons first rest =>
      have shorter {later : List Item} (suffix : later <:+ rest) (enclosing : Option Token)
          (depth links : Nat) (hasSource : Bool) :
          Runs finish enclosing depth links hasSource later
            (run finish enclosing depth links hasSource later) :=
        ih _ (Nat.lt_succ_of_le suffix.length_le) _ _ _ _ _ rfl
      cases inside : isBoundary first with
      | true =>
        rw [run_boundary inside]
        exact .boundary inside
      | false =>
        -- Inside a subgraph its end closes it, outside of all of them it is unmatched.
        cases closes : first.closesSubgraph with
        | true =>
          cases enclosing with
          | some keyword =>
            rw [run_closed inside closes]
            exact .closed inside closes
          | none =>
            rw [run_unmatched inside closes]
            exact .unmatched inside closes (shorter (List.suffix_refl _) ..)
        | false =>
          cases opens : first.opensSubgraph with
          | true =>
            by_cases shallow : depth < maxDepth
            · have heading := readHeading_suffix finish first.toToken rest
              rw [run_subgraph inside closes opens shallow rfl rfl]
              exact .subgraph inside opens shallow (shorter heading ..)
                (shorter ((run_suffix ..).trans heading) ..)
            · rw [run_tooDeep inside closes opens shallow]
              exact .tooDeep inside opens shallow (shorter (skipSubgraph_suffix 1 rest) ..)
          | false =>
            rw [run_plain inside closes opens rfl]
            exact .plain inside closes opens rfl (shorter (readPlain_suffix ..) ..)

/-- A run is read in one way only. -/
theorem Runs.run_eq {finish : Token} {enclosing : Option Token} {depth links : Nat}
    {hasSource : Bool} {items : List Item} {result : Run}
    (runs : Runs finish enclosing depth links hasSource items result) :
    run finish enclosing depth links hasSource items = result := by
  induction runs with
  | nil => exact run_nil ..
  | boundary boundary => exact run_boundary boundary
  | closed inside closes => exact run_closed inside closes
  | unmatched inside closes _ ih => rw [run_unmatched inside closes, ih]
  | subgraph inside opens shallow _ _ nestedRun laterRun =>
    rw [run_subgraph inside (closesSubgraph_eq_false opens) opens shallow rfl nestedRun, laterRun]
  | tooDeep inside opens deep _ ih =>
    rw [run_tooDeep inside (closesSubgraph_eq_false opens) opens deep, ih]
  | plain inside stays shut read _ ih => rw [run_plain inside stays shut read, ih]

theorem Runs.suffix {finish : Token} {enclosing : Option Token} {depth links : Nat}
    {hasSource : Bool} {items : List Item} {run : Run}
    (runs : Runs finish enclosing depth links hasSource items run) : run.rest <:+ items := by
  induction runs with
  | nil => exact List.suffix_refl _
  | boundary => exact List.suffix_refl _
  | closed => exact List.suffix_cons ..
  | unmatched _ _ _ ih => exact ih.trans (List.suffix_cons ..)
  | subgraph _ _ _ _ _ nested later =>
    exact later.trans (nested.trans ((readHeading_suffix ..).trans (List.suffix_cons ..)))
  | tooDeep _ _ _ _ ih => exact ih.trans ((skipSubgraph_suffix ..).trans (List.suffix_cons ..))
  | plain _ _ _ read _ ih =>
    subst read
    exact ih.trans ((readPlain_suffix ..).trans (List.suffix_cons ..))

/-! ## Where elements begin -/

/-- An element begins with the item `first`, which has `rest` behind it. -/
structure Begins (finish : Token) (first : Item) (rest : List Item) (element : Element) : Prop where
  position : element.position = first.position
  name : ∀ node, element = .node node →
    first.isName = true ∧ node.id = (Items.peekName finish (first :: rest)).text
  arrow : ∀ link, element = .link link →
    ∃ shape, first.kind = .arrow shape ∧ shape.isLink = true ∧ link.stroke = .ofArrow shape

/-- An element that begins at one of `items`, with `left` behind the item. -/
def BeginsAmong (finish : Token) (items left : List Item) (element : Element) : Prop :=
  ∃ before first rest, items = before ++ first :: rest ∧ left <:+ rest ∧
    Begins finish first rest element

theorem BeginsAmong.mono {finish : Token} {items later left lessLeft : List Item}
    {element : Element} (begins : BeginsAmong finish later left element)
    (suffix : later <:+ items) (less : lessLeft <:+ left) :
    BeginsAmong finish items lessLeft element := by
  obtain ⟨skipped, rfl⟩ := suffix
  obtain ⟨before, first, rest, rfl, behind, begins⟩ := begins
  exact ⟨skipped ++ before, first, rest, by simp, less.trans behind, begins⟩

/-- A node takes its name and its position from the name at the front. -/
theorem readNode_value (finish : Token) (items : List Item) :
    ∃ label shape, (readNode finish items).value =
      .node ⟨(Items.peekName finish items).value, label, shape,
        (Items.peekName finish items).position⟩ := by
  unfold readNode
  dsimp only
  split <;> exact ⟨_, _, rfl⟩

theorem readNode_begins (finish : Token) {first : Item} (rest : List Item)
    (name : first.isName = true) :
    Begins finish first rest (readNode finish (first :: rest)).value := by
  have position : (Items.peekName finish (first :: rest)).position = first.position :=
    Items.position_peekName ..
  have plain : (Items.peekName finish (first :: rest)).value =
      (Items.peekName finish (first :: rest)).text := by
    rw [Token.value, if_neg]
    rw [Items.kind_peekName]
    exact Token.isName_kind_ne_string name
  obtain ⟨label, shape, node⟩ := readNode_value finish (first :: rest)
  rw [node]
  refine ⟨position, ?_, fun _ same => by cases same⟩
  rintro _ ⟨⟩
  exact ⟨name, plain⟩

/-- The element that a plain statement gives begins with the first item of the statement. -/
theorem Plain.begins {finish : Token} {links : Nat} {hasSource : Bool} {first : Item}
    {rest : List Item} {plain : Reading (Option Element)}
    (read : Plain finish links hasSource first rest plain) :
    ∀ element ∈ plain.value,
      Element.flatten element = [element] ∧ Begins finish first rest element := by
  intro element member
  cases read with
  | decoration => cases member
  | semicolon => cases member
  | link kind joins =>
    cases member
    refine ⟨rfl, rfl, (fun _ same => by cases same), ?_⟩
    rintro _ ⟨⟩
    exact ⟨_, kind, joins, rfl⟩
  | node _ name =>
    cases member
    refine ⟨?_, readNode_begins finish rest (isName_of_isNodeName name)⟩
    unfold readNode
    dsimp only
    split <;> rfl
  | unexpected => cases member

theorem position_readHeading (finish keyword : Token) (rest : List Item) :
    (readHeading finish keyword rest).value.position = keyword.position := by
  unfold readHeading
  split
  · dsimp only
    split <;> rfl
  · rfl

/-- Every element of a run, at any depth, begins with an item that stands before all that the run
leaves over. -/
theorem Runs.begins {finish : Token} {enclosing : Option Token} {depth links : Nat}
    {hasSource : Bool} {items : List Item} {run : Run}
    (runs : Runs finish enclosing depth links hasSource items run) :
    ∀ element ∈ Element.flattenAll run.elements, BeginsAmong finish items run.rest element := by
  -- By induction on the derivation: the first item begins the element it gives, and for the other
  -- elements what they begin with is among the items behind it.
  induction runs with
  | nil => exact fun _ member => by cases member
  | boundary => exact fun _ member => by cases member
  | closed => exact fun _ member => by cases member
  | unmatched _ _ _ ih =>
    intro element member
    exact (ih element member).mono (List.suffix_cons ..) (List.suffix_refl _)
  | @subgraph _ _ _ _ first rest body run _ _ _ nested later nestedBegins laterBegins =>
    have heading := readHeading_suffix finish first.toToken rest
    have left : run.rest <:+ body.rest := later.suffix
    intro element member
    simp only [Run.prepend, Option.toList, Element.flattenAll,
      Element.flatten, List.cons_append, List.mem_cons, List.mem_append] at member
    rcases member with rfl | member | member
    · refine ⟨[], first, rest, rfl, left.trans (nested.suffix.trans heading), ?_⟩
      exact ⟨position_readHeading .., (fun _ same => by cases same), fun _ same => by cases same⟩
    · exact (nestedBegins element member).mono (heading.trans (List.suffix_cons ..)) left
    · exact (laterBegins element member).mono
        (nested.suffix.trans (heading.trans (List.suffix_cons ..))) (List.suffix_refl _)
  | tooDeep _ _ _ _ ih =>
    intro element member
    exact (ih element member).mono ((skipSubgraph_suffix ..).trans (List.suffix_cons ..))
      (List.suffix_refl _)
  | @plain _ _ links hasSource first rest _ run _ _ _ read later ih =>
    subst read
    have suffix := readPlain_suffix finish links hasSource first rest
    have begins := (plain_readPlain finish links hasSource first rest).begins
    intro element member
    cases value : (readPlain finish links hasSource first rest).value with
    | none =>
      rw [Run.prepend, value] at member
      exact (ih element member).mono (suffix.trans (List.suffix_cons ..)) (List.suffix_refl _)
    | some own =>
      obtain ⟨alone, begins⟩ := begins own value
      rw [Run.prepend, value] at member
      simp only [Option.toList, List.singleton_append, Element.flattenAll, alone,
        List.mem_cons] at member
      rcases member with rfl | member
      · exact ⟨[], first, rest, rfl, later.suffix.trans suffix, begins⟩
      · exact (ih element member).mono (suffix.trans (List.suffix_cons ..)) (List.suffix_refl _)

end DiagramCheck.Flowchart
