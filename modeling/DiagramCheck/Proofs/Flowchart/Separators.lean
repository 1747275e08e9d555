/-
# What separates statements

Statements stand on lines of their own, or on one line with semicolons between them.
A chain ends at its semicolon, and the statement behind it is read as at the start of
a line. A decoration does not end there: it takes the rest of its line, and with it
every statement that stands behind it. So a line gives what its chains before the
first decoration draw, and one report for that decoration.

The two ways of writing some statements are therefore read alike exactly when no
chain stands behind a decoration and the decorations are reported alike one by one
and all together.

Main statements: `yields_lines` for some lines of statements, and
`separators_agree_iff`.
-/

import DiagramCheck.Proofs.Flowchart.Statements

namespace DiagramCheck.Flowchart

open Items (Above LaidOut OnLines)

/-! ## Lines of statements -/

/-- The words between two statements on a line. -/
def semicolon : TokenKind × String := (.semicolon, ";")

/-- The words of statements that stand behind another one on its line. -/
def behindWords (forms : List Form) : List (TokenKind × String) :=
  forms.flatMap fun form => semicolon :: form.words

/-- The words of some statements on one line. -/
def lineWords : List Form → List (TokenKind × String)
  | [] => []
  | form :: forms => form.words ++ behindWords forms

/-- What a line draws: the chains before its first decoration. -/
def lineElements (forms : List Form) : List Element :=
  (forms.takeWhile Form.isChain).flatMap Form.elements

/-- What is reported for a line: its first decoration, with the rest of the line. -/
def lineCodes (forms : List Form) : List Code :=
  match forms.dropWhile Form.isChain with
  | [] => []
  | first :: rest => first.report (behindWords rest)

section Chain

variable (first : PlainId) (legs : List Leg) (forms : List Form)

private theorem lineElements_chain :
    lineElements (.chain first legs :: forms) =
      (Form.chain first legs).elements ++ lineElements forms := rfl

end Chain

/-! ## Runs over statements -/

/-- A run with more elements and more reports in front. -/
def Run.behind (run : Run) (elements : List Element) (diagnostics : List Diagnostic) : Run :=
  { run with elements := elements ++ run.elements, diagnostics := diagnostics ++ run.diagnostics }

private theorem Run.behind_behind (run : Run) (first second : List Element)
    (said more : List Diagnostic) :
    (run.behind second more).behind first said = run.behind (first ++ second) (said ++ more) := by
  rw [behind, behind, behind, List.append_assoc, List.append_assoc]

/-- Two places on different lines, or with a semicolon between them. -/
def Parted (among : List Item) (first second : Position) : Prop :=
  first.line ≠ second.line ∨ ∃ mark ∈ among, mark.kind = .semicolon ∧
    first.offset < mark.offset ∧ mark.offset < second.offset

/-- Two elements that need no link between them. -/
def NeedsNoLink (among : List Item) : Element → Element → Prop
  | .node first, .node second => Parted among first.position second.position
  | _, _ => True

/-- Elements that are read off some items: apart from their places they are the expected ones, no
link is missing among them, and none of them is a subgraph. -/
structure IsRead (among items : List Item) (expected elements : List Element) : Prop where
  unplaced : Element.unplacedAll elements = expected
  places : ∀ element ∈ elements, ∃ item ∈ items, element.position = item.position
  joined : elements.IsChain (NeedsNoLink among)
  flat : Element.listsAll elements = []

theorem IsRead.nil {among items : List Item} : IsRead among items [] [] :=
  ⟨rfl, List.forall_mem_nil _, .nil, rfl⟩

/-- What the items of some statements are read as, in front of others: some elements, and reports
with some codes. -/
def Yields (finish : Token) (among items later : List Item) (expected : List Element)
    (codes : List Code) : Prop :=
  ∃ elements, IsRead among items expected elements ∧
    ∀ links hasSource, ∃ diagnostics links' hasSource', diagnostics.map (·.code) = codes ∧
      run finish none 0 links hasSource (items ++ later) =
        (run finish none 0 links' hasSource' later).behind elements diagnostics

section Yields

variable {finish : Token} {among items later : List Item} {line : Nat}

theorem Yields.nil : Yields finish among [] later [] [] :=
  ⟨[], .nil, fun links hasSource => ⟨[], links, hasSource, rfl, rfl⟩⟩

/-- What is read off some items and then off others, when the run passes over those between
them. -/
theorem Yields.append {front gap behind : List Item} {expected expected' : List Element}
    {codes codes' : List Code}
    (first : Yields finish among front (gap ++ (behind ++ later)) expected codes)
    (passes : ∀ links hasSource, run finish none 0 links hasSource (gap ++ (behind ++ later)) =
      run finish none 0 links hasSource (behind ++ later))
    (second : Yields finish among behind later expected' codes')
    (apart : ∀ item ∈ front, ∀ next ∈ behind, Parted among item.position next.position) :
    Yields finish among (front ++ (gap ++ behind)) later (expected ++ expected')
      (codes ++ codes') := by
  obtain ⟨elements, own, reads⟩ := first
  obtain ⟨elements', own', reads'⟩ := second
  refine ⟨elements ++ elements', ⟨?_, ?_, ?_, ?_⟩, fun links hasSource => ?_⟩
  · rw [Drawing.unplacedAll_append, own.unplaced, own'.unplaced]
  · refine List.forall_mem_append.2 ⟨fun element member => ?_, fun element member => ?_⟩
    · obtain ⟨item, inside, same⟩ := own.places element member
      exact ⟨item, List.mem_append_left _ inside, same⟩
    · obtain ⟨item, inside, same⟩ := own'.places element member
      exact ⟨item, List.mem_append_right _ (List.mem_append_right _ inside), same⟩
  · -- The last element of the one and the first of the other stand where two items do.
    refine List.isChain_append.2 ⟨own.joined, own'.joined, fun last ends next begins => ?_⟩
    obtain ⟨item, inside, same⟩ := own.places last (List.mem_of_mem_getLast? ends)
    obtain ⟨item', inside', same'⟩ := own'.places next (List.mem_of_mem_head? begins)
    have between := apart item inside item' inside'
    rw [← same, ← same'] at between
    unfold NeedsNoLink
    split
    · exact between
    · trivial
  · rw [Element.listsAll_append, own.flat, own'.flat, List.append_nil]
  · obtain ⟨said, links', hasSource', coded, upper⟩ := reads links hasSource
    obtain ⟨said', links'', hasSource'', coded', lower⟩ := reads' links' hasSource'
    refine ⟨said ++ said', links'', hasSource'', ?_, ?_⟩
    · rw [List.map_append, coded, coded']
    · rw [List.append_assoc, List.append_assoc, upper, passes, lower, Run.behind_behind]

/-! ## Chains -/

/-- Behind an id stands the next link of its chain, or what ends the chain. -/
theorem endsId_append {legs : List Leg} {name : Item} {more : List Item}
    (spelled : more.map (·.word) = legs.flatMap Leg.words) (ends : EndsId name later) :
    EndsId name (more ++ later) := by
  cases legs with
  | nil =>
    obtain rfl := List.map_eq_nil_iff.1 spelled
    exact ends
  | cons leg legs =>
    obtain ⟨arrow, _, rfl, arrowed, -⟩ := List.map_eq_cons_iff.1 spelled
    rintro _ ⟨⟩
    have kind : arrow.kind = .arrow leg.shape := (Prod.ext_iff.1 arrowed).1
    rw [kind]
    exact .inl rfl

/-- Links and the ids they lead to are read behind a node. -/
theorem exists_run_legs (finished : finish.kind = .endOfInput) (legs : List Leg)
    (spelled : items.map (·.word) = legs.flatMap Leg.words)
    (beside : ∀ item ∈ items, item.line = line ∧ item.startsStatement = false)
    (ends : ∀ item ∈ items, EndsId item later) :
    ∃ elements, IsRead among items (legs.flatMap Leg.elements) elements ∧
      (∀ node, (Element.node node :: elements).IsChain (NeedsNoLink among)) ∧
      ∀ links, ∃ links', run finish none 0 links true (items ++ later) =
        (run finish none 0 links' true later).prependAll elements := by
  -- By induction on the links. Each stands between two nodes, so a node is put in front.
  induction legs generalizing items with
  | nil =>
    obtain rfl := List.map_eq_nil_iff.1 spelled
    exact ⟨[], .nil, fun _ => .singleton _, fun links => ⟨links, rfl⟩⟩
  | cons leg legs ih =>
    rw [List.flatMap_cons, Leg.words, List.append_assoc, List.singleton_append] at spelled
    obtain ⟨link, _, rfl, linked, spelled⟩ := List.map_eq_append_iff.1 spelled
    obtain ⟨target, more, rfl, named, rest⟩ := List.map_eq_cons_iff.1 spelled
    obtain ⟨arrow, label, rfl, -, -⟩ := List.map_eq_cons_iff.1 linked
    obtain ⟨besideLink, beside⟩ := List.forall_mem_append.1 beside
    obtain ⟨besideTarget, beside⟩ := List.forall_mem_cons.1 beside
    obtain ⟨-, ends⟩ := List.forall_mem_append.1 ends
    obtain ⟨endsTarget, ends⟩ := List.forall_mem_cons.1 ends
    obtain ⟨elements, own, joined, reads⟩ := ih rest beside ends
    have clear := endsId_append rest endsTarget
    refine ⟨.link ⟨some leg.target.text, leg.labelText, .ofArrow leg.shape, arrow.position⟩ ::
      .node ⟨leg.target.text, none, .rectangle, target.position⟩ :: elements,
      ⟨?_, ?_, .cons_cons trivial (joined _), own.flat⟩,
      fun node => .cons_cons trivial (.cons_cons trivial (joined _)), fun links => ?_⟩
    · rw [Element.unplacedAll, Element.unplacedAll, own.unplaced, List.flatMap_cons]
      rfl
    · refine List.forall_mem_cons.2 ⟨⟨arrow, by simp, rfl⟩, List.forall_mem_cons.2
        ⟨⟨target, by simp, rfl⟩, fun element member => ?_⟩⟩
      obtain ⟨item, inside, same⟩ := own.places element member
      exact ⟨item, by simp [inside], same⟩
    · obtain ⟨links', reads⟩ := reads (links + 1)
      refine ⟨links', ?_⟩
      rw [List.append_assoc, List.cons_append, List.cons_append,
        leg.run_eq linked (fun item member => (besideLink item member).1)
          (besideLink arrow (List.mem_cons_self ..)).2 named besideTarget.1 clear,
        PlainId.run_eq finished named clear, reads, Run.prependAll_prependAll,
        Run.prependAll_prependAll]
      rfl

/-- A chain is read up to the semicolon behind it, or up to the end of its line. -/
theorem yields_chain (finished : finish.kind = .endOfInput) {first : PlainId} {legs : List Leg}
    (spelled : items.map (·.word) = first.toWord :: legs.flatMap Leg.words)
    (lines : ∀ item ∈ items, item.line = line)
    (beside : ∀ item ∈ items.tail, item.startsStatement = false)
    (ends : ∀ item ∈ items, EndsId item later) :
    Yields finish among items later
      (.node ⟨first.text, none, .rectangle, .start⟩ :: legs.flatMap Leg.elements) [] := by
  obtain ⟨name, more, rfl, named, rest⟩ := List.map_eq_cons_iff.1 spelled
  obtain ⟨-, lines⟩ := List.forall_mem_cons.1 lines
  obtain ⟨endsName, ends⟩ := List.forall_mem_cons.1 ends
  obtain ⟨elements, own, joined, reads⟩ := @exists_run_legs finish among more later line finished
    legs rest (fun item member => ⟨lines item member, beside item member⟩) ends
  have clear := endsId_append rest endsName
  refine ⟨.node ⟨first.text, none, .rectangle, name.position⟩ :: elements,
    ⟨?_, ?_, joined _, own.flat⟩, fun links hasSource => ?_⟩
  · rw [Element.unplacedAll, own.unplaced]
    rfl
  · refine List.forall_mem_cons.2 ⟨⟨name, List.mem_cons_self .., rfl⟩, fun element member => ?_⟩
    obtain ⟨item, inside, same⟩ := own.places element member
    exact ⟨item, List.mem_cons_of_mem _ inside, same⟩
  · obtain ⟨links', reads⟩ := reads links
    refine ⟨[], links', true, rfl, ?_⟩
    rw [List.cons_append, PlainId.run_eq finished named clear, reads, Run.prependAll_prependAll]
    rfl

/-- A semicolon is passed over. -/
theorem run_semicolon {mark : Item} (kind : mark.kind = .semicolon) (links : Nat)
    (hasSource : Bool) :
    run finish none 0 links hasSource (mark :: later) =
      run finish none 0 links hasSource later := by
  have undecorated : mark.decoration? = none := by simp [Item.decoration?, kind]
  have read : readPlain finish links hasSource mark later = ⟨none, [], later⟩ := by
    unfold readPlain
    rw [undecorated]
    simp only [kind]
  have plain : mark.closesSubgraph = false ∧ mark.opensSubgraph = false := by
    simp [Token.closesSubgraph, Token.opensSubgraph, Token.isWordIgnoringCase, Token.isWord, kind]
  rw [run_plain (isBoundary_of_kind kind rfl) plain.1 plain.2 read]
  rfl

/-! ## Decorations -/

/-- What is reported for the definition of a class is told by whether its line is empty, and by
whether an equals sign stands on it. -/
theorem code_classProblems (keyword : Token) (line : List Item) :
    (Decoration.classProblems keyword line).map (·.code) =
      if line.isEmpty then [.parseError]
      else if line.any (·.kind == .equals) then [.unsupportedClassdefEqualsSyntax]
      else [] := by
  unfold Decoration.classProblems
  cases found : line.find? (·.kind == .equals) with
  | none =>
    have absent : line.any (·.kind == .equals) = false := by
      rw [List.find?_eq_none] at found
      simpa using found
    rw [absent]
    split <;> rfl
  | some mark =>
    have own := List.find?_some found
    have present : line.any (·.kind == .equals) = true :=
      List.any_eq_true.2 ⟨mark, List.mem_of_find?_eq_some found, own⟩
    rw [present]
    split <;> rfl

/-- What is reported for a decoration can be told from the words of its line. -/
theorem codes_decoration {own : Decoration} {rest behind : List (TokenKind × String)}
    (plain : takesLine own rest = true) (links : Nat) (keyword found : Token)
    (spelled : items.map (·.word) = rest ++ behind) :
    (own.diagnostics .flowchart links keyword found items).map (·.code) =
      (Form.decoration own rest plain).report behind := by
  cases own with
  | classDefinition =>
    have empty : items.isEmpty = (rest ++ behind).isEmpty := by
      rw [← spelled, List.isEmpty_map]
    have equals : items.any (·.kind == .equals) = (rest ++ behind).any (·.1 == .equals) := by
      rw [← spelled, List.any_map]
      rfl
    rw [Form.report, ← empty, ← equals]
    exact code_classProblems keyword items
  | linkStyle =>
    -- The first word of the line is `default`.
    cases items with
    | nil =>
      obtain ⟨rfl, rfl⟩ := List.append_eq_nil_iff.1 spelled.symm
      cases plain
    | cons first items =>
      cases rest with
      | nil => cases plain
      | cons word rest =>
        have same : first.text = word.2 := (Prod.ext_iff.1 (List.cons.inj spelled).1).2
        have default : word.2 = "default" := beq_iff_eq.1 plain
        have listed : Decoration.linkStyle.diagnostics .flowchart links keyword found
            (first :: items) =
            Decoration.linkStyleProblems links keyword found (first :: items) := rfl
        rw [listed, Decoration.linkStyleProblems, same, if_pos default]
        rfl
  | style => rfl
  | classAssignment => rfl
  | click => rfl
  | direction => cases plain
  | note => cases plain
  | title => cases plain

/-- A decoration takes its line. -/
theorem yields_decoration {own : Decoration} {rest behind : List (TokenKind × String)}
    (plain : takesLine own rest = true)
    (spelled : items.map (·.word) = (.identifier, own.keyword) :: (rest ++ behind))
    (begins : ∀ first ∈ items.head?, first.startsStatement = true)
    (lines : ∀ item ∈ items, item.line = line) (below : Items.Below line later) :
    Yields finish among items later [] ((Form.decoration own rest plain).report behind) := by
  obtain ⟨keyword, more, rfl, keyed, spelled⟩ := List.map_eq_cons_iff.1 spelled
  obtain ⟨own', lines⟩ := List.forall_mem_cons.1 lines
  have decorated : keyword.decoration? = some own := by
    have kind : keyword.kind = .identifier := (Prod.ext_iff.1 keyed).1
    have text : keyword.text = own.keyword := (Prod.ext_iff.1 keyed).2
    rw [Item.decoration?, kind, text, begins keyword rfl, Decoration.ofKeyword?_keyword]
    rfl
  have whole : Items.onLine keyword.line (more ++ later) = more ∧
      Items.skipLine keyword.line (more ++ later) = later := by
    rw [own', Items.onLine_append below, Items.skipLine_append below, Items.onLine,
      Items.skipLine, List.takeWhile_eq_self_iff.2 (by simpa using lines),
      List.dropWhile_eq_nil_iff.2 (by simpa using lines)]
    exact ⟨rfl, rfl⟩
  refine ⟨[], .nil, fun links hasSource =>
    ⟨own.diagnostics .flowchart links keyword.toToken (Items.front finish (more ++ later)) more,
      links, hasSource, codes_decoration plain links _ _ spelled, ?_⟩⟩
  have content := @Stage.run_decoration finish keyword own none 0 links hasSource (more ++ later)
    decorated
  rw [Stage.run, Stage.run, whole.2, Decoration.read, whole.1] at content
  exact content

/-! ## Lines -/

/-- On a line of laid out items without semicolons only the first begins a statement. -/
theorem startsStatement_tail (laid : LaidOut items)
    (lines : ∀ item ∈ items, item.line = line ∧ item.endLine = line)
    (unparted : ∀ item ∈ items, item.kind ≠ .semicolon) :
    ∀ item ∈ items.tail, item.startsStatement = false := by
  induction items with
  | nil => exact List.forall_mem_nil _
  | cons first items ih =>
    cases items with
    | nil => exact List.forall_mem_nil _
    | cons second items =>
      obtain ⟨own, lines⟩ := List.forall_mem_cons.1 lines
      obtain ⟨plain, unparted⟩ := List.forall_mem_cons.1 unparted
      refine List.forall_mem_cons.2 ⟨?_, ih laid.tail lines unparted⟩
      have beside := (lines second (List.mem_cons_self ..)).1
      rw [laid.before.startsStatement, own.2, beside, beq_eq_false_iff_ne.2 plain]
      simp

/-- What stands before a semicolon is read, and then what stands behind it. -/
theorem Yields.parted {front more : List Item} {mark : Item} {expected expected' : List Element}
    {codes codes' : List Code} (kind : mark.kind = .semicolon)
    (laid : LaidOut (front ++ mark :: more)) (listed : mark ∈ among)
    (first : Yields finish among front (mark :: (more ++ later)) expected codes)
    (second : Yields finish among more later expected' codes') :
    Yields finish among (front ++ mark :: more) later (expected ++ expected')
      (codes ++ codes') := by
  have order := laid.pairwise
  rw [List.pairwise_append, List.pairwise_cons] at order
  obtain ⟨-, ⟨behind, -⟩, before⟩ := order
  have first : Yields finish among front ([mark] ++ (more ++ later)) expected codes := first
  have passes : ∀ links hasSource, run finish none 0 links hasSource ([mark] ++ (more ++ later)) =
      run finish none 0 links hasSource (more ++ later) :=
    run_semicolon kind
  refine first.append passes second fun item member next member' => ?_
  exact .inr ⟨mark, listed, kind, (before item member mark (List.mem_cons_self ..)).offset_lt,
    (behind next member').offset_lt⟩

/-- A line of statements is read up to its end. -/
theorem yields_line (finished : finish.kind = .endOfInput) (forms : List Form)
    (unparted : ∀ form ∈ forms, ∀ word ∈ form.words, word.1 ≠ .semicolon)
    (laid : LaidOut items) (spelled : items.map (·.word) = lineWords forms)
    (begins : ∀ first ∈ items.head?, first.startsStatement = true)
    (lines : ∀ item ∈ items, item.line = line ∧ item.endLine = line)
    (above : Above items later) (listed : items ⊆ among) :
    Yields finish among items later (lineElements forms) (lineCodes forms) := by
  -- By induction on the statements: a decoration takes all that are left, and a chain ends at the
  -- next semicolon, behind which the line begins anew.
  induction forms generalizing items with
  | nil =>
    obtain rfl := List.map_eq_nil_iff.1 spelled
    exact .nil
  | cons form forms ih =>
    obtain ⟨own, others⟩ := List.forall_mem_cons.1 unparted
    cases form with
    | decoration decoration rest plain =>
      have below : Items.Below line later := by
        obtain ⟨keyword, more, rfl, -, -⟩ := List.map_eq_cons_iff.1 spelled
        rw [← (lines keyword (List.mem_cons_self ..)).2]
        exact above.below_endLine
      exact yields_decoration plain spelled begins (fun item member => (lines item member).1) below
    | chain first legs =>
      obtain ⟨front, rest, rfl, chained, behind⟩ := List.map_eq_append_iff.1 spelled
      obtain ⟨laidFront, laidRest, next⟩ := List.isChain_append.1 laid
      obtain ⟨linesFront, linesRest⟩ := List.forall_mem_append.1 lines
      have plain : ∀ item ∈ front, item.kind ≠ .semicolon := by
        intro item member
        refine own item.word ?_
        rw [← chained]
        exact List.mem_map_of_mem member
      have chain (later' : List Item) (ends : ∀ item ∈ front, EndsId item later') :
          Yields finish among front later' (Form.chain first legs).elements [] :=
        yields_chain finished chained (fun item member => (linesFront item member).1)
          (startsStatement_tail laidFront linesFront plain) ends
      cases forms with
      | nil =>
        obtain rfl := List.map_eq_nil_iff.1 behind
        have whole := chain later fun item member next front => .inr (.inr
          (above item (List.mem_append_left _ member) next (List.mem_of_mem_head? front)))
        rw [List.append_nil, lineElements_chain, lineElements, List.takeWhile_nil,
          List.flatMap_nil, List.append_nil]
        exact whole
      | cons form forms =>
        obtain ⟨mark, more, rfl, marked, more'⟩ := List.map_eq_cons_iff.1 behind
        have kind : mark.kind = .semicolon := (Prod.ext_iff.1 marked).1
        -- Behind the semicolon another statement begins.
        have begins' : ∀ first ∈ more.head?, first.startsStatement = true := by
          intro first front
          cases more with
          | nil => cases front
          | cons second more =>
            obtain rfl := Option.some.inj front
            rw [(LaidOut.before laidRest).startsStatement, kind, beq_self_eq_true, Bool.or_true]
        have rest := ih others (LaidOut.tail laidRest) more' begins'
          (List.forall_mem_cons.1 linesRest).2 (above.subset fun item member => by simp [member])
          (fun item member => listed (by simp [member]))
        have chained := chain (mark :: (more ++ later)) fun item _ next front => by
          obtain rfl := Option.some.inj front
          exact .inr (.inl kind)
        exact chained.parted kind laid (listed (by simp)) rest

/-- Lines of statements are read one after the other. -/
theorem yields_lines (finished : finish.kind = .endOfInput) (lines : List (List Form))
    (unparted : ∀ forms ∈ lines, ∀ form ∈ forms, ∀ word ∈ form.words, word.1 ≠ .semicolon)
    (laid : LaidOut items) (onLines : OnLines line (lines.map lineWords) items)
    (listed : items ⊆ among) :
    Yields finish among items [] (lines.flatMap lineElements) (lines.flatMap lineCodes) := by
  induction lines generalizing items line with
  | nil =>
    cases onLines
    exact .nil
  | cons forms lines ih =>
    obtain ⟨own, others⟩ := List.forall_mem_cons.1 unparted
    cases onLines with
    | @cons _ _ _ front behind spelled begins beside below above =>
      obtain ⟨laidFront, laidBehind, -⟩ := List.isChain_append.1 laid
      have later := ih others laidBehind below fun item member =>
        listed (List.mem_append_right _ member)
      have first := yields_line finished forms own laidFront spelled begins beside above
        fun item member => listed (List.mem_append_left _ member)
      rw [← List.append_nil behind] at first
      have whole : Yields finish among (front ++ ([] ++ behind)) [] _ _ :=
        first.append (fun _ _ => rfl) later fun item member next member' =>
          .inl (item.line_le_endLine.trans_lt (above item member next member').1).ne
      exact whole

end Yields

/-! ## Nodes with a semicolon between them -/

/-- Laid out items show the semicolon between two places. -/
theorem separated_of_mem {items : List Item} (laid : LaidOut items) {mark : Item}
    (member : mark ∈ items) (kind : mark.kind = .semicolon) {first second : Node}
    (behind : first.position.offset < mark.offset) (ahead : mark.offset < second.position.offset) :
    separated items first second = true := by
  have kept : mark ∈ items.dropWhile (·.offset ≤ first.position.offset) := by
    rw [← List.takeWhile_append_dropWhile (p := (·.offset ≤ first.position.offset)) (l := items),
      List.mem_append] at member
    refine member.resolve_left fun dropped => ?_
    have := List.mem_takeWhile_imp dropped
    simp only [decide_eq_true_eq] at this
    omega
  have order := laid.suffix (List.dropWhile_suffix (·.offset ≤ first.position.offset))
  obtain ⟨before, after, split⟩ := List.append_of_mem kept
  rw [split] at order
  -- All items up to the semicolon begin before the second place.
  have front : ∀ item ∈ before, decide (item.offset < second.position.offset) = true := by
    intro item inside
    have := ((List.pairwise_append.1 order.pairwise).2.2 item inside mark
      (List.mem_cons_self ..)).offset_lt
    rw [decide_eq_true_eq]
    omega
  rw [separated, split, List.takeWhile_append_of_pos front, List.any_append]
  simp [ahead, kind]

private theorem pairDiagnostics_of_needsNoLink {items : List Item} (laid : LaidOut items)
    (first second : Element) (joined : NeedsNoLink items first second) :
    pairDiagnostics items first second = [] := by
  unfold pairDiagnostics
  split
  · next first second =>
    refine if_pos ?_
    rcases joined with lines | ⟨mark, member, kind, behind, ahead⟩
    · rw [Bool.or_eq_true, decide_eq_true_eq]
      exact .inl lines
    · rw [separated_of_mem laid member kind behind ahead, Bool.or_true]
  · rfl

/-! ## Sources -/

/-- A statement as it is written: a text without semicolons, newlines, quotes and percent signs that
spells a statement. -/
structure Statement where
  text : String
  form : Form
  single : ∀ c ∈ text.toList, c ∉ ';' :: '\n' :: Text.unplain
  spelled : Token.words text = form.words

namespace Statement

variable (statement : Statement)

theorem plain : Text.IsPlain statement.text.toList := fun c member sign =>
  statement.single c member (List.mem_cons_of_mem _ (List.mem_cons_of_mem _ sign))

theorem newline_not_mem : '\n' ∉ statement.text.toList := fun member =>
  statement.single _ member (by decide)

/-- No word of a statement is a semicolon. -/
theorem unparted : ∀ word ∈ statement.form.words, word.1 ≠ .semicolon := by
  rw [← statement.spelled, Token.words]
  intro word member kind
  obtain ⟨token, inside, rfl⟩ := List.mem_map.1 member
  obtain ⟨behind, cut⟩ := Token.isCut_of_mem_lexemes inside
  have sign := (cut.leads kind (by simp)).semicolon
  exact statement.single _ (Token.text_subset_of_mem_lexemes inside sign) (by decide)

end Statement

/-- Some statements on one line. -/
def lineText (statements : List Statement) : String := ";".intercalate (statements.map (·.text))

/-- A flowchart with lines of statements. -/
def linesSource (lines : List (List Statement)) : String :=
  "flowchart TD" ++ "\n" ++ "\n".intercalate (lines.map lineText)

/-- The words of statements with semicolons between them. -/
theorem intercalate_words (forms : List Form) :
    [semicolon].intercalate (forms.map Form.words) = lineWords forms := by
  cases forms with
  | nil => rfl
  | cons form forms =>
    induction forms generalizing form with
    | nil => simp [lineWords, behindWords]
    | cons next forms ih =>
      rw [List.map_cons, List.map_cons, List.intercalate_cons_cons, ← List.map_cons, ih]
      simp [lineWords, behindWords]

section LineText

variable (statements : List Statement)

/-- The characters of a line are those of its statements, and semicolons. -/
theorem mem_lineText {c : Char} (member : c ∈ (lineText statements).toList) :
    c = ';' ∨ ∃ statement ∈ statements, c ∈ statement.text.toList := by
  rcases Text.mem_intercalate member with sign | ⟨text, listed, inside⟩
  · exact .inl (List.mem_singleton.1 sign)
  · obtain ⟨statement, own, rfl⟩ := List.mem_map.1 listed
    exact .inr ⟨statement, own, inside⟩

private theorem plain_lineText : Text.IsPlain (lineText statements).toList := by
  intro c member
  rcases mem_lineText statements member with rfl | ⟨statement, -, inside⟩
  · decide
  · exact statement.plain c inside

private theorem newline_not_mem_lineText : '\n' ∉ (lineText statements).toList := by
  intro member
  rcases mem_lineText statements member with sign | ⟨statement, -, inside⟩
  · exact absurd sign (by decide)
  · exact statement.newline_not_mem inside

end LineText

private theorem words_lineText (statements : List Statement) :
    Token.words (lineText statements) = lineWords (statements.map (·.form)) := by
  have plain : ∀ text ∈ statements.map (·.text), Text.IsPlain text.toList := by
    intro text member
    obtain ⟨statement, -, rfl⟩ := List.mem_map.1 member
    exact statement.plain
  have words : (statements.map (·.text)).map Token.words =
      (statements.map (·.form)).map Form.words := by
    rw [List.map_map, List.map_map]
    exact List.map_congr_left fun statement _ => statement.spelled
  rw [Token.words, lineText, (spells_intercalate plain).lexemes_eq, words]
  exact intercalate_words _

/-- Lines of statements below the line that begins a flowchart. -/
theorem exists_onLines (lines : List (List Statement)) :
    ∃ header direction rest,
      Layout.items (Token.tokenize (linesSource lines)) = header :: direction :: rest ∧
        header.kind = .header .flowchart ∧ direction.line = header.line ∧
        direction.word = (.identifier, "TD") ∧
        Layout.lexicalDiagnostics (Token.tokenize (linesSource lines)) = [] ∧
        OnLines 2 ((lines.map (·.map (·.form))).map lineWords) rest := by
  have plain : ∀ line ∈ lines.map lineText,
      Text.IsPlain line.toList ∧ '\n' ∉ line.toList := by
    intro line member
    obtain ⟨statements, -, rfl⟩ := List.mem_map.1 member
    exact ⟨plain_lineText statements, newline_not_mem_lineText statements⟩
  obtain ⟨onLines, clean⟩ := Layout.onLines_place (fun line member => (plain line member).1)
    (fun line member => (plain line member).2)
    ((Position.start.after "flowchart TD".toList).step '\n')
  obtain ⟨head, unsaid, settled⟩ := items_headerLine
  have split : (linesSource lines).toList =
      "flowchart TD".toList ++ '\n' :: ("\n".intercalate (lines.map lineText)).toList := by
    simp [linesSource]
  have top : ∀ before ∈ (none : Option Token), before.endLine ≤ Position.start.line := nofun
  -- The header line is read as it is alone, and the lines below it as they are.
  have items := @Layout.place_append_newline .start "flowchart TD".toList
    ("\n".intercalate (lines.map lineText)).toList none top settled
  have lexical := @Layout.lexicalDiagnosticsAfter_append_newline .start "flowchart TD".toList
    ("\n".intercalate (lines.map lineText)).toList none top settled
  rw [← split] at items lexical
  rw [Layout.items, Token.tokenize] at head
  rw [Layout.lexicalDiagnostics, Token.tokenize] at unsaid
  rw [head] at items
  rw [unsaid, clean] at lexical
  refine ⟨_, _, _, items, rfl, rfl, rfl, lexical, ?_⟩
  have words : (lines.map lineText).map Token.words =
      (lines.map (·.map (·.form))).map lineWords := by
    rw [List.map_map, List.map_map]
    exact List.map_congr_left fun line _ => words_lineText line
  rw [← words]
  exact onLines

/-- What is read of some lines of statements. -/
theorem read_lines (lines : List (List Statement)) :
    ∃ chart, ofSource? (linesSource lines) = some chart ∧
      chart.unplaced =
        ⟨some .topDown, (lines.map (·.map (·.form))).flatMap lineElements⟩ ∧
      ((validate (linesSource lines)).diagnostics.map (·.code)).Perm
        ((lines.map (·.map (·.form))).flatMap lineCodes) := by
  obtain ⟨header, direction, rest, items, kind, beside, worded, lexical, onLines⟩ :=
    exists_onLines lines
  have laid := Layout.laidOut_items (linesSource lines)
  rw [items] at laid
  have unparted : ∀ forms ∈ lines.map (·.map (·.form)), ∀ form ∈ forms,
      ∀ word ∈ form.words, word.1 ≠ .semicolon := by
    intro forms member form inside
    obtain ⟨line, -, rfl⟩ := List.mem_map.1 member
    obtain ⟨statement, -, rfl⟩ := List.mem_map.1 inside
    exact statement.unparted
  obtain ⟨elements, own, reads⟩ := @yields_lines (Layout.finish (linesSource lines))
    (direction :: rest) rest 2 rfl _ unparted laid.tail.tail onLines (List.subset_cons_self ..)
  obtain ⟨diagnostics, links, hasSource, codes, content⟩ := reads 0 false
  have whole : run (Layout.finish (linesSource lines)) none 0 0 false rest =
      ⟨elements, diagnostics, links, []⟩ := by
    rw [List.append_nil, run_nil, Run.behind] at content
    rw [content]
    simp [unclosed]
  -- No two nodes follow each other that need a link between them.
  have unsaid : connectionDiagnostics (direction :: rest) elements = [] := by
    refine Drawing.connectionDiagnostics_of_isChain (pairDiagnostics_of_needsNoLink laid.tail)
      own.joined ?_
    rw [own.flat]
    exact List.forall_mem_nil _
  have verdict := validate_of_headerLine items kind beside worded lexical whole
  rw [unsaid, Diagram.readAll_nil, List.append_nil, List.flatMap_nil, List.append_nil] at verdict
  refine ⟨⟨some .topDown, elements⟩, ?_, ?_, ?_⟩
  · rw [ofSource?, verdict]
    rfl
  · rw [unplaced, own.unplaced]
  · rw [verdict, ← codes]
    exact (List.mergeSort_perm _ _).map _

/-! ## Statements one below the other and side by side -/

/-- Two sources of flowcharts that are the same without their places, with reports that have the
same codes. -/
structure ReadAlike (source source' : String) : Prop where
  charts : ∃ chart chart', ofSource? source = some chart ∧ ofSource? source' = some chart' ∧
    chart.unplaced = chart'.unplaced
  codes : ((validate source).diagnostics.map (·.code)).Perm
    ((validate source').diagnostics.map (·.code))

/-- Statements with no chain behind a decoration, whose decorations are reported one by one as the
first of them is reported with the rest of its line. -/
structure Separable (forms : List Form) : Prop where
  unchained : ∀ form ∈ forms.dropWhile Form.isChain, form.isChain = false
  reports : lineCodes forms = forms.flatMap (Form.report [])

private theorem lineElements_singleton (form : Form) : lineElements [form] = form.elements := by
  cases form with
  | chain first legs => exact List.append_nil _
  | decoration own rest plain => rfl

private theorem lineCodes_singleton (form : Form) : lineCodes [form] = form.report [] := by
  cases form <;> rfl

private theorem elements_eq_nil_iff (form : Form) : form.elements = [] ↔ form.isChain = false := by
  cases form with
  | chain first legs => exact iff_of_false nofun nofun
  | decoration own rest plain => exact iff_of_true rfl rfl

/-- A line draws all its statements when no chain stands behind a decoration. -/
theorem lineElements_eq_iff (forms : List Form) :
    lineElements forms = forms.flatMap Form.elements ↔
      ∀ form ∈ forms.dropWhile Form.isChain, form.isChain = false := by
  have split : forms.flatMap Form.elements =
      lineElements forms ++ (forms.dropWhile Form.isChain).flatMap Form.elements := by
    rw [lineElements, ← List.flatMap_append, List.takeWhile_append_dropWhile]
  rw [split, List.self_eq_append_right, List.flatMap_eq_nil_iff]
  simp only [elements_eq_nil_iff]

/-- At most one thing is reported for a line. -/
theorem length_lineCodes_le (forms : List Form) : (lineCodes forms).length ≤ 1 := by
  unfold lineCodes
  split
  · exact Nat.zero_le _
  · unfold Form.report
    split
    · exact Nat.zero_le _
    · split
      · exact Nat.le_refl _
      · split
        · exact Nat.le_refl _
        · exact Nat.zero_le _
    · exact Nat.zero_le _

private theorem eq_of_perm_of_length_le {codes codes' : List Code} (same : codes.Perm codes')
    (few : codes.length ≤ 1) : codes = codes' := by
  cases codes with
  | nil => exact (List.nil_perm.1 same).symm
  | cons code codes =>
    obtain rfl := List.eq_nil_of_length_eq_zero (Nat.le_zero.1 (Nat.le_of_succ_le_succ few))
    exact List.singleton_perm.1 same

/-- Statements with semicolons between them are read like the same statements on lines of their own
exactly when they are separable. -/
theorem separators_agree_iff (statements : List Statement) :
    ReadAlike ("flowchart TD" ++ "\n" ++ ";".intercalate (statements.map (·.text)))
        ("flowchart TD" ++ "\n" ++ "\n".intercalate (statements.map (·.text))) ↔
      Separable (statements.map (·.form)) := by
  -- Statements on one line and on lines of their own are two cases of lines of statements.
  have line : "flowchart TD" ++ "\n" ++ ";".intercalate (statements.map (·.text)) =
      linesSource [statements] := by
    rw [linesSource, List.map_singleton, String.intercalate_singleton, lineText]
  have lines : "flowchart TD" ++ "\n" ++ "\n".intercalate (statements.map (·.text)) =
      linesSource (statements.map ([·])) := by
    have texts : statements.map (·.text) = (statements.map ([·])).map lineText := by
      rw [List.map_map]
      refine List.map_congr_left fun statement _ => ?_
      exact (String.intercalate_singleton (s := ";")).symm
    rw [linesSource, texts]
  obtain ⟨chart, found, drawn, said⟩ := read_lines [statements]
  obtain ⟨chart', found', drawn', said'⟩ := read_lines (statements.map ([·]))
  rw [List.map_singleton, List.flatMap_singleton] at drawn said
  have forms : (statements.map ([·])).map (·.map (·.form)) =
      (statements.map (·.form)).map ([·]) := by
    rw [List.map_map, List.map_map]
    rfl
  rw [forms, List.flatMap_map] at drawn' said'
  simp only [lineElements_singleton] at drawn'
  simp only [lineCodes_singleton] at said'
  rw [line, lines]
  generalize statements.map (·.form) = forms at drawn said drawn' said'
  constructor
  · rintro ⟨⟨_, _, own, own', same⟩, codes⟩
    rw [found] at own
    rw [found'] at own'
    cases own
    cases own'
    rw [drawn, drawn', Flowchart.mk.injEq] at same
    -- On one line at most one thing is reported, so the order of the codes does not matter.
    refine ⟨(lineElements_eq_iff forms).1 same.2, ?_⟩
    exact eq_of_perm_of_length_le ((said.symm.trans codes).trans said') (length_lineCodes_le forms)
  · rintro ⟨unchained, reports⟩
    refine ⟨⟨chart, chart', found, found', ?_⟩, ?_⟩
    · rw [drawn, drawn', (lineElements_eq_iff forms).2 unchained]
    · rw [reports] at said
      exact said.trans said'.symm

/-- A style of a node. -/
def styleStatement : Statement where
  text := "style A x"
  form := .decoration .style [(.identifier, "A"), (.identifier, "x")] rfl
  single := Text.forall_not_mem_of_all (by decide)
  spelled := by decide +kernel

/-- The id of one letter. -/
def letterId (letter : String) (word : TokenKind.ofWord letter = .identifier)
    (starts : letter.toList.head?.any Lexeme.isWordChar = true)
    (free : isReserved letter = false) : PlainId :=
  ⟨.identifier, letter, .inl word.symm, starts, free⟩

/-- A link between two nodes. -/
def linkStatement : Statement where
  text := "B --> C"
  form := .chain (letterId "B" (by decide) (by decide) (by decide))
    [⟨.plain, "-->", rfl, none, by decide, letterId "C" (by decide) (by decide) (by decide)⟩]
  single := Text.forall_not_mem_of_all (by decide)
  spelled := by decide +kernel

/-- A style takes the link behind it: nothing is drawn, and nothing is reported. -/
theorem style_takes_link :
    ¬ ∀ statements : List Statement,
      ReadAlike ("flowchart TD" ++ "\n" ++ ";".intercalate (statements.map (·.text)))
        ("flowchart TD" ++ "\n" ++ "\n".intercalate (statements.map (·.text))) := by
  intro alike
  obtain ⟨⟨chart, chart', found, found', same⟩, -⟩ := alike [styleStatement, linkStatement]
  have drawn : (ofSource? ("flowchart TD" ++ "\n" ++
        ";".intercalate ([styleStatement, linkStatement].map (·.text)))).map unplaced =
      (ofSource? ("flowchart TD" ++ "\n" ++
        "\n".intercalate ([styleStatement, linkStatement].map (·.text)))).map unplaced := by
    rw [found, found', Option.map_some, Option.map_some, same]
  exact absurd drawn (by decide +kernel)

end DiagramCheck.Flowchart
