/-
# Skipping a subgraph

A subgraph that lies too deep is not read but skipped: words at the start of a
statement open and close subgraphs, all other items are passed over, and a
boundary ends the search. Reading goes by statements instead. It takes an `end`
wherever the statement before it leaves one, and passes over whatever belongs to
a title, a label or a line of a decoration.

Where both take the same words for the start and the end of subgraphs, skipping a
subgraph stops where reading it would. They disagree on an `end` behind a node on
one line, which reading takes and skipping does not.

Main statement: `skipSubgraph_eq_rest_run`.
-/

import DiagramCheck.Proofs.Diagram.Progress

namespace DiagramCheck.Flowchart

/-! ## What skipping looks at -/

/-- An item that skipping does not pass over: a boundary, or a word that opens or closes a subgraph
at the start of a statement. -/
def isMark (item : Item) : Bool :=
  isBoundary item || item.startsStatement && (item.opensSubgraph || item.closesSubgraph)

private theorem skipSubgraph_cons_of_not_mark {first : Item} (other : isMark first = false)
    (opened : Nat) (rest : List Item) :
    skipSubgraph opened (first :: rest) = skipSubgraph opened rest := by
  rw [isMark, Bool.or_eq_false_iff, Bool.and_or_distrib_left, Bool.or_eq_false_iff] at other
  rw [skipSubgraph, other.1, other.2.1, other.2.2]
  rfl

private theorem skipSubgraph_append {gap : List Item} (unmarked : ∀ item ∈ gap, isMark item = false)
    (opened : Nat) (items : List Item) :
    skipSubgraph opened (gap ++ items) = skipSubgraph opened items := by
  induction gap with
  | nil => rfl
  | cons first gap ih =>
    obtain ⟨own, later⟩ := List.forall_mem_cons.1 unmarked
    rw [List.cons_append, skipSubgraph_cons_of_not_mark own, ih later]

/-- The items of `items` that come before what is left of them. -/
def passedOver (items left : List Item) : List Item := items.take (items.length - left.length)

private theorem skipSubgraph_of_suffix {items left : List Item} (suffix : left <:+ items)
    (unmarked : ∀ item ∈ passedOver items left, isMark item = false) (opened : Nat) :
    skipSubgraph opened items = skipSubgraph opened left := by
  obtain ⟨gap, rfl⟩ := suffix
  have whole : passedOver (gap ++ left) left = gap := by simp [passedOver]
  rw [whole] at unmarked
  exact skipSubgraph_append unmarked opened left

/-- Skips the rest of the outer ones of some open subgraphs, if there are any. -/
def skipOuter : Nat → List Item → List Item
  | 0, items => items
  | outer + 1, items => skipSubgraph (outer + 1) items

private theorem skipOuter_boundary {first : Item} (boundary : isBoundary first = true) (outer : Nat)
    (rest : List Item) : skipOuter outer (first :: rest) = first :: rest := by
  cases outer with
  | zero => rfl
  | succ outer => rw [skipOuter, skipSubgraph, if_pos boundary]

section Marks

variable {first : Item} (free : isBoundary first = false) (starts : first.startsStatement = true)

include free starts

private theorem skipSubgraph_closes (closes : first.closesSubgraph = true) (outer : Nat)
    (rest : List Item) : skipSubgraph (outer + 1) (first :: rest) = skipOuter outer rest := by
  have shut : first.opensSubgraph = false := by
    cases opens : first.opensSubgraph with
    | false => rfl
    | true =>
      rw [closesSubgraph_eq_false opens] at closes
      cases closes
  rw [skipSubgraph, free, starts, shut, closes]
  cases outer <;> simp [skipOuter]

private theorem skipSubgraph_opens (opens : first.opensSubgraph = true) (opened : Nat)
    (rest : List Item) :
    skipSubgraph opened (first :: rest) = skipSubgraph (opened + 1) rest := by
  rw [skipSubgraph, free, starts, opens]
  rfl

end Marks

/-! ## Where both agree -/

/-- What is left of the items at a stage behind the statement there, or behind the heading of the
subgraph that begins there. -/
def Stage.left (finish : Token) (stage : Stage) : List Item :=
  match stage.items with
  | [] => []
  | first :: rest =>
    if isBoundary first || first.closesSubgraph then rest
    else if first.opensSubgraph then (readHeading finish first.toToken rest).rest
    else (readPlain finish stage.links stage.hasSource first rest).rest

/-- At a stage reading takes the same words for the start and the end of subgraphs as skipping: a
word that it takes for one begins a statement, and what it passes over is not marked. -/
structure Stage.IsSkippedAlike (finish : Token) (stage : Stage) : Prop where
  front : ∀ first ∈ stage.items.head?, isBoundary first = false →
    (first.opensSubgraph || first.closesSubgraph) = true → first.startsStatement = true
  behind : ∀ item ∈ passedOver stage.items.tail (stage.left finish), isMark item = false

/-- Reading does not come to a subgraph that lies too deep. -/
def Stage.IsShallow (stage : Stage) : Prop :=
  ∀ first ∈ stage.items.head?, first.opensSubgraph = true → stage.depth < maxDepth

instance (stage : Stage) : Decidable stage.IsShallow :=
  inferInstanceAs (Decidable (∀ first ∈ stage.items.head?, _ → _))

instance (finish : Token) (stage : Stage) : Decidable (stage.IsSkippedAlike finish) :=
  decidable_of_iff
    ((∀ first ∈ stage.items.head?, isBoundary first = false →
      (first.opensSubgraph || first.closesSubgraph) = true → first.startsStatement = true) ∧
      ∀ item ∈ passedOver stage.items.tail (stage.left finish), isMark item = false)
    ⟨fun alike => ⟨alike.1, alike.2⟩, fun alike => ⟨alike.front, alike.behind⟩⟩

/-- Inside a subgraph, where reading and skipping agree at every stage, skipping with some more
subgraphs open comes to where the run ends, and goes on there with the outer ones. -/
theorem Runs.skipSubgraph_eq {finish : Token} {enclosing : Option Token} {depth links : Nat}
    {hasSource : Bool} {items : List Item} {run : Run}
    (runs : Runs finish enclosing depth links hasSource items run)
    (inside : enclosing.isSome = true)
    (shallow : ∀ last, Reaches finish ⟨enclosing, depth, links, hasSource, items⟩ last →
      last.IsShallow)
    (alike : ∀ last, Reaches finish ⟨enclosing, depth, links, hasSource, items⟩ last →
      last.IsSkippedAlike finish) (outer : Nat) :
    skipSubgraph (outer + 1) items = skipOuter outer run.rest := by
  induction runs generalizing outer with
  | nil => cases outer <;> rfl
  | @boundary _ _ _ _ first rest boundary =>
    rw [skipOuter_boundary boundary, skipSubgraph, if_pos boundary]
  | @closed keyword depth links hasSource first rest free closes =>
    -- The `end` that reading takes begins a statement, so skipping takes it as well.
    have starts := (alike _ .refl).front first rfl free (by rw [closes, Bool.or_true])
    exact skipSubgraph_closes free starts closes outer rest
  | unmatched => cases inside
  | @subgraph enclosing depth links hasSource first rest body run free opens lies nested later
      nestedSkip laterSkip =>
    have own := alike _ .refl
    have starts := own.front first rfl free (by rw [opens, Bool.true_or])
    have heading : Stage.left finish ⟨enclosing, depth, links, hasSource, first :: rest⟩ =
        (readHeading finish first.toToken rest).rest := by
      simp [Stage.left, free, closesSubgraph_eq_false opens, opens]
    have unmarked := own.behind
    rw [heading] at unmarked
    have enter : Step finish ⟨enclosing, depth, links, hasSource, first :: rest⟩
        (.inside finish depth links first rest) := .enter free opens lies
    have past : Step finish ⟨enclosing, depth, links, hasSource, first :: rest⟩
        ⟨enclosing, depth, body.links, true, body.rest⟩ :=
      .pastSubgraph free opens lies nested.run_eq
    -- One more subgraph is open inside, and its end takes it back.
    calc skipSubgraph (outer + 1) (first :: rest)
        = skipSubgraph (outer + 2) rest := skipSubgraph_opens free starts opens (outer + 1) rest
      _ = skipSubgraph (outer + 2) (readHeading finish first.toToken rest).rest :=
        skipSubgraph_of_suffix (readHeading_suffix ..) unmarked _
      _ = skipSubgraph (outer + 1) body.rest :=
        nestedSkip rfl (fun last reaches => shallow last (.head enter reaches))
          (fun last reaches => alike last (.head enter reaches)) (outer + 1)
      _ = skipOuter outer run.rest :=
        laterSkip inside (fun last reaches => shallow last (.head past reaches))
          (fun last reaches => alike last (.head past reaches)) outer
  | @tooDeep _ _ _ _ first _ _ _ opens deep =>
    exact absurd (shallow _ .refl first rfl opens) deep
  | @plain enclosing depth links hasSource first rest plain run free stays shut read later ih =>
    have own := (alike _ .refl).behind
    have statement : Stage.left finish ⟨enclosing, depth, links, hasSource, first :: rest⟩ =
        plain.rest := by
      simp [Stage.left, free, stays, shut, read]
    have suffix := readPlain_suffix finish links hasSource first rest
    rw [statement] at own
    rw [read] at suffix
    have past : Step finish ⟨enclosing, depth, links, hasSource, first :: rest⟩
        ⟨enclosing, depth, countLink links plain.value, sourceAfter hasSource plain.value,
          plain.rest⟩ := .pastPlain free stays shut read
    have plainFirst : isMark first = false := by
      rw [isMark, free, stays, shut, Bool.or_self, Bool.and_false, Bool.or_self]
    -- Skipping passes over the item at the front and over the rest of its statement.
    calc skipSubgraph (outer + 1) (first :: rest)
        = skipSubgraph (outer + 1) rest := skipSubgraph_cons_of_not_mark plainFirst _ rest
      _ = skipSubgraph (outer + 1) plain.rest := skipSubgraph_of_suffix suffix own _
      _ = skipOuter outer run.rest :=
        ih inside (fun last reaches => shallow last (.head past reaches))
          (fun last reaches => alike last (.head past reaches)) outer

/-- Skipping a subgraph comes to where reading it would, if reading stays within the depth that
subgraphs may have and takes the same words for their start and end: inside the subgraph at every
stage, and on its title. -/
theorem skipSubgraph_eq_rest_run (finish : Token) (depth links : Nat) (keyword : Item)
    (rest : List Item)
    (shallow : ∀ last, Reaches finish (.inside finish depth links keyword rest) last →
      last.IsShallow)
    (title : ∀ item ∈ passedOver rest (readHeading finish keyword.toToken rest).rest,
      isMark item = false)
    (alike : ∀ last, Reaches finish (.inside finish depth links keyword rest) last →
      last.IsSkippedAlike finish) :
    skipSubgraph 1 rest = ((Stage.inside finish depth links keyword rest).run finish).rest := by
  rw [skipSubgraph_of_suffix (readHeading_suffix finish keyword.toToken rest) title]
  exact ((Stage.inside finish depth links keyword rest).runs finish).skipSubgraph_eq rfl shallow
    alike 0

/-- A subgraph with a title and one inside it, the word `end` in the title among them. -/
theorem skipSubgraph_eq_rest_run_nested :
    let source := "flowchart TD\nsubgraph a [the end]\nsubgraph b\nA --> B\nend\nend\nC"
    let keyword : Item := ⟨⟨.identifier, "subgraph", ⟨2, 1, 13⟩⟩, true, true⟩
    let rest := (Layout.items (Token.tokenize source)).drop 3
    (⟨none, 0, 0, false, keyword :: rest⟩ : Stage) ∈ Validation.stages source 0 ∧
      skipSubgraph 1 rest =
        ((Stage.inside (Layout.finish source) 0 0 keyword rest).run (Layout.finish source)).rest ∧
      (skipSubgraph 1 rest).map (·.text) = ["C"] := by
  intro source keyword rest
  let inside := Stage.inside (Layout.finish source) 0 0 keyword rest
  -- The stages of the block are listed, and each of them is checked.
  have agree : ∀ last ∈ inside.all (Layout.finish source),
      last.IsShallow ∧ last.IsSkippedAlike (Layout.finish source) := by
    decide +kernel
  refine ⟨by decide +kernel, skipSubgraph_eq_rest_run (Layout.finish source) 0 0 keyword rest
    (fun last reaches => (agree last (Stage.mem_all.2 reaches)).1) (by decide +kernel)
    (fun last reaches => (agree last (Stage.mem_all.2 reaches)).2), by decide +kernel⟩

/-- Reading a subgraph ends it at an `end` behind a node on one line; skipping goes on to the next
`end` that begins a statement. -/
theorem skipSubgraph_passes_end :
    let source := "flowchart TD\nsubgraph a\nA end\nend\nB"
    let keyword : Item := ⟨⟨.identifier, "subgraph", ⟨2, 1, 13⟩⟩, true, true⟩
    let rest := (Layout.items (Token.tokenize source)).drop 3
    let inside := Stage.inside (Layout.finish source) 0 0 keyword rest
    (⟨none, 0, 0, false, keyword :: rest⟩ : Stage) ∈ Validation.stages source 0 ∧
      isBoundary keyword = false ∧ keyword.opensSubgraph = true ∧
      (∀ last, Reaches (Layout.finish source) inside last → last.IsShallow) ∧
      (inside.run (Layout.finish source)).rest.map (·.text) = ["end", "B"] ∧
      (skipSubgraph 1 rest).map (·.text) = ["B"] := by
  intro source keyword rest inside
  have shallow : ∀ last ∈ inside.all (Layout.finish source), last.IsShallow := by decide +kernel
  exact ⟨by decide +kernel, by decide, by decide,
    fun last reaches => shallow last (Stage.mem_all.2 reaches), by decide +kernel,
    by decide +kernel⟩

end DiagramCheck.Flowchart
