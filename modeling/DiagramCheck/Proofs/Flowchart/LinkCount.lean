/-
# Counting links

While a flowchart is read, the links drawn so far are counted, through all
subgraphs and whether or not the links are complete. The count is carried from
statement to statement and never looks at the elements. Here it is tied to them:
when a run ends the count has grown by the links among its elements, and at any
stage that a run reaches it has grown by those that begin before the stage.
-/

import DiagramCheck.Proofs.Flowchart.Stage

namespace DiagramCheck

namespace Element

/-- A link, as opposed to what links join. -/
def isLink : Element → Bool
  | .link _ => true
  | .node _ | .subgraph _ _ => false

/-- The number of links among some elements and inside them. -/
def linkCount (elements : List Element) : Nat := (flattenAll elements).countP isLink

/-- The number of links among some elements and inside them that begin before byte `offset`. -/
def linksBefore (offset : Nat) (elements : List Element) : Nat :=
  (flattenAll elements).countP fun element =>
    element.isLink && decide (element.position.offset < offset)

private theorem linksBefore_eq_zero {offset : Nat} {elements : List Element}
    (behind : ∀ element ∈ flattenAll elements, offset ≤ element.position.offset) :
    linksBefore offset elements = 0 := by
  rw [linksBefore, List.countP_eq_zero]
  intro element member
  have := behind element member
  simp only [Bool.and_eq_true, decide_eq_true_eq, not_and]
  omega

private theorem linksBefore_eq_linkCount {offset : Nat} {elements : List Element}
    (ahead : ∀ element ∈ flattenAll elements, element.position.offset < offset) :
    linksBefore offset elements = linkCount elements := by
  rw [linksBefore, linkCount]
  refine List.countP_congr fun element member => ?_
  rw [decide_eq_true (ahead element member), Bool.and_true]

private theorem linkCount_subgraph (heading : SubgraphHeading) (inside rest : List Element) :
    linkCount (.subgraph heading inside :: rest) = linkCount inside + linkCount rest := by
  simp [linkCount, flattenAll, flatten, isLink]

private theorem linksBefore_subgraph (offset : Nat) (heading : SubgraphHeading)
    (inside rest : List Element) :
    linksBefore offset (.subgraph heading inside :: rest) =
      linksBefore offset inside + linksBefore offset rest := by
  simp [linksBefore, flattenAll, flatten, isLink]

end Element

namespace Flowchart

open Element (linkCount linksBefore)

variable {finish : Token}

/-- An element without others inside it stands by itself among all elements. -/
theorem flattenAll_toList_append {value : Option Element} (elements : List Element)
    (alone : ∀ element ∈ value, Element.flatten element = [element]) :
    Element.flattenAll (value.toList ++ elements) =
      value.toList ++ Element.flattenAll elements := by
  cases value with
  | none => rfl
  | some element =>
    rw [Option.toList, List.singleton_append, Element.flattenAll, alone element rfl]

private theorem countLink_eq (links : Nat) (value : Option Element) :
    countLink links value = links + value.toList.countP Element.isLink := by
  cases value with
  | none => rfl
  | some element => cases element <;> rfl

/-- A run adds the links among its elements to the links drawn before it. -/
theorem Runs.links_eq {enclosing : Option Token} {depth links : Nat} {hasSource : Bool}
    {items : List Item} {run : Run}
    (runs : Runs finish enclosing depth links hasSource items run) :
    run.links = links + linkCount run.elements := by
  induction runs with
  | nil => rfl
  | boundary => rfl
  | closed => rfl
  | unmatched _ _ _ ih => exact ih
  | @subgraph _ _ links _ first rest body run _ _ _ _ _ nested later =>
    calc run.links = links + (linkCount body.elements + linkCount run.elements) := by omega
      _ = _ := congrArg (links + ·) (Element.linkCount_subgraph ..).symm
  | tooDeep _ _ _ _ ih => exact ih
  | @plain _ _ links hasSource first rest plain run _ _ _ read _ ih =>
    have alone := (plain_readPlain finish links hasSource first rest).begins
    rw [read] at alone
    rw [countLink_eq] at ih
    simp only [Run.prepend, linkCount] at ih ⊢
    rw [flattenAll_toList_append _ fun element member => (alone element member).1,
      List.countP_append]
    omega

private theorem countLink_le (links : Nat) (value : Option Element) :
    countLink links value ≤ links + 1 := by
  unfold countLink
  split <;> omega

/-- A run draws no more links than it takes items. -/
theorem Runs.links_le {enclosing : Option Token} {depth links : Nat} {hasSource : Bool}
    {items : List Item} {run : Run}
    (runs : Runs finish enclosing depth links hasSource items run) :
    run.links + run.rest.length ≤ links + items.length := by
  induction runs with
  | nil => exact Nat.le_refl _
  | boundary => exact Nat.le_refl _
  | closed => exact Nat.add_le_add_left (Nat.le_succ _) _
  | unmatched _ _ _ ih =>
    simp only [Run.prepend, List.length_cons]
    omega
  | @subgraph _ _ _ _ first rest _ _ _ _ _ _ _ nested later =>
    have heading := (readHeading_suffix finish first.toToken rest).length_le
    simp only [Run.prepend, List.length_cons]
    omega
  | @tooDeep _ _ _ _ _ rest _ _ _ _ _ ih =>
    have skipped := (skipSubgraph_suffix 1 rest).length_le
    simp only [Run.prepend, List.length_cons]
    omega
  | @plain _ _ links hasSource first rest _ _ _ _ _ read _ ih =>
    have left := (readPlain_suffix finish links hasSource first rest).length_le
    rw [read] at left
    have := countLink_le links (readPlain finish links hasSource first rest).value
    rw [read] at this
    simp only [Run.prepend, List.length_cons]
    omega

/-! ## Stages -/

section Stages

variable {stage last : Stage}

/-- A step draws no more links than it takes items. -/
theorem Step.links_le {next : Stage} (step : Step finish stage next) :
    next.links + next.items.length ≤ stage.links + stage.items.length := by
  obtain ⟨first, rest, items, taken⟩ := step.taken
  have left := taken.length_le
  have passed := congrArg List.length items
  rw [List.length_cons] at passed
  cases step with
  | enter =>
    simp only [Stage.inside] at *
    omega
  | @pastSubgraph _ depth links _ keyword behind body _ _ _ read =>
    have drawn : body.links + body.rest.length ≤
        links + (Stage.inside finish depth links keyword behind).items.length := by
      rw [← read]
      exact (Stage.runs ..).links_le
    have inside := (Stage.inside_suffix finish depth links keyword behind).length_le
    simp only [List.length_cons] at *
    omega
  | pastUnmatched => exact Nat.add_le_add_left (by omega) _
  | pastTooDeep => exact Nat.add_le_add_left (by omega) _
  | @pastPlain _ _ links _ _ _ plain =>
    have := countLink_le links plain.value
    dsimp only at *
    omega

theorem Reaches.links_le (reaches : Reaches finish stage last) :
    last.links + last.items.length ≤ stage.links + stage.items.length := by
  induction reaches with
  | refl => exact Nat.le_refl _
  | tail _ step ih => exact (Step.links_le step).trans ih

/-- The elements of a run begin at items of the run. -/
theorem le_offset_of_mem_elements (finish : Token) {offset : Nat} (stage : Stage)
    (behind : ∀ item ∈ stage.items, offset ≤ item.offset) :
    ∀ element ∈ Element.flattenAll (stage.run finish).elements,
      offset ≤ element.position.offset := by
  intro element member
  obtain ⟨before, first, rest, items, -, begins⟩ := (stage.runs finish).begins element member
  rw [begins.position]
  exact behind first (by rw [items]; simp)

/-- The elements of a run begin before all that the run leaves over. -/
theorem offset_lt_of_mem_elements (laid : Items.LaidOut stage.items) {item : Item}
    (left : item ∈ (stage.run finish).rest) :
    ∀ element ∈ Element.flattenAll (stage.run finish).elements,
      element.position.offset < item.offset := by
  intro element member
  obtain ⟨before, first, rest, items, suffix, begins⟩ :=
    (stage.runs finish).begins element member
  rw [items] at laid
  rw [begins.position]
  exact ((laid.suffix (List.suffix_append ..)).precedes item (suffix.subset left)).offset_lt

/-- At a stage that a run reaches, the links counted are those drawn before the run and those of
the run that begin before the stage. The byte `offset` may lie anywhere from the first item of the
stage up to what the run of the stage has to draw or leaves over. -/
theorem Reaches.links_eq (reaches : Reaches finish stage last)
    (laid : Items.LaidOut stage.items) {first : Item} {rest : List Item}
    (items : last.items = first :: rest) {offset : Nat} (reached : first.offset ≤ offset)
    (ahead : ∀ element ∈ Element.flattenAll (last.run finish).elements,
      offset ≤ element.position.offset)
    (left : ∀ item ∈ (last.run finish).rest, offset ≤ item.offset) :
    last.links = stage.links + linksBefore offset (stage.run finish).elements := by
  induction reaches using Relation.ReflTransGen.head_induction_on with
  | refl => rw [Element.linksBefore_eq_zero ahead, Nat.add_zero]
  | @head stage next step later ih =>
    have counted := ih (laid.suffix step.suffix)
    have member : first ∈ next.items := by
      refine (Reaches.suffix later).subset ?_
      rw [items]
      exact List.mem_cons_self ..
    rw [counted]
    clear ih counted
    cases step with
    | @enter enclosing depth links hasSource keyword behind free opens shallow =>
      -- The links behind the subgraph are drawn in what its content leaves over.
      let body := (Stage.inside finish depth links keyword behind).run finish
      have rest : body.rest <:+ (last.run finish).rest := Reaches.rest_suffix later
      have none := Element.linksBefore_eq_zero <|
        le_offset_of_mem_elements finish ⟨enclosing, depth, body.links, true, body.rest⟩
          fun item member => left item (rest.subset member)
      rw [Stage.run_subgraph free opens shallow rfl, Run.prepend, Option.toList,
        List.singleton_append, Element.linksBefore_subgraph, none]
      rfl
    | @pastSubgraph enclosing depth links hasSource keyword behind body free opens shallow read =>
      -- The links inside the subgraph all begin before the stage.
      have inside := Stage.inside_suffix finish depth links keyword behind
      have counted : body.links = links + linkCount body.elements := by
        rw [← read]
        exact (Stage.runs ..).links_eq
      have before : linksBefore offset body.elements = linkCount body.elements := by
        refine Element.linksBefore_eq_linkCount fun element drawn => ?_
        rw [← read] at drawn member
        exact (offset_lt_of_mem_elements (laid.tail.suffix inside) member element drawn).trans_le
          reached
      rw [Stage.run_subgraph free opens shallow read, Run.prepend, Option.toList,
        List.singleton_append, Element.linksBefore_subgraph, before]
      dsimp only
      omega
    | pastUnmatched free closes =>
      rw [Stage.run_unmatched free closes]
      rfl
    | pastTooDeep free opens deep =>
      rw [Stage.run_tooDeep free opens deep]
      rfl
    | @pastPlain enclosing depth links hasSource front behind plain free stays shut read =>
      have begins := (plain_readPlain finish links hasSource front behind).begins
      have suffix := readPlain_suffix finish links hasSource front behind
      rw [read] at begins suffix
      have order := (laid.precedes first (suffix.subset member)).offset_lt
      rw [Stage.run_plain free stays shut read, Run.prepend]
      simp only [linksBefore, countLink_eq]
      rw [flattenAll_toList_append _ fun element member => (begins element member).1,
        List.countP_append, Nat.add_assoc]
      -- What the statement draws begins with its first item.
      congr 2
      refine List.countP_congr fun element member => ?_
      have position := (begins element (Option.mem_toList.1 member)).2.position
      rw [position, decide_eq_true (order.trans_le reached), Bool.and_true]

end Stages

end Flowchart

end DiagramCheck
