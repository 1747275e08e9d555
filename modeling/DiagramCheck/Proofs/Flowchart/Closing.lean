/-
# How subgraphs nest and close

Every subgraph is read by a run of its own, one level below the run around it,
and a run below the deepest level is never begun. So the runs that are under way
at one time are bounded, and so is the nesting of the elements they give.

A run inside a subgraph ends in one of two ways. Either it takes the `end` of its
subgraph, which is then the last item it takes, or it stops before a boundary or
at the end of the input and reports the subgraph as unclosed. In the second case
the runs around it find the same boundary ahead and stop as well. The subgraphs
reported are therefore the last element of the flowchart, the last element inside
that one, and so on for some way (`EndsIn`).

Main statement: `subgraphs_close`.
-/

import DiagramCheck.Proofs.Diagram.Progress
import DiagramCheck.Proofs.Flowchart.Codes
import DiagramCheck.Proofs.Flowchart.Nesting

namespace DiagramCheck

namespace Element

/-! ## Nesting -/

mutual

/-- How many subgraphs lie inside one another from an element on. -/
def nesting : Element → Nat
  | .node _ => 0
  | .link _ => 0
  | .subgraph _ elements => nestingAll elements + 1

/-- How many subgraphs lie inside one another in a list of elements. -/
def nestingAll : List Element → Nat
  | [] => 0
  | element :: rest => max (nesting element) (nestingAll rest)

end

private theorem nestingAll_append (first second : List Element) :
    nestingAll (first ++ second) = max (nestingAll first) (nestingAll second) := by
  induction first with
  | nil => exact (Nat.zero_max _).symm
  | cons element rest ih => rw [List.cons_append, nestingAll, ih, nestingAll, Nat.max_assoc]

mutual

/-- What lies inside a subgraph lies inside everything that the subgraph lies in. -/
theorem flattenAll_subset_flatten {heading : SubgraphHeading} {body : List Element}
    (element : Element) (inside : .subgraph heading body ∈ flatten element) :
    flattenAll body ⊆ flatten element := by
  cases element with
  | node => simp [flatten] at inside
  | link => simp [flatten] at inside
  | subgraph own elements =>
    rw [flatten] at inside ⊢
    rcases List.mem_cons.1 inside with same | inside
    · cases same
      exact List.subset_cons_self ..
    · exact List.Subset.trans (flattenAll_subset_flattenAll elements inside)
        (List.subset_cons_self ..)

private theorem flattenAll_subset_flattenAll {heading : SubgraphHeading} {body : List Element}
    (elements : List Element) (inside : .subgraph heading body ∈ flattenAll elements) :
    flattenAll body ⊆ flattenAll elements := by
  cases elements with
  | nil => cases inside
  | cons first rest =>
    rw [flattenAll] at inside ⊢
    rcases List.mem_append.1 inside with inside | inside
    · exact List.Subset.trans (flattenAll_subset_flatten first inside)
        (List.subset_append_left ..)
    · exact List.Subset.trans (flattenAll_subset_flattenAll rest inside)
        (List.subset_append_right ..)

end

end Element

namespace Flowchart

open Element (nesting nestingAll flatten flattenAll lists listsAll allLists)

variable {finish : Token}

/-- A plain statement gives no subgraph. -/
theorem Plain.value_ne {links : Nat} {hasSource : Bool} {first : Item} {rest : List Item}
    {plain : Reading (Option Element)} (read : Plain finish links hasSource first rest plain)
    (heading : SubgraphHeading) (body : List Element) :
    plain.value ≠ some (.subgraph heading body) := by
  cases read with
  | decoration => nofun
  | semicolon => nofun
  | link => nofun
  | node =>
    obtain ⟨label, shape, node⟩ := readNode_value finish (first :: rest)
    rw [Reading.value_map, node]
    nofun
  | unexpected => nofun

/-- The elements of a run nest no deeper than is left below the level of the run. -/
theorem Runs.nesting_le {enclosing : Option Token} {depth links : Nat} {hasSource : Bool}
    {items : List Item} {run : Run}
    (runs : Runs finish enclosing depth links hasSource items run) (shallow : depth ≤ maxDepth) :
    depth + nestingAll run.elements ≤ maxDepth := by
  induction runs with
  | nil => exact shallow
  | boundary => exact shallow
  | closed => exact shallow
  | unmatched _ _ _ ih => exact ih shallow
  | subgraph _ _ below _ _ nested later =>
    have inside := nested below
    have behind := later shallow
    simp only [Run.prepend, Option.toList, List.singleton_append, nestingAll, nesting]
    omega
  | tooDeep _ _ _ _ ih => exact ih shallow
  | @plain _ depth links hasSource first rest plain run _ _ _ read _ ih =>
    -- A node or a link has no depth of its own.
    have other := (plain_readPlain finish links hasSource first rest).value_ne
    rw [read] at other
    have behind := ih shallow
    cases value : plain.value with
    | none => rwa [Run.prepend]
    | some element =>
      have flat : nesting element = 0 := by
        cases element with
        | node => rfl
        | link => rfl
        | subgraph heading body => exact absurd value (other heading body)
      rw [Run.prepend, Option.toList, List.singleton_append, nestingAll, flat, Nat.zero_max]
      exact behind

/-! ## Runs under way -/

/-- The stages that the runs under way stand at, the innermost first. A run goes on by a step on
its own level, and it waits at a subgraph while the run inside that subgraph is under way. -/
inductive UnderWay (finish : Token) (start : Stage) : List Stage → Prop
  | begin : UnderWay finish start [start]
  | goesOn {stage next : Stage} {waiting : List Stage}
      (underWay : UnderWay finish start (stage :: waiting)) (step : Step finish stage next)
      (beside : next.depth = stage.depth) : UnderWay finish start (next :: waiting)
  | enters {stage next : Stage} {waiting : List Stage}
      (underWay : UnderWay finish start (stage :: waiting)) (step : Step finish stage next)
      (below : next.depth = stage.depth + 1) : UnderWay finish start (next :: stage :: waiting)

/-- A step stays on its level or goes one level down, which is one that subgraphs may have. -/
theorem Step.depth_cases {stage next : Stage} (step : Step finish stage next) :
    next.depth = stage.depth ∨ next.depth = stage.depth + 1 ∧ next.depth ≤ maxDepth := by
  cases step with
  | enter free opens shallow => exact .inr ⟨rfl, shallow⟩
  | pastSubgraph => exact .inl rfl
  | pastUnmatched => exact .inl rfl
  | pastTooDeep => exact .inl rfl
  | pastPlain => exact .inl rfl

/-- One run is under way on each level down to the innermost. -/
theorem UnderWay.length_eq {start stage : Stage} {waiting : List Stage}
    (underWay : UnderWay finish start (stage :: waiting)) (outermost : start.depth = 0) :
    waiting.length = stage.depth ∧ stage.depth ≤ maxDepth := by
  generalize stages : stage :: waiting = all at underWay
  induction underWay generalizing stage waiting with
  | begin =>
    cases stages
    exact ⟨outermost.symm, outermost ▸ Nat.zero_le _⟩
  | goesOn _ _ beside ih =>
    cases stages
    rw [beside]
    exact ih rfl
  | enters _ step below ih =>
    cases stages
    have waited := (ih rfl).1
    have shallow := step.depth_cases
    rw [List.length_cons]
    omega

theorem UnderWay.length_le {start : Stage} {stages : List Stage}
    (underWay : UnderWay finish start stages) (outermost : start.depth = 0) :
    stages.length ≤ maxDepth + 1 := by
  cases stages with
  | nil => exact Nat.zero_le _
  | cons stage waiting =>
    obtain ⟨waited, shallow⟩ := underWay.length_eq outermost
    rw [List.length_cons]
    omega

/-! ## Subgraphs that are reported -/

/-- What is reported of a subgraph that is never closed. -/
def unclosedAt (heading : SubgraphHeading) : Diagnostic :=
  .atToken ⟨.identifier, "subgraph", heading.position⟩ .unclosedSubgraph

/-- The reports on subgraphs that are never closed. -/
def missingEnds (diagnostics : List Diagnostic) : List Diagnostic :=
  diagnostics.filter (·.code == .missingSubgraphEnd)

private theorem missingEnds_append (first second : List Diagnostic) :
    missingEnds (first ++ second) = missingEnds first ++ missingEnds second :=
  List.filter_append ..

private theorem missingEnds_subset (diagnostics : List Diagnostic) :
    missingEnds diagnostics ⊆ diagnostics :=
  List.filter_subset_self _

/-- Diagnostics with other codes only. -/
theorem missingEnds_eq_nil {codes : List Code} {diagnostics : List Diagnostic}
    (codesIn : Diagnostic.CodesIn codes diagnostics) (apart : Code.missingSubgraphEnd ∉ codes) :
    missingEnds diagnostics = [] := by
  refine List.filter_eq_nil_iff.2 fun diagnostic member same => ?_
  exact apart (beq_iff_eq.1 same ▸ codesIn diagnostic member)

private theorem missingEnds_unclosed (enclosing : Option Token) :
    missingEnds (unclosed enclosing) = unclosed enclosing := by
  cases enclosing <;> rfl

private theorem missingEnds_readPlain (links : Nat) (hasSource : Bool) (first : Item)
    (rest : List Item) :
    missingEnds (readPlain finish links hasSource first rest).diagnostics = [] := by
  cases decorated : first.decoration? with
  | none => exact missingEnds_eq_nil (readPlain_codes decorated _ _ _) (by decide)
  | some decoration =>
    rw [readPlain_decoration decorated]
    exact missingEnds_eq_nil (Decoration.read_codes decoration _ _ _)
      (by cases decoration <;> decide)

/-- The report on a subgraph is told by the position of its keyword. -/
theorem unclosed_keyword {keyword : Item} (opens : keyword.opensSubgraph = true)
    (rest : List Item) :
    unclosed (some keyword.toToken) =
      [unclosedAt (readHeading finish keyword.toToken rest).value] := by
  rw [Token.opensSubgraph, Token.isWord, Bool.and_eq_true, beq_iff_eq, beq_iff_eq] at opens
  have token : keyword.toToken = ⟨.identifier, "subgraph", keyword.position⟩ := by
    rw [← opens.1, ← opens.2]
  rw [unclosedAt, position_readHeading, ← token]
  rfl

/-! ## The end of a run -/

/-- The subgraphs of `spine` are the last element of a list, the last element inside it, and so
on. -/
inductive EndsIn : List Element → List SubgraphHeading → Prop
  | nil (elements : List Element) : EndsIn elements []
  | cons {body : List Element} {spine : List SubgraphHeading} (before : List Element)
      (heading : SubgraphHeading) (inside : EndsIn body spine) :
      EndsIn (before ++ [.subgraph heading body]) (heading :: spine)

theorem EndsIn.append {elements : List Element} {spine : List SubgraphHeading}
    (ends : EndsIn elements spine) (before : List Element) : EndsIn (before ++ elements) spine := by
  cases ends with
  | nil => exact .nil _
  | cons between heading inside =>
    rw [← List.append_assoc]
    exact .cons _ heading inside

theorem EndsIn.length_le {elements : List Element} {spine : List SubgraphHeading}
    (ends : EndsIn elements spine) : spine.length ≤ nestingAll elements := by
  induction ends with
  | nil => exact Nat.zero_le _
  | @cons body spine before heading _ ih =>
    have own : nestingAll [.subgraph heading body] = nestingAll body + 1 := Nat.max_zero _
    rw [Element.nestingAll_append, own, List.length_cons]
    omega

/-- A run that stops before a boundary or at the end of the input. -/
def Stops (rest : List Item) : Prop := ∀ first ∈ rest.head?, isBoundary first = true

/-- Items of which the last one before `rest` is an `end`. -/
def TakesEnd (items rest : List Item) : Prop :=
  ∃ block last, items = block ++ last :: rest ∧ last.closesSubgraph = true

private theorem TakesEnd.of_suffix {later items rest : List Item} (takes : TakesEnd later rest)
    (suffix : later <:+ items) : TakesEnd items rest := by
  obtain ⟨skipped, rfl⟩ := suffix
  obtain ⟨block, last, rfl, closes⟩ := takes
  exact ⟨skipped ++ block, last, (List.append_assoc ..).symm, closes⟩

section Runs

variable {enclosing : Option Token} {depth links : Nat} {hasSource : Bool} {items : List Item}
  {run : Run}

/-- Before a boundary and at the end of the input there is nothing to read. -/
theorem Runs.eq_of_stops (runs : Runs finish enclosing depth links hasSource items run)
    (stops : Stops items) : run = ⟨[], unclosed enclosing, links, items⟩ := by
  cases items with
  | nil => rw [← runs.run_eq, run_nil]
  | cons first rest => rw [← runs.run_eq, run_boundary (stops first rfl)]

/-- A run takes the `end` of its subgraph and reports nothing unclosed, or it stops and reports
the subgraphs in which its elements end, from the innermost to the one it belongs to. -/
theorem Runs.takesEnd_or_stops (runs : Runs finish enclosing depth links hasSource items run) :
    TakesEnd items run.rest ∧ missingEnds run.diagnostics = [] ∨
      Stops run.rest ∧ ∃ spine, EndsIn run.elements spine ∧
        missingEnds run.diagnostics = spine.reverse.map unclosedAt ++ unclosed enclosing := by
  -- By induction on the derivation. Where a subgraph is unclosed, the run behind it stops at once,
  -- and the elements end in that subgraph.
  induction runs with
  | nil => exact .inr ⟨nofun, [], .nil _, missingEnds_unclosed _⟩
  | boundary boundary =>
    refine .inr ⟨?_, [], .nil _, missingEnds_unclosed _⟩
    rintro _ ⟨⟩
    exact boundary
  | @closed _ _ _ _ first rest _ closes => exact .inl ⟨⟨[], first, rfl, closes⟩, rfl⟩
  | unmatched _ _ _ ih =>
    rcases ih with ⟨takes, none⟩ | ih
    · exact .inl ⟨takes.of_suffix (List.suffix_cons ..), none⟩
    · exact .inr ih
  | @subgraph enclosing _ links _ first rest body run _ opens _ nested later nestedEnd laterEnd =>
    have heading : missingEnds (readHeading finish first.toToken rest).diagnostics = [] :=
      missingEnds_eq_nil (readHeading_codes _ _) (by decide)
    have suffix : body.rest <:+ first :: rest :=
      nested.suffix.trans ((readHeading_suffix ..).trans (List.suffix_cons ..))
    simp only [Run.prepend, missingEnds_append, heading, List.nil_append]
    rcases nestedEnd with ⟨-, none⟩ | ⟨stops, spine, ends, reports⟩
    · rw [none, List.nil_append]
      rcases laterEnd with ⟨takes, none⟩ | ⟨stops, spine, ends, reports⟩
      · exact .inl ⟨takes.of_suffix suffix, none⟩
      · exact .inr ⟨stops, spine, ends.append _, reports⟩
    · obtain rfl := later.eq_of_stops stops
      refine .inr ⟨stops, _, .cons [] _ ends, ?_⟩
      rw [reports, @unclosed_keyword finish _ opens rest, missingEnds_unclosed]
      simp
  | tooDeep _ _ _ _ ih =>
    rcases ih with ⟨takes, none⟩ | ih
    · exact .inl ⟨takes.of_suffix ((skipSubgraph_suffix ..).trans (List.suffix_cons ..)), none⟩
    · exact .inr ih
  | @plain _ _ links hasSource first rest plain run _ _ _ read _ ih =>
    have suffix := readPlain_suffix finish links hasSource first rest
    have none := @missingEnds_readPlain finish links hasSource first rest
    rw [read] at suffix none
    simp only [Run.prepend, missingEnds_append, none, List.nil_append]
    rcases ih with ⟨takes, none⟩ | ⟨stops, spine, ends, reports⟩
    · exact .inl ⟨takes.of_suffix (suffix.trans (List.suffix_cons ..)), none⟩
    · exact .inr ⟨stops, spine, ends.append _, reports⟩

end Runs

/-! ## Elements in order -/

/-- An element that is read behind an item begins behind it. -/
theorem BeginsAmong.offset_lt {first : Item} {rest items left : List Item} {element : Element}
    (begins : BeginsAmong finish items left element) (laid : Items.LaidOut (first :: rest))
    (suffix : items <:+ rest) : first.offset < element.position.offset := by
  obtain ⟨before, item, after, rfl, -, begins⟩ := begins
  rw [begins.position]
  exact (laid.precedes item (suffix.subset (by simp))).offset_lt

/-- The elements of a run begin one behind the other. -/
theorem Runs.offset_lt {enclosing : Option Token} {depth links : Nat} {hasSource : Bool}
    {items : List Item} {run : Run}
    (runs : Runs finish enclosing depth links hasSource items run) (laid : Items.LaidOut items) :
    (flattenAll run.elements).Pairwise fun first second =>
      first.position.offset < second.position.offset := by
  induction runs with
  | nil => exact .nil
  | boundary => exact .nil
  | closed => exact .nil
  | unmatched _ _ _ ih => exact ih laid.tail
  | @subgraph _ _ _ _ first rest body run _ _ _ nested later nestedOrder laterOrder =>
    have heading := readHeading_suffix finish first.toToken rest
    have suffix := nested.suffix.trans heading
    -- What is inside begins before what is behind.
    have apart : ∀ inner ∈ flattenAll body.elements, ∀ element ∈ flattenAll run.elements,
        inner.position.offset < element.position.offset := by
      intro inner drawn element drawn'
      obtain ⟨_, item, after, split, left, begins⟩ := nested.begins inner drawn
      obtain ⟨between, item', after', split', -, begins'⟩ := later.begins element drawn'
      have member : item' ∈ body.rest := by simp [split']
      have laid := laid.tail.suffix heading
      rw [split] at laid
      rw [begins.position, begins'.position]
      exact ((laid.suffix (List.suffix_append ..)).precedes item' (left.subset member)).offset_lt
    simp only [Run.prepend, Option.toList, flattenAll, flatten, List.cons_append,
      List.pairwise_cons, List.pairwise_append]
    refine ⟨?_, nestedOrder (laid.tail.suffix heading), laterOrder (laid.tail.suffix suffix),
      apart⟩
    intro element member
    rw [Element.position, position_readHeading]
    rcases List.mem_append.1 member with inside | outside
    · exact (nested.begins element inside).offset_lt laid heading
    · exact (later.begins element outside).offset_lt laid suffix
  | tooDeep _ _ _ _ ih => exact ih (laid.tail.suffix (skipSubgraph_suffix ..))
  | @plain _ _ links hasSource first rest plain run _ _ _ read later ih =>
    have begins := (plain_readPlain finish links hasSource first rest).begins
    have suffix := readPlain_suffix finish links hasSource first rest
    rw [read] at begins suffix
    have order := ih (laid.tail.suffix suffix)
    cases value : plain.value with
    | none => exact order
    | some own =>
      obtain ⟨alone, start⟩ := begins own value
      simp only [Run.prepend, Option.toList, List.singleton_append, flattenAll, alone,
        List.pairwise_cons]
      refine ⟨fun element member => ?_, order⟩
      rw [start.position]
      exact (later.begins element member).offset_lt laid suffix

/-- Elements that begin at different bytes. -/
def Distinct (elements : List Element) : Prop :=
  (flattenAll elements).Pairwise fun first second => first.position ≠ second.position

theorem Runs.distinct {enclosing : Option Token} {depth links : Nat} {hasSource : Bool}
    {items : List Item} {run : Run}
    (runs : Runs finish enclosing depth links hasSource items run) (laid : Items.LaidOut items) :
    Distinct run.elements :=
  (runs.offset_lt laid).imp fun order same => absurd (congrArg Position.offset same) order.ne

section Spine

variable {elements : List Element} {spine : List SubgraphHeading}

private theorem EndsIn.exists_mem (ends : EndsIn elements spine) {position : Position}
    (member : position ∈ spine.map SubgraphHeading.position) :
    ∃ element ∈ flattenAll elements, element.position = position := by
  induction ends with
  | nil => cases member
  | @cons body spine before heading _ ih =>
    simp only [Element.flattenAll_append, flattenAll, flatten, List.append_nil]
    rcases List.mem_cons.1 member with rfl | member
    · exact ⟨.subgraph heading body, by simp, rfl⟩
    · obtain ⟨element, drawn, own⟩ := ih member
      exact ⟨element, by simp [drawn], own⟩

/-- What stands before the last subgraph of a list, and the last subgraph itself, is none of the
subgraphs inside it; and what stands before it is not that subgraph either. -/
theorem Distinct.split {before body : List Element} {heading : SubgraphHeading}
    (distinct : Distinct (before ++ [.subgraph heading body])) :
    (∀ element ∈ flattenAll before, element.position ≠ heading.position ∧
        ∀ inner ∈ flattenAll body, element.position ≠ inner.position) ∧
      (∀ inner ∈ flattenAll body, heading.position ≠ inner.position) ∧ Distinct body := by
  simp only [Distinct, Element.flattenAll_append, flattenAll, flatten, List.append_nil,
    List.pairwise_append, List.pairwise_cons, List.forall_mem_cons] at distinct
  obtain ⟨-, ⟨own, inside⟩, apart⟩ := distinct
  exact ⟨apart, own, inside⟩

/-- The subgraphs of a spine are the last elements of their lists. -/
theorem EndsIn.after_eq_nil (ends : EndsIn elements spine) (distinct : Distinct elements)
    {list : List Element} (listed : list ∈ allLists elements) {before after body : List Element}
    {heading : SubgraphHeading} (split : list = before ++ .subgraph heading body :: after)
    (reported : heading.position ∈ spine.map SubgraphHeading.position) : after = [] := by
  -- By induction on the spine. An element of the spine is the last of its list, or it lies inside
  -- the last; nothing else has the position of an element of the spine.
  induction ends with
  | nil => cases reported
  | @cons content spine front last inside ih =>
    obtain ⟨apart, own, distinct⟩ := distinct.split
    have other : ∀ element ∈ flattenAll front,
        element.position ∉ (last :: spine).map SubgraphHeading.position := by
      intro element drawn member
      rcases List.mem_cons.1 member with same | member
      · exact (apart element drawn).1 same
      · obtain ⟨inner, drawn', same⟩ := inside.exists_mem member
        exact (apart element drawn).2 inner drawn' same.symm
    have drawn : .subgraph heading body ∈ list := by simp [split]
    rcases List.mem_cons.1 listed with same | listed
    · -- The list itself: the subgraph is the last element or stands before it.
      rw [split] at same
      rcases List.eq_nil_or_concat after with rfl | ⟨more, element, rfl⟩
      · rfl
      · rw [List.concat_eq_append, ← List.cons_append, ← List.append_assoc] at same
        obtain ⟨same, -⟩ := List.append_inj' same rfl
        refine absurd reported (other (.subgraph heading body) ?_)
        rw [← same]
        exact Element.subset_flattenAll _ (by simp)
    · rw [Element.listsAll_append] at listed
      rcases List.mem_append.1 listed with listed | listed
      · refine absurd reported (other (.subgraph heading body) ?_)
        exact Element.subset_flattenAll_of_mem _ listed drawn
      · -- A list inside the last subgraph.
        have listed : list ∈ allLists content := by simpa [allLists, listsAll, lists] using listed
        have inner := Element.subset_flattenAll_of_mem_allLists listed drawn
        rcases List.mem_cons.1 reported with same | reported
        · exact absurd same.symm (own _ inner)
        · exact ih distinct listed reported

/-- A subgraph around one of a spine is of the spine. -/
theorem EndsIn.around (ends : EndsIn elements spine) (distinct : Distinct elements)
    {heading inner : SubgraphHeading} {body inside : List Element}
    (drawn : .subgraph heading body ∈ flattenAll elements)
    (nested : .subgraph inner inside ∈ flattenAll body)
    (reported : inner.position ∈ spine.map SubgraphHeading.position) :
    heading.position ∈ spine.map SubgraphHeading.position := by
  induction ends with
  | nil => cases reported
  | @cons content spine front last ends ih =>
    obtain ⟨apart, own, distinct⟩ := distinct.split
    simp only [Element.flattenAll_append, flattenAll, flatten, List.append_nil, List.mem_append,
      List.mem_cons] at drawn
    rcases drawn with drawn | same | drawn
    · have drawn := Element.flattenAll_subset_flattenAll _ drawn nested
      rcases List.mem_cons.1 reported with same | reported
      · exact absurd same (apart _ drawn).1
      · obtain ⟨element, drawn', same⟩ := ends.exists_mem reported
        exact absurd same.symm ((apart _ drawn).2 element drawn')
    · cases same
      exact List.mem_cons_self ..
    · have drawn' := Element.flattenAll_subset_flattenAll _ drawn nested
      rcases List.mem_cons.1 reported with same | reported
      · exact absurd same.symm (own _ drawn')
      · exact List.mem_cons_of_mem _ (ih distinct drawn reported)

end Spine

/-! ## Where a subgraph is read -/

/-- A subgraph with heading `heading` and the elements `body` is read at a stage that the run of
`start` comes to, with its keyword `keyword` at the front and `rest` behind it. -/
structure ReadAt (finish : Token) (start : Stage) (heading : SubgraphHeading)
    (body : List Element) (stage : Stage) (keyword : Item) (rest : List Item) : Prop where
  reached : Reaches finish start stage
  front : stage.items = keyword :: rest
  free : isBoundary keyword = false
  opens : keyword.opensSubgraph = true
  shallow : stage.depth < maxDepth
  heading : heading = (readHeading finish keyword.toToken rest).value
  body : body = ((Stage.inside finish stage.depth stage.links keyword rest).run finish).elements

private theorem ReadAt.of_step {start next : Stage} {heading : SubgraphHeading}
    {body : List Element}
    {stage : Stage} {keyword : Item} {rest : List Item}
    (read : ReadAt finish next heading body stage keyword rest) (step : Step finish start next) :
    ReadAt finish start heading body stage keyword rest :=
  { read with reached := .head step read.reached }

/-- Every subgraph that a run gives, at any depth, is read at a stage that the run comes to. -/
theorem Runs.exists_readAt {enclosing : Option Token} {depth links : Nat} {hasSource : Bool}
    {items : List Item} {run : Run}
    (runs : Runs finish enclosing depth links hasSource items run) {heading : SubgraphHeading}
    {body : List Element} (drawn : .subgraph heading body ∈ flattenAll run.elements) :
    ∃ stage keyword rest, ReadAt finish ⟨enclosing, depth, links, hasSource, items⟩ heading body
      stage keyword rest := by
  induction runs with
  | nil => cases drawn
  | boundary => cases drawn
  | closed => cases drawn
  | unmatched free closes _ ih =>
    obtain ⟨stage, keyword, rest, read⟩ := ih drawn
    exact ⟨stage, keyword, rest, read.of_step (.pastUnmatched free closes)⟩
  | @subgraph enclosing depth links hasSource first rest inner run free opens shallow nested later
      nestedRead laterRead =>
    simp only [Run.prepend, Option.toList, flattenAll, flatten, List.cons_append, List.mem_cons,
      List.mem_append] at drawn
    -- It is the subgraph itself, or one inside it, or one behind it.
    rcases drawn with same | drawn | drawn
    · cases same
      refine ⟨_, first, rest, .refl, rfl, free, opens, shallow, rfl, ?_⟩
      exact congrArg Run.elements nested.run_eq.symm
    · obtain ⟨stage, keyword, behind, read⟩ := nestedRead drawn
      exact ⟨stage, keyword, behind, read.of_step (.enter free opens shallow)⟩
    · obtain ⟨stage, keyword, behind, read⟩ := laterRead drawn
      exact ⟨stage, keyword, behind,
        read.of_step (.pastSubgraph free opens shallow nested.run_eq)⟩
  | tooDeep free opens deep _ ih =>
    obtain ⟨stage, keyword, rest, read⟩ := ih drawn
    exact ⟨stage, keyword, rest, read.of_step (.pastTooDeep free opens deep)⟩
  | @plain _ _ links hasSource first rest plain run free stays shut read later ih =>
    -- A plain statement gives no subgraph.
    have drawn : .subgraph heading body ∈ flattenAll run.elements := by
      have begins := (plain_readPlain finish links hasSource first rest).begins
      have other := (plain_readPlain finish links hasSource first rest).value_ne
      rw [read] at begins other
      cases value : plain.value with
      | none => rwa [Run.prepend, value] at drawn
      | some own =>
        rw [Run.prepend, value, Option.toList, List.singleton_append, flattenAll,
          (begins own value).1] at drawn
        rcases List.mem_cons.1 drawn with rfl | drawn
        · exact absurd value (other heading body)
        · exact drawn
    obtain ⟨stage, keyword, behind, own⟩ := ih drawn
    exact ⟨stage, keyword, behind, own.of_step (.pastPlain free stays shut read)⟩

/-- What a run inside a subgraph takes is the subgraph up to its `end`, unless the subgraph is
reported. -/
theorem ReadAt.takesEnd {start stage : Stage} {heading : SubgraphHeading} {body : List Element}
    {keyword : Item} {rest : List Item}
    (read : ReadAt finish start heading body stage keyword rest)
    (closed : unclosedAt heading ∉ (start.run finish).diagnostics) :
    TakesEnd (Stage.inside finish stage.depth stage.links keyword rest).items
      ((Stage.inside finish stage.depth stage.links keyword rest).run finish).rest := by
  let content := Stage.inside finish stage.depth stage.links keyword rest
  rcases (content.runs finish).takesEnd_or_stops with ⟨takes, -⟩ | ⟨-, spine, -, reports⟩
  · exact takes
  · refine absurd ?_ closed
    have step : Step finish stage content := by
      obtain ⟨enclosing, depth, links, hasSource, items⟩ := stage
      have front := read.front
      cases front
      exact .enter read.free read.opens read.shallow
    have reached : Reaches finish start content := .tail read.reached step
    refine reached.diagnostics_subset (missingEnds_subset _ ?_)
    have own : content.enclosing = some keyword.toToken := rfl
    rw [reports, read.heading, own, @unclosed_keyword finish _ read.opens rest]
    exact List.mem_append_right _ (List.mem_singleton_self _)

/-! ## Flowcharts of a source -/

/-- A missing `end` is reported at the position of a subgraph. -/
def IsUnclosed (diagnostics : List Diagnostic) (heading : SubgraphHeading) : Prop :=
  ∃ diagnostic ∈ diagnostics, diagnostic.code = .missingSubgraphEnd ∧
    diagnostic.line = heading.position.line ∧ diagnostic.column = heading.position.column ∧
      diagnostic.span.start = heading.position.offset

instance (diagnostics : List Diagnostic) (heading : SubgraphHeading) :
    Decidable (IsUnclosed diagnostics heading) :=
  inferInstanceAs (Decidable (∃ diagnostic ∈ diagnostics, _))

private theorem isUnclosed_of_mem {diagnostics : List Diagnostic} {heading : SubgraphHeading}
    (member : unclosedAt heading ∈ diagnostics) : IsUnclosed diagnostics heading :=
  ⟨_, member, rfl, rfl, rfl, rfl⟩

private theorem isUnclosed_iff {diagnostics : List Diagnostic} {spine : List SubgraphHeading}
    (reports : missingEnds diagnostics = spine.reverse.map unclosedAt)
    (heading : SubgraphHeading) :
    IsUnclosed diagnostics heading ↔
      heading.position ∈ spine.map SubgraphHeading.position := by
  constructor
  · rintro ⟨diagnostic, member, code, line, column, start⟩
    have reported : diagnostic ∈ missingEnds diagnostics :=
      List.mem_filter.2 ⟨member, beq_iff_eq.2 code⟩
    rw [reports] at reported
    obtain ⟨own, listed, rfl⟩ := List.mem_map.1 reported
    refine List.mem_map.2 ⟨own, List.mem_reverse.1 listed, ?_⟩
    cases position : heading.position
    rw [position] at line column start
    cases own' : own.position
    rw [unclosedAt, own'] at line column start
    cases line
    cases column
    cases start
    rfl
  · intro member
    obtain ⟨own, listed, same⟩ := List.mem_map.1 member
    refine isUnclosed_of_mem (missingEnds_subset _ ?_)
    rw [reports, unclosedAt, ← same]
    exact List.mem_map_of_mem (List.mem_reverse.2 listed)

/-- How the subgraphs of a flowchart nest and close, whose elements are read from the stage `start`
on and which reports `diagnostics`. -/
structure NestsAndCloses (finish : Token) (start : Stage) (elements : List Element)
    (diagnostics : List Diagnostic) : Prop where
  /-- Subgraphs lie at most 64 deep inside one another. -/
  nesting : nestingAll elements ≤ 64
  /-- At most 65 runs are under way at one time. -/
  underWay : ∀ stages, UnderWay finish start stages → stages.length ≤ 65
  /-- An unclosed subgraph is the last element of its list. -/
  last : ∀ list ∈ allLists elements, ∀ before heading body after,
    list = before ++ .subgraph heading body :: after → IsUnclosed diagnostics heading → after = []
  /-- A subgraph around an unclosed one is unclosed. -/
  around : ∀ heading body inner inside, .subgraph heading body ∈ flattenAll elements →
    .subgraph inner inside ∈ flattenAll body → IsUnclosed diagnostics inner →
      IsUnclosed diagnostics heading
  /-- At most 64 subgraphs are reported. -/
  few : (missingEnds diagnostics).length ≤ 64
  /-- Any other subgraph is read up to an `end`, which is the last item that its run takes. -/
  closed : ∀ heading body, .subgraph heading body ∈ flattenAll elements →
    ¬ IsUnclosed diagnostics heading → ∃ stage keyword rest,
      ReadAt finish start heading body stage keyword rest ∧
        TakesEnd (Stage.inside finish stage.depth stage.links keyword rest).items
          ((Stage.inside finish stage.depth stage.links keyword rest).run finish).rest

/-- In every flowchart of a source subgraphs nest at most 64 deep, unclosed subgraphs are the last
of their lists with unclosed subgraphs around them, and all others are closed by an `end`. -/
theorem subgraphs_close {source : String} {index : Nat} {chart : Flowchart} {header : Item}
    {rest : List Item} (items : Validation.remaining source index = header :: rest)
    (drawn : (Validation.reading source index).value.content = .flowchart chart) :
    NestsAndCloses (Layout.finish source) (.ofHeader header.toToken rest) chart.elements
      (Validation.reading source index).diagnostics := by
  obtain ⟨kind, rfl⟩ := Validation.flowchart_of_content items drawn
  let start := Stage.ofHeader header.toToken rest
  have laid : Items.LaidOut start.items := by
    have laid := Validation.laidOut_remaining source index
    rw [items] at laid
    exact laid.tail.suffix (Stage.ofHeader_suffix ..)
  have runs := start.runs (Layout.finish source)
  have distinct := runs.distinct laid
  have nests := runs.nesting_le (Nat.zero_le _)
  rw [show start.depth = 0 from rfl, Nat.zero_add] at nests
  -- The direction and the check of neighbours report no missing `end`.
  have reports : missingEnds (Validation.reading source index).diagnostics =
      missingEnds (start.run (Layout.finish source)).diagnostics := by
    rw [Validation.reading_of_header items kind, Reading.diagnostics_map, Flowchart.read]
    dsimp only
    rw [missingEnds_append, missingEnds_append,
      missingEnds_eq_nil (readDirection_codes _ _) (by decide),
      missingEnds_eq_nil (connectionDiagnostics_codes _ _) (by decide), List.nil_append,
      List.append_nil]
    rfl
  obtain ⟨spine, ends, own⟩ : ∃ spine, EndsIn (start.run (Layout.finish source)).elements spine ∧
      missingEnds (Validation.reading source index).diagnostics = spine.reverse.map unclosedAt := by
    rw [reports]
    rcases runs.takesEnd_or_stops with ⟨-, none⟩ | ⟨-, spine, ends, own⟩
    · exact ⟨[], .nil _, none⟩
    · exact ⟨spine, ends, own.trans (List.append_nil _)⟩
  have unclosed := isUnclosed_iff own
  constructor
  case nesting => exact nests
  case underWay => exact fun stages underWay => underWay.length_le rfl
  case last =>
    intro list listed before heading body after split reported
    exact ends.after_eq_nil distinct listed split ((unclosed heading).1 reported)
  case around =>
    intro heading body inner inside drawn nested reported
    exact (unclosed heading).2 (ends.around distinct drawn nested ((unclosed inner).1 reported))
  case few =>
    rw [own, List.length_map, List.length_reverse]
    exact ends.length_le.trans nests
  case closed =>
    intro heading body drawn closed
    obtain ⟨stage, keyword, behind, read⟩ := runs.exists_readAt drawn
    refine ⟨stage, keyword, behind, read, read.takesEnd fun member => closed ?_⟩
    have reported :
        unclosedAt heading ∈ missingEnds (start.run (Layout.finish source)).diagnostics :=
      List.mem_filter.2 ⟨member, rfl⟩
    rw [← reports] at reported
    exact isUnclosed_of_mem (missingEnds_subset _ reported)

/-- Of three subgraphs the outermost and the last are unclosed, and the one between is closed. -/
theorem subgraphs_close_unclosed :
    let source := "flowchart TD\nsubgraph a\nsubgraph b\nEND\nsubgraph c"
    let header : Item := ⟨⟨.header .flowchart, "flowchart", ⟨1, 1, 0⟩⟩, true, true⟩
    let rest := (Layout.items (Token.tokenize source)).tail
    let diagnostics := (Validation.reading source 0).diagnostics
    let first : SubgraphHeading := ⟨"a", none, ⟨2, 1, 13⟩⟩
    let second : SubgraphHeading := ⟨"b", none, ⟨3, 1, 24⟩⟩
    let third : SubgraphHeading := ⟨"c", none, ⟨5, 1, 39⟩⟩
    NestsAndCloses (Layout.finish source) (.ofHeader header.toToken rest)
        [.subgraph first [.subgraph second [], .subgraph third []]] diagnostics ∧
      IsUnclosed diagnostics first ∧ ¬ IsUnclosed diagnostics second ∧
        IsUnclosed diagnostics third := by
  intro source header rest diagnostics first second third
  have items : Validation.remaining source 0 = header :: rest := by decide +kernel
  have drawn : (Validation.reading source 0).value.content =
      .flowchart ⟨some .topDown, [.subgraph first [.subgraph second [], .subgraph third []]]⟩ := by
    have read : (Flowchart.read (Layout.finish source) header.toToken rest).value =
        ⟨some .topDown, [.subgraph first [.subgraph second [], .subgraph third []]]⟩ := by
      decide +kernel
    rw [Validation.reading_of_header items rfl, ← read]
    rfl
  exact ⟨subgraphs_close items drawn, by decide +kernel, by decide +kernel, by decide +kernel⟩

end Flowchart

end DiagramCheck
