/-
# The stages of a run

Before each statement a run of elements stands at a stage: the subgraph it
belongs to, how deep it lies, what has been drawn, and the items ahead. A stage
either ends its run, or it leads on: past one statement, or into the run of a
subgraph that begins there. `Reaches` follows these steps, so it names every
place that the reading of a flowchart comes to.

Each step takes at least one item, and what the run of a stage leaves over lies
behind every stage that it reaches. A run reports what its stages report and
nothing else.
-/

import Mathlib.Logic.Relation
import DiagramCheck.Proofs.Flowchart.Run

namespace DiagramCheck.Flowchart

/-- What a run looks at before a statement. -/
structure Stage where
  enclosing : Option Token
  depth : Nat
  links : Nat
  hasSource : Bool
  items : List Item
  deriving DecidableEq

namespace Stage

/-- The run that begins at a stage. -/
def run (finish : Token) (stage : Stage) : Run :=
  Flowchart.run finish stage.enclosing stage.depth stage.links stage.hasSource stage.items

/-- The stage at which the content of a flowchart begins. -/
def outermost (items : List Item) : Stage := ⟨none, 0, 0, false, items⟩

/-- The stage at which the content of a subgraph begins, behind its heading; `depth` subgraphs
enclose the subgraph. -/
def inside (finish : Token) (depth links : Nat) (keyword : Item) (rest : List Item) : Stage :=
  ⟨some keyword.toToken, depth + 1, links, false,
    (readHeading finish keyword.toToken rest).rest⟩

/-- What is reported at a stage, before the run goes on from it. -/
def diagnostics (finish : Token) (stage : Stage) : List Diagnostic :=
  match stage.items with
  | [] => unclosed stage.enclosing
  | first :: rest =>
    if isBoundary first then unclosed stage.enclosing
    else if first.closesSubgraph then
      if stage.enclosing.isSome then [] else [.atToken first.toToken .unmatchedEnd]
    else if first.opensSubgraph then
      if stage.depth < maxDepth then (readHeading finish first.toToken rest).diagnostics
      else [.atToken first.toToken (.subgraphTooDeep maxDepth)]
    else (readPlain finish stage.links stage.hasSource first rest).diagnostics

section Cases

variable {finish : Token} {enclosing : Option Token} {depth links : Nat} {hasSource : Bool}
  {first : Item} {rest : List Item}

theorem run_unmatched (free : isBoundary first = false) (closes : first.closesSubgraph = true) :
    run finish ⟨none, depth, links, hasSource, first :: rest⟩ =
      (run finish ⟨none, depth, links, hasSource, rest⟩).prepend none
        [.atToken first.toToken .unmatchedEnd] :=
  Flowchart.run_unmatched free closes

/-- The run of a stage that begins with a subgraph is the subgraph and the run behind it. -/
theorem run_subgraph (free : isBoundary first = false) (opens : first.opensSubgraph = true)
    (shallow : depth < maxDepth) {body : Run}
    (read : (inside finish depth links first rest).run finish = body) :
    run finish ⟨enclosing, depth, links, hasSource, first :: rest⟩ =
      (run finish ⟨enclosing, depth, body.links, true, body.rest⟩).prepend
        (some (.subgraph (readHeading finish first.toToken rest).value body.elements))
        ((readHeading finish first.toToken rest).diagnostics ++ body.diagnostics) :=
  Flowchart.run_subgraph free (closesSubgraph_eq_false opens) opens shallow rfl read

theorem run_tooDeep (free : isBoundary first = false) (opens : first.opensSubgraph = true)
    (deep : ¬ depth < maxDepth) :
    run finish ⟨enclosing, depth, links, hasSource, first :: rest⟩ =
      (run finish ⟨enclosing, depth, links, hasSource, skipSubgraph 1 rest⟩).prepend none
        [.atToken first.toToken (.subgraphTooDeep maxDepth)] :=
  Flowchart.run_tooDeep free (closesSubgraph_eq_false opens) opens deep

theorem run_plain (free : isBoundary first = false) (stays : first.closesSubgraph = false)
    (shut : first.opensSubgraph = false) {plain : Reading (Option Element)}
    (read : readPlain finish links hasSource first rest = plain) :
    run finish ⟨enclosing, depth, links, hasSource, first :: rest⟩ =
      (run finish ⟨enclosing, depth, countLink links plain.value,
        sourceAfter hasSource plain.value, plain.rest⟩).prepend plain.value
        plain.diagnostics :=
  Flowchart.run_plain free stays shut read

theorem diagnostics_boundary (boundary : isBoundary first = true) :
    diagnostics finish ⟨enclosing, depth, links, hasSource, first :: rest⟩ =
      unclosed enclosing := by
  simp [diagnostics, boundary]

theorem diagnostics_closes (free : isBoundary first = false)
    (closes : first.closesSubgraph = true) :
    diagnostics finish ⟨enclosing, depth, links, hasSource, first :: rest⟩ =
      if enclosing.isSome then [] else [.atToken first.toToken .unmatchedEnd] := by
  simp [diagnostics, free, closes]

theorem diagnostics_opens (free : isBoundary first = false)
    (opens : first.opensSubgraph = true) :
    diagnostics finish ⟨enclosing, depth, links, hasSource, first :: rest⟩ =
      if depth < maxDepth then (readHeading finish first.toToken rest).diagnostics
      else [.atToken first.toToken (.subgraphTooDeep maxDepth)] := by
  simp [diagnostics, free, opens, closesSubgraph_eq_false opens]

theorem diagnostics_plain (free : isBoundary first = false)
    (stays : first.closesSubgraph = false) (shut : first.opensSubgraph = false) :
    diagnostics finish ⟨enclosing, depth, links, hasSource, first :: rest⟩ =
      (readPlain finish links hasSource first rest).diagnostics := by
  simp [diagnostics, free, stays, shut]

end Cases

end Stage

/-! ## Steps -/

/-- A stage leads to another: into the run of a subgraph, or past a statement. -/
inductive Step (finish : Token) : Stage → Stage → Prop
  | enter {enclosing : Option Token} {depth links : Nat} {hasSource : Bool} {first : Item}
      {rest : List Item} (free : isBoundary first = false) (opens : first.opensSubgraph = true)
      (shallow : depth < maxDepth) :
      Step finish ⟨enclosing, depth, links, hasSource, first :: rest⟩
        (.inside finish depth links first rest)
  | pastSubgraph {enclosing : Option Token} {depth links : Nat} {hasSource : Bool} {first : Item}
      {rest : List Item} {body : Run} (free : isBoundary first = false)
      (opens : first.opensSubgraph = true) (shallow : depth < maxDepth)
      (read : (Stage.inside finish depth links first rest).run finish = body) :
      Step finish ⟨enclosing, depth, links, hasSource, first :: rest⟩
        ⟨enclosing, depth, body.links, true, body.rest⟩
  | pastUnmatched {depth links : Nat} {hasSource : Bool} {first : Item} {rest : List Item}
      (free : isBoundary first = false) (closes : first.closesSubgraph = true) :
      Step finish ⟨none, depth, links, hasSource, first :: rest⟩
        ⟨none, depth, links, hasSource, rest⟩
  | pastTooDeep {enclosing : Option Token} {depth links : Nat} {hasSource : Bool} {first : Item}
      {rest : List Item} (free : isBoundary first = false) (opens : first.opensSubgraph = true)
      (deep : ¬ depth < maxDepth) :
      Step finish ⟨enclosing, depth, links, hasSource, first :: rest⟩
        ⟨enclosing, depth, links, hasSource, skipSubgraph 1 rest⟩
  | pastPlain {enclosing : Option Token} {depth links : Nat} {hasSource : Bool} {first : Item}
      {rest : List Item} {plain : Reading (Option Element)} (free : isBoundary first = false)
      (stays : first.closesSubgraph = false) (shut : first.opensSubgraph = false)
      (read : readPlain finish links hasSource first rest = plain) :
      Step finish ⟨enclosing, depth, links, hasSource, first :: rest⟩
        ⟨enclosing, depth, countLink links plain.value, sourceAfter hasSource plain.value,
          plain.rest⟩

/-- The stages that the run of a stage comes to, at any depth. -/
def Reaches (finish : Token) : Stage → Stage → Prop := Relation.ReflTransGen (Step finish)

section Runs

variable {finish : Token} {stage next last : Stage}

theorem Stage.runs (finish : Token) (stage : Stage) :
    Runs finish stage.enclosing stage.depth stage.links stage.hasSource stage.items
      (stage.run finish) :=
  runs_run ..

theorem Stage.run_suffix (finish : Token) (stage : Stage) :
    (stage.run finish).rest <:+ stage.items :=
  Flowchart.run_suffix ..

theorem Stage.inside_suffix (finish : Token) (depth links : Nat) (keyword : Item)
    (rest : List Item) : (inside finish depth links keyword rest).items <:+ rest :=
  readHeading_suffix ..

/-- A step takes at least the item at the front. -/
theorem Step.taken (step : Step finish stage next) :
    ∃ first rest, stage.items = first :: rest ∧ next.items <:+ rest := by
  cases step with
  | enter => exact ⟨_, _, rfl, Stage.inside_suffix ..⟩
  | @pastSubgraph _ depth links _ first rest body _ _ _ read =>
    refine ⟨_, _, rfl, ?_⟩
    rw [← read]
    exact (Stage.run_suffix ..).trans (Stage.inside_suffix ..)
  | pastUnmatched => exact ⟨_, _, rfl, List.suffix_refl _⟩
  | pastTooDeep => exact ⟨_, _, rfl, skipSubgraph_suffix ..⟩
  | pastPlain _ _ _ read =>
    refine ⟨_, _, rfl, ?_⟩
    rw [← read]
    exact readPlain_suffix ..

theorem Step.suffix (step : Step finish stage next) : next.items <:+ stage.items := by
  obtain ⟨first, rest, items, suffix⟩ := step.taken
  rw [items]
  exact suffix.trans (List.suffix_cons ..)

/-- What a run makes of the run that a step leads to: the same run with something in front, or a
subgraph with the run behind it. -/
theorem Step.run_eq (step : Step finish stage next) :
    (∃ element diagnostics,
      stage.run finish = (next.run finish).prepend element diagnostics) ∨
    ∃ behind heading diagnostics, Stage.items behind = (next.run finish).rest ∧
      stage.run finish = (behind.run finish).prepend
        (some (.subgraph heading (next.run finish).elements))
        (diagnostics ++ (next.run finish).diagnostics) := by
  cases step with
  | @enter enclosing depth _ _ _ _ free opens shallow =>
    exact .inr ⟨⟨enclosing, depth, _, true, _⟩, _, _, rfl,
      Stage.run_subgraph free opens shallow rfl⟩
  | pastSubgraph free opens shallow read =>
    exact .inl ⟨_, _, Stage.run_subgraph free opens shallow read⟩
  | pastUnmatched free closes => exact .inl ⟨_, _, Stage.run_unmatched free closes⟩
  | pastTooDeep free opens deep => exact .inl ⟨_, _, Stage.run_tooDeep free opens deep⟩
  | pastPlain free stays shut read => exact .inl ⟨_, _, Stage.run_plain free stays shut read⟩

/-- What a run leaves over lies behind what the runs inside it leave over. -/
theorem Step.rest_suffix (step : Step finish stage next) :
    (stage.run finish).rest <:+ (next.run finish).rest := by
  rcases step.run_eq with ⟨element, diagnostics, same⟩ | ⟨behind, heading, diagnostics, left, same⟩
  · rw [same]
    exact List.suffix_refl _
  · rw [same, ← left]
    exact behind.run_suffix finish

/-- What a run reports is also reported by the run around it. -/
theorem Step.diagnostics_subset (step : Step finish stage next) :
    (next.run finish).diagnostics ⊆ (stage.run finish).diagnostics := by
  rcases step.run_eq with ⟨element, diagnostics, same⟩ | ⟨behind, heading, diagnostics, left, same⟩
  · rw [same]
    exact List.subset_append_right ..
  · rw [same]
    exact fun _ member => List.mem_append_left _ (List.mem_append_right _ member)

/-! ## Stages that are reached -/

theorem Reaches.suffix (reaches : Reaches finish stage last) : last.items <:+ stage.items := by
  induction reaches with
  | refl => exact List.suffix_refl _
  | tail _ step ih => exact step.suffix.trans ih

theorem Reaches.rest_suffix (reaches : Reaches finish stage last) :
    (stage.run finish).rest <:+ (last.run finish).rest := by
  induction reaches with
  | refl => exact List.suffix_refl _
  | tail _ step ih => exact ih.trans step.rest_suffix

theorem Reaches.diagnostics_subset (reaches : Reaches finish stage last) :
    (last.run finish).diagnostics ⊆ (stage.run finish).diagnostics := by
  induction reaches with
  | refl => exact List.Subset.refl _
  | tail _ step ih => exact List.Subset.trans (Step.diagnostics_subset step) ih

/-! ## Stages in a list -/

/-- The stages that a stage leads to, computed. -/
def Stage.successors (finish : Token) (stage : Stage) : List Stage :=
  match stage.items with
  | [] => []
  | first :: rest =>
    if isBoundary first then []
    else if first.closesSubgraph then
      if stage.enclosing.isSome then [] else [{ stage with items := rest }]
    else if first.opensSubgraph then
      if stage.depth < maxDepth then
        let body := (inside finish stage.depth stage.links first rest).run finish
        [inside finish stage.depth stage.links first rest,
          ⟨stage.enclosing, stage.depth, body.links, true, body.rest⟩]
      else [{ stage with items := skipSubgraph 1 rest }]
    else
      let plain := readPlain finish stage.links stage.hasSource first rest
      [⟨stage.enclosing, stage.depth, countLink stage.links plain.value,
        sourceAfter stage.hasSource plain.value, plain.rest⟩]

private theorem Stage.mem_successors : next ∈ stage.successors finish ↔ Step finish stage next := by
  constructor
  · obtain ⟨enclosing, depth, links, hasSource, items⟩ := stage
    intro member
    -- The stages that follow are listed by the tests that a run makes, one after the other.
    cases items with
    | nil => cases member
    | cons first rest =>
      unfold successors at member
      dsimp only at member
      split at member
      · cases member
      · next free =>
        have free := Bool.eq_false_iff.2 free
        split at member
        · next closes =>
          split at member
          · cases member
          · next outside =>
            rw [Bool.not_eq_true, Option.isSome_eq_false_iff, Option.isNone_iff_eq_none] at outside
            cases outside
            obtain rfl := List.mem_singleton.1 member
            exact .pastUnmatched free closes
        · next stays =>
          have stays := Bool.eq_false_iff.2 stays
          split at member
          · next opens =>
            split at member
            · next shallow =>
              rcases List.mem_cons.1 member with rfl | member
              · exact .enter free opens shallow
              · obtain rfl := List.mem_singleton.1 member
                exact .pastSubgraph free opens shallow rfl
            · next deep =>
              obtain rfl := List.mem_singleton.1 member
              exact .pastTooDeep free opens deep
          · next shut =>
            obtain rfl := List.mem_singleton.1 member
            exact .pastPlain free stays (Bool.eq_false_iff.2 shut) rfl
  · intro step
    cases step with
    | enter free opens shallow =>
      simp [successors, free, closesSubgraph_eq_false opens, opens, shallow]
    | pastSubgraph free opens shallow read =>
      subst read
      simp [successors, free, closesSubgraph_eq_false opens, opens, shallow]
    | pastUnmatched free closes => simp [successors, free, closes]
    | pastTooDeep free opens deep =>
      simp [successors, free, closesSubgraph_eq_false opens, opens, deep]
    | pastPlain free stays shut read =>
      subst read
      simp [successors, free, stays, shut]

/-- The stages that the run of a stage comes to in some number of steps. -/
def Stage.within (finish : Token) : Nat → Stage → List Stage
  | 0, stage => [stage]
  | steps + 1, stage => stage :: (stage.successors finish).flatMap (within finish steps)

/-- All stages that the run of a stage comes to; no more steps are needed than there are items. -/
def Stage.all (finish : Token) (stage : Stage) : List Stage :=
  stage.within finish stage.items.length

private theorem Stage.reaches_of_mem_within {steps : Nat}
    (member : last ∈ stage.within finish steps) :
    Reaches finish stage last := by
  induction steps generalizing stage with
  | zero => exact List.mem_singleton.1 member ▸ .refl
  | succ steps ih =>
    rcases List.mem_cons.1 member with rfl | member
    · exact .refl
    · obtain ⟨next, step, member⟩ := List.mem_flatMap.1 member
      exact .head (mem_successors.1 step) (ih member)

private theorem Stage.mem_within (reaches : Reaches finish stage last) {steps : Nat}
    (enough : stage.items.length ≤ steps) : last ∈ stage.within finish steps := by
  induction reaches using Relation.ReflTransGen.head_induction_on generalizing steps with
  | refl => cases steps <;> exact List.mem_cons_self ..
  | @head stage next step _ ih =>
    obtain ⟨first, rest, items, taken⟩ := step.taken
    have shorter := taken.length_le
    rw [items, List.length_cons] at enough
    obtain ⟨fewer, rfl⟩ : ∃ fewer, steps = fewer + 1 := ⟨steps - 1, by omega⟩
    exact List.mem_cons_of_mem _
      (List.mem_flatMap.2 ⟨next, mem_successors.2 step, ih (by omega)⟩)

theorem Stage.mem_all : last ∈ stage.all finish ↔ Reaches finish stage last :=
  ⟨reaches_of_mem_within, fun reaches => mem_within reaches (Nat.le_refl _)⟩

/-! ## Reports -/

/-- A run begins with the reports of the stage it begins at. -/
theorem Runs.diagnostics_subset {enclosing : Option Token} {depth links : Nat} {hasSource : Bool}
    {items : List Item} {run : Run}
    (runs : Runs finish enclosing depth links hasSource items run) :
    Stage.diagnostics finish ⟨enclosing, depth, links, hasSource, items⟩ ⊆ run.diagnostics := by
  cases runs with
  | nil => exact List.Subset.refl _
  | boundary boundary =>
    rw [Stage.diagnostics_boundary boundary]
    exact List.Subset.refl _
  | closed free closes =>
    rw [Stage.diagnostics_closes free closes]
    exact List.nil_subset _
  | unmatched free closes =>
    rw [Stage.diagnostics_closes free closes]
    exact List.subset_append_left ..
  | subgraph free opens shallow =>
    rw [Stage.diagnostics_opens free opens, if_pos shallow]
    exact fun _ member => List.mem_append_left _ (List.mem_append_left _ member)
  | tooDeep free opens deep =>
    rw [Stage.diagnostics_opens free opens, if_neg deep]
    exact List.subset_append_left ..
  | plain free stays shut read =>
    rw [Stage.diagnostics_plain free stays shut, read]
    exact List.subset_append_left ..

/-- Whatever a run reports is reported at a stage that it reaches. -/
theorem Runs.exists_reported {enclosing : Option Token} {depth links : Nat} {hasSource : Bool}
    {items : List Item} {run : Run}
    (runs : Runs finish enclosing depth links hasSource items run) :
    ∀ diagnostic ∈ run.diagnostics, ∃ last,
      Reaches finish ⟨enclosing, depth, links, hasSource, items⟩ last ∧
        diagnostic ∈ last.diagnostics finish := by
  -- By induction on the derivation: a report belongs to the first stage or to one behind a step.
  induction runs with
  | nil => exact fun _ member => ⟨_, .refl, member⟩
  | boundary boundary =>
    intro _ member
    exact ⟨_, .refl, (Stage.diagnostics_boundary boundary).symm ▸ member⟩
  | closed => exact fun _ absent => by cases absent
  | unmatched free closes _ ih =>
    intro diagnostic member
    rcases List.mem_append.1 member with own | member
    · exact ⟨_, .refl, (Stage.diagnostics_closes free closes).symm ▸ own⟩
    · obtain ⟨last, reaches, reported⟩ := ih diagnostic member
      exact ⟨last, .head (.pastUnmatched free closes) reaches, reported⟩
  | subgraph free opens shallow nested _ nestedReports laterReports =>
    intro diagnostic member
    rcases List.mem_append.1 member with front | member
    · rcases List.mem_append.1 front with own | member
      · refine ⟨_, .refl, ?_⟩
        rw [Stage.diagnostics_opens free opens, if_pos shallow]
        exact own
      · obtain ⟨last, reaches, reported⟩ := nestedReports diagnostic member
        exact ⟨last, .head (.enter free opens shallow) reaches, reported⟩
    · obtain ⟨last, reaches, reported⟩ := laterReports diagnostic member
      exact ⟨last, .head (.pastSubgraph free opens shallow nested.run_eq) reaches, reported⟩
  | tooDeep free opens deep _ ih =>
    intro diagnostic member
    rcases List.mem_append.1 member with own | member
    · refine ⟨_, .refl, ?_⟩
      rw [Stage.diagnostics_opens free opens, if_neg deep]
      exact own
    · obtain ⟨last, reaches, reported⟩ := ih diagnostic member
      exact ⟨last, .head (.pastTooDeep free opens deep) reaches, reported⟩
  | plain free stays shut read _ ih =>
    intro diagnostic member
    rcases List.mem_append.1 member with own | member
    · refine ⟨_, .refl, ?_⟩
      rw [Stage.diagnostics_plain free stays shut, read]
      exact own
    · obtain ⟨last, reaches, reported⟩ := ih diagnostic member
      exact ⟨last, .head (.pastPlain free stays shut read) reaches, reported⟩

/-- A run reports what its stages report, and nothing else. -/
theorem Stage.mem_diagnostics_run {diagnostic : Diagnostic} :
    diagnostic ∈ (stage.run finish).diagnostics ↔
      ∃ last, Reaches finish stage last ∧ diagnostic ∈ last.diagnostics finish := by
  constructor
  · exact (stage.runs finish).exists_reported diagnostic
  · rintro ⟨last, reaches, reported⟩
    exact reaches.diagnostics_subset ((last.runs finish).diagnostics_subset reported)

end Runs

end DiagramCheck.Flowchart
