/-
# Flowcharts that stop short

The readers of a flowchart stop short, and so does a run of elements: what it leaves
over is told by the items before that. The links drawn so far and the element before a
statement matter for what is reported, but not for where reading goes on. So a
flowchart that meets a boundary meets it whatever stands behind the boundary, and the
diagrams before any place of a source end where they end whatever follows the place.

Main statement: `Diagram.read_stopsShort`.
-/

import DiagramCheck.Diagram.Basic
import DiagramCheck.Proofs.Reading.Stopping

namespace DiagramCheck

namespace Flowchart

variable (finish finish' : Token)

/-! ## Nodes and links -/

/-- What is left over behind a name that ends on `line`: a label is taken as well. -/
def leaveLabel (line : Nat) : List Item → List Item
  | [] => []
  | first :: rest =>
    match labelBracket? line first.toToken with
    | none => first :: rest
    | some bracket => Label.leave bracket first.endLine TokenKind.isLink rest

private theorem leaveLabel_stopsShort (line : Nat) :
    StopsShort (leaveLabel line) (leaveLabel line) := by
  refine .of_cons rfl fun first => ?_
  cases opens : labelBracket? line first.toToken with
  | none =>
    have own (rest : List Item) : leaveLabel line (first :: rest) = id (first :: rest) := by
      rw [leaveLabel, opens, id]
    exact ⟨_, _, .refl, own, own⟩
  | some bracket =>
    have own (rest : List Item) : leaveLabel line (first :: rest) =
        Label.leave bracket first.endLine TokenKind.isLink (first :: rest).tail := by
      rw [leaveLabel, opens, List.tail_cons]
    exact ⟨_, _, StopsShort.tail.comp (Label.leave_stopsShort ..), own, own⟩

private theorem rest_readNode (items : List Item) :
    (readNode finish items).rest =
      leaveLabel (Items.peekName finish items).endLine (Items.afterName items) := by
  unfold readNode
  dsimp only
  cases after : Items.afterName items with
  | nil =>
    split
    · rfl
    · rw [Reading.rest_map, Label.rest_read]
      rfl
  | cons first rest =>
    rw [Items.front, leaveLabel]
    cases labelBracket? (Items.peekName finish items).endLine first.toToken with
    | none => rfl
    | some bracket => exact (Reading.rest_map ..).trans (Label.rest_read ..)

private theorem readNode_stopsShort (first : Item) :
    StopsShort (fun rest => (readNode finish (first :: rest)).rest)
      fun rest => (readNode finish' (first :: rest)).rest := by
  refine ⟨readNode_suffix finish first, fun {front left ending} ending' more stopped => ?_⟩
  rw [rest_readNode, ← List.cons_append] at stopped ⊢
  -- The name is over before the end, so it is the same name.
  obtain ⟨between, inside, after⟩ :=
    StopsShort.exists_left more (stopped ▸ (leaveLabel_stopsShort _).suffix _)
  rw [Items.peekName_of_stopped finish finish' inside after,
    Items.afterName_stopsShort.same ending' inside after]
  rw [after] at stopped
  exact (leaveLabel_stopsShort _).same ending' more stopped

private theorem readOptionalLinkLabel_stopsShort (line : Nat) :
    StopsShort (fun items => (readOptionalLinkLabel finish line items).rest)
      fun items => (readOptionalLinkLabel finish' line items).rest := by
  have label : StopsShort (fun items => (readLinkLabel finish line items).rest)
      fun items => (readLinkLabel finish' line items).rest := by
    simp only [readLinkLabel, apply_ite Reading.rest]
    exact (StopsShort.dropWhile _).comp (.dropIf line (·.kind == .pipe))
  simp only [readOptionalLinkLabel, apply_ite Reading.rest]
  exact .ite line _ (StopsShort.tail.comp label) .refl

/-! ## Statements -/

private theorem readPlain_stopsShort (links links' : Nat) (hasSource hasSource' : Bool)
    (first : Item) :
    StopsShort (fun rest => (readPlain finish links hasSource first rest).rest)
      fun rest => (readPlain finish' links' hasSource' first rest).rest := by
  cases decorated : first.decoration? with
  | some decoration =>
    simp only [readPlain, decorated]
    exact .skipLine first.line
  | none =>
    by_cases name : first.isNodeName
    · simp only [readPlain_node decorated name]
      exact readNode_stopsShort ..
    · cases kind : first.kind with
      | arrow shape =>
        cases joins : shape.isLink with
        | true =>
          simp only [readPlain, decorated, kind, joins, if_true]
          exact readOptionalLinkLabel_stopsShort ..
        | false =>
          simp only [readPlain, decorated, kind, joins]
          exact .refl
      | _ =>
        simp only [readPlain, decorated, kind, name]
        exact .refl

/-- What is left over behind the name of a subgraph whose keyword stands on `line`. -/
def leaveTitle (line : Nat) (items : List Item) : List Item :=
  if Items.frontIs line (·.kind == .opening .square) items then
    match items with
    | [] => []
    | first :: rest => Label.leave .square first.endLine (fun _ => false) rest
  else Items.skipLine line items

private theorem rest_readHeading (keyword : Token) (items : List Item) :
    (readHeading finish keyword items).rest =
      if Items.frontIs keyword.line (fun _ => true) items then
        leaveTitle keyword.line (Items.afterName items)
      else items := by
  unfold readHeading leaveTitle
  split
  · dsimp only
    split
    · next opens =>
      obtain ⟨bracket, rest, after, -⟩ := Items.exists_of_frontIs opens
      rw [Reading.rest_map, Label.rest_read, after]
      rfl
    · rfl
  · rfl

private theorem leaveTitle_stopsShort (line : Nat) :
    StopsShort (leaveTitle line) (leaveTitle line) := by
  refine .ite line _ (.of_cons rfl fun first => ?_) (.skipLine line)
  exact ⟨_, _, StopsShort.tail.comp (Label.leave_stopsShort .square first.endLine fun _ => false),
    fun _ => rfl, fun _ => rfl⟩

private theorem readHeading_stopsShort (keyword : Token) :
    StopsShort (fun rest => (readHeading finish keyword rest).rest)
      fun rest => (readHeading finish' keyword rest).rest := by
  simp only [rest_readHeading]
  exact .ite _ _ (Items.afterName_stopsShort.comp (leaveTitle_stopsShort _)) .refl

private theorem skipSubgraph_stopsShort (opened : Nat) :
    StopsShort (skipSubgraph opened) (skipSubgraph opened) := by
  refine ⟨skipSubgraph_suffix opened, fun {front left ending} ending' more stopped => ?_⟩
  induction front generalizing opened with
  | nil =>
    have inside := skipSubgraph_suffix opened ([] ++ ending)
    rw [stopped] at inside
    exact absurd inside (StopsShort.not_suffix more)
  | cons first front ih =>
    rw [List.cons_append, skipSubgraph] at stopped ⊢
    split_ifs at stopped ⊢
    · exact @StopsShort.replace (first :: front) _ _ stopped ending'
    · exact ih _ stopped
    · exact StopsShort.replace stopped ending'
    · exact ih _ stopped
    · exact ih _ stopped

private theorem readDirection_stopsShort (header : Token) :
    StopsShort (fun rest => (readDirection header rest).rest)
      fun rest => (readDirection header rest).rest := by
  refine .of_cons rfl fun first => ?_
  by_cases beside : first.line = header.line ∧ first.kind = .identifier
  · have own (rest : List Item) :
        (readDirection header (first :: rest)).rest = (first :: rest).tail := by
      rw [readDirection, if_pos beside]
      split <;> rfl
    exact ⟨_, _, .tail, own, own⟩
  · have own (rest : List Item) :
        (readDirection header (first :: rest)).rest = id (first :: rest) := by
      rw [readDirection, if_neg beside]
      rfl
    exact ⟨_, _, .refl, own, own⟩

/-! ## Runs -/

/-- What a run leaves over before some items it leaves over whatever these items are, and whatever
is drawn before it. -/
theorem Runs.stopsShort {finish : Token} (finish' : Token) {enclosing enclosing' : Option Token}
    {depth links : Nat} {hasSource : Bool} {items : List Item} {result : Run}
    (runs : Runs finish enclosing depth links hasSource items result)
    (same : enclosing'.isSome = enclosing.isSome) (links' : Nat) (hasSource' : Bool)
    {front left ending : List Item} (ending' : List Item) (split : items = front ++ ending)
    (more : left ≠ []) (stopped : result.rest = left ++ ending) :
    (run finish' enclosing' depth links' hasSource' (front ++ ending')).rest =
      left ++ ending' := by
  induction runs generalizing enclosing' links' hasSource' front left with
  | nil => exact absurd (List.append_eq_nil_iff.1 stopped.symm).1 more
  | boundary own =>
    obtain ⟨front, rfl, rfl⟩ :=
      StopsShort.exists_front more split (stopped ▸ List.suffix_refl _)
    rw [List.cons_append, run_boundary own]
    exact @StopsShort.replace (_ :: front) _ _ stopped ending'
  | closed inside closes =>
    obtain ⟨keyword, rfl⟩ := Option.isSome_iff_exists.1 same
    obtain ⟨front, rfl, rfl⟩ :=
      StopsShort.exists_front more split (stopped ▸ List.suffix_cons ..)
    rw [List.cons_append, run_closed inside closes]
    exact StopsShort.replace stopped ending'
  | unmatched inside closes later ih =>
    cases enclosing' with
    | some _ => cases same
    | none =>
      obtain ⟨front, rfl, rfl⟩ :=
        StopsShort.exists_front more split (stopped ▸ later.suffix.trans (List.suffix_cons ..))
      rw [List.cons_append, run_unmatched inside closes]
      exact ih rfl links' hasSource' rfl more stopped
  | @subgraph _ _ _ _ first _ _ _ inside opens shallow nested later nestedRun laterRun =>
    -- The run behind the subgraph, the elements inside it and its heading stop before the end.
    obtain ⟨behind, behindMore, bodyRest⟩ := StopsShort.exists_left more (stopped ▸ later.suffix)
    obtain ⟨within, withinMore, headingRest⟩ :=
      StopsShort.exists_left behindMore (bodyRest ▸ nested.suffix)
    have suffix := later.suffix.trans (nested.suffix.trans (readHeading_suffix ..))
    obtain ⟨front, rfl, rfl⟩ :=
      StopsShort.exists_front more split (stopped ▸ suffix.trans (List.suffix_cons ..))
    have heading := (readHeading_stopsShort _ finish' first.toToken).same ending' withinMore
      headingRest
    have body := @nestedRun (some first.toToken) rfl links' false _ _ headingRest behindMore
      bodyRest
    rw [← heading] at body
    rw [List.cons_append,
      run_subgraph inside (closesSubgraph_eq_false opens) opens shallow rfl rfl, Run.prepend,
      body]
    exact laterRun same _ true bodyRest more stopped
  | tooDeep inside opens deep later ih =>
    obtain ⟨within, withinMore, skipped⟩ := StopsShort.exists_left more (stopped ▸ later.suffix)
    have suffix := later.suffix.trans (skipSubgraph_suffix ..)
    obtain ⟨front, rfl, rfl⟩ :=
      StopsShort.exists_front more split (stopped ▸ suffix.trans (List.suffix_cons ..))
    rw [List.cons_append, run_tooDeep inside (closesSubgraph_eq_false opens) opens deep,
      (skipSubgraph_stopsShort 1).same ending' withinMore skipped]
    exact ih same links' hasSource' skipped more stopped
  | @plain _ _ links hasSource first _ _ _ inside stays shut read later ih =>
    subst read
    obtain ⟨within, withinMore, plainRest⟩ := StopsShort.exists_left more (stopped ▸ later.suffix)
    have suffix := later.suffix.trans (readPlain_suffix ..)
    obtain ⟨front, rfl, rfl⟩ :=
      StopsShort.exists_front more split (stopped ▸ suffix.trans (List.suffix_cons ..))
    have plain := (readPlain_stopsShort _ finish' links links' hasSource hasSource' first).same
      ending' withinMore plainRest
    rw [List.cons_append, run_plain inside stays shut rfl, Run.prepend, plain]
    exact ih same _ _ plainRest more stopped

private theorem run_stopsShort (enclosing : Option Token) (depth links links' : Nat)
    (hasSource hasSource' : Bool) :
    StopsShort (fun items => (run finish enclosing depth links hasSource items).rest)
      fun items => (run finish' enclosing depth links' hasSource' items).rest :=
  ⟨run_suffix finish enclosing depth links hasSource, fun ending' more stopped =>
    (runs_run finish enclosing depth links hasSource _).stopsShort finish' rfl links' hasSource'
      ending' rfl more stopped⟩

theorem read_stopsShort (header : Token) :
    StopsShort (fun rest => (read finish header rest).rest)
      fun rest => (read finish' header rest).rest :=
  (readDirection_stopsShort header).comp (run_stopsShort finish finish' none 0 0 0 false false)

end Flowchart

namespace Diagram

/-- A diagram that ends before some items ends there whatever these items are, and in whatever
source. -/
theorem read_stopsShort (source source' : List Char) (finish finish' : Token) (first : Item) :
    StopsShort (fun rest => (read source finish (first :: rest)).rest)
      fun rest => (read source' finish' (first :: rest)).rest := by
  cases header : first.kind.family? with
  | none =>
    simp only [read, Items.front, header]
    exact .nothing _
  | some family =>
    simp only [read, Items.front, header, Reading.rest_map, List.tail_cons]
    cases family with
    | flowchart => exact Flowchart.read_stopsShort finish finish' first.toToken
    | _ => exact .nothing _

end Diagram

end DiagramCheck
