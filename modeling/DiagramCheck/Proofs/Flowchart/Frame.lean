/-
# Flowcharts with something below

A flowchart in which nothing is wrong is read the same whether the input ends
behind it or another diagram begins there. Where a reader looks for something that
is missing at the end of the input it reports that, so a reader that reports
nothing has found what it looked for before it came to what stands below. The end
of the input and a header that begins a line both end a run of elements.

Main statements: `Runs.append` for runs of elements and `read_append` for whole
flowcharts.
-/

import DiagramCheck.Flowchart.Basic
import DiagramCheck.Proofs.Flowchart.Nesting
import DiagramCheck.Proofs.Flowchart.Run
import DiagramCheck.Proofs.Reading.Lines

namespace DiagramCheck

open Items (Above Below)

/-- A search that finds something does not see what is put behind the list. -/
theorem takeWhile_append_of_found {α : Type} {test : α → Bool} {first : List α} (second : List α)
    (found : first.dropWhile test ≠ []) :
    (first ++ second).takeWhile test = first.takeWhile test ∧
      (first ++ second).dropWhile test = first.dropWhile test ++ second := by
  induction first with
  | nil => exact absurd rfl found
  | cons a first ih =>
    rw [List.dropWhile_cons] at found
    rw [List.cons_append, List.takeWhile_cons, List.takeWhile_cons, List.dropWhile_cons,
      List.dropWhile_cons]
    split
    · next passed =>
      rw [if_pos passed] at found
      rw [(ih found).1, (ih found).2]
      exact ⟨rfl, rfl⟩
    · exact ⟨rfl, rfl⟩

private theorem Items.front_append (finish finish' : Token) {items : List Item} (more : items ≠ [])
    (later : List Item) : front finish' (items ++ later) = front finish items := by
  cases items with
  | nil => exact absurd rfl more
  | cons => rfl

variable {finish finish' : Token} {first : Item} {rest later : List Item}

/-! ## Labels and decorations -/

/-- A label that is closed ends at its bracket, whatever stands behind. -/
theorem Label.read_append {owner : Token} {bracket : Bracket} {line : Nat}
    {stops : TokenKind → Bool} {items : List Item} (finished : finish.kind = .endOfInput)
    (clean : (read finish owner bracket line stops items).diagnostics = []) (later : List Item) :
    read finish' owner bracket line stops (items ++ later) =
      (read finish owner bracket line stops items).extend later := by
  simp only [read] at clean ⊢
  split at clean
  · next closed =>
    have found : items.dropWhile (isInside bracket line) ≠ [] := by
      intro none
      rw [none, Items.front, finished] at closed
      cases closed
    obtain ⟨words, after⟩ := takeWhile_append_of_found later found
    rw [words, after, Items.front_append finish finish' found, if_pos closed, if_pos closed,
      List.tail_append_of_ne_nil found]
    rfl
  · cases clean

namespace Decoration

variable {links : Nat} {keyword found : Token} {line : List Item}

private theorem linkStyleProblems_congr (clean : linkStyleProblems links keyword found line = [])
    (found' : Token) : linkStyleProblems links keyword found' line = [] := by
  cases line with
  | nil => cases clean
  | cons first rest =>
    rw [linkStyleProblems] at clean ⊢
    split_ifs at clean ⊢
    · rfl
    · exact clean

/-- What is next in the source matters only for a link style without a number. -/
theorem diagnostics_congr {decoration : Decoration} {family : Family}
    (clean : decoration.diagnostics family links keyword found line = [] ∨
      linkStyle.isLegalIn family = false) (found' : Token) :
    decoration.diagnostics family links keyword found' line =
      decoration.diagnostics family links keyword found line := by
  cases decoration with
  | linkStyle =>
    cases legal : linkStyle.isLegalIn family with
    | true =>
      simp only [diagnostics, legal, if_true, Bool.true_eq_false, or_false] at clean ⊢
      exact (linkStyleProblems_congr clean found').trans clean.symm
    | false =>
      simp only [diagnostics, legal, Bool.false_eq_true, if_false]
  | _ => rfl

/-- A decoration is read to the end of its line, whatever stands below. -/
theorem read_append {decoration : Decoration} {family : Family}
    (below : Below keyword.line later)
    (clean : (decoration.read finish family links keyword rest).diagnostics = [] ∨
      linkStyle.isLegalIn family = false) :
    decoration.read finish' family links keyword (rest ++ later) =
      (decoration.read finish family links keyword rest).extend later := by
  rw [read] at clean
  rw [read, read, Items.onLine_append below, Items.skipLine_append below,
    diagnostics_congr clean]
  rfl

end Decoration

namespace Flowchart

/-! ## Statements -/

section Statements

variable {next : Item} {more : List Item} (above : Above (first :: rest) (next :: more))

include above

private theorem readNode_append (boundary : isBoundary next = true)
    (finished : finish.kind = .endOfInput)
    (clean : (readNode finish (first :: rest)).diagnostics = []) :
    readNode finish' (first :: rest ++ next :: more) =
      (readNode finish (first :: rest)).extend (next :: more) := by
  simp only [readNode] at clean ⊢
  rw [Items.peekName_append above finish finish', Items.afterName_append above]
  cases behind : Items.afterName (first :: rest) with
  | nil =>
    -- Neither the end of the input nor a header opens a label.
    have header : ∀ bracket, next.kind ≠ .opening bracket := by
      intro bracket opens
      rw [isBoundary, opens] at boundary
      cases boundary
    have unlabelled (line : Nat) :
        labelBracket? line next.toToken = none ∧ labelBracket? line finish = none := by
      constructor
      · unfold labelBracket?
        split
        · next kind => exact absurd kind (header _)
        · rfl
      · simp only [labelBracket?, finished]
    rw [List.nil_append, Items.front, Items.front, (unlabelled _).1, (unlabelled _).2]
    rfl
  | cons opened words =>
    rw [behind] at clean
    rw [Items.front_append finish finish' (List.cons_ne_nil opened words)]
    split
    · rfl
    · next bracket opens =>
      rw [opens] at clean
      rw [List.tail_append_of_ne_nil (List.cons_ne_nil opened words),
        Label.read_append finished clean]
      rfl

omit above in
/-- The label of a link ends on its line. -/
theorem readLinkLabel_append {line : Nat} (below : Below line (next :: more)) {items : List Item}
    (clean : (readLinkLabel finish line items).diagnostics = []) :
    readLinkLabel finish' line (items ++ next :: more) =
      (readLinkLabel finish line items).extend (next :: more) := by
  obtain ⟨taken, dropped⟩ := takeWhile_append_of_stops items
    (below.stops fun item => item.kind != .pipe)
  unfold readLinkLabel at clean ⊢
  dsimp only at clean ⊢
  rw [taken, dropped, Items.frontIs_append below]
  split at clean
  · next closed =>
    rw [if_pos closed, if_pos closed]
    obtain ⟨closing, after, behind, -, -⟩ := Items.exists_of_frontIs closed
    rw [behind]
    rfl
  · cases clean

private theorem readOptionalLinkLabel_append
    (clean : (readOptionalLinkLabel finish first.line rest).diagnostics = []) :
    readOptionalLinkLabel finish' first.line (rest ++ next :: more) =
      (readOptionalLinkLabel finish first.line rest).extend (next :: more) := by
  rw [readOptionalLinkLabel] at clean
  rw [readOptionalLinkLabel, readOptionalLinkLabel, Items.frontIs_append above.below]
  split
  · next opened =>
    rw [if_pos opened] at clean
    obtain ⟨pipe, words, rfl, -, -⟩ := Items.exists_of_frontIs opened
    exact readLinkLabel_append above.below clean
  · rfl

private theorem destination?_append {items : List Item} (suffix : items <:+ rest) :
    destination? finish' first.line (items ++ next :: more) =
      destination? finish first.line items := by
  rw [destination?, destination?, Items.frontIs_append above.below]
  cases items with
  | nil => rfl
  | cons name after =>
    rw [Items.peekName_append (above.of_cons.suffix suffix) finish finish']

private theorem readLink_append {shape : Arrow}
    (clean : (readLink finish shape first.toToken rest).diagnostics = []) :
    readLink finish' shape first.toToken (rest ++ next :: more) =
      (readLink finish shape first.toToken rest).extend (next :: more) := by
  have labelled : readOptionalLinkLabel finish' first.line (rest ++ next :: more) = _ :=
    readOptionalLinkLabel_append above (List.append_eq_nil_iff.1 clean).1
  have target : destination? finish' first.line
      ((readOptionalLinkLabel finish first.line rest).extend (next :: more)).rest =
        destination? finish first.line (readOptionalLinkLabel finish first.line rest).rest :=
    destination?_append above (readOptionalLinkLabel_suffix ..)
  simp only [readLink, labelled, target]
  rfl

/-- A plain statement with nothing wrong is read the same whatever diagram follows. -/
theorem readPlain_append (boundary : isBoundary next = true) (finished : finish.kind = .endOfInput)
    {links : Nat} {hasSource : Bool}
    (clean : (readPlain finish links hasSource first rest).diagnostics = []) :
    readPlain finish' links hasSource first (rest ++ next :: more) =
      (readPlain finish links hasSource first rest).extend (next :: more) := by
  -- A decoration and a link end on their line. Only a node can be left open there, and then it is
  -- reported.
  cases decorated : first.decoration? with
  | some decoration =>
    simp only [readPlain, decorated, Reading.diagnostics_map] at clean ⊢
    rw [Decoration.read_append above.below (.inl clean)]
    rfl
  | none =>
    cases name : first.isNodeName with
    | true =>
      rw [readPlain_node decorated name] at clean
      rw [readPlain_node decorated name, readPlain_node decorated name, ← List.cons_append,
        readNode_append above boundary finished clean]
      rfl
    | false =>
      simp only [readPlain, decorated, name, Bool.false_eq_true, if_false] at clean ⊢
      split at clean
      · rfl
      · split at clean
        · next link =>
          rw [if_pos link, if_pos link, readLink_append above (List.append_eq_nil_iff.1 clean).2]
          rfl
        · cases clean
      · cases clean

/-- The heading of a subgraph stands on its line. -/
theorem readHeading_append (finished : finish.kind = .endOfInput)
    (clean : (readHeading finish first.toToken rest).diagnostics = []) :
    readHeading finish' first.toToken (rest ++ next :: more) =
      (readHeading finish first.toToken rest).extend (next :: more) := by
  rw [readHeading] at clean
  rw [readHeading, readHeading, Items.frontIs_append above.below]
  split
  · next named =>
    rw [if_pos named] at clean
    obtain ⟨name, after, rfl, -, -⟩ := Items.exists_of_frontIs named
    rw [Items.peekName_append above.of_cons finish finish',
      Items.afterName_append above.of_cons]
    dsimp only at clean ⊢
    rw [Items.frontIs_append above.below]
    split
    · next titled =>
      rw [if_pos titled] at clean
      obtain ⟨bracket, words, behind, -, -⟩ := Items.exists_of_frontIs titled
      rw [behind, Items.front, List.tail_cons] at clean
      rw [behind, List.cons_append, List.tail_cons, List.tail_cons, Items.front, Items.front,
        Label.read_append finished clean]
      rfl
    · rw [Items.onLine_append above.below, Items.skipLine_append above.below]
      rfl
  · next unnamed =>
    rw [if_neg unnamed] at clean
    cases clean

private theorem readDirection_append :
    readDirection first.toToken (rest ++ next :: more) =
      (readDirection first.toToken rest).extend (next :: more) := by
  cases rest with
  | nil =>
    have other : next.line ≠ first.line :=
      (above.below next (List.mem_cons_self ..)).ne'
    simp [readDirection, other, Reading.extend]
  | cons word after =>
    rw [List.cons_append, readDirection, readDirection]
    split
    · split <;> rfl
    · rfl

end Statements

/-! ## Runs -/

/-- A run that leaves over more. -/
def Run.extend (run : Run) (later : List Item) : Run := { run with rest := run.rest ++ later }

/-- A run with nothing wrong is read the same whatever diagram follows. -/
theorem Runs.append {next : Item} {more : List Item} (boundary : isBoundary next = true)
    (finished : finish.kind = .endOfInput) {enclosing : Option Token} {depth links : Nat}
    {hasSource : Bool} {items : List Item} {result : Run}
    (runs : Runs finish enclosing depth links hasSource items result)
    (above : Above items (next :: more)) (clean : result.diagnostics = []) :
    run finish' enclosing depth links hasSource (items ++ next :: more) =
      result.extend (next :: more) := by
  -- By induction on the derivation. At the end of the input no subgraph is open, and so the header
  -- below ends the run as well.
  induction runs with
  | @nil enclosing =>
    cases enclosing with
    | none => exact run_boundary boundary
    | some keyword => cases clean
  | boundary own => exact run_boundary own
  | closed inside closes => exact run_closed inside closes
  | unmatched => cases clean
  | @subgraph enclosing depth links hasSource first rest body run inside opens shallow
      nestedRuns _ nested later =>
    obtain ⟨own, laterClean⟩ := List.append_eq_nil_iff.1 clean
    obtain ⟨headingClean, bodyClean⟩ := List.append_eq_nil_iff.1 own
    have suffix := readHeading_suffix finish first.toToken rest
    have heading : readHeading finish' first.toToken (rest ++ next :: more) = _ :=
      readHeading_append above finished headingClean
    have behind := nestedRuns.suffix.trans suffix
    rw [List.cons_append, run_subgraph inside (closesSubgraph_eq_false opens) opens shallow
      heading (nested (above.of_cons.suffix suffix) bodyClean)]
    exact congrArg (Run.prepend · _ _) (later (above.of_cons.suffix behind) laterClean)
  | tooDeep => cases clean
  | @plain enclosing depth links hasSource first rest plain run inside stays shut read _ ih =>
    subst read
    obtain ⟨own, laterClean⟩ := List.append_eq_nil_iff.1 clean
    have suffix := readPlain_suffix finish links hasSource first rest
    have statement : readPlain finish' links hasSource first (rest ++ next :: more) = _ :=
      readPlain_append above boundary finished own
    rw [List.cons_append, run_plain inside stays shut statement]
    exact congrArg (Run.prepend · _ _) (ih (above.of_cons.suffix suffix) laterClean)

/-! ## Neighbours -/

section Neighbours

variable {items : List Item}

private theorem separated_append {first second : Node}
    (behind : ∀ next ∈ later, second.position.offset ≤ next.offset) :
    separated (items ++ later) first second = separated items first second := by
  have stops : ∀ next ∈ later, decide (next.offset < second.position.offset) = false :=
    fun next member => decide_eq_false (Nat.not_lt.2 (behind next member))
  rw [separated, separated, List.dropWhile_append]
  split
  · next none =>
    -- The second node is the last thing in the items.
    rw [List.isEmpty_iff.1 none]
    exact congrArg (List.any · _) (takeWhile_append_of_stops [] fun next member =>
      stops next ((List.dropWhile_suffix _).subset member)).1
  · rw [(takeWhile_append_of_stops _ stops).1]

private theorem neighbourDiagnostics_append {elements : List Element}
    (behind : ∀ element ∈ elements, ∀ next ∈ later, element.position.offset ≤ next.offset) :
    neighbourDiagnostics (items ++ later) elements = neighbourDiagnostics items elements := by
  induction elements with
  | nil => rfl
  | cons first elements ih =>
    cases elements with
    | nil => rfl
    | cons second elements =>
      rw [neighbourDiagnostics, neighbourDiagnostics,
        ih fun element member => behind element (List.mem_cons_of_mem _ member)]
      congr 1
      unfold pairDiagnostics
      split
      · next second =>
        rw [separated_append (behind (.node second) (by simp))]
      · rfl

/-- Whether neighbours are joined is decided by what stands between them. -/
theorem connectionDiagnostics_append {elements : List Element}
    (behind : ∀ element ∈ Element.flattenAll elements,
      ∀ next ∈ later, element.position.offset ≤ next.offset) :
    connectionDiagnostics (items ++ later) elements = connectionDiagnostics items elements := by
  rw [connectionDiagnostics_eq, connectionDiagnostics_eq]
  refine List.flatMap_congr fun list inside => ?_
  exact neighbourDiagnostics_append fun element member =>
    behind element (Element.subset_flattenAll_of_mem_allLists inside member)

end Neighbours

/-- A flowchart with nothing wrong is read the same whatever diagram follows. -/
theorem read_append {next : Item} {more : List Item} (above : Above (first :: rest) (next :: more))
    (boundary : isBoundary next = true) (finished : finish.kind = .endOfInput)
    (clean : (read finish first.toToken rest).diagnostics = []) :
    read finish' first.toToken (rest ++ next :: more) =
      (read finish first.toToken rest).extend (next :: more) := by
  obtain ⟨own, -⟩ := List.append_eq_nil_iff.1 clean
  have suffix := readDirection_suffix first.toToken rest
  have runs := runs_run finish none 0 0 false (readDirection first.toToken rest).rest
  have content : run finish' none 0 0 false
      ((readDirection first.toToken rest).rest ++ next :: more) = _ :=
    runs.append boundary finished (above.of_cons.suffix suffix) (List.append_eq_nil_iff.1 own).2
  -- Every element begins with an item of the flowchart, and these end above the next diagram.
  have behind : ∀ element ∈ Element.flattenAll
      (run finish none 0 0 false (readDirection first.toToken rest).rest).elements,
      ∀ below ∈ next :: more, element.position.offset ≤ below.offset := by
    intro element member below behind
    obtain ⟨before, start, after, split, -, begins⟩ := runs.begins element member
    have inside : start ∈ rest := suffix.subset (by rw [split]; simp)
    have ends := (above.of_cons start inside below behind).2
    rw [begins.position]
    exact (Nat.le_add_right ..).trans ends.le
  rw [read, read, readDirection_append above]
  simp only [Reading.extend]
  rw [content]
  simp only [Run.extend]
  rw [connectionDiagnostics_append behind]

end Flowchart

end DiagramCheck
