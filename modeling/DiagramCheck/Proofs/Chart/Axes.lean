/-
# The category axes of a source

What a source is reported for want of quotes comes from the categories of its axes and
from nothing else. A chart runs to the end of the input, so there is at most one, and
only flowcharts stand in front of it. When a category is given in quotes, the axes in
front of it have the groups they had, its own axis has a string in the place of the
category, and the axes behind it have the same groups further on.

Main statements: `unquoted_validate` and `exists_axes_quoted`.
-/

import DiagramCheck.Proofs.Chart.Groups
import DiagramCheck.Proofs.Diagnostic.SourceOrder
import DiagramCheck.Proofs.Flowchart.Stopping
import DiagramCheck.Proofs.Flowchart.Succession

namespace DiagramCheck

open Diagnostic (CodesIn unquoted unquoted_append unquoted_flatMap)

/-- The headers of the diagrams of a source, each with what is behind it. -/
def Diagram.beginnings (source : String) : List (Item × List Item) :=
  Reading.beginnings
    (fun first rest => read source.toList (Layout.finish source) (first :: rest))
    (read_suffix source.toList (Layout.finish source)) (Layout.items (Token.tokenize source))

namespace Chart

/-- The statements behind a header, if it is that of a chart. -/
def statementsOf (source : String) (place : Item × List Item) : List (Item × List Item) :=
  if place.1.kind = .header .chart then
    statementsIn source (Items.skipLine place.1.line place.2)
  else []

/-- A statement that is a category axis. -/
def isAxis (place : Item × List Item) : Bool := keyword? place.1 == some .categories

/-- The category axes in the charts of a source, each with what is behind its keyword. -/
def axes (source : String) : List (Item × List Item) :=
  ((Diagram.beginnings source).flatMap (statementsOf source)).filter isAxis

/-- The groups of an axis; without a list there are none. -/
def entries (axis : Item × List Item) : List (List Item) := (groups? axis.1 axis.2).getD []

/-! ## What is reported of the axes -/

private theorem unquoted_statements {source : List Char} {finish : Token}
    (places : List (Item × List Item)) :
    unquoted (places.flatMap fun place =>
        (readStatement source finish place.1 place.2).diagnostics) =
      (places.filter isAxis).flatMap fun axis => reported source (entries axis) := by
  induction places with
  | nil => rfl
  | cons place places ih =>
    rw [List.flatMap_cons, unquoted_append, ih, List.filter_cons]
    split
    · next axis =>
      rw [List.flatMap_cons, (readStatement_categories (beq_iff_eq.1 axis) place.2).2, entries]
      cases groups? place.1 place.2 <;> rfl
    · next other =>
      rw [(readStatement_codes source (by simpa [isAxis] using other) place.2).unquoted_eq_nil
        (by decide), List.nil_append]

/-- A chart runs to the end of the input. -/
theorem rest_read_chart {source : List Char} {finish : Token} {header : Item} {rest : List Item}
    (chart : header.kind = .header .chart) :
    (Diagram.read source finish (header :: rest)).rest = [] := by
  simp only [Diagram.read, Items.front, chart, TokenKind.family?, Reading.rest_map,
    Diagram.readContent, Chart.read]

private theorem unquoted_read (source : String) (place : Item × List Item) :
    unquoted (Diagram.read source.toList (Layout.finish source)
        (place.1 :: place.2)).diagnostics =
      ((statementsOf source place).filter isAxis).flatMap fun axis =>
        reported source.toList (entries axis) := by
  unfold statementsOf
  split
  · next chart =>
    have missing (diagnostics : List Diagnostic) (token : Token) (none : Bool) :
        unquoted (diagnostics ++
          if none then [Diagnostic.atToken token .chartWithoutData] else []) =
            unquoted diagnostics := by
      refine (unquoted_append ..).trans ((congrArg _ ?_).trans (List.append_nil _))
      cases none <;> rfl
    simp only [Diagram.read, Items.front, chart, TokenKind.family?, Reading.diagnostics_map,
      Diagram.readContent, Chart.read, missing, statements, Reading.statements_eq_map,
      List.flatMap_map, List.tail_cons]
    exact unquoted_statements _
  · next other =>
    have codesIn := @Diagram.read_codes (Layout.finish source) source.toList
      (place.1 :: place.2) other
    exact codesIn.unquoted_eq_nil (by decide)

/-- A source with nothing to read asks for a header. -/
theorem codes_of_no_items {source : String} (none : Layout.items (Token.tokenize source) = []) :
    CodesIn (.emptyInput :: .inlineCommentNotSupported :: Diagram.codes)
      (validate source).diagnostics := by
  unfold validate
  split
  · intro diagnostic member
    rw [List.mem_singleton.1 member]
    exact .head _
  · intro diagnostic member
    have member := (Diagnostic.perm_inSourceOrder _).mem_iff.1 member
    have lexical := Layout.lexicalDiagnosticsAfter_codes Option.none (Token.tokenize source)
    have header := @Diagram.read_codes (Layout.finish source) source.toList [] nofun
    rw [Validation.found, Validation.diagrams, none] at member
    rcases List.mem_append.1 member with member | absent
    · exact (lexical.mono (by decide)).append (header.mono (by decide)) diagnostic member
    · cases Diagram.readAll_nil source.toList (Layout.finish source) ▸ absent

/-- What is reported of a source for want of quotes is what is reported of the groups of its
category axes. -/
theorem unquoted_validate (source : String) :
    (unquoted (validate source).diagnostics).Perm
      (reported source.toList ((axes source).flatMap entries)) := by
  rw [reported, List.flatMap_assoc, axes, Diagram.beginnings, List.filter_flatMap,
    List.flatMap_assoc]
  cases items : Layout.items (Token.tokenize source) with
  | nil =>
    rw [Reading.beginnings, List.flatMap_nil, List.perm_nil]
    exact (codes_of_no_items items).unquoted_eq_nil (by decide)
  | cons header rest =>
    rw [Validation.validate_of_items items]
    have lexical := (Layout.lexicalDiagnosticsAfter_codes none
      (Token.tokenize source)).unquoted_eq_nil (by decide)
    refine ((Diagnostic.perm_inSourceOrder _).filter _).trans (.of_eq ?_)
    refine (unquoted_append ..).trans ?_
    rw [Layout.lexicalDiagnostics, lexical, List.nil_append, Diagram.readAll,
      Reading.statements_eq_map, List.flatMap_map, unquoted_flatMap]
    simp only [unquoted_read]
    rfl

/-! ## Where the groups stand -/

private theorem entries_statements_sublist (source : String) (items : List Item) :
    (((statementsIn source items).filter isAxis).flatMap entries).flatten.Sublist items := by
  unfold statementsIn
  fun_induction Reading.beginnings (readStatement source.toList (Layout.finish source))
    (readStatement_suffix source.toList (Layout.finish source)) items with
  | case1 => exact .slnil
  | case2 first rest ih =>
    have later := ih.trans (readStatement_suffix source.toList _ first rest).sublist
    rw [List.filter_cons]
    split
    · next axis =>
      refine .cons _ ?_
      rw [List.flatMap_cons, List.flatten_append, entries]
      cases found : groups? first rest with
      | none => exact later
      | some groups =>
        have own := groups_sublist (beq_iff_eq.1 axis) found
        rw [← @rest_readStatement (Layout.finish source) source.toList] at own
        exact (ih.append_left _).trans own
    · exact later.cons _

/-- The groups of all axes stand one behind the other. -/
theorem entries_sublist (source : String) :
    ((axes source).flatMap entries).flatten.Sublist (Layout.items (Token.tokenize source)) := by
  unfold axes Diagram.beginnings
  generalize Layout.items (Token.tokenize source) = items
  fun_induction Reading.beginnings
    (fun first rest => Diagram.read source.toList (Layout.finish source) (first :: rest))
    (Diagram.read_suffix source.toList (Layout.finish source)) items with
  | case1 => exact .slnil
  | case2 header rest ih =>
    have later := ih.trans (Diagram.read_suffix _ (Layout.finish source) header rest).sublist
    rw [List.flatMap_cons, statementsOf]
    split
    · next chart =>
      rw [rest_read_chart chart, Reading.beginnings, List.flatMap_nil, List.append_nil]
      exact (entries_statements_sublist source _).trans
        ((Items.skipLine_suffix ..).sublist.trans (List.sublist_cons_self ..))
    · exact later.cons _

/-! ## Categories in quotes -/

section Quoted

variable {bytes : Nat}

/-- A statement further on. -/
def SlidPlace (bytes : Nat) (place place' : Item × List Item) : Prop :=
  Item.Slid bytes place.1 place'.1 ∧ List.Forall₂ (Item.Slid bytes) place.2 place'.2

/-- Items further on are read as the same statements. -/
theorem statementsIn_slid (source source' : String) {items items' : List Item}
    (slid : List.Forall₂ (Item.Slid bytes) items items') :
    List.Forall₂ (SlidPlace bytes) (statementsIn source items) (statementsIn source' items') := by
  unfold statementsIn
  fun_induction Reading.beginnings (readStatement source.toList (Layout.finish source))
    (readStatement_suffix source.toList (Layout.finish source)) items generalizing items' with
  | case1 =>
    cases slid
    rw [Reading.beginnings]
    exact .nil
  | case2 first rest ih =>
    cases slid with
    | cons own later =>
      rw [Reading.beginnings]
      refine .cons ⟨own, later⟩ (ih ?_)
      rw [rest_readStatement, rest_readStatement]
      exact leave_slid later own

private theorem filter_isAxis_slid {places places' : List (Item × List Item)}
    (slid : List.Forall₂ (SlidPlace bytes) places places') :
    List.Forall₂ (SlidPlace bytes) (places.filter isAxis) (places'.filter isAxis) := by
  induction slid with
  | nil => exact .nil
  | cons own _ ih =>
    rw [List.filter_cons, List.filter_cons, isAxis, isAxis, keyword?_slid own.1]
    split
    · exact .cons own ih
    · exact ih

end Quoted

private theorem filter_passed (passed : List (Item × List Item)) (ending : List Item) :
    (passed.map (Reading.placeBefore ending)).filter isAxis =
      (passed.filter isAxis).map (Reading.placeBefore ending) :=
  List.filter_map ..

/-- No diagram that stops short is a chart, and a chart is the last diagram. -/
theorem flatMap_statementsOf {source source' : String} {ending ending' body inside : List Item}
    {passed : List (Item × List Item)} {header : Item}
    (each : ∀ place ∈ passed, ∃ left, left ≠ [] ∧
      (Diagram.read source.toList (Layout.finish source) (place.1 :: (place.2 ++ ending))).rest =
        left ++ ending)
    (chart : header.kind = .header .chart)
    (skipped : Items.skipLine header.line (body ++ ending') = inside ++ ending') :
    (passed.map (Reading.placeBefore ending') ++ (header, body ++ ending') ::
        Reading.beginnings
          (fun first rest => Diagram.read source'.toList (Layout.finish source') (first :: rest))
          (Diagram.read_suffix source'.toList (Layout.finish source'))
          (Diagram.read source'.toList (Layout.finish source')
            (header :: (body ++ ending'))).rest).flatMap (statementsOf source') =
      statementsIn source' (inside ++ ending') := by
  have flowcharts :
      (passed.map (Reading.placeBefore ending')).flatMap (statementsOf source') = [] := by
    rw [List.flatMap_map, List.flatMap_eq_nil_iff]
    intro place member
    obtain ⟨left, more, stopped⟩ := each place member
    refine if_neg fun chart => more ?_
    have chart : place.1.kind = .header .chart := chart
    rw [rest_read_chart chart] at stopped
    exact (List.append_eq_nil_iff.1 stopped.symm).1
  rw [List.flatMap_append, flowcharts, List.nil_append, List.flatMap_cons, rest_read_chart chart,
    Reading.beginnings, List.flatMap_nil, List.append_nil, statementsOf, if_pos chart, skipped]

/-- The statements in front of some items: only the chart that they belong to has any, and what it
reads is the same up to these items whatever they are. -/
theorem exists_statements_before {source : String} {axis : Item} {behind ending : List Item}
    (listed : (axis, behind ++ ending) ∈
      (Diagram.beginnings source).flatMap (statementsOf source)) :
    ∃ former inside, Layout.items (Token.tokenize source) = former ++ axis :: (behind ++ ending) ∧
      (Diagram.beginnings source).flatMap (statementsOf source) =
        statementsIn source (inside ++ ending) ∧
      ∀ (source' : String) (ending' : List Item),
        Layout.items (Token.tokenize source') = former ++ axis :: (behind ++ ending') →
          (Diagram.beginnings source').flatMap (statementsOf source') =
            statementsIn source' (inside ++ ending') := by
  obtain ⟨⟨header, body⟩, begins, listed⟩ := List.mem_flatMap.1 listed
  rw [statementsOf] at listed
  -- Only a chart has statements; it begins in front of the items and reads up to them.
  split at listed
  · next chart =>
    have more : axis :: behind ≠ [] := List.cons_ne_nil _ _
    have suffix : axis :: behind ++ ending <:+ _ := Reading.suffix_of_mem_beginnings _ _ listed
    obtain ⟨inside, room, skipped⟩ := StopsShort.exists_left more suffix
    obtain ⟨body, -, rfl⟩ :=
      StopsShort.exists_left more (suffix.trans (Items.skipLine_suffix header.line body))
    have within := Reading.suffix_of_mem_beginnings _ _ begins
    obtain ⟨former, split⟩ := (suffix.trans (Items.skipLine_suffix header.line _)).trans
      ((List.suffix_cons header _).trans within)
    have split : (former ++ axis :: behind) ++ ending =
        Layout.items (Token.tokenize source) := by
      rw [← split, List.append_assoc]
    rw [Diagram.beginnings, ← split] at begins
    obtain ⟨passed, each, own, other⟩ := Reading.exists_passed begins
    refine ⟨former, inside, by simp [← split], ?_, fun source' ending' same => ?_⟩
    · rw [Diagram.beginnings, ← split, own,
        flatMap_statementsOf (fun place member => (each place member).2) chart skipped]
    · have skipped := (StopsShort.skipLine header.line).same ending' room skipped
      rw [Diagram.beginnings, same, ← List.cons_append, ← List.append_assoc,
        other _ _ ending' (Diagram.read_stopsShort _ source'.toList _ (Layout.finish source')),
        flatMap_statementsOf (fun place member => (each place member).2) chart skipped]
  · cases listed

/-- A category of an axis stands behind a bracket or a comma. With a string in its place the axes in
front of its own have the groups they had, its own axis has the string in its place, and the groups
behind it are the same further on. -/
theorem exists_axes_quoted {source : String} {axis : Item} {rest group : List Item}
    {left right : List (List Item)} (listed : (axis, rest) ∈ axes source)
    (found : groups? axis rest = some (left ++ group :: right)) :
    ∃ former latter front mark later, axes source = former ++ (axis, rest) :: latter ∧
      Layout.items (Token.tokenize source) = front ++ mark :: (group ++ later) ∧
      (mark.kind = .comma ∨ mark.kind = .opening .square) ∧
      (∀ next ∈ later.head?, next.kind ≠ .identifier) ∧
      ∀ {mended : String} {bytes : Nat} {quoted : Item} {later' : List Item},
        quoted.kind = .string → List.Forall₂ (Item.Slid bytes) later later' →
        Layout.items (Token.tokenize mended) = front ++ mark :: quoted :: later' →
          ∃ former' rest' right' latter', axes mended = former' ++ (axis, rest') :: latter' ∧
            List.Forall₂ (fun place place' => groups? place'.1 place'.2 = groups? place.1 place.2)
              former former' ∧
            groups? axis rest' = some (left ++ [quoted] :: right') ∧
            List.Forall₂ (List.Forall₂ (Item.Slid bytes)) right right' ∧
            List.Forall₂ (SlidPlace bytes) latter latter' := by
  obtain ⟨listed, known⟩ := List.mem_filter.1 listed
  have begun : keyword? axis = some .categories := beq_iff_eq.1 known
  obtain ⟨before, mark, later, rfl, opens, apart, replaced⟩ := exists_group begun found
  rw [List.append_cons] at listed
  -- Up to the category both sources are read alike, statement by statement.
  obtain ⟨front, inside, items, own, other⟩ := exists_statements_before listed
  rw [own] at listed
  rw [statementsIn] at own listed
  obtain ⟨passed, each, parted, parted'⟩ := Reading.exists_passed listed
  refine ⟨(passed.filter isAxis).map (Reading.placeBefore (group ++ later)),
    (statementsIn source (leave axis (before ++ mark :: (group ++ later)))).filter isAxis,
    front ++ axis :: before, mark, later, ?_, by simp [items], opens, apart,
    fun {mended bytes quoted later'} string slid items' => ?_⟩
  · rw [axes, own, parted, List.filter_append, filter_passed, ← List.append_cons,
      List.filter_cons_of_pos known, rest_readStatement]
    rfl
  · have statements := other mended (quoted :: later') (by simp [items'])
    rw [statementsIn, parted' _ _ _
      (readStatement_stopsShort _ mended.toList _ (Layout.finish mended))] at statements
    obtain ⟨⟨right', groups, behind⟩, leaves⟩ := replaced string slid
    refine ⟨(passed.filter isAxis).map (Reading.placeBefore (quoted :: later')),
      before ++ mark :: quoted :: later', right', _, ?_, ?_, groups, behind,
      filter_isAxis_slid (statementsIn_slid source mended leaves)⟩
    · have known : isAxis (axis, before ++ mark :: quoted :: later') = true := known
      rw [axes, statements, List.filter_append, filter_passed, ← List.append_cons,
        List.filter_cons_of_pos known, rest_readStatement]
      rfl
    · -- The axes in front end before the category, so what stands behind them does not matter.
      rw [List.forall₂_map_left_iff, List.forall₂_map_right_iff, List.forall₂_same]
      intro place member
      obtain ⟨member, known⟩ := List.mem_filter.1 member
      obtain ⟨-, left, more, stopped⟩ := each place member
      rw [rest_readStatement] at stopped
      exact groups?_of_stopped more (beq_iff_eq.1 known) stopped _

end Chart

end DiagramCheck
