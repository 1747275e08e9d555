/-
# Plots are read as they were written

A printed plot has no mistakes, and the chart read from it is the one that it stands
for. A statement is read from its row, whatever stands below: a title and a value axis
end with their line, and a list ends at the bracket that closes it, which stands on
the last line of its row. So the statements of the chart are those of the rows, in
order.

Main statements: `validate_printLines` for statements in any order, and
`validate_plot`.
-/

import DiagramCheck.Proofs.Chart.Plot
import DiagramCheck.Proofs.Flowchart.Redrawn

namespace DiagramCheck.Chart

open Flowchart.Drawing (Caption)
open Layout (Stacked)
open Lexeme (StopsWord)

variable {source : List Char} {finish keyword : Token} {later : List Item}

/-! ## Lists -/

/-- Items that are the entries of a list, with a comma between each two of them. -/
inductive Entries {α : Type} (word : α → TokenKind × String) : List α → List Item → Prop
  | nil : Entries word [] []
  | single {entry : α} {item : Item} (same : item.word = word entry) :
      Entries word [entry] [item]
  | cons {entry next : α} {entries : List α} {item comma : Item} {items : List Item}
      (same : item.word = word entry) (parts : comma.kind = .comma)
      (rest : Entries word (next :: entries) items) :
      Entries word (entry :: next :: entries) (item :: comma :: items)

/-- The items of a list are its entries and the bracket that closes it. -/
theorem exists_entries {α : Type} {word : α → TokenKind × String} {entries : List α}
    {items : List Item} (spelled : items.map (·.word) = listWords (entries.map word)) :
    ∃ inside closing, items = inside ++ [closing] ∧ Entries word entries inside ∧
      closing.kind = .closing .square := by
  induction entries generalizing items with
  | nil =>
    obtain ⟨closing, _, rfl, closes, none⟩ := List.map_eq_cons_iff.1 spelled
    obtain rfl := List.map_eq_nil_iff.1 none
    exact ⟨[], closing, rfl, .nil, (Prod.ext_iff.1 closes).1⟩
  | cons entry entries ih =>
    cases entries with
    | nil =>
      obtain ⟨item, _, rfl, same, spelled⟩ := List.map_eq_cons_iff.1 spelled
      obtain ⟨closing, _, rfl, closes, none⟩ := List.map_eq_cons_iff.1 spelled
      obtain rfl := List.map_eq_nil_iff.1 none
      exact ⟨[item], closing, rfl, .single same, (Prod.ext_iff.1 closes).1⟩
    | cons next entries =>
      rw [List.map_cons, List.map_cons, listWords_cons_cons] at spelled
      obtain ⟨item, _, rfl, same, spelled⟩ := List.map_eq_cons_iff.1 spelled
      obtain ⟨comma, _, rfl, parts, spelled⟩ := List.map_eq_cons_iff.1 spelled
      obtain ⟨inside, closing, rfl, rest, closes⟩ := ih spelled
      exact ⟨item :: comma :: inside, closing, rfl, .cons same (Prod.ext_iff.1 parts).1 rest,
        closes⟩

theorem number?_literal {literal : Literal} {item : Item} (same : item.word = literal.word) :
    number? item.toToken = some literal.value := by
  have kind : item.kind = .number := (Prod.ext_iff.1 same).1
  have text : item.text = literal.print := (Prod.ext_iff.1 same).2
  rw [number?, if_pos kind, text, literal.ofText?_print]
  rfl

namespace Entries

/-- Every item of a list is a comma or an entry. -/
theorem kind_cases {α : Type} {word : α → TokenKind × String} {entries : List α}
    {items : List Item} (listed : Entries word entries items) :
    ∀ item ∈ items, item.kind = .comma ∨ ∃ entry, item.word = word entry := by
  induction listed with
  | nil => exact List.forall_mem_nil _
  | single same => exact List.forall_mem_singleton.2 (.inr ⟨_, same⟩)
  | cons same parts _ ih =>
    exact List.forall_mem_cons.2 ⟨.inr ⟨_, same⟩, List.forall_mem_cons.2 ⟨.inl parts, ih⟩⟩

/-- The categories between commas are read one after the other. -/
theorem categories {names : List Category} {items : List Item}
    (listed : Entries Category.word names items) :
    ((splitAtCommas items).map (category source)).filterMap (·.1) = names.map Category.text ∧
      ((splitAtCommas items).map (category source)).flatMap (·.2) = [] := by
  have quoted {name : Category} {item : Item} (same : item.word = name.word) :
      item.kind ≠ .comma ∧ category source [item] = (some name.text, []) := by
    have kind : item.kind = .string := (Prod.ext_iff.1 same).1
    have value : item.value = name.text := Token.value_quoted same
    rw [category, kind, value]
    exact ⟨TokenKind.noConfusion, rfl⟩
  induction listed with
  | nil => exact ⟨rfl, rfl⟩
  | single same =>
    obtain ⟨other, read⟩ := quoted same
    simp [splitAtCommas, other, read]
  | cons same parts _ ih =>
    obtain ⟨other, read⟩ := quoted same
    simp [splitAtCommas, other, parts, read, ih.1, ih.2]

/-- The values between commas are read one after the other. -/
theorem values {values : List Literal} {items : List Item}
    (listed : Entries Literal.word values items) :
    items.filterMap (number? ·.toToken) = values.map Literal.value := by
  induction listed with
  | nil => rfl
  | single same => simp [number?_literal same]
  | @cons _ _ _ _ comma _ same parts _ ih =>
    have none : number? comma.toToken = none := if_neg (by simp [parts])
    simp [number?_literal same, none, ih]

end Entries

/-! ## Bounds -/

/-- What is left of a value axis behind its label: two bounds or nothing. -/
theorem exists_bounds {bounds : Option (Literal × Literal)} {items : List Item}
    (spelled : items.map (·.word) = boundWords bounds) :
    bounds = none ∧ items = [] ∨
      ∃ low high, bounds = some (low, high) ∧ ∃ lowest arrow highest,
        items = [lowest, arrow, highest] ∧ lowest.word = low.word ∧
          arrow.kind = .arrow .plain ∧ highest.word = high.word := by
  cases bounds with
  | none => exact .inl ⟨rfl, List.map_eq_nil_iff.1 spelled⟩
  | some bounds =>
    obtain ⟨lowest, _, rfl, low, spelled⟩ := List.map_eq_cons_iff.1 spelled
    obtain ⟨arrow, _, rfl, points, spelled⟩ := List.map_eq_cons_iff.1 spelled
    obtain ⟨highest, _, rfl, high, none⟩ := List.map_eq_cons_iff.1 spelled
    obtain rfl := List.map_eq_nil_iff.1 none
    exact .inr ⟨_, _, rfl, lowest, arrow, highest, rfl, low, (Prod.ext_iff.1 points).1, high⟩

private theorem readBound_literal (finish : Token) {literal : Literal} {item : Item}
    (same : item.word = literal.word) (beside : item.line = keyword.line) (rest : List Item) :
    readBound finish keyword.line (item :: rest) = ⟨some literal.value, [], rest⟩ := by
  have front : Items.frontIs keyword.line (fun _ => true) (item :: rest) = true := by
    simp [Items.frontIs, beside]
  simp only [readBound, front, if_true, Items.front, number?_literal same, List.tail_cons]

/-! ## Statements -/

/-- What is found in a list up to the first item of some other kind. -/
theorem split_of_stops (test : Item → Bool) {inside : List Item} {closing : Item}
    (passed : ∀ item ∈ inside, test item = true) (stops : test closing = false)
    (behind : List Item) :
    (inside ++ closing :: behind).takeWhile test = inside ∧
      (inside ++ closing :: behind).dropWhile test = closing :: behind := by
  rw [List.takeWhile_append_of_pos passed, List.dropWhile_append_of_pos passed,
    List.takeWhile_cons_of_neg (by simp [stops]), List.dropWhile_cons_of_neg (by simp [stops]),
    List.append_nil]
  exact ⟨rfl, rfl⟩

/-- Numbers and commas are read up to the bracket that closes the list. -/
theorem readValues_closed {kind : SeriesKind} {inside behind : List Item} {closing : Item}
    (closes : closing.kind = .closing .square)
    (passed : ∀ item ∈ inside, isValueItem item = true) :
    readValues finish keyword kind (inside ++ closing :: behind) =
      ⟨some (.series ⟨kind, inside.filterMap (number? ·.toToken)⟩), [],
        Items.skipLine keyword.line behind⟩ := by
  have stops : isValueItem closing = false := by
    rw [isValueItem, closes]
    rfl
  have split := split_of_stops isValueItem passed stops behind
  have recovered : (closing :: behind).dropWhile (fun item => item.kind != .closing .square) =
      closing :: behind := List.dropWhile_cons_of_neg (by simp [closes])
  rw [readValues, split.1, split.2]
  simp only [Items.front, closes, if_true, recovered, List.tail_cons]

/-- A list opens right behind the keyword. -/
theorem opened_list {opening : Item} (opens : opening.kind = .opening .square)
    (beside : opening.line = keyword.line) (rest : List Item) :
    Items.dropIf keyword.line (·.kind == .string) (opening :: rest) = opening :: rest ∧
      Items.frontIs keyword.line (·.kind == .opening .square) (opening :: rest) = true := by
  simp [Items.dropIf, Items.frontIs, opens, beside]

section Below

variable (below : Items.Below keyword.line later)

include below

private theorem skipLine_below : Items.skipLine keyword.line later = later :=
  Items.skipLine_append below []

private theorem readTitle_caption {caption : Caption} {quoted : Item}
    (same : quoted.word = caption.word)
    (beside : quoted.line = keyword.line) :
    readTitle keyword (quoted :: later) = ⟨some (.title (some caption.text)), [], later⟩ := by
  rw [readTitle, Items.onLine_alone below beside, Items.skipLine_alone below beside,
    Caption.ofItems?_eq same]
  rfl

section Opened

variable {opening closing : Item} {inside : List Item} (opens : opening.kind = .opening .square)
  (beside : opening.line = keyword.line) (closes : closing.kind = .closing .square)

include opens beside closes

private theorem readCategories_list {names : List Category}
    (listed : Entries Category.word names inside) :
    readCategories source finish keyword (opening :: (inside ++ closing :: later)) =
      ⟨some (.categories (names.map Category.text)), [], later⟩ := by
  obtain ⟨untitled, opened⟩ := opened_list opens beside (inside ++ closing :: later)
  have passed : ∀ item ∈ inside, (item.kind != .closing .square) = true := by
    intro item member
    rcases listed.kind_cases item member with kind | ⟨name, same⟩
    · rw [kind]
      rfl
    · rw [show item.kind = .string from (Prod.ext_iff.1 same).1]
      rfl
  have stops : (closing.kind != .closing .square) = false := by
    rw [closes]
    rfl
  have split := split_of_stops (fun item => item.kind != .closing .square) passed stops later
  rw [readCategories, untitled, if_pos opened, List.tail_cons, readCategoryList, split.1, split.2,
    listed.categories.1, listed.categories.2, List.tail_cons, skipLine_below below]
  rfl

private theorem readSeries_list {kind : SeriesKind} {values : List Literal}
    (listed : Entries Literal.word values inside) :
    readSeries finish keyword kind (opening :: (inside ++ closing :: later)) =
      ⟨some (.series ⟨kind, values.map Literal.value⟩), [], later⟩ := by
  obtain ⟨untitled, opened⟩ := opened_list opens beside (inside ++ closing :: later)
  have passed : ∀ item ∈ inside, isValueItem item = true := by
    intro item member
    rw [isValueItem]
    rcases listed.kind_cases item member with kind | ⟨literal, same⟩
    · rw [kind]
      rfl
    · rw [show item.kind = .number from (Prod.ext_iff.1 same).1]
      rfl
  rw [readSeries, untitled, if_pos opened, List.tail_cons, readValues_closed closes passed,
    listed.values, skipLine_below below]

end Opened

private theorem readAxisLabel_label (finish : Token) {label : Option Caption}
    {bounds : Option (Literal × Literal)} {labels items : List Item}
    (labelled : labels.map (·.word) = label.toList.map Caption.word)
    (bounded : items.map (·.word) = boundWords bounds)
    (beside : ∀ item ∈ labels, item.line = keyword.line) :
    readAxisLabel finish keyword.line (labels ++ (items ++ later)) =
      ⟨label.map Caption.text, [], items ++ later⟩ := by
  cases label with
  | none =>
    obtain rfl := List.map_eq_nil_iff.1 labelled
    have none : Items.frontIs keyword.line (isAxisLabel ·.toToken) (items ++ later) = false := by
      rw [Items.frontIs_append below]
      rcases exists_bounds bounded with ⟨-, rfl⟩ | ⟨low, high, -, lowest, _, _, rfl, same, -, -⟩
      · rfl
      · -- A number is no label.
        have kind : lowest.kind = .number := (Prod.ext_iff.1 same).1
        simp [Items.frontIs, isAxisLabel, kind]
    rw [List.nil_append, readAxisLabel, none]
    rfl
  | some label =>
    obtain ⟨quoted, _, rfl, same, none⟩ := List.map_eq_cons_iff.1 labelled
    obtain rfl := List.map_eq_nil_iff.1 none
    have kind : quoted.kind = .string := (Prod.ext_iff.1 same).1
    have front : Items.frontIs keyword.line (isAxisLabel ·.toToken)
        ([quoted] ++ (items ++ later)) = true := by
      simp [Items.frontIs, isAxisLabel, kind, beside quoted (List.mem_singleton.2 rfl)]
    rw [readAxisLabel, if_pos front]
    simp only [List.singleton_append, Items.front, Caption.value_eq same, List.tail_cons]
    rfl

private theorem readAxisRange_bounds (finish : Token) {bounds : Option (Literal × Literal)}
    {items : List Item} (bounded : items.map (·.word) = boundWords bounds)
    (beside : ∀ item ∈ items, item.line = keyword.line) :
    readAxisRange finish keyword.line (items ++ later) =
      ⟨bounds.map fun (low, high) => (low.value, high.value), [], later⟩ := by
  rw [readAxisRange, Items.frontIs_append below]
  rcases exists_bounds bounded with ⟨rfl, rfl⟩ | ⟨low, high, rfl, lowest, arrow, highest, rfl,
    first, points, second⟩
  · rfl
  · have front : Items.frontIs keyword.line (fun _ => true) [lowest, arrow, highest] = true := by
      simp [Items.frontIs, beside lowest (by simp)]
    have arrowed : Items.frontIs keyword.line (·.kind == .arrow .plain)
        (arrow :: highest :: later) = true := by
      simp [Items.frontIs, points, beside arrow (by simp)]
    have lower := readBound_literal finish first (beside lowest (by simp))
      (arrow :: highest :: later)
    have upper := readBound_literal finish second (beside highest (by simp)) later
    rw [if_pos front]
    simp only [List.cons_append, List.nil_append, readRange, lower, arrowed, if_true,
      List.tail_cons, upper]
    rfl

private theorem readValueAxis_scale {scale : Scale} {labels items : List Item}
    (labelled : labels.map (·.word) = scale.label.toList.map Caption.word)
    (bounded : items.map (·.word) = boundWords scale.bounds)
    (beside : ∀ item ∈ labels ++ items, item.line = keyword.line) :
    readValueAxis finish keyword (labels ++ items ++ later) =
      ⟨some (.valueAxis scale.axis), [], later⟩ := by
  obtain ⟨above, within⟩ := List.forall_mem_append.1 beside
  have label := readAxisLabel_label below finish labelled bounded above
  have range := readAxisRange_bounds below finish bounded within
  rw [List.append_assoc, readValueAxis, label]
  dsimp only
  rw [range, skipLine_below below, Scale.axis, Option.map_map, Option.map_map]
  rfl

end Below

/-! ## Rows -/

theorem readStatement_of_keyword? {known : Keyword} {first : Item}
    (found : keyword? first = some known) (rest : List Item) :
    readStatement source finish first rest = readKeyword source finish known first rest := by
  have solid : first.kind ≠ .semicolon := by
    rintro semicolon
    rw [keyword?, semicolon] at found
    cases found
  rw [readStatement, if_neg solid, found]

private theorem readStatement_keyword {word : String} {known : Keyword} {first : Item}
    (same : first.word = (.identifier, word)) (begins : first.startsStatement = true)
    (found : Keyword.ofWord? word = some known) (rest : List Item) :
    readStatement source finish first rest = readKeyword source finish known first rest := by
  have kind : first.kind = .identifier := (Prod.ext_iff.1 same).1
  have text : first.text = word := (Prod.ext_iff.1 same).2
  refine readStatement_of_keyword? ?_ rest
  rw [keyword?, kind, begins, text, found]
  rfl

/-- A row with a list holds its keyword and the opening bracket on one line, and behind them the
entries and the bracket that closes the list. -/
theorem exists_list {α : Type} {word : α → TokenKind × String} {entries : List α} {start : Nat}
    {keyword : TokenKind × String} {first : Item} {rest : List Item}
    (spelled : first.word :: rest.map (·.word) =
      [keyword, (.opening .square, "[")] ++ listWords (entries.map word))
    (lines : ∀ item ∈ (first :: rest).take 2, item.line = start) :
    first.word = keyword ∧ first.line = start ∧ ∃ opening inside closing,
      rest = opening :: (inside ++ [closing]) ∧ opening.kind = .opening .square ∧
        opening.line = first.line ∧ closing.kind = .closing .square ∧
          Entries word entries inside := by
  obtain ⟨same, spelled⟩ := List.cons.inj spelled
  obtain ⟨opening, _, rfl, opens, spelled⟩ := List.map_eq_cons_iff.1 spelled
  obtain ⟨inside, closing, rfl, listed, closes⟩ := exists_entries spelled
  have line : first.line = start := lines first (by simp)
  have beside : opening.line = start := lines opening (by simp)
  exact ⟨same, line, opening, inside, closing, rfl, (Prod.ext_iff.1 opens).1,
    beside.trans line.symm, closes, listed⟩

/-- A statement is read from its row, whatever stands below. -/
theorem readStatement_line (source : List Char) (finish : Token) {start : Nat} {own : Line}
    {first : Item} {rest : List Item}
    (row : (Row.line own).Owns start (first :: rest)) (below : Items.Below start later) :
    readStatement source finish first (rest ++ later) = ⟨some own.statement, [], later⟩ := by
  have begins : first.startsStatement = true := row.begins first rfl
  have lines : ∀ item ∈ (first :: rest).take (Row.line own).front.length, item.line = start :=
    fun item member => (row.lines item member).1
  have spelled : first.word :: rest.map (·.word) =
      (Row.line own).front ++ (Row.line own).behind := row.spelled
  cases own with
  | title caption =>
    obtain ⟨same, spelled⟩ := List.cons.inj spelled
    obtain ⟨quoted, _, rfl, captioned, none⟩ := List.map_eq_cons_iff.1 spelled
    obtain rfl := List.map_eq_nil_iff.1 none
    have line : first.line = start := lines first (by simp [Row.front])
    have beside : quoted.line = start := lines quoted (by simp [Row.front])
    rw [readStatement_keyword same begins rfl]
    exact readTitle_caption (by rwa [line]) captioned (beside.trans line.symm)
  | categories names =>
    obtain ⟨same, line, opening, inside, closing, rfl, opens, beside, closes, listed⟩ :=
      exists_list spelled lines
    rw [readStatement_keyword same begins rfl, List.cons_append, List.append_assoc]
    exact readCategories_list (by rwa [line]) opens beside closes listed
  | series data =>
    obtain ⟨same, line, opening, inside, closing, rfl, opens, beside, closes, listed⟩ :=
      exists_list spelled lines
    have known : Keyword.ofWord? data.kind.tag = some (.series data.kind) := by
      cases data.kind <;> rfl
    rw [readStatement_keyword same begins known, List.cons_append, List.append_assoc]
    exact readSeries_list (by rwa [line]) opens beside closes listed
  | valueAxis scale =>
    -- An axis of values is a single row, so all of it stands on that line.
    have beside : ∀ item ∈ first :: rest, item.line = start := by
      have whole : (first :: rest).length = (Row.line (.valueAxis scale)).front.length := by
        have length := congrArg List.length spelled
        simpa [Row.behind] using length
      rwa [List.take_of_length_le whole.le] at lines
    obtain ⟨same, spelled⟩ := List.cons.inj spelled
    obtain ⟨labels, items, rfl, labelled, bounded⟩ :=
      List.map_eq_append_iff.1 (spelled.trans (List.append_nil _))
    obtain ⟨line, beside⟩ := List.forall_mem_cons.1 beside
    rw [readStatement_keyword same begins rfl]
    refine readValueAxis_scale (by rwa [line]) labelled bounded fun item member => ?_
    exact (beside item member).trans line.symm

/-- The statements of some rows are read one after the other. -/
theorem statements_rows (source : List Char) (finish : Token) {start : Nat}
    {lines : List Line} {items : List Item}
    (laid : Stacked Row.print Row.Owns start (lines.map .line) items) :
    (Reading.statements (readStatement source finish) (readStatement_suffix source finish)
        items).map (·.value) = lines.map (some ∘ Line.statement) ∧
      (Reading.statements (readStatement source finish) (readStatement_suffix source finish)
        items).flatMap (·.diagnostics) = [] := by
  induction lines generalizing start items with
  | nil =>
    cases laid
    rw [Reading.statements]
    exact ⟨rfl, rfl⟩
  | cons own lines ih =>
    rw [List.map_cons] at laid
    cases laid with
    | @cons _ _ _ items later row laid above =>
      cases items with
      | nil =>
        -- Every row has a keyword.
        have empty := congrArg List.length row.spelled
        cases own <;> cases empty
      | cons first rest =>
        have line : first.line = start := by
          refine (row.lines first ?_).1
          cases own <;> exact List.mem_cons_self ..
        have read := readStatement_line source finish row (line ▸ above.below)
        obtain ⟨values, silent⟩ := ih laid
        rw [List.cons_append, Reading.statements, read]
        simp only [List.map_cons, List.flatMap_cons, values, silent]
        exact ⟨rfl, rfl⟩

/-! ## Whole plots -/

/-- The header line says whether the chart lies on its side, and nothing else. -/
theorem isHorizontal_header {horizontal : Bool} {start : Nat} {header : Item} {rest : List Item}
    (row : (Row.header horizontal).Owns start (header :: rest))
    (below : Items.Below header.line later) :
    isHorizontal header.toToken (rest ++ later) = horizontal ∧
      Items.skipLine header.line (rest ++ later) = later := by
  have spelled := (List.cons.inj row.spelled).2
  rw [isHorizontal, Items.frontIs_append below, Items.skipLine_append below]
  cases horizontal with
  | false =>
    obtain rfl := List.map_eq_nil_iff.1 spelled
    exact ⟨rfl, rfl⟩
  | true =>
    obtain ⟨turn, _, rfl, worded, none⟩ := List.map_eq_cons_iff.1 spelled
    obtain rfl := List.map_eq_nil_iff.1 none
    have text : turn.text = "horizontal" := (Prod.ext_iff.1 worded).2
    have beside : turn.line = header.line := by
      rw [(row.lines turn (by simp [Row.front])).1, (row.lines header (by simp [Row.front])).1]
    simp [Items.frontIs, Items.skipLine, text, beside]

/-- The items of the rows of a chart are read as its statements make it. -/
theorem read_rows (source : List Char) (finish : Token) {horizontal : Bool}
    {lines : List Line} {start : Nat} {items : List Item}
    (laid : Stacked Row.print Row.Owns start (.header horizontal :: lines.map .line) items)
    (drawn : (ofStatements horizontal (lines.map Line.statement)).series ≠ []) :
    ∃ header rest, items = header :: rest ∧ header.kind = .header .chart ∧
      read source finish header.toToken rest =
        ⟨ofStatements horizontal (lines.map Line.statement), [], []⟩ := by
  cases laid with
  | @cons _ _ _ items later row laid above =>
    obtain ⟨header, rest, rfl, headed, -⟩ := List.map_eq_cons_iff.1 row.spelled
    obtain ⟨values, silent⟩ := statements_rows source finish laid
    have turned := isHorizontal_header row above.below
    have kept : (Reading.statements (readStatement source finish)
        (readStatement_suffix source finish) later).filterMap (·.value) =
          lines.map Line.statement := by
      have kept := congrArg (List.filterMap id) values
      rw [List.filterMap_map, List.filterMap_map] at kept
      exact kept.trans (congrFun List.filterMap_eq_map lines)
    refine ⟨header, rest ++ later, rfl, (Prod.ext_iff.1 headed).1, ?_⟩
    rw [read]
    simp only [statements, turned.1, turned.2, kept, silent, List.isEmpty_iff, drawn, if_false]
    rfl

/-- The header word stands at the start of a chart. -/
theorem exists_header_word (horizontal : Bool) (lines : List Line) :
    ∃ behind, (printLines horizontal lines).toList = "xychart-beta".toList ++ behind ∧
      StopsWord behind := by
  obtain ⟨below, text, stops⟩ : ∃ below, (printLines horizontal lines).toList =
      (Row.header horizontal).print.toList ++ below ∧ StopsWord below := by
    cases lines with
    | nil => exact ⟨[], by simp [printLines], .nil⟩
    | cons own lines =>
      refine ⟨'\n' :: ("\n".intercalate ((Row.line own :: lines.map .line).map Row.print)).toList,
        ?_, .cons (by decide) (by decide) _⟩
      rw [printLines, List.map_cons, List.map_cons, List.map_cons, String.intercalate_cons_cons]
      simp
  cases horizontal with
  | false => exact ⟨below, text, stops⟩
  | true => exact ⟨' ' :: ("horizontal".toList ++ below), text, .blank _⟩

private theorem position_header {horizontal : Bool} {lines : List Line} {header : Item}
    {rest : List Item}
    (items : Layout.items (Token.tokenize (printLines horizontal lines)) = header :: rest) :
    header.position = .start := by
  obtain ⟨behind, text, stops⟩ := exists_header_word horizontal lines
  have spelled : Lexeme.spellsWord "xychart-beta".toList = true := by decide
  have leads := Lexeme.leads_word spelled stops
  have significant : (Token.ofLexeme .identifier "xychart-beta".toList .start).isSignificant =
      true := by decide
  rw [Layout.items, Token.tokenize, text, Token.stream_of_leads leads,
    List.filter_cons_of_pos significant, Layout.place] at items
  rw [← (List.cons.inj items).1]
  rfl

/-- Some printed statements, one of which draws a series, are a chart without mistakes, and it is
the one that they make. -/
theorem validate_printLines (horizontal : Bool) (lines : List Line)
    (drawn : (ofStatements horizontal (lines.map Line.statement)).series ≠ []) :
    validate (printLines horizontal lines) =
      ⟨[], some ⟨.start, .chart (ofStatements horizontal (lines.map Line.statement))⟩⟩ := by
  obtain ⟨laid, silent⟩ := rows_print (.header horizontal :: lines.map .line)
  rw [← printLines] at laid silent
  obtain ⟨header, rest, items, kind, chart⟩ :=
    read_rows (printLines horizontal lines).toList (Layout.finish (printLines horizontal lines))
      laid drawn
  have read : Diagram.read (printLines horizontal lines).toList
      (Layout.finish (printLines horizontal lines)) (header :: rest) =
      ⟨⟨.start, .chart (ofStatements horizontal (lines.map Line.statement))⟩, [], []⟩ := by
    unfold Diagram.read
    dsimp only [Items.front]
    rw [kind]
    dsimp only [TokenKind.family?]
    rw [Diagram.readContent, List.tail_cons, chart, position_header items]
    rfl
  rw [Validation.validate_of_items items, silent, Diagram.readAll_cons, read, Diagram.readAll_nil]
  exact congrArg (Verdict.mk · _) Diagnostic.inSourceOrder_nil

/-- A printed plot is valid, and the chart read from it is the one that it stands for. -/
theorem validate_plot (plot : Plot) :
    (validate plot.print).isValid = true ∧
      (validate plot.print).diagram? = some ⟨.start, .chart plot.chart⟩ := by
  have drawn : (ofStatements plot.horizontal (plot.lines.map Line.statement)).series ≠ [] := by
    rw [ofStatements_lines]
    exact fun none => plot.drawn (List.map_eq_nil_iff.1 none)
  rw [Plot.print, validate_printLines _ _ drawn, ofStatements_lines]
  exact ⟨rfl, rfl⟩

/-- A chart on its side with every kind of statement, as it is written. -/
example :
    (Plot.mk true (some ⟨"Sales", by decide, by decide⟩)
      (some [⟨"jan", by decide⟩, ⟨"feb, mar", by decide⟩])
      (some ⟨some ⟨"Revenue", by decide, by decide⟩,
        some (⟨true, ⟨['1'], by decide, by decide⟩, none⟩,
          ⟨false, ⟨['1', '0'], by decide, by decide⟩, none⟩)⟩)
      [⟨.line, [⟨true, ⟨['2'], by decide, by decide⟩, some ⟨['5'], by decide, by decide⟩⟩,
        ⟨false, ⟨['3'], by decide, by decide⟩, none⟩]⟩] (by simp)).print =
      "xychart-beta horizontal\ntitle \"Sales\"\nx-axis [\"jan\", \"feb, mar\"]\n" ++
        "y-axis \"Revenue\" -1 --> 10\nline [-2.5, 3]" := by
  decide +kernel

end DiagramCheck.Chart
