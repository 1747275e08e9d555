/-
# What a series takes of its list

The values of a series stand in square brackets. Numbers and commas may stand there in
any order: every number is a value, and commas are passed over. Anything else is reported.
So the list of a series in a valid source holds nothing but numbers and commas, and the
series has one value for every number, in order. But nobody asks for the commas. Whether the
list is one, with a comma between each two numbers and none at its ends, can be told from
the groups between the commas: each of them must be a single number.

Main statement: `series_takes_numbers`.
-/

import DiagramCheck.Proofs.Chart.Redrawn

namespace DiagramCheck.Chart

/-! ## Statements of a source -/

/-- The items that the statements of a chart begin with below its header, each with what is behind
it. -/
def beginnings (source : String) : List (Item × List Item) :=
  match Layout.items (Token.tokenize source) with
  | [] => []
  | header :: rest =>
    Reading.beginnings (readStatement source.toList (Layout.finish source))
      (readStatement_suffix source.toList (Layout.finish source))
      (Items.skipLine header.line rest)

/-- The items among others that the statements of a chart begin with, each with what is behind
it. -/
def statementsIn (source : String) (items : List Item) : List (Item × List Item) :=
  Reading.beginnings (readStatement source.toList (Layout.finish source))
    (readStatement_suffix source.toList (Layout.finish source)) items

/-- What a statement of a source is read as, if it is not rejected. -/
def value? (source : String) (place : Item × List Item) : Option Statement :=
  (readStatement source.toList (Layout.finish source) place.1 place.2).value

/-- The chart that a source is read as, if it is read as one. -/
def ofSource? (source : String) : Option Chart :=
  (validate source).diagram?.bind fun diagram => diagram.content.chart?

/-- The series that a statement adds. -/
def Statement.series? : Statement → Option Series
  | .series values => some values
  | _ => none

/-- Series add up in the order of their statements. -/
theorem series_ofStatements (horizontal : Bool) (statements : List Statement) :
    (ofStatements horizontal statements).series = statements.filterMap Statement.series? := by
  have adds (chart : Chart) : (statements.foldl apply chart).series =
      chart.series ++ statements.filterMap Statement.series? := by
    induction statements generalizing chart with
    | nil => exact (List.append_nil _).symm
    | cons statement statements ih =>
      rw [List.foldl_cons, ih]
      cases statement with
      | series values => simp [apply, Statement.series?]
      | _ => rfl
  exact (adds _).trans (List.nil_append _)

variable {source : String} {body : Chart} {first : Item} {behind : List Item}

/-- A chart has the series of its source, and nothing is wrong with any statement if the source is
valid. -/
theorem exists_statements (drawn : ofSource? source = some body) :
    body.series = (beginnings source).filterMap
        (fun place => (value? source place).bind Statement.series?) ∧
      (isValid source = true → ∀ place ∈ beginnings source,
        (readStatement source.toList (Layout.finish source) place.1 place.2).diagnostics = []) := by
  obtain ⟨diagram, drawn, content⟩ := Option.bind_eq_some_iff.1 drawn
  obtain ⟨header, rest, family, items, read, clean⟩ := Validation.exists_content drawn
    (by rintro unknown; rw [unknown] at content; cases content)
  rw [read] at content
  unfold beginnings
  rw [items]
  cases family with
  | chart =>
    obtain rfl : (Chart.read source.toList (Layout.finish source) header.toToken rest).value =
      body := Option.some.inj content
    constructor
    · rw [Chart.read, series_ofStatements, statements, Reading.statements_eq_map,
        List.filterMap_map, List.filterMap_filterMap]
      rfl
    · intro valid
      have clean : (Chart.read source.toList (Layout.finish source) header.toToken
        rest).diagnostics = [] := clean valid
      rw [Chart.read, statements, Reading.statements_eq_map, List.append_eq_nil_iff,
        List.flatMap_map, List.flatMap_eq_nil_iff] at clean
      exact clean.1
  | _ => cases content

theorem suffix_of_mem_beginnings (begins : (first, behind) ∈ beginnings source) :
    first :: behind <:+ Layout.items (Token.tokenize source) := by
  unfold beginnings at begins
  split at begins
  · cases begins
  · next header rest items =>
    rw [items]
    exact (Reading.suffix_of_mem_beginnings _ _ begins).trans
      ((Items.skipLine_suffix ..).trans (List.suffix_cons ..))

/-! ## Lists of numbers -/

/-- Numbers with a comma between each two of them. -/
inductive Alternates : List Item → Prop
  | single {item : Item} (number : item.kind = .number) : Alternates [item]
  | cons {item comma : Item} {items : List Item} (number : item.kind = .number)
      (parts : comma.kind = .comma) (rest : Alternates items) :
      Alternates (item :: comma :: items)

theorem Alternates.head {item : Item} {items : List Item} (listed : Alternates (item :: items)) :
    item.kind = .number := by
  cases listed <;> assumption

theorem splitAtCommas_comma {comma : Item} (parts : comma.kind = .comma) (items : List Item) :
    splitAtCommas (comma :: items) = [] :: splitAtCommas items := by
  rw [splitAtCommas, if_pos parts]

/-- What is no comma stands at the front of the first group. -/
theorem exists_splitAtCommas {item : Item} (other : item.kind ≠ .comma) (items : List Item) :
    ∃ group groups, splitAtCommas (item :: items) = (item :: group) :: groups := by
  rw [splitAtCommas, if_neg other]
  split
  · exact ⟨[], [], rfl⟩
  · exact ⟨_, _, rfl⟩

/-- What stands alone in front of a comma is a group. -/
theorem splitAtCommas_alone {item comma : Item} (other : item.kind ≠ .comma)
    (parts : comma.kind = .comma) (items : List Item) :
    splitAtCommas (item :: comma :: items) = [item] :: splitAtCommas items := by
  rw [splitAtCommas, if_neg other, splitAtCommas_comma parts]

/-- Numbers and commas alternate when every group between commas is a single number. -/
theorem alternates_iff : (items : List Item) →
    (∀ item ∈ items, item.kind = .number ∨ item.kind = .comma) →
      (Alternates items ↔ ∀ group ∈ splitAtCommas items, group.length = 1)
  | [], _ => iff_of_false nofun (by simp [splitAtCommas])
  | [item], kinds => by
    rcases List.forall_mem_singleton.1 kinds with number | parts
    · exact iff_of_true (.single number) (by simp [splitAtCommas, number])
    · refine iff_of_false (fun listed => ?_) (by simp [splitAtCommas_comma parts])
      cases parts.symm.trans listed.head
  | item :: next :: items, kinds => by
    obtain ⟨own, kinds⟩ := List.forall_mem_cons.1 kinds
    obtain ⟨second, kinds⟩ := List.forall_mem_cons.1 kinds
    rcases own with number | parts
    · have other : item.kind ≠ .comma := by simp [number]
      rcases second with crowds | parts
      · -- Two numbers in a row are in one group.
        refine iff_of_false (fun listed => ?_) fun single => ?_
        · cases listed with
          | cons _ parts _ => cases crowds.symm.trans parts
        · obtain ⟨group, groups, split⟩ :=
            exists_splitAtCommas (show next.kind ≠ .comma by simp [crowds]) items
          have both : splitAtCommas (item :: next :: items) =
              (item :: next :: group) :: groups := by
            rw [splitAtCommas, if_neg other, split]
          have one := single _ (both ▸ List.mem_cons_self ..)
          cases one
      · rw [splitAtCommas_alone other parts, List.forall_mem_cons,
          ← alternates_iff items kinds]
        constructor
        · rintro (_ | ⟨_, _, rest⟩)
          exact ⟨rfl, rest⟩
        · exact fun rest => .cons number parts rest.2
    · refine iff_of_false (fun listed => ?_) (by simp [splitAtCommas_comma parts])
      cases parts.symm.trans listed.head

/-! ## The list of a series -/

/-- What stands behind the keyword of a series: perhaps a title, and numbers and commas in square
brackets. -/
structure ValueList where
  title : Option Item
  opening : Item
  inside : List Item
  closing : Item
  quoted : ∀ item ∈ title, item.kind = .string
  opens : opening.kind = .opening .square
  values : ∀ item ∈ inside, item.kind = .number ∨ item.kind = .comma
  closes : closing.kind = .closing .square

/-- A list as it stands in the source. -/
def ValueList.items (list : ValueList) : List Item :=
  list.title.toList ++ list.opening :: (list.inside ++ [list.closing])

/-- The numbers of a list, in order. -/
def ValueList.numbers (list : ValueList) : List Item :=
  list.inside.filter (·.kind == .number)

/-- What stands between the brackets can be told from all that stands behind the keyword. -/
theorem ValueList.inside_eq (list : ValueList) (after : List Item) :
    (((list.items ++ after).dropWhile (·.kind == .string)).tail).takeWhile isValueItem =
      list.inside := by
  have titles : ∀ item ∈ list.title.toList, (item.kind == .string) = true := fun item member =>
    beq_iff_eq.2 (list.quoted item (Option.mem_toList.1 member))
  have values : ∀ item ∈ list.inside, isValueItem item = true := by
    simpa [isValueItem] using list.values
  rw [items, List.append_assoc, List.cons_append, List.append_assoc, List.singleton_append,
    (split_of_stops (·.kind == .string) titles (by rw [list.opens]; rfl) _).2, List.tail_cons,
    (split_of_stops isValueItem values (by rw [isValueItem, list.closes]; rfl) _).1]

variable {finish keyword : Token} {kind : SeriesKind} {items : List Item}

/-- Only a string is taken for a title. -/
theorem exists_title (line : Nat) (items : List Item) : ∃ title : Option Item,
    items = title.toList ++ Items.dropIf line (·.kind == .string) items ∧
      ∀ item ∈ title, item.kind = .string := by
  rw [Items.dropIf]
  split
  · next asked =>
    obtain ⟨first, rest, rfl, -, quoted⟩ := Items.exists_of_frontIs asked
    refine ⟨some first, rfl, ?_⟩
    rintro _ ⟨⟩
    exact beq_iff_eq.1 quoted
  · exact ⟨none, rfl, fun _ absent => by cases absent⟩

/-- A list in which nothing is wrong is closed behind its numbers and commas. -/
theorem exists_closing (ended : finish.kind = .endOfInput)
    (clean : (readValues finish keyword kind items).diagnostics = []) :
    ∃ inside closing after, items = inside ++ closing :: after ∧
      (∀ item ∈ inside, isValueItem item = true) ∧ closing.kind = .closing .square := by
  have closes : (Items.front finish (items.dropWhile isValueItem)).kind = .closing .square := by
    by_contra other
    rw [readValues] at clean
    dsimp only at clean
    rw [if_neg other] at clean
    cases clean
  cases stop : items.dropWhile isValueItem with
  | nil =>
    rw [stop, Items.front, ended] at closes
    cases closes
  | cons closing after =>
    rw [stop] at closes
    refine ⟨items.takeWhile isValueItem, closing, after, ?_, ?_, closes⟩
    · rw [← stop, List.takeWhile_append_dropWhile]
    · exact fun item member => List.mem_takeWhile_imp member

/-- A series in which nothing is wrong has the numbers of its list as values. -/
theorem readSeries_of_clean (ended : finish.kind = .endOfInput)
    (clean : (readSeries finish keyword kind items).diagnostics = []) :
    ∃ (list : ValueList) (after : List Item), items = list.items ++ after ∧
      readSeries finish keyword kind items =
        ⟨some (.series ⟨kind, list.inside.filterMap (number? ·.toToken)⟩), [],
          Items.skipLine keyword.line after⟩ := by
  obtain ⟨title, cover, quoted⟩ := exists_title keyword.line items
  rw [readSeries] at clean ⊢
  generalize Items.dropIf keyword.line (·.kind == .string) items = list at cover clean
  split at clean
  · next opened =>
    obtain ⟨opening, rest, rfl, -, opens⟩ := Items.exists_of_frontIs opened
    obtain ⟨inside, closing, after, rfl, values, closes⟩ := exists_closing ended clean
    rw [if_pos opened, List.tail_cons, readValues_closed closes values]
    refine ⟨⟨title, opening, inside, closing, quoted, beq_iff_eq.1 opens, ?_, closes⟩, after, ?_,
      rfl⟩
    · simpa [isValueItem] using values
    · simp [cover, ValueList.items]
  · cases clean

/-- The numbers among the items of a source are literals, and nothing else is read as a number. -/
theorem exists_literals (items : List Item) (cut : ∀ item ∈ items, item.IsCut) :
    ∃ literals : List Literal,
      (items.filter (·.kind == .number)).map (·.word) = literals.map Literal.word ∧
        items.filterMap (number? ·.toToken) = literals.map Literal.value := by
  induction items with
  | nil => exact ⟨[], rfl, rfl⟩
  | cons item items ih =>
    obtain ⟨own, cut⟩ := List.forall_mem_cons.1 cut
    obtain ⟨literals, words, values⟩ := ih cut
    by_cases number : item.kind = .number
    · obtain ⟨literal, same⟩ := own.exists_literal number
      refine ⟨literal :: literals, ?_, ?_⟩
      · simp [number, same, words]
      · simp [number?_literal same, values]
    · have none : number? item.toToken = none := if_neg number
      refine ⟨literals, ?_, ?_⟩
      · simpa [number] using words
      · simpa [none] using values

/-- A series in a valid source has one value for every number of its list, in order, and the list
holds nothing but numbers and commas. So it is empty or has a comma between each two numbers, and
none elsewhere, exactly when it is empty or every group between commas is a single number. -/
theorem series_takes_numbers (drawn : ofSource? source = some body)
    (valid : isValid source = true) :
    body.series = (beginnings source).filterMap
        (fun place => (value? source place).bind Statement.series?) ∧
      ∀ first behind kind, (first, behind) ∈ beginnings source →
        keyword? first = some (.series kind) →
          ∃ (list : ValueList) (after : List Item) (literals : List Literal),
            behind = list.items ++ after ∧
            list.numbers.map (·.word) = literals.map Literal.word ∧
            value? source (first, behind) = some (.series ⟨kind, literals.map Literal.value⟩) ∧
            (list.inside = [] ∨ Alternates list.inside ↔
              list.inside = [] ∨ ∀ group ∈ splitAtCommas list.inside, group.length = 1) := by
  obtain ⟨series, clean⟩ := exists_statements drawn
  refine ⟨series, fun first behind kind begins begun => ?_⟩
  have clean := clean valid _ begins
  have read : readStatement source.toList (Layout.finish source) first behind =
      readSeries (Layout.finish source) first.toToken kind behind :=
    readStatement_of_keyword? begun behind
  rw [read] at clean
  obtain ⟨list, after, cover, value⟩ := readSeries_of_clean rfl clean
  have cut : ∀ item ∈ list.inside, item.IsCut := by
    intro item member
    refine Layout.isCut_of_mem_items source item ((suffix_of_mem_beginnings begins).subset ?_)
    simp [cover, ValueList.items, member]
  obtain ⟨literals, words, values⟩ := exists_literals list.inside cut
  refine ⟨list, after, literals, cover, words, ?_, or_congr_right (alternates_iff _ list.values)⟩
  rw [value?, read, value, values]

/-- The line `bar [1, 2]` is a series of these two numbers. -/
theorem series_takes_numbers_bar :
    ofSource? "xychart-beta\nbar [1, 2]" = some
        ⟨none, false, [], none, [⟨.bar, [⟨0x3ff0000000000000⟩, ⟨0x4000000000000000⟩]⟩]⟩ ∧
      isValid "xychart-beta\nbar [1, 2]" = true ∧
      (⟨⟨.identifier, "bar", ⟨2, 1, 13⟩⟩, true, true⟩,
        [⟨⟨.opening .square, "[", ⟨2, 5, 17⟩⟩, false, false⟩,
          ⟨⟨.number, "1", ⟨2, 6, 18⟩⟩, false, false⟩,
          ⟨⟨.comma, ",", ⟨2, 7, 19⟩⟩, false, false⟩,
          ⟨⟨.number, "2", ⟨2, 9, 21⟩⟩, false, false⟩,
          ⟨⟨.closing .square, "]", ⟨2, 10, 22⟩⟩, false, false⟩]) ∈
        beginnings "xychart-beta\nbar [1, 2]" ∧
      ∃ (list : ValueList) (literals : List Literal),
        list.numbers.map (·.word) = literals.map Literal.word ∧
          literals.map Literal.value = [⟨0x3ff0000000000000⟩, ⟨0x4000000000000000⟩] := by
  let first : Item := ⟨⟨.identifier, "bar", ⟨2, 1, 13⟩⟩, true, true⟩
  let behind : List Item := [⟨⟨.opening .square, "[", ⟨2, 5, 17⟩⟩, false, false⟩,
    ⟨⟨.number, "1", ⟨2, 6, 18⟩⟩, false, false⟩, ⟨⟨.comma, ",", ⟨2, 7, 19⟩⟩, false, false⟩,
    ⟨⟨.number, "2", ⟨2, 9, 21⟩⟩, false, false⟩,
    ⟨⟨.closing .square, "]", ⟨2, 10, 22⟩⟩, false, false⟩]
  have drawn : ofSource? "xychart-beta\nbar [1, 2]" = some
      ⟨none, false, [], none, [⟨.bar, [⟨0x3ff0000000000000⟩, ⟨0x4000000000000000⟩]⟩]⟩ := by
    decide +kernel
  have valid : isValid "xychart-beta\nbar [1, 2]" = true := by decide +kernel
  have begins : (first, behind) ∈ beginnings "xychart-beta\nbar [1, 2]" := by decide +kernel
  obtain ⟨list, after, literals, -, words, value, -⟩ :=
    (series_takes_numbers drawn valid).2 first behind .bar begins (by decide)
  have read : value? "xychart-beta\nbar [1, 2]" (first, behind) =
      some (.series ⟨.bar, [⟨0x3ff0000000000000⟩, ⟨0x4000000000000000⟩]⟩) := by decide +kernel
  have same := Statement.series.inj (Option.some.inj (value.symm.trans read))
  exact ⟨drawn, valid, begins, list, literals, words, (Series.mk.inj same).2⟩

/-- In `bar [1 2]` no comma stands between the numbers. -/
theorem values_without_comma : ¬ ∀ (source : String) (body : Chart),
    ofSource? source = some body → isValid source = true →
      ∀ first behind kind, (first, behind) ∈ beginnings source →
        keyword? first = some (.series kind) →
          ∃ (list : ValueList) (after : List Item), behind = list.items ++ after ∧
            (list.inside = [] ∨ Alternates list.inside) := by
  intro alternates
  let inside : List Item := [⟨⟨.number, "1", ⟨2, 6, 18⟩⟩, false, false⟩,
    ⟨⟨.number, "2", ⟨2, 8, 20⟩⟩, false, false⟩]
  obtain ⟨list, after, cover, listed⟩ := alternates "xychart-beta\nbar [1 2]"
    ⟨none, false, [], none, [⟨.bar, [⟨0x3ff0000000000000⟩, ⟨0x4000000000000000⟩]⟩]⟩
    (by decide +kernel) (by decide +kernel) ⟨⟨.identifier, "bar", ⟨2, 1, 13⟩⟩, true, true⟩
    (⟨⟨.opening .square, "[", ⟨2, 5, 17⟩⟩, false, false⟩ :: inside ++
      [⟨⟨.closing .square, "]", ⟨2, 9, 21⟩⟩, false, false⟩])
    .bar (by decide +kernel) (by decide)
  have same : inside = list.inside := by
    rw [← list.inside_eq after, ← cover]
    decide
  rw [← same] at listed
  rcases listed with empty | listed
  · exact absurd empty (List.cons_ne_nil _ _)
  · have single := (alternates_iff inside (by decide)).1 listed
    exact absurd single (by decide)

end DiagramCheck.Chart
