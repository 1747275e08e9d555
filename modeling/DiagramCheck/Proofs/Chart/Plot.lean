/-
# Plots

A plot is a chart as one would write it down: a header that may turn it on its side,
then perhaps a title, a list of categories and a value axis, and one series of values
or more. All texts stand between double quotes, so a category may hold newlines,
commas, brackets or what would begin a comment elsewhere. All numbers are literals.

A plot prints as one row of text for each statement. Every row is read as the words it
was printed from, and the words that decide how it is read, the keyword and the bracket
behind it, stand on one line.

Main statement: `rows_print`.
-/

import DiagramCheck.Chart.Tree
import DiagramCheck.Proofs.Flowchart.Printed
import DiagramCheck.Proofs.Token.Number

namespace DiagramCheck.Chart

open Flowchart.Drawing (Caption)
open Layout (FromRow IsQuiet Stacked isQuiet_of_kind)
open Lexeme (StopsNumber StopsWord)

/-! ## Plots -/

/-- A text that can stand between double quotes, on one line or more. -/
@[ext]
structure Category where
  text : String
  unquoted : '"' ∉ text.toList
  deriving Repr

instance : DecidableEq Category := fun _ _ => decidable_of_iff _ Category.ext_iff.symm

/-- What is written of a value axis. -/
structure Scale where
  label : Option Caption
  bounds : Option (Literal × Literal)
  deriving DecidableEq, Repr

/-- What is written of a series. -/
structure Data where
  kind : SeriesKind
  values : List Literal
  deriving DecidableEq, Repr

/-- A statement of a plot. -/
inductive Line
  | title (caption : Caption)
  | categories (names : List Category)
  | valueAxis (scale : Scale)
  | series (data : Data)
  deriving DecidableEq, Repr

/-- A row of a plot: its header, which may turn it on its side, or a statement. -/
inductive Row
  | header (horizontal : Bool)
  | line (line : Line)
  deriving DecidableEq, Repr

/-- A plot. -/
structure Plot where
  horizontal : Bool
  title : Option Caption
  categories : Option (List Category)
  valueAxis : Option Scale
  series : List Data
  drawn : series ≠ []
  deriving DecidableEq, Repr

/-! ## Printing -/

/-- A category as it is written. -/
def Category.print (category : Category) : String := Text.quoted category.text

/-- A list as it is written: its entries in brackets, with a comma and a blank between them. -/
def printList {α : Type} (print : α → String) (entries : List α) : String :=
  "[" ++ ", ".intercalate (entries.map print) ++ "]"

/-- A value axis as it is written. -/
def Scale.print (scale : Scale) : String :=
  "y-axis" ++ (scale.label.elim "" fun label => " " ++ label.print) ++
    scale.bounds.elim "" fun (low, high) => " " ++ low.print ++ " --> " ++ high.print

/-- A statement as it is written. -/
def Line.print : Line → String
  | .title caption => "title " ++ caption.print
  | .categories names => "x-axis " ++ printList Category.print names
  | .valueAxis scale => scale.print
  | .series data => data.kind.tag ++ " " ++ printList Literal.print data.values

/-- A row as it is written. -/
def Row.print : Row → String
  | .header horizontal => if horizontal then "xychart-beta horizontal" else "xychart-beta"
  | .line own => own.print

/-- Some statements below a header, as they are written. -/
def printLines (horizontal : Bool) (lines : List Line) : String :=
  "\n".intercalate ((.header horizontal :: lines.map .line : List Row).map Row.print)

namespace Plot

/-- The statements of a plot in the order in which they are written. -/
def lines (plot : Plot) : List Line :=
  plot.title.toList.map .title ++ plot.categories.toList.map .categories ++
    plot.valueAxis.toList.map .valueAxis ++ plot.series.map .series

/-- A plot as it is written. -/
def print (plot : Plot) : String := printLines plot.horizontal plot.lines

end Plot

/-! ## What a plot stands for -/

/-- The value axis that a scale stands for. -/
def Scale.axis (scale : Scale) : ValueAxis :=
  ⟨scale.label.map Caption.text, scale.bounds.map (·.1.value), scale.bounds.map (·.2.value)⟩

/-- The series that some data stand for. -/
def Data.toSeries (data : Data) : Series := ⟨data.kind, data.values.map Literal.value⟩

/-- The statement that a line stands for. -/
def Line.statement : Line → Statement
  | .title caption => .title (some caption.text)
  | .categories names => .categories (names.map Category.text)
  | .valueAxis scale => .valueAxis scale.axis
  | .series data => .series data.toSeries

/-- The chart that a plot stands for. -/
def Plot.chart (plot : Plot) : Chart where
  title := plot.title.map Caption.text
  horizontal := plot.horizontal
  categories := (plot.categories.getD []).map Category.text
  valueAxis := plot.valueAxis.map Scale.axis
  series := plot.series.map Data.toSeries

private theorem foldl_apply_series (data : List Data) (chart : Chart) :
    (data.map fun data => Statement.series data.toSeries).foldl apply chart =
      { chart with series := chart.series ++ data.map Data.toSeries } := by
  induction data generalizing chart with
  | nil => simp
  | cons first data ih =>
    rw [List.map_cons, List.foldl_cons, ih]
    simp [apply]

/-- The statements of a plot make its chart. -/
theorem ofStatements_lines (plot : Plot) :
    ofStatements plot.horizontal (plot.lines.map Line.statement) = plot.chart := by
  have series : plot.series.map (Line.statement ∘ Line.series) =
      plot.series.map fun data => Statement.series data.toSeries := rfl
  simp only [Plot.lines, List.map_append, List.map_map, series, ofStatements, List.foldl_append,
    foldl_apply_series]
  obtain ⟨horizontal, _ | title, _ | names, _ | scale, data, drawn⟩ := plot <;> rfl

/-! ## The words of a row -/

/-- The word of a category. -/
def Category.word (category : Category) : TokenKind × String := (.string, category.print)

/-- The words of a list behind its opening bracket. -/
def listWords (entries : List (TokenKind × String)) : List (TokenKind × String) :=
  entries.intersperse (.comma, ",") ++ [(.closing .square, "]")]

/-- The words of the bounds of a value axis. -/
def boundWords (bounds : Option (Literal × Literal)) : List (TokenKind × String) :=
  bounds.elim [] fun (low, high) => [low.word, (.arrow .plain, "-->"), high.word]

/-- The words of a row that stand on its first line for sure. -/
def Row.front : Row → List (TokenKind × String)
  | .header horizontal =>
    (.header .chart, "xychart-beta") ::
      if horizontal then [(.identifier, "horizontal")] else []
  | .line (.title caption) => [(.identifier, "title"), caption.word]
  | .line (.categories _) => [(.identifier, "x-axis"), (.opening .square, "[")]
  | .line (.valueAxis scale) =>
    (.identifier, "y-axis") :: (scale.label.toList.map Caption.word ++ boundWords scale.bounds)
  | .line (.series data) => [(.identifier, data.kind.tag), (.opening .square, "[")]

/-- The words of a row behind those. -/
def Row.behind : Row → List (TokenKind × String)
  | .line (.categories names) => listWords (names.map Category.word)
  | .line (.series data) => listWords (data.values.map Literal.word)
  | _ => []

private theorem spells_comma (behind : List Char) : Spells [','] behind [(.comma, ",")] :=
  Spells.of_leads ⟨_, _, rfl, rfl, rfl⟩ nofun

/-! ## Lists -/

/-- Entries with commas between them and the bracket that closes their list. -/
def entriesText {α : Type} (print : α → String) (entries : List α) : List Char :=
  (", ".intercalate (entries.map print)).toList ++ [']']

private theorem toList_printList {α : Type} (print : α → String) (entries : List α) :
    (printList print entries).toList = '[' :: entriesText print entries := by
  rw [printList, String.toList_append, String.toList_append]
  rfl

private theorem entriesText_cons_cons {α : Type} (print : α → String) (first second : α)
    (rest : List α) :
    entriesText print (first :: second :: rest) =
      (print first).toList ++ ([','] ++ ' ' :: entriesText print (second :: rest)) := by
  rw [entriesText, entriesText, List.map_cons, List.map_cons, String.intercalate_cons_cons]
  simp

theorem listWords_cons_cons (first second : TokenKind × String)
    (rest : List (TokenKind × String)) :
    listWords (first :: second :: rest) =
      [first] ++ ([(.comma, ",")] ++ listWords (second :: rest)) := rfl

/-- A way to write the entries of a list: each is one word before a comma or the closing bracket,
and none begins like an opening bracket. -/
structure IsEntry {α : Type} (print : α → String) (word : α → TokenKind × String) : Prop where
  spells : ∀ entry c behind, c = ',' ∨ c = ']' →
    Spells (print entry).toList (c :: behind) [word entry]
  begins : ∀ entry, ∃ c text, (print entry).toList = c :: text ∧ c ≠ '['

section List

variable {α : Type} {print : α → String} {word : α → TokenKind × String}
  (each : IsEntry print word)

include each

private theorem IsEntry.spells_entries (entries : List α) :
    Spells (entriesText print entries) [] (listWords (entries.map word)) := by
  induction entries with
  | nil => exact Spells.closing_square
  | cons entry entries ih =>
    cases entries with
    | nil =>
      rw [entriesText, List.map_singleton, String.intercalate_singleton]
      exact (each.spells entry ']' [] (.inr rfl)).append Spells.closing_square
    | cons next entries =>
      rw [entriesText_cons_cons, List.map_cons, List.map_cons, listWords_cons_cons]
      exact (each.spells entry ',' _ (.inl rfl)).append ((spells_comma _).append ih.blank)

private theorem IsEntry.head?_entriesText (entries : List α) :
    ∀ c ∈ (entriesText print entries).head?, c ≠ '[' := by
  cases entries with
  | nil =>
    rintro _ ⟨⟩
    decide
  | cons entry entries =>
    obtain ⟨c, text, begins, other⟩ := each.begins entry
    have front : (entriesText print (entry :: entries)).head? = some c := by
      cases entries with
      | nil => rw [entriesText, List.map_singleton, String.intercalate_singleton, begins]; rfl
      | cons next entries => rw [entriesText_cons_cons, begins]; rfl
    rw [front]
    rintro _ ⟨⟩
    exact other

/-- A keyword and the bracket that opens a list behind it. -/
theorem IsEntry.spells_front {keyword : List Char} {first : TokenKind × String}
    (spelled : ∀ behind, Spells keyword (' ' :: behind) [first]) (entries : List α) :
    Spells (keyword ++ [' ', '[']) (entriesText print entries)
      [first, (.opening .square, "[")] :=
  (spelled _).append (Spells.opening_square (each.head?_entriesText entries)).blank

end List

private theorem Category.isEntry : IsEntry Category.print Category.word where
  spells category c behind _ := .quoted category.unquoted (c :: behind)
  begins category := ⟨'"', _, Text.toList_quoted category.text, by decide⟩

private theorem Literal.isEntry : IsEntry Literal.print Literal.word where
  spells literal c behind ends := by
    refine literal.spells ?_
    rcases ends with rfl | rfl
    · exact .cons (by decide) (by decide) _
    · exact .cons (by decide) (by decide) _
  begins literal := by
    obtain ⟨c, text, split, begins⟩ := literal.exists_print
    refine ⟨c, text, split, ?_⟩
    rintro rfl
    rcases begins with digit | minus
    · cases digit
    · cases minus

/-! ## Rows -/

/-- A row as it is written, with a front of one line. -/
structure Row.Splits (row : Row) (front behind : List Char) : Prop where
  text : row.print.toList = front ++ behind
  spelled : Spells front behind row.front
  single : '\n' ∉ front
  later : Spells behind [] row.behind

/-- The bounds of a value axis as they are written. -/
def boundsText (bounds : Option (Literal × Literal)) : List Char :=
  bounds.elim [] fun (low, high) =>
    ' ' :: (low.print.toList ++ ' ' :: ("-->".toList ++ ' ' :: high.print.toList))

private theorem spells_boundsText (bounds : Option (Literal × Literal)) :
    Spells (boundsText bounds) [] (boundWords bounds) := by
  cases bounds with
  | none => exact .nil
  | some bounds =>
    obtain ⟨low, high⟩ := bounds
    have arrow (behind : List Char) :
        Spells "-->".toList (' ' :: behind) [(.arrow .plain, "-->")] :=
      Spells.of_leads ⟨_, _, rfl, rfl, rfl⟩ nofun
    have last : Spells high.print.toList [] [high.word] :=
      high.spells fun _ absent => by cases absent
    exact ((low.spells (.blank _)).append ((arrow _).append last.blank).blank).blank

/-- The label of a value axis as it is written. -/
def labelText (label : Option Caption) : List Char :=
  label.elim [] fun label => ' ' :: label.print.toList

private theorem spells_labelText (label : Option Caption) (behind : List Char) :
    Spells (labelText label) behind (label.toList.map Caption.word) := by
  cases label with
  | none => exact fun place => ⟨[], .done, rfl⟩
  | some label => exact (label.spells behind).blank

theorem Scale.toList_print (scale : Scale) :
    scale.print.toList = "y-axis".toList ++ (labelText scale.label ++ boundsText scale.bounds) := by
  obtain ⟨_ | label, _ | bounds⟩ := scale <;> simp [print, labelText, boundsText]

theorem Scale.spells (scale : Scale) :
    Spells scale.print.toList [] (Row.line (.valueAxis scale)).front := by
  have stops : StopsWord (labelText scale.label ++ boundsText scale.bounds) := by
    obtain ⟨_ | label, _ | bounds⟩ := scale
    · exact .nil
    all_goals exact .blank _
  have keyword : Spells "y-axis".toList (labelText scale.label ++ boundsText scale.bounds ++ [])
      [(.identifier, "y-axis")] := by
    rw [List.append_nil]
    exact Spells.of_word (by decide) stops
  rw [scale.toList_print]
  exact keyword.append ((spells_labelText _ _).append (spells_boundsText _))

theorem Scale.newline_not_mem (scale : Scale) : '\n' ∉ scale.print.toList := by
  rw [scale.toList_print]
  obtain ⟨_ | label, _ | bounds⟩ := scale
  · decide
  · simp [labelText, boundsText, bounds.1.newline_not_mem, bounds.2.newline_not_mem]
  · simp [labelText, boundsText, label.newline_not_mem]
  · simp [labelText, boundsText, label.newline_not_mem, bounds.1.newline_not_mem,
      bounds.2.newline_not_mem]

private theorem Row.splits_of_single {row : Row} (none : row.behind = [])
    (spelled : Spells row.print.toList [] row.front) (single : '\n' ∉ row.print.toList) :
    row.Splits row.print.toList [] :=
  ⟨(List.append_nil _).symm, spelled, single, none ▸ .nil⟩

private theorem Row.exists_splits (row : Row) : ∃ front behind, row.Splits front behind := by
  cases row with
  | header horizontal =>
    refine ⟨_, _, Row.splits_of_single rfl ?_ (by cases horizontal <;> decide)⟩
    cases horizontal with
    | false => exact Spells.of_word (by decide) .nil
    | true =>
      have header : Spells "xychart-beta".toList (' ' :: "horizontal".toList)
          [(.header .chart, "xychart-beta")] := Spells.of_word (by decide) (.blank _)
      have turned : Spells "horizontal".toList [] [(.identifier, "horizontal")] :=
        Spells.of_word (by decide) .nil
      exact header.append turned.blank
  | line own =>
    cases own with
    | title caption =>
      have text : (Row.line (.title caption)).print.toList =
          "title".toList ++ ' ' :: caption.print.toList := by simp [Row.print, Line.print]
      have keyword : Spells "title".toList (' ' :: caption.print.toList)
          [(.identifier, "title")] := Spells.of_word (by decide) (.blank _)
      refine ⟨_, _, Row.splits_of_single rfl ?_ ?_⟩
      · rw [text]
        rw [← List.append_nil (' ' :: _)] at keyword
        exact keyword.append (caption.spells []).blank
      · rw [text]
        simp [caption.newline_not_mem]
    | valueAxis scale => exact ⟨_, _, Row.splits_of_single rfl scale.spells scale.newline_not_mem⟩
    -- A list may go on below its row, so only the keyword and the bracket are in front.
    | categories names =>
      refine ⟨"x-axis".toList ++ [' ', '['], entriesText Category.print names, ?_,
        Category.isEntry.spells_front (fun behind => ?_) names, by decide,
        Category.isEntry.spells_entries names⟩
      · simp [Row.print, Line.print, toList_printList]
      · exact Spells.of_word (by decide) (.blank _)
    | series data =>
      refine ⟨data.kind.tag.toList ++ [' ', '['], entriesText Literal.print data.values, ?_,
        Literal.isEntry.spells_front (fun behind => ?_) data.values, ?_,
        Literal.isEntry.spells_entries data.values⟩
      · simp [Row.print, Line.print, toList_printList]
      · cases data.kind <;> exact Spells.of_word (by decide) (.blank _)
      · cases data.kind <;> decide

/-- The words of a row can be read off it when nothing stands behind it. -/
theorem Row.spells (row : Row) : Spells row.print.toList [] (row.front ++ row.behind) := by
  obtain ⟨front, behind, splits⟩ := row.exists_splits
  have first := splits.spelled
  rw [← List.append_nil behind] at first
  rw [splits.text]
  exact first.append splits.later

private theorem isQuiet_listWords {entries : List (TokenKind × String)}
    (quiet : ∀ word ∈ entries, IsQuiet word) : ∀ word ∈ listWords entries, IsQuiet word := by
  induction entries with
  | nil => simp [listWords, isQuiet_of_kind]
  | cons entry entries ih =>
    obtain ⟨own, quiet⟩ := List.forall_mem_cons.1 quiet
    cases entries with
    | nil => simp [listWords, own, isQuiet_of_kind]
    | cons next entries =>
      rw [listWords_cons_cons]
      refine List.forall_mem_cons.2 ⟨own, List.forall_mem_cons.2 ⟨?_, ih quiet⟩⟩
      exact isQuiet_of_kind (by simp) _

private theorem isQuiet_literal (literal : Literal) : IsQuiet literal.word :=
  isQuiet_of_kind (by simp) _

theorem Scale.isQuiet (scale : Scale) :
    ∀ word ∈ (Row.line (.valueAxis scale)).front, IsQuiet word := by
  obtain ⟨label, bounds⟩ := scale
  have labelled : ∀ word ∈ label.toList.map Caption.word, IsQuiet word := by
    cases label with
    | none => exact List.forall_mem_nil _
    | some label => exact List.forall_mem_singleton.2 label.isQuiet
  have bounded : ∀ word ∈ boundWords bounds, IsQuiet word := by
    cases bounds with
    | none => exact List.forall_mem_nil _
    | some bounds => simp [boundWords, isQuiet_literal, isQuiet_of_kind]
  exact List.forall_mem_cons.2
    ⟨isQuiet_of_kind (by simp) _, List.forall_mem_append.2 ⟨labelled, bounded⟩⟩

theorem Row.isQuiet (row : Row) : ∀ word ∈ row.front ++ row.behind, IsQuiet word := by
  refine List.forall_mem_append.2 ⟨?_, ?_⟩
  · cases row with
    | header horizontal => cases horizontal <;> simp [front, isQuiet_of_kind]
    | line own =>
      cases own with
      | title caption => simp [front, caption.isQuiet, isQuiet_of_kind]
      | categories names => simp [front, isQuiet_of_kind]
      | valueAxis scale => exact scale.isQuiet
      | series data => simp [front, isQuiet_of_kind]
  · cases row with
    | header horizontal => exact List.forall_mem_nil _
    | line own =>
      cases own with
      | title caption => exact List.forall_mem_nil _
      | valueAxis scale => exact List.forall_mem_nil _
      | categories names =>
        refine isQuiet_listWords (List.forall_mem_map.2 fun name _ => ?_)
        exact Layout.isQuiet_quoted name.text
      | series data =>
        exact isQuiet_listWords (List.forall_mem_map.2 fun literal _ => isQuiet_literal literal)

/-- Items that are those of a row which begins on a line. -/
def Row.Owns (line : Nat) (row : Row) (items : List Item) : Prop :=
  FromRow line row.front row.behind items

/-- The items of some printed rows are those of each row, and no rule for comments, strings and
directives objects to them. -/
theorem rows_print (rows : List Row) :
    Stacked Row.print Row.Owns 1 rows
        (Layout.items (Token.tokenize ("\n".intercalate (rows.map Row.print)))) ∧
      Layout.lexicalDiagnostics
        (Token.tokenize ("\n".intercalate (rows.map Row.print))) = [] := by
  refine Layout.stacked_print (fun exact row => row.moved exact) Row.spells Row.isQuiet
    (fun row => ?_) rows
  obtain ⟨front, behind, splits⟩ := row.exists_splits
  exact Layout.fromRow_of_spells splits.text splits.spelled splits.single splits.later row.isQuiet

end DiagramCheck.Chart
