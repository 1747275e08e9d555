/-
# Charts

A chart has an optional title, an orientation, a list of categories along one
axis, an optional axis of values with optional bounds, and series of values.
Statements are read in order: a later title, list of categories or value axis
takes the place of an earlier one, and series add up.
-/

import DiagramCheck.Text.Numeral

namespace DiagramCheck

/-- The axis of values. A bound is absent when the renderer picks the range. -/
structure ValueAxis where
  label : Option String
  low : Option Text.Binary64
  high : Option Text.Binary64
  deriving DecidableEq, Repr

/-- How the values of a series are drawn. -/
inductive SeriesKind
  | bar
  | line
  deriving DecidableEq, Repr

/-- The name of a kind of series, as sources write it and results show it. -/
def SeriesKind.tag : SeriesKind → String
  | .bar => "bar"
  | .line => "line"

/-- The values of one series. -/
structure Series where
  kind : SeriesKind
  values : List Text.Binary64
  deriving DecidableEq, Repr

/-- A chart. -/
structure Chart where
  title : Option String
  horizontal : Bool
  categories : List String
  valueAxis : Option ValueAxis
  series : List Series
  deriving DecidableEq, Repr

namespace Chart

/-- The statements of a chart. A title statement without text takes the title away. -/
inductive Statement
  | title (text : Option String)
  | categories (names : List String)
  | valueAxis (axis : ValueAxis)
  | series (values : Series)
  deriving DecidableEq, Repr

/-- A chart with one more statement. -/
def apply (chart : Chart) : Statement → Chart
  | .title text => { chart with title := text }
  | .categories names => { chart with categories := names }
  | .valueAxis axis => { chart with valueAxis := some axis }
  | .series values => { chart with series := chart.series ++ [values] }

/-- The chart without statements. -/
def blank (horizontal : Bool) : Chart := ⟨none, horizontal, [], none, []⟩

/-- The chart that some statements make. -/
def ofStatements (horizontal : Bool) (statements : List Statement) : Chart :=
  statements.foldl apply (blank horizontal)

end Chart

end DiagramCheck
