/-
# TOML values

A table remembers how it came to be, because that decides how it may grow. A
header names a table once, though tables inside it may have been named before.
Dotted keys add to tables that dotted keys made, and an inline table is
complete where it is written. An array of tables grows by headers, and a path
through it leads to its last table.

Text and truth values are kept as values, numbers by their form and moments as
they were written. A value is readable when every number in it has a value.
-/

import DiagramCheck.Toml.Number

namespace DiagramCheck.Toml

/-- How a table came to be. -/
inductive Origin
  /-- Named only on the way to a table inside it. -/
  | implied
  /-- Named by a header. -/
  | header
  /-- Named by a dotted key. -/
  | dotted
  /-- Written in braces. -/
  | inline
  deriving DecidableEq, Repr

/-- A value. -/
inductive Value
  | text (value : String)
  | truth (value : Bool)
  | number (number : Number)
  | moment (written : String)
  | list (items : List Value)
  | table (origin : Origin) (entries : List (String × Value))
  | tables (earlier : List Value) (last : List (String × Value))
  deriving Repr

/-- The entries of a table, in order of definition. -/
abbrev Entries := List (String × Value)

mutual

/-- Whether every number in a value has a value. -/
def Value.isReadable : Value → Bool
  | .text _ | .truth _ | .moment _ => true
  | .number number => number.hasValue
  | .list items => Value.areReadable items
  | .table _ entries => Entries.areReadable entries
  | .tables earlier last => Value.areReadable earlier && Entries.areReadable last

/-- Whether values are readable. -/
def Value.areReadable : List Value → Bool
  | [] => true
  | value :: rest => value.isReadable && Value.areReadable rest

/-- Whether the values of entries are readable. -/
def Entries.areReadable : List (String × Value) → Bool
  | [] => true
  | entry :: rest => Value.isReadableEntry entry && Entries.areReadable rest

/-- Whether the value of an entry is readable. -/
def Value.isReadableEntry : String × Value → Bool
  | (_, value) => value.isReadable

end

namespace Entries

/-- Puts a value in the place of the one a key has. -/
def replace (key : String) (value : Value) (entries : Entries) : Entries :=
  entries.map fun entry => if entry.1 = key then (key, value) else entry

end Entries

/-- The two ways of naming a table inside a table. -/
inductive Way
  | header
  | dotted
  deriving DecidableEq, Repr

namespace Way

/-- The origin of a table that a path names first. -/
def origin : Way → Origin
  | .header => .implied
  | .dotted => .dotted

/-- Whether a path may lead through a table. -/
def enters : Way → Origin → Bool
  | .header, origin => origin != .inline
  | .dotted, origin => origin == .implied || origin == .dotted

end Way

namespace Entries

/-- Changes the table at the end of a path, and makes the tables on the way that are missing.
There is no such table when the path runs into anything else. -/
def descend (way : Way) (change : Origin → Entries → Option Entries) :
    (path : List String) → Origin → Entries → Option Entries
  | [], origin, entries => change origin entries
  | step :: path, _, entries =>
    match entries.lookup step with
    | none => do
      let inner ← descend way change path way.origin []
      some (entries ++ [(step, .table way.origin inner)])
    | some (.table origin inner) =>
      if way.enters origin then do
        let inner ← descend way change path origin inner
        some (entries.replace step (.table origin inner))
      else none
    | some (.tables earlier last) => do
      let last ← descend way change path .header last
      some (entries.replace step (.tables earlier last))
    | some _ => none

/-- Defines a key that has no value yet. -/
def define (key : String) (value : Value) (entries : Entries) : Option Entries :=
  if (entries.lookup key).isSome then none else some (entries ++ [(key, value)])

/-- Defines a key along a dotted path, which must end in a table that dotted keys made. -/
def defineAlong (path : List String) (key : String) (value : Value) (entries : Entries) :
    Option Entries :=
  descend .dotted
    (fun origin inner => if path.isEmpty || origin == .dotted then inner.define key value else none)
    path .header entries

/-- Names a table by a header. -/
def openTable (path : List String) (key : String) (entries : Entries) : Option Entries :=
  descend .header
    (fun _ inner =>
      match inner.lookup key with
      | none => some (inner ++ [(key, .table .header [])])
      | some (.table .implied named) => some (inner.replace key (.table .header named))
      | some _ => none)
    path .header entries

/-- Adds a table to an array of tables by a header. -/
def openTables (path : List String) (key : String) (entries : Entries) : Option Entries :=
  descend .header
    (fun _ inner =>
      match inner.lookup key with
      | none => some (inner ++ [(key, .tables [] [])])
      | some (.tables earlier last) =>
        some (inner.replace key (.tables (earlier ++ [.table .header last]) []))
      | some _ => none)
    path .header entries

end Entries

end DiagramCheck.Toml
