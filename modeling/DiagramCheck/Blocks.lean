/-
# Block diagrams

A block diagram is a list of blocks and the number of columns to lay them out
in. The last statement that sets the number counts.

Each block has a name and an optional label in square brackets, and needs no line
of its own. Links between blocks are not supported and are reported one by one.
-/

import DiagramCheck.Decoration.Reading
import DiagramCheck.Reading.Label

namespace DiagramCheck

/-- A block and the label shown for it. -/
structure Block where
  id : String
  label : Option String
  deriving DecidableEq, Repr

/-- A block diagram. -/
structure BlockDiagram where
  columns : Option Nat
  blocks : List Block
  deriving DecidableEq, Repr

namespace BlockDiagram

/-- The statements of a block diagram. -/
inductive Statement
  | columns (count : Nat)
  | block (block : Block)
  deriving DecidableEq, Repr

/-- A block diagram with one more statement. -/
def apply (diagram : BlockDiagram) : Statement → BlockDiagram
  | .columns count => { diagram with columns := some count }
  | .block added => { diagram with blocks := diagram.blocks ++ [added] }

/-- The diagram that some statements make. -/
def ofStatements (statements : List Statement) : BlockDiagram :=
  statements.foldl apply ⟨none, []⟩

/-! ## Reading block diagrams -/

/-- The word that sets the number of columns, at the start of a statement. -/
def setsColumns (item : Item) : Bool := item.isWord "columns" && item.startsStatement

/-- The number of columns a token writes; it fits into 32 bits. -/
def columnCount? (item : Item) : Option Nat :=
  if item.kind = .number then Text.word? 32 item.text else none

/-- Reads the number of columns after its keyword, to the end of the line. -/
def readColumns (finish keyword : Token) (rest : List Item) : Reading (Option Statement) :=
  let found := Items.front finish rest
  match (Items.onLine keyword.line rest).head?.bind columnCount? with
  | some count => ⟨some (.columns count), [], Items.skipLine keyword.line rest⟩
  | none =>
    ⟨none, [.atToken keyword (.missingColumnCount found.found)],
      Items.skipLine keyword.line rest⟩

/-- Reads a block: a name, and perhaps a label in square brackets. -/
def readBlock (finish : Token) (items : List Item) : Reading (Option Statement) :=
  let name := Items.peekName finish items
  let after := Items.afterName items
  if Items.frontIs name.endLine (·.kind == .opening .square) after then
    (Label.read finish name .square (Items.front finish after).endLine (fun _ => false)
      after.tail).map fun label => some (.block ⟨name.value, label⟩)
  else ⟨some (.block ⟨name.value, none⟩), [], after⟩

/-- What is wrong with a token that begins no statement. -/
def unexpected (token : Token) : Problem :=
  if token.kind.isArrow then .linkBetweenBlocks token.found else .unexpectedInBlocks token.found

/-- Reads the statement that begins with `first`. -/
def readStatement (finish : Token) (first : Item) (rest : List Item) :
    Reading (Option Statement) :=
  if first.kind = .semicolon then ⟨none, [], rest⟩
  else
    match first.decoration? with
    | some decoration => (decoration.read finish .blocks 0 first.toToken rest).map fun _ => none
    | none =>
      if setsColumns first then readColumns finish first.toToken rest
      else if first.isName then readBlock finish (first :: rest)
      else ⟨none, [.atToken first.toToken (unexpected first.toToken)], rest⟩

theorem readColumns_suffix (finish keyword : Token) (rest : List Item) :
    (readColumns finish keyword rest).rest <:+ rest := by
  unfold readColumns
  dsimp only
  split <;> exact Items.skipLine_suffix ..

theorem readBlock_suffix (finish : Token) (first : Item) (rest : List Item) :
    (readBlock finish (first :: rest)).rest <:+ rest := by
  unfold readBlock
  dsimp only
  split
  · exact (Label.read_suffix ..).trans
      ((List.tail_suffix _).trans (Items.afterName_cons_suffix ..))
  · exact Items.afterName_cons_suffix ..

theorem readStatement_suffix (finish : Token) (first : Item) (rest : List Item) :
    (readStatement finish first rest).rest <:+ rest := by
  unfold readStatement
  split
  · exact List.suffix_refl _
  · split
    · exact Items.skipLine_suffix ..
    · repeat' split
      · exact readColumns_suffix ..
      · exact readBlock_suffix ..
      · exact List.suffix_refl _

/-- The statements of a block diagram after its header line. -/
def statements (finish header : Token) (rest : List Item) : List (Reading (Option Statement)) :=
  Reading.statements (readStatement finish) (readStatement_suffix finish)
    (Items.skipLine header.line rest)

/-- Reads a block diagram after its header. What else stands on the header line is not looked
at. -/
def read (finish header : Token) (rest : List Item) : Reading BlockDiagram :=
  let readings := statements finish header rest
  ⟨ofStatements (readings.filterMap (·.value)), readings.flatMap (·.diagnostics), []⟩

end BlockDiagram

end DiagramCheck
