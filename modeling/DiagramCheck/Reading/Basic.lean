/-
# Reading items

A grammar reads a list of items from the front. A reading is what it gives: the
value read, the diagnostics found on the way in the order they were found, and
the items left over, which are always the last of those it was given.

Three ways of taking items recur in every grammar. A line is taken as the items
that start on it. A name is one token that can be a name, together with the name
tokens that touch it, since a word with characters beyond ASCII arrives as
several tokens. And a diagram made of statements is read one statement at a
time, each taking at least the item it begins with.

The end of the input is no item; where a message or a location needs it, it
comes as the token `finish`.
-/

import DiagramCheck.Layout

namespace DiagramCheck

/-- What a grammar makes of the items at the front of a list. -/
structure Reading (α : Type) where
  value : α
  diagnostics : List Diagnostic
  rest : List Item
  deriving DecidableEq, Repr

namespace Reading

/-- A reading with another value. -/
def map {α β : Type} (f : α → β) (reading : Reading α) : Reading β :=
  ⟨f reading.value, reading.diagnostics, reading.rest⟩

@[simp] theorem value_map {α β : Type} (f : α → β) (reading : Reading α) :
    (reading.map f).value = f reading.value := rfl

@[simp] theorem diagnostics_map {α β : Type} (f : α → β) (reading : Reading α) :
    (reading.map f).diagnostics = reading.diagnostics := rfl

@[simp] theorem rest_map {α β : Type} (f : α → β) (reading : Reading α) :
    (reading.map f).rest = reading.rest := rfl

/-- Reads statement after statement until no item is left. The statement that begins with `first`
is `read first rest`; what it leaves is the end of `rest`, so the reading gets done. -/
def statements {α : Type} (read : Item → List Item → Reading α)
    (suffix : ∀ first rest, (read first rest).rest <:+ rest) : List Item → List (Reading α)
  | [] => []
  | first :: rest => read first rest :: statements read suffix (read first rest).rest
termination_by items => items.length
decreasing_by exact Nat.lt_succ_of_le (suffix first rest).length_le

end Reading

namespace Items

/-- The token at the front, or the end of the input. -/
def front (finish : Token) : List Item → Token
  | [] => finish
  | first :: _ => first.toToken

/-- The items at the front that start on a line. -/
def onLine (line : Nat) (items : List Item) : List Item := items.takeWhile (·.line == line)

/-- The items after those at the front that start on a line. -/
def skipLine (line : Nat) (items : List Item) : List Item := items.dropWhile (·.line == line)

/-- The item at the front, if it starts on a line and is of the kind asked for. -/
def frontIs (line : Nat) (test : Item → Bool) : List Item → Bool
  | [] => false
  | first :: _ => first.line == line && test first

/-- The items without the one at the front, if that starts on a line and is of the kind asked
for. -/
def dropIf (line : Nat) (test : Item → Bool) (items : List Item) : List Item :=
  if frontIs line test items then items.tail else items

/-- The items at the front that continue a name which ends at byte `stop`. -/
def touching (stop : Nat) : List Item → List Item
  | [] => []
  | first :: rest =>
    if first.isName && first.offset == stop then first :: touching first.stop rest else []

/-- The number of items at the front that spell one name. -/
def nameLength : List Item → Nat
  | [] => 0
  | first :: rest => if first.isName then (touching first.stop rest).length + 1 else 0

/-- The token at the front, widened over the name tokens that touch it. -/
def peekName (finish : Token) (items : List Item) : Token :=
  let token := front finish items
  if nameLength items ≤ 1 then token
  else { token with text := String.join ((items.take (nameLength items)).map (·.text)) }

/-- The items after the name at the front, or after the item there if it is no name. -/
def afterName (items : List Item) : List Item := items.drop (max 1 (nameLength items))

theorem exists_of_frontIs {line : Nat} {test : Item → Bool} {items : List Item}
    (asked : frontIs line test items = true) :
    ∃ first rest, items = first :: rest ∧ first.line = line ∧ test first = true := by
  cases items with
  | nil => cases asked
  | cons first rest =>
    rw [frontIs, Bool.and_eq_true, beq_iff_eq] at asked
    exact ⟨first, rest, rfl, asked⟩

theorem skipLine_suffix (line : Nat) (items : List Item) : skipLine line items <:+ items :=
  List.dropWhile_suffix _

theorem afterName_suffix (items : List Item) : afterName items <:+ items :=
  List.drop_suffix ..

theorem dropIf_suffix (line : Nat) (test : Item → Bool) (items : List Item) :
    dropIf line test items <:+ items := by
  unfold dropIf
  split
  · exact List.tail_suffix _
  · exact List.suffix_refl _

/-- The name that begins with an item takes that item. -/
theorem afterName_cons_suffix (first : Item) (rest : List Item) :
    afterName (first :: rest) <:+ rest := by
  obtain ⟨count, positive⟩ : ∃ count, max 1 (nameLength (first :: rest)) = count + 1 :=
    ⟨max 1 (nameLength (first :: rest)) - 1, by omega⟩
  rw [afterName, positive, List.drop_succ_cons]
  exact List.drop_suffix ..

end Items

end DiagramCheck
