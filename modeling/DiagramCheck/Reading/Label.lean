/-
# Labels

The text of a label, a title or a message is given back as its words with single
spaces between them; a quoted string counts as one word and loses its quotes.

A label in brackets ends at the bracket that closes it. It is broken off by the
end of its line, by an arrow, a pipe or a semicolon, or by the end of the input.
Reading then goes on after the closing bracket or before the next token that the
surrounding grammar can start from.
-/

import DiagramCheck.Reading.Basic

namespace DiagramCheck

namespace Label

/-- The values of some tokens with single spaces between them, if there are any. -/
def text? (words : List Token) : Option String :=
  if words.isEmpty then none else some (" ".intercalate (words.map Token.value))

/-- The values of the items' tokens with single spaces between them, if there are any. -/
def ofItems? (words : List Item) : Option String := text? (words.map Item.toToken)

/-- An item that belongs to the label in brackets that opens on `line`. -/
def isInside (bracket : Bracket) (line : Nat) (item : Item) : Bool :=
  !(item.kind == .closing bracket || item.line != line || item.kind.isArrow ||
    item.kind == .pipe || item.kind == .semicolon)

/-- The items from the first that closes a label or stops the search for it; a closing one is
dropped. -/
def recover (bracket : Bracket) (stops : TokenKind → Bool) (items : List Item) : List Item :=
  match items.dropWhile fun item => !(item.kind == .closing bracket || stops item.kind) with
  | [] => []
  | first :: rest => if first.kind = .closing bracket then rest else first :: rest

/-- Reads a label after its opening bracket, which stands on `line` and belongs to `owner`. -/
def read (finish owner : Token) (bracket : Bracket) (line : Nat) (stops : TokenKind → Bool)
    (items : List Item) : Reading (Option String) :=
  let words := items.takeWhile (isInside bracket line)
  let after := items.dropWhile (isInside bracket line)
  let found := Items.front finish after
  if found.kind = .closing bracket then
    ⟨some ((ofItems? words).getD ""), [], after.tail⟩
  else
    ⟨ofItems? words, [.atToken found (.unclosedLabel owner.text bracket found.found)],
      recover bracket stops after⟩

theorem recover_suffix (bracket : Bracket) (stops : TokenKind → Bool) (items : List Item) :
    recover bracket stops items <:+ items := by
  unfold recover
  have dropped := List.dropWhile_suffix (l := items)
    fun item : Item => !(item.kind == .closing bracket || stops item.kind)
  split
  · exact List.nil_suffix
  · next first rest shape =>
    rw [shape] at dropped
    split
    · exact (List.suffix_cons first rest).trans dropped
    · exact dropped

theorem read_suffix (finish owner : Token) (bracket : Bracket) (line : Nat)
    (stops : TokenKind → Bool) (items : List Item) :
    (read finish owner bracket line stops items).rest <:+ items := by
  unfold read
  dsimp only
  split
  · exact (List.tail_suffix _).trans (List.dropWhile_suffix _)
  · exact (recover_suffix ..).trans (List.dropWhile_suffix _)

end Label

end DiagramCheck
