/-
# Reading with a cursor

The grammars read lists of items. The same can be done with a cursor, a place among
the tokens of a source. A cursor looks ahead by counting places, and finds the end of
the input behind the last token however far it looks. It passes one token at a time
and never leaves the end of the input. A name is counted out by looking ahead, cut out
of the source from its first token to its last, and passed token by token.

What a cursor does can be told from the items that are left at its place. It shows
the name in front of them and leaves what is behind that name. The names that it
counts, cuts out and passes are therefore one and the same: name tokens of which each
touches the one before it, as many as there are.

Main statements: `peekName_eq` and `items_takeName`.
-/

import Mathlib.Logic.Function.Iterate
import DiagramCheck.Proofs.Diagram.Checked

namespace DiagramCheck

/-! ## Items that are taken as a name -/

namespace Items

/-- What is taken as a name in front of other items. -/
inductive TakenAsName : List Item → List Item → Prop
  /-- Name tokens of which each touches the one before it, and no further one behind. -/
  | pieces {first : Item} {more behind : List Item}
      (named : ∀ item ∈ first :: more, item.isName = true) (touch : (first :: more).IsChain Touch)
      (apart : ∀ last ∈ (first :: more).getLast?, ∀ next ∈ behind.head?,
        next.isName = true → ¬ Touch last next) :
      TakenAsName (first :: more) behind
  /-- A single item that is no name. -/
  | single {item : Item} {behind : List Item} (other : item.isName = false) :
      TakenAsName [item] behind
  /-- Nothing, at the end of the input. -/
  | nothing : TakenAsName [] []

/-- The items up to the end of the name at the front are taken as a name, and its text is theirs
put together. -/
theorem exists_takenAsName (source : String) (items : List Item) : ∃ taken,
    items = taken ++ afterName items ∧
      (peekName (Layout.finish source) items).text = String.join (taken.map (·.text)) ∧
      TakenAsName taken (afterName items) := by
  cases items with
  | nil => exact ⟨[], rfl, rfl, .nothing⟩
  | cons first rest =>
    cases name : first.isName with
    | false =>
      rw [afterName_of_not_isName name, peekName_of_not_isName name]
      exact ⟨[first], rfl, by simp [String.join_cons], .single name⟩
    | true =>
      obtain ⟨more, split, named, chain, apart, text⟩ := exists_pieces rest name
      exact ⟨first :: more, by rw [List.cons_append, ← split], text _, .pieces named chain apart⟩

/-- A name ends where the last of its items ends. -/
theorem touchingStop_eq_stop_getLast (first : Item) (rest : List Item) :
    Token.touchingStop first.stop (rest.map Item.toToken) =
      ((first :: touching first.stop rest).getLast (List.cons_ne_nil _ _)).stop := by
  induction rest generalizing first with
  | nil => rfl
  | cons second rest ih =>
    by_cases touches : (second.isName && second.offset == first.stop) = true
    · rw [List.map_cons, Token.touchingStop, if_pos touches, ih]
      simp [touching, touches]
    · rw [List.map_cons, Token.touchingStop, if_neg touches]
      simp [touching, touches]

/-- The last item of a name, told by the number of its items. -/
theorem front_drop_nameLength (finish : Token) {first : Item} {rest : List Item}
    (name : first.isName = true) :
    front finish ((first :: rest).drop (nameLength (first :: rest) - 1)) =
      ((first :: touching first.stop rest).getLast (List.cons_ne_nil _ _)).toToken := by
  obtain ⟨behind, split⟩ := touching_isPrefixOf first.stop rest
  have last := List.dropLast_append_getLast (List.cons_ne_nil first (touching first.stop rest))
  have count : nameLength (first :: rest) - 1 =
      (first :: touching first.stop rest).dropLast.length := by
    rw [nameLength, if_pos name, List.length_dropLast, List.length_cons]
  have whole : first :: rest = (first :: touching first.stop rest).dropLast ++
      ((first :: touching first.stop rest).getLast (List.cons_ne_nil _ _) :: behind) := by
    rw [List.append_cons, last, List.cons_append, split]
  rw [count, whole, List.drop_left]
  rfl

/-- The text of a name is the source from the start of its first item to the end of its last. -/
theorem textBetween_peekName {source : String} {first : Item} {rest : List Item}
    (known : ∀ item ∈ first :: rest, item.toToken ∈ Token.tokenize source)
    (name : first.isName = true) (finish : Token) :
    Chart.textBetween source.toList first.toToken
        (front finish ((first :: rest).drop (nameLength (first :: rest) - 1))) =
      (peekName finish (first :: rest)).text := by
  have covered : first.offset + (peekName finish (first :: rest)).text.utf8ByteSize =
      ((first :: touching first.stop rest).getLast (List.cons_ne_nil _ _)).stop :=
    (offset_add_peekName finish name).trans (touchingStop_eq_stop_getLast first rest)
  rw [front_drop_nameLength finish name, Chart.textBetween, ← covered,
    Nat.max_eq_right (Nat.le_add_right ..), slice?_peekName known name finish]
  exact String.ofList_toList

end Items

/-! ## Cursors -/

/-- A place among the tokens of a source that the grammars read, the end of the input the last of
them. -/
structure Cursor (source : String) where
  place : Nat
  inside : place < (Layout.kept (Token.tokenize source)).length

namespace Cursor

variable {source : String}

/-- The token that stands some places ahead; behind the end of the input there is nothing else. -/
def ahead (cursor : Cursor source) (count : Nat) : Token :=
  ((Layout.kept (Token.tokenize source))[cursor.place + count]?).getD (Layout.finish source)

/-- The items from a cursor on. -/
def items (cursor : Cursor source) : List Item :=
  (Layout.items (Token.tokenize source)).drop cursor.place

/-- Looking ahead shows the items in turn, and then the end of the input. -/
theorem ahead_eq (cursor : Cursor source) (count : Nat) :
    cursor.ahead count = Items.front (Layout.finish source) (cursor.items.drop count) := by
  rw [ahead, Layout.kept_tokenize, items, List.drop_drop]
  generalize Layout.items (Token.tokenize source) = items
  generalize cursor.place + count = index
  rcases Nat.lt_or_ge index items.length with inside | beyond
  · rw [List.getElem?_append_left (by simpa using inside), List.getElem?_map,
      List.getElem?_eq_getElem inside, List.drop_eq_getElem_cons inside]
    rfl
  · -- Behind the last item there is the end of the input, and nothing behind that.
    rw [List.getElem?_append_right (by simpa using beyond), List.drop_of_length_le beyond,
      Items.front]
    cases index - (items.map Item.toToken).length <;> rfl

/-- Where there is another token than the end of the input, there is an item. -/
theorem exists_of_ahead {cursor : Cursor source} {count : Nat}
    (solid : (cursor.ahead count).kind ≠ .endOfInput) : ∃ first rest,
      cursor.items.drop count = first :: rest ∧ cursor.ahead count = first.toToken := by
  rw [ahead_eq] at solid ⊢
  cases left : cursor.items.drop count with
  | nil =>
    rw [left] at solid
    exact absurd rfl solid
  | cons first rest => exact ⟨first, rest, rfl, rfl⟩

private theorem ne_endOfInput_of_isName {token : Token} (name : token.isName = true) :
    token.kind ≠ .endOfInput := by
  intro last
  have significant := Token.isName_isSignificant name
  rw [Token.isSignificant, last] at significant
  cases significant

/-- Behind any token but the end of the input there is another one. -/
theorem place_lt {cursor : Cursor source} {count : Nat}
    (solid : (cursor.ahead count).kind ≠ .endOfInput) :
    cursor.place + count + 1 < (Layout.kept (Token.tokenize source)).length := by
  obtain ⟨first, rest, left, -⟩ := exists_of_ahead solid
  have length := congrArg List.length left
  rw [items, List.drop_drop, List.length_drop, List.length_cons] at length
  rw [Layout.kept_tokenize, List.length_append, List.length_map, List.length_singleton]
  omega

/-- Passes a token, but not the end of the input. -/
def advance (cursor : Cursor source) : Cursor source :=
  if solid : (cursor.ahead 0).kind ≠ .endOfInput then ⟨cursor.place + 1, place_lt solid⟩
  else cursor

/-- Counts on over name tokens that touch, where `count` of them have been counted, which end at
byte `stop`. -/
def countName (cursor : Cursor source) (stop count : Nat) : Nat :=
  let next := cursor.ahead count
  if touches : next.isName ∧ next.offset = stop then cursor.countName next.stop (count + 1)
  else count
termination_by (Layout.kept (Token.tokenize source)).length - (cursor.place + count)
decreasing_by
  -- A name token is not the end of the input, so there is another token behind it.
  have := place_lt (ne_endOfInput_of_isName touches.1)
  omega

/-- The number of tokens at a cursor that spell one name. -/
def nameLength (cursor : Cursor source) : Nat :=
  let first := cursor.ahead 0
  if first.isName then cursor.countName first.stop 1 else 0

/-- The token at a cursor, widened to the text up to the end of the last token that spells a name
with it. -/
def peekName (cursor : Cursor source) : Token :=
  let first := cursor.ahead 0
  if cursor.nameLength ≤ 1 then first
  else
    let last := cursor.ahead (cursor.nameLength - 1)
    { first with text := Chart.textBetween source.toList first last }

/-- Takes the name at a cursor, or the token there if it is no name. -/
def takeName (cursor : Cursor source) : Token × Cursor source :=
  (cursor.peekName, advance^[max 1 cursor.nameLength] cursor)

/-! ## What a cursor passes -/

/-- The end of the input is shown where no item is left. -/
theorem ahead_eq_endOfInput_iff (cursor : Cursor source) :
    (cursor.ahead 0).kind = .endOfInput ↔ cursor.items = [] := by
  rw [ahead_eq, List.drop_zero]
  cases left : cursor.items with
  | nil => exact ⟨fun _ => rfl, fun _ => rfl⟩
  | cons first rest =>
    have member : first ∈ cursor.items := left ▸ List.mem_cons_self ..
    have significant := Layout.isSignificant_of_mem_items (List.mem_of_mem_drop member)
    refine ⟨fun last => ?_, nofun⟩
    rw [Token.isSignificant, show first.kind = .endOfInput from last] at significant
    cases significant

/-- Passing a token is passing the item in front, if there is one. -/
theorem items_advance (cursor : Cursor source) : cursor.advance.items = cursor.items.tail := by
  unfold advance
  split
  · rw [items, items, List.tail_drop]
  · next last =>
    rw [ne_eq, not_not, ahead_eq_endOfInput_iff] at last
    rw [last, List.tail_nil]

/-- A place is left as long as there is an item. -/
theorem place_advance (cursor : Cursor source) :
    cursor.advance.place = cursor.place + min 1 cursor.items.length := by
  unfold advance
  split
  · next solid =>
    rw [ne_eq, ahead_eq_endOfInput_iff, ← List.length_eq_zero_iff] at solid
    rw [Nat.min_eq_left (Nat.pos_of_ne_zero solid)]
  · next last =>
    rw [ne_eq, not_not, ahead_eq_endOfInput_iff] at last
    rw [last]
    rfl

private theorem items_iterate_advance (cursor : Cursor source) (count : Nat) :
    (advance^[count] cursor).items = cursor.items.drop count := by
  induction count generalizing cursor with
  | zero => rfl
  | succ count ih => rw [Function.iterate_succ_apply, ih, items_advance, List.drop_tail]

private theorem place_iterate_advance (cursor : Cursor source) (count : Nat) :
    (advance^[count] cursor).place = cursor.place + min count cursor.items.length := by
  induction count generalizing cursor with
  | zero => simp
  | succ count ih =>
    rw [Function.iterate_succ_apply, ih, place_advance, items_advance, List.length_tail]
    omega

/-! ## Names at a cursor -/

/-- Counting by looking ahead finds the items that touch. -/
theorem countName_eq (cursor : Cursor source) (stop count : Nat) :
    cursor.countName stop count =
      count + (Items.touching stop (cursor.items.drop count)).length := by
  fun_induction countName cursor stop count with
  | case1 stop count next touches ih =>
    obtain ⟨first, rest, left, shown⟩ := exists_of_ahead (ne_endOfInput_of_isName touches.1)
    have later : cursor.items.drop (count + 1) = rest := by
      rw [← List.tail_drop, left, List.tail_cons]
    have own : (first.isName && first.offset == stop) = true := by
      rw [← shown, Bool.and_eq_true, beq_iff_eq]
      exact touches
    have behind : next.stop = first.stop := congrArg Token.stop shown
    rw [ih, later, behind, left, Items.touching, if_pos own, List.length_cons]
    omega
  | case2 stop count next apart =>
    cases left : cursor.items.drop count with
    | nil => rfl
    | cons first rest =>
      have shown : next = first.toToken := by
        rw [show next = _ from cursor.ahead_eq count, left, Items.front]
      rw [shown, ← beq_iff_eq (a := first.offset), ← Bool.and_eq_true] at apart
      rw [Items.touching, if_neg apart]
      rfl

theorem nameLength_eq (cursor : Cursor source) :
    cursor.nameLength = Items.nameLength cursor.items := by
  rw [nameLength, ahead_eq, List.drop_zero]
  cases left : cursor.items with
  | nil => rfl
  | cons first rest =>
    rw [Items.front, countName_eq, left, List.drop_succ_cons, List.drop_zero, Items.nameLength,
      Nat.add_comm]

/-- The text cut out of the source for a name is that of its tokens put together. -/
theorem peekName_eq (cursor : Cursor source) :
    cursor.peekName = Items.peekName (Layout.finish source) cursor.items := by
  have known : ∀ item ∈ cursor.items, item.toToken ∈ Token.tokenize source := fun item member =>
    Layout.toToken_mem_of_mem_items (List.mem_of_mem_drop member)
  rw [peekName, nameLength_eq, ahead_eq, ahead_eq, List.drop_zero]
  generalize cursor.items = items at known
  cases items with
  | nil => rfl
  | cons first rest =>
    cases name : first.isName with
    | false =>
      rw [Items.peekName_of_not_isName name, Items.nameLength_of_not_isName name]
      rfl
    | true =>
      -- A name of one token is left as it is, any other gets the text of all its tokens.
      dsimp only
      rw [Items.front, Items.textBetween_peekName known name, Items.peekName]
      split <;> rfl

/-- Taking a name leaves the items behind it. -/
theorem items_takeName (cursor : Cursor source) :
    cursor.takeName.2.items = Items.afterName cursor.items := by
  rw [takeName, items_iterate_advance, nameLength_eq]
  rfl

/-- Taking a name passes as many tokens as spell it, but at least one; at the end of the input it
passes none. -/
theorem place_takeName (cursor : Cursor source) :
    cursor.takeName.2.place = cursor.place +
      if (cursor.ahead 0).kind = .endOfInput then 0 else max 1 cursor.nameLength := by
  rw [takeName, place_iterate_advance, nameLength_eq]
  have few := Items.nameLength_le cursor.items
  split
  · next last =>
    rw [(ahead_eq_endOfInput_iff cursor).1 last]
    rfl
  · next solid =>
    rw [ahead_eq_endOfInput_iff, ← List.length_eq_zero_iff] at solid
    rw [Nat.min_eq_left (by omega)]

end Cursor

end DiagramCheck
