/-
# Items in order

The items of a source stand in the order of its text, and what an item notes of
its layout follows from the item before it: it starts its line when that one
ends on an earlier line, and a statement also when that one is a semicolon.
`Items.LaidOut` says so of neighbours. It holds of every end of a list of items
for which it holds of the list, so each grammar keeps it.

An item that stands on a line on which another has started does not start its
line. This is what keeps a header at the start of a line out of everything that
is read by lines.
-/

import Mathlib.Data.List.TakeWhile
import DiagramCheck.Layout
import DiagramCheck.Proofs.Token.Tiling

namespace DiagramCheck

/-! ## Tests that hold of the front of a list -/

section Front

variable {α : Type} {test : α → Bool} {list : List α}

/-- When what passes comes first in a list, nothing behind the first failure passes. -/
theorem eq_false_of_mem_dropWhile (order : list.Pairwise fun a b => test b = true → test a = true) :
    ∀ a ∈ list.dropWhile test, test a = false := by
  induction list with
  | nil => exact fun _ absent => by cases absent
  | cons first rest ih =>
    obtain ⟨earlier, later⟩ := List.pairwise_cons.1 order
    cases passes : test first with
    | true =>
      rw [List.dropWhile_cons_of_pos passes]
      exact ih later
    | false =>
      rw [List.dropWhile_cons_of_neg (by simp [passes])]
      refine List.forall_mem_cons.2 ⟨passes, fun a member => Bool.eq_false_iff.2 fun passed => ?_⟩
      rw [earlier a member passed] at passes
      cases passes

/-- The front that passes is then all that passes. -/
theorem takeWhile_eq_filter (order : list.Pairwise fun a b => test b = true → test a = true) :
    list.takeWhile test = list.filter test := by
  have pass : (list.takeWhile test).filter test = list.takeWhile test :=
    List.filter_eq_self.2 fun _ => List.mem_takeWhile_imp
  have fail : (list.dropWhile test).filter test = [] :=
    List.filter_eq_nil_iff.2 fun a member => by simp [eq_false_of_mem_dropWhile order a member]
  conv_rhs => rw [← List.takeWhile_append_dropWhile (p := test) (l := list)]
  rw [List.filter_append, pass, fail, List.append_nil]

/-- What is behind the front is then all that fails. -/
theorem dropWhile_eq_filter (order : list.Pairwise fun a b => test b = true → test a = true) :
    list.dropWhile test = list.filter (!test ·) := by
  have pass : (list.takeWhile test).filter (!test ·) = [] :=
    List.filter_eq_nil_iff.2 fun a member => by simp [List.mem_takeWhile_imp member]
  have fail : (list.dropWhile test).filter (!test ·) = list.dropWhile test :=
    List.filter_eq_self.2 fun a member => by simp [eq_false_of_mem_dropWhile order a member]
  conv_rhs => rw [← List.takeWhile_append_dropWhile (p := test) (l := list)]
  rw [List.filter_append, pass, fail, List.nil_append]

end Front

/-! ## Neighbours -/

/-- What holds of an item and the one after it. -/
structure Item.Before (first second : Item) : Prop extends
    first.toToken.Precedes second.toToken where
  startsLine : second.startsLine = decide (first.endLine < second.line)
  startsStatement : second.startsStatement =
    (decide (first.endLine < second.line) || first.kind == .semicolon)

namespace Layout

theorem map_toToken_place (previous : Option Token) (tokens : List Token) :
    (place previous tokens).map Item.toToken = tokens := by
  induction tokens generalizing previous with
  | nil => rfl
  | cons token rest ih => rw [place, List.map_cons, ih]

/-- The items of a source are its significant tokens. -/
theorem map_toToken_items (tokens : List Token) :
    (items tokens).map Item.toToken = tokens.filter Token.isSignificant :=
  map_toToken_place _ _

theorem toToken_mem_of_mem_items {tokens : List Token} {item : Item}
    (member : item ∈ items tokens) :
    item.toToken ∈ tokens := by
  have significant := List.mem_map_of_mem (f := Item.toToken) member
  rw [map_toToken_items] at significant
  exact List.mem_of_mem_filter significant

theorem isSignificant_of_mem_items {tokens : List Token} {item : Item}
    (member : item ∈ items tokens) : item.isSignificant = true := by
  have significant := List.mem_map_of_mem (f := Item.toToken) member
  rw [map_toToken_items] at significant
  exact (List.mem_filter.1 significant).2

end Layout

namespace Items

/-- Items that stand in order and note of their layout what the items before them tell. -/
def LaidOut (items : List Item) : Prop := items.IsChain Item.Before

theorem LaidOut.suffix {items rest : List Item} (laid : LaidOut items) (suffix : rest <:+ items) :
    LaidOut rest :=
  List.IsChain.suffix laid suffix

theorem LaidOut.before {first second : Item} {rest : List Item}
    (laid : LaidOut (first :: second :: rest)) : first.Before second :=
  (List.isChain_cons_cons.1 laid).1

theorem LaidOut.tail {first : Item} {rest : List Item} (laid : LaidOut (first :: rest)) :
    LaidOut rest :=
  laid.suffix (List.suffix_cons ..)

/-- An item precedes every item after it. -/
theorem LaidOut.precedes {first : Item} {rest : List Item} (laid : LaidOut (first :: rest)) :
    ∀ item ∈ rest, first.toToken.Precedes item.toToken := by
  have chain : ((first :: rest).map Item.toToken).IsChain Token.Precedes :=
    (List.isChain_map Item.toToken).2 (List.IsChain.imp (fun _ _ order => order.toPrecedes) laid)
  rw [List.map_cons] at chain
  intro item member
  exact chain.rel_cons (List.mem_map_of_mem member)

theorem LaidOut.pairwise {items : List Item} (laid : LaidOut items) :
    items.Pairwise fun first second => first.toToken.Precedes second.toToken := by
  induction items with
  | nil => exact .nil
  | cons first rest ih => exact List.pairwise_cons.2 ⟨laid.precedes, ih laid.tail⟩

/-- No two items begin at the same byte. -/
theorem LaidOut.eq_of_offset_eq {items : List Item} (laid : LaidOut items) {first second : Item}
    (member : first ∈ items) (member' : second ∈ items) (same : first.offset = second.offset) :
    first = second := by
  induction items with
  | nil => cases member
  | cons head rest ih =>
    rcases List.mem_cons.1 member with rfl | behind
    · rcases List.mem_cons.1 member' with rfl | later
      · rfl
      · exact absurd same (laid.precedes second later).offset_lt.ne
    · rcases List.mem_cons.1 member' with rfl | later
      · exact absurd same.symm (laid.precedes first behind).offset_lt.ne
      · exact ih laid.tail behind later

/-- There are no more items than bytes, since each takes one at least. -/
theorem LaidOut.length_le {items : List Item} (laid : LaidOut items) {low high : Nat}
    (within : ∀ item ∈ items, low ≤ item.offset ∧ item.offset < high) :
    items.length ≤ high - low := by
  induction items generalizing low with
  | nil => exact Nat.zero_le _
  | cons first rest ih =>
    have own := within first (List.mem_cons_self ..)
    have := ih laid.tail fun item member =>
      ⟨(laid.precedes item member).offset_lt, (within item (List.mem_cons_of_mem _ member)).2⟩
    rw [List.length_cons]
    omega

/-- An item on a line on which an earlier one starts does not start the line. -/
theorem LaidOut.startsLine_eq_false {first item : Item} {rest : List Item}
    (laid : LaidOut (first :: rest)) (member : item ∈ rest) (line : item.line ≤ first.line) :
    item.startsLine = false := by
  induction rest generalizing first with
  | nil => cases member
  | cons second rest ih =>
    have before := laid.before
    rcases List.mem_cons.1 member with rfl | later
    · have := first.line_le_endLine
      rw [before.startsLine, decide_eq_false]
      omega
    · exact ih laid.tail later (line.trans before.line_le)

/-- An item that starts its line stands below the end of every item before it. -/
theorem LaidOut.endLine_lt {first item : Item} {rest : List Item} (laid : LaidOut (first :: rest))
    (member : item ∈ rest) (starts : item.startsLine = true) : first.endLine < item.line := by
  induction rest generalizing first with
  | nil => cases member
  | cons second rest ih =>
    have before := laid.before
    rcases List.mem_cons.1 member with rfl | later
    · rw [before.startsLine, decide_eq_true_eq] at starts
      exact starts
    · exact (before.later.trans second.line_le_endLine).trans_lt (ih laid.tail later)

theorem LaidOut.line_lt {first item : Item} {rest : List Item} (laid : LaidOut (first :: rest))
    (member : item ∈ rest) (starts : item.startsLine = true) : first.line < item.line :=
  first.line_le_endLine.trans_lt (laid.endLine_lt member starts)

end Items

namespace Layout

private theorem laidOut_place {tokens : List Token} (order : tokens.Pairwise Token.Precedes)
    (previous : Option Token) : Items.LaidOut (place previous tokens) := by
  induction tokens generalizing previous with
  | nil => exact .nil
  | cons token rest ih =>
    have later := ih (List.Pairwise.of_cons order) (some token)
    cases rest with
    | nil => exact .singleton _
    | cons next rest =>
      -- What an item notes of its layout is computed from the token before it.
      refine .cons_cons ⟨(List.pairwise_cons.1 order).1 next (List.mem_cons_self ..), rfl, ?_⟩ later
      simp [Token.startsStatementAfter, Token.startsLineAfter]

/-- The items of a source are laid out. -/
theorem laidOut_items (source : String) :
    Items.LaidOut (items (Token.tokenize source)) :=
  laidOut_place ((Token.tiles_tokenize source).pairwise.filter _) none

/-- The items of a source are lexemes of it. -/
theorem isCut_of_mem_items (source : String) :
    ∀ item ∈ items (Token.tokenize source), item.toToken.IsCut := by
  obtain ⟨lexemes, split, cuts⟩ := (Token.tiles_tokenize source).eq_append
  intro item member
  have listed := toToken_mem_of_mem_items member
  rw [split, List.mem_append, List.mem_singleton] at listed
  rcases listed with lexeme | finish
  · exact cuts _ lexeme
  · -- The end of the input is no item.
    have significant := isSignificant_of_mem_items member
    rw [finish] at significant
    cases significant

/-- An item of a source begins before the end of the source. -/
theorem offset_lt_finish {source : String} {item : Item}
    (member : item ∈ items (Token.tokenize source)) : item.offset < (finish source).offset := by
  have tiles := Token.tiles_tokenize source
  obtain ⟨lexemes, split, -⟩ := tiles.eq_append
  have order := tiles.pairwise
  rw [split] at order
  have listed := toToken_mem_of_mem_items member
  rw [split, List.mem_append, List.mem_singleton] at listed
  rcases listed with lexeme | same
  · exact ((List.pairwise_append.1 order).2.2 _ lexeme _ (List.mem_singleton_self _)).offset_lt
  · -- The end of the input is no item.
    have significant := isSignificant_of_mem_items member
    rw [same] at significant
    cases significant

theorem offset_finish (source : String) : (finish source).offset = source.utf8ByteSize := by
  rw [← Text.byteLength_toList, ← Nat.zero_add (Text.byteLength _)]
  exact Position.offset_after .start source.toList

end Layout

end DiagramCheck
