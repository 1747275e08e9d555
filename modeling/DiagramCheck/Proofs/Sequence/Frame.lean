/-
# Statements of a sequence diagram with something below

Every statement of a sequence diagram is read on its line, right or wrong. What
stands below that line makes no difference, and neither does the end of the input.
-/

import DiagramCheck.Proofs.Flowchart.Frame
import DiagramCheck.Proofs.Token.Extent
import DiagramCheck.Sequence.Reading

namespace DiagramCheck.Sequence

open Items (Above Below)

variable {finish finish' keyword : Token} {first : Item} {rest later : List Item}

/-! ## Messages -/

/-- A name ends on a line on which its first token stands. -/
theorem endLine_peekName_le (cut : ∀ item ∈ first :: rest, item.IsCut) (finish : Token) :
    (Items.peekName finish (first :: rest)).endLine ≤ first.endLine := by
  cases name : first.isName with
  | false =>
    rw [Items.peekName_of_not_isName name]
  | true =>
    -- No token of a name runs over a newline.
    have line (item : Item) (member : item ∈ first :: Items.touching first.stop rest) :
        '\n' ∉ item.text.toList := by
      rcases List.mem_cons.1 member with rfl | member
      · exact (cut _ (List.mem_cons_self ..)).newline_not_mem (Token.isPlain_of_isName name)
      · have inside := (Items.touching_isPrefixOf first.stop rest).subset member
        exact (cut item (List.mem_cons_of_mem _ inside)).newline_not_mem
          (Token.isPlain_of_isName (Items.isName_of_mem_touching item member))
    have none : (Items.peekName finish (first :: rest)).text.toList.count '\n' = 0 := by
      rw [List.count_eq_zero, Items.text_peekName finish name, String.toList_join,
        List.flatMap_map, List.mem_flatMap]
      rintro ⟨item, member, newline⟩
      exact line item member newline
    rw [Token.endLine, none, Token.line, Items.position_peekName]
    exact Nat.le_add_right ..

private theorem beginsMessage_append (cut : ∀ item ∈ first :: rest, item.IsCut)
    (above : Above (first :: rest) later) :
    beginsMessage finish' (first :: rest ++ later) = beginsMessage finish (first :: rest) := by
  have below : Below (Items.peekName finish (first :: rest)).endLine later :=
    fun next member => (endLine_peekName_le cut finish).trans_lt (above.below_endLine next member)
  unfold beginsMessage
  dsimp only
  rw [Items.peekName_append above finish finish', Items.afterName_append above,
    Items.frontIs_append below]
  rfl

private theorem readReceiver_append {sender : Token} {arrow : Item} {shape : Arrow}
    (above : Above (arrow :: rest) later) :
    readReceiver finish' sender arrow.toToken shape (rest ++ later) =
      (readReceiver finish sender arrow.toToken shape rest).extend later := by
  have apart : Above (Items.dropIf arrow.line (·.isActivationMark) rest) later :=
    above.of_cons.suffix (Items.dropIf_suffix ..)
  unfold readReceiver
  dsimp only
  rw [Items.dropIf_append above.below, Items.frontIs_append above.below]
  split
  · next named =>
    obtain ⟨name, after, same, -, -⟩ := Items.exists_of_frontIs named
    rw [same] at apart ⊢
    rw [Items.peekName_append apart finish finish', Items.afterName_append apart,
      Items.dropIf_append above.below, Items.onLine_append above.below,
      Items.skipLine_append above.below]
    rfl
  · rw [Items.skipLine_append above.below]
    rfl

private theorem readMessage_append (above : Above (first :: rest) later)
    (begins : beginsMessage finish (first :: rest) = true) :
    readMessage finish' first (rest ++ later) = (readMessage finish first rest).extend later := by
  rw [beginsMessage, Bool.and_eq_true] at begins
  obtain ⟨arrow, after, behind, -, -⟩ := Items.exists_of_frontIs begins.2
  have suffix : arrow :: after <:+ first :: rest := behind ▸ Items.afterName_suffix _
  unfold readMessage
  rw [← List.cons_append, Items.afterName_append above, behind, List.cons_append,
    Items.peekName_append above finish finish']
  dsimp only
  split
  · exact readReceiver_append (above.suffix suffix)
  · rfl

/-! ## Declarations -/

private theorem readAlias_append {name : Token} {items : List Item}
    (below : Below keyword.line later) :
    readAlias keyword name (items ++ later) = (readAlias keyword name items).extend later := by
  cases items with
  | nil =>
    cases later with
    | nil => rfl
    | cons next later =>
      have other : next.line ≠ keyword.line := (below next (List.mem_cons_self ..)).ne'
      simp [readAlias, other, Reading.extend]
  | cons mark after =>
    rw [List.cons_append, readAlias, readAlias]
    split
    · rw [Items.onLine_append below, Items.skipLine_append below]
      rfl
    · rfl

private theorem readDeclaration_append (above : Above (first :: rest) later) :
    readDeclaration finish' first.toToken (rest ++ later) =
      (readDeclaration finish first.toToken rest).extend later := by
  unfold readDeclaration
  rw [Items.frontIs_append above.below]
  split
  · next named =>
    obtain ⟨name, after, rfl, -, -⟩ := Items.exists_of_frontIs named
    rw [Items.peekName_append above.of_cons finish finish', Items.afterName_append above.of_cons]
    dsimp only
    rw [readAlias_append above.below]
    simp only [Reading.extend, Items.skipLine_append above.below]
  · rw [Items.skipLine_append above.below]
    rfl

/-! ## Statements -/

/-- A statement is read on its line, whatever stands below. -/
theorem readStatement_append (cut : ∀ item ∈ first :: rest, item.IsCut)
    (above : Above (first :: rest) later) :
    readStatement finish' first (rest ++ later) =
      (readStatement finish first rest).extend later := by
  have begins : beginsMessage finish' (first :: (rest ++ later)) =
      beginsMessage finish (first :: rest) := beginsMessage_append cut above
  unfold readStatement
  rw [begins, Items.skipLine_append above.below]
  split
  · rw [Decoration.read_append above.below (.inr rfl)]
    rfl
  · split_ifs
    · rfl
    · exact readDeclaration_append above
    · next begins => exact readMessage_append above begins
    all_goals rfl

end DiagramCheck.Sequence
