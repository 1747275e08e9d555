/-
# Messages that are announced

A message is announced by looking ahead: behind the name in front there is the
arrow of a message, on the line where the name ends. Only then is the message
read, and reading it begins with taking the name. What was looked at is what is
come upon, because the name that is taken is the name that was shown, and as many
tokens are passed as were counted.

Main statement: `name_taken_as_shown`.
-/

import DiagramCheck.Proofs.Reading.Cursor
import DiagramCheck.Sequence.Reading

namespace DiagramCheck

namespace Cursor

variable {source : String}

/-- Whether a message is announced: the arrow of a message behind the name at the cursor, on the
line where the name ends. -/
def atMessage (cursor : Cursor source) : Bool :=
  let sender := cursor.peekName
  let arrow := cursor.ahead (max 1 cursor.nameLength)
  arrow.kind.isMessage && arrow.line == sender.endLine

/-- What is looked at behind a name is the token that is come upon when the name is taken. -/
theorem ahead_takeName (cursor : Cursor source) :
    cursor.takeName.2.ahead 0 = cursor.ahead (max 1 cursor.nameLength) := by
  rw [ahead_eq, ahead_eq, List.drop_zero, items_takeName, nameLength_eq]
  rfl

private theorem atMessage_eq (cursor : Cursor source) :
    cursor.atMessage =
      Items.frontIs (Items.peekName (Layout.finish source) cursor.items).endLine
        (·.kind.isMessage) (Items.afterName cursor.items) := by
  rw [atMessage, ← ahead_takeName, ahead_eq, List.drop_zero, items_takeName, peekName_eq]
  cases Items.afterName cursor.items with
  | nil => rfl
  | cons arrow after => exact Bool.and_comm ..

/-- A message begins where a participant is named and a message is announced. -/
theorem beginsMessage_eq (cursor : Cursor source) :
    Sequence.beginsMessage (Layout.finish source) cursor.items =
      ((cursor.ahead 0).isParticipantName && cursor.atMessage) := by
  rw [atMessage_eq, ahead_eq, List.drop_zero]
  rfl

/-- A message that is announced is read from its arrow on when its sender has been taken. -/
theorem readMessage_of_atMessage {cursor : Cursor source} (announced : cursor.atMessage = true) :
    ∃ first rest shape, cursor.items = first :: rest ∧
      (cursor.takeName.2.ahead 0).kind = .arrow shape ∧
      Sequence.readMessage (Layout.finish source) first rest =
        Sequence.readReceiver (Layout.finish source) cursor.takeName.1
          (cursor.takeName.2.ahead 0) shape cursor.takeName.2.advance.items := by
  rw [atMessage_eq] at announced
  obtain ⟨arrow, after, behind, -, carries⟩ := Items.exists_of_frontIs announced
  obtain ⟨first, rest, left⟩ : ∃ first rest, cursor.items = first :: rest := by
    refine List.exists_cons_of_ne_nil fun none => ?_
    rw [none] at behind
    cases behind
  -- What the cursor has taken is the name in front of the items, and the arrow is next.
  have sender : cursor.takeName.1 = Items.peekName (Layout.finish source) (first :: rest) := by
    rw [takeName, peekName_eq, left]
  have found : cursor.takeName.2.ahead 0 = arrow.toToken := by
    rw [ahead_eq, List.drop_zero, items_takeName, behind]
    rfl
  have later : cursor.takeName.2.advance.items = after := by
    rw [items_advance, items_takeName, behind, List.tail_cons]
  rw [left] at behind
  obtain ⟨shape, kind⟩ : ∃ shape, arrow.kind = .arrow shape := by
    unfold TokenKind.isMessage at carries
    split at carries
    · next shape kind => exact ⟨shape, kind⟩
    · cases carries
  refine ⟨first, rest, shape, left, by rw [found, kind], ?_⟩
  rw [Sequence.readMessage, behind, sender, found, later]
  dsimp only
  rw [kind]

/-- A name is taken as it is shown. The token that is shown, its text cut out of the source, is the
token that is given, and it is the name in front of the items. As many tokens are passed as spell
the name, at least one, but never the end of the input. The text is that of the tokens passed, put
together, and they are name tokens of which each touches the one before it and no further one
behind, or a single token that is no name. So a message that is announced has its arrow where its
sender ends, on the same line, and is read from there. -/
theorem name_taken_as_shown (cursor : Cursor source) :
    (cursor.takeName.1 = cursor.peekName ∧
      cursor.peekName = Items.peekName (Layout.finish source) cursor.items) ∧
    (cursor.takeName.2.place = cursor.place +
        (if (cursor.ahead 0).kind = .endOfInput then 0 else max 1 cursor.nameLength) ∧
      cursor.takeName.2.items = Items.afterName cursor.items) ∧
    (∃ taken, cursor.items = taken ++ cursor.takeName.2.items ∧
      cursor.takeName.1.text = String.join (taken.map (·.text)) ∧
      Items.TakenAsName taken cursor.takeName.2.items) ∧
    (Sequence.beginsMessage (Layout.finish source) cursor.items =
      ((cursor.ahead 0).isParticipantName && cursor.atMessage)) ∧
    (cursor.atMessage = true →
      (cursor.takeName.2.ahead 0).kind.isMessage = true ∧
      (cursor.takeName.2.ahead 0).line = cursor.takeName.1.endLine ∧
      ∃ first rest shape, cursor.items = first :: rest ∧
        (cursor.takeName.2.ahead 0).kind = .arrow shape ∧
        Sequence.readMessage (Layout.finish source) first rest =
          Sequence.readReceiver (Layout.finish source) cursor.takeName.1
            (cursor.takeName.2.ahead 0) shape cursor.takeName.2.advance.items) := by
  obtain ⟨taken, split, text, shape⟩ := Items.exists_takenAsName source cursor.items
  rw [← items_takeName] at split shape
  rw [← peekName_eq] at text
  refine ⟨⟨rfl, cursor.peekName_eq⟩, ⟨cursor.place_takeName, cursor.items_takeName⟩,
    ⟨taken, split, text, shape⟩, cursor.beginsMessage_eq, fun announced => ?_⟩
  have read := readMessage_of_atMessage announced
  rw [atMessage, ← ahead_takeName, Bool.and_eq_true, beq_iff_eq] at announced
  exact ⟨announced.1, announced.2, read⟩

/-- A sender of two tokens is passed as a whole, and then comes the arrow. -/
theorem name_taken_as_shown_accent :
    let cursor : Cursor "sequenceDiagram\nCafé->>B: x" := ⟨1, by decide +kernel⟩
    cursor.atMessage = true ∧ cursor.takeName.1.text = "Café" ∧ cursor.takeName.2.place = 3 ∧
      (cursor.takeName.2.ahead 0).kind.isMessage = true := by
  intro cursor
  have announced : cursor.atMessage = true := by decide +kernel
  have counted : (cursor.ahead 0).kind ≠ .endOfInput ∧ cursor.nameLength = 2 := by
    decide +kernel
  have text : cursor.peekName.text = "Café" := by decide +kernel
  obtain ⟨⟨same, -⟩, ⟨place, -⟩, -, -, carries⟩ := name_taken_as_shown cursor
  rw [if_neg counted.1, counted.2] at place
  exact ⟨announced, same ▸ text, place, (carries announced).1⟩

end Cursor

end DiagramCheck
