/-
# Signs in front of a receiver

Between the arrow of a message and its receiver a sign may stand, which starts or stops
the activity of the receiver and is no part of its name. A plus sign is always passed
over. A minus sign is passed over unless the name behind it is written in digits alone:
sign and digits are then one number, and the message goes to that.

Main statement: `signs_passed_over_iff`.
-/

import DiagramCheck.Proofs.Sequence.Message
import DiagramCheck.Proofs.Token.Touching

namespace DiagramCheck.Sequence

open Lexeme (Leads StopsPiece isWordChar)

/-! ## Arrows of messages -/

private theorem exists_mark_of_arrow? {text : List Char} {shape : Arrow} {length : Nat}
    (found : Lexeme.arrow? text = some (shape, length)) (carries : shape.isMessage = true) :
    ∃ mark : Mark, text.take length = mark.print.toList ∧ shape = mark.shape := by
  unfold Lexeme.arrow? at found
  split at found
  all_goals cases found
  all_goals first
    | exact absurd carries Bool.false_ne_true
    | exact ⟨.longDotted, rfl, rfl⟩
    | exact ⟨.dotted, rfl, rfl⟩
    | exact ⟨.dashedOpen, rfl, rfl⟩
    | exact ⟨.plain, rfl, rfl⟩
    | exact ⟨.shortOpen, rfl, rfl⟩
    | exact ⟨.short, rfl, rfl⟩
    | exact ⟨.thick, rfl, rfl⟩

/-- Every arrow of a message is one of the marks. -/
theorem exists_mark {shape : Arrow} {arrow behind : List Char}
    (leads : Leads (.arrow shape) arrow behind) (carries : shape.isMessage = true) :
    ∃ mark : Mark, arrow = mark.print.toList ∧ shape = mark.shape := by
  obtain ⟨c, tail, rfl, -, next⟩ := leads.exists_cons
  have rule := Lexeme.next_rule c (tail ++ behind)
  rw [next] at rule
  cases rule with
  | arrow found =>
    have spelled := exists_mark_of_arrow? found carries
    rwa [← List.cons_append, List.take_left] at spelled
  | delimiter found =>
    have other := (Lexeme.delimiter?_kind found).2.2
    cases other

/-! ## Receivers -/

/-- A receiver whose name is written in ASCII letters, digits and underscores. -/
structure Receiver where
  text : String
  written : text ≠ ""
  letters : text.toList.all isWordChar = true

namespace Receiver

variable (receiver : Receiver)

/-- Whether the name of a receiver is written in digits alone. -/
def isNumeric : Bool := receiver.text.toList.all Char.isDigit

/-- The receiver that is read where a sign stands before the name. -/
def signed (sign : String) : String :=
  if sign = "-" ∧ receiver.isNumeric = true then sign ++ receiver.text else receiver.text

private theorem signed_minus_iff :
    receiver.signed "-" = receiver.text ↔ receiver.isNumeric = false := by
  cases numeric : receiver.isNumeric with
  | true =>
    have joined : receiver.signed "-" = "-" ++ receiver.text := if_pos ⟨rfl, numeric⟩
    refine iff_of_false (fun same => ?_) (by simp)
    have longer := congrArg String.length (joined.symm.trans same)
    rw [String.length_append] at longer
    exact absurd longer (Nat.ne_of_gt (Nat.lt_add_of_pos_left (by decide)))
  | false => exact iff_of_true (if_neg (by simp [numeric])) rfl

theorem toList_ne_nil : receiver.text.toList ≠ [] := fun empty =>
  receiver.written (String.toList_eq_nil_iff.1 empty)

theorem newline_not_mem : '\n' ∉ receiver.text.toList := fun newline =>
  absurd (List.all_eq_true.1 receiver.letters _ newline) (by decide)

/-- What stands behind a receiver is the colon of its message. -/
theorem stopsPiece_colon (text : List Char) : StopsPiece (':' :: text) := by
  refine ⟨?_, by rfl⟩
  rintro _ ⟨⟩
  exact ⟨by decide, by decide⟩

private theorem exists_spells (text : List Char) : ∃ kind,
    (Token.unplaced (kind, receiver.text)).isName = true ∧
      Spells receiver.text.toList (':' :: text) [(kind, receiver.text)] := by
  have chars : receiver.text.toList.all Token.isNameChar = true :=
    List.all_eq_true.2 fun c member =>
      Token.isNameChar_of_isWordChar (List.all_eq_true.1 receiver.letters c member)
  obtain ⟨kind, plain, leads⟩ := Lexeme.leads_stretch receiver.toList_ne_nil receiver.letters
    (stopsPiece_colon text)
  have piece := Token.isPiece_ofLexeme plain chars leads .start
  have spelled := Spells.of_lexeme leads
  rw [Token.ofLexeme, String.ofList_toList] at piece spelled
  exact ⟨_, piece.named, spelled⟩

/-- A number with its sign is a name. -/
theorem spells_negative (numeric : receiver.isNumeric = true) (text : List Char) :
    Spells ('-' :: receiver.text.toList) (':' :: text) [(.number, "-" ++ receiver.text)] := by
  have leads := Lexeme.leads_negative receiver.toList_ne_nil receiver.letters
    (stopsPiece_colon text) (by rfl) numeric
  have spelled := Spells.of_leads leads nofun
  rwa [String.ofList_cons, String.ofList_toList] at spelled

/-- Nothing of an arrow stands at the front of a receiver, with a sign or without one. -/
theorem front_ne {sign : String} (signs : sign = "" ∨ sign = "+" ∨ sign = "-")
    (behind : List Char) :
    ∀ c ∈ (sign.toList ++ (receiver.text.toList ++ behind)).head?, c ≠ '>' := by
  rcases signs with rfl | rfl | rfl
  · rw [String.toList_empty, List.nil_append, List.head?_append_of_ne_nil _ receiver.toList_ne_nil]
    rintro _ front rfl
    exact absurd (List.all_eq_true.1 receiver.letters _ (List.mem_of_mem_head? front)) (by decide)
  · rintro _ ⟨⟩
    decide
  · rintro _ ⟨⟩
    decide

end Receiver

/-! ## The line of a message -/

/-- A message from `A` with a sign before its receiver. -/
def signedLine (arrow sign receiver text : String) : String :=
  "A" ++ arrow ++ sign ++ receiver ++ ": " ++ text

/-- A sequence diagram with a message from `A` and a sign before its receiver. -/
def signedSource (arrow sign receiver text : String) : String :=
  "sequenceDiagram" ++ "\n" ++ signedLine arrow sign receiver text

/-- The words of a message whose receiver has a sign before it. -/
theorem exists_spells_signedLine (mark : Mark) {sign : String}
    (signs : sign = "" ∨ sign = "+" ∨ sign = "-") (receiver : Receiver) (text : String) :
    ∃ sign? kind, (sign? = none ∨ sign? = some "+" ∨ sign? = some "-") ∧
      (Token.unplaced (kind, receiver.signed sign)).isName = true ∧
      Spells (signedLine mark.print sign receiver.text text).toList []
        (messageLine mark sign? (kind, receiver.signed sign) (Token.words text)) := by
  have said : Spells (':' :: ' ' :: text.toList) [] ((.colon, ":") :: Token.words text) :=
    (spells_colon _).append (Spells.self text).blank
  have line : (signedLine mark.print sign receiver.text text).toList =
      ['A'] ++ (mark.print.toList ++ (sign.toList ++ receiver.text.toList ++
        ':' :: ' ' :: text.toList)) := by
    simp [signedLine]
  have sender := spells_sender mark
    (sign.toList ++ receiver.text.toList ++ ':' :: ' ' :: text.toList ++ [])
  rw [← List.append_assoc] at sender
  have arrow := mark.spells (receiver.front_ne signs (':' :: ' ' :: text.toList ++ []))
  rw [← List.append_assoc, ← List.append_assoc] at arrow
  -- Whatever the sign and the receiver are read as, the rest of the line is read alike.
  have whole {sign? : Option String} {kind : TokenKind}
      (received : Spells (sign.toList ++ receiver.text.toList) (':' :: ' ' :: text.toList)
        ((sign?.toList.map fun sign => (.identifier, sign)) ++ [(kind, receiver.signed sign)])) :
      Spells (signedLine mark.print sign receiver.text text).toList []
        (messageLine mark sign? (kind, receiver.signed sign) (Token.words text)) := by
    rw [← List.append_nil (':' :: ' ' :: text.toList)] at received
    have spelled := sender.append (arrow.append (received.append said))
    rw [line]
    simpa [messageLine] using spelled
  have plain {sign : String} (other : ¬ (sign = "-" ∧ receiver.isNumeric = true)) :
      receiver.signed sign = receiver.text := if_neg other
  obtain ⟨kind, named, spelled⟩ := receiver.exists_spells (' ' :: text.toList)
  rcases signs with rfl | rfl | rfl
  · rw [plain (by simp)] at whole ⊢
    exact ⟨none, kind, .inl rfl, named, whole spelled⟩
  · have marked : Spells ['+'] (receiver.text.toList ++ ':' :: ' ' :: text.toList)
        [(.identifier, "+")] := Spells.of_identifier (Lexeme.leads_plus _)
    rw [plain (by simp)] at whole ⊢
    exact ⟨some "+", kind, .inr (.inl rfl), named, whole (marked.append spelled)⟩
  · cases numeric : receiver.isNumeric with
    | true =>
      -- A minus in front of digits belongs to the number.
      have joined : receiver.signed "-" = "-" ++ receiver.text := if_pos ⟨rfl, numeric⟩
      have negative := receiver.spells_negative numeric (' ' :: text.toList)
      rw [joined] at whole ⊢
      exact ⟨none, .number, .inl rfl, rfl, whole negative⟩
    | false =>
      have marked : Spells ['-'] (receiver.text.toList ++ ':' :: ' ' :: text.toList)
          [(.identifier, "-")] :=
        Spells.of_identifier (Lexeme.leads_minus receiver.toList_ne_nil receiver.letters
          (Receiver.stopsPiece_colon _) numeric)
      rw [plain (by simp [numeric])] at whole ⊢
      exact ⟨some "-", kind, .inr (.inr rfl), named, whole (marked.append spelled)⟩

/-! ## Messages with signs -/

section Signed

variable (receiver : Receiver) {shape : Arrow} {arrow text : String}
  (carries : shape.isMessage = true)
  (whole : Leads (.arrow shape) arrow.toList receiver.text.toList)
  (single : '\n' ∉ text.toList)

include carries whole single

/-- Whatever sign stands before a receiver, what the message says and its stroke are the same. -/
theorem ofSource?_signedSource : ∃ said, ∀ sign, (sign = "" ∨ sign = "+" ∨ sign = "-") →
    ofSource? (signedSource arrow sign receiver.text text) =
      some (ofStatements [.message ⟨"A", receiver.signed sign, said, .ofArrow shape⟩]) := by
  obtain ⟨mark, written, rfl⟩ := exists_mark whole carries
  rw [String.toList_inj] at written
  subst written
  refine ⟨sayingOf (Token.words text), fun sign signs => ?_⟩
  obtain ⟨sign?, kind, marked, named, spelled⟩ :=
    exists_spells_signedLine mark signs receiver text
  have line : '\n' ∉ (signedLine mark.print sign receiver.text text).toList := by
    have arrow : '\n' ∉ mark.print.toList := by cases mark <;> decide
    have own : '\n' ∉ sign.toList := by rcases signs with rfl | rfl | rfl <;> decide
    simp [signedLine, arrow, own, receiver.newline_not_mem, single]
  have stroke : mark.stroke = .ofArrow mark.shape := by cases mark <;> rfl
  have message := ofSource?_message line spelled marked named
  rw [stroke] at message
  exact message

/-- A message with a sign before its receiver is read as the message without it, unless the sign
is a minus and the receiver is written in digits alone. Then the message goes to a negative
number. -/
theorem signs_passed_over_iff : ∃ said,
    ofSource? (signedSource arrow "" receiver.text text) =
        some (ofStatements [.message ⟨"A", receiver.text, said, .ofArrow shape⟩]) ∧
      ofSource? (signedSource arrow "+" receiver.text text) =
        ofSource? (signedSource arrow "" receiver.text text) ∧
      (ofSource? (signedSource arrow "-" receiver.text text) =
          ofSource? (signedSource arrow "" receiver.text text) ↔ receiver.isNumeric = false) ∧
      (receiver.isNumeric = true → ofSource? (signedSource arrow "-" receiver.text text) =
        some (ofStatements [.message ⟨"A", "-" ++ receiver.text, said, .ofArrow shape⟩])) := by
  obtain ⟨said, read⟩ := ofSource?_signedSource receiver carries whole single
  have bare : receiver.signed "" = receiver.text := if_neg (by simp)
  have plus : receiver.signed "+" = receiver.text := if_neg (by simp)
  rw [read "" (.inl rfl), read "+" (.inr (.inl rfl)), read "-" (.inr (.inr rfl)), bare, plus]
  refine ⟨said, rfl, rfl, ?_, fun numeric => by rw [Receiver.signed, if_pos ⟨rfl, numeric⟩]⟩
  rw [← receiver.signed_minus_iff]
  refine ⟨fun same => ?_, fun same => by rw [same]⟩
  have messages := congrArg Sequence.messages (Option.some.inj same)
  exact congrArg Message.receiver (List.cons.inj messages).1

end Signed

/-- Both signs are passed over before the receiver `B_1`. -/
theorem signs_passed_over_iff_word : '\n' ∉ "hello there".toList ∧ ∃ said,
    ofSource? (signedSource "-->>" "" "B_1" "hello there") =
        some (ofStatements [.message ⟨"A", "B_1", said, .dotted⟩]) ∧
      ofSource? (signedSource "-->>" "+" "B_1" "hello there") =
        ofSource? (signedSource "-->>" "" "B_1" "hello there") ∧
      ofSource? (signedSource "-->>" "-" "B_1" "hello there") =
        ofSource? (signedSource "-->>" "" "B_1" "hello there") := by
  have single : '\n' ∉ "hello there".toList := by decide
  obtain ⟨said, bare, plus, minus, -⟩ := @signs_passed_over_iff ⟨"B_1", by decide, by decide⟩
    .dashedOpen "-->>" "hello there" rfl ⟨'-', _, rfl, by decide, by decide⟩ single
  exact ⟨single, said, bare, plus, minus.2 (by decide)⟩

/-- Before the receiver `1` a minus sign is not passed over. -/
theorem minus_not_passed_over :
    ¬ ∀ (receiver : Receiver) (shape : Arrow) (arrow text : String), shape.isMessage = true →
      Leads (.arrow shape) arrow.toList receiver.text.toList →
      (∀ c ∈ text.toList, c ≠ '\n' ∧ c ∉ Text.unplain) →
      ofSource? (signedSource arrow "-" receiver.text text) =
        ofSource? (signedSource arrow "" receiver.text text) := by
  intro passed
  have same := passed ⟨"1", by decide, by decide⟩ .shortOpen "->>" "x" rfl
    ⟨'-', _, rfl, by decide, by decide⟩ (by simp [Text.unplain])
  exact absurd same (by decide +kernel)

end DiagramCheck.Sequence
