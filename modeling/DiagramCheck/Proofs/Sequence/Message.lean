/-
# A diagram with one message

A message is a sender, an arrow, a receiver and behind a colon what it says, all on one
line. A sign between the arrow and the receiver is passed over. What the message says
are the words behind the colon with single spaces between them, whatever else stood
between them in the source.

Below the header of a sequence diagram a line is read as it is read alone, so a diagram
with a message and nothing else can be told from the words of that line.

Main statement: `ofSource?_message`.
-/

import DiagramCheck.Proofs.Layout.Plain
import DiagramCheck.Proofs.Sequence.Script

namespace DiagramCheck

/-! ## Words that are read -/

/-- A word as a token, wherever it stands. -/
def Token.unplaced (word : TokenKind × String) : Token := ⟨word.1, word.2, .start⟩

/-- The text of a label depends on the words of its tokens only. -/
theorem Label.text?_congr {tokens others : List Token}
    (same : tokens.map Token.word = others.map Token.word) : text? tokens = text? others := by
  have values : tokens.map Token.value = others.map Token.value :=
    calc tokens.map Token.value
        = (tokens.map Token.word).map (Token.value ∘ Token.unplaced) := by
          rw [List.map_map]
          rfl
      _ = others.map Token.value := by
          rw [same, List.map_map]
          rfl
  have empty : tokens.isEmpty = others.isEmpty := by
    rw [← List.isEmpty_map (f := Token.word), same, List.isEmpty_map]
  rw [text?, text?, values, empty]

/-- The text of a label can be told from its words. -/
theorem Label.ofItems?_eq_of_words {items : List Item} {words : List (TokenKind × String)}
    (spelled : items.map (·.word) = words) :
    ofItems? items = text? (words.map Token.unplaced) := by
  refine text?_congr ?_
  rw [← spelled, List.map_map, List.map_map, List.map_map]
  rfl

namespace Layout

variable {text : String} {words : List (TokenKind × String)}

/-- Whether the grammars read a word. -/
def isRead (word : TokenKind × String) : Bool := (Token.unplaced word).isSignificant

theorem isRead_of_isName {word : TokenKind × String} (named : (Token.unplaced word).isName = true) :
    isRead word = true :=
  Token.isName_isSignificant named

private theorem filter_tokenize (text : String) :
    (Token.tokenize text).filter Token.isSignificant =
      (Token.lexemes .start text.toList).filter Token.isSignificant := by
  rw [Token.tokenize, Token.stream_eq_lexemes, List.filter_append]
  exact List.append_nil _

/-- The items of a text are its words as far as they are read. -/
theorem words_items (spelled : Spells text.toList [] words) :
    (items (Token.tokenize text)).map (·.word) = words.filter isRead := by
  rw [← spelled.lexemes_eq .start, List.filter_map]
  calc (items (Token.tokenize text)).map (·.word)
      = ((items (Token.tokenize text)).map Item.toToken).map Token.word := by
        rw [List.map_map]
        rfl
    _ = ((Token.lexemes .start text.toList).filter Token.isSignificant).map Token.word := by
        rw [map_toToken_items, filter_tokenize]

/-- The items of a text without newlines stand on its only line. -/
theorem line_of_mem_items (single : '\n' ∉ text.toList) :
    ∀ item ∈ items (Token.tokenize text), item.line = 1 ∧ item.endLine = 1 := by
  intro item member
  have listed := List.mem_map_of_mem (f := Item.toToken) member
  rw [map_toToken_items, filter_tokenize] at listed
  exact Token.line_of_mem_lexemes single item.toToken (List.mem_of_mem_filter listed)

end Layout

namespace Sequence

variable {finish : Token}

/-! ## Reading a message -/

private theorem isActivationMark_of_isName {token : Token} (named : token.isName = true) :
    token.isActivationMark = false := by
  refine Bool.eq_false_iff.2 fun mark => ?_
  simp only [Token.isActivationMark, Token.isWord, Bool.or_eq_true, Bool.and_eq_true,
    beq_iff_eq] at mark
  rcases mark with ⟨kind, text⟩ | ⟨kind, text⟩
  all_goals
    rw [Token.isName, kind, text] at named
    exact absurd named (by decide)

section Receiver

variable {arrow : Token} {receiver : Item} {behind : List Item}
  (named : receiver.isName = true)

include named

private theorem dropIf_receiver (line : Nat) :
    Items.dropIf line (·.isActivationMark) (receiver :: behind) = receiver :: behind := by
  rw [Items.dropIf, Items.frontIs, isActivationMark_of_isName named, Bool.and_false,
    if_neg Bool.false_ne_true]

/-- The receiver of a message is the name behind its arrow, and what is said is the rest of the
line behind the colon. -/
theorem readReceiver_name (sender : Token) (shape : Arrow) {colon : Item} {said : List Item}
    (kind : colon.kind = .colon)
    (lines : ∀ item ∈ receiver :: colon :: said, item.line = arrow.line) :
    readReceiver finish sender arrow shape (receiver :: colon :: said) =
      ⟨some (.message ⟨sender.value, receiver.text, (Label.ofItems? said).getD "",
        .ofArrow shape⟩), [], []⟩ := by
  have alone : ∀ next ∈ (colon :: said).head?, next.isName = true →
      next.offset ≠ receiver.stop := by
    rintro _ ⟨⟩ other
    rw [Token.isName, kind] at other
    cases other
  obtain ⟨peek, after⟩ := Items.peekName_alone alone finish
  obtain ⟨beside, lines⟩ := List.forall_mem_cons.1 lines
  obtain ⟨between, lines⟩ := List.forall_mem_cons.1 lines
  have front : Items.frontIs arrow.line (·.isParticipantName) (receiver :: colon :: said) =
      true := by
    simp [Items.frontIs, Token.isParticipantName, named, beside]
  have words : Items.dropIf arrow.line (·.kind == .colon) (colon :: said) = said := by
    simp [Items.dropIf, Items.frontIs, kind, between]
  have whole : Items.onLine arrow.line said = said :=
    List.takeWhile_eq_self_iff.2 fun item member => beq_iff_eq.2 (lines item member)
  have rest : Items.skipLine arrow.line said = [] :=
    List.dropWhile_eq_nil_iff.2 fun item member => beq_iff_eq.2 (lines item member)
  rw [readReceiver, dropIf_receiver named, if_pos front, after, words, peek]
  dsimp only
  rw [whole, rest, Token.value_of_isName named]

/-- A sign between the arrow and the receiver is passed over. -/
theorem readReceiver_sign (sender : Token) (shape : Arrow) {sign : Item}
    (marks : sign.isActivationMark = true) (beside : sign.line = arrow.line) :
    readReceiver finish sender arrow shape (sign :: receiver :: behind) =
      readReceiver finish sender arrow shape (receiver :: behind) := by
  have dropped : Items.dropIf arrow.line (·.isActivationMark) (sign :: receiver :: behind) =
      receiver :: behind := by
    simp [Items.dropIf, Items.frontIs, marks, beside]
  rw [readReceiver, dropped, readReceiver, dropIf_receiver named]

end Receiver

/-- A line that begins with the sender `A` and an arrow is a message. -/
theorem readStatement_sender {first arrow : Item} {behind : List Item} {shape : Arrow}
    (sends : first.word = (.identifier, "A")) (points : arrow.kind = .arrow shape)
    (carries : shape.isMessage = true) (beside : arrow.line = first.endLine) :
    readStatement finish first (arrow :: behind) =
      readReceiver finish first.toToken arrow.toToken shape behind := by
  obtain ⟨kind, text⟩ : first.kind = .identifier ∧ first.text = "A" := Prod.ext_iff.1 sends
  -- The sender neither decorates nor declares, so the arrow announces a message.
  have undecorated : first.decoration? = none := by
    rw [Item.decoration?, text]
    exact ite_self none
  have undeclared : first.declaresParticipant = false := by
    rw [Token.declaresParticipant, Token.isWord, kind, text]
    decide
  have named : first.isName = true := by
    rw [Token.isName, kind, text]
    decide
  have alone : ∀ next ∈ (arrow :: behind).head?, next.isName = true →
      next.offset ≠ first.stop := by
    rintro _ ⟨⟩ other
    rw [Token.isName, points] at other
    cases other
  obtain ⟨peek, after⟩ := Items.peekName_alone alone finish
  have begins : beginsMessage finish (first :: arrow :: behind) = true := by
    rw [beginsMessage, peek, after]
    simp [Items.front, Items.frontIs, Token.isParticipantName, named, points,
      TokenKind.isMessage, carries, beside]
  rw [readStatement, undecorated]
  dsimp only
  rw [if_neg (by simp [kind]), if_neg (by simp [undeclared]), if_pos begins, readMessage, peek,
    after]
  dsimp only
  rw [points]

/-! ## A message alone -/

/-- A word ends where the arrow of a message begins. -/
theorem Mark.wordTail_print (mark : Mark) (behind : List Char) :
    Lexeme.wordTail (mark.print.toList ++ behind) = 0 := by
  cases mark <;> rfl

theorem spells_sender (mark : Mark) (behind : List Char) :
    Spells ['A'] (mark.print.toList ++ behind) [(.identifier, "A")] := by
  refine Spells.of_identifier ⟨'A', mark.print.toList ++ behind, rfl, by decide, ?_⟩
  rw [Lexeme.next_of_isAlpha (by decide), Lexeme.word, if_pos (by decide), mark.wordTail_print]
  rfl

/-- The words of a message from `A`, perhaps with a sign before the receiver. -/
def messageLine (mark : Mark) (sign : Option String) (receiver : TokenKind × String)
    (said : List (TokenKind × String)) : List (TokenKind × String) :=
  (.identifier, "A") :: (.arrow mark.shape, mark.print) ::
    (sign.toList.map fun sign => (.identifier, sign)) ++ receiver :: (.colon, ":") :: said

/-- What a message says that has some words behind its colon. -/
def sayingOf (said : List (TokenKind × String)) : String :=
  (Label.text? ((said.filter Layout.isRead).map Token.unplaced)).getD ""

/-- What is read of a text below the header of a sequence diagram. -/
theorem ofSource?_below_header (text : String) :
    ofSource? ("sequenceDiagram" ++ "\n" ++ text) =
      some (ofStatements ((lineBased.statements text).filterMap (·.value))) := by
  have names : TokenKind.ofWord "sequenceDiagram" = .header .sequence := by decide
  rw [ofSource?, lineBased.validate_below_header readContent_eq names, contentOf,
    List.filterMap_map]
  rfl

section Alone

variable {line : String} {mark : Mark} {sign : Option String} {receiver : TokenKind × String}
  {said : List (TokenKind × String)}

private theorem filter_messageLine (named : (Token.unplaced receiver).isName = true) :
    (messageLine mark sign receiver said).filter Layout.isRead =
      messageLine mark sign receiver (said.filter Layout.isRead) := by
  have own := Layout.isRead_of_isName named
  have front : ∀ word ∈ (.identifier, "A") :: (.arrow mark.shape, mark.print) ::
      (sign.toList.map fun sign => (TokenKind.identifier, sign)), Layout.isRead word = true :=
    List.forall_mem_cons.2 ⟨rfl, List.forall_mem_cons.2 ⟨rfl,
      List.forall_mem_map.2 fun _ _ => rfl⟩⟩
  have back : (receiver :: (.colon, ":") :: said).filter Layout.isRead =
      receiver :: (.colon, ":") :: said.filter Layout.isRead := by
    rw [List.filter_cons_of_pos own, List.filter_cons_of_pos rfl]
  rw [messageLine, List.filter_append, List.filter_eq_self.2 front, back, messageLine]

/-- What stands behind the arrow of a message is its receiver, perhaps with a sign in front, and
what it says. -/
private theorem readReceiver_words {sender arrow : Token} {items : List Item}
    (spelled : items.map (·.word) = (sign.toList.map fun sign => (.identifier, sign)) ++
      receiver :: (.colon, ":") :: said)
    (signs : sign = none ∨ sign = some "+" ∨ sign = some "-")
    (named : (Token.unplaced receiver).isName = true)
    (lines : ∀ item ∈ items, item.line = arrow.line) :
    readReceiver finish sender arrow mark.shape items =
      ⟨some (.message ⟨sender.value, receiver.2, (Label.text? (said.map Token.unplaced)).getD "",
        mark.stroke⟩), [], []⟩ := by
  have stroke : MessageStroke.ofArrow mark.shape = mark.stroke := by cases mark <;> rfl
  obtain ⟨front, _, rfl, signed, rest⟩ := List.map_eq_append_iff.1 spelled
  obtain ⟨own, _, rfl, received, rest⟩ := List.map_eq_cons_iff.1 rest
  obtain ⟨colon, text, rfl, parts, words⟩ := List.map_eq_cons_iff.1 rest
  have name : own.isName = true := by
    rw [← received] at named
    exact named
  have plain : readReceiver finish sender arrow mark.shape (own :: colon :: text) =
      ⟨some (.message ⟨sender.value, receiver.2, (Label.text? (said.map Token.unplaced)).getD "",
        mark.stroke⟩), [], []⟩ := by
    have target : own.text = receiver.2 := (Prod.ext_iff.1 received).2
    rw [readReceiver_name name sender mark.shape (Prod.ext_iff.1 parts).1
      fun item member => lines item (List.mem_append_right _ member), target, stroke,
      Label.ofItems?_eq_of_words words]
  -- A sign is passed over, so both cases come to the one without.
  cases sign with
  | none =>
    obtain rfl := List.map_eq_nil_iff.1 signed
    exact plain
  | some sign =>
    obtain ⟨marker, _, rfl, same, none⟩ := List.map_eq_cons_iff.1 signed
    obtain rfl := List.map_eq_nil_iff.1 none
    have marks : marker.isActivationMark = true := by
      obtain ⟨kind, text⟩ : marker.kind = .identifier ∧ marker.text = sign := Prod.ext_iff.1 same
      rw [Token.isActivationMark, Token.isWord, Token.isWord, kind, text]
      rcases signs with absent | plus | minus
      · cases absent
      · cases plus
        decide
      · cases minus
        decide
    rw [List.singleton_append, readReceiver_sign name _ _ marks (lines marker (by simp))]
    exact plain

private theorem statements_messageLine (single : '\n' ∉ line.toList)
    (spelled : Spells line.toList [] (messageLine mark sign receiver said))
    (signs : sign = none ∨ sign = some "+" ∨ sign = some "-")
    (named : (Token.unplaced receiver).isName = true) :
    lineBased.statements line =
      [⟨some (.message ⟨"A", receiver.2, sayingOf said, mark.stroke⟩), [], []⟩] := by
  have lines := Layout.line_of_mem_items single
  have words := Layout.words_items spelled
  have carries : mark.shape.isMessage = true := by cases mark <;> rfl
  rw [filter_messageLine named] at words
  rw [LineBased.statements]
  generalize Layout.items (Token.tokenize line) = items at lines words
  -- The sender and the arrow decide that this is a message; the rest is for its receiver.
  obtain ⟨first, _, rfl, sends, words⟩ := List.map_eq_cons_iff.1 words
  obtain ⟨arrow, behind, rfl, points, words⟩ := List.map_eq_cons_iff.1 words
  have pointed : arrow.kind = .arrow mark.shape := (Prod.ext_iff.1 points).1
  have sender : first.value = "A" := by
    obtain ⟨kind, text⟩ : first.kind = .identifier ∧ first.text = "A" := Prod.ext_iff.1 sends
    rw [Token.value, kind, text]
    rfl
  have own := (lines arrow (by simp)).1
  have beside : arrow.line = first.endLine := by rw [own, (lines first (by simp)).2]
  have sent : readReceiver (Layout.finish line) first.toToken arrow.toToken mark.shape behind = _ :=
    readReceiver_words words signs named fun item member => by
      rw [(lines item (by simp [member])).1, own]
  rw [Reading.statements, readStatement_sender sends pointed carries beside, sent,
    Reading.statements, sender, sayingOf]

/-- A sequence diagram with one line, from `A` to a receiver, is one message. -/
theorem ofSource?_message (single : '\n' ∉ line.toList)
    (spelled : Spells line.toList [] (messageLine mark sign receiver said))
    (signs : sign = none ∨ sign = some "+" ∨ sign = some "-")
    (named : (Token.unplaced receiver).isName = true) :
    ofSource? ("sequenceDiagram" ++ "\n" ++ line) =
      some (ofStatements [.message ⟨"A", receiver.2, sayingOf said, mark.stroke⟩]) := by
  rw [ofSource?_below_header, statements_messageLine single spelled signs named]
  rfl

end Alone

end Sequence

end DiagramCheck
