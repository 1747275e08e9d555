/-
# Reading sequence diagrams

The statements of a sequence diagram take a line each: declarations, messages,
and the words that open, close or decorate blocks, whose lines are accepted
unread. What begins a line decides what the line is. Decorations have no place
here, and anything else is reported once for the line.
-/

import DiagramCheck.Decoration.Reading
import DiagramCheck.Reading.Label
import DiagramCheck.Sequence.Tree

namespace DiagramCheck

namespace Token

/-- The words that open, close or decorate blocks, in any case. -/
def blockWords : List String :=
  ["loop", "alt", "else", "opt", "par", "and", "critical", "break", "rect", "end", "box",
   "activate", "deactivate", "autonumber", "create", "destroy", "links", "link", "properties",
   "details"]

/-- A word whose line is accepted unread. A note counts as one only when it is capitalised. -/
def isBlockWord (token : Token) : Bool :=
  token.isWord "Note" || blockWords.any token.isWordIgnoringCase

/-- What can name a participant: a name or a quoted string. -/
def isParticipantName (token : Token) : Bool := token.isName || token.kind == .string

/-- The words that declare a participant. -/
def declaresParticipant (token : Token) : Bool :=
  token.kind == .participant || token.isWord "actor"

/-- The signs between an arrow and a receiver that start and stop its activity. -/
def isActivationMark (token : Token) : Bool := token.isWord "+" || token.isWord "-"

end Token

namespace Sequence

/-- Whether the items begin with a sender: a name with the arrow of a message after it, on the
line where the name ends. -/
def beginsMessage (finish : Token) (items : List Item) : Bool :=
  let sender := Items.peekName finish items
  (Items.front finish items).isParticipantName &&
    Items.frontIs sender.endLine (·.kind.isMessage) (Items.afterName items)

/-- Reads the alias of a declaration whose keyword stands on `line`, if one is announced. -/
def readAlias (keyword name : Token) (items : List Item) : Reading (Option String) :=
  match items with
  | [] => ⟨none, [], []⟩
  | mark :: after =>
    if mark.line = keyword.line ∧ mark.isWord "as" then
      let words := Items.onLine keyword.line after
      let missing :=
        if words.isEmpty then
          [Diagnostic.atToken mark.toToken (.missingAlias keyword.text name.value)]
        else []
      ⟨Label.ofItems? words, missing, Items.skipLine keyword.line after⟩
    else ⟨none, [], mark :: after⟩

/-- Reads a declaration after its keyword, to the end of the line. -/
def readDeclaration (finish keyword : Token) (rest : List Item) : Reading (Option Statement) :=
  if Items.frontIs keyword.line (·.isParticipantName) rest then
    let name := Items.peekName finish rest
    let display := readAlias keyword name (Items.afterName rest)
    ⟨some (.declaration ⟨name.value, display.value⟩), display.diagnostics,
      Items.skipLine keyword.line display.rest⟩
  else
    ⟨none, [.atToken keyword (.unnamedParticipant keyword.text)],
      Items.skipLine keyword.line rest⟩

/-- Reads the receiver and the text of a message after its arrow. -/
def readReceiver (finish sender arrow : Token) (shape : Arrow) (rest : List Item) :
    Reading (Option Statement) :=
  let items := Items.dropIf arrow.line (·.isActivationMark) rest
  if Items.frontIs arrow.line (·.isParticipantName) items then
    let receiver := Items.peekName finish items
    let after := Items.dropIf arrow.line (·.kind == .colon) (Items.afterName items)
    let text := (Label.ofItems? (Items.onLine arrow.line after)).getD ""
    ⟨some (.message ⟨sender.value, receiver.value, text, .ofArrow shape⟩), [],
      Items.skipLine arrow.line after⟩
  else
    ⟨none, [.atToken arrow (.messageWithoutReceiver sender.value arrow.text)],
      Items.skipLine arrow.line items⟩

/-- Reads a message from its sender on; `first` is the first token of the sender. -/
def readMessage (finish : Token) (first : Item) (rest : List Item) :
    Reading (Option Statement) :=
  match Items.afterName (first :: rest) with
  | [] => ⟨none, [], []⟩
  | arrow :: after =>
    match arrow.kind with
    | .arrow shape =>
      readReceiver finish (Items.peekName finish (first :: rest)) arrow.toToken shape after
    | _ => ⟨none, [], after⟩

/-- Reads the statement that begins with `first`. -/
def readStatement (finish : Token) (first : Item) (rest : List Item) :
    Reading (Option Statement) :=
  match first.decoration? with
  | some decoration => (decoration.read finish .sequence 0 first.toToken rest).map fun _ => none
  | none =>
    if first.kind = .semicolon then ⟨none, [], rest⟩
    else if first.declaresParticipant then readDeclaration finish first.toToken rest
    else if beginsMessage finish (first :: rest) then readMessage finish first rest
    else if first.kind.isMessage then
      ⟨none, [.atToken first.toToken .messageWithoutSender], Items.skipLine first.line rest⟩
    else if first.isBlockWord then ⟨none, [], Items.skipLine first.line rest⟩
    else
      ⟨none, [.atToken first.toToken (.unexpectedInSequence first.found)],
        Items.skipLine first.line rest⟩

theorem readAlias_suffix (keyword name : Token) (items : List Item) :
    (readAlias keyword name items).rest <:+ items := by
  unfold readAlias
  split
  · exact List.suffix_refl _
  · split
    · exact (Items.skipLine_suffix ..).trans (List.suffix_cons ..)
    · exact List.suffix_refl _

theorem readDeclaration_suffix (finish keyword : Token) (rest : List Item) :
    (readDeclaration finish keyword rest).rest <:+ rest := by
  unfold readDeclaration
  split
  · exact (Items.skipLine_suffix ..).trans
      ((readAlias_suffix ..).trans (Items.afterName_suffix _))
  · exact Items.skipLine_suffix ..

theorem readReceiver_suffix (finish sender arrow : Token) (shape : Arrow) (rest : List Item) :
    (readReceiver finish sender arrow shape rest).rest <:+ rest := by
  unfold readReceiver
  dsimp only
  split
  · exact (Items.skipLine_suffix ..).trans ((Items.dropIf_suffix ..).trans
      ((Items.afterName_suffix _).trans (Items.dropIf_suffix ..)))
  · exact (Items.skipLine_suffix ..).trans (Items.dropIf_suffix ..)

theorem readMessage_suffix (finish : Token) (first : Item) (rest : List Item) :
    (readMessage finish first rest).rest <:+ rest := by
  have dropped := Items.afterName_cons_suffix first rest
  unfold readMessage
  split
  · exact List.nil_suffix
  · next arrow after shape =>
    rw [shape] at dropped
    have after := (List.suffix_cons arrow after).trans dropped
    split
    · exact (readReceiver_suffix ..).trans after
    · exact after

theorem readStatement_suffix (finish : Token) (first : Item) (rest : List Item) :
    (readStatement finish first rest).rest <:+ rest := by
  unfold readStatement
  split
  · exact Items.skipLine_suffix ..
  · repeat' split
    · exact List.suffix_refl _
    · exact readDeclaration_suffix ..
    · exact readMessage_suffix ..
    all_goals exact Items.skipLine_suffix ..

/-- The statements of a sequence diagram after its header line. -/
def statements (finish header : Token) (rest : List Item) : List (Reading (Option Statement)) :=
  Reading.statements (readStatement finish) (readStatement_suffix finish)
    (Items.skipLine header.line rest)

/-- Reads a sequence diagram after its header. What else stands on the header line is not
looked at. -/
def read (finish header : Token) (rest : List Item) : Reading Sequence :=
  let readings := statements finish header rest
  ⟨ofStatements (readings.filterMap (·.value)), readings.flatMap (·.diagnostics), []⟩

end Sequence

end DiagramCheck
