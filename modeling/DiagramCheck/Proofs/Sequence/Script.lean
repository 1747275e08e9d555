/-
# Scripts

A script is a sequence diagram as one would write it down: lines that declare a
participant or send a message, in any order, with every name and text between
double quotes. Printed one line below the other they make a diagram without
mistakes, and what is read from it is what was written: the messages in order,
and as participants the declared ones in order and then everyone else whom a
message mentions, each once, in order of first mention.

Every line is read by itself, so it is enough to read one of each kind.

Main statement: `validate_script`.
-/

import DiagramCheck.Proofs.Diagram.LineByLine
import DiagramCheck.Proofs.Flowchart.Redrawn
import DiagramCheck.Proofs.Sequence.Cast
import DiagramCheck.Proofs.Token.Sign

namespace DiagramCheck.Sequence

open Flowchart.Drawing (Caption)
open Layout (IsQuiet OnRow isQuiet_of_kind)
open Lexeme (Leads StopsWord)

/-! ## Lines -/

/-- The words that declare a participant. -/
inductive Declarer
  | participant
  | actor
  deriving DecidableEq, Repr

/-- How a declaring word is written. -/
def Declarer.print : Declarer → String
  | .participant => "participant"
  | .actor => "actor"

/-- The ways to write the arrow of a message. -/
inductive Mark
  | short
  | shortOpen
  | plain
  | dashedOpen
  | dotted
  | longDotted
  | thick
  deriving DecidableEq, Repr

namespace Mark

/-- How an arrow is written. -/
def print : Mark → String
  | .short => "->"
  | .shortOpen => "->>"
  | .plain => "-->"
  | .dashedOpen => "-->>"
  | .dotted => "-.->"
  | .longDotted => "-..->"
  | .thick => "==>"

/-- The arrow that a mark is. -/
def shape : Mark → Arrow
  | .short => .short
  | .shortOpen => .shortOpen
  | .plain => .plain
  | .dashedOpen => .dashedOpen
  | .dotted | .longDotted => .dotted
  | .thick => .thick

/-- The stroke of a message that is written with a mark. -/
def stroke : Mark → MessageStroke
  | .short | .shortOpen => .solid
  | .thick => .thick
  | .plain | .dashedOpen | .dotted | .longDotted => .dotted

end Mark

/-- A line of a script. -/
inductive Line
  | declaration (keyword : Declarer) (name : Caption) (shown : Option Caption)
  | message (sender : Caption) (mark : Mark) (receiver : Caption) (text : Option Caption)
  deriving DecidableEq, Repr

namespace Line

/-- A line as it is written. -/
def print : Line → String
  | .declaration keyword name none => keyword.print ++ " " ++ name.print
  | .declaration keyword name (some shown) =>
    keyword.print ++ " " ++ name.print ++ " as " ++ shown.print
  | .message sender mark receiver none => sender.print ++ mark.print ++ receiver.print
  | .message sender mark receiver (some text) =>
    sender.print ++ mark.print ++ receiver.print ++ ": " ++ text.print

/-- The participant that a line declares. -/
def declared? : Line → Option Participant
  | .declaration _ name shown => some ⟨name.text, shown.map Caption.text⟩
  | .message .. => none

/-- The message that a line sends; without a text it says nothing. -/
def sent? : Line → Option Message
  | .declaration .. => none
  | .message sender mark receiver text =>
    some ⟨sender.text, receiver.text, (text.map Caption.text).getD "", mark.stroke⟩

/-- The names that a line mentions in a message, the sender first. -/
def mentions : Line → List String
  | .declaration .. => []
  | .message sender _ receiver _ => [sender.text, receiver.text]

end Line

/-- A script as it is written. -/
def printScript (script : List Line) : String :=
  "\n".intercalate ("sequenceDiagram" :: script.map Line.print)

/-- The names that declarations of a script declare. -/
def declaredNames (script : List Line) : List String :=
  (script.filterMap Line.declared?).map Participant.name

/-- The diagram that a script stands for. -/
def ofScript (script : List Line) : Sequence where
  participants :=
    script.filterMap Line.declared? ++
      (((script.flatMap Line.mentions).filter (· ∉ declaredNames script)).eraseDups.map
        fun name => ⟨name, none⟩)
  messages := script.filterMap Line.sent?

/-! ## Statements of a script -/

/-- The statement that a line is. -/
def Line.statement : Line → Statement
  | .declaration _ name shown => .declaration ⟨name.text, shown.map Caption.text⟩
  | .message sender mark receiver text =>
    .message ⟨sender.text, receiver.text, (text.map Caption.text).getD "", mark.stroke⟩

private theorem ofStatements_script (script : List Line) :
    ofStatements (script.map Line.statement) = ofScript script := by
  have declared : Statement.declared? ∘ Line.statement = Line.declared? := by
    funext line
    cases line <;> rfl
  have sent : Statement.message? ∘ Line.statement = Line.sent? := by
    funext line
    cases line <;> rfl
  have mentions : (script.map Line.statement).flatMap Statement.mentions =
      script.flatMap Line.mentions := by
    rw [List.flatMap_map]
    exact List.flatMap_congr fun line _ => by cases line <;> rfl
  rw [ofStatements, undeclared, List.filterMap_map, List.filterMap_map, declared, sent, mentions,
    firstMentions_eq_eraseDups, ofScript, declaredNames]
  simp

/-! ## The words of a line -/

/-- The word that declares a participant. -/
def Declarer.word : Declarer → TokenKind × String
  | .participant => (.participant, "participant")
  | .actor => (.identifier, "actor")

/-- The words of a line. -/
def Line.words : Line → List (TokenKind × String)
  | .declaration keyword name shown =>
    keyword.word :: name.word :: shown.toList.flatMap fun shown =>
      [(.identifier, "as"), shown.word]
  | .message sender mark receiver text =>
    sender.word :: (.arrow mark.shape, mark.print) :: receiver.word ::
      text.toList.flatMap fun text => [(.colon, ":"), text.word]

theorem Declarer.spells (keyword : Declarer) (behind : List Char) :
    Spells keyword.print.toList (' ' :: behind) [keyword.word] := by
  cases keyword with
  | participant => exact Spells.of_word (by decide) (.blank _)
  | actor => exact Spells.of_word (by decide) (.blank _)

/-- An arrow is read whole unless it goes on behind its end. -/
theorem Mark.leads (mark : Mark) {behind : List Char} (other : ∀ c ∈ behind.head?, c ≠ '>') :
    Leads (.arrow mark.shape) mark.print.toList behind := by
  have found : Lexeme.arrow? (mark.print.toList ++ behind) =
      some (mark.shape, mark.print.toList.length) := by
    cases behind with
    | nil => cases mark <;> rfl
    | cons c behind =>
      have other := other c rfl
      cases mark <;> simp [print, shape, Lexeme.arrow?, other]
  obtain ⟨c, tail, split, solid⟩ :
      ∃ c tail, mark.print.toList = c :: tail ∧ Text.isBlank c = false := by
    cases mark <;> exact ⟨_, _, rfl, by decide⟩
  rw [split] at found ⊢
  exact ⟨c, tail ++ behind, rfl, solid, Lexeme.next_of_arrow? found⟩

theorem Mark.spells (mark : Mark) {behind : List Char} (other : ∀ c ∈ behind.head?, c ≠ '>') :
    Spells mark.print.toList behind [(.arrow mark.shape, mark.print)] := by
  have spelled := Spells.of_leads (mark.leads other) nofun
  rwa [String.ofList_toList] at spelled

private theorem spells_as (behind : List Char) :
    Spells "as".toList (' ' :: behind) [(.identifier, "as")] :=
  Spells.of_word (by decide) (.blank _)

theorem spells_colon (behind : List Char) :
    Spells [':'] (' ' :: behind) [(.colon, ":")] :=
  Spells.of_leads ⟨_, _, rfl, rfl, rfl⟩ nofun

/-- A caption behind the arrow of a message. -/
theorem spells_received (mark : Mark) (receiver : Caption) (behind : List Char) :
    Spells (mark.print.toList ++ receiver.print.toList) behind
      [(.arrow mark.shape, mark.print), receiver.word] := by
  have arrow : Spells mark.print.toList (receiver.print.toList ++ behind)
      [(.arrow mark.shape, mark.print)] := by
    rw [receiver.toList_print]
    refine mark.spells ?_
    rintro _ ⟨⟩
    decide
  exact arrow.append (receiver.spells behind)

theorem Line.spells (line : Line) : Spells line.print.toList [] line.words := by
  -- A line is printed as pieces, each of which ends where the next one begins.
  cases line with
  | declaration keyword name shown =>
    cases shown with
    | none =>
      have text : (Line.declaration keyword name none).print.toList =
          keyword.print.toList ++ ' ' :: name.print.toList := by
        simp [print]
      rw [text]
      exact (keyword.spells _).append (name.spells []).blank
    | some shown =>
      have text : (Line.declaration keyword name (some shown)).print.toList =
          keyword.print.toList ++ ' ' :: (name.print.toList ++
            ' ' :: ("as".toList ++ ' ' :: shown.print.toList)) := by
        simp [print]
      rw [text]
      exact (keyword.spells _).append ((name.spells _).append
        ((spells_as _).append (shown.spells []).blank).blank).blank
  | message sender mark receiver text =>
    cases text with
    | none =>
      have text : (Line.message sender mark receiver none).print.toList =
          sender.print.toList ++ (mark.print.toList ++ receiver.print.toList) := by
        simp [print]
      rw [text]
      exact (sender.spells _).append (spells_received mark receiver [])
    | some said =>
      have text : (Line.message sender mark receiver (some said)).print.toList =
          sender.print.toList ++ (mark.print.toList ++ receiver.print.toList ++
            ([':'] ++ ' ' :: said.print.toList)) := by
        simp [print]
      have behind : Spells ([':'] ++ ' ' :: said.print.toList) [] [(.colon, ":"), said.word] :=
        (spells_colon _).append (said.spells []).blank
      rw [text]
      exact (sender.spells _).append ((spells_received mark receiver _).append behind)

theorem Line.isQuiet (line : Line) : ∀ word ∈ line.words, IsQuiet word := by
  cases line with
  | declaration keyword name shown =>
    have declares : IsQuiet keyword.word := by
      cases keyword <;> exact isQuiet_of_kind (by simp) _
    cases shown with
    | none => simp [words, declares, name.isQuiet]
    | some shown => simp [words, declares, name.isQuiet, shown.isQuiet, isQuiet_of_kind]
  | message sender mark receiver text =>
    cases text with
    | none => simp [words, sender.isQuiet, receiver.isQuiet, isQuiet_of_kind]
    | some text => simp [words, sender.isQuiet, receiver.isQuiet, text.isQuiet, isQuiet_of_kind]

theorem Line.newline_not_mem (line : Line) : '\n' ∉ line.print.toList := by
  cases line with
  | declaration keyword name shown =>
    have written : '\n' ∉ keyword.print.toList := by cases keyword <;> decide
    cases shown with
    | none => simp [print, written, name.newline_not_mem]
    | some shown => simp [print, written, name.newline_not_mem, shown.newline_not_mem]
  | message sender mark receiver text =>
    have written : '\n' ∉ mark.print.toList := by cases mark <;> decide
    cases text with
    | none => simp [print, written, sender.newline_not_mem, receiver.newline_not_mem]
    | some text =>
      simp [print, written, sender.newline_not_mem, receiver.newline_not_mem,
        text.newline_not_mem]

/-! ## Reading a line -/

section Quoted

variable {caption : Caption} {item : Item} (same : item.word = caption.word)

include same

private theorem kind_quoted : item.kind = .string := (Prod.ext_iff.1 same).1

private theorem isParticipantName_quoted : item.isParticipantName = true := by
  rw [Token.isParticipantName, kind_quoted same]
  exact Bool.or_true _

/-- A quoted name is a single token. -/
theorem peekName_quoted (finish : Token) (rest : List Item) :
    Items.peekName finish (item :: rest) = item.toToken ∧
      Items.afterName (item :: rest) = rest := by
  have other : item.isName = false := by
    rw [Token.isName, kind_quoted same]
  exact ⟨Items.peekName_of_not_isName other rest finish, Items.afterName_of_not_isName other rest⟩

end Quoted

variable {finish : Token} {line : Nat}

private theorem readAlias_shown (keyword name : Token) {shown : Option Caption} {items : List Item}
    (spelled : items.map (·.word) =
      shown.toList.flatMap fun shown => [(.identifier, "as"), shown.word])
    (lines : ∀ item ∈ items, item.line = keyword.line) :
    readAlias keyword name items = ⟨shown.map Caption.text, [], []⟩ := by
  cases shown with
  | none =>
    obtain rfl := List.map_eq_nil_iff.1 spelled
    rfl
  | some shown =>
    obtain ⟨mark, _, rfl, announced, spelled⟩ := List.map_eq_cons_iff.1 spelled
    obtain ⟨quoted, _, rfl, same, none⟩ := List.map_eq_cons_iff.1 spelled
    obtain rfl := List.map_eq_nil_iff.1 none
    have kind : mark.kind = .identifier := (Prod.ext_iff.1 announced).1
    have text : mark.text = "as" := (Prod.ext_iff.1 announced).2
    have word : mark.isWord "as" = true := by
      rw [Token.isWord, kind, text]
      rfl
    have beside : quoted.line = keyword.line := lines quoted (by simp)
    have below : Items.Below keyword.line [] := List.forall_mem_nil _
    rw [readAlias, if_pos ⟨lines mark (by simp), word⟩, Items.onLine_alone below beside,
      Items.skipLine_alone below beside]
    dsimp only
    rw [Caption.ofItems?_eq same]
    rfl

private theorem readStatement_declaration {keyword : Declarer} {name : Caption}
    {shown : Option Caption}
    {first named : Item} {rest : List Item} (declares : first.word = keyword.word)
    (same : named.word = name.word)
    (spelled : rest.map (·.word) =
      shown.toList.flatMap fun shown => [(.identifier, "as"), shown.word])
    (lines : ∀ item ∈ first :: named :: rest, item.line = line) :
    readStatement finish first (named :: rest) =
      ⟨some (.declaration ⟨name.text, shown.map Caption.text⟩), [], []⟩ := by
  obtain ⟨kind, text⟩ := Prod.ext_iff.1 declares
  have kind : first.kind = keyword.word.1 := kind
  have text : first.text = keyword.word.2 := text
  -- The keyword is neither a decoration nor a separator.
  have undecorated : first.decoration? = none := by
    rw [Item.decoration?, kind, text]
    cases keyword
    · rfl
    · exact ite_self none
  have solid : first.kind ≠ .semicolon := by
    rw [kind]
    cases keyword <;> simp [Declarer.word]
  have declares : first.declaresParticipant = true := by
    rw [Token.declaresParticipant, Token.isWord, kind, text]
    cases keyword <;> rfl
  obtain ⟨own, lines⟩ := List.forall_mem_cons.1 lines
  obtain ⟨beside, lines⟩ := List.forall_mem_cons.1 lines
  have front : Items.frontIs first.line (·.isParticipantName) (named :: rest) = true := by
    rw [Items.frontIs, isParticipantName_quoted same, own, beside, Bool.and_true, beq_self_eq_true]
  obtain ⟨peek, after⟩ := peekName_quoted same finish rest
  have displayed := readAlias_shown first.toToken named.toToken spelled
    (by rw [own]; exact lines)
  rw [readStatement, undecorated]
  dsimp only
  rw [if_neg solid, if_pos declares, readDeclaration, if_pos front, peek, after]
  dsimp only
  rw [displayed, Caption.value_eq same]
  rfl

/-- What a message says is the rest of its line behind the colon. -/
theorem text_said {text : Option Caption} {items : List Item}
    (spelled : items.map (·.word) =
      text.toList.flatMap fun text => [(.colon, ":"), text.word])
    (lines : ∀ item ∈ items, item.line = line) :
    Label.ofItems? (Items.onLine line (Items.dropIf line (·.kind == .colon) items)) =
        text.map Caption.text ∧
      Items.skipLine line (Items.dropIf line (·.kind == .colon) items) = [] := by
  cases text with
  | none =>
    obtain rfl := List.map_eq_nil_iff.1 spelled
    exact ⟨rfl, rfl⟩
  | some text =>
    obtain ⟨colon, _, rfl, parts, spelled⟩ := List.map_eq_cons_iff.1 spelled
    obtain ⟨said, _, rfl, same, none⟩ := List.map_eq_cons_iff.1 spelled
    obtain rfl := List.map_eq_nil_iff.1 none
    have kind : colon.kind = .colon := (Prod.ext_iff.1 parts).1
    have dropped : Items.dropIf line (·.kind == .colon) [colon, said] = [said] := by
      simp [Items.dropIf, Items.frontIs, kind, lines colon (by simp)]
    have beside : said.line = line := lines said (by simp)
    have below : Items.Below line [] := List.forall_mem_nil _
    rw [dropped, Items.onLine_alone below beside, Items.skipLine_alone below beside,
      Caption.ofItems?_eq same]
    exact ⟨rfl, rfl⟩

private theorem readReceiver_said (sender : Token) {mark : Mark} {receiver : Caption}
    {text : Option Caption} {arrow named : Item} {rest : List Item}
    (same : named.word = receiver.word)
    (spelled : rest.map (·.word) =
      text.toList.flatMap fun text => [(.colon, ":"), text.word])
    (lines : ∀ item ∈ named :: rest, item.line = arrow.line) :
    readReceiver finish sender arrow.toToken mark.shape (named :: rest) =
      ⟨some (.message ⟨sender.value, receiver.text, (text.map Caption.text).getD "",
        mark.stroke⟩), [], []⟩ := by
  obtain ⟨beside, lines⟩ := List.forall_mem_cons.1 lines
  have stroke : MessageStroke.ofArrow mark.shape = mark.stroke := by cases mark <;> rfl
  have plain : named.isActivationMark = false := by
    rw [Token.isActivationMark, Token.isWord, Token.isWord, kind_quoted same]
    rfl
  have kept : Items.dropIf arrow.line (·.isActivationMark) (named :: rest) = named :: rest := by
    rw [Items.dropIf, Items.frontIs, plain, Bool.and_false, if_neg Bool.false_ne_true]
  have front : Items.frontIs arrow.line (·.isParticipantName) (named :: rest) = true := by
    rw [Items.frontIs, isParticipantName_quoted same, beside, Bool.and_true, beq_self_eq_true]
  obtain ⟨peek, after⟩ := peekName_quoted same finish rest
  rw [readReceiver, kept]
  dsimp only
  obtain ⟨said, left⟩ := text_said spelled lines
  rw [if_pos front, peek, after, Caption.value_eq same, stroke, said, left]

private theorem readStatement_message {sender receiver : Caption} {mark : Mark}
    {text : Option Caption}
    {first arrow named : Item} {rest : List Item} (sends : first.word = sender.word)
    (points : arrow.word = (.arrow mark.shape, mark.print)) (same : named.word = receiver.word)
    (spelled : rest.map (·.word) =
      text.toList.flatMap fun text => [(.colon, ":"), text.word])
    (lines : ∀ item ∈ first :: arrow :: named :: rest, item.line = line ∧ item.endLine = line) :
    readStatement finish first (arrow :: named :: rest) =
      ⟨some (.message ⟨sender.text, receiver.text, (text.map Caption.text).getD "",
        mark.stroke⟩), [], []⟩ := by
  have kind := kind_quoted sends
  have pointed : arrow.kind = .arrow mark.shape := (Prod.ext_iff.1 points).1
  have undecorated : first.decoration? = none := by
    rw [Item.decoration?, kind]
    rfl
  have undeclared : first.declaresParticipant = false := by
    rw [Token.declaresParticipant, Token.isWord, kind]
    rfl
  have carries : arrow.kind.isMessage = true := by
    rw [pointed]
    cases mark <;> rfl
  obtain ⟨peek, after⟩ := peekName_quoted sends finish (arrow :: named :: rest)
  -- A quoted name and an arrow on its line are what announces a message.
  have begins : beginsMessage finish (first :: arrow :: named :: rest) = true := by
    rw [beginsMessage, peek, after]
    dsimp only [Items.front, Items.frontIs]
    rw [isParticipantName_quoted sends, carries, (lines first (by simp)).2,
      (lines arrow (by simp)).1, beq_self_eq_true]
    rfl
  have received : readReceiver finish first.toToken arrow.toToken mark.shape (named :: rest) = _ :=
    readReceiver_said first.toToken same spelled fun item member => by
      rw [(lines arrow (by simp)).1]
      exact (lines item (List.mem_cons_of_mem _ (List.mem_cons_of_mem _ member))).1
  rw [readStatement, undecorated]
  dsimp only
  rw [if_neg (by simp [kind]), if_neg (by rw [undeclared]; exact Bool.false_ne_true),
    if_pos begins, readMessage, peek, after]
  dsimp only
  rw [pointed]
  dsimp only
  rw [received, Caption.value_eq sends]

/-- A line that stands alone is read as its statement, and nothing is wrong. -/
theorem Line.statements_print (line : Line) :
    lineBased.statements line.print = [⟨some line.statement, [], []⟩] := by
  have row := Layout.onRow_of_spells line.spells line.isQuiet line.newline_not_mem
  obtain ⟨spelled, lines, -⟩ := row
  rw [LineBased.statements]
  generalize Layout.items (Token.tokenize line.print) = items at spelled lines
  have alone {first : Item} {rest : List Item}
      (read : readStatement (Layout.finish line.print) first rest =
        ⟨some line.statement, [], []⟩) :
      Reading.statements (readStatement (Layout.finish line.print))
        (lineBased.suffix _) (first :: rest) = [⟨some line.statement, [], []⟩] := by
    rw [Reading.statements, read, Reading.statements]
  cases line with
  | declaration keyword name shown =>
    obtain ⟨first, _, rfl, declares, spelled⟩ := List.map_eq_cons_iff.1 spelled
    obtain ⟨named, rest, rfl, same, spelled⟩ := List.map_eq_cons_iff.1 spelled
    exact alone (readStatement_declaration declares same spelled fun item member =>
      (lines item member).1)
  | message sender mark receiver text =>
    obtain ⟨first, _, rfl, sends, spelled⟩ := List.map_eq_cons_iff.1 spelled
    obtain ⟨arrow, _, rfl, points, spelled⟩ := List.map_eq_cons_iff.1 spelled
    obtain ⟨named, rest, rfl, same, spelled⟩ := List.map_eq_cons_iff.1 spelled
    exact alone (readStatement_message sends points same spelled lines)

/-! ## Whole scripts -/

private theorem Line.isClosedLine (line : Line) : IsClosedLine line.print := by
  have settled := Layout.settled_of_spells line.spells line.isQuiet
  refine ⟨line.newline_not_mem, fun token member => ?_, fun token member => ?_⟩
  · exact beq_eq_false_iff_ne.1 (Bool.or_eq_false_iff.1 (settled token member)).1
  · exact (Bool.or_eq_false_iff.1 (settled token member)).2

private theorem lineByLine_script (script : List Line) (lines bytes : Nat) :
    lineByLine "sequenceDiagram" lines bytes (script.map Line.print) = [] := by
  have names : TokenKind.ofWord "sequenceDiagram" = .header .sequence := by decide
  induction script generalizing lines bytes with
  | nil => rfl
  | cons line script ih =>
    have found : lineBased.found line.print = [] := by
      rw [LineBased.found, line.statements_print,
        Layout.lexicalDiagnostics_of_spells line.spells line.isQuiet]
      rfl
    rw [List.map_cons, lineByLine, ih, lineBased.validate_below_header readContent_eq names, found,
      Diagnostic.inSourceOrder_nil]
    rfl

/-- A printed script is valid, and its messages and its participants are read as they were
written. -/
theorem validate_script (script : List Line) :
    (validate (printScript script)).isValid = true ∧
      (validate (printScript script)).diagram? =
        some ⟨.start, .sequence (ofScript script)⟩ := by
  have names : TokenKind.ofWord "sequenceDiagram" = .header .sequence := by decide
  have closed : ∀ line ∈ script.map Line.print, IsClosedLine line := by
    intro line member
    obtain ⟨own, -, rfl⟩ := List.mem_map.1 member
    exact own.isClosedLine
  have values : ((script.map Line.print).flatMap fun line =>
      (lineBased.statements line).map (·.value)) = script.map (some ∘ Line.statement) := by
    rw [List.flatMap_map, List.map_eq_flatMap]
    exact List.flatMap_congr fun line _ => by rw [line.statements_print]; rfl
  have whole := lineBased.validate_lines closed readContent_eq names
  have kept : script.filterMap (id ∘ some ∘ Line.statement) = script.map Line.statement :=
    congrFun List.filterMap_eq_map script
  rw [lineByLine_script, values, contentOf, List.filterMap_map, kept, ofStatements_script] at whole
  rw [printScript, whole]
  exact ⟨rfl, rfl⟩

/-- A script with one line of each kind, as it is written. -/
example :
    printScript
      [.declaration .participant ⟨"n", by decide, by decide⟩ (some ⟨"a", by decide, by decide⟩),
        .message ⟨"x", by decide, by decide⟩ .shortOpen ⟨"y", by decide, by decide⟩
          (some ⟨"t", by decide, by decide⟩)] =
      "sequenceDiagram\nparticipant \"n\" as \"a\"\n\"x\"->>\"y\": \"t\"" := by
  decide +kernel

end DiagramCheck.Sequence
