/-
# Diagrams that are read line by line

In a sequence diagram, and in a diagram whose content is not modelled, every
statement is read on its line. So each line is read as it is read alone below the
header, only further down, and what is said of the diagram is what is said of its
lines, one after the other. Only directives and strings without a closing quote
could run from one line into the next.

Main statement: `validate_line_by_line`.
-/

import DiagramCheck.Proofs.Flowchart.Succession
import DiagramCheck.Proofs.Sequence.Frame
import DiagramCheck.Proofs.Token.Spelling

namespace DiagramCheck

open Diagnostic (StandAt inSourceOrder)
open Items (Above Within)

/-! ## Readers that stay on their line -/

/-- A reader of statements that does not depend on what stands below a statement, nor on where the
text stands. -/
structure LineBased {α : Type} (read : Token → Item → List Item → Reading α) : Prop where
  suffix : ∀ finish first rest, (read finish first rest).rest <:+ rest
  stands : ∀ {among : Token → Prop} {finish : Token} {first : Item} {rest : List Item},
    Within among (first :: rest) → StandAt among (read finish first rest).diagnostics
  append : ∀ {finish finish' : Token} {first : Item} {rest later : List Item},
    (∀ item ∈ first :: rest, item.IsCut) → Above (first :: rest) later →
      read finish' first (rest ++ later) = (read finish first rest).extend later
  moved : ∀ (move : Relocation) {source : List Char} {finish : Token} {first : Item}
    {rest : List Item}, Within (Token.StandsIn source) (first :: rest) →
      move.Reads move.Agree (read finish first rest)
        (read (move.token finish) (move.item first) (rest.map move.item))

theorem Sequence.lineBased : LineBased Sequence.readStatement where
  suffix := readStatement_suffix
  stands := readStatement_standAt
  append := readStatement_append
  moved move _ finish _ _ := move.readStatement_reads finish

theorem Unmodelled.lineBased (kind : Unmodelled) : LineBased (readStatement kind) where
  suffix := readStatement_suffix kind
  stands within := by
    unfold readStatement
    split
    · exact Decoration.read_standAt within.head within.of_cons _ _ _
    · exact .nil
  append cut above := by
    unfold readStatement
    split
    · exact Decoration.read_append above.below (.inr (by cases kind <;> rfl))
    · rfl
  moved move _ finish _ _ := move.unmodelled_readStatement_reads kind finish

/-! ## Header words -/

section Header

variable {header : String} {family : Family} (names : TokenKind.ofWord header = .header family)

include names

private theorem Token.tokenize_header :
    tokenize header =
      [⟨.header family, header, .start⟩, .endOfInput (Position.start.after header.toList)] := by
  have spelled : Lexeme.spellsWord header.toList = true :=
    Lexeme.spellsWord_of_keyword (by rw [names]; nofun)
  have stream := @stream_of_leads .start _ _ _ (Lexeme.leads_word spelled .nil)
  rw [List.append_nil] at stream
  rw [tokenize, stream, stream_nil, ofLexeme, String.ofList_toList, if_pos rfl, names]

private theorem Token.settled_header : ∀ token ∈ tokenize header, token.runsOn = false := by
  rw [tokenize_header names]
  simp [runsOn, isUnterminatedString, endOfInput]

theorem Layout.items_header :
    items (Token.tokenize header) = [⟨⟨.header family, header, .start⟩, true, true⟩] := by
  rw [Token.tokenize_header names]
  rfl

theorem Layout.lexicalDiagnostics_header :
    lexicalDiagnostics (Token.tokenize header) = [] := by
  rw [Token.tokenize_header names]
  simp [lexicalDiagnostics, lexicalDiagnosticsAfter, Token.lexicalProblem?,
    Token.isUnterminatedDirective, Token.isUnterminatedString, Token.endOfInput]

end Header

namespace LineBased

variable {α : Type} {read : Token → Item → List Item → Reading α} (based : LineBased read)

/-- The statements of a text that is read by itself. -/
def statements (text : String) : List (Reading α) :=
  Reading.statements (read (Layout.finish text)) (based.suffix _)
    (Layout.items (Token.tokenize text))

/-- What is found in a text that is read by itself. -/
def found (text : String) : List Diagnostic :=
  Layout.lexicalDiagnostics (Token.tokenize text) ++
    (based.statements text).flatMap (·.diagnostics)

/-- The statements of a text below another one are those it has by itself. -/
theorem statements_moved (above text : String) :
    List.Forall₂ ((Relocation.below above).Reads (Relocation.below above).Agree)
      (based.statements text)
      (Reading.statements (read (Layout.finish (above ++ "\n" ++ text))) (based.suffix _)
        ((Layout.items (Token.tokenize text)).map (Relocation.below above).item)) := by
  rw [statements, Relocation.finish_below]
  exact Relocation.statements_reads _ (fun _ _ => based.moved _) (Layout.standsIn_items text)

private theorem values_moved (above text : String) :
    (Reading.statements (read (Layout.finish (above ++ "\n" ++ text))) (based.suffix _)
        ((Layout.items (Token.tokenize text)).map (Relocation.below above).item)).map (·.value) =
      (based.statements text).map (·.value) :=
  Relocation.map_value_of_reads rfl (based.statements_moved above text)

private theorem diagnostics_moved (above text : String) :
    (Reading.statements (read (Layout.finish (above ++ "\n" ++ text))) (based.suffix _)
        ((Layout.items (Token.tokenize text)).map (Relocation.below above).item)).flatMap
          (·.diagnostics) =
      ((based.statements text).flatMap (·.diagnostics)).map
        (·.shift (Relocation.below above).lines (Relocation.below above).bytes) :=
  Relocation.eq_map_of_tells rfl (Relocation.flatMap_diagnostics_tells _
    (based.statements_moved above text))

/-! ## A line and what stands below it -/

section Settled

variable {above : String} (settled : ∀ token ∈ Token.tokenize above, token.runsOn = false)
  (text : String)

include settled

private theorem statements_below :
    based.statements (above ++ "\n" ++ text) =
      (based.statements above).map (·.extend
          ((Layout.items (Token.tokenize text)).map (Relocation.below above).item)) ++
        Reading.statements (read (Layout.finish (above ++ "\n" ++ text))) (based.suffix _)
          ((Layout.items (Token.tokenize text)).map (Relocation.below above).item) := by
  rw [statements, Relocation.items_below text settled, statements]
  refine Reading.statements_append fun first rest suffix _ => based.append ?_ ?_
  · exact fun item member => Layout.isCut_of_mem_items above item (suffix.subset member)
  · exact (Relocation.above_below above text).suffix suffix

private theorem values_below :
    (based.statements (above ++ "\n" ++ text)).map (·.value) =
      (based.statements above).map (·.value) ++ (based.statements text).map (·.value) := by
  rw [based.statements_below settled, List.map_append, based.values_moved, List.map_map]
  rfl

end Settled

/-- What is found in a text stands on its lines. -/
theorem line_of_mem_found {text : String} :
    ∀ diagnostic ∈ based.found text,
      1 ≤ diagnostic.line ∧ diagnostic.line ≤ text.toList.count '\n' + 1 := by
  have within : Within (· ∈ Token.tokenize text) (Layout.items (Token.tokenize text)) :=
    fun _ => Layout.toToken_mem_of_mem_items
  have stands : StandAt (· ∈ Token.tokenize text) (based.found text) :=
    .append (Layout.lexicalDiagnosticsAfter_standAt none fun _ member => member)
      (Reading.statements_standAt (fun _ _ => based.stands) within)
  intro diagnostic member
  obtain ⟨token, problem, own, -, rfl⟩ := stands diagnostic member
  have lines := Token.line_of_mem_stream token own
  rw [Position.line_after] at lines
  exact ⟨lines.1, by rw [Nat.add_comm]; exact lines.2⟩

/-- What is found in a text and below it comes in this order. -/
theorem found_below {above : String}
    (settled : ∀ token ∈ Token.tokenize above, token.runsOn = false) (text : String) :
    inSourceOrder (based.found (above ++ "\n" ++ text)) =
      inSourceOrder (based.found above) ++ (inSourceOrder (based.found text)).map
        (·.shift (above.toList.count '\n' + 1) (above.utf8ByteSize + 1)) := by
  rw [found, Relocation.lexicalDiagnostics_below text settled, based.statements_below settled,
    List.flatMap_append, List.flatMap_map]
  simp only [Reading.extend]
  rw [based.diagnostics_moved, Diagnostic.inSourceOrder_append_append
    (fun diagnostic member => (based.line_of_mem_found diagnostic member).2), ← List.map_append,
    Diagnostic.inSourceOrder_shift]
  · rfl
  · rw [← List.map_append]
    intro diagnostic member
    obtain ⟨own, listed, rfl⟩ := List.mem_map.1 member
    have first := (based.line_of_mem_found own listed).1
    simp only [Diagnostic.shift, Relocation.below]
    omega

/-! ## Below a header -/

section Header

variable {family : Family} {content : List α → Content}
  (reads : ∀ source finish header rest, Diagram.readContent source finish header rest family =
    ⟨content ((Reading.statements (read finish) (based.suffix _)
        (Items.skipLine header.line rest)).map (·.value)),
      (Reading.statements (read finish) (based.suffix _)
        (Items.skipLine header.line rest)).flatMap (·.diagnostics), []⟩)

include reads

/-- A diagram with nothing but statements below its header line. -/
theorem validate_of_header {source : String} {first : Item} {rest : List Item}
    (items : Layout.items (Token.tokenize source) = first :: rest)
    (kind : first.kind = .header family) (below : Items.Below first.line rest) :
    validate source =
      ⟨inSourceOrder (Layout.lexicalDiagnostics (Token.tokenize source) ++
          (Reading.statements (read (Layout.finish source)) (based.suffix _) rest).flatMap
            (·.diagnostics)),
        some ⟨first.position, content ((Reading.statements (read (Layout.finish source))
          (based.suffix _) rest).map (·.value))⟩⟩ := by
  have whole : Items.skipLine first.line rest = rest := Items.skipLine_append below []
  have diagram : Diagram.read source.toList (Layout.finish source) (first :: rest) =
      ⟨⟨first.position, content ((Reading.statements (read (Layout.finish source))
          (based.suffix _) rest).map (·.value))⟩,
        (Reading.statements (read (Layout.finish source)) (based.suffix _) rest).flatMap
          (·.diagnostics), []⟩ := by
    unfold Diagram.read
    dsimp only [Items.front]
    rw [kind]
    dsimp only [TokenKind.family?]
    rw [reads, List.tail_cons, whole]
    rfl
  rw [Validation.validate_of_items items, Diagram.readAll_cons, diagram, Diagram.readAll_nil]
  simp

variable {header : String} (names : TokenKind.ofWord header = .header family)

include names

/-- Below a header a text is read as it is by itself. -/
theorem validate_below_header (text : String) :
    validate (header ++ "\n" ++ text) =
      ⟨(inSourceOrder (based.found text)).map (·.shift 1 (header.utf8ByteSize + 1)),
        some ⟨.start, content ((based.statements text).map (·.value))⟩⟩ := by
  have settled := Token.settled_header names
  have whole := Relocation.items_below text settled
  have apart := Relocation.above_below header text
  rw [Layout.items_header names] at whole apart
  rw [List.singleton_append] at whole
  have lines : header.toList.count '\n' = 0 :=
    List.count_eq_zero.2 (Lexeme.newline_not_mem_of_spellsWord
      (Lexeme.spellsWord_of_keyword (by rw [names]; nofun)))
  rw [based.validate_of_header reads whole rfl apart.below,
    Relocation.lexicalDiagnostics_below text settled, Layout.lexicalDiagnostics_header names,
    based.diagnostics_moved, based.values_moved, List.nil_append, ← List.map_append,
    Diagnostic.inSourceOrder_shift, Relocation.below, lines]
  rfl

private theorem validate_header : validate header = ⟨[], some ⟨.start, content []⟩⟩ := by
  rw [based.validate_of_header reads (Layout.items_header names) rfl
    (fun _ absent => by cases absent), Layout.lexicalDiagnostics_header names, Reading.statements]
  simp

end Header

end LineBased

/-! ## Line by line -/

/-- What is said of each of some lines alone below a header, put where the lines stand below each
other; `lines` lines with `bytes` bytes come before them. -/
def lineByLine (header : String) (lines bytes : Nat) : List String → List Diagnostic
  | [] => []
  | line :: rest =>
    (validate (header ++ "\n" ++ line)).diagnostics.map (·.shift lines bytes) ++
      lineByLine header (lines + 1) (bytes + line.utf8ByteSize + 1) rest

/-- A single line no token of which could run into the next one: it holds no newline, no directive,
and no string without its closing quote. -/
structure IsClosedLine (line : String) : Prop where
  single : '\n' ∉ line.toList
  undirected : ∀ token ∈ Token.tokenize line, token.kind ≠ .directive
  closed : ∀ token ∈ Token.tokenize line, token.isUnterminatedString = false

theorem IsClosedLine.settled {line : String} (own : IsClosedLine line) :
    ∀ token ∈ Token.tokenize line, token.runsOn = false := by
  intro token member
  rw [Token.runsOn, own.closed token member, Bool.or_false]
  exact beq_eq_false_iff_ne.2 (own.undirected token member)

private theorem IsClosedLine.count_newline {line : String} (own : IsClosedLine line) :
    line.toList.count '\n' = 0 :=
  List.count_eq_zero.2 own.single

namespace LineBased

variable {α : Type} {read : Token → Item → List Item → Reading α} (based : LineBased read)
  {lines : List String} (closed : ∀ line ∈ lines, IsClosedLine line)

include closed

private theorem statements_lines :
    (based.statements ("\n".intercalate lines)).map (·.value) =
      lines.flatMap fun line => (based.statements line).map (·.value) := by
  induction lines with
  | nil =>
    have empty : Layout.items (Token.tokenize "") = [] := Flowchart.items_of_isBlankText rfl
    rw [String.intercalate_nil, statements, empty, Reading.statements]
    rfl
  | cons line rest ih =>
    obtain ⟨own, closed⟩ := List.forall_mem_cons.1 closed
    cases rest with
    | nil => rw [String.intercalate_singleton, List.flatMap_cons, List.flatMap_nil, List.append_nil]
    | cons next rest =>
      rw [String.intercalate_cons_cons, based.values_below own.settled, ih closed]
      rfl

variable {family : Family} {content : List α → Content}
  (reads : ∀ source finish header rest, Diagram.readContent source finish header rest family =
    ⟨content ((Reading.statements (read finish) (based.suffix _)
        (Items.skipLine header.line rest)).map (·.value)),
      (Reading.statements (read finish) (based.suffix _)
        (Items.skipLine header.line rest)).flatMap (·.diagnostics), []⟩)
  {header : String} (names : TokenKind.ofWord header = .header family)

include reads names

private theorem found_lines (some : lines ≠ []) (above bytes : Nat) :
    (inSourceOrder (based.found ("\n".intercalate lines))).map
        (·.shift (1 + above) (header.utf8ByteSize + 1 + bytes)) =
      lineByLine header above bytes lines := by
  -- By induction on the lines. What is found below a line is moved by that line, and what is said
  -- of a line alone has been moved by the header already.
  induction lines generalizing above bytes with
  | nil => exact absurd rfl some
  | cons line rest ih =>
    obtain ⟨own, closed⟩ := List.forall_mem_cons.1 closed
    have alone : (validate (header ++ "\n" ++ line)).diagnostics.map (·.shift above bytes) =
        (inSourceOrder (based.found line)).map
          (·.shift (1 + above) (header.utf8ByteSize + 1 + bytes)) := by
      rw [based.validate_below_header reads names line, List.map_map]
      exact List.map_congr_left fun _ _ => Diagnostic.shift_shift ..
    rw [lineByLine, alone]
    cases rest with
    | nil => rw [String.intercalate_singleton, lineByLine, List.append_nil]
    | cons next rest =>
      rw [String.intercalate_cons_cons, based.found_below own.settled, own.count_newline,
        List.map_append, ← ih closed (List.cons_ne_nil _ _), List.map_map]
      congr 1
      refine List.map_congr_left fun _ _ => (Diagnostic.shift_shift ..).trans ?_
      congr 1 <;> omega

/-- A diagram with some lines below its header. -/
theorem validate_lines :
    validate ("\n".intercalate (header :: lines)) =
      ⟨lineByLine header 0 0 lines,
        some ⟨.start,
          content (lines.flatMap fun line => (based.statements line).map (·.value))⟩⟩ := by
  cases lines with
  | nil =>
    rw [String.intercalate_singleton, based.validate_header reads names]
    rfl
  | cons line rest =>
    rw [String.intercalate_cons_cons, based.validate_below_header reads names,
      ← based.found_lines closed reads names (List.cons_ne_nil _ _), based.statements_lines closed]

end LineBased

/-! ## Families -/

/-- The families whose diagrams are read line by line up to the end of the input. -/
def Family.isLineBased : Family → Bool
  | .sequence | .unmodelled _ => true
  | .flowchart | .chart | .blocks => false

/-- The messages of the diagram of a verdict. -/
def Verdict.messages (verdict : Verdict) : List Message :=
  ((verdict.diagram?.bind fun diagram => diagram.content.sequence?).map (·.messages)).getD []

/-- The content of a sequence diagram with some statements. -/
def Sequence.contentOf (values : List (Option Statement)) : Content :=
  .sequence (ofStatements (values.filterMap id))

theorem Sequence.readContent_eq (source : List Char) (finish header : Token) (rest : List Item) :
    Diagram.readContent source finish header rest .sequence =
      ⟨contentOf ((Reading.statements (readStatement finish) (readStatement_suffix finish)
          (Items.skipLine header.line rest)).map (·.value)),
        (Reading.statements (readStatement finish) (readStatement_suffix finish)
          (Items.skipLine header.line rest)).flatMap (·.diagnostics), []⟩ := by
  rw [contentOf, List.filterMap_map]
  rfl

/-- The content of a diagram that is not modelled, whatever its statements. -/
def Unmodelled.contentOf (kind : Unmodelled) (_ : List Unit) : Content := .unmodelled kind

theorem Unmodelled.readContent_eq (kind : Unmodelled) (source : List Char) (finish header : Token)
    (rest : List Item) :
    Diagram.readContent source finish header rest (.unmodelled kind) =
      ⟨kind.contentOf ((Reading.statements (readStatement kind finish)
          (readStatement_suffix kind finish) (Items.skipLine header.line rest)).map (·.value)),
        (Reading.statements (readStatement kind finish) (readStatement_suffix kind finish)
          (Items.skipLine header.line rest)).flatMap (·.diagnostics), []⟩ := rfl

theorem Sequence.messages_contentOf (diagnostics : List Diagnostic) (position : Position)
    (values : List (Option Statement)) :
    (Verdict.mk diagnostics (some ⟨position, contentOf values⟩)).messages =
      (values.filterMap id).filterMap Statement.message? := rfl

/-- What is said of a sequence diagram, or of a diagram whose content is not modelled, is what is
said of each of its lines alone below the header, and so are the messages of a sequence diagram. -/
theorem validate_line_by_line (header : String) (family : Family) (lines : List String)
    (names : TokenKind.ofWord header = .header family) (based : family.isLineBased = true)
    (closed : ∀ line ∈ lines, IsClosedLine line) :
    (validate ("\n".intercalate (header :: lines))).type = .known family ∧
      (validate ("\n".intercalate (header :: lines))).diagnostics =
        lineByLine header 0 0 lines ∧
      (validate ("\n".intercalate (header :: lines))).messages =
        lines.flatMap fun line => (validate (header ++ "\n" ++ line)).messages := by
  cases family with
  | sequence =>
    have based := Sequence.lineBased
    have reads := Sequence.readContent_eq
    have whole := based.validate_lines closed reads names
    refine ⟨by rw [whole]; rfl, by rw [whole], ?_⟩
    rw [whole, Sequence.messages_contentOf, List.filterMap_flatMap, List.filterMap_flatMap]
    refine List.flatMap_congr fun line _ => ?_
    rw [based.validate_below_header reads names, Sequence.messages_contentOf]
  | unmodelled kind =>
    -- Nothing is known of the content, so there are no messages on either side.
    have based := Unmodelled.lineBased kind
    have reads := Unmodelled.readContent_eq kind
    have whole := based.validate_lines closed reads names
    refine ⟨by rw [whole]; rfl, by rw [whole], ?_⟩
    have none : ∀ line ∈ lines, (validate (header ++ "\n" ++ line)).messages = [] := by
      intro line _
      rw [based.validate_below_header reads names]
      rfl
    rw [whole, List.flatMap_eq_nil_iff.2 none]
    rfl
  | flowchart => cases based
  | chart => cases based
  | blocks => cases based

/-- A message, a message without a receiver, and a comment that does not stand alone. -/
theorem validate_line_by_line_sequence :
    (validate ("\n".intercalate ["sequenceDiagram", "A->>B: hi", "A->>", "loop %% c"])).type =
        .known .sequence ∧
      (validate ("\n".intercalate
          ["sequenceDiagram", "A->>B: hi", "A->>", "loop %% c"])).diagnostics =
        lineByLine "sequenceDiagram" 0 0 ["A->>B: hi", "A->>", "loop %% c"] ∧
      (validate ("\n".intercalate ["sequenceDiagram", "A->>B: hi", "A->>", "loop %% c"])).messages =
        (["A->>B: hi", "A->>", "loop %% c"].flatMap fun line =>
          (validate ("sequenceDiagram" ++ "\n" ++ line)).messages) ∧
      (lineByLine "sequenceDiagram" 0 0 ["A->>B: hi", "A->>", "loop %% c"]).map
          (fun diagnostic => (diagnostic.code, diagnostic.line)) =
        [(.incompleteMessage, 3), (.inlineCommentNotSupported, 4)] :=
  have closed : ∀ line ∈ ["A->>B: hi", "A->>", "loop %% c"], IsClosedLine line := by
    intro line member
    simp only [List.mem_cons, List.not_mem_nil, or_false] at member
    rcases member with rfl | rfl | rfl
    all_goals exact ⟨by decide +kernel, by decide +kernel, by decide +kernel⟩
  have based := validate_line_by_line "sequenceDiagram" .sequence
    ["A->>B: hi", "A->>", "loop %% c"] (by decide) rfl closed
  ⟨based.1, based.2.1, based.2.2, by decide +kernel⟩

end DiagramCheck
