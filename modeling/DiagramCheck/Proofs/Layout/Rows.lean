/-
# Printed rows

A text printed from known words is read as these words. If the words are quiet, which
comments, directives and unclosed strings are not, then every one of them is an item
and no rule for comments, strings and directives objects to them. None of them runs on
into what stands below either, so rows printed one below the other are read as the
items of each row, every row below those before it.

A row may hold newlines, between the quotes of a string.

Main statement: `stacked_print`.
-/

import DiagramCheck.Proofs.Relocation.Below
import DiagramCheck.Proofs.Token.Spelling

namespace DiagramCheck

open Lexeme (Leads)

/-! ## Quoted texts -/

namespace Lexeme

/-- A quoted text ends at the first quote like its own. -/
theorem quotedBody_of_not_mem {quote : Char} {text : List Char} (unquoted : quote ∉ text)
    (behind : List Char) : quotedBody quote (text ++ quote :: behind) = text.length + 1 := by
  induction text with
  | nil => rw [List.nil_append, quotedBody, if_pos rfl, List.length_nil]
  | cons c text ih =>
    rw [List.mem_cons, not_or] at unquoted
    rw [List.cons_append, quotedBody, if_neg (Ne.symm unquoted.1), ih unquoted.2, List.length_cons]

theorem leads_string {text : List Char} (unquoted : '"' ∉ text) (behind : List Char) :
    Leads .string ('"' :: (text ++ ['"'])) behind := by
  refine Leads.of_string (.inl rfl) ?_
  rw [List.append_assoc, List.singleton_append, quotedBody_of_not_mem unquoted,
    List.length_append, List.length_singleton]

end Lexeme

/-- A text between double quotes. -/
def Text.quoted (text : String) : String := "\"" ++ text ++ "\""

theorem Text.toList_quoted (text : String) :
    (quoted text).toList = '"' :: (text.toList ++ ['"']) := by
  rw [quoted, String.toList_append, String.toList_append]
  rfl

theorem Spells.quoted {text : String} (unquoted : '"' ∉ text.toList) (behind : List Char) :
    Spells (Text.quoted text).toList behind [(.string, Text.quoted text)] := by
  have leads := Lexeme.leads_string unquoted behind
  rw [← Text.toList_quoted] at leads
  have spelled := Spells.of_leads leads nofun
  rwa [String.ofList_toList] at spelled

theorem Token.value_quoted {token : Token} {text : String}
    (same : token.word = (.string, Text.quoted text)) : token.value = text := by
  obtain ⟨kind, written⟩ := Prod.ext_iff.1 same
  have kind : token.kind = .string := kind
  have written : token.text = Text.quoted text := written
  rw [Token.value, if_pos kind, written, Text.toList_quoted]
  simp [Token.unquote]

/-! ## Where the tokens of a scan stand -/

/-- What is read off the front of a text stands on the lines of that front. -/
theorem Token.Scans.lines {place stop : Position} {text behind : List Char} {tokens : List Token}
    (scans : Token.Scans place text tokens stop behind) :
    place.line ≤ stop.line ∧
      ∀ token ∈ tokens, place.line ≤ token.line ∧ token.endLine ≤ stop.line := by
  induction scans with
  | done => exact ⟨Nat.le_refl _, List.forall_mem_nil _⟩
  | @blank place stop c text behind tokens _ _ ih =>
    have passed : place.line ≤ (place.step c).line := by
      have whole := Position.line_after place [c]
      rw [Position.after_cons, Position.after_nil] at whole
      omega
    exact ⟨passed.trans ih.1, fun token member =>
      ⟨passed.trans (ih.2 token member).1, (ih.2 token member).2⟩⟩
  | @lexeme place stop kind written text behind tokens _ _ ih =>
    have passed : place.line ≤ (place.after written).line := by
      rw [Position.line_after]
      exact Nat.le_add_right ..
    refine ⟨passed.trans ih.1, List.forall_mem_cons.2 ⟨⟨Nat.le_refl _, ?_⟩, fun token member =>
      ⟨passed.trans (ih.2 token member).1, (ih.2 token member).2⟩⟩⟩
    rw [endLine_ofLexeme]
    exact ih.1

namespace Layout

/-! ## Quiet words -/

/-- A word that the grammars read, that no rule for comments, strings and directives objects to,
and that ends no statement. -/
structure IsQuiet (word : TokenKind × String) : Prop where
  significant : word.1 ≠ .comment ∧ word.1 ≠ .directive ∧ word.1 ≠ .endOfInput
  unparted : word.1 ≠ .semicolon
  closed : word.1 = .string → Token.lacksClosingQuote word.2.toList = false

theorem isQuiet_of_kind {kind : TokenKind} (plain : kind ≠ .comment ∧ kind ≠ .directive ∧
    kind ≠ .endOfInput ∧ kind ≠ .semicolon ∧ kind ≠ .string) (text : String) :
    IsQuiet (kind, text) :=
  have ⟨uncommented, undirected, inside, unparted, unquoted⟩ := plain
  ⟨⟨uncommented, undirected, inside⟩, unparted, fun string => absurd string unquoted⟩

theorem isQuiet_quoted (text : String) : IsQuiet (.string, Text.quoted text) := by
  refine ⟨⟨nofun, nofun, nofun⟩, nofun, fun _ => ?_⟩
  rw [Text.toList_quoted]
  simp [Token.lacksClosingQuote]

private theorem isUnterminatedString_of_isQuiet {token : Token} (quiet : IsQuiet token.word) :
    token.isUnterminatedString = false := by
  rw [Token.isUnterminatedString, Bool.and_eq_false_imp, beq_iff_eq]
  exact quiet.closed

private theorem runsOn_of_isQuiet {token : Token} (quiet : IsQuiet token.word) :
    token.runsOn = false := by
  rw [Token.runsOn, isUnterminatedString_of_isQuiet quiet, Bool.or_false]
  exact beq_eq_false_iff_ne.2 quiet.significant.2.1

private theorem isSignificant_of_isQuiet {token : Token} (quiet : IsQuiet token.word) :
    token.isSignificant = true := by
  obtain ⟨uncommented, undirected, inside⟩ := quiet.significant
  unfold Token.isSignificant
  split
  · next comment => exact absurd comment uncommented
  · next directive => exact absurd directive undirected
  · next finish => exact absurd finish inside
  · rfl

theorem lexicalDiagnosticsAfter_of_isQuiet {tokens : List Token}
    (quiet : ∀ token ∈ tokens, IsQuiet token.word) (previous : Option Token) :
    lexicalDiagnosticsAfter previous tokens = [] :=
  lexicalDiagnosticsAfter_of_settled
    (fun token member => isSignificant_of_isQuiet (quiet token member))
    (fun token member => runsOn_of_isQuiet (quiet token member)) previous

theorem significant_of_isQuiet {place : Position} {text : List Char}
    (quiet : ∀ token ∈ Token.lexemes place text, IsQuiet token.word) :
    (Token.stream place text).filter Token.isSignificant = Token.lexemes place text :=
  Token.significant_of_forall fun token member => isSignificant_of_isQuiet (quiet token member)

/-- On one line only the first token begins a statement when none of them is a semicolon. -/
theorem startsStatement_place {line : Nat} {previous : Token} {tokens : List Token}
    (lines : ∀ token ∈ previous :: tokens, token.line = line ∧ token.endLine = line)
    (quiet : ∀ token ∈ previous :: tokens, IsQuiet token.word) :
    ∀ item ∈ place (some previous) tokens, item.startsStatement = false := by
  induction tokens generalizing previous with
  | nil => exact fun _ absent => by cases absent
  | cons token tokens ih =>
    obtain ⟨front, lines⟩ := List.forall_mem_cons.1 lines
    obtain ⟨own, quiet⟩ := List.forall_mem_cons.1 quiet
    refine List.forall_mem_cons.2 ⟨?_, ih lines quiet⟩
    have beside := (lines token (List.mem_cons_self ..)).1
    have unparted : (previous.kind == .semicolon) = false := beq_eq_false_iff_ne.2 own.unparted
    simp [Token.startsStatementAfter, Token.startsLineAfter, front.2, beside, unparted]

/-! ## Texts of quiet words -/

private theorem map_word_place (previous : Option Token) (tokens : List Token) :
    (place previous tokens).map (·.word) = tokens.map Token.word := by
  conv_rhs => rw [← map_toToken_place previous tokens, List.map_map]
  rfl

/-- Items that stand on one line, spell some words, and begin a single statement. -/
structure OnRow (line : Nat) (words : List (TokenKind × String)) (items : List Item) : Prop where
  spelled : items.map (·.word) = words
  lines : ∀ item ∈ items, item.line = line ∧ item.endLine = line
  beside : ∀ item ∈ items.tail, item.startsStatement = false

/-- Items that spell some words and begin a statement. The words in front stand on one line; those
behind may go on below it. -/
structure FromRow (line : Nat) (front behind : List (TokenKind × String)) (items : List Item) :
    Prop where
  spelled : items.map (·.word) = front ++ behind
  lines : ∀ item ∈ items.take front.length, item.line = line ∧ item.endLine = line
  begins : ∀ item ∈ items.head?, item.startsStatement = true

section Written

variable {text : String} {words : List (TokenKind × String)}
  (spelled : Spells text.toList [] words) (quiet : ∀ word ∈ words, IsQuiet word)

include spelled quiet

private theorem quiet_lexemes : ∀ token ∈ Token.lexemes .start text.toList, IsQuiet token.word := by
  intro token member
  refine quiet _ ?_
  rw [← spelled.lexemes_eq .start]
  exact List.mem_map_of_mem member

/-- No token of a quiet text runs on into what stands below. -/
theorem settled_of_spells : ∀ token ∈ Token.tokenize text, token.runsOn = false := by
  rw [Token.tokenize, Token.stream_eq_lexemes]
  refine List.forall_mem_append.2 ⟨fun token member => ?_, fun token member => ?_⟩
  · exact runsOn_of_isQuiet (quiet_lexemes spelled quiet token member)
  · rw [List.mem_singleton.1 member]
    rfl

theorem lexicalDiagnostics_of_spells : lexicalDiagnostics (Token.tokenize text) = [] := by
  rw [lexicalDiagnostics, Token.tokenize, lexicalDiagnosticsAfter_stream,
    lexicalDiagnosticsAfter_of_isQuiet (quiet_lexemes spelled quiet)]

/-- The items of a quiet text are its lexemes. -/
theorem items_of_spells :
    items (Token.tokenize text) = place none (Token.lexemes .start text.toList) := by
  rw [items, Token.tokenize, significant_of_isQuiet (quiet_lexemes spelled quiet)]

/-- The items of a quiet line stand on it and spell its words. -/
theorem onRow_of_spells (single : '\n' ∉ text.toList) :
    OnRow 1 words (items (Token.tokenize text)) := by
  have lines := @Token.line_of_mem_lexemes .start _ single
  have quiet' := quiet_lexemes spelled quiet
  have spelled' := spelled.lexemes_eq .start
  rw [items_of_spells spelled quiet]
  generalize Token.lexemes .start text.toList = tokens at lines quiet' spelled'
  refine ⟨(map_word_place none tokens).trans spelled', fun item member => lines item.toToken ?_, ?_⟩
  · rw [← map_toToken_place none tokens]
    exact List.mem_map_of_mem member
  · cases tokens with
    | nil => exact fun _ absent => by cases absent
    | cons token tokens => exact startsStatement_place lines quiet'

end Written

/-- The words in front of a quiet text stand on its first line if no newline is among them. -/
theorem fromRow_of_spells {text : String} {front behind : List Char}
    {words others : List (TokenKind × String)} (split : text.toList = front ++ behind)
    (spelled : Spells front behind words) (single : '\n' ∉ front)
    (later : Spells behind [] others) (quiet : ∀ word ∈ words ++ others, IsQuiet word) :
    FromRow 1 words others (items (Token.tokenize text)) := by
  have whole : Spells text.toList [] (words ++ others) := by
    rw [split]
    rw [← List.append_nil behind] at spelled
    exact spelled.append later
  -- The front and what stands behind it are scanned one after the other.
  obtain ⟨tokens, scans, rfl⟩ := spelled .start
  obtain ⟨tokens', scans', rfl⟩ := later (Position.start.after front)
  rw [List.append_nil] at scans'
  have stream : Token.lexemes .start text.toList = tokens ++ tokens' := by
    rw [split, Token.lexemes, (scans.trans scans').stream_eq, Token.stream_nil,
      List.dropLast_concat]
  have last : (Position.start.after front).line = 1 := by
    rw [Position.line_after, List.count_eq_zero.2 single]
    rfl
  have lines : ∀ token ∈ tokens, token.line = 1 ∧ token.endLine = 1 := by
    intro token member
    obtain ⟨starts, ends⟩ := scans.lines.2 token member
    have order := token.line_le_endLine
    have first : Position.start.line = 1 := rfl
    omega
  rw [items_of_spells whole quiet, stream]
  refine ⟨?_, fun item member => lines item.toToken ?_, ?_⟩
  · rw [map_word_place, List.map_append]
  · have own := List.mem_map_of_mem (f := Item.toToken) member
    rwa [List.map_take, map_toToken_place, List.length_map, List.take_left] at own
  · cases tokens ++ tokens' with
    | nil => exact fun _ absent => by cases absent
    | cons token more =>
      rintro _ ⟨⟩
      rfl

/-! ## Moved rows -/

section Moved

variable {move : Relocation} (exact : move.returns = 0)

include exact

private theorem word_moved (item : Item) : (move.item item).word = item.word := by
  rw [Token.word, Token.word, Relocation.toToken_item, Relocation.kind_token,
    Relocation.text_token, Relocation.text_of_returns move exact]

private theorem words_moved (items : List Item) :
    (items.map move.item).map (·.word) = items.map (·.word) := by
  rw [List.map_map]
  exact List.map_congr_left fun item _ => word_moved exact item

omit exact in
private theorem lines_moved {line : Nat} {items : List Item}
    (lines : ∀ item ∈ items, item.line = line ∧ item.endLine = line) :
    ∀ item ∈ items.map move.item,
      item.line = line + move.lines ∧ item.endLine = line + move.lines := by
  intro item member
  obtain ⟨own, listed, rfl⟩ := List.mem_map.1 member
  obtain ⟨start, stop⟩ := lines own listed
  rw [Relocation.toToken_item, Relocation.line_token, Relocation.endLine_token, start, stop]
  exact ⟨rfl, rfl⟩

theorem OnRow.moved {line : Nat} {words : List (TokenKind × String)} {items : List Item}
    (row : OnRow line words items) : OnRow (line + move.lines) words (items.map move.item) := by
  refine ⟨(words_moved exact items).trans row.spelled, lines_moved row.lines, ?_⟩
  rw [← List.map_tail]
  intro item member
  obtain ⟨own, listed, rfl⟩ := List.mem_map.1 member
  exact row.beside own listed

theorem FromRow.moved {line : Nat} {front behind : List (TokenKind × String)} {items : List Item}
    (row : FromRow line front behind items) :
    FromRow (line + move.lines) front behind (items.map move.item) := by
  refine ⟨(words_moved exact items).trans row.spelled, ?_, ?_⟩
  · rw [← List.map_take]
    exact lines_moved row.lines
  · rw [List.head?_map]
    intro item member
    obtain ⟨own, listed, rfl⟩ := Option.map_eq_some_iff.1 member
    exact row.begins own listed

private theorem above_moved {items later : List Item} (above : Items.Above items later) :
    Items.Above (items.map move.item) (later.map move.item) := by
  intro _ member _ behind
  obtain ⟨item, listed, rfl⟩ := List.mem_map.1 member
  obtain ⟨next, below, rfl⟩ := List.mem_map.1 behind
  obtain ⟨line, offset⟩ := above item listed next below
  rw [Relocation.toToken_item, Relocation.toToken_item, Relocation.endLine_token,
    Relocation.line_token, Relocation.stop_token move exact, Relocation.offset_token move exact]
  exact ⟨Nat.add_lt_add_right line _, Nat.add_lt_add_right offset _⟩

end Moved

/-! ## Rows below each other -/

section Stacked

variable {α : Type} {print : α → String} {own : Nat → α → List Item → Prop}

/-- Items that are those of some rows, the first of which begins on `line`, and every other one on
the line below the one before it. What the items of a row are, `own` says. -/
inductive Stacked (print : α → String) (own : Nat → α → List Item → Prop) :
    Nat → List α → List Item → Prop
  | nil {line : Nat} : Stacked print own line [] []
  | cons {line : Nat} {row : α} {rows : List α} {items later : List Item}
      (first : own line row items)
      (below : Stacked print own (line + ((print row).toList.count '\n' + 1)) rows later)
      (above : Items.Above items later) : Stacked print own line (row :: rows) (items ++ later)

variable (keeps : ∀ {move : Relocation} {line : Nat} {row : α} {items : List Item},
  move.returns = 0 → own line row items → own (line + move.lines) row (items.map move.item))

include keeps

theorem Stacked.moved {move : Relocation} (exact : move.returns = 0) {line : Nat} {rows : List α}
    {items : List Item} (laid : Stacked print own line rows items) :
    Stacked print own (line + move.lines) rows (items.map move.item) := by
  induction laid with
  | nil => exact .nil
  | cons first below above ih =>
    rw [List.map_append]
    refine .cons (keeps exact first) ?_ (above_moved exact above)
    rwa [Nat.add_right_comm] at ih

/-- The items of some printed rows are those of each row, and no rule for comments, strings and
directives objects to them, if this is so for each row alone. -/
theorem stacked_print {words : α → List (TokenKind × String)}
    (spells : ∀ row, Spells (print row).toList [] (words row))
    (quiet : ∀ row, ∀ word ∈ words row, IsQuiet word)
    (alone : ∀ row, own 1 row (items (Token.tokenize (print row)))) (rows : List α) :
    Stacked print own 1 rows (items (Token.tokenize ("\n".intercalate (rows.map print)))) ∧
      lexicalDiagnostics (Token.tokenize ("\n".intercalate (rows.map print))) = [] := by
  -- By induction on the rows: the others lie below the first one, and no token of that runs on.
  induction rows with
  | nil =>
    have empty : Token.tokenize "" = [.endOfInput .start] := by
      rw [Token.tokenize, String.toList_empty, Token.stream_nil]
    rw [List.map_nil, String.intercalate_nil, empty]
    exact ⟨.nil, rfl⟩
  | cons row rows ih =>
    have settled := settled_of_spells (spells row) (quiet row)
    have silent := lexicalDiagnostics_of_spells (spells row) (quiet row)
    cases rows with
    | nil =>
      rw [List.map_singleton, String.intercalate_singleton]
      have laid : Stacked print own 1 [row] (items (Token.tokenize (print row)) ++ []) :=
        .cons (alone row) .nil fun _ _ _ absent => by cases absent
      rw [List.append_nil] at laid
      exact ⟨laid, silent⟩
    | cons next rows =>
      rw [List.map_cons, List.map_cons, String.intercalate_cons_cons,
        Relocation.items_below _ settled, Relocation.lexicalDiagnostics_below _ settled, silent]
      rw [List.map_cons] at ih
      rw [ih.2]
      have exact : (Relocation.below (print row)).returns = 0 := rfl
      have later := Stacked.moved keeps exact ih.1
      exact ⟨.cons (alone row) later (Relocation.above_below (print row) _), rfl⟩

end Stacked

end Layout

end DiagramCheck
