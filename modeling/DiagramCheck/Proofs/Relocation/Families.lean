/-
# Reading relocated sequence diagrams, charts and block diagrams

The statements of these diagrams are read of a relocated text as they are of the
text, reader by reader. The text of a category is cut out of the source between
two tokens; in the relocated source it lies between the places where these have
come to lie, and holds a character that needs quotes when it does in the source.
-/

import DiagramCheck.Proofs.Diagnostic.Families
import DiagramCheck.Proofs.Relocation.Reading

namespace DiagramCheck

open Items (Within)

/-! ## Charts that draw alike -/

namespace Chart

/-- A statement that draws a series. -/
def isSeries : Statement → Bool
  | .series _ => true
  | _ => false

private theorem isEmpty_series (chart : Chart) (statements : List Statement) :
    (statements.foldl apply chart).series.isEmpty =
      (chart.series.isEmpty && (statements.map isSeries).all (!·)) := by
  induction statements generalizing chart with
  | nil => simp
  | cons statement statements ih =>
    rw [List.foldl_cons, ih]
    cases statement <;> simp [apply, isSeries]

/-- Both statements draw a series, or neither does. -/
def DrawsAlike (value value' : Option Statement) : Prop :=
  value'.map isSeries = value.map isSeries

/-- Charts whose statements draw alike both have a series, or neither has. -/
theorem isEmpty_series_of_drawsAlike {readings readings' : List (Reading (Option Statement))}
    (alike : List.Forall₂ (fun reading reading' => DrawsAlike reading.value reading'.value)
      readings readings')
    (horizontal horizontal' : Bool) :
    (ofStatements horizontal' (readings'.filterMap (·.value))).series.isEmpty =
      (ofStatements horizontal (readings.filterMap (·.value))).series.isEmpty := by
  rw [ofStatements, ofStatements, isEmpty_series, isEmpty_series]
  congr 2
  induction alike with
  | nil => rfl
  | @cons reading reading' readings readings' alike _ ih =>
    rw [List.filterMap_cons, List.filterMap_cons]
    cases value : reading.value <;> cases value' : reading'.value <;>
      simp_all [DrawsAlike]

end Chart

namespace Relocation

variable (move : Relocation) {source : List Char}

/-! ## Sequence diagrams -/

section Sequence

open Sequence

section Words

variable (token : Token)

@[simp] theorem isParticipantName_token :
    (move.token token).isParticipantName = token.isParticipantName := by
  rw [Token.isParticipantName, Token.isParticipantName, isName_token, kind_token]

@[simp] theorem declaresParticipant_token :
    (move.token token).declaresParticipant = token.declaresParticipant := by
  rw [Token.declaresParticipant, Token.declaresParticipant, isWord_token move token (by decide),
    kind_token]

@[simp] theorem isActivationMark_token :
    (move.token token).isActivationMark = token.isActivationMark := by
  rw [Token.isActivationMark, Token.isActivationMark, isWord_token move token (by decide),
    isWord_token move token (by decide)]

private theorem newline_not_mem_blockWords : ∀ word ∈ Token.blockWords, '\n' ∉ word.toList := by
  decide +kernel

@[simp] theorem isBlockWord_token : (move.token token).isBlockWord = token.isBlockWord := by
  have words : Token.blockWords.any (move.token token).isWordIgnoringCase =
      Token.blockWords.any token.isWordIgnoringCase := by
    rw [Bool.eq_iff_iff, List.any_eq_true, List.any_eq_true]
    refine exists_congr fun word => and_congr_right fun listed => ?_
    rw [isWordIgnoringCase_token move token (newline_not_mem_blockWords word listed)]
  rw [Token.isBlockWord, Token.isBlockWord, isWord_token move token (by decide), words]

end Words

variable (finish : Token) {first : Item} {rest : List Item}

private theorem beginsMessage_item {items : List Item}
    (within : Within (Token.StandsIn source) items) :
    beginsMessage (move.token finish) (items.map move.item) = beginsMessage finish items := by
  simp only [beginsMessage, peekName_item move finish within, afterName_item move within,
    front_item, isParticipantName_token, endLine_token]
  rw [move.frontIs_item (·.kind.isMessage) fun _ => rfl]

private theorem readAlias_reads (keyword name : Token) (items : List Item) :
    move.Reads move.Agree (readAlias keyword name items)
      (readAlias (move.token keyword) (move.token name) (items.map move.item)) := by
  cases items with
  | nil => exact ⟨fun _ => rfl, .nil, rfl⟩
  | cons mark after =>
    have words := move.onLine_item keyword.line after
    simp only [List.map_cons, readAlias, toToken_item, line_token, Nat.add_right_cancel_iff,
      isWord_token move mark.toToken (by decide : '\n' ∉ "as".toList), words, List.isEmpty_map,
      skipLine_item]
    split
    · refine ⟨fun exact => ofItems?_item move exact _, ?_, rfl⟩
      split
      · exact move.tells_one _ rfl fun exact => by
          rw [text_token, text_of_returns move exact, value_token move name exact]
      · exact .nil
    · exact ⟨fun _ => rfl, .nil, rfl⟩

private theorem readDeclaration_reads (keyword : Token)
    (within : Within (Token.StandsIn source) rest) :
    move.Reads move.Agree (readDeclaration finish keyword rest)
      (readDeclaration (move.token finish) (move.token keyword) (rest.map move.item)) := by
  have display := move.readAlias_reads keyword (Items.peekName finish rest) (Items.afterName rest)
  simp only [readDeclaration, line_token, peekName_item move finish within,
    afterName_item move within, display.rest, skipLine_item]
  rw [move.frontIs_item (·.isParticipantName) fun item => move.isParticipantName_token item.toToken]
  split
  · refine ⟨fun exact => ?_, display.diagnostics, rfl⟩
    dsimp only
    rw [value_token move _ exact, display.value exact]
  · refine ⟨fun _ => rfl, ?_, rfl⟩
    exact move.tells_one _ rfl fun exact => by rw [text_token, text_of_returns move exact]

private theorem readReceiver_reads (sender arrow : Token) (shape : Arrow)
    (within : Within (Token.StandsIn source) rest) :
    move.Reads move.Agree (readReceiver finish sender arrow shape rest)
      (readReceiver (move.token finish) (move.token sender) (move.token arrow) shape
        (rest.map move.item)) := by
  have marks : Items.dropIf (arrow.line + move.lines) (·.isActivationMark) (rest.map move.item) =
      (Items.dropIf arrow.line (·.isActivationMark) rest).map move.item :=
    move.dropIf_item _ (fun item => move.isActivationMark_token item.toToken) _ _
  have items := within.suffix (Items.dropIf_suffix arrow.line (·.isActivationMark) rest)
  simp only [readReceiver, line_token, marks, peekName_item move finish items,
    afterName_item move items, dropIf_kind, onLine_item, skipLine_item]
  rw [move.frontIs_item (·.isParticipantName) fun item => move.isParticipantName_token item.toToken]
  split
  · refine ⟨fun exact => ?_, .nil, rfl⟩
    dsimp only
    rw [value_token move _ exact, value_token move _ exact, ofItems?_item move exact]
  · refine ⟨fun _ => rfl, ?_, rfl⟩
    refine move.tells_one _ (by simp only [Problem.code]) fun exact => ?_
    rw [text_token, text_of_returns move exact, value_token move sender exact]

private theorem readMessage_reads (within : Within (Token.StandsIn source) (first :: rest)) :
    move.Reads move.Agree (readMessage finish first rest)
      (readMessage (move.token finish) (move.item first) (rest.map move.item)) := by
  have after := within.suffix (Items.afterName_suffix _)
  rw [readMessage, readMessage, ← List.map_cons, afterName_item move within,
    peekName_item move finish within]
  cases found : Items.afterName (first :: rest) with
  | nil => exact ⟨fun _ => rfl, .nil, rfl⟩
  | cons arrow later =>
    rw [found] at after
    simp only [List.map_cons, toToken_item, kind_token]
    split
    · exact move.readReceiver_reads finish _ _ _ after.of_cons
    · exact ⟨fun _ => rfl, .nil, rfl⟩

theorem readStatement_reads (within : Within (Token.StandsIn source) (first :: rest)) :
    move.Reads move.Agree (readStatement finish first rest)
      (readStatement (move.token finish) (move.item first) (rest.map move.item)) := by
  have begins := move.beginsMessage_item finish within
  rw [List.map_cons] at begins
  simp only [readStatement, decoration?_item, toToken_item, kind_token, declaresParticipant_token,
    begins, isBlockWord_token, line_token, skipLine_item]
  split
  · exact (move.decoration_reads _ _ _ _ _ within.of_cons).agree_map _
  · split_ifs
    · exact ⟨fun _ => rfl, .nil, rfl⟩
    · exact move.readDeclaration_reads finish _ within.of_cons
    · exact move.readMessage_reads finish within
    · exact ⟨fun _ => rfl, move.tells_one _ rfl fun _ => rfl, rfl⟩
    · exact ⟨fun _ => rfl, .nil, rfl⟩
    · exact ⟨fun _ => rfl,
        move.tells_one _ rfl fun exact => by rw [found_token move exact], rfl⟩

/-- The statements of a sequence diagram of the relocated text are those of the text. -/
theorem sequence_statements_reads (header : Token) (within : Within (Token.StandsIn source) rest) :
    List.Forall₂ (move.Reads move.Agree) (Sequence.statements finish header rest)
      (Sequence.statements (move.token finish) (move.token header) (rest.map move.item)) := by
  rw [Sequence.statements, Sequence.statements, line_token, skipLine_item]
  exact move.statements_reads (fun _ _ => move.readStatement_reads finish)
    (within.suffix (Items.skipLine_suffix _ _))

theorem sequence_reads (header : Token) (within : Within (Token.StandsIn source) rest) :
    move.Reads (fun _ _ => True) (Sequence.read finish header rest)
      (Sequence.read (move.token finish) (move.token header) (rest.map move.item)) :=
  ⟨trivial, move.flatMap_diagnostics_tells (move.sequence_statements_reads finish header within),
    rfl⟩

end Sequence

/-! ## Diagrams whose content is not modelled -/

theorem unmodelled_readStatement_reads (kind : Unmodelled) (finish : Token) {first : Item}
    {rest : List Item} (within : Within (Token.StandsIn source) (first :: rest)) :
    move.Reads move.Agree (Unmodelled.readStatement kind finish first rest)
      (Unmodelled.readStatement kind (move.token finish) (move.item first)
        (rest.map move.item)) := by
  simp only [Unmodelled.readStatement, decoration?_item]
  split
  · exact move.decoration_reads _ _ _ _ _ within.of_cons
  · exact ⟨fun _ => rfl, .nil, rfl⟩

private theorem unmodelled_statements_reads (kind : Unmodelled) (finish header : Token)
    {rest : List Item}
    (within : Within (Token.StandsIn source) rest) :
    List.Forall₂ (move.Reads move.Agree) (Unmodelled.statements kind finish header rest)
      (Unmodelled.statements kind (move.token finish) (move.token header)
        (rest.map move.item)) := by
  rw [Unmodelled.statements, Unmodelled.statements, line_token, skipLine_item]
  exact move.statements_reads (fun _ _ => move.unmodelled_readStatement_reads kind finish)
    (within.suffix (Items.skipLine_suffix _ _))

theorem unmodelled_reads (kind : Unmodelled) (finish header : Token) {rest : List Item}
    (within : Within (Token.StandsIn source) rest) :
    move.Reads (fun _ _ => True) (Unmodelled.read kind finish header rest)
      (Unmodelled.read kind (move.token finish) (move.token header) (rest.map move.item)) :=
  ⟨trivial, move.flatMap_diagnostics_tells
    (move.unmodelled_statements_reads kind finish header within), rfl⟩

/-! ## Block diagrams -/

section Blocks

open BlockDiagram

variable (finish : Token) {first : Item} {rest : List Item}

private theorem columnCount?_item {item : Item} (stands : item.StandsIn source) :
    columnCount? (move.item item) = columnCount? item := by
  rw [columnCount?, columnCount?, toToken_item, kind_token]
  split
  · next number =>
    have plain := stands.newline_not_mem (by rw [number]; exact ⟨nofun, nofun, nofun⟩)
    rw [text_token, text_of_not_mem move plain]
  · rfl

private theorem readColumns_reads (keyword : Token) (within : Within (Token.StandsIn source) rest) :
    move.Reads move.Agree (readColumns finish keyword rest)
      (readColumns (move.token finish) (move.token keyword) (rest.map move.item)) := by
  have count : ((Items.onLine keyword.line rest).map move.item).head?.bind columnCount? =
      (Items.onLine keyword.line rest).head?.bind columnCount? := by
    have line := within.onLine keyword.line
    cases found : Items.onLine keyword.line rest with
    | nil => rfl
    | cons first words =>
      rw [found] at line
      exact move.columnCount?_item line.head
  simp only [readColumns, line_token, onLine_item, count, skipLine_item, front_item]
  split
  · exact ⟨fun _ => rfl, .nil, rfl⟩
  · exact ⟨fun _ => rfl,
      move.tells_one _ rfl fun exact => by rw [found_token move exact], rfl⟩

private theorem readBlock_reads (within : Within (Token.StandsIn source) (first :: rest)) :
    move.Reads move.Agree (readBlock finish (first :: rest))
      (readBlock (move.token finish) ((first :: rest).map move.item)) := by
  simp only [readBlock, peekName_item move finish within, afterName_item move within,
    endLine_token, frontIs_kind, front_item, ← List.map_tail]
  split
  · refine (move.label_reads ..).map fun label label' agree exact => ?_
    rw [value_token move _ exact, agree exact]
  · refine ⟨fun exact => ?_, .nil, rfl⟩
    dsimp only
    rw [value_token move _ exact]

private theorem blocks_readStatement_reads
    (within : Within (Token.StandsIn source) (first :: rest)) :
    move.Reads move.Agree (readStatement finish first rest)
      (readStatement (move.token finish) (move.item first) (rest.map move.item)) := by
  have block := move.readBlock_reads finish within
  rw [List.map_cons] at block
  have columns : setsColumns (move.item first) = setsColumns first := by
    rw [setsColumns, setsColumns, toToken_item, isWord_token move first.toToken (by decide),
      startsStatement_item]
  simp only [readStatement, decoration?_item, toToken_item, kind_token, isName_token, columns]
  split
  · exact ⟨fun _ => rfl, .nil, rfl⟩
  · split
    · exact (move.decoration_reads _ _ _ _ _ within.of_cons).agree_map _
    · split_ifs
      · exact move.readColumns_reads finish _ within.of_cons
      · exact block
      · refine ⟨fun _ => rfl, move.tells_one _ ?_ fun exact => ?_, rfl⟩
        · rw [unexpected, unexpected, kind_token]
          split <;> rfl
        · rw [unexpected, unexpected, kind_token, found_token move exact]

private theorem blocks_statements_reads (header : Token)
    (within : Within (Token.StandsIn source) rest) :
    List.Forall₂ (move.Reads move.Agree) (BlockDiagram.statements finish header rest)
      (BlockDiagram.statements (move.token finish) (move.token header) (rest.map move.item)) := by
  rw [BlockDiagram.statements, BlockDiagram.statements, line_token, skipLine_item]
  exact move.statements_reads (fun _ _ => move.blocks_readStatement_reads finish)
    (within.suffix (Items.skipLine_suffix _ _))

theorem blocks_reads (header : Token) (within : Within (Token.StandsIn source) rest) :
    move.Reads (fun _ _ => True) (BlockDiagram.read finish header rest)
      (BlockDiagram.read (move.token finish) (move.token header) (rest.map move.item)) :=
  ⟨trivial, move.flatMap_diagnostics_tells (move.blocks_statements_reads finish header within),
    rfl⟩

end Blocks

/-! ## Charts -/

section Chart

open Chart

variable (finish : Token) {first : Item} {rest : List Item}

/-- The text between two places comes to lie between the places that they are moved to. -/
theorem slice?_relocated {before : List Char} (size : Text.byteLength before = move.bytes)
    {first second : Position} (left : Lies source first) (right : Lies source second)
    (order : first.offset ≤ second.offset) :
    ∃ inside, Text.slice? first.offset second.offset source = some inside ∧
      Text.slice? (move.position first).offset (move.position second).offset
        (before ++ move.chars source) = some (move.chars inside) := by
  obtain ⟨passed, rest, rfl, rfl⟩ := left
  obtain ⟨whole, behind, same, rfl⟩ := right
  have offset (text : List Char) : (Position.start.after text).offset = Text.byteLength text := by
    rw [Position.offset_after]
    exact Nat.zero_add _
  have moved (text : List Char) : (move.position (Position.start.after text)).offset =
      Text.byteLength (before ++ move.chars text) := by
    rw [move.position_after (Nat.le_refl 1), Position.offset_after, Text.byteLength_append, size]
    simp [position, Position.start]
  rw [offset, offset] at order
  obtain ⟨inside, rfl, rfl⟩ := Text.append_eq_append_of_byteLength_le same order
  refine ⟨inside, ?_, ?_⟩
  · rw [offset, offset, Text.byteLength_append]
    exact Text.slice?_append passed inside behind
  · rw [moved, moved, chars_append, chars_append, chars_append, ← List.append_assoc before,
      ← List.append_assoc before, Text.byteLength_append (before ++ move.chars passed)]
    exact Text.slice?_append (before ++ move.chars passed) _ _

private theorem textBetween_relocated {before : List Char}
    (size : Text.byteLength before = move.bytes)
    {first last : Token} (left : first.StandsIn source) (right : last.StandsIn source) :
    textBetween (before ++ move.chars source) (move.token first) (move.token last) =
      move.text (textBetween source first last) := by
  have stop : (move.token last).stop =
      (move.position (last.position.after last.text.toList)).offset := by
    rw [Token.stop_eq_offset_after, position_token, text_token, toList_text,
      position_after move right.start.counted]
  have start : (move.token first).offset = (move.position first.position).offset := rfl
  have order := move.offset_position_le_iff left.start right.stop
  rw [textBetween, textBetween, stop, start, Token.stop_eq_offset_after]
  rcases Nat.le_total first.offset (last.position.after last.text.toList).offset with le | le
  · obtain ⟨inside, own, moved⟩ := move.slice?_relocated size left.start right.stop le
    rw [Nat.max_eq_right le, Nat.max_eq_right (order.2 le), own, moved]
    simp [text]
  · -- Out of order, the two enclose nothing.
    obtain ⟨inside, own, moved⟩ :=
      move.slice?_relocated size left.start left.start (Nat.le_refl _)
    have le' := (move.offset_position_le_iff right.stop left.start).2 le
    rw [Nat.max_eq_left le, Nat.max_eq_left le', own, moved]
    simp [text]

private theorem any_needsQuotes_chars (text : List Char) :
    (move.chars text).any needsQuotes = text.any needsQuotes := by
  by_cases newline : '\n' ∈ text
  · have needs : needsQuotes '\n' = true := rfl
    rw [List.any_eq_true.2 ⟨_, newline, needs⟩,
      List.any_eq_true.2 ⟨_, move.newline_mem_chars.2 newline, needs⟩]
  · rw [move.chars_of_not_mem newline]

private theorem splitAtCommas_item (items : List Item) :
    splitAtCommas (items.map move.item) = (splitAtCommas items).map (List.map move.item) := by
  induction items with
  | nil => rfl
  | cons first rest ih =>
    rw [List.map_cons, splitAtCommas, splitAtCommas, ih, toToken_item, kind_token]
    split
    · rfl
    · cases splitAtCommas rest <;> rfl

private theorem category_tells {before : List Char} (size : Text.byteLength before = move.bytes)
    {group : List Item} (within : Within (Token.StandsIn source) group) :
    List.Forall₂ move.Tells (category source group).2
      (category (before ++ move.chars source) (group.map move.item)).2 := by
  cases group with
  | nil => exact .nil
  | cons first rest =>
    have last : (rest.map move.item).getLastD (move.item first) =
        move.item (rest.getLastD first) := by
      rw [List.getLastD_eq_getLast?, List.getLastD_eq_getLast?, List.getLast?_map, Option.getD_map]
    have stands : (rest.getLastD first).StandsIn source :=
      within _ List.getLastD_mem_cons
    simp only [List.map_cons, category, List.isEmpty_map, last, toToken_item, kind_token,
      move.textBetween_relocated size within.head stands, toList_text, any_needsQuotes_chars]
    split
    · exact .nil
    · split
      · exact move.tells_one _ rfl fun exact => by rw [text_of_returns move exact]
      · exact .nil

private theorem categories_tells {before : List Char} (size : Text.byteLength before = move.bytes)
    {groups : List (List Item)} (within : ∀ group ∈ groups, Within (Token.StandsIn source) group) :
    List.Forall₂ move.Tells ((groups.map (category source)).flatMap (·.2))
      (((groups.map (List.map move.item)).map
        (category (before ++ move.chars source))).flatMap (·.2)) := by
  induction groups with
  | nil => exact .nil
  | cons group groups ih =>
    obtain ⟨own, later⟩ := List.forall_mem_cons.1 within
    exact List.rel_append (move.category_tells size own) (ih later)

private theorem readTitle_reads (keyword : Token) (rest : List Item) :
    move.Reads DrawsAlike (readTitle keyword rest)
      (readTitle (move.token keyword) (rest.map move.item)) := by
  simp only [readTitle, line_token, onLine_item, skipLine_item, List.isEmpty_map]
  refine ⟨rfl, ?_, rfl⟩
  dsimp only
  split
  · exact move.tells_one _ rfl fun _ => rfl
  · exact .nil

private theorem readCategoryList_reads {before : List Char}
    (size : Text.byteLength before = move.bytes)
    (keyword opening : Token) {items : List Item} (within : Within (Token.StandsIn source) items) :
    move.Reads DrawsAlike (readCategoryList source keyword opening items)
      (readCategoryList (before ++ move.chars source) (move.token keyword) (move.token opening)
        (items.map move.item)) := by
  have inside := within.subset
    (List.takeWhile_prefix (l := items) fun item => item.kind != .closing .square).subset
  simp only [readCategoryList, move.takeWhile_kind (· != .closing .square),
    move.dropWhile_kind (· != .closing .square), splitAtCommas_item, line_token, ← List.map_tail,
    skipLine_item, List.isEmpty_map]
  refine ⟨rfl, List.rel_append ?_ ?_, rfl⟩
  · exact move.categories_tells size fun _ member => within_of_mem_splitAtCommas inside member
  · split
    · exact move.tells_one _ rfl fun _ => rfl
    · exact .nil

private theorem readCategories_reads {before : List Char}
    (size : Text.byteLength before = move.bytes)
    (keyword : Token) (within : Within (Token.StandsIn source) rest) :
    move.Reads DrawsAlike (readCategories source finish keyword rest)
      (readCategories (before ++ move.chars source) (move.token finish) (move.token keyword)
        (rest.map move.item)) := by
  have items := within.suffix (Items.dropIf_suffix keyword.line (·.kind == .string) rest)
  simp only [readCategories, line_token, dropIf_kind, front_item, frontIs_kind, frontIs_any,
    skipLine_item, ← List.map_tail]
  split
  · exact move.readCategoryList_reads size _ _ items.tail
  · refine ⟨rfl, ?_, rfl⟩
    rw [← apply_ite move.token]
    exact move.tells_one _ rfl fun exact => by rw [found_token move exact]

private theorem number?_token {token : Token} (stands : token.StandsIn source) :
    number? (move.token token) = number? token := by
  rw [number?, number?, kind_token]
  split
  · next number =>
    have plain := stands.newline_not_mem (by rw [number]; exact ⟨nofun, nofun, nofun⟩)
    rw [text_token, text_of_not_mem move plain]
  · rfl

@[simp] theorem isBoundWord_token (token : Token) :
    isBoundWord (move.token token) = isBoundWord token := by
  rw [isBoundWord, isBoundWord, text_token, text_beq move (by decide), text_beq move (by decide)]

private theorem readBound_reads (line : Nat) {items : List Item}
    (within : Within (Token.StandsIn source) items) :
    move.Reads (fun value value' => value' = value) (readBound finish line items)
      (readBound (move.token finish) (line + move.lines) (items.map move.item)) := by
  have number : (if Items.frontIs line (fun _ => true) items then
        number? (move.token (Items.front finish items)) else none) =
      if Items.frontIs line (fun _ => true) items then
        number? (Items.front finish items) else none := by
    cases items with
    | nil => simp [Items.frontIs]
    | cons first rest => rw [Items.front, move.number?_token within.head]
  simp only [readBound, frontIs_any, front_item, number, ← List.map_tail]
  split
  · exact ⟨rfl, .nil, rfl⟩
  · refine ⟨rfl, move.tells_one _ ?_ fun exact => ?_, rfl⟩
    · rw [boundProblem, boundProblem, isBoundWord_token]
      split <;> rfl
    · rw [boundProblem, boundProblem, isBoundWord_token, text_token, text_of_returns move exact,
        found_token move exact]

private theorem readRange_reads (line : Nat) {items : List Item}
    (within : Within (Token.StandsIn source) items) :
    move.Reads (fun _ _ => True) (readRange finish line items)
      (readRange (move.token finish) (line + move.lines) (items.map move.item)) := by
  have low := move.readBound_reads finish line within
  have later := within.suffix (readBound_suffix finish line items)
  simp only [readRange, low.value, low.rest, frontIs_kind, front_item, ← List.map_tail]
  split
  · exact ⟨trivial, low.diagnostics, rfl⟩
  · split
    · have high := move.readBound_reads finish line later.tail
      exact ⟨trivial, List.rel_append low.diagnostics high.diagnostics, high.rest⟩
    · refine ⟨trivial, List.rel_append low.diagnostics ?_, rfl⟩
      exact move.tells_one _ rfl fun exact => by rw [found_token move exact]

private theorem readValueAxis_reads (keyword : Token)
    (within : Within (Token.StandsIn source) rest) :
    move.Reads DrawsAlike (readValueAxis finish keyword rest)
      (readValueAxis (move.token finish) (move.token keyword) (rest.map move.item)) := by
  have isLabel (item : Item) : isAxisLabel (move.item item).toToken = isAxisLabel item.toToken := by
    rw [isAxisLabel, isAxisLabel, toToken_item, kind_token, isBoundWord_token]
  have label : (readAxisLabel (move.token finish) (keyword.line + move.lines)
      (rest.map move.item)).rest =
        (readAxisLabel finish keyword.line rest).rest.map move.item := by
    rw [readAxisLabel, readAxisLabel, move.frontIs_item (isAxisLabel ·.toToken) isLabel]
    split
    · exact List.map_tail.symm
    · rfl
  have later := within.suffix (readAxisLabel_suffix finish keyword.line rest)
  have range : move.Reads (fun _ _ => True)
      (readAxisRange finish keyword.line (readAxisLabel finish keyword.line rest).rest)
      (readAxisRange (move.token finish) (keyword.line + move.lines)
        ((readAxisLabel finish keyword.line rest).rest.map move.item)) := by
    rw [readAxisRange, readAxisRange, frontIs_any]
    split
    · exact move.readRange_reads finish _ later
    · exact ⟨trivial, .nil, rfl⟩
  simp only [readValueAxis, line_token, label, range.rest, skipLine_item]
  exact ⟨rfl, range.diagnostics, rfl⟩

private theorem readValues_reads (keyword : Token) (kind : SeriesKind) (items : List Item) :
    move.Reads DrawsAlike (readValues finish keyword kind items)
      (readValues (move.token finish) (move.token keyword) kind (items.map move.item)) := by
  have after : (items.map move.item).dropWhile isValueItem =
      (items.dropWhile isValueItem).map move.item :=
    move.dropWhile_item _ _ fun _ _ => rfl
  simp only [readValues, after, front_item, kind_token, line_token,
    move.dropWhile_kind (· != .closing .square), ← List.map_tail, skipLine_item]
  refine ⟨rfl, ?_, rfl⟩
  dsimp only
  split
  · exact .nil
  · exact move.tells_one _ rfl fun exact => by rw [found_token move exact]

private theorem readSeries_reads (keyword : Token) (kind : SeriesKind) (rest : List Item) :
    move.Reads DrawsAlike (readSeries finish keyword kind rest)
      (readSeries (move.token finish) (move.token keyword) kind (rest.map move.item)) := by
  simp only [readSeries, line_token, dropIf_kind, front_item, frontIs_kind, skipLine_item,
    ← List.map_tail]
  split
  · exact move.readValues_reads finish keyword kind _
  · refine ⟨rfl, move.tells_one _ rfl fun exact => ?_, rfl⟩
    rw [text_token, text_of_returns move exact, found_token move exact]

@[simp] theorem keyword?_item (item : Item) : keyword? (move.item item) = keyword? item := by
  have word : Keyword.ofWord? (move.text item.text) = Keyword.ofWord? item.text := by
    refine move.apply_text _ none (fun word newline => ?_) item.text
    unfold Keyword.ofWord?
    split
    case h_9 => rfl
    all_goals exact absurd newline (by decide)
  rw [keyword?, keyword?, toToken_item, kind_token, startsStatement_item, text_token, word]

private theorem chart_readStatement_reads {before : List Char}
    (size : Text.byteLength before = move.bytes)
    (within : Within (Token.StandsIn source) (first :: rest)) :
    move.Reads DrawsAlike (readStatement source finish first rest)
      (readStatement (before ++ move.chars source) (move.token finish) (move.item first)
        (rest.map move.item)) := by
  simp only [readStatement, toToken_item, kind_token, keyword?_item, decoration?_item, line_token,
    skipLine_item]
  split
  · exact ⟨rfl, .nil, rfl⟩
  · split
    · next keyword _ =>
      cases keyword with
      | title => exact move.readTitle_reads _ rest
      | categories => exact move.readCategories_reads finish size _ within.of_cons
      | valueAxis => exact move.readValueAxis_reads finish _ within.of_cons
      | series kind => exact move.readSeries_reads finish _ kind rest
      | undrawn =>
        exact ⟨rfl, move.tells_one _ rfl fun exact => by rw [toToken_item, text_token,
          text_of_returns move exact], skipLine_item ..⟩
      | generic => exact ⟨rfl, move.tells_one _ rfl fun _ => rfl, skipLine_item ..⟩
    · split
      · exact (move.decoration_reads _ _ _ _ _ within.of_cons).map fun _ _ _ => rfl
      · exact ⟨rfl, move.tells_one _ rfl fun exact => by rw [found_token move exact], rfl⟩

private theorem chart_statements_reads {before : List Char}
    (size : Text.byteLength before = move.bytes) (header : Token)
    (within : Within (Token.StandsIn source) rest) :
    List.Forall₂ (move.Reads DrawsAlike) (Chart.statements source finish header rest)
      (Chart.statements (before ++ move.chars source) (move.token finish) (move.token header)
        (rest.map move.item)) := by
  rw [Chart.statements, Chart.statements, line_token, skipLine_item]
  exact move.statements_reads (fun _ _ => move.chart_readStatement_reads finish size)
    (within.suffix (Items.skipLine_suffix _ _))

theorem chart_reads {before : List Char} (size : Text.byteLength before = move.bytes)
    (header : Token) (within : Within (Token.StandsIn source) rest) :
    move.Reads (fun _ _ => True) (Chart.read source finish header rest)
      (Chart.read (before ++ move.chars source) (move.token finish) (move.token header)
        (rest.map move.item)) := by
  have readings := move.chart_statements_reads finish size header within
  refine ⟨trivial, List.rel_append (move.flatMap_diagnostics_tells readings) ?_, rfl⟩
  rw [isEmpty_series_of_drawsAlike (readings.imp fun _ _ reads => reads.value)
    (isHorizontal header rest)]
  split
  · exact move.tells_one _ rfl fun _ => rfl
  · exact .nil

end Chart

end Relocation

end DiagramCheck
