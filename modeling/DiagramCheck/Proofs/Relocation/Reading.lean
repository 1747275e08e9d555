/-
# Reading a relocated text

Every reader gives the same for the items of a relocated text as for those of the
text, put elsewhere. `Reads` says so of two readings: what is read agrees, what is
said tells the same, and what is left over are the same items. It is shown here
for what all grammars share: names and lines, labels, decorations, and statements
one after the other.

Whether two items touch is told from their offsets. These grow by different
amounts when carriage returns are put in, but what lies between two places of the
text grows with them, so places keep their order.
-/

import DiagramCheck.Decoration.Reading
import DiagramCheck.Proofs.Diagnostic.Standing
import DiagramCheck.Proofs.Relocation.Layout
import DiagramCheck.Reading.Label

namespace DiagramCheck

/-- A lexeme that stands in a source where its position says, between two places of the source. -/
structure Token.StandsIn (source : List Char) (token : Token) : Prop where
  cut : token.IsCut
  start : Relocation.Lies source token.position
  stop : Relocation.Lies source (token.position.after token.text.toList)

theorem Token.StandsIn.newline_not_mem {source : List Char} {token : Token}
    (stands : token.StandsIn source) (plain : Lexeme.IsPlain token.kind) :
    '\n' ∉ token.text.toList :=
  stands.cut.newline_not_mem plain

open Items (Within)

namespace Relocation

variable (move : Relocation)

/-! ## Lists of items -/

theorem line_beq (item : Item) (line : Nat) :
    ((move.item item).line == line + move.lines) = (item.line == line) := by
  rw [Bool.eq_iff_iff, beq_iff_eq, beq_iff_eq]
  exact Nat.add_right_cancel_iff

section Places

variable (test test' : Item → Bool) {items : List Item}
  (same : ∀ item ∈ items, test' (move.item item) = test item)

include same

theorem takeWhile_item :
    (items.map move.item).takeWhile test' = (items.takeWhile test).map move.item := by
  induction items with
  | nil => rfl
  | cons first rest ih =>
    obtain ⟨own, later⟩ := List.forall_mem_cons.1 same
    rw [List.map_cons, List.takeWhile_cons, List.takeWhile_cons, own, ih later]
    split <;> rfl

theorem dropWhile_item :
    (items.map move.item).dropWhile test' = (items.dropWhile test).map move.item := by
  induction items with
  | nil => rfl
  | cons first rest ih =>
    obtain ⟨own, later⟩ := List.forall_mem_cons.1 same
    rw [List.map_cons, List.dropWhile_cons, List.dropWhile_cons, own, ih later]
    split <;> rfl

end Places

section Lists

variable (test : Item → Bool) {test' : Item → Bool}
  (same : ∀ item, test' (move.item item) = test item)

include same

private theorem filter_item (items : List Item) :
    (items.map move.item).filter test' = (items.filter test).map move.item := by
  rw [List.filter_map]
  exact congrArg (fun test : Item → Bool => (items.filter test).map move.item) (funext same)

private theorem find?_item (items : List Item) :
    (items.map move.item).find? test' = (items.find? test).map move.item := by
  rw [List.find?_map]
  exact congrArg (fun test : Item → Bool => (items.find? test).map move.item) (funext same)

theorem frontIs_item (line : Nat) (items : List Item) :
    Items.frontIs (line + move.lines) test' (items.map move.item) =
      Items.frontIs line test items := by
  cases items with
  | nil => rfl
  | cons first rest => rw [List.map_cons, Items.frontIs, Items.frontIs, line_beq, same]

theorem dropIf_item (line : Nat) (items : List Item) :
    Items.dropIf (line + move.lines) test' (items.map move.item) =
      (Items.dropIf line test items).map move.item := by
  rw [Items.dropIf, Items.dropIf, frontIs_item move test same]
  split
  · rw [List.map_tail]
  · rfl

end Lists

theorem takeWhile_kind (test : TokenKind → Bool) (items : List Item) :
    (items.map move.item).takeWhile (fun item => test item.kind) =
      (items.takeWhile fun item => test item.kind).map move.item :=
  move.takeWhile_item _ _ fun _ _ => rfl

theorem dropWhile_kind (test : TokenKind → Bool) (items : List Item) :
    (items.map move.item).dropWhile (fun item => test item.kind) =
      (items.dropWhile fun item => test item.kind).map move.item :=
  move.dropWhile_item _ _ fun _ _ => rfl

theorem frontIs_kind (line : Nat) (kind : TokenKind) (items : List Item) :
    Items.frontIs (line + move.lines) (·.kind == kind) (items.map move.item) =
      Items.frontIs line (·.kind == kind) items :=
  move.frontIs_item _ (fun _ => rfl) line items

theorem frontIs_any (line : Nat) (items : List Item) :
    Items.frontIs (line + move.lines) (fun _ => true) (items.map move.item) =
      Items.frontIs line (fun _ => true) items :=
  move.frontIs_item _ (fun _ => rfl) line items

theorem dropIf_kind (line : Nat) (kind : TokenKind) (items : List Item) :
    Items.dropIf (line + move.lines) (·.kind == kind) (items.map move.item) =
      (Items.dropIf line (·.kind == kind) items).map move.item :=
  move.dropIf_item _ (fun _ => rfl) line items

section Items

variable (finish : Token) (line : Nat) (items : List Item)

theorem front_item : Items.front (move.token finish) (items.map move.item) =
    move.token (Items.front finish items) := by
  cases items <;> rfl

theorem onLine_item : Items.onLine (line + move.lines) (items.map move.item) =
    (Items.onLine line items).map move.item :=
  move.takeWhile_item _ _ fun item _ => move.line_beq item line

theorem skipLine_item : Items.skipLine (line + move.lines) (items.map move.item) =
    (Items.skipLine line items).map move.item :=
  move.dropWhile_item _ _ fun item _ => move.line_beq item line

end Items

/-! ## Names -/

section Names

variable {source : List Char} {items : List Item}

private theorem touching_item {place : Position} (lies : Lies source place)
    (within : Within (Token.StandsIn source) items) :
    Items.touching (move.position place).offset (items.map move.item) =
      (Items.touching place.offset items).map move.item := by
  induction items generalizing place with
  | nil => rfl
  | cons first rest ih =>
    have stands := within.head
    have stop : (move.item first).stop =
        (move.position (first.position.after first.text.toList)).offset := by
      rw [toToken_item, Token.stop_eq_offset_after, position_token, text_token, toList_text,
        position_after move stands.start.counted]
    have beside : ((move.item first).offset == (move.position place).offset) =
        (first.offset == place.offset) := by
      rw [Bool.eq_iff_iff, beq_iff_eq, beq_iff_eq]
      exact move.offset_position_eq_iff stands.start lies
    rw [List.map_cons, Items.touching, Items.touching, beside, stop, ih stands.stop within.of_cons,
      toToken_item, isName_token, Token.stop_eq_offset_after]
    split <;> rfl

private theorem nameLength_item (within : Within (Token.StandsIn source) items) :
    Items.nameLength (items.map move.item) = Items.nameLength items := by
  cases items with
  | nil => rfl
  | cons first rest =>
    have stands := within.head
    have touching := move.touching_item stands.stop within.of_cons
    rw [position_after move stands.start.counted, ← toList_text] at touching
    rw [List.map_cons, Items.nameLength, Items.nameLength, toToken_item, isName_token,
      Token.stop_eq_offset_after, Token.stop_eq_offset_after, position_token, text_token, touching,
      List.length_map]

theorem peekName_item (finish : Token) (within : Within (Token.StandsIn source) items) :
    Items.peekName (move.token finish) (items.map move.item) =
      move.token (Items.peekName finish items) := by
  rw [Items.peekName, Items.peekName, nameLength_item move within, front_item]
  split
  · rfl
  · rw [token, token, text_join, ← List.map_take, List.map_map, List.map_map]
    rfl

theorem afterName_item (within : Within (Token.StandsIn source) items) :
    Items.afterName (items.map move.item) = (Items.afterName items).map move.item := by
  rw [Items.afterName, Items.afterName, nameLength_item move within, List.map_drop]

end Names

/-! ## Readings -/

/-- What is read of the relocated text is what is read of the text. -/
structure Reads {α : Type} (same : α → α → Prop) (reading reading' : Reading α) : Prop where
  value : same reading.value reading'.value
  diagnostics : List.Forall₂ move.Tells reading.diagnostics reading'.diagnostics
  rest : reading'.rest = reading.rest.map move.item

namespace Reads

variable {move} {α β : Type} {same : α → α → Prop} {reading reading' : Reading α}

theorem map {same' : β → β → Prop} {f f' : α → β}
    (each : ∀ value value', same value value' → same' (f value) (f' value'))
    (reads : move.Reads same reading reading') :
    move.Reads same' (reading.map f) (reading'.map f') :=
  ⟨each _ _ reads.value, reads.diagnostics, reads.rest⟩

theorem agree_map (f : α → β) (reads : move.Reads move.Agree reading reading') :
    move.Reads move.Agree (reading.map f) (reading'.map f) :=
  reads.map fun _ _ agree exact => congrArg f (agree exact)

end Reads

theorem tells_one (token : Token) {problem problem' : Problem}
    (code : problem'.code = problem.code) (same : move.Agree problem problem') :
    List.Forall₂ move.Tells [.atToken token problem] [.atToken (move.token token) problem'] :=
  .cons (move.tells_atToken token code same) .nil

theorem tells_unless (settled : Bool) (token : Token) (problem : Problem) :
    List.Forall₂ move.Tells (if settled then [] else [.atToken token problem])
      (if settled then [] else [.atToken (move.token token) problem]) := by
  cases settled with
  | true => exact .nil
  | false => exact move.tells_one token rfl fun _ => rfl

theorem found_token (exact : move.returns = 0) (token : Token) :
    (move.token token).found = token.found := by
  rw [Token.found, Token.found, kind_token, text_token, text_of_returns move exact]

theorem ofItems?_item (exact : move.returns = 0) (words : List Item) :
    Label.ofItems? (words.map move.item) = Label.ofItems? words := by
  have values (words : List Item) : ((words.map move.item).map Item.toToken).map Token.value =
      (words.map Item.toToken).map Token.value := by
    simp only [List.map_map]
    exact List.map_congr_left fun item _ => move.value_token item.toToken exact
  rw [Label.ofItems?, Label.ofItems?, Label.text?, Label.text?, values, List.isEmpty_map,
    List.isEmpty_map, List.isEmpty_map]

/-! ## Labels -/

section Label

variable {source : List Char}

private theorem isInside_item (bracket : Bracket) (line : Nat) (item : Item) :
    Label.isInside bracket (line + move.lines) (move.item item) =
      Label.isInside bracket line item := by
  rw [Label.isInside, Label.isInside, bne, bne, line_beq, toToken_item, kind_token]

private theorem recover_item (bracket : Bracket) (stops : TokenKind → Bool) (items : List Item) :
    Label.recover bracket stops (items.map move.item) =
      (Label.recover bracket stops items).map move.item := by
  rw [Label.recover, Label.recover, move.dropWhile_item
    (fun item => !(item.kind == .closing bracket || stops item.kind)) _ fun _ _ => rfl]
  cases items.dropWhile _ with
  | nil => rfl
  | cons first rest =>
    rw [List.map_cons]
    dsimp only
    rw [apply_ite (List.map move.item), toToken_item, kind_token, List.map_cons]

theorem label_reads (finish owner : Token) (bracket : Bracket) (line : Nat)
    (stops : TokenKind → Bool) (items : List Item) :
    move.Reads move.Agree (Label.read finish owner bracket line stops items)
      (Label.read (move.token finish) (move.token owner) bracket (line + move.lines) stops
        (items.map move.item)) := by
  simp only [Label.read, move.takeWhile_item _ _ fun item _ => move.isInside_item bracket line item,
    move.dropWhile_item _ _ fun item _ => move.isInside_item bracket line item, front_item,
    kind_token]
  split
  · exact ⟨fun exact => by rw [ofItems?_item move exact], .nil, List.map_tail.symm⟩
  · refine ⟨fun exact => ofItems?_item move exact _, ?_, recover_item ..⟩
    refine move.tells_one _ rfl fun exact => ?_
    rw [found_token move exact, text_token, text_of_returns move exact]

end Label

/-! ## Decorations -/

section Decoration

@[simp] theorem decoration_ofKeyword?_text (word : String) :
    Decoration.ofKeyword? (move.text word) = Decoration.ofKeyword? word := by
  refine move.apply_text _ none (fun word newline => ?_) word
  unfold Decoration.ofKeyword?
  split
  case h_9 => rfl
  all_goals exact absurd newline (by decide)

@[simp] theorem direction_ofKeyword?_text (word : String) :
    Direction.ofKeyword? (move.text word) = Direction.ofKeyword? word := by
  refine move.apply_text _ none (fun word newline => ?_) word
  unfold Direction.ofKeyword?
  split
  case h_6 => rfl
  all_goals exact absurd newline (by decide)

@[simp] theorem decoration?_item (item : Item) :
    (move.item item).decoration? = item.decoration? := by
  rw [Item.decoration?, Item.decoration?, toToken_item, kind_token, startsStatement_item,
    text_token, decoration_ofKeyword?_text]

private theorem isPlaced_item (line : List Item) :
    Decoration.isPlaced (line.map move.item) = Decoration.isPlaced line := by
  cases line with
  | nil => rfl
  | cons first rest =>
    cases rest <;> simp [Decoration.isPlaced, text_beq move]

private theorem classProblems_tells (keyword : Token) (line : List Item) :
    List.Forall₂ move.Tells (Decoration.classProblems keyword line)
      (Decoration.classProblems (move.token keyword) (line.map move.item)) := by
  rw [Decoration.classProblems, Decoration.classProblems, List.isEmpty_map,
    move.find?_item (·.kind == .equals) fun _ => rfl]
  split
  · exact move.tells_one _ rfl fun _ => rfl
  · cases line.find? _ with
    | none => exact .nil
    | some equals => exact move.tells_one _ rfl fun _ => rfl

private theorem leadingNumbers_item (line : List Item) :
    Decoration.leadingNumbers (line.map move.item) =
      (Decoration.leadingNumbers line).map move.item := by
  rw [Decoration.leadingNumbers, Decoration.leadingNumbers,
    move.takeWhile_item (fun item => item.kind == .number || item.kind == .comma) _
      fun _ _ => rfl, move.filter_item (·.kind == .number) fun _ => rfl]

variable {source : List Char}

private theorem linkIndexProblem?_item (links : Nat) {item : Item} (stands : item.StandsIn source)
    (number : item.kind = .number) :
    Decoration.linkIndexProblem? links (move.item item).toToken =
      Decoration.linkIndexProblem? links item.toToken := by
  have plain := stands.newline_not_mem (by rw [number]; exact ⟨nofun, nofun, nofun⟩)
  rw [Decoration.linkIndexProblem?, Decoration.linkIndexProblem?, toToken_item, text_token,
    text_of_not_mem move plain]

/-- Indices are looked at one by one. -/
theorem linkIndexProblems_tells (links : Nat) {numbers : List Item}
    (each : ∀ item ∈ numbers, item.StandsIn source ∧ item.kind = .number) :
    List.Forall₂ move.Tells
      (numbers.filterMap fun item =>
        (Decoration.linkIndexProblem? links item.toToken).map (.atToken item.toToken))
      ((numbers.map move.item).filterMap fun item =>
        (Decoration.linkIndexProblem? links item.toToken).map (.atToken item.toToken)) := by
  induction numbers with
  | nil => exact .nil
  | cons first rest ih =>
    obtain ⟨⟨stands, number⟩, each⟩ := List.forall_mem_cons.1 each
    rw [List.map_cons, List.filterMap_cons, List.filterMap_cons,
      linkIndexProblem?_item move links stands number]
    cases Decoration.linkIndexProblem? links first.toToken with
    | none => exact ih each
    | some problem => exact .cons (move.tells_atToken _ rfl fun _ => rfl) (ih each)

private theorem linkStyleProblems_tells (links : Nat) (keyword found : Token) {line : List Item}
    (within : Within (Token.StandsIn source) line) :
    List.Forall₂ move.Tells (Decoration.linkStyleProblems links keyword found line)
      (Decoration.linkStyleProblems links (move.token keyword) (move.token found)
        (line.map move.item)) := by
  have missing : List.Forall₂ move.Tells
      [.atToken keyword (.missingLinkIndex found.found)]
      [.atToken (move.token keyword) (.missingLinkIndex (move.token found).found)] :=
    move.tells_one keyword rfl fun exact => by rw [found_token move exact]
  cases line with
  | nil => exact missing
  | cons first rest =>
    have default : (move.item first).text = "default" ↔ first.text = "default" := by
      rw [← beq_iff_eq, ← beq_iff_eq (a := first.text), toToken_item, text_token,
        text_beq move (by decide)]
    simp only [List.map_cons, Decoration.linkStyleProblems, default]
    rw [← List.map_cons, leadingNumbers_item, toToken_item, kind_token]
    split
    · exact .nil
    · split
      · have each : ∀ item ∈ Decoration.leadingNumbers (first :: rest),
            item.StandsIn source ∧ item.kind = .number := by
          intro item member
          obtain ⟨leading, number⟩ := List.mem_filter.1 member
          exact ⟨within item ((List.takeWhile_prefix _).subset leading), beq_iff_eq.1 number⟩
        exact move.linkIndexProblems_tells links each
      · exact missing

private theorem directionProblems_tells (keyword : Token) (line : List Item) :
    List.Forall₂ move.Tells (Decoration.directionProblems keyword line)
      (Decoration.directionProblems (move.token keyword) (line.map move.item)) := by
  cases line with
  | nil => exact move.tells_one _ rfl fun _ => rfl
  | cons first rest =>
    simp only [List.map_cons, Decoration.directionProblems, toToken_item, text_token,
      direction_ofKeyword?_text]
    split
    · exact .nil
    · exact move.tells_one _ rfl fun exact => by rw [text_of_returns move exact]

private theorem misplaced_item (decoration : Decoration) (family : Family) (line : List Item) :
    decoration.misplaced family (line.map move.item) = decoration.misplaced family line := by
  cases decoration <;> simp [Decoration.misplaced, isPlaced_item]

theorem decoration_reads (decoration : Decoration) (family : Family) (links : Nat)
    (finish keyword : Token) {rest : List Item} (within : Within (Token.StandsIn source) rest) :
    move.Reads move.Agree (decoration.read finish family links keyword rest)
      (decoration.read (move.token finish) family links (move.token keyword)
        (rest.map move.item)) := by
  refine ⟨fun _ => rfl, ?_, skipLine_item ..⟩
  have line := within.onLine keyword.line
  simp only [Decoration.read, front_item, line_token, onLine_item, Decoration.diagnostics,
    misplaced_item]
  split
  · cases decoration with
    | classDefinition => exact move.classProblems_tells _ _
    | linkStyle => exact move.linkStyleProblems_tells _ _ _ line
    | direction => exact move.directionProblems_tells _ _
    | _ => exact .nil
  · exact move.tells_one _ rfl fun _ => rfl

end Decoration

/-! ## Statements -/

/-- Statement after statement reads the same when each statement does. -/
theorem statements_reads {α : Type} {same : α → α → Prop} {source : List Char}
    {read read' : Item → List Item → Reading α}
    {suffix : ∀ first rest, (read first rest).rest <:+ rest}
    {suffix' : ∀ first rest, (read' first rest).rest <:+ rest}
    (each : ∀ first rest, Within (Token.StandsIn source) (first :: rest) →
      move.Reads same (read first rest) (read' (move.item first) (rest.map move.item)))
    {items : List Item} (within : Within (Token.StandsIn source) items) :
    List.Forall₂ (move.Reads same) (Reading.statements read suffix items)
      (Reading.statements read' suffix' (items.map move.item)) := by
  fun_induction Reading.statements read suffix items with
  | case1 =>
    rw [List.map_nil, Reading.statements]
    exact .nil
  | case2 first rest ih =>
    have reads := each first rest within
    rw [List.map_cons, Reading.statements, reads.rest]
    exact .cons reads (ih (within.of_cons.suffix (suffix first rest)))

theorem flatMap_diagnostics_tells {α : Type} {same : α → α → Prop}
    {readings readings' : List (Reading α)}
    (reads : List.Forall₂ (move.Reads same) readings readings') :
    List.Forall₂ move.Tells (readings.flatMap (·.diagnostics))
      (readings'.flatMap (·.diagnostics)) := by
  induction reads with
  | nil => exact .nil
  | cons first _ ih => exact List.rel_append first.diagnostics ih

end Relocation

end DiagramCheck
