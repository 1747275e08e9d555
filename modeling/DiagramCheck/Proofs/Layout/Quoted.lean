/-
# Items when a stretch of them is put in quotes

When an entry of a list in brackets is given in quotes, the items before it are those
they were, and the entry is a single item. The items behind it are the same words on
the same lines, some bytes further on. Only the first of them may begin a statement in
one source and not in the other, if the entry ends in a semicolon.

Main statement: `exists_quoted`.
-/

import DiagramCheck.Proofs.Diagram.Decorations
import DiagramCheck.Proofs.Token.Replaced

namespace DiagramCheck

/-! ## Tokens some bytes further on -/

namespace Token

/-- The same word on the same line, some bytes further on. -/
structure Slid (bytes : Nat) (token token' : Token) : Prop where
  kind : token'.kind = token.kind
  text : token'.text = token.text
  line : token'.line = token.line
  offset : token'.offset = token.offset + bytes

variable {bytes : Nat}

namespace Slid

variable {token token' : Token}

theorem endLine (slid : Slid bytes token token') : token'.endLine = token.endLine := by
  rw [Token.endLine, Token.endLine, slid.line, slid.text]

theorem stop (slid : Slid bytes token token') : token'.stop = token.stop + bytes := by
  rw [Token.stop, Token.stop, slid.offset, slid.text, Nat.add_right_comm]

theorem value (slid : Slid bytes token token') : token'.value = token.value := by
  rw [Token.value, Token.value, slid.kind, slid.text]

theorem isSignificant (slid : Slid bytes token token') :
    token'.isSignificant = token.isSignificant := by
  rw [Token.isSignificant, Token.isSignificant, slid.kind]

end Slid

/-- A text that begins some bytes further on has its tokens there. -/
theorem stream_slid (text : List Char) {place place' : Position} (line : place'.line = place.line)
    (offset : place'.offset = place.offset + bytes) :
    List.Forall₂ (Slid bytes) (stream place text) (stream place' text) := by
  have later (written : List Char) {place place' : Position} (line : place'.line = place.line)
      (offset : place'.offset = place.offset + bytes) :
      (place'.after written).line = (place.after written).line ∧
        (place'.after written).offset = (place.after written).offset + bytes := by
    rw [Position.line_after, Position.line_after, Position.offset_after, Position.offset_after]
    omega
  induction place, text using text_induction generalizing place' with
  | nil place =>
    rw [stream_nil, stream_nil]
    exact .cons ⟨rfl, rfl, line, offset⟩ .nil
  | blank place c text white ih =>
    rw [stream_of_blank white, stream_of_blank white]
    obtain ⟨line, offset⟩ := later [c] line offset
    exact ih line offset
  | lexeme place kind written behind leads ih =>
    rw [stream_of_leads leads, stream_of_leads leads]
    obtain ⟨line', offset'⟩ := later written line offset
    exact .cons ⟨rfl, rfl, line, offset⟩ (ih line' offset')

/-- What is significant stays so. -/
theorem significant_slid {tokens tokens' : List Token}
    (slid : List.Forall₂ (Slid bytes) tokens tokens') :
    List.Forall₂ (Slid bytes) (tokens.filter isSignificant) (tokens'.filter isSignificant) := by
  induction slid with
  | nil => exact .nil
  | cons own _ ih =>
    rw [List.filter_cons, List.filter_cons, own.isSignificant]
    split
    · exact .cons own ih
    · exact ih

end Token

/-- The same word as an item, some bytes further on. -/
structure Item.Slid (bytes : Nat) (item item' : Item) : Prop
    extends Token.Slid bytes item.toToken item'.toToken where
  startsStatement : item.kind = .identifier → item'.startsStatement = item.startsStatement

namespace Layout

variable {bytes : Nat}

private theorem place_slid {tokens tokens' : List Token}
    (slid : List.Forall₂ (Token.Slid bytes) tokens tokens') {previous previous' : Token}
    (ends : previous'.endLine = previous.endLine)
    (begun : previous'.kind = previous.kind ∨ ∀ next ∈ tokens.head?, next.kind ≠ .identifier) :
    List.Forall₂ (Item.Slid bytes) (place (some previous) tokens)
      (place (some previous') tokens') := by
  induction slid generalizing previous previous' with
  | nil => exact .nil
  | cons own _ ih =>
    refine .cons ⟨own, fun word => ?_⟩ (ih own.endLine (.inl own.kind))
    have kind := begun.resolve_right fun other => other _ rfl word
    simp only [Token.startsStatementAfter, Token.startsLineAfter, Option.any_some, ends, kind,
      own.line]

/-! ## Tokens around a stretch of items -/

/-- A stretch of significant tokens in the list of all tokens, from the first of them to the
last. -/
theorem exists_stretch {tokens before within later : List Token} {mark first last : Token}
    (split : tokens.filter Token.isSignificant = before ++ mark :: (within ++ later))
    (starts : first ∈ within.head?) (stops : last ∈ within.getLast?) :
    ∃ front between stretch behind, tokens = front ++ mark :: (between ++ (stretch ++ behind)) ∧
      front.filter Token.isSignificant = before ∧
      (∀ token ∈ between, token.isSignificant = false) ∧
      first ∈ stretch.head? ∧ last ∈ stretch.getLast? ∧
      behind.filter Token.isSignificant = later := by
  obtain ⟨init, rfl⟩ := List.getLast?_eq_some_iff.1 stops
  obtain ⟨front, rest, rfl, rfl, cut⟩ := List.filter_eq_append_iff.1 split
  obtain ⟨skipped, rest, rfl, apart, -, cut⟩ := List.filter_eq_cons_iff.1 cut
  obtain ⟨more, whole⟩ : ∃ more, init ++ [last] ++ later = first :: more := by
    obtain ⟨within, same⟩ := List.head?_eq_some_iff.1 starts
    exact ⟨within ++ later, by rw [same, List.cons_append]⟩
  rw [whole] at cut
  -- What stands between the mark and the first of them is not significant.
  obtain ⟨between, rest, rfl, light, significant, cut⟩ := List.filter_eq_cons_iff.1 cut
  have inside : (first :: rest).filter Token.isSignificant = init ++ last :: later := by
    rw [List.filter_cons_of_pos significant, cut, ← whole, List.append_assoc,
      List.singleton_append]
  -- From the first of them on, the list is cut again behind the last.
  obtain ⟨taken, rest', same, -, cut⟩ := List.filter_eq_append_iff.1 inside
  obtain ⟨gap, behind, rfl, -, -, own⟩ := List.filter_eq_cons_iff.1 cut
  refine ⟨front ++ skipped, between, taken ++ gap ++ [last], behind, ?_, ?_, ?_, ?_, ?_, own⟩
  · rw [same]
    simp only [List.append_assoc, List.singleton_append]
  · rw [List.filter_append, List.filter_eq_nil_iff.2 apart, List.append_nil]
  · exact fun token member => Bool.eq_false_iff.2 (light token member)
  · have front := congrArg List.head? same
    simpa [List.head?_append] using front.symm
  · simp

/-- Of the tokens that lead in a stretch only the mark is significant. -/
theorem significant_behind_mark {front between rest : List Token} {mark next : Token}
    (opens : mark.kind = .comma ∨ mark.kind = .opening .square)
    (light : ∀ token ∈ between, token.isSignificant = false)
    (significant : next.isSignificant = true) :
    (front ++ mark :: (between ++ next :: rest)).filter Token.isSignificant =
      front.filter Token.isSignificant ++
        mark :: next :: rest.filter Token.isSignificant := by
  have own : mark.isSignificant = true := by
    rcases opens with comma | opening
    · rw [Token.isSignificant, comma]
    · rw [Token.isSignificant, opening]
  have none : between.filter Token.isSignificant = [] :=
    List.filter_eq_nil_iff.2 fun token member => Bool.eq_false_iff.1 (light token member)
  rw [List.filter_append, List.filter_cons_of_pos own, List.filter_append, none,
    List.nil_append, List.filter_cons_of_pos significant]

/-- The layout behind a stretch is told from its last item, and that before it does not change when
the stretch is replaced. -/
theorem place_replaced {tokens : List Token} {before within later : List Item}
    {mark last : Item} (split : place none tokens = before ++ mark :: (within ++ later))
    (stops : last ∈ within.getLast?) (other : Token) (behind : List Token) :
    later = place (some last.toToken) (later.map Item.toToken) ∧
      place none (before.map Item.toToken ++ mark.toToken :: other :: behind) =
        before ++ mark :: ⟨other, other.startsLineAfter (some mark.toToken),
          other.startsStatementAfter (some mark.toToken)⟩ :: place (some other) behind := by
  rw [List.append_cons] at split
  obtain ⟨front, split⟩ := eq_place_of_append split
  obtain ⟨-, later_eq⟩ := eq_place_of_append split.symm
  rw [List.getLast?_map, stops] at later_eq
  refine ⟨later_eq, ?_⟩
  rw [List.append_cons, ← List.map_singleton (f := Item.toToken), ← List.map_append, place_append,
    ← front, List.map_append, List.map_singleton, List.getLast?_concat, List.append_assoc]
  rfl

/-- The items of a source when a stretch of them behind a bracket or a comma is given in quotes: the
items before it stay, the stretch is one string, and what stands behind it lies two bytes further
on. -/
theorem exists_quoted {source : String} {before within later : List Item}
    {mark first last : Item}
    (split : items (Token.tokenize source) = before ++ mark :: (within ++ later))
    (opens : mark.kind = .comma ∨ mark.kind = .opening .square) (starts : first ∈ within.head?)
    (stops : last ∈ within.getLast?) (apart : ∀ next ∈ later.head?, next.kind ≠ .identifier) :
    ∃ passed raw behind, source.toList = passed ++ (raw ++ behind) ∧
      first.position = Position.start.after passed ∧
      last.stop = ((Position.start.after passed).after raw).offset ∧
      ∀ body, '"' ∉ body → Text.byteLength body = Text.byteLength raw →
        body.count '\n' = raw.count '\n' → ∃ quoted later',
          items (Token.tokenize
            (String.ofList (passed ++ ('"' :: (body ++ ['"']) ++ behind)))) =
              before ++ mark :: quoted :: later' ∧
          quoted.toToken = Token.quotedAt (Position.start.after passed) body ∧
          List.Forall₂ (Item.Slid 2) later later' := by
  have significant := map_toToken_items (Token.tokenize source)
  rw [split, List.map_append, List.map_cons, List.map_append] at significant
  have start : first.toToken ∈ (within.map Item.toToken).head? := by
    rw [List.head?_map, starts]
    rfl
  have stop : last.toToken ∈ (within.map Item.toToken).getLast? := by
    rw [List.getLast?_map, stops]
    rfl
  -- The stretch of items is one of tokens, with comments in it, and that is one of the source.
  obtain ⟨front, between, stretch, behind, tokens, front_eq, light, start', stop', behind_eq⟩ :=
    exists_stretch significant.symm start stop
  have inside {item : Item} (member : item ∈ within) : item.kind ≠ .endOfInput := by
    have known : item ∈ items (Token.tokenize source) := by
      rw [split]
      simp [member]
    obtain ⟨_, cut⟩ := isCut_of_mem_items source item known
    exact cut.kind_ne_endOfInput
  obtain ⟨passed, raw, text, source_eq, begins, ends, endLine, later_eq, mended⟩ :=
    Token.exists_quoted tokens ⟨opens, light⟩ start' stop' (inside (List.mem_of_head? starts))
      (inside (List.mem_of_getLast? stops))
  refine ⟨passed, raw, text, source_eq, begins, ends, fun body unquoted bytes lines => ?_⟩
  obtain ⟨later_place, replaced⟩ := place_replaced split stops
    (Token.quotedAt (Position.start.after passed) body) ((Token.stream
      ((Position.start.after passed).after ('"' :: (body ++ ['"']))) text).filter
        Token.isSignificant)
  have words := congrArg (List.filter Token.isSignificant) (mended body unquoted)
  rw [significant_behind_mark opens light rfl, front_eq] at words
  refine ⟨_, _, (congrArg (place none) words).trans replaced, rfl, ?_⟩
  -- The string ends on the line on which the stretch ended, and two bytes further on.
  obtain ⟨line, offset⟩ := Token.after_quoted (Position.start.after passed) body
  rw [lines, ← Position.line_after] at line
  rw [bytes, ← Position.offset_after] at offset
  have slid := Token.significant_slid (Token.stream_slid text line offset)
  rw [← later_eq, behind_eq] at slid
  rw [later_place]
  refine place_slid slid ?_ (.inr ?_)
  · rw [endLine, Token.quotedAt, Token.endLine_ofLexeme, line]
  · simpa using apart

end Layout

end DiagramCheck
