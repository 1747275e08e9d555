/-
# Layout behind a newline

Behind a newline the tokens of a text start anew, and so does their layout: the
first of them starts its line whatever stands above. The items of a text that goes
on behind a newline are therefore those of the text and those of what it goes on
with, and what the rules for comments, strings and directives find falls apart in
the same way.

Everything read of the text stands above what it goes on with.
-/

import DiagramCheck.Proofs.Layout.Order
import DiagramCheck.Proofs.Reading.Lines
import DiagramCheck.Proofs.Token.Scan

namespace DiagramCheck

/-! ## Where tokens of a text start and end -/

namespace Token

/-- No token of a text starts before the text does. -/
theorem Tiles.start_le {place : Position} {text : List Char} {tokens : List Token}
    (tiles : Tiles place text tokens) :
    ∀ token ∈ tokens, place.line ≤ token.line ∧ place.offset ≤ token.offset := by
  have passed (place : Position) (text : List Char) :
      place.line ≤ (place.after text).line ∧ place.offset ≤ (place.after text).offset := by
    rw [Position.line_after, Position.offset_after]
    omega
  induction tiles with
  | @finish place gap _ =>
    intro token member
    rw [List.mem_singleton.1 member]
    exact passed place gap
  | @token place behind token tokens gap _ starts _ _ ih =>
    have own : place.line ≤ token.line ∧ place.offset ≤ token.offset := by
      rw [line, offset, starts]
      exact passed place gap
    intro other member
    rcases List.mem_cons.1 member with rfl | member
    · exact own
    · have first := passed token.position token.text.toList
      have later := ih other member
      exact ⟨own.1.trans (first.1.trans later.1), own.2.trans (first.2.trans later.2)⟩

/-- No token of a text ends behind the text. -/
theorem stop_le_of_mem_lexemes {place : Position} {text : List Char} :
    ∀ token ∈ lexemes place text, token.endLine ≤ (place.after text).line ∧
      token.stop ≤ (place.after text).offset := by
  intro token member
  have order := (tiles_stream place text).pairwise
  rw [stream_eq_lexemes] at order
  have last := (List.pairwise_append.1 order).2.2 token member _ (List.mem_singleton_self _)
  exact ⟨last.later, last.apart⟩

/-- The tokens of a text stand on its lines. -/
theorem line_of_mem_stream {place : Position} {text : List Char} :
    ∀ token ∈ stream place text, place.line ≤ token.line ∧
      token.line ≤ (place.after text).line := by
  intro token member
  refine ⟨((tiles_stream place text).start_le token member).1, ?_⟩
  rw [stream_eq_lexemes, List.mem_append, List.mem_singleton] at member
  rcases member with member | rfl
  · exact token.line_le_endLine.trans (stop_le_of_mem_lexemes token member).1
  · exact Nat.le_refl _

/-- The tokens of a text without newlines stand on one line. -/
theorem line_of_mem_lexemes {place : Position} {text : List Char} (single : '\n' ∉ text) :
    ∀ token ∈ lexemes place text, token.line = place.line ∧ token.endLine = place.line := by
  have last : (place.after text).line = place.line := by
    rw [Position.line_after, List.count_eq_zero.2 single, Nat.add_zero]
  intro token member
  have ends := (stop_le_of_mem_lexemes token member).1
  have starts := (line_of_mem_stream token (List.dropLast_subset _ member)).1
  have order := token.line_le_endLine
  omega

private theorem significant_stream (place : Position) (text : List Char) :
    (stream place text).filter isSignificant = (lexemes place text).filter isSignificant := by
  rw [stream_eq_lexemes, List.filter_append]
  simp [isSignificant, endOfInput]

theorem significant_of_forall {place : Position} {text : List Char}
    (significant : ∀ token ∈ lexemes place text, token.isSignificant = true) :
    (stream place text).filter isSignificant = lexemes place text := by
  rw [significant_stream, List.filter_eq_self.2 significant]

end Token

namespace Layout

/-! ## Layout from some token on -/

/-- Tokens are laid out from the last of those before them on. -/
theorem place_append (previous : Option Token) (first second : List Token) :
    place previous (first ++ second) =
      place previous first ++ place (first.getLast?.or previous) second := by
  induction first generalizing previous with
  | nil => rfl
  | cons token first ih =>
    rw [List.cons_append, place, place, ih, List.cons_append, List.getLast?_cons]
    cases first.getLast? <;> rfl

/-- Items laid out from tokens are laid out in parts, the second from the end of the first on. -/
theorem eq_place_of_append {previous : Option Token} {tokens : List Token}
    {before after : List Item} (split : place previous tokens = before ++ after) :
    before = place previous (before.map Item.toToken) ∧
      after = place ((before.map Item.toToken).getLast?.or previous)
        (after.map Item.toToken) := by
  have tokens_eq := map_toToken_place previous tokens
  rw [split, List.map_append] at tokens_eq
  rw [← tokens_eq, place_append] at split
  refine List.append_inj split.symm ?_
  have lengths := congrArg List.length (map_toToken_place previous (before.map Item.toToken))
  simpa using lengths.symm

private theorem lexicalDiagnosticsAfter_append (previous : Option Token)
    (first second : List Token) :
    lexicalDiagnosticsAfter previous (first ++ second) =
      lexicalDiagnosticsAfter previous first ++
        lexicalDiagnosticsAfter (first.getLast?.or previous) second := by
  induction first generalizing previous with
  | nil => rfl
  | cons token first ih =>
    rw [List.cons_append, lexicalDiagnosticsAfter, lexicalDiagnosticsAfter, ih,
      List.append_assoc, List.getLast?_cons]
    cases first.getLast? <;> rfl

section Below

variable {previous : Option Token} {tokens : List Token}
  (below : ∀ before ∈ previous, ∀ token ∈ tokens, before.endLine < token.line)

include below

/-- Tokens below the one before them are laid out as if there were none. -/
theorem place_of_below : place previous tokens = place none tokens := by
  cases tokens with
  | nil => rfl
  | cons token tokens =>
    have starts : token.startsLineAfter previous = true := by
      cases previous with
      | none => rfl
      | some before => exact decide_eq_true (below before rfl token (List.mem_cons_self ..))
    rw [place, place, Token.startsStatementAfter, starts]
    rfl

theorem lexicalDiagnosticsAfter_of_below :
    lexicalDiagnosticsAfter previous tokens = lexicalDiagnosticsAfter none tokens := by
  cases tokens with
  | nil => rfl
  | cons token tokens =>
    have beside : previous.any (·.endLine == token.line) = false := by
      cases previous with
      | none => rfl
      | some before =>
        have := below before rfl token (List.mem_cons_self ..)
        rw [Option.any_some, beq_eq_false_iff_ne]
        omega
    rw [lexicalDiagnosticsAfter, lexicalDiagnosticsAfter, Token.lexicalProblem?,
      Token.lexicalProblem?, beside]
    rfl

end Below

/-- The end of the input has no rule of its own. -/
theorem lexicalDiagnosticsAfter_stream (previous : Option Token) (place : Position)
    (text : List Char) :
    lexicalDiagnosticsAfter previous (Token.stream place text) =
      lexicalDiagnosticsAfter previous (Token.lexemes place text) := by
  rw [Token.stream_eq_lexemes, lexicalDiagnosticsAfter_append]
  simp [lexicalDiagnosticsAfter, Token.lexicalProblem?, Token.isUnterminatedDirective,
    Token.isUnterminatedString, Token.endOfInput]

/-- Nothing is wrong with significant tokens that do not run on. -/
theorem lexicalDiagnosticsAfter_of_settled {tokens : List Token}
    (significant : ∀ token ∈ tokens, token.isSignificant = true)
    (settled : ∀ token ∈ tokens, token.runsOn = false) (previous : Option Token) :
    lexicalDiagnosticsAfter previous tokens = [] := by
  induction tokens generalizing previous with
  | nil => rfl
  | cons token tokens ih =>
    obtain ⟨own, significant⟩ := List.forall_mem_cons.1 significant
    obtain ⟨still, settled⟩ := List.forall_mem_cons.1 settled
    rw [Token.runsOn, Bool.or_eq_false_iff] at still
    have comment : token.kind ≠ .comment := by
      intro comment
      rw [Token.isSignificant, comment] at own
      cases own
    rw [lexicalDiagnosticsAfter, ih significant settled, Token.lexicalProblem?, if_neg comment,
      Token.isUnterminatedDirective, still.1, still.2]
    rfl

/-! ## Texts that go on behind a newline -/

section Newline

variable {start : Position} {text : List Char} {more : List Char}

/-- What stands behind a newline starts below every token before the newline. -/
theorem endLine_lt_line {before token : Token} (above : before ∈ Token.lexemes start text)
    (member : token ∈ Token.stream ((start.after text).step '\n') more) :
    before.endLine < token.line ∧ before.stop < token.offset := by
  have ends := Token.stop_le_of_mem_lexemes before above
  have starts := (Token.tiles_stream _ _).start_le token member
  simp only [Position.step, if_true] at starts
  omega

variable {previous : Option Token} (before : ∀ token ∈ previous, token.endLine ≤ start.line)

include before

private theorem endLine_getLast?_lt {tokens : List Token}
    (taken : tokens ⊆ Token.lexemes start text) :
    ∀ last ∈ tokens.getLast?.or previous,
      ∀ token ∈ Token.stream ((start.after text).step '\n') more, last.endLine < token.line := by
  intro last found token member
  cases own : tokens.getLast? with
  | none =>
    rw [own] at found
    have ends := before last found
    have starts := (Token.tiles_stream _ _).start_le token member
    simp only [Position.step, if_true, Position.line_after] at starts
    omega
  | some final =>
    rw [own] at found
    obtain rfl := Option.some.inj found
    exact (endLine_lt_line (taken (List.mem_of_getLast? own)) member).1

variable (settled : ∀ token ∈ Token.lexemes start text, token.runsOn = false)

include settled

theorem place_append_newline :
    place previous ((Token.stream start (text ++ '\n' :: more)).filter Token.isSignificant) =
      place previous ((Token.stream start text).filter Token.isSignificant) ++
        place none ((Token.stream ((start.after text).step '\n') more).filter
          Token.isSignificant) := by
  rw [Token.stream_append_newline more settled, List.filter_append, place_append,
    Token.significant_stream start text]
  refine congrArg _ (place_of_below fun last found token member => ?_)
  exact endLine_getLast?_lt before (List.filter_subset_self _) last found token
    (List.mem_of_mem_filter member)

theorem lexicalDiagnosticsAfter_append_newline :
    lexicalDiagnosticsAfter previous (Token.stream start (text ++ '\n' :: more)) =
      lexicalDiagnosticsAfter previous (Token.stream start text) ++
        lexicalDiagnosticsAfter none (Token.stream ((start.after text).step '\n') more) := by
  rw [Token.stream_append_newline more settled, lexicalDiagnosticsAfter_append,
    lexicalDiagnosticsAfter_stream previous start text]
  exact congrArg _ (lexicalDiagnosticsAfter_of_below
    (endLine_getLast?_lt before (List.Subset.refl _)))

end Newline

/-- The items before a newline stand above those behind it. -/
theorem above_append_newline (start : Position) (text more : List Char)
    (previous next : Option Token) :
    Items.Above (place previous ((Token.stream start text).filter Token.isSignificant))
      (place next ((Token.stream ((start.after text).step '\n') more).filter
        Token.isSignificant)) := by
  have token {previous : Option Token} {tokens : List Token} {item : Item}
      (member : item ∈ place previous (tokens.filter Token.isSignificant)) :
      item.toToken ∈ tokens.filter Token.isSignificant := by
    rw [← map_toToken_place previous (tokens.filter Token.isSignificant)]
    exact List.mem_map_of_mem member
  intro item above next below
  have own := token above
  rw [Token.significant_stream] at own
  exact endLine_lt_line (List.mem_of_mem_filter own) (List.mem_of_mem_filter (token below))

end Layout

end DiagramCheck
