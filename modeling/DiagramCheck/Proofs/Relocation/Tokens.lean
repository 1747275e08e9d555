/-
# Tokens of a relocated text

The tokens of a relocated text are those of the text, put elsewhere. Carriage
returns are blanks, so they end a lexeme just where the newline behind them would
have; a directive and a string run over them; and only a comment takes them in,
because it ends before the newline and not before the carriage returns.

Main statement: `stream_relocated`.
-/

import Mathlib.Data.List.Forall2
import DiagramCheck.Proofs.Relocation.Basic
import DiagramCheck.Proofs.Token.Scan

namespace DiagramCheck

open Text (solidFront)

namespace Relocation

variable (move : Relocation)

/-! ## Lexemes -/

private theorem solidFront_chars (text : List Char) :
    solidFront (move.chars text) = solidFront text := by
  induction text with
  | nil => rfl
  | cons c text ih =>
    by_cases newline : c = '\n'
    · -- Both begin with a blank.
      subst newline
      rw [chars_newline, lead]
      cases move.returns <;> rfl
    · simp only [chars_cons move newline, solidFront, List.takeWhile_cons] at ih ⊢
      rw [ih]

private theorem prefix_chars_iff {word : List Char} (solid : word.all (!Text.isBlank ·) = true)
    (text : List Char) : word <+: move.chars text ↔ word <+: text := by
  rw [← Text.prefix_solidFront_iff solid, solidFront_chars, Text.prefix_solidFront_iff solid]

private theorem chars_of_all_solid {written : List Char}
    (solid : written.all (!Text.isBlank ·) = true) :
    move.chars written = written := by
  refine move.chars_of_not_mem fun member => ?_
  have := List.all_eq_true.1 solid '\n' member
  cases this

open Lexeme

private theorem directiveBody_lead (depth : Nat) (text : List Char) :
    directiveBody depth (move.lead ++ text) = move.lead.length + directiveBody depth text := by
  rw [lead, List.length_replicate]
  induction move.returns with
  | zero => simp
  | succ returns ih =>
    rw [List.replicate_succ, List.cons_append, directiveBody, if_neg (by decide),
      if_neg (by decide), ih]
    omega

private theorem isPrefixOf_chars {word : List Char} (solid : word.all (!Text.isBlank ·) = true)
    (text : List Char) : word.isPrefixOf (move.chars text) = word.isPrefixOf text := by
  rw [Bool.eq_iff_iff, List.isPrefixOf_iff_prefix, List.isPrefixOf_iff_prefix,
    prefix_chars_iff move solid]

/-- The body of a directive takes the carriage returns in it. -/
theorem directiveBody_chars {depth : Nat} {body behind : List Char}
    (own : directiveBody depth (body ++ behind) = body.length) :
    directiveBody depth (move.chars body ++ move.chars behind) = (move.chars body).length := by
  induction body generalizing depth with
  | nil =>
    cases behind with
    | nil => rfl
    | cons c behind =>
      rw [List.nil_append, directiveBody] at own
      split_ifs at own
  | cons c body ih =>
    by_cases newline : c = '\n'
    · -- A newline neither opens nor closes anything, and no more do the carriage returns.
      subst newline
      rw [List.cons_append, directiveBody, if_neg (by decide), if_neg (by decide)] at own
      rw [chars_newline, List.append_assoc, directiveBody_lead, List.cons_append, directiveBody,
        if_neg (by decide), if_neg (by decide), ih (Nat.succ.inj own), List.length_append,
        List.length_cons]
    · -- Any other character stands for itself, and so does a mark that follows it.
      rw [List.cons_append, directiveBody] at own
      rw [chars_cons move newline, List.cons_append, directiveBody, ← chars_append,
        isPrefixOf_chars move (by decide), chars_append]
      split_ifs at own ⊢ with opens closes marked
      · rw [ih (Nat.succ.inj own), List.length_cons]
      · -- The mark that closes the directive is all that is left of the body.
        obtain ⟨first, second, rfl⟩ := List.length_eq_two.1 (Nat.succ.inj own).symm
        have mark := List.isPrefixOf_iff_prefix.1 marked.2
        simp only [List.cons_append, List.cons_prefix_cons] at mark
        obtain ⟨rfl, rfl, -⟩ := mark
        rfl
      · rw [ih (Nat.succ.inj own), List.length_cons]
      · rw [ih (Nat.succ.inj own), List.length_cons]

private theorem quotedBody_lead {quote : Char} (other : quote ≠ '\r') (text : List Char) :
    quotedBody quote (move.lead ++ text) = move.lead.length + quotedBody quote text := by
  rw [lead, List.length_replicate]
  induction move.returns with
  | zero => simp
  | succ returns ih =>
    rw [List.replicate_succ, List.cons_append, quotedBody, if_neg (Ne.symm other), ih]
    omega

/-- A quoted text takes the carriage returns in it. -/
theorem quotedBody_chars {quote : Char} (solid : Text.isBlank quote = false)
    {body behind : List Char} (own : quotedBody quote (body ++ behind) = body.length) :
    quotedBody quote (move.chars body ++ move.chars behind) = (move.chars body).length := by
  have line : '\n' ≠ quote := ne_of_isBlank rfl solid
  have mark : '\r' ≠ quote := ne_of_isBlank rfl solid
  induction body with
  | nil =>
    cases behind with
    | nil => rfl
    | cons c behind =>
      rw [List.nil_append, quotedBody] at own
      split_ifs at own
  | cons c body ih =>
    rw [List.cons_append, quotedBody] at own
    by_cases newline : c = '\n'
    · subst newline
      rw [if_neg line] at own
      rw [chars_newline, List.append_assoc, quotedBody_lead move mark.symm, List.cons_append,
        quotedBody, if_neg line, ih (Nat.succ.inj own), List.length_append, List.length_cons]
    · rw [chars_cons move newline, List.cons_append, quotedBody]
      split_ifs at own ⊢ with closes
      · rw [List.length_eq_zero_iff.1 (Nat.succ.inj own).symm]
        rfl
      · rw [ih (Nat.succ.inj own), List.length_cons]

/-! ## Lexemes put elsewhere -/

section Leads

variable {written behind : List Char}

private theorem leads_directive (leads : Leads .directive written behind) :
    Leads .directive (move.chars written) (move.chars behind) := by
  obtain ⟨body, rfl, own⟩ := leads.directive
  simp only [List.cons_append, List.nil_append]
  rw [chars_cons move (by decide), chars_cons move (by decide), chars_cons move (by decide)]
  exact .of_directive (directiveBody_chars move own)

theorem leads_string (leads : Leads .string written behind) :
    Leads .string (move.chars written) (move.chars behind) := by
  obtain ⟨quote, body, rfl, quotes, own⟩ := leads.string
  have solid : Text.isBlank quote = false := by rcases quotes with rfl | rfl <;> rfl
  rw [chars_cons move (ne_of_isBlank rfl solid).symm]
  exact .of_string quotes (quotedBody_chars move solid own)

/-- A comment takes in the carriage returns before the newline that ends it. -/
theorem leads_comment (leads : Leads .comment written behind) :
    ∃ extra rest, move.chars behind = extra ++ rest ∧ (extra = [] ∨ extra = move.lead) ∧
      Leads .comment (move.chars written ++ extra) rest := by
  obtain ⟨body, rfl, undirected, own, ends⟩ := leads.comment
  simp only [List.cons_append, List.nil_append]
  rw [chars_cons move (by decide), chars_cons move (by decide), move.chars_of_not_mem own]
  -- The comment runs to the newline, or to the end of the text when there is none.
  obtain ⟨extra, rest, split, extras, stops⟩ : ∃ extra rest, move.chars behind = extra ++ rest ∧
      (extra = [] ∨ extra = move.lead) ∧ rest.takeWhile (· != '\n') = [] := by
    rcases ends with rfl | ⟨more, rfl⟩
    · exact ⟨[], [], rfl, .inl rfl, rfl⟩
    · exact ⟨move.lead, _, rfl, .inr rfl, rfl⟩
  have plain : '\n' ∉ body ++ extra := by
    intro member
    rcases List.mem_append.1 member with member | member
    · exact own member
    · rcases extras with rfl | rfl
      · cases member
      · exact move.ne_newline_of_mem_lead member rfl
  have undirected : ¬ ['\x7b'] <+: body ++ extra ++ rest := by
    rw [List.append_assoc, ← split, ← move.chars_of_not_mem own, ← chars_append,
      prefix_chars_iff move (by decide)]
    exact undirected
  exact ⟨extra, rest, split, extras, .of_comment undirected plain stops⟩

private theorem leads_plain {kind : TokenKind} (leads : Leads kind written behind)
    (plain : IsPlain kind) : Leads kind (move.chars written) (move.chars behind) := by
  rw [chars_of_all_solid move (leads.all_solid plain)]
  exact leads.congr plain (solidFront_chars move behind).symm

end Leads

/-! ## Tokens -/

/-- A token of the relocated text is a token of the text put elsewhere. A comment may have taken in
the carriage returns behind it. -/
structure Matches (token token' : Token) : Prop where
  kind : token'.kind = token.kind
  position : token'.position = move.position token.position
  text : token'.text = move.text token.text ∨ token.kind = .comment ∧
    token'.text.toList = move.chars token.text.toList ++ move.lead

/-- A lexeme of the text is one of the relocated text, behind which blanks may be left out. -/
theorem exists_leads {kind : TokenKind} {written behind : List Char}
    (leads : Leads kind written behind) :
    ∃ written' extra rest, move.chars behind = extra ++ rest ∧ extra.all Text.isBlank = true ∧
      written' = move.chars written ++ extra ∧ Leads kind written' rest ∧
      ∀ place, move.Matches (Token.ofLexeme kind written place)
        (Token.ofLexeme kind written' (move.position place)) := by
  by_cases comment : kind = .comment
  · -- What a comment takes in belongs to its token as well.
    subst comment
    obtain ⟨extra, rest, split, extras, leads⟩ := move.leads_comment leads
    refine ⟨_, extra, rest, split, ?_, rfl, leads, fun place => ⟨rfl, rfl, ?_⟩⟩
    · rcases extras with rfl | rfl
      · rfl
      · exact move.all_isBlank_lead
    · rcases extras with rfl | rfl
      · exact .inl (by simp [Token.ofLexeme, text])
      · exact .inr ⟨rfl, by simp [Token.ofLexeme]⟩
  · -- No other lexeme takes in anything, and a word has no newline in it.
    have moved : Leads kind (move.chars written) (move.chars behind) := by
      by_cases directive : kind = .directive
      · subst directive
        exact move.leads_directive leads
      · by_cases string : kind = .string
        · subst string
          exact move.leads_string leads
        · exact move.leads_plain leads ⟨directive, comment, string⟩
    refine ⟨_, [], _, rfl, rfl, (List.append_nil _).symm, moved, fun place => ⟨?_, rfl, .inl ?_⟩⟩
    · by_cases word : kind = .identifier
      · rw [chars_of_all_solid move (leads.all_solid (by rw [word]; simp [IsPlain]))]
        rfl
      · simp [Token.ofLexeme, word]
    · simp [Token.ofLexeme, text]

/-- The tokens of a relocated text are those of the text, put elsewhere. -/
theorem stream_relocated {place : Position} (counted : 1 ≤ place.line) (text : List Char) :
    List.Forall₂ move.Matches (Token.stream place text)
      (Token.stream (move.position place) (move.chars text)) := by
  -- By induction on the tokens. The blanks that are put in front of a newline are passed over on
  -- the way to the next token.
  induction place, text using Token.text_induction with
  | nil place =>
    rw [chars_nil, Token.stream_nil, Token.stream_nil]
    exact .cons ⟨rfl, rfl, .inl rfl⟩ .nil
  | blank place c text white ih =>
    have later : 1 ≤ (place.step c).line := by
      rw [← Position.after_nil (place.step c), ← Position.after_cons, Position.line_after]
      exact Nat.le_add_right_of_le counted
    rw [Token.stream_of_blank white]
    by_cases newline : c = '\n'
    · subst newline
      rw [chars_newline, (Token.Scans.gap move.all_isBlank_lead).stream_eq, List.nil_append,
        Token.stream_of_blank rfl, ← position_step_newline move counted]
      exact ih later
    · rw [chars_cons move newline, Token.stream_of_blank white, ← position_step move newline]
      exact ih later
  | lexeme place kind written behind leads ih =>
    have later : 1 ≤ (place.after written).line := by
      rw [Position.line_after]
      exact Nat.le_add_right_of_le counted
    obtain ⟨written', extra, rest, split, white, taken, leads', own⟩ := move.exists_leads leads
    have behind := ih later
    rw [split, move.position_after counted, (Token.Scans.gap white).stream_eq, List.nil_append,
      ← Position.after_append, ← taken] at behind
    rw [chars_append, split, ← List.append_assoc, ← taken, Token.stream_of_leads leads,
      Token.stream_of_leads leads']
    exact .cons (own place) behind

end Relocation

end DiagramCheck
