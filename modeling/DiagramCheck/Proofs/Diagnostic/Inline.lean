/-
# Comments behind something on their line

A comment belongs on a line of its own. The rule for comments looks at the token
before one and compares lines, where a reader looks at the text of the line. The
two agree because every token but the last ends in something that can be seen: a
string and a directive that do not end in their closing marks take all that
follows, so no comment comes after them, and a comment is followed by a newline.

`Abreast` says that the token before a place and the text before it tell the same
about the line of the place. Passing a blank keeps it, and a lexeme brings it
about anew.

Main statement: `inline_comments_reported`.
-/

import DiagramCheck.Proofs.Diagnostic.SourceOrder
import DiagramCheck.Proofs.Token.Comments

namespace DiagramCheck

namespace Token

/-- A comment with something written before it on its line: between the last newline before the
comment, or the beginning of the source, and the comment itself not all is blank. -/
def isInlineComment (source : List Char) (token : Token) : Bool :=
  token.kind == .comment &&
    (Text.takeBytes? token.offset source).any fun before =>
      (Text.lastLine before).any (!Text.isBlank ·)

/-! ## The token before a place and the line before it -/

/-- The token before a place ends no lower than the place, and on the same line exactly when
something is written there. -/
structure Abreast (previous : Option Token) (passed : List Char) : Prop where
  above : ∀ token ∈ previous, token.endLine ≤ (Position.behind passed).line
  written : previous.any (·.endLine == (Position.behind passed).line) =
    (Text.lastLine passed).any (!Text.isBlank ·)

namespace Abreast

theorem start : Abreast none [] where
  above := fun _ absent => by cases absent
  written := rfl

/-- A blank writes nothing, and a newline leaves what is written above. -/
theorem blank {previous : Option Token} {passed : List Char} (abreast : Abreast previous passed)
    {c : Char} (white : Text.isBlank c = true) : Abreast previous (passed ++ [c]) := by
  by_cases newline : c = '\n'
  · subst newline
    have below : (Position.behind (passed ++ ['\n'])).line = (Position.behind passed).line + 1 := by
      simp [Position.behind]
    refine ⟨fun token member => (abreast.above token member).trans (by omega), ?_⟩
    rw [Text.lastLine_newline, below, List.any_nil, Option.any_eq_false]
    intro token member
    have := abreast.above token member
    rw [beq_eq_false_iff_ne]
    omega
  · have same : (Position.behind (passed ++ [c])).line = (Position.behind passed).line := by
      simp [Position.behind, List.count_append, newline]
    refine ⟨?_, ?_⟩
    · rw [same]
      exact abreast.above
    · rw [same, abreast.written, Text.lastLine_concat newline, List.any_append]
      simp [white]

/-- A lexeme with more behind it ends in something written. -/
theorem lexeme {kind : TokenKind} {written behind passed : List Char} {place : Position}
    (leads : Lexeme.Leads kind written behind) (more : behind ≠ [])
    (reached : place = Position.start.after passed) :
    Abreast (some (ofLexeme kind written place)) (passed ++ written) := by
  have ends :
      (ofLexeme kind written place).endLine = (Position.behind (passed ++ written)).line := by
    rw [endLine_ofLexeme, reached, ← Position.after_append, Position.after_start]
  refine ⟨?_, ?_⟩
  · rintro _ ⟨⟩
    exact ends.le
  · rw [Option.any_some, ends, beq_self_eq_true, eq_comm, ← Bool.not_eq_false, List.any_eq_false]
    intro blank
    -- Were the line blank so far, a newline would have been passed since the lexeme.
    have line : (Text.lastLine (passed ++ written ++ [])).all Text.isBlank = true := by
      rw [List.append_nil, List.all_eq_true]
      simpa using blank
    cases leads.newline_mem more line

/-- A comment is an inline one when the token before it ends on its line. -/
theorem isInlineComment_eq {previous : Option Token} {source passed behind : List Char}
    {token : Token} (abreast : Abreast previous passed)
    (starts : token.position = Position.start.after passed)
    (split : source = passed ++ (token.text.toList ++ behind)) :
    token.isInlineComment source =
      (token.kind == .comment && previous.any (·.endLine == token.line)) := by
  have line : token.line = (Position.behind passed).line := by
    rw [Token.line, starts, Position.after_start]
  have offset : token.offset = Text.byteLength passed := offset_eq_byteLength starts
  rw [line, abreast.written, isInlineComment, offset, split, Text.takeBytes?_append,
    Option.any_some]

end Abreast

end Token

/-! ## What the rule for comments finds -/

namespace Layout

open Token (Abreast stream isInlineComment stream_nil stream_of_blank stream_of_leads)

/-- Of what is wrong with a token by itself, only a comment beside the token before it is reported
so. -/
theorem filter_lexicalProblem? (token : Token) (previous : Option Token) :
    ((token.lexicalProblem? previous).map (Diagnostic.atToken token)).toList.filter
        (·.code == .inlineCommentNotSupported) =
      if token.kind == .comment && previous.any (·.endLine == token.line) then
        [.atToken token .inlineComment]
      else [] := by
  unfold Token.lexicalProblem?
  by_cases comment : token.kind = .comment
  · rw [if_pos comment, comment, beq_self_eq_true, Bool.true_and]
    split <;> rfl
  · rw [if_neg comment, beq_eq_false_iff_ne.2 comment, Bool.false_and, if_neg Bool.false_ne_true]
    repeat' split
    all_goals rfl

/-- Token by token, the comments that are reported are those with something written before them. -/
theorem filter_lexicalDiagnosticsAfter {source : List Char} (place : Position)
    (text : List Char) : ∀ previous passed, source = passed ++ text →
      place = Position.start.after passed → (text ≠ [] → Abreast previous passed) →
      (lexicalDiagnosticsAfter previous (stream place text)).filter
          (·.code == .inlineCommentNotSupported) =
        ((stream place text).filter (isInlineComment source)).map
          (Diagnostic.atToken · .inlineComment) := by
  induction place, text using Token.text_induction with
  | nil place =>
    -- The end of the input is no comment.
    intro previous passed _ _ _
    rw [stream_nil]
    rfl
  | blank place c text white ih =>
    intro previous passed split reached abreast
    rw [stream_of_blank white]
    refine ih previous (passed ++ [c]) (by simp [split]) ?_ fun _ =>
      (abreast (List.cons_ne_nil c text)).blank white
    rw [reached, Position.after_append]
    rfl
  | lexeme place kind written behind leads ih =>
    intro previous passed whole reached abreast
    have later := ih (some (Token.ofLexeme kind written place)) (passed ++ written)
      (by rw [whole, List.append_assoc]) (by rw [reached, Position.after_append])
      fun more => .lexeme leads more reached
    have split : source = passed ++
        ((Token.ofLexeme kind written place).text.toList ++ behind) := by
      rw [Token.toList_text_ofLexeme, whole]
    have solid : written ++ behind ≠ [] := List.append_ne_nil_of_left_ne_nil leads.ne_nil _
    have own : (Token.ofLexeme kind written place).isInlineComment source = _ :=
      (abreast solid).isInlineComment_eq reached split
    rw [stream_of_leads leads, lexicalDiagnosticsAfter, List.filter_append, later,
      filter_lexicalProblem?, List.filter_cons, own]
    by_cases inline : ((Token.ofLexeme kind written place).kind == .comment &&
        previous.any (·.endLine == (Token.ofLexeme kind written place).line)) = true
    · rw [if_pos inline, if_pos inline]
      rfl
    · rw [if_neg inline, if_neg inline]
      rfl

end Layout

/-! ## Sources -/

namespace Validation

/-- No grammar says anything of comments. -/
theorem filter_foundByGrammars (source : String) :
    (foundByGrammars source).filter (·.code == .inlineCommentNotSupported) = [] := by
  refine List.filter_eq_nil_iff.2 fun diagnostic member code => ?_
  rw [beq_iff_eq] at code
  have lexical : diagnostic.manner = .lexical := by
    rw [Diagnostic.manner, code]
    rfl
  rcases (diagrams_reported source).stand diagnostic member with ⟨taken, -⟩ | ⟨ahead, -⟩
  · rw [taken] at lexical
    cases lexical
  · rw [ahead] at lexical
    cases lexical

/-- The comments found among the tokens of a source come in source order. -/
theorem pairwise_inlineComments (source : String) :
    (((Token.tokenize source).filter (Token.isInlineComment source.toList)).map
      (Diagnostic.atToken · .inlineComment)).Pairwise fun first second =>
        first.precedes second = true := by
  refine List.pairwise_map.2 ?_
  refine ((Token.tiles_tokenize source).pairwise.filter _).imp_of_mem
    fun member member' order => ?_
  have before := Token.before_of_offset_lt (List.mem_of_mem_filter member)
    (List.mem_of_mem_filter member') order.offset_lt
  rw [Diagnostic.precedes_iff]
  exact before.imp_right fun place => ⟨place.1, place.2.le⟩

end Validation

/-- The comments that are reported are those with something written before them on their line. Each
is reported once, at the comment itself, and in the order of the source. -/
theorem inline_comments_reported (source : String) :
    (validate source).diagnostics.filter (·.code == .inlineCommentNotSupported) =
      ((Token.tokenize source).filter (Token.isInlineComment source.toList)).map
        (Diagnostic.atToken · .inlineComment) := by
  have lexical : (Layout.lexicalDiagnostics (Token.tokenize source)).filter
        (·.code == .inlineCommentNotSupported) =
      ((Token.tokenize source).filter (Token.isInlineComment source.toList)).map
        (Diagnostic.atToken · .inlineComment) :=
    Layout.filter_lexicalDiagnosticsAfter .start source.toList none [] rfl rfl fun _ => .start
  cases solid : Text.isBlankText source with
  | true =>
    -- A blank source is rejected unread, and has no comments either.
    rw [← lexical, Token.tokenize_of_isBlankText solid, validate, solid]
    rfl
  | false =>
    have found : (Validation.found source).filter (·.code == .inlineCommentNotSupported) =
        ((Token.tokenize source).filter (Token.isInlineComment source.toList)).map
          (Diagnostic.atToken · .inlineComment) := by
      rw [Validation.found_eq, List.filter_append, lexical, Validation.filter_foundByGrammars,
        List.append_nil]
    have order := found ▸ Validation.pairwise_inlineComments source
    rw [Validation.diagnostics_validate solid, Diagnostic.filter_inSourceOrder_of_pairwise order,
      found]

end DiagramCheck
