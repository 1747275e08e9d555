/-
# The layout of a relocated text

What the grammars ask of a token is told by its kind, its place and its text, and
none of the questions they ask can tell a token from the same token put
elsewhere: no word they look for holds a newline. So the items of a relocated
text are those of the text, put elsewhere, with the same notes on their layout.

What the rules for comments, strings and directives find is the same as well.
`Tells` says of a diagnostic what is kept: its code and its column always, its
line up to the lines put in front, and all of it when no carriage returns are put
in.
-/

import DiagramCheck.Proofs.Layout.Order
import DiagramCheck.Proofs.Relocation.Tokens
import DiagramCheck.Proofs.Token.Directive

namespace DiagramCheck

namespace Relocation

variable (move : Relocation)

/-! ## Words -/

@[simp] theorem toList_text (written : String) :
    (move.text written).toList = move.chars written.toList :=
  String.toList_ofList

/-- What can only be found in words without a newline is found in a relocated word as well. -/
theorem apply_text {α : Type} (find : String → α) (none : α)
    (plain : ∀ word : String, '\n' ∈ word.toList → find word = none) (word : String) :
    find (move.text word) = find word := by
  by_cases newline : '\n' ∈ word.toList
  · rw [plain word newline, plain]
    rw [toList_text]
    exact move.newline_mem_chars.2 newline
  · rw [text, move.chars_of_not_mem newline, String.ofList_toList]

theorem text_of_not_mem {word : String} (plain : '\n' ∉ word.toList) : move.text word = word := by
  rw [text, move.chars_of_not_mem plain, String.ofList_toList]

theorem text_of_returns (exact : move.returns = 0) (word : String) : move.text word = word := by
  rw [text, move.chars_of_returns exact, String.ofList_toList]

theorem text_beq {word : String} (plain : '\n' ∉ word.toList) (written : String) :
    (move.text written == word) = (written == word) := by
  refine move.apply_text (· == word) false (fun other newline => ?_) written
  rw [beq_eq_false_iff_ne]
  rintro rfl
  exact plain newline

@[simp] theorem text_empty : move.text "" = "" := rfl

@[simp] theorem text_append (first second : String) :
    move.text (first ++ second) = move.text first ++ move.text second := by
  rw [← String.toList_inj]
  simp

theorem text_join (words : List String) :
    move.text (String.join words) = String.join (words.map move.text) := by
  induction words with
  | nil => simp [String.join]
  | cons word words ih => rw [String.join_cons, text_append, ih, List.map_cons, String.join_cons]

private theorem any_head?_chars {test : Char → Bool} (line : test '\n' = false)
    (mark : test '\r' = false) (text : List Char) :
    (move.chars text).head?.any test = text.head?.any test := by
  cases text with
  | nil => rfl
  | cons c text =>
    by_cases newline : c = '\n'
    · subst newline
      rw [chars_newline, lead]
      cases move.returns <;> simp [List.replicate_succ, line, mark]
    · rw [chars_cons move newline]
      rfl

private theorem getLast?_chars (text : List Char) : (move.chars text).getLast? = text.getLast? := by
  cases last : text.getLast? with
  | none =>
    rw [List.getLast?_eq_none_iff.1 last]
    rfl
  | some c =>
    obtain ⟨front, rfl⟩ := List.getLast?_eq_some_iff.1 last
    by_cases newline : c = '\n'
    · simp [newline, lead]
    · simp [chars_cons move newline]

/-! ## Tokens -/

section Token

variable (token : Token)

@[simp] theorem kind_token : (move.token token).kind = token.kind := rfl

@[simp] theorem text_token : (move.token token).text = move.text token.text := rfl

@[simp] theorem position_token : (move.token token).position = move.position token.position := rfl

@[simp] theorem line_token : (move.token token).line = token.line + move.lines := rfl

@[simp] theorem endLine_token : (move.token token).endLine = token.endLine + move.lines := by
  simp only [Token.endLine, line_token, text_token, toList_text, count_newline_chars]
  omega

@[simp] theorem isWord_token {word : String} (plain : '\n' ∉ word.toList) :
    (move.token token).isWord word = token.isWord word := by
  rw [Token.isWord, Token.isWord, kind_token, text_token, text_beq move plain]

@[simp] theorem isWordIgnoringCase_token {word : String} (plain : '\n' ∉ word.toList) :
    (move.token token).isWordIgnoringCase word = token.isWordIgnoringCase word := by
  have other (written : String) (newline : '\n' ∈ written.toList) :
      (String.ofList (written.toList.map Char.toLower) == word) = false := by
    rw [beq_eq_false_iff_ne]
    rintro rfl
    rw [String.toList_ofList] at plain
    exact plain (List.mem_map.2 ⟨'\n', newline, rfl⟩)
  rw [Token.isWordIgnoringCase, Token.isWordIgnoringCase, kind_token, text_token,
    move.apply_text (fun written =>
      String.ofList (written.toList.map Char.toLower) == word) false other]

@[simp] theorem isName_token : (move.token token).isName = token.isName := by
  simp only [Token.isName, kind_token, text_token, toList_text]
  rw [any_head?_chars move rfl rfl]

theorem value_token (exact : move.returns = 0) : (move.token token).value = token.value := by
  simp [Token.value, text_of_returns move exact]

end Token

/-! ## Diagnostics -/

/-- Something read of the text is read of the relocated text too when the latter is only moved. -/
def Agree {α : Type} (value value' : α) : Prop := move.returns = 0 → value' = value

/-- What is said of the relocated text is what is said of the text. -/
structure Tells (diagnostic diagnostic' : Diagnostic) : Prop where
  code : diagnostic'.code = diagnostic.code
  line : diagnostic'.line = diagnostic.line + move.lines
  column : diagnostic'.column = diagnostic.column
  exact : move.returns = 0 → diagnostic' = diagnostic.shift move.lines move.bytes

theorem tells_located {place : Position} {span span' : Span} {problem problem' : Problem}
    (code : problem'.code = problem.code) (same : move.Agree problem problem')
    (start : move.returns = 0 → span'.start = span.start + move.bytes)
    (stop : move.returns = 0 → span'.stop = span.stop + move.bytes) :
    move.Tells (.located place span problem) (.located (move.position place) span' problem') := by
  refine ⟨code, rfl, rfl, fun exact => ?_⟩
  obtain ⟨first, last, order⟩ := span'
  have first_eq := start exact
  have last_eq := stop exact
  dsimp only at first_eq last_eq
  subst first_eq last_eq
  rw [same exact]
  rfl

theorem offset_token (exact : move.returns = 0) (token : Token) :
    (move.token token).offset = token.offset + move.bytes := by
  simp [Relocation.token, position, exact]

theorem stop_token (exact : move.returns = 0) (token : Token) :
    (move.token token).stop = token.stop + move.bytes := by
  rw [Token.stop, Token.stop, offset_token move exact, text_token, text_of_returns move exact,
    Nat.add_right_comm]

theorem tells_atToken (token : Token) {problem problem' : Problem}
    (code : problem'.code = problem.code) (same : move.Agree problem problem') :
    move.Tells (.atToken token problem) (.atToken (move.token token) problem') :=
  move.tells_located code same (fun exact => move.offset_token exact token)
    fun exact => move.stop_token exact token

/-! ## Comments, strings and directives -/

namespace Matches

variable {move} {token token' : Token}

theorem line (matched : move.Matches token token') : token'.line = token.line + move.lines := by
  rw [Token.line, matched.position]
  rfl

theorem endLine (matched : move.Matches token token') :
    token'.endLine = token.endLine + move.lines := by
  have count : token'.text.toList.count '\n' = token.text.toList.count '\n' := by
    rcases matched.text with same | ⟨-, same⟩
    · rw [same, toList_text, count_newline_chars]
    · rw [same, List.count_append, count_newline_chars, count_newline_lead, Nat.add_zero]
  rw [Token.endLine, Token.endLine, count, matched.line]
  omega

private theorem eq_token (matched : move.Matches token token') (solid : token.kind ≠ .comment) :
    token' = move.token token := by
  obtain ⟨kind, position, text⟩ := matched
  obtain ⟨kind', text', position'⟩ := token'
  rcases text with same | ⟨comment, -⟩
  · simp only [Token.mk.injEq, Relocation.token]
    exact ⟨kind, same, position⟩
  · exact absurd comment solid

end Matches

/-- A relocated text ends in a word exactly when the text does. -/
theorem suffix_chars_iff {word : List Char} (solid : word.all (!Text.isBlank ·) = true)
    (text : List Char) : word <:+ move.chars text ↔ word <:+ text := by
  induction text using List.reverseRecOn generalizing word with
  | nil => rfl
  | append_singleton text c ih =>
    by_cases newline : c = '\n'
    · -- Both end in a newline, which no word does.
      subst newline
      rw [chars_append, chars_newline, chars_nil, ← List.append_assoc, List.suffix_concat_iff,
        List.suffix_concat_iff]
      have other (front : List Char) : word ≠ front ++ ['\n'] := by
        rintro rfl
        simp [Text.isBlank_newline] at solid
      simp [other]
    · rw [chars_append, chars_cons move newline, chars_nil, List.suffix_concat_iff,
        List.suffix_concat_iff]
      refine or_congr Iff.rfl (exists_congr fun front => and_congr_right ?_)
      rintro rfl
      rw [List.all_append, Bool.and_eq_true] at solid
      exact ih solid.1

section Lexical

variable {token token' : Token}

private theorem isUnterminatedDirective_token (cut : token.IsCut) :
    (move.token token).isUnterminatedDirective = token.isUnterminatedDirective := by
  by_cases directive : token.kind = .directive
  · obtain ⟨behind, cut⟩ := cut
    obtain ⟨body, text, -⟩ := (cut.leads directive ⟨nofun, nofun, nofun⟩).directive
    have text' : (move.token token).text.toList = ['%', '%', '\x7b'] ++ move.chars body := by
      rw [text_token, toList_text, text, chars_append, move.chars_of_not_mem (by decide)]
    have directive' : (move.token token).kind = .directive := directive
    rw [Token.isUnterminatedDirective_eq directive text,
      Token.isUnterminatedDirective_eq directive' text',
      Bool.eq_iff_iff, Bool.not_eq_true', Bool.not_eq_true', Bool.eq_false_iff, Bool.eq_false_iff,
      Ne, Ne, List.isSuffixOf_iff_suffix, List.isSuffixOf_iff_suffix, text_token, toList_text,
      suffix_chars_iff move (by decide)]
  · have other : (token.kind == .directive) = false := beq_eq_false_iff_ne.2 directive
    rw [Token.isUnterminatedDirective, Token.isUnterminatedDirective, kind_token, other,
      Bool.false_and, Bool.false_and]

private theorem isUnterminatedString_token (cut : token.IsCut) :
    (move.token token).isUnterminatedString = token.isUnterminatedString := by
  by_cases string : token.kind = .string
  · obtain ⟨behind, cut⟩ := cut
    obtain ⟨quote, body, text, quotes, -⟩ := (cut.leads string ⟨nofun, nofun, nofun⟩).string
    have solid : quote ≠ '\n' := by rcases quotes with rfl | rfl <;> decide
    rw [Token.isUnterminatedString, Token.isUnterminatedString, kind_token, text_token,
      toList_text, text, chars_cons move solid, Token.lacksClosingQuote, Token.lacksClosingQuote,
      getLast?_chars]
  · have other : (token.kind == .string) = false := beq_eq_false_iff_ne.2 string
    rw [Token.isUnterminatedString, Token.isUnterminatedString, kind_token, other,
      Bool.false_and, Bool.false_and]

/-- Tokens that may stand before two tokens: none, or tokens that match. -/
abbrev MatchesAny (previous previous' : Option Token) : Prop :=
  Option.Rel move.Matches previous previous'

private theorem any_endLine_eq {previous previous' : Option Token}
    (before : move.MatchesAny previous previous') (line : Nat) :
    previous'.any (·.endLine == line + move.lines) = previous.any (·.endLine == line) := by
  cases before with
  | none => rfl
  | some matched =>
    rw [Option.any_some, Option.any_some, matched.endLine, Bool.eq_iff_iff, beq_iff_eq,
      beq_iff_eq, Nat.add_right_cancel_iff]

private theorem lexicalProblem?_eq (matched : move.Matches token token')
    (whole : token.IsCut ∨ token.kind = .endOfInput) {previous previous' : Option Token}
    (before : move.MatchesAny previous previous') :
    token'.lexicalProblem? previous' = token.lexicalProblem? previous := by
  by_cases comment : token.kind = .comment
  · rw [Token.lexicalProblem?, Token.lexicalProblem?, if_pos (matched.kind.trans comment),
      if_pos comment, matched.line, any_endLine_eq move before]
  · rw [matched.eq_token comment, Token.lexicalProblem?, Token.lexicalProblem?, kind_token,
      if_neg comment, if_neg comment]
    rcases whole with cut | finish
    · rw [isUnterminatedDirective_token move cut, isUnterminatedString_token move cut]
    · simp [Token.isUnterminatedDirective, Token.isUnterminatedString, finish]

theorem Matches.tells (matched : move.Matches token token') (problem : Problem) :
    move.Tells (.atToken token problem) (.atToken token' problem) := by
  have moved : move.Tells (.atToken token problem) (.atToken (move.token token) problem) :=
    move.tells_atToken token rfl fun _ => rfl
  refine ⟨rfl, matched.line, ?_, fun exact => ?_⟩
  · rw [Diagnostic.atToken, Diagnostic.located, matched.position]
    rfl
  · -- Without carriage returns a comment takes in nothing more either.
    have same : token' = move.token token := by
      obtain ⟨kind, position, text⟩ := matched
      obtain ⟨kind', text', position'⟩ := token'
      simp only [Token.mk.injEq, Relocation.token]
      refine ⟨kind, ?_, position⟩
      rcases text with same | ⟨-, same⟩
      · exact same
      · rw [← String.toList_inj, toList_text]
        simpa [lead, exact] using same
    rw [same]
    exact moved.exact exact

/-- What the rules for comments, strings and directives find is the same. -/
theorem lexicalDiagnosticsAfter_tells {tokens tokens' : List Token}
    (matched : List.Forall₂ move.Matches tokens tokens')
    (whole : ∀ token ∈ tokens, token.IsCut ∨ token.kind = .endOfInput)
    {previous previous' : Option Token} (before : move.MatchesAny previous previous') :
    List.Forall₂ move.Tells (Layout.lexicalDiagnosticsAfter previous tokens)
      (Layout.lexicalDiagnosticsAfter previous' tokens') := by
  induction matched generalizing previous previous' with
  | nil => exact .nil
  | cons first later ih =>
    obtain ⟨own, whole⟩ := List.forall_mem_cons.1 whole
    rw [Layout.lexicalDiagnosticsAfter, Layout.lexicalDiagnosticsAfter,
      lexicalProblem?_eq move first own before]
    refine List.rel_append ?_ (ih whole (.some first))
    cases Token.lexicalProblem? _ _ with
    | none => exact .nil
    | some problem => exact .cons (first.tells move problem) .nil

end Lexical

/-! ## Items -/

/-- An item of the text as an item of the relocated text. -/
def item (item : Item) : Item := { item with toToken := move.token item.toToken }

@[simp] theorem toToken_item (item : Item) : (move.item item).toToken = move.token item.toToken :=
  rfl

@[simp] theorem startsLine_item (item : Item) : (move.item item).startsLine = item.startsLine :=
  rfl

@[simp] theorem startsStatement_item (item : Item) :
    (move.item item).startsStatement = item.startsStatement := rfl

private theorem startsLineAfter_token (token : Token) (previous : Option Token) :
    (move.token token).startsLineAfter (previous.map move.token) =
      token.startsLineAfter previous := by
  cases previous with
  | none => rfl
  | some previous =>
    simp only [Option.map_some, Token.startsLineAfter, endLine_token, line_token,
      Nat.add_lt_add_iff_right]

theorem place_token (previous : Option Token) (tokens : List Token) :
    Layout.place (previous.map move.token) (tokens.map move.token) =
      (Layout.place previous tokens).map move.item := by
  induction tokens generalizing previous with
  | nil => rfl
  | cons token tokens ih =>
    have later := ih (some token)
    rw [Option.map_some] at later
    rw [List.map_cons, Layout.place, Layout.place, List.map_cons, later, item,
      Token.startsStatementAfter, Token.startsStatementAfter, startsLineAfter_token]
    cases previous <;> rfl

/-- The significant tokens of the relocated text are those of the text put elsewhere. -/
theorem significant_relocated {tokens tokens' : List Token}
    (matched : List.Forall₂ move.Matches tokens tokens') :
    tokens'.filter Token.isSignificant = (tokens.filter Token.isSignificant).map move.token := by
  induction matched with
  | nil => rfl
  | @cons token token' tokens tokens' first later ih =>
    have same : token'.isSignificant = token.isSignificant := by
      rw [Token.isSignificant, Token.isSignificant, first.kind]
    rw [List.filter_cons, List.filter_cons, same, ih]
    split
    · next significant =>
      rw [List.map_cons, first.eq_token]
      intro comment
      simp [Token.isSignificant, comment] at significant
    · rfl

end Relocation

end DiagramCheck
