/-
# How strings are made up

A string runs from a quote to the next quote like it, and to the end of the input
when there is none. Where it ends is found by scanning the source. What it stands for
and whether it is closed are told afterwards, from the first and the last character
of its text alone.

Both ways come to the same. The scan stops at the first quote like the one in front,
so such a quote at the end of the text is the one that closes the string. A text that
is nothing but a quote is not closed by that quote.

Main statement: `strings_quoted_in_source`.
-/

import DiagramCheck.Proofs.Token.Extent

namespace DiagramCheck

namespace Lexeme

/-- What is scanned behind a quote is free of that quote up to its end: either the quote comes last
in it, or the scan has come to the end of the text. -/
theorem exists_inner_of_quotedBody {quote : Char} {body behind : List Char}
    (own : quotedBody quote (body ++ behind) = body.length) :
    ∃ inner, quote ∉ inner ∧ (body = inner ++ [quote] ∨ body = inner ∧ behind = []) := by
  induction body with
  | nil =>
    cases behind with
    | nil => exact ⟨[], List.not_mem_nil, .inr ⟨rfl, rfl⟩⟩
    | cons c behind =>
      -- Where more stands, the scan takes something of it.
      rw [List.nil_append, quotedBody] at own
      split_ifs at own
  | cons c body ih =>
    rw [List.cons_append, quotedBody] at own
    by_cases closes : c = quote
    · rw [if_pos closes] at own
      obtain rfl := List.length_eq_zero_iff.1 (Nat.succ.inj own).symm
      exact ⟨[], List.not_mem_nil, .inl (by rw [closes, List.nil_append])⟩
    · rw [if_neg closes] at own
      obtain ⟨inner, free, ends⟩ := ih (Nat.succ.inj own)
      refine ⟨c :: inner, List.not_mem_cons_of_ne_of_not_mem (Ne.symm closes) free, ?_⟩
      rcases ends with rfl | ⟨rfl, last⟩
      · exact .inl rfl
      · exact .inr ⟨rfl, last⟩

end Lexeme

namespace Token

/-! ## Judging a text by its ends -/

section Text

variable {quote : Char} {inner : List Char}

private theorem getLast?_ne_of_not_mem (free : quote ∉ inner) : inner.getLast? ≠ some quote :=
  fun last => free (List.mem_of_getLast? last)

private theorem unquote_closed (quote : Char) (inner : List Char) :
    unquote (quote :: (inner ++ [quote])) = inner := by
  rw [unquote, if_pos List.getLast?_concat, List.dropLast_concat]

private theorem unquote_open (free : quote ∉ inner) : unquote (quote :: inner) = inner := by
  rw [unquote, if_neg (getLast?_ne_of_not_mem free)]

private theorem lacksClosingQuote_closed (quote : Char) (inner : List Char) :
    lacksClosingQuote (quote :: (inner ++ [quote])) = false := by
  rw [lacksClosingQuote, List.getLast?_concat, bne_self_eq_false]

private theorem lacksClosingQuote_open (free : quote ∉ inner) :
    lacksClosingQuote (quote :: inner) = true := by
  rw [lacksClosingQuote, bne_iff_ne]
  exact getLast?_ne_of_not_mem free

end Text

/-! ## Strings among the tokens -/

/-- How a string is quoted in a source: `quote` is the quote that opens it, `passed` what stands
before that quote in the source, and `behind` what stands after it. -/
structure QuotedIn (source : String) (token : Token) (passed : List Char) (quote : Char)
    (behind : List Char) : Prop where
  isQuote : quote = '"' ∨ quote = '\''
  split : source.toList = passed ++ quote :: behind
  starts : token.position = Position.start.after passed
  /-- The text of a string that is closed is what it stands for between two quotes. -/
  closed : token.isUnterminatedString = false →
    token.text.toList = quote :: (token.value.toList ++ [quote])
  /-- The text of a string that is not closed is what it stands for behind one quote. -/
  leftOpen : token.isUnterminatedString = true → token.text.toList = quote :: token.value.toList
  /-- What a string stands for does not hold its quote. -/
  free : quote ∉ token.value.toList
  /-- A string is not closed exactly when its quote does not come again. -/
  isUnterminatedString_iff : token.isUnterminatedString = true ↔ quote ∉ behind
  /-- A string that is not closed takes all that is left of the source. -/
  takesRest : token.isUnterminatedString = true → token.stop = source.utf8ByteSize

variable {source : String} {token : Token}

private theorem toList_value_of_string (string : token.kind = .string) :
    token.value.toList = unquote token.text.toList := by
  rw [value, if_pos string, String.toList_ofList]

private theorem isUnterminatedString_of_string (string : token.kind = .string) :
    token.isUnterminatedString = lacksClosingQuote token.text.toList := by
  rw [isUnterminatedString, string, beq_self_eq_true, Bool.true_and]

/-- Every string of a source is a quote, what it stands for, and the same quote again
if the source has another one behind the first. If it has none, the string is judged unterminated,
and it runs to the end of the source. -/
theorem strings_quoted_in_source (source : String) {token : Token} (member : token ∈ tokenize source)
    (string : token.kind = .string) :
    ∃ passed quote behind, token.QuotedIn source passed quote behind := by
  obtain ⟨passed, rest, whole, starts, cut⟩ := (tiles_tokenize source).exists_cut token member
    (by rw [string]; exact nofun)
  obtain ⟨quote, body, text, isQuote, own⟩ := (cut.leads string ⟨nofun, nofun, nofun⟩).string
  have split : source.toList = passed ++ quote :: (body ++ rest) := by
    rw [whole, text, List.cons_append]
  have value := toList_value_of_string string
  have judged := isUnterminatedString_of_string string
  rw [text] at value judged
  obtain ⟨inner, free, rfl | ⟨rfl, rfl⟩⟩ := Lexeme.exists_inner_of_quotedBody own
  · -- The quote that comes last in the text is the first one behind its front.
    rw [unquote_closed] at value
    rw [lacksClosingQuote_closed] at judged
    have again : quote ∈ inner ++ [quote] ++ rest := by simp
    exact ⟨passed, quote, _, {
      isQuote, split, starts
      closed _ := by rw [text, value]
      leftOpen other := by rw [judged] at other; cases other
      free := by rwa [value]
      isUnterminatedString_iff := by simp [judged]
      takesRest other := by rw [judged] at other; cases other }⟩
  · -- Nothing stands behind the string.
    rw [unquote_open free] at value
    rw [lacksClosingQuote_open free] at judged
    have last : token.stop = source.utf8ByteSize := by
      rw [stop_eq, offset_eq_byteLength starts, ← Text.byteLength_append, ← Text.byteLength_toList,
        whole, List.append_nil]
    exact ⟨passed, quote, _, {
      isQuote, split, starts
      closed other := by rw [judged] at other; cases other
      leftOpen _ := by rw [text, value]
      free := by rwa [value]
      isUnterminatedString_iff := by simp [judged, free]
      takesRest _ := last }⟩

/-- A single quote may stand in a string between double ones. A double quote may stand in a string
that a single one opens, which runs on past the end of its line. -/
theorem strings_quoted_in_source_mixed :
    let source := "A[\"it's\"] 'a\"b\n"
    let first : Token := ⟨.string, "\"it's\"", ⟨1, 3, 2⟩⟩
    let second : Token := ⟨.string, "'a\"b\n", ⟨1, 11, 10⟩⟩
    first ∈ tokenize source ∧ first.isUnterminatedString = false ∧
      (∃ passed quote behind, first.QuotedIn source passed quote behind) ∧
      second ∈ tokenize source ∧ second.isUnterminatedString = true ∧
      ∃ passed quote behind, second.QuotedIn source passed quote behind := by
  intro source first second
  have here : first ∈ tokenize source := by decide +kernel
  have there : second ∈ tokenize source := by decide +kernel
  exact ⟨here, by decide +kernel, strings_quoted_in_source source here rfl,
    there, by decide +kernel, strings_quoted_in_source source there rfl⟩

end Token

end DiagramCheck
