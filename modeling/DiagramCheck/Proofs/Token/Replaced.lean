/-
# A stretch of a source put in quotes

The tokens before a place do not change when what stands behind it does, as long as
each of them still ends where it ended. A lexeme looks no further than the next
opening bracket or comma, since neither belongs to a longer one: only the bracket
itself must not be doubled. So a stretch of a source that begins behind such a mark,
with nothing but comments and directives in between, can be given in quotes. It is
then a single string, the tokens before it are those they were, and the text behind
it is read from another place in the same way.

Main statement: `exists_quoted`.
-/

import DiagramCheck.Proofs.Layout.Rows

namespace DiagramCheck

open Text (EndsAt)

namespace Lexeme

/-! ## Marks that no lexeme looks past -/

/-- The marks in front of the entries of a list in brackets. -/
def isMark (c : Char) : Bool := c == '[' || c == ','

private theorem isMark_cases {c : Char} (mark : isMark c = true) : c = '[' ∨ c = ',' := by
  rwa [isMark, Bool.or_eq_true, beq_iff_eq, beq_iff_eq] at mark

private theorem separates_isMark : Separates isMark where
  digit mark := by rcases isMark_cases mark with rfl | rfl <;> rfl
  continues mark := by rcases isMark_cases mark with rfl | rfl <;> decide +kernel
  letter mark := by rcases isMark_cases mark with rfl | rfl <;> rfl
  signs := rfl

/-- A bracket looks at one more character, to see whether it is doubled. -/
theorem delimiter?_cons_cons (c d : Char) (text : List Char) :
    delimiter? (c :: d :: text) = delimiter? [c, d] := by
  have single {e : Char} (other : ∀ more, d :: text = e :: more → False) :
      ∀ more, [d] = e :: more → False := by
    rintro _ ⟨⟩
    exact other text rfl
  have double {e f : Char} (other : ∀ more, c :: d :: text = e :: f :: more → False) :
      ∀ more, [c, d] = e :: f :: more → False := by
    rintro _ ⟨⟩
    exact other text rfl
  have front {e : Char} (other : ∀ more, c :: d :: text = e :: more → False) :
      ∀ more, [c, d] = e :: more → False := by
    rintro _ ⟨⟩
    exact other (d :: text) rfl
  generalize whole : c :: d :: text = written at double front
  conv => lhs; unfold delimiter?
  split
  -- The brackets that must not be mistaken for doubled ones.
  case h_7 other => cases whole; exact (delimiter?.eq_7 _ (single other)).symm
  case h_8 other => cases whole; exact (delimiter?.eq_8 _ (single other)).symm
  case h_9 other => cases whole; exact (delimiter?.eq_9 _ (single other)).symm
  case h_10 other => cases whole; exact (delimiter?.eq_10 _ (single other)).symm
  case h_11 other => cases whole; exact (delimiter?.eq_11 _ (single other)).symm
  case h_12 other => cases whole; exact (delimiter?.eq_12 _ (single other)).symm
  case h_18 n1 n2 n3 n4 n5 n6 n7 n8 n9 n10 n11 n12 n13 n14 n15 n16 n17 =>
    exact (delimiter?.eq_18 _ (double n1) (double n2) (double n3) (double n4) (double n5)
      (double n6) (front n7) (front n8) (front n9) (front n10) (front n11) (front n12)
      (front n13) (front n14) (front n15) (front n16) (front n17)).symm
  all_goals cases whole; rfl

/-- What stands behind a mark has no say in a plain lexeme before it. -/
theorem next_append_mark {c d : Char} {text behind : List Char} (mark : isMark d = true)
    (plain : IsPlain (next c (text ++ d :: behind)).kind) (other : List Char) :
    next c (text ++ d :: other) = next c (text ++ d :: behind) := by
  obtain ⟨undirected, uncommented, unquoted⟩ := rules_of_isPlain plain
  have separates := separates_isMark
  have ends (more : List Char) : EndsAt isMark (d :: more) := by
    rintro _ ⟨⟩
    exact mark
  -- Without what stands behind the mark the text begins with no directive or comment either.
  have front : c :: text <+: c :: (text ++ d :: behind) := ⟨d :: behind, rfl⟩
  rw [directive?_eq_none_iff] at undirected
  rw [comment?_eq_none_iff] at uncommented
  have undirected : directive? (c :: text) = none :=
    directive?_eq_none_iff.2 fun marked => undirected (marked.trans front)
  have uncommented : comment? (c :: text) = none :=
    comment?_eq_none_iff.2 fun marked => uncommented (marked.trans front)
  have unquotedToo : string? (c :: (text ++ d :: other)) = none :=
    string?_cons_eq_none.2 (string?_cons_eq_none.1 unquoted)
  have delimiter : delimiter? (c :: (text ++ d :: other)) =
      delimiter? (c :: (text ++ d :: behind)) := by
    cases text with
    | nil => exact (delimiter?_cons_cons c d other).trans (delimiter?_cons_cons c d behind).symm
    | cons e text =>
      exact (delimiter?_cons_cons c e _).trans (delimiter?_cons_cons c e _).symm
  rw [next, next, unquoted, unquotedToo, delimiter, ← List.cons_append, ← List.cons_append]
  simp only [directive?_append_eq_none separates (ends _) undirected,
    comment?_append_eq_none separates (ends _) uncommented, arrow?_append separates (ends _),
    number?_append separates (ends _), word_append c separates (ends _)]

/-- A comment ends with its line, so what stands below has no say in it. -/
theorem Leads.comment_append {written text behind : List Char} {c : Char}
    (leads : Leads .comment written (text ++ c :: behind)) (below : c ≠ '\n')
    (other : List Char) : Leads .comment written (text ++ other) := by
  obtain ⟨body, rfl, undirected, single, ends⟩ := leads.comment
  obtain ⟨more, split⟩ := ends.resolve_left (by simp)
  cases text with
  | nil => exact absurd (List.cons.inj split).1 below
  | cons d text =>
    obtain rfl := (List.cons.inj split).1
    refine .of_comment (fun opens => undirected ?_) single rfl
    cases body with
    | nil => cases (List.cons_prefix_cons.1 opens).1
    | cons e body =>
      exact List.cons_prefix_cons.2 ⟨(List.cons_prefix_cons.1 opens).1, List.nil_prefix⟩

/-- What stands behind a mark has no say in any lexeme before it. -/
theorem Leads.append_mark {kind : TokenKind} {written text behind : List Char} {d : Char}
    (leads : Leads kind written (text ++ d :: behind)) (mark : isMark d = true)
    (other : List Char) : Leads kind written (text ++ d :: other) := by
  by_cases plain : IsPlain kind
  · obtain ⟨c, tail, rfl, solid, own⟩ := leads.exists_cons
    refine ⟨c, tail ++ (text ++ d :: other), rfl, solid, ?_⟩
    rw [← List.append_assoc] at own ⊢
    rw [next_append_mark mark (by rw [own]; exact plain) other, own]
  · rcases (isPlain_or kind).resolve_left plain with rfl | long
    · refine leads.comment_append ?_ _
      rintro rfl
      cases mark
    · exact leads.closed long (by simp) _

/-! ## Quotes -/

private theorem leads_comma (behind : List Char) :
    Leads .comma [','] behind := ⟨',', behind, rfl, rfl, rfl⟩

/-- A delimiter at the front of a text is the character that its kind stands for. -/
theorem delimiter?_comma {c : Char} {text : List Char} {length : Nat}
    (found : delimiter? (c :: text) = some (.comma, length)) : c = ',' ∧ length = 1 := by
  generalize whole : c :: text = written at found
  unfold delimiter? at found
  split at found <;> cases found
  exact ⟨(List.cons.inj whole).1, rfl⟩

private theorem delimiter?_opening_square {c : Char} {text : List Char} {length : Nat}
    (found : delimiter? (c :: text) = some (.opening .square, length)) :
    c = '[' ∧ length = 1 ∧ ∀ d ∈ text.head?, d ≠ '[' := by
  generalize whole : c :: text = written at found
  unfold delimiter? at found
  split at found <;> cases found
  next single =>
  cases whole
  refine ⟨rfl, rfl, ?_⟩
  rintro d front rfl
  obtain ⟨more, rfl⟩ : ∃ more, text = '[' :: more := List.head?_eq_some_iff.1 front
  exact single more rfl

theorem Leads.comma {written behind : List Char} (leads : Leads .comma written behind) :
    written = [','] := by
  obtain ⟨c, tail, rfl, -, own⟩ := leads.exists_cons
  have rule := next_rule c (tail ++ behind)
  rw [own] at rule
  cases rule with
  | delimiter found =>
    obtain ⟨rfl, length⟩ := delimiter?_comma found
    rw [List.length_eq_zero_iff.1 (Nat.succ.inj length)]

theorem Leads.opening_square {written behind : List Char}
    (leads : Leads (.opening .square) written behind) :
    written = ['['] ∧ ∀ c ∈ behind.head?, c ≠ '[' := by
  obtain ⟨c, tail, rfl, -, own⟩ := leads.exists_cons
  have rule := next_rule c (tail ++ behind)
  rw [own] at rule
  cases rule with
  | delimiter found =>
    obtain ⟨rfl, length, single⟩ := delimiter?_opening_square found
    obtain rfl := List.length_eq_zero_iff.1 (Nat.succ.inj length)
    exact ⟨rfl, single⟩

end Lexeme

/-- The kinds of tokens that stand between an entry of a list and the entry before it. -/
def TokenKind.LeadsIn (kind : TokenKind) : Prop :=
  kind = .comma ∨ kind = .opening .square ∨ kind = .comment ∨ kind = .directive

/-- What leads in an entry stays the same when the entry is given in quotes. -/
theorem Lexeme.Leads.append_quote {kind : TokenKind} {written text behind : List Char} {c : Char}
    (leads : Leads kind written (text ++ c :: behind)) (before : kind.LeadsIn)
    (solid : Text.isBlank c = false) (other : List Char) :
    Leads kind written (text ++ '"' :: other) := by
  rcases before with rfl | rfl | rfl | rfl
  · rw [leads.comma]
    exact leads_comma _
  · obtain ⟨rfl, single⟩ := leads.opening_square
    refine leads_opening_square ?_
    cases text with
    | nil => simp
    | cons d text => exact single
  · exact leads.comment_append (ne_of_isBlank rfl solid).symm _
  · exact leads.closed (.inl rfl) (by simp) _

namespace Token

open Lexeme (Leads)

/-- A lexeme that gives a token which is no word is of the token's kind. -/
theorem kind_of_ofLexeme {kind own : TokenKind} {written : List Char} {place : Position}
    (same : (ofLexeme kind written place).kind = own)
    (other : own ≠ .identifier ∧ own ≠ .participant ∧ ∀ family, own ≠ .header family) :
    kind = own := by
  simp only [ofLexeme] at same
  split at same
  · obtain ⟨identifier, participant, header⟩ := other
    rcases TokenKind.ofWord_cases (String.ofList written) with word | word | ⟨family, word⟩
    · exact absurd (same.symm.trans word) identifier
    · exact absurd (same.symm.trans word) participant
    · exact absurd (same.symm.trans word) (header family)
  · exact same

/-! ## Scans that go on in another way -/

/-- A scan passes the front of a text, and takes the same tokens when what it leaves is replaced, if
each of its lexemes stays the same. -/
theorem Scans.exists_passed {place stop : Position} {text behind : List Char}
    {tokens : List Token} (scans : Scans place text tokens stop behind) :
    ∃ passed, text = passed ++ behind ∧ stop = place.after passed ∧
      ∀ other, (∀ kind written between place, ofLexeme kind written place ∈ tokens →
          Leads kind written (between ++ behind) → Leads kind written (between ++ other)) →
        Scans place (passed ++ other) tokens stop other := by
  induction scans with
  | done => exact ⟨[], rfl, rfl, fun _ _ => .done⟩
  | @blank place _ c _ _ _ white _ ih =>
    obtain ⟨passed, rfl, rfl, scans⟩ := ih
    exact ⟨c :: passed, rfl, rfl, fun other keeps => .blank white (scans other keeps)⟩
  | @lexeme place _ kind written _ _ _ leads _ ih =>
    obtain ⟨passed, rfl, rfl, scans⟩ := ih
    refine ⟨written ++ passed, (List.append_assoc ..).symm, (Position.after_append ..).symm,
      fun other keeps => ?_⟩
    rw [List.append_assoc]
    exact .lexeme (keeps kind written passed place (List.mem_cons_self ..) leads)
      (scans other fun kind written between place member =>
        keeps kind written between place (List.mem_cons_of_mem _ member))

/-- Every token but the end of the input is reached by a scan of the tokens before it. -/
theorem exists_scan {place : Position} {text : List Char} {front rest : List Token}
    {token : Token} (tokens : stream place text = front ++ token :: rest)
    (inside : token.kind ≠ .endOfInput) :
    ∃ middle kind written behind, Scans place text front middle (written ++ behind) ∧
      Leads kind written behind ∧ token = ofLexeme kind written middle ∧
      rest = stream (middle.after written) behind := by
  induction place, text using text_induction generalizing front with
  | nil place =>
    rw [stream_nil] at tokens
    cases front with
    | nil =>
      rw [← (List.cons.inj tokens).1] at inside
      exact absurd rfl inside
    | cons first front => simp at tokens
  | blank place c text white ih =>
    rw [stream_of_blank white] at tokens
    obtain ⟨middle, kind, written, behind, scans, reached⟩ := ih tokens
    exact ⟨middle, kind, written, behind, .blank white scans, reached⟩
  | lexeme place kind written behind leads ih =>
    rw [stream_of_leads leads] at tokens
    cases front with
    | nil =>
      obtain ⟨rfl, rfl⟩ := List.cons.inj tokens
      exact ⟨place, kind, written, behind, .done, leads, rfl, rfl⟩
    | cons first front =>
      obtain ⟨rfl, more⟩ := List.cons.inj tokens
      obtain ⟨middle, kind', written', behind', scans, reached⟩ := ih more
      exact ⟨middle, kind', written', behind', .lexeme leads scans, reached⟩

/-! ## Entries in quotes -/

/-- A text in double quotes as a token. -/
def quotedAt (place : Position) (body : List Char) : Token :=
  ofLexeme .string ('"' :: (body ++ ['"'])) place

theorem after_quoted (place : Position) (body : List Char) :
    (place.after ('"' :: (body ++ ['"']))).line = place.line + body.count '\n' ∧
      (place.after ('"' :: (body ++ ['"']))).offset =
        place.offset + Text.byteLength body + 2 := by
  have quote : '"'.utf8Size = 1 := rfl
  rw [Position.line_after, Position.offset_after, Text.byteLength_cons, Text.byteLength_append,
    Text.byteLength_cons, quote, List.count_cons_of_ne (by decide), List.count_append]
  constructor
  · rfl
  · rw [Text.byteLength_nil]
    omega

/-- What leads in an entry: a mark, and behind it comments and directives. -/
structure LeadIn (mark : Token) (between : List Token) : Prop where
  mark : mark.kind = .comma ∨ mark.kind = .opening .square
  light : ∀ token ∈ between, token.isSignificant = false

namespace LeadIn

variable {mark : Token} {between : List Token}

theorem kind_ne_endOfInput (leadIn : LeadIn mark between) : mark.kind ≠ .endOfInput := by
  rcases leadIn.mark with comma | opening
  · rw [comma]
    exact TokenKind.noConfusion
  · rw [opening]
    exact TokenKind.noConfusion

/-- The mark is written with one character. -/
theorem written_eq {kind : TokenKind} {written behind : List Char} {place : Position}
    (leadIn : LeadIn (ofLexeme kind written place) between) (leads : Leads kind written behind) :
    ∃ c, written = [c] ∧ Lexeme.isMark c = true := by
  rcases leadIn.mark with comma | opening
  · obtain rfl := kind_of_ofLexeme comma (by simp)
    exact ⟨',', leads.comma, rfl⟩
  · obtain rfl := kind_of_ofLexeme opening (by simp)
    exact ⟨'[', leads.opening_square.1, rfl⟩

private theorem leadsIn {kind : TokenKind} {written behind : List Char} {place : Position}
    (leadIn : LeadIn mark between) (leads : Leads kind written behind)
    (member : ofLexeme kind written place ∈ mark :: between) : kind.LeadsIn := by
  rcases List.mem_cons.1 member with rfl | member
  · exact leadIn.mark.imp (kind_of_ofLexeme · (by simp)) fun opening =>
      .inl (kind_of_ofLexeme opening (by simp))
  · have light := leadIn.light _ member
    unfold isSignificant at light
    split at light
    · next comment => exact .inr (.inr (.inl (kind_of_ofLexeme comment (by simp))))
    · next directive => exact .inr (.inr (.inr (kind_of_ofLexeme directive (by simp))))
    · next finish => exact absurd (kind_of_ofLexeme finish (by simp)) leads.kind_ne_endOfInput
    · cases light

end LeadIn

/-- Where a stretch of tokens behind a mark stands in the source, and what the source becomes when
the stretch is given in quotes: the stretch is one string, what stands before it has the tokens it
had, and what stands behind it is read on from another place. -/
theorem exists_quoted {source : String} {front between within later : List Token}
    {mark first last : Token}
    (tokens : tokenize source = front ++ mark :: (between ++ (within ++ later)))
    (leadIn : LeadIn mark between) (starts : first ∈ within.head?)
    (stops : last ∈ within.getLast?) (begun : first.kind ≠ .endOfInput)
    (ended : last.kind ≠ .endOfInput) :
    ∃ before raw behind, source.toList = before ++ (raw ++ behind) ∧
      first.position = Position.start.after before ∧
      last.stop = ((Position.start.after before).after raw).offset ∧
      last.endLine = ((Position.start.after before).after raw).line ∧
      later = stream ((Position.start.after before).after raw) behind ∧
      ∀ body, '"' ∉ body →
        tokenize (String.ofList (before ++ ('"' :: (body ++ ['"']) ++ behind))) =
          front ++ mark :: (between ++ quotedAt (Position.start.after before) body ::
            stream ((Position.start.after before).after ('"' :: (body ++ ['"']))) behind) := by
  obtain ⟨within, rfl⟩ := List.head?_eq_some_iff.1 starts
  obtain ⟨init, split⟩ := List.getLast?_eq_some_iff.1 stops
  rw [List.cons_append] at tokens
  -- The mark, the first token of the stretch and the last one are reached in turn.
  obtain ⟨atMark, kind, written, text, toMark, leads, rfl, rest⟩ :=
    exists_scan tokens leadIn.kind_ne_endOfInput
  obtain ⟨atFirst, kind', written', text', toFirst, leads', rfl, rest'⟩ :=
    exists_scan rest.symm begun
  have whole : stream atFirst (written' ++ text') = init ++ last :: later := by
    rw [stream_of_leads leads', ← rest', ← List.cons_append, split, List.append_assoc,
      List.singleton_append]
  obtain ⟨atLast, kind'', written'', behind, toLast, leads'', rfl, rest''⟩ :=
    exists_scan whole ended
  obtain ⟨before, source_eq, rfl, mended⟩ := toMark.exists_passed
  obtain ⟨gap, rfl, rfl, mended'⟩ := toFirst.exists_passed
  obtain ⟨raw, text_eq, rfl, -⟩ := toLast.exists_passed
  have place : ((Position.start.after before).after written).after gap =
      Position.start.after (before ++ (written ++ gap)) := by
    rw [Position.after_append, Position.after_append]
  rw [place] at mended' rest'' ⊢
  refine ⟨before ++ (written ++ gap), raw ++ written'', behind, ?_, rfl, ?_, ?_, ?_, ?_⟩
  · rw [source_eq, text_eq]
    simp only [List.append_assoc]
  · rw [stop_ofLexeme, Position.after_append _ raw]
  · rw [endLine_ofLexeme, Position.after_append _ raw]
  · rw [rest'', Position.after_append _ raw]
  · intro body unquoted
    obtain ⟨c, tail, rfl, solid, -⟩ := leads'.exists_cons
    obtain ⟨d, rfl, mark⟩ := leadIn.written_eq leads
    have string : Scans (Position.start.after (before ++ ([d] ++ gap))) _ [quotedAt _ body] _
        behind := .lexeme (Lexeme.leads_string unquoted behind) .done
    -- What leads in the stretch ends where it ended, and so does everything before the mark.
    have between := mended' ('"' :: (body ++ ['"']) ++ behind)
      fun kind' lexeme gap place member leads =>
        leads.append_quote (leadIn.leadsIn leads (List.mem_cons_of_mem _ member)) solid _
    have own := leads.append_quote (leadIn.leadsIn leads (List.mem_cons_self ..)) solid
      (body ++ ['"'] ++ behind)
    have front := mended ([d] ++ (gap ++ ('"' :: (body ++ ['"']) ++ behind)))
      fun _ _ _ _ _ leads => leads.append_mark mark _
    have scans := (front.trans (.lexeme own between)).trans string
    rw [tokenize, String.toList_ofList, List.append_assoc before, List.append_assoc [d],
      scans.stream_eq, List.append_assoc, List.append_assoc]
    rfl

end Token

end DiagramCheck
