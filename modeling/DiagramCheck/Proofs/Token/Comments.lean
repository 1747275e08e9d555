/-
# Comments on lines of their own

A comment has its line to itself when blanks alone stand before it there and a
newline comes behind it. Such comments can be painted over: every character of
them is replaced by as many spaces as it has bytes. The tokens of the source are
then those it had, without these comments.

It comes down to lines. No other token shares a line with such a comment, not
even the end of the input (`Apart`). So what is painted over lies behind a
newline from any token before it, where no token looks, and the newline behind
it puts the columns right again.

Main statement: `tokenize_withoutFullLineComments`.
-/

import DiagramCheck.Proofs.Layout.Restart
import DiagramCheck.Proofs.Token.Places

namespace DiagramCheck

/-! ## Painting over -/

namespace Text

/-- A text in which some characters are replaced by as many spaces as they have bytes. The text
begins at byte `offset`, and a character goes when the byte at which it begins is covered. -/
def paint (covered : Nat → Bool) (offset : Nat) : List Char → List Char
  | [] => []
  | c :: text =>
    (if covered offset then List.replicate c.utf8Size ' ' else [c]) ++
      paint covered (offset + c.utf8Size) text

private theorem byteLength_replicate_space (count : Nat) :
    byteLength (List.replicate count ' ') = count := by
  induction count with
  | zero => rfl
  | succ count ih =>
    rw [List.replicate_succ, byteLength_cons, ih, Nat.add_comm]
    rfl

section Paint

variable (covered : Nat → Bool) (offset : Nat)

@[simp] theorem paint_nil : paint covered offset [] = [] := rfl

private theorem paint_cons_of_uncovered {covered : Nat → Bool} {offset : Nat}
    (uncovered : covered offset = false) (c : Char) (text : List Char) :
    paint covered offset (c :: text) = c :: paint covered (offset + c.utf8Size) text := by
  rw [paint, uncovered]
  rfl

theorem paint_append (first second : List Char) :
    paint covered offset (first ++ second) =
      paint covered offset first ++ paint covered (offset + byteLength first) second := by
  induction first generalizing offset with
  | nil => rfl
  | cons c first ih =>
    rw [List.cons_append, paint, paint, ih, byteLength_cons, ← Nat.add_assoc, List.append_assoc]

@[simp] theorem byteLength_paint (text : List Char) :
    byteLength (paint covered offset text) = byteLength text := by
  induction text generalizing offset with
  | nil => rfl
  | cons c text ih =>
    rw [paint, byteLength_append, ih, byteLength_cons]
    split
    · rw [byteLength_replicate_space]
    · rfl

variable {covered offset} {text : List Char}

theorem paint_of_uncovered
    (uncovered : ∀ byte, offset ≤ byte → byte < offset + byteLength text → covered byte = false) :
    paint covered offset text = text := by
  induction text generalizing offset with
  | nil => rfl
  | cons c text ih =>
    have := c.utf8Size_pos
    rw [byteLength_cons] at uncovered
    rw [paint_cons_of_uncovered (uncovered offset (Nat.le_refl _) (by omega)),
      ih fun byte low high => uncovered byte (by omega) (by omega)]

private theorem paint_of_covered
    (whole : ∀ byte, offset ≤ byte → byte < offset + byteLength text → covered byte = true) :
    paint covered offset text = List.replicate (byteLength text) ' ' := by
  induction text generalizing offset with
  | nil => rfl
  | cons c text ih =>
    have := c.utf8Size_pos
    rw [byteLength_cons] at whole
    rw [paint, if_pos (whole offset (Nat.le_refl _) (by omega)),
      ih fun byte low high => whole byte (by omega) (by omega), List.replicate_append_replicate,
      byteLength_cons]

/-- A slice of a painted text is the slice of the text, painted. -/
theorem slice?_paint {start stop : Nat} {source inside : List Char}
    (sliced : slice? start stop source = some inside) :
    slice? start stop (paint covered 0 source) = some (paint covered start inside) := by
  obtain ⟨before, behind, rfl, rfl, rfl⟩ := slice?_eq_some_iff.1 sliced
  have cut : paint covered 0 (before ++ (inside ++ behind)) =
      paint covered 0 before ++ (paint covered (byteLength before) inside ++
        paint covered (byteLength before + byteLength inside) behind) := by
    rw [paint_append, paint_append, Nat.zero_add]
  exact slice?_eq_some_iff.2 ⟨_, _, cut, byteLength_paint .., by rw [byteLength_paint]⟩

end Paint

/-! ## Lines -/

/-- Texts that are the same, or at least up to a newline. -/
def SameLine (text other : List Char) : Prop :=
  text = other ∨ ∃ front more more', text = front ++ '\n' :: more ∧ other = front ++ '\n' :: more'

namespace SameLine

variable {text other : List Char}

private theorem head?_eq (same : SameLine text other) : text.head? = other.head? := by
  obtain rfl | ⟨front, more, more', rfl, rfl⟩ := same
  · rfl
  · cases front <;> rfl

private theorem solidFront_eq (same : SameLine text other) :
    solidFront text = solidFront other := by
  obtain rfl | ⟨front, more, more', rfl, rfl⟩ := same
  · rfl
  · have stops (more : List Char) : ('\n' :: more).takeWhile (!isBlank ·) = [] := rfl
    simp only [solidFront, List.takeWhile_append, stops]

end SameLine

/-- When all that is covered lies behind a newline, the painted text is the same up to there. -/
theorem sameLine_paint {covered : Nat → Bool} {offset : Nat} {text : List Char}
    (behind : ∀ byte, offset ≤ byte → covered byte = true →
      ∃ passed rest, text = passed ++ rest ∧ '\n' ∈ passed ∧ offset + byteLength passed ≤ byte) :
    SameLine text (paint covered offset text) := by
  by_cases newline : '\n' ∈ text
  · obtain ⟨front, more, rfl, single⟩ := List.eq_append_cons_of_mem newline
    have uncovered (byte : Nat) (low : offset ≤ byte) (high : byte ≤ offset + byteLength front) :
        covered byte = false := by
      refine Bool.eq_false_iff.2 fun hit => ?_
      obtain ⟨passed, rest, split, member, far⟩ := behind byte low hit
      -- The first newline is among what is passed, so that ends behind the front.
      obtain ⟨inside, rfl, -⟩ := append_eq_append_of_byteLength_le split.symm (by omega)
      exact single (List.mem_append_left _ member)
    refine .inr ⟨front, more, paint covered (offset + byteLength front + 1) more, rfl, ?_⟩
    rw [paint_append, paint_of_uncovered fun byte low high => uncovered byte low high.le,
      paint_cons_of_uncovered (uncovered _ (Nat.le_add_right ..) (Nat.le_refl _))]
    rfl
  · refine .inl (paint_of_uncovered fun byte low _ => Bool.eq_false_iff.2 fun hit => ?_).symm
    obtain ⟨passed, rest, rfl, member, -⟩ := behind byte low hit
    exact newline (List.mem_append_left _ member)

private theorem mem_lastLine {front back : List Char} {c : Char} (solid : isBlank c = false)
    (single : '\n' ∉ back) : c ∈ lastLine (front ++ c :: back) := by
  have plain : ∀ d ∈ (back.reverse ++ [c]), (d != '\n') = true := by
    intro d member
    rw [bne_iff_ne]
    rintro rfl
    rcases List.mem_append.1 member with member | member
    · exact single (List.mem_reverse.1 member)
    · rw [List.mem_singleton] at member
      rw [← member] at solid
      cases solid
  have whole : (front ++ c :: back).reverse = (back.reverse ++ [c]) ++ front.reverse := by simp
  rw [lastLine, List.rtakeWhile, whole, List.takeWhile_append_of_pos plain]
  simp

end Text

namespace Lexeme

/-- A lexeme does not look behind the line on which the text goes on. -/
theorem Leads.of_sameLine {kind : TokenKind} {written behind other : List Char}
    (leads : Leads kind written behind) (same : Text.SameLine behind other) :
    Leads kind written other := by
  by_cases plain : IsPlain kind
  · exact leads.congr plain same.solidFront_eq
  · by_cases last : behind = []
    · -- At the end of the text there is nothing that could differ.
      have none : other = [] := by
        rw [← List.head?_eq_none_iff, ← same.head?_eq, last]
        rfl
      rwa [none, ← last]
    · rcases (isPlain_or kind).resolve_left plain with rfl | long
      · obtain ⟨body, rfl, undirected, own, ends⟩ := leads.comment
        obtain ⟨more, rfl⟩ := ends.resolve_left last
        obtain ⟨more', rfl⟩ := List.head?_eq_some_iff.1 same.head?_eq.symm
        refine .of_comment (fun front => undirected ?_) own rfl
        cases body with
        | nil => simp [List.cons_prefix_cons] at front
        | cons c body => simpa [List.cons_prefix_cons] using front
      · exact leads.closed long last other

/-- Behind a lexeme a newline comes before a line that begins with blanks, since no lexeme ends on
such a line. -/
theorem Leads.newline_mem {kind : TokenKind} {written behind : List Char}
    (leads : Leads kind written behind) (more : behind ≠ []) {before passed : List Char}
    (blank : (Text.lastLine (before ++ written ++ passed)).all Text.isBlank = true) :
    '\n' ∈ passed := by
  obtain ⟨front, c, back, rfl, solid, single⟩ := leads.exists_solid more
  by_contra absent
  have whole : before ++ (front ++ c :: back) ++ passed =
      (before ++ front) ++ c :: (back ++ passed) := by simp
  rw [whole, List.all_eq_true] at blank
  have white := blank c (Text.mem_lastLine solid (List.not_mem_append single absent))
  rw [solid] at white
  cases white

end Lexeme

namespace Token

/-! ## Tokens that share no line -/

/-- A comment that has its line to itself: blanks alone stand before it there, and a newline comes
behind it. -/
def isFullLineComment (source : List Char) (token : Token) : Bool :=
  token.kind == .comment &&
    (Text.takeBytes? token.offset source).any (fun before =>
      (Text.lastLine before).all Text.isBlank) &&
    (Text.dropBytes? token.stop source).any fun behind => behind.head? == some '\n'

/-- Tokens of which those chosen share no line with another one. -/
def Apart (chosen : Token → Bool) (tokens : List Token) : Prop :=
  tokens.Pairwise fun first second =>
    chosen first = true ∨ chosen second = true → first.endLine < second.line

theorem kind_of_isFullLineComment {source : List Char} {token : Token}
    (own : token.isFullLineComment source = true) : token.kind = .comment := by
  rw [isFullLineComment, Bool.and_eq_true, Bool.and_eq_true, beq_iff_eq] at own
  exact own.1.1

section Split

variable {source passed behind : List Char} {token : Token}
  (starts : token.position = Position.start.after passed)

include starts

theorem isFullLineComment_iff (split : source = passed ++ (token.text.toList ++ behind)) :
    token.isFullLineComment source = true ↔ token.kind = .comment ∧
      (Text.lastLine passed).all Text.isBlank = true ∧ behind.head? = some '\n' := by
  have offset : token.offset = Text.byteLength passed := offset_eq_byteLength starts
  have stop : token.stop = Text.byteLength (passed ++ token.text.toList) := by
    rw [stop_eq, offset, Text.byteLength_append]
  have before : Text.takeBytes? token.offset source = some passed := by
    rw [split, offset, Text.takeBytes?_append]
  have after : Text.dropBytes? token.stop source = some behind := by
    rw [split, stop, ← List.append_assoc, Text.dropBytes?_append]
  rw [isFullLineComment, before, after]
  simp only [Option.any_some, Bool.and_eq_true, beq_iff_eq, and_assoc]

end Split

/-- The comments that have their lines to themselves share none with any other token. -/
theorem apart_stream {source : List Char} (place : Position) (text : List Char) :
    ∀ before, source = before ++ text → place = Position.start.after before →
      Apart (isFullLineComment source) (stream place text) := by
  induction place, text using text_induction with
  | nil place =>
    intro before _ _
    rw [stream_nil]
    exact List.pairwise_singleton ..
  | blank place c text white ih =>
    intro before split reached
    rw [stream_of_blank white]
    refine ih (before ++ [c]) (by simp [split]) ?_
    rw [reached, Position.after_append]
    rfl
  | lexeme place kind written behind leads ih =>
    intro before whole reached
    have next : place.after written = Position.start.after (before ++ written) := by
      rw [reached, Position.after_append]
    rw [stream_of_leads leads]
    refine List.pairwise_cons.2 ⟨fun second member => ?_, ih _ (by rw [whole]; simp) next⟩
    rw [endLine_ofLexeme]
    rintro (first | later)
    · -- Behind the comment there is a newline, and the other token behind that.
      have split : source = before ++ ((ofLexeme kind written place).text.toList ++ behind) := by
        rw [toList_text_ofLexeme, whole]
      rw [isFullLineComment_iff reached split] at first
      obtain ⟨more, rfl⟩ := List.head?_eq_some_iff.1 first.2.2
      rw [stream_of_blank rfl] at member
      have below := (line_of_mem_stream second member).1
      rwa [Position.step, if_pos rfl] at below
    · -- Before the comment there are blanks up to a newline, but no lexeme ends on blanks.
      obtain ⟨passed, rest, rfl, starts⟩ := (tiles_stream _ _).exists_passed second member
      have place : second.line = (place.after written).line + passed.count '\n' := by
        rw [Token.line, starts, Position.line_after]
      rw [next, ← Position.after_append] at starts
      have split : source = before ++ written ++ passed ++ (second.text.toList ++ rest) := by
        rw [whole]
        simp
      rw [isFullLineComment_iff starts split] at later
      obtain ⟨comment, blank, -⟩ := later
      have more : passed ++ (second.text.toList ++ rest) ≠ [] := by
        intro none
        rw [none, stream_nil, List.mem_singleton] at member
        rw [member] at comment
        cases comment
      rw [place]
      exact Nat.lt_add_of_pos_right (List.count_pos_iff.2 (leads.newline_mem more blank))

theorem apart_tokenize (source : String) :
    Apart (isFullLineComment source.toList) (tokenize source) :=
  apart_stream _ _ [] rfl rfl

/-! ## The tokens of a painted text -/

/-- Whether a token covers a byte. -/
def covers (token : Token) (byte : Nat) : Bool := token.offset ≤ byte && byte < token.stop

/-- Whether one of the chosen tokens covers a byte. -/
def covered (chosen : Token → Bool) (tokens : List Token) (byte : Nat) : Bool :=
  tokens.any fun token => chosen token && token.covers byte

section Stream

variable {chosen : Token → Bool} {place : Position} {text : List Char}

private theorem exists_of_covered {byte : Nat}
    (hit : covered chosen (stream place text) byte = true) :
    ∃ token ∈ stream place text, chosen token = true ∧ token.offset ≤ byte := by
  obtain ⟨token, member, own⟩ := List.any_eq_true.1 hit
  rw [covers, Bool.and_eq_true, Bool.and_eq_true, decide_eq_true_eq] at own
  exact ⟨token, member, own.1, own.2.1⟩

/-- No byte before a text is covered by its tokens. -/
theorem covered_eq_false_of_lt {byte : Nat} (before : byte < place.offset) :
    covered chosen (stream place text) byte = false := by
  refine Bool.eq_false_iff.2 fun hit => ?_
  obtain ⟨token, member, -, low⟩ := exists_of_covered hit
  have := ((tiles_stream place text).start_le token member).2
  omega

/-- A lexeme covers its own bytes and none behind it. -/
theorem covered_cons {kind : TokenKind} {written : List Char} {byte : Nat}
    (low : place.offset ≤ byte) :
    covered chosen (ofLexeme kind written place :: stream (place.after written) text) byte =
      if byte < (place.after written).offset then chosen (ofLexeme kind written place)
      else covered chosen (stream (place.after written) text) byte := by
  rw [covered, List.any_cons, covers, stop_ofLexeme]
  split
  · next high =>
    have later := @covered_eq_false_of_lt chosen (place.after written) text byte high
    rw [covered] at later
    rw [later, Bool.or_false, decide_eq_true high, Bool.and_true]
    exact Bool.and_eq_left_iff_imp.2 fun _ => decide_eq_true low
  · next high =>
    rw [decide_eq_false high, Bool.and_false, Bool.and_false, Bool.false_or, covered]

/-- Spaces in place of a comment lead to the same place behind the newline that ends it. -/
theorem stream_spaces {written : List Char} (single : '\n' ∉ written) (more : List Char) :
    stream place (List.replicate (Text.byteLength written) ' ' ++ '\n' :: more) =
      stream (place.after written) ('\n' :: more) := by
  have blank : (List.replicate (Text.byteLength written) ' ').all Text.isBlank = true := by
    rw [List.all_replicate]
    simp [Text.isBlank_space]
  have spaces : (List.replicate (Text.byteLength written) ' ').count '\n' = 0 := by
    simp [List.count_replicate]
  -- The columns before the newline differ, but not those behind it.
  have reached : (place.after (List.replicate (Text.byteLength written) ' ')).step '\n' =
      (place.after written).step '\n' := by
    simp only [Position.step, if_true, Position.line_after, Position.offset_after, spaces,
      List.count_eq_zero.2 single, Text.byteLength_replicate_space]
  rw [(Scans.gap blank).stream_eq, List.nil_append, stream_of_blank rfl, stream_of_blank rfl,
    reached]

variable {covered : Nat → Bool}
  (own : ∀ byte, place.offset ≤ byte →
    covered byte = Token.covered chosen (stream place text) byte)

include own

/-- A painted text is the same up to the first newline when the chosen tokens stand on later
lines. -/
theorem sameLine_of_below
    (below : ∀ token ∈ stream place text, chosen token = true → place.line < token.line) :
    Text.SameLine text (Text.paint covered place.offset text) := by
  refine Text.sameLine_paint fun byte low hit => ?_
  rw [own byte low] at hit
  obtain ⟨token, member, chosen, reached⟩ := exists_of_covered hit
  obtain ⟨passed, rest, rfl, starts⟩ := (tiles_stream _ _).exists_passed token member
  have newlines := below token member chosen
  rw [Token.line, starts, Position.line_after] at newlines
  rw [Token.offset, starts, Position.offset_after] at reached
  exact ⟨passed, _, rfl, List.count_pos_iff.1 (by omega), reached⟩

/-- When chosen comments share no line with other tokens, a text in which they are painted over has
the other tokens. -/
theorem stream_paint (comments : ∀ token, chosen token = true → token.kind = .comment)
    (apart : Apart chosen (stream place text)) :
    stream place (Text.paint covered place.offset text) =
      (stream place text).filter (!chosen ·) := by
  induction place, text using text_induction with
  | nil place =>
    have kept : chosen (endOfInput place) = false :=
      Bool.eq_false_iff.2 fun hit => by cases comments _ hit
    rw [Text.paint_nil, stream_nil, List.filter_cons, kept]
    rfl
  | blank place c text white ih =>
    have size := c.utf8Size_pos
    have step := place.offset_step c
    rw [stream_of_blank white] at own apart ⊢
    have uncovered : covered place.offset = false :=
      (own _ (Nat.le_refl _)).trans (covered_eq_false_of_lt (by omega))
    rw [Text.paint_cons_of_uncovered uncovered, stream_of_blank white, ← step]
    exact ih (fun byte low => own byte (by omega)) apart
  | lexeme place kind written behind leads ih =>
    have stop := place.offset_after written
    rw [stream_of_leads leads] at own apart ⊢
    obtain ⟨first, later⟩ := List.pairwise_cons.1 apart
    rw [endLine_ofLexeme] at first
    -- What is covered falls apart into the lexeme and what is behind it.
    have inside (byte : Nat) (low : place.offset ≤ byte)
        (high : byte < place.offset + Text.byteLength written) :
        covered byte = chosen (ofLexeme kind written place) := by
      rw [own byte low, covered_cons low, if_pos (by omega)]
    have outside (byte : Nat) (low : (place.after written).offset ≤ byte) :
        covered byte = Token.covered chosen (stream (place.after written) behind) byte := by
      rw [own byte (by omega), covered_cons (by omega), if_neg (Nat.not_lt.2 low)]
    rw [Text.paint_append, ← stop, List.filter_cons, ← ih outside later]
    by_cases hit : chosen (ofLexeme kind written place) = true
    · have leads : Lexeme.Leads .comment written behind := by
        have cut := (ofLexeme_cutBefore leads place).leads (comments _ hit) (by simp)
        rwa [toList_text_ofLexeme] at cut
      obtain ⟨body, shape, -, single, ends⟩ := leads.comment
      obtain rfl | ⟨more, rfl⟩ := ends
      · -- The end of the input would stand on the line of the comment.
        have below := first (endOfInput (place.after written)) (by simp [stream_nil]) (.inl hit)
        exact absurd below (Nat.lt_irrefl _)
      have uncovered : covered (place.after written).offset = false := by
        have step := (place.after written).offset_step '\n'
        have size := '\n'.utf8Size_pos
        rw [outside _ (Nat.le_refl _), stream_of_blank rfl]
        exact covered_eq_false_of_lt (by omega)
      rw [Text.paint_of_covered fun byte low high => (inside byte low high).trans hit,
        Text.paint_cons_of_uncovered uncovered, hit]
      exact stream_spaces (by rw [shape]; simpa using single) _
    · have kept := Bool.eq_false_iff.2 hit
      have same := sameLine_of_below outside fun token member chosen =>
        first token member (.inr chosen)
      rw [Text.paint_of_uncovered fun byte low high => (inside byte low high).trans kept,
        stream_of_leads (leads.of_sameLine same), kept]
      rfl

end Stream

end Token

/-! ## Sources without full-line comments -/

/-- Whether a byte of a source belongs to a comment that has its line to itself. -/
def Token.commented (source : String) : Nat → Bool :=
  covered (isFullLineComment source.toList) (tokenize source)

/-- A source in which every comment that has its line to itself is replaced, byte for byte, by
spaces. -/
def Text.withoutFullLineComments (source : String) : String :=
  String.ofList (paint (Token.commented source) 0 source.toList)

/-- Painting over the comments that have their lines to themselves takes them out of the tokens and
leaves the others as they are. -/
theorem Token.tokenize_withoutFullLineComments (source : String) :
    tokenize (Text.withoutFullLineComments source) =
      (tokenize source).filter (!isFullLineComment source.toList ·) := by
  rw [tokenize, Text.withoutFullLineComments, String.toList_ofList]
  exact stream_paint (fun _ _ => rfl) (fun _ => kind_of_isFullLineComment) (apart_tokenize source)

end DiagramCheck
