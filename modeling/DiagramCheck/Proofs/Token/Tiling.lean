/-
# How a source falls into tokens

A source is tiled by its tokens: a gap of blanks, a token, a gap, and so on to
the end of the input, which closes the last gap. `Tiles` is this shape as a
relation. Every token in it but the last is a lexeme of the text that follows,
and each stands where walking over what lies before it leads. All that is said
about the tokens of a source rests on it.

Main statement: `tokenize_lossless`. Gaps and tokens in turn are the source, so
reading tokens loses nothing but blanks.
-/

import Mathlib.Data.List.Chain
import Mathlib.Data.List.Pairwise
import DiagramCheck.Proofs.Source.Offset
import DiagramCheck.Proofs.Token.Lexeme
import DiagramCheck.Token.Basic

namespace DiagramCheck

namespace TokenKind

/-- A word is a keyword or a plain identifier. -/
theorem ofWord_cases (word : String) :
    ofWord word = .identifier ∨ ofWord word = .participant ∨
      ∃ family, ofWord word = .header family := by
  unfold ofWord keyword?
  split <;> simp

end TokenKind

namespace Lexeme

/-- The lexeme at the front of `written ++ behind` is `written`, of kind `kind`. -/
def Leads (kind : TokenKind) (written behind : List Char) : Prop :=
  ∃ c text, written ++ behind = c :: text ∧ Text.isBlank c = false ∧
    next c text = ⟨kind, written.length⟩

theorem leads_next {c : Char} {text : List Char} (solid : Text.isBlank c = false) :
    Leads (next c text).kind (c :: text.take ((next c text).length - 1))
      (text.drop ((next c text).length - 1)) := by
  have fits := next_fits c text
  refine ⟨c, text, by simp, solid, ?_⟩
  have length : (c :: text.take ((next c text).length - 1)).length = (next c text).length := by
    simp only [Fits, List.length_cons, List.length_take] at *
    omega
  rw [length]

theorem Leads.ne_nil {kind : TokenKind} {written behind : List Char}
    (leads : Leads kind written behind) : written ≠ [] := by
  obtain ⟨c, text, -, -, cut⟩ := leads
  have fits := (next_fits c text).1
  rw [cut] at fits
  exact List.ne_nil_of_length_pos fits

theorem Leads.kind_ne_endOfInput {kind : TokenKind} {written behind : List Char}
    (leads : Leads kind written behind) : kind ≠ .endOfInput := by
  obtain ⟨c, text, -, -, cut⟩ := leads
  have other := next_kind_ne_endOfInput c text
  rwa [cut] at other

end Lexeme

namespace Token

theorem stop_eq (token : Token) :
    token.stop = token.offset + Text.byteLength token.text.toList := by
  rw [stop, Text.byteLength_toList]

theorem stop_eq_offset_after (token : Token) :
    token.stop = (token.position.after token.text.toList).offset := by
  rw [stop_eq, Position.offset_after]

theorem endLine_eq_line_after (token : Token) :
    token.endLine = (token.position.after token.text.toList).line := by
  rw [endLine, Position.line_after]

@[simp] theorem toList_text_ofLexeme (kind : TokenKind) (written : List Char) (place : Position) :
    (ofLexeme kind written place).text.toList = written :=
  String.toList_ofList

theorem stop_ofLexeme (kind : TokenKind) (written : List Char) (place : Position) :
    (ofLexeme kind written place).stop = (place.after written).offset := by
  rw [stop_eq_offset_after, toList_text_ofLexeme]
  rfl

theorem endLine_ofLexeme (kind : TokenKind) (written : List Char) (place : Position) :
    (ofLexeme kind written place).endLine = (place.after written).line := by
  rw [endLine_eq_line_after, toList_text_ofLexeme]
  rfl

/-- A token is the lexeme at the front of its own text with `behind` after it. -/
def CutBefore (token : Token) (behind : List Char) : Prop :=
  ∃ kind, Lexeme.Leads kind token.text.toList behind ∧
    token.kind = if kind = .identifier then .ofWord token.text else kind

theorem ofLexeme_cutBefore {kind : TokenKind} {written behind : List Char}
    (leads : Lexeme.Leads kind written behind) (position : Position) :
    (ofLexeme kind written position).CutBefore behind :=
  ⟨kind, by simpa [ofLexeme] using leads, rfl⟩

private theorem CutBefore.text_ne {token : Token} {behind : List Char}
    (cut : token.CutBefore behind) :
    token.text ≠ "" := by
  obtain ⟨kind, leads, -⟩ := cut
  intro empty
  exact leads.ne_nil (by rw [empty]; rfl)

theorem CutBefore.exists_cons {token : Token} {behind : List Char} (cut : token.CutBefore behind) :
    ∃ c tail, token.text.toList = c :: tail := by
  obtain ⟨kind, leads, -⟩ := cut
  exact List.exists_cons_of_ne_nil leads.ne_nil

theorem CutBefore.kind_ne_endOfInput {token : Token} {behind : List Char}
    (cut : token.CutBefore behind) : token.kind ≠ .endOfInput := by
  obtain ⟨kind, leads, same⟩ := cut
  rw [same]
  split
  · rcases TokenKind.ofWord_cases token.text with word | word | ⟨family, word⟩ <;> simp [word]
  · exact leads.kind_ne_endOfInput

theorem CutBefore.offset_lt_stop {token : Token} {behind : List Char}
    (cut : token.CutBefore behind) : token.offset < token.stop := by
  obtain ⟨kind, leads, -⟩ := cut
  have := Text.byteLength_pos leads.ne_nil
  rw [stop_eq]
  omega

/-- A token that some text can be cut into. -/
def IsCut (token : Token) : Prop := ∃ behind, token.CutBefore behind

/-! ## Tilings -/

/-- A text that begins at `place` falls into blank gaps and the tokens between them. -/
inductive Tiles : Position → List Char → List Token → Prop
  | finish {place : Position} (gap : List Char) (blank : gap.all Text.isBlank = true) :
      Tiles place gap [endOfInput (place.after gap)]
  | token {place : Position} {behind : List Char} {token : Token} {tokens : List Token}
      (gap : List Char) (blank : gap.all Text.isBlank = true)
      (starts : token.position = place.after gap)
      (cut : token.CutBefore behind)
      (later : Tiles (token.position.after token.text.toList) behind tokens) :
      Tiles place (gap ++ (token.text.toList ++ behind)) (token :: tokens)

/-- A blank before a tiled text widens its first gap. -/
theorem Tiles.cons_blank {place : Position} {c : Char} {text : List Char} {tokens : List Token}
    (white : Text.isBlank c = true) (tiles : Tiles (place.step c) text tokens) :
    Tiles place (c :: text) tokens := by
  cases tiles with
  | finish _ blank => exact .finish (c :: text) (by rw [List.all_cons, white, blank]; rfl)
  | token gap blank starts cut later =>
    exact .token (c :: gap) (by rw [List.all_cons, white, blank]; rfl) starts cut later

/-- A lexeme before a tiled text is its first token. -/
theorem Tiles.lexeme {place : Position} {kind : TokenKind} {written behind : List Char}
    {tokens : List Token} (leads : Lexeme.Leads kind written behind)
    (later : Tiles (place.after written) behind tokens) :
    Tiles place (written ++ behind) (ofLexeme kind written place :: tokens) := by
  have text := toList_text_ofLexeme kind written place
  have tiles : Tiles place ([] ++ ((ofLexeme kind written place).text.toList ++ behind))
      (ofLexeme kind written place :: tokens) :=
    .token [] rfl rfl (ofLexeme_cutBefore leads place) (by rw [text]; exact later)
  rwa [text] at tiles

theorem tiles_stream (place : Position) (text : List Char) :
    Tiles place text (stream place text) := by
  fun_induction stream place text with
  | case1 place => exact .finish [] rfl
  | case2 place c text white ih => exact ih.cons_blank white
  | case3 place c text solid lexeme more written ih =>
    have tiles := Tiles.lexeme (Lexeme.leads_next (Bool.eq_false_iff.2 solid)) ih
    rwa [List.cons_append, List.take_append_drop] at tiles

/-- The tokens of a source tile it. -/
theorem tiles_tokenize (source : String) : Tiles .start source.toList (tokenize source) :=
  tiles_stream _ _

namespace Tiles

variable {place : Position} {text : List Char} {tokens : List Token}

/-- A tiling ends with the end of the input, and every token before it is a lexeme. -/
theorem eq_append (tiles : Tiles place text tokens) :
    ∃ lexemes, tokens = lexemes ++ [endOfInput (place.after text)] ∧
      ∀ token ∈ lexemes, token.IsCut := by
  induction tiles with
  | finish => exact ⟨[], rfl, by simp⟩
  | @token place behind token tokens gap _ starts cut _ ih =>
    obtain ⟨lexemes, rfl, cuts⟩ := ih
    refine ⟨token :: lexemes, ?_, ?_⟩
    · -- The place of the end is reached by way of the gap and the token.
      rw [starts, ← Position.after_append, ← Position.after_append, List.cons_append]
    · intro other member
      rcases List.mem_cons.1 member with rfl | member
      · exact ⟨behind, cut⟩
      · exact cuts other member

/-- Every lexeme splits the text into what it has passed, its own text and what it is cut off. -/
theorem exists_cut (tiles : Tiles place text tokens) :
    ∀ token ∈ tokens, token.kind ≠ .endOfInput →
      ∃ passed behind, text = passed ++ (token.text.toList ++ behind) ∧
        token.position = place.after passed ∧ token.CutBefore behind := by
  induction tiles with
  | finish =>
    intro token member solid
    obtain rfl := List.mem_singleton.1 member
    exact absurd rfl solid
  | @token place behind token tokens gap _ starts cut _ ih =>
    intro other member solid
    rcases List.mem_cons.1 member with rfl | member
    · exact ⟨gap, behind, rfl, starts, cut⟩
    · obtain ⟨passed, more, rfl, place, cut⟩ := ih other member solid
      refine ⟨gap ++ token.text.toList ++ passed, more, by simp, ?_, cut⟩
      rw [place, starts, Position.after_append, Position.after_append]

/-- Every token splits the text into what it has passed, its own text and what is behind it. -/
theorem exists_passed (tiles : Tiles place text tokens) :
    ∀ token ∈ tokens, ∃ passed behind, text = passed ++ (token.text.toList ++ behind) ∧
      token.position = place.after passed := by
  intro token member
  obtain ⟨lexemes, rfl, cuts⟩ := tiles.eq_append
  rcases List.mem_append.1 member with lexeme | last
  · obtain ⟨behind, cut⟩ := cuts token lexeme
    obtain ⟨passed, more, whole, place, -⟩ :=
      tiles.exists_cut token member cut.kind_ne_endOfInput
    exact ⟨passed, more, whole, place⟩
  · -- The end of the input has passed the whole text.
    obtain rfl := List.mem_singleton.1 last
    exact ⟨text, [], by simp [endOfInput], rfl⟩

/-- The same in terms of the whole source; `before` is what stands before the tiled text. -/
theorem exists_split (tiles : Tiles place text tokens) (before : List Char)
    (reached : place = Position.start.after before) :
    ∀ token ∈ tokens, ∃ passed behind, before ++ text = passed ++ (token.text.toList ++ behind) ∧
      token.position = Position.start.after passed := by
  intro token member
  obtain ⟨passed, behind, rfl, starts⟩ := tiles.exists_passed token member
  exact ⟨before ++ passed, behind, (List.append_assoc ..).symm,
    by rw [starts, reached, Position.after_append]⟩

end Tiles

theorem isCut_or_endOfInput (source : String) :
    ∀ token ∈ tokenize source, token.IsCut ∨ token.kind = .endOfInput := by
  obtain ⟨lexemes, split, cuts⟩ := (tiles_tokenize source).eq_append
  intro token member
  rw [split, List.mem_append, List.mem_singleton] at member
  rcases member with member | rfl
  · exact .inl (cuts token member)
  · exact .inr rfl

theorem offset_eq_byteLength {token : Token} {passed : List Char}
    (starts : token.position = Position.start.after passed) :
    token.offset = Text.byteLength passed := by
  rw [offset, starts, Position.offset_after]
  exact Nat.zero_add _

/-- Every token is the slice of the source between its ends. -/
theorem slice?_tokenize (source : String) : ∀ token ∈ tokenize source,
    Text.slice? token.offset token.stop source.toList = some token.text.toList := by
  intro token member
  obtain ⟨passed, behind, split, starts⟩ := (tiles_tokenize source).exists_split [] rfl token member
  rw [List.nil_append] at split
  rw [split, stop_eq, offset_eq_byteLength starts]
  exact Text.slice?_append passed _ behind

/-- A token begins and ends between two characters of the source. -/
theorem isBoundary_tokenize (source : String) : ∀ token ∈ tokenize source,
    Text.IsBoundary source.toList token.offset ∧ Text.IsBoundary source.toList token.stop := by
  intro token member
  obtain ⟨passed, behind, split, starts⟩ := (tiles_tokenize source).exists_split [] rfl token member
  rw [List.nil_append] at split
  rw [split, stop_eq, offset_eq_byteLength starts]
  refine ⟨⟨passed, _, rfl, rfl⟩, ⟨passed ++ token.text.toList, behind, by simp, ?_⟩⟩
  rw [Text.byteLength_append]

/-! ## Tokens in order -/

/-- What holds of any two tokens of a source in their order. -/
structure Precedes (first second : Token) : Prop where
  solid : first.offset < first.stop
  apart : first.stop ≤ second.offset
  later : first.endLine ≤ second.line
  touching : second.offset = first.stop →
    second.line = first.endLine ∧ ∃ behind, first.CutBefore (second.text.toList ++ behind)

theorem line_le_endLine (token : Token) : token.line ≤ token.endLine := Nat.le_add_right ..

theorem Precedes.offset_lt {first second : Token} (order : first.Precedes second) :
    first.offset < second.offset :=
  order.solid.trans_le order.apart

theorem Precedes.line_le {first second : Token} (order : first.Precedes second) :
    first.line ≤ second.line :=
  first.line_le_endLine.trans order.later

/-- A token between two others keeps them from touching. -/
theorem Precedes.trans {first second third : Token} (order : first.Precedes second)
    (next : second.Precedes third) : first.Precedes third where
  solid := order.solid
  apart := order.apart.trans (next.solid.le.trans next.apart)
  later := order.later.trans next.line_le
  touching touch := by
    have := order.apart
    have := next.offset_lt
    omega

instance : Trans Precedes Precedes Precedes := ⟨Precedes.trans⟩

namespace Tiles

variable {place : Position} {text : List Char} {tokens : List Token}

/-- A token precedes the first token of the text that is tiled behind it. -/
theorem precedes_head {first : Token}
    (tiles : Tiles (first.position.after first.text.toList) text tokens)
    (cut : first.CutBefore text) : ∀ second ∈ tokens.head?, first.Precedes second := by
  -- Either the end of the input comes next or another lexeme, behind a gap in both cases.
  obtain ⟨gap, second, behind, more, rfl, rfl, starts⟩ : ∃ gap second behind more,
      tokens = second :: more ∧ text = gap ++ (second.text.toList ++ behind) ∧
        second.position = (first.position.after first.text.toList).after gap := by
    cases tiles with
    | finish => exact ⟨text, _, [], [], rfl, by simp [endOfInput], rfl⟩
    | token gap _ starts => exact ⟨gap, _, _, _, rfl, rfl, starts⟩
  rintro _ ⟨⟩
  have offset : second.offset = first.stop + Text.byteLength gap := by
    rw [stop_eq_offset_after, ← Position.offset_after, ← starts]
  refine ⟨cut.offset_lt_stop, by omega, ?_, fun touch => ?_⟩
  · rw [endLine_eq_line_after, line, starts, Position.line_after _ gap]
    exact Nat.le_add_right ..
  · -- They touch only when the gap is empty, and then the text behind is the second token's.
    cases gap with
    | nil => exact ⟨by rw [endLine_eq_line_after, line, starts]; rfl, behind, cut⟩
    | cons c gap =>
      have := c.utf8Size_pos
      rw [Text.byteLength_cons] at offset
      omega

theorem isChain (tiles : Tiles place text tokens) : tokens.IsChain Precedes := by
  induction tiles with
  | finish => exact .singleton _
  | token _ _ _ cut later ih => exact ih.cons (later.precedes_head cut)

theorem pairwise (tiles : Tiles place text tokens) : tokens.Pairwise Precedes :=
  tiles.isChain.pairwise

end Tiles

/-- Of two tokens of a source one precedes the other. -/
theorem precedes_or_precedes {source : String} {first second : Token}
    (member : first ∈ tokenize source) (member' : second ∈ tokenize source)
    (other : first ≠ second) : first.Precedes second ∨ second.Precedes first := by
  have either : (tokenize source).Pairwise fun first second =>
      first.Precedes second ∨ second.Precedes first :=
    (tiles_tokenize source).pairwise.imp fun order => Or.inl order
  have : Std.Symm fun first second : Token => first.Precedes second ∨ second.Precedes first :=
    ⟨fun _ _ => Or.symm⟩
  exact either.forall member member' other

/-! ## Gaps -/

/-- What a source holds before each of some tokens, up to the token before it; the first gap
begins at byte `start`. -/
def gapsBefore (source : List Char) (start : Nat) : List Token → List (Option (List Char))
  | [] => []
  | token :: rest => Text.slice? start token.offset source :: gapsBefore source token.stop rest

/-- The text made of gaps and tokens in turn. -/
def interleave (gaps : List (List Char)) (tokens : List Token) : List Char :=
  (List.zipWith (fun gap token => gap ++ token.text.toList) gaps tokens).flatten

/-- The gaps of a tiling are blank, and with the tokens in turn they make up the tiled text;
`before` is what stands before it. -/
theorem Tiles.exists_gaps {place : Position} {text : List Char} {tokens : List Token}
    (tiles : Tiles place text tokens) (before : List Char)
    (reached : place = Position.start.after before) :
    ∃ gaps, gapsBefore (before ++ text) place.offset tokens = gaps.map some ∧
      (∀ gap ∈ gaps, gap.all Text.isBlank = true) ∧ interleave gaps tokens = text := by
  -- A gap is the slice between the place where it begins and the place it leads to.
  have slice (gap behind : List Char) (place : Position) (before : List Char)
      (reached : place = Position.start.after before) :
      Text.slice? place.offset (place.after gap).offset (before ++ (gap ++ behind)) =
        some gap := by
    have offset : place.offset = Text.byteLength before := by
      rw [reached, Position.offset_after]
      exact Nat.zero_add _
    rw [Position.offset_after, offset]
    exact Text.slice?_append before gap behind
  induction tiles generalizing before with
  | @finish place gap blank =>
    refine ⟨[gap], ?_, by simpa using blank, by simp [interleave, endOfInput]⟩
    have last := slice gap [] place before reached
    rw [List.append_nil] at last
    simpa [gapsBefore, endOfInput] using last
  | @token place behind token tokens gap blank starts _ _ ih =>
    -- Behind the token, its gap and its text have been passed as well.
    have passed : token.position.after token.text.toList =
        Position.start.after (before ++ (gap ++ token.text.toList)) := by
      rw [starts, reached, Position.after_append, Position.after_append]
    obtain ⟨gaps, cut, blanks, whole⟩ := ih _ passed
    refine ⟨gap :: gaps, ?_, ?_, ?_⟩
    · have first := slice gap (token.text.toList ++ behind) place before reached
      rw [← starts] at first
      rw [← stop_eq_offset_after] at cut
      simp only [List.append_assoc] at cut
      rw [gapsBefore, first, cut, List.map_cons]
    · exact List.forall_mem_cons.2 ⟨blank, blanks⟩
    · rw [← whole]
      simp [interleave]

/-- Reading tokens loses nothing but blanks. The end of the input comes last and only there, every
other token is a piece of the source at its own offset, no two overlap, and what lies between them
is blank; gaps and tokens in turn are the source. -/
theorem tokenize_lossless (source : String) :
    ∃ (lexemes : List Token) (finish : Token) (gaps : List (List Char)),
      tokenize source = lexemes ++ [finish] ∧
      (finish.kind = .endOfInput ∧ finish.text = "" ∧ finish.offset = source.utf8ByteSize) ∧
      (∀ token ∈ lexemes, token.kind ≠ .endOfInput ∧ token.text ≠ "") ∧
      (∀ token ∈ tokenize source,
        Text.slice? token.offset token.stop source.toList = some token.text.toList) ∧
      (tokenize source).IsChain (fun first second => first.stop ≤ second.offset) ∧
      gapsBefore source.toList 0 (tokenize source) = gaps.map some ∧
      (∀ gap ∈ gaps, gap.all Text.isBlank = true) ∧
      interleave gaps (tokenize source) = source.toList := by
  have tiles := tiles_tokenize source
  obtain ⟨lexemes, split, cuts⟩ := tiles.eq_append
  obtain ⟨gaps, between, blanks, whole⟩ := tiles.exists_gaps [] rfl
  refine ⟨lexemes, _, gaps, split, ⟨rfl, rfl, ?_⟩, ?_, slice?_tokenize source,
    tiles.isChain.imp fun _ _ order => order.apart, between, blanks, whole⟩
  · rw [← Text.byteLength_toList, ← Nat.zero_add (Text.byteLength _)]
    exact Position.offset_after .start source.toList
  · intro token member
    obtain ⟨behind, cut⟩ := cuts token member
    exact ⟨cut.kind_ne_endOfInput, cut.text_ne⟩

end Token

end DiagramCheck
