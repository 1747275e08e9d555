/-
# Plain texts

Comments and directives begin with percent signs, and strings with quotes. A plain
text holds neither, so all its tokens are read, none of them runs on, and none runs
over blanks. A semicolon in such a text is a token by itself, and the words on both
sides of it are those of the two sides alone. The lines of such a text are laid out
one below the other, each with its own words.

Main statements: `spells_intercalate` for the texts between semicolons, and
`onLines_place` for the lines of a text.
-/

import DiagramCheck.Proofs.Layout.Restart
import DiagramCheck.Proofs.Token.Spelling

namespace DiagramCheck

open Lexeme (IsPlain)

/-- The characters that comments, directives and strings begin with. -/
def Text.unplain : List Char := ['%', '"', '\'']

/-- A text in which no comment, directive or string begins. -/
def Text.IsPlain (text : List Char) : Prop := ∀ c ∈ text, c ∉ unplain

theorem Text.forall_not_mem_of_all {text signs : List Char}
    (foreign : text.all (!signs.contains ·) = true) : ∀ c ∈ text, c ∉ signs := by
  intro c member sign
  have own := List.all_eq_true.1 foreign c member
  rw [List.contains_iff_mem.2 sign] at own
  cases own

/-- What joined texts hold is from one of them or from what stands between them. -/
theorem Text.mem_intercalate {separator : String} {texts : List String} {c : Char}
    (member : c ∈ (separator.intercalate texts).toList) :
    c ∈ separator.toList ∨ ∃ text ∈ texts, c ∈ text.toList := by
  induction texts with
  | nil => cases member
  | cons text texts ih =>
    cases texts with
    | nil =>
      rw [String.intercalate_singleton] at member
      exact .inr ⟨text, List.mem_cons_self .., member⟩
    | cons next texts =>
      rw [String.intercalate_cons_cons, String.toList_append, String.toList_append,
        List.mem_append, List.mem_append] at member
      rcases member with (own | between) | later
      · exact .inr ⟨text, List.mem_cons_self .., own⟩
      · exact .inl between
      · refine (ih later).imp_right fun ⟨other, listed, inside⟩ => ?_
        exact ⟨other, List.mem_cons_of_mem _ listed, inside⟩

namespace Token

/-- The tokens of a text hold nothing but characters of it. -/
theorem Tiles.text_subset {place : Position} {text : List Char} {tokens : List Token}
    (tiles : Tiles place text tokens) : ∀ token ∈ tokens, token.text.toList ⊆ text := by
  induction tiles with
  | finish gap =>
    intro token member
    rw [List.mem_singleton.1 member]
    exact List.nil_subset _
  | @token place behind token tokens gap _ _ _ _ ih =>
    refine List.forall_mem_cons.2 ⟨fun c member => by simp [member], ?_⟩
    intro other member c inside
    have := ih other member inside
    simp [this]

section Lexemes

variable {place : Position} {text : List Char} {token : Token} (member : token ∈ lexemes place text)

include member

theorem isCut_of_mem_lexemes : token.IsCut := by
  obtain ⟨tokens, split, cuts⟩ := (tiles_stream place text).eq_append
  rw [lexemes, split, List.dropLast_concat] at member
  exact cuts token member

theorem text_subset_of_mem_lexemes : token.text.toList ⊆ text :=
  (tiles_stream place text).text_subset token (List.dropLast_subset _ member)

/-- No token of a plain text runs over blanks. -/
theorem isPlain_of_mem_lexemes (plain : Text.IsPlain text) : IsPlain token.kind := by
  obtain ⟨behind, cut⟩ := isCut_of_mem_lexemes member
  -- Such a token begins with a character that a plain text does not hold.
  have absent {c : Char} {body : List Char} (sign : c ∈ Text.unplain)
      (written : token.text.toList = c :: body) : False := by
    refine plain c (text_subset_of_mem_lexemes member ?_) sign
    rw [written]
    exact List.mem_cons_self ..
  refine ⟨fun kind => ?_, fun kind => ?_, fun kind => ?_⟩
  · obtain ⟨body, written, -⟩ := (cut.leads kind ⟨nofun, nofun, nofun⟩).directive
    exact absent (by decide) written
  · obtain ⟨body, written, -⟩ := (cut.leads kind ⟨nofun, nofun, nofun⟩).comment
    exact absent (by decide) written
  · obtain ⟨quote, body, written, quoted, -⟩ := (cut.leads kind ⟨nofun, nofun, nofun⟩).string
    refine absent ?_ written
    rcases quoted with rfl | rfl <;> decide

private theorem isSignificant_of_isPlain (plain : IsPlain token.kind) :
    token.isSignificant = true := by
  obtain ⟨behind, cut⟩ := isCut_of_mem_lexemes member
  have inside := cut.kind_ne_endOfInput
  obtain ⟨undirected, uncommented, -⟩ := plain
  unfold isSignificant
  split
  · contradiction
  · contradiction
  · contradiction
  · rfl

omit member in
private theorem runsOn_of_isPlain (plain : IsPlain token.kind) : token.runsOn = false := by
  rw [runsOn, isUnterminatedString, beq_eq_false_iff_ne.2 plain.1,
    beq_eq_false_iff_ne.2 plain.2.2]
  rfl

end Lexemes

/-- The words of a text are the same wherever it begins. -/
theorem map_word_lexemes (place place' : Position) (text : List Char) :
    (lexemes place text).map word = (lexemes place' text).map word := by
  induction place, text using text_induction generalizing place' with
  | nil place => rw [lexemes_nil, lexemes_nil]
  | blank place c text white ih => rw [lexemes_of_blank white, lexemes_of_blank white, ih]
  | lexeme place kind written behind leads ih =>
    rw [lexemes_of_leads leads, lexemes_of_leads leads, List.map_cons, List.map_cons, ih]
    rfl

/-- The words of a text. -/
def words (text : String) : List (TokenKind × String) := (lexemes .start text.toList).map word

end Token

/-! ## Texts between semicolons -/

namespace Spells

/-- A text spells its own words in front of everything that leaves its tokens as they are. -/
theorem of_lexemes {text : String} {behind : List Char}
    (scans : ∀ place, Token.Scans place (text.toList ++ behind)
      (Token.lexemes place text.toList) (place.after text.toList) behind) :
    Spells text.toList behind (Token.words text) :=
  fun place => ⟨Token.lexemes place text.toList, scans place, Token.map_word_lexemes ..⟩

theorem self (text : String) : Spells text.toList [] (Token.words text) := by
  refine of_lexemes fun place => ?_
  refine @Token.scans_append (fun _ => True) [] (fun _ leads => ?_) _ _ fun _ _ => trivial
  rwa [List.append_nil]

theorem semicolon {text : String} (plain : Text.IsPlain text.toList) (more : List Char) :
    Spells text.toList (';' :: more) (Token.words text) :=
  of_lexemes fun _ => Token.scans_append_semicolon more fun _ member =>
    Token.isPlain_of_mem_lexemes member plain

end Spells

/-- Plain texts with semicolons between them spell their words with semicolons between those. -/
theorem spells_intercalate {texts : List String}
    (plain : ∀ text ∈ texts, Text.IsPlain text.toList) :
    Spells (";".intercalate texts).toList []
      ([(.semicolon, ";")].intercalate (texts.map Token.words)) := by
  induction texts with
  | nil => exact .nil
  | cons text texts ih =>
    obtain ⟨own, plain⟩ := List.forall_mem_cons.1 plain
    cases texts with
    | nil =>
      rw [String.intercalate_singleton, List.map_singleton, List.intercalate_singleton]
      exact .self text
    | cons next texts =>
      have sign (behind : List Char) : Spells [';'] behind [(.semicolon, ";")] :=
        .of_leads ⟨_, _, rfl, rfl, rfl⟩ nofun
      have later := (Spells.semicolon own _).append ((sign _).append (ih plain))
      rw [String.intercalate_cons_cons, List.map_cons, List.map_cons,
        List.intercalate_cons_cons]
      simpa using later

/-! ## Lines -/

/-- Items on lines that follow each other, the first of them at `line`, with the words of each
line. The first item of a line begins a statement. -/
inductive Items.OnLines : Nat → List (List (TokenKind × String)) → List Item → Prop
  | nil {line : Nat} : OnLines line [] []
  | cons {line : Nat} {words : List (TokenKind × String)}
      {rest : List (List (TokenKind × String))} {own later : List Item}
      (spelled : own.map (·.word) = words)
      (begins : ∀ first ∈ own.head?, first.startsStatement = true)
      (beside : ∀ item ∈ own, item.line = line ∧ item.endLine = line)
      (below : OnLines (line + 1) rest later) (above : Items.Above own later) :
      OnLines line (words :: rest) (own ++ later)

namespace Layout

section Line

variable {line : String} (plain : Text.IsPlain line.toList) (place : Position)

include plain

private theorem significant_plain :
    (Token.stream place line.toList).filter Token.isSignificant =
      Token.lexemes place line.toList :=
  Token.significant_of_forall fun _ member =>
    Token.isSignificant_of_isPlain member (Token.isPlain_of_mem_lexemes member plain)

private theorem settled_plain : ∀ token ∈ Token.lexemes place line.toList, token.runsOn = false :=
  fun _ member => Token.runsOn_of_isPlain (Token.isPlain_of_mem_lexemes member plain)

private theorem lexicalDiagnostics_plain :
    lexicalDiagnosticsAfter none (Token.stream place line.toList) = [] := by
  rw [lexicalDiagnosticsAfter_stream]
  refine lexicalDiagnosticsAfter_of_settled (fun token member => ?_) (settled_plain plain place) _
  exact Token.isSignificant_of_isPlain member (Token.isPlain_of_mem_lexemes member plain)

/-- The items of a line have its words and stand on it. -/
theorem spelled_place (single : '\n' ∉ line.toList) :
    (Layout.place none ((Token.stream place line.toList).filter Token.isSignificant)).map
        (·.word) = Token.words line ∧
      ∀ item ∈ Layout.place none ((Token.stream place line.toList).filter Token.isSignificant),
        item.line = place.line ∧ item.endLine = place.line := by
  rw [significant_plain plain place]
  have tokens := map_toToken_place none (Token.lexemes place line.toList)
  constructor
  · rw [Token.words, ← Token.map_word_lexemes place, ← tokens, List.map_map, tokens]
    rfl
  · intro item member
    refine Token.line_of_mem_lexemes single item.toToken ?_
    rw [← tokens]
    exact List.mem_map_of_mem member

end Line

private theorem begins_place (tokens : List Token) :
    ∀ first ∈ (Layout.place none tokens).head?, first.startsStatement = true := by
  cases tokens with
  | nil => exact fun _ absent => by cases absent
  | cons token tokens =>
    rintro _ ⟨⟩
    rfl

/-- The lines of a plain text are laid out one below the other, and nothing is wrong with them. -/
theorem onLines_place {lines : List String}
    (plain : ∀ line ∈ lines, Text.IsPlain line.toList)
    (single : ∀ line ∈ lines, '\n' ∉ line.toList) (place : Position) :
    Items.OnLines place.line (lines.map Token.words)
        (Layout.place none
          ((Token.stream place ("\n".intercalate lines).toList).filter Token.isSignificant)) ∧
      lexicalDiagnosticsAfter none (Token.stream place ("\n".intercalate lines).toList) = [] := by
  -- By induction on the lines: behind each newline the layout starts anew.
  induction lines generalizing place with
  | nil =>
    rw [String.intercalate_nil, String.toList_empty, Token.stream_nil]
    exact ⟨.nil, rfl⟩
  | cons line lines ih =>
    obtain ⟨own, plain⟩ := List.forall_mem_cons.1 plain
    obtain ⟨whole, single⟩ := List.forall_mem_cons.1 single
    obtain ⟨spelled, beside⟩ := spelled_place own place whole
    cases lines with
    | nil =>
      rw [String.intercalate_singleton]
      have laid := Items.OnLines.cons spelled (begins_place _) beside .nil
        fun _ _ _ absent => by cases absent
      rw [List.append_nil] at laid
      exact ⟨laid, lexicalDiagnostics_plain own place⟩
    | cons next lines =>
      have split : ("\n".intercalate (line :: next :: lines)).toList =
          line.toList ++ '\n' :: ("\n".intercalate (next :: lines)).toList := by
        rw [String.intercalate_cons_cons]
        simp
      have top : ∀ before ∈ (none : Option Token), before.endLine ≤ place.line := nofun
      have settled := settled_plain own place
      obtain ⟨below, clean⟩ := ih plain single ((place.after line.toList).step '\n')
      have beneath : ((place.after line.toList).step '\n').line = place.line + 1 := by
        rw [Position.step, if_pos rfl, Position.line_after, List.count_eq_zero.2 whole]
      rw [beneath] at below
      rw [split, place_append_newline top settled,
        lexicalDiagnosticsAfter_append_newline top settled, clean,
        lexicalDiagnostics_plain own place]
      have apart := above_append_newline place line.toList
        ("\n".intercalate (next :: lines)).toList none none
      exact ⟨.cons spelled (begins_place _) beside below apart, rfl⟩

end Layout

end DiagramCheck
