/-
# How words are spelled

A word that begins with a letter and goes on with letters, digits, underscores and
hyphens, where every hyphen has a letter, a digit or an underscore behind it, is
one token, whatever stands behind it, unless that would belong to the word as well.
All keywords are spelled so, in capitals too.

`Spells` says which words can be read off a piece of a text, given what stands behind
it. Pieces are put together as they are written.
-/

import DiagramCheck.Proofs.Token.Scan
import DiagramCheck.Proofs.Token.Word

namespace DiagramCheck

namespace Lexeme

/-- What a word can go on with after its first letter. -/
def spellsTail : List Char → Bool
  | [] => true
  | c :: text => (isWordChar c || c == '-' && text.head?.any isWordChar) && spellsTail text

/-- A text that is one word: a letter and what a word can go on with. -/
def spellsWord : List Char → Bool
  | [] => false
  | c :: text => c.isAlpha && spellsTail text

/-- What stands behind a word and does not belong to it. -/
def StopsWord (behind : List Char) : Prop :=
  ∀ c ∈ behind.head?, isWordChar c = false ∧ c ≠ '-'

theorem StopsWord.nil : StopsWord [] := fun _ absent => by cases absent

theorem StopsWord.cons {c : Char} (foreign : isWordChar c = false) (other : c ≠ '-')
    (text : List Char) : StopsWord (c :: text) := by
  rintro _ ⟨⟩
  exact ⟨foreign, other⟩

theorem StopsWord.blank (text : List Char) : StopsWord (' ' :: text) :=
  .cons (by decide) (by decide) text

theorem not_isWordChar_hyphen : isWordChar '-' = false := by decide

/-- A word takes all that it is spelled with. -/
theorem wordTail_spelled {tail behind : List Char} (spelled : spellsTail tail = true)
    (stops : StopsWord behind) : wordTail (tail ++ behind) = tail.length := by
  induction tail with
  | nil =>
    cases behind with
    | nil => rfl
    | cons c behind =>
      obtain ⟨foreign, other⟩ := stops c rfl
      simp [wordTail, foreign, other]
  | cons c tail ih =>
    rw [spellsTail, Bool.and_eq_true] at spelled
    have later := ih spelled.2
    rw [List.cons_append]
    unfold wordTail
    by_cases hyphen : c = '-'
    · -- No arrow begins with a hyphen that a letter, a digit or an underscore follows.
      have own := spelled.1
      rw [hyphen, not_isWordChar_hyphen, Bool.false_or, beq_self_eq_true, Bool.true_and] at own
      rw [if_pos hyphen]
      cases tail with
      | nil => cases own
      | cons d tail =>
        have inside {e : Char} {more : List Char} (front : d :: tail ++ behind = e :: more) :
            isWordChar e = true := by
          rw [← (List.cons.inj front).1]
          exact own
        split
        · next front => exact absurd (inside front) (by decide)
        · next front => exact absurd (inside front) (by decide)
        · next front => exact absurd (inside front) (by decide)
        · rw [later, List.length_cons (a := c)]
    · have own : isWordChar c = true := by simpa [hyphen] using spelled.1
      rw [if_neg hyphen, if_pos own, later, List.length_cons]

/-- The signs that lexemes other than numbers and words begin with. -/
def signs : List Char :=
  ['%', '"', '\'', '-', '=', '(', ')', '[', ']', '\x7b', '\x7d', '|', ':', ',', ';']

/-- Where no sign stands, nothing but a number or a word begins. -/
theorem next_of_not_mem_signs {c : Char} (plain : c ∉ signs) (text : List Char) :
    (∃ length, number? (c :: text) = some length ∧ next c text = ⟨.number, length⟩) ∨
      next c text = ⟨.identifier, word c text⟩ := by
  -- Every other rule asks for a sign at the front.
  have other {d : Char} {more : List Char} (sign : d ∈ signs) : c :: text ≠ d :: more :=
    fun front => plain ((List.cons.inj front).1 ▸ sign)
  have rule := next_rule c text
  generalize next c text = lexeme at rule
  cases rule with
  | word => exact .inr rfl
  | number found => exact .inl ⟨_, found, rfl⟩
  | directive found =>
    unfold directive? at found
    split at found
    · next front => exact absurd front (other (by decide))
    · cases found
  | comment _ found =>
    unfold comment? at found
    split at found
    · next front => exact absurd front (other (by decide))
    · cases found
  | string found =>
    have unquoted : ¬ (c = '"' ∨ c = '\'') := by
      rintro (rfl | rfl) <;> exact plain (by decide)
    rw [string?, if_neg unquoted] at found
    cases found
  | arrow found =>
    unfold arrow? at found
    split at found
    all_goals first
      | next front => exact absurd front (other (by decide))
      | cases found
  | delimiter found =>
    unfold delimiter? at found
    split at found
    all_goals first
      | next front => exact absurd front (other (by decide))
      | cases found

/-- Where a letter stands, nothing but a word begins. -/
theorem next_of_isAlpha {c : Char} (letter : c.isAlpha = true) (text : List Char) :
    next c text = ⟨.identifier, word c text⟩ := by
  have plain : c ∉ signs := by
    have foreign : signs.all (!·.isAlpha) = true := by decide
    intro sign
    have own := List.all_eq_true.1 foreign c sign
    rw [letter] at own
    cases own
  rcases next_of_not_mem_signs plain text with ⟨length, found, -⟩ | word
  · -- No number begins with a letter.
    rcases number?_head found with digit | ⟨minus, -⟩
    · rw [Token.isDigit_eq_false_of_isAlpha letter] at digit
      cases digit
    · exact absurd minus (Token.ne_of_isAlpha letter (by decide))
  · exact word

private theorem isBlank_of_isAlpha {c : Char} (letter : c.isAlpha = true) :
    Text.isBlank c = false := by
  refine Bool.eq_false_iff.2 fun blank => ?_
  have foreign := isWordChar_of_isBlank blank
  rw [Token.isWordChar_of_isAlpha letter] at foreign
  cases foreign

/-- An opening bracket is single when no other one follows. -/
theorem leads_opening_square {behind : List Char} (single : ∀ c ∈ behind.head?, c ≠ '[') :
    Leads (.opening .square) ['['] behind := by
  refine ⟨'[', behind, rfl, rfl, ?_⟩
  cases behind with
  | nil => rfl
  | cons c behind =>
    have own : delimiter? ('[' :: c :: behind) = some (.opening .square, 1) := by
      simp [delimiter?, single c rfl]
    have undirected : directive? ('[' :: c :: behind) = none := rfl
    have uncommented : comment? ('[' :: c :: behind) = none := rfl
    have unquoted : string? ('[' :: c :: behind) = none := rfl
    have pointless : arrow? ('[' :: c :: behind) = none := rfl
    have unnumbered : number? ('[' :: c :: behind) = none := rfl
    simp only [next, undirected, uncommented, unquoted, pointless, unnumbered, own,
      List.length_singleton]

/-- A text that is one word leads as that word. -/
theorem leads_word {word behind : List Char} (spelled : spellsWord word = true)
    (stops : StopsWord behind) : Leads .identifier word behind := by
  cases word with
  | nil => cases spelled
  | cons c tail =>
    rw [spellsWord, Bool.and_eq_true] at spelled
    refine ⟨c, tail ++ behind, rfl, isBlank_of_isAlpha spelled.1, ?_⟩
    rw [next_of_isAlpha spelled.1, Lexeme.word, if_pos (Token.isWordChar_of_isAlpha spelled.1),
      wordTail_spelled spelled.2 stops, List.length_cons]

theorem Leads.newline_not_mem {kind : TokenKind} {written behind : List Char}
    (leads : Leads kind written behind) (plain : IsPlain kind) : '\n' ∉ written := by
  intro newline
  have white := List.all_eq_true.1 (leads.all_solid plain) '\n' newline
  rw [Text.isBlank_newline] at white
  cases white

theorem newline_not_mem_of_spellsWord {word : List Char} (spelled : spellsWord word = true) :
    '\n' ∉ word :=
  (leads_word spelled .nil).newline_not_mem ⟨nofun, nofun, nofun⟩

/-! ## Keywords -/

private theorem isWordChar_of_toLower {c : Char} (own : isWordChar c.toLower = true) :
    isWordChar c = true := by
  cases upper : c.isUpper with
  | true => exact Token.isWordChar_of_isAlpha (Bool.or_eq_true_iff.2 (.inl upper))
  | false =>
    have same : c.toLower = c := dif_neg (of_decide_eq_false upper)
    rwa [same] at own

/-- Whether a text is one word can be told from it in small letters. -/
theorem spellsTail_of_toLower {tail : List Char}
    (spelled : spellsTail (tail.map Char.toLower) = true) : spellsTail tail = true := by
  induction tail with
  | nil => rfl
  | cons c tail ih =>
    rw [List.map_cons, spellsTail, Bool.and_eq_true, Bool.or_eq_true, Bool.and_eq_true,
      beq_iff_eq] at spelled
    rw [spellsTail, ih spelled.2, Bool.and_true, Bool.or_eq_true, Bool.and_eq_true, beq_iff_eq]
    cases upper : c.isUpper with
    | true => exact .inl (Token.isWordChar_of_isAlpha (Bool.or_eq_true_iff.2 (.inl upper)))
    | false =>
      have same : c.toLower = c := dif_neg (of_decide_eq_false upper)
      rw [same] at spelled
      refine spelled.1.imp_right fun hyphen => ⟨hyphen.1, ?_⟩
      cases tail with
      | nil => exact absurd hyphen.2 (by simp)
      | cons d tail => exact isWordChar_of_toLower hyphen.2

theorem spellsWord_of_toLower {word : List Char}
    (spelled : spellsWord (word.map Char.toLower) = true) : spellsWord word = true := by
  cases word with
  | nil => cases spelled
  | cons c tail =>
    rw [List.map_cons, spellsWord, Bool.and_eq_true] at spelled
    rw [spellsWord, Token.isAlpha_of_toLower spelled.1, spellsTail_of_toLower spelled.2]
    rfl

/-- Every keyword is spelled as one word. -/
theorem spellsWord_of_keyword {word : String} (keyword : TokenKind.ofWord word ≠ .identifier) :
    spellsWord word.toList = true := by
  refine spellsWord_of_toLower ?_
  unfold TokenKind.ofWord TokenKind.keyword? at keyword
  split at keyword
  all_goals first
    | exact absurd rfl keyword
    | next lower =>
      rw [← String.toList_ofList (l := word.toList.map Char.toLower), lower]
      decide

end Lexeme

/-! ## Words of a text -/

/-- A token without its place. -/
def Token.word (token : Token) : TokenKind × String := (token.kind, token.text)

/-- Some words can be read off a text that has `behind` behind it, and end where the text ends. -/
def Spells (text behind : List Char) (words : List (TokenKind × String)) : Prop :=
  ∀ place, ∃ tokens, Token.Scans place (text ++ behind) tokens (place.after text) behind ∧
    tokens.map Token.word = words

namespace Spells

open Lexeme (Leads StopsWord)

variable {text more behind : List Char} {words others : List (TokenKind × String)}

theorem nil : Spells [] behind [] := fun _ => ⟨[], .done, rfl⟩

theorem append (first : Spells text (more ++ behind) words) (second : Spells more behind others) :
    Spells (text ++ more) behind (words ++ others) := by
  -- The first text is scanned with the second one in what stands behind it.
  intro place
  obtain ⟨tokens, scans, rfl⟩ := first place
  obtain ⟨tokens', scans', rfl⟩ := second (place.after text)
  refine ⟨tokens ++ tokens', ?_, by rw [List.map_append]⟩
  rw [List.append_assoc, Position.after_append]
  exact scans.trans scans'

theorem blank (spelled : Spells more behind words) : Spells (' ' :: more) behind words := by
  intro place
  obtain ⟨tokens, scans, rfl⟩ := spelled (place.step ' ')
  exact ⟨tokens, .blank rfl scans, rfl⟩

theorem of_lexeme {kind : TokenKind} (leads : Leads kind text behind) :
    Spells text behind [(Token.ofLexeme kind text .start).word] :=
  fun place => ⟨[.ofLexeme kind text place], .lexeme leads .done, rfl⟩

theorem of_leads {kind : TokenKind} (leads : Leads kind text behind)
    (other : kind ≠ .identifier) : Spells text behind [(kind, String.ofList text)] := by
  have spelled := of_lexeme leads
  rwa [Token.word, Token.ofLexeme, if_neg other] at spelled

theorem of_identifier (leads : Leads .identifier text behind) :
    Spells text behind [(.ofWord (String.ofList text), String.ofList text)] :=
  of_lexeme leads

theorem of_word (spelled : Lexeme.spellsWord text = true) (stops : StopsWord behind) :
    Spells text behind [(.ofWord (String.ofList text), String.ofList text)] :=
  of_identifier (Lexeme.leads_word spelled stops)

/-- The tokens of a text that spells some words are these words. -/
theorem lexemes_eq (spelled : Spells text [] words) (place : Position) :
    (Token.lexemes place text).map Token.word = words := by
  obtain ⟨tokens, scans, rfl⟩ := spelled place
  have stream := scans.stream_eq
  rw [List.append_nil] at stream
  rw [Token.lexemes, stream, Token.stream_nil, List.dropLast_concat]

/-! ### Brackets -/

/-- An opening bracket is single when no other one follows. -/
theorem opening_square (single : ∀ c ∈ behind.head?, c ≠ '[') :
    Spells ['['] behind [(.opening .square, "[")] :=
  of_leads (Lexeme.leads_opening_square single) nofun

theorem closing_square : Spells [']'] [] [(.closing .square, "]")] :=
  of_leads ⟨_, _, rfl, rfl, rfl⟩ nofun

end Spells

end DiagramCheck
