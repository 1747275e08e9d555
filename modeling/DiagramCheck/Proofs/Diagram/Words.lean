/-
# The words of a label

A label is put together again from tokens, with single spaces between them. Its words
are cut by the class of their characters, though: a stretch of ASCII letters, digits and
underscores is one token, and every other letter or digit is one by itself. What is
shown therefore holds a space wherever two tokens meet within a word. The label of a node
and the text of a message are the words that were written exactly when every word is
one token: when it is written in ASCII, or is a single character.

Main statement: `words_kept_iff`.
-/

import Mathlib.Data.List.SplitBy
import DiagramCheck.Proofs.Diagram.Names
import DiagramCheck.Proofs.Token.Extent

namespace DiagramCheck

open Layout (IsQuiet isQuiet_of_kind)
open Lexeme (StopsName isWordChar frontPiece)

/-! ## The pieces of a word -/

namespace Lexeme

/-- Whether two characters side by side in a word belong to one token. -/
def joins (c d : Char) : Bool := isWordChar c && isWordChar d

/-- The pieces of a word: the stretches of word characters, and every other character alone. -/
def pieces (word : List Char) : List (List Char) := word.splitBy joins

/-- The characters of a piece are those of a stretch, or there is only one. -/
theorem isChain_joins_iff {word : List Char} (written : word ≠ []) :
    word.IsChain (joins · · = true) ↔ word.all isWordChar = true ∨ word.length = 1 := by
  obtain ⟨c, tail, rfl⟩ := List.exists_cons_of_ne_nil written
  induction tail generalizing c with
  | nil => simp
  | cons d tail ih =>
    rw [List.isChain_cons_cons, ih d (List.cons_ne_nil d tail)]
    cases tail <;> simp [joins]
    tauto

private theorem pieces_eq_singleton_iff {word : List Char} (written : word ≠ []) :
    pieces word = [word] ↔ word.all isWordChar = true ∨ word.length = 1 := by
  rw [← isChain_joins_iff written]
  refine ⟨fun whole => ?_, List.splitBy_of_isChain written⟩
  exact List.isChain_of_mem_splitBy (whole ▸ List.mem_singleton_self word)

private theorem isChain_frontPiece (word : List Char) :
    (frontPiece word).IsChain (joins · · = true) := by
  cases word with
  | nil => exact .nil
  | cons c tail =>
    rw [frontPiece]
    split
    · next own =>
      refine (isChain_joins_iff (List.cons_ne_nil c _)).2 (.inl ?_)
      rw [List.all_cons, own, List.all_takeWhile]
      rfl
    · exact .singleton c

/-- A word begins with its first piece, and the rest of it is cut by itself. -/
theorem pieces_eq_cons {word rest : List Char} (written : frontPiece word ≠ [])
    (split : word = frontPiece word ++ rest) : pieces word = frontPiece word :: pieces rest := by
  have apart : ∀ d ∈ (frontPiece word).getLast?, ∀ e ∈ rest.head?, joins d e = false := by
    intro d last e front
    cases word with
    | nil => cases last
    | cons c tail =>
      rw [frontPiece] at split last
      cases own : isWordChar c with
      | false =>
        rw [own, if_neg Bool.false_ne_true] at last
        rw [← Option.some.inj last, joins, List.getLast_singleton, own, Bool.false_and]
      | true =>
        -- Behind a stretch of word characters another character stands.
        rw [own, if_pos rfl] at split
        have behind : rest = tail.dropWhile isWordChar := by
          have same : tail.takeWhile isWordChar ++ rest =
              tail.takeWhile isWordChar ++ tail.dropWhile isWordChar := by
            rw [List.takeWhile_append_dropWhile]
            exact (List.cons.inj split).2.symm
          exact List.append_cancel_left same
        have foreign : isWordChar e = false := by
          have other := List.head?_dropWhile_not isWordChar tail
          rw [← behind, Option.mem_def.1 front] at other
          exact other
        rw [joins, foreign, Bool.and_false]
  have cut := List.splitBy_append apart
  rw [← split, List.splitBy_of_isChain written (isChain_frontPiece word)] at cut
  exact cut

/-- Every piece of a word is a token, whatever stands behind the word. -/
theorem exists_spells_pieces {behind : List Char} (stops : StopsName behind) {word : List Char}
    (chars : word.all Token.isNameChar = true) : ∃ spelled, Spells word behind spelled ∧
      (∀ piece ∈ spelled, (Token.unplaced piece).isName = true) ∧
      spelled.map Prod.snd = (pieces word).map String.ofList := by
  -- By induction on the length: behind the first piece the rest of the word begins anew.
  induction length : word.length using Nat.strongRecOn generalizing word with
  | ind size ih =>
    by_cases written : word = []
    · rw [written]
      exact ⟨[], .nil, List.forall_mem_nil _, rfl⟩
    obtain ⟨kind, rest, plain, split, leads⟩ := exists_leads_frontPiece written chars stops
    have cut := pieces_eq_cons leads.ne_nil split
    generalize frontPiece word = front at split leads cut
    subst split
    rw [List.all_append, Bool.and_eq_true] at chars
    have shorter : rest.length < size := by
      have := List.length_pos_of_ne_nil leads.ne_nil
      rw [← length, List.length_append]
      omega
    obtain ⟨spelled, later, named, texts⟩ := ih _ shorter chars.2 rfl
    have piece := Token.isPiece_ofLexeme plain chars.1 leads .start
    refine ⟨(Token.ofLexeme kind front .start).word :: spelled,
      (Spells.of_lexeme leads).append later, List.forall_mem_cons.2 ⟨piece.named, named⟩, ?_⟩
    rw [cut, List.map_cons, List.map_cons, texts]
    rfl

/-- A word that is its own first piece has no other. -/
theorem eq_nil_of_pieces {word : List Char} {more : List (List Char)}
    (whole : pieces word = word :: more) : more = [] := by
  have joined : word ++ more.flatten = word := by
    have together := List.flatten_splitBy joins word
    rwa [← pieces, whole, List.flatten_cons] at together
  have none : [] ∉ more := by
    intro empty
    refine List.nil_notMem_splitBy joins word ?_
    rw [← pieces, whole]
    exact List.mem_cons_of_mem word empty
  refine List.eq_nil_iff_forall_not_mem.2 fun piece member => none ?_
  have empty := List.flatten_eq_nil_iff.1 (List.append_right_eq_self.1 joined) piece member
  rwa [empty] at member

end Lexeme

private theorem Token.isNameChar_of_isAlphanumeric {c : Char} (own : Text.isAlphanumeric c = true) :
    isNameChar c = true := by
  rw [isNameChar, Bool.or_eq_true, Bool.and_eq_true, decide_eq_true_eq, Bool.not_eq_true']
  by_cases ascii : c.toNat < 0x80
  · rw [Text.isAlphanumeric, if_pos ascii] at own
    exact .inl (by rw [isWordChar, own, Bool.true_or])
  · refine .inr ⟨Nat.le_of_not_lt ascii, Bool.eq_false_iff.2 fun blank => ?_⟩
    rw [Text.isAlphanumeric_of_isBlank blank] at own
    cases own

/-! ## Phrases -/

/-- A word in letters and digits of any script. -/
structure Word where
  text : String
  written : text ≠ ""
  letters : text.toList.all Text.isAlphanumeric = true

namespace Word

variable (word : Word)

/-- Whether a word is written in ASCII or is a single character. -/
def IsWhole : Prop := word.text.toList.all isWordChar = true ∨ word.text.toList.length = 1

/-- The tokens of a word. -/
def pieces : List String := (Lexeme.pieces word.text.toList).map String.ofList

theorem toList_ne_nil : word.text.toList ≠ [] := fun empty =>
  word.written (String.toList_eq_nil_iff.1 empty)

theorem chars : word.text.toList.all Token.isNameChar = true :=
  List.all_eq_true.2 fun c member =>
    Token.isNameChar_of_isAlphanumeric (List.all_eq_true.1 word.letters c member)

private theorem blank_not_mem : ' ' ∉ word.text.toList := fun blank =>
  absurd (List.all_eq_true.1 word.chars _ blank) (by decide)

private theorem pieces_ne_nil : word.pieces ≠ [] := by
  rw [pieces, ne_eq, List.map_eq_nil_iff, Lexeme.pieces, List.splitBy_eq_nil]
  exact word.toList_ne_nil

private theorem blank_not_mem_pieces : ∀ piece ∈ word.pieces, ' ' ∉ piece.toList := by
  intro piece member blank
  obtain ⟨own, inside, rfl⟩ := List.mem_map.1 member
  rw [String.toList_ofList] at blank
  refine word.blank_not_mem ?_
  rw [← List.flatten_splitBy Lexeme.joins word.text.toList]
  exact List.mem_flatten_of_mem inside blank

private theorem pieces_eq_iff : word.pieces = [word.text] ↔ word.IsWhole := by
  have text : [word.text] = [word.text.toList].map String.ofList := by
    rw [List.map_singleton, String.ofList_toList]
  rw [pieces, text, IsWhole, ← Lexeme.pieces_eq_singleton_iff word.toList_ne_nil]
  exact List.map_inj_right fun _ _ => String.ofList_injective

/-- Behind a token that is the whole word there is no other. -/
theorem eq_nil_of_pieces {more : List String} (whole : word.pieces = word.text :: more) :
    more = [] := by
  obtain ⟨front, rest, cut, same, rfl⟩ := List.map_eq_cons_iff.1 whole
  have own : front = word.text.toList := by rw [← same, String.toList_ofList]
  rw [own] at cut
  rw [Lexeme.eq_nil_of_pieces cut, List.map_nil]

end Word

/-- Some words with single spaces between them. -/
def phrase (words : List Word) : String := " ".intercalate (words.map Word.text)

/-- The tokens of some words with single spaces between them. -/
def tokenPhrase (words : List Word) : String := " ".intercalate (words.flatMap Word.pieces)

private theorem flatMap_pieces_ne_nil {words : List Word} (nonempty : words ≠ []) :
    words.flatMap Word.pieces ≠ [] := by
  obtain ⟨word, words, rfl⟩ := List.exists_cons_of_ne_nil nonempty
  rw [List.flatMap_cons]
  exact List.append_ne_nil_of_left_ne_nil word.pieces_ne_nil _

/-- Texts without blanks can be told from what they make with single spaces between them. -/
theorem intercalate_blank_inj {texts others : List String} (nonempty : texts ≠ [])
    (nonempty' : others ≠ []) (solid : ∀ text ∈ texts, ' ' ∉ text.toList)
    (solid' : ∀ text ∈ others, ' ' ∉ text.toList) :
    " ".intercalate texts = " ".intercalate others ↔ texts = others := by
  refine ⟨fun same => ?_, fun same => by rw [same]⟩
  have split {texts : List String} (nonempty : texts ≠ [])
      (solid : ∀ text ∈ texts, ' ' ∉ text.toList) :
      (" ".intercalate texts).toList.splitOn ' ' = texts.map String.toList := by
    rw [String.toList_intercalate]
    refine List.splitOn_intercalate ' ' (List.forall_mem_map.2 solid) ?_
    rwa [ne_eq, List.map_eq_nil_iff]
  have lists : texts.map String.toList = others.map String.toList := by
    rw [← split nonempty solid, same, split nonempty' solid']
  exact (List.map_inj_right fun _ _ => String.toList_inj.1).1 lists

private theorem flatMap_pieces_eq_iff (words : List Word) :
    words.flatMap Word.pieces = words.map Word.text ↔ ∀ word ∈ words, word.IsWhole := by
  induction words with
  | nil => simp
  | cons word words ih =>
    obtain ⟨front, more, cut⟩ := List.exists_cons_of_ne_nil word.pieces_ne_nil
    rw [List.flatMap_cons, List.map_cons, List.forall_mem_cons, ← ih, ← word.pieces_eq_iff]
    constructor
    · intro same
      rw [cut, List.cons_append, List.cons.injEq] at same
      obtain ⟨rfl, same⟩ := same
      obtain rfl := word.eq_nil_of_pieces cut
      exact ⟨cut, same⟩
    · rintro ⟨own, rest⟩
      rw [own, rest]
      rfl

/-- What is shown of some words is what was written exactly when every word is one token. -/
theorem tokenPhrase_eq_iff {words : List Word} (nonempty : words ≠ []) :
    tokenPhrase words = phrase words ↔ ∀ word ∈ words, word.IsWhole := by
  rw [tokenPhrase, phrase, ← flatMap_pieces_eq_iff]
  refine intercalate_blank_inj (flatMap_pieces_ne_nil nonempty) ?_ ?_ ?_
  · rwa [ne_eq, List.map_eq_nil_iff]
  · intro piece member
    obtain ⟨word, -, inside⟩ := List.mem_flatMap.1 member
    exact word.blank_not_mem_pieces piece inside
  · exact List.forall_mem_map.2 fun word _ => word.blank_not_mem

/-- The tokens of some words, whatever stands behind them. -/
theorem exists_spells_phrase {behind : List Char} (stops : StopsName behind) (words : List Word) :
    ∃ spelled, Spells (phrase words).toList behind spelled ∧
      (∀ piece ∈ spelled, (Token.unplaced piece).isName = true) ∧
      spelled.map Prod.snd = words.flatMap Word.pieces := by
  induction words with
  | nil => exact ⟨[], .nil, List.forall_mem_nil _, rfl⟩
  | cons word words ih =>
    obtain ⟨spelled, later, named, texts⟩ := ih
    cases words with
    | nil =>
      obtain ⟨spelled, own, named, texts⟩ := Lexeme.exists_spells_pieces stops word.chars
      rw [phrase, List.map_singleton, String.intercalate_singleton, List.flatMap_singleton]
      exact ⟨spelled, own, named, texts⟩
    | cons next words =>
      have blank : StopsName (' ' :: ((phrase (next :: words)).toList ++ behind)) :=
        ⟨by rintro _ ⟨⟩; decide, rfl⟩
      obtain ⟨front, own, named', texts'⟩ := Lexeme.exists_spells_pieces blank word.chars
      have text : (phrase (word :: next :: words)).toList =
          word.text.toList ++ ' ' :: (phrase (next :: words)).toList := by
        rw [phrase, List.map_cons, List.map_cons, String.intercalate_cons_cons, phrase,
          List.map_cons]
        simp
      refine ⟨front ++ spelled, ?_, List.forall_mem_append.2 ⟨named', named⟩, ?_⟩
      · rw [text]
        exact own.append later.blank
      · rw [List.map_append, texts', texts]
        rfl

/-- A phrase begins as its first word does. -/
theorem exists_phrase {words : List Word} (nonempty : words ≠ []) :
    ∃ c text, (phrase words).toList = c :: text ∧ Token.isNameChar c = true := by
  obtain ⟨word, words, rfl⟩ := List.exists_cons_of_ne_nil nonempty
  obtain ⟨c, tail, front⟩ := List.exists_cons_of_ne_nil word.toList_ne_nil
  have own := word.chars
  rw [front, List.all_cons, Bool.and_eq_true] at own
  rw [phrase, String.toList_intercalate, List.map_cons, List.map_cons, front]
  cases words with
  | nil => exact ⟨c, tail, by simp, own.1⟩
  | cons next words =>
    rw [List.map_cons, List.map_cons, List.intercalate_cons_cons]
    exact ⟨c, _, rfl, own.1⟩

private theorem newline_not_mem_phrase (words : List Word) : '\n' ∉ (phrase words).toList := by
  intro newline
  rcases Text.mem_intercalate newline with blank | ⟨text, listed, inside⟩
  · exact absurd blank (by decide)
  · obtain ⟨word, -, rfl⟩ := List.mem_map.1 listed
    exact absurd (List.all_eq_true.1 word.chars _ inside) (by decide)

/-- Names make a label of their texts with single spaces between them. -/
theorem Label.text?_of_isName {words : List (TokenKind × String)} (nonempty : words ≠ [])
    (named : ∀ word ∈ words, (Token.unplaced word).isName = true) :
    text? (words.map Token.unplaced) = some (" ".intercalate (words.map Prod.snd)) := by
  have values : (words.map Token.unplaced).map Token.value = words.map Prod.snd := by
    rw [List.map_map]
    exact List.map_congr_left fun word member => Token.value_of_isName (named word member)
  rw [text?, values, List.isEmpty_map, List.isEmpty_eq_false_iff.2 nonempty,
    if_neg Bool.false_ne_true]

/-! ## A phrase in brackets -/

namespace Flowchart

/-- A flowchart with one node, whose label is a phrase. -/
def labelSource (words : List Word) : String :=
  "flowchart TD" ++ "\n" ++ ("A" ++ ("[" ++ phrase words ++ "]"))

/-- Some words in square brackets. -/
def bracketed (words : List (TokenKind × String)) : List (TokenKind × String) :=
  (.opening .square, "[") :: (words ++ [(.closing .square, "]")])

private theorem isInside_of_isName {bracket : Bracket} {item : Item} (named : item.isName = true)
    {line : Nat} (beside : item.line = line) : Label.isInside bracket line item = true := by
  rw [Token.isName] at named
  split at named <;> simp_all [Label.isInside, TokenKind.isArrow]

section Labelled

variable {name : WrittenName} {first : Item} {more after : List Item} {finish : Token}
  {label : List (TokenKind × String)} {line : Nat}

/-- A name with a label in square brackets behind it is a node with that label. -/
theorem run_labelled (own : NameLine name (bracketed label) line first more after)
    (free : isReserved name.front = false) (nonempty : label ≠ [])
    (named : ∀ piece ∈ label, (Token.unplaced piece).isName = true) :
    run finish none 0 0 false (first :: (more ++ after)) =
      ⟨[.node ⟨name.text, some (" ".intercalate (label.map Prod.snd)), .rectangle,
        first.position⟩], [], 0, []⟩ := by
  obtain ⟨place, pieces⟩ := own.pieces
  obtain ⟨opening, _, rfl, opens, rest⟩ := List.map_eq_cons_iff.1 own.words
  obtain ⟨words, _, rfl, worded, rest⟩ := List.map_eq_append_iff.1 rest
  obtain ⟨closing, _, rfl, closes, none⟩ := List.map_eq_cons_iff.1 rest
  obtain rfl := List.map_eq_nil_iff.1 none
  have opened : opening.kind = .opening .square := (Prod.ext_iff.1 opens).1
  -- The bracket ends the name, and the words of the label stand on its line up to the other one.
  have foreign : ∀ next ∈ (opening :: (words ++ [closing])).head?, next.isName = false := by
    rintro _ ⟨⟩
    rw [Token.isName, opened]
  have beside := own.lines opening (by simp)
  have inside : ∀ item ∈ words, Label.isInside .square opening.endLine item = true := by
    intro item member
    have piece : item.isName = true :=
      named item.word (worded ▸ List.mem_map_of_mem member)
    refine isInside_of_isName piece ?_
    rw [(own.lines item (by simp [member])).1, beside.2]
  have text : Label.ofItems? words = some (" ".intercalate (label.map Prod.snd)) := by
    rw [Label.ofItems?_eq_of_words worded, Label.text?_of_isName nonempty named]
  have bracket : labelBracket? (Items.peekName finish
      (first :: (more ++ opening :: (words ++ [closing])))).endLine opening.toToken =
        some .square := by
    rw [own.endLine_peekName foreign, labelBracket?, opened]
    exact if_pos beside.1
  have read : readNode finish (first :: (more ++ opening :: (words ++ [closing]))) =
      ⟨.node ⟨name.text, some (" ".intercalate (label.map Prod.snd)), .rectangle,
        first.position⟩, [], []⟩ := by
    unfold readNode
    dsimp only
    rw [pieces.afterName_eq foreign, Items.front, bracket]
    dsimp only
    rw [List.tail_cons, Label.read_closed inside (Prod.ext_iff.1 closes).1, text,
      pieces.value_eq foreign, String.ofList_toList, Items.position_peekName]
    rfl
  rw [run_node own free read, run_nil]
  rfl

end Labelled

/-- The label of a node is made of the tokens of its words. -/
theorem validate_labelSource {words : List Word} (nonempty : words ≠ []) : ∃ place,
    validate (labelSource words) = ⟨[], some ⟨.start, .flowchart
      ⟨some .topDown, [.node ⟨"A", some (tokenPhrase words), .rectangle, place⟩]⟩⟩⟩ := by
  have closing : StopsName [']'] := ⟨by rintro _ ⟨⟩; decide, rfl⟩
  obtain ⟨label, spelled, named, texts⟩ := @exists_spells_phrase ([']'] ++ []) closing words
  have written : label ≠ [] := by
    rintro rfl
    exact flatMap_pieces_ne_nil nonempty texts.symm
  -- A bracket is a single one, for no word begins with a bracket.
  have opens : Spells ['['] ((phrase words).toList ++ [']'] ++ []) [(.opening .square, "[")] := by
    obtain ⟨c, text, front, own⟩ := exists_phrase nonempty
    refine .opening_square ?_
    rw [front]
    rintro _ ⟨⟩ rfl
    exact absurd own (by decide)
  have tail : Spells ("[" ++ phrase words ++ "]").toList [] (bracketed label) := by
    have whole := opens.append (Spells.append spelled .closing_square)
    simpa [bracketed] using whole
  have quiet : ∀ word ∈ bracketed label, IsQuiet word := by
    refine List.forall_mem_cons.2 ⟨isQuiet_of_kind (by simp) _, ?_⟩
    refine List.forall_mem_append.2 ⟨fun word member => isQuiet_of_isName (named word member), ?_⟩
    exact List.forall_mem_singleton.2 (isQuiet_of_kind (by simp) _)
  have stops : StopsName ("[" ++ phrase words ++ "]").toList := by
    rw [String.toList_append, String.toList_append]
    exact ⟨by rintro _ ⟨⟩; decide, rfl⟩
  obtain ⟨head, clean, settled⟩ := items_headerLine
  obtain ⟨first, more, after, items, lexical, own⟩ :=
    exists_nameLine ⟨"A", by decide, by decide⟩ stops tail quiet
      (by simp [newline_not_mem_phrase]) settled
  rw [head] at items
  rw [clean] at lexical
  have read := @run_labelled _ first more after (Layout.finish (labelSource words)) label _ own
    (by decide) written named
  rw [texts] at read
  refine ⟨first.position, ?_⟩
  rw [labelSource, validate_of_headerLine items rfl rfl rfl lexical read, Diagram.readAll_nil]
  exact congrArg (Verdict.mk · _) Diagnostic.inSourceOrder_nil

end Flowchart

/-! ## A phrase that is said -/

namespace Sequence

/-- A sequence diagram with one message, which says a phrase. -/
def phraseSource (words : List Word) : String :=
  "sequenceDiagram" ++ "\n" ++ ("A->>B: " ++ phrase words)

/-- The text of a message is made of the tokens of its words. -/
theorem ofSource?_phraseSource {words : List Word} (nonempty : words ≠ []) :
    ofSource? (phraseSource words) =
      some (ofStatements [.message ⟨"A", "B", tokenPhrase words, .solid⟩]) := by
  have nothing : StopsName [] := ⟨nofun, rfl⟩
  obtain ⟨said, spelled, named, texts⟩ := exists_spells_phrase nothing words
  have written : said ≠ [] := by
    rintro rfl
    exact flatMap_pieces_ne_nil nonempty texts.symm
  have sender := spells_sender .shortOpen ('B' :: ':' :: ' ' :: (phrase words).toList ++ [])
  rw [← List.append_assoc] at sender
  have arrow : Spells "->>".toList ('B' :: ':' :: ' ' :: (phrase words).toList ++ [])
      [(.arrow .shortOpen, "->>")] :=
    Mark.shortOpen.spells (by rintro _ ⟨⟩; decide)
  have receiver : Spells ['B'] (':' :: ' ' :: (phrase words).toList ++ [])
      [(.identifier, "B")] :=
    .of_word (by decide) (.cons (by decide) (by decide) _)
  -- The words of the line are those of its pieces: sender, arrow, receiver, and what is said.
  have line : Spells ("A->>B: " ++ phrase words).toList []
      (messageLine .shortOpen none (.identifier, "B") said) := by
    rw [String.toList_append]
    exact sender.append (arrow.append (receiver.append ((spells_colon _).append spelled.blank)))
  have single : '\n' ∉ ("A->>B: " ++ phrase words).toList := by
    simp [newline_not_mem_phrase]
  have saying : sayingOf said = tokenPhrase words := by
    have read : said.filter Layout.isRead = said :=
      List.filter_eq_self.2 fun word member => Layout.isRead_of_isName (named word member)
    rw [sayingOf, read, Label.text?_of_isName written named, texts]
    rfl
  have message := ofSource?_message single line (.inl rfl) (by decide)
  rw [saying] at message
  exact message

end Sequence

/-! ## What is kept of a phrase -/

/-- A phrase is read as the label of the only node and as the text of the only message, with a
space between any two tokens. It is read as it is written exactly when each of its words is written
in ASCII or is a single character. -/
theorem words_kept_iff {words : List Word} (nonempty : words ≠ []) : ∃ shown place,
    validate (Flowchart.labelSource words) = ⟨[], some ⟨.start, .flowchart
        ⟨some .topDown, [.node ⟨"A", some shown, .rectangle, place⟩]⟩⟩⟩ ∧
      Sequence.ofSource? (Sequence.phraseSource words) =
        some (Sequence.ofStatements [.message ⟨"A", "B", shown, .solid⟩]) ∧
      (shown = phrase words ↔ ∀ word ∈ words, word.IsWhole) := by
  obtain ⟨place, labelled⟩ := Flowchart.validate_labelSource nonempty
  exact ⟨tokenPhrase words, place, labelled, Sequence.ofSource?_phraseSource nonempty,
    tokenPhrase_eq_iff nonempty⟩

/-- Words of other scripts are kept as they are written when no word has to be cut. -/
theorem words_kept_iff_scripts : ([⟨"日", by decide, by decide +kernel⟩,
      ⟨"1st", by decide, by decide +kernel⟩] : List Word) ≠ [] ∧ ∃ place,
    validate "flowchart TD\nA[日 1st]" = ⟨[], some ⟨.start, .flowchart
        ⟨some .topDown, [.node ⟨"A", some "日 1st", .rectangle, place⟩]⟩⟩⟩ ∧
      Sequence.ofSource? "sequenceDiagram\nA->>B: 日 1st" =
        some (Sequence.ofStatements [.message ⟨"A", "B", "日 1st", .solid⟩]) := by
  refine ⟨nofun, ?_⟩
  obtain ⟨shown, place, labelled, said, kept⟩ := @words_kept_iff
    [⟨"日", by decide, by decide +kernel⟩, ⟨"1st", by decide, by decide +kernel⟩] nofun
  obtain rfl := kept.2 (by
    rintro word (_ | ⟨_, _ | ⟨_, absent⟩⟩)
    · exact .inr (by decide)
    · exact .inl (by decide)
    · cases absent)
  exact ⟨place, labelled, said⟩

/-- The label `Café` is shown as `Caf é`. -/
theorem word_not_kept : ¬ ∀ words : List Word, words ≠ [] → ∃ place,
    validate (Flowchart.labelSource words) = ⟨[], some ⟨.start, .flowchart
        ⟨some .topDown, [.node ⟨"A", some (phrase words), .rectangle, place⟩]⟩⟩⟩ ∧
      Sequence.ofSource? (Sequence.phraseSource words) =
        some (Sequence.ofStatements [.message ⟨"A", "B", phrase words, .solid⟩]) := by
  intro kept
  obtain ⟨place, -, said⟩ := kept [⟨"Café", by decide, by decide +kernel⟩] nofun
  exact absurd said (by decide +kernel)

end DiagramCheck
