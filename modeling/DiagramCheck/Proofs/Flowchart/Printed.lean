/-
# The tokens of a printed drawing

Every row of a drawing is read as the words it was printed from, whatever its names
and captions are. A shape is written with a bracket and a stroke with an arrow, from
which the reader tells them again, and the words that a drawing does not take for
names are those that the reader takes for something else.

`Spells` says what a piece of a row is read as, given what stands behind it, and
pieces are put together as they were printed. A row is a single line of quiet words,
so the items of a whole drawing are those of its rows, each below the ones before it.

Main statement: `rows_print`.
-/

import DiagramCheck.Decoration.Basic
import DiagramCheck.Proofs.Flowchart.Drawing
import DiagramCheck.Proofs.Layout.Rows

namespace DiagramCheck

open Layout
open Lexeme (Leads StopsWord)

/-! ## Brackets and arrows -/

/-- The bracket that a shape is written with. -/
def Shape.bracket : Shape → Bracket
  | .rectangle => .square
  | .round => .round
  | .diamond => .curly
  | .circle => .doubleRound
  | .subroutine => .doubleSquare
  | .hexagon => .doubleCurly

theorem Shape.ofBracket_bracket (shape : Shape) : ofBracket shape.bracket = shape := by
  cases shape <;> rfl

/-- The arrow that a stroke is written with. -/
def Stroke.arrow : Stroke → Arrow
  | .plain => .plain
  | .dotted => .dotted
  | .thick => .thick
  | .line => .line

theorem Stroke.ofArrow_arrow (stroke : Stroke) : ofArrow stroke.arrow = stroke := by
  cases stroke <;> rfl

theorem Stroke.isLink_arrow (stroke : Stroke) : stroke.arrow.isLink = true := by
  cases stroke <;> rfl

/-! ## Words that are taken -/

namespace Flowchart

private theorem ofWord_of_mem_flowchartWords {word : String}
    (listed : inSmallLetters word ∈ flowchartWords) :
    TokenKind.ofWord word = .header .flowchart := by
  unfold TokenKind.ofWord TokenKind.keyword?
  rcases List.mem_pair.1 listed with small | small <;> rw [← inSmallLetters, small] <;> rfl

private theorem isHeader_ofWord_eq_false {word : String}
    (unlisted : inSmallLetters word ∉ flowchartWords ++ otherHeaderWords) :
    (TokenKind.ofWord word).isHeader = false := by
  unfold TokenKind.ofWord TokenKind.keyword?
  rw [← inSmallLetters]
  -- Each keyword of the reader is among the listed words, and what is no keyword is a name.
  split
  all_goals first
    | rfl
    | next small => exact absurd (by rw [small]; decide) unlisted

private theorem ofKeyword?_eq_none {word : String} (unlisted : word ∉ decorationWords) :
    Decoration.ofKeyword? word = none := by
  unfold Decoration.ofKeyword?
  split
  all_goals first
    | rfl
    | exact absurd (by decide) unlisted

/-- A word that the reader takes for nothing but a name. -/
structure IsUntaken (word : String) : Prop where
  letter : word.toList.head?.any Char.isAlpha = true
  letters : word.toList.all Lexeme.isWordChar = true
  unheaded : (TokenKind.ofWord word).isHeader = false
  unopened : word ≠ "subgraph"
  unclosed : inSmallLetters word ≠ "end"
  undecorated : Decoration.ofKeyword? word = none

private theorem isUntaken_of_isFreeName {word : String} (free : isFreeName word = true) :
    IsUntaken word := by
  simp only [isFreeName, Bool.and_eq_true, Bool.not_eq_true', bne_iff_ne,
    List.contains_eq_mem, decide_eq_false_iff_not] at free
  obtain ⟨⟨⟨⟨⟨letter, letters⟩, unheaded⟩, unopened⟩, unclosed⟩, undecorated⟩ := free
  exact ⟨letter, letters, isHeader_ofWord_eq_false unheaded, unopened, unclosed,
    ofKeyword?_eq_none undecorated⟩

namespace Drawing

/-! ## Pieces of a row -/

/-- A way to write a stroke leads what stands behind it as its arrow. -/
theorem leads_spelling {stroke : Stroke} {mark : String} (spelled : mark ∈ stroke.spellings)
    {c : Char} (text : List Char) (stops : c = ' ' ∨ c = '|') :
    Lexeme.Leads (.arrow stroke.arrow) mark.toList (c :: text) := by
  cases stroke with
  | plain | thick | line =>
    obtain rfl := List.mem_singleton.1 spelled
    rcases stops with rfl | rfl <;> exact ⟨_, _, rfl, rfl, rfl⟩
  | dotted =>
    -- A dotted link has one dot or two.
    rcases List.mem_pair.1 spelled with rfl | rfl
    all_goals rcases stops with rfl | rfl <;> exact ⟨_, _, rfl, rfl, rfl⟩

private theorem leads_opening (shape : Shape) (text : List Char) :
    Lexeme.Leads (.opening shape.bracket) shape.opening.toList ('"' :: text) := by
  cases shape <;> exact ⟨_, _, rfl, rfl, rfl⟩

private theorem leads_closing (shape : Shape) {behind : List Char}
    (ends : ∀ c ∈ behind.head?, c = ' ') :
    Lexeme.Leads (.closing shape.bracket) shape.closing.toList behind := by
  cases behind with
  | nil => cases shape <;> exact ⟨_, _, rfl, rfl, rfl⟩
  | cons c behind =>
    obtain rfl := ends c rfl
    cases shape <;> exact ⟨_, _, rfl, rfl, rfl⟩

private theorem leads_pipe (behind : List Char) : Lexeme.Leads .pipe ['|'] behind :=
  ⟨_, _, rfl, rfl, rfl⟩

private theorem spellsTail_of_all {text : List Char} (letters : text.all Lexeme.isWordChar = true) :
    Lexeme.spellsTail text = true := by
  induction text with
  | nil => rfl
  | cons c text ih =>
    rw [List.all_cons, Bool.and_eq_true] at letters
    rw [Lexeme.spellsTail, letters.1, ih letters.2]
    rfl

theorem Name.isUntaken (name : Name) : IsUntaken name.text := isUntaken_of_isFreeName name.free

theorem Name.spellsWord (name : Name) : Lexeme.spellsWord name.text.toList = true := by
  obtain ⟨letter, letters⟩ := name.isUntaken
  cases text : name.text.toList with
  | nil =>
    rw [text] at letter
    cases letter
  | cons c tail =>
    rw [text] at letter letters
    rw [List.all_cons, Bool.and_eq_true] at letters
    rw [Lexeme.spellsWord, spellsTail_of_all letters.2, Bool.and_true]
    exact letter

/-! ## The words of a row -/

/-- The word of a name. -/
def Name.word (name : Name) : TokenKind × String := (.ofWord name.text, name.text)

/-- The word of a caption. -/
def Caption.word (caption : Caption) : TokenKind × String := (.string, caption.print)

/-- The words of a node. -/
def Node.words (node : Node) : List (TokenKind × String) :=
  node.name.word :: node.label.toList.flatMap fun (shape, caption) =>
    [(.opening shape.bracket, shape.opening), caption.word, (.closing shape.bracket, shape.closing)]

/-- The words of a link. -/
def Link.words (link : Link) : List (TokenKind × String) :=
  (.arrow link.stroke.arrow, link.mark) :: link.label.toList.flatMap fun caption =>
    [(.pipe, "|"), caption.word, (.pipe, "|")]

/-- The words of the links of a chain and the nodes they lead to. -/
def restWords : List (Link × Node) → List (TokenKind × String)
  | [] => []
  | (link, node) :: rest => link.words ++ (node.words ++ restWords rest)

/-- The words of a row. -/
def Row.words : Row → List (TokenKind × String)
  | .header word direction =>
    (.header .flowchart, word.text) ::
      direction.toList.map fun direction => (.identifier, direction.keyword)
  | .chain first rest => first.words ++ restWords rest
  | .opening name title =>
    (.identifier, "subgraph") :: name.word :: title.toList.flatMap fun title =>
      [(.opening .square, "["), title.word, (.closing .square, "]")]
  | .closing => [(.identifier, "end")]

theorem Name.spells (name : Name) {behind : List Char} (stops : StopsWord behind) :
    Spells name.text.toList behind [name.word] := by
  have spelled := Spells.of_word name.spellsWord stops
  rwa [String.ofList_toList] at spelled

theorem Caption.toList_print (caption : Caption) :
    caption.print.toList = '"' :: (caption.text.toList ++ ['"']) :=
  Text.toList_quoted caption.text

theorem Caption.spells (caption : Caption) (behind : List Char) :
    Spells caption.print.toList behind [caption.word] :=
  .quoted caption.unquoted behind

private theorem spells_spelling {stroke : Stroke} {mark : String}
    (spelled : mark ∈ stroke.spellings)
    {c : Char} (text : List Char) (stops : c = ' ' ∨ c = '|') :
    Spells mark.toList (c :: text) [(.arrow stroke.arrow, mark)] := by
  have read := Spells.of_leads (leads_spelling spelled text stops) nofun
  rwa [String.ofList_toList] at read

private theorem spells_pipe (behind : List Char) : Spells ['|'] behind [(.pipe, "|")] :=
  Spells.of_leads (leads_pipe behind) nofun

private theorem stopsWord_of_ends {behind : List Char} (ends : ∀ c ∈ behind.head?, c = ' ') :
    StopsWord behind := by
  intro c front
  rw [ends c front]
  decide

/-- A caption in the brackets of a shape. -/
theorem spells_label (shape : Shape) (caption : Caption) {behind : List Char}
    (ends : ∀ c ∈ behind.head?, c = ' ') :
    Spells (shape.opening.toList ++ (caption.print.toList ++ shape.closing.toList)) behind
      [(.opening shape.bracket, shape.opening), caption.word,
        (.closing shape.bracket, shape.closing)] := by
  have opening : Spells shape.opening.toList
      (caption.print.toList ++ shape.closing.toList ++ behind)
      [(.opening shape.bracket, shape.opening)] := by
    rw [caption.toList_print]
    have spelled := Spells.of_leads (leads_opening shape
      (caption.text.toList ++ ['"'] ++ shape.closing.toList ++ behind)) nofun
    rwa [String.ofList_toList] at spelled
  have closing := Spells.of_leads (leads_closing shape ends) nofun
  rw [String.ofList_toList] at closing
  exact opening.append ((caption.spells _).append closing)

private theorem stopsWord_opening (shape : Shape) (behind : List Char) :
    StopsWord (shape.opening.toList ++ behind) := by
  cases shape <;> exact StopsWord.cons (by decide) (by decide) _

theorem Node.spells (node : Node) {behind : List Char} (ends : ∀ c ∈ behind.head?, c = ' ') :
    Spells node.print.toList behind node.words := by
  obtain ⟨name, _ | ⟨shape, caption⟩⟩ := node
  · exact name.spells (stopsWord_of_ends ends)
  · simp only [Node.print, String.toList_append, List.append_assoc]
    refine (name.spells ?_).append (spells_label shape caption ends)
    rw [List.append_assoc]
    exact stopsWord_opening shape _

theorem Link.spells (link : Link) (behind : List Char) :
    Spells link.print.toList (' ' :: behind) link.words := by
  obtain ⟨stroke, mark, spelled, _ | caption⟩ := link
  · exact spells_spelling spelled behind (.inl rfl)
  · simp only [Link.print, String.toList_append, List.append_assoc]
    exact (spells_spelling spelled _ (.inr rfl)).append
      ((spells_pipe _).append ((caption.spells _).append (spells_pipe _)))

/-- The links of a chain and the nodes they lead to, as they are written. -/
def restText : List (Link × Node) → List Char
  | [] => []
  | (link, node) :: rest =>
    ' ' :: (link.print.toList ++ ' ' :: (node.print.toList ++ restText rest))

private theorem head?_restText (rest : List (Link × Node)) :
    ∀ c ∈ (restText rest).head?, c = ' ' := by
  cases rest with
  | nil => exact fun _ absent => by cases absent
  | cons => exact fun _ front => (Option.some.inj front).symm

private theorem spells_restText (rest : List (Link × Node)) :
    Spells (restText rest) [] (restWords rest) := by
  induction rest with
  | nil => exact .nil
  | cons step rest ih =>
    obtain ⟨link, node⟩ := step
    have behind : ∀ c ∈ (restText rest ++ []).head?, c = ' ' := by
      rw [List.append_nil]
      exact head?_restText rest
    exact ((link.spells _).append ((node.spells behind).append ih).blank).blank

private theorem toList_print_chain (first : Node) (rest : List (Link × Node)) :
    (Row.chain first rest).print.toList = first.print.toList ++ restText rest := by
  rw [Row.print, String.toList_append, String.toList_join, List.flatMap_map]
  congr 1
  induction rest with
  | nil => rfl
  | cons step rest ih =>
    rw [List.flatMap_cons, ih, restText]
    simp

private theorem HeaderWord.ofWord_eq (word : HeaderWord) :
    TokenKind.ofWord word.text = .header .flowchart := ofWord_of_mem_flowchartWords word.header

theorem HeaderWord.spells (word : HeaderWord) {behind : List Char} (stops : StopsWord behind) :
    Spells word.text.toList behind [(.header .flowchart, word.text)] := by
  have named : TokenKind.ofWord word.text ≠ .identifier := by rw [word.ofWord_eq]; nofun
  have spelled := Spells.of_word (Lexeme.spellsWord_of_keyword named) stops
  rwa [String.ofList_toList, word.ofWord_eq] at spelled

private theorem spells_header (word : HeaderWord) (direction : Option Direction) :
    Spells (Row.header word direction).print.toList [] (Row.header word direction).words := by
  cases direction with
  | none => exact word.spells .nil
  | some direction =>
    have spelled : Spells direction.keyword.toList [] [(.identifier, direction.keyword)] := by
      cases direction <;> exact Spells.of_word (by decide) .nil
    rw [Row.print, String.toList_append, String.toList_append, List.append_assoc]
    exact (word.spells (.blank _)).append spelled.blank

private theorem spells_opening (name : Name) (title : Option Caption) :
    Spells (Row.opening name title).print.toList [] (Row.opening name title).words := by
  have keyword (behind : List Char) :
      Spells "subgraph".toList (' ' :: behind) [(.identifier, "subgraph")] :=
    Spells.of_word (by decide) (.blank _)
  cases title with
  | none =>
    have text : (Row.opening name none).print.toList =
        "subgraph".toList ++ ' ' :: name.text.toList := by
      rw [Row.print, String.toList_append]
      rfl
    rw [text]
    exact (keyword _).append (name.spells .nil).blank
  | some title =>
    have text : (Row.opening name (some title)).print.toList = "subgraph".toList ++
        ' ' :: (name.text.toList ++ ' ' :: (Shape.rectangle.opening.toList ++
          (title.print.toList ++ Shape.rectangle.closing.toList))) := by
      simp only [Row.print, String.toList_append, List.append_assoc]
      rfl
    -- The blank behind the name ends it, and the title ends with the row.
    rw [text]
    refine (keyword _).append (((name.spells (.blank _)).append
      (spells_label .rectangle title ?_).blank).blank)
    exact fun _ absent => by cases absent

/-- The words of a row can be read off it when nothing stands behind it. -/
theorem Row.spells (row : Row) : Spells row.print.toList [] row.words := by
  cases row with
  | header word direction => exact spells_header word direction
  | chain first rest =>
    rw [toList_print_chain]
    refine (first.spells ?_).append (spells_restText rest)
    rw [List.append_nil]
    exact head?_restText rest
  | opening name title => exact spells_opening name title
  | closing => exact Spells.of_word (by decide) .nil

/-! ## The rows of a drawing -/

theorem Caption.newline_not_mem (caption : Caption) : '\n' ∉ caption.print.toList := by
  rw [caption.toList_print]
  simp [caption.single]

theorem Name.newline_not_mem (name : Name) : '\n' ∉ name.text.toList :=
  Lexeme.newline_not_mem_of_spellsWord name.spellsWord

private theorem newline_not_mem_shape (shape : Shape) :
    '\n' ∉ shape.opening.toList ∧ '\n' ∉ shape.closing.toList := by
  cases shape <;> decide

private theorem newline_not_mem_spelling {stroke : Stroke} :
    ∀ mark ∈ stroke.spellings, '\n' ∉ mark.toList := by
  cases stroke <;> decide

theorem Node.newline_not_mem (node : Node) : '\n' ∉ node.print.toList := by
  obtain ⟨name, _ | ⟨shape, caption⟩⟩ := node
  · exact name.newline_not_mem
  · simp [Node.print, name.newline_not_mem, caption.newline_not_mem, newline_not_mem_shape shape]

theorem Link.newline_not_mem (link : Link) : '\n' ∉ link.print.toList := by
  obtain ⟨stroke, mark, spelled, _ | caption⟩ := link
  · exact newline_not_mem_spelling mark spelled
  · simp [Link.print, newline_not_mem_spelling mark spelled, caption.newline_not_mem]

/-- A row is a single line. -/
theorem Row.newline_not_mem (row : Row) : '\n' ∉ row.print.toList := by
  cases row with
  | header word direction =>
    have own : '\n' ∉ word.text.toList :=
      Lexeme.newline_not_mem_of_spellsWord
        (Lexeme.spellsWord_of_keyword (by rw [word.ofWord_eq]; nofun))
    cases direction with
    | none => exact own
    | some direction =>
      have written : '\n' ∉ direction.keyword.toList := by cases direction <;> decide
      simp [Row.print, own, written]
  | chain first rest =>
    rw [toList_print_chain, List.mem_append, not_or]
    refine ⟨first.newline_not_mem, ?_⟩
    induction rest with
    | nil => exact List.not_mem_nil
    | cons step rest ih =>
      obtain ⟨link, node⟩ := step
      simp [restText, link.newline_not_mem, node.newline_not_mem, ih]
  | opening name title =>
    cases title with
    | none => simp [Row.print, name.newline_not_mem]
    | some title => simp [Row.print, name.newline_not_mem, title.newline_not_mem]
  | closing => decide

theorem Name.isQuiet (name : Name) : IsQuiet name.word := by
  rcases TokenKind.ofWord_cases name.text with word | word | ⟨family, word⟩
  all_goals
    rw [Name.word, word]
    exact isQuiet_of_kind (by simp) _

theorem Caption.isQuiet (caption : Caption) : IsQuiet caption.word := isQuiet_quoted caption.text

theorem Node.isQuiet (node : Node) : ∀ word ∈ node.words, IsQuiet word := by
  obtain ⟨name, _ | ⟨shape, caption⟩⟩ := node
  · simp [Node.words, name.isQuiet]
  · simp [Node.words, name.isQuiet, caption.isQuiet, isQuiet_of_kind]

theorem Link.isQuiet (link : Link) : ∀ word ∈ link.words, IsQuiet word := by
  obtain ⟨stroke, mark, spelled, _ | caption⟩ := link
  · simp [Link.words, isQuiet_of_kind]
  · simp [Link.words, caption.isQuiet, isQuiet_of_kind]

theorem Row.isQuiet (row : Row) : ∀ word ∈ row.words, IsQuiet word := by
  cases row with
  | header word direction => cases direction <;> simp [Row.words, isQuiet_of_kind]
  | chain first rest =>
    refine List.forall_mem_append.2 ⟨first.isQuiet, ?_⟩
    induction rest with
    | nil => exact fun _ absent => by cases absent
    | cons step rest ih =>
      exact List.forall_mem_append.2
        ⟨step.1.isQuiet, List.forall_mem_append.2 ⟨step.2.isQuiet, ih⟩⟩
  | opening name title =>
    cases title with
    | none => simp [Row.words, name.isQuiet, isQuiet_of_kind]
    | some title => simp [Row.words, name.isQuiet, title.isQuiet, isQuiet_of_kind]
  | closing => simp [Row.words, isQuiet_of_kind]

/-! ## Rows below each other -/

/-- Items that are those of some rows, the first of which stands on `line`. -/
inductive Rows : Nat → List Row → List Item → Prop
  | nil {line : Nat} : Rows line [] []
  | cons {line : Nat} {row : Row} {rows : List Row} {own items : List Item}
      (first : OnRow line row.words own) (later : Rows (line + 1) rows items)
      (above : Items.Above own items) : Rows line (row :: rows) (own ++ items)

/-- Rows lie on the lines behind those before them. -/
theorem Rows.append {start : Nat} {rows rows' : List Row} {items : List Item}
    (laid : Rows start (rows ++ rows') items) :
    ∃ front behind, items = front ++ behind ∧ Rows start rows front ∧
      Rows (start + rows.length) rows' behind ∧ Items.Above front behind := by
  induction rows generalizing start items with
  | nil => exact ⟨[], items, rfl, .nil, laid, List.forall_mem_nil _⟩
  | cons row rows ih =>
    rw [List.cons_append] at laid
    cases laid with
    | cons first later above =>
      obtain ⟨front, behind, rfl, upper, lower, apart⟩ := ih later
      refine ⟨_ ++ front, behind, (List.append_assoc ..).symm,
        .cons first upper fun item member next beside => above item member next ?_, ?_, ?_⟩
      · exact List.mem_append_left _ beside
      · rwa [List.length_cons, Nat.add_comm rows.length, ← Nat.add_assoc]
      · refine List.forall_mem_append.2 ⟨fun item member next beside => ?_, apart⟩
        exact above item member next (List.mem_append_right _ beside)

/-- The only row of a line is read on that line. -/
theorem Rows.onRow {start : Nat} {row : Row} {items : List Item} (laid : Rows start [row] items) :
    OnRow start row.words items := by
  cases laid with
  | cons first later above =>
    cases later
    rwa [List.append_nil]

private theorem rows_of_stacked {line : Nat} {rows : List Row} {items : List Item}
    (laid : Stacked Row.print (fun line row => OnRow line row.words) line rows items) :
    Rows line rows items := by
  induction laid with
  | nil => exact .nil
  | @cons line row rows items later first below above ih =>
    rw [List.count_eq_zero.2 row.newline_not_mem] at ih
    exact .cons first ih above

/-- The items of some printed rows are those of each row, and no rule for comments, strings and
directives objects to them. -/
theorem rows_print (rows : List Row) :
    Rows 1 rows (items (Token.tokenize ("\n".intercalate (rows.map Row.print)))) ∧
      lexicalDiagnostics (Token.tokenize ("\n".intercalate (rows.map Row.print))) = [] :=
  (stacked_print (fun exact row => row.moved exact) Row.spells Row.isQuiet
    (fun row => onRow_of_spells row.spells row.isQuiet row.newline_not_mem) rows).imp_left
      rows_of_stacked

end Drawing

end Flowchart

end DiagramCheck
