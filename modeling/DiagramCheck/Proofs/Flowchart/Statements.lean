/-
# Statements of one line

A chain is a statement made of plain ids and the links between them. A style, a
class, a class definition, a click and a default link style are statements that take
whatever their line holds. Both are given here by the words they are written with,
so blanks do not matter.

A chain is read up to what ends it, which is a semicolon or the end of its line, and
gives its nodes and links whatever stands behind. A decoration takes the rest of its
line and gives nothing but a report of what is wrong with it.
-/

import DiagramCheck.Proofs.Diagram.Names
import DiagramCheck.Proofs.Layout.Plain

namespace DiagramCheck.Flowchart

/-! ## Words of statements -/

/-- A word or a number of ASCII that is the id of a node wherever it stands. -/
structure PlainId where
  kind : TokenKind
  text : String
  word : kind = .ofWord text ∨ kind = .number
  starts : text.toList.head?.any Lexeme.isWordChar = true
  free : isReserved text = false

/-- The id as a word. -/
def PlainId.toWord (id : PlainId) : TokenKind × String := (id.kind, id.text)

/-- A link, perhaps with the words of a label between pipes, and the id that it leads to. -/
structure Leg where
  shape : Arrow
  mark : String
  joins : shape.isLink = true
  label : Option (List (TokenKind × String))
  unpiped : ∀ word ∈ label.getD [], word.1 ≠ .pipe
  target : PlainId

namespace Leg

/-- The words of a link. -/
def linkWords (leg : Leg) : List (TokenKind × String) :=
  (.arrow leg.shape, leg.mark) :: match leg.label with
    | none => []
    | some label => (.pipe, "|") :: (label ++ [(.pipe, "|")])

/-- The words of a link and of the id it leads to. -/
def words (leg : Leg) : List (TokenKind × String) := leg.linkWords ++ [leg.target.toWord]

/-- The text of a label. -/
def labelText (leg : Leg) : Option String :=
  leg.label.bind fun label =>
    Label.text? (label.map fun word => ⟨word.1, word.2, .start⟩)

/-- What is drawn for a link and the id it leads to. -/
def elements (leg : Leg) : List Element :=
  [.link ⟨some leg.target.text, leg.labelText, .ofArrow leg.shape, .start⟩,
    .node ⟨leg.target.text, none, .rectangle, .start⟩]

end Leg

/-- The decorations that a flowchart takes unread up to the end of the line, or nearly so. -/
def takesLine (decoration : Decoration) (rest : List (TokenKind × String)) : Bool :=
  match decoration with
  | .style | .classAssignment | .classDefinition | .click => true
  | .linkStyle => rest.head?.any (·.2 == "default")
  | .direction | .note | .title => false

/-- A statement by its words: a chain of ids, or a decoration with the rest of its line. -/
inductive Form
  | chain (first : PlainId) (legs : List Leg)
  | decoration (own : Decoration) (rest : List (TokenKind × String))
      (plain : takesLine own rest = true)

namespace Form

/-- Whether a statement is a chain. -/
def isChain : Form → Bool
  | .chain _ _ => true
  | .decoration _ _ _ => false

/-- The words of a statement. -/
def words : Form → List (TokenKind × String)
  | .chain first legs => first.toWord :: legs.flatMap Leg.words
  | .decoration own rest _ => (.identifier, own.keyword) :: rest

/-- What is drawn for a statement. -/
def elements : Form → List Element
  | .chain first legs => .node ⟨first.text, none, .rectangle, .start⟩ :: legs.flatMap Leg.elements
  | .decoration _ _ _ => []

/-- What is reported for a statement when its line goes on with some words. -/
def report (behind : List (TokenKind × String)) : Form → List Code
  | .chain _ _ => []
  | .decoration .classDefinition rest _ =>
    if (rest ++ behind).isEmpty then [.parseError]
    else if (rest ++ behind).any (·.1 == .equals) then [.unsupportedClassdefEqualsSyntax]
    else []
  | .decoration _ _ _ => []

end Form

/-! ## Items of ids -/

section Item

variable {id : PlainId} {item : Item} (same : item.word = id.toWord)

include same

theorem PlainId.text_item : item.text = id.text := (Prod.ext_iff.1 same).2

theorem PlainId.kind_item :
    item.kind = .identifier ∨ item.kind = .participant ∨ item.kind = .number := by
  have kind : item.kind = id.kind := (Prod.ext_iff.1 same).1
  have free := id.free
  simp only [isReserved, Bool.or_eq_false_iff] at free
  rcases id.word with word | number
  · rcases TokenKind.ofWord_cases id.text with plain | declares | ⟨family, header⟩
    · exact .inl (kind.trans (word.trans plain))
    · exact .inr (.inl (kind.trans (word.trans declares)))
    · -- A header word is reserved.
      have unheaded := free.1.1.1
      rw [header] at unheaded
      cases unheaded
  · exact .inr (.inr (kind.trans number))

theorem PlainId.isName_item : item.isName = true := by
  have starts : item.text.toList.head?.any Token.startsName = true := by
    rw [PlainId.text_item same]
    have starts := id.starts
    cases text : id.text.toList with
    | nil =>
      rw [text] at starts
      cases starts
    | cons c tail =>
      rw [text] at starts
      have letter : Lexeme.isWordChar c = true := starts
      have own : Token.isNameChar c = true := by
        rw [Token.isNameChar, letter, Bool.true_or]
      exact Token.startsName_of_isNameChar own
  rcases PlainId.kind_item same with kind | kind | kind
  · rw [Token.isName, kind]
    exact starts
  · rw [Token.isName, kind]
  · rw [Token.isName, kind]

theorem PlainId.value_item : item.value = id.text :=
  (Token.value_of_isName (PlainId.isName_item same)).trans (PlainId.text_item same)

theorem PlainId.reserved_item : item.closesSubgraph = false ∧ item.opensSubgraph = false := by
  have free := id.free
  simp only [isReserved, Bool.or_eq_false_iff] at free
  obtain ⟨⟨⟨-, stays⟩, shut⟩, -⟩ := free
  rw [Token.closesSubgraph, Token.isWordIgnoringCase, Token.opensSubgraph, Token.isWord,
    PlainId.text_item same, stays, shut, Bool.and_false]
  exact ⟨rfl, rfl⟩

theorem PlainId.isNodeName_item : item.isNodeName = true := by
  rw [Token.isNodeName, PlainId.isName_item same, (PlainId.reserved_item same).1,
    (PlainId.reserved_item same).2]
  rfl

theorem PlainId.undecorated_item : item.decoration? = none := by
  have free := id.free
  simp only [isReserved, Bool.or_eq_false_iff] at free
  have none : Decoration.ofKeyword? id.text = none := by
    rw [← Option.isNone_iff_eq_none, ← Option.isSome_eq_false_iff]
    exact free.2
  rw [Item.decoration?, PlainId.text_item same, none, ite_self]

theorem PlainId.isBoundary_item : isBoundary item = false := by
  rcases PlainId.kind_item same with kind | kind | kind <;> exact isBoundary_of_kind kind rfl

end Item

/-! ## Reading chains -/

/-- What may stand behind an id: an arrow, a semicolon, or something further down. -/
def EndsId (item : Item) (after : List Item) : Prop :=
  ∀ next ∈ after.head?, next.kind.isArrow = true ∨ next.kind = .semicolon ∨
    item.endLine < next.line ∧ item.stop < next.offset

section Chain

variable {finish : Token} {line links : Nat} {hasSource : Bool}

theorem EndsId.alone {item : Item} {after : List Item} (ends : EndsId item after) :
    ∀ next ∈ after.head?, next.isName = true → next.offset ≠ item.stop := by
  intro next front named
  rcases ends next front with arrow | semicolon | below
  · unfold TokenKind.isArrow at arrow
    split at arrow
    · next kind =>
      rw [Token.isName, kind] at named
      cases named
    · cases arrow
  · rw [Token.isName, semicolon] at named
    cases named
  · exact below.2.ne'

theorem EndsId.labelBracket?_eq {item : Item} {after : List Item} (ends : EndsId item after)
    (finished : finish.kind = .endOfInput) :
    labelBracket? item.endLine (Items.front finish after) = none := by
  cases after with
  | nil => simp only [labelBracket?, Items.front, finished]
  | cons next after =>
    unfold labelBracket?
    split
    · next bracket kind =>
      have kind : next.kind = .opening bracket := kind
      rcases ends next rfl with arrow | semicolon | below
      · rw [kind] at arrow
        cases arrow
      · rw [kind] at semicolon
        cases semicolon
      · rw [Items.front, if_neg below.1.ne']
    · rfl

/-- An id is read as a node without a label. -/
theorem PlainId.run_eq {id : PlainId} (finished : finish.kind = .endOfInput) {item : Item}
    {after : List Item} (same : item.word = id.toWord) (ends : EndsId item after) :
    run finish none 0 links hasSource (item :: after) =
      (run finish none 0 links true after).prependAll
        [.node ⟨id.text, none, .rectangle, item.position⟩] := by
  obtain ⟨peek, behind⟩ := Items.peekName_alone ends.alone finish
  have read : readPlain finish links hasSource item after = _ :=
    readPlain_node (PlainId.undecorated_item same) (PlainId.isNodeName_item same)
  rw [readNode, peek, behind, ends.labelBracket?_eq finished, PlainId.value_item same] at read
  rw [run_plain (PlainId.isBoundary_item same) (PlainId.reserved_item same).1
    (PlainId.reserved_item same).2 read]
  rfl

/-- A label can be told from its words. -/
theorem ofItems?_eq (items : List Item) :
    Label.ofItems? items = Label.text? ((items.map (·.word)).map fun word =>
      ⟨word.1, word.2, .start⟩) := by
  have values : (items.map Item.toToken).map Token.value =
      ((items.map (·.word)).map fun word => (⟨word.1, word.2, .start⟩ : Token)).map
        Token.value := by
    rw [List.map_map, List.map_map, List.map_map]
    rfl
  rw [Label.ofItems?, Label.text?, Label.text?, values]
  simp

/-- The label of a link is read up to the id that the link leads to. -/
theorem Leg.readLabel_eq (leg : Leg) {label : List Item} {target : Item} {more : List Item}
    (spelled : label.map (·.word) = leg.linkWords.tail)
    (lines : ∀ item ∈ label, item.line = line) (named : target.word = leg.target.toWord) :
    readOptionalLinkLabel finish line (label ++ target :: more) =
      ⟨leg.labelText, [], target :: more⟩ := by
  cases words : leg.label with
  | none =>
    -- No id is a pipe.
    rw [linkWords, words, List.tail_cons, List.map_eq_nil_iff] at spelled
    have plain : (target.kind == .pipe) = false := by
      rcases PlainId.kind_item named with kind | kind | kind <;> rw [kind] <;> rfl
    rw [spelled, List.nil_append, readOptionalLinkLabel, Items.frontIs, plain, Bool.and_false,
      if_neg Bool.false_ne_true, labelText, words]
    rfl
  | some inner =>
    rw [linkWords, words, List.tail_cons] at spelled
    obtain ⟨opening, _, rfl, opens, rest⟩ := List.map_eq_cons_iff.1 spelled
    obtain ⟨inside, _, rfl, written, last⟩ := List.map_eq_append_iff.1 rest
    obtain ⟨closing, _, rfl, closes, none⟩ := List.map_eq_cons_iff.1 last
    obtain rfl := List.map_eq_nil_iff.1 none
    have unpiped : ∀ item ∈ inside, item.kind ≠ .pipe := by
      intro item member
      refine leg.unpiped item.word ?_
      rw [words, Option.getD_some, ← written]
      exact List.mem_map_of_mem member
    have framed : readOptionalLinkLabel finish line
        (opening :: (inside ++ closing :: target :: more)) = _ :=
      Drawing.readOptionalLinkLabel_framed (Prod.ext_iff.1 opens).1 (Prod.ext_iff.1 closes).1
        lines unpiped
    rw [List.cons_append, List.append_assoc, List.singleton_append, framed, ofItems?_eq, written,
      labelText, words]
    rfl

/-- A link is read with the id behind it as its destination. -/
theorem Leg.run_eq (leg : Leg) {arrow : Item} {label : List Item} {target : Item}
    {more : List Item} (spelled : (arrow :: label).map (·.word) = leg.linkWords)
    (lines : ∀ item ∈ arrow :: label, item.line = line) (beside : arrow.startsStatement = false)
    (named : target.word = leg.target.toWord) (front : target.line = line)
    (ends : EndsId target more) :
    run finish none 0 links true (arrow :: (label ++ target :: more)) =
      (run finish none 0 (links + 1) false (target :: more)).prependAll
        [.link ⟨some leg.target.text, leg.labelText, .ofArrow leg.shape, arrow.position⟩] := by
  obtain ⟨own, lines⟩ := List.forall_mem_cons.1 lines
  have kind : arrow.kind = .arrow leg.shape := (Prod.ext_iff.1 (List.cons.inj spelled).1).1
  have labelled : readOptionalLinkLabel finish line (label ++ target :: more) = _ :=
    leg.readLabel_eq (congrArg List.tail spelled) lines named
  have destination : destination? finish line (target :: more) = some leg.target.text := by
    obtain ⟨peek, -⟩ := Items.peekName_alone ends.alone finish
    rw [destination?, peek, PlainId.isNodeName_item named, PlainId.value_item named,
      Items.frontIs, front, beq_self_eq_true]
    rfl
  have read : readPlain finish links true arrow (label ++ target :: more) = _ :=
    readPlain_link kind leg.joins beside
  rw [readLink, own, labelled] at read
  simp only [destination] at read
  have plain : arrow.closesSubgraph = false ∧ arrow.opensSubgraph = false := by
    simp [Token.closesSubgraph, Token.opensSubgraph, Token.isWordIgnoringCase, Token.isWord, kind]
  rw [run_plain (isBoundary_of_kind kind rfl) plain.1 plain.2 read]
  rfl

end Chain

end DiagramCheck.Flowchart
