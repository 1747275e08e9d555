/-
# Names that begin with a reserved word

Several tokens that touch are one name, and a reserved word is reserved as a whole
name. A grammar decides what a statement is from its first token alone, though,
before the name is put together. So a name is read as a name exactly when its first
piece is no reserved word of the grammar: `endé` closes a subgraph and `actoré`
declares a participant, while `éend` and `end1` are names like any other.

Main statement: `names_read_iff`.
-/

import DiagramCheck.Proofs.Diagram.LineByLine
import DiagramCheck.Proofs.Flowchart.Codes
import DiagramCheck.Proofs.Flowchart.Redrawn
import DiagramCheck.Proofs.Sequence.Message
import DiagramCheck.Proofs.Token.Touching

namespace DiagramCheck

open Layout (IsQuiet)
open Lexeme (StopsName frontPiece)
open Token (NamePieces)

/-- A name as texts write it: letters, digits, underscores and characters beyond ASCII. -/
structure WrittenName where
  text : String
  written : text ≠ ""
  chars : text.toList.all Token.isNameChar = true

/-- The first piece of a name: the ASCII letters, digits and underscores it begins with, or a
single character beyond ASCII. -/
def WrittenName.front (name : WrittenName) : String := .ofList (frontPiece name.text.toList)

/-! ## A name at the start of a line -/

/-- Some items on a line: those that spell a name, and behind them some words. Only the first item
begins a statement. -/
structure NameLine (name : WrittenName) (words : List (TokenKind × String)) (line : Nat)
    (first : Item) (more after : List Item) : Prop where
  pieces : ∃ place, NamePieces place name.text.toList first.toToken (more.map Item.toToken)
  words : after.map (·.word) = words
  begins : first.startsLine = true ∧ first.startsStatement = true
  lines : ∀ item ∈ first :: (more ++ after), item.line = line ∧ item.endLine = line
  beside : ∀ item ∈ more ++ after, item.startsStatement = false

theorem WrittenName.newline_not_mem (name : WrittenName) : '\n' ∉ name.text.toList :=
  fun newline => Token.ne_newline_of_isNameChar (List.all_eq_true.1 name.chars _ newline) rfl

theorem isQuiet_of_isName {token : Token} (named : token.isName = true) : IsQuiet token.word := by
  refine Layout.isQuiet_of_kind ?_ _
  unfold Token.isName at named
  split at named <;> simp_all

/-- The tokens of a name and some words behind it, wherever they begin. -/
theorem exists_lexemes_name (name : WrittenName) {tail : List Char}
    {words : List (TokenKind × String)} (stops : StopsName tail) (spelled : Spells tail [] words)
    (place : Position) :
    ∃ first rest behind, Token.lexemes place (name.text.toList ++ tail) = first :: rest ++ behind ∧
      NamePieces place name.text.toList first rest ∧ behind.map Token.word = words := by
  have written : name.text.toList ≠ [] := fun empty =>
    name.written (String.toList_eq_nil_iff.1 empty)
  obtain ⟨first, rest, scans, pieces⟩ := Token.exists_namePieces stops written name.chars place
  obtain ⟨behind, scans', spelled⟩ := spelled (place.after name.text.toList)
  have stream := (scans.trans (List.append_nil tail ▸ scans')).stream_eq
  rw [Token.stream_nil] at stream
  exact ⟨first, rest, behind, by rw [Token.lexemes, stream, List.dropLast_concat], pieces, spelled⟩

/-- Below a header line a name and the words behind it are read off their line. -/
theorem exists_nameLine (name : WrittenName) {head tail : String}
    {words : List (TokenKind × String)} (stops : StopsName tail.toList)
    (spelled : Spells tail.toList [] words) (quiet : ∀ word ∈ words, IsQuiet word)
    (single : '\n' ∉ tail.toList)
    (settled : ∀ token ∈ Token.lexemes .start head.toList, token.runsOn = false) :
    ∃ first more after,
      Layout.items (Token.tokenize (head ++ "\n" ++ (name.text ++ tail))) =
          Layout.items (Token.tokenize head) ++ first :: (more ++ after) ∧
        Layout.lexicalDiagnostics (Token.tokenize (head ++ "\n" ++ (name.text ++ tail))) =
          Layout.lexicalDiagnostics (Token.tokenize head) ∧
        NameLine name words ((Position.start.after head.toList).step '\n').line first more
          after := by
  have split : (head ++ "\n" ++ (name.text ++ tail)).toList =
      head.toList ++ '\n' :: (name.text.toList ++ tail.toList) := by simp
  let place := (Position.start.after head.toList).step '\n'
  obtain ⟨token, rest, behind, tokens, pieces, worded⟩ :=
    exists_lexemes_name name stops spelled place
  have lines := @Token.line_of_mem_lexemes place (name.text.toList ++ tail.toList)
    (by simp [name.newline_not_mem, single])
  have quiet : ∀ own ∈ Token.lexemes place (name.text.toList ++ tail.toList),
      IsQuiet own.word := by
    rw [tokens]
    refine List.forall_mem_append.2 ⟨fun own member => ?_, fun own member => ?_⟩
    · exact isQuiet_of_isName (pieces.named own member)
    · exact quiet own.word (worded ▸ List.mem_map_of_mem member)
  have top : ∀ before ∈ (none : Option Token), before.endLine ≤ Position.start.line := nofun
  have items := @Layout.place_append_newline .start head.toList
    (name.text.toList ++ tail.toList) none top settled
  have lexical := @Layout.lexicalDiagnosticsAfter_append_newline .start head.toList
    (name.text.toList ++ tail.toList) none top settled
  rw [Layout.significant_of_isQuiet quiet, tokens, List.cons_append, Layout.place]
    at items
  rw [Layout.lexicalDiagnosticsAfter_stream _ place,
    Layout.lexicalDiagnosticsAfter_of_isQuiet quiet, List.append_nil] at lexical
  rw [tokens, List.cons_append] at lines quiet
  -- The items of the line fall into those of the name and those behind it.
  obtain ⟨more, after, own, more', after'⟩ := List.map_eq_append_iff.1
    (Layout.map_toToken_place (some token) (rest ++ behind))
  refine ⟨⟨token, true, true⟩, more, after, ?_, ?_, ⟨place, ?_⟩, ?_, ⟨rfl, rfl⟩, ?_, ?_⟩
  · rw [Layout.items, Token.tokenize, split, items, own]
    rfl
  · rw [Layout.lexicalDiagnostics, Token.tokenize, split, lexical]
    rfl
  · rw [more']
    exact pieces
  · rw [← worded, ← after', List.map_map]
    rfl
  · refine List.forall_mem_cons.2 ⟨lines token (List.mem_cons_self ..), fun item member => ?_⟩
    rw [← more', ← after'] at lines
    refine lines item.toToken (List.mem_cons_of_mem _ ?_)
    rw [← List.map_append]
    exact List.mem_map_of_mem member
  · rw [← own]
    exact Layout.startsStatement_place lines quiet

/-! ## Reading a name -/

section Name

variable {finish : Token} {place : Position} {name : List Char} {first : Item}
  {more after : List Item}

variable (pieces : NamePieces place name first.toToken (more.map Item.toToken))
  (foreign : ∀ next ∈ after.head?, next.isName = false)

include pieces

theorem Token.NamePieces.isName : first.isName = true :=
  pieces.named _ (List.mem_cons_self ..)

include foreign

/-- The pieces of a name are read as the name. -/
theorem Token.NamePieces.touching_eq : Items.touching first.stop (more ++ after) = more := by
  have touch : (first :: more).IsChain Items.Touch := by
    have tokens := pieces.touch
    rw [← List.map_cons, List.isChain_map] at tokens
    exact tokens
  refine Items.touching_eq_of_chain (fun item member => ?_) touch fun _ _ next front named => ?_
  · exact pieces.named _ (List.mem_cons_of_mem _ (List.mem_map_of_mem member))
  · rw [foreign next front] at named
    cases named

theorem Token.NamePieces.afterName_eq : Items.afterName (first :: (more ++ after)) = after := by
  rw [Items.afterName_of_isName pieces.isName, pieces.touching_eq foreign, List.drop_left]

theorem Token.NamePieces.text_eq :
    (Items.peekName finish (first :: (more ++ after))).text = String.ofList name := by
  rw [← String.toList_inj, Items.toList_text_peekName finish _ pieces.isName,
    Items.touchingText, pieces.touching_eq foreign, String.toList_ofList, ← pieces.written,
    String.toList_join, List.flatMap_cons, List.flatMap_map, List.flatMap_map]

theorem Token.NamePieces.value_eq :
    (Items.peekName finish (first :: (more ++ after))).value = String.ofList name := by
  have plain : (Items.peekName finish (first :: (more ++ after))).kind ≠ .string := by
    rw [Items.kind_peekName]
    exact Token.isName_kind_ne_string pieces.isName
  rw [Token.value, if_neg plain, pieces.text_eq foreign]

end Name

/-! ## Reserved words -/

/-- The words that begin something else than a node in a flowchart: the header words and `end`, in
any case, `subgraph`, and the words of decorations. -/
def Flowchart.isReserved (word : String) : Bool :=
  (TokenKind.ofWord word).isHeader || String.ofList (word.toList.map Char.toLower) == "end" ||
    word == "subgraph" || (Decoration.ofKeyword? word).isSome

/-- The words that begin something else than a message in a sequence diagram: `participant`, in any
case, `actor`, and the words of decorations. -/
def Sequence.isReserved (word : String) : Bool :=
  TokenKind.ofWord word == .participant || word == "actor" || (Decoration.ofKeyword? word).isSome

namespace Lexeme

private theorem spellsWord_of_decoration {word : String}
    (decorates : (Decoration.ofKeyword? word).isSome = true) : spellsWord word.toList = true := by
  obtain ⟨decoration, found⟩ := Option.isSome_iff_exists.1 decorates
  rw [Decoration.ofKeyword?_eq_some found]
  cases decoration <;> decide

private theorem spellsWord_of_flowchart {word : String}
    (reserved : Flowchart.isReserved word = true) :
    spellsWord word.toList = true := by
  simp only [Flowchart.isReserved, Bool.or_eq_true, beq_iff_eq] at reserved
  rcases reserved with ((header | lower) | rfl) | decorates
  · refine spellsWord_of_keyword fun plain => ?_
    rw [plain] at header
    cases header
  · refine spellsWord_of_toLower ?_
    rw [← String.toList_ofList (l := word.toList.map Char.toLower), lower]
    decide
  · decide
  · exact spellsWord_of_decoration decorates

end Lexeme

namespace NameLine

variable {name : WrittenName} {words : List (TokenKind × String)} {line : Nat} {first : Item}
  {more after : List Item} (own : NameLine name words line first more after)

include own

theorem text_eq : first.text = name.front := by
  obtain ⟨place, pieces⟩ := own.pieces
  rw [← String.toList_inj, pieces.front.text, WrittenName.front, String.toList_ofList]

theorem isName : first.isName = true := by
  obtain ⟨place, pieces⟩ := own.pieces
  exact pieces.isName

private theorem kind_ne_semicolon : first.kind ≠ .semicolon := by
  intro semicolon
  have named := own.isName
  rw [Token.isName, semicolon] at named
  cases named

/-- The first piece of a name is a keyword when it is spelled as one, and no keyword otherwise. -/
theorem kind_eq : first.kind = .ofWord name.front ∨
    first.kind = .number ∧ Lexeme.spellsWord name.front.toList = false := by
  obtain ⟨place, pieces⟩ := own.pieces
  rw [← own.text_eq]
  refine pieces.front.kind.imp_right fun number => ⟨number, ?_⟩
  -- Words begin with a letter and numbers do not.
  obtain ⟨c, text, written, head⟩ := pieces.front.cut.exists_of_number number
  refine Bool.eq_false_iff.2 fun word => ?_
  rw [written, Lexeme.spellsWord, Bool.and_eq_true] at word
  rcases head with digit | rfl
  · rw [Token.isDigit_eq_false_of_isAlpha word.1] at digit
    cases digit
  · exact absurd word.1 (by decide)

private theorem kind_of_spellsWord (word : Lexeme.spellsWord name.front.toList = true) :
    first.kind = .ofWord name.front := by
  refine own.kind_eq.resolve_right fun number => ?_
  rw [word] at number
  cases number.2

/-- Nothing of the line is left behind its end. -/
theorem skipLine_eq_nil {rest : List Item} (suffix : rest <:+ more ++ after) :
    Items.skipLine first.line rest = [] := by
  refine List.dropWhile_eq_nil_iff.2 fun item member => ?_
  rw [(own.lines item (List.mem_cons_of_mem _ (suffix.subset member))).1,
    (own.lines first (List.mem_cons_self ..)).1]
  exact beq_self_eq_true line

/-- The name ends on its line. -/
theorem endLine_peekName (foreign : ∀ next ∈ after.head?, next.isName = false) {finish : Token} :
    (Items.peekName finish (first :: (more ++ after))).endLine = line := by
  obtain ⟨place, pieces⟩ := own.pieces
  have text : (Items.peekName finish (first :: (more ++ after))).text = name.text :=
    (pieces.text_eq foreign).trans String.ofList_toList
  have position : (Items.peekName finish (first :: (more ++ after))).position = first.position :=
    Items.position_peekName ..
  rw [Token.endLine, text, List.count_eq_zero.2 name.newline_not_mem, Token.line, position]
  exact (own.lines first (List.mem_cons_self ..)).1

private theorem decoration?_eq (kind : first.kind = .identifier) :
    first.decoration? = Decoration.ofKeyword? name.front := by
  rw [Item.decoration?, own.begins.2, own.text_eq, kind]
  rfl

private theorem isSome_decoration?_iff :
    first.decoration?.isSome = true ↔ (Decoration.ofKeyword? name.front).isSome = true := by
  constructor
  · intro decorates
    obtain ⟨decoration, found⟩ := Option.isSome_iff_exists.1 decorates
    rw [← own.decoration?_eq (Flowchart.isWord_of_decoration? found).1]
    exact decorates
  · intro decorates
    have kind := own.kind_of_spellsWord (Lexeme.spellsWord_of_decoration decorates)
    rw [own.decoration?_eq, decorates]
    obtain ⟨decoration, found⟩ := Option.isSome_iff_exists.1 decorates
    rw [kind, Decoration.ofKeyword?_eq_some found]
    cases decoration <;> decide

/-- What a flowchart makes of the first piece of a name, if not a node. -/
theorem flowchart_isReserved_iff : Flowchart.isReserved name.front = true ↔
    Flowchart.isBoundary first = true ∨ first.closesSubgraph = true ∨
      first.opensSubgraph = true ∨ first.decoration?.isSome = true := by
  rw [own.isSome_decoration?_iff]
  constructor
  · intro reserved
    have kind := own.kind_of_spellsWord (Lexeme.spellsWord_of_flowchart reserved)
    have marks (word : Token.IsReserved name.front.toList) :
        first.closesSubgraph = true ∨ first.opensSubgraph = true := by
      have plain : first.kind = .identifier := by
        rw [kind, ← word.ofWord, String.ofList_toList]
      rw [← own.text_eq] at word
      exact (Token.isReserved_iff plain).1 word
    simp only [Flowchart.isReserved, Bool.or_eq_true, beq_iff_eq] at reserved
    rcases reserved with ((header | lower) | same) | decorates
    · left
      rw [Flowchart.isBoundary, kind, header, own.begins.1]
      rfl
    · have word : Token.IsReserved name.front.toList :=
        .inl (by rw [← String.toList_ofList (l := name.front.toList.map Char.toLower), lower])
      exact .inr ((marks word).imp_right .inl)
    · have word : Token.IsReserved name.front.toList := .inr (by rw [same])
      exact .inr ((marks word).imp_right .inl)
    · exact .inr (.inr (.inr decorates))
  · simp only [Flowchart.isReserved, Bool.or_eq_true, beq_iff_eq]
    rintro (boundary | closes | opens | decorates)
    · rw [Flowchart.isBoundary, Bool.and_eq_true] at boundary
      rcases own.kind_eq with kind | ⟨kind, -⟩
      · exact .inl (.inl (.inl (kind ▸ boundary.1)))
      · rw [kind] at boundary
        cases boundary.1
    · rw [Token.closesSubgraph, Token.isWordIgnoringCase, Bool.and_eq_true, beq_iff_eq,
        beq_iff_eq, own.text_eq] at closes
      exact .inl (.inl (.inr closes.2))
    · rw [Token.opensSubgraph, Token.isWord, Bool.and_eq_true, beq_iff_eq, beq_iff_eq,
        own.text_eq] at opens
      exact .inl (.inr opens.2)
    · exact .inr decorates

/-- What a sequence diagram makes of the first piece of a name, if not a sender. -/
theorem sequence_isReserved_iff : Sequence.isReserved name.front = true ↔
    first.declaresParticipant = true ∨ first.decoration?.isSome = true := by
  rw [own.isSome_decoration?_iff]
  simp only [Sequence.isReserved, Token.declaresParticipant, Token.isWord, Bool.or_eq_true,
    Bool.and_eq_true, beq_iff_eq, own.text_eq]
  constructor
  · rintro ((participant | same) | decorates)
    · have kind := own.kind_of_spellsWord
        (Lexeme.spellsWord_of_keyword (by simp [participant]))
      exact .inl (.inl (kind.trans participant))
    · have kind := own.kind_of_spellsWord (by rw [same]; decide)
      rw [same] at kind
      exact .inl (.inr ⟨kind, same⟩)
    · exact .inr decorates
  · rintro ((participant | ⟨-, same⟩) | decorates)
    · rcases own.kind_eq with kind | ⟨kind, -⟩
      · exact .inl (.inl (kind ▸ participant))
      · rw [kind] at participant
        cases participant
    · exact .inl (.inr same)
    · exact .inr decorates

end NameLine

/-! ## A name that is linked -/

namespace Flowchart

/-- A flowchart in which a name is linked to `B`. -/
def linkSource (name : String) : String := "flowchart TD" ++ "\n" ++ (name ++ " --> B")

/-- The words behind the name. -/
def linkWords : List (TokenKind × String) := [(.arrow .plain, "-->"), (.identifier, "B")]

private theorem spells_link : Spells " --> B".toList [] linkWords := by
  have arrow : Spells "-->".toList " B".toList [(.arrow .plain, "-->")] :=
    .of_leads ⟨_, _, rfl, rfl, rfl⟩ nofun
  have target : Spells "B".toList [] [(.identifier, "B")] := .of_word (by decide) .nil
  exact (arrow.append target.blank).blank

/-- The line that begins a flowchart. -/
theorem items_headerLine :
    Layout.items (Token.tokenize "flowchart TD") =
        [⟨⟨.header .flowchart, "flowchart", ⟨1, 1, 0⟩⟩, true, true⟩,
          ⟨⟨.identifier, "TD", ⟨1, 11, 10⟩⟩, false, false⟩] ∧
      Layout.lexicalDiagnostics (Token.tokenize "flowchart TD") = [] ∧
      ∀ token ∈ Token.lexemes .start "flowchart TD".toList, token.runsOn = false := by
  decide +kernel

private theorem exists_linkLine (name : WrittenName) : ∃ header direction first more after,
    Layout.items (Token.tokenize (linkSource name.text)) =
        header :: direction :: first :: (more ++ after) ∧
      header.kind = .header .flowchart ∧ direction.line = header.line ∧
        direction.word = (.identifier, "TD") ∧
      Layout.lexicalDiagnostics (Token.tokenize (linkSource name.text)) = [] ∧
      NameLine name linkWords 2 first more after := by
  have stops : StopsName " --> B".toList :=
    ⟨by rintro _ ⟨⟩; decide, by decide⟩
  obtain ⟨head, clean, settled⟩ := items_headerLine
  obtain ⟨first, more, after, items, lexical, own⟩ := exists_nameLine name stops spells_link
    (by simp [linkWords, Layout.isQuiet_of_kind]) (by decide) settled
  rw [head] at items
  rw [clean] at lexical
  exact ⟨_, _, first, more, after, items, rfl, rfl, rfl, lexical, own⟩

variable {name : WrittenName} {first : Item} {more after : List Item} {finish : Token}

/-- Behind the header line a name whose first piece is not reserved begins a node. -/
theorem run_node {words : List (TokenKind × String)} {line : Nat}
    (own : NameLine name words line first more after) (free : isReserved name.front = false)
    {node : Reading Element} (read : readNode finish (first :: (more ++ after)) = node) :
    run finish none 0 0 false (first :: (more ++ after)) =
      (run finish none 0 (countLink 0 (some node.value)) (sourceAfter false (some node.value))
        node.rest).prepend (some node.value) node.diagnostics := by
  have unreserved := own.flowchart_isReserved_iff.not.1 (by rw [free]; exact Bool.false_ne_true)
  simp only [not_or, Bool.not_eq_true] at unreserved
  obtain ⟨inside, stays, shut, undecorated⟩ := unreserved
  rw [Option.isSome_eq_false_iff, Option.isNone_iff_eq_none] at undecorated
  have named : first.isNodeName = true := by
    rw [Token.isNodeName, own.isName, stays, shut]
    rfl
  have plain : readPlain finish 0 false first (more ++ after) = node.map some := by
    rw [readPlain_node undecorated named, read]
  exact run_plain inside stays shut plain

/-- Behind the header line a name whose first piece is not reserved is read as a node, with a link
and a node behind it. -/
theorem run_named (finished : finish.kind = .endOfInput)
    (own : NameLine name linkWords 2 first more after)
    (free : isReserved name.front = false) :
    ∃ arrow target, run finish none 0 0 false (first :: (more ++ after)) =
      ⟨[.node ⟨name.text, none, .rectangle, first.position⟩,
        .link ⟨some "B", none, .plain, arrow⟩, .node ⟨"B", none, .rectangle, target⟩],
        [], 1, []⟩ := by
  obtain ⟨place, pieces⟩ := own.pieces
  obtain ⟨arrow, _, rfl, arrowed, rest⟩ := List.map_eq_cons_iff.1 own.words
  obtain ⟨target, _, rfl, targeted, empty⟩ := List.map_eq_cons_iff.1 rest
  obtain rfl := List.map_eq_nil_iff.1 empty
  have kind : arrow.kind = .arrow .plain := (Prod.ext_iff.1 arrowed).1
  have foreign : ∀ next ∈ [arrow, target].head?, next.isName = false := by
    rintro _ ⟨⟩
    rw [Token.isName, kind]
  have read : readNode finish (first :: (more ++ [arrow, target])) =
      ⟨.node ⟨name.text, none, .rectangle, first.position⟩, [], [arrow, target]⟩ := by
    rw [readNode, pieces.afterName_eq foreign, pieces.value_eq foreign, String.ofList_toList,
      Items.position_peekName]
    simp only [labelBracket?, Items.front, kind]
  let drawn : Drawing.Node := ⟨⟨"B", by decide⟩, none⟩
  have named : target.word = drawn.name.word := targeted.trans (by decide)
  -- Behind the name stands what a drawing of one link has there.
  have link : run finish none 0 0 true (arrow :: ([] ++ [target])) = _ :=
    Drawing.Link.run_eq ⟨.plain, "-->", by decide, none⟩ (by rw [List.map_singleton, arrowed]; rfl)
      (List.forall_mem_singleton.2 ⟨own.lines arrow (by simp), own.beside arrow (by simp)⟩)
      named (own.lines target (by simp)).1 (by simp)
  have last : run finish none 0 1 false (target :: ([] ++ [])) = _ :=
    drawn.run_eq finished (by rw [List.map_singleton, named]; rfl)
      (List.forall_mem_singleton.2 (own.lines target (by simp))) fun _ next => by cases next
  refine ⟨arrow.position, target.position, ?_⟩
  rw [run_node own free read]
  dsimp only [countLink, sourceAfter, Element.isSource]
  rw [List.nil_append] at link last
  rw [link, last, run_nil]
  rfl

/-- Behind the header line a name whose first piece is reserved is reported, or nothing is drawn, or
a subgraph. -/
theorem run_reserved (own : NameLine name linkWords 2 first more after)
    (reserved : isReserved name.front = true) {content : Run}
    (read : run finish none 0 0 false (first :: (more ++ after)) = content) :
    content.diagnostics ≠ [] ∨ content.elements = [] ∨
      ∃ heading body rest, content.elements = .subgraph heading body :: rest := by
  subst read
  cases inside : isBoundary first with
  | true =>
    rw [run_boundary inside]
    exact .inr (.inl rfl)
  | false =>
    rcases own.flowchart_isReserved_iff.1 reserved with boundary | closes | opens | decorates
    · rw [inside] at boundary
      cases boundary
    · rw [run_unmatched inside closes]
      exact .inl nofun
    · have shallow : 0 < maxDepth := by decide
      rw [run_subgraph inside (closesSubgraph_eq_false opens) opens shallow rfl rfl]
      exact .inr (.inr ⟨_, _, _, rfl⟩)
    · -- The line of a decoration is the whole rest.
      obtain ⟨decoration, found⟩ := Option.isSome_iff_exists.1 decorates
      have content := @Stage.run_decoration finish first decoration none 0 0 false (more ++ after)
        found
      rw [Stage.run, Stage.run, own.skipLine_eq_nil (List.suffix_refl _), run_nil] at content
      rw [content]
      exact .inr (.inl rfl)

/-- What is read below the line that begins a flowchart. -/
theorem validate_of_headerLine {source : String} {header direction : Item} {rest left : List Item}
    {elements : List Element} {diagnostics : List Diagnostic} {links : Nat}
    (items : Layout.items (Token.tokenize source) = header :: direction :: rest)
    (kind : header.kind = .header .flowchart) (beside : direction.line = header.line)
    (worded : direction.word = (.identifier, "TD"))
    (lexical : Layout.lexicalDiagnostics (Token.tokenize source) = [])
    (content : run (Layout.finish source) none 0 0 false rest =
      ⟨elements, diagnostics, links, left⟩) :
    validate source =
      ⟨Diagnostic.inSourceOrder
          (diagnostics ++ connectionDiagnostics (direction :: rest) elements ++
            (Diagram.readAll source.toList (Layout.finish source) left).flatMap (·.diagnostics)),
        some ⟨header.position, .flowchart ⟨some .topDown, elements⟩⟩⟩ := by
  have directed : readDirection header.toToken (direction :: rest) =
      ⟨some .topDown, [], rest⟩ := by
    have plain : direction.kind = .identifier := (Prod.ext_iff.1 worded).1
    have text : direction.text = "TD" := (Prod.ext_iff.1 worded).2
    rw [readDirection, if_pos ⟨beside, plain⟩, text]
    rfl
  have read : Diagram.read source.toList (Layout.finish source) (header :: direction :: rest) =
      ⟨⟨header.position, .flowchart ⟨some .topDown, elements⟩⟩,
        diagnostics ++ connectionDiagnostics (direction :: rest) elements, left⟩ := by
    rw [read_of_flowchart_header kind, Flowchart.read, directed]
    simp only [content, List.nil_append]
    rfl
  rw [Validation.validate_of_items items, lexical, List.nil_append, Diagram.readAll_cons, read]
  rfl

/-- A name is read as a node that is linked to `B`, and nothing is wrong. -/
def Links (name : String) : Prop :=
  (validate (linkSource name)).diagnostics = [] ∧
    (ofSource? (linkSource name)).map unplaced =
      some ⟨some .topDown, [.node ⟨name, none, .rectangle, .start⟩,
        .link ⟨some "B", none, .plain, .start⟩, .node ⟨"B", none, .rectangle, .start⟩]⟩

/-- A flowchart reads a name as the name of a node exactly when its first piece is no word that
begins something else. -/
theorem links_iff (name : WrittenName) : Links name.text ↔ isReserved name.front = false := by
  obtain ⟨header, direction, first, more, after, items, kind, beside, worded, lexical, own⟩ :=
    exists_linkLine name
  let finish := Layout.finish (linkSource name.text)
  cases content : run finish none 0 0 false (first :: (more ++ after)) with
  | mk elements diagnostics links rest =>
    rw [Links, ofSource?, validate_of_headerLine items kind beside worded lexical content]
    constructor
    · rintro ⟨clean, drawn⟩
      have clean : diagnostics = [] := by
        have empty := List.isEmpty_iff.2 clean
        rw [Diagnostic.isEmpty_inSourceOrder, List.isEmpty_iff, List.append_eq_nil_iff,
          List.append_eq_nil_iff] at empty
        exact empty.1.1
      have drawn : Element.unplacedAll elements = _ :=
        congrArg Flowchart.elements (Option.some.inj drawn)
      refine Bool.eq_false_iff.2 fun reserved => ?_
      -- A reserved word is reported, ends the flowchart, or opens a subgraph.
      rcases run_reserved own reserved content with reports | empty | ⟨heading, body, rest, opens⟩
      · exact reports clean
      · cases empty
        cases drawn
      · cases opens
        cases drawn
    · intro free
      obtain ⟨arrow, target, named⟩ := @run_named name first more after finish rfl own free
      rw [content] at named
      cases named
      rw [Diagram.readAll_nil]
      exact ⟨Diagnostic.inSourceOrder_nil, rfl⟩

end Flowchart

/-! ## A name that sends a message -/

namespace Sequence

/-- A sequence diagram in which a name sends a message to `B`. -/
def messageSource (name : String) : String := "sequenceDiagram" ++ "\n" ++ (name ++ "->>B: hi")

/-- The words behind the name. -/
def messageWords : List (TokenKind × String) :=
  [(.arrow .shortOpen, "->>"), (.identifier, "B"), (.colon, ":"), (.identifier, "hi")]

private theorem spells_message : Spells "->>B: hi".toList [] messageWords := by
  have arrow : Spells "->>".toList "B: hi".toList [(.arrow .shortOpen, "->>")] :=
    .of_leads ⟨_, _, rfl, rfl, rfl⟩ nofun
  have receiver : Spells "B".toList ": hi".toList [(.identifier, "B")] :=
    .of_word (by decide) (.cons (by decide) (by decide) _)
  have colon : Spells ":".toList " hi".toList [(.colon, ":")] :=
    .of_leads ⟨_, _, rfl, rfl, rfl⟩ nofun
  have text : Spells "hi".toList [] [(.identifier, "hi")] := .of_word (by decide) .nil
  exact arrow.append (receiver.append (colon.append text.blank))

private theorem exists_messageLine (name : WrittenName) : ∃ header first more after,
    Layout.items (Token.tokenize (messageSource name.text)) =
        header :: first :: (more ++ after) ∧
      header.kind = .header .sequence ∧ header.line = 1 ∧
      Layout.lexicalDiagnostics (Token.tokenize (messageSource name.text)) = [] ∧
      NameLine name messageWords 2 first more after := by
  have stops : StopsName "->>B: hi".toList :=
    ⟨by rintro _ ⟨⟩; decide, by decide⟩
  obtain ⟨first, more, after, items, lexical, own⟩ := exists_nameLine name stops spells_message
    (by simp [messageWords, Layout.isQuiet_of_kind]) (by decide)
    (show ∀ token ∈ Token.lexemes .start "sequenceDiagram".toList, token.runsOn = false by
      decide +kernel)
  have names : TokenKind.ofWord "sequenceDiagram" = .header .sequence := by decide
  rw [Layout.items_header names] at items
  rw [Layout.lexicalDiagnostics_header names] at lexical
  exact ⟨_, first, more, after, items, rfl, rfl, lexical, own⟩

variable {name : WrittenName} {first : Item} {more after : List Item} {finish : Token}

private theorem readReceiver_named {line : Nat} {sender arrow : Token} {shape : Arrow}
    {items : List Item}
    (spelled : items.map (·.word) = [(.identifier, "B"), (.colon, ":"), (.identifier, "hi")])
    (lines : ∀ item ∈ items, item.line = line) (beside : arrow.line = line) :
    readReceiver finish sender arrow shape items =
      ⟨some (.message ⟨sender.value, "B", "hi", .ofArrow shape⟩), [], []⟩ := by
  obtain ⟨receiver, _, rfl, named, rest⟩ := List.map_eq_cons_iff.1 spelled
  obtain ⟨colon, _, rfl, marked, rest⟩ := List.map_eq_cons_iff.1 rest
  obtain ⟨text, _, rfl, worded, empty⟩ := List.map_eq_cons_iff.1 rest
  obtain rfl := List.map_eq_nil_iff.1 empty
  obtain ⟨plain, letter⟩ : receiver.kind = .identifier ∧ receiver.text = "B" :=
    Prod.ext_iff.1 named
  have own : receiver.isName = true := by
    rw [Token.isName, plain, letter]
    decide
  have said : text.value = "hi" := by
    obtain ⟨plain, word⟩ : text.kind = .identifier ∧ text.text = "hi" := Prod.ext_iff.1 worded
    simp [Token.value, plain, word]
  rw [readReceiver_name own sender shape (Prod.ext_iff.1 marked).1
    (fun item member => (lines item member).trans beside.symm), letter]
  simp [Label.ofItems?, Label.text?, said]

/-- Below the header a name whose first piece is not reserved is read as the sender of a message. -/
theorem readStatement_named (own : NameLine name messageWords 2 first more after)
    (free : isReserved name.front = false) :
    readStatement finish first (more ++ after) =
      ⟨some (.message ⟨name.text, "B", "hi", .solid⟩), [], []⟩ := by
  obtain ⟨place, pieces⟩ := own.pieces
  obtain ⟨arrow, tail, rfl, arrowed, rest⟩ := List.map_eq_cons_iff.1 own.words
  have kind : arrow.kind = .arrow .shortOpen := (Prod.ext_iff.1 arrowed).1
  have foreign : ∀ next ∈ (arrow :: tail).head?, next.isName = false := by
    rintro _ ⟨⟩
    rw [Token.isName, kind]
  have unreserved := own.sequence_isReserved_iff.not.1 (by rw [free]; exact Bool.false_ne_true)
  simp only [not_or, Bool.not_eq_true] at unreserved
  obtain ⟨silent, undecorated⟩ := unreserved
  rw [Option.isSome_eq_false_iff, Option.isNone_iff_eq_none] at undecorated
  let sender := Items.peekName finish (first :: (more ++ arrow :: tail))
  have value : sender.value = name.text :=
    (pieces.value_eq foreign).trans (String.ofList_toList)
  have ends : sender.endLine = arrow.line := by
    rw [own.endLine_peekName foreign, (own.lines arrow (by simp)).1]
  -- What does not declare and does not decorate is a message when an arrow is next.
  have begins : beginsMessage finish (first :: (more ++ arrow :: tail)) = true := by
    rw [beginsMessage, pieces.afterName_eq foreign]
    simp [Items.front, Token.isParticipantName, own.isName, Items.frontIs, kind,
      TokenKind.isMessage, Arrow.isMessage, sender, ends]
  rw [readStatement, undecorated]
  dsimp only
  rw [if_neg own.kind_ne_semicolon, silent, if_neg Bool.false_ne_true, if_pos begins, readMessage,
    pieces.afterName_eq foreign]
  dsimp only
  rw [kind]
  dsimp only
  rw [readReceiver_named rest (fun item member => (own.lines item (by simp [member])).1)
    (own.lines arrow (by simp)).1, value]
  rfl

/-- Below the header a name whose first piece is reserved sends no message, and takes its line. -/
theorem readStatement_reserved (own : NameLine name messageWords 2 first more after)
    (reserved : isReserved name.front = true) :
    ((readStatement finish first (more ++ after)).value.bind Statement.message?) = none ∧
      (readStatement finish first (more ++ after)).rest = [] := by
  rw [readStatement]
  cases found : first.decoration? with
  | some decoration => exact ⟨rfl, own.skipLine_eq_nil (List.suffix_refl _)⟩
  | none =>
    have declares : first.declaresParticipant = true := by
      refine (own.sequence_isReserved_iff.1 reserved).resolve_right ?_
      rw [found]
      exact Bool.false_ne_true
    dsimp only
    rw [if_neg own.kind_ne_semicolon, if_pos declares, readDeclaration]
    split
    · refine ⟨rfl, own.skipLine_eq_nil ?_⟩
      exact (readAlias_suffix ..).trans (Items.afterName_suffix _)
    · exact ⟨rfl, own.skipLine_eq_nil (List.suffix_refl _)⟩

/-- A name is read as the sender of a message to `B`, the only one, and nothing is wrong. -/
def Sends (name : String) : Prop :=
  (validate (messageSource name)).diagnostics = [] ∧
    (validate (messageSource name)).messages = [⟨name, "B", "hi", .solid⟩]

/-- A sequence diagram reads a name as the name of a sender exactly when its first piece is no word
that begins something else. -/
theorem sends_iff (name : WrittenName) : Sends name.text ↔ isReserved name.front = false := by
  obtain ⟨header, first, more, after, items, kind, line, lexical, own⟩ := exists_messageLine name
  have below : Items.Below header.line (first :: (more ++ after)) := by
    intro item member
    rw [line, (own.lines item member).1]
    decide
  rw [Sends, lineBased.validate_of_header readContent_eq items kind below, messages_contentOf,
    lexical, List.nil_append, Reading.statements]
  cases reserved : isReserved name.front with
  | false =>
    rw [readStatement_named own reserved, Reading.statements]
    exact iff_of_true ⟨Diagnostic.inSourceOrder_nil, rfl⟩ rfl
  | true =>
    obtain ⟨silent, rest⟩ := @readStatement_reserved name first more after
      (Layout.finish (messageSource name.text)) own reserved
    rw [rest, Reading.statements, List.map_singleton, List.filterMap_filterMap]
    refine iff_of_false (fun sends => ?_) (by simp)
    have sent := sends.2
    simp only [List.filterMap_cons, List.filterMap_nil, id, silent] at sent
    cases sent

end Sequence

/-- A name that stands before a link or a message is read as one name, however many tokens it
takes, exactly when its first piece is no word that the grammar gives another meaning. -/
theorem names_read_iff (name : WrittenName) :
    (Flowchart.Links name.text ↔ Flowchart.isReserved name.front = false) ∧
      (Sequence.Sends name.text ↔ Sequence.isReserved name.front = false) :=
  ⟨Flowchart.links_iff name, Sequence.sends_iff name⟩

/-- No word is reserved in the name `endé`, but it closes a subgraph where none is open. -/
theorem name_closes_subgraph :
    ¬ ∀ name : WrittenName, Flowchart.isReserved name.text = false →
      Sequence.isReserved name.text = false →
      Flowchart.Links name.text ∧ Sequence.Sends name.text := by
  intro read
  have linked := (read ⟨"endé", by decide, by decide⟩ (by decide +kernel) (by decide +kernel)).1.1
  have reported : ((validate (Flowchart.linkSource "endé")).diagnostics.map (·.code)) =
      [.unmatchedEnd] := by
    decide +kernel
  rw [linked] at reported
  cases reported

end DiagramCheck
