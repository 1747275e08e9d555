/-
# Flowcharts follow their source

A flowchart keeps of its source where its elements begin, what its nodes are
called and how its links are drawn. An element begins where a token of the source
stands. Listed with what is inside of subgraphs, each element begins behind the
one before it, whatever labels and headings were passed over in between.

The name of a node may be spelled by several tokens. It is the text of the source
from the first of them on, and it takes in every name that touches it. A link is
drawn with the stroke of its arrow, which shows in how the arrow is written.

Main statement: `flowchart_follows_source`.
-/

import DiagramCheck.Proofs.Diagram.Checked
import DiagramCheck.Proofs.Flowchart.Closing
import DiagramCheck.Proofs.Flowchart.Drawing
import DiagramCheck.Proofs.Flowchart.Linking

namespace DiagramCheck

/-! ## How links are written -/

namespace Lexeme

private theorem take_mem_spellings {text : List Char} {shape : Arrow} {length : Nat}
    (found : arrow? text = some (shape, length)) (joins : shape.isLink = true) :
    String.ofList (text.take length) ∈ (Stroke.ofArrow shape).spellings := by
  unfold arrow? at found
  split at found
  all_goals cases found
  all_goals first
    | exact absurd joins Bool.false_ne_true
    | simp [Stroke.ofArrow, Stroke.spellings]

end Lexeme

namespace Token

/-- An arrow that links nodes is written as its stroke is. -/
theorem IsCut.text_mem_spellings {token : Token} (cut : token.IsCut) {shape : Arrow}
    (kind : token.kind = .arrow shape) (joins : shape.isLink = true) :
    token.text ∈ (Stroke.ofArrow shape).spellings := by
  obtain ⟨c, tail, behind, text, rule⟩ := cut.exists_rule fun word same => by
    rcases TokenKind.ofWord_cases word with own | own | ⟨family, own⟩ <;>
      rw [kind, own] at same <;> cases same
  rw [kind] at rule
  cases rule with
  | arrow found =>
    have spelled := Lexeme.take_mem_spellings found joins
    rwa [← List.cons_append, List.take_left, ← text, String.ofList_toList] at spelled
  | delimiter found =>
    unfold Lexeme.delimiter? at found
    split at found <;> cases found

/-! ## Where names end -/

private theorem le_touchingStop {stop : Nat} {tokens : List Token}
    (reached : ∀ token ∈ tokens, stop ≤ token.offset) : stop ≤ touchingStop stop tokens := by
  rcases touchingStop_eq stop tokens with same | ⟨token, member, same⟩
  · exact same.ge
  · rw [same]
    exact (reached token member).trans (Nat.le_add_right ..)

/-- No name begins where a name ends that takes in all that touch it. -/
theorem offset_ne_touchingStop {stop : Nat} {tokens : List Token}
    (order : tokens.Pairwise Precedes) (reached : ∀ token ∈ tokens, stop ≤ token.offset)
    (solid : ∀ token ∈ tokens, token.isName = true → token.offset < token.stop) :
    ∀ token ∈ tokens, token.isName = true → token.offset ≠ touchingStop stop tokens := by
  induction tokens generalizing stop with
  | nil => exact fun _ absent => by cases absent
  | cons first rest ih =>
    obtain ⟨ahead, later⟩ := List.pairwise_cons.1 order
    obtain ⟨own, others⟩ := List.forall_mem_cons.1 solid
    have behind : ∀ token ∈ rest, first.stop ≤ token.offset := fun token member =>
      (ahead token member).apart
    rw [touchingStop]
    split
    · next touches =>
      -- What touches is taken in, so the name ends behind it.
      rw [Bool.and_eq_true] at touches
      refine List.forall_mem_cons.2 ⟨fun name => ?_, ih later behind others⟩
      exact ((own name).trans_le (le_touchingStop behind)).ne
    · next apart =>
      have start := reached first (List.mem_cons_self ..)
      refine List.forall_mem_cons.2 ⟨fun name same => apart (by simp [name, same]), ?_⟩
      intro token member _
      exact (start.trans_lt (ahead token member).offset_lt).ne'

private theorem offset_lt_stop_of_isName {source : String} {token : Token}
    (member : token ∈ tokenize source) (name : token.isName = true) :
    token.offset < token.stop := by
  rcases isCut_or_endOfInput source token member with ⟨behind, cut⟩ | finish
  · exact cut.offset_lt_stop
  · simp [isName, finish] at name

end Token

namespace Flowchart

open Element (flattenAll)

/-! ## Elements of a source -/

/-- What elements and the source they are read from have in common. -/
structure FollowsSource (source : String) (elements : List Element) : Prop where
  /-- Each element begins behind the one before it. -/
  increasing : (flattenAll elements).Pairwise fun first second =>
    first.position.offset < second.position.offset
  /-- Each element has the line, the column and the byte of a token that the grammars read. -/
  placed : ∀ element ∈ flattenAll elements, ∃ token ∈ Token.tokenize source,
    token.isSignificant = true ∧ element.position = token.position
  /-- Each node has the name that the source spells, and no name goes on behind it. -/
  named : ∀ node, .node node ∈ flattenAll elements →
    Text.slice? node.position.offset (node.position.offset + node.id.utf8ByteSize)
        source.toList = some node.id.toList ∧
      ∀ token ∈ Token.tokenize source, token.isName = true →
        token.offset ≠ node.position.offset + node.id.utf8ByteSize
  /-- Each link begins at an arrow that links nodes and is written with the stroke of the link. -/
  linked : ∀ link, .link link ∈ flattenAll elements → ∃ token ∈ Token.tokenize source,
    ∃ shape, token.kind = .arrow shape ∧ shape.isLink = true ∧ link.stroke = .ofArrow shape ∧
      token.text ∈ link.stroke.spellings ∧ link.position = token.position

variable {source : String} {finish : Token} {enclosing : Option Token} {depth links : Nat}
  {hasSource : Bool} {items : List Item} {run : Run}

private theorem BeginsAmong.exists_suffix {element : Element} {left : List Item}
    (begins : BeginsAmong finish items left element) :
    ∃ first rest, first :: rest <:+ items ∧ Begins finish first rest element := by
  obtain ⟨before, first, rest, rfl, -, begins⟩ := begins
  exact ⟨first, rest, List.suffix_append .., begins⟩

/-- An item that begins an element is a significant token of the source. -/
theorem BeginsAmong.exists_token {element : Element} {left : List Item}
    (begins : BeginsAmong finish (Layout.items (Token.tokenize source)) left element) :
    ∃ token ∈ Token.tokenize source,
      token.isSignificant = true ∧ element.position = token.position := by
  obtain ⟨first, rest, read, begins⟩ := begins.exists_suffix
  have member := read.subset (List.mem_cons_self ..)
  exact ⟨first.toToken, Layout.toToken_mem_of_mem_items member,
    Layout.isSignificant_of_mem_items member, begins.position⟩

/-- An item that begins a link is an arrow of its stroke. -/
theorem BeginsAmong.exists_arrow {link : Link} {left : List Item}
    (begins : BeginsAmong finish (Layout.items (Token.tokenize source)) left (.link link)) :
    ∃ token ∈ Token.tokenize source, ∃ shape, token.kind = .arrow shape ∧ shape.isLink = true ∧
      link.stroke = .ofArrow shape ∧ token.text ∈ link.stroke.spellings ∧
        link.position = token.position := by
  obtain ⟨first, rest, read, begins⟩ := begins.exists_suffix
  obtain ⟨shape, kind, joins, stroke⟩ := begins.arrow link rfl
  have listed := read.subset (List.mem_cons_self ..)
  refine ⟨first.toToken, Layout.toToken_mem_of_mem_items listed, shape, kind, joins, stroke, ?_,
    begins.position⟩
  rw [stroke]
  exact (Layout.isCut_of_mem_items source first listed).text_mem_spellings kind joins

/-- The name of a node is a text of the source. -/
theorem BeginsAmong.slice?_id {node : Node} {left : List Item}
    (begins : BeginsAmong finish (Layout.items (Token.tokenize source)) left (.node node)) :
    Text.slice? node.position.offset (node.position.offset + node.id.utf8ByteSize)
      source.toList = some node.id.toList := by
  obtain ⟨first, rest, read, begins⟩ := begins.exists_suffix
  obtain ⟨name, id⟩ := begins.name node rfl
  have place : node.position = first.position := begins.position
  rw [place, id]
  exact Items.slice?_peekName
    (fun item member => Layout.toToken_mem_of_mem_items (read.subset member)) name finish

/-- No name touches the name of a node at its end. -/
theorem BeginsAmong.offset_ne {node : Node} {left : List Item}
    (begins : BeginsAmong finish (Layout.items (Token.tokenize source)) left (.node node)) :
    ∀ token ∈ Token.tokenize source, token.isName = true →
      token.offset ≠ node.position.offset + node.id.utf8ByteSize := by
  have order := (Token.tiles_tokenize source).pairwise
  have solid (token : Token) (member : token ∈ Token.tokenize source) :=
    Token.offset_lt_stop_of_isName member
  obtain ⟨passed, first, behind, split, name, -, stop⟩ := begins.exists_name order
  rw [split] at order solid
  obtain ⟨ahead, later⟩ := List.pairwise_cons.1 (List.pairwise_append.1 order).2.1
  have apart : ∀ token ∈ behind, first.stop ≤ token.offset := fun token member =>
    (ahead token member).apart
  have start : first.offset < Token.touchingStop first.stop behind :=
    (solid first (by simp) name).trans_le (Token.le_touchingStop apart)
  rw [split, stop]
  -- The name ends behind its first token, and what comes later touches it nowhere.
  intro token member own
  rcases List.mem_append.1 member with before | member
  · have earlier := (List.pairwise_append.1 order).2.2 token before first (List.mem_cons_self ..)
    exact (earlier.offset_lt.trans start).ne
  · rcases List.mem_cons.1 member with rfl | member
    · exact start.ne
    · exact Token.offset_ne_touchingStop later apart
        (fun token member => solid token (by simp [member])) token member own

/-- The elements of a run follow the source that its items are read from. -/
theorem Runs.followsSource (runs : Runs finish enclosing depth links hasSource items run)
    (read : items <:+ Layout.items (Token.tokenize source)) :
    FollowsSource source run.elements := by
  have begins (element : Element) (member : element ∈ flattenAll run.elements) :
      BeginsAmong finish (Layout.items (Token.tokenize source)) run.rest element :=
    (runs.begins element member).mono read (List.suffix_refl _)
  exact ⟨runs.offset_lt ((Layout.laidOut_items source).suffix read),
    fun element member => (begins element member).exists_token,
    fun node member => ⟨(begins _ member).slice?_id, (begins _ member).offset_ne⟩,
    fun link member => (begins _ member).exists_arrow⟩

/-- Every flowchart of a source follows it, the first and the ones behind. -/
theorem followsSource_of_reading {index : Nat} {chart : Flowchart}
    (drawn : (Validation.reading source index).value.content.flowchart? = some chart) :
    FollowsSource source chart.elements := by
  obtain ⟨header, rest, items, content⟩ := Validation.exists_header_of_flowchart? drawn
  obtain ⟨-, rfl⟩ := Validation.flowchart_of_content items content
  have read : rest <:+ Layout.items (Token.tokenize source) := by
    have left := Validation.remaining_suffix_of_le source (Nat.zero_le index)
    rw [items] at left
    exact (List.suffix_cons ..).trans left
  exact (runs_run ..).followsSource ((readDirection_suffix ..).trans read)

/-- The tree of a flowchart follows its source. All elements, each before those inside it, begin one
behind the other, and each where a significant token stands. A node is called as the source spells
it, and no name touches it there. A link begins at an arrow that links nodes, and its stroke is that
of the arrow. -/
theorem flowchart_follows_source {source : String} {chart : Flowchart}
    (drawn : ofSource? source = some chart) : FollowsSource source chart.elements := by
  unfold ofSource? validate at drawn
  split at drawn
  · cases drawn
  · exact @followsSource_of_reading _ 0 _ drawn

/-- A name of two tokens, a dotted link of the longer spelling, and a node inside a subgraph. -/
theorem flowchart_follows_source_dotted :
    ofSource? "flowchart TD\nCafé -..-> B\nsubgraph s\nC\nend" =
        some ⟨some .topDown,
          [.node ⟨"Café", none, .rectangle, ⟨2, 1, 13⟩⟩,
           .link ⟨some "B", none, .dotted, ⟨2, 6, 19⟩⟩,
           .node ⟨"B", none, .rectangle, ⟨2, 12, 25⟩⟩,
           .subgraph ⟨"s", none, ⟨3, 1, 27⟩⟩ [.node ⟨"C", none, .rectangle, ⟨4, 1, 38⟩⟩]]⟩ ∧
      FollowsSource "flowchart TD\nCafé -..-> B\nsubgraph s\nC\nend"
        [.node ⟨"Café", none, .rectangle, ⟨2, 1, 13⟩⟩,
         .link ⟨some "B", none, .dotted, ⟨2, 6, 19⟩⟩,
         .node ⟨"B", none, .rectangle, ⟨2, 12, 25⟩⟩,
         .subgraph ⟨"s", none, ⟨3, 1, 27⟩⟩ [.node ⟨"C", none, .rectangle, ⟨4, 1, 38⟩⟩]] :=
  ⟨by decide +kernel, @flowchart_follows_source _ ⟨some .topDown, _⟩ (by decide +kernel)⟩

end Flowchart

end DiagramCheck
