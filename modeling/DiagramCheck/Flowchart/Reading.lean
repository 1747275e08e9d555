/-
# Reading flowcharts

After the header and its direction a flowchart is a run of elements. It ends at
the end of the input or at another header that begins a line. A subgraph holds
a run of its own, which ends at `end`; when the input or the flowchart ends
first, every open subgraph is reported. Subgraphs nest to a fixed depth, and a
deeper one is skipped to its `end` without being read.

Nodes and links stand in one list. A link needs a source before it in the same
statement and a destination after it on the same line; the destination is read
again as the next node.

The links drawn so far are counted through all subgraphs, because a link style
refers to them by number.
-/

import DiagramCheck.Decoration.Reading
import DiagramCheck.Reading.Label

namespace DiagramCheck

namespace Token

/-- The word that closes a subgraph, in any case. -/
def closesSubgraph (token : Token) : Bool := token.isWordIgnoringCase "end"

/-- The word that opens a subgraph. -/
def opensSubgraph (token : Token) : Bool := token.isWord "subgraph"

/-- A name that can be a node's; the words that open and close subgraphs are reserved. -/
def isNodeName (token : Token) : Bool :=
  token.isName && !token.closesSubgraph && !token.opensSubgraph

end Token

namespace Flowchart

/-- How deep subgraphs may nest. -/
def maxDepth : Nat := 64

/-- A header that begins a line ends the flowchart before it. -/
def isBoundary (item : Item) : Bool := item.kind.isHeader && item.startsLine

/-! ## Nodes and links -/

/-- The bracket that opens a label, if `token` is one on line `line`. -/
def labelBracket? (line : Nat) (token : Token) : Option Bracket :=
  match token.kind with
  | .opening bracket => if token.line = line then some bracket else none
  | _ => none

/-- Reads a node: a name, and perhaps a label in the brackets that draw its shape. -/
def readNode (finish : Token) (items : List Item) : Reading Element :=
  let name := Items.peekName finish items
  let after := Items.afterName items
  match labelBracket? name.endLine (Items.front finish after) with
  | none => ⟨.node ⟨name.value, none, .rectangle, name.position⟩, [], after⟩
  | some bracket =>
    (Label.read finish name bracket (Items.front finish after).endLine TokenKind.isLink
      after.tail).map fun label =>
        .node ⟨name.value, label, .ofBracket bracket, name.position⟩

/-- Reads the label of a link after its opening pipe, which stands on `line`. -/
def readLinkLabel (finish : Token) (line : Nat) (items : List Item) : Reading (Option String) :=
  let isWord (item : Item) : Bool := item.line == line && item.kind != .pipe
  let words := items.takeWhile isWord
  let after := items.dropWhile isWord
  let found := Items.front finish after
  if Items.frontIs line (·.kind == .pipe) after then ⟨Label.ofItems? words, [], after.tail⟩
  else ⟨Label.ofItems? words, [.atToken found (.unclosedLinkLabel found.found)], after⟩

/-- Reads the label of a link on `line`, if there is one. -/
def readOptionalLinkLabel (finish : Token) (line : Nat) (items : List Item) :
    Reading (Option String) :=
  if Items.frontIs line (·.kind == .pipe) items then readLinkLabel finish line items.tail
  else ⟨none, [], items⟩

/-- The name of the node that a link on `line` leads to. -/
def destination? (finish : Token) (line : Nat) (items : List Item) : Option String :=
  let name := Items.peekName finish items
  if Items.frontIs line (fun _ => true) items && name.isNodeName then some name.value else none

/-- Reads a link after its arrow. The destination stays where it is and is read next. -/
def readLink (finish : Token) (shape : Arrow) (arrow : Token) (rest : List Item) :
    Reading Element :=
  let label := readOptionalLinkLabel finish arrow.line rest
  let destination := destination? finish arrow.line label.rest
  let missing :=
    if destination.isNone then [Diagnostic.atToken arrow .linkWithoutDestination] else []
  ⟨.link ⟨destination, label.value, .ofArrow shape, arrow.position⟩,
    label.diagnostics ++ missing, label.rest⟩

/-! ## Plain statements -/

/-- Reads what is neither the start nor the end of a subgraph: a decoration, a semicolon, a link
or a node. `links` links are drawn before it, and `hasSource` says whether the element before it
is one that a link can begin at. -/
def readPlain (finish : Token) (links : Nat) (hasSource : Bool) (first : Item)
    (rest : List Item) : Reading (Option Element) :=
  match first.decoration? with
  | some decoration =>
    (decoration.read finish .flowchart links first.toToken rest).map fun _ => none
  | none =>
    match first.kind with
    | .semicolon => ⟨none, [], rest⟩
    | .arrow shape =>
      if shape.isLink then
        let link := readLink finish shape first.toToken rest
        let loose :=
          if hasSource && !first.startsStatement then []
          else [Diagnostic.atToken first.toToken .linkWithoutSource]
        ⟨some link.value, loose ++ link.diagnostics, link.rest⟩
      else unexpected
    | _ => if first.isNodeName then (readNode finish (first :: rest)).map some else unexpected
where
  /-- Anything else is reported and passed over. -/
  unexpected : Reading (Option Element) :=
    ⟨none, [.atToken first.toToken (.unexpectedInFlowchart first.found)], rest⟩

/-! ## Subgraphs -/

/-- Reads the name and the title of a subgraph after its keyword. The title stands in square
brackets, or it is the rest of a line of several words, or the name itself when that is quoted. -/
def readHeading (finish keyword : Token) (rest : List Item) : Reading SubgraphHeading :=
  if Items.frontIs keyword.line (fun _ => true) rest then
    let name := Items.peekName finish rest
    let after := Items.afterName rest
    if Items.frontIs keyword.line (·.kind == .opening .square) after then
      (Label.read finish name .square (Items.front finish after).endLine (fun _ => false)
        after.tail).map fun label => ⟨name.value, label, keyword.position⟩
    else
      let words := name :: (Items.onLine keyword.line after).map Item.toToken
      let label := if 1 < words.length || name.kind == .string then Label.text? words else none
      ⟨⟨name.value, label, keyword.position⟩, [], Items.skipLine keyword.line after⟩
  else
    ⟨⟨"", none, keyword.position⟩, [.atToken keyword .unnamedSubgraph], rest⟩

/-- Skips a subgraph that lies too deep, to the `end` that closes it, with `opened` subgraphs open
before the items. Only words that begin a statement open and close subgraphs here. -/
def skipSubgraph (opened : Nat) : List Item → List Item
  | [] => []
  | first :: rest =>
    if isBoundary first then first :: rest
    else if first.startsStatement && first.opensSubgraph then skipSubgraph (opened + 1) rest
    else if first.startsStatement && first.closesSubgraph then
      if opened ≤ 1 then rest else skipSubgraph (opened - 1) rest
    else skipSubgraph opened rest

/-! ## Runs of elements -/

/-- What is read of a run of elements: the elements, the diagnostics, the number of links drawn up
to its end, and the items left over. -/
structure Run where
  elements : List Element
  diagnostics : List Diagnostic
  links : Nat
  rest : List Item
  deriving Repr

/-- A run with an element in front and diagnostics found before it. -/
def Run.prepend (run : Run) (element : Option Element) (diagnostics : List Diagnostic) : Run :=
  ⟨element.toList ++ run.elements, diagnostics ++ run.diagnostics, run.links, run.rest⟩

/-- What is reported when a run ends without an `end`; `enclosing` is the keyword of the subgraph
it belongs to. -/
def unclosed (enclosing : Option Token) : List Diagnostic :=
  (enclosing.map fun keyword => Diagnostic.atToken keyword .unclosedSubgraph).toList

/-- The links drawn once an element is read. -/
def countLink (links : Nat) : Option Element → Nat
  | some (.link _) => links + 1
  | _ => links

/-- Whether a link can begin at the last element once another may have been read. -/
def sourceAfter (hasSource : Bool) : Option Element → Bool
  | none => hasSource
  | some element => element.isSource

theorem readLinkLabel_suffix (finish : Token) (line : Nat) (items : List Item) :
    (readLinkLabel finish line items).rest <:+ items := by
  unfold readLinkLabel
  dsimp only
  split
  · exact (List.tail_suffix _).trans (List.dropWhile_suffix _)
  · exact List.dropWhile_suffix _

theorem readOptionalLinkLabel_suffix (finish : Token) (line : Nat) (items : List Item) :
    (readOptionalLinkLabel finish line items).rest <:+ items := by
  unfold readOptionalLinkLabel
  split
  · exact (readLinkLabel_suffix ..).trans (List.tail_suffix _)
  · exact List.suffix_refl _

theorem readLink_suffix (finish : Token) (shape : Arrow) (arrow : Token) (rest : List Item) :
    (readLink finish shape arrow rest).rest <:+ rest :=
  readOptionalLinkLabel_suffix ..

theorem readNode_suffix (finish : Token) (first : Item) (rest : List Item) :
    (readNode finish (first :: rest)).rest <:+ rest := by
  unfold readNode
  dsimp only
  split
  · exact Items.afterName_cons_suffix ..
  · exact (Label.read_suffix ..).trans
      ((List.tail_suffix _).trans (Items.afterName_cons_suffix ..))

theorem readPlain_suffix (finish : Token) (links : Nat) (hasSource : Bool) (first : Item)
    (rest : List Item) : (readPlain finish links hasSource first rest).rest <:+ rest := by
  unfold readPlain
  split
  · exact Items.skipLine_suffix ..
  · split
    · exact List.suffix_refl _
    · next shape _ =>
      split
      · exact readLink_suffix finish shape first.toToken rest
      · exact List.suffix_refl _
    · split
      · exact readNode_suffix ..
      · exact List.suffix_refl _

theorem readHeading_suffix (finish keyword : Token) (rest : List Item) :
    (readHeading finish keyword rest).rest <:+ rest := by
  unfold readHeading
  split
  · dsimp only
    split
    · exact (Label.read_suffix ..).trans
        ((List.tail_suffix _).trans (Items.afterName_suffix _))
    · exact (Items.skipLine_suffix ..).trans (Items.afterName_suffix _)
  · exact List.suffix_refl _

theorem skipSubgraph_suffix (opened : Nat) (items : List Item) :
    skipSubgraph opened items <:+ items := by
  fun_induction skipSubgraph opened items with
  | case1 => exact List.suffix_refl _
  | case2 => exact List.suffix_refl _
  | case3 _ first rest _ _ ih => exact ih.trans (List.suffix_cons ..)
  | case4 => exact List.suffix_cons ..
  | case5 _ first rest _ _ _ _ ih => exact ih.trans (List.suffix_cons ..)
  | case6 _ first rest _ _ _ ih => exact ih.trans (List.suffix_cons ..)

/-- A run that leaves over the end of `items`. -/
abbrev RunOf (items : List Item) : Type := { run : Run // run.rest <:+ items }

/-- A run of later items as one of earlier items, with an element in front and diagnostics found
before it. -/
abbrev RunOf.prepend {later items : List Item} (run : RunOf later) (suffix : later <:+ items)
    (element : Option Element) (diagnostics : List Diagnostic) : RunOf items :=
  ⟨run.1.prepend element diagnostics, run.2.trans suffix⟩

/-- Reads a run of elements. The run belongs to the subgraph whose keyword is `enclosing`, if any,
and lies inside `depth` subgraphs; `links` links are drawn before it, and `hasSource` says whether
a link can begin at the element before the items. What is left over is the end of the items. -/
def readRun (finish : Token) (enclosing : Option Token) (depth links : Nat) (hasSource : Bool)
    (items : List Item) : RunOf items :=
  match items with
  | [] => ⟨⟨[], unclosed enclosing, links, []⟩, List.suffix_refl _⟩
  | first :: rest =>
    if isBoundary first then
      ⟨⟨[], unclosed enclosing, links, first :: rest⟩, List.suffix_refl _⟩
    else if first.closesSubgraph then
      if enclosing.isSome then ⟨⟨[], [], links, rest⟩, List.suffix_cons ..⟩
      else
        (readRun finish enclosing depth links hasSource rest).prepend (List.suffix_cons ..) none
          [.atToken first.toToken .unmatchedEnd]
    else if first.opensSubgraph then
      if depth < maxDepth then
        let heading := readHeading finish first.toToken rest
        have headingSuffix := readHeading_suffix finish first.toToken rest
        let body := readRun finish (some first.toToken) (depth + 1) links false heading.rest
        have bodySuffix := body.2.trans headingSuffix
        (readRun finish enclosing depth body.1.links true body.1.rest).prepend
          (bodySuffix.trans (List.suffix_cons ..))
          (some (.subgraph heading.value body.1.elements))
          (heading.diagnostics ++ body.1.diagnostics)
      else
        have skipSuffix := skipSubgraph_suffix 1 rest
        (readRun finish enclosing depth links hasSource (skipSubgraph 1 rest)).prepend
          (skipSuffix.trans (List.suffix_cons ..)) none
          [.atToken first.toToken (.subgraphTooDeep maxDepth)]
    else
      let plain := readPlain finish links hasSource first rest
      have plainSuffix := readPlain_suffix finish links hasSource first rest
      (readRun finish enclosing depth (countLink links plain.value)
        (sourceAfter hasSource plain.value) plain.rest).prepend
        (plainSuffix.trans (List.suffix_cons ..)) plain.value plain.diagnostics
termination_by items.length
decreasing_by
  · exact Nat.lt_succ_self _
  · exact Nat.lt_succ_of_le headingSuffix.length_le
  · exact Nat.lt_succ_of_le bodySuffix.length_le
  · exact Nat.lt_succ_of_le skipSuffix.length_le
  · exact Nat.lt_succ_of_le plainSuffix.length_le

/-- The run of elements at the front of some items. -/
def run (finish : Token) (enclosing : Option Token) (depth links : Nat) (hasSource : Bool)
    (items : List Item) : Run :=
  (readRun finish enclosing depth links hasSource items).1

theorem run_suffix (finish : Token) (enclosing : Option Token) (depth links : Nat)
    (hasSource : Bool) (items : List Item) :
    (run finish enclosing depth links hasSource items).rest <:+ items :=
  (readRun finish enclosing depth links hasSource items).2

theorem run_nil (finish : Token) (enclosing : Option Token) (depth links : Nat)
    (hasSource : Bool) :
    run finish enclosing depth links hasSource [] = ⟨[], unclosed enclosing, links, []⟩ := by
  rw [run, readRun]

section Cases

variable {finish : Token} {enclosing : Option Token} {depth links : Nat} {hasSource : Bool}
  {first : Item} {rest : List Item}

/-- A header that begins a line is left over. -/
theorem run_boundary (boundary : isBoundary first = true) :
    run finish enclosing depth links hasSource (first :: rest) =
      ⟨[], unclosed enclosing, links, first :: rest⟩ := by
  rw [run, readRun, if_pos boundary]

/-- An `end` closes the subgraph that the run belongs to. -/
theorem run_closed {keyword : Token} (boundary : isBoundary first = false)
    (closes : first.closesSubgraph = true) :
    run finish (some keyword) depth links hasSource (first :: rest) = ⟨[], [], links, rest⟩ := by
  rw [run, readRun, if_neg (by simp [boundary]), if_pos closes]
  rfl

/-- An `end` outside all subgraphs is reported and passed over. -/
theorem run_unmatched (boundary : isBoundary first = false)
    (closes : first.closesSubgraph = true) :
    run finish none depth links hasSource (first :: rest) =
      (run finish none depth links hasSource rest).prepend none
        [.atToken first.toToken .unmatchedEnd] := by
  rw [run, readRun, if_neg (by simp [boundary]), if_pos closes, if_neg (by simp)]
  rfl

/-- A subgraph is read as its heading, its own run, and the run after it. -/
theorem run_subgraph (boundary : isBoundary first = false)
    (closes : first.closesSubgraph = false) (opens : first.opensSubgraph = true)
    (shallow : depth < maxDepth) {heading : Reading SubgraphHeading}
    (headingRead : readHeading finish first.toToken rest = heading) {body : Run}
    (bodyRead : run finish (some first.toToken) (depth + 1) links false heading.rest = body) :
    run finish enclosing depth links hasSource (first :: rest) =
      (run finish enclosing depth body.links true body.rest).prepend
        (some (.subgraph heading.value body.elements))
        (heading.diagnostics ++ body.diagnostics) := by
  subst headingRead bodyRead
  rw [run, readRun, if_neg (by simp [boundary]), if_neg (by simp [closes]), if_pos opens,
    if_pos shallow]
  rfl

/-- A subgraph that lies too deep is reported and skipped. -/
theorem run_tooDeep (boundary : isBoundary first = false)
    (closes : first.closesSubgraph = false) (opens : first.opensSubgraph = true)
    (deep : ¬ depth < maxDepth) :
    run finish enclosing depth links hasSource (first :: rest) =
      (run finish enclosing depth links hasSource (skipSubgraph 1 rest)).prepend none
        [.atToken first.toToken (.subgraphTooDeep maxDepth)] := by
  rw [run, readRun, if_neg (by simp [boundary]), if_neg (by simp [closes]), if_pos opens,
    if_neg deep]
  rfl

/-- Anything else is a plain statement. -/
theorem run_plain (boundary : isBoundary first = false)
    (closes : first.closesSubgraph = false) (opens : first.opensSubgraph = false)
    {plain : Reading (Option Element)}
    (plainRead : readPlain finish links hasSource first rest = plain) :
    run finish enclosing depth links hasSource (first :: rest) =
      (run finish enclosing depth (countLink links plain.value)
        (sourceAfter hasSource plain.value) plain.rest).prepend plain.value
        plain.diagnostics := by
  subst plainRead
  rw [run, readRun, if_neg (by simp [boundary]), if_neg (by simp [closes]),
    if_neg (by simp [opens])]
  rfl

end Cases

end Flowchart

end DiagramCheck
