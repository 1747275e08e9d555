/-
# Reading diagrams with every step checked

A few steps of reading a diagram have conditions. Text is taken from the source
between two tokens, which must stand at boundaries in order. The tokens behind a
node are looked for by halving, and cut off at the index found, which must be one
of the list. Open subgraphs are counted down, and so is the number of links that a
message names, which must not be zero then. The length of a span is the
difference of its ends.

Here each of these steps fails when its condition is not met. None ever does, and
what they give is what the grammars use, so no diagnostic speaks of a failure of
the check itself.

Main statement: `no_internal_failure`.
-/

import DiagramCheck.Proofs.Diagram.Progress
import DiagramCheck.Proofs.Flowchart.Codes
import DiagramCheck.Proofs.Token.Checked

namespace DiagramCheck

private theorem Span.difference?_eq (span : Span) :
    difference? span.stop span.start = some span.length :=
  if_pos span.start_le_stop

/-! ## Looking for an index by halving -/

section Search

variable {α : Type} (test : α → Bool) (list : List α)

/-- Looks between two indices for the first element that fails a test which holds of the elements
before it. -/
def searchBetween (low high : Nat) : Nat :=
  if low < high then
    let middle := low + (high - low) / 2
    if (list[middle]?).any test then searchBetween (middle + 1) high
    else searchBetween low middle
  else low
termination_by high - low

/-- The number of elements at the front of a list that pass a test. -/
def partitionPoint : Nat := searchBetween test list 0 list.length

variable {test list}

private theorem searchBetween_le {low high : Nat} (order : low ≤ high) :
    searchBetween test list low high ≤ high := by
  fun_induction searchBetween test list low high with
  | case1 low high _ middle _ ih => exact ih (by omega)
  | case2 low high _ middle _ ih => exact (ih (by omega)).trans (by omega)
  | case3 => exact order

private theorem partitionPoint_le : partitionPoint test list ≤ list.length :=
  searchBetween_le (Nat.zero_le _)

/-- Where the elements that pass come first, the search ends behind them. -/
theorem searchBetween_eq {passing failing : List α} (pass : ∀ a ∈ passing, test a = true)
    (fail : ∀ a ∈ failing, test a = false) {low high : Nat} (above : low ≤ passing.length)
    (below : passing.length ≤ high) (inside : high ≤ (passing ++ failing).length) :
    searchBetween test (passing ++ failing) low high = passing.length := by
  fun_induction searchBetween test (passing ++ failing) low high with
  | case1 low high _ middle passes ih =>
    refine ih (Nat.lt_of_not_le fun late => ?_) below inside
    -- An element that passes is none of those that fail.
    rw [List.getElem?_append_right late] at passes
    obtain ⟨a, there, passed⟩ := (Option.any_eq_true ..).1 passes
    rw [fail a (List.mem_of_getElem? there)] at passed
    cases passed
  | case2 low high _ middle fails ih =>
    refine ih above (Nat.le_of_not_lt fun early => ?_) (by omega)
    rw [List.getElem?_append_left early, List.getElem?_eq_getElem early] at fails
    exact fails (pass _ (List.getElem_mem early))
  | case3 => omega

private theorem partitionPoint_append {passing failing : List α}
    (pass : ∀ a ∈ passing, test a = true)
    (fail : ∀ a ∈ failing, test a = false) :
    partitionPoint test (passing ++ failing) = passing.length :=
  searchBetween_eq pass fail (Nat.zero_le _) (by simp) (Nat.le_refl _)

/-- When what passes comes first in a list, the search comes to the first failure. -/
theorem drop_partitionPoint (order : list.Pairwise fun a b => test b = true → test a = true) :
    list.drop (partitionPoint test list) = list.dropWhile test := by
  have split : list.takeWhile test ++ list.dropWhile test = list :=
    List.takeWhile_append_dropWhile
  have pass : ∀ a ∈ list.takeWhile test, test a = true := fun a => List.mem_takeWhile_imp
  have point := partitionPoint_append pass (eq_false_of_mem_dropWhile order)
  rw [split] at point
  calc list.drop (partitionPoint test list)
      = (list.takeWhile test ++ list.dropWhile test).drop (list.takeWhile test).length := by
        rw [split, point]
    _ = list.dropWhile test := List.drop_left

end Search

/-! ## Semicolons between nodes -/

namespace Layout

/-- The tokens that the grammars read, the end of the input among them. -/
def kept (tokens : List Token) : List Token :=
  tokens.filter fun token => !(token.kind == .comment || token.kind == .directive)

theorem kept_tokenize (source : String) :
    kept (Token.tokenize source) =
      (items (Token.tokenize source)).map Item.toToken ++ [finish source] := by
  obtain ⟨lexemes, split, cuts⟩ := (Token.tiles_tokenize source).eq_append
  rw [map_toToken_items, kept, split, List.filter_append, List.filter_append]
  have same : lexemes.filter (fun token => !(token.kind == .comment || token.kind == .directive)) =
      lexemes.filter Token.isSignificant := by
    refine List.filter_congr fun token member => ?_
    obtain ⟨behind, cut⟩ := cuts token member
    have := cut.kind_ne_endOfInput
    unfold Token.isSignificant
    split <;> simp_all
  rw [same, List.append_assoc]
  rfl

end Layout

namespace Flowchart

/-- Whether a semicolon stands between two nodes: the tokens behind the first are found by halving,
and the list is cut there. -/
def separated? (tokens : List Token) (first second : Node) : Option Bool :=
  let start := partitionPoint (·.offset ≤ first.position.offset) tokens
  if start ≤ tokens.length then
    some (((tokens.drop start).takeWhile (·.offset < second.position.offset)).any
      (·.kind == .semicolon))
  else none

/-- In tokens in order the search comes to the first token behind the node. -/
theorem separated?_eq {tokens : List Token} (order : tokens.Pairwise (·.offset < ·.offset))
    (first second : Node) :
    separated? tokens first second =
      some (((tokens.dropWhile (·.offset ≤ first.position.offset)).takeWhile
        (·.offset < second.position.offset)).any (·.kind == .semicolon)) := by
  unfold separated?
  dsimp only
  rw [if_pos partitionPoint_le, drop_partitionPoint]
  exact order.imp fun less => by simpa using less.le.trans

/-- The end of the input, which is no semicolon, does not matter between nodes. -/
theorem any_between_concat (passed within : Token → Bool) (items : List Item) {finish : Token}
    (finished : finish.kind = .endOfInput) :
    (((items.map Item.toToken ++ [finish]).dropWhile passed).takeWhile within).any
        (·.kind == .semicolon) =
      ((items.dropWhile (passed ·.toToken)).takeWhile (within ·.toToken)).any
        (·.kind == .semicolon) := by
  have taken (items : List Item) :
      ((items.map Item.toToken ++ [finish]).takeWhile within).any (·.kind == .semicolon) =
        (items.takeWhile (within ·.toToken)).any (·.kind == .semicolon) := by
    induction items with
    | nil => cases inside : within finish <;> simp [inside, finished]
    | cons first rest ih => cases inside : within first.toToken <;> simp [inside, ih]
  induction items with
  | nil =>
    have := taken []
    cases skipped : passed finish <;> simp_all
  | cons first rest ih =>
    cases skipped : passed first.toToken with
    | true => simpa [skipped] using ih
    | false => simpa [skipped] using taken (first :: rest)

/-- In all tokens of a source the search finds what stands between two nodes of a flowchart. -/
theorem separated?_kept {source : String} {index : Nat} {header : Item} {rest : List Item}
    {chart : Flowchart} (items : Validation.remaining source index = header :: rest)
    (drawn : (Validation.reading source index).value.content = .flowchart chart) {first : Node}
    (member : .node first ∈ Element.flattenAll chart.elements) (second : Node) :
    separated? (Layout.kept (Token.tokenize source)) first second =
      some (separated rest first second) := by
  obtain ⟨-, rfl⟩ := Validation.flowchart_of_content items drawn
  obtain ⟨passed, split⟩ := Validation.remaining_suffix_of_le source (Nat.zero_le index)
  rw [items, List.append_cons] at split
  -- The node begins behind the header, so everything up to there is passed by.
  have before : ∀ item ∈ passed ++ [header], item.offset ≤ first.position.offset := by
    obtain ⟨between, own, after, inside, -, begins⟩ :=
      ((Stage.ofHeader header.toToken rest).runs (Layout.finish source)).begins _ member
    have known : own ∈ rest :=
      (Stage.ofHeader_suffix header.toToken rest).subset (by rw [inside]; simp)
    have laid : Items.LaidOut (passed ++ [header] ++ rest) :=
      split ▸ Validation.laidOut_remaining source 0
    intro item ahead
    have place : first.position = own.position := begins.position
    rw [place]
    exact ((List.pairwise_append.1 laid.pairwise).2.2 item ahead own known).offset_lt.le
  have order : (Layout.kept (Token.tokenize source)).Pairwise (·.offset < ·.offset) :=
    ((Token.tiles_tokenize source).pairwise.filter _).imp Token.Precedes.offset_lt
  have all : Layout.items (Token.tokenize source) = passed ++ [header] ++ rest := split.symm
  rw [separated?_eq order, Layout.kept_tokenize, any_between_concat _ _ _ rfl, all,
    List.dropWhile_append_of_pos fun item ahead => decide_eq_true (before item ahead)]
  rfl

/-! ## Subgraphs that are skipped -/

/-- Skips a subgraph, counting the open ones down to none; the count must not be none before. -/
def skip? (opened : Nat) : List Item → Option (List Item)
  | [] => some []
  | first :: rest =>
    if isBoundary first then some (first :: rest)
    else if first.startsStatement && first.opensSubgraph then skip? (opened + 1) rest
    else if first.startsStatement && first.closesSubgraph then
      (difference? opened 1).bind fun left => if left = 0 then some rest else skip? left rest
    else skip? opened rest

/-- As long as a subgraph is open there is one to close. -/
theorem skip?_eq {opened : Nat} (positive : 0 < opened) (items : List Item) :
    skip? opened items = some (skipSubgraph opened items) := by
  induction items generalizing opened with
  | nil => rfl
  | cons first rest ih =>
    rw [skip?, skipSubgraph]
    split
    · rfl
    · split
      · exact ih (Nat.succ_pos opened)
      · split
        · have counted : difference? opened 1 = some (opened - 1) := if_pos positive
          rw [counted, Option.bind_some]
          by_cases last : opened ≤ 1
          · rw [if_pos last, if_pos (by omega)]
          · rw [if_neg last, if_neg (by omega), ih (by omega)]
        · exact ih positive

end Flowchart

/-! ## Messages about link indices -/

/-- What is suggested for an index beyond `count` links, where the last of them is named. -/
def indexHint? (count : Nat) : Option String :=
  if count = 0 then some "define links before styling them"
  else (difference? count 1).map fun last => s!"use an index between 0 and {last}"

private theorem indexHint?_eq (index count : Nat) :
    indexHint? count = (Problem.linkIndexOutOfRange index count).suggestion? := by
  cases count with
  | zero => rfl
  | succ last => rfl

/-! ## Text between tokens -/

/-- There is a text between any two tokens of a source, and it is read. -/
theorem exists_textBetween {source : String} {first last : Token}
    (member : first ∈ Token.tokenize source) (member' : last ∈ Token.tokenize source) :
    ∃ inside,
      Text.slice? first.offset (max first.offset last.stop) source.toList = some inside ∧
        Chart.textBetween source.toList first last = String.ofList inside := by
  have start := (Token.isBoundary_tokenize source first member).1
  have stop : Text.IsBoundary source.toList (max first.offset last.stop) := by
    rcases Nat.le_total first.offset last.stop with order | order
    · rw [Nat.max_eq_right order]
      exact (Token.isBoundary_tokenize source last member').2
    · rw [Nat.max_eq_left order]
      exact start
  obtain ⟨inside, sliced⟩ := start.slice?_isSome stop (Nat.le_max_left ..)
  refine ⟨inside, sliced, ?_⟩
  rw [Chart.textBetween, sliced]
  rfl

/-- A name is read from the source in one piece, from its first token to its last. -/
theorem Items.slice?_touching {source : String} {start stop : Nat} {items : List Item}
    (known : ∀ item ∈ items, item.toToken ∈ Token.tokenize source) {written : List Char}
    (own : Text.slice? start stop source.toList = some written) :
    Text.slice? start (Token.touchingStop stop (items.map Item.toToken)) source.toList =
      some (written ++ (String.join ((touching stop items).map (·.text))).toList) := by
  fun_induction touching stop items generalizing written with
  | case1 => simpa [Token.touchingStop] using own
  | case2 stop first rest touches ih =>
    obtain ⟨member, later⟩ := List.forall_mem_cons.1 known
    have next := Token.slice?_tokenize source _ member
    have place : first.offset = stop := by
      rw [Bool.and_eq_true, beq_iff_eq] at touches
      exact touches.2
    rw [place] at next
    rw [List.map_cons, Token.touchingStop, if_pos touches, ih later (Text.slice?_trans own next),
      List.map_cons, String.join_cons, String.toList_append, List.append_assoc]
  | case3 stop first rest apart =>
    rw [List.map_cons, Token.touchingStop, if_neg apart]
    simpa using own

/-- The text of a name is the text of the source that the name covers. -/
theorem Items.slice?_peekName {source : String} {first : Item} {rest : List Item}
    (known : ∀ item ∈ first :: rest, item.toToken ∈ Token.tokenize source)
    (name : first.isName = true) (finish : Token) :
    Text.slice? first.offset
        (first.offset + (peekName finish (first :: rest)).text.utf8ByteSize) source.toList =
      some (peekName finish (first :: rest)).text.toList := by
  obtain ⟨member, later⟩ := List.forall_mem_cons.1 known
  rw [offset_add_peekName finish name, text_peekName finish name,
    slice?_touching later (Token.slice?_tokenize source _ member), List.map_cons,
    String.join_cons, String.toList_append]

/-! ## Diagnostics of problems -/

private theorem Problem.code_ne_validationError (problem : Problem) :
    problem.code ≠ .validationError := by
  cases problem <;> exact Code.noConfusion

/-- Whatever is said of a diagram is said of a problem with it. -/
theorem Diagram.exists_problem {source : List Char} {finish : Token} {items : List Item}
    {diagnostic : Diagnostic} (reported : diagnostic ∈ (read source finish items).diagnostics) :
    ∃ problem : Problem, diagnostic.code = problem.code := by
  have within (items : List Item) : Items.Within (fun _ => True) items := fun _ _ => trivial
  have standing {diagnostics : List Diagnostic} (member : diagnostic ∈ diagnostics)
      (stand : Diagnostic.StandAt (fun _ => True) diagnostics) :
      ∃ problem : Problem, diagnostic.code = problem.code := by
    obtain ⟨token, problem, -, -, rfl⟩ := stand diagnostic member
    exact ⟨problem, rfl⟩
  by_cases flowchart : (Items.front finish items).kind = .header .flowchart
  · unfold read at reported
    dsimp only at reported
    rw [flowchart] at reported
    rcases List.mem_append.1 reported with front | joined
    · rcases List.mem_append.1 front with direction | own
      · exact standing direction (Flowchart.readDirection_standAt (within _))
      · exact standing own ((Flowchart.runs_run ..).standAt trivial (fun _ _ => trivial) (within _))
    · obtain ⟨first, second, -, rfl⟩ := Flowchart.exists_of_mem_connectionDiagnostics joined
      exact ⟨.unconnectedNodes first.id second.id, rfl⟩
  · exact standing reported (Diagram.read_standAt source trivial (within items) flowchart)

/-- No diagnostic speaks of a failure of the check. -/
theorem code_ne_validationError {source : String} {diagnostic : Diagnostic}
    (reported : diagnostic ∈ (validate source).diagnostics) :
    diagnostic.code ≠ .validationError := by
  obtain ⟨problem, code⟩ : ∃ problem : Problem, diagnostic.code = problem.code := by
    unfold validate at reported
    split at reported
    · obtain rfl := List.mem_singleton.1 reported
      exact ⟨.blankInput, rfl⟩
    · -- By the rules for comments, strings and directives, or by a grammar.
      rcases List.mem_append.1 (Diagnostic.mem_inSourceOrder.1 reported) with front | later
      · rcases List.mem_append.1 front with lexical | first
        · obtain ⟨token, problem, -, -, rfl⟩ := Layout.lexicalDiagnosticsAfter_standAt none
            (fun _ _ => trivial) diagnostic lexical
          exact ⟨problem, rfl⟩
        · exact Diagram.exists_problem first
      · obtain ⟨reading, listed, own⟩ := List.mem_flatMap.1 later
        obtain ⟨_, _, -, rfl⟩ := Reading.exists_of_mem_statements listed
        exact Diagram.exists_problem own
  rw [code]
  exact problem.code_ne_validationError

/-- A source is never refused for a failure of the check, and no step of it fails. The tokens are
those of a scanner that checks every slice and needs a rule for every lexeme. There is a text
between any two tokens, and names are texts of the source. The search for what stands behind a node
ends inside the list of tokens, an open subgraph is counted down only where there is one, a link
index is named only where a link is drawn, and no span ends before it starts. -/
theorem no_internal_failure (source : String) :
    (∀ diagnostic ∈ (validate source).diagnostics, diagnostic.code ≠ .validationError) ∧
      Scanner.tokenize? source = some (Token.tokenize source) ∧
      (∀ first ∈ Token.tokenize source, ∀ last ∈ Token.tokenize source, ∃ inside,
        Text.slice? first.offset (max first.offset last.stop) source.toList = some inside ∧
          Chart.textBetween source.toList first last = String.ofList inside) ∧
      (∀ first rest, first :: rest <:+ Layout.items (Token.tokenize source) →
        first.isName = true →
          Text.slice? first.offset (first.offset +
            (Items.peekName (Layout.finish source) (first :: rest)).text.utf8ByteSize)
              source.toList =
            some (Items.peekName (Layout.finish source) (first :: rest)).text.toList) ∧
      (∀ index header rest chart, Validation.remaining source index = header :: rest →
        (Validation.reading source index).value.content = .flowchart chart →
          ∀ first, .node first ∈ Element.flattenAll chart.elements → ∀ second,
            Flowchart.separated? (Layout.kept (Token.tokenize source)) first second =
              some (Flowchart.separated rest first second)) ∧
      (∀ items, Flowchart.skip? 1 items = some (Flowchart.skipSubgraph 1 items)) ∧
      (∀ index count,
        indexHint? count = (Problem.linkIndexOutOfRange index count).suggestion?) ∧
      ∀ diagnostic ∈ (validate source).diagnostics,
        difference? diagnostic.span.stop diagnostic.span.start =
          some diagnostic.span.length := by
  refine ⟨fun _ => code_ne_validationError, Scanner.tokenize?_eq source,
    fun _ member _ member' => exists_textBetween member member', ?_,
    fun _ _ _ _ items drawn _ member second => Flowchart.separated?_kept items drawn member second,
    Flowchart.skip?_eq Nat.one_pos, indexHint?_eq,
    fun diagnostic _ => diagnostic.span.difference?_eq⟩
  intro first rest suffix name
  exact Items.slice?_peekName
    (fun _ member => Layout.toToken_mem_of_mem_items (suffix.subset member)) name _

end DiagramCheck
