/-
# Link styles name links that are drawn

A link style refers to the links of its flowchart by number, in the order in
which they are drawn. A number is refused unless it is a plain whole number below
the count of links that begin before it, through all subgraphs of the flowchart.
Links behind the number do not count, nor do those of other diagrams.

A diagnostic of this kind can only come from a link style, and a link style
reports each of its numbers by itself. Two diagrams never share a number: what a
flowchart reads of a line comes before all that it leaves over.

Main statement: `linkStyle_reported_iff`.
-/

import DiagramCheck.Proofs.Diagram.Progress
import DiagramCheck.Proofs.Flowchart.Codes
import DiagramCheck.Proofs.Flowchart.LinkCount
import DiagramCheck.Proofs.Reading.Lines
import DiagramCheck.Proofs.Token.Word

namespace DiagramCheck

/-! ## Numbers -/

namespace Decoration

/-- A text is no index below a bound if it is no plain whole number or one that is too great. -/
def NoIndexBelow (bound : Nat) (text : String) : Prop :=
  Text.natural? text = none ∨ ∃ value, Text.natural? text = some value ∧ bound ≤ value

instance (bound : Nat) (text : String) : Decidable (NoIndexBelow bound text) :=
  decidable_of_iff ((Text.natural? text).all (bound ≤ ·) = true) (by
    unfold NoIndexBelow
    cases Text.natural? text <;> simp)

/-- An index is refused unless it is a whole number below the links, and one that fits a word. -/
theorem linkIndexProblem?_isSome_iff (links : Nat) (token : Token) :
    (linkIndexProblem? links token).isSome = true ↔
      NoIndexBelow (min links (Nat.pow 2 64)) token.text := by
  have word (value : Nat) : Text.word? 64 token.text = some value ↔
      Text.natural? token.text = some value ∧ value < Nat.pow 2 64 := by
    simp [Text.word?, Option.filter_eq_some_iff]
  unfold linkIndexProblem? NoIndexBelow
  cases read : Text.word? 64 token.text with
  | none =>
    refine iff_of_true rfl ?_
    -- Either it is no whole number, or one that is too large for a word.
    cases natural : Text.natural? token.text with
    | none => exact .inl rfl
    | some value =>
      have large : ¬ value < Nat.pow 2 64 := fun fits => by
        have := (word value).2 ⟨natural, fits⟩
        rw [read] at this
        cases this
      exact .inr ⟨value, rfl, by omega⟩
  | some index =>
    obtain ⟨natural, fits⟩ := (word index).1 read
    dsimp only
    rw [natural]
    split
    · next drawn =>
      refine iff_of_false (by simp) ?_
      rintro (absent | ⟨value, same, low⟩)
      · cases absent
      · cases same
        omega
    · exact iff_of_true rfl (.inr ⟨index, rfl, by omega⟩)

/-- What a link style reports stands at its keyword or at a number that it refuses. -/
theorem linkStyleProblems_cases {links : Nat} {keyword found : Token} {line : List Item}
    {diagnostic : Diagnostic}
    (reported : diagnostic ∈ linkStyleProblems links keyword found line) :
    (∃ problem, diagnostic = .atToken keyword problem) ∨
      ∃ item ∈ leadingNumbers line, ∃ problem,
        linkIndexProblem? links item.toToken = some problem ∧
          diagnostic = .atToken item.toToken problem := by
  unfold linkStyleProblems at reported
  split at reported
  · exact .inl ⟨_, List.mem_singleton.1 reported⟩
  · split at reported
    · cases reported
    · split at reported
      · obtain ⟨item, listed, wrong⟩ := List.mem_filterMap.1 reported
        obtain ⟨problem, refused, same⟩ := Option.map_eq_some_iff.1 wrong
        exact .inr ⟨item, listed, problem, refused, same.symm⟩
      · exact .inl ⟨_, List.mem_singleton.1 reported⟩

/-- A link style that goes on with a number reports each number that it refuses. -/
theorem mem_linkStyleProblems {links : Nat} {keyword found : Token} {first : Item}
    {line : List Item} (kind : first.kind = .number) (named : first.text ≠ "default")
    {item : Item} (listed : item ∈ leadingNumbers (first :: line)) {problem : Problem}
    (refused : linkIndexProblem? links item.toToken = some problem) :
    .atToken item.toToken problem ∈ linkStyleProblems links keyword found (first :: line) := by
  rw [linkStyleProblems, if_neg named, if_pos kind, List.mem_filterMap]
  exact ⟨item, listed, by rw [refused]; rfl⟩

private theorem mem_of_mem_leadingNumbers {line : List Item} {item : Item}
    (listed : item ∈ leadingNumbers line) : item ∈ line ∧ item.kind = .number := by
  obtain ⟨leading, number⟩ := List.mem_filter.1 listed
  exact ⟨(List.takeWhile_prefix _).subset leading, beq_iff_eq.1 number⟩

end Decoration

namespace Flowchart

/-! ## Link styles of a source -/

/-- A flowchart that a source holds behind its first `index` diagrams reads the link style that
begins with `keyword` when its run has come to `stage`. -/
structure StylesLinks (source : String) (index : Nat) (chart : Flowchart) (stage : Stage)
    (keyword : Item) (behind : List Item) : Prop where
  drawn : (Validation.reading source index).value.content = .flowchart chart
  reached : ∃ header rest, Validation.remaining source index = header :: rest ∧
    Reaches (Layout.finish source) (.ofHeader header.toToken rest) stage
  front : stage.items = keyword :: behind
  styles : keyword.decoration? = some .linkStyle

/-- A problem with `code` is reported at a token and covers it. -/
def ReportedAt (source : String) (code : Code) (token : Token) : Prop :=
  ∃ diagnostic ∈ (validate source).diagnostics, diagnostic.code = code ∧
    diagnostic.line = token.line ∧ diagnostic.column = token.column ∧
      diagnostic.span = token.span

variable {source : String} {index : Nat} {chart : Flowchart} {stage : Stage} {keyword : Item}
  {behind : List Item}

private theorem exists_stylesLinks_of_mem (member : stage ∈ Validation.stages source index)
    (front : stage.items = keyword :: behind) (styles : keyword.decoration? = some .linkStyle) :
    ∃ chart, StylesLinks source index chart stage keyword behind := by
  unfold Validation.stages at member
  split at member
  · cases member
  · next header rest items =>
    split at member
    · next kind =>
      refine ⟨(Flowchart.read (Layout.finish source) header.toToken rest).value, ?_,
        ⟨header, rest, items, Stage.mem_all.1 member⟩, front, styles⟩
      rw [Validation.reading_of_header items kind]
      rfl
    · cases member

/-- What a flowchart reports of a link index it reports at one of its link styles. -/
theorem exists_stylesLinks {header : Item} {rest : List Item}
    (items : Validation.remaining source index = header :: rest)
    (kind : header.kind = .header .flowchart) {diagnostic : Diagnostic}
    (reported : diagnostic ∈ (Validation.reading source index).diagnostics)
    (code : diagnostic.code = .invalidLinkstyleIndex) :
    ∃ chart stage keyword behind, StylesLinks source index chart stage keyword behind ∧
      diagnostic ∈ Decoration.linkStyleProblems stage.links keyword.toToken
        (Items.front (Layout.finish source) behind) (Items.onLine keyword.line behind) := by
  have read := Validation.reading_of_header items kind
  rw [read] at reported
  have member : diagnostic ∈
      ((Stage.ofHeader header.toToken rest).run (Layout.finish source)).diagnostics := by
    rcases List.mem_append.1 reported with front | joined
    · rcases List.mem_append.1 front with direction | member
      · have := readDirection_codes _ _ diagnostic direction
        rw [code] at this
        simp at this
      · exact member
    · have := connectionDiagnostics_codes _ _ diagnostic joined
      rw [code] at this
      simp at this
  obtain ⟨stage, reaches, own⟩ := Stage.mem_diagnostics_run.1 member
  obtain ⟨keyword, behind, front, styles⟩ := Stage.exists_linkStyle own code
  refine ⟨_, stage, keyword, behind, ⟨by rw [read]; rfl, ⟨header, rest, items, reaches⟩, front,
    styles⟩, ?_⟩
  obtain ⟨enclosing, depth, links, hasSource, ahead⟩ := stage
  cases front
  rwa [Stage.diagnostics_decoration styles] at own

namespace StylesLinks

variable (style : StylesLinks source index chart stage keyword behind)

include style

private theorem exists_header : ∃ header rest,
    Validation.remaining source index = header :: rest ∧ header.kind = .header .flowchart ∧
      chart = (Flowchart.read (Layout.finish source) header.toToken rest).value ∧
        Reaches (Layout.finish source) (.ofHeader header.toToken rest) stage := by
  obtain ⟨header, rest, items, reaches⟩ := style.reached
  obtain ⟨kind, read⟩ := Validation.flowchart_of_content items style.drawn
  exact ⟨header, rest, items, kind, read, reaches⟩

theorem suffix : keyword :: behind <:+ Validation.remaining source index := by
  obtain ⟨header, rest, items, reaches⟩ := style.reached
  rw [items, ← style.front]
  exact (reaches.suffix.trans (Stage.ofHeader_suffix ..)).trans (List.suffix_cons ..)

private theorem laidOut : Items.LaidOut (keyword :: behind) :=
  (Validation.laidOut_remaining source index).suffix style.suffix

/-- Behind a link style its run goes on below the line, and the style draws nothing. -/
theorem exists_below : ∃ below : Stage, below.items = Items.skipLine keyword.line behind ∧
    (stage.run (Layout.finish source)).elements = (below.run (Layout.finish source)).elements ∧
      (stage.run (Layout.finish source)).rest = (below.run (Layout.finish source)).rest := by
  have front := style.front
  obtain ⟨enclosing, depth, links, hasSource, items⟩ := stage
  cases front
  refine ⟨⟨enclosing, depth, links, hasSource, _⟩, rfl, ?_⟩
  rw [Stage.run_decoration style.styles]
  exact ⟨rfl, rfl⟩

variable {item : Item} (member : item ∈ Items.onLine keyword.line behind)

include member

private theorem mem_remaining : item ∈ Validation.remaining source index :=
  style.suffix.subset (List.mem_cons_of_mem _ ((List.takeWhile_prefix _).subset member))

/-- What stands on the line of a link style comes before all that the run leaves over. -/
theorem offset_lt_of_mem_rest {next : Item}
    (left : next ∈ (stage.run (Layout.finish source)).rest) : item.offset < next.offset := by
  obtain ⟨below, items, -, rest⟩ := style.exists_below
  rw [rest] at left
  have left := items ▸ (below.run_suffix _).subset left
  exact (style.laidOut.tail.precedes_of_onLine member left).offset_lt

/-- What stands on the line of a link style comes before all that its flowchart leaves over. -/
theorem offset_lt_of_remaining {next : Item}
    (left : next ∈ Validation.remaining source (index + 1)) : item.offset < next.offset := by
  obtain ⟨header, rest, items, kind, -, reaches⟩ := style.exists_header
  rw [Validation.remaining_succ, Validation.reading_of_header items kind] at left
  exact style.offset_lt_of_mem_rest member (reaches.rest_suffix.subset left)

/-- The links counted at a link style are those that begin before any item on its line. -/
theorem links_eq : stage.links = Element.linksBefore item.offset chart.elements := by
  obtain ⟨header, rest, items, kind, rfl, reaches⟩ := style.exists_header
  have laid : Items.LaidOut (Stage.ofHeader header.toToken rest).items := by
    -- The flowchart reads a suffix of the items of the source, which lie in order.
    have laid := Validation.laidOut_remaining source index
    rw [items] at laid
    exact laid.tail.suffix (Stage.ofHeader_suffix ..)
  -- What is drawn below the line begins behind the item, so the count stands still on the line.
  obtain ⟨below, start, elements, -⟩ := style.exists_below
  have counted := reaches.links_eq laid style.front
    (style.laidOut.precedes item ((List.takeWhile_prefix _).subset member)).offset_lt.le ?_
    fun next left => (style.offset_lt_of_mem_rest member left).le
  · rw [counted]
    exact Nat.zero_add _
  · rw [elements]
    refine le_offset_of_mem_elements _ below fun next ahead => ?_
    exact (style.laidOut.tail.precedes_of_onLine member (start ▸ ahead)).offset_lt.le

/-- Diagrams that are no flowcharts report what they find behind the line of a link style. -/
theorem offset_lt_of_reported {other : Nat} {header : Item} {rest : List Item}
    (items : Validation.remaining source other = header :: rest)
    (kind : header.kind ≠ .header .flowchart) {diagnostic : Diagnostic}
    (reported : diagnostic ∈ (Validation.reading source other).diagnostics) :
    item.offset < diagnostic.span.start := by
  obtain ⟨header', rest', items', kind', -⟩ := style.exists_header
  have own := style.mem_remaining member
  -- The diagram is a later one, and all of it stands behind the link style.
  have later : index < other := by
    rcases Nat.lt_trichotomy index other with earlier | same | later
    · exact earlier
    · rw [same, items] at items'
      cases items'
      exact absurd kind' kind
    · -- Such a diagram goes on to the end of the input.
      have ends : Validation.remaining source (other + 1) = [] := by
        rw [Validation.remaining_succ, Validation.reading, items]
        exact (Diagram.rest_read ..).resolve_right fun flowchart => kind flowchart.1
      have left := (Validation.remaining_suffix_of_le source later).subset own
      rw [ends] at left
      cases left
  have within : Items.Within (item.offset < ·.offset) (Validation.remaining source other) :=
    fun next ahead => style.offset_lt_of_remaining member
      ((Validation.remaining_suffix_of_le source later).subset ahead)
  have finished : item.offset < (Layout.finish source).offset :=
    Layout.offset_lt_finish ((Validation.remaining_suffix_of_le source (Nat.zero_le _)).subset own)
  rw [Validation.reading] at reported
  obtain ⟨token, problem, behind, -, rfl⟩ :=
    Diagram.read_standAt source.toList finished within (by rwa [items]) diagnostic reported
  exact behind

omit member in
/-- Link styles of two diagrams have no item in common. -/
theorem other_eq {other : Nat} {chart' : Flowchart} {stage' : Stage} {keyword' : Item}
    {behind' : List Item} (style' : StylesLinks source other chart' stage' keyword' behind')
    (member : item ∈ Items.onLine keyword.line behind)
    (member' : item ∈ Items.onLine keyword'.line behind') : other = index := by
  -- What the earlier of two flowcharts reads of a line is not left over for the later one.
  rcases Nat.lt_trichotomy other index with earlier | same | later
  · have left := (Validation.remaining_suffix_of_le source earlier).subset
      (style.mem_remaining member)
    exact absurd (style'.offset_lt_of_remaining member' left) (Nat.lt_irrefl _)
  · exact same
  · have left := (Validation.remaining_suffix_of_le source later).subset
      (style'.mem_remaining member')
    exact absurd (style.offset_lt_of_remaining member left) (Nat.lt_irrefl _)

end StylesLinks

/-- A diagnostic at a number of a link style is that of the number, refused. -/
theorem StylesLinks.refused_of_reportedAt
    (style : StylesLinks source index chart stage keyword behind) {item : Item}
    (listed : item ∈ Decoration.leadingNumbers (Items.onLine keyword.line behind))
    (reported : ReportedAt source .invalidLinkstyleIndex item.toToken) :
    (Decoration.linkIndexProblem? stage.links item.toToken).isSome = true := by
  obtain ⟨diagnostic, reported, code, -, -, span⟩ := reported
  obtain ⟨member, number⟩ := Decoration.mem_of_mem_leadingNumbers listed
  have place : diagnostic.span.start = item.offset := congrArg Span.start span
  have inside (count : Nat) : Validation.remaining source count ⊆
      Layout.items (Token.tokenize source) :=
    (Validation.remaining_suffix_of_le source (Nat.zero_le count)).subset
  have own := inside index (style.mem_remaining member)
  -- Items that stand at the same byte are the same.
  have same_item {other : Item} {problem : Problem}
      (known : other ∈ Layout.items (Token.tokenize source))
      (there : diagnostic = .atToken other.toToken problem) : other = item :=
    (Layout.laidOut_items source).eq_of_offset_eq known own (by rw [← place, there]; rfl)
  rcases (Validation.mem_diagnostics_validate (List.ne_nil_of_mem own)).1 reported with
    lexical | ⟨other, left, reported⟩
  · have := Layout.lexicalDiagnosticsAfter_codes none _ diagnostic lexical
    rw [code] at this
    simp at this
  · obtain ⟨header, rest, items⟩ := List.exists_cons_of_ne_nil left
    by_cases flowchart : header.kind = .header .flowchart
    · obtain ⟨chart', stage', keyword', behind', style', wrong⟩ :=
        exists_stylesLinks items flowchart reported code
      rcases Decoration.linkStyleProblems_cases wrong with
        ⟨problem, there⟩ | ⟨number', listed', problem, refused, there⟩
      · -- A keyword is no number.
        have same := same_item (inside other (style'.suffix.subset (List.mem_cons_self ..))) there
        have word := (isWord_of_decoration? style'.styles).1
        rw [same, number] at word
        cases word
      · have member' := (Decoration.mem_of_mem_leadingNumbers listed').1
        obtain rfl := same_item (inside other (style'.mem_remaining member')) there
        obtain rfl := style.other_eq style' member member'
        have charts : chart' = chart :=
          Content.flowchart.inj (style'.drawn.symm.trans style.drawn)
        rw [style.links_eq member, ← charts, ← style'.links_eq member', refused]
        rfl
    · exact absurd place (style.offset_lt_of_reported member items flowchart reported).ne'

namespace StylesLinks

variable (style : StylesLinks source index chart stage keyword behind)

include style

/-- Where a link style is read, its problems are reported. -/
theorem diagnostics_eq : stage.diagnostics (Layout.finish source) =
    Decoration.linkStyleProblems stage.links keyword.toToken
      (Items.front (Layout.finish source) behind) (Items.onLine keyword.line behind) := by
  have front := style.front
  obtain ⟨enclosing, depth, links, hasSource, items⟩ := stage
  cases front
  exact Stage.diagnostics_decoration style.styles

/-- What is reported at a link style is reported of the source. -/
theorem mem_diagnostics_validate {diagnostic : Diagnostic}
    (reported : diagnostic ∈ stage.diagnostics (Layout.finish source)) :
    diagnostic ∈ (validate source).diagnostics := by
  obtain ⟨header, rest, items, kind, -, reaches⟩ := style.exists_header
  have left : Validation.remaining source index ≠ [] := by
    rw [items]
    exact List.cons_ne_nil header rest
  have written : Layout.items (Token.tokenize source) ≠ [] := fun none =>
    left (List.suffix_nil.1 (none ▸ Validation.remaining_suffix_of_le source (Nat.zero_le index)))
  refine (Validation.mem_diagnostics_validate written).2 (.inr ⟨index, left, ?_⟩)
  rw [Validation.reading_of_header items kind]
  have run := Stage.mem_diagnostics_run.2 ⟨stage, reaches, reported⟩
  exact List.mem_append_left _ (List.mem_append_right _ run)

/-- A number that a link style refuses is reported. -/
theorem reportedAt_of_refused
    (numbered : Items.frontIs keyword.line (·.kind == .number) behind = true) {item : Item}
    (listed : item ∈ Decoration.leadingNumbers (Items.onLine keyword.line behind))
    (refused : (Decoration.linkIndexProblem? stage.links item.toToken).isSome = true) :
    ReportedAt source .invalidLinkstyleIndex item.toToken := by
  obtain ⟨problem, refused⟩ := Option.isSome_iff_exists.1 refused
  obtain ⟨first, more, rfl, line, number⟩ := Items.exists_of_frontIs numbered
  have number : first.kind = .number := beq_iff_eq.1 number
  have front : Items.onLine keyword.line (first :: more) =
      first :: Items.onLine keyword.line more :=
    List.takeWhile_cons_of_pos (beq_iff_eq.2 line)
  -- The word `default` is no number.
  have named : first.text ≠ "default" := by
    have known := (Validation.remaining_suffix_of_le source (Nat.zero_le index)).subset
      (style.suffix.subset (List.mem_cons_of_mem _ (List.mem_cons_self ..)))
    obtain ⟨c, text, written, head⟩ :=
      (Layout.isCut_of_mem_items source first known).exists_of_number number
    intro same
    rw [same] at written
    cases written
    exact absurd head (by decide)
  refine ⟨.atToken item.toToken problem, style.mem_diagnostics_validate ?_,
    Decoration.code_linkIndex refused, rfl, rfl, rfl⟩
  rw [front] at listed
  rw [style.diagnostics_eq, front]
  exact Decoration.mem_linkStyleProblems number named listed refused

end StylesLinks

/-- No more links begin before a place than the source has bytes. -/
theorem StylesLinks.linksBefore_le (style : StylesLinks source index chart stage keyword behind)
    {item : Item} (member : item ∈ Items.onLine keyword.line behind) :
    Element.linksBefore item.offset chart.elements ≤ source.utf8ByteSize := by
  obtain ⟨header, rest, items, -, -, reaches⟩ := style.exists_header
  have counted := reaches.links_le
  have taken := (Stage.ofHeader_suffix header.toToken rest).length_le
  have size := (Validation.laidOut_remaining source index).length_le fun item left =>
    ⟨Nat.zero_le _, Layout.offset_lt_finish
      ((Validation.remaining_suffix_of_le source (Nat.zero_le index)).subset left)⟩
  rw [items, List.length_cons, Layout.offset_finish] at size
  rw [← style.links_eq member]
  have none : (Stage.ofHeader header.toToken rest).links = 0 := rfl
  omega

/-- In any flowchart of a source, a number that a link style lists is reported if and only if it is
no plain whole number below the count of links that begin before it, through all subgraphs. Only in
a source of more bytes than a word can count may the bound be that of the word. -/
theorem linkStyle_reported_iff (style : StylesLinks source index chart stage keyword behind)
    (numbered : Items.frontIs keyword.line (·.kind == .number) behind = true) {item : Item}
    (listed : item ∈ Decoration.leadingNumbers (Items.onLine keyword.line behind)) :
    (ReportedAt source .invalidLinkstyleIndex item.toToken ↔
        Decoration.NoIndexBelow (min (Element.linksBefore item.offset chart.elements) (Nat.pow 2 64))
          item.text) ∧
      (source.utf8ByteSize < Nat.pow 2 64 →
        (ReportedAt source .invalidLinkstyleIndex item.toToken ↔
          Decoration.NoIndexBelow (Element.linksBefore item.offset chart.elements)
            item.text)) := by
  have member := (Decoration.mem_of_mem_leadingNumbers listed).1
  -- The link style itself compares with the links counted when its stage was reached.
  have bounded : ReportedAt source .invalidLinkstyleIndex item.toToken ↔
      Decoration.NoIndexBelow (min (Element.linksBefore item.offset chart.elements) (Nat.pow 2 64))
        item.text := by
    rw [← style.links_eq member, ← Decoration.linkIndexProblem?_isSome_iff]
    exact ⟨style.refused_of_reportedAt listed, style.reportedAt_of_refused numbered listed⟩
  refine ⟨bounded, fun fits => ?_⟩
  have := style.linksBefore_le member
  rwa [Nat.min_eq_left (by omega)] at bounded

/-- The second flowchart draws one link, inside a subgraph, so 0 is an index and 1 is none. -/
theorem linkStyle_reported_iff_second :
    let source := "flowchart TD\nA --> B\ngraph\nsubgraph s\nA --> B\nend\nlinkStyle 0,1"
    ¬ ReportedAt source .invalidLinkstyleIndex ⟨.number, "0", ⟨7, 11, 60⟩⟩ ∧
      ReportedAt source .invalidLinkstyleIndex ⟨.number, "1", ⟨7, 13, 62⟩⟩ := by
  intro source
  let keyword : Item := ⟨⟨.identifier, "linkStyle", ⟨7, 1, 50⟩⟩, true, true⟩
  let zero : Item := ⟨⟨.number, "0", ⟨7, 11, 60⟩⟩, false, false⟩
  let comma : Item := ⟨⟨.comma, ",", ⟨7, 12, 61⟩⟩, false, false⟩
  let one : Item := ⟨⟨.number, "1", ⟨7, 13, 62⟩⟩, false, false⟩
  let stage : Stage := ⟨none, 0, 1, true, [keyword, zero, comma, one]⟩
  have member : stage ∈ Validation.stages source 1 := by decide +kernel
  obtain ⟨chart, style⟩ := exists_stylesLinks_of_mem member rfl (by decide)
  have listed : zero ∈ Decoration.leadingNumbers (Items.onLine keyword.line [zero, comma, one]) ∧
      one ∈ Decoration.leadingNumbers (Items.onLine keyword.line [zero, comma, one]) := by
    decide
  have first := (linkStyle_reported_iff style (by decide) listed.1).2 (by decide +kernel)
  have second := (linkStyle_reported_iff style (by decide) listed.2).2 (by decide +kernel)
  rw [← style.links_eq (Decoration.mem_of_mem_leadingNumbers listed.1).1] at first
  rw [← style.links_eq (Decoration.mem_of_mem_leadingNumbers listed.2).1] at second
  exact ⟨fun reported => absurd (first.1 reported) (by decide), second.2 (by decide)⟩

end Flowchart

end DiagramCheck
