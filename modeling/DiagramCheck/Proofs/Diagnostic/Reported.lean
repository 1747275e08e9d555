/-
# What each reader reports

Every reader of a statement reports between the item the statement begins with
and the token it leaves over, and nothing twice. There is one fact about each of
them. The readers that report ahead are those of labels in brackets, of link
labels, of axis bounds and of the values of a series; what they look at is never
the first item of a statement.
-/

import DiagramCheck.Diagram.Basic
import DiagramCheck.Proofs.Diagnostic.Manner
import DiagramCheck.Proofs.Flowchart.Run

namespace DiagramCheck

open Diagnostic (ReportedIn)
open Items (Rising)

/-! ## Items of a stretch -/

/-- Items of a stretch of the source, one behind the other. -/
structure Items.LieIn (low high : Nat) (items : List Item) : Prop where
  ascending : items.Pairwise fun first second => first.offset < second.offset
  inside : ∀ item ∈ items, low ≤ item.offset ∧ item.offset < high

open Items (LieIn)

variable {finish : Token} {low high : Nat} {first keyword : Item} {items rest : List Item}

namespace Items.LieIn

theorem sublist {less : List Item} (lie : LieIn low high items) (sublist : less.Sublist items) :
    LieIn low high less :=
  ⟨lie.ascending.sublist sublist, fun item member => lie.inside item (sublist.subset member)⟩

/-- What lies behind an item begins after its first byte. -/
theorem of_cons (lie : LieIn low high (first :: rest)) : LieIn (first.offset + 1) high rest := by
  obtain ⟨behind, ascending⟩ := List.pairwise_cons.1 lie.ascending
  exact ⟨ascending, fun item member =>
    ⟨behind item member, (lie.inside item (List.mem_cons_of_mem _ member)).2⟩⟩

theorem head (lie : LieIn low high (first :: rest)) : low ≤ first.offset ∧ first.offset < high :=
  lie.inside first (List.mem_cons_self ..)

private theorem of_rising {before behind : List Item} (rising : Rising finish (before ++ behind))
    (bound : low ≤ (front finish (before ++ behind)).offset) :
    LieIn low (front finish behind).offset before :=
  ⟨rising.ascending.sublist (List.sublist_append_left ..), fun _ member =>
    ⟨bound.trans (rising.front_le_of_mem (List.mem_append_left _ member)),
      rising.lt_front member⟩⟩

/-- The items on the line of a keyword lie between the keyword and what is left of the items when
the line is skipped. -/
theorem onLine (line : Nat) (rising : Rising finish (first :: rest)) :
    LieIn first.offset (front finish (skipLine line rest)).offset (Items.onLine line rest) := by
  have split : Items.onLine line rest ++ skipLine line rest = rest :=
    List.takeWhile_append_dropWhile
  refine of_rising (by rw [split]; exact rising.tail) ?_
  rw [split]
  exact (rising.first_lt (List.suffix_refl _)).le

/-- Reports at some of the items, one at each. -/
theorem reported (lie : LieIn low high items) {problem? : Item → Option Problem}
    (manner : ∀ item ∈ items, ∀ problem ∈ problem? item, problem.manner = .taken) :
    ReportedIn low high
      (items.filterMap fun item => (problem? item).map (Diagnostic.atToken item.toToken)) := by
  induction items generalizing low with
  | nil => exact .nil
  | cons first rest ih =>
    obtain ⟨own, others⟩ := List.forall_mem_cons.1 manner
    obtain ⟨behind, before⟩ := lie.head
    have later := ih lie.of_cons others
    rw [List.filterMap_cons]
    cases found : problem? first with
    | none => exact later.mono (behind.trans (Nat.le_succ _)) le_rfl
    | some problem =>
      have here : ReportedIn low (first.offset + 1)
          [Diagnostic.atToken first.toToken problem] :=
        .taken (own problem found) behind (Nat.lt_succ_self _)
      exact here.append later (behind.trans (Nat.le_succ _)) before

end Items.LieIn

/-! ## Labels and decorations -/

theorem Label.read_reported (rising : Rising finish items)
    (behind : low < (Items.front finish items).offset) (owner : Token) (bracket : Bracket)
    (line : Nat) (stops : TokenKind → Bool) :
    (Label.read finish owner bracket line stops items).ReportsFrom finish low := by
  have dropped := List.dropWhile_suffix (l := items) (isInside bracket line)
  unfold read
  dsimp only
  split
  · exact .nil
  · exact .ahead rfl (behind.trans_le (rising.front_le dropped))
      ((rising.suffix dropped).front_le (recover_suffix ..))

namespace Decoration

variable {line : List Item}

private theorem manner_misplaced (decoration : Decoration) (family : Family) (line : List Item) :
    (decoration.misplaced family line).manner = .taken := by
  unfold misplaced
  split
  · rfl
  · split <;> rfl
  · rfl

private theorem classProblems_reported (lie : LieIn keyword.offset high line)
    (before : keyword.offset < high) :
    ReportedIn keyword.offset high (classProblems keyword.toToken line) := by
  unfold classProblems
  split
  · exact .taken rfl le_rfl before
  · cases found : line.find? (·.kind == .equals) with
    | none => exact .nil
    | some equals =>
      obtain ⟨behind, inside⟩ := lie.inside equals (List.mem_of_find?_eq_some found)
      exact .taken rfl behind inside

private theorem manner_linkIndexProblem? {links : Nat} {token : Token} {problem : Problem}
    (wrong : linkIndexProblem? links token = some problem) : problem.manner = .taken := by
  unfold linkIndexProblem? at wrong
  split at wrong
  · cases wrong
    rfl
  · split at wrong <;> cases wrong
    rfl

private theorem linkStyleProblems_reported (lie : LieIn keyword.offset high line)
    (before : keyword.offset < high) (links : Nat) (found : Token) :
    ReportedIn keyword.offset high (linkStyleProblems links keyword.toToken found line) := by
  unfold linkStyleProblems
  split
  · exact .taken rfl le_rfl before
  · next first rest =>
    split
    · exact .nil
    · split
      · -- Every index is checked by itself and reported at its own item.
        have leading : (leadingNumbers (first :: rest)).Sublist (first :: rest) :=
          List.filter_sublist.trans (List.takeWhile_prefix _).sublist
        exact (lie.sublist leading).reported fun _ _ _ wrong => manner_linkIndexProblem? wrong
      · exact .taken rfl le_rfl before

private theorem directionProblems_reported (lie : LieIn keyword.offset high line)
    (before : keyword.offset < high) :
    ReportedIn keyword.offset high (directionProblems keyword.toToken line) := by
  unfold directionProblems
  split
  · exact .taken rfl le_rfl before
  · split
    · exact .nil
    · exact .taken rfl lie.head.1 lie.head.2

theorem read_reported (rising : Rising finish (keyword :: rest)) (decoration : Decoration)
    (family : Family) (links : Nat) :
    (decoration.read finish family links keyword.toToken rest).ReportsFrom finish
      keyword.offset := by
  have lie := LieIn.onLine keyword.line rising
  have before := rising.first_lt (Items.skipLine_suffix keyword.line rest)
  simp only [read, diagnostics]
  split
  · cases decoration with
    | classDefinition => exact classProblems_reported lie before
    | linkStyle => exact linkStyleProblems_reported lie before _ _
    | direction => exact directionProblems_reported lie before
    | _ => exact .nil
  · exact .taken (manner_misplaced _ _ _) le_rfl before

end Decoration

/-! ## Flowcharts -/

namespace Flowchart

private theorem readNode_reported (rising : Rising finish (first :: rest)) :
    (readNode finish (first :: rest)).ReportsFrom finish first.offset := by
  have after := Items.afterName_cons_suffix first rest
  unfold readNode
  dsimp only
  split
  · exact .nil
  · -- The label begins behind the name and its bracket.
    have opened := (List.tail_suffix _).trans after
    exact (Label.read_reported (rising.tail.suffix opened) (rising.first_lt opened) ..).map _

private theorem readOptionalLinkLabel_reported (rising : Rising finish (first :: rest))
    (line : Nat) :
    (readOptionalLinkLabel finish line rest).ReportsFrom finish first.offset := by
  unfold readOptionalLinkLabel
  split
  · have left := readLinkLabel_suffix finish line rest.tail
    unfold readLinkLabel at left ⊢
    dsimp only at left ⊢
    split
    · exact .nil
    · -- What should have been the pipe is left over.
      next open' =>
      rw [if_neg open'] at left
      exact .ahead rfl (rising.first_lt (left.trans (List.tail_suffix rest))) le_rfl
  · exact .nil

private theorem manner_readOptionalLinkLabel (finish : Token) (line : Nat) (items : List Item) :
    ∀ diagnostic ∈ (readOptionalLinkLabel finish line items).diagnostics,
      diagnostic.manner = .ahead := by
  intro diagnostic member
  unfold readOptionalLinkLabel readLinkLabel at member
  dsimp only at member
  split at member
  · split at member
    · cases member
    · rw [List.mem_singleton.1 member, Diagnostic.manner_atToken]
      rfl
  · cases member

/-- What is said of a link is said of its label, ahead, or of its destination. -/
theorem manner_or_code_readLink (finish : Token) (shape : Arrow) (arrow : Token)
    (rest : List Item) :
    ∀ diagnostic ∈ (readLink finish shape arrow rest).diagnostics,
      diagnostic.manner = .ahead ∨
        diagnostic.manner = .taken ∧ diagnostic.code = .incompleteArrow := by
  intro diagnostic member
  rcases List.mem_append.1 member with label | missing
  · exact .inl (manner_readOptionalLinkLabel _ _ _ diagnostic label)
  · split at missing
    · rw [List.mem_singleton.1 missing]
      exact .inr ⟨Diagnostic.manner_atToken .., rfl⟩
    · cases missing

private theorem readLink_reported (rising : Rising finish (first :: rest)) (shape : Arrow) :
    (readLink finish shape first.toToken rest).ReportsFrom finish first.offset := by
  have label := readOptionalLinkLabel_reported rising first.line
  have before := rising.first_lt (readOptionalLinkLabel_suffix finish first.line rest)
  have ahead := manner_readOptionalLinkLabel finish first.line rest
  unfold readLink
  dsimp only
  split
  · refine label.both (.taken rfl le_rfl before) fun diagnostic member other same => ?_
    refine .of_manner ?_
    rw [ahead diagnostic member, List.mem_singleton.1 same, Diagnostic.manner_atToken]
    exact Manner.noConfusion
  · rw [Reading.ReportsFrom, List.append_nil]
    exact label

theorem readPlain_reported (rising : Rising finish (first :: rest)) (links : Nat)
    (hasSource : Bool) :
    (readPlain finish links hasSource first rest).ReportsFrom finish first.offset := by
  have plain := plain_readPlain finish links hasSource first rest
  have suffix := readPlain_suffix finish links hasSource first rest
  generalize readPlain finish links hasSource first rest = reading at plain suffix ⊢
  have before := rising.first_lt suffix
  cases plain with
  | decoration => exact (Decoration.read_reported rising _ _ _).map _
  | semicolon => exact .nil
  | @link shape kind =>
    have link := readLink_reported rising shape
    have said := manner_or_code_readLink finish shape first.toToken rest
    rw [Reading.ReportsFrom]
    dsimp only
    split
    · exact link
    · refine ReportedIn.both (.taken rfl le_rfl before) link fun diagnostic same other member => ?_
      rw [List.mem_singleton.1 same]
      rcases said other member with ahead | ⟨-, code⟩
      · refine .of_manner ?_
        rw [ahead, Diagnostic.manner_atToken]
        exact Manner.noConfusion
      · refine .of_code ?_
        rw [code]
        exact Code.noConfusion
  | node => exact (readNode_reported rising).map _
  | unexpected => exact .taken rfl le_rfl before

theorem readHeading_reported (rising : Rising finish (first :: rest)) :
    (readHeading finish first.toToken rest).ReportsFrom finish first.offset := by
  unfold readHeading
  split
  · dsimp only
    split
    · have opened := (List.tail_suffix _).trans (Items.afterName_suffix rest)
      exact (Label.read_reported (rising.tail.suffix opened) (rising.first_lt opened) ..).map _
    · exact .nil
  · exact .taken rfl le_rfl (rising.first_lt (List.suffix_refl _))

theorem readDirection_reported (rising : Rising finish (first :: rest)) :
    (readDirection first.toToken rest).ReportsFrom finish first.offset := by
  unfold readDirection
  split
  · exact .nil
  · next word after =>
    split
    · split
      · exact .nil
      · exact .taken rfl (rising.first_lt_of_mem (List.mem_cons_self ..)).le
          (rising.tail.first_lt (List.suffix_refl _))
    · exact .nil

end Flowchart

/-! ## Sequence diagrams -/

namespace Sequence

private theorem readAlias_reported (rising : Rising finish (first :: rest)) (keyword name : Token)
    (suffix : items <:+ rest) :
    (readAlias keyword name items).ReportsFrom finish first.offset := by
  unfold readAlias
  split
  · exact .nil
  · next mark after =>
    split
    · dsimp only
      split
      · -- The word that announces the alias stands behind the keyword.
        exact .taken rfl (rising.first_lt_of_mem (suffix.subset (List.mem_cons_self ..))).le
          ((rising.tail.suffix suffix).first_lt (Items.skipLine_suffix ..))
      · exact .nil
    · exact .nil

private theorem readDeclaration_reported (rising : Rising finish (keyword :: rest)) :
    (readDeclaration finish keyword.toToken rest).ReportsFrom finish keyword.offset := by
  unfold readDeclaration
  split
  · have after := Items.afterName_suffix rest
    have alias' := readAlias_reported rising keyword.toToken (Items.peekName finish rest) after
    have left := (readAlias_suffix keyword.toToken (Items.peekName finish rest)
      (Items.afterName rest)).trans after
    exact alias'.mono le_rfl ((rising.tail.suffix left).front_le (Items.skipLine_suffix ..))
  · exact .taken rfl le_rfl (rising.first_lt (Items.skipLine_suffix ..))

private theorem readReceiver_reported {arrow : Item} (rising : Rising finish (arrow :: rest))
    (sender : Token) (shape : Arrow) :
    (readReceiver finish sender arrow.toToken shape rest).ReportsFrom finish arrow.offset := by
  unfold readReceiver
  dsimp only
  split
  · exact .nil
  · exact .taken rfl le_rfl
      (rising.first_lt ((Items.skipLine_suffix ..).trans (Items.dropIf_suffix ..)))

private theorem readMessage_reported (rising : Rising finish (first :: rest)) :
    (readMessage finish first rest).ReportsFrom finish first.offset := by
  have dropped := Items.afterName_cons_suffix first rest
  unfold readMessage
  split
  · exact .nil
  · next arrow after shape =>
    rw [shape] at dropped
    split
    · have receiver := readReceiver_reported (rising.tail.suffix dropped)
        (Items.peekName finish (first :: rest)) (by assumption)
      exact receiver.mono (rising.first_lt dropped).le le_rfl
    · exact .nil

theorem readStatement_reported (rising : Rising finish (first :: rest)) :
    (readStatement finish first rest).ReportsFrom finish first.offset := by
  have skipped := rising.first_lt (Items.skipLine_suffix first.line rest)
  unfold readStatement
  split
  · exact (Decoration.read_reported rising _ _ _).map _
  · repeat' split
    · exact .nil
    · exact readDeclaration_reported rising
    · exact readMessage_reported rising
    · exact .taken rfl le_rfl skipped
    · exact .nil
    · exact .taken rfl le_rfl skipped

end Sequence

/-! ## Charts -/

namespace Chart

/-- The groups between commas hold the items, in order, without the commas. -/
theorem flatten_splitAtCommas (items : List Item) :
    (splitAtCommas items).flatten = items.filter (·.kind ≠ .comma) := by
  induction items with
  | nil => rfl
  | cons first rest ih =>
    rw [splitAtCommas]
    split
    · next comma => simpa [comma] using ih
    · next other =>
      rw [List.filter_cons_of_pos (by simpa using other), ← ih]
      split
      · next none => simp [none]
      · next some => simp [some]

private theorem category_reported (source : List Char) {group : List Item}
    (lie : LieIn low high (first :: group)) :
    ReportedIn low (first.offset + 1) (category source (first :: group)).2 := by
  rw [category]
  split
  · exact .nil
  · dsimp only
    split
    · exact .taken rfl lie.head.1 (Nat.lt_succ_self _)
    · exact .nil

/-- Every category is reported at its own first item. -/
theorem categories_reported (source : List Char) (groups : List (List Item))
    (lie : LieIn low high groups.flatten) :
    ReportedIn low high ((groups.map (category source)).flatMap (·.2)) := by
  induction groups generalizing low with
  | nil => exact .nil
  | cons group groups ih =>
    cases group with
    | nil => exact ih lie
    | cons first more =>
      obtain ⟨behind, before⟩ := lie.head
      have own := category_reported source (lie.sublist (List.sublist_append_left ..))
      have later := ih (lie.of_cons.sublist (List.sublist_append_right ..))
      exact own.append later (behind.trans (Nat.le_succ _)) before

private theorem readCategoryList_reported (source : List Char) {opening : Item}
    (rising : Rising finish (opening :: items)) (keyword : Token) :
    (readCategoryList source keyword opening.toToken items).ReportsFrom finish
      opening.offset := by
  have dropped := List.dropWhile_suffix (l := items) fun item => item.kind != .closing .square
  have split : items.takeWhile (fun item => item.kind != .closing .square) ++
      items.dropWhile (fun item => item.kind != .closing .square) = items :=
    List.takeWhile_append_dropWhile
  unfold readCategoryList
  dsimp only
  generalize items.takeWhile (fun item => item.kind != .closing .square) = inside at split ⊢
  generalize items.dropWhile (fun item => item.kind != .closing .square) = after at *
  subst split
  have left : Items.skipLine keyword.line after.tail <:+ after :=
    (Items.skipLine_suffix ..).trans (List.tail_suffix _)
  have lie : LieIn (opening.offset + 1) (Items.front finish after).offset inside :=
    .of_rising rising.tail (rising.first_lt (List.suffix_refl _))
  have categories := (categories_reported source (splitAtCommas inside)
    (by rw [flatten_splitAtCommas]; exact lie.sublist List.filter_sublist)).mono le_rfl
      ((rising.tail.suffix dropped).front_le left)
  have behind : opening.offset + 1 ≤ (Items.front finish after).offset := rising.first_lt dropped
  have more := (rising.tail.suffix dropped).front_le left
  have unclosed : ReportedIn opening.offset (opening.offset + 1)
      (if after.isEmpty then [Diagnostic.atToken opening.toToken .unclosedCategories] else []) := by
    split
    · exact .taken rfl le_rfl (Nat.lt_succ_self _)
    · exact .nil
  -- What is said of the bracket comes last and stands first.
  exact (unclosed.append categories (Nat.le_succ _) (behind.trans more)).perm
    List.perm_append_comm

private theorem readCategories_reported (source : List Char)
    (rising : Rising finish (keyword :: rest)) :
    (readCategories source finish keyword.toToken rest).ReportsFrom finish keyword.offset := by
  have dropped := Items.dropIf_suffix keyword.line (·.kind == .string) rest
  unfold readCategories
  dsimp only
  generalize Items.dropIf keyword.line (·.kind == .string) rest = items at *
  have left := (Items.skipLine_suffix keyword.line items).trans dropped
  split
  · next opens =>
    obtain ⟨opening, inner, rfl, -, -⟩ := Items.exists_of_frontIs opens
    have behind := rising.first_lt_of_mem (dropped.subset (List.mem_cons_self ..))
    exact (readCategoryList_reported source (rising.tail.suffix dropped) _).mono behind.le le_rfl
  · split
    · -- What stands on the line of the keyword instead of a list is skipped with it.
      next here =>
      obtain ⟨found, inner, rfl, line, -⟩ := Items.exists_of_frontIs here
      have onLine : found ∈ Items.onLine keyword.line (found :: inner) := by
        have taken : (found.line == keyword.line) = true := beq_iff_eq.2 line
        rw [Items.onLine, List.takeWhile_cons, taken]
        exact List.mem_cons_self ..
      exact .taken rfl (rising.first_lt_of_mem (dropped.subset (List.mem_cons_self ..))).le
        ((rising.tail.suffix dropped).lt_skipLine onLine)
    · exact .taken rfl le_rfl (rising.first_lt left)

private theorem manner_boundProblem (token : Token) : (boundProblem token).manner = .ahead := by
  unfold boundProblem
  split <;> rfl

/-- A token that should be a bound is left over. -/
theorem readBound_reported (rising : Rising finish (first :: rest)) (suffix : items <:+ rest)
    (line : Nat) : (readBound finish line items).ReportsFrom finish first.offset := by
  unfold readBound
  dsimp only
  split
  · exact .nil
  · exact .ahead (manner_boundProblem _) (rising.first_lt suffix) le_rfl

private theorem diagnostics_readBound {line : Nat} {value : Text.Binary64}
    (found : (readBound finish line items).value = some value) :
    (readBound finish line items).diagnostics = [] := by
  unfold readBound at found ⊢
  dsimp only at found ⊢
  split
  · rfl
  · next none =>
    rw [none] at found
    cases found

private theorem readRange_reported (rising : Rising finish (first :: rest))
    (suffix : items <:+ rest)
    (line : Nat) : (readRange finish line items).ReportsFrom finish first.offset := by
  have behind := (readBound_suffix finish line items).trans suffix
  unfold readRange
  dsimp only
  split
  · exact readBound_reported rising suffix line
  · next value found =>
    rw [diagnostics_readBound found]
    split
    · exact readBound_reported rising ((List.tail_suffix _).trans behind) line
    · exact .ahead rfl (rising.first_lt behind) le_rfl

private theorem readValueAxis_reported (rising : Rising finish (keyword :: rest)) :
    (readValueAxis finish keyword.toToken rest).ReportsFrom finish keyword.offset := by
  have label := readAxisLabel_suffix finish keyword.line rest
  have range : (readAxisRange finish keyword.line
      (readAxisLabel finish keyword.line rest).rest).ReportsFrom finish keyword.offset := by
    unfold readAxisRange
    split
    · exact readRange_reported rising label keyword.line
    · exact .nil
  have left := (readAxisRange_suffix finish keyword.line _).trans label
  exact range.mono le_rfl ((rising.tail.suffix left).front_le (Items.skipLine_suffix ..))

private theorem readSeries_reported (rising : Rising finish (keyword :: rest)) (kind : SeriesKind) :
    (readSeries finish keyword.toToken kind rest).ReportsFrom finish keyword.offset := by
  have dropped := Items.dropIf_suffix keyword.line (·.kind == .string) rest
  unfold readSeries
  dsimp only
  generalize Items.dropIf keyword.line (·.kind == .string) rest = items at *
  split
  · unfold readValues
    dsimp only
    split
    · exact .nil
    · -- The values are given up at a token that may begin what is left.
      have after := (List.dropWhile_suffix (l := items.tail) isValueItem).trans
        ((List.tail_suffix _).trans dropped)
      exact .ahead rfl (rising.first_lt after) ((rising.tail.suffix after).front_le
        ((Items.skipLine_suffix ..).trans ((List.tail_suffix _).trans (List.dropWhile_suffix _))))
  · exact .taken rfl le_rfl (rising.first_lt ((Items.skipLine_suffix ..).trans dropped))

private theorem readKeyword_reported (source : List Char) (rising : Rising finish (first :: rest))
    (keyword : Keyword) :
    (readKeyword source finish keyword first rest).ReportsFrom finish first.offset := by
  have skipped := rising.first_lt (Items.skipLine_suffix first.line rest)
  cases keyword with
  | title =>
    unfold readKeyword readTitle
    dsimp only
    split
    · exact .taken rfl le_rfl skipped
    · exact .nil
  | categories => exact readCategories_reported source rising
  | valueAxis => exact readValueAxis_reported rising
  | series kind => exact readSeries_reported rising kind
  | undrawn => exact .taken rfl le_rfl skipped
  | generic => exact .taken rfl le_rfl skipped

theorem readStatement_reported (source : List Char) (rising : Rising finish (first :: rest)) :
    (readStatement source finish first rest).ReportsFrom finish first.offset := by
  unfold readStatement
  split
  · exact .nil
  · split
    · exact readKeyword_reported source rising _
    · split
      · exact (Decoration.read_reported rising _ _ _).map _
      · exact .taken rfl le_rfl (rising.first_lt (Items.skipLine_suffix ..))

end Chart

/-! ## Block diagrams -/

namespace BlockDiagram

private theorem readBlock_reported (rising : Rising finish (first :: rest)) :
    (readBlock finish (first :: rest)).ReportsFrom finish first.offset := by
  have opened := (List.tail_suffix _).trans (Items.afterName_cons_suffix first rest)
  unfold readBlock
  dsimp only
  split
  · exact (Label.read_reported (rising.tail.suffix opened) (rising.first_lt opened) ..).map _
  · exact .nil

theorem readStatement_reported (rising : Rising finish (first :: rest)) :
    (readStatement finish first rest).ReportsFrom finish first.offset := by
  have skipped := rising.first_lt (Items.skipLine_suffix first.line rest)
  unfold readStatement
  split
  · exact .nil
  · split
    · exact (Decoration.read_reported rising _ _ _).map _
    · repeat' split
      · unfold readColumns
        dsimp only
        split
        · exact .nil
        · exact .taken rfl le_rfl skipped
      · exact readBlock_reported rising
      · refine .taken ?_ le_rfl (rising.first_lt (List.suffix_refl _))
        unfold unexpected
        split <;> rfl

end BlockDiagram

/-! ## Diagrams whose content is not modelled -/

theorem Unmodelled.readStatement_reported (kind : Unmodelled)
    (rising : Rising finish (first :: rest)) :
    (readStatement kind finish first rest).ReportsFrom finish first.offset := by
  unfold readStatement
  split
  · exact Decoration.read_reported rising _ _ _
  · exact .nil

end DiagramCheck
