/-
# Diagnostics of sequence diagrams, charts and block diagrams

The statements of these diagrams are read line by line, and each is reported at
its keyword, at an item of its line, or at the token found where another was
expected. As for flowcharts, every reader stands at the tokens it is given.
-/

import DiagramCheck.Proofs.Diagnostic.Standing

namespace DiagramCheck

open Diagnostic (StandAt)
open Items (Within)

variable {among : Token → Prop} {finish : Token}

/-! ## Sequence diagrams -/

namespace Sequence

private theorem readAlias_standAt (keyword name : Token) {items : List Item}
    (within : Within among items) :
    StandAt among (readAlias keyword name items).diagnostics := by
  unfold readAlias
  split
  · exact .nil
  · split
    · dsimp only
      split
      · exact .one Code.noConfusion within.head
      · exact .nil
    · exact .nil

private theorem readDeclaration_standAt {keyword : Token} (known : among keyword) {rest : List Item}
    (within : Within among rest) :
    StandAt among (readDeclaration finish keyword rest).diagnostics := by
  unfold readDeclaration
  split
  · exact readAlias_standAt _ _ (within.suffix (Items.afterName_suffix _))
  · exact .one Code.noConfusion known

private theorem readReceiver_standAt {arrow : Token} (known : among arrow) (sender : Token)
    (shape : Arrow) (rest : List Item) :
    StandAt among (readReceiver finish sender arrow shape rest).diagnostics := by
  unfold readReceiver
  dsimp only
  split
  · exact .nil
  · exact .one Code.noConfusion known

private theorem readMessage_standAt {first : Item} {rest : List Item}
    (within : Within among (first :: rest)) :
    StandAt among (readMessage finish first rest).diagnostics := by
  have after := within.suffix (Items.afterName_suffix _)
  unfold readMessage
  split
  · exact .nil
  · -- The arrow is what stands behind the name of the sender.
    next arrow later found =>
    rw [found] at after
    split
    · exact readReceiver_standAt after.head _ _ _
    · exact .nil

theorem readStatement_standAt {first : Item} {rest : List Item}
    (within : Within among (first :: rest)) :
    StandAt among (readStatement finish first rest).diagnostics := by
  unfold readStatement
  split
  · rw [Reading.diagnostics_map]
    exact Decoration.read_standAt within.head within.of_cons _ _ _
  · split_ifs with semicolon declares message arrow block
    · exact .nil
    · exact readDeclaration_standAt within.head within.of_cons
    · exact readMessage_standAt within
    · exact .one Code.noConfusion within.head
    · exact .nil
    · exact .one Code.noConfusion within.head

theorem read_standAt (header : Token) {rest : List Item} (within : Within among rest) :
    StandAt among (read finish header rest).diagnostics :=
  Reading.statements_standAt (fun _ _ => readStatement_standAt)
    (within.suffix (Items.skipLine_suffix _ _))

end Sequence

/-! ## Charts -/

namespace Chart

variable {keyword : Token} {rest : List Item}

private theorem readTitle_standAt (known : among keyword) :
    StandAt among (readTitle keyword rest).diagnostics := by
  simp only [readTitle]
  split
  · exact .one Code.noConfusion known
  · exact .nil

/-- The groups between commas hold items of the list only. -/
theorem within_of_mem_splitAtCommas {items group : List Item} (within : Within among items)
    (member : group ∈ splitAtCommas items) : Within among group := by
  induction items generalizing group with
  | nil =>
    rw [splitAtCommas, List.mem_singleton] at member
    rw [member]
    exact within
  | cons first rest ih =>
    have none : Within among [] := fun _ absent => by cases absent
    rw [splitAtCommas] at member
    split at member
    · rcases List.mem_cons.1 member with rfl | member
      · exact none
      · exact ih within.of_cons member
    · -- The item joins the first group of the rest.
      split at member
      · obtain rfl := List.mem_singleton.1 member
        intro item same
        rw [List.mem_singleton] at same
        rw [same]
        exact within.head
      · next front groups split =>
        rcases List.mem_cons.1 member with rfl | member
        · intro item inside
          rcases List.mem_cons.1 inside with rfl | inside
          · exact within.head
          · exact ih within.of_cons (split ▸ List.mem_cons_self ..) item inside
        · exact ih within.of_cons (split ▸ List.mem_cons_of_mem _ member)

private theorem category_standAt {group : List Item} (within : Within among group)
    (source : List Char) : StandAt among (category source group).2 := by
  unfold category
  split
  · exact .nil
  · split
    · exact .nil
    · dsimp only
      split
      · exact .one Code.noConfusion within.head
      · exact .nil

private theorem readCategoryList_standAt {opening : Token} (known : among opening)
    {items : List Item}
    (within : Within among items) (source : List Char) (keyword : Token) :
    StandAt among (readCategoryList source keyword opening items).diagnostics := by
  refine .append (.flatMap ?_) ?_
  · -- Each category is reported within its own group.
    intro read member
    obtain ⟨group, listed, rfl⟩ := List.mem_map.1 member
    exact category_standAt (within_of_mem_splitAtCommas
      (within.subset (List.takeWhile_prefix _).subset) listed) source
  · split
    · exact .one Code.noConfusion known
    · exact .nil

private theorem readCategories_standAt (finished : among finish) (known : among keyword)
    (within : Within among rest) (source : List Char) :
    StandAt among (readCategories source finish keyword rest).diagnostics := by
  have items := within.suffix (Items.dropIf_suffix keyword.line (·.kind == .string) rest)
  unfold readCategories
  dsimp only
  split
  · exact readCategoryList_standAt (items.front finished) items.tail _ _
  · -- The missing bracket is reported where it is expected, or at the keyword when its line ends.
    refine .one Code.noConfusion ?_
    split
    · exact items.front finished
    · exact known

private theorem readBound_standAt (finished : among finish) {items : List Item}
    (within : Within among items) (line : Nat) :
    StandAt among (readBound finish line items).diagnostics := by
  simp only [readBound]
  split
  · exact .nil
  · refine .one ?_ (within.front finished)
    rw [boundProblem]
    split <;> exact Code.noConfusion

private theorem readRange_standAt (finished : among finish) {items : List Item}
    (within : Within among items) (line : Nat) :
    StandAt among (readRange finish line items).diagnostics := by
  have low := readBound_standAt finished within line
  have later := within.suffix (readBound_suffix finish line items)
  simp only [readRange]
  split
  · exact low
  · split
    · exact low.append (readBound_standAt finished later.tail line)
    · exact low.append (.one Code.noConfusion (later.front finished))

private theorem readValueAxis_standAt (finished : among finish) (within : Within among rest) :
    StandAt among (readValueAxis finish keyword rest).diagnostics := by
  unfold readValueAxis readAxisRange
  dsimp only
  split
  · exact readRange_standAt finished (within.suffix (readAxisLabel_suffix ..)) _
  · exact .nil

private theorem readValues_standAt (finished : among finish) {items : List Item}
    (within : Within among items) (kind : SeriesKind) :
    StandAt among (readValues finish keyword kind items).diagnostics := by
  simp only [readValues]
  split
  · exact .nil
  · exact .one Code.noConfusion ((within.suffix (List.dropWhile_suffix _)).front finished)

private theorem readSeries_standAt (finished : among finish) (known : among keyword)
    (within : Within among rest) (kind : SeriesKind) :
    StandAt among (readSeries finish keyword kind rest).diagnostics := by
  have items := within.suffix (Items.dropIf_suffix keyword.line (·.kind == .string) rest)
  unfold readSeries
  dsimp only
  split
  · exact readValues_standAt finished items.tail _
  · exact .one Code.noConfusion known

private theorem readKeyword_standAt (finished : among finish) {first : Item}
    (within : Within among (first :: rest)) (source : List Char) (keyword : Keyword) :
    StandAt among (readKeyword source finish keyword first rest).diagnostics := by
  cases keyword with
  | title => exact readTitle_standAt within.head
  | categories => exact readCategories_standAt finished within.head within.of_cons source
  | valueAxis => exact readValueAxis_standAt finished within.of_cons
  | series kind => exact readSeries_standAt finished within.head within.of_cons kind
  | undrawn => exact .one Code.noConfusion within.head
  | generic => exact .one Code.noConfusion within.head

theorem readStatement_standAt (finished : among finish) {first : Item}
    (within : Within among (first :: rest)) (source : List Char) :
    StandAt among (readStatement source finish first rest).diagnostics := by
  unfold readStatement
  split
  · exact .nil
  · split
    · exact readKeyword_standAt finished within source _
    · split
      · rw [Reading.diagnostics_map]
        exact Decoration.read_standAt within.head within.of_cons _ _ _
      · exact .one Code.noConfusion within.head

theorem read_standAt (finished : among finish) {header : Token} (known : among header)
    (within : Within among rest) (source : List Char) :
    StandAt among (read source finish header rest).diagnostics := by
  refine .append ?_ ?_
  · exact Reading.statements_standAt
      (fun _ _ within => readStatement_standAt finished within source)
      (within.suffix (Items.skipLine_suffix _ _))
  · split
    · exact .one Code.noConfusion known
    · exact .nil

end Chart

/-! ## Block diagrams -/

namespace BlockDiagram

private theorem readColumns_standAt {keyword : Token} (known : among keyword) (rest : List Item) :
    StandAt among (readColumns finish keyword rest).diagnostics := by
  simp only [readColumns]
  split
  · exact .nil
  · exact .one Code.noConfusion known

private theorem readBlock_standAt (finished : among finish) {items : List Item}
    (within : Within among items) : StandAt among (readBlock finish items).diagnostics := by
  unfold readBlock
  dsimp only
  split
  · rw [Reading.diagnostics_map]
    exact Label.read_standAt finished (within.suffix (Items.afterName_suffix _)).tail _ _ _ _
  · exact .nil

theorem readStatement_standAt (finished : among finish) {first : Item} {rest : List Item}
    (within : Within among (first :: rest)) :
    StandAt among (readStatement finish first rest).diagnostics := by
  unfold readStatement
  split
  · exact .nil
  · split
    · rw [Reading.diagnostics_map]
      exact Decoration.read_standAt within.head within.of_cons _ _ _
    · split_ifs with columns name
      · exact readColumns_standAt within.head _
      · exact readBlock_standAt finished within
      · refine .one ?_ within.head
        rw [unexpected]
        split <;> exact Code.noConfusion

theorem read_standAt (finished : among finish) (header : Token) {rest : List Item}
    (within : Within among rest) : StandAt among (read finish header rest).diagnostics :=
  Reading.statements_standAt (fun _ _ => readStatement_standAt finished)
    (within.suffix (Items.skipLine_suffix _ _))

end BlockDiagram

/-! ## Diagrams whose content is not modelled -/

theorem Unmodelled.read_standAt (kind : Unmodelled) (header : Token) {rest : List Item}
    (within : Within among rest) :
    StandAt among (Unmodelled.read kind finish header rest).diagnostics := by
  refine Reading.statements_standAt ?_ (within.suffix (Items.skipLine_suffix _ _))
  intro first rest within
  unfold Unmodelled.readStatement
  split
  · exact Decoration.read_standAt within.head within.of_cons _ _ _
  · exact .nil

/-! ## Diagrams other than flowcharts -/

theorem TokenKind.eq_header_of_family? {kind : TokenKind} {family : Family}
    (header : kind.family? = some family) : kind = .header family := by
  cases kind with
  | header own => rw [Option.some.inj header]
  | _ => cases header

/-- Any diagram but a flowchart is reported at its items and at the end of the input. -/
theorem Diagram.read_standAt (source : List Char) (finished : among finish) {items : List Item}
    (within : Within among items)
    (other : (Items.front finish items).kind ≠ .header .flowchart) :
    StandAt among (Diagram.read source finish items).diagnostics := by
  have header : among (Items.front finish items) := within.front finished
  unfold read
  dsimp only
  split
  · next family found =>
    rw [Reading.diagnostics_map]
    cases family with
    | flowchart => exact absurd (TokenKind.eq_header_of_family? found) other
    | sequence => exact Sequence.read_standAt _ within.tail
    | chart => exact Chart.read_standAt finished header within.tail source
    | blocks => exact BlockDiagram.read_standAt finished _ within.tail
    | unmodelled kind => exact Unmodelled.read_standAt kind _ within.tail
  · refine .one ?_ header
    unfold headerProblem
    split <;> exact Code.noConfusion

end DiagramCheck
