/-
# Where the statements of a chart end

A statement of a chart ends with a line or behind a list in brackets. Where that is can
be told from the items alone: `leave` says what each statement leaves over. So the
statements stop short, and they are told from the kinds and lines of the items and the
words that begin them: items some bytes further on are read as the same statements.

Main statements: `leave_stopsShort` and `leave_slid`.
-/

import DiagramCheck.Proofs.Chart.Values
import DiagramCheck.Proofs.Layout.Quoted
import DiagramCheck.Proofs.Reading.Stopping

namespace DiagramCheck

namespace Chart

/-! ## What a statement leaves over -/

/-- An item that does not end a list in brackets. -/
def isListed (item : Item) : Bool := item.kind != .closing .square

/-- What is left over behind a list in brackets and the rest of the line of its keyword. The items
are those behind the title. -/
def leaveList (line : Nat) (items : List Item) : List Item :=
  if Items.frontIs line (·.kind == .opening .square) items then
    Items.skipLine line (items.tail.dropWhile isListed).tail
  else Items.skipLine line items

/-- What a statement leaves over. -/
def leave (first : Item) (rest : List Item) : List Item :=
  if first.kind = .semicolon then rest
  else
    match keyword? first with
    | some .categories | some (.series _) =>
      leaveList first.line (Items.dropIf first.line (·.kind == .string) rest)
    | _ => Items.skipLine first.line rest

variable {finish keyword : Token} {source : List Char}

private theorem rest_readCategories (rest : List Item) :
    (readCategories source finish keyword rest).rest =
      leaveList keyword.line (Items.dropIf keyword.line (·.kind == .string) rest) := by
  simp only [readCategories, leaveList, apply_ite Reading.rest]
  rfl

private theorem dropWhile_isListed (items : List Item) :
    (items.dropWhile isValueItem).dropWhile isListed = items.dropWhile isListed := by
  induction items with
  | nil => rfl
  | cons first rest ih =>
    rw [List.dropWhile_cons]
    split
    · next value =>
      have listed : isListed first = true := by
        rcases Bool.or_eq_true_iff.1 value with number | comma
        · rw [isListed, beq_iff_eq.1 number]
          rfl
        · rw [isListed, beq_iff_eq.1 comma]
          rfl
      rw [ih, List.dropWhile_cons, if_pos listed]
    · rfl

private theorem rest_readSeries (kind : SeriesKind) (rest : List Item) :
    (readSeries finish keyword kind rest).rest =
      leaveList keyword.line (Items.dropIf keyword.line (·.kind == .string) rest) := by
  simp only [readSeries, leaveList, apply_ite Reading.rest, readValues]
  congr 2
  rw [← dropWhile_isListed]
  rfl

/-- A reader that takes at most one item, and that on a line, leaves the same behind the line. -/
theorem skipLine_tail {line : Nat} {items : List Item} {test : Item → Bool}
    (front : Items.frontIs line test items = true) :
    Items.skipLine line items.tail = Items.skipLine line items := by
  obtain ⟨first, rest, rfl, own, -⟩ := Items.exists_of_frontIs front
  rw [List.tail_cons, Items.skipLine, Items.skipLine, List.dropWhile_cons, if_pos (by simp [own])]

private theorem skipLine_readBound (line : Nat) (items : List Item) :
    Items.skipLine line (readBound finish line items).rest = Items.skipLine line items := by
  unfold readBound
  dsimp only
  split
  · next found =>
    split at found
    · next front => exact skipLine_tail front
    · cases found
  · rfl

private theorem skipLine_readRange (line : Nat) (items : List Item) :
    Items.skipLine line (readRange finish line items).rest = Items.skipLine line items := by
  unfold readRange
  dsimp only
  split
  · exact skipLine_readBound ..
  · split
    · next front => rw [skipLine_readBound, skipLine_tail front, skipLine_readBound]
    · exact skipLine_readBound ..

private theorem rest_readValueAxis (rest : List Item) :
    (readValueAxis finish keyword rest).rest = Items.skipLine keyword.line rest := by
  have label : Items.skipLine keyword.line (readAxisLabel finish keyword.line rest).rest =
      Items.skipLine keyword.line rest := by
    unfold readAxisLabel
    split
    · next front => exact skipLine_tail front
    · rfl
  unfold readValueAxis readAxisRange
  dsimp only
  split
  · rw [skipLine_readRange, label]
  · exact label

theorem rest_readStatement (first : Item) (rest : List Item) :
    (readStatement source finish first rest).rest = leave first rest := by
  unfold readStatement leave
  split
  · rfl
  · cases begun : keyword? first with
    | none =>
      dsimp only
      split <;> rfl
    | some known =>
      cases known with
      | categories => exact rest_readCategories rest
      | series kind => exact rest_readSeries kind rest
      | valueAxis => exact rest_readValueAxis rest
      | title => rfl
      | undrawn => rfl
      | generic => rfl

/-! ## Stopping short -/

theorem leaveList_stopsShort (line : Nat) : StopsShort (leaveList line) (leaveList line) :=
  .ite line _ (((StopsShort.tail.comp (.dropWhile isListed)).comp .tail).comp (.skipLine line))
    (.skipLine line)

theorem leave_stopsShort (first : Item) : StopsShort (leave first) (leave first) := by
  unfold leave
  split_ifs
  · exact .refl
  · cases keyword? first with
    | none => exact .skipLine _
    | some known =>
      cases known with
      | categories => exact (StopsShort.dropIf _ _).comp (leaveList_stopsShort _)
      | series kind => exact (StopsShort.dropIf _ _).comp (leaveList_stopsShort _)
      | _ => exact .skipLine _

theorem readStatement_stopsShort (source source' : List Char) (finish finish' : Token)
    (first : Item) :
    StopsShort (fun rest => (readStatement source finish first rest).rest)
      fun rest => (readStatement source' finish' first rest).rest := by
  simp only [rest_readStatement]
  exact leave_stopsShort first

/-! ## Items some bytes further on -/

theorem tail_forall₂ {α β : Type} {relation : α → β → Prop} {first : List α} {second : List β}
    (each : List.Forall₂ relation first second) :
    List.Forall₂ relation first.tail second.tail := by
  simpa only [List.drop_one] using List.forall₂_drop 1 each

section Slid

variable {bytes : Nat} {first first' : Item} {items items' : List Item}

theorem keyword?_slid (slid : Item.Slid bytes first first') : keyword? first' = keyword? first := by
  rw [keyword?, keyword?, slid.kind, slid.text]
  by_cases word : first.kind = .identifier
  · rw [slid.startsStatement word]
  · simp [word]

theorem isListed_slid (slid : Item.Slid bytes first first') : isListed first' = isListed first := by
  rw [isListed, isListed, slid.kind]

variable (slid : List.Forall₂ (Item.Slid bytes) items items') {test : Item → Bool}
  (alike : ∀ {item item' : Item}, Item.Slid bytes item item' → test item' = test item)

include slid alike

theorem takeWhile_slid :
    List.Forall₂ (Item.Slid bytes) (items.takeWhile test) (items'.takeWhile test) := by
  induction slid with
  | nil => exact .nil
  | cons own _ ih =>
    rw [List.takeWhile_cons, List.takeWhile_cons, alike own]
    split
    · exact .cons own ih
    · exact .nil

theorem dropWhile_slid :
    List.Forall₂ (Item.Slid bytes) (items.dropWhile test) (items'.dropWhile test) := by
  induction slid with
  | nil => exact .nil
  | cons own later ih =>
    rw [List.dropWhile_cons, List.dropWhile_cons, alike own]
    split
    · exact ih
    · exact .cons own later

private theorem frontIs_slid (line : Nat) :
    Items.frontIs line test items' = Items.frontIs line test items := by
  cases slid with
  | nil => rfl
  | cons own _ => rw [Items.frontIs, Items.frontIs, alike own, own.line]

private theorem dropIf_slid (line : Nat) :
    List.Forall₂ (Item.Slid bytes) (Items.dropIf line test items)
      (Items.dropIf line test items') := by
  rw [Items.dropIf, Items.dropIf, frontIs_slid slid alike]
  split
  · exact tail_forall₂ slid
  · exact slid

end Slid

section Leave

variable {bytes : Nat} {first first' : Item} {items items' : List Item}
  (slid : List.Forall₂ (Item.Slid bytes) items items')

include slid

theorem skipLine_slid (line : Nat) :
    List.Forall₂ (Item.Slid bytes) (Items.skipLine line items) (Items.skipLine line items') :=
  dropWhile_slid slid fun own => by rw [own.line]

theorem frontIs_kind_slid (line : Nat) (kind : TokenKind) :
    Items.frontIs line (·.kind == kind) items' = Items.frontIs line (·.kind == kind) items :=
  frontIs_slid slid (fun own => by rw [own.kind]) line

theorem dropIf_kind_slid (line : Nat) (kind : TokenKind) :
    List.Forall₂ (Item.Slid bytes) (Items.dropIf line (·.kind == kind) items)
      (Items.dropIf line (·.kind == kind) items') :=
  dropIf_slid slid (fun own => by rw [own.kind]) line

private theorem leaveList_slid (line : Nat) :
    List.Forall₂ (Item.Slid bytes) (leaveList line items) (leaveList line items') := by
  rw [leaveList, leaveList, frontIs_kind_slid slid]
  split
  · have after : List.Forall₂ _ (items.tail.dropWhile isListed) _ :=
      dropWhile_slid (tail_forall₂ slid) isListed_slid
    exact skipLine_slid (tail_forall₂ after) line
  · exact skipLine_slid slid line

theorem leave_slid (own : Item.Slid bytes first first') :
    List.Forall₂ (Item.Slid bytes) (leave first items) (leave first' items') := by
  have list := leaveList_slid (dropIf_kind_slid slid first.line .string) first.line
  have line := skipLine_slid slid first.line
  rw [leave, leave, own.kind, keyword?_slid own, own.line]
  split
  · exact slid
  · cases keyword? first with
    | none => exact line
    | some known => cases known <;> assumption

end Leave

end Chart

end DiagramCheck
