/-
# What stops before the next boundary

A boundary is a header that begins a line. `Ahead` says of a list of items which
boundary is the first in it and what stands behind that. Whatever is read of the
list either leaves this boundary ahead or has passed it.

Everything a statement takes by lines and by touching names stops before the next
boundary, because no item on a line that has already started begins the line.
This covers decorations, links with their labels, names, the titles of subgraphs
and subgraphs that are skipped. What remains are labels in brackets.
-/

import DiagramCheck.Flowchart.Basic
import DiagramCheck.Proofs.Flowchart.Run

namespace DiagramCheck.Flowchart

/-- The first boundary in `items` is `boundary`, and `later` stands behind it. -/
structure Ahead (boundary : Item) (later items : List Item) : Prop where
  begins : isBoundary boundary = true
  split : ∃ between, items = between ++ boundary :: later ∧
    ∀ item ∈ between, isBoundary item = false

variable {boundary : Item} {later : List Item}

namespace Ahead

variable {items : List Item}

theorem startsLine (ahead : Ahead boundary later items) : boundary.startsLine = true :=
  (Bool.and_eq_true_iff.1 ahead.begins).2

theorem mem (ahead : Ahead boundary later items) : boundary ∈ items := by
  obtain ⟨between, rfl, -⟩ := ahead.split
  exact List.mem_append_right _ (List.mem_cons_self ..)

theorem of_append (front : List Item) {behind : List Item}
    (ahead : Ahead boundary later (front ++ behind))
    (inside : ∀ item ∈ front, isBoundary item = false) : Ahead boundary later behind := by
  obtain ⟨between, split, free⟩ := ahead.split
  rcases List.append_eq_append_iff.1 split with ⟨gap, rfl, rfl⟩ | ⟨gap, rfl, tail⟩
  · exact ⟨ahead.begins, gap, rfl, fun item member => free item (List.mem_append_right _ member)⟩
  · cases gap with
    | nil => exact ⟨ahead.begins, [], tail.symm, fun _ absent => by cases absent⟩
    | cons item gap =>
      -- The boundary cannot stand in front, where there is none.
      obtain ⟨rfl, -⟩ := List.cons.inj tail
      have begins := ahead.begins
      rw [inside boundary (List.mem_append_right _ (List.mem_cons_self ..))] at begins
      cases begins

theorem of_cons {first : Item} {rest : List Item} (ahead : Ahead boundary later (first :: rest))
    (inside : isBoundary first = false) : Ahead boundary later rest :=
  of_append [first] ahead fun item member => by
    rw [List.mem_singleton.1 member]
    exact inside

/-- What is left of the items still has the boundary ahead or has passed it. -/
theorem or_passed {rest : List Item} (ahead : Ahead boundary later items)
    (suffix : rest <:+ items) :
    Ahead boundary later rest ∨ rest <:+ later := by
  obtain ⟨between, rfl, free⟩ := ahead.split
  obtain ⟨taken, split⟩ := suffix
  rcases List.append_eq_append_iff.1 split with ⟨gap, rfl, rfl⟩ | ⟨gap, rfl, tail⟩
  · exact .inl ⟨ahead.begins, gap, rfl,
      fun item member => free item (List.mem_append_right _ member)⟩
  · cases gap with
    | nil => exact .inl ⟨ahead.begins, [], tail.symm, fun _ absent => by cases absent⟩
    | cons item gap =>
      -- The boundary is among the items taken.
      obtain ⟨-, rfl⟩ := List.cons.inj tail
      exact .inr (List.suffix_append ..)

/-- Items that are passed over while a test holds stop before a boundary that fails it. -/
theorem dropWhile (ahead : Ahead boundary later items) (test : Item → Bool)
    (stops : test boundary = false) : Ahead boundary later (items.dropWhile test) := by
  obtain ⟨between, rfl, free⟩ := ahead.split
  induction between with
  | nil =>
    rw [List.nil_append, List.dropWhile_cons_of_neg (by rw [stops]; exact Bool.false_ne_true)]
    exact ahead
  | cons item between ih =>
    obtain ⟨inside, free⟩ := List.forall_mem_cons.1 free
    rw [List.cons_append] at ahead ⊢
    rw [List.dropWhile_cons]
    split
    · exact ih free (ahead.of_cons inside)
    · exact ahead

/-- An item of another kind than the boundary at the front can be dropped. -/
theorem tail_of_frontIs (ahead : Ahead boundary later items) {line : Nat} {kind : TokenKind}
    (other : kind.isHeader = false) (front : Items.frontIs line (·.kind == kind) items = true) :
    Ahead boundary later items.tail := by
  obtain ⟨first, rest, rfl, -, own⟩ := Items.exists_of_frontIs front
  exact ahead.of_cons (isBoundary_of_kind (beq_iff_eq.1 own) other)

end Ahead

/-! ## Lines and names -/

section Lines

variable {finish : Token} {first : Item} {rest : List Item}

/-- The next boundary stands below every item before it. -/
theorem Ahead.line_lt (laid : Items.LaidOut (first :: rest)) {items : List Item}
    (suffix : items <:+ rest) (ahead : Ahead boundary later items) : first.line < boundary.line :=
  laid.line_lt (suffix.subset ahead.mem) ahead.startsLine

private theorem Ahead.line_ne (laid : Items.LaidOut (first :: rest)) {items : List Item}
    (suffix : items <:+ rest) (ahead : Ahead boundary later items) :
    (boundary.line == first.line) = false := by
  have := ahead.line_lt laid suffix
  rw [beq_eq_false_iff_ne]
  omega

/-- The rest of the line on which an item stands ends before the next boundary. -/
theorem Ahead.skipLine (laid : Items.LaidOut (first :: rest)) {items : List Item}
    (suffix : items <:+ rest) (ahead : Ahead boundary later items) :
    Ahead boundary later (Items.skipLine first.line items) :=
  ahead.dropWhile _ (ahead.line_ne laid suffix)

/-- An item that touches the one before it does not begin its line. -/
theorem startsLine_of_mem_touching (laid : Items.LaidOut (first :: rest)) :
    ∀ item ∈ Items.touching first.stop rest, item.startsLine = false := by
  induction rest generalizing first with
  | nil => exact fun _ absent => by cases absent
  | cons second rest ih =>
    intro item member
    rw [Items.touching] at member
    split at member
    · next touches =>
      rw [Bool.and_eq_true, beq_iff_eq] at touches
      rcases List.mem_cons.1 member with rfl | member
      · -- The item before ends on the line on which this one starts.
        have line := (laid.before.touching touches.2).1
        rw [laid.before.startsLine, line, decide_eq_false (Nat.lt_irrefl _)]
      · exact ih laid.tail item member
    · cases member

/-- A name ends before the next boundary. -/
theorem Ahead.afterName (laid : Items.LaidOut (first :: rest))
    (ahead : Ahead boundary later rest) :
    Ahead boundary later (Items.afterName (first :: rest)) := by
  cases name : first.isName with
  | false =>
    rw [Items.afterName_of_not_isName name]
    exact ahead
  | true =>
    have front := Items.touching_isPrefixOf first.stop rest
    have whole : rest = Items.touching first.stop rest ++ Items.afterName (first :: rest) := by
      rw [Items.afterName_of_isName name]
      exact (List.prefix_iff_eq_append.1 front).symm
    rw [whole] at ahead
    exact of_append _ ahead fun item member =>
      isBoundary_of_beside (startsLine_of_mem_touching laid item member)

end Lines

/-! ## Statements -/

section Statements

variable {finish : Token} {first : Item} {rest : List Item}

theorem Ahead.readOptionalLinkLabel (laid : Items.LaidOut (first :: rest))
    (ahead : Ahead boundary later rest) :
    Ahead boundary later (readOptionalLinkLabel finish first.line rest).rest := by
  unfold Flowchart.readOptionalLinkLabel
  split
  · next opened =>
    -- The words of the label end with the line, the pipes are no headers.
    have inside := ahead.tail_of_frontIs rfl opened
    have words := inside.dropWhile
      (fun item => item.line == first.line && item.kind != .pipe)
      (by rw [inside.line_ne laid (List.tail_suffix _), Bool.false_and])
    simp only [readLinkLabel]
    split
    · next closed => exact words.tail_of_frontIs rfl closed
    · exact words
  · exact ahead

/-- A subgraph that is skipped ends before the next boundary. -/
theorem Ahead.skipSubgraph {items : List Item} (ahead : Ahead boundary later items)
    (opened : Nat) : Ahead boundary later (skipSubgraph opened items) := by
  fun_induction Flowchart.skipSubgraph opened items with
  | case1 => exact ahead
  | case2 => exact ahead
  | case3 _ first rest inside _ ih => exact ih (ahead.of_cons (Bool.eq_false_iff.2 inside))
  | case4 _ first rest inside _ _ _ => exact ahead.of_cons (Bool.eq_false_iff.2 inside)
  | case5 _ first rest inside _ _ _ ih => exact ih (ahead.of_cons (Bool.eq_false_iff.2 inside))
  | case6 _ first rest inside _ _ ih => exact ih (ahead.of_cons (Bool.eq_false_iff.2 inside))

theorem Ahead.readDirection (laid : Items.LaidOut (first :: rest))
    (ahead : Ahead boundary later rest) :
    Ahead boundary later (readDirection first.toToken rest).rest := by
  unfold Flowchart.readDirection
  split
  · exact ahead
  · next word after =>
    split
    · next word =>
      -- The direction stands on the line of the header.
      have beside := laid.startsLine_eq_false (List.mem_cons_self ..) word.1.le
      have behind := ahead.of_cons (isBoundary_of_beside beside)
      split <;> exact behind
    · exact ahead

end Statements

end DiagramCheck.Flowchart
