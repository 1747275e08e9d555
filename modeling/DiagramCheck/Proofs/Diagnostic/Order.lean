/-
# Diagnostics in source order

A diagnostic takes its place in source order before the first one that it does
not come after. So diagnostics at one place keep the order they were found in,
and the order of some diagnostics can be told one diagnostic at a time.

Two consequences: diagnostics that correspond one by one still do so in source
order, when their places compare alike; and the diagnostics up to some line come
before those below it, each in the order they would have without the others.
-/

import Mathlib.Data.List.Forall2
import Mathlib.Data.List.TakeWhile
import DiagramCheck.Diagnostic.Basic

namespace DiagramCheck

/-- Passing over the front of a list stops before a part that is not passed over. -/
theorem takeWhile_append_of_stops {α : Type} {test : α → Bool} (first : List α) {second : List α}
    (stops : ∀ a ∈ second, test a = false) :
    (first ++ second).takeWhile test = first.takeWhile test ∧
      (first ++ second).dropWhile test = first.dropWhile test ++ second := by
  induction first with
  | nil =>
    cases second with
    | nil => exact ⟨rfl, rfl⟩
    | cons a second =>
      have own := stops a (List.mem_cons_self ..)
      simp [own]
  | cons a first ih =>
    rw [List.cons_append, List.takeWhile_cons, List.takeWhile_cons, List.dropWhile_cons,
      List.dropWhile_cons, ih.1, ih.2]
    split <;> exact ⟨rfl, rfl⟩

namespace Diagnostic

theorem precedes_iff {first second : Diagnostic} : first.precedes second = true ↔
    first.line < second.line ∨ first.line = second.line ∧ first.column ≤ second.column := by
  simp [precedes]

theorem precedes_trans (first second third : Diagnostic) (order : first.precedes second = true)
    (next : second.precedes third = true) : first.precedes third = true := by
  rw [precedes_iff] at *
  omega

theorem precedes_total (first second : Diagnostic) :
    (first.precedes second || second.precedes first) = true := by
  rw [Bool.or_eq_true, precedes_iff, precedes_iff]
  omega

@[simp] theorem inSourceOrder_nil : inSourceOrder [] = [] := List.mergeSort_nil

theorem mem_inSourceOrder {diagnostic : Diagnostic} {diagnostics : List Diagnostic} :
    diagnostic ∈ inSourceOrder diagnostics ↔ diagnostic ∈ diagnostics :=
  List.mem_mergeSort

theorem isEmpty_inSourceOrder (diagnostics : List Diagnostic) :
    (inSourceOrder diagnostics).isEmpty = diagnostics.isEmpty :=
  (List.mergeSort_perm ..).isEmpty_eq

/-- The first diagnostic found takes its place before the first one that it does not come after. -/
theorem inSourceOrder_cons (diagnostic : Diagnostic) (diagnostics : List Diagnostic) :
    inSourceOrder (diagnostic :: diagnostics) =
      (inSourceOrder diagnostics).takeWhile (!diagnostic.precedes ·) ++
        diagnostic :: (inSourceOrder diagnostics).dropWhile (!diagnostic.precedes ·) := by
  obtain ⟨before, after, placed, split, passed⟩ :=
    List.mergeSort_cons precedes_trans precedes_total diagnostic diagnostics
  have sorted := List.pairwise_mergeSort precedes_trans precedes_total (diagnostic :: diagnostics)
  rw [placed] at sorted
  have behind : ∀ other ∈ after, (!diagnostic.precedes other) = false := by
    intro other member
    rw [(List.pairwise_cons.1 (List.pairwise_append.1 sorted).2.1).1 other member]
    rfl
  obtain ⟨taken, dropped⟩ := takeWhile_append_of_stops before behind
  rw [inSourceOrder, inSourceOrder, placed, split, taken, dropped,
    List.takeWhile_eq_self_iff.2 passed, List.dropWhile_eq_nil_iff.2 passed, List.nil_append]

/-- Diagnostics that correspond one by one do so in source order. -/
theorem forall₂_inSourceOrder {same : Diagnostic → Diagnostic → Prop}
    (places : ∀ first first' second second', same first first' → same second second' →
      first'.precedes second' = first.precedes second)
    {diagnostics diagnostics' : List Diagnostic}
    (each : List.Forall₂ same diagnostics diagnostics') :
    List.Forall₂ same (inSourceOrder diagnostics) (inSourceOrder diagnostics') := by
  have split {first first' : Diagnostic} (own : same first first') {list list' : List Diagnostic}
      (each : List.Forall₂ same list list') :
      List.Forall₂ same (list.takeWhile (!first.precedes ·))
        (list'.takeWhile (!first'.precedes ·)) ∧
      List.Forall₂ same (list.dropWhile (!first.precedes ·))
        (list'.dropWhile (!first'.precedes ·)) := by
    induction each with
    | nil => exact ⟨.nil, .nil⟩
    | cons second later ih =>
      rw [List.takeWhile_cons, List.takeWhile_cons, List.dropWhile_cons, List.dropWhile_cons,
        places _ _ _ _ own second]
      split
      · exact ⟨.cons second ih.1, ih.2⟩
      · exact ⟨.nil, .cons second later⟩
  induction each with
  | nil =>
    rw [inSourceOrder_nil]
    exact .nil
  | cons own _ ih =>
    rw [inSourceOrder_cons, inSourceOrder_cons]
    exact List.rel_append (split own ih).1 (.cons own (split own ih).2)

/-- The diagnostics up to a line come first, then those below it. -/
theorem inSourceOrder_split (line : Nat) (diagnostics : List Diagnostic) :
    inSourceOrder diagnostics =
      inSourceOrder (diagnostics.filter (·.line ≤ line)) ++
        inSourceOrder (diagnostics.filter (line < ·.line)) := by
  induction diagnostics with
  | nil => simp
  | cons first rest ih =>
    rw [inSourceOrder_cons, ih]
    by_cases upper : first.line ≤ line
    · -- It takes its place among the upper ones, because it comes before all of the lower.
      have behind : ∀ other ∈ inSourceOrder (rest.filter (line < ·.line)),
          (!first.precedes other) = false := by
        intro other member
        have lower := of_decide_eq_true (List.mem_filter.1 (mem_inSourceOrder.1 member)).2
        rw [Bool.not_eq_false', precedes_iff]
        omega
      have above : ¬ line < first.line := by omega
      obtain ⟨taken, dropped⟩ := takeWhile_append_of_stops
        (inSourceOrder (rest.filter (·.line ≤ line))) behind
      rw [taken, dropped, List.filter_cons_of_pos (by simpa), List.filter_cons_of_neg (by simpa),
        inSourceOrder_cons, List.append_assoc, List.cons_append]
    · -- It comes after all of the upper ones.
      have passed : ∀ other ∈ inSourceOrder (rest.filter (·.line ≤ line)),
          (!first.precedes other) = true := by
        intro other member
        have higher := of_decide_eq_true (List.mem_filter.1 (mem_inSourceOrder.1 member)).2
        rw [Bool.not_eq_true', Bool.eq_false_iff, Ne, precedes_iff]
        omega
      have below : line < first.line := by omega
      rw [List.takeWhile_append_of_pos passed, List.dropWhile_append_of_pos passed,
        List.filter_cons_of_neg (by simpa), List.filter_cons_of_pos (by simpa),
        inSourceOrder_cons, List.append_assoc]

/-- Diagnostics up to a line and diagnostics below it, found in turns, are told apart again. -/
theorem inSourceOrder_append_append {line : Nat} {first second first' second' : List Diagnostic}
    (upper : ∀ diagnostic ∈ first ++ first', diagnostic.line ≤ line)
    (lower : ∀ diagnostic ∈ second ++ second', line < diagnostic.line) :
    inSourceOrder ((first ++ second) ++ (first' ++ second')) =
      inSourceOrder (first ++ first') ++ inSourceOrder (second ++ second') := by
  -- The two parts of the whole list are gathered from the two parts of each list in it.
  have kept {list : List Diagnostic} (inside : ∀ diagnostic ∈ list, diagnostic.line ≤ line) :
      list.filter (·.line ≤ line) = list ∧ list.filter (line < ·.line) = [] := by
    constructor
    · exact List.filter_eq_self.2 fun diagnostic member =>
        decide_eq_true (inside diagnostic member)
    · exact List.filter_eq_nil_iff.2 fun diagnostic member => by
        simpa using inside diagnostic member
  have dropped {list : List Diagnostic} (inside : ∀ diagnostic ∈ list, line < diagnostic.line) :
      list.filter (·.line ≤ line) = [] ∧ list.filter (line < ·.line) = list := by
    constructor
    · exact List.filter_eq_nil_iff.2 fun diagnostic member => by
        simpa using inside diagnostic member
    · exact List.filter_eq_self.2 fun diagnostic member =>
        decide_eq_true (inside diagnostic member)
  obtain ⟨upperFirst, upperSecond⟩ := List.forall_mem_append.1 upper
  obtain ⟨lowerFirst, lowerSecond⟩ := List.forall_mem_append.1 lower
  rw [inSourceOrder_split line]
  simp only [List.filter_append, (kept upperFirst).1, (kept upperFirst).2, (kept upperSecond).1,
    (kept upperSecond).2, (dropped lowerFirst).1, (dropped lowerFirst).2, (dropped lowerSecond).1,
    (dropped lowerSecond).2, List.append_nil, List.nil_append]

end Diagnostic

end DiagramCheck
