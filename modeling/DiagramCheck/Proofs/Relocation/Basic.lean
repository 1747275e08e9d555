/-
# Texts put elsewhere

A text is relocated when lines and bytes are put in front of it, and carriage
returns in front of each of its newlines. Every place in it then has a place in
the relocated text: on a line further down, at the same column, and at an offset
that counts what was put in front of it.

The order of places is kept, and so is whatever is told from it: which token is
the first on its line, whether two tokens touch, and what lies between two nodes.

Without carriage returns a relocation only moves a text, and all that is said of
it stays the same except for where it is said.
-/

import DiagramCheck.Diagnostic.Basic
import DiagramCheck.Proofs.Source.Offset
import DiagramCheck.Text.Character

namespace DiagramCheck

namespace Diagnostic

/-- A diagnostic that stands some lines and bytes further down. -/
def shift (lines bytes : Nat) (diagnostic : Diagnostic) : Diagnostic :=
  { diagnostic with
    line := diagnostic.line + lines
    span := ⟨diagnostic.span.start + bytes, diagnostic.span.stop + bytes,
      Nat.add_le_add_right diagnostic.span.start_le_stop bytes⟩ }

end Diagnostic

/-- What is put before a text and into it. -/
structure Relocation where
  /-- The lines put in front of the text. -/
  lines : Nat
  /-- The bytes put in front of the text. -/
  bytes : Nat
  /-- The carriage returns put in front of every newline. -/
  returns : Nat
  deriving DecidableEq, Repr

namespace Relocation

variable (move : Relocation)

/-- What stands in front of every newline. -/
def lead : List Char := List.replicate move.returns '\r'

/-- A text with carriage returns in front of its newlines. -/
def chars : List Char → List Char
  | [] => []
  | c :: text => if c = '\n' then move.lead ++ '\n' :: chars text else c :: chars text

/-- A string with carriage returns in front of its newlines. -/
def text (written : String) : String := String.ofList (move.chars written.toList)

/-- Where a place of the text comes to lie. Lines are counted from one, so as many newlines as full
lines stand before it. -/
def position (place : Position) : Position :=
  ⟨place.line + move.lines, place.column,
    place.offset + move.bytes + (place.line - 1) * move.returns⟩

/-- A token of the text as a token of the relocated text. -/
def token (token : Token) : Token :=
  ⟨token.kind, move.text token.text, move.position token.position⟩

/-! ## Texts -/

@[simp] theorem chars_nil : move.chars [] = [] := rfl

@[simp] theorem chars_newline (text : List Char) :
    move.chars ('\n' :: text) = move.lead ++ '\n' :: move.chars text := rfl

theorem chars_cons {c : Char} (other : c ≠ '\n') (text : List Char) :
    move.chars (c :: text) = c :: move.chars text :=
  if_neg other

@[simp] theorem chars_append (first second : List Char) :
    move.chars (first ++ second) = move.chars first ++ move.chars second := by
  induction first with
  | nil => rfl
  | cons c first ih =>
    by_cases newline : c = '\n'
    · subst newline
      simp [ih]
    · rw [List.cons_append, chars_cons move newline, chars_cons move newline, ih, List.cons_append]

theorem ne_newline_of_mem_lead {c : Char} (member : c ∈ move.lead) : c ≠ '\n' := by
  rw [List.eq_of_mem_replicate member]
  decide

theorem all_isBlank_lead : move.lead.all Text.isBlank = true := by
  rw [List.all_eq_true]
  intro c member
  rw [List.eq_of_mem_replicate member]
  rfl

theorem count_newline_lead : move.lead.count '\n' = 0 :=
  List.count_eq_zero_of_not_mem fun member => move.ne_newline_of_mem_lead member rfl

private theorem byteLength_lead : Text.byteLength move.lead = move.returns := by
  rw [lead]
  induction move.returns with
  | zero => rfl
  | succ returns ih => rw [List.replicate_succ, Text.byteLength_cons, ih, Nat.add_comm]; rfl

@[simp] theorem count_newline_chars (text : List Char) :
    (move.chars text).count '\n' = text.count '\n' := by
  induction text with
  | nil => rfl
  | cons c text ih =>
    by_cases newline : c = '\n'
    · subst newline
      simp [List.count_append, count_newline_lead, ih]
    · rw [chars_cons move newline, List.count_cons_of_ne newline, List.count_cons_of_ne newline, ih]

theorem chars_of_not_mem {text : List Char} (plain : '\n' ∉ text) : move.chars text = text := by
  induction text with
  | nil => rfl
  | cons c text ih =>
    rw [List.mem_cons, not_or] at plain
    rw [chars_cons move (Ne.symm plain.1), ih plain.2]

theorem newline_mem_chars {text : List Char} : '\n' ∈ move.chars text ↔ '\n' ∈ text := by
  rw [← List.count_pos_iff, count_newline_chars, List.count_pos_iff]

theorem chars_of_returns (exact : move.returns = 0) (text : List Char) :
    move.chars text = text := by
  induction text with
  | nil => rfl
  | cons c text ih =>
    by_cases newline : c = '\n'
    · subst newline
      simp [lead, exact, ih]
    · rw [chars_cons move newline, ih]

/-! ## Places -/

theorem position_step {place : Position} {c : Char} (other : c ≠ '\n') :
    move.position (place.step c) = (move.position place).step c := by
  simp only [position, Position.step, if_neg other, Position.mk.injEq, true_and]
  omega

/-- Passing carriage returns and a newline in the relocated text is passing the newline. -/
theorem position_step_newline {place : Position} (counted : 1 ≤ place.line) :
    move.position (place.step '\n') = ((move.position place).after move.lead).step '\n' := by
  have line : (place.line + 1 - 1) * move.returns =
      (place.line - 1) * move.returns + move.returns := by
    rw [← Nat.succ_mul]
    congr 1
    omega
  simp only [position, Position.step, if_true, Position.line_after, Position.offset_after,
    count_newline_lead, byteLength_lead, line, Position.mk.injEq, true_and]
  omega

/-- Passing a text and relocating it can be done in any order. -/
theorem position_after {place : Position} (counted : 1 ≤ place.line) (text : List Char) :
    move.position (place.after text) = (move.position place).after (move.chars text) := by
  induction text generalizing place with
  | nil => rfl
  | cons c text ih =>
    have later : 1 ≤ (place.step c).line := by
      rw [Position.step]
      split
      · exact Nat.le_add_left ..
      · exact counted
    by_cases newline : c = '\n'
    · subst newline
      rw [Position.after_cons, ih later, position_step_newline move counted, chars_newline,
        Position.after_append, Position.after_cons]
    · rw [Position.after_cons, ih later, position_step move newline, chars_cons move newline,
        Position.after_cons]

/-- A place that a beginning of the source leads to. -/
def Lies (source : List Char) (place : Position) : Prop :=
  ∃ passed behind, source = passed ++ behind ∧ place = Position.start.after passed

section Lies

variable {source : List Char} {first second : Position}

theorem Lies.counted (lies : Lies source first) : 1 ≤ first.line := by
  obtain ⟨passed, behind, -, rfl⟩ := lies
  rw [Position.line_after]
  exact Nat.le_add_right ..

theorem Lies.line_le (left : Lies source first) (right : Lies source second)
    (order : first.offset ≤ second.offset) : first.line ≤ second.line := by
  obtain ⟨before, rest, rfl, rfl⟩ := left
  obtain ⟨more, behind, same, rfl⟩ := right
  rw [Position.offset_after, Position.offset_after] at order
  obtain ⟨between, rfl, -⟩ :=
    Text.append_eq_append_of_byteLength_le same (Nat.le_of_add_le_add_left order)
  rw [Position.after_append, Position.line_after _ between]
  exact Nat.le_add_right ..

/-- The places of a source keep their order. -/
theorem offset_position_le_iff (left : Lies source first) (right : Lies source second) :
    (move.position first).offset ≤ (move.position second).offset ↔
      first.offset ≤ second.offset := by
  have more {first second : Position} (left : Lies source first) (right : Lies source second)
      (order : first.offset ≤ second.offset) :
      (first.line - 1) * move.returns ≤ (second.line - 1) * move.returns :=
    Nat.mul_le_mul_right _ (Nat.sub_le_sub_right (left.line_le right order) 1)
  simp only [position]
  constructor
  · intro order
    refine Nat.le_of_not_lt fun less => ?_
    have := more right left (Nat.le_of_lt less)
    omega
  · intro order
    have := more left right order
    omega

theorem offset_position_lt_iff (left : Lies source first) (right : Lies source second) :
    (move.position first).offset < (move.position second).offset ↔
      first.offset < second.offset := by
  rw [← Nat.not_le, ← Nat.not_le, offset_position_le_iff move right left]

theorem offset_position_eq_iff (left : Lies source first) (right : Lies source second) :
    (move.position first).offset = (move.position second).offset ↔
      first.offset = second.offset := by
  rw [Nat.le_antisymm_iff, Nat.le_antisymm_iff, offset_position_le_iff move left right,
    offset_position_le_iff move right left]

end Lies

end Relocation

end DiagramCheck
