/-
# Where tokens stand

A place can be told from the text before it: the line from its newlines, the
column from the characters behind the last of them, the offset from its bytes.
Walking over a text, one character at a time, leads to the very place that is
told from the text as a whole.

So the line, the column and the offset of a token say the same in three ways,
and the order of lines and columns among the tokens of a source is the order of
their offsets. Both fail for places of two sources, which is why everything here
is about the beginnings of one.

Main statement: `tokens_stand_exactly`.
-/

import Mathlib.Data.List.DropRight
import DiagramCheck.Proofs.Token.Tiling

namespace DiagramCheck

/-! ## Places told from the text before them -/

namespace Text

/-- What stands behind the last newline of a text. -/
def lastLine (text : List Char) : List Char := text.rtakeWhile (· != '\n')

/-- The line of the character at byte `offset`: one more than there are newlines before it. -/
def lineAt (offset : Nat) (source : List Char) : Option Nat :=
  (takeBytes? offset source).map fun before => before.count '\n' + 1

/-- The column of the character at byte `offset`: one more than there are characters before it on
its line. -/
def columnAt (offset : Nat) (source : List Char) : Option Nat :=
  (takeBytes? offset source).map fun before => (lastLine before).length + 1

@[simp] theorem lastLine_nil : lastLine [] = [] := rfl

@[simp] theorem lastLine_newline (text : List Char) : lastLine (text ++ ['\n']) = [] :=
  List.rtakeWhile_concat_neg _ _ _ (by decide)

theorem lastLine_concat {c : Char} (other : c ≠ '\n') (text : List Char) :
    lastLine (text ++ [c]) = lastLine text ++ [c] :=
  List.rtakeWhile_concat_pos _ _ _ (by simpa using other)

private theorem lineAt_append (before behind : List Char) :
    lineAt (byteLength before) (before ++ behind) = some (before.count '\n' + 1) := by
  rw [lineAt, takeBytes?_append, Option.map_some]

private theorem columnAt_append (before behind : List Char) :
    columnAt (byteLength before) (before ++ behind) = some ((lastLine before).length + 1) := by
  rw [columnAt, takeBytes?_append, Option.map_some]

end Text

namespace Position

/-- The place behind a text, told from the text as a whole. -/
def behind (passed : List Char) : Position :=
  ⟨passed.count '\n' + 1, (Text.lastLine passed).length + 1, Text.byteLength passed⟩

/-- One more character moves the place behind a text by one step. -/
theorem behind_concat (passed : List Char) (c : Char) :
    behind (passed ++ [c]) = (behind passed).step c := by
  by_cases newline : c = '\n'
  · -- A new line begins, and nothing stands on it yet.
    subst newline
    simp [behind, step]
    rfl
  · simp [behind, step, newline, Text.lastLine_concat newline, List.count_append]

/-- Walking over a text leads to the place that the text as a whole tells. -/
theorem after_start (passed : List Char) : start.after passed = behind passed := by
  -- A text grows at its end here, where walking goes on.
  induction passed using List.reverseRecOn with
  | nil => rfl
  | append_singleton passed c ih =>
    rw [after_append, ih, behind_concat]
    rfl

/-! ## The order of places -/

/-- A place before another in the order of lines and, within a line, of columns. -/
def Before (first second : Position) : Prop :=
  first.line < second.line ∨ first.line = second.line ∧ first.column < second.column

theorem Before.trans {first second third : Position} (order : first.Before second)
    (next : second.Before third) : first.Before third := by
  unfold Before at *
  omega

private theorem not_before {place place' : Position} (line : place.line = place'.line)
    (column : place.column = place'.column) : ¬ place.Before place' := by
  unfold Before
  omega

private theorem Before.asymm {first second : Position} (order : first.Before second) :
    ¬ second.Before first := by
  unfold Before at *
  omega

private theorem before_step (place : Position) (c : Char) : place.Before (place.step c) := by
  unfold step
  split
  · exact .inl (Nat.lt_succ_self _)
  · exact .inr ⟨rfl, Nat.lt_succ_self _⟩

/-- Walking on leads to a later place. -/
theorem before_after (place : Position) {text : List Char} (solid : text ≠ []) :
    place.Before (place.after text) := by
  induction text generalizing place with
  | nil => exact absurd rfl solid
  | cons c text ih =>
    cases text with
    | nil => exact place.before_step c
    | cons next text =>
      exact (place.before_step c).trans (ih (place.step c) (List.cons_ne_nil next text))

end Position

namespace Token

/-! ## Tokens of a source -/

variable {source : String} {first second token : Token}

/-- Of two tokens of a source the one that begins at an earlier byte begins at an earlier place. -/
theorem before_of_offset_lt (member : first ∈ tokenize source)
    (member' : second ∈ tokenize source) (order : first.offset < second.offset) :
    first.position.Before second.position := by
  have tiles := tiles_tokenize source
  obtain ⟨passed, behind, whole, place⟩ := tiles.exists_passed first member
  obtain ⟨passed', behind', whole', place'⟩ := tiles.exists_passed second member'
  have less : Text.byteLength passed < Text.byteLength passed' := by
    rw [offset, offset, place, place', Position.offset_after, Position.offset_after] at order
    exact Nat.lt_of_add_lt_add_left order
  -- What is passed before the first token is the beginning of what is passed before the second.
  obtain ⟨between, rfl, -⟩ :=
    Text.append_eq_append_of_byteLength_le (whole.symm.trans whole') less.le
  rw [place, place', Position.after_append]
  refine Position.before_after _ ?_
  rintro rfl
  rw [List.append_nil] at less
  exact absurd less (Nat.lt_irrefl _)

theorem offset_eq_of_place (member : first ∈ tokenize source) (member' : second ∈ tokenize source)
    (line : first.line = second.line) (column : first.column = second.column) :
    first.offset = second.offset := by
  rcases Nat.lt_trichotomy first.offset second.offset with less | same | less
  · exact absurd (before_of_offset_lt member member' less) (Position.not_before line column)
  · exact same
  · exact absurd (before_of_offset_lt member' member less)
      (Position.not_before line.symm column.symm)

/-- Tokens of a source that begin at one byte are one token. -/
theorem eq_of_offset_eq (member : first ∈ tokenize source) (member' : second ∈ tokenize source)
    (same : first.offset = second.offset) : first = second := by
  by_contra other
  rcases precedes_or_precedes member member' other with order | order
  · exact order.offset_lt.ne same
  · exact order.offset_lt.ne same.symm

/-- A token stands where the text before it says, and ends where the text up to its end says. -/
theorem exists_place (member : token ∈ tokenize source) :
    ∃ passed behind, source.toList = passed ++ (token.text.toList ++ behind) ∧
      token.position = .behind passed ∧
      token.endLine = (passed ++ token.text.toList).count '\n' + 1 := by
  obtain ⟨passed, behind, whole, place⟩ := (tiles_tokenize source).exists_passed token member
  refine ⟨passed, behind, whole, place.trans (Position.after_start passed), ?_⟩
  rw [endLine_eq_line_after, place, ← Position.after_append, Position.after_start]
  rfl

/-- Tokens stand exactly where they say. The line and the column of a token, the end of the input
included, are those of its first byte; among the tokens of a source the order of lines and columns
is the order of bytes; and a token that does not end in a newline ends on the line of its last
character. -/
theorem tokens_stand_exactly (source : String) :
    (∀ token ∈ tokenize source,
      Text.lineAt token.offset source.toList = some token.line ∧
      Text.columnAt token.offset source.toList = some token.column) ∧
    (∀ first ∈ tokenize source, ∀ second ∈ tokenize source,
      (first.offset < second.offset ↔ first.position.Before second.position) ∧
      (first.offset = second.offset ↔
        first.line = second.line ∧ first.column = second.column)) ∧
    ∀ token ∈ tokenize source, ∀ front last, token.text.toList = front ++ [last] → last ≠ '\n' →
      Text.lineAt (token.offset + Text.byteLength front) source.toList = some token.endLine := by
  refine ⟨?_, ?_, ?_⟩
  · intro token member
    obtain ⟨passed, behind, whole, place, -⟩ := exists_place member
    rw [whole, offset, line, column, place]
    exact ⟨Text.lineAt_append .., Text.columnAt_append ..⟩
  · intro first member second member'
    refine ⟨⟨before_of_offset_lt member member', fun before => ?_⟩, fun same => ?_,
      fun place => offset_eq_of_place member member' place.1 place.2⟩
    · -- The place of one byte is one place, and the order of places goes one way only.
      rcases Nat.lt_trichotomy first.offset second.offset with less | same | less
      · exact less
      · rw [eq_of_offset_eq member member' same] at before
        exact absurd before (Position.not_before rfl rfl)
      · exact absurd before (before_of_offset_lt member' member less).asymm
    · rw [eq_of_offset_eq member member' same]
      exact ⟨rfl, rfl⟩
  · intro token member front last text other
    obtain ⟨passed, behind, whole, place, stop⟩ := exists_place member
    have reached : token.offset + Text.byteLength front =
        Text.byteLength (passed ++ front) := by
      rw [offset, place, Text.byteLength_append]
      rfl
    have cut : source.toList = (passed ++ front) ++ ([last] ++ behind) := by
      rw [whole, text]
      simp
    rw [reached, cut, Text.lineAt_append, stop, text]
    -- The last character is no newline, so it does not count.
    simp [List.count_append, other]

end Token

end DiagramCheck
