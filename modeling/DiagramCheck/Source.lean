/-
# Places in a source text

A position names the place of a character three ways at once: the line, the
column within the line, and the byte offset in the UTF-8 form of the text. Lines
and columns start at one and offsets at zero; columns count characters. Only
the newline character begins a line.

Positions are reached by walking: `step` passes one character and `after` a
whole text, so the three coordinates can never disagree.

A span is a run of bytes of the source, given by where it starts and where it
stops. It never stops before it starts: bounds in the wrong order describe the
empty span at the first of them.
-/

namespace DiagramCheck

/-! ## Positions -/

/-- The place of a character in a source text. -/
structure Position where
  /-- Lines are counted from one. -/
  line : Nat
  /-- Columns are counted in characters, from one. -/
  column : Nat
  /-- Offsets are counted in bytes of UTF-8, from zero. -/
  offset : Nat
  deriving DecidableEq, Repr

namespace Position

/-- The place of the first character of a text. -/
def start : Position := ⟨1, 1, 0⟩

/-- The place after the character `c` that stands at `place`. -/
def step (place : Position) (c : Char) : Position :=
  if c = '\n' then ⟨place.line + 1, 1, place.offset + 1⟩
  else ⟨place.line, place.column + 1, place.offset + c.utf8Size⟩

/-- The place after a run of characters that begins at `place`. -/
def after (place : Position) (text : List Char) : Position := text.foldl step place

@[simp] theorem after_nil (place : Position) : place.after [] = place := rfl

@[simp] theorem after_cons (place : Position) (c : Char) (text : List Char) :
    place.after (c :: text) = (place.step c).after text := rfl

theorem after_append (place : Position) (first second : List Char) :
    place.after (first ++ second) = (place.after first).after second :=
  List.foldl_append

/-- Passing a character advances the offset by its length in bytes. -/
theorem offset_step (place : Position) (c : Char) :
    (place.step c).offset = place.offset + c.utf8Size := by
  unfold step
  split
  · next newline => subst newline; rfl
  · rfl

end Position

/-! ## Spans -/

/-- A half-open run of bytes of the source. -/
structure Span where
  start : Nat
  stop : Nat
  start_le_stop : start ≤ stop := by omega
  deriving DecidableEq, Repr

namespace Span

/-- The span between two bounds, empty at the first when they are out of order. -/
def between (start stop : Nat) : Span := ⟨start, max start stop, Nat.le_max_left ..⟩

/-- The empty span at the start of the source. -/
def origin : Span := ⟨0, 0, Nat.le_refl 0⟩

/-- The number of bytes a span covers. -/
def length (span : Span) : Nat := span.stop - span.start

/-- A span is empty when it covers no byte. -/
def isEmpty (span : Span) : Bool := span.start == span.stop

/-- The part of a span that lies within a source of `size` bytes. -/
def clamp (span : Span) (size : Nat) : Span :=
  ⟨min span.start size, min span.stop size, by have := span.start_le_stop; omega⟩

theorem start_add_length (span : Span) : span.start + span.length = span.stop := by
  have := span.start_le_stop
  simp only [length]
  omega

theorem clamp_stop_le (span : Span) (size : Nat) : (span.clamp size).stop ≤ size :=
  Nat.min_le_right ..

theorem clamp_eq_self {span : Span} {size : Nat} (inside : span.stop ≤ size) :
    span.clamp size = span := by
  have := span.start_le_stop
  obtain ⟨start, stop, order⟩ := span
  simp only [clamp, mk.injEq] at *
  omega

end Span

end DiagramCheck
