/-
# Slices of a source text

Offsets count bytes, while a source text is read as characters. A slice is cut
by offsets and exists only between character boundaries: `dropBytes?` and
`takeBytes?` fail when an offset falls inside a character or beyond the end.
-/

namespace DiagramCheck.Text

/-- The length in bytes of a run of characters. -/
def byteLength : List Char → Nat
  | [] => 0
  | c :: text => c.utf8Size + byteLength text

/-- What is left of a text without its first `count` bytes, if they are whole characters. -/
def dropBytes? : Nat → List Char → Option (List Char)
  | 0, text => some text
  | _ + 1, [] => none
  | count + 1, c :: text =>
    if c.utf8Size ≤ count + 1 then dropBytes? (count + 1 - c.utf8Size) text else none

/-- The first `count` bytes of a text, if they are whole characters. -/
def takeBytes? : Nat → List Char → Option (List Char)
  | 0, _ => some []
  | _ + 1, [] => none
  | count + 1, c :: text =>
    if c.utf8Size ≤ count + 1 then (takeBytes? (count + 1 - c.utf8Size) text).map (c :: ·)
    else none

/-- The text between two offsets, if both are character boundaries in order. -/
def slice? (start stop : Nat) (text : List Char) : Option (List Char) :=
  if start ≤ stop then (dropBytes? start text).bind (takeBytes? (stop - start)) else none

@[simp] theorem byteLength_nil : byteLength [] = 0 := rfl

@[simp] theorem byteLength_cons (c : Char) (text : List Char) :
    byteLength (c :: text) = c.utf8Size + byteLength text := rfl

@[simp] theorem byteLength_append (first second : List Char) :
    byteLength (first ++ second) = byteLength first + byteLength second := by
  induction first with
  | nil => simp
  | cons c first ih => simp [ih, Nat.add_assoc]

theorem dropBytes?_append (first second : List Char) :
    dropBytes? (byteLength first) (first ++ second) = some second := by
  induction first with
  | nil => simp [dropBytes?]
  | cons c first ih =>
    obtain ⟨count, size⟩ : ∃ count, c.utf8Size + byteLength first = count + 1 :=
      ⟨c.utf8Size + byteLength first - 1, by have := c.utf8Size_pos; omega⟩
    have rest : count + 1 - c.utf8Size = byteLength first := by omega
    have fits : c.utf8Size ≤ count + 1 := by omega
    simp [dropBytes?, size, rest, fits, ih]

theorem takeBytes?_append (first second : List Char) :
    takeBytes? (byteLength first) (first ++ second) = some first := by
  induction first with
  | nil => simp [takeBytes?]
  | cons c first ih =>
    obtain ⟨count, size⟩ : ∃ count, c.utf8Size + byteLength first = count + 1 :=
      ⟨c.utf8Size + byteLength first - 1, by have := c.utf8Size_pos; omega⟩
    have rest : count + 1 - c.utf8Size = byteLength first := by omega
    have fits : c.utf8Size ≤ count + 1 := by omega
    simp [takeBytes?, size, rest, fits, ih]

/-- A part of a text lies between the offsets of its ends. -/
theorem slice?_append (before inside behind : List Char) :
    slice? (byteLength before) (byteLength before + byteLength inside)
      (before ++ (inside ++ behind)) = some inside := by
  simp [slice?, dropBytes?_append, takeBytes?_append]

end DiagramCheck.Text
