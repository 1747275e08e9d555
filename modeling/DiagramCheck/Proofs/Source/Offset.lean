/-
# Offsets and boundaries

Walking over a text adds its length in bytes to the offset and its newlines to
the line. A boundary of a text is an offset at which it can be cut between two
characters; the text between two boundaries in order is always a slice.
-/

import DiagramCheck.Source
import DiagramCheck.Text.Slice

namespace DiagramCheck

namespace Text

private theorem utf8ByteSize_ofList (text : List Char) :
    (String.ofList text).utf8ByteSize = byteLength text := by
  induction text with
  | nil => rfl
  | cons c text ih =>
    rw [byteLength_cons, ← ih, String.ofList_cons, String.utf8ByteSize_append,
      String.utf8ByteSize_singleton]

theorem byteLength_toList (source : String) : byteLength source.toList = source.utf8ByteSize := by
  rw [← utf8ByteSize_ofList, String.ofList_toList]

theorem length_le_byteLength (text : List Char) : text.length ≤ byteLength text := by
  induction text with
  | nil => exact Nat.le_refl _
  | cons c text ih =>
    have := c.utf8Size_pos
    rw [List.length_cons, byteLength_cons]
    omega

theorem byteLength_pos {text : List Char} (solid : text ≠ []) : 0 < byteLength text := by
  cases text with
  | nil => exact absurd rfl solid
  | cons c text =>
    have := c.utf8Size_pos
    rw [byteLength_cons]
    omega

/-- An offset at which a text can be cut between two characters. -/
def IsBoundary (text : List Char) (offset : Nat) : Prop :=
  ∃ before behind, text = before ++ behind ∧ byteLength before = offset

/-- Of two beginnings of one text, the one with fewer bytes is the beginning of the other. -/
theorem append_eq_append_of_byteLength_le {first second firstRest secondRest : List Char}
    (same : first ++ firstRest = second ++ secondRest)
    (le : byteLength first ≤ byteLength second) :
    ∃ inside, second = first ++ inside ∧ firstRest = inside ++ secondRest := by
  rcases List.append_eq_append_iff.1 same with ⟨inside, rfl, rfl⟩ | ⟨inside, rfl, rfl⟩
  · exact ⟨inside, rfl, rfl⟩
  · cases inside with
    | nil => exact ⟨[], by simp, by simp⟩
    | cons c inside =>
      have := c.utf8Size_pos
      rw [byteLength_append, byteLength_cons] at le
      omega

private theorem exists_of_dropBytes? {count : Nat} {text rest : List Char}
    (dropped : dropBytes? count text = some rest) :
    ∃ before, text = before ++ rest ∧ byteLength before = count := by
  fun_induction dropBytes? count text with
  | case1 => exact ⟨[], Option.some.inj dropped, rfl⟩
  | case2 => cases dropped
  | case3 count c text fits ih =>
    obtain ⟨before, rfl, length⟩ := ih dropped
    exact ⟨c :: before, rfl, by rw [byteLength_cons, length]; omega⟩
  | case4 => cases dropped

private theorem exists_of_takeBytes? {count : Nat} {text inside : List Char}
    (taken : takeBytes? count text = some inside) :
    ∃ behind, text = inside ++ behind ∧ byteLength inside = count := by
  fun_induction takeBytes? count text generalizing inside with
  | case1 text =>
    cases taken
    exact ⟨text, rfl, rfl⟩
  | case2 => cases taken
  | case3 count c text fits ih =>
    obtain ⟨inside, whole, rfl⟩ := Option.map_eq_some_iff.1 taken
    obtain ⟨behind, rfl, length⟩ := ih whole
    exact ⟨behind, rfl, by rw [byteLength_cons, length]; omega⟩
  | case4 => cases taken

/-- A slice exists where the text can be cut at both ends, which are then in order. -/
theorem slice?_eq_some_iff {start stop : Nat} {text inside : List Char} :
    slice? start stop text = some inside ↔
      ∃ before behind, text = before ++ (inside ++ behind) ∧ byteLength before = start ∧
        start + byteLength inside = stop := by
  constructor
  · intro sliced
    unfold slice? at sliced
    split at sliced
    · obtain ⟨rest, dropped, taken⟩ := Option.bind_eq_some_iff.1 sliced
      obtain ⟨before, rfl, first⟩ := exists_of_dropBytes? dropped
      obtain ⟨behind, rfl, length⟩ := exists_of_takeBytes? taken
      exact ⟨before, behind, rfl, first, by omega⟩
    · cases sliced
  · rintro ⟨before, behind, rfl, rfl, rfl⟩
    exact slice?_append before inside behind

/-- Two slices that touch make one. -/
theorem slice?_trans {start middle stop : Nat} {text first second : List Char}
    (left : slice? start middle text = some first)
    (right : slice? middle stop text = some second) :
    slice? start stop text = some (first ++ second) := by
  obtain ⟨before, rest, split, rfl, rfl⟩ := slice?_eq_some_iff.1 left
  obtain ⟨before', behind, split', middle, rfl⟩ := slice?_eq_some_iff.1 right
  rw [← byteLength_append] at middle
  rw [split, ← List.append_assoc] at split'
  -- Both cut the text at the same byte, so nothing lies between the cuts.
  obtain ⟨gap, rfl, rfl⟩ := append_eq_append_of_byteLength_le split' (Nat.le_of_eq middle.symm)
  obtain rfl : gap = [] := by
    cases gap with
    | nil => rfl
    | cons c gap =>
      have := c.utf8Size_pos
      rw [byteLength_append, byteLength_cons] at middle
      omega
  refine slice?_eq_some_iff.2 ⟨before, behind, by simpa using split, rfl, ?_⟩
  rw [byteLength_append]
  omega

/-- A slice in front of an edit is what it was. -/
theorem slice?_of_le {start stop : Nat} {front : List Char} (room : stop ≤ byteLength front)
    (text text' : List Char) :
    slice? start stop (front ++ text') = slice? start stop (front ++ text) := by
  have same (text text' inside : List Char)
      (sliced : slice? start stop (front ++ text) = some inside) :
      slice? start stop (front ++ text') = some inside := by
    obtain ⟨before, behind, split, start_eq, stop_eq⟩ := slice?_eq_some_iff.1 sliced
    rw [← List.append_assoc] at split
    -- Both ends of the slice lie in front, so all of it does.
    have short : byteLength (before ++ inside) ≤ byteLength front := by
      rw [byteLength_append]
      omega
    obtain ⟨gap, rfl, -⟩ := append_eq_append_of_byteLength_le split.symm short
    exact slice?_eq_some_iff.2 ⟨before, gap ++ text', by simp, start_eq, stop_eq⟩
  exact Option.ext fun inside => ⟨same text' text inside, same text text' inside⟩

/-- A slice behind an edit is that of the text behind it. -/
theorem slice?_behind (front text : List Char) (start stop : Nat) :
    slice? (byteLength front + start) (byteLength front + stop) (front ++ text) =
      slice? start stop text := by
  refine Option.ext fun inside => ?_
  simp only [slice?_eq_some_iff]
  constructor
  · rintro ⟨before, behind, split, start_eq, stop_eq⟩
    obtain ⟨gap, rfl, rfl⟩ := append_eq_append_of_byteLength_le split (by omega)
    rw [byteLength_append] at start_eq
    exact ⟨gap, behind, rfl, by omega, by omega⟩
  · rintro ⟨before, behind, rfl, rfl, rfl⟩
    exact ⟨front ++ before, behind, by simp, byteLength_append .., by omega⟩

/-- There is a text between two boundaries in order. -/
theorem IsBoundary.slice?_isSome {text : List Char} {start stop : Nat}
    (first : IsBoundary text start) (second : IsBoundary text stop) (order : start ≤ stop) :
    ∃ inside, slice? start stop text = some inside := by
  obtain ⟨before, rest, rfl, rfl⟩ := first
  obtain ⟨whole, behind, same, rfl⟩ := second
  obtain ⟨inside, rfl, rfl⟩ := append_eq_append_of_byteLength_le same order
  rw [byteLength_append]
  exact ⟨inside, slice?_append before inside behind⟩

end Text

namespace Position

/-- Passing a text advances the offset by its length in bytes. -/
theorem offset_after (place : Position) (text : List Char) :
    (place.after text).offset = place.offset + Text.byteLength text := by
  induction text generalizing place with
  | nil => rfl
  | cons c text ih =>
    rw [after_cons, ih, offset_step, Text.byteLength_cons]
    omega

/-- Passing a text advances the line by its newlines. -/
theorem line_after (place : Position) (text : List Char) :
    (place.after text).line = place.line + text.count '\n' := by
  induction text generalizing place with
  | nil => rfl
  | cons c text ih =>
    rw [after_cons, ih, List.count_cons]
    by_cases newline : c = '\n'
    · simp only [step, newline, if_true, beq_self_eq_true]
      omega
    · simp [step, newline]

end Position

end DiagramCheck
