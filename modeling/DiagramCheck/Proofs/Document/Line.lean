/-
# Documents on one line

The text of a document holds no newline. Every newline of a text that it shows
is escaped, and nothing else it is made of is one. So documents that are
written with a newline behind each can be told apart again: the lines of the
whole are the documents, in order.

Main statement: `Document.splitOn_join_lines`.
-/

import DiagramCheck.Document.Basic
import Mathlib.Tactic.SplitIfs

namespace DiagramCheck

/-! ## Numbers -/

namespace Text

private theorem newline_not_mem_repr (n : Nat) : '\n' ∉ (Nat.repr n).toList := by
  intro member
  rw [Nat.toList_repr] at member
  have digit := Nat.isDigit_of_mem_toDigits (by decide) (by decide) member
  exact absurd digit (by decide)

namespace Digits

variable (digits : Digits)

private theorem newline_not_mem_text : '\n' ∉ digits.text := newline_not_mem_repr _

private theorem newline_not_mem_positional : '\n' ∉ digits.positional := by
  have text := digits.newline_not_mem_text
  have zeros (count : Nat) : '\n' ∉ List.replicate count '0' :=
    fun member => absurd (List.eq_of_mem_replicate member) (by decide)
  unfold positional
  dsimp only
  split_ifs
  · simp [text, zeros]
  · simp [text, zeros]
  · have before : '\n' ∉ digits.text.take digits.pointPlace.toNat :=
      fun member => text (List.mem_of_mem_take member)
    have behind : '\n' ∉ digits.text.drop digits.pointPlace.toNat :=
      fun member => text (List.mem_of_mem_drop member)
    simp [before, behind]

private theorem newline_not_mem_scientific : '\n' ∉ digits.scientific := by
  have text := digits.newline_not_mem_text
  have power : '\n' ∉ 'e' :: ((if digits.pointPlace - 1 < 0 then ['-'] else []) ++
      (Nat.repr (digits.pointPlace - 1).natAbs).toList) := by
    have exponent := newline_not_mem_repr (digits.pointPlace - 1).natAbs
    split_ifs <;> simp [exponent, -Nat.toList_repr]
  unfold scientific
  dsimp only
  -- The point stands behind the first digit, if another one follows it.
  split
  next => exact power
  next single shape =>
    rw [shape] at text
    have first : '\n' ≠ single := fun same => text (List.mem_singleton.2 same)
    exact List.not_mem_cons_of_ne_of_not_mem first power
  next first rest _ shape =>
    rw [shape, List.mem_cons, not_or] at text
    have fraction : '\n' ∉ '.' :: rest := List.not_mem_cons_of_ne_of_not_mem (by decide) text.2
    exact List.not_mem_cons_of_ne_of_not_mem text.1 (List.not_mem_append fraction power)

private theorem newline_not_mem_render : '\n' ∉ digits.render := by
  unfold render
  split_ifs
  · exact digits.newline_not_mem_positional
  · exact digits.newline_not_mem_scientific

end Digits

private theorem Binary64.newline_not_mem_render (number : Binary64) :
    '\n' ∉ number.render.toList := by
  have digits : '\n' ∉ (number.shortest?.map Digits.render).getD ['0', '.', '0'] := by
    cases number.shortest? with
    | none => decide
    | some digits => exact digits.newline_not_mem_render
  unfold Binary64.render
  dsimp only
  split_ifs <;> simp [digits]

end Text

/-! ## Documents -/

namespace Document

private theorem hexDigit_ne_newline : ∀ n < 16, hexDigit n ≠ '\n' := by decide

private theorem newline_not_mem_escape (c : Char) : '\n' ∉ escape c := by
  by_cases low : c.toNat < 0x20
  · have first := hexDigit_ne_newline (c.toNat / 16) (by omega)
    have second := hexDigit_ne_newline (c.toNat % 16) (by omega)
    unfold escape
    split_ifs <;> simp [first.symm, second.symm]
  · -- A character that stands for itself is no control character.
    have other : c ≠ '\n' := by
      rintro rfl
      exact low (by decide)
    unfold escape
    split_ifs <;> simp [other.symm]

private theorem newline_not_mem_quote (text : String) : '\n' ∉ (quote text).toList := by
  simp [quote, newline_not_mem_escape]

/-- Texts without a newline have none when commas stand between them. -/
theorem newline_not_mem_intercalate {texts : List String}
    (apart : ∀ text ∈ texts, '\n' ∉ text.toList) :
    '\n' ∉ (String.intercalate "," texts).toList := by
  induction texts with
  | nil => simp
  | cons text rest ih =>
    have first := apart text List.mem_cons_self
    have others := ih fun other member => apart other (List.mem_cons_of_mem _ member)
    cases rest with
    | nil => simpa using first
    | cons next rest =>
      rw [String.intercalate_cons_cons, String.toList_append, String.toList_append]
      exact List.not_mem_append (List.not_mem_append first (by decide)) others

mutual

/-- The text of a document stands on one line. -/
private theorem newline_not_mem_render : (document : Document) → '\n' ∉ document.render.toList
  | .null => by simp [render]
  | .truth value => by cases value <;> simp [render]
  | .whole value => Text.newline_not_mem_repr value
  | .real value => by
    have number := value.newline_not_mem_render
    unfold render
    split_ifs <;> simp [number]
  | .text value => newline_not_mem_quote value
  | .list items => by
    have inner := newline_not_mem_intercalate (newline_not_mem_renderItems items)
    rw [render, String.toList_append, String.toList_append]
    exact List.not_mem_append (List.not_mem_append (by decide) inner) (by decide)
  | .record fields => by
    have inner := newline_not_mem_intercalate (newline_not_mem_renderFields fields)
    rw [render, String.toList_append, String.toList_append]
    exact List.not_mem_append (List.not_mem_append (by decide) inner) (by decide)

private theorem newline_not_mem_renderItems :
    (items : List Document) → ∀ text ∈ renderItems items, '\n' ∉ text.toList
  | [] => by simp [renderItems]
  | item :: rest => by
    have first := newline_not_mem_render item
    have others := newline_not_mem_renderItems rest
    simpa [renderItems, first] using others

private theorem newline_not_mem_renderFields :
    (fields : List (String × Document)) → ∀ text ∈ renderFields fields, '\n' ∉ text.toList
  | [] => by simp [renderFields]
  | (name, value) :: rest => by
    have label := newline_not_mem_quote name
    have shown := newline_not_mem_render value
    have others := newline_not_mem_renderFields rest
    simpa [renderFields, label, shown] using others

end

/-- Documents with a newline behind each are the lines of what they make together. -/
theorem splitOn_join_lines (documents : List Document) :
    (String.join (documents.map fun document => document.render ++ "\n")).toList.splitOn '\n' =
      documents.map (·.render.toList) ++ [[]] := by
  induction documents with
  | nil => simp
  | cons document rest ih =>
    have cut := document.newline_not_mem_render
    rw [String.toList_join] at ih ⊢
    simp only [List.map_cons, List.flatMap_cons, String.toList_append, List.append_assoc,
      List.cons_append]
    have newline : "\n".toList = ['\n'] := rfl
    rw [newline, List.singleton_append, List.splitOn_append_cons_self_of_not_mem cut, ih]

end Document

end DiagramCheck
