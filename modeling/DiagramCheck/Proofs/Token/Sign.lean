/-
# Signs before words

An arrow is recognised before a number or a word, so what stands behind it cannot draw
its last sign away. A plus sign is always a word of its own. A minus sign is one only in
front of a word with a letter or an underscore in it. In front of digits it is the sign
of a number, and number and sign are one token.

Main statements: `leads_minus` and `leads_negative`.
-/

import DiagramCheck.Proofs.Token.Number

namespace DiagramCheck.Lexeme

/-- Where an arrow begins, nothing else does. -/
theorem next_of_arrow? {c : Char} {text : List Char} {shape : Arrow} {length : Nat}
    (found : arrow? (c :: text) = some (shape, length)) :
    next c text = ⟨.arrow shape, length⟩ := by
  have head : c = '-' ∨ c = '=' := by
    unfold arrow? at found
    split at found
    all_goals first
      | next front => exact .inl (List.cons.inj front).1
      | next front => exact .inr (List.cons.inj front).1
      | cases found
  rcases head with rfl | rfl <;> simp [next, directive?, comment?, string?, found]

/-- A plus sign is a word of its own. -/
theorem leads_plus (behind : List Char) : Leads .identifier ['+'] behind := by
  have plain : '+' ∉ signs := by decide
  refine ⟨'+', behind, rfl, by decide, ?_⟩
  rcases next_of_not_mem_signs plain behind with ⟨length, found, -⟩ | word
  · -- No number begins with a plus sign.
    rcases number?_head found with digit | ⟨minus, -⟩
    · cases digit
    · cases minus
  · exact word

section Minus

variable {word behind : List Char} (written : word ≠ []) (letters : word.all isWordChar = true)

include written letters

/-- No arrow begins with a minus sign in front of a word. -/
theorem arrow?_minus : arrow? ('-' :: (word ++ behind)) = none := by
  obtain ⟨c, tail, rfl⟩ := List.exists_cons_of_ne_nil written
  rw [List.all_cons, Bool.and_eq_true] at letters
  have other (sign : Char) (foreign : isWordChar sign = false) : c ≠ sign := by
    rintro rfl
    rw [letters.1] at foreign
    cases foreign
  have point := other '.' (by decide)
  have angle := other '>' (by decide)
  have hyphen := other '-' (by decide)
  simp [arrow?, point, angle, hyphen]

/-- A minus sign in front of a word that is no number is a word of its own. -/
theorem leads_minus (stops : StopsPiece behind) (letter : word.all Char.isDigit = false) :
    Leads .identifier ['-'] (word ++ behind) := by
  have unnumbered : number? ('-' :: (word ++ behind)) = none := by
    rw [number?, unsigned?_append_of_letters written letters stops,
      if_neg fun both => Bool.false_ne_true (letter.symm.trans both.1)]
    rfl
  refine ⟨'-', word ++ behind, rfl, by decide, ?_⟩
  simp [next, directive?, comment?, string?, arrow?_minus written letters, unnumbered, delimiter?,
    Lexeme.word, not_isWordChar_hyphen]

/-- A minus sign in front of digits is the sign of a number. -/
theorem leads_negative (stops : StopsPiece behind)
    (ends : behind.head?.any continuesWord = false) (digits : word.all Char.isDigit = true) :
    Leads .number ('-' :: word) behind := by
  refine ⟨'-', word ++ behind, rfl, by decide, next_of_number? ?_⟩
  rw [number?, unsigned?_append_of_letters written letters stops, if_pos ⟨digits, ends⟩]
  rfl

end Minus

end DiagramCheck.Lexeme
