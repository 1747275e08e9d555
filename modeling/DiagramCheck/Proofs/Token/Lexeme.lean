/-
# What a lexeme takes

Whatever rule cuts the next lexeme off a text takes at least one character of it
and at most all of them. `Rule` says once which rules there are and what holds
when each of them applies; the facts about lexemes follow from it.

A word ends where no further character can belong to it: what follows a word is
no letter, no digit and no underscore of ASCII, and a hyphen only where it
begins an arrow.
-/

import DiagramCheck.Token.Lexeme

namespace DiagramCheck

namespace Lexeme

/-- A length that takes something of a text and no more than there is. -/
def Fits (length : Nat) (text : List Char) : Prop := 0 < length ∧ length ≤ text.length

theorem takeWhile_length_le (test : Char → Bool) (text : List Char) :
    (text.takeWhile test).length ≤ text.length :=
  (List.takeWhile_prefix test).length_le

/-! ## The rules one by one -/

private theorem directiveBody_le (depth : Nat) (text : List Char) :
    directiveBody depth text ≤ text.length := by
  fun_induction directiveBody depth text with
  | case1 => exact Nat.le_refl _
  | case2 _ _ ih => simpa using ih
  | case3 _ text closes =>
    obtain ⟨mark, rfl⟩ := List.isPrefixOf_iff_prefix.1 closes.2
    simp
  | case4 _ _ _ _ ih => simpa using ih
  | case5 _ _ _ _ _ ih => simpa using ih

private theorem directive?_fits {text : List Char} {length : Nat}
    (found : directive? text = some length) :
    Fits length text := by
  unfold directive? at found
  split at found
  · next body =>
    have := directiveBody_le 1 body
    cases found
    simp only [Fits, List.length_cons]
    omega
  · cases found

private theorem comment?_fits {text : List Char} {length : Nat}
    (found : comment? text = some length) :
    Fits length text := by
  unfold comment? at found
  split at found
  · next body =>
    have := takeWhile_length_le (· != '\n') body
    cases found
    simp only [Fits, List.length_cons]
    omega
  · cases found

private theorem quotedBody_le (quote : Char) (text : List Char) :
    quotedBody quote text ≤ text.length := by
  induction text with
  | nil => exact Nat.le_refl _
  | cons c text ih =>
    rw [quotedBody, List.length_cons]
    split <;> omega

private theorem string?_fits {text : List Char} {length : Nat}
    (found : string? text = some length) :
    Fits length text := by
  unfold string? at found
  split at found
  · next c body =>
    have := quotedBody_le c body
    split at found
    · cases found
      simp only [Fits, List.length_cons]
      omega
    · cases found
  · cases found

private theorem arrow?_fits {text : List Char} {arrow : Arrow} {length : Nat}
    (found : arrow? text = some (arrow, length)) : Fits length text := by
  unfold arrow? at found
  split at found <;> cases found <;> simp [Fits]

private theorem delimiter?_fits {text : List Char} {kind : TokenKind} {length : Nat}
    (found : delimiter? text = some (kind, length)) : Fits length text := by
  unfold delimiter? at found
  split at found <;> cases found <;> simp [Fits]

theorem fraction_le (text : List Char) : fraction text ≤ text.length := by
  unfold fraction
  split
  · next text =>
    have := takeWhile_length_le Char.isDigit text
    split
    · exact Nat.zero_le _
    · simpa [digits] using this
  · exact Nat.zero_le _

private theorem unsigned?_fits {text : List Char} {length : Nat}
    (found : unsigned? text = some length) :
    Fits length text := by
  have whole : digits text ≤ text.length := takeWhile_length_le Char.isDigit text
  have part := fraction_le (text.drop (digits text))
  rw [List.length_drop] at part
  simp only [unsigned?] at found
  split at found
  · cases found
  · next refused =>
    cases found
    simp only [not_or] at refused
    simp only [Fits]
    omega

theorem number?_fits {text : List Char} {length : Nat} (found : number? text = some length) :
    Fits length text := by
  unfold number? at found
  split at found
  · obtain ⟨shorter, cut, rfl⟩ := Option.map_eq_some_iff.1 found
    have := unsigned?_fits cut
    simp only [Fits, List.length_cons] at *
    omega
  · exact unsigned?_fits found

private theorem wordTail_le (text : List Char) : wordTail text ≤ text.length := by
  fun_induction wordTail text with
  | case1 => exact Nat.le_refl _
  | case2 => exact Nat.zero_le _
  | case3 => exact Nat.zero_le _
  | case4 => exact Nat.zero_le _
  | case5 => simpa
  | case6 => simpa
  | case7 => exact Nat.zero_le _

private theorem word_fits (c : Char) (text : List Char) : Fits (word c text) (c :: text) := by
  have := wordTail_le text
  unfold word Fits
  split <;> simp [this]

/-! ## Where words and numbers end -/

/-- The characters of a word are letters, digits, underscores and hyphens. -/
theorem wordTail_chars (text : List Char) :
    ∀ d ∈ text.take (wordTail text), isWordChar d = true ∨ d = '-' := by
  fun_induction wordTail text with
  | case1 => simp
  | case2 => simp
  | case3 => simp
  | case4 => simp
  | case5 text _ _ _ ih => simpa using ih
  | case6 c text _ letter ih => simpa [letter] using ih
  | case7 => simp

/-- What follows a word does not belong to it; a hyphen there begins an arrow, so no digit comes
after it. -/
theorem wordTail_ends (text : List Char) {more : List Char} {d : Char}
    (behind : text.drop (wordTail text) = d :: more) :
    isWordChar d = false ∧
      (d = '-' → ∃ e rest, more = e :: rest ∧ e.isDigit = false) := by
  fun_induction wordTail text with
  | case1 => cases behind
  -- The three arrows that a hyphen can begin.
  | case2 => cases behind; exact ⟨rfl, fun _ => ⟨_, _, rfl, rfl⟩⟩
  | case3 => cases behind; exact ⟨rfl, fun _ => ⟨_, _, rfl, rfl⟩⟩
  | case4 => cases behind; exact ⟨rfl, fun _ => ⟨_, _, rfl, rfl⟩⟩
  | case5 text _ _ _ ih => exact ih behind
  | case6 c text _ _ ih => exact ih behind
  | case7 c text other foreign =>
    cases behind
    exact ⟨Bool.eq_false_iff.2 foreign, fun hyphen => absurd hyphen other⟩

private theorem unsigned?_head {c : Char} {text : List Char} {length : Nat}
    (found : unsigned? (c :: text) = some length) : c.isDigit = true := by
  cases digit : c.isDigit with
  | true => rfl
  | false =>
    have whole : digits (c :: text) = 0 := by simp [digits, digit]
    simp [unsigned?, whole] at found

/-- A number begins with a digit, perhaps after a minus sign that belongs to it. -/
theorem number?_head {c : Char} {text : List Char} {length : Nat}
    (found : number? (c :: text) = some length) :
    c.isDigit = true ∨ c = '-' ∧ ∃ d more, text = d :: more ∧ d.isDigit = true ∧ 2 ≤ length := by
  unfold number? at found
  split at found
  · -- The digits behind a minus sign.
    next body same =>
    cases same
    obtain ⟨shorter, cut, rfl⟩ := Option.map_eq_some_iff.1 found
    cases text with
    | nil => simp [unsigned?, digits] at cut
    | cons d more =>
      have fits := (unsigned?_fits cut).1
      exact .inr ⟨rfl, d, more, rfl, unsigned?_head cut, by omega⟩
  · exact .inl (unsigned?_head found)

/-! ## The next lexeme -/

/-- What a lexeme at the front of `c :: text` can be, and what holds of the text in each case. -/
inductive Rule (c : Char) (text : List Char) : Lexeme → Prop
  | directive {length : Nat} (found : directive? (c :: text) = some length) :
      Rule c text ⟨.directive, length⟩
  | comment {length : Nat} (undirected : directive? (c :: text) = none)
      (found : comment? (c :: text) = some length) : Rule c text ⟨.comment, length⟩
  | string {length : Nat} (found : string? (c :: text) = some length) :
      Rule c text ⟨.string, length⟩
  | arrow {shape : Arrow} {length : Nat} (found : arrow? (c :: text) = some (shape, length)) :
      Rule c text ⟨.arrow shape, length⟩
  | number {length : Nat} (found : number? (c :: text) = some length) :
      Rule c text ⟨.number, length⟩
  | delimiter {kind : TokenKind} {length : Nat}
      (found : delimiter? (c :: text) = some (kind, length)) : Rule c text ⟨kind, length⟩
  | word (unquoted : string? (c :: text) = none) (unnumbered : number? (c :: text) = none)
      (undelimited : delimiter? (c :: text) = none) :
      Rule c text ⟨.identifier, word c text⟩

theorem next_rule (c : Char) (text : List Char) : Rule c text (next c text) := by
  unfold next
  split
  · next found => exact .directive found
  · next undirected =>
    split
    · next found => exact .comment undirected found
    · split
      · next found => exact .string found
      · next unquoted =>
        split
        · next found => exact .arrow found
        · split
          · next found => exact .number found
          · next unnumbered =>
            split
            · next found => exact .delimiter found
            · next undelimited => exact .word unquoted unnumbered undelimited

/-- The next lexeme takes at least one character and no more than there are. -/
theorem next_fits (c : Char) (text : List Char) : Fits (next c text).length (c :: text) := by
  have rule := next_rule c text
  generalize next c text = lexeme at rule ⊢
  cases rule with
  | directive found => exact directive?_fits found
  | comment _ found => exact comment?_fits found
  | string found => exact string?_fits found
  | arrow found => exact arrow?_fits found
  | number found => exact number?_fits found
  | delimiter found => exact delimiter?_fits found
  | word => exact word_fits c text

theorem delimiter?_kind {text : List Char} {kind : TokenKind} {length : Nat}
    (found : delimiter? text = some (kind, length)) :
    kind ≠ .endOfInput ∧ kind ≠ .identifier ∧ kind.isArrow = false := by
  unfold delimiter? at found
  split at found <;> cases found <;> simp [TokenKind.isArrow]

/-- No text is the end of the input. -/
theorem next_kind_ne_endOfInput (c : Char) (text : List Char) :
    (next c text).kind ≠ .endOfInput := by
  have rule := next_rule c text
  generalize next c text = lexeme at rule ⊢
  cases rule with
  | delimiter found => exact (delimiter?_kind found).1
  | _ => exact fun same => by cases same

end Lexeme

end DiagramCheck
