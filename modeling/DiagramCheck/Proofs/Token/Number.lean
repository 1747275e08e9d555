/-
# How numbers are spelled

A literal is a number as sources write it: perhaps a minus sign, digits, and perhaps a
point with more digits behind it. Wherever it is printed it is one token, unless what
stands behind it goes on with a point, a letter, a digit or an underscore. And the text
of that token is a decimal again, the one that was written.

Main statements: `Literal.spells` and `Literal.ofText?_print`.
-/

import DiagramCheck.Text.Numeral
import DiagramCheck.Proofs.Token.Spelling
import DiagramCheck.Proofs.Token.Touching

namespace DiagramCheck

/-- One digit or more. -/
structure Digits where
  chars : List Char
  some : chars ≠ []
  digits : chars.all Char.isDigit = true
  deriving DecidableEq, Repr

/-- A number as it is written. -/
structure Literal where
  negative : Bool
  whole : Digits
  fraction : Option Digits
  deriving DecidableEq, Repr

namespace Literal

variable (literal : Literal)

/-- The digits behind the point. -/
def fractionDigits : List Char := literal.fraction.elim [] Digits.chars

/-- A literal without its sign. -/
def unsigned : List Char :=
  literal.whole.chars ++ literal.fraction.elim [] fun fraction => '.' :: fraction.chars

/-- A literal as it is written. -/
def print : String :=
  .ofList ((if literal.negative then ['-'] else []) ++ literal.unsigned)

/-- The decimal that a literal writes. -/
def decimal : Text.Decimal where
  negative := literal.negative
  digits := Text.digitsValue (literal.whole.chars ++ literal.fractionDigits)
  places := literal.fractionDigits.length

/-- The binary64 number nearest to what a literal writes. -/
def value : Text.Binary64 := literal.decimal.toBinary64

/-- The word of a literal. -/
def word : TokenKind × String := (.number, literal.print)

end Literal

/-! ## Reading digits -/

/-- Digits are taken off a text as far as they go. -/
theorem Digits.split_append (digits : Digits) {behind : List Char}
    (stops : ∀ c ∈ behind.head?, c.isDigit = false) :
    (digits.chars ++ behind).takeWhile Char.isDigit = digits.chars ∧
      (digits.chars ++ behind).dropWhile Char.isDigit = behind := by
  have own := List.all_eq_true.1 digits.digits
  rw [List.takeWhile_append_of_pos own, List.dropWhile_append_of_pos own]
  cases behind with
  | nil => exact ⟨List.append_nil _, rfl⟩
  | cons c behind =>
    have stop : ¬ c.isDigit = true := by
      rw [stops c rfl]
      exact Bool.false_ne_true
    rw [List.takeWhile_cons_of_neg stop, List.dropWhile_cons_of_neg stop, List.append_nil]
    exact ⟨rfl, rfl⟩

namespace Lexeme

/-- Where a number begins, nothing else does. -/
theorem next_of_number? {c : Char} {text : List Char} {length : Nat}
    (found : number? (c :: text) = some length) : next c text = ⟨.number, length⟩ := by
  -- Neither a sign of another rule nor an arrow begins with a digit or with a minus before one.
  have head := number?_head found
  have rule := next_rule c text
  generalize next c text = lexeme at rule
  cases rule with
  | number own => rw [Option.some.inj (own.symm.trans found)]
  | word _ unnumbered => cases unnumbered.symm.trans found
  | directive own =>
    unfold directive? at own
    split at own
    · next front => cases front; simp at head
    · cases own
  | comment _ own =>
    unfold comment? at own
    split at own
    · next front => cases front; simp at head
    · cases own
  | string own =>
    rw [string?] at own
    split at own
    · next quote => rcases quote with rfl | rfl <;> simp at head
    · cases own
  | arrow own =>
    unfold arrow? at own
    split at own
    all_goals first
      | next front => cases front; simp at head
      | cases own
  | delimiter own =>
    unfold delimiter? at own
    split at own
    all_goals first
      | next front => cases front; simp at head
      | cases own

/-- What stands behind a number and does not belong to it. -/
def StopsNumber (behind : List Char) : Prop :=
  ∀ c ∈ behind.head?, continuesWord c = false ∧ c ≠ '.'

theorem StopsNumber.nil : StopsNumber [] := fun _ absent => by cases absent

theorem StopsNumber.cons {c : Char} (foreign : continuesWord c = false) (other : c ≠ '.')
    (text : List Char) : StopsNumber (c :: text) := by
  rintro _ ⟨⟩
  exact ⟨foreign, other⟩

theorem StopsNumber.blank (text : List Char) : StopsNumber (' ' :: text) :=
  .cons (by decide) (by decide) text

theorem StopsNumber.isDigit {behind : List Char} (stops : StopsNumber behind) :
    ∀ c ∈ behind.head?, c.isDigit = false := by
  intro c front
  refine Bool.eq_false_iff.2 fun digit => ?_
  have word : isWordChar c = true := by simp [isWordChar, Char.isAlphanum, digit]
  have own := continuesWord_of_isWordChar word
  rw [(stops c front).1] at own
  cases own

end Lexeme

open Lexeme (StopsNumber)

namespace Literal

variable (literal : Literal) {behind : List Char}

/-- The digits of a literal are read to its end. -/
theorem unsigned?_append (stops : StopsNumber behind) :
    Lexeme.unsigned? (literal.unsigned ++ behind) = some literal.unsigned.length := by
  have digit := stops.isDigit
  have foreign : behind.head?.any Lexeme.continuesWord = false := by
    cases behind with
    | nil => rfl
    | cons c behind => exact (stops c rfl).1
  obtain ⟨negative, whole, _ | fraction⟩ := literal
  · have none : Lexeme.fraction behind = 0 := by
      unfold Lexeme.fraction
      split
      · exact absurd rfl (stops '.' rfl).2
      · rfl
    simp [unsigned, Lexeme.unsigned?, Lexeme.digits, (whole.split_append digit).1, none, foreign,
      whole.some]
  · have point : ∀ c ∈ ('.' :: (fraction.chars ++ behind)).head?, c.isDigit = false := by
      rintro _ ⟨⟩
      rfl
    have length : Lexeme.fraction ('.' :: (fraction.chars ++ behind)) =
        fraction.chars.length + 1 := by
      simp [Lexeme.fraction, Lexeme.digits, (fraction.split_append digit).1, fraction.some]
    have drop : ('.' :: (fraction.chars ++ behind)).drop (fraction.chars.length + 1) = behind := by
      simp
    simp [unsigned, Lexeme.unsigned?, Lexeme.digits, (whole.split_append point).1, length,
      drop, foreign, whole.some]

/-- An unsigned literal begins with a digit. -/
theorem exists_unsigned : ∃ c text, literal.unsigned = c :: text ∧ c.isDigit = true := by
  obtain ⟨c, chars, split⟩ := List.exists_cons_of_ne_nil literal.whole.some
  have digits := literal.whole.digits
  rw [split, List.all_cons, Bool.and_eq_true] at digits
  exact ⟨c, _, by rw [unsigned, split, List.cons_append], digits.1⟩

theorem number?_append (stops : StopsNumber behind) :
    Lexeme.number? (literal.print.toList ++ behind) = some literal.print.toList.length := by
  have own := literal.unsigned?_append stops
  rw [print, String.toList_ofList]
  cases literal.negative with
  | true =>
    rw [if_pos rfl, List.singleton_append, List.cons_append, Lexeme.number?, own]
    rfl
  | false =>
    obtain ⟨c, text, split, digit⟩ := literal.exists_unsigned
    rw [split] at own
    rw [if_neg Bool.false_ne_true, List.nil_append, split, ← own]
    unfold Lexeme.number?
    split
    · next minus =>
      -- The minus sign is no digit.
      cases minus
      cases digit
    · rfl

/-- A literal begins with a digit or a minus sign. -/
theorem exists_print :
    ∃ c text, literal.print.toList = c :: text ∧ (c.isDigit = true ∨ c = '-') := by
  have found := literal.number?_append .nil
  rw [List.append_nil] at found
  cases text : literal.print.toList with
  | nil =>
    rw [text] at found
    exact absurd (Lexeme.number?_fits found).1 (Nat.lt_irrefl 0)
  | cons c tail =>
    rw [text] at found
    exact ⟨c, tail, rfl, (Lexeme.number?_head found).imp_right And.left⟩

theorem leads (stops : StopsNumber behind) :
    Lexeme.Leads .number literal.print.toList behind := by
  have found := literal.number?_append stops
  obtain ⟨c, tail, text, begins⟩ := literal.exists_print
  rw [text, List.cons_append] at found
  have solid : Text.isBlank c = false := by
    refine Bool.eq_false_iff.2 fun blank => ?_
    rcases begins with digit | rfl
    · rw [Lexeme.isDigit_of_isBlank blank] at digit
      cases digit
    · cases blank
  rw [text]
  exact ⟨c, tail ++ behind, rfl, solid, Lexeme.next_of_number? found⟩

/-- A printed literal is a single number. -/
theorem spells (stops : StopsNumber behind) :
    Spells literal.print.toList behind [literal.word] := by
  have spelled := Spells.of_leads (literal.leads stops) nofun
  rwa [String.ofList_toList] at spelled

theorem newline_not_mem : '\n' ∉ literal.print.toList :=
  (literal.leads .nil).newline_not_mem ⟨nofun, nofun, nofun⟩

/-! ## The decimal of a literal -/

private theorem ofUnsigned?_unsigned :
    Text.Decimal.ofUnsigned? literal.negative literal.unsigned = some literal.decimal := by
  obtain ⟨negative, whole, _ | fraction⟩ := literal
  · have split := whole.split_append StopsNumber.nil.isDigit
    obtain ⟨c, chars, nonempty⟩ := List.exists_cons_of_ne_nil whole.some
    simp only [unsigned, Option.elim_none, Text.Decimal.ofUnsigned?, split.1, split.2]
    simp only [nonempty, decimal, fractionDigits, Option.elim_none, List.append_nil,
      List.length_nil]
  · have point : ∀ c ∈ ('.' :: fraction.chars).head?, c.isDigit = false := by
      rintro _ ⟨⟩
      rfl
    have split := whole.split_append point
    obtain ⟨c, chars, nonempty⟩ := List.exists_cons_of_ne_nil whole.some
    have proper : (fraction.chars.isEmpty || !fraction.chars.all Char.isDigit) = false := by
      simp [fraction.some, fraction.digits]
    simp only [unsigned, Option.elim_some, Text.Decimal.ofUnsigned?, split.1, split.2]
    simp only [nonempty, proper, decimal, fractionDigits, Option.elim_some]
    rfl

/-- A printed literal writes its decimal. -/
theorem ofText?_print : Text.Decimal.ofText? literal.print = some literal.decimal := by
  have own := literal.ofUnsigned?_unsigned
  rw [Text.Decimal.ofText?, print, String.toList_ofList]
  cases sign : literal.negative with
  | true =>
    rw [sign] at own
    exact own
  | false =>
    rw [sign] at own
    obtain ⟨c, text, first, digit⟩ := literal.exists_unsigned
    rw [if_neg Bool.false_ne_true, List.nil_append]
    split
    · next rest minus =>
      rw [first] at minus
      cases minus
      cases digit
    · exact own

end Literal

/-! ## Numbers of a text -/

namespace Literal

/-- What is read as an unsigned number is an unsigned literal. -/
theorem exists_of_unsigned? {text : List Char} {length : Nat}
    (found : Lexeme.unsigned? text = some length) (negative : Bool) :
    ∃ literal : Literal, literal.negative = negative ∧ literal.unsigned = text.take length := by
  -- The text is digits, and behind them a point with more digits or something else.
  have split : text = text.takeWhile Char.isDigit ++ text.dropWhile Char.isDigit :=
    List.takeWhile_append_dropWhile.symm
  have digit : (text.takeWhile Char.isDigit).all Char.isDigit = true := List.all_takeWhile
  rw [Lexeme.unsigned?, Lexeme.digits] at found
  split at found
  · cases found
  · next proper =>
    have nonempty : text.takeWhile Char.isDigit ≠ [] := fun empty => proper (.inl (by simp [empty]))
    generalize text.takeWhile Char.isDigit = whole at split digit nonempty found
    generalize text.dropWhile Char.isDigit = rest at split
    subst split
    rw [List.drop_left] at found
    obtain rfl := Option.some.inj found
    unfold Lexeme.fraction
    split
    · next more =>
      split
      · exact ⟨⟨negative, ⟨whole, nonempty, digit⟩, none⟩, rfl, by simp [unsigned]⟩
      · next some =>
        have inner : more.takeWhile Char.isDigit ≠ [] := fun empty =>
          some (by simp [Lexeme.digits, empty])
        refine ⟨⟨negative, ⟨whole, nonempty, digit⟩, Option.some ⟨_, inner, List.all_takeWhile⟩⟩,
          rfl, ?_⟩
        have front : more.take (more.takeWhile Char.isDigit).length =
            more.takeWhile Char.isDigit :=
          (List.prefix_iff_eq_take.1 (List.takeWhile_prefix _)).symm
        rw [Lexeme.digits, List.take_length_add_append, List.take_succ_cons, front]
        rfl
    · exact ⟨⟨negative, ⟨whole, nonempty, digit⟩, none⟩, rfl, by simp [unsigned]⟩

/-- What is read as a number is a literal. -/
theorem exists_of_number? {text : List Char} {length : Nat}
    (found : Lexeme.number? text = some length) :
    ∃ literal : Literal, literal.print.toList = text.take length := by
  unfold Lexeme.number? at found
  split at found
  · next text =>
    obtain ⟨count, unsigned, rfl⟩ := Option.map_eq_some_iff.1 found
    obtain ⟨literal, negative, own⟩ := exists_of_unsigned? unsigned true
    exact ⟨literal, by simp [print, negative, own]⟩
  · obtain ⟨literal, negative, own⟩ := exists_of_unsigned? found false
    exact ⟨literal, by simp [print, negative, own]⟩

end Literal

/-- Every number of a text is a literal. -/
theorem Token.IsCut.exists_literal {token : Token} (cut : token.IsCut)
    (kind : token.kind = .number) : ∃ literal : Literal, token.word = literal.word := by
  obtain ⟨c, tail, behind, text, found⟩ := cut.exists_number? kind
  obtain ⟨literal, written⟩ := Literal.exists_of_number? found
  rw [List.take_left, ← text, String.toList_inj] at written
  exact ⟨literal, by rw [word, kind, ← written, Literal.word]⟩

end DiagramCheck
