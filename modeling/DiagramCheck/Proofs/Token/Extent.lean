/-
# How far a lexeme looks ahead

A lexeme that is no directive, comment or string ends no later than the next
blank, and what stands behind that blank has no say in it. So it stays what it is
whatever the text goes on with, as long as the text goes on with a blank or not
at all. `EndsWord` says this of what follows. A semicolon belongs to no longer
lexeme either, so in front of it such lexemes end as in front of a blank.

The other three run over blanks. A directive or a string looks for the mark that
closes it, and a comment for the end of its line.

Main statements: `next_append` for the lexemes that end at a blank or a semicolon,
and `Leads.append_newline` for all lexemes that are not left open.
-/

import DiagramCheck.Proofs.Token.Tiling

namespace DiagramCheck

namespace Text

/-- A text in front of which a word ends: it is empty or begins with a blank. -/
def EndsWord (text : List Char) : Prop := ∀ c ∈ text.head?, isBlank c = true

theorem EndsWord.cons {c : Char} (blank : isBlank c = true) (text : List Char) :
    EndsWord (c :: text) := by
  rintro _ ⟨⟩
  exact blank

/-- The code points of the blanks. -/
def blankPoints : List Nat :=
  [0x9, 0xA, 0xB, 0xC, 0xD, 0x20, 0x85, 0xA0, 0x1680, 0x2000, 0x2001, 0x2002, 0x2003, 0x2004,
   0x2005, 0x2006, 0x2007, 0x2008, 0x2009, 0x200A, 0x2028, 0x2029, 0x202F, 0x205F, 0x3000]

private theorem toNat_mem_blankPoints {c : Char} (blank : isBlank c = true) :
    c.toNat ∈ blankPoints := by
  have points : blankPoints = List.range' 0x9 5 ++ [0x20, 0x85, 0xA0, 0x1680] ++
      List.range' 0x2000 11 ++ [0x2028, 0x2029, 0x202F, 0x205F, 0x3000] := rfl
  simp only [isBlank, Bool.or_eq_true, Bool.and_eq_true, decide_eq_true_eq, beq_iff_eq] at blank
  simp only [points, List.mem_append, List.mem_range'_1, List.mem_cons, List.not_mem_nil, or_false]
  omega

/-- No blank is a letter or a number. -/
theorem isAlphanumeric_of_isBlank {c : Char} (blank : isBlank c = true) :
    isAlphanumeric c = false := by
  have points : ∀ n ∈ blankPoints, isAlphanumeric (Char.ofNat n) = false := by decide +kernel
  rw [← Char.ofNat_toNat c]
  exact points _ (toNat_mem_blankPoints blank)

/-- A text that is empty or begins with a character of some class. -/
def EndsAt (stops : Char → Bool) (text : List Char) : Prop := ∀ c ∈ text.head?, stops c = true

namespace EndsAt

variable {stops : Char → Bool} {text behind : List Char}

/-- A word at the front of a text that goes on where words end stands in front of that. -/
theorem prefix_of_prefix_append {word : List Char} (ends : EndsAt stops behind)
    (solid : word.all (!stops ·) = true) (front : word <+: text ++ behind) : word <+: text := by
  induction word generalizing text with
  | nil => exact List.nil_prefix
  | cons c word ih =>
    rw [List.all_cons, Bool.and_eq_true, Bool.not_eq_true'] at solid
    cases text with
    | nil =>
      -- The word would begin where another one ends.
      obtain ⟨rest, rfl⟩ := front
      have stop := ends c rfl
      rw [solid.1] at stop
      cases stop
    | cons d text =>
      rw [List.cons_append, List.cons_prefix_cons] at front
      exact List.cons_prefix_cons.2 ⟨front.1, ih solid.2 front.2⟩

private theorem append_ne (ends : EndsAt stops behind) (word : List Char)
    (solid : word.all (!stops ·) = true) (other : ∀ more, text = word ++ more → False)
    (more : List Char) : text ++ behind ≠ word ++ more := by
  intro same
  obtain ⟨tail, split⟩ := ends.prefix_of_prefix_append solid ⟨more, same.symm⟩
  exact other tail split.symm

theorem takeWhile_append (ends : EndsAt stops behind) (test : Char → Bool)
    (solid : ∀ c, stops c = true → test c = false) :
    (text ++ behind).takeWhile test = text.takeWhile test := by
  induction text with
  | nil =>
    cases behind with
    | nil => rfl
    | cons c behind => simp [solid c (ends c rfl)]
  | cons c text ih => simp only [List.cons_append, List.takeWhile_cons, ih]

private theorem any_head?_append (ends : EndsAt stops behind) (test : Char → Bool)
    (solid : ∀ c, stops c = true → test c = false) :
    (text ++ behind).head?.any test = text.head?.any test := by
  cases text with
  | nil =>
    cases behind with
    | nil => rfl
    | cons c behind => exact solid c (ends c rfl)
  | cons c text => rfl

end EndsAt

/-- The part of a text before its first blank. -/
def solidFront (text : List Char) : List Char := text.takeWhile (!isBlank ·)

private theorem solidFront_append_dropWhile (text : List Char) :
    solidFront text ++ text.dropWhile (!isBlank ·) = text :=
  List.takeWhile_append_dropWhile

private theorem endsWord_dropWhile (text : List Char) : EndsWord (text.dropWhile (!isBlank ·)) := by
  intro c front
  have stopped := List.head?_dropWhile_not (!isBlank ·) text
  rw [Option.mem_def.1 front] at stopped
  simpa using stopped

/-- A word stands at the front of a text when it stands in front of the first blank. -/
theorem prefix_solidFront_iff {word : List Char} (solid : word.all (!isBlank ·) = true)
    (text : List Char) : word <+: solidFront text ↔ word <+: text := by
  constructor
  · exact fun front => front.trans (List.takeWhile_prefix _)
  · intro front
    rw [← solidFront_append_dropWhile text] at front
    exact EndsAt.prefix_of_prefix_append (endsWord_dropWhile text) solid front

end Text

namespace Lexeme

open Text (EndsAt EndsWord isBlank)

/-! ## Blanks in the classes of characters -/

section Blank

variable {c : Char}

theorem ne_of_isBlank (blank : isBlank c = true) {d : Char} (solid : isBlank d = false) :
    c ≠ d := by
  rintro rfl
  rw [blank] at solid
  cases solid

theorem isDigit_of_isBlank (blank : isBlank c = true) : c.isDigit = false := by
  refine Bool.eq_false_iff.2 fun digit => ?_
  have range := Text.toNat_of_isDigit digit
  have point := Text.toNat_mem_blankPoints blank
  simp only [Text.blankPoints, List.mem_cons, List.not_mem_nil, or_false] at point
  omega

private theorem continuesWord_of_isBlank (blank : isBlank c = true) : continuesWord c = false := by
  rw [continuesWord, Text.isAlphanumeric_of_isBlank blank, Bool.false_or, beq_eq_false_iff_ne]
  exact ne_of_isBlank blank rfl

theorem isWordChar_of_isBlank (blank : isBlank c = true) : isWordChar c = false := by
  have foreign : c.isAlphanum = false := by
    refine Bool.eq_false_iff.2 fun own => ?_
    have letter := Text.isAlphanumeric_of_isAlphanum own
    rw [Text.isAlphanumeric_of_isBlank blank] at letter
    cases letter
  rw [isWordChar, foreign, Bool.false_or, beq_eq_false_iff_ne]
  exact ne_of_isBlank blank rfl

end Blank

/-! ## The rules that end at a blank or a semicolon -/

/-- The characters that end a lexeme before them. -/
def endsLexeme (c : Char) : Bool := isBlank c || c == ';'

private theorem endsLexeme_cases {c : Char} (ends : endsLexeme c = true) :
    isBlank c = true ∨ c = ';' := by
  rwa [endsLexeme, Bool.or_eq_true, beq_iff_eq] at ends

private theorem endsAt_of_endsWord {text : List Char} (ends : EndsWord text) :
    EndsAt endsLexeme text :=
  fun c front => Bool.or_eq_true_iff.2 (.inl (ends c front))

private theorem endsAt_semicolon (text : List Char) : EndsAt endsLexeme (';' :: text) := by
  rintro _ ⟨⟩
  rfl

private theorem isDigit_of_endsLexeme {c : Char} (ends : endsLexeme c = true) :
    c.isDigit = false := by
  rcases endsLexeme_cases ends with blank | rfl
  · exact isDigit_of_isBlank blank
  · rfl

private theorem continuesWord_of_endsLexeme {c : Char} (ends : endsLexeme c = true) :
    continuesWord c = false := by
  rcases endsLexeme_cases ends with blank | rfl
  · exact continuesWord_of_isBlank blank
  · decide +kernel

private theorem isWordChar_of_endsLexeme {c : Char} (ends : endsLexeme c = true) :
    isWordChar c = false := by
  rcases endsLexeme_cases ends with blank | rfl
  · exact isWordChar_of_isBlank blank
  · rfl

/-- Characters that end a lexeme before them, since no number, word, arrow or mark goes on with
one. -/
structure Separates (stops : Char → Bool) : Prop where
  digit {c : Char} : stops c = true → c.isDigit = false
  continues {c : Char} : stops c = true → continuesWord c = false
  letter {c : Char} : stops c = true → isWordChar c = false
  signs : ['-', '.', '>', '=', '%', '\x7b'].all (!stops ·) = true

private theorem separates_endsLexeme : Separates endsLexeme where
  digit := isDigit_of_endsLexeme
  continues := continuesWord_of_endsLexeme
  letter := isWordChar_of_endsLexeme
  signs := rfl

theorem Separates.solid {stops : Char → Bool} (separates : Separates stops) {word : List Char}
    (signs : word.all (['-', '.', '>', '=', '%', '\x7b'].contains ·) = true) :
    word.all (!stops ·) = true := by
  rw [List.all_eq_true] at signs ⊢
  intro c member
  exact List.all_eq_true.1 separates.signs c (List.contains_iff_mem.1 (signs c member))

section Append

variable {text behind : List Char} {stops : Char → Bool}

theorem arrow?_append (separates : Separates stops) (ends : EndsAt stops behind) :
    arrow? (text ++ behind) = arrow? text := by
  have apart (word : List Char)
      (signs : word.all (['-', '.', '>', '=', '%', '\x7b'].contains ·) = true) {text : List Char}
      (other : ∀ more, text = word ++ more → False) (more : List Char) :
      text ++ behind ≠ word ++ more := ends.append_ne word (separates.solid signs) other more
  conv => rhs; unfold arrow?
  split
  -- The arrows that must not be mistaken for longer ones.
  case h_4 other => exact arrow?.eq_4 _ (apart ['>'] rfl other)
  case h_7 other => exact arrow?.eq_7 _ (apart ['>'] rfl other)
  case h_9 other => exact arrow?.eq_9 _ (apart ['>'] rfl other)
  case h_10 n1 n2 n3 n4 n5 n6 n7 n8 n9 =>
    exact arrow?.eq_10 _ (apart ['-', '.', '.', '-', '>'] rfl n1)
      (apart ['-', '.', '-', '>'] rfl n2) (apart ['-', '-', '>', '>'] rfl n3)
      (apart ['-', '-', '>'] rfl n4) (apart ['-', '-', '-'] rfl n5)
      (apart ['-', '>', '>'] rfl n6) (apart ['-', '>'] rfl n7)
      (apart ['=', '=', '>', '>'] rfl n8) (apart ['=', '=', '>'] rfl n9)
  all_goals rfl

private theorem delimiter?_append (ends : EndsAt endsLexeme behind) (written : text ≠ []) :
    delimiter? (text ++ behind) = delimiter? text := by
  -- Behind something else a semicolon is not at the front.
  have unparted (other : ∀ more, text = ';' :: more → False) (more : List Char) :
      text ++ behind ≠ ';' :: more := by
    obtain ⟨c, tail, rfl⟩ := List.exists_cons_of_ne_nil written
    rintro ⟨⟩
    exact other tail rfl
  conv => rhs; unfold delimiter?
  split
  -- The brackets that must not be mistaken for doubled ones.
  case h_7 other => exact delimiter?.eq_7 _ (ends.append_ne ['('] rfl other)
  case h_8 other => exact delimiter?.eq_8 _ (ends.append_ne [')'] rfl other)
  case h_9 other => exact delimiter?.eq_9 _ (ends.append_ne ['['] rfl other)
  case h_10 other => exact delimiter?.eq_10 _ (ends.append_ne [']'] rfl other)
  case h_11 other => exact delimiter?.eq_11 _ (ends.append_ne ['\x7b'] rfl other)
  case h_12 other => exact delimiter?.eq_12 _ (ends.append_ne ['\x7d'] rfl other)
  case h_18 n1 n2 n3 n4 n5 n6 n7 n8 n9 n10 n11 n12 n13 n14 n15 n16 n17 =>
    exact delimiter?.eq_18 _ (ends.append_ne ['(', '('] rfl n1) (ends.append_ne [')', ')'] rfl n2)
      (ends.append_ne ['[', '['] rfl n3) (ends.append_ne [']', ']'] rfl n4)
      (ends.append_ne ['\x7b', '\x7b'] rfl n5) (ends.append_ne ['\x7d', '\x7d'] rfl n6)
      (ends.append_ne ['('] rfl n7) (ends.append_ne [')'] rfl n8) (ends.append_ne ['['] rfl n9)
      (ends.append_ne [']'] rfl n10) (ends.append_ne ['\x7b'] rfl n11)
      (ends.append_ne ['\x7d'] rfl n12) (ends.append_ne ['|'] rfl n13)
      (ends.append_ne [':'] rfl n14) (ends.append_ne [','] rfl n15)
      (unparted n16) (ends.append_ne ['='] rfl n17)
  all_goals rfl

private theorem digits_append (separates : Separates stops) (ends : EndsAt stops behind) :
    digits (text ++ behind) = digits text := by
  rw [digits, digits, ends.takeWhile_append _ fun _ => separates.digit]

private theorem fraction_append (separates : Separates stops) (ends : EndsAt stops behind) :
    fraction (text ++ behind) = fraction text := by
  conv => rhs; unfold fraction
  split
  · simp only [fraction, List.cons_append, digits_append separates ends]
  · next other => exact fraction.eq_2 _ (ends.append_ne ['.'] (separates.solid rfl) other)

theorem unsigned?_append (separates : Separates stops) (ends : EndsAt stops behind) :
    unsigned? (text ++ behind) = unsigned? text := by
  have whole : digits text ≤ text.length := takeWhile_length_le Char.isDigit text
  have part := fraction_le (text.drop (digits text))
  rw [List.length_drop] at part
  simp only [unsigned?, digits_append separates ends]
  rw [List.drop_append_of_le_length whole, fraction_append separates ends,
    List.drop_append_of_le_length (by omega),
    ends.any_head?_append _ fun _ => separates.continues]

theorem number?_append (separates : Separates stops) (ends : EndsAt stops behind) :
    number? (text ++ behind) = number? text := by
  conv => rhs; unfold number?
  split
  · rw [List.cons_append, number?, unsigned?_append separates ends]
  · next other =>
    rw [number?, unsigned?_append separates ends]
    exact fun more => ends.append_ne ['-'] (separates.solid rfl) other more

private theorem wordTail_append (separates : Separates stops) (ends : EndsAt stops behind) :
    wordTail (text ++ behind) = wordTail text := by
  fun_induction wordTail text with
  | case1 =>
    cases behind with
    | nil => rfl
    | cons c behind =>
      have stop := ends c rfl
      have other : c ≠ '-' := by
        rintro rfl
        have sign := List.all_eq_true.1 separates.signs '-' (List.mem_cons_self ..)
        rw [stop] at sign
        cases sign
      simp [wordTail, other, separates.letter stop]
  -- The three arrows that a hyphen can begin.
  | case2 => simp [wordTail]
  | case3 => simp [wordTail]
  | case4 => simp [wordTail]
  | case5 text n1 n2 n3 ih =>
    simp only [List.cons_append, wordTail, if_true]
    split
    · next same => exact absurd same (ends.append_ne ['>'] (separates.solid rfl) n1 _)
    · next same => exact absurd same (ends.append_ne ['-'] (separates.solid rfl) n2 _)
    · next same => exact absurd same (ends.append_ne ['.'] (separates.solid rfl) n3 _)
    · rw [ih]
  | case6 c text other letter ih => simp [wordTail, other, letter, ih]
  | case7 c text other foreign => simp [wordTail, other, foreign]

theorem word_append (c : Char) (separates : Separates stops) (ends : EndsAt stops behind) :
    word c (text ++ behind) = word c text := by
  rw [word, word, wordTail_append separates ends]

theorem directive?_eq_none_iff : directive? text = none ↔ ¬ ['%', '%', '\x7b'] <+: text := by
  unfold directive?
  split
  · next more =>
    exact ⟨nofun, fun other => absurd (List.prefix_append ['%', '%', '\x7b'] more) other⟩
  · next other =>
    refine ⟨fun _ front => ?_, fun _ => rfl⟩
    obtain ⟨more, rfl⟩ := front
    exact other more rfl

theorem comment?_eq_none_iff : comment? text = none ↔ ¬ ['%', '%'] <+: text := by
  unfold comment?
  split
  · next more => exact ⟨nofun, fun other => absurd (List.prefix_append ['%', '%'] more) other⟩
  · next other =>
    refine ⟨fun _ front => ?_, fun _ => rfl⟩
    obtain ⟨more, rfl⟩ := front
    exact other more rfl

theorem directive?_append_eq_none (separates : Separates stops) (ends : EndsAt stops behind)
    (absent : directive? text = none) : directive? (text ++ behind) = none := by
  rw [directive?_eq_none_iff] at absent ⊢
  exact fun front => absent (ends.prefix_of_prefix_append (separates.solid rfl) front)

theorem comment?_append_eq_none (separates : Separates stops) (ends : EndsAt stops behind)
    (absent : comment? text = none) : comment? (text ++ behind) = none := by
  rw [comment?_eq_none_iff] at absent ⊢
  exact fun front => absent (ends.prefix_of_prefix_append (separates.solid rfl) front)

theorem string?_cons_eq_none {c : Char} : string? (c :: text) = none ↔ ¬ (c = '"' ∨ c = '\'') := by
  rw [string?]
  split <;> simp_all

/-- A lexeme that is no directive, comment or string looks no further than the next blank or
semicolon. -/
theorem next_append {c : Char} (ends : EndsAt endsLexeme behind)
    (undirected : directive? (c :: text) = none) (uncommented : comment? (c :: text) = none)
    (unquoted : string? (c :: text) = none) : next c (text ++ behind) = next c text := by
  have unquotedToo : string? (c :: (text ++ behind)) = none :=
    string?_cons_eq_none.2 (string?_cons_eq_none.1 unquoted)
  have separates := separates_endsLexeme
  simp only [next, ← List.cons_append, directive?_append_eq_none separates ends undirected,
    undirected, comment?_append_eq_none separates ends uncommented, uncommented,
    arrow?_append separates ends, number?_append separates ends,
    delimiter?_append ends (List.cons_ne_nil c text), unquoted, word_append c separates ends]
  rw [List.cons_append, unquotedToo]

end Append

/-- A kind of lexeme that does not run over blanks. -/
def IsPlain (kind : TokenKind) : Prop :=
  kind ≠ .directive ∧ kind ≠ .comment ∧ kind ≠ .string

theorem rules_of_isPlain {c : Char} {text : List Char} (plain : IsPlain (next c text).kind) :
    directive? (c :: text) = none ∧ comment? (c :: text) = none ∧ string? (c :: text) = none := by
  obtain ⟨undirected, uncommented, unquoted⟩ := plain
  cases directive : directive? (c :: text) with
  | some length => simp [next, directive] at undirected
  | none =>
    cases comment : comment? (c :: text) with
    | some length => simp [next, directive, comment] at uncommented
    | none =>
      cases string : string? (c :: text) with
      | some length => simp [next, directive, comment, string] at unquoted
      | none => exact ⟨rfl, rfl, rfl⟩

/-- A plain lexeme of the part before the first blank is that of the whole text. -/
theorem next_of_solidFront {c : Char} {text : List Char}
    (plain : IsPlain (next c (Text.solidFront text)).kind) :
    next c text = next c (Text.solidFront text) := by
  obtain ⟨undirected, uncommented, unquoted⟩ := rules_of_isPlain plain
  conv => lhs; rw [← Text.solidFront_append_dropWhile text]
  exact next_append (endsAt_of_endsWord (Text.endsWord_dropWhile text)) undirected uncommented
    unquoted

/-- What stands behind the first blank has no say in a plain lexeme. -/
theorem next_solidFront {c : Char} {text : List Char} (plain : IsPlain (next c text).kind) :
    next c (Text.solidFront text) = next c text := by
  obtain ⟨undirected, uncommented, unquoted⟩ := rules_of_isPlain plain
  have shorter : c :: Text.solidFront text <+: c :: text :=
    List.cons_prefix_cons.2 ⟨rfl, List.takeWhile_prefix _⟩
  conv => rhs; rw [← Text.solidFront_append_dropWhile text]
  refine (next_append (endsAt_of_endsWord (Text.endsWord_dropWhile text)) ?_ ?_ ?_).symm
  · exact directive?_eq_none_iff.2 fun front =>
      directive?_eq_none_iff.1 undirected (front.trans shorter)
  · exact comment?_eq_none_iff.2 fun front =>
      comment?_eq_none_iff.1 uncommented (front.trans shorter)
  · exact string?_cons_eq_none.2 (string?_cons_eq_none.1 unquoted)

theorem Leads.exists_cons {kind : TokenKind} {written behind : List Char}
    (leads : Leads kind written behind) : ∃ c tail, written = c :: tail ∧
      Text.isBlank c = false ∧ next c (tail ++ behind) = ⟨kind, written.length⟩ := by
  obtain ⟨d, tail, rfl⟩ := List.exists_cons_of_ne_nil leads.ne_nil
  obtain ⟨c, text, split, solid, next⟩ := leads
  rw [List.cons_append, List.cons.injEq] at split
  obtain ⟨rfl, rfl⟩ := split
  exact ⟨d, tail, rfl, solid, next⟩

/-- A plain lexeme holds no blank. -/
theorem Leads.all_solid {kind : TokenKind} {written behind : List Char}
    (leads : Leads kind written behind) (plain : IsPlain kind) :
    written.all (!isBlank ·) = true := by
  obtain ⟨c, tail, rfl, solid, own⟩ := leads.exists_cons
  have short := @next_solidFront c (tail ++ behind) (by rw [own]; exact plain)
  -- The lexeme is found in front of the first blank, so it ends there.
  have fits := (next_fits c (Text.solidFront (tail ++ behind))).2
  rw [short, own, List.length_cons, List.length_cons] at fits
  have front : tail <+: Text.solidFront (tail ++ behind) :=
    List.prefix_of_prefix_length_le (List.prefix_append tail behind) (List.takeWhile_prefix _)
      (Nat.le_of_succ_le_succ fits)
  rw [List.all_cons, solid, Bool.not_false, Bool.true_and, List.all_eq_true]
  intro d member
  exact List.all_eq_true.1 List.all_takeWhile d (front.subset member)

private theorem solidFront_append {written : List Char} (solid : written.all (!isBlank ·) = true)
    (behind : List Char) :
    Text.solidFront (written ++ behind) = written ++ Text.solidFront behind := by
  rw [Text.solidFront, List.takeWhile_append_of_pos (List.all_eq_true.1 solid), Text.solidFront]

/-- A plain lexeme stays the same when what follows it changes behind the first blank. -/
theorem Leads.congr {kind : TokenKind} {written behind other : List Char}
    (leads : Leads kind written behind) (plain : IsPlain kind)
    (same : Text.solidFront behind = Text.solidFront other) : Leads kind written other := by
  have solid := leads.all_solid plain
  obtain ⟨c, tail, rfl, start, own⟩ := leads.exists_cons
  rw [List.all_cons, Bool.and_eq_true] at solid
  have short := @next_solidFront c (tail ++ behind) (by rw [own]; exact plain)
  rw [solidFront_append solid.2, same, ← solidFront_append solid.2, own] at short
  refine ⟨c, tail ++ other, rfl, start, ?_⟩
  rw [next_of_solidFront (by rw [short]; exact plain), short]

/-- A plain lexeme stays the same when a semicolon follows the text. -/
theorem Leads.append_semicolon {kind : TokenKind} {written behind : List Char}
    (leads : Leads kind written behind) (plain : IsPlain kind) (more : List Char) :
    Leads kind written (behind ++ ';' :: more) := by
  obtain ⟨c, tail, rfl, solid, own⟩ := leads.exists_cons
  obtain ⟨undirected, uncommented, unquoted⟩ :=
    @rules_of_isPlain c (tail ++ behind) (by rw [own]; exact plain)
  refine ⟨c, tail ++ (behind ++ ';' :: more), rfl, solid, ?_⟩
  rw [← List.append_assoc, next_append (endsAt_semicolon more) undirected uncommented unquoted, own]

/-! ## Directives, comments and strings by what they hold -/

private theorem delimiter?_isPlain {text : List Char} {kind : TokenKind} {length : Nat}
    (found : delimiter? text = some (kind, length)) : IsPlain kind := by
  unfold delimiter? at found
  split at found <;> cases found <;> simp [IsPlain]

theorem Leads.directive {written behind : List Char} (leads : Leads .directive written behind) :
    ∃ body, written = ['%', '%', '\x7b'] ++ body ∧
      directiveBody 1 (body ++ behind) = body.length := by
  obtain ⟨c, tail, rfl, -, own⟩ := leads.exists_cons
  have rule := next_rule c (tail ++ behind)
  rw [own] at rule
  cases rule with
  | delimiter found => exact absurd rfl (delimiter?_isPlain found).1
  | directive found =>
    unfold directive? at found
    split at found
    · next more shape =>
      -- The mark is part of the directive, so the rest of the directive is behind it.
      match tail with
      | [] => simp at found
      | [_] => simp at found
      | d :: e :: body =>
        simp only [List.cons_append, List.cons.injEq] at shape
        obtain ⟨rfl, rfl, rfl, rfl⟩ := shape
        exact ⟨body, rfl, by simpa using found⟩
    · cases found

theorem Leads.comment {written behind : List Char} (leads : Leads .comment written behind) :
    ∃ body, written = ['%', '%'] ++ body ∧ ¬ ['\x7b'] <+: body ++ behind ∧ '\n' ∉ body ∧
      (behind = [] ∨ ∃ more, behind = '\n' :: more) := by
  obtain ⟨c, tail, rfl, -, own⟩ := leads.exists_cons
  have rule := next_rule c (tail ++ behind)
  rw [own] at rule
  cases rule with
  | delimiter found => exact absurd rfl (delimiter?_isPlain found).2.1
  | comment undirected found =>
    rw [directive?_eq_none_iff] at undirected
    unfold comment? at found
    split at found
    · next more shape =>
      match tail with
      | [] => simp at found
      | d :: body =>
        simp only [List.cons_append, List.cons.injEq] at shape
        obtain ⟨rfl, rfl, rfl⟩ := shape
        simp only [List.cons_append, List.cons_prefix_cons, true_and] at undirected
        have length : ((body ++ behind).takeWhile (· != '\n')).length = body.length := by
          simpa using found
        have whole : (body ++ behind).takeWhile (· != '\n') = body :=
          (List.prefix_of_prefix_length_le (List.takeWhile_prefix _)
            (List.prefix_append body behind) length.le).eq_of_length length
        have own : ∀ d ∈ body, (d != '\n') = true := by
          intro d member
          rw [← whole] at member
          exact List.all_eq_true.1 List.all_takeWhile d member
        refine ⟨body, rfl, undirected, fun member => by simpa using own _ member, ?_⟩
        -- What stands behind the comment cannot belong to it.
        rw [List.takeWhile_append_of_pos own, List.append_right_eq_self] at whole
        cases behind with
        | nil => exact .inl rfl
        | cons d more =>
          refine .inr ⟨more, ?_⟩
          rw [List.takeWhile_cons] at whole
          split at whole
          · cases whole
          · next newline =>
            rw [Bool.not_eq_true, bne_eq_false_iff_eq] at newline
            rw [newline]
    · cases found

theorem Leads.string {written behind : List Char} (leads : Leads .string written behind) :
    ∃ quote body, written = quote :: body ∧ (quote = '"' ∨ quote = '\'') ∧
      quotedBody quote (body ++ behind) = body.length := by
  obtain ⟨c, tail, rfl, -, own⟩ := leads.exists_cons
  have rule := next_rule c (tail ++ behind)
  rw [own] at rule
  cases rule with
  | delimiter found => exact absurd rfl (delimiter?_isPlain found).2.2
  | string found =>
    rw [string?] at found
    split at found
    · next quote => exact ⟨c, tail, rfl, quote, by simpa using found⟩
    · cases found

theorem Leads.of_directive {body behind : List Char}
    (own : directiveBody 1 (body ++ behind) = body.length) :
    Leads .directive (['%', '%', '\x7b'] ++ body) behind :=
  ⟨'%', _, rfl, rfl, by simp [next, directive?, own]⟩

theorem Leads.of_string {quote : Char} {body behind : List Char}
    (quotes : quote = '"' ∨ quote = '\'')
    (own : quotedBody quote (body ++ behind) = body.length) :
    Leads .string (quote :: body) behind := by
  have solid : isBlank quote = false := by rcases quotes with rfl | rfl <;> rfl
  have other : ¬ ['%'] <+: quote :: (body ++ behind) := by
    rcases quotes with rfl | rfl <;> simp [List.cons_prefix_cons]
  have undirected : directive? (quote :: (body ++ behind)) = none :=
    directive?_eq_none_iff.2 fun front => other (.trans ⟨_, rfl⟩ front)
  have uncommented : comment? (quote :: (body ++ behind)) = none :=
    comment?_eq_none_iff.2 fun front => other (.trans ⟨_, rfl⟩ front)
  exact ⟨quote, _, rfl, solid, by simp [next, undirected, uncommented, string?, quotes, own]⟩

theorem Leads.of_comment {body behind : List Char} (undirected : ¬ ['\x7b'] <+: body ++ behind)
    (own : '\n' ∉ body) (ends : behind.takeWhile (· != '\n') = []) :
    Leads .comment (['%', '%'] ++ body) behind := by
  have directive : directive? ('%' :: '%' :: (body ++ behind)) = none := by
    rw [directive?_eq_none_iff, List.cons_prefix_cons, List.cons_prefix_cons]
    exact fun front => undirected front.2.2
  have plain : ∀ c ∈ body, (c != '\n') = true := by
    intro c member
    rw [bne_iff_ne]
    exact fun newline => own (newline ▸ member)
  have length : ((body ++ behind).takeWhile (· != '\n')).length = body.length := by
    rw [List.takeWhile_append_of_pos plain, ends, List.append_nil]
  exact ⟨'%', _, rfl, rfl, by simp [next, directive, comment?, length]⟩

theorem Leads.semicolon {written behind : List Char} (leads : Leads .semicolon written behind) :
    ';' ∈ written := by
  obtain ⟨c, tail, rfl, -, own⟩ := leads.exists_cons
  have rule := next_rule c (tail ++ behind)
  rw [own] at rule
  cases rule with
  | delimiter found =>
    unfold delimiter? at found
    split at found
    all_goals first
      | cases found
      | next front =>
        rw [(List.cons.inj front).1]
        exact List.mem_cons_self ..

/-! ## Lexemes that are closed -/

/-- A quoted text behind which more stands is closed, and its end does not depend on that. -/
theorem quotedBody_closed {quote : Char} {body behind : List Char} (more : behind ≠ [])
    (own : quotedBody quote (body ++ behind) = body.length) :
    [quote] <:+ body ∧ ∀ other, quotedBody quote (body ++ other) = body.length := by
  induction body with
  | nil =>
    cases behind with
    | nil => exact absurd rfl more
    | cons c behind =>
      rw [List.nil_append, quotedBody] at own
      split_ifs at own
  | cons c body ih =>
    rw [List.cons_append, quotedBody] at own
    by_cases closes : c = quote
    · rw [if_pos closes] at own
      obtain rfl := List.length_eq_zero_iff.1 (Nat.succ.inj own).symm
      subst closes
      refine ⟨List.suffix_refl _, fun other => ?_⟩
      rw [List.cons_append, quotedBody, if_pos rfl]
      rfl
    · rw [if_neg closes] at own
      obtain ⟨closed, same⟩ := ih (Nat.succ.inj own)
      refine ⟨closed.trans (List.suffix_cons ..), fun other => ?_⟩
      rw [List.cons_append, quotedBody, if_neg closes, same, List.length_cons]

/-- A directive behind which more stands is closed, and its end does not depend on that. -/
theorem directiveBody_closed {depth : Nat} {body behind : List Char} (more : behind ≠ [])
    (own : directiveBody depth (body ++ behind) = body.length) :
    ['\x7d', '%', '%'] <:+ body ∧
      ∀ other, directiveBody depth (body ++ other) = body.length := by
  induction body generalizing depth with
  | nil =>
    cases behind with
    | nil => exact absurd rfl more
    | cons c behind =>
      rw [List.nil_append, directiveBody] at own
      split_ifs at own
  | cons c body ih =>
    have step {next : Nat} (own : directiveBody next (body ++ behind) + 1 = (c :: body).length) :=
      ih (Nat.succ.inj own)
    rw [List.cons_append, directiveBody] at own
    split_ifs at own with opens closes marked
    · obtain ⟨closed, same⟩ := step own
      refine ⟨closed.trans (List.suffix_cons ..), fun other => ?_⟩
      rw [List.cons_append, directiveBody, if_pos opens, same, List.length_cons]
    · -- The mark that closes the directive is all that is left of the body.
      obtain ⟨first, second, rfl⟩ := List.length_eq_two.1 (Nat.succ.inj own).symm
      have mark := List.isPrefixOf_iff_prefix.1 marked.2
      simp only [List.cons_append, List.cons_prefix_cons] at mark
      obtain ⟨rfl, rfl, -⟩ := mark
      subst closes
      refine ⟨List.suffix_refl _, fun other => ?_⟩
      rw [List.cons_append, directiveBody, if_neg opens, if_pos rfl, if_pos ⟨marked.1, rfl⟩]
      rfl
    · -- The mark comes later, so it is told without what stands behind that it is not here.
      obtain ⟨closed, same⟩ := step own
      have long : 3 ≤ body.length := closed.length_le
      have absent (other : List Char) : ¬ (depth ≤ 1 ∧ ['%', '%'].isPrefixOf (body ++ other)) := by
        rintro ⟨last, mark⟩
        refine marked ⟨last, ?_⟩
        rw [List.isPrefixOf_iff_prefix] at mark ⊢
        exact (List.prefix_of_prefix_length_le mark (List.prefix_append ..)
          (Nat.le_of_succ_le long)).trans (List.prefix_append ..)
      refine ⟨closed.trans (List.suffix_cons ..), fun other => ?_⟩
      rw [List.cons_append, directiveBody, if_neg opens, if_pos closes, if_neg (absent other), same,
        List.length_cons]
    · obtain ⟨closed, same⟩ := step own
      refine ⟨closed.trans (List.suffix_cons ..), fun other => ?_⟩
      rw [List.cons_append, directiveBody, if_neg opens, if_neg closes, same, List.length_cons]

/-- A directive or a string behind which more stands is the same whatever follows it. -/
theorem Leads.closed {kind : TokenKind} {written behind : List Char}
    (leads : Leads kind written behind) (long : kind = .directive ∨ kind = .string)
    (more : behind ≠ []) (other : List Char) : Leads kind written other := by
  rcases long with rfl | rfl
  · obtain ⟨body, rfl, own⟩ := leads.directive
    exact .of_directive ((directiveBody_closed more own).2 other)
  · obtain ⟨quote, body, rfl, quotes, own⟩ := leads.string
    exact .of_string quotes ((quotedBody_closed more own).2 other)

theorem isPlain_or (kind : TokenKind) :
    IsPlain kind ∨ kind = .comment ∨ kind = .directive ∨ kind = .string := by
  unfold IsPlain
  tauto

/-- A lexeme behind which more stands has a character on its last line that is no blank. -/
theorem Leads.exists_solid {kind : TokenKind} {written behind : List Char}
    (leads : Leads kind written behind) (more : behind ≠ []) :
    ∃ front c back, written = front ++ c :: back ∧ isBlank c = false ∧ '\n' ∉ back := by
  by_cases plain : IsPlain kind
  · -- No character of the lexeme is a blank.
    have solid := leads.all_solid plain
    obtain ⟨c, back, rfl, start, -⟩ := leads.exists_cons
    rw [List.all_cons, Bool.and_eq_true, List.all_eq_true] at solid
    exact ⟨[], c, back, rfl, start, fun newline => by cases solid.2 _ newline⟩
  · rcases (isPlain_or kind).resolve_left plain with rfl | rfl | rfl
    · obtain ⟨body, rfl, -, own, -⟩ := leads.comment
      exact ⟨[], '%', '%' :: body, rfl, rfl, by simpa using own⟩
    · obtain ⟨body, rfl, own⟩ := leads.directive
      obtain ⟨front, rfl⟩ := (directiveBody_closed more own).1
      exact ⟨['%', '%', '\x7b'] ++ front, '\x7d', ['%', '%'], by simp, rfl, by decide⟩
    · obtain ⟨quote, body, rfl, quotes, own⟩ := leads.string
      obtain ⟨front, rfl⟩ := (quotedBody_closed more own).1
      refine ⟨quote :: front, quote, [], rfl, ?_, List.not_mem_nil⟩
      rcases quotes with rfl | rfl <;> rfl

/-- A quoted text that its quote closes does not change when more text follows. -/
theorem quotedBody_append {quote : Char} {text : List Char} (behind : List Char)
    (closed : (text.take (quotedBody quote text)).getLast? = some quote) :
    quotedBody quote (text ++ behind) = quotedBody quote text := by
  induction text with
  | nil => cases closed
  | cons c text ih =>
    rw [List.cons_append, quotedBody]
    rw [quotedBody] at closed ⊢
    split
    · rfl
    · next other =>
      -- The last character is not this one, so it is the last of those behind it.
      rw [if_neg other, List.take_succ_cons, List.getLast?_cons] at closed
      rw [ih]
      cases last : (text.take (quotedBody quote text)).getLast? with
      | none =>
        rw [last] at closed
        exact absurd (Option.some.inj closed) other
      | some d =>
        rw [last] at closed
        exact closed

/-- A lexeme that is no directive and no string left open stays the same when a newline follows
the text. -/
theorem next_append_newline {c : Char} {text : List Char} (more : List Char)
    (undirected : (next c text).kind ≠ .directive)
    (closed : (next c text).kind = .string →
      Token.lacksClosingQuote (c :: text.take ((next c text).length - 1)) = false) :
    next c (text ++ '\n' :: more) = next c text := by
  have ends : EndsAt endsLexeme ('\n' :: more) := endsAt_of_endsWord (.cons rfl more)
  cases directive : directive? (c :: text) with
  | some length => simp [next, directive] at undirected
  | none =>
    have noDirective := directive?_append_eq_none separates_endsLexeme ends directive
    rw [List.cons_append] at noDirective
    cases comment : comment? (c :: text) with
    | some length =>
      -- A comment ends before the newline.
      have same : comment? (c :: (text ++ '\n' :: more)) = some length := by
        unfold comment? at comment
        split at comment
        · next body shape =>
          cases shape
          rw [← comment, List.cons_append, comment?, List.takeWhile_append]
          split <;> simp_all
        · cases comment
      simp [next, directive, noDirective, comment, same]
    | none =>
      have noComment := comment?_append_eq_none separates_endsLexeme ends comment
      rw [List.cons_append] at noComment
      cases string : string? (c :: text) with
      | none => exact next_append ends directive comment string
      | some length =>
        have own : next c text = ⟨.string, length⟩ := by simp [next, directive, comment, string]
        rw [own] at closed
        rw [string?] at string
        split at string
        · next quote =>
          cases string
          have body : quotedBody c (text ++ '\n' :: more) = quotedBody c text := by
            refine quotedBody_append _ ?_
            simpa [Token.lacksClosingQuote] using closed
          rw [own, next, noDirective, noComment, string?, if_pos quote, body]
        · cases string

/-- A lexeme that is no directive and no string left open stays the same when a newline follows
the text. -/
theorem Leads.append_newline {kind : TokenKind} {written behind : List Char}
    (leads : Leads kind written behind) (more : List Char) (undirected : kind ≠ .directive)
    (closed : kind = .string → Token.lacksClosingQuote written = false) :
    Leads kind written (behind ++ '\n' :: more) := by
  obtain ⟨d, tail, rfl⟩ := List.exists_cons_of_ne_nil leads.ne_nil
  obtain ⟨c, text, split, solid, next⟩ := leads
  rw [List.cons_append, List.cons.injEq] at split
  obtain ⟨rfl, rfl⟩ := split
  refine ⟨d, tail ++ behind ++ '\n' :: more, by simp, solid, ?_⟩
  rw [next_append_newline, next]
  · rw [next]
    exact undirected
  · intro string
    rw [next] at string ⊢
    rw [List.length_cons, Nat.add_sub_cancel, List.take_left]
    exact closed string

end Lexeme

/-! ## Tokens by what they hold -/

namespace Token

open Lexeme (Leads IsPlain)

variable {token : Token} {behind : List Char}

/-- A token that is no word is a lexeme of its own kind. -/
theorem CutBefore.leads {kind : TokenKind} (cut : token.CutBefore behind) (own : token.kind = kind)
    (other : kind ≠ .identifier ∧ kind ≠ .participant ∧ ∀ family, kind ≠ .header family) :
    Leads kind token.text.toList behind := by
  obtain ⟨lexeme, leads, same⟩ := cut
  rw [own] at same
  split at same
  · obtain ⟨identifier, participant, header⟩ := other
    rcases TokenKind.ofWord_cases token.text with word | word | ⟨family, word⟩
    · exact absurd (same.trans word) identifier
    · exact absurd (same.trans word) participant
    · exact absurd (same.trans word) (header family)
  · rwa [same]

/-- A token that is no directive, comment or string holds no blank. -/
theorem CutBefore.all_solid (cut : token.CutBefore behind) (plain : IsPlain token.kind) :
    token.text.toList.all (!Text.isBlank ·) = true := by
  obtain ⟨lexeme, leads, same⟩ := cut
  refine leads.all_solid ?_
  split at same
  · next word =>
    rw [word]
    exact ⟨nofun, nofun, nofun⟩
  · rwa [same] at plain

theorem isPlain_of_isName (name : token.isName = true) : IsPlain token.kind := by
  unfold isName at name
  refine ⟨fun kind => ?_, fun kind => ?_, fun kind => ?_⟩ <;> simp [kind] at name

theorem IsCut.newline_not_mem (cut : token.IsCut) (plain : IsPlain token.kind) :
    '\n' ∉ token.text.toList := by
  obtain ⟨behind, cut⟩ := cut
  intro member
  have solid := List.all_eq_true.1 (cut.all_solid plain) '\n' member
  rw [Text.isBlank_newline] at solid
  cases solid

end Token

end DiagramCheck
