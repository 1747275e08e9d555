/-
# Words that names touch

A name can be spelled by several tokens that touch, and the first of them may be
a word that is reserved on its own. How that happens is narrow. A word takes
every ASCII character that can belong to a name, so when a token that begins with
a letter is touched by another name, that name begins beyond ASCII.

The words reserved here are `end`, in any case, and `subgraph`.
-/

import DiagramCheck.Flowchart.Reading
import DiagramCheck.Proofs.Token.Tiling

namespace DiagramCheck

namespace TokenKind

/-- A single character is no keyword. -/
theorem ofWord_singleton (c : Char) : ofWord (String.ofList [c]) = .identifier := by
  have short (word : String) (long : 1 < word.length) :
      String.ofList [c.toLower] ≠ word := by
    intro same
    rw [← same, String.length_ofList] at long
    simp at long
  unfold ofWord keyword?
  rw [String.toList_ofList, List.map_singleton]
  split
  all_goals first
    | rfl
    | rename_i same
      exact absurd same (short _ (by decide))

end TokenKind

namespace Token

/-! ## The lexeme of a name -/

/-- A name is a number or a word, and a word is the keyword it spells or a plain identifier. -/
theorem lexeme_of_isName {token : Token} {behind : List Char} (cut : token.CutBefore behind)
    (name : token.isName = true) :
    ∃ c text, token.text.toList ++ behind = c :: text ∧
      (Lexeme.number? (c :: text) = some token.text.toList.length ∨
        token.text.toList.length = Lexeme.word c text ∧ token.kind = .ofWord token.text) := by
  obtain ⟨kind, ⟨c, text, split, -, next⟩, same⟩ := cut
  generalize token.text.toList.length = length at next ⊢
  have rule := Lexeme.next_rule c text
  rw [next] at rule
  refine ⟨c, text, split, ?_⟩
  cases rule with
  | number found => exact .inl found
  | word => exact .inr ⟨rfl, same⟩
  | delimiter found =>
    unfold Lexeme.delimiter? at found
    split at found <;> cases found <;> simp [isName, same] at name
  | _ => simp [isName, same] at name

/-- A token that is no word was cut off as a lexeme of its own kind. -/
theorem IsCut.exists_rule {token : Token} (cut : token.IsCut)
    (other : ∀ word, token.kind ≠ .ofWord word) :
    ∃ c tail behind, token.text.toList = c :: tail ∧
      Lexeme.Rule c (tail ++ behind) ⟨token.kind, (c :: tail).length⟩ := by
  obtain ⟨behind, cut⟩ := cut
  obtain ⟨c, tail, text⟩ := cut.exists_cons
  obtain ⟨own, ⟨d, more, split, -, lexeme⟩, same⟩ := cut
  rw [text, List.cons_append, List.cons.injEq] at split
  obtain ⟨rfl, rfl⟩ := split
  have kind : token.kind = own := by
    split at same
    · exact absurd same (other _)
    · exact same
  refine ⟨c, tail, behind, text, ?_⟩
  rw [kind, ← text, ← lexeme]
  exact Lexeme.next_rule ..

/-- A number is what the rule for numbers takes. -/
theorem IsCut.exists_number? {token : Token} (cut : token.IsCut) (kind : token.kind = .number) :
    ∃ c tail behind, token.text.toList = c :: tail ∧
      Lexeme.number? (c :: tail ++ behind) = some (c :: tail).length := by
  obtain ⟨c, tail, behind, text, rule⟩ := cut.exists_rule fun word same => by
    rcases TokenKind.ofWord_cases word with own | own | ⟨family, own⟩ <;>
      rw [kind, own] at same <;> cases same
  refine ⟨c, tail, behind, text, ?_⟩
  rw [kind] at rule
  cases rule with
  | number found => exact found
  | delimiter found =>
    unfold Lexeme.delimiter? at found
    split at found <;> cases found

/-- A number is written with a digit or a minus sign at the front. -/
theorem IsCut.exists_of_number {token : Token} (cut : token.IsCut) (kind : token.kind = .number) :
    ∃ c text, token.text.toList = c :: text ∧ (c.isDigit = true ∨ c = '-') := by
  obtain ⟨c, tail, behind, text, found⟩ := cut.exists_number? kind
  exact ⟨c, tail, text, (Lexeme.number?_head found).imp_right And.left⟩

theorem ne_of_isAlpha {c d : Char} (letter : c.isAlpha = true) (other : d.isAlpha = false) :
    c ≠ d := by
  intro same
  rw [same, other] at letter
  cases letter

theorem isWordChar_of_isAlpha {c : Char} (letter : c.isAlpha = true) :
    Lexeme.isWordChar c = true := by
  rw [Lexeme.isWordChar, Char.isAlphanum, letter]
  rfl

theorem isDigit_eq_false_of_isAlpha {c : Char} (letter : c.isAlpha = true) :
    c.isDigit = false := by
  refine Bool.eq_false_iff.2 fun digit => ?_
  have high := Text.toNat_of_isAlpha letter
  have low := Text.toNat_of_isDigit digit
  omega

section Letter

variable {token : Token} {c : Char} {tail behind : List Char}

/-- A name that begins with a letter is a word, and the word runs as far as it can. -/
theorem word_of_letter (cut : token.CutBefore behind) (name : token.isName = true)
    (text : token.text.toList = c :: tail) (letter : c.isAlpha = true) :
    token.kind = .ofWord token.text ∧ tail.length = Lexeme.wordTail (tail ++ behind) := by
  obtain ⟨d, rest, split, number | ⟨length, kind⟩⟩ := lexeme_of_isName cut name
  · -- No number begins with a letter.
    rw [text, List.cons_append, List.cons.injEq] at split
    obtain ⟨rfl, -⟩ := split
    rcases Lexeme.number?_head number with digit | ⟨minus, -⟩
    · rw [isDigit_eq_false_of_isAlpha letter] at digit
      cases digit
    · exact absurd minus (ne_of_isAlpha letter rfl)
  · rw [text, List.cons_append, List.cons.injEq] at split
    obtain ⟨rfl, rfl⟩ := split
    rw [text, Lexeme.word, if_pos (isWordChar_of_isAlpha letter), List.length_cons] at length
    exact ⟨kind, Nat.succ.inj length⟩

/-- A name that begins with a letter holds letters, digits, underscores and hyphens only. -/
theorem chars_of_letter (cut : token.CutBefore behind) (name : token.isName = true)
    (text : token.text.toList = c :: tail) (letter : c.isAlpha = true) :
    ∀ d ∈ token.text.toList, Lexeme.isWordChar d = true ∨ d = '-' := by
  have length := (word_of_letter cut name text letter).2
  have chars := Lexeme.wordTail_chars (tail ++ behind)
  rw [← length, List.take_left] at chars
  rw [text]
  exact List.forall_mem_cons.2 ⟨.inl (isWordChar_of_isAlpha letter), chars⟩

/-- No character that belongs to a word follows a name that begins with a letter. -/
theorem ends_of_letter {d : Char} {more : List Char} (cut : token.CutBefore (d :: more))
    (name : token.isName = true) (text : token.text.toList = c :: tail)
    (letter : c.isAlpha = true) :
    Lexeme.isWordChar d = false ∧
      (d = '-' → ∃ e rest, more = e :: rest ∧ e.isDigit = false) := by
  have length := (word_of_letter cut name text letter).2
  refine Lexeme.wordTail_ends (tail ++ d :: more) ?_
  rw [← length, List.drop_left]

/-- What a name can begin with. -/
theorem head_of_isName (cut : token.CutBefore behind) (name : token.isName = true)
    (text : token.text.toList = c :: tail) :
    Lexeme.isWordChar c = true ∨ 0x80 ≤ c.toNat ∨
      c = '-' ∧ ∃ e more, tail = e :: more ∧ e.isDigit = true := by
  obtain ⟨d, rest, split, number | ⟨length, kind⟩⟩ := lexeme_of_isName cut name
  · rw [text, List.cons_append, List.cons.injEq] at split
    obtain ⟨rfl, rfl⟩ := split
    rcases Lexeme.number?_head number with digit | ⟨minus, e, more, same, digit, long⟩
    · exact .inl (by simp [Lexeme.isWordChar, Char.isAlphanum, digit])
    · cases tail with
      | nil =>
        rw [text] at long
        simp at long
      | cons first tail =>
        cases same
        exact .inr (.inr ⟨minus, e, tail, rfl, digit⟩)
  · rw [text, List.cons_append, List.cons.injEq] at split
    obtain ⟨rfl, rfl⟩ := split
    cases letter : Lexeme.isWordChar c with
    | true => exact .inl rfl
    | false =>
      -- Any other character is a word by itself, so it is no keyword and must begin a name.
      rw [text, Lexeme.word, letter, if_neg Bool.false_ne_true, List.length_cons] at length
      have alone : tail = [] := List.eq_nil_of_length_eq_zero (Nat.succ.inj length)
      have word : token.text = String.ofList [c] := by
        rw [← String.ofList_toList (s := token.text), text, alone]
      rw [word, TokenKind.ofWord_singleton] at kind
      simp only [isName, kind, text, List.head?_cons, Option.any_some, startsName] at name
      rw [Lexeme.isWordChar] at letter
      rw [letter, Bool.false_or, decide_eq_true_eq] at name
      exact .inr (.inl name)

end Letter

/-- A name that touches a name which begins with a letter begins beyond ASCII. -/
theorem beyond_ascii_of_touching {first second : Token} {c d : Char}
    {tail more behind later : List Char} (cut : first.CutBefore (second.text.toList ++ behind))
    (name : first.isName = true) (text : first.text.toList = c :: tail)
    (letter : c.isAlpha = true) (nextCut : second.CutBefore later)
    (nextName : second.isName = true) (nextText : second.text.toList = d :: more) :
    0x80 ≤ d.toNat := by
  rw [nextText, List.cons_append] at cut
  obtain ⟨foreign, hyphen⟩ := ends_of_letter cut name text letter
  -- A letter or a digit would have belonged to the first name, and so would a hyphen before a
  -- digit.
  rcases head_of_isName nextCut nextName nextText with own | beyond | ⟨minus, e, rest, same, digit⟩
  · rw [own] at foreign
    cases foreign
  · exact beyond
  · obtain ⟨e', rest', same', other⟩ := hyphen minus
    rw [same, List.cons_append, List.cons.injEq] at same'
    obtain ⟨rfl, -⟩ := same'
    rw [digit] at other
    cases other

/-! ## Reserved words -/

/-- The words that open and close subgraphs. -/
def IsReserved (word : List Char) : Prop :=
  word.map Char.toLower = "end".toList ∨ word = "subgraph".toList

/-- Only letters have a lower case that is a letter. -/
theorem isAlpha_of_toLower {c : Char} (letter : c.toLower.isAlpha = true) :
    c.isAlpha = true := by
  cases upper : c.isUpper with
  | true => exact Bool.or_eq_true_iff.2 (.inl upper)
  | false =>
    have same : c.toLower = c := dif_neg (of_decide_eq_false upper)
    rwa [same] at letter

theorem IsReserved.isAlpha {word : List Char} (reserved : IsReserved word) :
    ∀ c ∈ word, c.isAlpha = true := by
  intro c member
  rcases reserved with lower | same
  · refine isAlpha_of_toLower ?_
    have listed : c.toLower ∈ "end".toList := by
      rw [← lower]
      exact List.mem_map_of_mem member
    have letters : "end".toList.all Char.isAlpha = true := by decide
    exact List.all_eq_true.1 letters _ listed
  · have letters : "subgraph".toList.all Char.isAlpha = true := by decide
    rw [same] at member
    exact List.all_eq_true.1 letters c member

theorem IsReserved.ofWord {word : List Char} (reserved : IsReserved word) :
    TokenKind.ofWord (String.ofList word) = .identifier := by
  unfold TokenKind.ofWord TokenKind.keyword?
  rw [String.toList_ofList]
  rcases reserved with lower | same
  · rw [lower]
    decide
  · rw [same]
    decide

/-- A word is reserved when it opens or closes a subgraph. -/
theorem isReserved_iff {token : Token} (kind : token.kind = .identifier) :
    IsReserved token.text.toList ↔
      token.closesSubgraph = true ∨ token.opensSubgraph = true := by
  rw [closesSubgraph, opensSubgraph, isWordIgnoringCase, isWord, kind, IsReserved]
  simp only [beq_self_eq_true, Bool.true_and, beq_iff_eq, String.ext_iff, String.toList_ofList]

end Token

end DiagramCheck
