/-
# Names that begin with a reserved word

The name of a node must not be one of the words that open and close subgraphs.
Where a link looks for its destination, the whole name is held against these
words; where the next element is read, only the first token of the name is. The
two answers differ for the names that go on beyond ASCII after a reserved word,
and for no others.
-/

import DiagramCheck.Proofs.Reading.Name
import DiagramCheck.Proofs.Token.Word

namespace DiagramCheck

namespace Token

private theorem toNat_lt_of_isWordChar {c : Char} (letter : Lexeme.isWordChar c = true) :
    c.toNat < 0x80 := by
  rw [Lexeme.isWordChar, Bool.or_eq_true, beq_iff_eq] at letter
  rcases letter with letter | rfl
  · exact Text.toNat_lt_of_isAlphanum letter
  · decide

end Token

/-- A name that goes on beyond ASCII right after a reserved word. -/
def ContinuesReserved (name : String) : Prop :=
  ∃ word c more, name.toList = word ++ c :: more ∧ Token.IsReserved word ∧ 0x80 ≤ c.toNat

namespace Items

/-- The characters that the touching items add to the name which ends at byte `stop`. -/
def touchingText (stop : Nat) (items : List Item) : List Char :=
  (String.join ((touching stop items).map (·.text))).toList

theorem toList_text_peekName (finish : Token) {first : Item} (rest : List Item)
    (name : first.isName = true) :
    (peekName finish (first :: rest)).text.toList =
      first.text.toList ++ touchingText first.stop rest := by
  rw [text_peekName finish name, List.map_cons, String.join_cons, String.toList_append,
    touchingText]

private theorem peekName_eq_of_touchingText {finish : Token} {first : Item} {rest : List Item}
    (name : first.isName = true) (alone : touchingText first.stop rest = []) :
    peekName finish (first :: rest) = first.toToken := by
  have kind := kind_peekName finish (first :: rest)
  have position := position_peekName finish (first :: rest)
  have text := toList_text_peekName finish rest name
  rw [alone, List.append_nil, String.toList_inj] at text
  generalize peekName finish (first :: rest) = token at kind position text ⊢
  obtain ⟨_, _, _⟩ := token
  obtain ⟨⟨_, _, _⟩, _, _⟩ := first
  simp only [front] at kind position text
  rw [kind, position, text]

section Reserved

variable {finish : Token} {first : Item} {rest : List Item}

/-- What touches a name that begins with a letter begins beyond ASCII. -/
theorem beyond_ascii_of_touchingText (laid : LaidOut (first :: rest))
    (cut : ∀ item ∈ first :: rest, item.toToken.IsCut) (name : first.isName = true)
    {c d : Char} {tail more : List Char} (text : first.text.toList = c :: tail)
    (letter : c.isAlpha = true) (touch : touchingText first.stop rest = d :: more) :
    0x80 ≤ d.toNat := by
  cases rest with
  | nil => cases touch
  | cons second rest =>
    rw [touchingText, touching] at touch
    split at touch
    · next touches =>
      rw [Bool.and_eq_true, beq_iff_eq] at touches
      obtain ⟨-, behind, firstCut⟩ := laid.before.touching touches.2
      obtain ⟨later, secondCut⟩ :=
        cut second (List.mem_cons_of_mem _ (List.mem_cons_self ..))
      rw [List.map_cons, String.join_cons, String.toList_append] at touch
      obtain ⟨e, characters, own⟩ := secondCut.exists_cons
      rw [own, List.cons_append, List.cons.injEq] at touch
      obtain ⟨rfl, -⟩ := touch
      exact Token.beyond_ascii_of_touching firstCut name text letter secondCut touches.1 own
    · cases touch

/-- The first token of a name that goes on beyond ASCII after a reserved word is that word. -/
theorem text_eq_of_continuesReserved (laid : LaidOut (first :: rest))
    (cut : ∀ item ∈ first :: rest, item.toToken.IsCut) (name : first.isName = true)
    {word more : List Char} {c : Char}
    (split : first.text.toList ++ touchingText first.stop rest = word ++ c :: more)
    (reserved : Token.IsReserved word) (beyond : 0x80 ≤ c.toNat) :
    first.text.toList = word := by
  obtain ⟨behind, own⟩ := cut first (List.mem_cons_self ..)
  have letters := reserved.isAlpha
  obtain ⟨h, tail, text⟩ := own.exists_cons
  cases word with
  | nil => rcases reserved with same | same <;> cases same
  | cons h' word =>
    have letter : h.isAlpha = true := by
      rw [text, List.cons_append, List.cons_append, List.cons.injEq] at split
      rw [split.1]
      exact letters h' (List.mem_cons_self ..)
    rw [text] at split ⊢
    -- Either token or word could be the longer one, but what the longer one goes on with is
    -- beyond ASCII on one side and within it on the other.
    rcases List.append_eq_append_iff.1 split with ⟨gap, longer, touch⟩ | ⟨gap, longer, touch⟩
    · cases gap with
      | nil => rw [longer, List.append_nil]
      | cons d gap =>
        have low := Token.toNat_lt_of_isWordChar
          (Token.isWordChar_of_isAlpha (letters d (by rw [longer]; simp)))
        have high := beyond_ascii_of_touchingText laid cut name text letter touch
        omega
    · cases gap with
      | nil => rw [longer, List.append_nil]
      | cons d gap =>
        obtain ⟨rfl, -⟩ := List.cons.inj touch
        have inside : c ∈ first.text.toList := by
          rw [text, longer]
          simp
        rcases Token.chars_of_letter own name text letter c inside with member | rfl
        · have := Token.toNat_lt_of_isWordChar member
          omega
        · exact absurd beyond (by decide)

/-- A name that is no reserved word begins with one exactly when it goes on beyond ASCII. -/
theorem continuesReserved_iff (laid : LaidOut (first :: rest))
    (cut : ∀ item ∈ first :: rest, item.toToken.IsCut) (name : first.isName = true)
    (free : (peekName finish (first :: rest)).isNodeName = true) :
    ContinuesReserved (peekName finish (first :: rest)).text ↔
      first.closesSubgraph = true ∨ first.opensSubgraph = true := by
  obtain ⟨behind, own⟩ := cut first (List.mem_cons_self ..)
  constructor
  · rintro ⟨word, c, more, split, reserved, beyond⟩
    rw [toList_text_peekName finish rest name] at split
    have text := text_eq_of_continuesReserved laid cut name split reserved beyond
    rw [← text] at reserved
    refine (Token.isReserved_iff ?_).1 reserved
    obtain ⟨h, tail, characters⟩ := own.exists_cons
    have letter := reserved.isAlpha h (by rw [characters]; exact List.mem_cons_self ..)
    rw [(Token.word_of_letter own name characters letter).1,
      ← String.ofList_toList (s := first.text)]
    exact reserved.ofWord
  · intro reserved
    have kind : first.kind = .identifier := by
      rcases reserved with closes | opens
      · rw [Token.closesSubgraph, Token.isWordIgnoringCase, Bool.and_eq_true, beq_iff_eq] at closes
        exact closes.1
      · rw [Token.opensSubgraph, Token.isWord, Bool.and_eq_true, beq_iff_eq] at opens
        exact opens.1
    have word := (Token.isReserved_iff kind).2 reserved
    cases touch : touchingText first.stop rest with
    | nil =>
      -- The name is the reserved word alone, which names no node.
      rw [peekName_eq_of_touchingText name touch, Token.isNodeName, Bool.and_eq_true,
        Bool.and_eq_true, Bool.not_eq_true', Bool.not_eq_true'] at free
      rcases reserved with closes | opens
      · rw [closes] at free
        cases free.1.2
      · rw [opens] at free
        cases free.2
    | cons d more =>
      obtain ⟨h, tail, characters⟩ := own.exists_cons
      have letter := word.isAlpha h (by rw [characters]; exact List.mem_cons_self ..)
      refine ⟨first.text.toList, d, more, ?_, word, ?_⟩
      · rw [toList_text_peekName finish rest name, touch]
      · exact beyond_ascii_of_touchingText laid cut name characters letter touch

end Reserved

end Items

end DiagramCheck
