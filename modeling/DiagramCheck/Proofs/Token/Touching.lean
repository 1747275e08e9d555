/-
# Names in pieces

A name may hold characters beyond ASCII, and the rules that cut tokens off a text
know nothing of such names. A stretch of ASCII letters, digits and underscores is
one token, and every character beyond ASCII is one by itself. All of these tokens
are names, each touches the one before it, and put together they spell the name.

Main statement: `exists_namePieces`.
-/

import DiagramCheck.Proofs.Reading.Name
import DiagramCheck.Proofs.Token.Spelling

namespace DiagramCheck

namespace Token

/-- The characters that names are made of: ASCII letters, digits and underscores, and all
characters beyond ASCII but blanks. -/
def isNameChar (c : Char) : Bool :=
  Lexeme.isWordChar c || decide (0x80 ≤ c.toNat) && !Text.isBlank c

theorem isNameChar_of_isWordChar {c : Char} (own : Lexeme.isWordChar c = true) :
    isNameChar c = true := by
  rw [isNameChar, own, Bool.true_or]

private theorem not_mem_signs_of_isNameChar {c : Char} (own : isNameChar c = true) :
    c ∉ Lexeme.signs := by
  have foreign : Lexeme.signs.all (!isNameChar ·) = true := by decide
  intro sign
  have other := List.all_eq_true.1 foreign c sign
  rw [own] at other
  cases other

private theorem isBlank_of_isNameChar {c : Char} (own : isNameChar c = true) :
    Text.isBlank c = false := by
  cases blank : Text.isBlank c with
  | false => rfl
  | true =>
    rw [isNameChar, Lexeme.isWordChar_of_isBlank blank, blank] at own
    simp at own

theorem startsName_of_isNameChar {c : Char} (own : isNameChar c = true) :
    startsName c = true := by
  rw [isNameChar, Lexeme.isWordChar, Bool.or_eq_true, Bool.and_eq_true] at own
  rw [startsName, Bool.or_eq_true]
  exact own.imp_right And.left

theorem ne_newline_of_isNameChar {c : Char} (own : isNameChar c = true) : c ≠ '\n' := by
  rintro rfl
  exact absurd own (by decide)

end Token

namespace Lexeme

/-! ## A stretch of word characters -/

/-- What stands behind a piece of a name and does not belong to it. -/
structure StopsPiece (behind : List Char) : Prop where
  foreign : ∀ c ∈ behind.head?, isWordChar c = false ∧ c ≠ '.'
  ends : wordTail behind = 0

private theorem wordTail_append_of_all {word behind : List Char}
    (letters : word.all isWordChar = true) (ends : wordTail behind = 0) :
    wordTail (word ++ behind) = word.length := by
  induction word with
  | nil => exact ends
  | cons c word ih =>
    rw [List.all_cons, Bool.and_eq_true] at letters
    have other : c ≠ '-' := by
      rintro rfl
      exact absurd letters.1 (by decide)
    rw [List.cons_append]
    unfold wordTail
    rw [if_neg other, if_pos letters.1, ih letters.2, List.length_cons]

private theorem isDigit_of_not_isWordChar {c : Char} (foreign : isWordChar c = false) :
    c.isDigit = false := by
  simp only [isWordChar, Char.isAlphanum, Bool.or_eq_false_iff] at foreign
  exact foreign.1.2

theorem continuesWord_of_isWordChar {c : Char} (own : isWordChar c = true) :
    continuesWord c = true := by
  rw [isWordChar, Bool.or_eq_true] at own
  rw [continuesWord, Bool.or_eq_true]
  exact own.imp_left Text.isAlphanumeric_of_isAlphanum

/-- Digits are a number unless what stands behind them goes on as a word. -/
theorem unsigned?_append_of_digits {whole behind : List Char}
    (digit : whole.all Char.isDigit = true)
    (foreign : ∀ c ∈ behind.head?, c.isDigit = false ∧ c ≠ '.') :
    unsigned? (whole ++ behind) =
      if whole.length = 0 ∨ behind.head?.any continuesWord = true then none
      else some whole.length := by
  have stops : behind.takeWhile Char.isDigit = [] := by
    cases behind with
    | nil => rfl
    | cons c behind => rw [List.takeWhile_cons_of_neg (by simp [(foreign c rfl).1])]
  have count : digits (whole ++ behind) = whole.length := by
    rw [digits, List.takeWhile_append_of_pos (List.all_eq_true.1 digit), stops, List.append_nil]
  have none : fraction behind = 0 := by
    unfold fraction
    split
    · next more => exact absurd rfl (foreign '.' rfl).2
    · rfl
  rw [unsigned?, count, List.drop_left, none, Nat.add_zero, List.drop_left]

/-- A stretch of word characters begins with a number exactly when it holds nothing but digits and
no word goes on behind it, and then the number is the whole stretch. -/
theorem unsigned?_append_of_letters {word behind : List Char} (written : word ≠ [])
    (letters : word.all isWordChar = true) (stops : StopsPiece behind) :
    unsigned? (word ++ behind) =
      if word.all Char.isDigit = true ∧ behind.head?.any continuesWord = false then
        some word.length
      else none := by
  -- The digits at the front are followed by another word character or by what stands behind.
  have split : word = word.takeWhile Char.isDigit ++ word.dropWhile Char.isDigit :=
    List.takeWhile_append_dropWhile.symm
  have digit : (word.takeWhile Char.isDigit).all Char.isDigit = true := List.all_takeWhile
  cases more : word.dropWhile Char.isDigit with
  | nil =>
    rw [more, List.append_nil] at split
    rw [← split] at digit
    have foreign : ∀ c ∈ behind.head?, c.isDigit = false ∧ c ≠ '.' := fun c front =>
      (stops.foreign c front).imp_left isDigit_of_not_isWordChar
    rw [unsigned?_append_of_digits digit foreign]
    cases behind.head?.any continuesWord <;> simp [digit, written]
  | cons d more' =>
    have member : d ∈ word := by
      refine (List.dropWhile_suffix Char.isDigit).subset ?_
      rw [more]
      exact List.mem_cons_self ..
    have own : isWordChar d = true := List.all_eq_true.1 letters d member
    have undigit : d.isDigit = false := by
      have front := List.head?_dropWhile_not Char.isDigit word
      rw [more] at front
      simpa using front
    have other : ¬ word.all Char.isDigit = true := fun all => by
      rw [List.all_eq_true.1 all d member] at undigit
      cases undigit
    have foreign : ∀ e ∈ (d :: more' ++ behind).head?, e.isDigit = false ∧ e ≠ '.' := by
      rintro _ ⟨⟩
      refine ⟨undigit, ?_⟩
      rintro rfl
      exact absurd own (by decide)
    rw [if_neg fun both => other both.1]
    rw [split, more, List.append_assoc, unsigned?_append_of_digits digit foreign,
      if_pos (.inr (by simp [continuesWord_of_isWordChar own]))]

/-- A number that begins a stretch of word characters is the whole stretch. -/
theorem length_of_number? {c : Char} {tail behind : List Char} {length : Nat}
    (letters : (c :: tail).all isWordChar = true) (stops : StopsPiece behind)
    (found : number? (c :: tail ++ behind) = some length) : length = (c :: tail).length := by
  have unsigned : number? (c :: tail ++ behind) = unsigned? (c :: tail ++ behind) := by
    unfold number?
    split
    · next front =>
      rw [List.cons_append, List.cons.injEq] at front
      rw [front.1] at letters
      exact absurd letters (by simp [not_isWordChar_hyphen])
    · rfl
  rw [unsigned, unsigned?_append_of_letters (List.cons_ne_nil c tail) letters stops] at found
  split at found
  · exact (Option.some.inj found).symm
  · cases found

/-- A stretch of word characters is a token. -/
theorem leads_stretch {word behind : List Char} (written : word ≠ [])
    (letters : word.all isWordChar = true) (stops : StopsPiece behind) :
    ∃ kind, (kind = .identifier ∨ kind = .number) ∧ Leads kind word behind := by
  obtain ⟨c, tail, rfl⟩ := List.exists_cons_of_ne_nil written
  have own : Token.isNameChar c = true := by
    rw [List.all_cons, Bool.and_eq_true] at letters
    exact Token.isNameChar_of_isWordChar letters.1
  have solid := Token.isBlank_of_isNameChar own
  rcases next_of_not_mem_signs (Token.not_mem_signs_of_isNameChar own) (tail ++ behind) with
    ⟨length, found, next⟩ | next
  · rw [length_of_number? letters stops found] at next
    exact ⟨.number, .inr rfl, c, tail ++ behind, rfl, solid, next⟩
  · rw [List.all_cons, Bool.and_eq_true] at letters
    rw [Lexeme.word, if_pos letters.1, wordTail_append_of_all letters.2 stops.ends] at next
    exact ⟨.identifier, .inl rfl, c, tail ++ behind, rfl, solid, next⟩

/-- A character beyond ASCII is a word by itself. -/
theorem leads_beyond {c : Char} (own : Token.isNameChar c = true)
    (foreign : isWordChar c = false) (behind : List Char) : Leads .identifier [c] behind := by
  have solid := Token.isBlank_of_isNameChar own
  have plain := Token.not_mem_signs_of_isNameChar own
  rcases next_of_not_mem_signs plain behind with ⟨length, found, -⟩ | next
  · rcases number?_head found with digit | ⟨rfl, -⟩
    · rw [isDigit_of_not_isWordChar foreign] at digit
      cases digit
    · exact absurd (by decide) plain
  · rw [word, foreign, if_neg Bool.false_ne_true] at next
    exact ⟨c, behind, rfl, solid, next⟩

/-! ## The pieces of a name -/

/-- The first piece of a name: the word characters at the front, or a single character beyond
ASCII. -/
def frontPiece : List Char → List Char
  | [] => []
  | c :: tail => if isWordChar c then c :: tail.takeWhile isWordChar else [c]

/-- What stands behind a name and does not belong to it. -/
structure StopsName (behind : List Char) : Prop where
  foreign : ∀ c ∈ behind.head?, Token.isNameChar c = false ∧ c ≠ '.'
  ends : wordTail behind = 0

private theorem StopsName.stopsPiece {behind : List Char} (stops : StopsName behind) :
    StopsPiece behind := by
  refine ⟨fun c front => ?_, stops.ends⟩
  have own := stops.foreign c front
  rw [Token.isNameChar, Bool.or_eq_false_iff] at own
  exact ⟨own.1.1, own.2⟩

/-- A name begins with its first piece, whatever stands behind it. -/
theorem exists_leads_frontPiece {name behind : List Char} (written : name ≠ [])
    (chars : name.all Token.isNameChar = true) (stops : StopsName behind) :
    ∃ kind rest, (kind = .identifier ∨ kind = .number) ∧ name = frontPiece name ++ rest ∧
      Leads kind (frontPiece name) (rest ++ behind) := by
  cases name with
  | nil => exact absurd rfl written
  | cons c tail =>
    rw [List.all_cons, Bool.and_eq_true] at chars
    cases own : isWordChar c with
    | false =>
      rw [frontPiece, own, if_neg Bool.false_ne_true]
      exact ⟨.identifier, tail, .inl rfl, rfl, leads_beyond chars.1 own _⟩
    | true =>
      have letters : (c :: tail.takeWhile isWordChar).all isWordChar = true := by
        rw [List.all_cons, own, List.all_takeWhile]
        rfl
      have piece : StopsPiece (tail.dropWhile isWordChar ++ behind) := by
        cases rest : tail.dropWhile isWordChar with
        | nil => exact stops.stopsPiece
        | cons d more =>
          -- The next piece begins beyond ASCII.
          have foreign : isWordChar d = false := by
            have front := List.head?_dropWhile_not isWordChar tail
            rw [rest] at front
            simpa using front
          have member : d ∈ tail := by
            refine (List.dropWhile_suffix isWordChar).subset ?_
            rw [rest]
            exact List.mem_cons_self ..
          have named := List.all_eq_true.1 chars.2 d member
          have other {e : Char} (sign : Token.isNameChar e = false) : d ≠ e := by
            rintro rfl
            rw [named] at sign
            cases sign
          refine ⟨?_, ?_⟩
          · rintro _ ⟨⟩
            exact ⟨foreign, other (by decide)⟩
          · rw [List.cons_append]
            unfold wordTail
            rw [if_neg (other (by decide)), foreign, if_neg Bool.false_ne_true]
      obtain ⟨kind, plain, leads⟩ := leads_stretch (List.cons_ne_nil c _) letters piece
      rw [frontPiece, own, if_pos rfl]
      refine ⟨kind, tail.dropWhile isWordChar, plain, ?_, leads⟩
      rw [List.cons_append, List.takeWhile_append_dropWhile]

end Lexeme

namespace Token

/-- A token that is a piece of a name and begins at `place`. -/
structure IsPiece (place : Position) (written : List Char) (token : Token) : Prop where
  position : token.position = place
  text : token.text.toList = written
  named : token.isName = true
  cut : token.IsCut
  kind : token.kind = .ofWord token.text ∨ token.kind = .number

/-- A word that begins as names do is a name, whether or not it is a keyword. -/
theorem isName_of_ofWord {token : Token} (word : token.kind = .ofWord token.text)
    (starts : token.text.toList.head?.any startsName = true) : token.isName = true := by
  rcases TokenKind.ofWord_cases token.text with same | same | ⟨family, same⟩
  all_goals
    rw [same] at word
    simp [isName, word, starts]

private theorem kind_ofLexeme_identifier (written : List Char) (place : Position) :
    (ofLexeme .identifier written place).kind =
      .ofWord (ofLexeme .identifier written place).text := by
  simp only [ofLexeme, if_true]

theorem isPiece_ofLexeme {kind : TokenKind} {written text : List Char}
    (plain : kind = .identifier ∨ kind = .number) (chars : written.all isNameChar = true)
    (leads : Lexeme.Leads kind written text) (place : Position) :
    IsPiece place written (ofLexeme kind written place) := by
  refine ⟨rfl, ?_, ?_, ⟨text, ofLexeme_cutBefore leads place⟩, ?_⟩
  · rw [ofLexeme, String.toList_ofList]
  · rcases plain with rfl | rfl
    · obtain ⟨c, tail, rfl⟩ := List.exists_cons_of_ne_nil leads.ne_nil
      rw [List.all_cons, Bool.and_eq_true] at chars
      refine isName_of_ofWord (kind_ofLexeme_identifier _ _) ?_
      rw [ofLexeme, String.toList_ofList]
      exact startsName_of_isNameChar chars.1
    · rfl
  · rcases plain with rfl | rfl
    · exact .inl (kind_ofLexeme_identifier _ _)
    · exact .inr rfl

theorem IsPiece.stop_eq {place : Position} {written : List Char} {token : Token}
    (piece : IsPiece place written token) : token.stop = (place.after written).offset := by
  rw [stop_eq_offset_after, piece.position, piece.text]

/-- No name holds a newline. -/
theorem line_after_name {name : List Char} (chars : name.all isNameChar = true)
    (place : Position) : (place.after name).line = place.line := by
  have none : name.count '\n' = 0 := List.count_eq_zero.2 fun newline =>
    ne_newline_of_isNameChar (List.all_eq_true.1 chars _ newline) rfl
  rw [Position.line_after, none, Nat.add_zero]

/-- Tokens that spell a name which begins at `place`: they are names, each touches the one before
it, and together they are written as the name is. -/
structure NamePieces (place : Position) (name : List Char) (first : Token) (rest : List Token) :
    Prop where
  front : IsPiece place (Lexeme.frontPiece name) first
  written : (first :: rest).flatMap (·.text.toList) = name
  named : ∀ token ∈ first :: rest, token.isName = true
  touch : (first :: rest).IsChain fun token next => next.offset = token.stop
  lines : ∀ token ∈ first :: rest, token.line = place.line ∧ token.endLine = place.line

/-- A name is cut into tokens that spell it. -/
theorem exists_namePieces {behind : List Char} (stops : Lexeme.StopsName behind)
    {name : List Char} (written : name ≠ []) (chars : name.all isNameChar = true)
    (place : Position) :
    ∃ first rest, Scans place (name ++ behind) (first :: rest) (place.after name) behind ∧
      NamePieces place name first rest := by
  -- By induction on the length: behind the first piece the rest of the name begins anew.
  induction size : name.length using Nat.strongRecOn generalizing name place with
  | ind size ih =>
    subst size
    obtain ⟨kind, rest, plain, split, leads⟩ :=
      Lexeme.exists_leads_frontPiece written chars stops
    generalize piece : Lexeme.frontPiece name = own at split leads
    subst split
    rw [List.all_append, Bool.and_eq_true] at chars
    have isPiece := isPiece_ofLexeme plain chars.1 leads place
    have scans : Scans place (own ++ (rest ++ behind)) [ofLexeme kind own place]
        (place.after own) (rest ++ behind) := .lexeme leads .done
    generalize ofLexeme kind own place = token at isPiece scans
    have lines : token.line = place.line ∧ token.endLine = place.line := by
      rw [endLine_eq_line_after, isPiece.position, isPiece.text, line_after_name chars.1, line,
        isPiece.position]
      exact ⟨rfl, rfl⟩
    have front : IsPiece place (Lexeme.frontPiece (own ++ rest)) token := by rwa [piece]
    cases rest with
    | nil =>
      rw [List.append_nil] at front ⊢
      refine ⟨token, [], scans, front, ?_, ?_, .singleton token, ?_⟩
      · rw [List.flatMap_singleton, isPiece.text]
      · exact List.forall_mem_singleton.2 isPiece.named
      · exact List.forall_mem_singleton.2 lines
    | cons d more =>
      have shorter : (d :: more).length < (own ++ d :: more).length := by
        have := List.length_pos_of_ne_nil leads.ne_nil
        rw [List.length_append]
        omega
      obtain ⟨next, later, scans', pieces⟩ :=
        ih _ shorter (List.cons_ne_nil d more) chars.2 (place.after own) rfl
      refine ⟨token, next :: later, ?_, front, ?_, ?_, ?_, ?_⟩
      · rw [List.append_assoc, Position.after_append]
        exact scans.trans scans'
      · rw [List.flatMap_cons, pieces.written, isPiece.text]
      · exact List.forall_mem_cons.2 ⟨isPiece.named, pieces.named⟩
      · refine List.isChain_cons_cons.2 ⟨?_, pieces.touch⟩
        rw [isPiece.stop_eq, offset, pieces.front.position]
      · refine List.forall_mem_cons.2 ⟨lines, fun other member => ?_⟩
        rw [← line_after_name chars.1 place]
        exact pieces.lines other member

end Token

end DiagramCheck
