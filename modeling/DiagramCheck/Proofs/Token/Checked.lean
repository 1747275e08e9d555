/-
# Cutting tokens with every step checked

The tokens of a source can be cut by walking over its bytes: a scanner knows the
line it is on and the byte at which that line starts, and every token is a slice
of the source, as is the part of the line before it. A slice exists only between
two boundaries in order, one of the rules for lexemes has to apply, and it has to
take something. Here each of these steps fails when its condition is not met.

None of them ever does, and the tokens are those that `Token.stream` gives.

Main statement: `Scanner.tokenize?_eq`.
-/

import DiagramCheck.Proofs.Token.Scan

namespace DiagramCheck

/-- The difference of two numbers, if the second is no greater than the first. -/
def difference? (whole part : Nat) : Option Nat :=
  if part ≤ whole then some (whole - part) else none

/-! ## Rules that may not apply -/

namespace Lexeme

/-- A word of several characters begins with a letter, a digit or an underscore. -/
def identifier? : List Char → Option Nat
  | [] => none
  | c :: text => if isWordChar c then some (wordTail text + 1) else none

/-- Any other character is a word by itself. -/
def single? : List Char → Option Nat
  | [] => none
  | _ :: _ => some 1

/-- The lexeme at the front of a text by the first rule that applies, if there is one. -/
def first? (text : List Char) : Option Lexeme :=
  (directive? text).map (⟨.directive, ·⟩) <|> (comment? text).map (⟨.comment, ·⟩) <|>
    (string? text).map (⟨.string, ·⟩) <|>
    (arrow? text).map (fun arrow => ⟨.arrow arrow.1, arrow.2⟩) <|>
    (number? text).map (⟨.number, ·⟩) <|>
    (delimiter? text).map (fun delimiter => ⟨delimiter.1, delimiter.2⟩) <|>
    (identifier? text).map (⟨.identifier, ·⟩) <|> (single? text).map (⟨.identifier, ·⟩)

private theorem identifier?_or_single? (c : Char) (text : List Char) :
    ((identifier? (c :: text)).map (Lexeme.mk .identifier) <|>
      (single? (c :: text)).map (Lexeme.mk .identifier)) =
        some ⟨.identifier, word c text⟩ := by
  rw [identifier?, single?, word]
  split <;> rfl

/-- Before any character one of the rules applies. -/
theorem first?_cons (c : Char) (text : List Char) : first? (c :: text) = some (next c text) := by
  unfold first? next
  -- The first rule that applies decides, and only when it does not are the others looked at.
  cases directive? (c :: text) with
  | some => rfl
  | none =>
    cases comment? (c :: text) with
    | some => rfl
    | none =>
      cases string? (c :: text) with
      | some => rfl
      | none =>
        cases arrow? (c :: text) with
        | some => rfl
        | none =>
          cases number? (c :: text) with
          | some => rfl
          | none =>
            cases delimiter? (c :: text) with
            | some => rfl
            | none => exact identifier?_or_single? c text

end Lexeme

/-! ## Scanners -/

/-- A scanner on its way through a source: the tokens cut so far, the line it is on, and the byte at
which that line starts. -/
structure Scanner where
  tokens : List Token
  line : Nat
  lineStart : Nat

namespace Scanner

/-- Passes a text that begins at byte `offset`, keeping track of the lines. -/
def pass (scanner : Scanner) (offset : Nat) : List Char → Scanner
  | [] => scanner
  | c :: text =>
    let scanner :=
      if c = '\n' then { scanner with line := scanner.line + 1, lineStart := offset + 1 }
      else scanner
    scanner.pass (offset + c.utf8Size) text

/-- Passes the bytes between two offsets. -/
def advance? (source : List Char) (start stop : Nat) (scanner : Scanner) : Option Scanner :=
  (Text.slice? start stop source).map (scanner.pass start)

/-- Cuts the token between two offsets and passes it. Its column is counted from the start of the
line. -/
def push? (source : List Char) (kind : TokenKind) (start stop : Nat) (scanner : Scanner) :
    Option Scanner := do
  let written ← Text.slice? start stop source
  let ahead ← Text.slice? scanner.lineStart start source
  let token := Token.ofLexeme kind written ⟨scanner.line, ahead.length + 1, start⟩
  advance? source start stop { scanner with tokens := scanner.tokens ++ [token] }

/-- Cuts the tokens of `text`, which begins at byte `start` of the source: passes a run of blanks,
or cuts the lexeme at the front. Where no rule applies, or takes nothing, it fails. -/
def scan? (source : List Char) (start : Nat) (text : List Char) (scanner : Scanner) :
    Option Scanner :=
  match text with
  | [] => scanner.push? source .endOfInput (Text.byteLength source) (Text.byteLength source)
  | c :: text =>
    if Text.isBlank c then
      let blanks := c :: text.takeWhile Text.isBlank
      let stop := start + Text.byteLength blanks
      (scanner.advance? source start stop).bind
        (scan? source stop (text.dropWhile Text.isBlank))
    else
      (Lexeme.first? (c :: text)).bind fun lexeme =>
        (difference? lexeme.length 1).bind fun more =>
          let stop := start + Text.byteLength (c :: text.take more)
          (scanner.push? source lexeme.kind start stop).bind (scan? source stop (text.drop more))
termination_by text.length
decreasing_by
  · exact Nat.lt_succ_of_le (List.dropWhile_suffix _).length_le
  · exact Nat.lt_succ_of_le (List.drop_suffix ..).length_le

/-- The tokens of a source, cut by a scanner at its start. -/
def tokenize? (source : String) : Option (List Token) :=
  (scan? source.toList 0 source.toList ⟨[], 1, 0⟩).map Scanner.tokens

/-! ## Where a scanner stands -/

/-- A scanner has passed `before`: it is on the line reached there, and that line starts where the
last column of it was one. -/
structure Passed (scanner : Scanner) (before : List Char) : Prop where
  line : scanner.line = (Position.start.after before).line
  lineStart : ∃ above ahead, before = above ++ ahead ∧
    scanner.lineStart = Text.byteLength above ∧
      (Position.start.after before).column = ahead.length + 1

variable {scanner : Scanner} {before text : List Char}

private theorem tokens_pass (scanner : Scanner) (offset : Nat) (text : List Char) :
    (scanner.pass offset text).tokens = scanner.tokens := by
  induction text generalizing scanner offset with
  | nil => rfl
  | cons c text ih =>
    rw [pass, ih]
    split <;> rfl

/-- Passing one character keeps track of the lines. -/
theorem Passed.step (passed : scanner.Passed before) (c : Char) :
    (if c = '\n' then
      { scanner with line := scanner.line + 1, lineStart := Text.byteLength before + 1 }
      else scanner).Passed (before ++ [c]) := by
  have place : Position.start.after (before ++ [c]) = (Position.start.after before).step c :=
    Position.after_append ..
  by_cases newline : c = '\n'
  · subst newline
    refine ⟨?_, before ++ ['\n'], [], by simp, ?_, ?_⟩
    · rw [place, if_pos rfl, passed.line]
      rfl
    · rw [if_pos rfl, Text.byteLength_append]
      rfl
    · rw [place]
      rfl
  · obtain ⟨above, ahead, rfl, start, column⟩ := passed.lineStart
    rw [if_neg newline]
    refine ⟨?_, above, ahead ++ [c], by simp, start, ?_⟩
    · rw [place, passed.line, Position.step, if_neg newline]
    · rw [place, Position.step, if_neg newline]
      simp [column]

theorem Passed.pass (passed : scanner.Passed before) (text : List Char) :
    (scanner.pass (Text.byteLength before) text).Passed (before ++ text) := by
  induction text generalizing scanner before with
  | nil => rwa [Scanner.pass, List.append_nil]
  | cons c text ih =>
    have next := ih (passed.step c)
    rw [Text.byteLength_append, List.append_assoc] at next
    exact next

private theorem advance?_append (scanner : Scanner) (before blanks behind : List Char) :
    scanner.advance? (before ++ (blanks ++ behind)) (Text.byteLength before)
        (Text.byteLength before + Text.byteLength blanks) =
      some (scanner.pass (Text.byteLength before) blanks) := by
  rw [Scanner.advance?, Text.slice?_append]
  rfl

/-- A token stands at the place that the scanner has come to. -/
theorem Passed.push? (passed : scanner.Passed before) (kind : TokenKind)
    (written behind : List Char) :
    scanner.push? (before ++ (written ++ behind)) kind (Text.byteLength before)
        (Text.byteLength before + Text.byteLength written) =
      some (Scanner.pass { scanner with
        tokens := scanner.tokens ++ [.ofLexeme kind written (Position.start.after before)] }
          (Text.byteLength before) written) := by
  obtain ⟨above, ahead, same, start, column⟩ := passed.lineStart
  have own := Text.slice?_append before written behind
  have line : Text.slice? scanner.lineStart (Text.byteLength before)
      (before ++ (written ++ behind)) = some ahead := by
    rw [start, same, Text.byteLength_append, List.append_assoc]
    exact Text.slice?_append above ahead (written ++ behind)
  have place : Position.start.after before =
      ⟨scanner.line, ahead.length + 1, Text.byteLength before⟩ := by
    rw [passed.line, ← column, ← Nat.zero_add (Text.byteLength before)]
    exact congrArg (Position.mk _ _) (Position.offset_after .start before)
  simp only [Scanner.push?, own, line, advance?, Option.bind_eq_bind, Option.bind_some,
    Option.map_some, place]

/-- From wherever a scanner stands, it cuts the tokens that follow there. -/
theorem Passed.scan? (passed : scanner.Passed before) (text : List Char) :
    (Scanner.scan? (before ++ text) (Text.byteLength before) text scanner).map tokens =
      some (scanner.tokens ++ Token.stream (Position.start.after before) text) := by
  -- By induction on what is left of the source: each round takes at least one character of it.
  induction length : text.length using Nat.strongRecOn generalizing scanner before text with
  | ind size ih =>
    have round {written behind : List Char} (split : text = written ++ behind)
        (shorter : behind.length < size) {next : Scanner}
        (passed : next.Passed (before ++ written)) :
        (Scanner.scan? (before ++ text) (Text.byteLength before + Text.byteLength written) behind
            next).map tokens =
          some (next.tokens ++
            Token.stream ((Position.start.after before).after written) behind) := by
      have := ih _ shorter passed behind rfl
      rwa [List.append_assoc, ← split, Text.byteLength_append, Position.after_append] at this
    cases text with
    | nil =>
      -- The end of the input is an empty token behind all the others.
      have last := passed.push? .endOfInput [] []
      simp only [List.append_nil, Text.byteLength_nil, Nat.add_zero] at last
      unfold Scanner.scan?
      rw [List.append_nil, last, Option.map_some, tokens_pass, Token.stream_nil]
      rfl
    | cons c text =>
      unfold Scanner.scan?
      dsimp only
      split
      · next white =>
        -- One round passes a whole run of blanks, which the stream passes one by one.
        let blanks := c :: text.takeWhile Text.isBlank
        let behind := text.dropWhile Text.isBlank
        have split : c :: text = blanks ++ behind :=
          congrArg (c :: ·) List.takeWhile_append_dropWhile.symm
        have blank : blanks.all Text.isBlank = true := by
          rw [List.all_cons, white, Bool.true_and]
          exact List.all_takeWhile
        have shorter : behind.length < size := by
          rw [← length]
          exact Nat.lt_succ_of_le (List.dropWhile_suffix _).length_le
        have advanced := scanner.advance?_append before blanks behind
        rw [← split] at advanced
        have later := round split shorter (passed.pass blanks)
        rw [tokens_pass] at later
        rw [advanced, Option.bind_some, later, split, (Token.Scans.gap blank).stream_eq]
        rfl
      · next solid =>
        have counted : difference? (Lexeme.next c text).length 1 =
            some ((Lexeme.next c text).length - 1) := if_pos (Lexeme.next_fits c text).1
        unfold Token.stream
        rw [if_neg solid, Lexeme.first?_cons, Option.bind_some, counted, Option.bind_some]
        dsimp only
        -- Only that the lexeme takes its first character matters from here on.
        generalize (Lexeme.next c text).length - 1 = more
        generalize (Lexeme.next c text).kind = kind
        let written := c :: text.take more
        have split : c :: text = written ++ text.drop more :=
          congrArg (c :: ·) (List.take_append_drop more text).symm
        have shorter : (text.drop more).length < size := by
          rw [← length]
          exact Nat.lt_succ_of_le (List.drop_suffix ..).length_le
        have pushed := passed.push? kind written (text.drop more)
        rw [← split] at pushed
        let token := Token.ofLexeme kind written (Position.start.after before)
        have added : Passed { scanner with tokens := scanner.tokens ++ [token] } before :=
          ⟨passed.line, passed.lineStart⟩
        have later := round split shorter (added.pass written)
        rw [tokens_pass] at later
        rw [pushed, Option.bind_some, later, List.append_assoc]
        rfl

/-- No step of a scanner fails, and it cuts the tokens of the source. -/
theorem tokenize?_eq (source : String) : tokenize? source = some (Token.tokenize source) := by
  have passed : Passed ⟨[], 1, 0⟩ [] := ⟨rfl, [], [], rfl, rfl, rfl⟩
  exact passed.scan? source.toList

end Scanner

end DiagramCheck
