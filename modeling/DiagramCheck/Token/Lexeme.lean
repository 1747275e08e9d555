/-
# Lexemes

The rules that cut the next token off a text which does not begin with a blank.
Each rule says how many characters it takes from the front; `Lexeme.next` tries
them in order and always finds one, because a character that begins nothing
else is a word of its own.

The order matters where rules overlap. A directive comes before a comment, an
arrow before a number or a bracket, a doubled bracket before a single one, and
a number before a word. A number that runs into a letter is no number, which
leaves `1st` to be a word. The arrow `==>` is refused before another `>`.
-/

import DiagramCheck.Text.Character
import DiagramCheck.Token.Kind

namespace DiagramCheck

/-- The kind of the next token and the number of characters it takes. -/
structure Lexeme where
  kind : TokenKind
  length : Nat
  deriving DecidableEq, Repr

namespace Lexeme

/-! ## Directives, comments and strings -/

/-- The length of a directive's body up to the mark that closes it, counted from inside `depth`
open braces. Braces nest; a closing brace that leaves none open closes the directive when two
percent signs follow it. Without such a brace the body runs to the end of the text. -/
def directiveBody : Nat → List Char → Nat
  | _, [] => 0
  | depth, c :: text =>
    if c = '\x7b' then directiveBody (depth + 1) text + 1
    else if c = '\x7d' then
      if depth ≤ 1 ∧ ['%', '%'].isPrefixOf text then 3 else directiveBody (depth - 1) text + 1
    else directiveBody depth text + 1

/-- A directive begins with two percent signs and a brace. -/
def directive? : List Char → Option Nat
  | '%' :: '%' :: '\x7b' :: text => some (directiveBody 1 text + 3)
  | _ => none

/-- A comment begins with two percent signs and ends before the next newline. -/
def comment? : List Char → Option Nat
  | '%' :: '%' :: text => some ((text.takeWhile (· != '\n')).length + 2)
  | _ => none

/-- The length of a quoted text after its first quote: up to the next quote like it, or all. -/
def quotedBody (quote : Char) : List Char → Nat
  | [] => 0
  | c :: text => if c = quote then 1 else quotedBody quote text + 1

/-- A string stands between two double or two single quotes and may span lines. -/
def string? : List Char → Option Nat
  | c :: text => if c = '"' ∨ c = '\'' then some (quotedBody c text + 1) else none
  | [] => none

/-! ## Arrows and brackets -/

/-- The arrow at the front of a text, the longest that fits. -/
def arrow? : List Char → Option (Arrow × Nat)
  | '-' :: '.' :: '.' :: '-' :: '>' :: _ => some (.dotted, 5)
  | '-' :: '.' :: '-' :: '>' :: _ => some (.dotted, 4)
  | '-' :: '-' :: '>' :: '>' :: _ => some (.dashedOpen, 4)
  | '-' :: '-' :: '>' :: _ => some (.plain, 3)
  | '-' :: '-' :: '-' :: _ => some (.line, 3)
  | '-' :: '>' :: '>' :: _ => some (.shortOpen, 3)
  | '-' :: '>' :: _ => some (.short, 2)
  | '=' :: '=' :: '>' :: '>' :: _ => none
  | '=' :: '=' :: '>' :: _ => some (.thick, 3)
  | _ => none

/-- The bracket or separator at the front of a text, a doubled bracket first. -/
def delimiter? : List Char → Option (TokenKind × Nat)
  | '(' :: '(' :: _ => some (.opening .doubleRound, 2)
  | ')' :: ')' :: _ => some (.closing .doubleRound, 2)
  | '[' :: '[' :: _ => some (.opening .doubleSquare, 2)
  | ']' :: ']' :: _ => some (.closing .doubleSquare, 2)
  | '\x7b' :: '\x7b' :: _ => some (.opening .doubleCurly, 2)
  | '\x7d' :: '\x7d' :: _ => some (.closing .doubleCurly, 2)
  | '(' :: _ => some (.opening .round, 1)
  | ')' :: _ => some (.closing .round, 1)
  | '[' :: _ => some (.opening .square, 1)
  | ']' :: _ => some (.closing .square, 1)
  | '\x7b' :: _ => some (.opening .curly, 1)
  | '\x7d' :: _ => some (.closing .curly, 1)
  | '|' :: _ => some (.pipe, 1)
  | ':' :: _ => some (.colon, 1)
  | ',' :: _ => some (.comma, 1)
  | ';' :: _ => some (.semicolon, 1)
  | '=' :: _ => some (.equals, 1)
  | _ => none

/-! ## Numbers and words -/

/-- The number of ASCII digits at the front of a text. -/
def digits (text : List Char) : Nat := (text.takeWhile Char.isDigit).length

/-- The length of a fraction: a point and at least one digit, or nothing. -/
def fraction : List Char → Nat
  | '.' :: text => if digits text = 0 then 0 else digits text + 1
  | _ => 0

/-- A character that a number must not run into. -/
def continuesWord (c : Char) : Bool := Text.isAlphanumeric c || c == '_'

/-- An unsigned number: digits and perhaps a fraction, not followed by a letter, a digit or an
underscore. -/
def unsigned? (text : List Char) : Option Nat :=
  let whole := digits text
  let length := whole + fraction (text.drop whole)
  if whole = 0 ∨ (text.drop length).head?.any continuesWord then none else some length

/-- A number: an unsigned one, perhaps after a minus sign. -/
def number? : List Char → Option Nat
  | '-' :: text => (unsigned? text).map (· + 1)
  | text => unsigned? text

/-- The characters that begin a word of more than one character. -/
def isWordChar (c : Char) : Bool := c.isAlphanum || c == '_'

/-- The length of a word after its first character. A hyphen belongs to the word unless it begins
an arrow. -/
def wordTail : List Char → Nat
  | [] => 0
  | c :: text =>
    if c = '-' then
      match text with
      | '>' :: _ | '-' :: _ | '.' :: _ => 0
      | _ => wordTail text + 1
    else if isWordChar c then wordTail text + 1
    else 0

/-- The length of the word that begins with `c`; any other character is a word by itself. -/
def word (c : Char) (text : List Char) : Nat :=
  if isWordChar c then wordTail text + 1 else 1

/-! ## The next lexeme -/

/-- The lexeme at the front of the text `c :: text`, found by the first rule that applies. -/
def next (c : Char) (text : List Char) : Lexeme :=
  match directive? (c :: text) with
  | some length => ⟨.directive, length⟩
  | none =>
  match comment? (c :: text) with
  | some length => ⟨.comment, length⟩
  | none =>
  match string? (c :: text) with
  | some length => ⟨.string, length⟩
  | none =>
  match arrow? (c :: text) with
  | some (arrow, length) => ⟨.arrow arrow, length⟩
  | none =>
  match number? (c :: text) with
  | some length => ⟨.number, length⟩
  | none =>
  match delimiter? (c :: text) with
  | some (kind, length) => ⟨kind, length⟩
  | none => ⟨.identifier, word c text⟩

end Lexeme

end DiagramCheck
