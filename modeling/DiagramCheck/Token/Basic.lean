/-
# Tokens

A token is a piece of the source text with its kind and its place. The text is
kept as written, so a quoted string still has its quotes; `value` is what the
token stands for, which for a string is the text between them.

A string or a directive that is never closed runs to the end of the input. Both
are recognised afterwards from the text of the token alone.

Every text has tokens, however malformed: blanks are passed over, and from any
other character on the next lexeme is cut off. A word that is a keyword becomes
a token of that kind. The list always ends with the end of the input and holds
comments and directives as well.
-/

import DiagramCheck.Source
import DiagramCheck.Token.Lexeme

namespace DiagramCheck

/-- A piece of the source text with its kind and its place. -/
structure Token where
  kind : TokenKind
  text : String
  position : Position
  deriving DecidableEq, Repr

namespace Token

/-- The line a token starts on. -/
abbrev line (token : Token) : Nat := token.position.line

/-- The column a token starts at. -/
abbrev column (token : Token) : Nat := token.position.column

/-- The byte a token starts at. -/
abbrev offset (token : Token) : Nat := token.position.offset

/-- The byte after a token. -/
def stop (token : Token) : Nat := token.offset + token.text.utf8ByteSize

/-- The bytes a token covers. -/
def span (token : Token) : Span := ⟨token.offset, token.stop, Nat.le_add_right ..⟩

/-- The line a token ends on, which differs from its first only for texts that span lines. -/
def endLine (token : Token) : Nat := token.line + token.text.toList.count '\n'

/-- The end of the input, as a token without text. -/
def endOfInput (position : Position) : Token := ⟨.endOfInput, "", position⟩

/-- The text of a quoted string without its quotes; the closing one may be missing. -/
def unquote : List Char → List Char
  | [] => []
  | quote :: body => if body.getLast? = some quote then body.dropLast else body

/-- What a token stands for: the inner text of a string, the text itself otherwise. -/
def value (token : Token) : String :=
  if token.kind = .string then String.ofList (unquote token.text.toList) else token.text

/-- A quoted text is unterminated when it does not end in another quote like its first. -/
def lacksClosingQuote : List Char → Bool
  | [] => true
  | quote :: body => body.getLast? != some quote

/-- A string is unterminated when its closing quote is missing. -/
def isUnterminatedString (token : Token) : Bool :=
  token.kind == .string && lacksClosingQuote token.text.toList

/-- A directive is unterminated when it does not end in the closing mark. -/
def isUnterminatedDirective (token : Token) : Bool :=
  token.kind == .directive &&
    !(6 ≤ token.text.utf8ByteSize && ['\x7d', '%', '%'].isSuffixOf token.text.toList)

/-- A token left open: a string or a directive that runs to the end of the input. -/
def isOpen (token : Token) : Bool :=
  token.isUnterminatedString || token.isUnterminatedDirective

/-- A name may begin with an ASCII letter or digit, an underscore or any character beyond ASCII. -/
def startsName (c : Char) : Bool := c.isAlphanum || c == '_' || 0x80 ≤ c.toNat

/-- A token usable as the name of a node, a participant or a block. Keywords are names as well. -/
def isName (token : Token) : Bool :=
  match token.kind with
  | .number | .participant | .header _ => true
  | .identifier => token.text.toList.head?.any startsName
  | _ => false

/-- An identifier written exactly as `word`. -/
def isWord (token : Token) (word : String) : Bool :=
  token.kind == .identifier && token.text == word

/-- An identifier written as `word`, the case of ASCII letters aside; `word` is in lower case. -/
def isWordIgnoringCase (token : Token) (word : String) : Bool :=
  token.kind == .identifier && String.ofList (token.text.toList.map Char.toLower) == word

/-! ## The tokens of a source -/

/-- The token for a lexeme written `text`: a word may turn out to be a keyword. -/
def ofLexeme (kind : TokenKind) (text : List Char) (position : Position) : Token :=
  let text := String.ofList text
  ⟨if kind = .identifier then .ofWord text else kind, text, position⟩

/-- The tokens of a text that begins at `position`, the end of the input last. -/
def stream (position : Position) : List Char → List Token
  | [] => [endOfInput position]
  | c :: text =>
    if Text.isBlank c then stream (position.step c) text
    else
      let lexeme := Lexeme.next c text
      let more := lexeme.length - 1
      let written := c :: text.take more
      ofLexeme lexeme.kind written position :: stream (position.after written) (text.drop more)
termination_by text => text.length

/-- The tokens of a source, comments, directives and the end of the input included. -/
def tokenize (source : String) : List Token := stream .start source.toList

end Token

end DiagramCheck
