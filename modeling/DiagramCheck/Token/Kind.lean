/-
# Kinds of tokens

A token is a bracket, a separator, an arrow, a quoted string, a number, a
comment, a directive, a word, or the end of the input. Some words are keywords:
the header words, each of which begins a diagram of one family, and
`participant`. Keywords ignore the case of ASCII letters.

Seven arrows are written in diagrams. A flowchart takes four of them as links,
a sequence diagram six of them as messages.
-/

import DiagramCheck.Diagram.Family

namespace DiagramCheck

/-- The brackets that enclose labels, single or doubled. -/
inductive Bracket
  | square
  | doubleSquare
  | round
  | doubleRound
  | curly
  | doubleCurly
  deriving DecidableEq, Repr

namespace Bracket

/-- How the opening half of a bracket is written. -/
def opening : Bracket → String
  | .square => "["
  | .doubleSquare => "[["
  | .round => "("
  | .doubleRound => "(("
  | .curly => "\x7b"
  | .doubleCurly => "\x7b\x7b"

/-- How the closing half of a bracket is written. -/
def closing : Bracket → String
  | .square => "]"
  | .doubleSquare => "]]"
  | .round => ")"
  | .doubleRound => "))"
  | .curly => "\x7d"
  | .doubleCurly => "\x7d\x7d"

end Bracket

/-- The arrows. -/
inductive Arrow
  /-- The arrow `-->`. -/
  | plain
  /-- The arrow `-->>`. -/
  | dashedOpen
  /-- The link `---`. -/
  | line
  /-- The arrow `-.->`, also written `-..->`. -/
  | dotted
  /-- The arrow `==>`. -/
  | thick
  /-- The arrow `->`. -/
  | short
  /-- The arrow `->>`. -/
  | shortOpen
  deriving DecidableEq, Repr

namespace Arrow

/-- The arrows that link the nodes of a flowchart. -/
def isLink : Arrow → Bool
  | .plain | .line | .dotted | .thick => true
  | .dashedOpen | .short | .shortOpen => false

/-- The arrows that carry the messages of a sequence diagram. -/
def isMessage : Arrow → Bool
  | .line => false
  | .plain | .dashedOpen | .dotted | .thick | .short | .shortOpen => true

end Arrow

/-- The kinds of tokens. -/
inductive TokenKind
  | header (family : Family)
  | participant
  | opening (bracket : Bracket)
  | closing (bracket : Bracket)
  | pipe
  | colon
  | comma
  | semicolon
  | equals
  | arrow (shape : Arrow)
  | identifier
  | string
  | number
  | comment
  | directive
  | endOfInput
  deriving DecidableEq, Repr

namespace TokenKind

/-- The keyword a word is, compared without regard to the case of ASCII letters. -/
def keyword? (word : String) : Option TokenKind :=
  match String.ofList (word.toList.map Char.toLower) with
  | "flowchart" | "graph" => some (.header .flowchart)
  | "sequencediagram" => some (.header .sequence)
  | "classdiagram" | "classdiagram-v2" => some (.header (.unmodelled .classes))
  | "statediagram" | "statediagram-v2" => some (.header (.unmodelled .states))
  | "erdiagram" => some (.header (.unmodelled .entities))
  | "pie" => some (.header (.unmodelled .pie))
  | "journey" => some (.header (.unmodelled .journey))
  | "gantt" => some (.header (.unmodelled .gantt))
  | "gitgraph" => some (.header (.unmodelled .commits))
  | "mindmap" => some (.header (.unmodelled .mindmap))
  | "timeline" => some (.header (.unmodelled .timeline))
  | "xychart-beta" => some (.header .chart)
  | "block-beta" => some (.header .blocks)
  | "participant" => some .participant
  | _ => none

/-- The kind of a word: the keyword it is, or a plain identifier. -/
def ofWord (word : String) : TokenKind := (keyword? word).getD .identifier

/-- The family of diagrams that a header word begins. -/
def family? : TokenKind → Option Family
  | .header family => some family
  | _ => none

/-- A header word begins a diagram. -/
def isHeader (kind : TokenKind) : Bool := kind.family?.isSome

/-- An arrow, whichever diagrams take it. -/
def isArrow : TokenKind → Bool
  | .arrow _ => true
  | _ => false

/-- An arrow that links the nodes of a flowchart. -/
def isLink : TokenKind → Bool
  | .arrow shape => shape.isLink
  | _ => false

/-- An arrow that carries a message of a sequence diagram. -/
def isMessage : TokenKind → Bool
  | .arrow shape => shape.isMessage
  | _ => false

/-- How messages speak of a kind of token. -/
def name : TokenKind → String
  | .header _ => "diagram header"
  | .participant => "'participant'"
  | .opening bracket => s!"'{bracket.opening}'"
  | .closing bracket => s!"'{bracket.closing}'"
  | .pipe => "'|'"
  | .colon => "':'"
  | .comma => "','"
  | .semicolon => "';'"
  | .equals => "'='"
  | .arrow _ => "arrow"
  | .identifier => "identifier"
  | .string => "string"
  | .number => "number"
  | .comment => "comment"
  | .directive => "directive"
  | .endOfInput => "end of input"

end TokenKind

end DiagramCheck
