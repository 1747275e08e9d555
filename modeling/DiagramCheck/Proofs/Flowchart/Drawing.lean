/-
# Drawings

A drawing is a flowchart as one would write it down: a header word, perhaps a
direction, and a tree of lines. A line is a chain of nodes and the links between
them, or a subgraph with lines of its own. Names and captions are texts that can be
written without further ado, and subgraphs do not nest too deep, so every drawing
can be printed.

A node carries its shape and a link its stroke. How these are written, and which
words are taken, is listed here once more and not looked up in the tables that
diagrams are read with. Without its positions, the flowchart that a drawing stands
for can so be told from the drawing alone.

A drawing prints as one row of text for each chain, and two rows around the rows of
each subgraph.
-/

import DiagramCheck.Flowchart.Tree

namespace DiagramCheck

/-! ## Flowcharts without positions -/

namespace Element

mutual

/-- An element as if it stood at the start of the source. -/
def unplaced : Element → Element
  | .node n => .node { n with position := .start }
  | .link l => .link { l with position := .start }
  | .subgraph heading elements =>
    .subgraph { heading with position := .start } (unplacedAll elements)

/-- The elements of a list as if they all stood at the start of the source. -/
def unplacedAll : List Element → List Element
  | [] => []
  | element :: rest => unplaced element :: unplacedAll rest

end

end Element

/-- A flowchart as if everything in it stood at the start of the source. -/
def Flowchart.unplaced (chart : Flowchart) : Flowchart :=
  { chart with elements := Element.unplacedAll chart.elements }

/-! ## How shapes and strokes are written -/

/-- What stands between the name and the label of a node. -/
def Shape.opening : Shape → String
  | .rectangle => "["
  | .round => "("
  | .diamond => "\x7b"
  | .circle => "(("
  | .subroutine => "[["
  | .hexagon => "\x7b\x7b"

/-- What stands behind the label of a node. -/
def Shape.closing : Shape → String
  | .rectangle => "]"
  | .round => ")"
  | .diamond => "\x7d"
  | .circle => "))"
  | .subroutine => "]]"
  | .hexagon => "\x7d\x7d"

/-- How the links of a stroke are written. -/
def Stroke.spellings : Stroke → List String
  | .plain => ["-->"]
  | .dotted => ["-.->", "-..->"]
  | .thick => ["==>"]
  | .line => ["---"]

namespace Flowchart

/-! ## Words that are taken -/

/-- A word with all its letters small. -/
def inSmallLetters (word : String) : String := String.ofList (word.toList.map Char.toLower)

/-- The words that begin a flowchart, in small letters. -/
def flowchartWords : List String := ["flowchart", "graph"]

/-- The words that begin other diagrams, in small letters. -/
def otherHeaderWords : List String :=
  ["sequencediagram", "classdiagram", "classdiagram-v2", "statediagram", "statediagram-v2",
    "erdiagram", "pie", "journey", "gantt", "gitgraph", "mindmap", "timeline", "xychart-beta",
    "block-beta"]

/-- The words that begin a decoration. -/
def decorationWords : List String :=
  ["classDef", "class", "linkStyle", "style", "click", "note", "direction", "title"]

/-- A word that can be written for a name: a letter and then letters, digits and underscores, but
neither a word that opens or closes a diagram or a subgraph nor one that begins a decoration. -/
def isFreeName (word : String) : Bool :=
  word.toList.head?.any Char.isAlpha && word.toList.all (fun c => c.isAlphanum || c == '_') &&
    !(flowchartWords ++ otherHeaderWords).contains (inSmallLetters word) && word != "subgraph" &&
    inSmallLetters word != "end" && !decorationWords.contains word

namespace Drawing

/-! ## Lines -/

/-- The name of a node or a subgraph. -/
structure Name where
  text : String
  free : isFreeName text = true
  deriving DecidableEq, Repr

/-- A word that begins a flowchart. -/
structure HeaderWord where
  text : String
  header : inSmallLetters text ∈ flowchartWords
  deriving DecidableEq, Repr

/-- A text that can stand between double quotes on one line. -/
structure Caption where
  text : String
  unquoted : '"' ∉ text.toList
  single : '\n' ∉ text.toList
  deriving DecidableEq, Repr

/-- A caption between double quotes. -/
def Caption.print (caption : Caption) : String := "\"" ++ caption.text ++ "\""

/-- A node with its name and perhaps a caption in the brackets of its shape. -/
structure Node where
  name : Name
  label : Option (Shape × Caption)
  deriving DecidableEq, Repr

/-- A link with its stroke, one of the ways to write it, and perhaps a caption. -/
structure Link where
  stroke : Stroke
  mark : String
  spelled : mark ∈ stroke.spellings
  label : Option Caption
  deriving DecidableEq, Repr

/-- A line of a drawing: nodes with links between them, or a subgraph with lines of its own. -/
inductive Line
  | chain (first : Node) (rest : List (Link × Node))
  | subgraph (name : Name) (title : Option Caption) (body : List Line)
  deriving Repr

namespace Line

mutual

/-- How deep the subgraphs of a line nest. -/
def depth : Line → Nat
  | .chain _ _ => 0
  | .subgraph _ _ body => depthAll body + 1

/-- How deep the subgraphs of some lines nest. -/
def depthAll : List Line → Nat
  | [] => 0
  | line :: rest => max (depth line) (depthAll rest)

end

end Line

/-! ## Printing -/

/-- A node as it is written. -/
def Node.print (node : Node) : String :=
  match node.label with
  | none => node.name.text
  | some (shape, caption) =>
    node.name.text ++ shape.opening ++ caption.print ++ shape.closing

/-- A link as it is written. -/
def Link.print (link : Link) : String :=
  match link.label with
  | none => link.mark
  | some caption => link.mark ++ "|" ++ caption.print ++ "|"

/-- A row of text. -/
inductive Row
  /-- The header word and perhaps a direction. -/
  | header (word : HeaderWord) (direction : Option Direction)
  /-- Nodes with links between them. -/
  | chain (first : Node) (rest : List (Link × Node))
  /-- The row that opens a subgraph. -/
  | opening (name : Name) (title : Option Caption)
  /-- The row that closes a subgraph. -/
  | closing
  deriving Repr

/-- A row as it is written. -/
def Row.print : Row → String
  | .header word none => word.text
  | .header word (some direction) => word.text ++ " " ++ direction.keyword
  | .chain first rest =>
    first.print ++
      String.join (rest.map fun (link, node) => " " ++ link.print ++ " " ++ node.print)
  | .opening name none => "subgraph " ++ name.text
  | .opening name (some title) => "subgraph " ++ name.text ++ " [" ++ title.print ++ "]"
  | .closing => "end"

namespace Line

mutual

/-- The rows of a line. -/
def rows : Line → List Row
  | .chain first rest => [.chain first rest]
  | .subgraph name title body => .opening name title :: (rowsAll body ++ [.closing])

/-- The rows of some lines, one after the other. -/
def rowsAll : List Line → List Row
  | [] => []
  | line :: rest => rows line ++ rowsAll rest

end

end Line

/-! ## What a drawing stands for -/

/-- The node that is drawn, at some position; without a label it is a rectangle. -/
def Node.placed (node : Node) (position : Position) : DiagramCheck.Node :=
  ⟨node.name.text, node.label.map (·.2.text), (node.label.map (·.1)).getD .rectangle, position⟩

/-- The link that is drawn to a node, at some position. -/
def Link.placed (link : Link) (target : Node) (position : Position) : DiagramCheck.Link :=
  ⟨some target.name.text, link.label.map (·.text), link.stroke, position⟩

/-- The nodes and links of a chain. -/
def chainElements (first : Node) (rest : List (Link × Node)) : List Element :=
  .node (first.placed .start) :: rest.flatMap fun (link, node) =>
    [.link (link.placed node .start), .node (node.placed .start)]

namespace Line

mutual

/-- The elements that a line draws. -/
def elements : Line → List Element
  | .chain first rest => chainElements first rest
  | .subgraph name title body =>
    [.subgraph ⟨name.text, title.map (·.text), .start⟩ (elementsAll body)]

/-- The elements that some lines draw, one after the other. -/
def elementsAll : List Line → List Element
  | [] => []
  | line :: rest => elements line ++ elementsAll rest

end

end Line

end Drawing

/-- A flowchart as one would write it down. -/
structure Drawing where
  header : Drawing.HeaderWord
  direction : Option Direction
  lines : List Drawing.Line
  shallow : Drawing.Line.depthAll lines ≤ 64

namespace Drawing

/-- The rows of a drawing. -/
def rows (drawing : Drawing) : List Row :=
  .header drawing.header drawing.direction :: Line.rowsAll drawing.lines

/-- A drawing as it is written. -/
def print (drawing : Drawing) : String := "\n".intercalate (drawing.rows.map Row.print)

/-- The flowchart that a drawing stands for, without positions. -/
def chart (drawing : Drawing) : Flowchart :=
  ⟨drawing.direction, Line.elementsAll drawing.lines⟩

end Drawing

end Flowchart

end DiagramCheck
