/-
# TOML documents

A document is a list of statements, one to a line: a header names a table or
adds one to an array of tables, and an entry gives a key of the table named
last its value. Arrays and inline tables may run over several lines and hold
comments, also around the equals signs of an inline table, and they may be nested
to a fixed depth. Points join a fixed number of keys at most.

A document is read as a whole or not at all.
-/

import DiagramCheck.Toml.Scalar
import DiagramCheck.Toml.Value

namespace DiagramCheck.Toml

/-! ## Layout -/

/-- What follows the blanks at the front of a line. -/
def skipSpaces (text : List Char) : List Char := text.dropWhile isSpace

/-- What follows the blanks, newlines and comments at the front of a text. -/
def skipLayout : (inComment : Bool) → List Char → Option (List Char)
  | _, [] => some []
  | _, '\r' :: '\n' :: rest => skipLayout false rest
  | inComment, c :: rest =>
    if c = '\n' then skipLayout false rest
    else if inComment then if isPrintable c then skipLayout true rest else none
    else if c = '#' then skipLayout true rest
    else if isSpace c then skipLayout false rest
    else some (c :: rest)

/-- What follows the end of a line. -/
def afterLine? : List Char → Option (List Char)
  | [] => some []
  | text => afterNewline? text

/-- What follows the line on which nothing but a comment is left. -/
def endLine? (text : List Char) : Option (List Char) :=
  match skipSpaces text with
  | '#' :: rest => afterLine? (rest.dropWhile isPrintable)
  | rest => afterLine? rest

/-! ## Keys -/

/-- A character of a key without quotes. -/
def isKeyChar (c : Char) : Bool := c.isAlphanum || c == '_' || c == '-'

/-- Reads one key. -/
def readKey : List Char → Option (String × List Char)
  | '"' :: rest => (readBasic rest).map fun (key, rest) => (String.ofList key, rest)
  | '\'' :: rest => (readLiteral rest).map fun (key, rest) => (String.ofList key, rest)
  | text =>
    let key := text.takeWhile isKeyChar
    if key.isEmpty then none else some (String.ofList key, text.dropWhile isKeyChar)

/-- Keys with points between them: all but the last, and the last. -/
structure KeyPath where
  path : List String
  key : String
  deriving DecidableEq, Repr

/-- The greatest number of keys with points between them. -/
def keyLimit : Nat := 80

/-- Reads keys with points between them, at most `limit` of them, and the blanks after them. -/
def readKeyPath : (limit : Nat) → List Char → Option (KeyPath × List Char)
  | 0, _ => none
  | limit + 1, text => do
    let (first, rest) ← readKey text
    match skipSpaces rest with
    | '.' :: rest => do
      let (more, rest) ← readKeyPath limit (skipSpaces rest)
      some (⟨first :: more.path, more.key⟩, rest)
    | rest => some (⟨[], first⟩, rest)

/-! ## Values -/

/-- Reads the items of an array after its opening bracket, at most `limit` of them. -/
def readItems (readItem : List Char → Option (Value × List Char)) :
    (limit : Nat) → List Char → Option (List Value × List Char)
  | 0, _ => none
  | limit + 1, text => do
    match ← skipLayout false text with
    | ']' :: rest => some ([], rest)
    | text => do
      let (item, rest) ← readItem text
      match ← skipLayout false rest with
      | ',' :: rest => do
        let (items, rest) ← readItems readItem limit rest
        some (item :: items, rest)
      | ']' :: rest => some ([item], rest)
      | _ => none

/-- Reads a key path, the equals sign and the value after it; `skip` leaves out what may stand on
both sides of the sign. -/
def readEntry (skip : List Char → Option (List Char))
    (readItem : List Char → Option (Value × List Char)) (text : List Char) :
    Option ((KeyPath × Value) × List Char) := do
  let (path, rest) ← readKeyPath keyLimit text
  match ← skip rest with
  | '=' :: rest => do
    let (value, rest) ← readItem (← skip rest)
    some ((path, value), rest)
  | _ => none

/-- Reads the entries of an inline table after its opening brace, at most `limit` of them, and adds
them to those read before. -/
def readFields (readItem : List Char → Option (Value × List Char)) :
    (limit : Nat) → Entries → List Char → Option (Entries × List Char)
  | 0, _, _ => none
  | limit + 1, entries, text => do
    match ← skipLayout false text with
    | '\x7d' :: rest => some (entries, rest)
    | text => do
      let ((path, value), rest) ← readEntry (skipLayout false) readItem text
      let entries ← entries.defineAlong path.path path.key value
      match ← skipLayout false rest with
      | ',' :: rest => readFields readItem limit entries rest
      | '\x7d' :: rest => some (entries, rest)
      | _ => none

/-- Reads a value in which arrays and inline tables are nested at most `depth` deep. -/
def readValue : (depth : Nat) → List Char → Option (Value × List Char)
  | _, [] => none
  | 0, c :: rest => if c = '[' ∨ c = '\x7b' then none else readScalar (c :: rest)
  | depth + 1, c :: rest =>
    if c = '[' then
      (readItems (readValue depth) (rest.length + 1) rest).map fun (items, rest) =>
        (.list items, rest)
    else if c = '\x7b' then
      (readFields (readValue depth) (rest.length + 1) [] rest).map fun (entries, rest) =>
        (.table .inline entries, rest)
    else readScalar (c :: rest)

/-- The depth to which arrays and inline tables may be nested. -/
def depthLimit : Nat := 80

/-! ## Statements -/

/-- A statement of a document. -/
inductive Statement
  | table (path : KeyPath)
  | tables (path : KeyPath)
  | entry (path : KeyPath) (value : Value)
  deriving Repr

/-- Reads the path of a header and the brackets that close it. -/
def readHeader (closing : List Char) (text : List Char) : Option (KeyPath × List Char) := do
  let (path, rest) ← readKeyPath keyLimit (skipSpaces text)
  if rest.take closing.length = closing then some (path, rest.drop closing.length) else none

/-- Reads a statement from its first character on. -/
def readStatement (text : List Char) : Option (Statement × List Char) :=
  match text with
  | '[' :: '[' :: rest =>
    (readHeader [']', ']'] rest).map fun (path, rest) => (.tables path, rest)
  | '[' :: rest => (readHeader [']'] rest).map fun (path, rest) => (.table path, rest)
  | _ =>
    (readEntry (some ∘ skipSpaces) (readValue depthLimit) text).map fun ((path, value), rest) =>
      (.entry path value, rest)

/-- Reads statements to the end of a text, at most `limit` of them. -/
def readStatements : (limit : Nat) → List Char → Option (List Statement)
  | 0, _ => none
  | limit + 1, text => do
    match ← skipLayout false text with
    | [] => some []
    | text => do
      let (statement, rest) ← readStatement text
      let statements ← readStatements limit (← endLine? rest)
      some (statement :: statements)

/-- The entries of a document and the path of the table named last. -/
structure Progress where
  current : List String
  entries : Entries

/-- A document with one more statement. -/
def Progress.apply (progress : Progress) : Statement → Option Progress
  | .table path => do
    let entries ← progress.entries.openTable path.path path.key
    some ⟨path.path ++ [path.key], entries⟩
  | .tables path => do
    let entries ← progress.entries.openTables path.path path.key
    some ⟨path.path ++ [path.key], entries⟩
  | .entry path value => do
    let define := fun (_ : Origin) (inner : Entries) => inner.defineAlong path.path path.key value
    let entries ← progress.entries.descend .header define progress.current .header
    some ⟨progress.current, entries⟩

/-- A text without a byte order mark at its front. -/
def dropByteOrderMark : List Char → List Char
  | [] => []
  | c :: rest => if c.toNat = 0xFEFF then rest else c :: rest

/-- The entries of the document that a text holds. -/
def read? (text : String) : Option Entries := do
  let characters := dropByteOrderMark text.toList
  let statements ← readStatements (characters.length + 1) characters
  let progress ← statements.foldlM Progress.apply ⟨[], []⟩
  some progress.entries

end DiagramCheck.Toml
