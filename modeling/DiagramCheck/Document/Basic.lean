/-
# Documents

A document is a JSON value in which whole numbers and binary64 numbers are kept
apart and the fields of a record keep their order. Its text is compact. In
strings the quote, the backslash and the control characters are escaped, the
common ones by a letter; every other character stands for itself. A number that
is not finite has no text of its own and is written `null`.
-/

import DiagramCheck.Text.Shortest

namespace DiagramCheck

/-- A value that results are shown as. -/
inductive Document
  | null
  | truth (value : Bool)
  | whole (value : Nat)
  | real (value : Text.Binary64)
  | text (value : String)
  | list (items : List Document)
  | record (fields : List (String × Document))
  deriving Repr

namespace Document

/-- An optional value, `null` when there is none. -/
def nullable {α : Type} (encode : α → Document) : Option α → Document
  | none => .null
  | some value => encode value

/-- A field that is left out when it has no value. -/
def optionalField {α : Type} (name : String) (encode : α → Document) :
    Option α → List (String × Document)
  | none => []
  | some value => [(name, encode value)]

/-- The hexadecimal digit for a number below sixteen. -/
def hexDigit (n : Nat) : Char :=
  if n < 10 then Char.ofNat ('0'.toNat + n) else Char.ofNat ('a'.toNat + (n - 10))

/-- A character as it stands in a string. -/
def escape (c : Char) : List Char :=
  if c = '"' then ['\\', '"']
  else if c = '\\' then ['\\', '\\']
  else if c = '\n' then ['\\', 'n']
  else if c = '\r' then ['\\', 'r']
  else if c = '\t' then ['\\', 't']
  else if c = '\x08' then ['\\', 'b']
  else if c = '\x0c' then ['\\', 'f']
  else if c.toNat < 0x20 then
    ['\\', 'u', '0', '0', hexDigit (c.toNat / 16), hexDigit (c.toNat % 16)]
  else [c]

/-- A text in quotes. -/
def quote (text : String) : String :=
  String.ofList ('"' :: text.toList.flatMap escape ++ ['"'])

mutual

/-- The text of a document. -/
def render : Document → String
  | .null => "null"
  | .truth value => if value then "true" else "false"
  | .whole value => Nat.repr value
  | .real value => if value.isFinite then value.render else "null"
  | .text value => quote value
  | .list items => "[" ++ String.intercalate "," (renderItems items) ++ "]"
  | .record fields => "\x7b" ++ String.intercalate "," (renderFields fields) ++ "\x7d"

/-- The texts of the items of a list. -/
def renderItems : List Document → List String
  | [] => []
  | item :: rest => render item :: renderItems rest

/-- The texts of the fields of a record. -/
def renderFields : List (String × Document) → List String
  | [] => []
  | (name, value) :: rest => (quote name ++ ":" ++ render value) :: renderFields rest

end

end Document

end DiagramCheck
