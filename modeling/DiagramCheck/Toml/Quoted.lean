/-
# TOML strings

Strings come in four forms. Double quotes take escapes and single quotes do
not; three quotes open a string that may run over several lines, in which one
or two quotes stand for themselves. A newline right after the opening quotes is
dropped, and in the form with escapes a backslash at the end of a line joins it
with the next text.

A newline is a line feed, alone or after a carriage return, and a string over
several lines keeps its newlines as they are. No other control character but the
tab may stand in a string.

Each reader takes the characters after the opening quotes and gives the text
and what follows the closing quotes.
-/

namespace DiagramCheck.Toml

/-- A blank within a line. -/
def isSpace (c : Char) : Bool := c == ' ' || c == '\t'

/-- A character that may stand in a string or a comment of one line. -/
def isPrintable (c : Char) : Bool := c == '\t' || (0x20 ≤ c.toNat && c.toNat != 0x7F)

/-- What follows the newline at the front of a text. -/
def afterNewline? : List Char → Option (List Char)
  | '\n' :: rest => some rest
  | '\r' :: '\n' :: rest => some rest
  | _ => none

/-- The value of a hexadecimal digit. -/
def hexValue? (c : Char) : Option Nat :=
  if '0' ≤ c ∧ c ≤ '9' then some (c.toNat - '0'.toNat)
  else if 'a' ≤ c ∧ c ≤ 'f' then some (c.toNat - 'a'.toNat + 10)
  else if 'A' ≤ c ∧ c ≤ 'F' then some (c.toNat - 'A'.toNat + 10)
  else none

/-- The value of some hexadecimal digits. -/
def hexNumber? (digits : List Char) : Option Nat :=
  digits.foldlM (fun value c => (hexValue? c).map (value * 16 + ·)) 0

/-- The character named by `count` hexadecimal digits. -/
def codePoint? (count : Nat) (text : List Char) : Option (Char × List Char) :=
  if text.length < count then none
  else
    match hexNumber? (text.take count) with
    | some value => if value.isValidChar then some (Char.ofNat value, text.drop count) else none
    | none => none

/-- The character an escape stands for, after the backslash. -/
def escape? : List Char → Option (Char × List Char)
  | [] => none
  | mark :: rest =>
    match mark with
    | 'b' => some ('\x08', rest)
    | 't' => some ('\t', rest)
    | 'n' => some ('\n', rest)
    | 'f' => some ('\x0c', rest)
    | 'r' => some ('\r', rest)
    | 'e' => some ('\x1b', rest)
    | '"' => some ('"', rest)
    | '\\' => some ('\\', rest)
    | 'x' => codePoint? 2 rest
    | 'u' => codePoint? 4 rest
    | 'U' => codePoint? 8 rest
    | _ => none

theorem codePoint?_length_le {count : Nat} {text rest : List Char} {c : Char}
    (read : codePoint? count text = some (c, rest)) : rest.length ≤ text.length := by
  unfold codePoint? at read
  repeat' split at read
  all_goals first
    | contradiction
    | (obtain ⟨_, rfl⟩ := Prod.mk.inj (Option.some.inj read)
       simp)

theorem escape?_length_lt {text rest : List Char} {c : Char}
    (read : escape? text = some (c, rest)) : rest.length < text.length := by
  unfold escape? at read
  split at read
  · contradiction
  · split at read
    all_goals first
      | contradiction
      | exact Nat.lt_succ_of_le (codePoint?_length_le read)
      | (obtain ⟨_, rfl⟩ := Prod.mk.inj (Option.some.inj read)
         simp)

/-- Puts characters in front of what a reader read. -/
def prepend (front : List Char) : Option (List Char × List Char) → Option (List Char × List Char)
  | none => none
  | some (text, rest) => some (front ++ text, rest)

/-- Reads a string in double quotes. -/
def readBasic : List Char → Option (List Char × List Char)
  | [] => none
  | c :: rest =>
    if c = '"' then some ([], rest)
    else if c = '\\' then
      match _ : escape? rest with
      | none => none
      | some (meant, after) => prepend [meant] (readBasic after)
    else if isPrintable c then prepend [c] (readBasic rest)
    else none
termination_by text => text.length
decreasing_by
  · exact Nat.lt_succ_of_lt (escape?_length_lt (by assumption))
  · exact Nat.lt_succ_self _

/-- Reads a string in single quotes. -/
def readLiteral : List Char → Option (List Char × List Char)
  | [] => none
  | c :: rest =>
    if c = '\'' then some ([], rest)
    else if isPrintable c then prepend [c] (readLiteral rest)
    else none

/-- The quotes of a string over several lines that stand before the three closing ones; `rest`
follows the first three quotes. -/
def closeBlock (quote : Char) (rest : List Char) : List Char × List Char :=
  let spare := (rest.take 2).takeWhile (· == quote)
  (spare, rest.drop spare.length)

/-- Whether a text begins with two quotes of a kind. -/
def twoQuotes (quote : Char) (text : List Char) : Bool := (text.take 2) == [quote, quote]

/-- What follows the blanks and newlines at the front of a text. -/
def skipBlankLines : List Char → List Char
  | '\r' :: '\n' :: rest => skipBlankLines rest
  | c :: rest => if isSpace c ∨ c = '\n' then skipBlankLines rest else c :: rest
  | [] => []

/-- What follows the backslash at the end of a line, up to the next text. -/
def joinLines? (rest : List Char) : Option (List Char) :=
  (afterNewline? (rest.dropWhile isSpace)).map skipBlankLines

theorem afterNewline?_length_lt {text rest : List Char} (found : afterNewline? text = some rest) :
    rest.length < text.length := by
  unfold afterNewline? at found
  split at found
  all_goals first
    | contradiction
    | (obtain rfl := Option.some.inj found
       simp only [List.length_cons]
       omega)

theorem skipBlankLines_length_le (text : List Char) :
    (skipBlankLines text).length ≤ text.length := by
  induction text using skipBlankLines.induct with
  | case1 rest ih => simp only [skipBlankLines, List.length_cons]; omega
  | case2 c rest _ blank ih => simp only [skipBlankLines, blank, if_true, List.length_cons]; omega
  | case3 c rest _ other => simp only [skipBlankLines, other, if_false, Nat.le_refl]
  | case4 => simp only [skipBlankLines, Nat.le_refl]

theorem joinLines?_length_le {rest after : List Char} (joined : joinLines? rest = some after) :
    after.length ≤ rest.length := by
  unfold joinLines? at joined
  obtain ⟨tail, found, rfl⟩ := Option.map_eq_some_iff.mp joined
  have dropped := (List.dropWhile_suffix isSpace (l := rest)).length_le
  have shorter := afterNewline?_length_lt found
  have skipped := skipBlankLines_length_le tail
  omega

/-- Whether a character may stand for itself in a string over several lines. A carriage return may
when a line feed follows. -/
def standsInBlock (c : Char) (rest : List Char) : Bool :=
  isPrintable c || c == '\n' || (c == '\r' && rest.head? == some '\n')

/-- Reads a string in three double quotes. -/
def readBasicBlock : List Char → Option (List Char × List Char)
  | [] => none
  | c :: rest =>
    if c = '"' then
      if twoQuotes '"' rest then some (closeBlock '"' (rest.drop 2))
      else prepend [c] (readBasicBlock rest)
    else if c = '\\' then
      match _ : joinLines? rest with
      | some after => readBasicBlock after
      | none =>
        match _ : escape? rest with
        | none => none
        | some (meant, after) => prepend [meant] (readBasicBlock after)
    else if standsInBlock c rest then prepend [c] (readBasicBlock rest)
    else none
termination_by text => text.length
decreasing_by
  · exact Nat.lt_succ_self _
  · exact Nat.lt_succ_of_le (joinLines?_length_le (by assumption))
  · exact Nat.lt_succ_of_lt (escape?_length_lt (by assumption))
  · exact Nat.lt_succ_self _

/-- Reads a string in three single quotes. -/
def readLiteralBlock : List Char → Option (List Char × List Char)
  | [] => none
  | c :: rest =>
    if c = '\'' ∧ twoQuotes '\'' rest then some (closeBlock '\'' (rest.drop 2))
    else if standsInBlock c rest then prepend [c] (readLiteralBlock rest)
    else none

/-- A text without a newline at its front. -/
def dropNewline (text : List Char) : List Char := (afterNewline? text).getD text

/-- Reads a string of any form from its first quote on. -/
def readString (text : List Char) : Option (String × List Char) :=
  let read :=
    match text with
    | '"' :: rest =>
      if twoQuotes '"' rest then readBasicBlock (dropNewline (rest.drop 2)) else readBasic rest
    | '\'' :: rest =>
      if twoQuotes '\'' rest then readLiteralBlock (dropNewline (rest.drop 2))
      else readLiteral rest
    | _ => none
  read.map fun (value, rest) => (String.ofList value, rest)

end DiagramCheck.Toml
