/-
# TOML scalars

A scalar is a value that holds no other: a string, a truth value, a number or a
moment. One without quotes reaches as far as no character separates, opens or
closes anything; blanks belong to it when it goes on after them, as they do
between a date and a time of day.

A moment is a date, a time of day, or both with an optional distance from
universal time. Months have their days, leap years included, and a minute may
have a leap second. The seconds may be left out. Each reader of a part of a moment
gives what follows it.
-/

import DiagramCheck.Toml.Value

namespace DiagramCheck.Toml

/-! ## Moments -/

/-- The number that two digits write. -/
def twoDigits? (tens units : Char) : Option Nat :=
  if tens.isDigit && units.isDigit then some (valueIn 10 [tens, units]) else none

/-- The days of a month. -/
def daysIn (year month : Nat) : Nat :=
  if month = 2 then
    if year % 4 = 0 ∧ (year % 100 ≠ 0 ∨ year % 400 = 0) then 29 else 28
  else if month = 4 ∨ month = 6 ∨ month = 9 ∨ month = 11 then 30
  else 31

/-- What follows the date at the front of a text. -/
def afterDate? : List Char → Option (List Char)
  | y1 :: y2 :: y3 :: y4 :: '-' :: m1 :: m2 :: '-' :: d1 :: d2 :: rest => do
    let century ← twoDigits? y1 y2
    let year ← twoDigits? y3 y4
    let month ← twoDigits? m1 m2
    let day ← twoDigits? d1 d2
    if 1 ≤ month ∧ month ≤ 12 ∧ 1 ≤ day ∧ day ≤ daysIn (century * 100 + year) month then some rest
    else none
  | _ => none

/-- What follows the hours and minutes at the front of a text. -/
def afterMinutes? : List Char → Option (List Char)
  | h1 :: h2 :: ':' :: m1 :: m2 :: rest => do
    let hour ← twoDigits? h1 h2
    let minute ← twoDigits? m1 m2
    if hour ≤ 23 ∧ minute ≤ 59 then some rest else none
  | _ => none

/-- What follows the parts of a second at the front of a text, if there are any. -/
def afterSecondParts? : List Char → Option (List Char)
  | '.' :: c :: rest => if c.isDigit then some (rest.dropWhile Char.isDigit) else none
  | '.' :: [] => none
  | rest => some rest

/-- What follows the seconds at the front of a text, if there are any. -/
def afterSeconds? : List Char → Option (List Char)
  | ':' :: s1 :: s2 :: rest => do
    let second ← twoDigits? s1 s2
    if second ≤ 60 then afterSecondParts? rest else none
  | ':' :: _ => none
  | rest => some rest

/-- What follows the time of day at the front of a text. -/
def afterTime? (text : List Char) : Option (List Char) := do afterSeconds? (← afterMinutes? text)

/-- Whether a text is a distance from universal time. -/
def isOffset : List Char → Bool
  | ['Z'] | ['z'] => true
  | '+' :: rest | '-' :: rest => afterMinutes? rest == some []
  | _ => false

/-- Whether a text is a time of day with an optional distance from universal time. -/
def isTimeWithOffset (text : List Char) : Bool :=
  (afterTime? text).any fun rest => rest.isEmpty || isOffset rest

/-- A character between a date and a time. -/
def joinsTime (c : Char) : Bool := c == 'T' || c == 't' || c == ' '

/-- Whether a text is a moment. -/
def isMoment (text : List Char) : Bool :=
  afterTime? text == some [] ||
    match afterDate? text with
    | some [] => true
    | some (c :: rest) => joinsTime c && isTimeWithOffset rest
    | none => false

/-! ## Scalars -/

/-- A character of a scalar without quotes. -/
def isScalarChar (c : Char) : Bool :=
  !(isSpace c || ['\r', '\n', '#', '=', ',', '[', ']', '\x7b', '\x7d'].contains c)

/-- Whether a scalar without quotes goes on after a blank: more blanks may follow, but no string. -/
def goesOn (rest : List Char) : Bool :=
  (rest.dropWhile isSpace).head?.any fun c => isScalarChar c && c != '"' && c != '\''

/-- Splits off the characters of a scalar without quotes. -/
def splitScalar : List Char → List Char × List Char
  | [] => ([], [])
  | c :: rest =>
    if isScalarChar c || (isSpace c && goesOn rest) then
      let (written, after) := splitScalar rest
      (c :: written, after)
    else ([], c :: rest)

/-- The value of a scalar without quotes. -/
def scalar? (text : List Char) : Option Value :=
  if text = ['t', 'r', 'u', 'e'] then some (.truth true)
  else if text = ['f', 'a', 'l', 's', 'e'] then some (.truth false)
  else
    match number? text with
    | some number => some (.number number)
    | none => if isMoment text then some (.moment (String.ofList text)) else none

/-- Reads a scalar. -/
def readScalar (text : List Char) : Option (Value × List Char) :=
  match text.head? with
  | some '"' | some '\'' => (readString text).map fun (value, rest) => (.text value, rest)
  | _ =>
    let (written, rest) := splitScalar text
    (scalar? written).map fun value => (value, rest)

end DiagramCheck.Toml
