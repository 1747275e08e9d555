/-
# TOML numbers

A number is known by its form, and its value is worked out only when something
asks for it. Until then its digits may still turn out to make no number, or one
that is out of range.

The form of a whole number in base sixteen, eight or two is the mark of the base
and digits of it, possibly none. That of one in decimal is a run of digits and
whatever follows an underscore after it; no space, fraction or exponent is part
of it, and a zero leads no other digit. A number with a fraction or an exponent
has digits on both sides of its point and after the mark of the exponent.
Underscores group digits.

A whole number has a value when digits of its base are all there is and it fits
into 128 bits, with the sign or without. A number with a fraction or an exponent
must not exceed what binary64 can hold.
-/

import DiagramCheck.Text.Numeral
import DiagramCheck.Toml.Quoted

namespace DiagramCheck.Toml

/-! ## Digits -/

/-- A digit in a base up to sixteen. -/
def isDigitIn (base : Nat) (c : Char) : Bool := (hexValue? c).any (· < base)

/-- The value of a run of digits in some base. -/
def valueIn (base : Nat) (digits : List Char) : Nat :=
  digits.foldl (fun value c => value * base + (hexValue? c).getD 0) 0

/-- Splits off the sign; the first part says whether it is a minus. -/
def splitSign : List Char → Bool × List Char
  | '-' :: rest => (true, rest)
  | '+' :: rest => (false, rest)
  | text => (false, text)

/-- A digit or an underscore. -/
def isGrouped (isDigit : Char → Bool) (c : Char) : Bool := isDigit c || c == '_'

/-- A text without its underscores. -/
def ungrouped (text : List Char) : List Char := text.filter (· != '_')

/-- Whether every underscore stands between two digits; `opened` says whether the front of the text
counts as a place after a digit. -/
def groupsFit (isDigit : Char → Bool) : (opened : Bool) → List Char → Bool
  | _, [] => true
  | opened, c :: rest =>
    if c = '_' then opened && rest.head?.any isDigit && groupsFit isDigit false rest
    else groupsFit isDigit (isDigit c) rest

/-! ## Forms -/

/-- The form of a number, which says how its characters are to be read. -/
inductive NumberForm
  /-- A whole number in some base. -/
  | whole (base : Nat)
  /-- A decimal with a fraction, an exponent or both. -/
  | fractional
  /-- Infinity or no number at all, which count as numbers. -/
  | special
  deriving DecidableEq, Repr

/-- A number by its form. The characters are those of the document without underscores and without
the mark of the base. -/
structure Number where
  form : NumberForm
  written : List Char
  deriving DecidableEq, Repr

/-- The base that a letter after a zero marks. -/
def baseOf? : Char → Option Nat
  | 'x' => some 16
  | 'o' => some 8
  | 'b' => some 2
  | _ => none

/-- Splits off the mark of a base. -/
def splitBase? : List Char → Option (Nat × List Char)
  | '0' :: mark :: rest => (baseOf? mark).map fun base => (base, rest)
  | _ => none

/-- Whether an unsigned text has the form of a whole number in decimal. -/
def isWhole (text : List Char) : Bool :=
  let rest := text.dropWhile Char.isDigit
  !text.isEmpty && (text.length == 1 || text.head? != some '0') &&
    (rest.isEmpty || (rest.head? == some '_' && !rest.contains ' '))

/-- What follows a run of digits and underscores that has a digit. Unless it is `padded`, a run of
several digits has no zero at its front. -/
def afterDigits? (padded : Bool) (text : List Char) : Option (List Char) :=
  let digits := ungrouped (text.takeWhile (isGrouped Char.isDigit))
  if digits.isEmpty || (!padded && 1 < digits.length && text.head? == some '0') then none
  else some (text.dropWhile (isGrouped Char.isDigit))

/-- The mark of an exponent. -/
def isExponentMark (c : Char) : Bool := c == 'e' || c == 'E'

/-- What follows a fraction at the front of a text, if there is one. -/
def afterFraction? : List Char → Option (List Char)
  | '.' :: rest => afterDigits? true rest
  | rest => some rest

/-- What follows an exponent at the front of a text, if there is one. -/
def afterExponent? : List Char → Option (List Char)
  | [] => some []
  | c :: rest => if isExponentMark c then afterDigits? true (splitSign rest).2 else some (c :: rest)

/-- Whether an unsigned text is a run of digits with an optional fraction and an optional
exponent. -/
def isFractional (text : List Char) : Bool :=
  ((afterDigits? false text).bind afterFraction?).bind afterExponent? == some []

/-- The number that a text has the form of. Letters up to `f` count as digits around the underscores
of a whole number, and a sign may stand before an underscore. -/
def number? (text : List Char) : Option Number :=
  let unsigned := (splitSign text).2
  let signed := unsigned.length < text.length
  match splitBase? text with
  | some (base, digits) =>
    if digits.all (isGrouped (isDigitIn base)) && groupsFit (isDigitIn base) false digits then
      some ⟨.whole base, ungrouped digits⟩
    else none
  | none =>
    if unsigned = ['i', 'n', 'f'] ∨ unsigned = ['n', 'a', 'n'] then some ⟨.special, text⟩
    else if unsigned.any fun c => c == '.' || isExponentMark c then
      if isFractional unsigned && groupsFit Char.isDigit signed unsigned then
        some ⟨.fractional, ungrouped text⟩
      else none
    else if isWhole unsigned && groupsFit (isDigitIn 16) signed unsigned then
      some ⟨.whole 10, ungrouped text⟩
    else none

/-! ## Values -/

/-- Whether a text is a whole number in some base that fits into 128 bits. -/
def isWholeIn (base : Nat) (text : List Char) : Bool :=
  let (negative, digits) := splitSign text
  !digits.isEmpty && digits.all (isDigitIn base) &&
    if negative then valueIn base digits ≤ Nat.pow 2 127 else valueIn base digits < Nat.pow 2 128

/-- The digits of a number with a fraction or an exponent as a whole number, and the power of ten by
which it is to be multiplied. -/
def significandAndPower (text : List Char) : Nat × Int :=
  let unsigned := (splitSign text).2
  let mantissa := unsigned.takeWhile (!isExponentMark ·)
  let places := (mantissa.dropWhile (· != '.')).tail
  let (negative, exponent) := splitSign (unsigned.dropWhile (!isExponentMark ·)).tail
  let power : Int := valueIn 10 exponent
  (valueIn 10 (mantissa.takeWhile (· != '.') ++ places),
    (if negative then -power else power) - places.length)

/-- Whether a whole number times a power of ten is within what binary64 can hold. -/
def isWithinRange (significand : Nat) (power : Int) : Bool :=
  let place := (Nat.repr significand).length + power
  significand == 0 || place < -400 ||
    (place < 400 &&
      Text.Binary64.nearestBits (significand * Nat.pow 10 power.toNat)
        (Nat.pow 10 (-power).toNat) < Text.Binary64.infinityBits)

/-- Whether a number has a value. -/
def Number.hasValue (number : Number) : Bool :=
  match number.form with
  | .whole base => isWholeIn base number.written
  | .fractional =>
    let (significand, power) := significandAndPower number.written
    isWithinRange significand power
  | .special => true

end DiagramCheck.Toml
