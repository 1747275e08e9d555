/-
# Shortest decimals

A binary64 number is shown by the shortest decimal that reads back as the same
number. Of two decimals of that length the one nearer to the number is taken,
and of two that are equally near the one with the even last digit.

Decimals are tried by their number of digits. Among the decimals with as many
digits only the two around the number have to be looked at, and whether one
reads back is asked of the conversion that reading uses. Seventeen digits
always suffice.
-/

import DiagramCheck.Text.Numeral

namespace DiagramCheck.Text

/-- A positive quotient of natural numbers. -/
structure Quotient where
  numerator : Nat
  denominator : Nat
  deriving DecidableEq, Repr

namespace Quotient

/-- A quotient times a power of ten. -/
def scale (quotient : Quotient) (power : Int) : Quotient :=
  ⟨quotient.numerator * Nat.pow 10 power.toNat,
    quotient.denominator * Nat.pow 10 (-power).toNat⟩

/-- The zeros between the point and the first digit other than zero of a quotient below one, as
far as `limit`. -/
def leadingZeros (quotient : Quotient) : (limit : Nat) → Nat
  | 0 => 0
  | limit + 1 =>
    let next := quotient.numerator * 10
    if quotient.denominator ≤ next then 0
    else leadingZeros ⟨next, quotient.denominator⟩ limit + 1

/-- The number of digits before the point; below one, the zeros after it count against it. -/
def pointPlace (quotient : Quotient) : Int :=
  let whole := quotient.numerator / quotient.denominator
  if whole = 0 then -(leadingZeros quotient 400 : Int) else (Nat.repr whole).length

end Quotient

/-- The significant digits of a positive decimal and the place of the point among them. -/
structure Digits where
  significand : Nat
  pointPlace : Int
  deriving DecidableEq, Repr

namespace Digits

/-- The digits as text. -/
def text (digits : Digits) : List Char := (Nat.repr digits.significand).toList

/-- Whether the digits are written with the point between or beside them. -/
def isPositional (digits : Digits) : Bool := -5 < digits.pointPlace && digits.pointPlace ≤ 16

/-- The digits in positional notation, with a digit on either side of the point. -/
def positional (digits : Digits) : List Char :=
  let text := digits.text
  let place := digits.pointPlace.toNat
  if digits.pointPlace ≤ 0 then
    ['0', '.'] ++ List.replicate (-digits.pointPlace).toNat '0' ++ text
  else if text.length ≤ place then
    text ++ List.replicate (place - text.length) '0' ++ ['.', '0']
  else text.take place ++ '.' :: text.drop place

/-- The digits with the point after the first of them and a power of ten. -/
def scientific (digits : Digits) : List Char :=
  let exponent := digits.pointPlace - 1
  let power := (if exponent < 0 then ['-'] else []) ++ (Nat.repr exponent.natAbs).toList
  match digits.text with
  | [] => 'e' :: power
  | [single] => single :: 'e' :: power
  | first :: rest => first :: '.' :: rest ++ 'e' :: power

/-- The digits as a decimal text. -/
def render (digits : Digits) : List Char :=
  if digits.isPositional then digits.positional else digits.scientific

end Digits

namespace Binary64

/-- The magnitude of a finite number. -/
def magnitude (number : Binary64) : Quotient :=
  let exponentField := number.unsignedBits / hiddenBit
  let fraction := number.unsignedBits % hiddenBit
  if exponentField = 0 then ⟨fraction, Nat.pow 2 1074⟩
  else
    ⟨(hiddenBit + fraction) * Nat.pow 2 (exponentField - 1075),
      Nat.pow 2 (1075 - exponentField)⟩

/-- Whether a number carries a minus sign. -/
def isNegative (number : Binary64) : Bool := signBit ≤ number.bits.toNat

/-- Whether a quotient reads back as a number, its sign left out. -/
def readsBack (number : Binary64) (quotient : Quotient) : Bool :=
  nearestBits quotient.numerator quotient.denominator == number.unsignedBits

/-- A whole number without the zeros at its end. -/
def withoutTrailingZeros (n : Nat) : Nat :=
  if n = 0 ∨ n % 10 ≠ 0 then n else withoutTrailingZeros (n / 10)
termination_by n
decreasing_by omega

/-- The decimals with `count` digits that are nearest to a number and read back, the better one
first. -/
def candidates (number : Binary64) (count : Nat) : List Digits :=
  let place := number.magnitude.pointPlace
  let scaled := number.magnitude.scale (count - place)
  let below := scaled.numerator / scaled.denominator
  let nearest := roundQuotient scaled.numerator scaled.denominator
  let other := if nearest = below then below + 1 else below
  [nearest, other].filterMap fun significand =>
    let power := (Quotient.mk significand 1).scale (place - count)
    if number.readsBack power then some ⟨withoutTrailingZeros significand, power.pointPlace⟩
    else none

/-- The shortest decimal that reads back as a number other than zero. -/
def shortest? (number : Binary64) : Option Digits :=
  if number.magnitude.numerator = 0 then none
  else (List.range' 1 17).findSome? fun count => (number.candidates count).head?

/-- A finite number as a decimal text; zero keeps its sign. -/
def render (number : Binary64) : String :=
  let sign := if number.isNegative then ['-'] else []
  let digits := (number.shortest?.map Digits.render).getD ['0', '.', '0']
  String.ofList (sign ++ digits)

end Binary64

end DiagramCheck.Text
