/-
# Numerals

Numbers are written in decimal. A whole number is a run of digits and means
what it says, leading zeros included. A decimal may have a minus sign and a
fraction; its meaning is the binary64 number nearest to it, the even one of two
that are equally near, and infinity beyond the largest finite one.

Rounding is exact: a decimal is a quotient of natural numbers, and the quotient
is scaled by a power of two until it has the 53 significant bits that binary64
holds, or as many as the smallest exponent leaves.
-/

namespace DiagramCheck.Text

/-- The value of a run of digits. -/
def digitsValue (digits : List Char) : Nat :=
  digits.foldl (fun value c => value * 10 + (c.toNat - '0'.toNat)) 0

/-- The whole number a text writes: one digit or more and nothing else. -/
def natural? (text : String) : Option Nat :=
  let digits := text.toList
  if !digits.isEmpty && digits.all Char.isDigit then some (digitsValue digits) else none

/-- The whole number a text writes, if it fits into `bits` bits. -/
def word? (bits : Nat) (text : String) : Option Nat :=
  (natural? text).filter (· < Nat.pow 2 bits)

/-- A number in the binary64 format, given by its bits. -/
structure Binary64 where
  bits : UInt64
  deriving DecidableEq, Repr

/-- A quotient of natural numbers rounded to the nearest whole number, ties to even. -/
def roundQuotient (numerator denominator : Nat) : Nat :=
  let quotient := numerator / denominator
  let twice := 2 * (numerator % denominator)
  if denominator < twice ∨ (denominator = twice ∧ quotient % 2 = 1) then quotient + 1
  else quotient

namespace Binary64

/-- The bits of infinity without its sign. -/
def infinityBits : Nat := 0x7FF0000000000000

/-- The bit that marks a negative number. -/
def signBit : Nat := 0x8000000000000000

/-- The leading bit of a significand, which normal numbers leave unwritten. -/
def hiddenBit : Nat := 0x10000000000000

/-- The bits of a number without its sign. -/
def unsignedBits (number : Binary64) : Nat := number.bits.toNat % signBit

/-- A number is finite when its exponent field is not the greatest. -/
def isFinite (number : Binary64) : Bool := number.unsignedBits < infinityBits

/-- The greatest whole number whose power of two does not exceed a positive quotient. -/
def exponent (numerator denominator : Nat) : Int :=
  let guess : Int := (numerator.log2 : Int) - denominator.log2
  if denominator * Nat.pow 2 guess.toNat ≤ numerator * Nat.pow 2 (-guess).toNat then guess
  else guess - 1

/-- The bits of the number nearest to a positive quotient, its sign left out. The quotient is
scaled by two to the power `scale`, which leaves 53 significant bits, fewer below the smallest
normal number. -/
def nearestBits (numerator denominator : Nat) : Nat :=
  let scale := min 1074 (52 - exponent numerator denominator)
  let significand :=
    roundQuotient (numerator * Nat.pow 2 scale.toNat) (denominator * Nat.pow 2 (-scale).toNat)
  min infinityBits ((1074 - scale).toNat * hiddenBit + significand)

/-- The number nearest to a quotient with a sign. -/
def ofQuotient (negative : Bool) (numerator denominator : Nat) : Binary64 :=
  let magnitude := if numerator = 0 then 0 else nearestBits numerator denominator
  ⟨UInt64.ofNat (magnitude + if negative then signBit else 0)⟩

end Binary64

/-- A decimal as written: its sign, its digits without the point, and how many follow the point. -/
structure Decimal where
  negative : Bool
  digits : Nat
  places : Nat
  deriving DecidableEq, Repr

namespace Decimal

/-- The unsigned decimal a text writes. -/
def ofUnsigned? (negative : Bool) (text : List Char) : Option Decimal :=
  let whole := text.takeWhile Char.isDigit
  match whole, text.dropWhile Char.isDigit with
  | [], _ => none
  | _, [] => some ⟨negative, digitsValue whole, 0⟩
  | _, '.' :: fraction =>
    if fraction.isEmpty || !fraction.all Char.isDigit then none
    else some ⟨negative, digitsValue (whole ++ fraction), fraction.length⟩
  | _, _ => none

/-- The decimal a text writes. -/
def ofText? (text : String) : Option Decimal :=
  match text.toList with
  | '-' :: rest => ofUnsigned? true rest
  | rest => ofUnsigned? false rest

/-- The binary64 number nearest to a decimal. -/
def toBinary64 (decimal : Decimal) : Binary64 :=
  .ofQuotient decimal.negative decimal.digits (Nat.pow 10 decimal.places)

end Decimal

end DiagramCheck.Text
