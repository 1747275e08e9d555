/-
# UTF-8

A character is written as one byte, or as a lead byte and one to three
continuation bytes. The lead byte fixes how many continuation bytes are owed
and bounds the first of them more narrowly than the rest, which rules out
overlong forms, surrogates and values beyond the last code point.

Bytes are cut into pieces from the front. A piece is a character, a run of
bytes that begins no character, or a character cut off by the end of the input.
Bytes are UTF-8 when every piece is a character; the first other piece is the
defect. Lossy decoding puts the replacement character in its place instead.
-/

namespace DiagramCheck.Text.Utf8

/-- What a lead byte announces: the continuation bytes owed, the least and the greatest value of
the first of them, and the bits that the lead byte itself contributes. -/
structure Lead where
  owed : Nat
  low : Nat
  high : Nat
  bits : Nat
  deriving DecidableEq, Repr

/-- The lead byte `byte`, unless no character begins with it. -/
def lead? (byte : UInt8) : Option Lead :=
  let n := byte.toNat
  if n < 0x80 then some ⟨0, 0x80, 0xBF, n⟩
  else if n < 0xC2 then none
  else if n < 0xE0 then some ⟨1, 0x80, 0xBF, n - 0xC0⟩
  else if n = 0xE0 then some ⟨2, 0xA0, 0xBF, 0⟩
  else if n = 0xED then some ⟨2, 0x80, 0x9F, 0xD⟩
  else if n < 0xF0 then some ⟨2, 0x80, 0xBF, n - 0xE0⟩
  else if n = 0xF0 then some ⟨3, 0x90, 0xBF, 0⟩
  else if n < 0xF4 then some ⟨3, 0x80, 0xBF, n - 0xF0⟩
  else if n = 0xF4 then some ⟨3, 0x80, 0x8F, 4⟩
  else none

/-- A piece of a byte sequence. -/
inductive Piece
  /-- A character. -/
  | scalar (c : Char)
  /-- Bytes that begin no character, as many as a decoder reads before it can tell. -/
  | broken (length : Nat)
  /-- The beginning of a character, cut off by the end of the input. -/
  | cut
  deriving DecidableEq, Repr

/-- Reads the continuation bytes that are owed. The bits read so far are `value` and the bytes
read so far number `taken`; the next byte must lie between `low` and `high`. -/
def continuation : (owed low high value taken : Nat) → List UInt8 → Piece × List UInt8
  | 0, _, _, value, _, bytes => (.scalar (Char.ofNat value), bytes)
  | _ + 1, _, _, _, _, [] => (.cut, [])
  | owed + 1, low, high, value, taken, byte :: bytes =>
    if low ≤ byte.toNat ∧ byte.toNat ≤ high then
      continuation owed 0x80 0xBF (value * 64 + (byte.toNat - 0x80)) (taken + 1) bytes
    else (.broken taken, byte :: bytes)

/-- The piece that begins with `byte`, and the bytes after it. -/
def piece (byte : UInt8) (bytes : List UInt8) : Piece × List UInt8 :=
  match lead? byte with
  | none => (.broken 1, bytes)
  | some lead => continuation lead.owed lead.low lead.high lead.bits 1 bytes

theorem continuation_length_le (owed low high value taken : Nat) (bytes : List UInt8) :
    (continuation owed low high value taken bytes).2.length ≤ bytes.length := by
  fun_induction continuation owed low high value taken bytes with
  | case1 => exact Nat.le_refl _
  | case2 => exact Nat.le_refl _
  | case3 _ _ _ _ _ _ _ _ ih => exact Nat.le_succ_of_le ih
  | case4 => exact Nat.le_refl _

theorem piece_length_le (byte : UInt8) (bytes : List UInt8) :
    (piece byte bytes).2.length ≤ bytes.length := by
  unfold piece
  split
  · exact Nat.le_refl _
  · exact continuation_length_le ..

/-- The pieces of a byte sequence, in order. -/
def pieces : List UInt8 → List Piece
  | [] => []
  | byte :: bytes => (piece byte bytes).1 :: pieces (piece byte bytes).2
termination_by bytes => bytes.length
decreasing_by exact Nat.lt_succ_of_le (piece_length_le byte bytes)

/-- Why a byte sequence is not UTF-8. -/
inductive Defect
  /-- The bytes at `index` begin no character; `length` of them tell. -/
  | invalid (index length : Nat)
  /-- The input ends inside the character at `index`. -/
  | incomplete (index : Nat)
  deriving DecidableEq, Repr

/-- The wording of a defect. -/
def Defect.message : Defect → String
  | .invalid index length => s!"invalid utf-8 sequence of {length} bytes from index {index}"
  | .incomplete index => s!"incomplete utf-8 byte sequence from index {index}"

/-- The first defect among the pieces that begin at byte `index`. -/
def firstDefect? (index : Nat) : List Piece → Option Defect
  | [] => none
  | .scalar c :: rest => firstDefect? (index + c.utf8Size) rest
  | .broken length :: _ => some (.invalid index length)
  | .cut :: _ => some (.incomplete index)

/-- The replacement character. -/
def replacement : Char := Char.ofNat 0xFFFD

/-- A piece as a character, the replacement character where it is none. -/
def Piece.toChar : Piece → Char
  | .scalar c => c
  | .broken _ => replacement
  | .cut => replacement

/-- The text of a byte sequence with the replacement character for every defect. -/
def decodeLossy (bytes : List UInt8) : String := String.ofList ((pieces bytes).map Piece.toChar)

/-- The text of a byte sequence, or the first reason why it is not UTF-8. -/
def decode (bytes : List UInt8) : Except Defect String :=
  match firstDefect? 0 (pieces bytes) with
  | some defect => .error defect
  | none => .ok (decodeLossy bytes)

/-- The bytes of a text. -/
def encode (text : String) : List UInt8 := text.toList.flatMap String.utf8EncodeChar

end DiagramCheck.Text.Utf8
