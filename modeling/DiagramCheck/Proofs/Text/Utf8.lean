/-
# What is UTF-8 and what is not

Bytes are the UTF-8 form of a text when the standard encoder yields them. The
pieces of such bytes are the characters of the text. Of any other bytes a front
is the form of a text, and what stands behind it begins with a piece that is no
character. That piece tells the two kinds of defect apart: bytes that are cut
off can be completed to a character, and bytes that are broken stay broken
whatever follows them.

A character's number is read digit by digit to the base 64. The lead byte has the
first digits, and each continuation byte that is owed has one more.

Main statements: `decode_eq_ok_iff` and `exists_defect`.
-/

import DiagramCheck.Proofs.Source.Offset
import DiagramCheck.Text.Utf8

namespace DiagramCheck.Text.Utf8

/-- Bytes that are the UTF-8 form of some text. -/
def IsForm (bytes : List UInt8) : Prop := ∃ source : String, bytes = source.toUTF8.data.toList

/-- The model's encoder is the standard one. -/
theorem encode_eq_toUTF8 (source : String) : encode source = source.toUTF8.data.toList := by
  rw [String.toUTF8_eq_toByteArray, ← String.utf8Encode_toList]
  exact List.toList_data_toByteArray.symm

private theorem isForm_iff {bytes : List UInt8} :
    IsForm bytes ↔ ∃ characters : List Char, bytes = characters.flatMap String.utf8EncodeChar := by
  constructor
  · rintro ⟨source, rfl⟩
    exact ⟨source.toList, (encode_eq_toUTF8 source).symm⟩
  · rintro ⟨characters, rfl⟩
    exact ⟨String.ofList characters, by rw [← encode_eq_toUTF8, encode, String.toList_ofList]⟩

private theorem length_encoded (characters : List Char) :
    (characters.flatMap String.utf8EncodeChar).length = byteLength characters := by
  induction characters with
  | nil => rfl
  | cons c characters ih =>
    rw [List.flatMap_cons, List.length_append, String.length_utf8EncodeChar, ih, byteLength_cons]

section Lead

/-- What a byte of value `n` announces at the head of a character. -/
inductive Announces (n : Nat) : Lead → Prop
  | one (high : n < 0x80) : Announces n ⟨0, 0x80, 0xBF, n⟩
  | two (low : 0xC2 ≤ n) (high : n < 0xE0) : Announces n ⟨1, 0x80, 0xBF, n - 0xC0⟩
  | three (low : 0xE0 ≤ n) (high : n < 0xF0) :
    Announces n
      ⟨2, if n = 0xE0 then 0xA0 else 0x80, if n = 0xED then 0x9F else 0xBF, n - 0xE0⟩
  | four (low : 0xF0 ≤ n) (high : n < 0xF5) :
    Announces n
      ⟨3, if n = 0xF0 then 0x90 else 0x80, if n = 0xF4 then 0x8F else 0xBF, n - 0xF0⟩

private theorem lead?_eq_some_iff {byte : UInt8} {lead : Lead} :
    lead? byte = some lead ↔ Announces byte.toNat lead := by
  constructor
  · intro found
    have one := @Announces.one byte.toNat
    have two := @Announces.two byte.toNat
    have three := @Announces.three byte.toNat
    have four := @Announces.four byte.toNat
    unfold lead? at found
    grind
  · rintro (high | ⟨low, high⟩ | ⟨low, high⟩ | ⟨low, high⟩) <;>
    · unfold lead?
      grind

private theorem Announces.owed_le {n : Nat} {lead : Lead} (announced : Announces n lead) :
    lead.owed ≤ 3 := by
  cases announced <;> simp

theorem Announces.bounds {n : Nat} {lead : Lead} (announced : Announces n lead) :
    0x80 ≤ lead.low ∧ lead.low ≤ lead.high ∧ lead.high ≤ 0xBF := by
  rcases announced with high | ⟨low, high⟩ | ⟨low, high⟩ | ⟨low, high⟩ <;> dsimp only <;> grind

end Lead

section Digits

/-- What is left of a number without its last digits, as many as are owed. -/
def leading (number : Nat) : (owed : Nat) → Nat
  | 0 => number
  | owed + 1 => leading number owed / 64

/-- The value of the continuation byte that has the digit of `number` at `place`. -/
def digit (number place : Nat) : Nat := leading number place % 64 + 0x80

/-- The continuation bytes of the last `owed` digits of `number`. -/
def tailBytes : (owed number : Nat) → List UInt8
  | 0, _ => []
  | owed + 1, number => UInt8.ofNat (digit number owed) :: tailBytes owed number

variable {number place value byte : Nat}

private theorem digit_lt : digit number place < 256 := by
  unfold digit
  omega

/-- One continuation byte tells one more digit of a number. -/
theorem leading_eq_iff (least : 0x80 ≤ byte) (greatest : byte ≤ 0xBF) :
    leading number place = value * 64 + (byte - 0x80) ↔
      leading number (place + 1) = value ∧ digit number place = byte := by
  rw [leading, digit]
  omega

private theorem ofNat_eq_iff {n : Nat} (small : n < 256) (byte : UInt8) :
    UInt8.ofNat n = byte ↔ n = byte.toNat := by
  rw [← UInt8.toNat_inj, UInt8.toNat_ofNat', Nat.mod_eq_of_lt small]

end Digits

section Continuation

variable {owed low high value taken : Nat} {bytes rest : List UInt8} {c : Char}

private theorem continuation_zero_eq_scalar_iff :
    continuation 0 low high value taken bytes = (.scalar c, rest) ↔
      Char.ofNat value = c ∧ bytes = rest := by
  simp [continuation]

private theorem continuation_succ_eq_scalar_iff :
    continuation (owed + 1) low high value taken bytes = (.scalar c, rest) ↔
      ∃ byte behind, bytes = byte :: behind ∧ low ≤ byte.toNat ∧ byte.toNat ≤ high ∧
        continuation owed 0x80 0xBF (value * 64 + (byte.toNat - 0x80)) (taken + 1) behind =
          (.scalar c, rest) := by
  cases bytes with
  | nil => simp [continuation]
  | cons byte behind =>
    by_cases within : low ≤ byte.toNat ∧ byte.toNat ≤ high
    · rw [continuation, if_pos within]
      constructor
      · exact fun read => ⟨byte, behind, rfl, within.1, within.2, read⟩
      · rintro ⟨_, _, same, -, -, read⟩
        cases same
        exact read
    · simp only [continuation, if_neg within, List.cons.injEq, Prod.mk.injEq, reduceCtorEq,
        false_and, false_iff]
      rintro ⟨byte, behind, ⟨rfl, rfl⟩, least, greatest, -⟩
      exact within ⟨least, greatest⟩

/-- Continuation bytes are read as the digits of a number behind those read before, the first of
them within its bounds. -/
theorem continuation_eq_scalar_iff (least : 0x80 ≤ low) (greatest : high ≤ 0xBF) :
    continuation owed low high value taken bytes = (.scalar c, rest) ↔
      ∃ number, leading number owed = value ∧
        (∀ place, owed = place + 1 → low ≤ digit number place ∧ digit number place ≤ high) ∧
        Char.ofNat number = c ∧ bytes = tailBytes owed number ++ rest := by
  induction owed generalizing low high value taken bytes with
  | zero =>
    rw [continuation_zero_eq_scalar_iff]
    constructor
    · rintro ⟨same, behind⟩
      exact ⟨value, rfl, nofun, same, behind⟩
    · rintro ⟨number, rfl, -, same, behind⟩
      exact ⟨same, behind⟩
  | succ owed ih =>
    rw [continuation_succ_eq_scalar_iff]
    constructor
    · rintro ⟨byte, behind, rfl, above, below, read⟩
      obtain ⟨number, front, -, same, rfl⟩ := (ih (Nat.le_refl _) (Nat.le_refl _)).1 read
      obtain ⟨front, next⟩ := (leading_eq_iff (by omega) (by omega)).1 front
      refine ⟨number, front, ?_, same, ?_⟩
      · rintro _ ⟨⟩
        exact next ▸ ⟨above, below⟩
      · rw [tailBytes, (ofNat_eq_iff digit_lt byte).2 next, List.cons_append]
    · rintro ⟨number, front, within, same, rfl⟩
      have next : digit number owed = (UInt8.ofNat (digit number owed)).toNat :=
        (ofNat_eq_iff digit_lt _).1 rfl
      obtain ⟨above, below⟩ := within owed rfl
      refine ⟨_, tailBytes owed number ++ rest, rfl, next ▸ above, next ▸ below, ?_⟩
      rw [ih (Nat.le_refl _) (Nat.le_refl _), ← next]
      refine ⟨number, (leading_eq_iff (by omega) (by omega)).2 ⟨front, rfl⟩, ?_, same, rfl⟩
      rintro place -
      unfold digit
      omega

/-- A piece that is not cut off does not depend on what follows it. -/
theorem continuation_append (more : List UInt8)
    (whole : (continuation owed low high value taken bytes).1 ≠ .cut) :
    continuation owed low high value taken (bytes ++ more) =
      ((continuation owed low high value taken bytes).1,
        (continuation owed low high value taken bytes).2 ++ more) := by
  fun_induction continuation owed low high value taken bytes with
  | case1 => simp [continuation]
  | case2 => exact absurd rfl whole
  | case3 low high value taken owed byte bytes within ih =>
    rw [List.cons_append, continuation, if_pos within]
    exact ih whole
  | case4 low high value taken owed byte bytes outside =>
    rw [List.cons_append, continuation, if_neg outside]

/-- Any bytes of the kind that is owed complete a character. -/
theorem continuation_replicate :
    ∃ c, continuation owed 0x80 0xBF value taken (List.replicate owed 0x80) =
      (.scalar c, []) := by
  induction owed generalizing value taken with
  | zero => exact ⟨Char.ofNat value, rfl⟩
  | succ owed ih =>
    obtain ⟨c, read⟩ := @ih (value * 64 + ((0x80 : UInt8).toNat - 0x80)) (taken + 1)
    exact ⟨c, continuation_succ_eq_scalar_iff.2
      ⟨0x80, _, List.replicate_succ, by decide, by decide, read⟩⟩

/-- What is cut off can be completed to a character. -/
theorem exists_continuation_of_cut (order : low ≤ high) (small : high ≤ 0xBF)
    (cut : (continuation owed low high value taken bytes).1 = .cut) :
    ∃ more c, continuation owed low high value taken (bytes ++ more) = (.scalar c, []) := by
  fun_induction continuation owed low high value taken bytes with
  | case1 => cases cut
  | case2 low high value taken owed =>
    obtain ⟨c, read⟩ := @continuation_replicate owed
      (value * 64 + ((UInt8.ofNat low).toNat - 0x80)) (taken + 1)
    have same : (UInt8.ofNat low).toNat = low := by rw [UInt8.toNat_ofNat']; omega
    refine ⟨UInt8.ofNat low :: List.replicate owed 0x80, c, ?_⟩
    rw [List.nil_append, continuation_succ_eq_scalar_iff]
    exact ⟨UInt8.ofNat low, List.replicate owed 0x80, rfl, by omega, by omega, read⟩
  | case3 low high value taken owed byte bytes within ih =>
    obtain ⟨more, c, read⟩ := ih (by decide) (by decide) cut
    exact ⟨more, c, continuation_succ_eq_scalar_iff.2
      ⟨byte, bytes ++ more, rfl, within.1, within.2, read⟩⟩
  | case4 => cases cut

/-- The bytes that tell a broken piece are those read before the one that does not fit. -/
theorem le_of_continuation_broken {length : Nat}
    (broken : (continuation owed low high value taken bytes).1 = .broken length) :
    taken ≤ length ∧ length < taken + owed := by
  fun_induction continuation owed low high value taken bytes with
  | case1 => cases broken
  | case2 => cases broken
  | case3 low high value taken owed byte bytes within ih =>
    have := ih broken
    omega
  | case4 low high value taken owed byte bytes outside =>
    cases broken
    omega

end Continuation

section Piece

variable {byte : UInt8} {bytes rest : List UInt8} {c : Char}

/-- A number has the digits that `lead` has, and the digit behind them lies within its bounds. -/
structure Fits (lead : Lead) (number : Nat) : Prop where
  leading_eq : leading number lead.owed = lead.bits
  within : ∀ place, lead.owed = place + 1 →
    lead.low ≤ digit number place ∧ digit number place ≤ lead.high

/-- The bytes of the character with the number `value`. -/
theorem utf8EncodeChar_ofNat {value : Nat} (valid : value.isValidChar) :
    String.utf8EncodeChar (Char.ofNat value) =
      if value ≤ 0x7F then [UInt8.ofNat value]
      else if value ≤ 0x7FF then UInt8.ofNat (value / 64 % 32 + 0xC0) :: tailBytes 1 value
      else if value ≤ 0xFFFF then UInt8.ofNat (value / 4096 % 16 + 0xE0) :: tailBytes 2 value
      else UInt8.ofNat (value / 262144 % 8 + 0xF0) :: tailBytes 3 value := by
  have same : (Char.ofNat value).val.toNat = value := by
    rw [Char.ofNat, dif_pos valid]
    rfl
  simp only [String.utf8EncodeChar, same, tailBytes, digit, leading, Nat.div_div_eq_div_mul,
    Nat.reduceMul]

/-- What fits a lead byte is the number of a character. -/
theorem Fits.isValidChar {n number : Nat} {lead : Lead} (fits : Fits lead number)
    (announced : Announces n lead) : number.isValidChar := by
  obtain ⟨front, within⟩ := fits
  unfold Nat.isValidChar
  rcases announced with high | ⟨low, high⟩ | ⟨low, high⟩ | ⟨low, high⟩
  · dsimp only [leading] at front
    omega
  · dsimp only [leading] at front
    omega
  · -- The bounds on the second byte rule out surrogates here, and below what no character has.
    have second := within 1 rfl
    dsimp only [digit, leading] at front second
    split at second <;> split at second <;> omega
  · have second := within 2 rfl
    dsimp only [digit, leading] at front second
    split at second <;> split at second <;> omega

/-- A number that fits a lead byte is written with that byte and the digits that it owes. -/
theorem Fits.encoded {n number : Nat} {lead : Lead} (fits : Fits lead number)
    (announced : Announces n lead) :
    String.utf8EncodeChar (Char.ofNat number) = UInt8.ofNat n :: tailBytes lead.owed number := by
  rw [utf8EncodeChar_ofNat (fits.isValidChar announced)]
  obtain ⟨front, within⟩ := fits
  rcases announced with high | ⟨low, high⟩ | ⟨low, high⟩ | ⟨low, high⟩
  · dsimp only [leading] at front
    rw [if_pos (by omega), front]
    rfl
  · dsimp only [leading] at front
    rw [if_neg (by omega), if_pos (by omega)]
    congr 2
    omega
  · -- The least second byte rules out a form that is too long.
    have second := (within 1 rfl).1
    dsimp only [digit, leading] at front second
    have : 0x7FF < number := by split at second <;> omega
    rw [if_neg (by omega), if_neg (by omega), if_pos (by omega)]
    congr 2
    omega
  · have second := (within 2 rfl).1
    dsimp only [digit, leading] at front second
    have : 0xFFFF < number := by split at second <;> omega
    rw [if_neg (by omega), if_neg (by omega), if_neg (by omega)]
    congr 2
    omega

/-- The number of a character fits the lead byte that it is written with. -/
theorem exists_fits {number : Nat} (valid : number.isValidChar) :
    ∃ n lead, n < 256 ∧ Announces n lead ∧ Fits lead number := by
  unfold Nat.isValidChar at valid
  by_cases one : number ≤ 0x7F
  · exact ⟨number, _, by omega, .one (by omega), rfl, nofun⟩
  by_cases two : number ≤ 0x7FF
  · refine ⟨number / 64 + 0xC0, _, by omega, .two (by omega) (by omega), ?_, ?_⟩
    · exact (Nat.add_sub_cancel ..).symm
    · rintro _ ⟨⟩
      simp only [digit, leading]
      omega
  by_cases three : number ≤ 0xFFFF
  · refine ⟨number / 4096 + 0xE0, _, by omega, .three (by omega) (by omega), ?_, ?_⟩
    · simp [leading, Nat.div_div_eq_div_mul]
    · rintro _ ⟨⟩
      simp only [digit, leading]
      split <;> split <;> omega
  · refine ⟨number / 262144 + 0xF0, _, by omega, .four (by omega) (by omega), ?_, ?_⟩
    · simp [leading, Nat.div_div_eq_div_mul]
    · rintro _ ⟨⟩
      simp only [digit, leading]
      split <;> split <;> omega

/-- A character is read where the standard encoding of it stands, and nowhere else. -/
theorem piece_eq_scalar_iff :
    piece byte bytes = (.scalar c, rest) ↔ byte :: bytes = String.utf8EncodeChar c ++ rest := by
  constructor
  · intro read
    unfold piece at read
    split at read
    · cases read
    · next lead found =>
      have announced := lead?_eq_some_iff.1 found
      obtain ⟨least, -, greatest⟩ := announced.bounds
      obtain ⟨number, front, within, rfl, rfl⟩ :=
        (continuation_eq_scalar_iff least greatest).1 read
      rw [Fits.encoded ⟨front, within⟩ announced, UInt8.ofNat_toNat, List.cons_append]
  · intro same
    obtain ⟨n, lead, small, announced, fits⟩ := @exists_fits c.toNat c.valid
    have encoded := fits.encoded announced
    rw [Char.ofNat_toNat] at encoded
    rw [encoded, List.cons_append] at same
    obtain ⟨first, rfl⟩ := List.cons.inj same
    rw [(ofNat_eq_iff small byte).1 first.symm] at announced
    obtain ⟨least, -, greatest⟩ := announced.bounds
    rw [piece, lead?_eq_some_iff.2 announced]
    exact (continuation_eq_scalar_iff least greatest).2
      ⟨c.toNat, fits.leading_eq, fits.within, Char.ofNat_toNat c, rfl⟩

private theorem piece_append (more : List UInt8) (whole : (piece byte bytes).1 ≠ .cut) :
    piece byte (bytes ++ more) = ((piece byte bytes).1, (piece byte bytes).2 ++ more) := by
  unfold piece at whole ⊢
  cases found : lead? byte with
  | none => rfl
  | some lead =>
    simp only [found] at whole ⊢
    exact continuation_append more whole

private theorem exists_piece_of_cut (cut : (piece byte bytes).1 = .cut) :
    ∃ more c, piece byte (bytes ++ more) = (.scalar c, []) := by
  unfold piece at cut ⊢
  cases found : lead? byte with
  | none =>
    rw [found] at cut
    cases cut
  | some lead =>
    simp only [found] at cut ⊢
    have bounds := (lead?_eq_some_iff.1 found).bounds
    exact exists_continuation_of_cut bounds.2.1 bounds.2.2 cut

private theorem le_of_piece_broken {length : Nat} (broken : (piece byte bytes).1 = .broken length) :
    1 ≤ length ∧ length ≤ 3 := by
  unfold piece at broken
  cases found : lead? byte with
  | none =>
    rw [found] at broken
    cases broken
    exact ⟨by decide, by decide⟩
  | some lead =>
    simp only [found] at broken
    have owed := (lead?_eq_some_iff.1 found).owed_le
    have := le_of_continuation_broken broken
    omega

end Piece

section Pieces

variable {bytes tail : List UInt8} {characters : List Char}

private theorem pieces_encoded (c : Char) (rest : List UInt8) :
    pieces (String.utf8EncodeChar c ++ rest) = .scalar c :: pieces rest := by
  cases same : String.utf8EncodeChar c ++ rest with
  | nil =>
    have size := congrArg List.length same
    have := c.utf8Size_pos
    rw [List.length_append, String.length_utf8EncodeChar, List.length_nil] at size
    omega
  | cons byte bytes => rw [pieces, piece_eq_scalar_iff.2 same.symm]

private theorem pieces_append (characters : List Char) (tail : List UInt8) :
    pieces (characters.flatMap String.utf8EncodeChar ++ tail) =
      characters.map Piece.scalar ++ pieces tail := by
  induction characters with
  | nil => rfl
  | cons c characters ih =>
    rw [List.flatMap_cons, List.append_assoc, pieces_encoded, ih, List.map_cons, List.cons_append]

/-- Bytes at whose head no character stands. -/
def Stuck (bytes : List UInt8) : Prop :=
  ∃ byte behind, bytes = byte :: behind ∧ ∀ c, (piece byte behind).1 ≠ .scalar c

/-- Any bytes are the form of a text and then nothing, or bytes at whose head no character
stands. -/
theorem exists_front (bytes : List UInt8) :
    ∃ (characters : List Char) (tail : List UInt8),
      bytes = characters.flatMap String.utf8EncodeChar ++ tail ∧ (tail = [] ∨ Stuck tail) := by
  induction bytes using pieces.induct with
  | case1 => exact ⟨[], [], rfl, .inl rfl⟩
  | case2 byte bytes ih =>
    rcases read : piece byte bytes with ⟨_ | length | _, rest⟩
    · next c =>
      rw [read] at ih
      obtain ⟨characters, tail, rfl, stands⟩ := ih
      refine ⟨c :: characters, tail, ?_, stands⟩
      rw [piece_eq_scalar_iff.1 read, List.flatMap_cons, List.append_assoc]
    · exact ⟨[], byte :: bytes, rfl, .inr ⟨byte, bytes, rfl, fun c => by simp [read]⟩⟩
    · exact ⟨[], byte :: bytes, rfl, .inr ⟨byte, bytes, rfl, fun c => by simp [read]⟩⟩

/-- Only at its end can a text's form be continued by bytes of another kind. -/
theorem Stuck.not_isForm_append (stuck : Stuck tail) :
    ¬ IsForm (characters.flatMap String.utf8EncodeChar ++ tail) := by
  obtain ⟨byte, behind, rfl, stuck⟩ := stuck
  intro form
  obtain ⟨others, same⟩ := isForm_iff.1 form
  have cut := congrArg pieces same
  have plain := pieces_append others []
  rw [List.append_nil, pieces, List.append_nil] at plain
  rw [pieces_append, plain, pieces] at cut
  have mem : (piece byte behind).1 ∈ others.map Piece.scalar := cut ▸ by simp
  obtain ⟨c, -, read⟩ := List.mem_map.1 mem
  exact stuck c read.symm

/-- A beginning of stuck bytes is stuck too, unless it is empty. -/
theorem Stuck.take {length : Nat} (stuck : Stuck tail) (some : 0 < length) :
    Stuck (tail.take length) := by
  obtain ⟨byte, behind, rfl, stuck⟩ := stuck
  obtain ⟨length, rfl⟩ := Nat.exists_eq_succ_of_ne_zero (Nat.ne_of_gt some)
  refine ⟨byte, behind.take length, rfl, fun c read => stuck c ?_⟩
  have whole := @piece_append byte (behind.take length) (behind.drop length) (by simp [read])
  rw [List.take_append_drop] at whole
  rw [whole, read]

end Pieces

section Decoding

variable {bytes tail : List UInt8}

private theorem firstDefect?_append (index : Nat) (characters : List Char) (rest : List Piece) :
    firstDefect? index (characters.map Piece.scalar ++ rest) =
      firstDefect? (index + byteLength characters) rest := by
  induction characters generalizing index with
  | nil => rfl
  | cons c characters ih =>
    rw [List.map_cons, List.cons_append, firstDefect?, ih, byteLength_cons, Nat.add_assoc]

private theorem decode_encode (source : String) : decode (encode source) = .ok source := by
  have cut := pieces_append source.toList []
  rw [List.append_nil, pieces, List.append_nil] at cut
  have sound := firstDefect?_append 0 source.toList []
  rw [List.append_nil] at sound
  rw [decode, encode, cut, sound, firstDefect?, decodeLossy, cut, List.map_map]
  exact congrArg Except.ok (by
    rw [show Piece.toChar ∘ Piece.scalar = id from rfl, List.map_id, String.ofList_toList])

/-- The front of `bytes` that ends at `index` is UTF-8, and no longer one is. -/
structure IsLongestForm (bytes : List UInt8) (index : Nat) : Prop where
  le : index ≤ bytes.length
  isForm : IsForm (bytes.take index)
  longest : ∀ length ≤ bytes.length, IsForm (bytes.take length) → length ≤ index

private theorem Stuck.isLongestForm (stuck : Stuck tail) (characters : List Char) :
    IsLongestForm (characters.flatMap String.utf8EncodeChar ++ tail) (byteLength characters) := by
  rw [← length_encoded]
  refine ⟨?_, ?_, fun length fits form => ?_⟩
  · rw [List.length_append]
    exact Nat.le_add_right ..
  · rw [List.take_left]
    exact isForm_iff.2 ⟨characters, rfl⟩
  · refine Nat.le_of_not_lt fun longer => ?_
    rw [List.take_append, List.take_of_length_le (Nat.le_of_lt longer)] at form
    exact (stuck.take (Nat.sub_pos_of_lt longer)).not_isForm_append form

/-- The first defect of bytes that are not UTF-8 lies behind the longest front that is. Whether
more bytes could mend it decides what kind of defect it is. -/
theorem exists_defect (damaged : ¬ IsForm bytes) :
    ∃ index, IsLongestForm bytes index ∧
      ((∃ more, IsForm (bytes ++ more)) ∧ decode bytes = .error (.incomplete index) ∨
        (¬ ∃ more, IsForm (bytes ++ more)) ∧ ∃ length, 1 ≤ length ∧ length ≤ 3 ∧
          decode bytes = .error (.invalid index length)) := by
  obtain ⟨characters, tail, rfl, rfl | stuck⟩ := exists_front bytes
  · exact absurd (isForm_iff.2 ⟨characters, List.append_nil _⟩) damaged
  refine ⟨byteLength characters, stuck.isLongestForm characters, ?_⟩
  obtain ⟨byte, behind, rfl, unread⟩ := stuck
  have found := firstDefect?_append 0 characters (pieces (byte :: behind))
  rw [Nat.zero_add, pieces] at found
  rw [decode, pieces_append, pieces, found]
  rcases read : (piece byte behind).1 with c | length | _
  · exact absurd read (unread c)
  · refine .inr ⟨?_, length, (le_of_piece_broken read).1, (le_of_piece_broken read).2, rfl⟩
    rintro ⟨more, form⟩
    rw [List.append_assoc, List.cons_append] at form
    have kept := @piece_append byte behind more (by simp [read])
    have stuck : Stuck (byte :: (behind ++ more)) :=
      ⟨byte, behind ++ more, rfl, fun c => by simp [kept, read]⟩
    exact stuck.not_isForm_append form
  · refine .inl ⟨?_, rfl⟩
    obtain ⟨more, c, completed⟩ := exists_piece_of_cut read
    have last := piece_eq_scalar_iff.1 completed
    rw [List.append_nil] at last
    refine ⟨more, isForm_iff.2 ⟨characters ++ [c], ?_⟩⟩
    rw [List.append_assoc, List.cons_append, last, List.flatMap_append, List.flatMap_singleton]

/-- Bytes decode to the text whose form they are. -/
theorem decode_eq_ok_iff {source : String} :
    decode bytes = .ok source ↔ bytes = source.toUTF8.data.toList := by
  constructor
  · intro decoded
    by_cases form : IsForm bytes
    · obtain ⟨other, rfl⟩ := form
      rw [← encode_eq_toUTF8, decode_encode] at decoded
      rw [Except.ok.inj decoded]
    · obtain ⟨index, -, ⟨-, failed⟩ | ⟨-, length, -, -, failed⟩⟩ := exists_defect form <;>
        exact absurd (decoded.symm.trans failed) (by simp)
  · rintro rfl
    rw [← encode_eq_toUTF8, decode_encode]

end Decoding

end DiagramCheck.Text.Utf8
