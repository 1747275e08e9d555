/-
# Input given as bytes

Bytes that are the UTF-8 form of a text are checked as that text. Any other
bytes are rejected unread, at the start of the source, with a message that says
how much of them is UTF-8 and whether more bytes could mend them.

Main statement: `validateBytes_utf8`.
-/

import DiagramCheck.Proofs.Text.Utf8
import DiagramCheck.Validation.Basic

namespace DiagramCheck

open Text.Utf8

theorem validateBytes_of_decode_eq_ok {bytes : List UInt8} {source : String}
    (decoded : decode bytes = .ok source) : validateBytes (some bytes) = validate source := by
  simp only [validateBytes, decoded]

theorem validateBytes_of_decode_eq_error {bytes : List UInt8} {defect : Defect}
    (failed : decode bytes = .error defect) :
    validateBytes (some bytes) = .rejected (.notUtf8 defect) := by
  simp only [validateBytes, failed]

/-- Bytes that are the UTF-8 form of a text are checked as that text. Any others are rejected with
one diagnostic, which names the end of the longest front that is UTF-8 and tells whether the bytes
are cut off there or broken. -/
theorem validateBytes_utf8 (bytes : List UInt8) :
    (∀ source : String, bytes = source.toUTF8.data.toList →
      validateBytes (some bytes) = validate source) ∧
    (¬ IsForm bytes → ∃ index message,
      validateBytes (some bytes) =
        ⟨[⟨.invalidInputType, message, some "save the diagram as UTF-8", 1, 1, .origin⟩], none⟩ ∧
      (validateBytes (some bytes)).type = .unknown ∧ IsLongestForm bytes index ∧
      ((∃ more, IsForm (bytes ++ more)) ∧ message =
          "input is not valid UTF-8 text: " ++
            s!"incomplete utf-8 byte sequence from index {index}" ∨
        (¬ ∃ more, IsForm (bytes ++ more)) ∧ ∃ length, 1 ≤ length ∧ length ≤ 3 ∧ message =
          "input is not valid UTF-8 text: " ++
            s!"invalid utf-8 sequence of {length} bytes from index {index}")) := by
  constructor
  · exact fun source form => validateBytes_of_decode_eq_ok (decode_eq_ok_iff.2 form)
  · intro damaged
    obtain ⟨index, longest, ⟨mendable, failed⟩ | ⟨lost, length, least, most, failed⟩⟩ :=
      exists_defect damaged
    · have rejected := validateBytes_of_decode_eq_error failed
      refine ⟨index, _, rejected, rejected ▸ rfl, longest, .inl ⟨mendable, ?_⟩⟩
      rfl
    · have rejected := validateBytes_of_decode_eq_error failed
      refine ⟨index, _, rejected, rejected ▸ rfl, longest, .inr ⟨lost, length, least, most, ?_⟩⟩
      rfl

/-- A letter is a text; a letter and a byte that no character has are none. -/
theorem validateBytes_utf8_letters :
    [0x41] = ("A" : String).toUTF8.data.toList ∧ ¬ IsForm [0x41, 0xFF] ∧
      validateBytes (some [0x41]) = validate "A" ∧
      (validateBytes (some [0x41, 0xFF])).type = .unknown := by
  have letter : [0x41] = ("A" : String).toUTF8.data.toList := by decide +kernel
  have stuck : Stuck [0xFF] := ⟨0xFF, [], rfl, fun c read => by cases read⟩
  have damaged : ¬ IsForm [0x41, 0xFF] := @Stuck.not_isForm_append _ ['A'] stuck
  obtain ⟨_, _, _, type, _⟩ := (validateBytes_utf8 [0x41, 0xFF]).2 damaged
  exact ⟨letter, damaged, (validateBytes_utf8 [0x41]).1 "A" letter, type⟩

end DiagramCheck
