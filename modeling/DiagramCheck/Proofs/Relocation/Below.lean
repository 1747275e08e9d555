/-
# One text below another

Behind a newline a text is read as it is read alone, only further down. Its tokens
and items are those it has alone, moved by the lines and bytes that stand above,
and so is everything said of it.
-/

import DiagramCheck.Proofs.Layout.Restart
import DiagramCheck.Proofs.Relocation.Diagrams

namespace DiagramCheck

namespace Diagnostic

/-- Diagnostics that all stand further down keep their order. -/
theorem inSourceOrder_shift (lines bytes : Nat) (diagnostics : List Diagnostic) :
    inSourceOrder (diagnostics.map (·.shift lines bytes)) =
      (inSourceOrder diagnostics).map (·.shift lines bytes) := by
  refine (List.map_mergeSort fun first _ second _ => ?_).symm
  rw [Bool.eq_iff_iff, precedes_iff, precedes_iff]
  simp only [shift]
  omega

theorem shift_shift (lines bytes more further : Nat) (diagnostic : Diagnostic) :
    (diagnostic.shift lines bytes).shift more further =
      diagnostic.shift (lines + more) (bytes + further) := by
  simp only [shift, Nat.add_assoc]

end Diagnostic

namespace Relocation

theorem eq_map_of_tells {move : Relocation} (exact : move.returns = 0)
    {diagnostics diagnostics' : List Diagnostic}
    (tells : List.Forall₂ move.Tells diagnostics diagnostics') :
    diagnostics' = diagnostics.map (·.shift move.lines move.bytes) := by
  induction tells with
  | nil => rfl
  | cons first _ ih => rw [List.map_cons, first.exact exact, ih]

theorem map_value_of_reads {α : Type} {move : Relocation} (exact : move.returns = 0)
    {readings readings' : List (Reading α)}
    (reads : List.Forall₂ (move.Reads move.Agree) readings readings') :
    readings'.map (·.value) = readings.map (·.value) := by
  induction reads with
  | nil => rfl
  | cons first _ ih => rw [List.map_cons, List.map_cons, ih, first.value exact]

/-- Puts a text below another one. -/
def below (above : String) : Relocation :=
  ⟨above.toList.count '\n' + 1, above.utf8ByteSize + 1, 0⟩

variable (above text : String)

private theorem toList_below :
    (above ++ "\n" ++ text).toList = above.toList ++ '\n' :: text.toList := by
  simp

private theorem position_start_below :
    (below above).position .start = (Position.start.after above.toList).step '\n' := by
  simp only [below, position, Position.step, if_true, Position.line_after, Position.offset_after,
    Text.byteLength_toList, Position.start, Position.mk.injEq, true_and]
  omega

theorem finish_below :
    Layout.finish (above ++ "\n" ++ text) = (below above).token (Layout.finish text) := by
  rw [token_finish, position_start_below, chars_of_returns _ rfl, Layout.finish, toList_below,
    Position.after_append, Position.after_cons]

private theorem stream_below :
    Token.stream ((below above).position .start) ((below above).chars text.toList) =
      Token.stream ((Position.start.after above.toList).step '\n') text.toList := by
  rw [position_start_below, chars_of_returns _ rfl]

/-- What is found in the diagrams of a text below another is what is found in them alone. -/
theorem readAll_below :
    (Diagram.readAll (above ++ "\n" ++ text).toList (Layout.finish (above ++ "\n" ++ text))
        ((Layout.items (Token.tokenize text)).map (below above).item)).flatMap (·.diagnostics) =
      ((Diagram.readAll text.toList (Layout.finish text)
        (Layout.items (Token.tokenize text))).flatMap (·.diagnostics)).map
          (·.shift (below above).lines (below above).bytes) := by
  have size : Text.byteLength (above ++ "\n").toList = (below above).bytes := by
    rw [Text.byteLength_toList, String.utf8ByteSize_append]
    rfl
  have reads := (below above).readAll_reads size (Layout.finish text)
    (Layout.standsIn_items text)
  rw [chars_of_returns _ rfl, ← String.toList_append, ← finish_below] at reads
  exact eq_map_of_tells rfl ((below above).flatMap_diagnostics_tells reads)

/-- The items of a text stand above those of a text below it. -/
theorem above_below :
    Items.Above (Layout.items (Token.tokenize above))
      ((Layout.items (Token.tokenize text)).map (below above).item) := by
  rw [← items_relocated, stream_below]
  exact Layout.above_append_newline .start above.toList text.toList none none

section Settled

variable {above} (settled : ∀ token ∈ Token.tokenize above, token.runsOn = false)

include settled

private theorem lexemes_settled :
    ∀ token ∈ Token.lexemes .start above.toList, token.runsOn = false :=
  fun token member => settled token (List.dropLast_subset _ member)

/-- The items of a text below another come after those of the other. -/
theorem items_below :
    Layout.items (Token.tokenize (above ++ "\n" ++ text)) =
      Layout.items (Token.tokenize above) ++
        (Layout.items (Token.tokenize text)).map (below above).item := by
  rw [← items_relocated, stream_below, Token.tokenize, toList_below, Layout.items,
    Layout.place_append_newline (by simp) (lexemes_settled settled)]
  rfl

/-- What the rules for comments, strings and directives find falls apart at a newline. -/
theorem lexicalDiagnostics_below :
    Layout.lexicalDiagnostics (Token.tokenize (above ++ "\n" ++ text)) =
      Layout.lexicalDiagnostics (Token.tokenize above) ++
        (Layout.lexicalDiagnostics (Token.tokenize text)).map
          (·.shift (below above).lines (below above).bytes) := by
  have tells := lexicalDiagnosticsAfter_tells _ ((below above).tokens_match text)
    (Token.isCut_or_endOfInput text) .none
  rw [Layout.lexicalDiagnostics, Token.tokenize, toList_below,
    Layout.lexicalDiagnosticsAfter_append_newline (by simp) (lexemes_settled settled),
    Layout.lexicalDiagnostics, Layout.lexicalDiagnostics, ← eq_map_of_tells rfl tells,
    stream_below]
  rfl

end Settled

end Relocation

end DiagramCheck
