/-
# Labels of reports

The place that a report shows is cut down to the source, so no span however
wrong leads outside of it. No span of a verdict needs to be cut down. A text is
shown as it was checked, and there every diagnostic lies between two boundaries.
Bytes that are not UTF-8 are shown as another text than was checked, but they
are rejected unread, at the start; so is a blank source, and a target version
is about no place either.

Main statement: `reports_label_spans`.
-/

import DiagramCheck.Proofs.Diagnostic.Location
import DiagramCheck.Proofs.Validation.Bytes
import DiagramCheck.Report

namespace DiagramCheck

namespace Text

private theorem isBoundary_zero (text : List Char) : IsBoundary text 0 := ⟨[], text, rfl, rfl⟩

theorem IsBoundary.le {text : List Char} {offset : Nat} (boundary : IsBoundary text offset) :
    offset ≤ byteLength text := by
  obtain ⟨before, behind, rfl, rfl⟩ := boundary
  rw [byteLength_append]
  exact Nat.le_add_right ..

namespace Utf8

private theorem decodeLossy_of_decode_eq_ok {bytes : List UInt8} {source : String}
    (decoded : decode bytes = .ok source) : decodeLossy bytes = source := by
  unfold decode at decoded
  split at decoded
  · cases decoded
  · exact Except.ok.inj decoded

end Utf8

end Text

/-- A diagnostic that covers a piece of a text cut between characters. -/
structure Diagnostic.LiesIn (diagnostic : Diagnostic) (text : String) : Prop where
  start : Text.IsBoundary text.toList diagnostic.span.start
  stop : Text.IsBoundary text.toList diagnostic.span.stop

private theorem Diagnostic.unplaced_liesIn (problem : Problem) (text : String) :
    (Diagnostic.unplaced problem).LiesIn text :=
  ⟨Text.isBoundary_zero _, Text.isBoundary_zero _⟩

namespace Verdict

variable {verdict : Verdict} {text : String}

private theorem rejected_liesIn (problem : Problem) (text : String) :
    ∀ diagnostic ∈ (rejected problem).diagnostics, diagnostic.LiesIn text := by
  intro diagnostic member
  rw [List.mem_singleton.1 member]
  exact Diagnostic.unplaced_liesIn problem text

private theorem against_liesIn (lies : ∀ diagnostic ∈ verdict.diagnostics, diagnostic.LiesIn text)
    (target : String) :
    ∀ diagnostic ∈ (verdict.against target).diagnostics, diagnostic.LiesIn text := by
  unfold against Compatibility.mismatch?
  split
  · exact lies
  · next found =>
    intro diagnostic member
    rcases List.mem_append.1 member with member | member
    · exact lies diagnostic member
    · rw [List.mem_singleton.1 member]
      split at found
      · cases found
      · cases found
        exact Diagnostic.unplaced_liesIn _ text

end Verdict

private theorem Validation.found_liesIn (source : String) :
    ∀ diagnostic ∈ found source, diagnostic.LiesIn source := by
  intro diagnostic member
  obtain ⟨before, token, behind, split, points⟩ := found_located source diagnostic member
  refine ⟨?_, points.isBoundary_stop split⟩
  rw [points.start]
  exact (Token.isBoundary_tokenize source token (by rw [split]; simp)).1

private theorem validate_liesIn (source : String) :
    ∀ diagnostic ∈ (validate source).diagnostics, diagnostic.LiesIn source := by
  unfold validate
  split
  · exact Verdict.rejected_liesIn .blankInput source
  · intro diagnostic member
    exact Validation.found_liesIn source diagnostic (List.mem_mergeSort.1 member)

private theorem validateBytes_liesIn (bytes : List UInt8) :
    ∀ diagnostic ∈ (validateBytes (some bytes)).diagnostics,
      diagnostic.LiesIn (Text.Utf8.decodeLossy bytes) := by
  cases decoded : Text.Utf8.decode bytes with
  | ok source =>
    rw [Text.Utf8.decodeLossy_of_decode_eq_ok decoded, validateBytes_of_decode_eq_ok decoded]
    exact validate_liesIn source
  | error defect =>
    rw [validateBytes_of_decode_eq_error decoded]
    exact Verdict.rejected_liesIn (.notUtf8 defect) _

private theorem Settings.validateBytes_liesIn (settings : Settings) (bytes : List UInt8) :
    ∀ diagnostic ∈ (settings.validateBytes (some bytes)).diagnostics,
      diagnostic.LiesIn (Text.Utf8.decodeLossy bytes) := by
  unfold validateBytes judge
  split
  · exact DiagramCheck.validateBytes_liesIn bytes
  · exact Verdict.against_liesIn (DiagramCheck.validateBytes_liesIn bytes) _

/-- A report on a diagnostic whose label, unless there is no text to show, is the diagnostic's own
span, which is cut between characters of the text. -/
structure Report.Labels (text : String) (diagnostic : Diagnostic) (report : Report) : Prop where
  shows : report = ofDiagnostic text diagnostic
  unclamped : text ≠ "" → report.marks = some [⟨diagnostic.code.description, diagnostic.span⟩]
  start : text ≠ "" → Text.IsBoundary text.toList diagnostic.span.start
  stop : text ≠ "" → Text.IsBoundary text.toList diagnostic.span.stop

theorem Diagnostic.LiesIn.labels {diagnostic : Diagnostic} {text : String}
    (lies : diagnostic.LiesIn text) :
    Report.Labels text diagnostic (Report.ofDiagnostic text diagnostic) := by
  have inside : diagnostic.span.stop ≤ text.utf8ByteSize := by
    rw [← Text.byteLength_toList]
    exact lies.stop.le
  refine ⟨rfl, fun shown => ?_, fun _ => lies.start, fun _ => lies.stop⟩
  have shown : ¬ text.isEmpty = true := by rwa [String.isEmpty_iff]
  rw [Report.ofDiagnostic, if_neg shown, Report.markOf, Span.clamp_eq_self inside]

/-- No report marks anything beyond its text, whatever the span of the diagnostic. The reports on
bytes that were checked mark exactly what their diagnostics span, and the marks begin and end
between characters of the text shown. -/
theorem reports_label_spans (source : String) (diagnostic : Diagnostic) (settings : Settings)
    (bytes : List UInt8) :
    (∀ marks ∈ (Report.ofDiagnostic source diagnostic).marks, ∀ mark ∈ marks,
      mark.span.start + mark.span.length ≤ source.utf8ByteSize) ∧
    List.Forall₂ (Report.Labels (Text.Utf8.decodeLossy bytes))
      (settings.validateBytes (some bytes)).diagnostics
      ((settings.validateBytes (some bytes)).reports (Text.Utf8.decodeLossy bytes)) := by
  constructor
  · intro marks shown mark member
    rw [Report.ofDiagnostic, Option.mem_def] at shown
    split at shown
    · cases shown
    · cases shown
      rw [List.mem_singleton.1 member, Span.start_add_length]
      exact Report.markOf_stop_le source diagnostic
  · rw [Verdict.reports, List.forall₂_map_right_iff, List.forall₂_same]
    exact fun diagnostic member => (settings.validateBytes_liesIn bytes diagnostic member).labels

/-- A span that leaves the source is cut down to it. Bytes that end within a character, checked
for another version of the renderer, have two diagnostics, and both are shown where they stand. -/
theorem reports_label_spans_cut :
    (Report.ofDiagnostic "é" ⟨.missingArrow, "", none, 1, 1, ⟨1, 9, by decide⟩⟩).marks =
        some [⟨Code.missingArrow.description, ⟨1, 2, by decide⟩⟩] ∧
      1 + 1 ≤ ("é" : String).utf8ByteSize ∧
      List.Forall₂ (Report.Labels (Text.Utf8.decodeLossy [0x41, 0xC3]))
        (Settings.validateBytes ⟨some "10.0.0"⟩ (some [0x41, 0xC3])).diagnostics
        ((Settings.validateBytes ⟨some "10.0.0"⟩ (some [0x41, 0xC3])).reports
          (Text.Utf8.decodeLossy [0x41, 0xC3])) := by
  have shown : (Report.ofDiagnostic "é" ⟨.missingArrow, "", none, 1, 1, ⟨1, 9, by decide⟩⟩).marks =
      some [⟨Code.missingArrow.description, ⟨1, 2, by decide⟩⟩] := by decide +kernel
  have labels := reports_label_spans "é" ⟨.missingArrow, "", none, 1, 1, ⟨1, 9, by decide⟩⟩
    ⟨some "10.0.0"⟩ [0x41, 0xC3]
  exact ⟨shown, labels.1 _ shown _ (List.mem_singleton.2 rfl), labels.2⟩

end DiagramCheck
