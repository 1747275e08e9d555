/-
# Directives that are reported

A directive is reported as unterminated when its text does not end in the
closing mark. One that is closed ends in it, so it is never reported. One that
runs out takes the rest of the source and is reported unless the source happens
to end in that mark. Then everything behind the opening mark is lost, and nothing
is said.

That a report is about a directive can be told from its message, for only the
rules for comments, strings and directives say of anything that it is
unterminated; and that it is about this directive, from the byte it starts at.

Main statement: `unterminated_directive_reported_iff`.
-/

import DiagramCheck.Proofs.Diagnostic.SourceOrder
import DiagramCheck.Proofs.Token.Directive

namespace DiagramCheck

namespace Token

variable {source : String} {token : Token}

/-- A source is told that the directive at a token is unterminated. -/
def IsReportedUnterminated (source : String) (token : Token) : Prop :=
  ∃ diagnostic ∈ (validate source).diagnostics,
    diagnostic.code = .parseError ∧ diagnostic.message = "unterminated directive" ∧
      diagnostic.line = token.line ∧ diagnostic.column = token.column ∧
      diagnostic.span = token.span

/-- What is wrong with a directive does not depend on what comes before it. -/
theorem lexicalProblem?_of_directive (directive : token.kind = .directive)
    (previous : Option Token) :
    token.lexicalProblem? previous =
      if token.isUnterminatedDirective then some .unterminatedDirective else none := by
  have plain : token.isUnterminatedString = false := by
    rw [isUnterminatedString, directive]
    rfl
  rw [lexicalProblem?, if_neg (by rw [directive]; decide), plain, if_neg Bool.false_ne_true]

/-- A source with a directive is not blank. -/
theorem isBlankText_of_directive (member : token ∈ tokenize source)
    (directive : token.kind = .directive) : Text.isBlankText source = false := by
  obtain ⟨passed, behind, whole, -, cut⟩ := (tiles_tokenize source).exists_cut token member
    (by rw [directive]; exact nofun)
  obtain ⟨body, text, -⟩ := (cut.leads directive ⟨nofun, nofun, nofun⟩).directive
  refine (Text.isBlankText_eq_false_iff source).2 ⟨'%', ?_, rfl⟩
  rw [whole, text]
  simp

/-- A directive is reported as unterminated when it is judged so, and only then. -/
theorem isReportedUnterminated_iff (member : token ∈ tokenize source)
    (directive : token.kind = .directive) :
    token.IsReportedUnterminated source ↔ token.isUnterminatedDirective = true := by
  have shown := Validation.diagnostics_validate (isBlankText_of_directive member directive)
  constructor
  · rintro ⟨diagnostic, reported, code, message, -, -, span⟩
    rw [shown, Diagnostic.mem_inSourceOrder, Validation.found_eq, List.mem_append] at reported
    have manner : diagnostic.manner = .lexical := by
      rw [Diagnostic.manner, code, message]
      rfl
    rcases reported with lexical | grammar
    · obtain ⟨before, other, behind, problem, split, found, rfl⟩ :=
        Layout.mem_lexicalDiagnosticsAfter_iff.1 lexical
      -- The token that is reported begins where this one does, so it is this one.
      obtain rfl : other = token :=
        eq_of_offset_eq (by rw [split]; simp) member (congrArg Span.start span)
      rw [lexicalProblem?_of_directive directive] at found
      by_contra closed
      rw [if_neg closed] at found
      cases found
    · -- No grammar reports in this manner.
      rcases (Validation.diagrams_reported source).stand diagnostic grammar with
        ⟨taken, -⟩ | ⟨ahead, -⟩
      · rw [taken] at manner
        cases manner
      · rw [ahead] at manner
        cases manner
  · intro judged
    obtain ⟨before, behind, split⟩ := List.append_of_mem member
    refine ⟨.atToken token .unterminatedDirective, ?_, rfl, rfl, rfl, rfl, rfl⟩
    rw [shown, Diagnostic.mem_inSourceOrder, Validation.found_eq, List.mem_append]
    refine .inl (Layout.mem_lexicalDiagnosticsAfter_iff.2
      ⟨before, token, behind, .unterminatedDirective, split, ?_, rfl⟩)
    rw [lexicalProblem?_of_directive directive, if_pos judged]

/-- A directive is reported as unterminated exactly when it runs out, that is when no brace in what
is scanned of it closes it, and the source does not end in the closing mark. -/
theorem unterminated_directive_reported_iff (source : String) {token : Token}
    (member : token ∈ tokenize source) (directive : token.kind = .directive) :
    token.IsReportedUnterminated source ↔
      token.RunsOut source ∧ ¬ ['\x7d', '%', '%'] <:+ source.toList := by
  rw [isReportedUnterminated_iff member directive]
  exact isUnterminatedDirective_iff member directive

/-- An inner brace is closed with the mark, the outer one is not, and what follows goes down with
the directive. -/
theorem unterminated_directive_reported_iff_inner :
    let source := "%%\x7binit: \x7b\x7d%%\nflowchart TD"
    let token : Token := ⟨.directive, source, .start⟩
    token ∈ tokenize source ∧ token.IsReportedUnterminated source := by
  intro source token
  have member : token ∈ tokenize source := by decide +kernel
  have out : token.RunsOut source :=
    ⟨"init: \x7b\x7d%%\nflowchart TD".toList, by decide +kernel, by decide +kernel⟩
  exact ⟨member, (unterminated_directive_reported_iff source member rfl).2
    ⟨out, by decide +kernel⟩⟩

/-- An inner brace is closed with the mark and the source ends there: the directive runs out, and
the source is valid all the same. -/
theorem directive_runs_out_unreported :
    let source := "flowchart TD\nA --> B\n%%\x7binit: \x7b\"theme\": \"dark\"\x7d%%"
    let token : Token :=
      ⟨.directive, "%%\x7binit: \x7b\"theme\": \"dark\"\x7d%%", ⟨3, 1, 21⟩⟩
    token ∈ tokenize source ∧ token.RunsOut source ∧ (validate source).diagnostics = [] ∧
      ¬ token.IsReportedUnterminated source := by
  intro source token
  have silent : (validate source).diagnostics = [] := by decide +kernel
  have out : token.RunsOut source :=
    ⟨"init: \x7b\"theme\": \"dark\"\x7d%%".toList, by decide +kernel, by decide +kernel⟩
  refine ⟨by decide +kernel, out, silent, ?_⟩
  rintro ⟨diagnostic, reported, -⟩
  rw [silent] at reported
  cases reported

end Token

end DiagramCheck
