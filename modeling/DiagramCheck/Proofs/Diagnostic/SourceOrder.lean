/-
# Diagnostics as they are shown

What is found in a source is sorted by line and column before it is shown, and
the sort knows nothing of bytes. It is the order of bytes all the same: whatever
is found stands at a token, and among the tokens of a source lines and columns
go up with the bytes.

Diagnostics at one place stay as they were found. In particular, what the rules
for comments, strings and directives say of a token comes before what a grammar
says of it, because these rules look at all tokens before anything is read.

Main statement: `diagnostics_in_source_order`.
-/

import DiagramCheck.Proofs.Diagnostic.Once

namespace DiagramCheck

namespace Diagnostic

variable {first second : Diagnostic} {diagnostics : List Diagnostic}

/-- Whether a diagnostic stands at some line and column. -/
def standsAt (line column : Nat) (diagnostic : Diagnostic) : Bool :=
  diagnostic.line == line && diagnostic.column == column

private theorem standsAt_iff {line column : Nat} : first.standsAt line column = true ↔
    first.line = line ∧ first.column = column := by
  rw [standsAt, Bool.and_eq_true, beq_iff_eq, beq_iff_eq]

theorem perm_inSourceOrder (diagnostics : List Diagnostic) :
    (inSourceOrder diagnostics).Perm diagnostics :=
  List.mergeSort_perm ..

private theorem pairwise_inSourceOrder (diagnostics : List Diagnostic) :
    (inSourceOrder diagnostics).Pairwise fun first second => first.precedes second = true :=
  List.pairwise_mergeSort precedes_trans precedes_total diagnostics

/-- Diagnostics of a kind that are found in source order are shown in the order they were found. -/
theorem filter_inSourceOrder_of_pairwise {test : Diagnostic → Bool}
    (sorted : (diagnostics.filter test).Pairwise fun first second =>
      first.precedes second = true) :
    (inSourceOrder diagnostics).filter test = diagnostics.filter test := by
  have kept : (diagnostics.filter test).Sublist (inSourceOrder diagnostics) :=
    List.sublist_mergeSort precedes_trans precedes_total sorted List.filter_sublist
  -- None is lost and none is added, and both lists hold equally many.
  have inside := kept.filter test
  simp only [List.filter_filter, Bool.and_self] at inside
  refine (inside.eq_of_length ?_).symm
  exact ((perm_inSourceOrder diagnostics).filter _).length_eq.symm

/-- In source order the diagnostics at one place are those found there, in the order they were
found. -/
theorem filter_inSourceOrder (line column : Nat) (diagnostics : List Diagnostic) :
    (inSourceOrder diagnostics).filter (standsAt line column) =
      diagnostics.filter (standsAt line column) := by
  -- Diagnostics at one place are sorted as they are, so sorting leaves them in their order.
  refine filter_inSourceOrder_of_pairwise ?_
  refine List.pairwise_iff_forall_sublist.2 fun {first second} pair => ?_
  have member := (List.mem_filter.1 (pair.subset (List.mem_cons_self ..))).2
  have member' := (List.mem_filter.1 (pair.subset (List.mem_cons_of_mem _
    (List.mem_singleton_self _)))).2
  obtain ⟨line, column⟩ := standsAt_iff.1 member
  obtain ⟨line', column'⟩ := standsAt_iff.1 member'
  rw [precedes_iff]
  omega

end Diagnostic

namespace Validation

variable {source : String} {first second : Diagnostic}

/-- What the grammars find in a source, diagram after diagram. -/
def foundByGrammars (source : String) : List Diagnostic :=
  (diagrams source).1.diagnostics ++ (diagrams source).2.flatMap (·.diagnostics)

theorem found_eq (source : String) :
    found source = Layout.lexicalDiagnostics (Token.tokenize source) ++ foundByGrammars source :=
  List.append_assoc ..

theorem diagnostics_validate (solid : Text.isBlankText source = false) :
    (validate source).diagnostics = Diagnostic.inSourceOrder (found source) := by
  rw [validate, solid, if_neg Bool.false_ne_true]

/-- Of two things found in a source, the one that comes no later by line and column comes no later
by bytes. -/
theorem start_le_of_precedes (member : first ∈ found source) (member' : second ∈ found source)
    (order : first.precedes second = true) : first.span.start ≤ second.span.start := by
  obtain ⟨token, listed, line, column, start⟩ := exists_token member
  obtain ⟨token', listed', line', column', start'⟩ := exists_token member'
  rw [Diagnostic.precedes_iff, line, line', column, column'] at order
  rw [start, start']
  by_contra later
  have before : token'.line < token.line ∨
      token'.line = token.line ∧ token'.column < token.column :=
    Token.before_of_offset_lt listed' listed (Nat.lt_of_not_le later)
  omega

/-- Things found at one byte are found at one line and column. -/
theorem place_eq_of_start (member : first ∈ found source) (member' : second ∈ found source)
    (start : first.span.start = second.span.start) :
    first.line = second.line ∧ first.column = second.column := by
  obtain ⟨token, listed, line, column, own⟩ := exists_token member
  obtain ⟨token', listed', line', column', own'⟩ := exists_token member'
  rw [own, own'] at start
  obtain rfl := Token.eq_of_offset_eq listed listed' start
  exact ⟨line.trans line'.symm, column.trans column'.symm⟩

end Validation

/-- Diagnostics shown in the order of the source, out of those found first and those found later:
they go up by line and column and by the byte they start at, which is one and the same order, and
at each place they come as they were found. -/
structure Diagnostic.ShownInOrder (early later shown : List Diagnostic) : Prop where
  perm : shown.Perm (early ++ later)
  places : shown.Pairwise fun first second =>
    first.line < second.line ∨ first.line = second.line ∧ first.column ≤ second.column
  bytes : shown.Pairwise fun first second => first.span.start ≤ second.span.start
  together : ∀ first ∈ shown, ∀ second ∈ shown,
    first.line = second.line ∧ first.column = second.column ↔ first.span.start = second.span.start
  stable : ∀ line column, shown.filter (standsAt line column) =
    early.filter (standsAt line column) ++ later.filter (standsAt line column)

/-- The diagnostics of a source that is not blank are those found in it, shown in the order of the
source. The rules for comments, strings and directives find theirs before the grammars do. -/
theorem diagnostics_in_source_order (source : String)
    (written : ∃ c ∈ source.toList, Text.isBlank c = false) :
    Diagnostic.ShownInOrder (Layout.lexicalDiagnostics (Token.tokenize source))
      (Validation.foundByGrammars source) (validate source).diagnostics := by
  rw [Validation.diagnostics_validate ((Text.isBlankText_eq_false_iff source).2 written)]
  have found {diagnostic : Diagnostic}
      (listed : diagnostic ∈ Diagnostic.inSourceOrder (Validation.found source)) :
      diagnostic ∈ Validation.found source := Diagnostic.mem_inSourceOrder.1 listed
  have sorted := Diagnostic.pairwise_inSourceOrder (Validation.found source)
  refine ⟨?_, ?_, ?_, ?_, ?_⟩
  · rw [← Validation.found_eq]
    exact Diagnostic.perm_inSourceOrder _
  · exact sorted.imp fun order => Diagnostic.precedes_iff.1 order
  · exact sorted.imp_of_mem fun listed listed' order =>
      Validation.start_le_of_precedes (found listed) (found listed') order
  · intro first listed second listed'
    constructor
    · rintro ⟨line, column⟩
      exact Validation.start_eq_of_place (found listed) (found listed') line column
    · exact Validation.place_eq_of_start (found listed) (found listed')
  · intro line column
    rw [Diagnostic.filter_inSourceOrder, Validation.found_eq, List.filter_append]

/-- The open string is found before the direction that stands above it, and is shown below it; the
grammar finds something at the string as well, and that is shown behind it. -/
theorem diagnostics_in_source_order_string :
    let source := "flowchart XX\n\"x"
    ((Layout.lexicalDiagnostics (Token.tokenize source)).map fun diagnostic =>
        (diagnostic.line, diagnostic.column, diagnostic.message)) =
      [(2, 1, "unterminated string")] ∧
    ((Validation.foundByGrammars source).map fun diagnostic =>
        (diagnostic.line, diagnostic.column, diagnostic.message)) =
      [(1, 11, "invalid flowchart direction `XX`"), (2, 1, "unexpected `\"x` in flowchart")] ∧
    Diagnostic.ShownInOrder (Layout.lexicalDiagnostics (Token.tokenize source))
      (Validation.foundByGrammars source) (validate source).diagnostics :=
  ⟨by decide +kernel, by decide +kernel,
    diagnostics_in_source_order _ ⟨'f', by decide +kernel, by decide⟩⟩

end DiagramCheck
