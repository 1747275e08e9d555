/-
# Where diagnostics stand

Every diagnostic of a source takes its line, its column and its first byte from
a token of the source, the end of the input included. It covers that token. Only
a missing arrow covers more: the whole name that the token begins, which runs
over all the name tokens that touch.

A name is read from the significant tokens, while the statement speaks of all
tokens. The two agree because a comment or a directive takes at least one byte,
so no name touches what comes behind it.

Main statement: `diagnostics_point_at_tokens`. It follows that every diagnostic
covers a piece of the source that is cut between characters.
-/

import DiagramCheck.Proofs.Diagnostic.Families
import DiagramCheck.Proofs.Flowchart.Nesting
import DiagramCheck.Validation.Basic

namespace DiagramCheck

/-! ## Names among all tokens -/

namespace Token

private theorem isName_eq_false {token : Token} (insignificant : token.isSignificant = false) :
    token.isName = false := by
  cases name : token.isName with
  | false => rfl
  | true =>
    rw [isName_isSignificant name] at insignificant
    cases insignificant

private theorem touchingStop_of_apart {stop : Nat} {tokens : List Token}
    (apart : ∀ token ∈ tokens, stop < token.offset) : touchingStop stop tokens = stop := by
  cases tokens with
  | nil => rfl
  | cons token rest =>
    have := apart token (List.mem_cons_self ..)
    have other : (token.offset == stop) = false := by
      rw [beq_eq_false_iff_ne]
      omega
    rw [touchingStop, other, Bool.and_false, if_neg Bool.false_ne_true]

/-- A name ends at the same byte whether or not comments and directives are counted in. -/
theorem touchingStop_filter {tokens : List Token} (order : tokens.Pairwise Precedes) {stop : Nat}
    (reached : ∀ token ∈ tokens, stop ≤ token.offset) :
    touchingStop stop (tokens.filter isSignificant) = touchingStop stop tokens := by
  induction tokens generalizing stop with
  | nil => rfl
  | cons token rest ih =>
    obtain ⟨first, later⟩ := List.pairwise_cons.1 order
    cases significant : token.isSignificant with
    | true =>
      rw [List.filter_cons_of_pos significant, touchingStop, touchingStop,
        ih later fun next member => (first next member).apart]
    | false =>
      -- What is left out ends the name, and what follows it lies too far off to touch.
      rw [List.filter_cons_of_neg (by rw [significant]; exact Bool.false_ne_true), touchingStop,
        isName_eq_false significant, Bool.false_and, if_neg Bool.false_ne_true]
      refine touchingStop_of_apart fun next member => ?_
      exact Nat.lt_of_le_of_lt (reached token (List.mem_cons_self ..))
        (first next (List.mem_of_mem_filter member)).offset_lt

theorem touchingStop_eq (stop : Nat) (tokens : List Token) :
    touchingStop stop tokens = stop ∨
      ∃ token ∈ tokens, touchingStop stop tokens = token.stop := by
  induction tokens generalizing stop with
  | nil => exact .inl rfl
  | cons token rest ih =>
    rw [touchingStop]
    split
    · rcases ih token.stop with same | ⟨last, member, same⟩
      · exact .inr ⟨token, List.mem_cons_self .., same⟩
      · exact .inr ⟨last, List.mem_cons_of_mem _ member, same⟩
    · exact .inl rfl

end Token

/-- An item of a source cuts the tokens where it cuts the items. -/
theorem Layout.exists_append_of_items {tokens : List Token} {before after : List Item}
    {item : Item} (split : items tokens = before ++ item :: after) :
    ∃ passed behind, tokens = passed ++ item.toToken :: behind ∧
      behind.filter Token.isSignificant = after.map Item.toToken := by
  have significant := map_toToken_items tokens
  rw [split, List.map_append, List.map_cons] at significant
  obtain ⟨passed, rest, rfl, -, cut⟩ := List.filter_eq_append_iff.1 significant.symm
  obtain ⟨skipped, behind, rfl, -, -, later⟩ := List.filter_eq_cons_iff.1 cut
  exact ⟨passed ++ skipped, behind, by simp, later⟩

namespace Diagnostic

/-- A diagnostic stands at a token with `behind` after it: it covers the token or, if it reports a
missing arrow, the name that the token begins. -/
structure PointsAt (diagnostic : Diagnostic) (token : Token) (behind : List Token) : Prop where
  line : diagnostic.line = token.line
  column : diagnostic.column = token.column
  start : diagnostic.span.start = token.offset
  stop : diagnostic.span.stop =
    if diagnostic.code = .missingArrow then Token.touchingStop token.stop behind else token.stop
  name : diagnostic.code = .missingArrow → token.isName = true

/-- Diagnostics that each stand at one of `tokens`. -/
def Located (tokens : List Token) (diagnostics : List Diagnostic) : Prop :=
  ∀ diagnostic ∈ diagnostics, ∃ before token behind,
    tokens = before ++ token :: behind ∧ diagnostic.PointsAt token behind

theorem StandAt.located {tokens : List Token} {diagnostics : List Diagnostic}
    (stand : StandAt (· ∈ tokens) diagnostics) : Located tokens diagnostics := by
  intro diagnostic member
  obtain ⟨token, problem, listed, code, rfl⟩ := stand diagnostic member
  obtain ⟨before, behind, split⟩ := List.append_of_mem listed
  refine ⟨before, token, behind, split, rfl, rfl, rfl, ?_, fun same => absurd same code⟩
  exact (if_neg code).symm

theorem Located.append {tokens : List Token} {first second : List Diagnostic}
    (left : Located tokens first) (right : Located tokens second) :
    Located tokens (first ++ second) := by
  intro diagnostic member
  rcases List.mem_append.1 member with member | member
  · exact left diagnostic member
  · exact right diagnostic member

end Diagnostic

open Diagnostic (StandAt Located)

/-! ## Comments, strings and directives -/

namespace Layout

private theorem code_lexicalProblem? {token : Token} {previous : Option Token} {problem : Problem}
    (found : token.lexicalProblem? previous = some problem) : problem.code ≠ .missingArrow := by
  unfold Token.lexicalProblem? at found
  repeat' split at found
  all_goals cases found
  all_goals exact Code.noConfusion

/-- What the rules find is found at a token, by the token before it. -/
theorem mem_lexicalDiagnosticsAfter_iff {previous : Option Token} {tokens : List Token}
    {diagnostic : Diagnostic} :
    diagnostic ∈ lexicalDiagnosticsAfter previous tokens ↔
      ∃ before token behind problem, tokens = before ++ token :: behind ∧
        token.lexicalProblem? (before.getLast?.or previous) = some problem ∧
        diagnostic = .atToken token problem := by
  induction tokens generalizing previous with
  | nil => simp [lexicalDiagnosticsAfter]
  | cons first rest ih =>
    rw [lexicalDiagnosticsAfter, List.mem_append, ih]
    constructor
    · rintro (own | ⟨before, token, behind, problem, rfl, found, said⟩)
      · obtain ⟨problem, found, rfl⟩ : ∃ problem, first.lexicalProblem? previous = some problem ∧
            .atToken first problem = diagnostic := by simpa using own
        exact ⟨[], first, rest, problem, rfl, found, rfl⟩
      · -- The token before the rest is the first one.
        refine ⟨first :: before, token, behind, problem, rfl, ?_, said⟩
        rw [List.getLast?_cons, Option.some_or, ← found]
        cases before.getLast? <;> rfl
    · rintro ⟨before, token, behind, problem, split, found, rfl⟩
      -- At the first token it is its own problem, and behind it one of the rest.
      cases before with
      | nil =>
        cases split
        exact .inl (by simpa using ⟨problem, found, rfl⟩)
      | cons other before =>
        cases split
        refine .inr ⟨before, token, behind, problem, rfl, ?_, rfl⟩
        rw [List.getLast?_cons, Option.some_or] at found
        rw [← found]
        cases before.getLast? <;> rfl

theorem lexicalDiagnosticsAfter_standAt {among : Token → Prop} (previous : Option Token)
    {tokens : List Token} (known : ∀ token ∈ tokens, among token) :
    StandAt among (lexicalDiagnosticsAfter previous tokens) := by
  intro diagnostic member
  obtain ⟨before, token, behind, problem, rfl, found, rfl⟩ :=
    mem_lexicalDiagnosticsAfter_iff.1 member
  exact ⟨token, problem, known token (by simp), code_lexicalProblem? found, rfl⟩

end Layout

/-! ## Diagrams -/

section Diagrams

variable {tokens : List Token} {finish : Token} {items : List Item}

private theorem Items.within_of_suffix (read : items <:+ Layout.items tokens) :
    Items.Within (· ∈ tokens) items :=
  fun _ member => Layout.toToken_mem_of_mem_items (read.subset member)

/-- A node takes its place from a name among the tokens, and its own name reaches as far as names
touch. -/
theorem Flowchart.BeginsAmong.exists_name (order : tokens.Pairwise Token.Precedes) {node : Node}
    {left : List Item} (begins : BeginsAmong finish (Layout.items tokens) left (.node node)) :
    ∃ passed token behind, tokens = passed ++ token :: behind ∧ token.isName = true ∧
      node.position = token.position ∧
        node.position.offset + node.id.utf8ByteSize = Token.touchingStop token.stop behind := by
  obtain ⟨before, item, after, split, -, begins⟩ := begins
  obtain ⟨passed, behind, rfl, later⟩ := Layout.exists_append_of_items split
  obtain ⟨name, id⟩ := begins.name node rfl
  have place : node.position = item.position := begins.position
  have apart := List.pairwise_cons.1 (List.pairwise_append.1 order).2.1
  refine ⟨passed, item.toToken, behind, rfl, name, place, ?_⟩
  -- The name was read from the items; among all tokens it ends at the same byte.
  rw [place, id, Items.offset_add_peekName finish name, ← later]
  exact Token.touchingStop_filter apart.2 fun next member => (apart.1 next member).apart

/-- A missing arrow covers the name that its token begins. -/
theorem Flowchart.pointsAt_unconnected (order : tokens.Pairwise Token.Precedes)
    (first : Node) {second : Node} {left : List Item}
    (begins : BeginsAmong finish (Layout.items tokens) left (.node second)) :
    Located tokens [unconnected first second] := by
  obtain ⟨passed, token, behind, split, name, place, stop⟩ := begins.exists_name order
  intro diagnostic same
  rw [List.mem_singleton] at same
  subst same
  refine ⟨passed, token, behind, split, congrArg Position.line place,
    congrArg Position.column place, congrArg Position.offset place, ?_, fun _ => name⟩
  have code : (unconnected first second).code = .missingArrow := rfl
  rw [if_pos code, ← stop]
  exact Nat.max_eq_right (Nat.le_add_right ..)

private theorem Flowchart.read_located (order : tokens.Pairwise Token.Precedes)
    (finished : finish ∈ tokens) (header : Token) (read : items <:+ Layout.items tokens) :
    Located tokens (Flowchart.read finish header items).diagnostics := by
  have within := Items.within_of_suffix read
  have inside := readDirection_suffix header items
  have runs := runs_run finish none 0 0 false (readDirection header items).rest
  -- The direction, the elements, and what is said of neighbours afterwards.
  refine .append (.append ?_ ?_) ?_
  · exact (readDirection_standAt within).located
  · refine (runs.standAt finished ?_ (within.suffix inside)).located
    exact fun keyword none => by cases none
  · intro diagnostic member
    obtain ⟨first, second, listed, rfl⟩ := exists_of_mem_connectionDiagnostics member
    have begins := (runs.begins _ listed).mono (inside.trans read) (List.suffix_refl _)
    exact pointsAt_unconnected order first begins _ (List.mem_singleton_self _)

private theorem Diagram.read_located (order : tokens.Pairwise Token.Precedes)
    (finished : finish ∈ tokens)
    (source : List Char) (read : items <:+ Layout.items tokens) :
    Located tokens (Diagram.read source finish items).diagnostics := by
  by_cases flowchart : (Items.front finish items).kind = .header .flowchart
  · unfold Diagram.read
    dsimp only
    rw [flowchart]
    exact Flowchart.read_located order finished _ ((List.tail_suffix _).trans read)
  · exact (Diagram.read_standAt source finished (Items.within_of_suffix read) flowchart).located

end Diagrams

/-! ## Sources -/

namespace Validation

private theorem finish_mem_tokenize (source : String) :
    Layout.finish source ∈ Token.tokenize source := by
  obtain ⟨lexemes, split, -⟩ := (Token.tiles_tokenize source).eq_append
  rw [split]
  exact List.mem_append_right _ (List.mem_singleton_self _)

theorem diagrams_rest_suffix (source : String) :
    (diagrams source).1.rest <:+ Layout.items (Token.tokenize source) := by
  unfold diagrams Diagram.ofItems
  cases Layout.items (Token.tokenize source) with
  | nil => exact List.suffix_refl _
  | cons first rest => exact (Diagram.read_suffix ..).trans (List.suffix_cons ..)

theorem found_located (source : String) : Located (Token.tokenize source) (found source) := by
  have order := (Token.tiles_tokenize source).pairwise
  have finished := finish_mem_tokenize source
  -- The tokens by themselves, the first diagram, and the diagrams behind it.
  refine .append (.append ?_ ?_) ?_
  · exact (Layout.lexicalDiagnosticsAfter_standAt none fun _ member => member).located
  · exact Diagram.read_located order finished _ (List.suffix_refl _)
  · intro diagnostic member
    obtain ⟨reading, later, own⟩ := List.mem_flatMap.1 member
    obtain ⟨first, rest, inside, rfl⟩ := Reading.exists_of_mem_statements later
    exact Diagram.read_located order finished _ (inside.trans (diagrams_rest_suffix source))
      diagnostic own

end Validation

theorem Diagnostic.PointsAt.isBoundary_stop {source : String} {diagnostic : Diagnostic}
    {before behind : List Token} {token : Token}
    (split : Token.tokenize source = before ++ token :: behind)
    (points : diagnostic.PointsAt token behind) :
    Text.IsBoundary source.toList diagnostic.span.stop := by
  have boundary (other : Token) (member : other ∈ token :: behind) :
      Text.IsBoundary source.toList other.stop := by
    refine (Token.isBoundary_tokenize source other ?_).2
    rw [split]
    exact List.mem_append_right _ member
  rw [points.stop]
  split
  · rcases Token.touchingStop_eq token.stop behind with same | ⟨last, member, same⟩
    · rw [same]
      exact boundary token (List.mem_cons_self ..)
    · rw [same]
      exact boundary last (List.mem_cons_of_mem _ member)
  · exact boundary token (List.mem_cons_self ..)

/-- Whatever is said of a source that is not blank stands at a token of it, the end of the input
included, and covers a piece of the source that is cut between characters. -/
theorem diagnostics_point_at_tokens (source : String)
    (written : ∃ c ∈ source.toList, Text.isBlank c = false) :
    ∀ diagnostic ∈ (validate source).diagnostics,
      (∃ before token behind, Token.tokenize source = before ++ token :: behind ∧
        diagnostic.PointsAt token behind) ∧
      ∃ covered, Text.slice? diagnostic.span.start diagnostic.span.stop source.toList =
        some covered := by
  have text : Text.isBlankText source = false := by
    obtain ⟨c, member, solid⟩ := written
    rw [Text.isBlankText, List.all_eq_false]
    exact ⟨c, member, by rw [solid]; exact Bool.false_ne_true⟩
  intro diagnostic member
  rw [validate, text, if_neg Bool.false_ne_true] at member
  have member : diagnostic ∈ Validation.found source := List.mem_mergeSort.1 member
  obtain ⟨before, token, behind, split, points⟩ :=
    Validation.found_located source diagnostic member
  refine ⟨⟨before, token, behind, split, points⟩, ?_⟩
  have start : Text.IsBoundary source.toList diagnostic.span.start := by
    rw [points.start]
    exact (Token.isBoundary_tokenize source token (by rw [split]; simp)).1
  exact start.slice?_isSome (points.isBoundary_stop split) diagnostic.span.start_le_stop

/-- The second node is spelled by two tokens, and the missing arrow before it covers both. -/
theorem diagnostics_point_at_tokens_missingArrow :
    ((validate "flowchart TD\nA Bé").diagnostics.map fun diagnostic =>
        (diagnostic.code, diagnostic.line, diagnostic.column, diagnostic.span.start,
          diagnostic.span.stop)) = [(.missingArrow, 2, 3, 15, 18)] ∧
      ∀ diagnostic ∈ (validate "flowchart TD\nA Bé").diagnostics,
        (∃ before token behind,
          Token.tokenize "flowchart TD\nA Bé" = before ++ token :: behind ∧
            diagnostic.PointsAt token behind) ∧
        ∃ covered, Text.slice? diagnostic.span.start diagnostic.span.stop
          "flowchart TD\nA Bé".toList = some covered :=
  ⟨by decide +kernel, diagnostics_point_at_tokens _ ⟨'A', by decide +kernel, by decide⟩⟩

end DiagramCheck
