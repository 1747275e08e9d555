/-
# The manner of a report

Most problems are reported at a token that is read with what reports it, so no
later reader sees that token. Some are reported at a token that is only looked
at: it stands where a bracket, a pipe or a number was expected, is left where it
stands, and is read again by whatever comes next. Those of comments, strings and
directives are found among all tokens before anything is read. Which of the
three a diagnostic is can be told from its code and its message alone.

So what one reader reports lies in a stretch of the source: from the token it
begins with to the token it leaves over. Only a report ahead can stand at the far
end, and none stands at the near end. Two stretches that meet share one token,
and what is said there on either side differs in manner.
-/

import DiagramCheck.Proofs.Layout.Order
import DiagramCheck.Reading.Basic

namespace DiagramCheck

/-! ## Manners -/

/-- How a problem comes to be reported where it is. -/
inductive Manner
  /-- By the rules for comments, strings and directives. -/
  | lexical
  /-- At a token that is looked at and left. -/
  | ahead
  /-- At a token that is read. -/
  | taken
  deriving DecidableEq, Repr

/-- The manner that a code and a message tell. -/
def Manner.of (code : Code) (message : String) : Manner :=
  match code with
  | .inlineCommentNotSupported => .lexical
  | .invalidYAxisSyntax => .ahead
  | .parseError =>
    if "unterminated".toList.isPrefixOf message.toList then .lexical
    else if "expected '".toList.isPrefixOf message.toList ||
      "expected a numeric value".toList.isPrefixOf message.toList then .ahead
    else .taken
  | _ => .taken

/-- The manner of a problem. -/
def Problem.manner : Problem → Manner
  | .inlineComment | .unterminatedDirective | .unterminatedString => .lexical
  | .unclosedLabel _ _ _ | .unclosedLinkLabel _ | .invalidSeriesValue _ | .missingRangeArrow _
  | .wordAsBound _ | .missingBound _ => .ahead
  | _ => .taken

/-- The wording of a problem tells its manner. -/
theorem Problem.manner_of (problem : Problem) :
    Manner.of problem.code problem.message = problem.manner := by
  cases problem with
  | unclosedLabel owner bracket found =>
    -- The message begins with the bracket that is missing.
    cases bracket <;> delta message <;> dsimp only <;>
      simp [code, Manner.of, manner, TokenKind.name, Bracket.closing, toString]
  | _ =>
    delta message
    dsimp only
    simp [code, Manner.of, manner, toString]

namespace Diagnostic

/-- The manner of a diagnostic. -/
def manner (diagnostic : Diagnostic) : Manner := .of diagnostic.code diagnostic.message

@[simp] theorem manner_atToken (token : Token) (problem : Problem) :
    (atToken token problem).manner = problem.manner := problem.manner_of

/-! ## Diagnostics that differ -/

/-- Diagnostics that do not say the same of the same place. -/
def Apart (first second : Diagnostic) : Prop :=
  first.code = second.code → first.message = second.message →
    first.span.start ≠ second.span.start

theorem Apart.symm {first second : Diagnostic} (apart : first.Apart second) :
    second.Apart first :=
  fun code message => (apart code.symm message.symm).symm

theorem Apart.of_code {first second : Diagnostic} (other : first.code ≠ second.code) :
    first.Apart second :=
  fun same => absurd same other

theorem Apart.of_start {first second : Diagnostic}
    (other : first.span.start ≠ second.span.start) : first.Apart second :=
  fun _ _ => other

theorem Apart.of_manner {first second : Diagnostic} (other : first.manner ≠ second.manner) :
    first.Apart second := by
  intro code message
  rw [manner, manner, code, message] at other
  exact absurd rfl other

/-! ## Stretches of a source -/

/-- A diagnostic of a stretch of the source: it stands at a token that is read there, or ahead of
one. -/
def StandsIn (low high : Nat) (diagnostic : Diagnostic) : Prop :=
  (diagnostic.manner = .taken ∧ low ≤ diagnostic.span.start ∧ diagnostic.span.start < high) ∨
    (diagnostic.manner = .ahead ∧ low < diagnostic.span.start ∧ diagnostic.span.start ≤ high)

/-- Diagnostics of a stretch of the source, no two of which say the same of one place. -/
structure ReportedIn (low high : Nat) (diagnostics : List Diagnostic) : Prop where
  once : diagnostics.Pairwise Apart
  stand : ∀ diagnostic ∈ diagnostics, diagnostic.StandsIn low high

variable {low middle high : Nat} {diagnostic : Diagnostic} {first second : List Diagnostic}

theorem StandsIn.mono {less more : Nat} (stands : diagnostic.StandsIn low high) (wide : less ≤ low)
    (long : high ≤ more) : diagnostic.StandsIn less more := by
  rcases stands with ⟨taken, behind, before⟩ | ⟨ahead, behind, before⟩
  · exact .inl ⟨taken, wide.trans behind, before.trans_le long⟩
  · exact .inr ⟨ahead, wide.trans_lt behind, before.trans long⟩

private theorem StandsIn.low_le (stands : diagnostic.StandsIn low high) :
    low ≤ diagnostic.span.start := by
  rcases stands with ⟨-, behind, -⟩ | ⟨-, behind, -⟩
  · exact behind
  · exact behind.le

/-- What is said on either side of a token differs. -/
theorem StandsIn.apart {other : Diagnostic} (stands : diagnostic.StandsIn low middle)
    (stands' : other.StandsIn middle high) : diagnostic.Apart other := by
  rcases stands with ⟨-, -, before⟩ | ⟨ahead, -, before⟩
  · exact .of_start (before.trans_le stands'.low_le).ne
  · rcases stands' with ⟨taken, -⟩ | ⟨-, behind, -⟩
    · exact .of_manner (by rw [ahead, taken]; exact Manner.noConfusion)
    · exact .of_start (before.trans_lt behind).ne

namespace ReportedIn

theorem nil : ReportedIn low high [] := ⟨.nil, fun _ member => by cases member⟩

theorem one (stands : diagnostic.StandsIn low high) : ReportedIn low high [diagnostic] :=
  ⟨List.pairwise_singleton .., List.forall_mem_singleton.2 stands⟩

theorem taken {token : Token} {problem : Problem} (manner : problem.manner = .taken)
    (behind : low ≤ token.offset) (before : token.offset < high) :
    ReportedIn low high [.atToken token problem] :=
  one (.inl ⟨(manner_atToken ..).trans manner, behind, before⟩)

theorem ahead {token : Token} {problem : Problem} (manner : problem.manner = .ahead)
    (behind : low < token.offset) (before : token.offset ≤ high) :
    ReportedIn low high [.atToken token problem] :=
  one (.inr ⟨(manner_atToken ..).trans manner, behind, before⟩)

theorem mono {less more : Nat} (reported : ReportedIn low high first) (wide : less ≤ low)
    (long : high ≤ more) : ReportedIn less more first :=
  ⟨reported.once, fun diagnostic member => (reported.stand diagnostic member).mono wide long⟩

theorem perm (reported : ReportedIn low high first) (same : first.Perm second) :
    ReportedIn low high second :=
  ⟨same.pairwise reported.once Apart.symm,
    fun diagnostic member => reported.stand diagnostic (same.mem_iff.2 member)⟩

/-- What two readers report of one stretch. -/
theorem both (left : ReportedIn low high first) (right : ReportedIn low high second)
    (apart : ∀ diagnostic ∈ first, ∀ other ∈ second, diagnostic.Apart other) :
    ReportedIn low high (first ++ second) := by
  refine ⟨List.pairwise_append.2 ⟨left.once, right.once, apart⟩, fun diagnostic member => ?_⟩
  rcases List.mem_append.1 member with member | member
  · exact left.stand diagnostic member
  · exact right.stand diagnostic member

/-- One stretch behind another. -/
theorem append (left : ReportedIn low middle first) (right : ReportedIn middle high second)
    (start : low ≤ middle) (stop : middle ≤ high) : ReportedIn low high (first ++ second) :=
  (left.mono le_rfl stop).both (right.mono start le_rfl) fun diagnostic member other member' =>
    (left.stand diagnostic member).apart (right.stand other member')

/-- Reports of distinct codes may share their places. -/
theorem both_of_codes (left : ReportedIn low high first) (right : ReportedIn low high second)
    (codes : ∀ diagnostic ∈ first, ∀ other ∈ second, diagnostic.code ≠ other.code) :
    ReportedIn low high (first ++ second) :=
  left.both right fun diagnostic member other member' =>
    .of_code (codes diagnostic member other member')

end ReportedIn

end Diagnostic

/-! ## Items one behind the other -/

/-- Items that stand in order and before the end of the input. -/
structure Items.Rising (finish : Token) (items : List Item) : Prop where
  laid : LaidOut items
  below : ∀ item ∈ items, item.offset < finish.offset

namespace Items.Rising

variable {finish : Token} {first item : Item} {before behind items rest : List Item}

/-- The items of a source. -/
theorem of_source (source : String) :
    Rising (Layout.finish source) (Layout.items (Token.tokenize source)) :=
  ⟨Layout.laidOut_items source, fun _ member => Layout.offset_lt_finish member⟩

theorem ascending (rising : Rising finish items) :
    items.Pairwise fun first second => first.offset < second.offset :=
  rising.laid.pairwise.imp fun order => order.offset_lt

theorem suffix (rising : Rising finish items) (suffix : rest <:+ items) : Rising finish rest :=
  ⟨rising.laid.suffix suffix, fun item member => rising.below item (suffix.subset member)⟩

theorem tail (rising : Rising finish (first :: rest)) : Rising finish rest :=
  rising.suffix (List.suffix_cons ..)

/-- What stands before some items begins before the first of them. -/
theorem lt_front (rising : Rising finish (before ++ behind)) (member : item ∈ before) :
    item.offset < (front finish behind).offset := by
  cases behind with
  | nil => exact rising.below item (List.mem_append_left _ member)
  | cons next behind =>
    exact (List.pairwise_append.1 rising.ascending).2.2 item member next (List.mem_cons_self ..)

theorem front_le_of_mem (rising : Rising finish items) (member : item ∈ items) :
    (front finish items).offset ≤ item.offset := by
  cases items with
  | nil => cases member
  | cons first rest =>
    rcases List.mem_cons.1 member with rfl | member
    · exact le_rfl
    · exact ((List.pairwise_cons.1 rising.ascending).1 item member).le

theorem front_le (rising : Rising finish items) (suffix : rest <:+ items) :
    (front finish items).offset ≤ (front finish rest).offset := by
  obtain ⟨taken, rfl⟩ := suffix
  cases taken with
  | nil => exact le_rfl
  | cons first taken => exact (rising.lt_front (List.mem_cons_self ..)).le

/-- An item begins before whatever is left of the items behind it. -/
theorem first_lt (rising : Rising finish (first :: items)) (suffix : rest <:+ items) :
    first.offset < (front finish rest).offset := by
  obtain ⟨taken, rfl⟩ := suffix
  have whole : Rising finish ((first :: taken) ++ rest) := rising
  exact whole.lt_front (List.mem_cons_self ..)

theorem first_lt_of_mem (rising : Rising finish (first :: items)) (member : item ∈ items) :
    first.offset < item.offset :=
  (List.pairwise_cons.1 rising.ascending).1 item member

/-- An item on a line begins before what is left when the line is skipped. -/
theorem lt_skipLine {line : Nat} (rising : Rising finish items)
    (member : item ∈ onLine line items) :
    item.offset < (front finish (skipLine line items)).offset := by
  rw [← List.takeWhile_append_dropWhile (p := (·.line == line)) (l := items)] at rising
  exact rising.lt_front member

end Items.Rising

/-! ## Readings -/

/-- A reading that reports between `low` and the token it leaves over. -/
def Reading.ReportsFrom {α : Type} (finish : Token) (low : Nat) (reading : Reading α) : Prop :=
  Diagnostic.ReportedIn low (Items.front finish reading.rest).offset reading.diagnostics

theorem Reading.ReportsFrom.map {α β : Type} {finish : Token} {low : Nat} {reading : Reading α}
    (reports : reading.ReportsFrom finish low) (f : α → β) :
    (reading.map f).ReportsFrom finish low := reports

/-- Statement after statement reports between the first item and the end of the input, when each
statement reports between its own first item and what it leaves over. -/
theorem Reading.statements_reported {α : Type} {finish : Token}
    {read : Item → List Item → Reading α}
    (suffix : ∀ first rest, (read first rest).rest <:+ rest)
    (each : ∀ first rest, Items.Rising finish (first :: rest) →
      (read first rest).ReportsFrom finish first.offset)
    {items : List Item} (rising : Items.Rising finish items) :
    Diagnostic.ReportedIn (Items.front finish items).offset finish.offset
      ((statements read suffix items).flatMap (·.diagnostics)) := by
  fun_induction statements read suffix items with
  | case1 => exact .nil
  | case2 first rest ih =>
    have behind := suffix first rest
    have later := rising.tail.suffix behind
    rw [List.flatMap_cons]
    exact (each first rest rising).append (ih later) (rising.first_lt behind).le
      (later.front_le (List.nil_suffix))

end DiagramCheck
