/-
# Diagnostics stand at tokens

Every grammar reports what it finds at a token it was given: one of the items it
reads, the token they follow, or the end of the input. `StandAt` says so of a
list of diagnostics, for any set of tokens that holds those given, and there is
one fact about each reader.

The one diagnostic that covers more than a token, the missing arrow, is left out
here. It is found after a flowchart has been read, from the positions and names
of its nodes.
-/

import DiagramCheck.Diagram.Basic
import DiagramCheck.Proofs.Flowchart.Run

namespace DiagramCheck

/-! ## Sets of tokens -/

/-- Diagnostics that each stand at a token of `among`, cover it, and report no missing arrow. -/
def Diagnostic.StandAt (among : Token → Prop) (diagnostics : List Diagnostic) : Prop :=
  ∀ diagnostic ∈ diagnostics, ∃ token problem,
    among token ∧ problem.code ≠ .missingArrow ∧ diagnostic = .atToken token problem

/-- Items that are all tokens of `among`. -/
def Items.Within (among : Token → Prop) (items : List Item) : Prop :=
  ∀ item ∈ items, among item.toToken

variable {among : Token → Prop} {finish : Token}

namespace Diagnostic.StandAt

theorem nil : StandAt among [] := fun _ member => by cases member

theorem one {token : Token} {problem : Problem} (code : problem.code ≠ .missingArrow)
    (member : among token) : StandAt among [.atToken token problem] := by
  intro diagnostic same
  rw [List.mem_singleton] at same
  exact ⟨token, problem, member, code, same⟩

theorem append {first second : List Diagnostic} (left : StandAt among first)
    (right : StandAt among second) : StandAt among (first ++ second) := by
  intro diagnostic member
  rcases List.mem_append.1 member with member | member
  · exact left diagnostic member
  · exact right diagnostic member

theorem flatMap {α : Type} {list : List α} {diagnostics : α → List Diagnostic}
    (each : ∀ a ∈ list, StandAt among (diagnostics a)) :
    StandAt among (list.flatMap diagnostics) := by
  intro diagnostic member
  obtain ⟨a, listed, member⟩ := List.mem_flatMap.1 member
  exact each a listed diagnostic member

end Diagnostic.StandAt

namespace Items.Within

theorem subset {items more : List Item} (within : Within among items) (less : more ⊆ items) :
    Within among more :=
  fun item member => within item (less member)

theorem suffix {items rest : List Item} (within : Within among items) (suffix : rest <:+ items) :
    Within among rest :=
  within.subset suffix.subset

theorem tail {items : List Item} (within : Within among items) : Within among items.tail :=
  within.suffix (List.tail_suffix _)

theorem of_cons {first : Item} {rest : List Item} (within : Within among (first :: rest)) :
    Within among rest :=
  within.suffix (List.suffix_cons ..)

theorem head {first : Item} {rest : List Item} (within : Within among (first :: rest)) :
    among first.toToken :=
  within first (List.mem_cons_self ..)

theorem onLine {items : List Item} (within : Within among items) (line : Nat) :
    Within among (Items.onLine line items) :=
  within.subset (List.takeWhile_prefix _).subset

theorem front {items : List Item} (within : Within among items) (finished : among finish) :
    among (Items.front finish items) := by
  cases items with
  | nil => exact finished
  | cons first rest => exact within.head

end Items.Within

open Diagnostic (StandAt)
open Items (Within)

/-- Every statement begins with an item of those it is read from. -/
theorem Reading.exists_of_mem_statements {α : Type} {read : Item → List Item → Reading α}
    {suffix : ∀ first rest, (read first rest).rest <:+ rest} {items : List Item}
    {reading : Reading α} (member : reading ∈ Reading.statements read suffix items) :
    ∃ first rest, first :: rest <:+ items ∧ reading = read first rest := by
  fun_induction Reading.statements read suffix items with
  | case1 => cases member
  | case2 first rest ih =>
    rcases List.mem_cons.1 member with rfl | member
    · exact ⟨first, rest, List.suffix_refl _, rfl⟩
    · obtain ⟨next, behind, later, same⟩ := ih member
      exact ⟨next, behind, later.trans ((suffix first rest).trans (List.suffix_cons ..)), same⟩

/-- Statement after statement stands at its tokens when each statement does. -/
theorem Reading.statements_standAt {α : Type} {read : Item → List Item → Reading α}
    {suffix : ∀ first rest, (read first rest).rest <:+ rest}
    (each : ∀ first rest, Within among (first :: rest) →
      StandAt among (read first rest).diagnostics)
    {items : List Item} (within : Within among items) :
    StandAt among ((Reading.statements read suffix items).flatMap (·.diagnostics)) := by
  refine .flatMap fun reading member => ?_
  obtain ⟨first, rest, later, rfl⟩ := exists_of_mem_statements member
  exact each first rest (within.suffix later)

/-! ## Labels and decorations -/

theorem Label.read_standAt (finished : among finish) {items : List Item}
    (within : Within among items) (owner : Token) (bracket : Bracket) (line : Nat)
    (stops : TokenKind → Bool) :
    StandAt among (Label.read finish owner bracket line stops items).diagnostics := by
  unfold Label.read
  dsimp only
  split
  · exact .nil
  · exact .one Code.noConfusion ((within.suffix (List.dropWhile_suffix _)).front finished)

namespace Decoration

variable {keyword : Token} {line : List Item}

private theorem code_misplaced (decoration : Decoration) (family : Family) (line : List Item) :
    (decoration.misplaced family line).code ≠ .missingArrow := by
  unfold misplaced
  split
  · exact Code.noConfusion
  · split <;> exact Code.noConfusion
  · exact Code.noConfusion

private theorem classProblems_standAt (known : among keyword) (within : Within among line) :
    StandAt among (classProblems keyword line) := by
  unfold classProblems
  split
  · exact .one Code.noConfusion known
  · cases found : line.find? (·.kind == .equals) with
    | none => exact .nil
    | some equals => exact .one Code.noConfusion (within equals (List.mem_of_find?_eq_some found))

private theorem code_linkIndexProblem? {links : Nat} {token : Token} {problem : Problem}
    (wrong : linkIndexProblem? links token = some problem) : problem.code ≠ .missingArrow := by
  unfold linkIndexProblem? at wrong
  split at wrong
  · cases wrong
    exact Code.noConfusion
  · split at wrong <;> cases wrong
    exact Code.noConfusion

private theorem linkStyleProblems_standAt (known : among keyword) (within : Within among line)
    (links : Nat) (found : Token) :
    StandAt among (linkStyleProblems links keyword found line) := by
  unfold linkStyleProblems
  split
  · exact .one Code.noConfusion known
  · next first rest =>
    split
    · exact .nil
    · split
      · -- Every index is checked by itself and reported at its own item.
        intro diagnostic member
        obtain ⟨item, leading, wrong⟩ := List.mem_filterMap.1 member
        obtain ⟨problem, found, rfl⟩ := Option.map_eq_some_iff.1 wrong
        refine ⟨item.toToken, problem, within item ?_, code_linkIndexProblem? found, rfl⟩
        exact (List.takeWhile_prefix _).subset (List.mem_filter.1 leading).1
      · exact .one Code.noConfusion known

private theorem directionProblems_standAt (known : among keyword) (within : Within among line) :
    StandAt among (directionProblems keyword line) := by
  unfold directionProblems
  split
  · exact .one Code.noConfusion known
  · split
    · exact .nil
    · exact .one Code.noConfusion within.head

/-- A decoration is reported at its keyword or at an item of its line. -/
theorem read_standAt (known : among keyword) {rest : List Item} (within : Within among rest)
    (decoration : Decoration) (family : Family) (links : Nat) :
    StandAt among (decoration.read finish family links keyword rest).diagnostics := by
  have onLine := within.onLine keyword.line
  simp only [read, diagnostics]
  split
  · cases decoration with
    | classDefinition => exact classProblems_standAt known onLine
    | linkStyle => exact linkStyleProblems_standAt known onLine _ _
    | direction => exact directionProblems_standAt known onLine
    | _ => exact .nil
  · exact .one (code_misplaced _ _ _) known

end Decoration

/-! ## Flowcharts -/

namespace Flowchart

private theorem readNode_standAt (finished : among finish) {items : List Item}
    (within : Within among items) : StandAt among (readNode finish items).diagnostics := by
  unfold readNode
  dsimp only
  split
  · exact .nil
  · rw [Reading.diagnostics_map]
    exact Label.read_standAt finished (within.suffix (Items.afterName_suffix _)).tail _ _ _ _

private theorem readLinkLabel_standAt (finished : among finish) {items : List Item}
    (within : Within among items) (line : Nat) :
    StandAt among (readLinkLabel finish line items).diagnostics := by
  unfold readLinkLabel
  dsimp only
  split
  · exact .nil
  · exact .one Code.noConfusion ((within.suffix (List.dropWhile_suffix _)).front finished)

private theorem readLink_standAt (finished : among finish) {arrow : Token} (known : among arrow)
    {rest : List Item} (within : Within among rest) (shape : Arrow) :
    StandAt among (readLink finish shape arrow rest).diagnostics := by
  unfold readLink
  refine .append ?_ ?_
  · -- The label.
    unfold readOptionalLinkLabel
    split
    · exact readLinkLabel_standAt finished within.tail _
    · exact .nil
  · -- The destination is only looked for here; a missing one is reported at the arrow.
    split
    · exact .one Code.noConfusion known
    · exact .nil

private theorem readPlain_standAt (finished : among finish) {first : Item} {rest : List Item}
    (within : Within among (first :: rest)) (links : Nat) (hasSource : Bool) :
    StandAt among (readPlain finish links hasSource first rest).diagnostics := by
  have plain := plain_readPlain finish links hasSource first rest
  generalize readPlain finish links hasSource first rest = reading at plain ⊢
  cases plain with
  | decoration =>
    rw [Reading.diagnostics_map]
    exact Decoration.read_standAt within.head within.of_cons _ _ _
  | semicolon => exact .nil
  | link =>
    refine .append ?_ (readLink_standAt finished within.head within.of_cons _)
    split
    · exact .nil
    · exact .one Code.noConfusion within.head
  | node => exact readNode_standAt finished within
  | unexpected => exact .one Code.noConfusion within.head

private theorem readHeading_standAt (finished : among finish) {keyword : Token}
    (known : among keyword)
    {rest : List Item} (within : Within among rest) :
    StandAt among (readHeading finish keyword rest).diagnostics := by
  unfold readHeading
  split
  · dsimp only
    split
    · rw [Reading.diagnostics_map]
      exact Label.read_standAt finished (within.suffix (Items.afterName_suffix _)).tail _ _ _ _
    · exact .nil
  · exact .one Code.noConfusion known

private theorem unclosed_standAt {enclosing : Option Token}
    (known : ∀ keyword ∈ enclosing, among keyword) :
    StandAt among (unclosed enclosing) := by
  cases enclosing with
  | none => exact .nil
  | some keyword => exact .one Code.noConfusion (known keyword rfl)

/-- A run reports at its items, at the end of the input, and at the keyword of the subgraph it
belongs to. -/
theorem Runs.standAt (finished : among finish) {enclosing : Option Token} {depth links : Nat}
    {hasSource : Bool} {items : List Item} {run : Run}
    (runs : Runs finish enclosing depth links hasSource items run)
    (known : ∀ keyword ∈ enclosing, among keyword) (within : Within among items) :
    StandAt among run.diagnostics := by
  induction runs with
  | nil => exact unclosed_standAt known
  | boundary => exact unclosed_standAt known
  | closed => exact .nil
  | unmatched _ _ _ ih =>
    exact .append (.one Code.noConfusion within.head) (ih known within.of_cons)
  | @subgraph _ _ _ _ first rest _ _ _ _ _ nested later nestedStand laterStand =>
    have inside := within.of_cons.suffix (readHeading_suffix finish first.toToken rest)
    refine .append (.append ?_ ?_) ?_
    · exact readHeading_standAt finished within.head within.of_cons
    · -- Inside, the keyword that a missing end is reported at is the item read just now.
      refine nestedStand ?_ inside
      rintro _ ⟨⟩
      exact within.head
    · exact laterStand known (inside.suffix nested.suffix)
  | tooDeep _ _ _ _ ih =>
    have behind := within.of_cons.suffix (skipSubgraph_suffix 1 _)
    exact .append (.one Code.noConfusion within.head) (ih known behind)
  | plain _ _ _ read _ ih =>
    subst read
    exact .append (readPlain_standAt finished within _ _)
      (ih known (within.of_cons.suffix (readPlain_suffix ..)))

theorem readDirection_standAt {header : Token} {rest : List Item} (within : Within among rest) :
    StandAt among (readDirection header rest).diagnostics := by
  unfold readDirection
  split
  · exact .nil
  · split
    · split
      · exact .nil
      · exact .one Code.noConfusion within.head
    · exact .nil

end Flowchart

end DiagramCheck
