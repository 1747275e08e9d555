/-
# What stands below

Items that all end above some others are read without them. A line that has
started holds none of the items below it, a name does not reach down to them, and
a label in brackets does not either once it is closed. So a reader that stays on
its line, or finds what it looks for, leaves over what stands below untouched,
and what it reads is what it would read at the end of the input. Where the statements
of a list of items begin is noted with what stands behind each of them.

Main statement: `statements_append`, for statements read one after the other.
-/

import DiagramCheck.Proofs.Diagnostic.Order
import DiagramCheck.Proofs.Reading.Name

namespace DiagramCheck

namespace Items

/-- What starts on the line at the front comes before everything that is left below. -/
theorem LaidOut.precedes_of_onLine {items : List Item} (laid : LaidOut items) {line : Nat}
    {item next : Item} (member : item ∈ onLine line items) (left : next ∈ skipLine line items) :
    item.toToken.Precedes next.toToken := by
  have order := laid.pairwise
  rw [← List.takeWhile_append_dropWhile (p := (·.line == line)) (l := items)] at order
  exact (List.pairwise_append.1 order).2.2 item member next left

/-- Items that all start below a line. -/
def Below (line : Nat) (later : List Item) : Prop := ∀ next ∈ later, line < next.line

/-- Items that end above the lines, and before the bytes, at which others start. -/
def Above (items later : List Item) : Prop :=
  ∀ item ∈ items, ∀ next ∈ later, item.endLine < next.line ∧ item.stop < next.offset

variable {items later : List Item} {first : Item} {rest : List Item} {line : Nat}

namespace Above

theorem subset (above : Above items later) (subset : rest ⊆ items) : Above rest later :=
  fun item member => above item (subset member)

theorem suffix (above : Above items later) (suffix : rest <:+ items) : Above rest later :=
  above.subset suffix.subset

theorem append {more : List Item} (above : Above items later) (further : Above items more) :
    Above items (later ++ more) :=
  fun item member => List.forall_mem_append.2 ⟨above item member, further item member⟩

theorem of_cons (above : Above (first :: rest) later) : Above rest later :=
  above.suffix (List.suffix_cons ..)

theorem below_endLine (above : Above (first :: rest) later) : Below first.endLine later :=
  fun next member => (above first (List.mem_cons_self ..) next member).1

theorem below (above : Above (first :: rest) later) : Below first.line later :=
  fun next member => first.line_le_endLine.trans_lt (above.below_endLine next member)

end Above

/-! ## Lines -/

section Lines

variable (below : Below line later)

include below

theorem Below.stops (test : Item → Bool) :
    ∀ next ∈ later, (next.line == line && test next) = false := by
  intro next member
  have other : (next.line == line) = false := by
    have := below next member
    rw [beq_eq_false_iff_ne]
    omega
  rw [other, Bool.false_and]

theorem onLine_append (items : List Item) : onLine line (items ++ later) = onLine line items :=
  (takeWhile_append_of_stops items fun next member => by
    simpa using below.stops (fun _ => true) next member).1

theorem skipLine_append (items : List Item) :
    skipLine line (items ++ later) = skipLine line items ++ later :=
  (takeWhile_append_of_stops items fun next member => by
    simpa using below.stops (fun _ => true) next member).2

/-- An item alone on its line is all there is of the line. -/
theorem onLine_alone (alone : first.line = line) : onLine line (first :: later) = [first] :=
  (onLine_append below [first]).trans (by simp [onLine, alone])

theorem skipLine_alone (alone : first.line = line) : skipLine line (first :: later) = later :=
  (skipLine_append below [first]).trans (by simp [skipLine, alone])

theorem frontIs_append (test : Item → Bool) (items : List Item) :
    frontIs line test (items ++ later) = frontIs line test items := by
  cases items with
  | nil =>
    cases later with
    | nil => rfl
    | cons next later => exact below.stops test next (List.mem_cons_self ..)
  | cons first rest => rfl

theorem dropIf_append (test : Item → Bool) (items : List Item) :
    dropIf line test (items ++ later) = dropIf line test items ++ later := by
  rw [dropIf, dropIf, frontIs_append below]
  split
  · next front =>
    obtain ⟨first, rest, rfl, -, -⟩ := exists_of_frontIs front
    rfl
  · rfl

end Lines

/-! ## Names -/

private theorem touching_append {stop : Nat} (apart : ∀ next ∈ later, stop < next.offset)
    (above : Above items later) : touching stop (items ++ later) = touching stop items := by
  induction items generalizing stop with
  | nil =>
    cases later with
    | nil => rfl
    | cons next later =>
      have other : (next.offset == stop) = false := by
        have := apart next (List.mem_cons_self ..)
        rw [beq_eq_false_iff_ne]
        omega
      rw [List.nil_append, touching, touching, other, Bool.and_false, if_neg Bool.false_ne_true]
  | cons first rest ih =>
    rw [List.cons_append, touching, touching,
      ih (fun next member => (above first (List.mem_cons_self ..) next member).2) above.of_cons]

section Names

variable (above : Above (first :: rest) later) (finish finish' : Token)

include above

private theorem nameLength_append :
    nameLength (first :: rest ++ later) = nameLength (first :: rest) := by
  rw [List.cons_append, nameLength, nameLength, touching_append
    (fun next member => (above first (List.mem_cons_self ..) next member).2) above.of_cons]

theorem peekName_append :
    peekName finish' (first :: rest ++ later) = peekName finish (first :: rest) := by
  rw [peekName, peekName, nameLength_append above,
    List.take_append_of_le_length (nameLength_le _)]
  rfl

theorem afterName_append :
    afterName (first :: rest ++ later) = afterName (first :: rest) ++ later := by
  have short : max 1 (nameLength (first :: rest)) ≤ (first :: rest).length :=
    Nat.max_le.2 ⟨by simp, nameLength_le _⟩
  rw [afterName, afterName, nameLength_append above, List.drop_append_of_le_length short]

end Names

end Items

/-! ## Statements -/

namespace Reading

/-- A reading that leaves over more. -/
def extend {α : Type} (reading : Reading α) (later : List Item) : Reading α :=
  { reading with rest := reading.rest ++ later }

/-- Statement after statement is read without what stands below, when each one is. -/
theorem statements_append {α : Type} {read read' : Item → List Item → Reading α}
    {suffix : ∀ first rest, (read first rest).rest <:+ rest}
    {suffix' : ∀ first rest, (read' first rest).rest <:+ rest} {items later : List Item}
    (each : ∀ first rest, first :: rest <:+ items →
      read first rest ∈ statements read suffix items →
      read' first (rest ++ later) = (read first rest).extend later) :
    statements read' suffix' (items ++ later) =
      (statements read suffix items).map (·.extend later) ++ statements read' suffix' later := by
  fun_induction statements read suffix items with
  | case1 => rfl
  | case2 first rest ih =>
    have own := each first rest (List.suffix_refl _) (List.mem_cons_self ..)
    have behind := ih fun next more later member => each next more
      (later.trans ((suffix first rest).trans (List.suffix_cons ..)))
      (List.mem_cons_of_mem _ member)
    rw [List.cons_append, statements, own, List.map_cons, List.cons_append]
    exact congrArg _ behind

/-- The items that statements read one after the other begin with, each with what is behind it. -/
def beginnings {α : Type} (read : Item → List Item → Reading α)
    (suffix : ∀ first rest, (read first rest).rest <:+ rest) :
    List Item → List (Item × List Item)
  | [] => []
  | first :: rest => (first, rest) :: beginnings read suffix (read first rest).rest
termination_by items => items.length
decreasing_by exact Nat.lt_succ_of_le (suffix first rest).length_le

section Beginnings

variable {α : Type} (read : Item → List Item → Reading α)
  (suffix : ∀ first rest, (read first rest).rest <:+ rest)

theorem statements_eq_map (items : List Item) :
    statements read suffix items =
      (beginnings read suffix items).map fun place => read place.1 place.2 := by
  fun_induction beginnings read suffix items with
  | case1 => rw [statements, List.map_nil]
  | case2 first rest ih => rw [statements, ih, List.map_cons]

theorem beginnings_sublist (items : List Item) :
    ((beginnings read suffix items).map Prod.fst).Sublist items := by
  fun_induction beginnings read suffix items with
  | case1 => exact .slnil
  | case2 first rest ih => exact (ih.trans (suffix first rest).sublist).cons_cons first

theorem suffix_of_mem_beginnings {items rest : List Item} {first : Item}
    (member : (first, rest) ∈ beginnings read suffix items) : first :: rest <:+ items := by
  fun_induction beginnings read suffix items with
  | case1 => cases member
  | case2 head tail ih =>
    rcases List.mem_cons.1 member with same | later
    · cases same
      exact List.suffix_refl _
    · exact (ih later).trans ((suffix head tail).trans (List.suffix_cons ..))

end Beginnings

end Reading

end DiagramCheck
