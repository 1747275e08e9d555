/-
# Readers that stop short

Every reader goes over its items from the front and looks at most one item past the
last it takes. So a reader that leaves over more than some items at the end has not
come to them: with anything else in their place it stops at the same item. `StopsShort`
says so of two ways to leave items over, since a reader is also told where the input
ends, and in what source.

Readers built from such readers stop short like them, and so do statements that are
read one after the other.

Main statement: `Reading.exists_passed`.
-/

import DiagramCheck.Proofs.Flowchart.Frame

namespace DiagramCheck

/-- Where `leave` stops short of the end of some items, `leave'` stops at the same item, whatever
that end is replaced by. -/
structure StopsShort (leave leave' : List Item → List Item) : Prop where
  suffix : ∀ items, leave items <:+ items
  same : ∀ {front left ending : List Item} (ending' : List Item), left ≠ [] →
    leave (front ++ ending) = left ++ ending → leave' (front ++ ending') = left ++ ending'

namespace StopsShort

variable {leave leave' next next' : List Item → List Item} {front left ending : List Item}

/-- What contains something before the end contains it before the end. -/
theorem exists_left {items : List Item} (more : left ≠ []) (suffix : left ++ ending <:+ items) :
    ∃ between, between ≠ [] ∧ items = between ++ ending := by
  obtain ⟨taken, rfl⟩ := suffix
  exact ⟨taken ++ left, List.append_ne_nil_of_right_ne_nil _ more, (List.append_assoc ..).symm⟩

/-- What contains something before the end is not at the end. -/
theorem not_suffix (more : left ≠ []) : ¬ left ++ ending <:+ ending := by
  intro suffix
  have short := suffix.length_le
  rw [List.length_append] at short
  exact more (List.length_eq_zero_iff.1 (by omega))

/-- Items that end in others and in more than these begin before them. -/
theorem exists_cons {first : Item} {rest : List Item} (more : left ≠ [])
    (split : first :: rest = left ++ ending) :
    ∃ later, left = first :: later ∧ rest = later ++ ending := by
  cases left with
  | nil => exact absurd rfl more
  | cons own later =>
    obtain ⟨rfl, rfl⟩ := List.cons.inj split
    exact ⟨later, rfl, rfl⟩

/-- What is left over before the end is left over by what begins before it. -/
theorem exists_front {first : Item} {rest : List Item} (more : left ≠ [])
    (split : first :: rest = front ++ ending) (suffix : left ++ ending <:+ first :: rest) :
    ∃ later, front = first :: later ∧ rest = later ++ ending := by
  obtain ⟨between, inside, whole⟩ := exists_left more suffix
  obtain rfl := List.append_cancel_right (split.symm.trans whole)
  exact exists_cons inside split

theorem replace (same : front ++ ending = left ++ ending) (ending' : List Item) :
    front ++ ending' = left ++ ending' := by
  rw [List.append_cancel_right same]

theorem refl : StopsShort id id where
  suffix := @List.suffix_refl _
  same ending' _ stopped := replace stopped ending'

/-- What leaves nothing over never stops short. -/
theorem nothing (leave' : List Item → List Item) : StopsShort (fun _ => []) leave' where
  suffix _ := List.nil_suffix
  same _ more left := absurd (List.append_eq_nil_iff.1 left.symm).1 more

theorem comp (first : StopsShort leave leave') (second : StopsShort next next') :
    StopsShort (fun items => next (leave items)) (fun items => next' (leave' items)) where
  suffix items := (second.suffix _).trans (first.suffix items)
  same ending' more left := by
    obtain ⟨between, inside, split⟩ := exists_left more (left ▸ second.suffix _)
    rw [first.same ending' inside split]
    exact second.same ending' more (split ▸ left)

/-- What stops short has taken an item, so there is one. -/
theorem of_inside (suffix : ∀ items, leave items <:+ items)
    (same : ∀ {first : Item} {front left ending : List Item} (ending' : List Item), left ≠ [] →
      leave (first :: front ++ ending) = left ++ ending →
        leave' (first :: front ++ ending') = left ++ ending') : StopsShort leave leave' := by
  refine ⟨suffix, fun {front left ending} ending' more stopped => ?_⟩
  cases front with
  | nil =>
    have inside := suffix ([] ++ ending)
    rw [stopped] at inside
    exact absurd inside (not_suffix more)
  | cons first front => exact same ending' more stopped

/-- What is left over may be told by the first item. -/
theorem of_cons (none : leave [] = [])
    (each : ∀ first, ∃ own own', StopsShort own own' ∧
      (∀ rest, leave (first :: rest) = own (first :: rest)) ∧
      ∀ rest, leave' (first :: rest) = own' (first :: rest)) : StopsShort leave leave' := by
  refine of_inside (fun items => ?_) fun {first front left ending} ending' more stopped => ?_
  · cases items with
    | nil => exact ⟨[], none⟩
    | cons first rest =>
      obtain ⟨own, _, short, same, -⟩ := each first
      exact same rest ▸ short.suffix _
  · obtain ⟨own, own', short, same, same'⟩ := each first
    have within : own (first :: front ++ ending) = left ++ ending := (same _).symm.trans stopped
    exact (same' _).trans (short.same ending' more within)

theorem tail : StopsShort List.tail List.tail :=
  of_inside List.tail_suffix fun ending' _ stopped => replace stopped ending'

/-- A search that finds something before the end finds it whatever the end is. -/
theorem found_of_stopped {test : Item → Bool} (more : left ≠ [])
    (stopped : (front ++ ending).dropWhile test = left ++ ending) :
    front.dropWhile test = left := by
  rw [List.dropWhile_append] at stopped
  split at stopped
  · have inside := List.dropWhile_suffix (l := ending) test
    rw [stopped] at inside
    exact absurd inside (not_suffix more)
  · exact List.append_cancel_right stopped

theorem dropWhile (test : Item → Bool) :
    StopsShort (List.dropWhile test) (List.dropWhile test) where
  suffix _ := List.dropWhile_suffix _
  same ending' more stopped := by
    have found := found_of_stopped more stopped
    rw [(takeWhile_append_of_found ending' (found ▸ more)).2, found]

theorem skipLine (line : Nat) : StopsShort (Items.skipLine line) (Items.skipLine line) :=
  dropWhile _

/-- What is left over may be told by the kind of the first item and its line. -/
theorem ite (line : Nat) (test : Item → Bool) (yes : StopsShort leave leave')
    (no : StopsShort next next') :
    StopsShort (fun items => if Items.frontIs line test items then leave items else next items)
      fun items => if Items.frontIs line test items then leave' items else next' items := by
  refine of_cons (List.suffix_nil.1 (no.suffix [])) fun first => ?_
  cases asked : first.line == line && test first with
  | true => exact ⟨_, _, yes, fun _ => if_pos asked, fun _ => if_pos asked⟩
  | false =>
    have other : ¬ (first.line == line && test first) = true := by simp [asked]
    exact ⟨_, _, no, fun _ => if_neg other, fun _ => if_neg other⟩

theorem dropIf (line : Nat) (test : Item → Bool) :
    StopsShort (Items.dropIf line test) (Items.dropIf line test) :=
  ite line test tail refl

end StopsShort

/-! ## Names -/

namespace Items

variable {first : Item} {front left ending : List Item}

private theorem touching_of_short {stop : Nat} (ending' : List Item)
    (short : (touching stop (front ++ ending)).length < front.length) :
    touching stop (front ++ ending') = touching stop (front ++ ending) := by
  induction front generalizing stop with
  | nil => cases short
  | cons first front ih =>
    rw [List.cons_append, touching] at short ⊢
    rw [List.cons_append, touching]
    split
    · next touches =>
      rw [if_pos touches] at short
      rw [ih (Nat.lt_of_succ_lt_succ short)]
    · rfl

/-- A name that is over before the end is the same whatever the end is. -/
theorem nameLength_of_stopped (more : left ≠ [])
    (stopped : afterName (first :: front ++ ending) = left ++ ending) (ending' : List Item) :
    nameLength (first :: front ++ ending') = nameLength (first :: front ++ ending) ∧
      nameLength (first :: front ++ ending) ≤ (first :: front).length := by
  have room : max 1 (nameLength (first :: front ++ ending)) < (first :: front).length := by
    have lengths := congrArg List.length stopped
    have := List.length_pos_of_ne_nil more
    simp only [afterName, List.length_drop, List.length_append, List.length_cons] at lengths ⊢
    omega
  refine ⟨?_, by omega⟩
  rw [List.cons_append, nameLength] at room
  rw [List.cons_append, List.cons_append, nameLength, nameLength]
  split
  · next name =>
    rw [if_pos name, List.length_cons] at room
    have short : (touching first.stop (front ++ ending)).length < front.length := by omega
    rw [touching_of_short ending' short]
  · rfl

theorem afterName_stopsShort : StopsShort afterName afterName := by
  refine .of_inside afterName_suffix fun {first front left ending} ending' more stopped => ?_
  obtain ⟨same, room⟩ := nameLength_of_stopped more stopped ending'
  have short : max 1 (nameLength (first :: front ++ ending)) ≤ (first :: front).length :=
    Nat.max_le.2 ⟨by simp, room⟩
  rw [afterName, List.drop_append_of_le_length short] at stopped
  rw [afterName, same, List.drop_append_of_le_length short, List.append_cancel_right stopped]

/-- The name in front of what is left over. -/
theorem peekName_of_stopped (finish finish' : Token) (more : left ≠ [])
    (stopped : afterName (first :: front ++ ending) = left ++ ending) (ending' : List Item) :
    peekName finish' (first :: front ++ ending') = peekName finish (first :: front ++ ending) := by
  obtain ⟨same, room⟩ := nameLength_of_stopped more stopped ending'
  rw [peekName, peekName, same, List.take_append_of_le_length room,
    List.take_append_of_le_length room]
  rfl

end Items

/-! ## Labels -/

namespace Label

variable (finish owner : Token) (bracket : Bracket) (line : Nat) (stops : TokenKind → Bool)

/-- What is left over behind a label: the items from the one that closes it or that the surrounding
grammar can start from; a closing one is dropped. -/
def leave (items : List Item) : List Item :=
  recover bracket stops (items.dropWhile (isInside bracket line))

theorem rest_read (items : List Item) :
    (read finish owner bracket line stops items).rest = leave bracket line stops items := by
  unfold read leave
  dsimp only
  split
  · next closed =>
    cases after : items.dropWhile (isInside bracket line) with
    | nil => rfl
    | cons first rest =>
      rw [after] at closed
      have closes : first.kind = .closing bracket := closed
      simp [recover, closes]
  · rfl

/-- Items without the closing bracket in front, if there is one. -/
def dropClosing (bracket : Bracket) : List Item → List Item
  | [] => []
  | first :: rest => if first.kind = .closing bracket then rest else first :: rest

private theorem dropClosing_stopsShort :
    StopsShort (dropClosing bracket) (dropClosing bracket) := by
  refine .of_cons rfl fun first => ?_
  by_cases closes : first.kind = .closing bracket
  · exact ⟨_, _, .tail, fun _ => if_pos closes, fun _ => if_pos closes⟩
  · exact ⟨_, _, .refl, fun _ => if_neg closes, fun _ => if_neg closes⟩

private theorem recover_eq (items : List Item) :
    recover bracket stops items = dropClosing bracket
      (items.dropWhile fun item => !(item.kind == .closing bracket || stops item.kind)) := by
  unfold recover dropClosing
  rfl

theorem leave_stopsShort :
    StopsShort (leave bracket line stops) (leave bracket line stops) := by
  unfold leave
  simp only [recover_eq]
  exact ((StopsShort.dropWhile _).comp (.dropWhile _)).comp (dropClosing_stopsShort bracket)

end Label

/-! ## Statements one after the other -/

namespace Reading

variable {α : Type} {read : Item → List Item → Reading α}
  {suffix : ∀ first rest, (read first rest).rest <:+ rest}

/-- A place where a statement begins, with more behind it. -/
def placeBefore (ending : List Item) (place : Item × List Item) : Item × List Item :=
  (place.1, place.2 ++ ending)

/-- The statements before one that begins in front of some items begin where they begin whatever
these items are, and each of them stops short. -/
theorem exists_passed {front behind ending : List Item} {first : Item}
    (begins : (first, behind ++ ending) ∈ beginnings read suffix (front ++ ending)) :
    ∃ passed : List (Item × List Item),
      (∀ place ∈ passed, place.1 :: place.2 <:+ front ∧
        ∃ left, left ≠ [] ∧ (read place.1 (place.2 ++ ending)).rest = left ++ ending) ∧
      beginnings read suffix (front ++ ending) = passed.map (placeBefore ending) ++
        (first, behind ++ ending) ::
          beginnings read suffix (read first (behind ++ ending)).rest ∧
      ∀ (read' : Item → List Item → Reading α)
        (suffix' : ∀ first rest, (read' first rest).rest <:+ rest) (ending' : List Item),
        (∀ first, StopsShort (fun rest => (read first rest).rest)
          fun rest => (read' first rest).rest) →
        beginnings read' suffix' (front ++ ending') = passed.map (placeBefore ending') ++
          (first, behind ++ ending') ::
            beginnings read' suffix' (read' first (behind ++ ending')).rest := by
  generalize whole : front ++ ending = items at begins ⊢
  -- By induction on the statements, each of which leaves over the front of the next.
  fun_induction beginnings read suffix items generalizing front with
  | case1 => cases begins
  | case2 head rest ih =>
    obtain ⟨between, inside, split⟩ := StopsShort.exists_left (List.cons_ne_nil first behind)
      (suffix_of_mem_beginnings read suffix (beginnings.eq_2 .. ▸ begins))
    obtain rfl := List.append_cancel_right (whole.trans split)
    obtain ⟨front, rfl, rfl⟩ := StopsShort.exists_cons inside split
    rcases List.mem_cons.1 begins with same | later
    · obtain ⟨rfl, behind_eq⟩ := Prod.mk.inj same
      obtain rfl := List.append_cancel_right behind_eq
      refine ⟨[], List.forall_mem_nil _, rfl, fun read' suffix' ending' _ => ?_⟩
      rw [List.cons_append, beginnings]
      rfl
    · obtain ⟨left, more, stopped⟩ := StopsShort.exists_left (List.cons_ne_nil first behind)
        (suffix_of_mem_beginnings read suffix later)
      obtain ⟨passed, each, own, other⟩ := ih stopped.symm later
      have within : left <:+ front := by
        obtain ⟨taken, split⟩ := suffix head (front ++ ending)
        rw [stopped, ← List.append_assoc] at split
        exact ⟨taken, List.append_cancel_right split⟩
      refine ⟨(head, front) :: passed, ?_, ?_, fun read' suffix' ending' short => ?_⟩
      · refine List.forall_mem_cons.2 ⟨⟨List.suffix_refl _, left, more, stopped⟩, ?_⟩
        exact fun place member => ⟨(each place member).1.trans
          (within.trans (List.suffix_cons ..)), (each place member).2⟩
      · rw [own]
        rfl
      · rw [List.cons_append, beginnings, (short head).same ending' more stopped,
          other read' suffix' ending' short]
        rfl

end Reading

end DiagramCheck
