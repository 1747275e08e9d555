/-
# Categories as groups of items

The list of a category axis falls into groups of items, one between each two commas.
The groups tell what the statement is read as and which of its categories are reported.
They are told from the items alone. So a statement that stops short has the groups it
has, and with another group in the place of one of them, the groups before it are those
they were and the groups behind it are the same words further on.

Main statements: `readStatement_categories` and `exists_group`.
-/

import DiagramCheck.Proofs.Chart.Leaving
import DiagramCheck.Proofs.Diagnostic.Codes
import DiagramCheck.Proofs.Diagnostic.Reported

namespace DiagramCheck

/-! ## Diagnostics that ask for quotes -/

namespace Diagnostic

/-- The diagnostics that ask for quotes around a category. -/
def unquoted (diagnostics : List Diagnostic) : List Diagnostic :=
  diagnostics.filter (·.code == .invalidIdentifier)

theorem unquoted_append (first second : List Diagnostic) :
    unquoted (first ++ second) = unquoted first ++ unquoted second :=
  List.filter_append ..

theorem unquoted_flatMap {α : Type} (list : List α) (diagnostics : α → List Diagnostic) :
    unquoted (list.flatMap diagnostics) = list.flatMap fun a => unquoted (diagnostics a) :=
  List.filter_flatMap ..

theorem CodesIn.unquoted_eq_nil {codes : List Code} {diagnostics : List Diagnostic}
    (codesIn : CodesIn codes diagnostics) (apart : Code.invalidIdentifier ∉ codes) :
    unquoted diagnostics = [] := by
  rw [unquoted, List.filter_eq_nil_iff]
  intro diagnostic member same
  exact apart (beq_iff_eq.1 same ▸ codesIn diagnostic member)

end Diagnostic

open Diagnostic (CodesIn unquoted unquoted_append unquoted_flatMap)

namespace Chart

variable {first : Item} {group items rest : List Item} {left right : List (List Item)}

/-! ## Groups between commas -/

/-- The first group ends in front of the first comma. -/
theorem splitAtCommas_append {group behind : List Item} (solid : ∀ item ∈ group, item.kind ≠ .comma)
    (parts : ∀ next ∈ behind.head?, next.kind = .comma) :
    splitAtCommas (group ++ behind) = group :: (splitAtCommas behind).tail := by
  induction group with
  | nil =>
    cases behind with
    | nil => rfl
    | cons comma rest => rw [List.nil_append, splitAtCommas_comma (parts comma rfl), List.tail_cons]
  | cons first group ih =>
    obtain ⟨own, solid⟩ := List.forall_mem_cons.1 solid
    rw [List.cons_append, splitAtCommas, if_neg own, ih solid]

/-- What stands in front of the first comma is the first group. -/
theorem exists_first_group (items : List Item) : ∃ own behind, items = own ++ behind ∧
    (∀ item ∈ own, item.kind ≠ .comma) ∧ ∀ next ∈ behind.head?, next.kind = .comma := by
  refine ⟨items.takeWhile (·.kind != .comma), items.dropWhile (·.kind != .comma),
    List.takeWhile_append_dropWhile.symm, fun item member => ?_, fun next front => ?_⟩
  · have apart := List.mem_takeWhile_imp member
    exact bne_iff_ne.1 apart
  · have stopped := List.head?_dropWhile_not (·.kind != .comma) items
    rw [front] at stopped
    simpa using stopped

/-- Where a group stands among the items: behind the start or a comma, and in front of a comma or
the end. -/
structure Stands (items : List Item) (left : List (List Item)) (group : List Item)
    (right : List (List Item)) (front behind : List Item) : Prop where
  split : items = front ++ (group ++ behind)
  solid : ∀ item ∈ group, item.kind ≠ .comma
  opened : ∀ last ∈ front.getLast?, last.kind = .comma
  closed : ∀ next ∈ behind.head?, next.kind = .comma
  before : ∀ other, splitAtCommas (front ++ other) = left ++ splitAtCommas other
  later : right = (splitAtCommas behind).tail

private theorem exists_stands (split : splitAtCommas items = left ++ group :: right) :
    ∃ front behind, Stands items left group right front behind := by
  -- By induction on the groups before, each of which takes its comma along.
  induction left generalizing items with
  | nil =>
    obtain ⟨own, behind, whole, solid, parts⟩ := exists_first_group items
    rw [whole, splitAtCommas_append solid parts] at split
    obtain ⟨rfl, later⟩ := List.cons.inj split
    exact ⟨[], behind, whole, solid, nofun, parts, fun _ => rfl, later.symm⟩
  | cons _ left ih =>
    obtain ⟨own, behind, whole, solid, parts⟩ := exists_first_group items
    rw [whole, splitAtCommas_append solid parts] at split
    obtain ⟨rfl, later⟩ := List.cons.inj split
    cases behind with
    | nil => cases left <;> cases later
    | cons comma rest =>
      have parts := parts comma rfl
      rw [splitAtCommas_comma parts, List.tail_cons] at later
      obtain ⟨front, behind, stands⟩ := ih later
      refine ⟨own ++ comma :: front, behind, ?_, stands.solid, fun last ends => ?_, stands.closed,
        fun other => ?_, stands.later⟩
      · rw [whole, stands.split, List.append_assoc, List.cons_append]
      · cases front with
        | nil =>
          rw [List.getLast?_concat] at ends
          cases ends
          exact parts
        | cons => exact stands.opened last (by simpa using ends)
      · rw [List.append_assoc, List.cons_append, splitAtCommas_append solid (by simp [parts]),
          splitAtCommas_comma parts, List.tail_cons, stands.before, List.cons_append]

private theorem splitAtCommas_slid {bytes : Nat} {items' : List Item}
    (slid : List.Forall₂ (Item.Slid bytes) items items') :
    List.Forall₂ (List.Forall₂ (Item.Slid bytes)) (splitAtCommas items)
      (splitAtCommas items') := by
  induction slid with
  | nil => exact .cons .nil .nil
  | @cons _ _ rest rest' own _ ih =>
    rw [splitAtCommas, splitAtCommas, own.kind]
    generalize splitAtCommas rest = groups, splitAtCommas rest' = groups' at ih
    split
    · exact .cons .nil ih
    · cases ih with
      | nil => exact .cons (.cons own .nil) .nil
      | cons group groups => exact .cons (.cons own group) groups

/-! ## The list of an axis -/

/-- The groups of items between the commas of a category axis, if it has a list in brackets. -/
def groups? (first : Item) (rest : List Item) : Option (List (List Item)) :=
  let items := Items.dropIf first.line (·.kind == .string) rest
  if Items.frontIs first.line (·.kind == .opening .square) items then
    some (splitAtCommas (items.tail.takeWhile isListed))
  else none

/-- The categories that groups of items are read as. -/
def names (source : List Char) (groups : List (List Item)) : List String :=
  groups.filterMap fun group => (category source group).1

/-- What is reported of the categories in groups of items. -/
def reported (source : List Char) (groups : List (List Item)) : List Diagnostic :=
  groups.flatMap fun group => (category source group).2

private theorem unquoted_category (source : List Char) (group : List Item) :
    unquoted (category source group).2 = (category source group).2 := by
  unfold category
  split
  · rfl
  · split
    · rfl
    · dsimp only
      split <;> rfl

private theorem unquoted_readCategoryList (source : List Char) (keyword opening : Token)
    (items : List Item) :
    unquoted (readCategoryList source keyword opening items).diagnostics =
      reported source (splitAtCommas (items.takeWhile isListed)) := by
  unfold readCategoryList
  dsimp only
  rw [unquoted_append, unquoted_flatMap, List.flatMap_map]
  simp only [unquoted_category]
  refine (congrArg _ ?_).trans (List.append_nil _)
  split <;> rfl

/-- A category axis is read as the categories of its groups, and these are what is reported for
want of quotes. -/
theorem readStatement_categories {source : List Char} {finish : Token}
    (begun : keyword? first = some .categories) (rest : List Item) :
    (readStatement source finish first rest).value =
        (groups? first rest).map (fun groups => .categories (names source groups)) ∧
      unquoted (readStatement source finish first rest).diagnostics =
        (groups? first rest).elim [] (reported source) := by
  rw [readStatement_of_keyword? begun, readKeyword, readCategories, groups?]
  dsimp only
  split
  · refine ⟨?_, unquoted_readCategoryList ..⟩
    simp only [readCategoryList, Option.map_some, names, List.filterMap_map]
    rfl
  · exact ⟨rfl, rfl⟩

/-- A list as it stands behind the keyword: what is in front of its opening bracket, and what
the groups and the items left over are, whatever stands behind the bracket. -/
structure Opens (first : Item) (front : List Item) (opening : Item) : Prop where
  kind : opening.kind = .opening .square
  groups (list : List Item) :
    groups? first (front ++ opening :: list) = some (splitAtCommas (list.takeWhile isListed))
  leave (list : List Item) : keyword? first = some .categories →
    leave first (front ++ opening :: list) =
      Items.skipLine first.line (list.dropWhile isListed).tail

private theorem kind_of_keyword? {known : Keyword} (begun : keyword? first = some known) :
    first.kind = .identifier := by
  unfold keyword? at begun
  split at begun
  · next word => exact beq_iff_eq.1 (Bool.and_eq_true_iff.1 word).1
  · cases begun

private theorem leave_categories (begun : keyword? first = some .categories) (rest : List Item) :
    leave first rest =
      leaveList first.line (Items.dropIf first.line (·.kind == .string) rest) := by
  rw [leave, if_neg (by simp [kind_of_keyword? begun]), begun]

/-- What stands in front of the bracket is dropped whatever stands behind the bracket. -/
theorem exists_front_of_dropIf {line : Nat} {opening : Item} {list : List Item}
    (dropped : Items.dropIf line (·.kind == .string) rest = opening :: list)
    (kind : opening.kind = .opening .square) :
    ∃ front, rest = front ++ opening :: list ∧ ∀ list,
      Items.dropIf line (·.kind == .string) (front ++ opening :: list) = opening :: list := by
  unfold Items.dropIf at dropped
  split at dropped
  · next titled =>
    obtain ⟨title, behind, rfl, own, string⟩ := Items.exists_of_frontIs titled
    exact ⟨[title], congrArg _ dropped, fun list => if_pos (by simp [Items.frontIs, own, string])⟩
  · exact ⟨[], dropped, fun list => if_neg (by simp [Items.frontIs, kind])⟩

private theorem exists_opens {groups : List (List Item)}
    (found : groups? first rest = some groups) :
    ∃ front opening list, rest = front ++ opening :: list ∧ Opens first front opening ∧
      groups = splitAtCommas (list.takeWhile isListed) := by
  unfold groups? at found
  dsimp only at found
  split at found
  · next front =>
    obtain ⟨opening, list, untitled, own, kind⟩ := Items.exists_of_frontIs front
    have kind := beq_iff_eq.1 kind
    obtain ⟨title, rfl, drop⟩ := exists_front_of_dropIf untitled kind
    have front (list : List Item) :
        Items.frontIs first.line (·.kind == .opening .square) (opening :: list) = true := by
      simp [Items.frontIs, own, kind]
    rw [untitled] at found
    refine ⟨title, opening, list, rfl, ⟨kind, fun list => ?_, fun list begun => ?_⟩,
      (Option.some.inj found).symm⟩
    · rw [groups?, drop]
      exact if_pos (front list)
    · rw [leave_categories begun, drop]
      exact if_pos (front list)
  · cases found

/-- A statement that stops short has its groups whatever it stops short of. -/
theorem groups?_of_stopped {front more ending : List Item} (solid : more ≠ [])
    (begun : keyword? first = some .categories)
    (stopped : leave first (front ++ ending) = more ++ ending) (ending' : List Item) :
    groups? first (front ++ ending') = groups? first (front ++ ending) := by
  rw [leave_categories begun] at stopped
  -- The title is dropped before the end, so the bracket stands before it.
  have behind := (leaveList_stopsShort first.line).suffix
    (Items.dropIf first.line (·.kind == .string) (front ++ ending))
  obtain ⟨items, inside, dropped⟩ := StopsShort.exists_left solid (stopped ▸ behind)
  rw [groups?, groups?, (StopsShort.dropIf _ _).same ending' inside dropped, dropped]
  rw [dropped] at stopped
  obtain ⟨opening, list, rfl⟩ := List.exists_cons_of_ne_nil inside
  have front : Items.frontIs first.line (·.kind == .opening .square) (opening :: list ++ ending') =
      Items.frontIs first.line (·.kind == .opening .square) (opening :: list ++ ending) := rfl
  rw [front]
  split
  · next opened =>
    rw [leaveList, if_pos opened] at stopped
    obtain ⟨_, below, skipped⟩ :=
      StopsShort.exists_left solid (stopped ▸ Items.skipLine_suffix ..)
    obtain ⟨_, closed, searched⟩ :=
      StopsShort.exists_left below (skipped ▸ List.tail_suffix _)
    have found := StopsShort.found_of_stopped closed searched
    rw [List.cons_append, List.cons_append, List.tail_cons, List.tail_cons,
      (takeWhile_append_of_found ending' (found ▸ closed)).1,
      (takeWhile_append_of_found ending (found ▸ closed)).1]
  · rfl

theorem groups?_slid {bytes : Nat} {first' : Item} {rest' : List Item}
    (own : Item.Slid bytes first first') (slid : List.Forall₂ (Item.Slid bytes) rest rest') :
    Option.Rel (List.Forall₂ (List.Forall₂ (Item.Slid bytes))) (groups? first rest)
      (groups? first' rest') := by
  have items := dropIf_kind_slid slid first.line .string
  rw [groups?, groups?, own.line, frontIs_kind_slid items]
  split
  · exact .some (splitAtCommas_slid (takeWhile_slid (tail_forall₂ items) isListed_slid))
  · exact .none

/-- The groups of an axis stand behind the keyword and in front of what is left over. -/
theorem groups_sublist {groups : List (List Item)} (begun : keyword? first = some .categories)
    (found : groups? first rest = some groups) :
    (groups.flatten ++ leave first rest).Sublist rest := by
  obtain ⟨front, opening, list, rfl, opens, rfl⟩ := exists_opens found
  rw [opens.leave list begun, flatten_splitAtCommas]
  have behind := (Items.skipLine_suffix first.line (list.dropWhile isListed).tail).trans
    (List.tail_suffix _)
  have whole := (@List.filter_sublist _ (·.kind ≠ .comma) (list.takeWhile isListed)).append
    behind.sublist
  rw [List.takeWhile_append_dropWhile] at whole
  exact whole.trans ((List.sublist_cons_self ..).trans (List.sublist_append_right ..))

section Replaced

variable {bytes : Nat} {title before later later' : List Item} {opening quoted : Item}
  (opens : Opens first title opening) (listed : ∀ item ∈ before, isListed item = true)
  (string : quoted.kind = .string) (slid : List.Forall₂ (Item.Slid bytes) later later')

include opens listed string slid

/-- With a string in the place of a group the groups before it stay, and those behind it are the
same further on. -/
theorem Opens.exists_groups
    (parted : ∀ other, splitAtCommas (before ++ other) = left ++ splitAtCommas other)
    (closed : ∀ next ∈ (later.takeWhile isListed).head?, next.kind = .comma) :
    ∃ right, groups? first (title ++ opening :: (before ++ quoted :: later')) =
        some (left ++ [quoted] :: right) ∧
      List.Forall₂ (List.Forall₂ (Item.Slid bytes))
        (splitAtCommas (later.takeWhile isListed)).tail right := by
  have inside := takeWhile_slid slid isListed_slid
  refine ⟨(splitAtCommas (later'.takeWhile isListed)).tail, ?_,
    tail_forall₂ (splitAtCommas_slid inside)⟩
  have closed' : ∀ next ∈ (later'.takeWhile isListed).head?, next.kind = .comma := by
    generalize later.takeWhile isListed = own, later'.takeWhile isListed = own' at inside closed
    cases inside with
    | nil => exact nofun
    | cons own _ =>
      rintro _ ⟨⟩
      exact own.kind.trans (closed _ rfl)
  have groups := @splitAtCommas_append [quoted] _ (by simp [string]) closed'
  rw [opens.groups, List.takeWhile_append_of_pos listed, parted,
    List.takeWhile_cons_of_pos (by rw [isListed, string]; rfl)]
  exact congrArg (fun groups => some (left ++ groups)) groups

/-- With a string in the place of a group the statements behind the axis are the same further on. -/
theorem Opens.leave_slid (begun : keyword? first = some .categories)
    (inside : ∀ item ∈ group, isListed item = true) :
    List.Forall₂ (Item.Slid bytes)
      (Chart.leave first (title ++ opening :: (before ++ (group ++ later))))
      (Chart.leave first (title ++ opening :: (before ++ quoted :: later'))) := by
  rw [opens.leave _ begun, opens.leave _ begun, List.dropWhile_append_of_pos listed,
    List.dropWhile_append_of_pos listed, List.dropWhile_append_of_pos inside,
    List.dropWhile_cons_of_pos (by rw [isListed, string]; rfl)]
  exact skipLine_slid (tail_forall₂ (dropWhile_slid slid isListed_slid)) first.line

end Replaced

/-- A group of an axis stands behind the bracket or a comma. With a string in its place the groups
before it stay, and the groups behind it and the statements behind the axis are the same further
on. -/
theorem exists_group (begun : keyword? first = some .categories)
    (found : groups? first rest = some (left ++ group :: right)) :
    ∃ front mark later, rest = front ++ mark :: (group ++ later) ∧
      (mark.kind = .comma ∨ mark.kind = .opening .square) ∧
      (∀ next ∈ later.head?, next.kind ≠ .identifier) ∧
      ∀ {bytes : Nat} {quoted : Item} {later' : List Item}, quoted.kind = .string →
        List.Forall₂ (Item.Slid bytes) later later' →
          (∃ right', groups? first (front ++ mark :: quoted :: later') =
              some (left ++ [quoted] :: right') ∧
            List.Forall₂ (List.Forall₂ (Item.Slid bytes)) right right') ∧
          List.Forall₂ (Item.Slid bytes) (leave first rest)
            (leave first (front ++ mark :: quoted :: later')) := by
  obtain ⟨title, opening, list, rfl, opens, split⟩ := exists_opens found
  obtain ⟨before, behind, stands⟩ := exists_stands split.symm
  -- The mark in front of the group is the last comma before it, or the bracket itself.
  obtain ⟨front, mark, moved, kind⟩ : ∃ front mark,
      (∀ other, title ++ opening :: (before ++ other) = front ++ mark :: other) ∧
        (mark.kind = .comma ∨ mark.kind = .opening .square) := by
    rcases List.eq_nil_or_concat before with rfl | ⟨former, comma, rfl⟩
    · exact ⟨title, opening, fun _ => rfl, .inr opens.kind⟩
    · exact ⟨title ++ opening :: former, comma, fun other => by simp,
        .inl (stands.opened comma (by simp))⟩
  -- The list ends at its closing bracket, or with the input.
  obtain ⟨after, rfl, shut⟩ : ∃ after, list = before ++ (group ++ (behind ++ after)) ∧
      ∀ next ∈ after.head?, next.kind = .closing .square := by
    refine ⟨list.dropWhile isListed, ?_, fun next front => ?_⟩
    · rw [← List.append_assoc group, ← List.append_assoc, ← stands.split,
        List.takeWhile_append_dropWhile]
    · have stopped := List.head?_dropWhile_not isListed list
      rw [front] at stopped
      simpa [isListed] using stopped
  obtain ⟨listed, inside⟩ := List.forall_mem_append.1 fun item member =>
    (List.mem_takeWhile_imp (stands.split ▸ member) : isListed item = true)
  obtain ⟨listedGroup, listedBehind⟩ := List.forall_mem_append.1 inside
  have own : (behind ++ after).takeWhile isListed = behind := by
    rw [List.takeWhile_append_of_pos listedBehind]
    cases after with
    | nil => exact List.append_nil _
    | cons closing =>
      rw [List.takeWhile_cons_of_neg (by simp [isListed, shut closing rfl]), List.append_nil]
  refine ⟨front, mark, behind ++ after, moved _, kind, fun next front => ?_,
    fun string slid => ⟨?_, ?_⟩⟩
  · cases behind with
    | nil => simp [shut next front]
    | cons => simp [stands.closed next front]
  · have groups := opens.exists_groups listed string slid stands.before
      (own.symm ▸ stands.closed)
    rwa [moved, own, ← stands.later] at groups
  · rw [← moved]
    exact opens.leave_slid listed string slid begun listedGroup

end Chart

end DiagramCheck
