/-
# Charts in an edited text

The categories of a chart are cut from the source text by the places of their items. So
an edit of the text leaves the categories in front of it alone, and a category behind it
is the same text further on. Both are read as before and reported as before, and so are
the lists and the axes that hold no others.

Main statements: `list_before`, `list_behind` and `values_alike`.
-/

import DiagramCheck.Proofs.Chart.Axes

namespace DiagramCheck

open Text (byteLength)

namespace Chart

/-! ## Categories of an edited text -/

/-- Groups in two sources that are read as the same category, and are reported alike. -/
structure CategoryAlike (source source' : List Char) (group group' : List Item) : Prop where
  name : (category source' group').1 = (category source group).1
  reported : (category source' group').2.length = (category source group).2.length

section Edited

variable {front front' text text' : List Char} {group group' : List Item} {bytes : Nat}

private theorem category_before (room : ∀ item ∈ group, item.stop ≤ byteLength front) :
    CategoryAlike (front ++ text) (front ++ text') group group := by
  suffices same : category (front ++ text') group = category (front ++ text) group by
    exact ⟨congrArg Prod.fst same, congrArg (·.2.length) same⟩
  cases group with
  | nil => rfl
  | cons first rest =>
    have ends := room (rest.getLastD first) List.getLastD_mem_cons
    have begins := room first (List.mem_cons_self ..)
    rw [Token.stop] at begins
    have inside : max first.offset (rest.getLastD first).stop ≤ byteLength front := by
      omega
    rw [category, category, textBetween, textBetween, Text.slice?_of_le inside]

private theorem getLastD_slid {first first' : Item} {rest rest' : List Item}
    (own : Item.Slid bytes first first') (slid : List.Forall₂ (Item.Slid bytes) rest rest') :
    Item.Slid bytes (rest.getLastD first) (rest'.getLastD first') := by
  induction slid generalizing first first' with
  | nil => exact own
  | cons next _ ih =>
    rw [List.getLastD_cons, List.getLastD_cons]
    exact ih next

private theorem textBetween_slid {first first' last last' : Item}
    (own : Item.Slid bytes first first')
    (ends : Item.Slid bytes last last') (room : byteLength front ≤ first.offset)
    (more : byteLength front' = byteLength front + bytes) :
    textBetween (front' ++ text) first'.toToken last'.toToken =
      textBetween (front ++ text) first.toToken last.toToken := by
  obtain ⟨start, start_eq⟩ := Nat.exists_eq_add_of_le room
  obtain ⟨stop, stop_eq⟩ := Nat.exists_eq_add_of_le
    (room.trans (Nat.le_max_left first.offset last.stop))
  have start' : first'.offset = byteLength front' + start := by
    rw [own.offset, start_eq, more]
    omega
  have stop' : max first'.offset last'.stop = byteLength front' + stop := by
    rw [own.offset, ends.stop, more]
    omega
  rw [textBetween, textBetween, stop', stop_eq, start', start_eq, Text.slice?_behind,
    Text.slice?_behind, own.text]

private theorem category_behind (slid : List.Forall₂ (Item.Slid bytes) group group')
    (room : ∀ item ∈ group, byteLength front ≤ item.offset)
    (more : byteLength front' = byteLength front + bytes) :
    CategoryAlike (front ++ text) (front' ++ text) group group' := by
  cases slid with
  | nil => exact ⟨rfl, rfl⟩
  | @cons first first' rest rest' own later =>
    have ends := getLastD_slid own later
    have begins := room _ (List.mem_cons_self ..)
    have raw := @textBetween_slid front front' text bytes _ _ _ _ own ends begins more
    have alone : rest'.isEmpty = rest.isEmpty := by
      cases later <;> rfl
    suffices both : (category (front' ++ text) (first' :: rest')).1 =
          (category (front ++ text) (first :: rest)).1 ∧
        (category (front' ++ text) (first' :: rest')).2.length =
          (category (front ++ text) (first :: rest)).2.length from ⟨both.1, both.2⟩
    simp only [category, alone, own.kind, own.value, raw]
    split
    · exact ⟨rfl, rfl⟩
    · split
      · simp only [List.length_singleton, and_self]
      · exact ⟨rfl, rfl⟩

end Edited

/-! ## Lists of an edited text -/

section Alike

variable {source source' : List Char} {groups groups' : List (List Item)}

theorem names_alike (alike : List.Forall₂ (CategoryAlike source source') groups groups') :
    names source' groups' = names source groups := by
  induction alike with
  | nil => rfl
  | cons own _ ih =>
    rw [names, names] at ih
    rw [names, names, List.filterMap_cons, List.filterMap_cons, own.name, ih]

theorem reported_alike (alike : List.Forall₂ (CategoryAlike source source') groups groups') :
    (reported source' groups').length = (reported source groups).length := by
  induction alike with
  | nil => rfl
  | cons own _ ih =>
    rw [reported, reported] at ih
    rw [reported, reported, List.flatMap_cons, List.flatMap_cons, List.length_append,
      List.length_append, own.reported, ih]

variable {front front' text text' : List Char} {bytes : Nat}

theorem groups_before (room : ∀ group ∈ groups, ∀ item ∈ group, item.stop ≤ byteLength front) :
    List.Forall₂ (CategoryAlike (front ++ text) (front ++ text')) groups groups :=
  List.forall₂_same.2 fun group member => category_before (room group member)

theorem groups_behind (slid : List.Forall₂ (List.Forall₂ (Item.Slid bytes)) groups groups')
    (room : ∀ group ∈ groups, ∀ item ∈ group, byteLength front ≤ item.offset)
    (more : byteLength front' = byteLength front + bytes) :
    List.Forall₂ (CategoryAlike (front ++ text) (front' ++ text)) groups groups' :=
  ((List.forall₂_and_left _ _).2 ⟨room, slid⟩).imp fun _ _ own => category_behind own.2 own.1 more

end Alike

section Axes

variable {axis axis' : Item × List Item}

/-- Axes in two sources whose lists are read and reported alike. -/
def ListAlike (source source' : List Char) (axis axis' : Item × List Item) : Prop :=
  Option.Rel (List.Forall₂ (CategoryAlike source source')) (groups? axis.1 axis.2)
    (groups? axis'.1 axis'.2)

variable {front front' text text' : List Char} {bytes : Nat}

theorem list_before (same : groups? axis'.1 axis'.2 = groups? axis.1 axis.2)
    (room : ∀ group ∈ entries axis, ∀ item ∈ group, item.stop ≤ byteLength front) :
    ListAlike (front ++ text) (front ++ text') axis axis' := by
  rw [ListAlike, same]
  rw [entries] at room
  generalize groups? axis.1 axis.2 = list at room
  cases list with
  | none => exact .none
  | some groups => exact .some (groups_before room)

theorem list_behind (slid : SlidPlace bytes axis axis')
    (room : ∀ group ∈ entries axis, ∀ item ∈ group, byteLength front ≤ item.offset)
    (more : byteLength front' = byteLength front + bytes) :
    ListAlike (front ++ text) (front' ++ text) axis axis' := by
  have list := groups?_slid slid.1 slid.2
  rw [entries] at room
  rw [ListAlike]
  generalize groups? axis.1 axis.2 = own, groups? axis'.1 axis'.2 = other at list room
  cases list with
  | none => exact .none
  | some groups => exact .some (groups_behind groups room more)

variable {source source' : String} {axes axes' : List (Item × List Item)}

theorem value?_axis (known : isAxis axis = true) :
    value? source axis =
      (groups? axis.1 axis.2).map fun groups => .categories (names source.toList groups) :=
  (readStatement_categories (beq_iff_eq.1 known) axis.2).1

private theorem value?_alike (known : isAxis axis = true) (known' : isAxis axis' = true)
    (alike : ListAlike source.toList source'.toList axis axis') :
    value? source' axis' = value? source axis := by
  rw [value?_axis known, value?_axis known']
  rw [ListAlike] at alike
  generalize groups? axis.1 axis.2 = own, groups? axis'.1 axis'.2 = other at alike
  cases alike with
  | some groups => rw [Option.map_some, Option.map_some, names_alike groups]
  | none => rfl

/-- Axes with such lists are read as the same categories. -/
theorem values_alike (known : ∀ axis ∈ axes, isAxis axis = true)
    (known' : ∀ axis ∈ axes', isAxis axis = true)
    (alike : List.Forall₂ (ListAlike source.toList source'.toList) axes axes') :
    axes'.map (value? source') = axes.map (value? source) := by
  induction alike with
  | nil => rw [List.map_nil, List.map_nil]
  | cons own _ ih =>
    rw [List.forall_mem_cons] at known known'
    exact congrArg₂ List.cons (value?_alike known.1 known'.1 own) (ih known.2 known'.2)

end Axes

theorem entries_same {axes axes' : List (Item × List Item)}
    (same : List.Forall₂ (fun axis axis' => groups? axis'.1 axis'.2 = groups? axis.1 axis.2)
      axes axes') : axes'.flatMap entries = axes.flatMap entries := by
  induction same with
  | nil => rfl
  | cons own _ ih => rw [List.flatMap_cons, List.flatMap_cons, ih, entries, entries, own]

theorem entries_slid {bytes : Nat} {axes axes' : List (Item × List Item)}
    (slid : List.Forall₂ (SlidPlace bytes) axes axes') :
    List.Forall₂ (List.Forall₂ (Item.Slid bytes)) (axes.flatMap entries)
      (axes'.flatMap entries) := by
  induction slid with
  | nil => exact .nil
  | @cons axis axis' _ _ own _ ih =>
    rw [List.flatMap_cons, List.flatMap_cons]
    refine List.rel_append ?_ ih
    have groups := groups?_slid own.1 own.2
    rw [entries, entries]
    generalize groups? axis.1 axis.2 = own, groups? axis'.1 axis'.2 = other at groups
    cases groups with
    | none => exact .nil
    | some groups => exact groups

/-- The groups of all axes precede one another. -/
theorem precedes_of_entries {source : String} {left right : List (List Item)} {group : List Item}
    (split : (axes source).flatMap entries = left ++ group :: right) {item : Item}
    (member : item ∈ group) :
    (∀ former ∈ left, ∀ other ∈ former, other.toToken.Precedes item.toToken) ∧
      ∀ latter ∈ right, ∀ other ∈ latter, item.toToken.Precedes other.toToken := by
  have order := (Layout.laidOut_items source).pairwise.sublist (entries_sublist source)
  rw [split, List.pairwise_flatten, List.pairwise_append, List.pairwise_cons] at order
  obtain ⟨-, -, ⟨behind, -⟩, before⟩ := order
  exact ⟨fun former listed other inside =>
      before former listed group (List.mem_cons_self ..) other inside item member,
    fun latter listed other inside => behind latter listed item member other inside⟩

end Chart

end DiagramCheck
