/-
# Lists of elements

A flowchart holds its elements in lists: the outermost one, and one more for
every subgraph at any depth. `allLists` names them all. What is said about the
neighbours of a flowchart is said list by list, which turns the recursion over
subgraphs into a statement about each list on its own.
-/

import DiagramCheck.Flowchart.Basic

namespace DiagramCheck

namespace Element

mutual

/-- The lists of elements inside an element, each before those inside it. -/
def lists : Element → List (List Element)
  | .node _ => []
  | .link _ => []
  | .subgraph _ elements => elements :: listsAll elements

/-- The lists of elements inside the elements of a list. -/
def listsAll : List Element → List (List Element)
  | [] => []
  | element :: rest => lists element ++ listsAll rest

end

/-- A list of elements and the lists inside it. -/
def allLists (elements : List Element) : List (List Element) := elements :: listsAll elements

theorem flattenAll_append (first second : List Element) :
    flattenAll (first ++ second) = flattenAll first ++ flattenAll second := by
  induction first with
  | nil => rfl
  | cons element rest ih => rw [List.cons_append, flattenAll, ih, flattenAll, List.append_assoc]

theorem listsAll_append (first second : List Element) :
    listsAll (first ++ second) = listsAll first ++ listsAll second := by
  induction first with
  | nil => rfl
  | cons element rest ih => rw [List.cons_append, listsAll, ih, listsAll, List.append_assoc]

private theorem mem_flatten_self (element : Element) : element ∈ flatten element := by
  cases element <;> exact List.mem_cons_self ..

/-- The elements of a list are among the elements of the list and inside it. -/
theorem subset_flattenAll (elements : List Element) : elements ⊆ flattenAll elements := by
  induction elements with
  | nil => exact List.nil_subset _
  | cons first rest ih =>
    intro element member
    rw [flattenAll, List.mem_append]
    rcases List.mem_cons.1 member with rfl | member
    · exact .inl (mem_flatten_self element)
    · exact .inr (ih member)

mutual

private theorem subset_flatten {list : List Element} (element : Element)
    (inside : list ∈ lists element) :
    list ⊆ flatten element := by
  cases element with
  | node => cases inside
  | link => cases inside
  | subgraph heading elements =>
    rw [flatten]
    rcases List.mem_cons.1 inside with rfl | inside
    · exact List.Subset.trans (subset_flattenAll list) (List.subset_cons_self ..)
    · exact List.Subset.trans (subset_flattenAll_of_mem elements inside)
        (List.subset_cons_self ..)

theorem subset_flattenAll_of_mem {list : List Element} (elements : List Element)
    (inside : list ∈ listsAll elements) : list ⊆ flattenAll elements := by
  cases elements with
  | nil => cases inside
  | cons first rest =>
    rw [listsAll] at inside
    rw [flattenAll]
    rcases List.mem_append.1 inside with inside | inside
    · exact List.Subset.trans (subset_flatten first inside) (List.subset_append_left ..)
    · exact List.Subset.trans (subset_flattenAll_of_mem rest inside)
        (List.subset_append_right ..)

end

/-- The elements of every list of a flowchart are among all its elements. -/
theorem subset_flattenAll_of_mem_allLists {elements list : List Element}
    (inside : list ∈ allLists elements) : list ⊆ flattenAll elements := by
  rcases List.mem_cons.1 inside with rfl | inside
  · exact subset_flattenAll list
  · exact subset_flattenAll_of_mem elements inside

end Element

namespace Flowchart

open Element (lists listsAll allLists)

/-! ## What is said of neighbours -/

/-- What is said of neighbours is said of two elements that follow each other. -/
theorem mem_neighbourDiagnostics {items : List Item} {elements : List Element}
    {diagnostic : Diagnostic} :
    diagnostic ∈ neighbourDiagnostics items elements ↔
      ∃ before first second after, elements = before ++ first :: second :: after ∧
        diagnostic ∈ pairDiagnostics items first second := by
  constructor
  · intro member
    -- The neighbours are the two in front, or neighbours in the list without the first of these.
    induction elements with
    | nil => cases member
    | cons first rest ih =>
      cases rest with
      | nil => cases member
      | cons second rest =>
        rw [neighbourDiagnostics, List.mem_append] at member
        rcases member with member | member
        · exact ⟨[], first, second, rest, rfl, member⟩
        · obtain ⟨before, left, right, after, split, member⟩ := ih member
          exact ⟨first :: before, left, right, after, by rw [split]; rfl, member⟩
  · rintro ⟨before, first, second, after, rfl, member⟩
    induction before with
    | nil => exact List.mem_append_left _ member
    | cons front before ih =>
      cases before with
      | nil => exact List.mem_append_right _ ih
      | cons next before => exact List.mem_append_right _ ih

mutual

private theorem insideDiagnostics_eq (items : List Item) (element : Element) :
    insideDiagnostics items element = (lists element).flatMap (neighbourDiagnostics items) := by
  cases element with
  | node => rfl
  | link => rfl
  | subgraph heading elements =>
    rw [insideDiagnostics, insideAllDiagnostics_eq items elements, lists, List.flatMap_cons]

private theorem insideAllDiagnostics_eq (items : List Item) (elements : List Element) :
    insideAllDiagnostics items elements =
      (listsAll elements).flatMap (neighbourDiagnostics items) := by
  cases elements with
  | nil => rfl
  | cons first rest =>
    rw [insideAllDiagnostics, insideDiagnostics_eq items first,
      insideAllDiagnostics_eq items rest, listsAll, List.flatMap_append]

end

/-- The neighbours are looked at list by list. -/
theorem connectionDiagnostics_eq (items : List Item) (elements : List Element) :
    connectionDiagnostics items elements =
      (allLists elements).flatMap (neighbourDiagnostics items) := by
  rw [connectionDiagnostics, insideAllDiagnostics_eq, allLists, List.flatMap_cons]

/-- Whatever is said of neighbours, the second of them is a node of the flowchart and gives the
diagnostic its place. -/
theorem exists_of_mem_connectionDiagnostics {items : List Item} {elements : List Element}
    {diagnostic : Diagnostic} (member : diagnostic ∈ connectionDiagnostics items elements) :
    ∃ first second, Element.node second ∈ Element.flattenAll elements ∧
      diagnostic = unconnected first second := by
  rw [connectionDiagnostics_eq] at member
  obtain ⟨list, inside, said⟩ := List.mem_flatMap.1 member
  obtain ⟨before, left, right, after, rfl, own⟩ := mem_neighbourDiagnostics.1 said
  have listed : right ∈ Element.flattenAll elements :=
    Element.subset_flattenAll_of_mem_allLists inside (by simp)
  unfold pairDiagnostics at own
  split at own
  · next first second =>
    split at own
    · cases own
    · exact ⟨first, second, listed, List.mem_singleton.1 own⟩
  · cases own

end Flowchart

end DiagramCheck
