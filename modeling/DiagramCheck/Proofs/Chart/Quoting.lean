/-
# Quotes mend a category

A category that is written without quotes and holds characters that need them is
reported with the category in quotes as the way to mend it. Put in its place in the
source, the quoted text is a single string, which names the same category but for its
own double quotes. Nothing is reported there any more. All other categories are the
same text in the new source, at the same place or two bytes further on, so they are
read and reported as before.

Main statement: `quoting_mends_category`.
-/

import DiagramCheck.Proofs.Chart.Edited
import DiagramCheck.Proofs.Token.Places

namespace DiagramCheck

open Diagnostic (unquoted)
open Text (byteLength)

namespace Chart

private theorem isAxis_of_mem_axes {source : String} {axis : Item × List Item}
    (member : axis ∈ axes source) : isAxis axis = true :=
  (List.mem_filter.1 member).2

private theorem mem_tokenize_of_entries {source : String} {group : List Item} {item : Item}
    (listed : group ∈ (axes source).flatMap entries) (member : item ∈ group) :
    item.toToken ∈ Token.tokenize source :=
  Layout.toToken_mem_of_mem_items
    ((entries_sublist source).subset (List.mem_flatten_of_mem listed member))

/-! ## Categories and their texts -/

private theorem textBetween_eq {source before raw after : List Char} {first last : Token}
    (split : source = before ++ (raw ++ after)) (start : first.offset = byteLength before)
    (stop : last.stop = byteLength before + byteLength raw) :
    textBetween source first last = String.ofList raw := by
  rw [textBetween, stop, start, Nat.max_eq_right (Nat.le_add_right ..), split,
    Text.slice?_append]
  rfl

/-- A category is read and reported by the text of its items. -/
theorem exists_reported {source : List Char} {group : List Item} {diagnostic : Diagnostic}
    (member : diagnostic ∈ (category source group).2) :
    ∃ first ∈ group.head?, ∃ last ∈ group.getLast?,
      category source group = (some (textBetween source first.toToken last.toToken),
        [.atToken first.toToken
          (.unquotedCategory (textBetween source first.toToken last.toToken))]) ∧
      diagnostic = .atToken first.toToken
        (.unquotedCategory (textBetween source first.toToken last.toToken)) := by
  cases group with
  | nil => cases member
  | cons first rest =>
    refine ⟨first, rfl, rest.getLastD first, ?_, ?_⟩
    · rw [List.getLast?_cons, List.getLastD_eq_getLast?]
      rfl
    · unfold category at member ⊢
      dsimp only at member ⊢
      split at member
      · cases member
      · next long =>
        rw [if_neg long]
        split at member
        · next needs => exact ⟨by rw [if_pos needs], List.mem_singleton.1 member⟩
        · cases member

/-- What is reported for want of quotes is a category of an axis. -/
theorem exists_category {source : String} {diagnostic : Diagnostic}
    (member : diagnostic ∈ (validate source).diagnostics)
    (code : diagnostic.code = .invalidIdentifier) :
    ∃ group ∈ (axes source).flatMap entries, diagnostic ∈ (category source.toList group).2 := by
  have listed : diagnostic ∈ unquoted (validate source).diagnostics :=
    List.mem_filter.2 ⟨member, beq_iff_eq.2 code⟩
  exact List.mem_flatMap.1 ((unquoted_validate source).mem_iff.1 listed)

/-- A character with a double quote made single. -/
def singleQuote (c : Char) : Char := if c = '"' then '\'' else c

/-- A category with its double quotes made single. -/
def singleQuoted (raw : List Char) : List Char := raw.map singleQuote

/-- Both quotes are one byte, and no newline. -/
theorem singleQuote_alike (c : Char) :
    (singleQuote c).utf8Size = c.utf8Size ∧ (singleQuote c == '\n') = (c == '\n') := by
  unfold singleQuote
  split
  · next quote =>
    rw [quote]
    exact ⟨rfl, rfl⟩
  · exact ⟨rfl, rfl⟩

private theorem quote_not_mem_singleQuoted (raw : List Char) : '"' ∉ singleQuoted raw := by
  intro member
  obtain ⟨c, -, same⟩ := List.mem_map.1 member
  unfold singleQuote at same
  split at same
  · cases same
  · next other => exact other same

private theorem byteLength_singleQuoted (raw : List Char) :
    byteLength (singleQuoted raw) = byteLength raw := by
  unfold singleQuoted
  induction raw with
  | nil => rfl
  | cons c raw ih =>
    rw [List.map_cons, Text.byteLength_cons, Text.byteLength_cons, (singleQuote_alike c).1, ih]

private theorem count_singleQuoted (raw : List Char) :
    (singleQuoted raw).count '\n' = raw.count '\n' := by
  unfold singleQuoted
  induction raw with
  | nil => rfl
  | cons c raw ih =>
    rw [List.map_cons, List.count_cons, List.count_cons, (singleQuote_alike c).2, ih]

theorem toList_quoted (raw : List Char) :
    (Problem.quoted (String.ofList raw)).toList = '"' :: (singleQuoted raw ++ ['"']) := by
  rw [Problem.quoted, String.toList_ofList, String.toList_ofList]
  rfl

/-- A text in quotes is a category of its own. -/
theorem category_quoted (source : List Char) {quoted : Item} {place : Position} {body : List Char}
    (written : quoted.toToken = .quotedAt place body) :
    category source [quoted] = (some (String.ofList body), []) := by
  have kind : quoted.kind = .string := congrArg Token.kind written
  have value : quoted.value = String.ofList body := by
    rw [written]
    simp [Token.value, Token.quotedAt, Token.ofLexeme, Token.unquote]
  rw [category, kind, value]
  rfl

/-! ## Entries -/

/-- A category of a source. Its axis stands behind the `former` axes and in front of the `latter`,
its items behind the groups at its `left` and in front of those at its `right`, and its text, from
its first item to its last, between what is `before` it and `after` it in the source. -/
structure Entry (source : String) where
  former : List (Item × List Item)
  axis : Item × List Item
  latter : List (Item × List Item)
  left : List (List Item)
  group : List Item
  right : List (List Item)
  first : Item
  last : Item
  before : List Char
  raw : List Char
  after : List Char
  axes_eq : axes source = former ++ axis :: latter
  groups_eq : groups? axis.1 axis.2 = some (left ++ group :: right)
  starts : first ∈ group.head?
  stops : last ∈ group.getLast?
  split : source.toList = before ++ (raw ++ after)
  begins : first.position = Position.start.after before
  ends : last.stop = byteLength (before ++ raw)

namespace Entry

variable {source : String} (entry : Entry source)

/-- The source with another text in the place of a category. -/
def replace (text : String) : String :=
  String.ofList (entry.before ++ (text.toList ++ entry.after))

/-- The groups in front of that of an entry, in all axes. -/
def formerGroups : List (List Item) := entry.former.flatMap entries ++ entry.left

/-- The groups behind that of an entry, in all axes. -/
def latterGroups : List (List Item) := entry.right ++ entry.latter.flatMap entries

private theorem entries_eq : (axes source).flatMap entries =
    entry.formerGroups ++ entry.group :: entry.latterGroups := by
  rw [entry.axes_eq, List.flatMap_append, List.flatMap_cons, entries, entry.groups_eq]
  simp [formerGroups, latterGroups]

private theorem stop_le : ∀ group ∈ entry.formerGroups, ∀ item ∈ group,
    item.stop ≤ byteLength entry.before := by
  intro group listed item member
  have order := precedes_of_entries entry.entries_eq (List.mem_of_head? entry.starts)
  have start : entry.first.offset = byteLength entry.before := by
    rw [Token.offset, entry.begins, Position.offset_after]
    exact Nat.zero_add _
  exact start ▸ (order.1 group listed item member).apart

private theorem le_offset : ∀ group ∈ entry.latterGroups, ∀ item ∈ group,
    byteLength (entry.before ++ entry.raw) ≤ item.offset := by
  intro group listed item member
  have order := precedes_of_entries entry.entries_eq (List.mem_of_getLast? entry.stops)
  rw [← entry.ends]
  exact (order.2 group listed item member).apart

/-- The quotes take two bytes. -/
theorem byteLength_quoted : byteLength (entry.before ++ '"' :: (singleQuoted entry.raw ++ ['"'])) =
    byteLength (entry.before ++ entry.raw) + 2 := by
  have quote : '"'.utf8Size = 1 := rfl
  simp only [Text.byteLength_append, Text.byteLength_cons, byteLength_singleQuoted, quote,
    Text.byteLength_nil]
  omega

end Entry

/-- A source in which an entry of another source is a string, with the entry's text in it. -/
structure Mended {source : String} (entry : Entry source) (mended : String) where
  former : List (Item × List Item)
  rest : List Item
  latter : List (Item × List Item)
  quoted : Item
  right : List (List Item)
  axes_eq : axes mended = former ++ (entry.axis.1, rest) :: latter
  groups_eq : groups? entry.axis.1 rest = some (entry.left ++ [quoted] :: right)
  same : List.Forall₂ (fun axis axis' => groups? axis'.1 axis'.2 = groups? axis.1 axis.2)
    entry.former former
  behind : List.Forall₂ (List.Forall₂ (Item.Slid 2)) entry.right right
  later : List.Forall₂ (SlidPlace 2) entry.latter latter
  written : quoted.toToken =
    .quotedAt (Position.start.after entry.before) (singleQuoted entry.raw)
  split : mended.toList =
    entry.before ++ ('"' :: (singleQuoted entry.raw ++ ['"']) ++ entry.after)

namespace Mended

variable {source mended : String} {entry : Entry source} (mends : Mended entry mended)

private theorem entries_eq : (axes mended).flatMap entries =
    entry.formerGroups ++ [mends.quoted] :: (mends.right ++ mends.latter.flatMap entries) := by
  rw [mends.axes_eq, List.flatMap_append, List.flatMap_cons, entries, mends.groups_eq,
    entries_same mends.same]
  simp [Entry.formerGroups]

include mends

private theorem before_alike {groups : List (List Item)} (listed : groups ⊆ entry.formerGroups) :
    List.Forall₂ (CategoryAlike source.toList mended.toList) groups groups := by
  rw [entry.split, mends.split]
  exact groups_before fun group member => entry.stop_le group (listed member)

private theorem behind_alike {groups groups' : List (List Item)}
    (listed : groups ⊆ entry.latterGroups)
    (slid : List.Forall₂ (List.Forall₂ (Item.Slid 2)) groups groups') :
    List.Forall₂ (CategoryAlike source.toList mended.toList) groups groups' := by
  rw [entry.split, mends.split, ← List.append_assoc, ← List.append_assoc]
  exact groups_behind slid (fun group member => entry.le_offset group (listed member))
    entry.byteLength_quoted

/-- Nothing is reported of the entry any more, and of all else what was reported before. -/
theorem length_reported (one : (category source.toList entry.group).2.length = 1) :
    (reported mended.toList ((axes mended).flatMap entries)).length + 1 =
      (reported source.toList ((axes source).flatMap entries)).length := by
  have former := reported_alike (mends.before_alike (List.Subset.refl _))
  have latter := reported_alike (mends.behind_alike (List.Subset.refl _)
    (List.rel_append mends.behind (entries_slid mends.later)))
  have own := category_quoted mended.toList mends.written
  rw [reported] at former latter
  simp only [mends.entries_eq, entry.entries_eq, reported, List.flatMap_append,
    List.flatMap_cons, List.length_append, own, one, List.length_nil] at former latter ⊢
  omega

/-- Nothing is reported in the place of the entry. -/
theorem place_ne {group : List Item} {diagnostic : Diagnostic}
    (listed : group ∈ (axes mended).flatMap entries)
    (member : diagnostic ∈ (category mended.toList group).2) :
    (diagnostic.line, diagnostic.column) ≠ (entry.first.line, entry.first.column) := by
  obtain ⟨first, starts, last, -, -, rfl⟩ := exists_reported member
  have own := mem_tokenize_of_entries listed (List.mem_of_head? starts)
  have quoted : mends.quoted.toToken ∈ Token.tokenize mended :=
    mem_tokenize_of_entries (by simp [mends.entries_eq]) (List.mem_singleton_self _)
  have place : mends.quoted.position = entry.first.position := by
    rw [entry.begins, mends.written]
    rfl
  intro same
  have line : first.line = mends.quoted.line :=
    (Prod.mk.inj same).1.trans (congrArg Position.line place.symm)
  have column : first.column = mends.quoted.column :=
    (Prod.mk.inj same).2.trans (congrArg Position.column place.symm)
  -- Tokens at one place begin at one byte, and those of another group do not.
  have offset := Token.offset_eq_of_place own quoted line column
  have order := precedes_of_entries mends.entries_eq (List.mem_singleton_self _)
  rw [mends.entries_eq, List.mem_append, List.mem_cons] at listed
  rcases listed with former | rfl | latter
  · exact absurd offset (order.1 group former first (List.mem_of_head? starts)).offset_lt.ne
  · rw [category_quoted mended.toList mends.written] at member
    cases member
  · exact absurd offset.symm (order.2 group latter first (List.mem_of_head? starts)).offset_lt.ne

/-- The axis of the entry is read as the same categories, but for the entry. -/
theorem names_eq : names mended.toList (entry.left ++ [mends.quoted] :: mends.right) =
    names source.toList entry.left ++
      String.ofList (singleQuoted entry.raw) :: names source.toList entry.right := by
  have left := names_alike (mends.before_alike (List.subset_append_right _ entry.left))
  have right := names_alike (mends.behind_alike (List.subset_append_left _ _) mends.behind)
  rw [names] at left right
  rw [names, List.filterMap_append, left, List.filterMap_cons,
    category_quoted mended.toList mends.written, right]

/-- The axes are read as the same categories, but for the entry. -/
theorem values_eq : (axes mended).map (value? mended) = entry.former.map (value? source) ++
    some (.categories (names source.toList entry.left ++
      String.ofList (singleQuoted entry.raw) :: names source.toList entry.right)) ::
        entry.latter.map (value? source) := by
  have known : ∀ axis ∈ entry.former ++ entry.axis :: entry.latter, isAxis axis = true :=
    fun axis member => isAxis_of_mem_axes (entry.axes_eq ▸ member)
  have known' : ∀ axis ∈ mends.former ++ (entry.axis.1, mends.rest) :: mends.latter,
      isAxis axis = true := fun axis member => isAxis_of_mem_axes (mends.axes_eq ▸ member)
  rw [List.forall_mem_append, List.forall_mem_cons] at known known'
  have former : List.Forall₂ (ListAlike source.toList mended.toList) entry.former mends.former := by
    rw [entry.split, mends.split]
    refine ((List.forall₂_and_left _ _).2 ⟨fun axis member group inside => ?_, mends.same⟩).imp
      fun _ _ own => list_before own.2 own.1
    exact entry.stop_le group (List.mem_append_left _ (List.mem_flatMap_of_mem member inside))
  have latter : List.Forall₂ (ListAlike source.toList mended.toList) entry.latter mends.latter := by
    rw [entry.split, mends.split, ← List.append_assoc, ← List.append_assoc]
    refine ((List.forall₂_and_left _ _).2 ⟨fun axis member group inside => ?_, mends.later⟩).imp
      fun _ _ own => list_behind own.2 own.1 entry.byteLength_quoted
    exact entry.le_offset group (List.mem_append_right _ (List.mem_flatMap_of_mem member inside))
  rw [mends.axes_eq, List.map_append, List.map_cons, values_alike known.1 known'.1 former,
    values_alike known.2.2 known'.2.2 latter, value?_axis known'.2.1, mends.groups_eq,
    Option.map_some, mends.names_eq]

end Mended

/-- An entry by the text that it is read as. -/
theorem Entry.values_eq {source : String} (entry : Entry source)
    (named : (category source.toList entry.group).1 = some (String.ofList entry.raw)) :
    (axes source).map (value? source) = entry.former.map (value? source) ++
      some (.categories (names source.toList entry.left ++
        String.ofList entry.raw :: names source.toList entry.right)) ::
          entry.latter.map (value? source) := by
  have listed : entry.axis ∈ axes source := by simp [entry.axes_eq]
  have known := isAxis_of_mem_axes listed
  rw [entry.axes_eq, List.map_append, List.map_cons, value?_axis known, entry.groups_eq,
    Option.map_some, names, List.filterMap_append, List.filterMap_cons, named]
  rfl

/-- A group of an axis among the others of its list. -/
theorem exists_groups {axis : Item × List Item} {group : List Item}
    (listed : group ∈ entries axis) :
    ∃ left right, groups? axis.1 axis.2 = some (left ++ group :: right) := by
  rw [entries] at listed
  cases found : groups? axis.1 axis.2 with
  | none =>
    rw [found] at listed
    cases listed
  | some groups =>
    rw [found] at listed
    obtain ⟨left, right, split⟩ := List.append_of_mem listed
    exact ⟨left, right, congrArg some split⟩

/-- What is reported for want of quotes is an entry, and the suggested text mends it. -/
theorem exists_entry {source : String} {diagnostic : Diagnostic}
    (member : diagnostic ∈ (validate source).diagnostics)
    (code : diagnostic.code = .invalidIdentifier) :
    ∃ entry : Entry source, category source.toList entry.group =
        (some (String.ofList entry.raw), [diagnostic]) ∧
      diagnostic = .atToken entry.first.toToken (.unquotedCategory (String.ofList entry.raw)) ∧
      Nonempty (Mended entry (entry.replace (Problem.quoted (String.ofList entry.raw)))) := by
  obtain ⟨group, listed, reported⟩ := exists_category member code
  obtain ⟨axis, known, listed⟩ := List.mem_flatMap.1 listed
  obtain ⟨left, right, groups⟩ := exists_groups listed
  obtain ⟨first, starts, last, stops, category_eq, rfl⟩ := exists_reported reported
  obtain ⟨former, latter, front, mark, later, axes_eq, items, opens, apart, replaced⟩ :=
    exists_axes_quoted known groups
  obtain ⟨before, raw, after, split, begins, ends, quoted⟩ :=
    Layout.exists_quoted items opens starts stops apart
  have start : first.offset = byteLength before := by
    rw [Token.offset, begins, Position.offset_after]
    exact Nat.zero_add _
  have stop : last.stop = byteLength before + byteLength raw := by
    rw [ends, Position.offset_after, ← begins]
    exact congrArg (· + byteLength raw) start
  rw [textBetween_eq split start stop] at category_eq ⊢
  -- These are the parts of the entry; what remains is that the quoted text mends it.
  let entry : Entry source := ⟨former, axis, latter, left, group, right, first, last, before, raw,
    after, axes_eq, groups, starts, stops, split, begins,
    stop.trans (Text.byteLength_append ..).symm⟩
  refine ⟨entry, category_eq, rfl, ?_⟩
  obtain ⟨quoted, later', items', written, slid⟩ := quoted (singleQuoted raw)
    (quote_not_mem_singleQuoted raw) (byteLength_singleQuoted raw) (count_singleQuoted raw)
  have mended : entry.replace (Problem.quoted (String.ofList raw)) =
      String.ofList (before ++ ('"' :: (singleQuoted raw ++ ['"']) ++ after)) := by
    rw [Entry.replace, toList_quoted]
  rw [← mended] at items'
  obtain ⟨former', rest', right', latter', axes_eq', same, groups', behind, later⟩ :=
    replaced (congrArg Token.kind written) slid items'
  exact ⟨former', rest', latter', quoted, right', axes_eq', groups', same, behind, later, written,
    by rw [mended, String.toList_ofList]⟩

/-- Replacing a category that is reported for want of quotes by what is suggested mends it. The
category axes of the new source are read as the same categories in the same order, but that this one
has its double quotes made single. Nothing of the kind is reported in its place, and one such report
less in all. -/
theorem quoting_mends_category {source : String} {diagnostic : Diagnostic}
    (member : diagnostic ∈ (validate source).diagnostics)
    (code : diagnostic.code = .invalidIdentifier) :
    ∃ (entry : Entry source) (suggestion : String),
      diagnostic = .atToken entry.first.toToken (.unquotedCategory (String.ofList entry.raw)) ∧
      diagnostic.suggestion = some suggestion ∧
      (axes source).map (value? source) = entry.former.map (value? source) ++
        some (.categories (names source.toList entry.left ++
          String.ofList entry.raw :: names source.toList entry.right)) ::
            entry.latter.map (value? source) ∧
      (axes (entry.replace suggestion)).map (value? (entry.replace suggestion)) =
        entry.former.map (value? source) ++
          some (.categories (names source.toList entry.left ++
            String.ofList (singleQuoted entry.raw) :: names source.toList entry.right)) ::
              entry.latter.map (value? source) ∧
      (∀ other ∈ (validate (entry.replace suggestion)).diagnostics,
        other.code = .invalidIdentifier →
          (other.line, other.column) ≠ (diagnostic.line, diagnostic.column)) ∧
      (unquoted (validate (entry.replace suggestion)).diagnostics).length + 1 =
        (unquoted (validate source).diagnostics).length := by
  obtain ⟨entry, reads, rfl, ⟨mends⟩⟩ := exists_entry member code
  refine ⟨entry, _, rfl, rfl, entry.values_eq (congrArg Prod.fst reads), mends.values_eq,
    fun other member code => ?_, ?_⟩
  · obtain ⟨group, listed, reported⟩ := exists_category member code
    exact mends.place_ne listed reported
  · rw [(unquoted_validate source).length_eq, (unquoted_validate _).length_eq]
    exact mends.length_reported (congrArg (·.2.length) reads)

/-- A word and a string in one category are reported, and mended by one string. -/
theorem quoting_mends_category_string :
    ∃ entry : Entry "xychart-beta\nx-axis [a \"b\", c]\nbar [1]",
      Diagnostic.atToken ⟨.identifier, "a", ⟨2, 9, 21⟩⟩ (.unquotedCategory "a \"b\"") =
        .atToken entry.first.toToken (.unquotedCategory (String.ofList entry.raw)) ∧
      unquoted (validate (entry.replace "\"a 'b'\"")).diagnostics = [] := by
  let diagnostic : Diagnostic :=
    .atToken ⟨.identifier, "a", ⟨2, 9, 21⟩⟩ (.unquotedCategory "a \"b\"")
  have member : diagnostic ∈
      (validate "xychart-beta\nx-axis [a \"b\", c]\nbar [1]").diagnostics := by
    decide +kernel
  have one : (unquoted
      (validate "xychart-beta\nx-axis [a \"b\", c]\nbar [1]").diagnostics).length = 1 := by
    decide +kernel
  obtain ⟨entry, suggestion, same, suggested, -, -, -, count⟩ := quoting_mends_category member rfl
  have mend : diagnostic.suggestion = some "\"a 'b'\"" := by decide
  obtain rfl : "\"a 'b'\"" = suggestion := Option.some.inj (mend.symm.trans suggested)
  exact ⟨entry, same, List.eq_nil_of_length_eq_zero (by omega)⟩

end Chart

end DiagramCheck
