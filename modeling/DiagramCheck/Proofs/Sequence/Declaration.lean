/-
# What a declaration takes of its line

A declaration takes one name behind its keyword: a quoted string, or name tokens of which
each touches the one before it. If `as` stands right behind the name, everything else
on the line is the alias. Otherwise the rest of the line is passed over without a word,
whatever it is. So a declaration in a valid source loses nothing of its line exactly when
the line ends with the name, or goes on with `as`.

Main statement: `declaration_takes_line`.
-/

import Mathlib.Data.List.DropRight
import DiagramCheck.Proofs.Sequence.Cast
import DiagramCheck.Proofs.Token.Extent

namespace DiagramCheck

/-! ## Names of several items -/

namespace Items

/-- Items that are a whole name in front of others: a quoted string, or name tokens of which each
touches the one before it and no further one behind. -/
inductive SpellsName : List Item → List Item → Prop
  | quoted {item : Item} {behind : List Item} (quoted : item.kind = .string) :
      SpellsName [item] behind
  | pieces {first : Item} {more behind : List Item}
      (named : ∀ item ∈ first :: more, item.isName = true) (touch : (first :: more).IsChain Touch)
      (apart : ∀ last ∈ (first :: more).getLast?, ∀ next ∈ behind.head?,
        next.isName = true → ¬ Touch last next) :
      SpellsName (first :: more) behind

/-- The name at the front is spelled by the items that it is taken from. -/
theorem exists_spellsName {line : Nat} {items : List Item}
    (named : frontIs line (·.isParticipantName) items = true) (finish : Token) : ∃ name,
    items = name ++ afterName items ∧ SpellsName name (afterName items) ∧
      (peekName finish items).value = String.join (name.map (·.value)) := by
  obtain ⟨first, rest, rfl, -, own⟩ := exists_of_frontIs named
  cases plain : first.isName with
  | true =>
    obtain ⟨more, split, pieces, chain, apart, text⟩ := exists_pieces rest plain
    have value : (peekName finish (first :: rest)).value =
        (peekName finish (first :: rest)).text := by
      refine if_neg ?_
      rw [kind_peekName]
      exact Token.isName_kind_ne_string plain
    have values : (first :: more).map (·.value) = (first :: more).map (·.text) :=
      List.map_congr_left fun item member => Token.value_of_isName (pieces item member)
    rw [value, text finish, ← values]
    exact ⟨first :: more, by rw [List.cons_append, ← split], .pieces pieces chain apart, rfl⟩
  | false =>
    rw [Token.isParticipantName, plain, Bool.false_or, beq_iff_eq] at own
    rw [afterName_of_not_isName plain, peekName_of_not_isName plain]
    exact ⟨[first], rfl, .quoted own, by simp⟩

/-- The items of a name stand on one line. -/
theorem SpellsName.line_eq {name behind later : List Item} {line : Nat}
    (spelled : SpellsName name behind) (laid : LaidOut (name ++ later))
    (cut : ∀ item ∈ name, item.IsCut) (front : ∀ first ∈ name.head?, first.line = line) :
    ∀ item ∈ name, item.line = line := by
  cases spelled with
  | quoted => exact List.forall_mem_singleton.2 (front _ rfl)
  | @pieces first more _ named touch =>
    clear * - laid cut front named touch
    induction more generalizing first with
    | nil => exact List.forall_mem_singleton.2 (front first rfl)
    | cons second more ih =>
      obtain ⟨own, named⟩ := List.forall_mem_cons.1 named
      obtain ⟨lexeme, cut⟩ := List.forall_mem_cons.1 cut
      obtain ⟨touches, touch⟩ := List.isChain_cons_cons.1 touch
      -- Nothing stands between two pieces, and no piece holds a newline.
      have line : first.endLine = first.line := by
        have solid := lexeme.newline_not_mem (Token.isPlain_of_isName own)
        rw [Token.endLine, List.count_eq_zero.2 solid, Nat.add_zero]
      have next : second.line = first.line :=
        (laid.before.touching touches).1.trans line
      refine List.forall_mem_cons.2 ⟨front first rfl, ih named touch laid.tail cut ?_⟩
      rintro _ ⟨⟩
      exact next.trans (front first rfl)

theorem SpellsName.ne_nil {name behind : List Item} (spelled : SpellsName name behind) :
    name ≠ [] := by
  cases spelled <;> exact List.cons_ne_nil _ _

private theorem SpellsName.of_head? {name behind later : List Item}
    (spelled : SpellsName name behind)
    (front : ∀ next ∈ later.head?, next ∈ behind.head?) : SpellsName name later := by
  cases spelled with
  | quoted quoted => exact .quoted quoted
  | pieces named touch apart =>
    refine .pieces named touch fun last final next member => ?_
    exact apart last final next (front next member)

/-- What is a whole name can be told from all the items. -/
theorem SpellsName.eq_of_append {name name' behind behind' : List Item}
    (spelled : SpellsName name behind) (spelled' : SpellsName name' behind')
    (same : name ++ behind = name' ++ behind') : name = name' ∧ behind = behind' := by
  cases spelled with
  | quoted quoted =>
    cases spelled' with
    | quoted =>
      obtain ⟨rfl, rfl⟩ := List.cons.inj same
      exact ⟨rfl, rfl⟩
    | pieces named =>
      obtain ⟨rfl, -⟩ := List.cons.inj same
      exact absurd quoted (Token.isName_kind_ne_string (named _ (List.mem_cons_self ..)))
  | pieces named touch apart =>
    cases spelled' with
    | quoted quoted =>
      obtain ⟨rfl, -⟩ := List.cons.inj same
      exact absurd quoted (Token.isName_kind_ne_string (named _ (List.mem_cons_self ..)))
    | pieces named' touch' apart' =>
      obtain ⟨rfl, rest⟩ := List.cons.inj same
      -- Both names are the pieces that touch the first one.
      have own := touching_eq_of_chain (List.forall_mem_cons.1 named).2 touch apart
      have own' := touching_eq_of_chain (List.forall_mem_cons.1 named').2 touch' apart'
      obtain rfl := own.symm.trans ((congrArg (touching _) rest).trans own')
      exact ⟨rfl, List.append_cancel_left rest⟩

/-! ## Lines -/

section Line

variable {first : Item} {rest : List Item} (laid : LaidOut (first :: rest))

include laid

/-- What stands on the line of an item comes before everything below. -/
theorem LaidOut.line_pairwise :
    rest.Pairwise fun item next => (next.line == first.line) = true →
      (item.line == first.line) = true := by
  refine laid.tail.pairwise.imp_of_mem fun member _ order same => ?_
  have above := (laid.precedes _ member).line_le
  have below := order.line_le
  rw [beq_iff_eq] at same ⊢
  exact Nat.le_antisymm (below.trans same.le) above

theorem LaidOut.onLine_eq_filter :
    onLine first.line rest = rest.filter (·.line == first.line) :=
  takeWhile_eq_filter laid.line_pairwise

theorem LaidOut.skipLine_eq_filter :
    skipLine first.line rest = rest.filter (·.line != first.line) :=
  dropWhile_eq_filter laid.line_pairwise

end Line

end Items

namespace Sequence

/-! ## The line of a declaration -/

/-- How the line of a declaration goes on behind the name, with the alias that it announces and the
items that it loses. -/
inductive Ending : List Item → Option String → List Item → Prop
  | name : Ending [] none []
  | shown {mark : Item} {words : List Item} (announces : mark.isWord "as" = true)
      (nonempty : words ≠ []) : Ending (mark :: words) (Label.ofItems? words) []
  | lost {next : Item} {more : List Item} (other : next.isWord "as" = false) :
      Ending (next :: more) none (next :: more)

/-- Behind a keyword the line is one name, or one name, the word `as` and some more. -/
def IsWhole (keyword : Item) (behind : List Item) : Prop :=
  ∃ name trailing, behind.filter (·.line == keyword.line) = name ++ trailing ∧
    Items.SpellsName name trailing ∧
    (trailing = [] ∨
      ∃ mark words, trailing = mark :: words ∧ mark.isWord "as" = true ∧ words ≠ [])

/-- Nothing of a line is lost that ends with the name or goes on with `as`. -/
theorem Ending.lost_eq_nil_iff {trailing lost : List Item} {shown : Option String}
    (ending : Ending trailing shown lost) : lost = [] ↔ trailing = [] ∨
      ∃ mark words, trailing = mark :: words ∧ mark.isWord "as" = true ∧ words ≠ [] := by
  cases ending with
  | name => simp
  | shown announces nonempty => simp [announces, nonempty]
  | lost other => simp [other]

variable {finish keyword name : Token} {items : List Item}

/-- Behind the name the rest of the line is an alias, or it is lost. -/
theorem exists_ending (clean : (readAlias keyword name items).diagnostics = []) : ∃ lost,
    Ending (Items.onLine keyword.line items) (readAlias keyword name items).value lost ∧
      Items.skipLine keyword.line (readAlias keyword name items).rest =
        Items.skipLine keyword.line items := by
  cases items with
  | nil => exact ⟨[], .name, rfl⟩
  | cons mark after =>
    -- What stands on a line below is neither an alias nor lost.
    by_cases beside : mark.line = keyword.line
    · have whole : Items.onLine keyword.line (mark :: after) =
          mark :: Items.onLine keyword.line after :=
        List.takeWhile_cons_of_pos (beq_iff_eq.2 beside)
      have below : Items.skipLine keyword.line (mark :: after) =
          Items.skipLine keyword.line after :=
        List.dropWhile_cons_of_pos (beq_iff_eq.2 beside)
      cases announces : mark.isWord "as" with
      | true =>
        rw [readAlias, if_pos ⟨beside, announces⟩] at clean ⊢
        rw [whole, below]
        -- An alias without words would be reported.
        refine ⟨[], .shown announces fun empty => ?_, ?_⟩
        · rw [empty] at clean
          cases clean
        · exact List.dropWhile_idempotent _ _
      | false =>
        rw [readAlias, if_neg (by simp [announces]), whole]
        exact ⟨_, .lost announces, rfl⟩
    · have none : Items.onLine keyword.line (mark :: after) = [] :=
        List.takeWhile_cons_of_neg (by simpa using beside)
      rw [readAlias, if_neg fun both => beside both.1, none]
      exact ⟨[], .name, rfl⟩

variable {first : Item} {behind : List Item}

/-- A declaration with nothing wrong takes a name and the rest of its line. -/
theorem readDeclaration_of_clean (laid : Items.LaidOut (first :: behind))
    (cut : ∀ item ∈ behind, item.IsCut)
    (clean : (readDeclaration finish first.toToken behind).diagnostics = []) :
    ∃ name trailing shown lost,
      behind.filter (·.line == first.line) = name ++ trailing ∧
      Items.SpellsName name trailing ∧ Ending trailing shown lost ∧
      readDeclaration finish first.toToken behind =
        ⟨some (.declaration ⟨String.join (name.map (·.value)), shown⟩), [],
          behind.filter (·.line != first.line)⟩ := by
  rw [← laid.onLine_eq_filter, ← laid.skipLine_eq_filter]
  rw [readDeclaration] at clean ⊢
  -- Without a name there would be something to report.
  cases named : Items.frontIs first.line (·.isParticipantName) behind with
  | false =>
    rw [named, if_neg Bool.false_ne_true] at clean
    cases clean
  | true =>
    rw [named, if_pos rfl] at clean
    obtain ⟨name, cover, spelled, value⟩ := Items.exists_spellsName named finish
    obtain ⟨lost, ending, below⟩ := exists_ending clean
    dsimp only at clean
    rw [if_pos rfl]
    dsimp only
    rw [value, clean, below]
    generalize Items.afterName behind = after at cover spelled ending
    -- The name stands on the line of the keyword, so the line begins with all of it.
    have own : ∀ item ∈ name, (item.line == first.line) = true := by
      obtain ⟨front, rest, split, beside, -⟩ := Items.exists_of_frontIs named
      have head : ∀ item ∈ name.head?, item.line = first.line := by
        intro item member
        rw [← List.head?_append_of_ne_nil name spelled.ne_nil, ← cover, split] at member
        cases member
        exact beside
      rw [cover] at laid cut
      have lines := spelled.line_eq laid.tail (fun item member => cut item (by simp [member])) head
      exact fun item member => beq_iff_eq.2 (lines item member)
    have line : Items.onLine first.line behind = name ++ Items.onLine first.line after := by
      rw [cover, Items.onLine, List.takeWhile_append_of_pos own]
      rfl
    have rest : Items.skipLine first.line behind = Items.skipLine first.line after := by
      rw [cover, Items.skipLine, List.dropWhile_append_of_pos own]
      rfl
    rw [line, rest]
    refine ⟨name, _, _, lost, rfl, spelled.of_head? fun next front => ?_, ending, rfl⟩
    rw [Items.onLine, List.head?_takeWhile] at front
    exact (Option.mem_filter_iff.1 front).1

variable {source : String} {body : Sequence}

/-- A declaration in a valid source takes one name behind its keyword. If `as` stands right behind
the name, the rest of the line is the alias, and there is something of it. Otherwise the rest is
lost, and nothing is said of it. So nothing is lost exactly when the line is one name, or one name
and an alias. -/
theorem declaration_takes_line (drawn : ofSource? source = some body)
    (valid : isValid source = true) (begins : (first, behind) ∈ beginnings source)
    (declares : first.declaresParticipant = true) : ∃ name trailing shown lost,
      behind.filter (·.line == first.line) = name ++ trailing ∧
      Items.SpellsName name trailing ∧ Ending trailing shown lost ∧
      readStatement (Layout.finish source) first behind =
        ⟨some (.declaration ⟨String.join (name.map (·.value)), shown⟩), [],
          behind.filter (·.line != first.line)⟩ ∧
      (lost = [] ↔ IsWhole first behind) := by
  have suffix := suffix_of_mem_beginnings begins
  have clean := (exists_statements drawn).2 valid _ begins
  rw [readStatement_of_declares declares] at clean ⊢
  have cut : ∀ item ∈ behind, item.IsCut := fun item member =>
    Layout.isCut_of_mem_items source item (suffix.subset (List.mem_cons_of_mem _ member))
  obtain ⟨name, trailing, shown, lost, line, spelled, ending, read⟩ :=
    readDeclaration_of_clean ((Layout.laidOut_items source).suffix suffix) cut clean
  refine ⟨name, trailing, shown, lost, line, spelled, ending, read, ?_⟩
  rw [ending.lost_eq_nil_iff]
  constructor
  · exact fun whole => ⟨name, trailing, line, spelled, whole⟩
  · rintro ⟨name', trailing', line', spelled', whole⟩
    obtain ⟨rfl, rfl⟩ := spelled.eq_of_append spelled' (line.symm.trans line')
    exact whole

/-- The line `participant A as B` declares `A`, which is shown as `B`. -/
theorem declaration_takes_line_alias :
    ofSource? "sequenceDiagram\nparticipant A as B" = some ⟨[⟨"A", some "B"⟩], []⟩ ∧
      isValid "sequenceDiagram\nparticipant A as B" = true ∧
      (⟨⟨.participant, "participant", ⟨2, 1, 16⟩⟩, true, true⟩,
        [⟨⟨.identifier, "A", ⟨2, 13, 28⟩⟩, false, false⟩,
          ⟨⟨.identifier, "as", ⟨2, 15, 30⟩⟩, false, false⟩,
          ⟨⟨.identifier, "B", ⟨2, 18, 33⟩⟩, false, false⟩]) ∈
        beginnings "sequenceDiagram\nparticipant A as B" ∧
      ∃ name trailing shown lost, Items.SpellsName name trailing ∧ Ending trailing shown lost ∧
        String.join (name.map (·.value)) = "A" ∧ shown = some "B" := by
  have drawn : ofSource? "sequenceDiagram\nparticipant A as B" =
      some ⟨[⟨"A", some "B"⟩], []⟩ := by decide +kernel
  have valid : isValid "sequenceDiagram\nparticipant A as B" = true := by decide +kernel
  have begins : (⟨⟨.participant, "participant", ⟨2, 1, 16⟩⟩, true, true⟩,
      [⟨⟨.identifier, "A", ⟨2, 13, 28⟩⟩, false, false⟩,
        ⟨⟨.identifier, "as", ⟨2, 15, 30⟩⟩, false, false⟩,
        ⟨⟨.identifier, "B", ⟨2, 18, 33⟩⟩, false, false⟩]) ∈
      beginnings "sequenceDiagram\nparticipant A as B" := by decide +kernel
  obtain ⟨name, trailing, shown, lost, -, spelled, ending, read, -⟩ :=
    declaration_takes_line drawn valid begins rfl
  have value : some (Statement.declaration ⟨String.join (name.map (·.value)), shown⟩) =
      some (.declaration ⟨"A", some "B"⟩) :=
    (congrArg Reading.value read).symm.trans (by decide +kernel)
  have declared := Participant.mk.inj (Statement.declaration.inj (Option.some.inj value))
  exact ⟨drawn, valid, begins, name, trailing, shown, lost, spelled, ending, declared⟩

/-- In `participant A B` the second name is lost. -/
theorem declaration_loses_name : ¬ ∀ (source : String) (body : Sequence),
    ofSource? source = some body → isValid source = true →
      ∀ first behind, (first, behind) ∈ beginnings source → first.declaresParticipant = true →
        IsWhole first behind := by
  intro whole
  let first : Item := ⟨⟨.participant, "participant", ⟨2, 1, 16⟩⟩, true, true⟩
  let name : Item := ⟨⟨.identifier, "A", ⟨2, 13, 28⟩⟩, false, false⟩
  let other : Item := ⟨⟨.identifier, "B", ⟨2, 15, 30⟩⟩, false, false⟩
  have begins : (first, [name, other]) ∈ beginnings "sequenceDiagram\nparticipant A B" := by
    decide +kernel
  obtain ⟨own, trailing, line, spelled, ending⟩ := whole _ ⟨[⟨"A", none⟩], []⟩
    (by decide +kernel) (by decide +kernel) first [name, other] begins rfl
  have alone : Items.SpellsName [name] [other] := by
    refine .pieces (by decide) (.singleton name) ?_
    rintro _ ⟨⟩ _ ⟨⟩ - touch
    exact absurd (show (30 : Nat) = 29 from touch) (by decide)
  obtain ⟨rfl, rfl⟩ := alone.eq_of_append spelled line
  rcases ending with absent | ⟨mark, words, same, announces, -⟩
  · cases absent
  · obtain ⟨rfl, -⟩ := List.cons.inj same
    exact absurd announces (by decide)

end Sequence

end DiagramCheck
