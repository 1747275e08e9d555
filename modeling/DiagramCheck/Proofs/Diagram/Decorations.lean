/-
# Decorations of diagrams that are not modelled

Below its header line a diagram whose content is not modelled is looked at for
decorations only. The first decoration of a line takes the line, so whether
anything is refused on a line is decided by that decoration alone: one that the
family does not take is refused once, where it begins, and on any other line
nothing is. The header line belongs to the header.

A decoration begins a statement. That is told by the significant tokens before
it: they all end on earlier lines, or the last of them is a semicolon. A token
that merely starts no other on its line is not enough, since a string before it
may reach down to it.

Main statement: `decorations_refused_by_line`.
-/

import DiagramCheck.Proofs.Diagnostic.SourceOrder
import DiagramCheck.Proofs.Flowchart.Codes
import DiagramCheck.Proofs.Flowchart.Succession
import DiagramCheck.Proofs.Sequence.Declaration

namespace DiagramCheck

/-! ## First decorations -/

namespace Token

/-- A token that begins a statement behind the significant tokens before it. -/
def BeginsBehind (token : Token) (before : List Token) : Prop :=
  (∀ earlier ∈ before, earlier.endLine < token.line) ∨
    ∃ last ∈ before.getLast?, last.kind = .semicolon

/-- A token that begins a statement with the keyword of a decoration. -/
structure Announces (token : Token) (before : List Token) (decoration : Decoration) : Prop where
  kind : token.kind = .identifier
  keyword : Decoration.ofKeyword? token.text = some decoration
  begins : token.BeginsBehind before

/-- A token among others that announces a decoration, and is the first on its line to do so. -/
structure Decorates (tokens before : List Token) (token : Token) (behind : List Token)
    (decoration : Decoration) : Prop where
  split : tokens = before ++ token :: behind
  announces : token.Announces before decoration
  first : ∀ front other back, before = front ++ other :: back → other.line = token.line →
    ∀ decoration, ¬ other.Announces front decoration

variable {tokens before behind : List Token} {token : Token}

/-- Among tokens in order, that all end above is told by the last of them. -/
theorem startsStatementAfter_iff (order : (before ++ token :: behind).Pairwise Precedes) :
    token.startsStatementAfter before.getLast? = true ↔ token.BeginsBehind before := by
  rcases List.eq_nil_or_concat before with rfl | ⟨earlier, last, rfl⟩
  · simp [startsStatementAfter, startsLineAfter, BeginsBehind]
  · rw [List.concat_eq_append] at order ⊢
    have inside := (List.pairwise_append.1 (List.pairwise_append.1 order).1).2.2
    simp only [List.getLast?_concat, startsStatementAfter, startsLineAfter, BeginsBehind,
      Bool.or_eq_true, decide_eq_true_eq, Option.any_some, beq_iff_eq, Option.mem_some_iff,
      exists_eq_left', List.forall_mem_append, List.forall_mem_singleton]
    refine or_congr_left ⟨fun above => ⟨fun other member => ?_, above⟩, And.right⟩
    have := (inside other member last (List.mem_singleton_self _)).later
    have := last.line_le_endLine
    omega

end Token

private theorem Item.decoration?_eq_some_iff {item : Item} {decoration : Decoration} :
    item.decoration? = some decoration ↔ item.kind = .identifier ∧
      item.startsStatement = true ∧ Decoration.ofKeyword? item.text = some decoration := by
  unfold decoration?
  cases item.startsStatement <;> by_cases kind : item.kind = .identifier <;> simp [kind]

namespace Layout

/-- The item of a token behind others. -/
def itemBehind (before : List Token) (token : Token) : Item :=
  ⟨token, token.startsLineAfter before.getLast?, token.startsStatementAfter before.getLast?⟩

private theorem place_split (before : List Token) (token : Token) (behind : List Token) :
    place none (before ++ token :: behind) =
      place none before ++ itemBehind before token :: place (some token) behind := by
  rw [place_append, Option.or_none, place]
  rfl

private theorem exists_split_of_mem_place (tokens : List Token) {item : Item}
    (member : item ∈ place none tokens) :
    ∃ before token behind, tokens = before ++ token :: behind ∧ item = itemBehind before token := by
  obtain ⟨former, latter, split⟩ := List.append_of_mem member
  have tokens_eq := map_toToken_place none tokens
  rw [split, List.map_append, List.map_cons] at tokens_eq
  obtain ⟨-, own⟩ := eq_place_of_append split
  rw [List.map_cons, Option.or_none, place] at own
  exact ⟨_, _, _, tokens_eq.symm, (List.cons.inj own).1⟩

private theorem decoration?_itemBehind_iff {before behind : List Token} {token : Token}
    (order : (before ++ token :: behind).Pairwise Token.Precedes) {decoration : Decoration} :
    (itemBehind before token).decoration? = some decoration ↔
      token.Announces before decoration := by
  rw [Item.decoration?_eq_some_iff]
  constructor
  · rintro ⟨kind, starts, keyword⟩
    exact ⟨kind, keyword, (Token.startsStatementAfter_iff order).1 starts⟩
  · rintro ⟨kind, keyword, begins⟩
    exact ⟨kind, (Token.startsStatementAfter_iff order).2 begins, keyword⟩

end Layout

/-! ## What is refused on a line -/

/-- The codes of a decoration that a diagram does not take. -/
def Code.refusesDecoration : Code → Bool
  | .unsupportedStylingDirective | .unsupportedTitleDirective | .invalidNoteSyntax => true
  | _ => false

/-- The diagnostics on a line that refuse a decoration. -/
def Diagnostic.refusedOn (line : Nat) (diagnostics : List Diagnostic) : List Diagnostic :=
  diagnostics.filter fun diagnostic => diagnostic.code.refusesDecoration && diagnostic.line == line

open Diagnostic (CodesIn refusedOn)

private theorem Diagnostic.refusedOn_append (line : Nat) (first second : List Diagnostic) :
    refusedOn line (first ++ second) = refusedOn line first ++ refusedOn line second :=
  List.filter_append ..

private theorem Diagnostic.CodesIn.refusedOn_eq_nil {codes : List Code}
    {diagnostics : List Diagnostic}
    (codesIn : CodesIn codes diagnostics)
    (other : codes.all (!·.refusesDecoration) = true) (line : Nat) :
    refusedOn line diagnostics = [] := by
  rw [refusedOn, List.filter_eq_nil_iff]
  intro diagnostic member
  have plain := List.all_eq_true.1 other _ (codesIn diagnostic member)
  rw [Bool.not_eq_true'] at plain
  rw [plain, Bool.false_and]
  exact Bool.false_ne_true

namespace Decoration

private theorem misplaced_refuses (decoration : Decoration) (family : Family) (words : List Item) :
    (decoration.misplaced family words).code.refusesDecoration = true := by
  cases decoration with
  | note =>
    unfold misplaced
    dsimp only
    split <;> rfl
  | _ => rfl

/-- A diagram that is not modelled refuses what it does not take, and looks into style classes
only. -/
theorem refusedOn_diagnostics (decoration : Decoration) (kind : Unmodelled) (links line : Nat)
    (keyword found : Token) (words : List Item) :
    refusedOn line (decoration.diagnostics (.unmodelled kind) links keyword found words) =
      if keyword.line = line ∧ decoration.isLegalIn (.unmodelled kind) = false then
        [.atToken keyword (decoration.misplaced (.unmodelled kind) words)]
      else [] := by
  unfold diagnostics
  cases legal : decoration.isLegalIn (.unmodelled kind) with
  | false =>
    have refuses : (Diagnostic.atToken keyword
        (decoration.misplaced (.unmodelled kind) words)).code.refusesDecoration = true :=
      decoration.misplaced_refuses (.unmodelled kind) words
    rw [if_neg Bool.false_ne_true, refusedOn, List.filter_cons, List.filter_nil, refuses,
      Bool.true_and]
    simp only [beq_iff_eq, and_true]
    rfl
  | true =>
    rw [if_pos rfl, if_neg (by simp)]
    cases decoration with
    | classDefinition => exact (classProblems_codes keyword words).refusedOn_eq_nil rfl line
    | classAssignment => rfl
    | _ => cases kind <;> cases legal

end Decoration

namespace Unmodelled

variable {kind : Unmodelled} {before behind : List Item} {item : Item} {decoration : Decoration}

section Lines

/-- Leaving out a line leaves the items of another line. -/
theorem filter_line_of_ne {line other : Nat} (apart : line ≠ other) (items : List Item) :
    (items.filter (·.line != other)).filter (·.line == line) = items.filter (·.line == line) := by
  rw [List.filter_filter]
  refine List.filter_congr fun next _ => ?_
  by_cases beside : next.line = line
  · simp [beside, apart]
  · simp [beside]

private theorem skipLine_split {head : Item}
    (laid : Items.LaidOut (head :: (before ++ item :: behind)))
    (apart : item.line ≠ head.line) :
    Items.skipLine head.line (before ++ item :: behind) =
      before.filter (·.line != head.line) ++ item :: behind.filter (·.line != head.line) := by
  rw [laid.skipLine_eq_filter, List.filter_append, List.filter_cons, if_pos (bne_iff_ne.2 apart)]

end Lines

section Statements

variable {finish : Token} {items : List Item} {line : Nat}

private theorem refusedOn_readStatement (first : Item) (rest : List Item) (line : Nat) :
    refusedOn line (readStatement kind finish first rest).diagnostics =
      match first.decoration? with
      | none => []
      | some decoration =>
        if first.line = line ∧ decoration.isLegalIn (.unmodelled kind) = false then
          [.atToken first.toToken (decoration.misplaced (.unmodelled kind)
            (Items.onLine first.line rest))]
        else [] := by
  unfold readStatement
  split
  · next decoration found =>
    rw [found]
    exact decoration.refusedOn_diagnostics ..
  · next none =>
    rw [none]
    rfl

/-- Nothing is refused on a line without a decoration. -/
theorem refusedOn_statements_of_none (laid : Items.LaidOut items)
    (none : ∀ item ∈ items, item.line = line → item.decoration? = none) :
    refusedOn line ((Reading.statements (readStatement kind finish)
      (readStatement_suffix kind finish) items).flatMap (·.diagnostics)) = [] := by
  fun_induction Reading.statements (readStatement kind finish)
    (readStatement_suffix kind finish) items with
  | case1 => rfl
  | case2 first rest ih =>
    have suffix := readStatement_suffix kind finish first rest
    have behind := ih (laid.tail.suffix suffix) fun item member =>
      none item (List.mem_cons_of_mem _ (suffix.subset member))
    rw [List.flatMap_cons, Diagnostic.refusedOn_append, behind, refusedOn_readStatement,
      List.append_nil]
    split
    · rfl
    · next found =>
      refine if_neg fun refused => ?_
      rw [none first (List.mem_cons_self ..) refused.1] at found
      cases found

/-- The first decoration of a line decides what is refused on it. -/
theorem refusedOn_statements (laid : Items.LaidOut items)
    (split : items = before ++ item :: behind) (found : item.decoration? = some decoration)
    (first : ∀ other ∈ before, other.line = item.line → other.decoration? = none) :
    refusedOn item.line ((Reading.statements (readStatement kind finish)
        (readStatement_suffix kind finish) items).flatMap (·.diagnostics)) =
      if decoration.isLegalIn (.unmodelled kind) then []
      else [.atToken item.toToken (decoration.misplaced (.unmodelled kind)
        (behind.filter (·.line == item.line)))] := by
  fun_induction Reading.statements (readStatement kind finish)
    (readStatement_suffix kind finish) items generalizing before behind with
  | case1 => cases before <;> cases split
  | case2 head rest ih =>
    rw [List.flatMap_cons, Diagnostic.refusedOn_append, refusedOn_readStatement]
    cases before with
    | nil =>
      obtain ⟨rfl, rfl⟩ := List.cons.inj split
      have rest_eq : (readStatement kind finish head rest).rest =
          Items.skipLine head.line rest := by
        rw [readStatement, found]
        rfl
      -- The decoration takes its line, so the other statements begin below.
      have below := @refusedOn_statements_of_none kind finish
        (Items.skipLine head.line rest) head.line
        (laid.tail.suffix (Items.skipLine_suffix ..)) fun other member beside => by
          rw [laid.skipLine_eq_filter, List.mem_filter, bne_iff_ne] at member
          exact absurd beside member.2
      rw [rest_eq, below, List.append_nil, found, ← laid.onLine_eq_filter]
      dsimp only
      cases decoration.isLegalIn (.unmodelled kind) <;> simp
    | cons other former =>
      rw [List.cons_append] at split
      obtain ⟨rfl, rfl⟩ := List.cons.inj split
      have later : ∀ other ∈ former, other.line = item.line → other.decoration? = none :=
        fun other member => first other (List.mem_cons_of_mem _ member)
      have suffix := readStatement_suffix kind finish head (former ++ item :: behind)
      cases other : head.decoration? with
      | none =>
        have rest_eq : (readStatement kind finish head (former ++ item :: behind)).rest =
            former ++ item :: behind := by
          rw [readStatement, other]
        rw [rest_eq] at ih ⊢
        exact (List.nil_append _).trans (ih laid.tail rfl later)
      | some taken =>
        have apart : head.line ≠ item.line := fun beside => by
          rw [first head (List.mem_cons_self ..) beside] at other
          cases other
        have left : (readStatement kind finish head (former ++ item :: behind)).rest =
            former.filter (·.line != head.line) ++
              item :: behind.filter (·.line != head.line) := by
          rw [readStatement, other]
          exact skipLine_split laid apart.symm
        have own := ih (laid.tail.suffix suffix) left fun other member =>
          later other (List.mem_of_mem_filter member)
        rw [own, filter_line_of_ne apart.symm]
        dsimp only
        rw [if_neg fun beside => apart beside.1, List.nil_append]

end Statements

section Source

variable {source : String} {header : Item} {rest : List Item}
  (items : Layout.items (Token.tokenize source) = header :: rest)
  (heads : header.kind = .header (.unmodelled kind))

include items heads

/-- What is refused in a source whose first diagram is not modelled is refused by the statements
below the header line. -/
theorem refusedOn_validate (line : Nat) :
    (refusedOn line (validate source).diagnostics).Perm
      (refusedOn line ((Reading.statements (readStatement kind (Layout.finish source))
        (readStatement_suffix kind _) (Items.skipLine header.line rest)).flatMap
          (·.diagnostics))) := by
  have read : Diagram.readAll source.toList (Layout.finish source) (header :: rest) =
      [(read kind (Layout.finish source) header.toToken rest).map fun _ =>
        ⟨header.position, .unmodelled kind⟩] := by
    rw [Diagram.readAll_cons, Diagram.read, Items.front, heads]
    exact congrArg _ (Diagram.readAll_nil ..)
  rw [Validation.validate_of_items items, read, List.flatMap_singleton]
  refine ((Diagnostic.perm_inSourceOrder _).filter _).trans (List.Perm.of_eq ?_)
  have lexical := (Layout.lexicalDiagnosticsAfter_codes none
    (Token.tokenize source)).refusedOn_eq_nil rfl line
  exact (Diagnostic.refusedOn_append ..).trans (by rw [Layout.lexicalDiagnostics, lexical]; rfl)

private theorem refusedOn_validate_of_none {line : Nat}
    (none : ∀ item ∈ rest, header.line < item.line → item.line = line → item.decoration? = none) :
    refusedOn line (validate source).diagnostics = [] := by
  have laid : Items.LaidOut (header :: rest) := items ▸ Layout.laidOut_items source
  have refused := refusedOn_validate items heads line
  rw [refusedOn_statements_of_none (laid.tail.suffix (Items.skipLine_suffix ..))] at refused
  · exact List.perm_nil.1 refused
  · intro item member
    rw [laid.skipLine_eq_filter, List.mem_filter, bne_iff_ne] at member
    exact none item member.1 (Nat.lt_of_le_of_ne (laid.precedes item member.1).line_le
      (Ne.symm member.2))

private theorem refusedOn_validate_of_first (split : rest = before ++ item :: behind)
    (later : header.line < item.line) (found : item.decoration? = some decoration)
    (first : ∀ other ∈ before, other.line = item.line → other.decoration? = none) :
    refusedOn item.line (validate source).diagnostics =
      if decoration.isLegalIn (.unmodelled kind) then []
      else [.atToken item.toToken (decoration.misplaced (.unmodelled kind)
        (behind.filter (·.line == item.line)))] := by
  have laid : Items.LaidOut (header :: rest) := items ▸ Layout.laidOut_items source
  subst split
  have apart : item.line ≠ header.line := Nat.ne_of_gt later
  have below := skipLine_split laid apart
  have refused := refusedOn_validate items heads item.line
  rw [refusedOn_statements (laid.tail.suffix (Items.skipLine_suffix ..)) below found
    (fun other member => first other (List.mem_of_mem_filter member)),
    filter_line_of_ne apart] at refused
  cases legal : decoration.isLegalIn (.unmodelled kind) with
  | true =>
    rw [legal, if_pos rfl] at refused
    exact List.perm_nil.1 refused
  | false =>
    rw [legal, if_neg Bool.false_ne_true] at refused
    exact List.perm_singleton.1 refused

end Source

end Unmodelled

/-- In a diagram that is not modelled the first decoration of a line below the header decides what
is refused on the line: nothing when the family takes it, and otherwise one thing, at the
decoration. Nothing is refused on a line without decorations, nor on the header line. -/
theorem decorations_refused_by_line {source : String} {kind : Unmodelled} {header : Token}
    {body : List Token}
    (significant : (Token.tokenize source).filter Token.isSignificant = header :: body)
    (heads : header.kind = .header (.unmodelled kind)) (line : Nat) :
    (line ≤ header.line → refusedOn line (validate source).diagnostics = []) ∧
    ((∀ before token behind decoration, header :: body = before ++ token :: behind →
        token.line = line → ¬ token.Announces before decoration) →
      refusedOn line (validate source).diagnostics = []) ∧
    ∀ before token behind decoration, Token.Decorates (header :: body) before token behind
        decoration → token.line = line → header.line < line →
      ∃ words : List Item, words.map Item.toToken = behind.filter (·.line == line) ∧
        refusedOn line (validate source).diagnostics =
          if decoration.isLegalIn (.unmodelled kind) then []
          else [.atToken token (decoration.misplaced (.unmodelled kind) words)] := by
  have items : Layout.items (Token.tokenize source) =
      Layout.itemBehind [] header :: Layout.place (some header) body := by
    rw [Layout.items, significant]
    exact Layout.place_split [] header body
  have order : (header :: body).Pairwise Token.Precedes :=
    significant ▸ (Token.tiles_tokenize source).pairwise.filter _
  refine ⟨fun above => ?_, fun none => ?_, ?_⟩
  · refine Unmodelled.refusedOn_validate_of_none items heads fun item _ later beside => ?_
    exact absurd (Nat.lt_of_lt_of_le later (beside.le.trans above)) (Nat.lt_irrefl _)
  · -- Every item below the header is a token behind some others, and none of these announces one.
    refine Unmodelled.refusedOn_validate_of_none items heads fun item member _ beside => ?_
    obtain ⟨before, token, behind, split, rfl⟩ := Layout.exists_split_of_mem_place
      (header :: body) (List.mem_cons_of_mem _ member)
    refine Option.eq_none_iff_forall_ne_some.2 fun decoration found => ?_
    exact none before token behind decoration split beside
      ((Layout.decoration?_itemBehind_iff (split ▸ order)).1 found)
  · rintro before token behind decoration ⟨split, announces, first⟩ rfl later
    -- The decoration stands below the header line, so the header is in front of it.
    cases before with
    | nil =>
      cases split
      exact absurd later (Nat.lt_irrefl _)
    | cons head former =>
      rw [List.cons_append] at split
      obtain ⟨rfl, rfl⟩ := List.cons.inj split
      have placed := Layout.place_split (header :: former) token behind
      have placed : Layout.place (some header) (former ++ token :: behind) =
          Layout.place (some header) former ++
            Layout.itemBehind (header :: former) token :: Layout.place (some token) behind :=
        (List.cons.inj placed).2
      refine ⟨(Layout.place (some token) behind).filter (·.line == token.line), ?_, ?_⟩
      · conv_rhs => rw [← Layout.map_toToken_place (some token) behind, List.filter_map]
        rfl
      · have order : (header :: former ++ token :: behind).Pairwise Token.Precedes := order
        refine Unmodelled.refusedOn_validate_of_first items heads placed later
          ((Layout.decoration?_itemBehind_iff order).2 announces) fun item member beside => ?_
        -- What stands before it on its line announces nothing, for it is the first to do so.
        obtain ⟨front, other, back, parted, rfl⟩ := Layout.exists_split_of_mem_place
          (header :: former) (List.mem_cons_of_mem _ member)
        refine Option.eq_none_iff_forall_ne_some.2 fun taken found => ?_
        have inside := (List.pairwise_append.1 order).1
        exact first front other back parted beside taken
          ((Layout.decoration?_itemBehind_iff (parted ▸ inside)).1 found)

/-- A pie chart takes no title behind a semicolon. -/
theorem decorations_refused_by_line_title :
    ∃ words : List Item,
      words.map Item.toToken = [⟨.identifier, "Pets", ⟨2, 10, 13⟩⟩] ∧
      refusedOn 2 (validate "pie\nx; title Pets").diagnostics =
        [.atToken ⟨.identifier, "title", ⟨2, 4, 7⟩⟩
          (Decoration.title.misplaced (.unmodelled .pie) words)] := by
  have named := @decorations_refused_by_line "pie\nx; title Pets" .pie
    ⟨.header (.unmodelled .pie), "pie", ⟨1, 1, 0⟩⟩
    [⟨.identifier, "x", ⟨2, 1, 4⟩⟩, ⟨.semicolon, ";", ⟨2, 2, 5⟩⟩,
      ⟨.identifier, "title", ⟨2, 4, 7⟩⟩, ⟨.identifier, "Pets", ⟨2, 10, 13⟩⟩]
    (by decide +kernel) rfl 2
  refine named.2.2 [_, _, _] _ [_] .title ⟨rfl, ⟨rfl, rfl, .inr ⟨_, rfl, rfl⟩⟩, ?_⟩ rfl (by decide)
  intro front other back split beside decoration announces
  have member : other ∈ front ++ other :: back := by simp
  rw [← split] at member
  rcases List.mem_cons.1 member with rfl | member
  · cases announces.kind
  rcases List.mem_cons.1 member with rfl | member
  · cases announces.keyword
  · rw [List.mem_singleton.1 member] at announces
    cases announces.kind

end DiagramCheck
