/-
# Full-line comments decide nothing

A source is checked without its full-line comments as it is checked with them. The
grammars read the same items, since comments are none, and the rules for comments,
strings and directives find the same: a comment that has its line to itself breaks
none of them, and no token it stands before is on its line.

One reader looks at the source itself. A category is cut out of it with all that
stands between its first and its last token, comments included. What is cut out
then differs, but a comment in it comes with a newline, which needs quotes as well
as anything in the comment could. So the same categories are reported, though not
in the same words.

Main statement: `validate_withoutFullLineComments`.
-/

import DiagramCheck.Proofs.Diagram.Checked
import DiagramCheck.Proofs.Relocation.Diagrams
import DiagramCheck.Proofs.Token.Comments

namespace DiagramCheck

open Items (Within)

/-! ## Tokens that are taken out -/

namespace Layout

variable {chosen : Token → Bool} (comments : ∀ token, chosen token = true → token.kind = .comment)

include comments

/-- Without some comments a text has the same items. -/
theorem items_filter (tokens : List Token) : items (tokens.filter (!chosen ·)) = items tokens := by
  rw [items, items, List.filter_filter]
  congr 1
  refine List.filter_congr fun token _ => ?_
  cases hit : chosen token with
  | false => simp
  | true => simp [Token.isSignificant, comments token hit]

/-- Comments that share no line with other tokens break no rule, and without them the rules find
the same. -/
theorem lexicalDiagnosticsAfter_filter {previous : Option Token} {tokens : List Token}
    (order : tokens.Pairwise Token.Precedes) (apart : Token.Apart chosen tokens)
    (below : ∀ before ∈ previous, ∀ token ∈ tokens,
      chosen token = true → before.endLine < token.line) :
    lexicalDiagnosticsAfter previous (tokens.filter (!chosen ·)) =
      lexicalDiagnosticsAfter previous tokens := by
  induction tokens generalizing previous with
  | nil => rfl
  | cons token tokens ih =>
    obtain ⟨precedes, order⟩ := List.pairwise_cons.1 order
    obtain ⟨first, later⟩ := List.pairwise_cons.1 apart
    have own : lexicalDiagnosticsAfter (some token) (tokens.filter (!chosen ·)) =
        lexicalDiagnosticsAfter (some token) tokens := by
      refine ih order later ?_
      rintro _ ⟨⟩ next member hit
      exact first next member (.inr hit)
    by_cases hit : chosen token = true
    · -- What comes before the comment stands above what comes behind it.
      have above : ∀ before ∈ previous, ∀ next ∈ tokens, before.endLine < next.line := by
        intro before same next member
        have := below before same token (List.mem_cons_self ..) hit
        have := (precedes next member).line_le
        omega
      have next : ∀ before ∈ some token, ∀ next ∈ tokens, before.endLine < next.line := by
        rintro _ ⟨⟩ next member
        exact first next member (.inl hit)
      have beside : previous.any (·.endLine == token.line) = false := by
        rw [← Bool.not_eq_true, Option.any_eq_true]
        rintro ⟨before, same, line⟩
        have := below before same token (List.mem_cons_self ..) hit
        rw [beq_iff_eq] at line
        omega
      have settled : token.lexicalProblem? previous = none := by
        rw [Token.lexicalProblem?, if_pos (comments token hit), beside]
        rfl
      rw [List.filter_cons_of_neg (by simp [hit]), lexicalDiagnosticsAfter, settled,
        lexicalDiagnosticsAfter_of_below next, ← lexicalDiagnosticsAfter_of_below above]
      exact ih order later fun before same next member _ => above before same next member
    · rw [List.filter_cons_of_pos (by simp [hit]), lexicalDiagnosticsAfter,
        lexicalDiagnosticsAfter, own]

end Layout

/-! ## Readings that agree in all but words -/

/-- Diagnostics that say the same of the same place, perhaps in other words. -/
structure Diagnostic.Alike (first second : Diagnostic) : Prop where
  code : second.code = first.code
  line : second.line = first.line
  column : second.column = first.column
  span : second.span = first.span

theorem Diagnostic.Alike.refl (diagnostic : Diagnostic) : diagnostic.Alike diagnostic :=
  ⟨rfl, rfl, rfl, rfl⟩

private theorem Diagnostic.alike_refl (diagnostics : List Diagnostic) :
    List.Forall₂ Alike diagnostics diagnostics :=
  List.forall₂_same.2 fun diagnostic _ => .refl diagnostic

namespace Reading

/-- Readings that leave the same items and say the same, perhaps in other words. -/
structure Alike {α : Type} (same : α → α → Prop) (reading reading' : Reading α) : Prop where
  value : same reading.value reading'.value
  diagnostics : List.Forall₂ Diagnostic.Alike reading.diagnostics reading'.diagnostics
  rest : reading'.rest = reading.rest

variable {α β : Type} {same : α → α → Prop}

private theorem Alike.of_value {reading : Reading α} (value : same reading.value reading.value) :
    Alike same reading reading :=
  ⟨value, Diagnostic.alike_refl _, rfl⟩

theorem Alike.map {same' : β → β → Prop} {f f' : α → β} {reading reading' : Reading α}
    (each : ∀ value value', same value value' → same' (f value) (f' value'))
    (alike : Alike same reading reading') : Alike same' (reading.map f) (reading'.map f') :=
  ⟨each _ _ alike.value, alike.diagnostics, alike.rest⟩

/-- Statement after statement reads alike when each statement does. -/
theorem statements_alike {among : Token → Prop} {read read' : Item → List Item → Reading α}
    {suffix : ∀ first rest, (read first rest).rest <:+ rest}
    {suffix' : ∀ first rest, (read' first rest).rest <:+ rest}
    (each : ∀ first rest, Within among (first :: rest) →
      Alike same (read first rest) (read' first rest))
    {items : List Item} (within : Within among items) :
    List.Forall₂ (Alike same) (statements read suffix items) (statements read' suffix' items) := by
  fun_induction statements read suffix items with
  | case1 =>
    rw [statements]
    exact .nil
  | case2 first rest ih =>
    have alike := each first rest within
    rw [statements, alike.rest]
    exact .cons alike (ih (within.of_cons.suffix (suffix first rest)))

private theorem diagnostics_alike {readings readings' : List (Reading α)}
    (alike : List.Forall₂ (Alike same) readings readings') :
    List.Forall₂ Diagnostic.Alike (readings.flatMap (·.diagnostics))
      (readings'.flatMap (·.diagnostics)) :=
  List.rel_flatMap alike fun _ _ alike => alike.diagnostics

end Reading

/-! ## Charts -/

namespace Chart

/-- Sources in which the text between two of some tokens needs quotes in both or in neither. -/
def QuotedAlike (source source' : List Char) (among : Token → Prop) : Prop :=
  ∀ first last, among first → among last →
    (textBetween source' first last).toList.any needsQuotes =
      (textBetween source first last).toList.any needsQuotes

section Reading

variable {source source' : List Char} {among : Token → Prop}
  (quoted : QuotedAlike source source' among) {first : Item} {rest items : List Item}

include quoted

private theorem category_alike {group : List Item} (within : Within among group) :
    List.Forall₂ Diagnostic.Alike (category source group).2 (category source' group).2 := by
  cases group with
  | nil => exact .nil
  | cons first rest =>
    have ends := quoted first.toToken (rest.getLastD first).toToken within.head
      (within _ List.getLastD_mem_cons)
    simp only [category, ends]
    split
    · exact .nil
    · split
      · exact .cons ⟨rfl, rfl, rfl, rfl⟩ .nil
      · exact .nil

private theorem categories_alike {groups : List (List Item)}
    (within : ∀ group ∈ groups, Within among group) :
    List.Forall₂ Diagnostic.Alike ((groups.map (category source)).flatMap (·.2))
      ((groups.map (category source')).flatMap (·.2)) := by
  induction groups with
  | nil => exact .nil
  | cons group groups ih =>
    obtain ⟨own, later⟩ := List.forall_mem_cons.1 within
    exact List.rel_append (category_alike quoted own) (ih later)

private theorem readCategoryList_alike (keyword opening : Token) (within : Within among items) :
    Reading.Alike DrawsAlike (readCategoryList source keyword opening items)
      (readCategoryList source' keyword opening items) := by
  have inside := within.subset
    (List.takeWhile_prefix (l := items) fun item => item.kind != .closing .square).subset
  refine ⟨rfl, List.rel_append ?_ (Diagnostic.alike_refl _), rfl⟩
  exact categories_alike quoted fun _ member => within_of_mem_splitAtCommas inside member

private theorem readCategories_alike (finish keyword : Token) (within : Within among rest) :
    Reading.Alike DrawsAlike (readCategories source finish keyword rest)
      (readCategories source' finish keyword rest) := by
  have items := within.suffix (Items.dropIf_suffix keyword.line (·.kind == .string) rest)
  unfold readCategories
  dsimp only
  split
  · exact readCategoryList_alike quoted _ _ items.tail
  · exact .of_value rfl

/-- Of all statements of a chart only the categories are cut out of the source. -/
theorem readStatement_alike (finish : Token) (within : Within among (first :: rest)) :
    Reading.Alike DrawsAlike (readStatement source finish first rest)
      (readStatement source' finish first rest) := by
  unfold readStatement
  split
  · exact .of_value rfl
  · split
    · next keyword _ =>
      cases keyword with
      | categories => exact readCategories_alike quoted finish first.toToken within.of_cons
      | _ => exact .of_value rfl
    · split <;> exact .of_value rfl

private theorem read_alike (finish header : Token) (within : Within among rest) :
    Reading.Alike (fun _ _ => True) (read source finish header rest)
      (read source' finish header rest) := by
  have readings : List.Forall₂ (Reading.Alike DrawsAlike) (statements source finish header rest)
      (statements source' finish header rest) :=
    Reading.statements_alike (fun _ _ => readStatement_alike quoted finish)
      (within.suffix (Items.skipLine_suffix _ _))
  refine ⟨trivial, List.rel_append (Reading.diagnostics_alike readings) ?_, rfl⟩
  rw [isEmpty_series_of_drawsAlike (readings.imp fun _ _ alike => alike.value)
    (isHorizontal header rest)]
  exact Diagnostic.alike_refl _

end Reading

end Chart

/-! ## Diagrams -/

namespace Diagram

section Reading

variable {source source' : List Char} {among : Token → Prop}
  (quoted : Chart.QuotedAlike source source' among) (finish : Token) {items : List Item}

include quoted

private theorem readContent_alike (header : Token) (within : Within among items) (family : Family) :
    Reading.Alike (fun content content' => content'.type = content.type)
      (readContent source finish header items family)
      (readContent source' finish header items family) := by
  cases family with
  | chart => exact (Chart.read_alike quoted finish header within).map fun _ _ _ => rfl
  | _ => exact .of_value rfl

/-- A diagram is read alike of two sources with the same items. -/
private theorem read_alike (within : Within among items) :
    Reading.Alike (fun diagram diagram' => diagram'.type = diagram.type)
      (read source finish items) (read source' finish items) := by
  unfold read
  dsimp only
  split
  · exact (readContent_alike quoted finish _ within.tail _).map fun _ _ same => same
  · exact .of_value rfl

private theorem readAll_alike (within : Within among items) :
    List.Forall₂ (Reading.Alike fun diagram diagram' => diagram'.type = diagram.type)
      (readAll source finish items) (readAll source' finish items) :=
  Reading.statements_alike (fun _ _ within => read_alike quoted finish within) within

end Reading

end Diagram

/-! ## The text between two tokens -/

section Between

variable {source : String} {inside : List Char}

/-- A text cut out of a source that begins before the end of a full-line comment and ends behind it
holds the newline behind the comment. -/
theorem exists_newline_of_reaches {start stop : Nat} {comment : Token}
    (sliced : Text.slice? start stop source.toList = some inside)
    (member : comment ∈ Token.tokenize source)
    (own : comment.isFullLineComment source.toList = true) (reached : start < comment.stop)
    (more : comment.stop < stop) : ∃ before behind, inside = before ++ '\n' :: behind := by
  obtain ⟨before, behind, split, rfl, rfl⟩ := Text.slice?_eq_some_iff.1 sliced
  obtain ⟨passed, rest, split', starts⟩ :=
    (Token.tiles_tokenize source).exists_split [] rfl comment member
  rw [List.nil_append] at split'
  rw [Token.isFullLineComment_iff starts split'] at own
  obtain ⟨later, rfl⟩ := List.head?_eq_some_iff.1 own.2.2
  have ends : comment.stop = Text.byteLength (passed ++ comment.text.toList) := by
    rw [Token.stop_eq, Token.offset_eq_byteLength starts, Text.byteLength_append]
  rw [ends] at reached more
  -- Both cut the source, once before the inside and once behind the newline.
  obtain ⟨front, shape, shape'⟩ := Text.append_eq_append_of_byteLength_le
    (split.symm.trans (split'.trans (List.append_assoc ..).symm)) reached.le
  rw [shape, Text.byteLength_append] at more
  have newline : Text.byteLength (front ++ ['\n']) ≤ Text.byteLength inside := by
    have size : '\n'.utf8Size = 1 := rfl
    rw [Text.byteLength_append, Text.byteLength_cons, Text.byteLength_nil]
    omega
  have whole : (front ++ ['\n']) ++ later = inside ++ behind := by simpa using shape'.symm
  obtain ⟨back, rfl, -⟩ := Text.append_eq_append_of_byteLength_le whole newline
  exact ⟨front, back, by simp⟩

variable {first last : Token}
  (sliced : Text.slice? first.offset (max first.offset last.stop) source.toList = some inside)
  (member : last ∈ Token.tokenize source) (significant : last.isSignificant = true)

include sliced member significant

/-- When a byte between two tokens is covered by a full-line comment, so is the newline behind the
comment between them. -/
theorem exists_newline_of_commented {byte : Nat} (low : first.offset ≤ byte)
    (high : byte < max first.offset last.stop) (hit : Token.commented source byte = true) :
    ∃ before behind, inside = before ++ '\n' :: behind := by
  obtain ⟨comment, known, hit⟩ := List.any_eq_true.1 hit
  rw [Bool.and_eq_true, Token.covers, Bool.and_eq_true, decide_eq_true_eq, decide_eq_true_eq]
    at hit
  obtain ⟨own, reached, more⟩ := hit
  have other : comment ≠ last := by
    rintro rfl
    rw [Token.isSignificant, Token.kind_of_isFullLineComment own] at significant
    cases significant
  have solid : last.offset < last.stop := by
    rcases Token.isCut_or_endOfInput source last member with ⟨behind, cut⟩ | finish
    · exact cut.offset_lt_stop
    · rw [Token.isSignificant, finish] at significant
      cases significant
  -- The comment begins before the last token ends, so it comes before that token.
  obtain order | order := Token.precedes_or_precedes known member other
  · have := order.apart
    exact exists_newline_of_reaches sliced known own (by omega) (by omega)
  · have := order.apart
    omega

/-- A text between two tokens needs quotes without the full-line comments in it when it needs them
with the comments, since these come with newlines. -/
theorem any_needsQuotes_paint :
    (Text.paint (Token.commented source) first.offset inside).any Chart.needsQuotes =
      inside.any Chart.needsQuotes := by
  have stop : first.offset + Text.byteLength inside = max first.offset last.stop := by
    obtain ⟨before, behind, -, -, stop⟩ := Text.slice?_eq_some_iff.1 sliced
    exact stop
  by_cases hit : ∃ byte, first.offset ≤ byte ∧ byte < first.offset + Text.byteLength inside ∧
      Token.commented source byte = true
  · obtain ⟨byte, low, high, hit⟩ := hit
    rw [stop] at high
    obtain ⟨before, behind, rfl⟩ :=
      exists_newline_of_commented sliced member significant low high hit
    -- A newline needs quotes, and so does the space that may be in its place.
    have painted (covered : Nat → Bool) (offset : Nat) :
        (Text.paint covered offset ('\n' :: behind)).any Chart.needsQuotes = true := by
      rw [Text.paint, List.any_append, Bool.or_eq_true]
      left
      split <;> rfl
    rw [Text.paint_append, List.any_append, painted, List.any_append, List.any_cons, Bool.or_true]
    exact (Bool.or_true _).symm
  · push Not at hit
    rw [Text.paint_of_uncovered fun byte low high => Bool.eq_false_iff.2 (hit byte low high)]

end Between

private theorem quotedAlike_withoutFullLineComments (source : String) :
    Chart.QuotedAlike source.toList (Text.withoutFullLineComments source).toList
      (· ∈ (Token.tokenize source).filter Token.isSignificant) := by
  intro first last member member'
  rw [List.mem_filter] at member member'
  obtain ⟨inside, sliced, text⟩ := exists_textBetween member.1 member'.1
  have text' : Chart.textBetween (Text.withoutFullLineComments source).toList first last =
      String.ofList (Text.paint (Token.commented source) first.offset inside) := by
    rw [Chart.textBetween, Text.withoutFullLineComments, String.toList_ofList,
      Text.slice?_paint sliced]
    rfl
  rw [text, text', String.toList_ofList, String.toList_ofList]
  exact any_needsQuotes_paint sliced member'.1 member'.2

/-! ## Sources -/

variable (source : String)

private theorem Layout.finish_withoutFullLineComments :
    finish (Text.withoutFullLineComments source) = finish source := by
  have ends (source : String) :
      Token.tokenize source = Token.lexemes .start source.toList ++ [finish source] :=
    Token.stream_eq_lexemes ..
  have kept : Token.isFullLineComment source.toList (finish source) = false :=
    Bool.eq_false_iff.2 fun hit => by cases Token.kind_of_isFullLineComment hit
  have tokens := Token.tokenize_withoutFullLineComments source
  rw [ends, ends source, List.filter_append, List.filter_singleton, kept, Bool.not_false,
    cond_true] at tokens
  have last := List.append_inj_right' tokens (by simp only [List.length_singleton])
  exact List.head_eq_of_cons_eq last

/-- The same is found in a source without its full-line comments, perhaps in other words, and its
diagrams have the same types. -/
theorem Validation.found_withoutFullLineComments :
    List.Forall₂ Diagnostic.Alike (found source)
        (found (Text.withoutFullLineComments source)) ∧
      (diagrams (Text.withoutFullLineComments source)).1.value.type =
        (diagrams source).1.value.type := by
  have comments (token : Token) : token.isFullLineComment source.toList = true → _ :=
    Token.kind_of_isFullLineComment
  have tokens := Token.tokenize_withoutFullLineComments source
  -- The grammars read the same items, and of the texts between them only what has no comments.
  have items : Layout.items (Token.tokenize (Text.withoutFullLineComments source)) =
      Layout.items (Token.tokenize source) := by
    rw [tokens, Layout.items_filter comments]
  have lexical : Layout.lexicalDiagnostics
      (Token.tokenize (Text.withoutFullLineComments source)) =
        Layout.lexicalDiagnostics (Token.tokenize source) := by
    rw [tokens]
    exact Layout.lexicalDiagnosticsAfter_filter comments (Token.tiles_tokenize source).pairwise
      (Token.apart_tokenize source) nofun
  have quoted := quotedAlike_withoutFullLineComments source
  have within : Within (· ∈ (Token.tokenize source).filter Token.isSignificant)
      (Layout.items (Token.tokenize source)) := by
    intro item member
    rw [← Layout.map_toToken_items]
    exact List.mem_map_of_mem member
  have first := Diagram.read_alike quoted (Layout.finish source) within
  have later := Diagram.readAll_alike quoted (Layout.finish source)
    (within.suffix (diagrams_rest_suffix source))
  have readings : diagrams (Text.withoutFullLineComments source) =
      Diagram.ofItems (Text.withoutFullLineComments source).toList (Layout.finish source)
        (Layout.items (Token.tokenize source)) := by
    rw [diagrams, items, Layout.finish_withoutFullLineComments]
  rw [found, found, lexical, readings]
  refine ⟨List.rel_append (List.rel_append (Diagnostic.alike_refl _) first.diagnostics) ?_,
    first.value⟩
  rw [first.rest]
  exact Reading.diagnostics_alike later

private theorem isBlankText_withoutFullLineComments (blank : Text.isBlankText source = true) :
    Text.isBlankText (Text.withoutFullLineComments source) = true := by
  have all (covered : Nat → Bool) (offset : Nat) (text : List Char)
      (blank : text.all Text.isBlank = true) :
      (Text.paint covered offset text).all Text.isBlank = true := by
    induction text generalizing offset with
    | nil => rfl
    | cons c text ih =>
      rw [List.all_cons, Bool.and_eq_true] at blank
      rw [Text.paint, List.all_append, ih _ blank.2, Bool.and_true]
      split
      · simp [Text.isBlank_space]
      · simp [blank.1]
  rw [Text.isBlankText, Text.withoutFullLineComments, String.toList_ofList]
  exact all _ _ _ blank

/-- Full-line comments never change the verdict. When every comment that has its line to itself is
replaced, byte for byte, by spaces and something is left to read, the source is as valid as it was,
its diagram has the same type, and its diagnostics have the same codes and stand at the same
places, in the same order. -/
theorem validate_withoutFullLineComments
    (visible : ∃ c ∈ (Text.withoutFullLineComments source).toList, Text.isBlank c = false) :
    (validate (Text.withoutFullLineComments source)).isValid = (validate source).isValid ∧
      (validate (Text.withoutFullLineComments source)).type = (validate source).type ∧
      List.Forall₂
        (fun diagnostic diagnostic' => diagnostic'.code = diagnostic.code ∧
          diagnostic'.line = diagnostic.line ∧ diagnostic'.column = diagnostic.column ∧
          diagnostic'.span = diagnostic.span)
        (validate source).diagnostics
        (validate (Text.withoutFullLineComments source)).diagnostics := by
  have painted : Text.isBlankText (Text.withoutFullLineComments source) = false := by
    obtain ⟨c, member, solid⟩ := visible
    refine Bool.eq_false_iff.2 fun blank => ?_
    rw [List.all_eq_true.1 blank c member] at solid
    cases solid
  have whole : Text.isBlankText source = false := by
    refine Bool.eq_false_iff.2 fun blank => ?_
    rw [isBlankText_withoutFullLineComments source blank] at painted
    cases painted
  obtain ⟨found, type⟩ := Validation.found_withoutFullLineComments source
  have alike : List.Forall₂ Diagnostic.Alike (validate source).diagnostics
      (validate (Text.withoutFullLineComments source)).diagnostics := by
    rw [validate, validate, whole, painted]
    -- Diagnostics that stand at the same places are put in the same order.
    refine Diagnostic.forall₂_inSourceOrder ?_ found
    intro first first' second second' own next
    rw [Diagnostic.precedes, Diagnostic.precedes, own.line, next.line, own.column, next.column]
  refine ⟨?_, ?_, alike.imp fun _ _ alike => ⟨alike.code, alike.line, alike.column, alike.span⟩⟩
  · rw [Verdict.isValid, Verdict.isValid, Bool.eq_iff_iff, List.isEmpty_iff_length_eq_zero,
      List.isEmpty_iff_length_eq_zero, alike.length_eq]
  · rw [validate, validate, whole, painted]
    exact type

/-- A category with a full-line comment in it is reported with and without the comment. -/
theorem validate_withoutFullLineComments_category :
    let source := "xychart-beta\nx-axis [a\n%% ü\nb]\nbar [1]"
    (∃ c ∈ (Text.withoutFullLineComments source).toList, Text.isBlank c = false) ∧
      Text.withoutFullLineComments source = "xychart-beta\nx-axis [a\n     \nb]\nbar [1]" ∧
      (validate (Text.withoutFullLineComments source)).isValid = (validate source).isValid ∧
      (validate (Text.withoutFullLineComments source)).type = (validate source).type ∧
      List.Forall₂
        (fun diagnostic diagnostic' => diagnostic'.code = diagnostic.code ∧
          diagnostic'.line = diagnostic.line ∧ diagnostic'.column = diagnostic.column ∧
          diagnostic'.span = diagnostic.span)
        (validate source).diagnostics
        (validate (Text.withoutFullLineComments source)).diagnostics :=
  have visible : ∃ c ∈ (Text.withoutFullLineComments
      "xychart-beta\nx-axis [a\n%% ü\nb]\nbar [1]").toList, Text.isBlank c = false :=
    ⟨'x', by decide +kernel, rfl⟩
  ⟨visible, by decide +kernel, validate_withoutFullLineComments _ visible⟩

end DiagramCheck
