/-
# Where directives end

A directive ends at the first closing brace that leaves no brace open and has
two percent signs right behind it. Which braces are open is told here from the
text before a place, without scanning: braces nest, and a closing brace where
none is open leaves none open. `ClosesAt` says of a place that it closes the
directive, and `RunsOut` that no place does.

The scan ends at the first place that closes, and takes all of the text when
there is none. Whether a directive was closed is judged later by how its text
ends, which is not the same: a directive that runs out may end in the closing
mark all the same, when the brace of that mark belongs to an inner one.
-/

import DiagramCheck.Proofs.Token.Extent

namespace DiagramCheck

namespace Lexeme

/-! ## Open braces -/

/-- The braces open behind a character, where `depth` are open before it. -/
def braces (depth : Nat) (c : Char) : Nat :=
  if c = '\x7b' then depth + 1 else if c = '\x7d' then depth - 1 else depth

/-- The braces open behind a text, where `depth` are open before it. -/
def openBraces (depth : Nat) (text : List Char) : Nat := text.foldl braces depth

/-- At a place of a text there is a closing brace that leaves no brace open, and two percent signs
come right behind it. -/
def ClosesAt (depth : Nat) (text : List Char) (place : Nat) : Prop :=
  ['\x7d', '%', '%'] <+: text.drop place ∧ openBraces depth (text.take (place + 1)) = 0

/-- A directive runs out when no place of the text behind its mark closes it. -/
def RunsOut (depth : Nat) (text : List Char) : Prop :=
  ∀ place < text.length, ¬ ClosesAt depth text place

instance (depth : Nat) (text : List Char) (place : Nat) : Decidable (ClosesAt depth text place) :=
  inferInstanceAs (Decidable (_ ∧ _))

instance (depth : Nat) (text : List Char) : Decidable (RunsOut depth text) :=
  inferInstanceAs (Decidable (∀ place < text.length, ¬ ClosesAt depth text place))

variable {depth : Nat} {c : Char} {text : List Char}

private theorem closesAt_zero : ClosesAt depth (c :: text) 0 ↔
    c = '\x7d' ∧ ['%', '%'] <+: text ∧ depth ≤ 1 := by
  rw [ClosesAt, List.drop_zero, List.cons_prefix_cons, and_assoc]
  refine ⟨fun ⟨brace, mark, closed⟩ => ⟨brace.symm, mark, ?_⟩,
    fun ⟨brace, mark, few⟩ => ⟨brace.symm, mark, ?_⟩⟩
  · subst brace
    have rest : depth - 1 = 0 := closed
    omega
  · subst brace
    have rest : depth - 1 = 0 := by omega
    exact rest

/-- Behind the first character of a text the places that close are those of the rest. -/
theorem closesAt_succ {place : Nat} :
    ClosesAt depth (c :: text) (place + 1) ↔ ClosesAt (braces depth c) text place := Iff.rfl

private theorem runsOut_cons (stays : ¬ ClosesAt depth (c :: text) 0)
    (later : RunsOut (braces depth c) text) : RunsOut depth (c :: text) := by
  intro place inside
  cases place with
  | zero => exact stays
  | succ place => exact later place (Nat.lt_of_succ_lt_succ inside)

/-! ## The scan -/

/-- How a scan ends: at the first place that closes, or at the end of the text. -/
def Scanned (depth : Nat) (text : List Char) (length : Nat) : Prop :=
  RunsOut depth text ∧ length = text.length ∨
    ∃ place, ClosesAt depth text place ∧ (∀ earlier < place, ¬ ClosesAt depth text earlier) ∧
      length = place + 3

/-- A scan that passes a character goes on with the rest. -/
theorem Scanned.cons {length : Nat} (stays : ¬ ClosesAt depth (c :: text) 0)
    (later : Scanned (braces depth c) text length) : Scanned depth (c :: text) (length + 1) := by
  rcases later with ⟨out, rfl⟩ | ⟨place, closes, first, rfl⟩
  · exact .inl ⟨runsOut_cons stays out, rfl⟩
  · refine .inr ⟨place + 1, closesAt_succ.2 closes, fun earlier less => ?_, by omega⟩
    cases earlier with
    | zero => exact stays
    | succ earlier => exact first earlier (Nat.lt_of_succ_lt_succ less)

private theorem scanned_directiveBody (depth : Nat) (text : List Char) :
    Scanned depth text (directiveBody depth text) := by
  fun_induction directiveBody depth text with
  | case1 depth => exact .inl ⟨fun place inside => absurd inside (Nat.not_lt_zero place), rfl⟩
  | case2 depth text ih =>
    -- An opening brace closes nothing.
    exact ih.cons fun closes => by cases (closesAt_zero.1 closes).1
  | case3 depth text closes =>
    obtain ⟨few, mark⟩ := closes
    refine .inr ⟨0, closesAt_zero.2 ⟨rfl, List.isPrefixOf_iff_prefix.1 mark, few⟩, ?_, rfl⟩
    exact fun earlier less => absurd less (Nat.not_lt_zero earlier)
  | case4 depth text stays _ ih =>
    refine ih.cons fun closes => stays ?_
    obtain ⟨-, mark, few⟩ := closesAt_zero.1 closes
    exact ⟨few, List.isPrefixOf_iff_prefix.2 mark⟩
  | case5 depth c text opening closing ih =>
    have same : braces depth c = depth := by rw [braces, if_neg opening, if_neg closing]
    have later : Scanned (braces depth c) text (directiveBody depth text) := by rwa [same]
    exact later.cons fun closes => closing (closesAt_zero.1 closes).1

/-- What is scanned ends in the closing mark when some place closes. -/
theorem suffix_of_closesAt {body behind : List Char} {place : Nat}
    (closes : ClosesAt depth (body ++ behind) place) (length : body.length = place + 3) :
    ['\x7d', '%', '%'] <:+ body := by
  have mark := List.prefix_iff_eq_take.1 closes.1
  have last : body.drop place = ['\x7d', '%', '%'] := by
    rw [mark, List.drop_append_of_le_length (by omega), List.length_cons, List.length_cons,
      List.length_singleton, List.take_append_of_le_length (by rw [List.length_drop]; omega)]
    exact (List.take_of_length_le (by rw [List.length_drop]; omega)).symm
  rw [← last]
  exact List.drop_suffix ..

end Lexeme

namespace Token

/-! ## Directives among the tokens -/

/-- A directive that ends in the closing mark is long enough to hold the opening one as well. -/
theorem isUnterminatedDirective_eq {token : Token} {body : List Char}
    (kind : token.kind = .directive) (text : token.text.toList = ['%', '%', '\x7b'] ++ body) :
    token.isUnterminatedDirective = !(['\x7d', '%', '%'].isSuffixOf token.text.toList) := by
  rw [Token.isUnterminatedDirective, kind, beq_self_eq_true, Bool.true_and]
  cases closed : ['\x7d', '%', '%'].isSuffixOf token.text.toList with
  | false => rw [Bool.and_false]
  | true =>
    have suffix := List.isSuffixOf_iff_suffix.1 closed
    have long : 3 ≤ body.length := by
      rw [text] at suffix
      match body with
      | [] => simp [List.suffix_iff_eq_drop] at suffix
      | [_] => simp [List.suffix_iff_eq_drop] at suffix
      | [_, _] => simp [List.suffix_iff_eq_drop] at suffix
      | _ :: _ :: _ :: _ => simp
    have size := Text.length_le_byteLength token.text.toList
    rw [Text.byteLength_toList, text, List.length_append] at size
    have enough : 6 ≤ token.text.utf8ByteSize := by simp at size; omega
    rw [Bool.and_true, decide_eq_true enough]

/-- Nothing in a source closes the directive that a token begins; its body begins behind the three
bytes of the opening mark. -/
def RunsOut (source : String) (token : Token) : Prop :=
  ∃ text, Text.dropBytes? (token.offset + 3) source.toList = some text ∧ Lexeme.RunsOut 1 text

section Body

variable {source : String} {token : Token}

/-- A directive among the tokens of a source is the opening mark and what is scanned of the text
behind it. -/
theorem exists_directiveBody (member : token ∈ tokenize source)
    (directive : token.kind = .directive) :
    ∃ passed body behind, source.toList = passed ++ (token.text.toList ++ behind) ∧
      token.text.toList = ['%', '%', '\x7b'] ++ body ∧
      Text.dropBytes? (token.offset + 3) source.toList = some (body ++ behind) ∧
      body.length = Lexeme.directiveBody 1 (body ++ behind) := by
  obtain ⟨passed, behind, whole, starts, cut⟩ := (tiles_tokenize source).exists_cut token member
    (by rw [directive]; exact nofun)
  obtain ⟨body, text, own⟩ := (cut.leads directive ⟨nofun, nofun, nofun⟩).directive
  refine ⟨passed, body, behind, whole, text, ?_, own.symm⟩
  have mark : token.offset + 3 = Text.byteLength (passed ++ ['%', '%', '\x7b']) := by
    rw [offset_eq_byteLength starts, Text.byteLength_append]
    rfl
  have split : source.toList = (passed ++ ['%', '%', '\x7b']) ++ (body ++ behind) := by
    rw [whole, text]
    simp only [List.append_assoc]
  rw [mark, split, Text.dropBytes?_append]

/-- A directive is judged unterminated exactly when it runs out and the source does not end in the
closing mark. -/
theorem isUnterminatedDirective_iff (member : token ∈ tokenize source)
    (directive : token.kind = .directive) :
    token.isUnterminatedDirective = true ↔
      token.RunsOut source ∧ ¬ ['\x7d', '%', '%'] <:+ source.toList := by
  obtain ⟨passed, body, behind, whole, text, scanned, length⟩ :=
    exists_directiveBody member directive
  have runsOut : token.RunsOut source ↔ Lexeme.RunsOut 1 (body ++ behind) := by
    rw [RunsOut, scanned]
    simp
  rw [isUnterminatedDirective_eq directive text, Bool.not_eq_true', Bool.eq_false_iff, Ne,
    List.isSuffixOf_iff_suffix, runsOut]
  have scan := Lexeme.scanned_directiveBody 1 (body ++ behind)
  rw [← length] at scan
  rcases scan with ⟨out, all⟩ | ⟨place, closes, -, few⟩
  · -- The directive takes the rest of the source, so both end alike.
    obtain rfl : behind = [] := by
      rw [List.length_append] at all
      exact List.eq_nil_of_length_eq_zero (by omega)
    rw [List.append_nil] at out whole
    have last : ['\x7d', '%', '%'] <:+ source.toList ↔
        ['\x7d', '%', '%'] <:+ token.text.toList := by
      rw [whole]
      refine ⟨fun mark => ?_, fun mark => mark.trans (List.suffix_append ..)⟩
      exact List.suffix_of_suffix_length_le mark (List.suffix_append ..) (by rw [text]; simp)
    rw [last, List.append_nil]
    exact ⟨fun other => ⟨out, other⟩, And.right⟩
  · -- A place closes, so the directive is not judged unterminated and does not run out.
    have mark : ['\x7d', '%', '%'] <:+ token.text.toList := by
      rw [text]
      exact (Lexeme.suffix_of_closesAt closes few).trans (List.suffix_append ..)
    have inside : place < (body ++ behind).length := by
      rw [List.length_append]
      omega
    exact ⟨fun unmarked => absurd mark unmarked, fun ⟨out, _⟩ => absurd closes (out place inside)⟩

end Body

end Token

end DiagramCheck
