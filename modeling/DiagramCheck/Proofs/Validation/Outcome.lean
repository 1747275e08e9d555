/-
# Outcomes

A verdict stores as little as it can. An outcome is the same with everything
written down where it becomes known: whether there is nothing to report, beside
the diagnostics; the type, beside the tree; and in the tree its kind, which the
header tells before anything of the body is read. So an outcome could say that a
source with diagnostics is valid, or have a tree of one kind under the type of
another. No check and no amendment of an outcome makes it do so: outcomes and
verdicts go through the same steps, and what an outcome stores is what the
verdict derives.

Amendments come after the check, one at a time. Each only adds diagnostics, and
a target version adds one exactly when it is not the validated version.

Main statement: `Outcome.amended_run`.
-/

import DiagramCheck.Validation.Compatibility
import DiagramCheck.Proofs.Flowchart.Overrun
import DiagramCheck.Proofs.Token.Scan

namespace DiagramCheck

/-! ## Trees with their kind stored -/

/-- The body of a tree. Where the content of a diagram is not looked at, the body holds nothing. -/
inductive Body
  | flowchart (body : Flowchart)
  | sequence (body : Sequence)
  | chart (body : Chart)
  | blocks (body : BlockDiagram)
  | bare

/-- The body that goes with a type of diagram. -/
def Body.Suits : Body → DiagramType → Prop
  | .flowchart _, type => type = .known .flowchart
  | .sequence _, type => type = .known .sequence
  | .chart _, type => type = .known .chart
  | .blocks _, type => type = .known .blocks
  | .bare, type => type = .unknown ∨ ∃ kind, type = .known (.unmodelled kind)

/-- A tree: its kind, the place of its header, and its body. -/
structure Root where
  kind : DiagramType
  position : Position
  body : Body

/-- The body of a diagram with some content. -/
def Content.body : Content → Body
  | .flowchart body => .flowchart body
  | .sequence body => .sequence body
  | .chart body => .chart body
  | .blocks body => .blocks body
  | .unmodelled _ => .bare
  | .unknown => .bare

/-- A diagram as a tree. -/
def Diagram.root (diagram : Diagram) : Root :=
  ⟨diagram.type, diagram.position, diagram.content.body⟩

/-- The type of diagram that a kind of token begins. -/
def TokenKind.begun (kind : TokenKind) : DiagramType :=
  match kind.family? with
  | some family => .known family
  | none => .unknown

/-- Reads the tree at the front of the items. Its kind is that of the header, whatever the body
turns out to be. -/
def Root.read (source : List Char) (finish : Token) (items : List Item) : Root :=
  let header := Items.front finish items
  let body : Body :=
    match header.kind.family? with
    | some family => (Diagram.readContent source finish header items.tail family).value.body
    | none => .bare
  ⟨header.kind.begun, header.position, body⟩

private theorem Content.body_suits_type (content : Content) : content.body.Suits content.type := by
  cases content with
  | flowchart | sequence | chart | blocks => rfl
  | unmodelled kind => exact .inr ⟨kind, rfl⟩
  | unknown => exact .inl rfl

namespace Diagram

variable (source : List Char) (finish header : Token)

/-- What is read after a header is of the family of the header. -/
theorem type_readContent (rest : List Item) (family : Family) :
    (readContent source finish header rest family).value.type = .known family := by
  cases family <;> rfl

/-- A diagram is as its header says. -/
theorem root_read (items : List Item) :
    (read source finish items).value.root = Root.read source finish items := by
  unfold read Root.read TokenKind.begun
  dsimp only
  cases (Items.front finish items).kind.family? with
  | none => rfl
  | some family =>
    have known := type_readContent source finish (Items.front finish items) items.tail family
    dsimp only
    rw [Reading.value_map, root, type, known]

end Diagram

/-! ## Outcomes and amendments -/

/-- What checking a source comes to, with everything stored. -/
structure Outcome where
  isValid : Bool
  type : DiagramType
  diagnostics : List Diagnostic
  root? : Option Root

/-- What may be done to a verdict after the check. -/
inductive Amendment
  | push (diagnostic : Diagnostic)
  | against (target : String)

/-- What an amendment adds to the diagnostics. -/
def Amendment.added : Amendment → List Diagnostic
  | .push diagnostic => [diagnostic]
  | .against target =>
    if target = Compatibility.validatedVersion then []
    else [.unplaced (.versionMismatch target Compatibility.validatedVersion)]

/-- The amendment that some settings ask for. -/
def Settings.amendments (settings : Settings) : List Amendment :=
  (settings.targetVersion.map Amendment.against).toList

/-- A verdict after an amendment. -/
def Verdict.amend (verdict : Verdict) : Amendment → Verdict
  | .push diagnostic => verdict.push diagnostic
  | .against target => verdict.against target

/-- What a verdict derives, written down. -/
def Verdict.outcome (verdict : Verdict) : Outcome :=
  ⟨verdict.isValid, verdict.type, verdict.diagnostics, verdict.diagram?.map Diagram.root⟩

namespace Outcome

/-- An outcome of a check, valid if nothing was found. -/
def make (type : DiagramType) (diagnostics : List Diagnostic) (root? : Option Root) : Outcome :=
  ⟨diagnostics.isEmpty, type, diagnostics, root?⟩

/-- The outcome for an input that is never read. -/
def rejected (problem : Problem) : Outcome := make .unknown [.unplaced problem] none

/-- An outcome with one more diagnostic, which is no longer valid. -/
def push (outcome : Outcome) (diagnostic : Diagnostic) : Outcome :=
  { outcome with diagnostics := outcome.diagnostics ++ [diagnostic], isValid := false }

/-- An outcome meant for a target version. -/
def against (outcome : Outcome) (target : String) : Outcome :=
  match Compatibility.mismatch? target with
  | none => outcome
  | some diagnostic => outcome.push diagnostic

/-- An outcome after an amendment. -/
def amend (outcome : Outcome) : Amendment → Outcome
  | .push diagnostic => outcome.push diagnostic
  | .against target => outcome.against target

/-- The outcome of checking a source. -/
def check (source : String) : Outcome :=
  if Text.isBlankText source then rejected .blankInput
  else
    let root := Root.read source.toList (Layout.finish source)
      (Layout.items (Token.tokenize source))
    make root.kind (Diagnostic.inSourceOrder (Validation.found source)) (some root)

/-- The outcome of checking a source under some settings. -/
def run (settings : Settings) (source : String) : Outcome :=
  match settings.targetVersion with
  | none => check source
  | some target => (check source).against target

end Outcome

/-! ## Outcomes are what verdicts derive -/

namespace Verdict

private theorem outcome_rejected (problem : Problem) :
    (rejected problem).outcome = Outcome.rejected problem := rfl

private theorem outcome_push (verdict : Verdict) (diagnostic : Diagnostic) :
    (verdict.push diagnostic).outcome = verdict.outcome.push diagnostic := by
  have invalid : (verdict.push diagnostic).isValid = false := by
    simp [isValid]
  rw [outcome, invalid]
  rfl

private theorem outcome_against (verdict : Verdict) (target : String) :
    (verdict.against target).outcome = verdict.outcome.against target := by
  rw [against, Outcome.against]
  cases Compatibility.mismatch? target with
  | none => rfl
  | some diagnostic => exact outcome_push verdict diagnostic

/-- One amendment does to a verdict what it does to the outcome. -/
theorem outcome_amend (verdict : Verdict) (amendment : Amendment) :
    (verdict.amend amendment).outcome = verdict.outcome.amend amendment := by
  cases amendment with
  | push diagnostic => exact outcome_push verdict diagnostic
  | against target => exact outcome_against verdict target

theorem outcome_foldl_amend (amendments : List Amendment) (verdict : Verdict) :
    (amendments.foldl amend verdict).outcome = amendments.foldl Outcome.amend verdict.outcome := by
  induction amendments generalizing verdict with
  | nil => rfl
  | cons amendment later ih =>
    rw [List.foldl_cons, List.foldl_cons, ih, outcome_amend]

/-- One amendment keeps the diagram and puts what it adds after the diagnostics. -/
theorem amend_eq (verdict : Verdict) (amendment : Amendment) :
    verdict.amend amendment =
      ⟨verdict.diagnostics ++ amendment.added, verdict.diagram?⟩ := by
  cases amendment with
  | push diagnostic => rfl
  | against target =>
    rw [amend, against, Amendment.added, Compatibility.mismatch?]
    by_cases validated : target = Compatibility.validatedVersion
    · rw [if_pos validated, if_pos validated, List.append_nil]
    · rw [if_neg validated, if_neg validated]
      rfl

/-- Any amendments keep the diagram and put what they add after the diagnostics, in order. -/
theorem foldl_amend_eq (amendments : List Amendment) (verdict : Verdict) :
    amendments.foldl amend verdict =
      ⟨verdict.diagnostics ++ amendments.flatMap Amendment.added, verdict.diagram?⟩ := by
  induction amendments generalizing verdict with
  | nil => rw [List.foldl_nil, List.flatMap_nil, List.append_nil]
  | cons amendment later ih =>
    rw [List.foldl_cons, ih, amend_eq, List.flatMap_cons, List.append_assoc]

end Verdict

namespace Outcome

private theorem check_eq (source : String) : check source = (validate source).outcome := by
  unfold check validate
  split
  · exact (Verdict.outcome_rejected .blankInput).symm
  · have root : (Validation.diagrams source).1.value.root =
        Root.read source.toList (Layout.finish source) (Layout.items (Token.tokenize source)) :=
      Diagram.root_read ..
    dsimp only
    rw [← root]
    rfl

theorem run_eq (settings : Settings) (source : String) :
    run settings source = (settings.validate source).outcome := by
  rw [run, Settings.validate, Settings.judge]
  cases settings.targetVersion with
  | none => exact check_eq source
  | some target => exact (check_eq source).symm ▸ (Verdict.outcome_against _ _).symm

end Outcome

/-- Settings amend the verdict of whatever is checked. -/
theorem Settings.judge_eq (settings : Settings) (verdict : Verdict) :
    settings.judge verdict = settings.amendments.foldl Verdict.amend verdict := by
  rw [judge, amendments]
  cases settings.targetVersion <;> rfl

theorem Settings.validate_eq (settings : Settings) (source : String) :
    settings.validate source =
      settings.amendments.foldl Verdict.amend (DiagramCheck.validate source) :=
  settings.judge_eq _

/-! ## The header of a source -/

/-- A token that is neither a comment nor a directive. -/
def Token.isPlain (token : Token) : Bool := token.kind != .comment && token.kind != .directive

namespace Layout

private theorem front_items (finish : Token) (tokens : List Token) :
    Items.front finish (items tokens) = (tokens.filter Token.isSignificant).headD finish := by
  rw [items]
  cases tokens.filter Token.isSignificant <;> rfl

/-- Among lexemes the plain tokens are the significant ones; the end of the input is plain and not
significant. -/
theorem find?_isPlain_append {finish : Token} (finished : finish.kind = .endOfInput)
    {lexemes : List Token} (solid : ∀ token ∈ lexemes, token.kind ≠ .endOfInput) :
    (lexemes ++ [finish]).find? Token.isPlain =
      some (((lexemes ++ [finish]).filter Token.isSignificant).headD finish) := by
  induction lexemes with
  | nil => simp [Token.isPlain, Token.isSignificant, finished]
  | cons token later ih =>
    have plain : token.isPlain = token.isSignificant := by
      have other := solid token (List.mem_cons_self ..)
      unfold Token.isPlain Token.isSignificant
      split <;> simp_all
    have behind := ih fun other member => solid other (List.mem_cons_of_mem _ member)
    rw [List.cons_append, List.find?_cons, List.filter_cons, plain]
    cases token.isSignificant with
    | true => rfl
    | false => exact behind

/-- The items begin with the first plain token of a source. -/
theorem find?_isPlain_tokenize (source : String) :
    (Token.tokenize source).find? Token.isPlain =
      some (Items.front (finish source) (items (Token.tokenize source))) := by
  obtain ⟨lexemes, split, cuts⟩ := (Token.tiles_tokenize source).eq_append
  have solid : ∀ token ∈ lexemes, token.kind ≠ .endOfInput := by
    intro token member
    obtain ⟨behind, cut⟩ := cuts token member
    exact cut.kind_ne_endOfInput
  rw [front_items, split]
  exact find?_isPlain_append rfl solid

end Layout

/-! ## Whole runs -/

/-- A tree tells what the first plain token of its source begins, and where. -/
structure Root.Heads (root : Root) (source : String) (type : DiagramType) : Prop where
  type_eq : type = root.kind
  header : ∃ token, (Token.tokenize source).find? Token.isPlain = some token ∧
    root.kind = token.kind.begun ∧ root.position.line = token.line ∧
      root.position.column = token.column
  body : root.body.Suits root.kind

/-- The diagram of a verdict is headed by the first plain token of the source. -/
theorem root_heads {source : String} {diagram : Diagram}
    (drawn : (validate source).diagram? = some diagram) :
    diagram.root.Heads source (validate source).type := by
  have type : (validate source).type = diagram.type := by
    rw [Verdict.type, drawn]
    rfl
  have solid : Text.isBlankText source = false := by
    cases blank : Text.isBlankText source with
    | false => rfl
    | true =>
      rw [validate, if_pos blank] at drawn
      cases drawn
  rw [validate, solid, if_neg Bool.false_ne_true] at drawn
  obtain rfl := Option.some.inj drawn
  refine ⟨type, ⟨_, Layout.find?_isPlain_tokenize source, ?_⟩, Content.body_suits_type _⟩
  rw [show (Validation.diagrams source).1.value.root = _ from Diagram.root_read ..]
  exact ⟨rfl, rfl, rfl⟩

namespace Outcome

/-- After any amendments an outcome is valid exactly when nothing is reported; its type and its
tree are those of the check, its diagnostics those of the check and of the amendments. There is a
tree exactly when the source is not blank, and the first plain token of the source tells its kind,
its place and the kind of its body. -/
theorem amended_run (settings : Settings) (source : String) (amendments : List Amendment) :
    let outcome := amendments.foldl amend (run settings source)
    outcome = (amendments.foldl Verdict.amend (settings.validate source)).outcome ∧
    (outcome.isValid = true ↔ outcome.diagnostics = []) ∧
    outcome.type = (validate source).type ∧
    outcome.root? = (validate source).diagram?.map Diagram.root ∧
    outcome.diagnostics = (validate source).diagnostics ++
      (settings.amendments ++ amendments).flatMap Amendment.added ∧
    (outcome.root?.isSome = true ↔ ∃ c ∈ source.toList, Text.isBlank c = false) ∧
    ∀ root, outcome.root? = some root → root.Heads source outcome.type := by
  intro outcome
  have derived : outcome =
      (amendments.foldl Verdict.amend (settings.validate source)).outcome := by
    rw [Verdict.outcome_foldl_amend, ← run_eq]
  have verdict : amendments.foldl Verdict.amend (settings.validate source) =
      ⟨(validate source).diagnostics ++ (settings.amendments ++ amendments).flatMap
        Amendment.added, (validate source).diagram?⟩ := by
    rw [Settings.validate_eq, ← List.foldl_append, Verdict.foldl_amend_eq]
  have type : outcome.type = (validate source).type := by
    rw [derived, verdict]
    rfl
  have root : outcome.root? = (validate source).diagram?.map Diagram.root := by
    rw [derived, verdict]
    rfl
  -- Each part is read off the verdict that the outcome is derived from.
  refine ⟨derived, ?_, type, root, ?_, ?_, ?_⟩
  · rw [derived]
    exact Verdict.isValid_iff _
  · rw [derived, verdict]
    rfl
  · rw [root, Option.isSome_map, ← Text.isBlankText_eq_false_iff, validate]
    cases Text.isBlankText source <;> simp [Verdict.rejected]
  · intro tree present
    rw [root] at present
    obtain ⟨diagram, drawn, rfl⟩ := Option.map_eq_some_iff.1 present
    rw [type]
    exact root_heads drawn

end Outcome

end DiagramCheck
