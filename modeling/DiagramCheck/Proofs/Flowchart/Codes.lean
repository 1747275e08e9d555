/-
# What the statements of a flowchart report

Each reader of a flowchart reports problems of a few kinds only. `CodesIn` bounds
the codes of some diagnostics by a list, and there is one fact about each reader.
Read backwards these facts tell where a diagnostic comes from: a link index is
reported by a link style and by nothing else.

What a decoration does to a run is the same for all of them: the run goes on
behind its line and draws nothing.
-/

import DiagramCheck.Proofs.Diagnostic.Location
import DiagramCheck.Proofs.Flowchart.Stage

namespace DiagramCheck

namespace Diagnostic

/-- Diagnostics whose codes are all in a list. -/
def CodesIn (codes : List Code) (diagnostics : List Diagnostic) : Prop :=
  ∀ diagnostic ∈ diagnostics, diagnostic.code ∈ codes

namespace CodesIn

variable {codes : List Code}

theorem nil : CodesIn codes [] := fun _ member => by cases member

theorem one {problem : Problem} (token : Token) (listed : problem.code ∈ codes) :
    CodesIn codes [.atToken token problem] := by
  intro diagnostic same
  rw [List.mem_singleton] at same
  exact same ▸ listed

theorem append {first second : List Diagnostic} (left : CodesIn codes first)
    (right : CodesIn codes second) : CodesIn codes (first ++ second) := by
  intro diagnostic member
  rcases List.mem_append.1 member with member | member
  · exact left diagnostic member
  · exact right diagnostic member

theorem mono {more : List Code} {diagnostics : List Diagnostic}
    (codesIn : CodesIn codes diagnostics) (less : codes ⊆ more) : CodesIn more diagnostics :=
  fun diagnostic member => less (codesIn diagnostic member)

end CodesIn

end Diagnostic

open Diagnostic (CodesIn)

variable {finish : Token}

/-! ## Comments, strings and directives -/

theorem Layout.lexicalDiagnosticsAfter_codes (previous : Option Token) (tokens : List Token) :
    CodesIn [.inlineCommentNotSupported, .parseError]
      (lexicalDiagnosticsAfter previous tokens) := by
  induction tokens generalizing previous with
  | nil => exact .nil
  | cons token rest ih =>
    refine .append ?_ (ih (some token))
    unfold Token.lexicalProblem?
    repeat' split
    · exact .one token (.head _)
    · exact .nil
    · exact .one token (.tail _ (.head _))
    · exact .one token (.tail _ (.head _))
    · exact .nil

/-! ## Decorations -/

namespace Decoration

/-- What a decoration that a diagram takes can be reported for. -/
def codes : Decoration → List Code
  | .classDefinition => [.parseError, .unsupportedClassdefEqualsSyntax]
  | .linkStyle => [.invalidLinkstyleIndex]
  | .direction => [.invalidDirection]
  | .classAssignment | .style | .click | .note | .title => []

theorem classProblems_codes (keyword : Token) (line : List Item) :
    CodesIn (codes .classDefinition) (classProblems keyword line) := by
  unfold classProblems
  split
  · exact .one keyword (.head _)
  · cases line.find? (·.kind == .equals) with
    | none => exact .nil
    | some equals => exact .one _ (.tail _ (.head _))

theorem code_linkIndex {links : Nat} {token : Token} {problem : Problem}
    (wrong : linkIndexProblem? links token = some problem) :
    problem.code = .invalidLinkstyleIndex := by
  unfold linkIndexProblem? at wrong
  split at wrong
  · cases wrong
    rfl
  · split at wrong <;> cases wrong
    rfl

theorem linkStyleProblems_codes (links : Nat) (keyword found : Token) (line : List Item) :
    CodesIn (codes .linkStyle) (linkStyleProblems links keyword found line) := by
  unfold linkStyleProblems
  split
  · exact .one keyword (.head _)
  · split
    · exact .nil
    · split
      · intro diagnostic member
        obtain ⟨item, -, wrong⟩ := List.mem_filterMap.1 member
        obtain ⟨problem, found, rfl⟩ := Option.map_eq_some_iff.1 wrong
        exact List.mem_singleton.2 (code_linkIndex found)
      · exact .one keyword (.head _)

theorem directionProblems_codes (keyword : Token) (line : List Item) :
    CodesIn (codes .direction) (directionProblems keyword line) := by
  unfold directionProblems
  split
  · exact .one keyword (.head _)
  · split
    · exact .nil
    · exact .one _ (.head _)

/-- In a flowchart, which takes all decorations, each reports its own problems. -/
theorem read_codes (decoration : Decoration) (links : Nat) (keyword : Token) (rest : List Item) :
    CodesIn decoration.codes
      (decoration.read finish .flowchart links keyword rest).diagnostics := by
  cases decoration with
  | classDefinition => exact classProblems_codes _ _
  | linkStyle => exact linkStyleProblems_codes _ _ _ _
  | direction => exact directionProblems_codes _ _
  | _ => exact .nil

theorem ofKeyword?_eq_some {word : String} {decoration : Decoration}
    (found : ofKeyword? word = some decoration) : word = decoration.keyword := by
  unfold ofKeyword? at found
  split at found <;> cases found <;> rfl

end Decoration

theorem Label.read_codes (owner : Token) (bracket : Bracket) (line : Nat)
    (stops : TokenKind → Bool) (items : List Item) :
    CodesIn [.parseError] (Label.read finish owner bracket line stops items).diagnostics := by
  unfold Label.read
  dsimp only
  split
  · exact .nil
  · exact .one _ (.head _)

namespace Flowchart

/-! ## Statements -/

private theorem readNode_codes (items : List Item) :
    CodesIn [.parseError] (readNode finish items).diagnostics := by
  unfold readNode
  dsimp only
  split
  · exact .nil
  · exact Label.read_codes _ _ _ _ _

private theorem readOptionalLinkLabel_codes (line : Nat) (items : List Item) :
    CodesIn [.parseError] (readOptionalLinkLabel finish line items).diagnostics := by
  unfold readOptionalLinkLabel
  split
  · unfold readLinkLabel
    dsimp only
    split
    · exact .nil
    · exact .one _ (.head _)
  · exact .nil

private theorem readLink_codes (shape : Arrow) (arrow : Token) (rest : List Item) :
    CodesIn [.parseError, .incompleteArrow] (readLink finish shape arrow rest).diagnostics := by
  unfold readLink
  refine .append ?_ ?_
  · exact (readOptionalLinkLabel_codes _ _).mono (by decide)
  · split
    · exact .one arrow (.tail _ (.head _))
    · exact .nil

theorem readHeading_codes (keyword : Token) (rest : List Item) :
    CodesIn [.parseError] (readHeading finish keyword rest).diagnostics := by
  unfold readHeading
  split
  · dsimp only
    split
    · exact Label.read_codes _ _ _ _ _
    · exact .nil
  · exact .one keyword (.head _)

theorem unclosed_codes (enclosing : Option Token) :
    CodesIn [.missingSubgraphEnd] (unclosed enclosing) := by
  cases enclosing with
  | none => exact .nil
  | some keyword => exact .one keyword (.head _)

theorem readDirection_codes (header : Token) (rest : List Item) :
    CodesIn [.invalidDirection] (readDirection header rest).diagnostics := by
  unfold readDirection
  split
  · exact .nil
  · split
    · split
      · exact .nil
      · exact .one _ (.head _)
    · exact .nil

theorem connectionDiagnostics_codes (items : List Item) (elements : List Element) :
    CodesIn [.missingArrow] (connectionDiagnostics items elements) := by
  intro diagnostic member
  obtain ⟨first, second, -, rfl⟩ := exists_of_mem_connectionDiagnostics member
  exact List.mem_singleton_self _

/-- A statement that is no decoration reports a misread token or a link without its ends. -/
theorem readPlain_codes {first : Item} (undecorated : first.decoration? = none) (links : Nat)
    (hasSource : Bool) (rest : List Item) :
    CodesIn [.parseError, .incompleteArrow]
      (readPlain finish links hasSource first rest).diagnostics := by
  have plain := plain_readPlain finish links hasSource first rest
  generalize readPlain finish links hasSource first rest = reading at plain ⊢
  cases plain with
  | decoration found =>
    rw [undecorated] at found
    cases found
  | semicolon => exact .nil
  | link =>
    refine .append ?_ (readLink_codes _ _ _)
    split
    · exact .nil
    · exact .one _ (.head _)
  | node => exact (readNode_codes _).mono (by decide)
  | unexpected => exact .one _ (.head _)

/-! ## Stages at a decoration -/

section Decorated

variable {first : Item} {decoration : Decoration}

theorem isWord_of_decoration? (decorated : first.decoration? = some decoration) :
    first.kind = .identifier ∧ first.text = decoration.keyword := by
  unfold Item.decoration? at decorated
  split at decorated
  · next word =>
    rw [Bool.and_eq_true, beq_iff_eq] at word
    exact ⟨word.1, Decoration.ofKeyword?_eq_some decorated⟩
  · cases decorated

/-- The keyword of a decoration ends no flowchart, and opens and closes no subgraph. -/
theorem isPlain_of_decoration? (decorated : first.decoration? = some decoration) :
    isBoundary first = false ∧ first.closesSubgraph = false ∧ first.opensSubgraph = false := by
  obtain ⟨kind, text⟩ := isWord_of_decoration? decorated
  refine ⟨isBoundary_of_kind kind rfl, ?_, ?_⟩
  · rw [Token.closesSubgraph, Token.isWordIgnoringCase, kind, text]
    cases decoration <;> decide
  · rw [Token.opensSubgraph, Token.isWord, kind, text]
    cases decoration <;> decide

theorem readPlain_decoration (decorated : first.decoration? = some decoration) (links : Nat)
    (hasSource : Bool) (rest : List Item) :
    readPlain finish links hasSource first rest =
      (decoration.read finish .flowchart links first.toToken rest).map fun _ => none := by
  unfold readPlain
  rw [decorated]

variable {enclosing : Option Token} {depth links : Nat} {hasSource : Bool} {rest : List Item}

/-- Behind a decoration the run goes on below its line. -/
theorem Stage.run_decoration (decorated : first.decoration? = some decoration) :
    run finish ⟨enclosing, depth, links, hasSource, first :: rest⟩ =
      (run finish ⟨enclosing, depth, links, hasSource,
        Items.skipLine first.line rest⟩).prepend none
        (decoration.read finish .flowchart links first.toToken rest).diagnostics := by
  obtain ⟨free, stays, shut⟩ := isPlain_of_decoration? decorated
  exact run_plain free stays shut (readPlain_decoration decorated links hasSource rest)

theorem Stage.diagnostics_decoration (decorated : first.decoration? = some decoration) :
    diagnostics finish ⟨enclosing, depth, links, hasSource, first :: rest⟩ =
      (decoration.read finish .flowchart links first.toToken rest).diagnostics := by
  obtain ⟨free, stays, shut⟩ := isPlain_of_decoration? decorated
  rw [diagnostics_plain free stays shut, readPlain_decoration decorated]
  rfl

end Decorated

/-- A link index is reported at a link style only. -/
theorem Stage.exists_linkStyle {stage : Stage} {diagnostic : Diagnostic}
    (reported : diagnostic ∈ stage.diagnostics finish)
    (code : diagnostic.code = .invalidLinkstyleIndex) :
    ∃ keyword behind, stage.items = keyword :: behind ∧
      keyword.decoration? = some .linkStyle := by
  -- All other reports of a stage have another code.
  have other (codes : List Code) {diagnostics : List Diagnostic}
      (member : diagnostic ∈ diagnostics) (codesIn : CodesIn codes diagnostics)
      (apart : Code.invalidLinkstyleIndex ∉ codes) : False :=
    apart (code ▸ codesIn diagnostic member)
  obtain ⟨enclosing, depth, links, hasSource, items⟩ := stage
  cases items with
  | nil => exact (other _ reported (unclosed_codes enclosing) (by decide)).elim
  | cons first rest =>
    cases free : isBoundary first with
    | true =>
      rw [diagnostics_boundary free] at reported
      exact (other _ reported (unclosed_codes enclosing) (by decide)).elim
    | false =>
      cases closes : first.closesSubgraph with
      | true =>
        rw [diagnostics_closes free closes] at reported
        refine (other [.unmatchedEnd] reported ?_ (by decide)).elim
        split
        · exact .nil
        · exact .one _ (.head _)
      | false =>
        cases opens : first.opensSubgraph with
        | true =>
          rw [diagnostics_opens free opens] at reported
          refine (other [.parseError] reported ?_ (by decide)).elim
          split
          · exact readHeading_codes _ _
          · exact .one _ (.head _)
        | false =>
          cases decorated : first.decoration? with
          | none =>
            rw [diagnostics_plain free closes opens] at reported
            exact (other _ reported (readPlain_codes decorated _ _ _) (by decide)).elim
          | some decoration =>
            refine ⟨first, rest, rfl, ?_⟩
            rw [diagnostics_decoration decorated] at reported
            cases decoration with
            | linkStyle => exact decorated
            | _ => exact (other _ reported (Decoration.read_codes _ _ _ _) (by decide)).elim

end Flowchart

end DiagramCheck
