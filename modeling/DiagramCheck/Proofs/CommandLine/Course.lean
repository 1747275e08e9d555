/-
# The course of a run

A run is carried out one input after another. Each input is counted, read,
judged and shown before the next one is looked at. One that cannot be read is
counted as failed and shown as unreadable, and the run goes on behind it.
Standard input is used up by the first input that reads it, so what an input
is given depends on the inputs before it in this one way only.

Whatever happens to one input, nothing is skipped, counted twice or shown twice
among the others: the tally and what is written are those of the inputs checked
each by itself. What is written about an input as a document is what would be
written if it were the only one.

Main statement: `inputs_checked_independently`.
-/

import DiagramCheck.CommandLine.Program
import DiagramCheck.Proofs.Document.Line

namespace DiagramCheck.CommandLine

/-! ## What inputs are given -/

/-- What is left of standard input behind some inputs. -/
def leftBehind (surroundings : Surroundings) (before : List String) : List UInt8 :=
  if standardInputName ∈ before then [] else surroundings.standardInput

/-- What an input is given that stands behind others. -/
def given (surroundings : Surroundings) (before : List String) (input : String) : Access :=
  if input = standardInputName then .ok (leftBehind surroundings before)
  else surroundings.read input

/-- Inputs with what each of them is given. -/
def accesses (surroundings : Surroundings) (inputs : List String) : List (String × Access) :=
  inputs.mapIdx fun place input => (input, given surroundings (inputs.take place) input)

section Accesses

variable {surroundings : Surroundings}

@[simp] theorem leftBehind_nil : leftBehind surroundings [] = surroundings.standardInput := by
  simp [leftBehind]

@[simp] theorem leftBehind_append_standardInput (before : List String) :
    leftBehind surroundings (before ++ [standardInputName]) = [] := by
  simp [leftBehind]

private theorem leftBehind_append_of_ne (before : List String) {input : String}
    (other : input ≠ standardInputName) :
    leftBehind surroundings (before ++ [input]) = leftBehind surroundings before := by
  simp [leftBehind, other.symm]

/-- Reading the inputs behind others gives each of them what it is given there. -/
theorem readInputs_leftBehind (before inputs : List String) :
    readInputs surroundings (leftBehind surroundings before) inputs =
      inputs.mapIdx fun place input =>
        (input, given surroundings (before ++ inputs.take place) input) := by
  induction inputs generalizing before with
  | nil => rfl
  | cons input rest ih =>
    have behind := ih (before ++ [input])
    simp only [List.append_assoc, List.singleton_append] at behind
    rw [List.mapIdx_cons]
    simp only [List.take_zero, List.append_nil, List.take_succ_cons]
    by_cases standard : input = standardInputName
    · subst standard
      rw [leftBehind_append_standardInput] at behind
      simp only [readInputs, if_true, behind, given]
    · rw [leftBehind_append_of_ne before standard] at behind
      simp only [readInputs, if_neg standard, behind, given]

private theorem readInputs_eq_accesses (inputs : List String) :
    readInputs surroundings surroundings.standardInput inputs = accesses surroundings inputs := by
  have all := @readInputs_leftBehind surroundings [] inputs
  rw [leftBehind_nil] at all
  exact all

@[simp] theorem length_accesses (inputs : List String) :
    (accesses surroundings inputs).length = inputs.length := by
  simp [accesses]

private theorem accesses_getElem? {inputs : List String} {place : Nat} {input : String}
    (found : inputs[place]? = some input) :
    (accesses surroundings inputs)[place]? =
      some (input, given surroundings (inputs.take place) input) := by
  simp [accesses, found]

end Accesses

/-- An input fails that cannot be read or whose verdict is not valid. -/
def fails (settings : Settings) : Access → Bool
  | .error _ => true
  | .ok bytes => !(settings.validateBytes (some bytes)).isValid

private theorem Check.failed_ofAccess (settings : Settings) (input : String) (access : Access) :
    (Check.ofAccess settings input access).failed = fails settings access := by
  cases access <;> rfl

/-! ## One input after another -/

/-- How a check is shown. -/
def Check.shown (check : Check) : Format → String
  | .text => check.render
  | .json => check.document.render ++ "\n"

/-- What is counted in a run. -/
structure Tally where
  checked : Nat
  failed : Nat
  deriving DecidableEq, Repr

/-- What is written at the end of a run. -/
def Tally.ending (tally : Tally) : Format → List String
  | .text => [s!"{Nat.repr tally.checked} checked, {Nat.repr tally.failed} failed\n"]
  | .json => []

/-- A run under way. -/
structure Course where
  /-- What is left of standard input. -/
  left : List UInt8
  checked : Nat
  failed : Nat
  /-- What has been written, piece by piece. -/
  written : List String
  deriving DecidableEq, Repr

namespace Course

/-- A run that has not begun. -/
def start (surroundings : Surroundings) : Course := ⟨surroundings.standardInput, 0, 0, []⟩

/-- Counts an input. -/
def count (course : Course) : Course := { course with checked := course.checked + 1 }

/-- Counts a failure. -/
def fail (course : Course) : Course := { course with failed := course.failed + 1 }

/-- Writes a piece behind what has been written. -/
def write (course : Course) (piece : String) : Course :=
  { course with written := course.written ++ [piece] }

/-- Reads an input. Whatever is left of standard input is used up. -/
def read (course : Course) (surroundings : Surroundings) (input : String) : Access × Course :=
  if input = standardInputName then (.ok course.left, { course with left := [] })
  else (surroundings.read input, course)

/-- Carries a run on over one input. -/
def step (format : Format) (settings : Settings) (surroundings : Surroundings) (course : Course)
    (input : String) : Course :=
  match course.count.read surroundings input with
  | (.error reason, next) => next.fail.write (Check.shown ⟨input, .unreadable reason⟩ format)
  | (.ok bytes, next) =>
    let verdict := settings.validateBytes (some bytes)
    let judged := if verdict.isValid then next else next.fail
    judged.write (Check.shown ⟨input, .judged (Text.Utf8.decodeLossy bytes) verdict⟩ format)

/-- Carries a run on over inputs. -/
def steps (format : Format) (settings : Settings) (surroundings : Surroundings)
    (course : Course) (inputs : List String) : Course :=
  inputs.foldl (step format settings surroundings) course

/-- What a run has come to that has come through some checks. -/
def passed (course : Course) (format : Format) (left : List UInt8) (checks : List Check) :
    Course where
  left := left
  checked := course.checked + checks.length
  failed := course.failed + checks.countP Check.failed
  written := course.written ++ checks.map (·.shown format)

private theorem passed_passed (course : Course) (format : Format) (left left' : List UInt8)
    (checks checks' : List Check) :
    (course.passed format left checks).passed format left' checks' =
      course.passed format left' (checks ++ checks') := by
  simp [passed, Nat.add_assoc]

section Steps

variable (format : Format) (settings : Settings) (surroundings : Surroundings) (course : Course)

private theorem read_count (input : String) :
    course.count.read surroundings input =
      ((course.read surroundings input).1, (course.read surroundings input).2.count) := by
  by_cases standard : input = standardInputName <;> simp [read, count, standard]

/-- Reading an input touches standard input and nothing else. -/
theorem exists_read (input : String) :
    ∃ access left, course.read surroundings input = (access, { course with left := left }) := by
  by_cases standard : input = standardInputName
  · exact ⟨.ok course.left, [], if_pos standard⟩
  · exact ⟨surroundings.read input, course.left, if_neg standard⟩

/-- One input makes one check more, of what reading it gives. -/
theorem step_eq (input : String) :
    course.step format settings surroundings input =
      course.passed format (course.read surroundings input).2.left
        [Check.ofAccess settings input (course.read surroundings input).1] := by
  obtain ⟨access, left, reading⟩ := course.exists_read surroundings input
  rw [step, read_count, reading]
  cases access with
  | error reason =>
    -- The run goes on here without a verdict.
    simp [count, fail, write, passed, Check.ofAccess, Check.failed]
  | ok bytes =>
    cases valid : (settings.validateBytes (some bytes)).isValid <;>
      simp [count, fail, write, passed, Check.ofAccess, Check.failed, valid]

private theorem readInputs_cons (input : String) (rest : List String) :
    readInputs surroundings course.left (input :: rest) =
      (input, (course.read surroundings input).1) ::
        readInputs surroundings (course.read surroundings input).2.left rest := by
  by_cases standard : input = standardInputName <;> simp [readInputs, read, standard]

/-- A run comes through one check for each input, of what the inputs give one after another. -/
theorem steps_eq (inputs : List String) :
    ∃ left, course.steps format settings surroundings inputs =
      course.passed format left ((readInputs surroundings course.left inputs).map
        fun (input, access) => Check.ofAccess settings input access) := by
  -- The course is general, since standard input and the tally differ behind the first input.
  induction inputs generalizing course with
  | nil => exact ⟨course.left, by simp [steps, passed, readInputs]⟩
  | cons input rest ih =>
    obtain ⟨left, behind⟩ := ih (course.step format settings surroundings input)
    refine ⟨left, ?_⟩
    calc course.steps format settings surroundings (input :: rest)
        = (course.step format settings surroundings input).steps format settings surroundings
            rest := rfl
      _ = _ := by
        rw [behind, step_eq, passed_passed, readInputs_cons]
        rfl

end Steps

end Course

/-! ## Whole runs -/

/-- Carries out a command line one input after another: what is counted, or why nothing is, and
what is written. -/
def Arguments.conduct (arguments : Arguments) (surroundings : Surroundings) :
    Except Failure Tally × List String :=
  match arguments.settings surroundings with
  | .error failure => (.error failure, [])
  | .ok settings =>
    let course :=
      (Course.start surroundings).steps arguments.format settings surroundings arguments.inputs
    let tally := ⟨course.checked, course.failed⟩
    (.ok tally, course.written ++ tally.ending arguments.format)

/-- What is counted in a run. -/
def Run.tally (run : Run) : Tally := ⟨run.checked, run.failed⟩

/-- The pieces that a run prints. -/
def Run.pieces (run : Run) : List String :=
  run.checks.map (·.shown run.format) ++ run.tally.ending run.format

/-- The pieces together are what a run prints. -/
theorem Run.join_pieces (run : Run) : String.join run.pieces = run.output := by
  obtain ⟨format, checks⟩ := run
  cases format with
  | text => simp [pieces, output, Check.shown, Tally.ending, tally, String.join_append]
  | json => simp [pieces, output, documents, Check.shown, Tally.ending, Function.comp_def]

section Runs

variable {arguments : Arguments} {surroundings : Surroundings}

/-- The settings of a command line are the configured ones, with the version asked for. -/
theorem settings_of_load {configured : Settings}
    (loaded : Settings.load surroundings arguments.config = .ok configured) :
    arguments.settings surroundings =
      .ok ⟨arguments.targetVersion.orElse fun _ => configured.targetVersion⟩ := by
  rw [Arguments.settings, loaded]
  rfl

private theorem settings_of_load_error {problem : ConfigurationError}
    (broken : Settings.load surroundings arguments.config = .error problem) :
    arguments.settings surroundings = .error problem.toFailure := by
  rw [Arguments.settings, broken]

private theorem run_of_failure {failure : Failure}
    (broken : arguments.settings surroundings = .error failure) :
    arguments.run surroundings = .error failure := by
  rw [Arguments.run, broken]
  rfl

/-- A run checks what its inputs are given. -/
theorem run_of_settings {settings : Settings}
    (effective : arguments.settings surroundings = .ok settings) :
    arguments.run surroundings =
      .ok (.ofInputs arguments.format settings (accesses surroundings arguments.inputs)) := by
  rw [Arguments.run, effective, ← readInputs_eq_accesses]
  rfl

/-- Carried out one input after another, a command line counts what its run counts and writes what
its run prints. -/
theorem conduct_eq (arguments : Arguments) (surroundings : Surroundings) :
    arguments.conduct surroundings =
      match arguments.run surroundings with
      | .error failure => (.error failure, [])
      | .ok run => (.ok run.tally, run.pieces) := by
  cases effective : arguments.settings surroundings with
  | error failure => simp only [Arguments.conduct, effective, run_of_failure effective]
  | ok settings =>
    obtain ⟨left, course⟩ := (Course.start surroundings).steps_eq arguments.format settings
      surroundings arguments.inputs
    have given : readInputs surroundings (Course.start surroundings).left arguments.inputs =
        accesses surroundings arguments.inputs := readInputs_eq_accesses _
    simp only [Arguments.conduct, effective, course, given, run_of_settings effective]
    -- What a run that has just begun has come to is what the checks come to.
    simp [Course.passed, Course.start, Run.tally, Run.pieces, Run.ofInputs, Run.checked,
      Run.failed]

end Runs

section Inputs

variable (surroundings : Surroundings) (settings : Settings) (format : Format)
  (inputs : List String)

private theorem checked_ofInputs :
    (Run.ofInputs format settings (accesses surroundings inputs)).checked = inputs.length := by
  simp [Run.checked, Run.ofInputs]

private theorem failed_ofInputs :
    (Run.ofInputs format settings (accesses surroundings inputs)).failed =
      (accesses surroundings inputs).countP fun (_, access) => fails settings access := by
  simp [Run.failed, Run.ofInputs, List.countP_map, Function.comp_def, Check.failed_ofAccess]

private theorem documents_ofInputs :
    (Run.ofInputs format settings (accesses surroundings inputs)).documents =
      (accesses surroundings inputs).map fun (input, access) =>
        (Check.ofAccess settings input access).document := by
  simp [Run.documents, Run.ofInputs]

private theorem documents_ofInputs_getElem? {place : Nat} {input : String}
    (found : inputs[place]? = some input) :
    (Run.ofInputs format settings (accesses surroundings inputs)).documents[place]? =
      some (Check.ofAccess settings input
        (given surroundings (inputs.take place) input)).document := by
  rw [documents_ofInputs, List.getElem?_map, accesses_getElem? found, Option.map_some]

end Inputs

/-! ## Inputs do not touch each other -/

/-- What asks for a document of one input alone. -/
def Arguments.alone (arguments : Arguments) (input : String) : Arguments :=
  { arguments with inputs := [input], format := .json }

/-- Surroundings in which some inputs have been read. -/
def behind (surroundings : Surroundings) (before : List String) : Surroundings :=
  { surroundings with standardInput := leftBehind surroundings before }

/-- Read first where some inputs have been read, an input gives what it gives behind them. -/
theorem given_behind (surroundings : Surroundings) (before : List String) (input : String) :
    given (behind surroundings before) [] input = given surroundings before input := by
  simp [given, behind]

/-- The settings come neither from the inputs nor from standard input. -/
theorem settings_alone (arguments : Arguments) (surroundings : Surroundings)
    (before : List String) (input : String) :
    (arguments.alone input).settings (behind surroundings before) =
      arguments.settings surroundings := rfl

/-- What words come to when their inputs are checked each by itself under some settings. -/
structure InputByInput (surroundings : Surroundings) (words : List String)
    (arguments : Arguments) (settings : Settings) (run : Run) : Prop where
  ran : arguments.run surroundings = .ok run
  /-- Every input is counted once. -/
  checked : run.checked = arguments.inputs.length
  /-- Counted as failed are the inputs that cannot be read and those that are not valid. -/
  failed : run.failed =
    (accesses surroundings arguments.inputs).countP fun (_, access) => fails settings access
  /-- There is a document for each input, in order, made of its name and what it is given. -/
  documents : run.documents = (accesses surroundings arguments.inputs).map fun (input, access) =>
    (Check.ofAccess settings input access).document
  /-- Carrying out one input after another counts the same and writes what is printed. -/
  conducted : ∃ pieces, arguments.conduct surroundings = (.ok ⟨run.checked, run.failed⟩, pieces) ∧
    String.join pieces = (perform surroundings words).output
  /-- The documents are the lines of what is printed. -/
  lines : arguments.format = .json →
    (perform surroundings words).output.toList.splitOn '\n' =
      run.documents.map (·.render.toList) ++ [[]]
  /-- The format makes no difference to what is counted. -/
  formats : ∀ format, ∃ other,
    Arguments.run { arguments with format := format } surroundings = .ok other ∧
      other.tally = run.tally
  /-- A document is what is written when its input is alone, with what it is given. -/
  alone : ∀ {place input}, arguments.inputs[place]? = some input →
    ∃ document lone, run.documents[place]? = some document ∧
      (arguments.alone input).run (behind surroundings (arguments.inputs.take place)) = .ok lone ∧
      lone.output = document.render ++ "\n"
  /-- Two inputs of one name that are given the same have the same document, wherever they stand
  and whatever stands around them. -/
  independent : ∀ {elsewhere others otherRun}, Arguments.settings others elsewhere = .ok settings →
    others.run elsewhere = .ok otherRun → ∀ {place otherPlace input},
      arguments.inputs[place]? = some input → others.inputs[otherPlace]? = some input →
      given surroundings (arguments.inputs.take place) input =
        given elsewhere (others.inputs.take otherPlace) input →
      run.documents[place]? = otherRun.documents[otherPlace]?
  exit : (perform surroundings words).exit = 0 ↔ run.failed = 0

/-- With settings, a command line checks its inputs each by itself. -/
theorem inputByInput_of_settings {surroundings : Surroundings} {words : List String}
    {arguments : Arguments} {settings : Settings}
    (parsed : Arguments.parse words = .ok arguments)
    (effective : arguments.settings surroundings = .ok settings) :
    InputByInput surroundings words arguments settings
      (.ofInputs arguments.format settings (accesses surroundings arguments.inputs)) := by
  have ran := run_of_settings effective
  have printed : perform surroundings words =
      (Run.ofInputs arguments.format settings
        (accesses surroundings arguments.inputs)).transcript := by
    simp only [perform, parsed, ran]
  constructor
  case ran => exact ran
  case checked => exact checked_ofInputs ..
  case failed => exact failed_ofInputs ..
  case documents => exact documents_ofInputs ..
  case conducted =>
    have conducted := conduct_eq arguments surroundings
    rw [ran] at conducted
    refine ⟨_, conducted, ?_⟩
    rw [Run.join_pieces, printed]
    rfl
  case lines =>
    intro json
    rw [printed, json]
    exact Document.splitOn_join_lines _
  case formats =>
    intro format
    -- The settings do not depend on the format.
    have other : Arguments.run { arguments with format := format } surroundings = .ok _ :=
      run_of_settings effective
    refine ⟨_, other, ?_⟩
    simp only [Run.tally, checked_ofInputs, failed_ofInputs]
  case alone =>
    intro place input found
    have document := documents_ofInputs_getElem? surroundings settings arguments.format _ found
    have lone := run_of_settings ((settings_alone arguments surroundings
      (arguments.inputs.take place) input).trans effective)
    refine ⟨_, _, document, lone, ?_⟩
    have only : accesses (behind surroundings (arguments.inputs.take place)) [input] =
        [(input, given surroundings (arguments.inputs.take place) input)] := by
      simp [accesses, given_behind]
    simp [Arguments.alone, Run.output, Run.documents, Run.ofInputs, only, String.join_cons]
  case independent =>
    intro elsewhere others otherRun effective' ran' place otherPlace input found found' alike
    rw [run_of_settings effective'] at ran'
    obtain rfl := Except.ok.inj ran'
    rw [documents_ofInputs_getElem? _ _ _ _ found, documents_ofInputs_getElem? _ _ _ _ found',
      alike]
  case exit =>
    rw [printed]
    simp [Run.transcript, Run.isSuccess]

/-- Inputs are checked each by itself. Without settings nothing is checked and nothing printed. -/
theorem inputs_checked_independently (surroundings : Surroundings) {words : List String}
    {arguments : Arguments} (parsed : Arguments.parse words = .ok arguments) :
    match Settings.load surroundings arguments.config with
    | .error problem =>
      arguments.run surroundings = .error problem.toFailure ∧
        arguments.conduct surroundings = (.error problem.toFailure, []) ∧
        perform surroundings words = ⟨1, "", (Report.ofFailure problem.toFailure).render⟩
    | .ok configured =>
      ∃ run, InputByInput surroundings words arguments
        ⟨arguments.targetVersion.orElse fun _ => configured.targetVersion⟩ run := by
  split
  next problem broken =>
    have ran := run_of_failure (settings_of_load_error broken)
    refine ⟨ran, ?_, ?_⟩
    · rw [conduct_eq, ran]
    · simp only [perform, parsed, ran]
  next configured loaded =>
    exact ⟨_, inputByInput_of_settings parsed (settings_of_load loaded)⟩

/-- Standard input is named on both sides of a file that is missing: the diagram is found valid
the first time, and the second time nothing is left of it. -/
theorem inputs_checked_independently_dash_twice :
    ∃ run, InputByInput ⟨fun _ => .error .notFound, [112, 105, 101], none⟩
        ["-f", "json", "-", "missing", "-"] ⟨["-", "missing", "-"], .json, none, none⟩ ⟨none⟩ run ∧
      run.checked = 3 ∧ run.failed = 2 := by
  have parsed : Arguments.parse ["-f", "json", "-", "missing", "-"] =
      .ok ⟨["-", "missing", "-"], .json, none, none⟩ := by rfl
  obtain ⟨run, each⟩ := inputs_checked_independently
    ⟨fun _ => .error .notFound, [112, 105, 101], none⟩ parsed
  refine ⟨run, each, each.checked, each.failed.trans ?_⟩
  decide +kernel

end DiagramCheck.CommandLine
