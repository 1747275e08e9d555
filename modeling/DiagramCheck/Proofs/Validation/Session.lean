/-
# What a session comes to

A session is carried on one step after another, and a step that fails leaves it as
it was. Its settings are the ones that were made last. Its verdict is that of the
latest check, amended first as the settings asked at that time and then by all that
was added since. What went before the latest check shows in the settings only, so
what holds of every amended outcome holds of the verdict of a session at any time.

A workspace gives the files that a session checks. A file is read by its name unless
something on the way to it is a file itself.

Main statements: `Session.states_eq`, `Session.settings_after`,
`Session.verdict?_after_check`, `Session.outcome_after_checkText` and
`Workspace.step_checkFile_of_listed`.
-/

import DiagramCheck.Files.Workspace
import DiagramCheck.Proofs.Validation.Outcome
import DiagramCheck.Validation.Session

namespace DiagramCheck

/-! ## What a step does -/

namespace SessionStep

/-- The settings that a step makes. -/
def settings? : SessionStep → Option Settings
  | .setTarget version => some ⟨some version⟩
  | .reset => some .default
  | _ => none

/-- What a step finds of the input that it checks, whatever the settings are. -/
def checked? : SessionStep → Option Verdict
  | .checkText source => some (validate source)
  | .checkBytes input => some (validateBytes input)
  | .checkFile _ (.ok bytes) => some (validateBytes (some bytes))
  | _ => none

/-- What a step amends the verdict with. -/
def amendment? : SessionStep → Option Amendment
  | .push diagnostic => some (.push diagnostic)
  | .against target => some (.against target)
  | _ => none

/-- Why a step fails. -/
def failure? : SessionStep → Option Failure
  | .checkFile path (.error reason) => some (.unreadable path reason.message)
  | _ => none

end SessionStep

namespace Session

open SessionStep (settings? checked? amendment? failure?)

variable (session : Session)

/-- The verdict that a step leaves: that of its check under the settings, or else the one there was,
amended. -/
def verdictBy? (next : SessionStep) : Option Verdict :=
  match next.checked? with
  | some verdict => some (session.settings.amendments.foldl Verdict.amend verdict)
  | none => session.verdict?.map fun verdict => next.amendment?.toList.foldl Verdict.amend verdict

/-- A step fails, or it makes settings, checks or amends. -/
theorem step_eq (next : SessionStep) :
    session.step next =
      match next.failure? with
      | some failure => .error failure
      | none => .ok ⟨next.settings?.getD session.settings, session.verdictBy? next⟩ := by
  obtain ⟨settings, verdict?⟩ := session
  cases next with
  | setTarget | reset => cases verdict? <;> rfl
  | push | against => rfl
  | checkText source =>
    rw [step, Settings.validate, settings.judge_eq]
    rfl
  | checkBytes input =>
    rw [step, Settings.validateBytes, settings.judge_eq]
    rfl
  | checkFile path access =>
    cases access with
    | ok bytes =>
      dsimp only [step]
      rw [Settings.validateBytes, settings.judge_eq]
      rfl
    | error reason => rfl

/-! ## What some steps come to -/

/-- A session after some steps. A step that fails leaves it as it was. -/
def after (steps : List SessionStep) : Session :=
  steps.foldl (fun session next => (session.step next).toOption.getD session) session

@[simp] theorem after_nil : session.after [] = session := rfl

theorem after_append (before later : List SessionStep) :
    session.after (before ++ later) = (session.after before).after later :=
  List.foldl_append

section Steps

variable {session : Session} {next : SessionStep} {further : Session} {failure : Failure}

private theorem after_cons_of_ok (stepped : session.step next = .ok further)
    (later : List SessionStep) :
    session.after (next :: later) = further.after later := by
  rw [after, List.foldl_cons, stepped]
  rfl

private theorem after_cons_of_error (stepped : session.step next = .error failure)
    (later : List SessionStep) : session.after (next :: later) = session.after later := by
  rw [after, List.foldl_cons, stepped]
  rfl

end Steps

/-- Behind a step, failed or not, the session has what the step makes and what it leaves. -/
theorem after_cons (next : SessionStep) (later : List SessionStep) :
    session.after (next :: later) =
      after ⟨next.settings?.getD session.settings, session.verdictBy? next⟩ later := by
  have stepped := session.step_eq next
  cases failed : next.failure? with
  | none =>
    rw [failed] at stepped
    exact after_cons_of_ok stepped later
  | some failure =>
    -- A step that fails makes no settings, checks nothing and amends nothing.
    rw [failed] at stepped
    rw [after_cons_of_error stepped]
    unfold failure? at failed
    split at failed <;> cases failed
    obtain ⟨settings, _ | verdict⟩ := session <;> rfl

/-- What each step comes to, it comes to from the session after the steps before it. -/
theorem states_eq (steps : List SessionStep) :
    session.states steps =
      steps.mapIdx fun place next => (session.after (steps.take place)).step next := by
  induction steps generalizing session with
  | nil => rfl
  | cons next later ih =>
    rw [List.mapIdx_cons, states]
    cases stepped : session.step next with
    | error failure => simp [ih, after_cons_of_error stepped, stepped]
    | ok further => simp [ih, after_cons_of_ok stepped, stepped]

/-- The settings are those that were made last. -/
theorem settings_after (steps : List SessionStep) :
    (session.after steps).settings =
      (steps.filterMap settings?).getLast?.getD session.settings := by
  induction steps generalizing session with
  | nil => rfl
  | cons next later ih =>
    rw [after_cons, ih, List.filterMap_cons]
    cases next.settings? with
    | none => rfl
    | some settings =>
      rw [List.getLast?_cons]
      rfl

/-- While nothing is checked, the verdict is amended by all that is added. -/
theorem verdict?_after_of_unchecked {steps : List SessionStep}
    (unchecked : ∀ next ∈ steps, next.checked? = none) :
    (session.after steps).verdict? =
      session.verdict?.map fun verdict =>
        (steps.filterMap amendment?).foldl Verdict.amend verdict := by
  induction steps generalizing session with
  | nil => exact Option.map_id'.symm
  | cons next later ih =>
    obtain ⟨own, others⟩ := List.forall_mem_cons.1 unchecked
    rw [after_cons, ih _ others, verdictBy?, own, Option.map_map, List.filterMap_cons]
    cases next.amendment? <;> rfl

/-- The verdict is that of the latest check, amended as the settings asked at that time and then by
all that was added since. -/
theorem verdict?_after_check {before later : List SessionStep} {check : SessionStep}
    {verdict : Verdict} (checks : check.checked? = some verdict)
    (unchecked : ∀ next ∈ later, next.checked? = none) :
    (session.after (before ++ check :: later)).verdict? =
      some (((session.after before).settings.amendments ++ later.filterMap amendment?).foldl
        Verdict.amend verdict) := by
  rw [after_append, after_cons, verdict?_after_of_unchecked _ unchecked, verdictBy?, checks,
    List.foldl_append]
  rfl

/-- After a source was checked, the outcome of a session is that of a run under the settings of that
time, amended by all that was added since. -/
theorem outcome_after_checkText {before later : List SessionStep} {source : String}
    (unchecked : ∀ next ∈ later, next.checked? = none) :
    (session.after (before ++ .checkText source :: later)).verdict?.map Verdict.outcome =
      some ((later.filterMap amendment?).foldl Outcome.amend
        (Outcome.run (session.after before).settings source)) := by
  rw [session.verdict?_after_check rfl unchecked, Option.map_some, List.foldl_append,
    ← Settings.validate_eq, Verdict.outcome_foldl_amend, Outcome.run_eq]

end Session

/-! ## Files of a workspace -/

namespace Workspace

/-- A part of a path that names something in a folder. -/
structure IsPlain (part : String) : Prop where
  named : part ≠ "" ∧ part ≠ "."
  stays : part ≠ ".."
  short : part.utf8ByteSize ≤ partLimit

/-- A file is listed under a name, and nothing on the way to it is a file. -/
structure Lists (workspace : Workspace) (name : List String) (bytes : List UInt8) : Prop where
  listed : workspace.files.lookup name = some bytes
  way : ∀ front, front <+: name → front ≠ name → workspace.files.lookup front = none

variable {workspace : Workspace} {name : List String} {bytes : List UInt8}

theorem Lists.openPlace (lists : workspace.Lists name bytes) :
    workspace.openPlace (.inside name) = .ok bytes := by
  rw [Workspace.openPlace, open?, lists.listed]

/-- What is on the way to a file is a folder. -/
theorem Lists.openPlace_front {front : List String} {part : String} {rest : List String}
    (lists : workspace.Lists (front ++ part :: rest) bytes) :
    workspace.openPlace (.inside front) = .error .isADirectory := by
  have ahead : front ≠ front ++ part :: rest := by simp
  have leads : workspace.hasFolder front = true := by
    obtain ⟨before, behind, files, -⟩ := List.lookup_eq_some_iff.1 lists.listed
    simp [hasFolder, files, ahead]
  rw [Workspace.openPlace, open?, lists.way front (List.prefix_append ..) ahead, leads]
  rfl

/-- A plain path leads to a file that is listed under its parts. -/
theorem Lists.walk {front rest : List String} (lists : workspace.Lists (front ++ rest) bytes)
    (plain : ∀ part ∈ rest, IsPlain part) :
    workspace.walk (.inside front) rest = .ok bytes := by
  induction rest generalizing front with
  | nil =>
    rw [List.append_nil] at lists
    exact lists.openPlace
  | cons part rest ih =>
    obtain ⟨own, others⟩ := List.forall_mem_cons.1 plain
    have further := @ih (front ++ [part]) (by rwa [List.append_assoc]) others
    rw [Workspace.walk, lists.openPlace_front]
    dsimp only
    rw [if_neg (not_or.2 own.named), if_neg own.stays, if_neg (Nat.not_lt.2 own.short)]
    exact further

section Path

variable {path : String} (lists : workspace.Lists (pathParts path) bytes)
  (plain : ∀ part ∈ pathParts path, IsPlain part) (written : '\x00' ∉ path.toList)
  (short : path.utf8ByteSize ≤ pathLimit)

include lists plain written short

/-- A file is read by its name, unless something on the way to it is a file itself. -/
theorem read_of_listed : workspace.read path = .ok bytes := by
  -- A path that begins with a slash has nothing in front of it, which is no plain part.
  have inside : path.toList.head? ≠ some '/' := by
    intro slash
    obtain ⟨behind, text⟩ := List.head?_eq_some_iff.1 slash
    have first : "" ∈ pathParts path := by
      rw [pathParts, text, ← List.nil_append ('/' :: behind),
        List.splitOn_append_cons_self_of_not_mem List.not_mem_nil]
      exact List.mem_cons_self ..
    exact (plain "" first).named.1 rfl
  have nonempty : path ≠ "" := by
    rintro rfl
    exact (plain "" (List.mem_singleton_self _)).named.1 rfl
  rw [read, if_neg (by simpa using written), if_neg nonempty, if_neg (Nat.not_lt.2 short),
    if_neg inside]
  exact Lists.walk lists plain

/-- Checking a file of a workspace by its name checks its bytes. -/
theorem step_checkFile_of_listed (session : Session) :
    session.step (.checkFile path (workspace.read path)) =
      session.step (.checkBytes (some bytes)) := by
  rw [read_of_listed lists plain written short]
  rfl

end Path

end Workspace

end DiagramCheck
