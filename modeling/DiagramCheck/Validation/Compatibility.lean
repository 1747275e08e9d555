/-
# Compatibility with a renderer

The rules were checked against one version of the renderer. A verdict meant for
another version says so. Versions are names: two of them agree when they are
the same text.

Settings may name the version that every verdict is meant for.
-/

import DiagramCheck.Validation.Basic

namespace DiagramCheck

namespace Compatibility

/-- The version of the renderer that the rules were checked against. -/
def validatedVersion : String := "11.4.1"

/-- What is said about a target version other than the validated one. -/
def mismatch? (target : String) : Option Diagnostic :=
  if target = validatedVersion then none
  else some (.unplaced (.versionMismatch target validatedVersion))

end Compatibility

/-- A verdict meant for a target version. -/
def Verdict.against (verdict : Verdict) (target : String) : Verdict :=
  match Compatibility.mismatch? target with
  | none => verdict
  | some diagnostic => verdict.push diagnostic

/-- What a check can be told beforehand. -/
structure Settings where
  /-- The renderer version that every verdict is meant for. -/
  targetVersion : Option String := none
  deriving DecidableEq, Repr

namespace Settings

/-- Nothing is said beforehand. -/
def default : Settings := {}

/-- The verdict under some settings. -/
def judge (settings : Settings) (verdict : Verdict) : Verdict :=
  match settings.targetVersion with
  | none => verdict
  | some target => verdict.against target

/-- Checks a source under some settings. -/
def validate (settings : Settings) (source : String) : Verdict :=
  settings.judge (DiagramCheck.validate source)

/-- Checks an input given as bytes under some settings. -/
def validateBytes (settings : Settings) (input : Option (List UInt8)) : Verdict :=
  settings.judge (DiagramCheck.validateBytes input)

end Settings

namespace Verdict

@[simp] theorem diagram?_against (verdict : Verdict) (target : String) :
    (verdict.against target).diagram? = verdict.diagram? := by
  unfold against
  split <;> rfl

@[simp] theorem type_against (verdict : Verdict) (target : String) :
    (verdict.against target).type = verdict.type := by
  simp [type]

end Verdict

end DiagramCheck
