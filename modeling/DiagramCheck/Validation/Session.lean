/-
# Sessions

A session keeps the settings and the latest verdict while inputs are checked
one after another. Settings count for the checks that come after them, and what
is added to a verdict stays with it until the next check. Where there is no
verdict yet, nothing can be added.

A file that cannot be read leaves the session as it was.
-/

import DiagramCheck.Files.Access
import DiagramCheck.Report

namespace DiagramCheck

/-- A step of a session. -/
inductive SessionStep
  | setTarget (version : String)
  | reset
  | checkText (source : String)
  | checkBytes (input : Option (List UInt8))
  | checkFile (path : String) (access : Access)
  | push (diagnostic : Diagnostic)
  | against (target : String)

/-- The settings and the latest verdict. -/
structure Session where
  settings : Settings
  verdict? : Option Verdict
  deriving Repr

namespace Session

/-- The session before its first check. -/
def start (targetVersion : Option String) : Session := ⟨⟨targetVersion⟩, none⟩

/-- A session with another verdict. -/
def withVerdict (session : Session) (verdict : Verdict) : Session :=
  { session with verdict? := some verdict }

/-- A session after a step, or the failure of the step. -/
def step (session : Session) : SessionStep → Except Failure Session
  | .setTarget version => .ok { session with settings := ⟨some version⟩ }
  | .reset => .ok { session with settings := .default }
  | .checkText source => .ok (session.withVerdict (session.settings.validate source))
  | .checkBytes input => .ok (session.withVerdict (session.settings.validateBytes input))
  | .checkFile path access =>
    match access with
    | .ok bytes => .ok (session.withVerdict (session.settings.validateBytes (some bytes)))
    | .error reason => .error (.unreadable path reason.message)
  | .push diagnostic => .ok { session with verdict? := session.verdict?.map (·.push diagnostic) }
  | .against target => .ok { session with verdict? := session.verdict?.map (·.against target) }

/-- What each step of a session comes to, in order. -/
def states (session : Session) : List SessionStep → List (Except Failure Session)
  | [] => []
  | next :: rest =>
    match session.step next with
    | .ok after => .ok after :: states after rest
    | .error failure => .error failure :: states session rest

end Session

end DiagramCheck
