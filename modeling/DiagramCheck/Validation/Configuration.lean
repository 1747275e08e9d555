/-
# Configuration

Settings come from the first configuration file that is there: the one asked
for, or else the one of the working directory, or else that of the system.
When one is asked for no other is looked for, and it must be there. Without any
the settings are the default ones.

The file is a TOML document. Its key `compatibility` holds the settings as a
table, or as an array with the values in order; of all other keys nothing is
asked but that their values are readable, and what else the array holds is not
looked at. A target version must not be blank.
-/

import DiagramCheck.Files.Access
import DiagramCheck.Report
import DiagramCheck.Toml.Document

namespace DiagramCheck

/-- Why the settings cannot be had. -/
inductive ConfigurationError
  /-- The file asked for is not there. -/
  | missing (path : String)
  /-- The file cannot be read. -/
  | unreadable (reason : AccessError)
  /-- The file is no text. -/
  | notText
  /-- The file is no document, or a value in it is of the wrong type. -/
  | malformed
  /-- The target version is blank. -/
  | blankTarget
  deriving DecidableEq, Repr

namespace ConfigurationError

/-- The wording of an error. -/
def message : ConfigurationError → String
  | .missing path => s!"Missing configuration file: {path}"
  | .unreadable reason => reason.message
  | .notText => "stream did not contain valid UTF-8"
  | .malformed => "Failed to parse TOML configuration"
  | .blankTarget => "Validation error: compatibility.target_version must not be empty"

/-- The failure that an error amounts to. -/
def toFailure (error : ConfigurationError) : Failure := .io error.message

end ConfigurationError

namespace Settings

/-- The target version that a value stands for, if it stands for one. -/
def targetOf? : Option Toml.Value → Except ConfigurationError (Option String)
  | none => .ok none
  | some (.text version) => .ok (some version)
  | some _ => .error .malformed

/-- Entries, unless one that is no setting has a value that is not readable. -/
def readable (setting : String) (entries : Toml.Entries) :
    Except ConfigurationError Toml.Entries :=
  if Toml.Entries.areReadable (entries.filter (·.1 != setting)) then .ok entries
  else .error .malformed

/-- The settings that the value of `compatibility` holds. A moment counts as a table without
entries. -/
def ofValue : Toml.Value → Except ConfigurationError Settings
  | .table _ entries =>
    return ⟨← targetOf? ((← readable "target_version" entries).lookup "target_version")⟩
  | .list items => return ⟨← targetOf? items.head?⟩
  | .moment _ => .ok .default
  | _ => .error .malformed

/-- The settings, unless the target version is blank. -/
def checked (settings : Settings) : Except ConfigurationError Settings :=
  if settings.targetVersion.any Text.isBlankText then .error .blankTarget else .ok settings

/-- The settings that a configuration text holds. -/
def ofText (text : String) : Except ConfigurationError Settings := do
  match Toml.read? text with
  | none => .error .malformed
  | some entries =>
    match (← readable "compatibility" entries).lookup "compatibility" with
    | none => .ok .default
    | some value => (← ofValue value).checked

/-- The settings that a configuration file holds. -/
def ofAccess : Access → Except ConfigurationError Settings
  | .error reason => .error (.unreadable reason)
  | .ok bytes =>
    match Text.Utf8.decode bytes with
    | .ok text => ofText text
    | .error _ => .error .notText

/-- The places of configuration files when none is asked for, the nearer first. -/
def usualPaths (systemFolder : Option String) : List String :=
  "astrolabe/config.toml" ::
    (systemFolder.map fun folder => s!"{folder}/astrolabe/config.toml").toList

/-- The settings for a check; `asked` is the configuration file asked for. -/
def load (surroundings : Surroundings) (asked : Option String) :
    Except ConfigurationError Settings :=
  match asked with
  | some path =>
    let access := surroundings.read path
    if access.isPresent then ofAccess access else .error (.missing path)
  | none =>
    match (usualPaths surroundings.systemFolder).find? (surroundings.read · |>.isPresent) with
    | some path => ofAccess (surroundings.read path)
    | none => .ok .default

end Settings

end DiagramCheck
