/-
# Arguments

Words are read from left to right. An option waits for its value, which is the
next plain word unless it is attached; what is said with an option is looked at
only when the next option, flag or input follows, or at the end. Something that
is no option at all is refused at once.

An option must not be given twice, and a format must be one of those there are.
At least one input must be named. The first thing that is wrong counts.
-/

import DiagramCheck.CommandLine.Word

namespace DiagramCheck.CommandLine

/-- How results are shown. -/
inductive Format
  /-- Reports for people. -/
  | text
  /-- A document to a line. -/
  | json
  deriving DecidableEq, Repr

/-- The format a word names. -/
def Format.ofName? : String → Option Format
  | "text" => some .text
  | "json" => some .json
  | _ => none

/-- Why a command line is not carried out. -/
inductive Refusal
  | missingInputs
  /-- A value that an option does not take, or none at all. -/
  | invalidValue (setting : Setting)
  | unknownWord (text : String)
  | repeatedSetting (setting : Setting)
  | valueForFlag (flag : Flag)
  /-- Help or the version was asked for. -/
  | asked (flag : Flag)
  deriving DecidableEq, Repr

/-- What a command line asks for. -/
structure Arguments where
  inputs : List String
  format : Format := .text
  config : Option String := none
  targetVersion : Option String := none
  deriving DecidableEq, Repr

/-- The words read so far: the options that are settled, the inputs, and the option that is not
settled yet with the value it has got. -/
structure Progress where
  settled : List (Setting × String) := []
  inputs : List String := []
  waiting : Option (Setting × Option String) := none
  deriving DecidableEq, Repr

namespace Progress

/-- Whether an option takes a value. -/
def takes : Setting → String → Bool
  | .format, value => (Format.ofName? value).isSome
  | _, _ => true

/-- Settles the option that is waiting, if there is one. -/
def settle (progress : Progress) : Except Refusal Progress :=
  match progress.waiting with
  | none => .ok progress
  | some (setting, none) => .error (.invalidValue setting)
  | some (setting, some value) =>
    if (progress.settled.lookup setting).isSome then .error (.repeatedSetting setting)
    else if takes setting value then
      .ok { progress with settled := progress.settled ++ [(setting, value)], waiting := none }
    else .error (.invalidValue setting)

/-- Adds inputs. -/
def addInputs (progress : Progress) (inputs : List String) : Progress :=
  { progress with inputs := progress.inputs ++ inputs }

/-- Lets an option wait. A value that is attached is looked at without waiting. -/
def await (progress : Progress) (setting : Setting) (attached : Option String) :
    Except Refusal Progress :=
  let next := { progress with waiting := some (setting, attached) }
  if attached.isSome then next.settle else .ok next

/-- Gives a plain word to the option that waits for one, and takes it as an input otherwise. -/
def takePlain (progress : Progress) (text : String) : Except Refusal Progress :=
  match progress.waiting with
  | some (setting, none) => .ok { progress with waiting := some (setting, some text) }
  | _ => return (← progress.settle).addInputs [text]

/-- Reads the words of a command line. -/
def readWords : Progress → List String → Except Refusal Progress
  | progress, [] => progress.settle
  | progress, text :: rest =>
    match Word.ofText text with
    | .plain _ => do readWords (← progress.takePlain text) rest
    | .separator => return (← progress.settle).addInputs rest
    | .setting setting attached => do
      readWords (← (← progress.settle).await setting attached) rest
    | .flag flag => do
      let _ ← progress.settle
      .error (.asked flag)
    | .flagWithValue flag => .error (.valueForFlag flag)
    | .unknown text => .error (.unknownWord text)

end Progress

namespace Arguments

/-- What settled options and inputs ask for. -/
def ofProgress (progress : Progress) : Arguments where
  inputs := progress.inputs
  format := ((progress.settled.lookup .format).bind Format.ofName?).getD .text
  config := progress.settled.lookup .config
  targetVersion := progress.settled.lookup .targetVersion

/-- What a command line asks for, the name of the program left out. -/
def parse (words : List String) : Except Refusal Arguments := do
  let progress ← Progress.readWords {} words
  if progress.inputs.isEmpty then .error .missingInputs else .ok (ofProgress progress)

end Arguments

end DiagramCheck.CommandLine
