/-
# The executable

Gathers the surroundings of a command line from the system, has the program
carried out, and prints what it leaves behind.
-/

import DiagramCheck.CommandLine.Program

namespace DiagramCheck.CommandLine

/-- The reason for an error of the system. Codes of errors come with either sign. -/
def reasonOf : IO.Error → AccessError
  | .noFileOrDirectory _ _ _ => .notFound
  | .inappropriateType _ code reason =>
    if code = 20 ∨ code = 0 - 20 then .notADirectory
    else if code = 21 ∨ code = 0 - 21 then .isADirectory
    else .other reason
  | error => .other (toString error)

/-- Reads a path of the system. -/
def readPath (path : String) : IO Access := do
  try
    let bytes ← IO.FS.readBinFile path
    return .ok bytes.toList
  catch error => return .error (reasonOf error)

/-- The folder that holds the configuration of programs. -/
def configurationFolder : IO (Option String) := do
  match ← IO.getEnv "XDG_CONFIG_HOME" with
  | some folder =>
    if folder.startsWith "/" then return some folder
    else return (← IO.getEnv "HOME").map (· ++ "/.config")
  | none => return (← IO.getEnv "HOME").map (· ++ "/.config")

/-- Reads what is left of a stream. -/
partial def readRest (stream : IO.FS.Stream) (read : ByteArray) : IO ByteArray := do
  let chunk ← stream.read 65536
  if chunk.isEmpty then return read else readRest stream (read ++ chunk)

/-- The paths that a command line may lead to. -/
def Arguments.paths (arguments : Arguments) (systemFolder : Option String) : List String :=
  arguments.config.toList ++ Settings.usualPaths systemFolder ++
    arguments.inputs.filter (· != standardInputName)

/-- The surroundings of a command line. -/
def gather (words : List String) : IO Surroundings := do
  let systemFolder ← configurationFolder
  match Arguments.parse words with
  | .error _ => return ⟨fun _ => .error .notFound, [], systemFolder⟩
  | .ok arguments => do
    let known ← (arguments.paths systemFolder).mapM fun path => return (path, ← readPath path)
    let standardInput ←
      if arguments.inputs.contains standardInputName then
        readRest (← IO.getStdin) ByteArray.empty
      else pure ByteArray.empty
    let read := fun path => (known.lookup path).getD (.error .notFound)
    return ⟨read, standardInput.toList, systemFolder⟩

end DiagramCheck.CommandLine

open DiagramCheck.CommandLine in
/-- Carries out a command line. -/
def main (words : List String) : IO UInt32 := do
  let transcript := perform (← gather words) words
  IO.print transcript.output
  IO.eprint transcript.complaint
  return UInt32.ofNat transcript.exit
