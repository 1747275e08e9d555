/-
# Access to files

A path is read to its bytes or cannot be read. A check sees files only through
its surroundings: what each path gives, the bytes of standard input, and the
folder that holds the configuration of the system. Nothing is read twice with
different results.
-/

namespace DiagramCheck

/-- Why a path cannot be read. -/
inductive AccessError
  | notFound
  | notADirectory
  | isADirectory
  | nameTooLong
  | zeroInName
  /-- Any other reason, in the words of the system. -/
  | other (reason : String)
  deriving DecidableEq, Repr

namespace AccessError

/-- The words of the system for a reason. -/
def message : AccessError → String
  | .notFound => "No such file or directory (os error 2)"
  | .notADirectory => "Not a directory (os error 20)"
  | .isADirectory => "Is a directory (os error 21)"
  | .nameTooLong => "File name too long (os error 36)"
  | .zeroInName => "file name contained an unexpected NUL byte"
  | .other reason => reason

/-- Whether a path that cannot be read leads somewhere all the same. -/
def meansPresent : AccessError → Bool
  | .notFound | .notADirectory | .nameTooLong | .zeroInName => false
  | .isADirectory | .other _ => true

end AccessError

/-- The bytes of a file, or why they cannot be had. -/
abbrev Access := Except AccessError (List UInt8)

/-- Whether a path leads to a file or a folder. -/
def Access.isPresent : Access → Bool
  | .ok _ => true
  | .error reason => reason.meansPresent

/-- What a check sees of the world around it. -/
structure Surroundings where
  /-- What a path gives. -/
  read : String → Access
  /-- All of standard input. -/
  standardInput : List UInt8
  /-- The folder with the configuration of the system, if there is one. -/
  systemFolder : Option String

end DiagramCheck
