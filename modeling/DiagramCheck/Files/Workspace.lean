/-
# Workspaces

A workspace is a working directory known in full: files with their bytes, and
folders. Every part of a path names a folder but the last, which may name a
file. One dot stays in a folder and two go up; above the workspace nothing is
known but that there are folders.

Runs and sessions see files only through what each path gives. A workspace is one
way to say what that is, in data that can be written down, so that what they come
to can be computed and repeated.
-/

import DiagramCheck.Files.Access

namespace DiagramCheck

/-- The parts of a path between its slashes. -/
def pathParts (path : String) : List String :=
  ((path.toList.splitOn '/').map String.ofList)

/-- A working directory known in full. Names are lists of parts. -/
structure Workspace where
  files : List (List String × List UInt8)
  folders : List (List String)
  deriving Repr

namespace Workspace

/-- The parts of a name, without those that stay in place. -/
def name (path : String) : List String :=
  (pathParts path).filter fun part => part != "" && part != "."

/-- A workspace with some files and folders. -/
def ofNames (files : List (String × List UInt8)) (folders : List String) : Workspace :=
  ⟨files.map fun (path, bytes) => (name path, bytes), folders.map name⟩

/-- Whether a name belongs to a folder: it is one, or leads to something in it. -/
def hasFolder (workspace : Workspace) (name : List String) : Bool :=
  name.isEmpty || workspace.folders.any (name.isPrefixOf ·) ||
    workspace.files.any fun file => name.isPrefixOf file.1 && name != file.1

/-- What a name gives. -/
def open? (workspace : Workspace) (name : List String) : Access :=
  match workspace.files.lookup name with
  | some bytes => .ok bytes
  | none => if workspace.hasFolder name then .error .isADirectory else .error .notFound

/-- A place that a path passes. -/
inductive Place
  | inside (name : List String)
  | outside
  deriving DecidableEq, Repr

/-- What a place gives. -/
def openPlace (workspace : Workspace) : Place → Access
  | .inside name => workspace.open? name
  | .outside => .error .isADirectory

/-- The place above a place. -/
def Place.up : Place → Place
  | .inside [] => .outside
  | .inside name => .inside name.dropLast
  | .outside => .outside

/-- The greatest number of bytes in a part of a path. -/
def partLimit : Nat := 255

/-- The greatest number of bytes in a path. -/
def pathLimit : Nat := 4095

/-- What the rest of a path gives from a place on. -/
def walk (workspace : Workspace) : Place → List String → Access
  | place, [] => workspace.openPlace place
  | place, part :: rest =>
    match workspace.openPlace place with
    | .ok _ => .error .notADirectory
    | .error .isADirectory =>
      if part = "" ∨ part = "." then walk workspace place rest
      else if part = ".." then walk workspace place.up rest
      else if partLimit < part.utf8ByteSize then .error .nameTooLong
      else
        match place with
        | .inside name => walk workspace (.inside (name ++ [part])) rest
        | .outside => .error .notFound
    | .error reason => .error reason

/-- What a path gives in a workspace. -/
def read (workspace : Workspace) (path : String) : Access :=
  if path.toList.contains '\x00' then .error .zeroInName
  else if path = "" then .error .notFound
  else if pathLimit < path.utf8ByteSize then .error .nameTooLong
  else workspace.walk (if path.toList.head? = some '/' then .outside else .inside [])
    (pathParts path)

/-- The surroundings that a workspace makes. -/
def surroundings (workspace : Workspace) (standardInput : List UInt8) (systemFolder : String) :
    Surroundings :=
  ⟨workspace.read, standardInput, some systemFolder⟩

end Workspace

end DiagramCheck
