/-
  SceneMarkup/CommandLine/Files.lean --- files and directories, in any monad.

  WHAT THIS FILE IS FOR.  A run reads files, makes directories and writes files.  It
  does so through `Files`, which the world or a store in memory provides.
-/
import SceneMarkup.CommandLine.Path

set_option autoImplicit false

namespace SceneMarkup.CommandLine

/-! ## Errors -/

/-- Why a file could not be used. -/
inductive FileError where
  | notFound
  | alreadyExists
  | notDirectory
  | isDirectory
  | nameTooLong
  | nulInName
  | other (text : String)
  deriving DecidableEq, Repr, Inhabited

/-- The wording of a file error. -/
def FileError.message : FileError → String
  | .notFound => "No such file or directory (os error 2)"
  | .alreadyExists => "File exists (os error 17)"
  | .notDirectory => "Not a directory (os error 20)"
  | .isDirectory => "Is a directory (os error 21)"
  | .nameTooLong => "File name too long (os error 36)"
  | .nulInName => "file name contained an unexpected NUL byte"
  | .other text => text

/-- What keeps a path from leading anywhere, whatever files there are: it ends at a NUL, has
4096 bytes or more, or is empty. -/
def pathFault? (path : String) : Option FileError :=
  if path.toList.contains '\x00' then some .nulInName
  else if 4096 ≤ path.utf8ByteSize then some .nameTooLong
  else if path.isEmpty then some .notFound
  else none

/-! ## Access -/

/-- Access to files: reading and writing one, making a directory in a directory that is there,
and telling whether a directory is there. -/
structure Files (m : Type → Type) where
  read : String → m (Except FileError String)
  write : String → String → m (Except FileError Unit)
  makeDir : String → m (Except FileError Unit)
  isDirectory : String → m Bool

namespace Files

variable {m : Type → Type} [Monad m]

/-- Makes a directory, which may be there already. -/
def ensureDir (files : Files m) (path : String) : m (Except FileError Unit) := do
  match ← files.makeDir path with
  | .error .alreadyExists =>
      return if ← files.isDirectory path then .ok () else .error .alreadyExists
  | result => return result

/-- Makes the first of some directories, each of which is in the next, and as many of the others
as it needs. -/
def ensureDirs (files : Files m) : List String → m (Except FileError Unit)
  | [] => return .ok ()
  | path :: above => do
      match ← files.ensureDir path with
      | .error .notFound =>
          match ← ensureDirs files above with
          | .ok () => files.ensureDir path
          | failed => return failed
      | result => return result

/-- Makes a directory and those above it. The root, and the place where a path begins, are there
already. -/
def makeDirs (files : Files m) (path : String) : m (Except FileError Unit) :=
  if path.isEmpty || (isAbsolute path && (steps path).isEmpty) then return .ok ()
  else files.ensureDirs (path :: pathsAbove path)

end Files

end SceneMarkup.CommandLine
