/-
  SceneMarkup/Main.lean --- the program: a command line run on the files of the world.
-/
import SceneMarkup.CommandLine.Run

set_option autoImplicit false

namespace SceneMarkup.CommandLine

/-- The number of an error, which some calls report and others its negative. -/
def errorNumber (code : UInt32) : UInt32 := min code (0 - code)

/-- The file error that an error of the world means. -/
def FileError.ofWorld : IO.Error → FileError
  | .noFileOrDirectory _ _ _ => .notFound
  | .alreadyExists _ _ _ => .alreadyExists
  | .inappropriateType _ code details =>
      if errorNumber code = 20 then .notDirectory
      else if errorNumber code = 21 then .isDirectory
      else .other details
  | .invalidArgument _ code details =>
      if errorNumber code = 36 then .nameTooLong else .other details
  | error => .other (toString error)

/-- What an action on a path yields, or the file error that it ends in. -/
def attempt {α : Type} (path : String) (action : IO α) : IO (Except FileError α) := do
  match pathFault? path with
  | some fault => return .error fault
  | none =>
      try return .ok (← action)
      catch error => return .error (.ofWorld error)

/-- Access to the files of the world. -/
def Files.world : Files IO where
  read path := attempt path (IO.FS.readFile path)
  write path text := attempt path (IO.FS.writeFile path text)
  makeDir path := attempt path (IO.FS.createDir path)
  isDirectory path := do return (← attempt path (IO.FS.realPath (path ++ "/."))).isOk

end SceneMarkup.CommandLine

/-- Runs the command line, prints what it prints and ends with its code. -/
def main (words : List String) : IO UInt32 := do
  let outcome ← SceneMarkup.CommandLine.run SceneMarkup.CommandLine.Files.world words
  (← IO.getStdout).putStr outcome.stdout
  (← IO.getStderr).putStr outcome.stderr
  return outcome.code.toUInt32
