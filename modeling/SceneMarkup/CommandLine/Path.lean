/-
  SceneMarkup/CommandLine/Path.lean --- paths as the names they lead through.
-/
set_option autoImplicit false

namespace SceneMarkup.CommandLine

/-- The parts of a text between slashes. -/
def slashParts : List Char → List (List Char)
  | [] => [[]]
  | c :: rest =>
      if c = '/' then [] :: slashParts rest
      else match slashParts rest with
        | [] => [[c]]
        | part :: others => (c :: part) :: others

/-- Whether a path begins at the root of all directories. -/
def isAbsolute (path : String) : Bool := path.toList.head? == some '/'

/-- The names that a path leads through, without those that stay where they are. -/
def steps (path : String) : List String :=
  (slashParts path.toList).filterMap fun part =>
    if part = [] ∨ part = ['.'] then none else some (String.ofList part)

/-- What a path has after its last slash. -/
def lastPart (path : String) : List Char := (slashParts path.toList).getLast?.getD []

/-- Whether a path can only lead to a directory, because nothing is named at its end. -/
def endsInDirectory (path : String) : Bool := lastPart path == [] || lastPart path == ['.']

/-- The paths to the directories above that to which a path leads, the nearest first. -/
def pathsAbove (path : String) : List String :=
  let start := if isAbsolute path then "/" else ""
  let names := steps path
  (List.range (names.length - 1)).reverse.map fun n =>
    start ++ String.intercalate "/" (names.take (n + 1))

/-- A path below a directory, or the path alone if it begins at the root. -/
def joinPath (dir path : String) : String :=
  if isAbsolute path || dir.isEmpty then path
  else if dir.toList.getLast? == some '/' then dir ++ path
  else dir ++ "/" ++ path

/-- A name without what follows its last dot; a dot at the beginning does not count. -/
def stem (name : String) : String :=
  let reversed := name.toList.reverse
  match reversed.dropWhile (· != '.') with
  | [] => name
  | _ :: front => if front.isEmpty then name else String.ofList front.reverse

/-- The stem of the name to which a path leads, if it leads to a name. -/
def fileStem? (path : String) : Option String :=
  match (steps path).getLast? with
  | none => none
  | some name => if name = ".." then none else some (stem name)

end SceneMarkup.CommandLine
