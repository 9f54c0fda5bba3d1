/-
  SceneMarkup/CommandLine/Run.lean --- what a command line does, and what it prints.
-/
import SceneMarkup.CommandLine.Arguments
import SceneMarkup.CommandLine.Files
import SceneMarkup.Config
import SceneMarkup.DesignLink
import SceneMarkup.ModuleText
import SceneMarkup.OutputJson

set_option autoImplicit false

namespace SceneMarkup.CommandLine

/-! ## Settings -/

/-- The configuration that flags and a configuration text give together: a flag counts more than
the text, and a component that the text does not name is called after the file. -/
def settings (arguments : CompileArguments) (config : Config) : Config :=
  let said := config.options
  let componentName :=
    match arguments.name with
    | some name => name
    | none =>
        if config.namesComponent then said.componentName
        else (fileStem? arguments.input).getD said.componentName
  { outDir := arguments.outDir <|> config.outDir
    options :=
      { classStart := arguments.classStart <|> said.classStart
        rootNode := arguments.root <|> said.rootNode
        includeHidden := said.includeHidden && !arguments.omitHidden
        emitNodeIds := said.emitNodeIds || arguments.nodeIds
        flavor := arguments.flavor.getD said.flavor
        componentName } }

/-! ## Outcomes -/

/-- How a run ends: its code and all that it prints. -/
structure Outcome where
  code : Nat
  stdout : String
  stderr : String
  deriving DecidableEq, Repr, Inhabited

/-- Remarks, each on a line. -/
def remarkLines (ds : Diagnostics) : String := String.join (ds.map fun d => d.line ++ "\n")

/-- A run that could not be understood. -/
def Outcome.usage : Outcome := ⟨2, "", ""⟩

/-- A run that failed: remarks, and what failed with its causes. -/
def Outcome.failure (remarks : Diagnostics) (causes : List String) : Outcome :=
  ⟨1, "", remarkLines remarks ++ "error: " ++ String.intercalate ": " causes ++ "\n"⟩

/-- A compile error with its causes. -/
def causesOf : CompileError → List String
  | .parse (.json error) => [CompileError.message (.parse (.json error)), error.message]
  | error => [error.message]

/-! ## Compiling -/

variable {m : Type → Type} [Monad m]

/-- The configuration in a file. -/
def loadConfig (files : Files m) (path : Option String) : m (Except (List String) Config) :=
  match path with
  | none => pure (.ok .default)
  | some path => do
      match ← files.read path with
      | .error error => return .error ["failed to read config " ++ path, error.message]
      | .ok text =>
          match Config.ofText? text with
          | none => return .error ["invalid config " ++ path, "TOML parse error"]
          | some config => return .ok config

/-- The names and the texts of the files that hold an output. -/
def outputFiles (out : Output) (json : Bool) : List (String × String) :=
  [(out.moduleFileName, out.renderModule), (out.stylesheetFileName, out.css)] ++
    if json then [(out.componentName ++ ".json", out.json)] else []

/-- Writes files into a directory, up to the first that cannot be written. -/
def writeFiles (files : Files m) (dir : String) :
    List (String × String) → m (Except (List String) Unit)
  | [] => pure (.ok ())
  | (name, text) :: rest => do
      let path := joinPath dir name
      match ← files.write path text with
      | .error error => return .error ["failed to write " ++ path, error.message]
      | .ok () => writeFiles files dir rest

/-- Writes the files that hold an output into a directory, which is made if need be. -/
def writeOutput (files : Files m) (dir : String) (out : Output) (json : Bool) :
    m (Except (List String) Unit) := do
  match ← files.makeDirs dir with
  | .error error => return .error ["failed to create " ++ dir, error.message]
  | .ok () => writeFiles files dir (outputFiles out json)

/-- Compiles a file. -/
def compileFile (files : Files m) (arguments : CompileArguments) : m Outcome := do
  match ← loadConfig files arguments.config with
  | .error causes => return .failure [] causes
  | .ok config =>
      let config := settings arguments config
      match ← files.read arguments.input with
      | .error error => return .failure [] ["failed to read " ++ arguments.input, error.message]
      | .ok text =>
          match compileText text config.options with
          | .error error =>
              return .failure error.diagnostics
                (("failed to compile " ++ arguments.input) :: causesOf error)
          | .ok out =>
              match ← writeOutput files (config.outDir.getD ".") out arguments.json with
              | .error causes => return .failure out.diagnostics causes
              | .ok () => return ⟨0, "", remarkLines out.diagnostics⟩

/-! ## Running -/

/-- What is printed about a link: the key of the file, and the id of a node if there is one. -/
def linkOutcome (link : String) : Outcome :=
  match DesignLink.fileKey? link, DesignLink.nodeId? link with
  | none, _ => .failure [] ["no design file key in `" ++ link ++ "`"]
  | some key, none => ⟨0, key ++ "\n", ""⟩
  | some key, some id => ⟨0, key ++ " " ++ id ++ "\n", ""⟩

/-- Runs a command line. -/
def run (files : Files m) (words : List String) : m Outcome :=
  match Request.ofWords? words with
  | none => pure .usage
  | some .version => pure ⟨0, "scenec 0.1.0\n", ""⟩
  | some (.fileKey link) => pure (linkOutcome link)
  | some (.compile arguments) => compileFile files arguments

end SceneMarkup.CommandLine
