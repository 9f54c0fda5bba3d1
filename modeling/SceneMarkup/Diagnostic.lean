/-
  SceneMarkup/Diagnostic.lean --- remarks on a document, each about a node where
  there is one.
-/
set_option autoImplicit false

namespace SceneMarkup

/-- How grave a remark is. -/
inductive Severity where
  | info
  | warning
  | error
  deriving DecidableEq, Repr, Inhabited

/-- The name of a severity. -/
def Severity.name : Severity → String
  | .info => "info"
  | .warning => "warning"
  | .error => "error"

/-- The severity of a name. -/
def Severity.ofName? (name : String) : Option Severity :=
  match name with
  | "info" => some .info
  | "warning" => some .warning
  | "error" => some .error
  | _ => none

/-- A remark on a document. -/
structure Diagnostic where
  severity : Severity
  nodeId : Option String
  message : String
  deriving DecidableEq, Repr, Inhabited

namespace Diagnostic

/-- An error. -/
def error (nodeId : Option String) (message : String) : Diagnostic := ⟨.error, nodeId, message⟩

/-- A warning about a node. -/
def warning (nodeId : String) (message : String) : Diagnostic := ⟨.warning, some nodeId, message⟩

/-- An information about a node. -/
def info (nodeId : String) (message : String) : Diagnostic := ⟨.info, some nodeId, message⟩

/-- Whether a remark is an error. -/
def isError (d : Diagnostic) : Bool := d.severity == .error

/-- A remark on one line. -/
def line (d : Diagnostic) : String :=
  match d.nodeId with
  | some id => d.severity.name ++ " [" ++ id ++ "]: " ++ d.message
  | none => d.severity.name ++ ": " ++ d.message

end Diagnostic

/-- Remarks in the order in which they were made. -/
abbrev Diagnostics : Type := List Diagnostic

namespace Diagnostics

/-- Whether there is an error. -/
def hasErrors (ds : Diagnostics) : Bool := ds.any Diagnostic.isError

/-- The remarks of one severity. -/
def withSeverity (ds : Diagnostics) (severity : Severity) : Diagnostics :=
  ds.filter fun d => d.severity == severity

/-- The remarks about one node. -/
def forNode (ds : Diagnostics) (id : String) : Diagnostics :=
  ds.filter fun d => d.nodeId == some id

/-- The ids of the nodes that are named, each once, in order of first mention. -/
def nodeIds (ds : Diagnostics) : List String :=
  (ds.filterMap (·.nodeId)).foldl (fun ids id => if id ∈ ids then ids else ids ++ [id]) []

/-- The message of a document that failed with these errors. -/
def validationMessage (ds : Diagnostics) : String :=
  "document failed validation (" ++ toString ds.length ++ " problem(s))" ++
    match ds with
    | [] => ""
    | first :: _ => ": " ++ first.line

end Diagnostics

end SceneMarkup
