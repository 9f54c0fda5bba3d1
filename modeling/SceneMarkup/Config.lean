/-
  SceneMarkup/Config.lean --- settings that a configuration text states.
-/
import SceneMarkup.Compile
import SceneMarkup.Config.Entry

set_option autoImplicit false

namespace SceneMarkup

/-- The settings of a configuration text. -/
structure Config where
  /-- the directory that the files are written to -/
  outDir : Option String
  options : Options
  deriving DecidableEq, Repr, Inhabited

namespace Config

/-- The settings where nothing is said. -/
def default : Config := ⟨none, .default⟩

/-- Whether a component is named other than it is where nothing is said. -/
def namesComponent (config : Config) : Bool :=
  config.options.componentName != Options.default.componentName

/-- The text that a value is. -/
def Scalar.text? : Scalar → Option String
  | .text content => some content
  | _ => none

/-- The truth value that a value is. -/
def Scalar.bool? : Scalar → Option Bool
  | .bool value => some value
  | _ => none

/-- The options after an entry, or nothing if its value is of the wrong kind. -/
def option? (options : Options) (entry : Entry) : Option Options :=
  match entry.1 with
  | "class_prefix" => do return { options with classStart := some (← entry.2.text?) }
  | "root_node" => do return { options with rootNode := some (← entry.2.text?) }
  | "include_hidden" => do return { options with includeHidden := ← entry.2.bool? }
  | "emit_node_ids" => do return { options with emitNodeIds := ← entry.2.bool? }
  | "flavor" => do return { options with flavor := ← Flavor.ofName? (← entry.2.text?) }
  | "component_name" => do return { options with componentName := ← entry.2.text? }
  | _ => some options

/-- The settings after an entry, or nothing if its value is of the wrong kind; other keys are
passed over. -/
def setting? (config : Config) (entry : Entry) : Option Config :=
  match entry.1 with
  | "out_dir" => do return { config with outDir := some (← entry.2.text?) }
  | _ => do return { config with options := ← option? config.options entry }

/-- The settings that a configuration text states, unless it is at fault. -/
def ofText? (text : String) : Option Config := do
  (← entries? text.toList).foldlM setting? default

end Config

end SceneMarkup
