/-
  SceneMarkup/Compile.lean --- a scene to markup and a stylesheet, under options.
-/
import SceneMarkup.Document.Parse
import SceneMarkup.Emission

set_option autoImplicit false

namespace SceneMarkup

/-! ## Options -/

/-- How a document is compiled. -/
structure Options where
  /-- the beginning of every class name -/
  classStart : Option String
  /-- the id of the node that is compiled alone -/
  rootNode : Option String
  /-- whether hidden nodes become elements -/
  includeHidden : Bool
  /-- whether elements carry the ids of their nodes -/
  emitNodeIds : Bool
  flavor : Flavor
  /-- the name of the component and of the files -/
  componentName : String
  deriving DecidableEq, Repr, Inhabited

namespace Options

/-- The options where nothing is said. -/
def default : Options := ⟨none, none, true, false, .jsx, "Component"⟩

/-- The part of the options that concerns markup. -/
def emitOptions (options : Options) : EmitOptions :=
  ⟨options.classStart.getD "", options.includeHidden, options.emitNodeIds⟩

/-- The tags of flavors. -/
def flavorDecoder : Json.Decoder Flavor := Json.variant "`html` or `jsx`" Flavor.ofName?

/-- Options as data. -/
def schema : Json.Schema Options where
  name := "CompileOptions"
  fields :=
    [⟨"class_prefix", .allowed, fun v o => do
        return { o with classStart := ← Json.optional Json.string v }⟩,
      ⟨"root_node", .allowed, fun v o => do
        return { o with rootNode := ← Json.optional Json.string v }⟩,
      Json.defaulted "include_hidden" Json.bool fun v o => { o with includeHidden := v },
      Json.defaulted "emit_node_ids" Json.bool fun v o => { o with emitNodeIds := v },
      Json.defaulted "flavor" flavorDecoder fun v o => { o with flavor := v },
      Json.defaulted "component_name" Json.string fun v o => { o with componentName := v }]
  start := .default

end Options

/-! ## Errors -/

/-- Why a document could not be compiled. -/
inductive CompileError where
  | parse (error : Document.ParseError)
  | rootNotFound (id : String)
  | mismatch (error : ResolutionMismatch)
  deriving DecidableEq, Repr, Inhabited

namespace CompileError

/-- The wording of a compile error. -/
def message : CompileError → String
  | .parse error => error.message
  | .rootNotFound id => "root node not found: " ++ id
  | .mismatch error => error.message

/-- The errors of a document that failed validation. -/
def diagnostics : CompileError → Diagnostics
  | .parse (.invalid errors) => errors
  | _ => []

end CompileError

/-! ## Output -/

/-- What a document is compiled to. -/
structure Output where
  markup : List Markup
  stylesheet : Stylesheet
  diagnostics : Diagnostics
  flavor : Flavor
  componentName : String
  deriving Repr, Inhabited

namespace Output

/-- The markup in the flavor of the output. -/
def renderMarkup (out : Output) : String := Markup.render out.flavor out.markup

/-- The text of the stylesheet. -/
def css (out : Output) : String := Stylesheet.css out.stylesheet

/-- The name of the file that holds the module. -/
def moduleFileName (out : Output) : String := out.componentName ++ "." ++ out.flavor.extension

/-- The name of the file that holds the stylesheet. -/
def stylesheetFileName (out : Output) : String := out.componentName ++ ".css"

end Output

/-! ## Compiling -/

/-- The walk that the options select. -/
def walkOf (tree : SceneTree) (options : Options) : Except CompileError Walker :=
  match options.rootNode with
  | none => .ok (.start tree.roots)
  | some id =>
      match tree.find? id with
      | some node => .ok (.start [node])
      | none => .error (.rootNotFound id)

/-- Compiles a scene about which some remarks were made before. -/
def compileParsed (tree : SceneTree) (earlier : Diagnostics) (options : Options) :
    Except CompileError Output := do
  let walker ← walkOf tree options
  let entries := walker.rest
  match emit options.emitOptions entries (Style.resolve entries) with
  | .error mismatch => .error (.mismatch mismatch)
  | .ok emission =>
      .ok ⟨emission.markup, emission.stylesheet,
        earlier ++ Style.diagnostics entries ++ emission.diagnostics, options.flavor,
        options.componentName⟩

/-- Compiles a scene. -/
def compileTree (tree : SceneTree) (options : Options) : Except CompileError Output :=
  compileParsed tree [] options

/-- Compiles a document that was read or could not be read. -/
def compileDocument (parsed : Except Document.ParseError Document.Parsed) (options : Options) :
    Except CompileError Output :=
  match parsed with
  | .error error => .error (.parse error)
  | .ok parsed => compileParsed parsed.tree parsed.diagnostics options

/-- Compiles a document. -/
def compileValue (v : Json.Value) (options : Options) : Except CompileError Output :=
  compileDocument (Document.ofValue v) options

/-- Compiles the text of a document. -/
def compileText (text : String) (options : Options) : Except CompileError Output :=
  compileDocument (Document.ofText text) options

end SceneMarkup
