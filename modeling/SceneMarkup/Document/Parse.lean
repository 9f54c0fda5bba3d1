/-
  SceneMarkup/Document/Parse.lean --- a whole document to a scene tree.

  WHAT THIS FILE IS FOR.  The nodes of a document may come as one node, as a list, on a
  page, on the pages of a document node, and any of these inside a file envelope.  All
  of them give a forest; a document with an error gives all errors and no scene.
-/
import SceneMarkup.Document.Forest
import SceneMarkup.Json.Reader

set_option autoImplicit false

namespace SceneMarkup.Document

/-- Why a document has no nodes. -/
inductive RootError where
  | notNodes (kind : String)
  | childrenNotList (context kind : String)
  deriving DecidableEq, Repr, Inhabited

/-- The wording of a root error. -/
def RootError.message : RootError → String
  | .notNodes kind => "invalid document root: expected a node object or array, found " ++ kind
  | .childrenNotList context kind =>
      "invalid document root: " ++ context ++ ": `children` must be an array, found " ++ kind

/-- Why a document could not be read. -/
inductive ParseError where
  | json (error : Json.ReadError)
  | root (error : RootError)
  | invalid (errors : Diagnostics)
  deriving DecidableEq, Repr, Inhabited

/-- The wording of a parse error. -/
def ParseError.message : ParseError → String
  | .json error => "invalid JSON: " ++ error.message
  | .root error => error.message
  | .invalid errors => errors.validationMessage

/-- A scene tree and the remarks made while it was built. -/
structure Parsed where
  tree : SceneTree
  diagnostics : Diagnostics
  deriving Repr, Inhabited

/-- The type of a node. -/
def typeOf? (v : Json.Value) : Option String := (v.field? "type").bind Json.Value.text?

/-- Whether a type is that of a page. -/
def isPage (tag : Option String) : Bool := tag == some "CANVAS" || tag == some "PAGE"

/-- The children of a page or of a document node. -/
def containedIn (context : String) (container : Json.Value) :
    Except RootError (List Json.Value) :=
  match container.field? "children" with
  | none => .ok []
  | some .null => .ok []
  | some (.array items) => .ok items
  | some other => .error (.childrenNotList context other.kind)

/-- A node that may not have been built, as a forest. -/
def Converted.toForest (c : Converted (Option Node)) : Converted (List Node) :=
  ⟨c.value.toList, c.seen, c.notes⟩

/-- One forest after the other. -/
def Converted.append (a b : Converted (List Node)) : Converted (List Node) :=
  ⟨a.value ++ b.value, b.seen, a.notes ++ b.notes⟩

/-- What a document node contains at a position: a page or a node. -/
def convertPage (index : Nat) (seen : List String) (page : Json.Value) :
    Except RootError (Converted (List Node)) :=
  if isPage (typeOf? page) then do
    let context := "page[" ++ toString index ++ "]"
    return convertAll context 0 seen (← containedIn context page)
  else
    let context := "document.children[" ++ toString index ++ "]"
    .ok (convertNode context seen page).toForest

/-- What a document node contains, the first of it at `index`. -/
def convertPages (index : Nat) (seen : List String) :
    List Json.Value → Except RootError (Converted (List Node))
  | [] => .ok ⟨[], seen, []⟩
  | page :: rest => do
      let first ← convertPage index seen page
      let others ← convertPages (index + 1) first.seen rest
      return first.append others

/-- The top-level nodes of a document. -/
def convertRoot (root : Json.Value) : Except RootError (Converted (List Node)) :=
  match typeOf? root with
  | some "DOCUMENT" => do convertPages 0 [] (← containedIn "DOCUMENT" root)
  | some tag =>
      if isPage (some tag) then do
        return convertAll "page" 0 [] (← containedIn "page" root)
      else .ok (convertNode "root" [] root).toForest
  | none =>
      match root with
      | .array items => .ok (convertAll "root" 0 [] items)
      | .object fields => .ok (convertNode "root" [] (.object fields)).toForest
      | other => .error (.notNodes other.kind)

/-- The name and the content of a file envelope; anything else is its own content. -/
def unwrap (v : Json.Value) : Option String × Json.Value :=
  match v with
  | .object _ =>
      if (v.field? "type").isSome then (none, v)
      else match v.field? "document" with
        | some content => ((v.field? "name").bind Json.Value.text?, content)
        | none => (none, v)
  | _ => (none, v)

/-- The scene of a document, unless there is an error. -/
def ofValue (v : Json.Value) : Except ParseError Parsed :=
  let (name, root) := unwrap v
  match convertRoot root with
  | .error error => .error (.root error)
  | .ok found =>
      let errors := found.notes.filter Diagnostic.isError
      if errors.isEmpty then
        .ok ⟨⟨name, found.value⟩, found.notes.filter fun d => !d.isError⟩
      else .error (.invalid errors)

/-- The scene of the text of a document. -/
def ofText (text : String) : Except ParseError Parsed :=
  match Json.read text with
  | .error error => .error (.json error)
  | .ok v => ofValue v

end SceneMarkup.Document
