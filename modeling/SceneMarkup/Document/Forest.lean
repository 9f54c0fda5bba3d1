/-
  SceneMarkup/Document/Forest.lean --- the nodes of a document, with all that is wrong
  with them.

  WHAT THIS FILE IS FOR.  One node is inspected without looking into its children: it
  has a layer or not, and its children are kept, only checked, or cut off.  The
  traversal hands the ids it has seen from node to node, so that an id that comes
  twice is noticed wherever it comes.
-/
import SceneMarkup.Document.Layer

set_option autoImplicit false

namespace SceneMarkup.Document

/-! ## One node -/

/-- What an inspection of a node found, apart from its children. -/
structure Inspection where
  /-- the layer, if one could be built -/
  layer : Option Layer
  /-- how messages name the children that are visited; none if they are cut off -/
  childPlace : Option String
  /-- the ids seen so far -/
  seen : List String
  notes : Diagnostics
  deriving Repr, Inhabited

/-- The children of a node; they are no list if there is some other value. -/
def childrenOf? (fields : Json.Fields) : Option (List Json.Value) :=
  match fields.get? "children" with
  | none => some []
  | some .null => some []
  | some (.array items) => some items
  | some _ => none

/-- The id of a node, if it has one that is not empty. -/
def idOf? (fields : Json.Fields) : Option String :=
  match (fields.get? "id").bind Json.Value.text? with
  | some id => if id.isEmpty then none else some id
  | none => none

/-- The error of children that are no list. -/
def childrenNotes (context : String) (fields : Json.Fields) : Diagnostics :=
  if (childrenOf? fields).isSome then []
  else [.error ((fields.get? "id").bind Json.Value.text?)
    (context ++ ": field `children` must be an array")]

/-- The number of children of a node. -/
def childCount (fields : Json.Fields) : Nat := ((childrenOf? fields).getD []).length

/-- The error of an id that was seen before. -/
def duplicateNotes (seen : List String) (id : String) : Diagnostics :=
  if id ∈ seen then [.error (some id) ("duplicate node id `" ++ id ++ "`")] else []

/-- The remark on a node of a type that is not understood. -/
def unsupportedNote (id tag : String) (dropped : Nat) : Diagnostic :=
  .warning id ("unsupported node type `" ++ tag ++ "`, emitted as placeholder" ++
    if dropped = 0 then "" else " (" ++ toString dropped ++ " child node(s) dropped)")

/-- The remark on children of a node that can have none. -/
def cutNotes (layer : Layer) (count : Nat) : Diagnostics :=
  if count = 0 then []
  else [.info layer.id
    (toString count ++ " child node(s) of a " ++ layer.kind.label ++ " node are not emitted")]

/-- The inspection of a node of a class that is understood. -/
def inspectClass (id : String) (nodeClass : NodeClass) (fields : Json.Fields) :
    Noted (Option Layer × Option String) :=
  match nodeSchema.decode (.object fields) with
  | .error mismatch =>
      ⟨(none, some id), [.error (some id) ("malformed node: " ++ mismatch.message)]⟩
  | .ok source => do
      match ← layer id nodeClass source with
      | none => return (none, some id)
      | some layer =>
          if layer.kind.frame?.isSome then return (some layer, some id)
          else ⟨(some layer, none), cutNotes layer (childCount fields)⟩

/-- The inspection of a node with an id. -/
def inspectTyped (id : String) (fields : Json.Fields) : Noted (Option Layer × Option String) :=
  match (fields.get? "type").bind Json.Value.text? with
  | none => ⟨(none, some id), [.error (some id) "missing required field `type`"]⟩
  | some tag =>
      match NodeClass.ofTag? tag with
      | none =>
          ⟨(some (placeholder id tag fields), none), [unsupportedNote id tag (childCount fields)]⟩
      | some nodeClass => inspectClass id nodeClass fields

/-- The inspection of a node that messages call `context` while its id is not known. -/
def inspect (context : String) (seen : List String) (fields : Json.Fields) : Inspection :=
  match idOf? fields with
  | none =>
      ⟨none, some context, seen, childrenNotes context fields ++
        [.error none (context ++ ": missing required field `id`")]⟩
  | some id =>
      let found := inspectTyped id fields
      ⟨found.value.1, found.value.2, if id ∈ seen then seen else id :: seen,
        childrenNotes context fields ++ duplicateNotes seen id ++ found.notes⟩

/-! ## The traversal -/

/-- What was built from a part of a document: a value, the ids seen so far, and remarks. -/
structure Converted (α : Type) where
  value : α
  seen : List String
  notes : Diagnostics
  deriving Repr, Inhabited

/-- How messages name a child. -/
def childContext (parent : String) (index : Nat) : String :=
  parent ++ ".children[" ++ toString index ++ "]"

mutual

/-- A node and all that is below it. Children of a node that has no layer are checked, and not
kept. -/
def convertNode (context : String) (seen : List String) : Json.Value → Converted (Option Node)
  | .object fields =>
      let own := inspect context seen fields
      let below : Converted (List Node) :=
        match own.childPlace with
        | none => ⟨[], own.seen, []⟩
        | some parent => convertChildren parent own.seen fields
      ⟨own.layer.map fun layer => ⟨layer, below.value⟩, below.seen, own.notes ++ below.notes⟩
  | _ => ⟨none, seen, [.error none (context ++ ": expected a node object")]⟩

/-- The children of a node that has the given fields. -/
def convertChildren (parent : String) (seen : List String) :
    List (String × Json.Value) → Converted (List Node)
  | [] => ⟨[], seen, []⟩
  | (key, .array items) :: rest =>
      if key = "children" then convertAll parent 0 seen items
      else convertChildren parent seen rest
  | (key, _) :: rest =>
      if key = "children" then ⟨[], seen, []⟩ else convertChildren parent seen rest

/-- Siblings, the first of them at `index`. -/
def convertAll (parent : String) (index : Nat) (seen : List String) :
    List Json.Value → Converted (List Node)
  | [] => ⟨[], seen, []⟩
  | v :: rest =>
      let first := convertNode (childContext parent index) seen v
      let others := convertAll parent (index + 1) first.seen rest
      ⟨first.value.toList ++ others.value, others.seen, first.notes ++ others.notes⟩

end

end SceneMarkup.Document
