/-
  SceneMarkup/Proofs/Document/Object.lean --- the objects of a document that stand for
  nodes.

  WHAT THIS FILE IS FOR.  A document is seen as a forest of objects, said without any
  conversion: an object of a frame-like type has the objects of its children below it,
  any other object has nothing below it (`sceneObject`).  The types fall into classes,
  and the class of a type says whether children are kept (`tag_of_ofTag?`).
-/
import SceneMarkup.Document.Forest
import SceneMarkup.Proofs.Document.Layer
import SceneMarkup.Proofs.RoseTree

set_option autoImplicit false

namespace SceneMarkup

/-! ## Fields -/

theorem Json.Fields.mem_of_get? {fields : Json.Fields} {key : String} {value : Json.Value}
    (h : fields.get? key = some value) : (key, value) ∈ fields := by
  induction fields with
  | nil => cases h
  | cons field rest ih =>
      obtain ⟨k, v⟩ := field
      rw [get?] at h
      split at h
      · rename_i hkey
        cases h
        rw [hkey]
        exact List.mem_cons_self
      · exact List.mem_cons_of_mem _ (ih h)

namespace Document

open Json (Fields Value)
open Noted (NoErrors Each)

/-- The children of a node; a node whose children are no list has none. -/
def childrenOf (fields : Fields) : List Value := (childrenOf? fields).getD []

/-- The type of a node, if it has one. -/
def tagOf? (fields : Fields) : Option String := (fields.get? "type").bind Value.text?

/-- The id of a node; it is empty if there is none. -/
def idOf (fields : Fields) : String := ((fields.get? "id").bind Value.text?).getD ""

/-- The types of the nodes that keep their children. -/
def frameTags : List String :=
  ["FRAME", "GROUP", "COMPONENT", "COMPONENT_SET", "SECTION", "INSTANCE"]

/-- Whether a node is of a type that keeps its children. -/
def isFrameLike (fields : Fields) : Bool := (tagOf? fields).any (frameTags.contains ·)

theorem isFrameLike_of_tag {fields : Fields} {tag : String} (h : tagOf? fields = some tag) :
    isFrameLike fields = frameTags.contains tag := by
  rw [isFrameLike, h, Option.any_some]

theorem idOf?_eq_some_iff {fields : Fields} {id : String} :
    idOf? fields = some id ↔ idOf fields = id ∧ id ≠ "" := by
  unfold idOf? idOf
  cases (fields.get? "id").bind Value.text? with
  | none =>
      refine ⟨nofun, ?_⟩
      rintro ⟨rfl, hne⟩
      exact absurd rfl hne
  | some given =>
      simp only [Option.getD_some]
      by_cases hempty : given = ""
      · simp [hempty]
      · simp only [String.isEmpty_iff, hempty, if_false, Option.some.injEq]
        refine ⟨fun h => ⟨h, h ▸ hempty⟩, And.left⟩

/-! ## The objects of a document -/

mutual

/-- The object of a node with those of the nodes below it. -/
def sceneObject : Value → RoseTree Fields
  | .object fields => ⟨fields, if isFrameLike fields then sceneObjectsBelow fields else []⟩
  | _ => ⟨[], []⟩

/-- The objects of the children of a node that has the given fields. -/
def sceneObjectsBelow : List (String × Value) → List (RoseTree Fields)
  | [] => []
  | (key, .array items) :: rest =>
      if key = "children" then sceneObjectsIn items else sceneObjectsBelow rest
  | (key, _) :: rest => if key = "children" then [] else sceneObjectsBelow rest

/-- The objects of some nodes, in order. -/
def sceneObjectsIn : List Value → List (RoseTree Fields)
  | [] => []
  | v :: rest => sceneObject v :: sceneObjectsIn rest

end

theorem childrenOf_cons_children (v : Value) (rest : Fields) :
    childrenOf (("children", v) :: rest) =
      match v with
      | .array items => items
      | _ => [] := by
  rw [childrenOf, childrenOf?, Fields.get?, if_pos rfl]
  cases v <;> rfl

theorem childrenOf_cons_other {key : String} (h : key ≠ "children") (v : Value) (rest : Fields) :
    childrenOf ((key, v) :: rest) = childrenOf rest := by
  rw [childrenOf, childrenOf?, Fields.get?, if_neg h]
  rfl

theorem sceneObjectsBelow_eq (fields : Fields) :
    sceneObjectsBelow fields = sceneObjectsIn (childrenOf fields) := by
  induction fields with
  | nil => rfl
  | cons field rest ih =>
      obtain ⟨key, v⟩ := field
      by_cases hkey : key = "children"
      · subst hkey
        rw [childrenOf_cons_children]
        cases v <;> simp only [sceneObjectsBelow, sceneObjectsIn, if_true]
      · rw [childrenOf_cons_other hkey, ← ih]
        cases v <;> simp only [sceneObjectsBelow, hkey, if_false]

/-- The objects below an object: those of its children, if it is of a type that keeps them. -/
def objectsBelow (fields : Fields) : List (RoseTree Fields) :=
  if isFrameLike fields then sceneObjectsIn (childrenOf fields) else []

theorem sceneObject_object (fields : Fields) :
    sceneObject (.object fields) = ⟨fields, objectsBelow fields⟩ := by
  rw [sceneObject, sceneObjectsBelow_eq, objectsBelow]

theorem sceneObjectsIn_eq_map (items : List Value) :
    sceneObjectsIn items = items.map sceneObject := by
  induction items with
  | nil => rfl
  | cons v rest ih => rw [sceneObjectsIn, ih, List.map_cons]

theorem sceneObject_of_not_object {v : Value} (h : ∀ fields, v ≠ .object fields) :
    sceneObject v = ⟨[], []⟩ := by
  cases v with
  | object fields => exact absurd rfl (h fields)
  | _ => rfl

theorem sizeOf_lt_of_mem_childrenOf {fields : Fields} {child : Value}
    (h : child ∈ childrenOf fields) : sizeOf child < sizeOf (Value.object fields) := by
  unfold childrenOf childrenOf? at h
  split at h
  · cases h
  · cases h
  · rename_i items hget
    have hitem : sizeOf child < sizeOf items := List.sizeOf_lt_of_mem h
    have hfield := List.sizeOf_lt_of_mem (Fields.mem_of_get? hget)
    rw [Prod.mk.sizeOf_spec, Value.array.sizeOf_spec] at hfield
    rw [Value.object.sizeOf_spec]
    omega
  · cases h

/-- Induction on the nodes of a document: what holds of all children of a node holds of it. -/
@[elab_as_elim]
theorem node_induction {motive : Value → Prop}
    (other : ∀ v, (∀ fields, v ≠ .object fields) → motive v)
    (object : ∀ fields, (∀ child ∈ childrenOf fields, motive child) → motive (.object fields)) :
    ∀ v, motive v
  | .object fields => object fields fun child _ => node_induction other object child
  | .null => other _ nofun
  | .bool _ => other _ nofun
  | .number _ => other _ nofun
  | .string _ => other _ nofun
  | .array _ => other _ nofun
termination_by v => sizeOf v
decreasing_by exact sizeOf_lt_of_mem_childrenOf ‹_›

/-- Only below objects of frame-like types there are objects. -/
theorem isFrameLike_of_branches_ne_nil {v : Value} {tree : RoseTree Fields}
    (h : tree ∈ RoseTree.subtreesIn [sceneObject v]) (hne : tree.branches ≠ []) :
    isFrameLike tree.label = true := by
  induction v using node_induction with
  | other v hv =>
      rw [sceneObject_of_not_object hv, RoseTree.subtreesIn_cons] at h
      rw [List.mem_singleton.1 h] at hne
      exact absurd rfl hne
  | object fields ih =>
      rw [sceneObject_object, RoseTree.subtreesIn_cons, List.mem_cons] at h
      rcases h with rfl | h
      · dsimp only [objectsBelow] at hne
        split at hne
        · assumption
        · exact absurd rfl hne
      · rw [RoseTree.subtreesIn, List.append_nil, objectsBelow] at h
        split at h
        · rw [sceneObjectsIn_eq_map] at h
          obtain ⟨child, hchild, hmem⟩ := RoseTree.exists_mem_of_mem_subtreesIn h
          obtain ⟨v, hv, rfl⟩ := List.mem_map.1 hchild
          exact ih v hv hmem
        · cases h

/-! ## Classes -/

/-- The types of the nodes that are shapes. -/
def shapeTags : List String :=
  ["VECTOR", "RECTANGLE", "ELLIPSE", "LINE", "STAR", "POLYGON", "REGULAR_POLYGON",
    "BOOLEAN_OPERATION"]

/-- The types of nodes that are understood. -/
def understoodTags : List String := frameTags ++ "TEXT" :: shapeTags

theorem mem_shapeTags {tag : String} {kind : ShapeKind} (h : ShapeKind.ofTag? tag = some kind) :
    tag ∈ shapeTags := by
  unfold ShapeKind.ofTag? at h
  split at h <;> first | decide | cases h

theorem not_mem_frameTags_of_mem_shapeTags : ∀ tag ∈ shapeTags, tag ∉ frameTags := by decide

namespace NodeClass

/-- Whether the nodes of a class keep their children. -/
def isFrameLike : NodeClass → Bool
  | .frame => true
  | .instanceOf => true
  | _ => false

/-- What the class of a type says about the type. -/
theorem tag_of_ofTag? {tag : String} {nodeClass : NodeClass} (h : ofTag? tag = some nodeClass) :
    (nodeClass.isFrameLike = true ∧ tag ∈ frameTags) ∨ (nodeClass = .text ∧ tag = "TEXT") ∨
      (∃ kind, nodeClass = .shape kind) ∧ tag ∈ shapeTags := by
  unfold ofTag? at h
  split at h
  · cases h; exact .inl (by decide)
  · cases h; exact .inl (by decide)
  · cases h; exact .inl (by decide)
  · cases h; exact .inl (by decide)
  · cases h; exact .inl (by decide)
  · cases h; exact .inl (by decide)
  · cases h; exact .inr (.inl ⟨rfl, rfl⟩)
  · obtain ⟨kind, hkind, rfl⟩ := Option.map_eq_some_iff.1 h
    exact .inr (.inr ⟨⟨kind, rfl⟩, mem_shapeTags hkind⟩)

theorem isFrameLike_of_ofTag? {tag : String} {nodeClass : NodeClass}
    (h : ofTag? tag = some nodeClass) : nodeClass.isFrameLike = frameTags.contains tag := by
  rcases tag_of_ofTag? h with ⟨hframe, htag⟩ | ⟨rfl, rfl⟩ | ⟨⟨kind, rfl⟩, htag⟩
  · rw [hframe, List.contains_eq_mem, decide_eq_true htag]
  · rfl
  · rw [List.contains_eq_mem, decide_eq_false (not_mem_frameTags_of_mem_shapeTags tag htag)]
    rfl

theorem isSome_ofTag? : ∀ tag ∈ understoodTags, (ofTag? tag).isSome = true := by decide

theorem ofTag?_eq_none_iff {tag : String} : ofTag? tag = none ↔ tag ∉ understoodTags := by
  constructor
  · intro hnone htag
    have hsome := isSome_ofTag? tag htag
    rw [hnone] at hsome
    cases hsome
  · intro hnot
    cases hclass : ofTag? tag with
    | none => rfl
    | some nodeClass =>
        rw [understoodTags, List.mem_append, List.mem_cons, not_or, not_or] at hnot
        rcases tag_of_ofTag? hclass with ⟨_, htag⟩ | ⟨_, htag⟩ | ⟨_, htag⟩
        · exact absurd htag hnot.1
        · exact absurd htag hnot.2.1
        · exact absurd htag hnot.2.2

theorem ofTag?_of_frameTags {tag : String} (h : frameTags.contains tag = true) :
    ∃ nodeClass, ofTag? tag = some nodeClass := by
  rw [List.contains_eq_mem, decide_eq_true_eq] at h
  exact Option.isSome_iff_exists.1 (isSome_ofTag? tag (List.mem_append_left _ h))

theorem Makes.isSome_frame? {nodeClass : NodeClass} {kind : NodeKind}
    (h : nodeClass.Makes kind) : kind.frame?.isSome = nodeClass.isFrameLike := by
  cases h <;> rfl

end NodeClass

end Document

end SceneMarkup
