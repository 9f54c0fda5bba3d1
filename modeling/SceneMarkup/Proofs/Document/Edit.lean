/-
  SceneMarkup/Proofs/Document/Edit.lean --- documents whose nodes are changed.

  WHAT THIS FILE IS FOR.  What a change of some nodes does to the scene can be said only
  once it is said what it does to the document.  An edit gives new fields to nodes by
  their ids; it goes through the document as the conversion does, below frame-like
  nodes and inside of pages and envelopes (`editDocument`).  An object whose children
  are changed and which is not is read as before (`facts_editedBelow`).
-/
import SceneMarkup.Proofs.Document.Content

set_option autoImplicit false

namespace SceneMarkup

/-! ## Fields -/

namespace Json.Fields

/-- `fields` with the value of the first field called `key` changed. -/
def change (key : String) (f : Value → Value) (fields : Fields) : Fields :=
  match fields with
  | [] => []
  | (k, v) :: rest => if k = key then (k, f v) :: rest else (k, v) :: change key f rest

variable {key : String} {f : Value → Value}

theorem get?_change_self (fields : Fields) :
    (change key f fields).get? key = (fields.get? key).map f := by
  induction fields with
  | nil => rfl
  | cons field rest ih =>
      obtain ⟨k, v⟩ := field
      rw [change]
      by_cases hkey : k = key
      · rw [if_pos hkey, get?, get?, if_pos hkey, if_pos hkey, Option.map_some]
      · rw [if_neg hkey, get?, get?, if_neg hkey, if_neg hkey, ih]

theorem get?_change_of_ne {other : String} (h : other ≠ key) (fields : Fields) :
    (change key f fields).get? other = fields.get? other := by
  induction fields with
  | nil => rfl
  | cons field rest ih =>
      obtain ⟨k, v⟩ := field
      rw [change]
      by_cases hkey : k = key
      · have hother : k ≠ other := fun heq => h (heq ▸ hkey)
        rw [if_pos hkey, get?, get?, if_neg hother, if_neg hother]
      · rw [if_neg hkey, get?, get?, ih]

theorem has_change (fields : Fields) (other : String) :
    (change key f fields).has other = fields.has other := by
  rw [has, has]
  by_cases h : other = key
  · rw [h, get?_change_self, Option.isSome_map]
  · rw [get?_change_of_ne h]

end Json.Fields

/-- A key that is not in a schema is not looked at when an object is read. -/
theorem Json.Schema.decode_change {σ : Type} {schema : Schema σ} {key : String}
    (h : schema.fields.find? (·.key == key) = none) (f : Value → Value) (fields : Fields) :
    schema.decode (.object (fields.change key f)) = schema.decode (.object fields) := by
  have hfold : ∀ start, (fields.change key f).foldlM schema.readField start =
      fields.foldlM schema.readField start := by
    induction fields with
    | nil => exact fun _ => rfl
    | cons field rest ih =>
        obtain ⟨k, v⟩ := field
        intro start
        rw [Fields.change]
        by_cases hkey : k = key
        · subst hkey
          rw [if_pos rfl, List.foldlM_cons, List.foldlM_cons, readField, readField, h]
        · rw [if_neg hkey, List.foldlM_cons, List.foldlM_cons]
          exact bind_congr fun s => ih s
  rw [decode, decode, readObject, readObject, hfold]
  simp only [Fields.has_change]

namespace Document

open Json (Fields Value)
open RoseTree (labelsIn label_mem_labelsIn mapIn)

/-! ## Nodes -/

/-- Lists in the place of lists; another value stays. -/
def changeItems (f : List Value → List Value) : Value → Value
  | .array items => .array (f items)
  | v => v

/-- New fields for the node with an id. -/
abbrev Edit : Type := String → Fields → Fields

mutual

/-- A node edited, after the nodes below it. -/
def editNode (edit : Edit) : Value → Value
  | .object fields =>
      .object (edit (idOf fields) (if isFrameLike fields then editBelow edit fields else fields))
  | v => v

/-- The fields of a node with its children edited. -/
def editBelow (edit : Edit) : List (String × Value) → List (String × Value)
  | [] => []
  | (key, .array items) :: rest =>
      if key = "children" then (key, .array (editNodes edit items)) :: rest
      else (key, .array items) :: editBelow edit rest
  | (key, v) :: rest =>
      if key = "children" then (key, v) :: rest else (key, v) :: editBelow edit rest

/-- Some nodes edited. -/
def editNodes (edit : Edit) : List Value → List Value
  | [] => []
  | v :: rest => editNode edit v :: editNodes edit rest

end

/-- The fields of a node with the nodes below it edited. -/
def editedBelow (edit : Edit) (fields : Fields) : Fields :=
  if isFrameLike fields then editBelow edit fields else fields

/-- The fields that a node gets, once the nodes below it are edited. -/
def editFields (edit : Edit) (fields : Fields) : Fields :=
  edit (idOf fields) (editedBelow edit fields)

variable (edit : Edit)

theorem editNode_object (fields : Fields) :
    editNode edit (.object fields) = .object (editFields edit fields) := by
  rw [editNode, editFields, editedBelow]

theorem editNodes_eq_map (items : List Value) :
    editNodes edit items = items.map (editNode edit) := by
  induction items with
  | nil => rfl
  | cons v rest ih => rw [editNodes, ih, List.map_cons]

theorem editBelow_eq (fields : Fields) :
    editBelow edit fields = fields.change "children" (changeItems (List.map (editNode edit))) := by
  induction fields with
  | nil => rfl
  | cons field rest ih =>
      obtain ⟨key, v⟩ := field
      rw [Fields.change, ← ih]
      cases v <;> simp only [editBelow, changeItems, editNodes_eq_map]

/-! ## What an edit of the children leaves alone -/

theorem childrenOf?_change {f : List Value → List Value} (hnil : f [] = []) (fields : Fields) :
    childrenOf? (fields.change "children" (changeItems f)) = (childrenOf? fields).map f := by
  rw [childrenOf?, childrenOf?, Fields.get?_change_self]
  cases fields.get? "children" with
  | none => rw [Option.map_none, Option.map_some, hnil]
  | some v =>
      cases v with
      | null =>
          show some [] = (some []).map f
          rw [Option.map_some, hnil]
      | _ => rfl

/-- All that matters of an object by itself: its id, whether its children are a list, and what it
is read as. -/
def facts (fields : Fields) : String × Bool × Noted Layer :=
  (idOf fields, (childrenOf? fields).isSome, reading fields)

/-- What is usable is a matter of these facts. -/
theorem Usable.of_facts_eq {fields other : Fields} (h : Usable fields)
    (heq : facts other = facts fields) : Usable other := by
  have hid : idOf other = idOf fields := congrArg (·.1) heq
  have hchildren : (childrenOf? other).isSome = (childrenOf? fields).isSome := congrArg (·.2.1) heq
  have hremarks : remarksOn other = remarksOn fields := congrArg (·.2.2.notes) heq
  refine ⟨⟨?_, ?_⟩, ?_⟩
  · rw [hid]
    exact h.id_ne_empty
  · rw [hchildren, h.isSome_children]
  · rw [hremarks]
    exact h.isError_eq_false

theorem facts_change {f : List Value → List Value}
    (hlength : ∀ items, (f items).length = items.length) (fields : Fields) :
    facts (fields.change "children" (changeItems f)) = facts fields := by
  have hnil : f [] = [] := List.eq_nil_of_length_eq_zero (hlength [])
  have hother : ∀ key ≠ "children",
      (fields.change "children" (changeItems f)).get? key = fields.get? key :=
    fun key hkey => Fields.get?_change_of_ne hkey fields
  have hid : idOf (fields.change "children" (changeItems f)) = idOf fields := by
    rw [idOf, hother _ (by decide), ← idOf]
  have hcount : childCount (fields.change "children" (changeItems f)) = childCount fields := by
    rw [childCount, childCount, childrenOf?_change hnil]
    cases childrenOf? fields with
    | none => rfl
    | some items => exact hlength items
  have htyped : inspectTyped (idOf fields) (fields.change "children" (changeItems f)) =
      inspectTyped (idOf fields) fields := by
    rw [inspectTyped, inspectTyped, hother "type" (by decide), hcount]
    simp only [inspectClass, hcount, Json.Schema.decode_change
      (show nodeSchema.fields.find? (·.key == "children") = none from rfl), placeholder,
      placeholderBounds, hother "name" (by decide), hother "visible" (by decide),
      hother "absoluteBoundingBox" (by decide)]
  rw [facts, facts, reading, hid, htyped, childrenOf?_change hnil, Option.isSome_map, ← reading]

/-- Edits below a node do not change what is said of the node by itself. -/
theorem facts_editedBelow (fields : Fields) : facts (editedBelow edit fields) = facts fields := by
  rw [editedBelow]
  split
  · rw [editBelow_eq]
    exact facts_change (fun items => List.length_map _) fields
  · rfl

theorem get?_editedBelow {key : String} (h : key ≠ "children") (fields : Fields) :
    (editedBelow edit fields).get? key = fields.get? key := by
  rw [editedBelow]
  split
  · rw [editBelow_eq, Fields.get?_change_of_ne h]
  · rfl

theorem childrenOf_editedBelow {fields : Fields} (h : isFrameLike fields = true) :
    childrenOf (editedBelow edit fields) = (childrenOf fields).map (editNode edit) := by
  rw [editedBelow, if_pos h, editBelow_eq, childrenOf, childrenOf?_change List.map_nil, childrenOf]
  cases childrenOf? fields with
  | none => rfl
  | some items => rfl

/-! ## Objects -/

/-- An edit leaves id, type and children of a node as they are. -/
structure Edit.KeepsPlace (fields : Fields) : Prop where
  id_ne_empty : idOf fields ≠ ""
  id_eq : ∀ other, (edit (idOf fields) other).get? "id" = other.get? "id"
  type_eq : ∀ other, (edit (idOf fields) other).get? "type" = other.get? "type"
  children_eq : ∀ other, (edit (idOf fields) other).get? "children" = other.get? "children"

variable {edit}

namespace Edit.KeepsPlace

variable {fields : Fields}

theorem idOf_eq (h : edit.KeepsPlace fields) : idOf (editFields edit fields) = idOf fields := by
  rw [idOf, editFields, h.id_eq, get?_editedBelow edit (by decide), ← idOf]

theorem tagOf?_eq (h : edit.KeepsPlace fields) :
    tagOf? (editFields edit fields) = tagOf? fields := by
  rw [tagOf?, editFields, h.type_eq, get?_editedBelow edit (by decide), ← tagOf?]

theorem isFrameLike_eq (h : edit.KeepsPlace fields) :
    isFrameLike (editFields edit fields) = isFrameLike fields := by
  rw [isFrameLike, h.tagOf?_eq, ← isFrameLike]

theorem childrenOf?_eq (h : edit.KeepsPlace fields) :
    childrenOf? (editFields edit fields) = childrenOf? (editedBelow edit fields) := by
  rw [childrenOf?, editFields, h.children_eq, ← childrenOf?]

theorem objectsBelow_eq (h : edit.KeepsPlace fields) :
    objectsBelow (editFields edit fields) =
      if isFrameLike fields then sceneObjectsIn ((childrenOf fields).map (editNode edit))
      else [] := by
  rw [objectsBelow, h.isFrameLike_eq]
  split
  · rename_i hframe
    rw [childrenOf, h.childrenOf?_eq, ← childrenOf, childrenOf_editedBelow edit hframe]
  · rfl

end Edit.KeepsPlace

/-- Objects are edited one by one, if that holds of each. -/
theorem sceneObjectsIn_map_of_forall {items : List Value}
    (hnode : ∀ v ∈ items, (∀ fields ∈ labelsIn [sceneObject v], edit.KeepsPlace fields) →
      sceneObject (editNode edit v) = (sceneObject v).map (editFields edit))
    (h : ∀ fields ∈ labelsIn (sceneObjectsIn items), edit.KeepsPlace fields) :
    sceneObjectsIn (items.map (editNode edit)) =
      mapIn (editFields edit) (sceneObjectsIn items) := by
  induction items with
  | nil => rfl
  | cons v rest ih =>
      rw [sceneObjectsIn, ← List.singleton_append, RoseTree.labelsIn_append,
        List.forall_mem_append] at h
      rw [List.forall_mem_cons] at hnode
      rw [List.map_cons, sceneObjectsIn, sceneObjectsIn, mapIn, hnode.1 h.1, ih hnode.2 h.2]

/-- An object is edited with those below it, if they keep their places. -/
theorem sceneObject_editNode {v : Value}
    (h : ∀ fields ∈ labelsIn [sceneObject v], edit.KeepsPlace fields) :
    sceneObject (editNode edit v) = (sceneObject v).map (editFields edit) := by
  induction v using node_induction with
  | other v hv =>
      rw [sceneObject_of_not_object hv] at h
      exact absurd rfl (h [] List.mem_cons_self).id_ne_empty
  | object fields ih =>
      rw [sceneObject_object, RoseTree.labelsIn_singleton, List.forall_mem_cons] at h
      rw [editNode_object, sceneObject_object, sceneObject_object, RoseTree.map,
        h.1.objectsBelow_eq]
      congr 1
      rw [objectsBelow] at h ⊢
      split
      · rename_i hframe
        rw [if_pos hframe] at h
        exact sceneObjectsIn_map_of_forall ih h.2
      · rfl

theorem sceneObjectsIn_editNode {items : List Value}
    (h : ∀ fields ∈ labelsIn (sceneObjectsIn items), edit.KeepsPlace fields) :
    sceneObjectsIn (items.map (editNode edit)) = mapIn (editFields edit) (sceneObjectsIn items) :=
  sceneObjectsIn_map_of_forall (fun _ _ => sceneObject_editNode) h

/-! ## Documents -/

/-- The types of the nodes that stand for pages and documents. -/
def containerTags : List String := ["DOCUMENT", "CANVAS", "PAGE"]

/-- A page with its nodes edited; a node that is not a page is edited itself. -/
def editPage (edit : Edit) (page : Value) : Value :=
  match page with
  | .object fields =>
      if isPage (typeOf? page) then .object (editBelow edit fields) else editNode edit page
  | _ => page

/-- The root of a document with its nodes edited. -/
def editRoot (edit : Edit) (root : Value) : Value :=
  match root with
  | .array items => .array (editNodes edit items)
  | .object fields =>
      if typeOf? root = some "DOCUMENT" then
        .object (Fields.change "children" (changeItems (List.map (editPage edit))) fields)
      else editPage edit root
  | _ => root

/-- A document with its nodes edited, whether or not they come in an envelope. -/
def editDocument (edit : Edit) (v : Value) : Value :=
  match v with
  | .object fields =>
      if Fields.has fields "document" && !Fields.has fields "type" then
        .object (Fields.change "document" (editRoot edit) fields)
      else editRoot edit v
  | _ => editRoot edit v

variable (edit) in
/-- A top-level node stays one: it has a type, and does not become a page or a document. -/
structure Edit.KeepsNode (content : Value) : Prop where
  isSome_type : (typeOf? content).isSome = true
  type_eq : typeOf? (editNode edit content) = typeOf? content ∨
    ∃ tag ∉ containerTags, typeOf? (editNode edit content) = some tag

/-- Items with their nodes edited. -/
def editItems (edit : Edit) (items : List (String × Value)) : List (String × Value) :=
  items.map (Prod.map id (editNode edit))

theorem editItems_asChildren (parent : String) (index : Nat) (items : List Value) :
    editItems edit (asChildren parent index items) =
      asChildren parent index (items.map (editNode edit)) := by
  induction items generalizing index with
  | nil => rfl
  | cons v rest ih =>
      rw [asChildren, List.map_cons, asChildren, ← ih]
      rfl

theorem map_snd_editItems (items : List (String × Value)) :
    (editItems edit items).map Prod.snd = (items.map Prod.snd).map (editNode edit) := by
  rw [editItems, List.map_map, List.map_map]
  rfl

namespace Edit.KeepsNode

variable {content : Value}

theorem ne_document (h : edit.KeepsNode content) (hne : typeOf? content ≠ some "DOCUMENT") :
    typeOf? (editNode edit content) ≠ some "DOCUMENT" := by
  rcases h.type_eq with heq | ⟨tag, hnot, heq⟩
  · rwa [heq]
  · rw [heq]
    rintro ⟨⟩
    exact hnot (by decide)

theorem isPage_eq_false (h : edit.KeepsNode content) (hnot : isPage (typeOf? content) = false) :
    isPage (typeOf? (editNode edit content)) = false := by
  rcases h.type_eq with heq | ⟨tag, htag, heq⟩
  · rw [heq, hnot]
  · simp only [containerTags, List.mem_cons, List.not_mem_nil, or_false, not_or] at htag
    simp [heq, isPage, htag.2.1, htag.2.2]

theorem isSome_typeOf? (h : edit.KeepsNode content) :
    (typeOf? (editNode edit content)).isSome = true := by
  rcases h.type_eq with heq | ⟨tag, _, heq⟩
  · rw [heq, h.isSome_type]
  · rw [heq, Option.isSome_some]

end Edit.KeepsNode

theorem containedIn_change {f : List Value → List Value} (hnil : f [] = []) (context : String)
    (fields : Fields) :
    containedIn context (.object (fields.change "children" (changeItems f))) =
      (containedIn context (.object fields)).map f := by
  rw [containedIn, containedIn, Value.field?, Value.field?, Fields.get?_change_self]
  cases fields.get? "children" with
  | none => exact congrArg Except.ok hnil.symm
  | some v =>
      cases v with
      | null => exact congrArg Except.ok hnil.symm
      | _ => rfl

theorem typeOf?_change {key : String} (h : "type" ≠ key) (f : Value → Value) (fields : Fields) :
    typeOf? (.object (fields.change key f)) = typeOf? (.object fields) := by
  rw [typeOf?, typeOf?, Value.field?, Value.field?, Fields.get?_change_of_ne h]

theorem containedItems_editBelow (context place : String) (fields : Fields) :
    containedItems context place (.object (editBelow edit fields)) =
      (containedItems context place (.object fields)).map (editItems edit) := by
  rw [containedItems, containedItems, editBelow_eq, containedIn_change List.map_nil]
  cases containedIn context (.object fields) with
  | error e => rfl
  | ok items => exact congrArg Except.ok (editItems_asChildren place 0 items).symm

theorem pageItems_editPage {index : Nat} {page : Value}
    (h : ∀ content ∈ pageContents page, edit.KeepsNode content) :
    pageItems index (editPage edit page) = (pageItems index page).map (editItems edit) := by
  cases page with
  | object fields =>
      rw [pageItems, pageItems, editPage]
      cases hpage : isPage (typeOf? (.object fields)) with
      | true =>
          have hedited : isPage (typeOf? (.object (editBelow edit fields))) = true := by
            rw [editBelow_eq, typeOf?_change (by decide), hpage]
          rw [if_pos rfl, if_pos hedited, if_pos rfl]
          exact containedItems_editBelow _ _ fields
      | false =>
          rw [pageContents, if_neg (by rw [hpage]; exact Bool.false_ne_true)] at h
          have hedited := (h _ (List.mem_singleton.2 rfl)).isPage_eq_false hpage
          rw [if_neg Bool.false_ne_true, if_neg (by rw [hedited]; exact Bool.false_ne_true),
            if_neg Bool.false_ne_true]
          rfl
  | _ => cases (h _ (List.mem_singleton.2 rfl)).isSome_type

theorem pagesItems_editPage {pages : List Value}
    (h : ∀ content ∈ pages.flatMap pageContents, edit.KeepsNode content) (index : Nat) :
    pagesItems index (pages.map (editPage edit)) =
      (pagesItems index pages).map (editItems edit) := by
  induction pages generalizing index with
  | nil => rfl
  | cons page rest ih =>
      rw [List.flatMap_cons, List.forall_mem_append] at h
      rw [List.map_cons, pagesItems, pagesItems, pageItems_editPage h.1, ih h.2]
      cases pageItems index page with
      | error e => rfl
      | ok first =>
          cases pagesItems (index + 1) rest with
          | error e => rfl
          | ok others => exact congrArg Except.ok List.map_append.symm

theorem rootItems_of_isPage {root : Value} (hdocument : typeOf? root ≠ some "DOCUMENT")
    (hpage : isPage (typeOf? root) = true) :
    rootItems root = containedItems "page" "page" root := by
  unfold rootItems
  cases htype : typeOf? root with
  | none =>
      rw [htype] at hpage
      cases hpage
  | some tag =>
      rw [htype] at hdocument hpage
      split
      · exact absurd ‹_› hdocument
      · rename_i heq
        cases heq
        rw [if_pos hpage]
      · cases ‹some tag = none›

theorem rootItems_of_node {root : Value} (hsome : (typeOf? root).isSome = true)
    (hdocument : typeOf? root ≠ some "DOCUMENT") (hpage : isPage (typeOf? root) = false) :
    rootItems root = .ok [("root", root)] := by
  unfold rootItems
  cases htype : typeOf? root with
  | none =>
      rw [htype] at hsome
      cases hsome
  | some tag =>
      rw [htype] at hdocument hpage
      split
      · exact absurd ‹_› hdocument
      · rename_i heq
        cases heq
        rw [if_neg (by rw [hpage]; exact Bool.false_ne_true)]
      · cases ‹some tag = none›

/-- The top-level nodes of an edited document are those of the document, edited. -/
theorem rootItems_editRoot {root : Value}
    (h : ∀ content ∈ rootContents root, edit.KeepsNode content) :
    rootItems (editRoot edit root) = (rootItems root).map (editItems edit) := by
  cases root with
  | array items =>
      rw [editRoot, editNodes_eq_map]
      exact congrArg Except.ok (editItems_asChildren "root" 0 items).symm
  | object fields =>
      rw [editRoot]
      unfold rootContents at h
      dsimp only at h
      split
      · rename_i hdocument
        rw [if_pos hdocument] at h
        rw [rootItems, rootItems, typeOf?_change (by decide), hdocument]
        show (containedIn "DOCUMENT" _ >>= fun pages => pagesItems 0 pages) =
          (containedIn "DOCUMENT" (.object fields) >>= fun pages => pagesItems 0 pages).map _
        rw [containedIn_change List.map_nil]
        cases hpages : containedIn "DOCUMENT" (.object fields) with
        | error e => rfl
        | ok pages =>
            rw [containedNodes_of_containedIn hpages] at h
            exact pagesItems_editPage h 0
      · rename_i hdocument
        rw [if_neg hdocument, pageContents] at h
        rw [editPage]
        split at h
        · rename_i hpage
          have htype : typeOf? (.object (editBelow edit fields)) = typeOf? (.object fields) := by
            rw [editBelow_eq, typeOf?_change (by decide)]
          rw [if_pos hpage, rootItems_of_isPage hdocument hpage,
            rootItems_of_isPage (htype ▸ hdocument) (htype ▸ hpage)]
          exact containedItems_editBelow "page" "page" fields
        · rename_i hpage
          have hnode := h _ (List.mem_singleton.2 rfl)
          have hnot : isPage (typeOf? (.object fields)) = false := Bool.not_eq_true _ ▸ hpage
          rw [if_neg hpage, rootItems_of_node hnode.isSome_type hdocument hnot,
            rootItems_of_node hnode.isSome_typeOf? (hnode.ne_document hdocument)
              (hnode.isPage_eq_false hnot)]
          rfl
  | _ => rfl

theorem has_of_isSome_typeOf? {fields : Fields} (h : (typeOf? (.object fields)).isSome = true) :
    Fields.has fields "type" = true := by
  rw [typeOf?, Value.field?] at h
  rw [Fields.has]
  cases hget : fields.get? "type" with
  | none =>
      rw [hget] at h
      cases h
  | some v => rfl

theorem unwrap_of_has {fields : Fields} (h : Fields.has fields "type" = true) :
    unwrap (.object fields) = (none, .object fields) := by
  rw [Fields.has] at h
  rw [unwrap, Value.field?, if_pos h]

theorem unwrap_of_not_has {fields : Fields} (h : Fields.has fields "type" = false) :
    unwrap (.object fields) =
      match fields.get? "document" with
      | some content => ((fields.get? "name").bind Value.text?, content)
      | none => (none, .object fields) := by
  rw [Fields.has] at h
  rw [unwrap, Value.field?, if_neg (by rw [h]; exact Bool.false_ne_true)]
  rfl

/-- An object without a type is a single node. -/
theorem mem_rootContents_of_not_has {fields : Fields} (h : Fields.has fields "type" = false) :
    .object fields ∈ rootContents (.object fields) := by
  have hnone : typeOf? (.object fields) = none := by
    rw [← Option.not_isSome_iff_eq_none]
    intro hsome
    rw [has_of_isSome_typeOf? hsome] at h
    cases h
  unfold rootContents
  dsimp only
  rw [hnone, if_neg nofun, pageContents, hnone, isPage]
  exact List.mem_singleton.2 rfl

/-- The root of an edited document has a type, if it is a single node or a page. -/
theorem exists_editRoot_object {fields : Fields}
    (h : ∀ content ∈ rootContents (.object fields), edit.KeepsNode content)
    (htype : Fields.has fields "type" = true) :
    ∃ edited, editRoot edit (.object fields) = .object edited ∧
      Fields.has edited "type" = true := by
  unfold rootContents at h
  dsimp only at h
  rw [editRoot]
  split
  · exact ⟨_, rfl, by rw [Fields.has_change, htype]⟩
  · rename_i hdocument
    rw [if_neg hdocument, pageContents] at h
    rw [editPage]
    split
    · exact ⟨_, rfl, by rw [editBelow_eq, Fields.has_change, htype]⟩
    · rename_i hpage
      rw [if_neg hpage] at h
      have hsome := (h _ (List.mem_singleton.2 rfl)).isSome_typeOf?
      rw [editNode_object] at hsome ⊢
      exact ⟨_, rfl, has_of_isSome_typeOf? hsome⟩

/-- Editing a document is editing what it holds once its envelope is removed. -/
theorem unwrap_editDocument {v : Value} (h : ∀ content ∈ contents v, edit.KeepsNode content) :
    unwrap (editDocument edit v) = ((unwrap v).1, editRoot edit (unwrap v).2) := by
  cases v with
  | object fields =>
      rw [editDocument]
      rw [contents] at h
      cases htype : Fields.has fields "type" with
      | true =>
          rw [unwrap_of_has htype] at h ⊢
          obtain ⟨edited, hroot, hedited⟩ := exists_editRoot_object h htype
          rw [Bool.not_true, Bool.and_false, if_neg Bool.false_ne_true, hroot,
            unwrap_of_has hedited]
      | false =>
          rw [unwrap_of_not_has htype] at h ⊢
          cases hdocument : Fields.get? fields "document" with
          | some content =>
              have hhas : Fields.has fields "document" = true := by
                rw [Fields.has, hdocument, Option.isSome_some]
              rw [hhas, Bool.not_false, Bool.and_true, if_pos rfl,
                unwrap_of_not_has (by rw [Fields.has_change, htype]), Fields.get?_change_self,
                Fields.get?_change_of_ne (by decide), hdocument]
              rfl
          | none =>
              rw [hdocument] at h
              have hnode := h _ (mem_rootContents_of_not_has htype)
              rw [has_of_isSome_typeOf? hnode.isSome_type] at htype
              cases htype
  | _ => rfl

/-- The nodes of an acceptable document stay nodes if none of its objects becomes a page or a
document. -/
theorem keepsNode_of_acceptable {v : Value} (h : Acceptable [] (sceneForest v))
    (htag : ∀ fields ∈ labelsIn (sceneForest v), tagOf? (editFields edit fields) = tagOf? fields ∨
      ∃ tag ∉ containerTags, tagOf? (editFields edit fields) = some tag) :
    ∀ content ∈ contents v, edit.KeepsNode content := by
  intro content hcontent
  have hlabel : (sceneObject content).label ∈ labelsIn (sceneForest v) := by
    rw [sceneForest, sceneObjectsIn_eq_map]
    exact label_mem_labelsIn (List.mem_map_of_mem hcontent)
  have husable := h.each _ hlabel
  cases content with
  | object fields =>
      rw [sceneObject_object] at hlabel husable
      refine ⟨husable.isSome_tagOf?, ?_⟩
      rw [editNode_object]
      exact htag fields hlabel
  | _ => exact absurd rfl husable.id_ne_empty

/-- The nodes of an edited document are those of the document, edited. -/
theorem sceneForest_editDocument {v : Value} {items : List (String × Value)}
    (hitems : rootItems (unwrap v).2 = .ok items)
    (h : ∀ content ∈ contents v, edit.KeepsNode content) :
    rootItems (unwrap (editDocument edit v)).2 = .ok (editItems edit items) ∧
      sceneForest (editDocument edit v) = sceneObjectsIn ((contents v).map (editNode edit)) := by
  have hedited : rootItems (unwrap (editDocument edit v)).2 = .ok (editItems edit items) := by
    rw [unwrap_editDocument h, rootItems_editRoot h, hitems]
    rfl
  refine ⟨hedited, ?_⟩
  rw [sceneForest_of_rootItems hedited, map_snd_editItems, map_snd_of_rootItems hitems, contents]

/-- The objects of an edited document are those of the document, edited, if they keep their
places. -/
theorem sceneForest_of_keepsPlace {v : Value} {items : List (String × Value)}
    (hitems : rootItems (unwrap v).2 = .ok items) (h : Acceptable [] (sceneForest v))
    (hkeeps : ∀ fields ∈ labelsIn (sceneForest v), edit.KeepsPlace fields) :
    rootItems (unwrap (editDocument edit v)).2 = .ok (editItems edit items) ∧
      sceneForest (editDocument edit v) = mapIn (editFields edit) (sceneForest v) := by
  have hnodes := keepsNode_of_acceptable h fun fields hfields =>
    .inl (hkeeps fields hfields).tagOf?_eq
  obtain ⟨hedited, hforest⟩ := sceneForest_editDocument hitems hnodes
  exact ⟨hedited, by rw [hforest, sceneObjectsIn_editNode hkeeps, ← sceneForest]⟩

end Document

end SceneMarkup
