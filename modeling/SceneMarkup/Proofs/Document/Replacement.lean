/-
  SceneMarkup/Proofs/Document/Replacement.lean --- documents in which a node is replaced
  by one that is not understood.

  WHAT THIS FILE IS FOR.  A node of an unknown type is kept as a placeholder, with a
  warning.  If any node of an accepted document gives way to such a node, the document
  stays accepted, and only the subtree of the node changes in the scene, in the remarks
  and in the styles (`replaced_isolated`).
-/
import Mathlib.Data.List.Nodup
import SceneMarkup.Proofs.Document.Edit
import SceneMarkup.Proofs.Document.WellFormed
import SceneMarkup.Proofs.Style.Outside

set_option autoImplicit false

namespace SceneMarkup

/-! ## Remarks about some items -/

section

variable {α : Type} {id : α → String} {remarks : α → Diagnostics}

theorem namesOneOf_of_mem_flatMap {items : List α}
    (h : ∀ a ∈ items, ∀ d ∈ remarks a, d.nodeId = some (id a)) :
    ∀ d ∈ items.flatMap remarks, d.namesOneOf (items.map id) = true := by
  intro d hd
  obtain ⟨a, ha, hd⟩ := List.mem_flatMap.1 hd
  rw [Diagnostic.namesOneOf_of_nodeId (h a ha d hd), List.contains_eq_mem, decide_eq_true_eq]
  exact List.mem_map_of_mem ha

theorem filter_eq_self_of_disjoint {items others : List α}
    (h : ∀ a ∈ items, ∀ d ∈ remarks a, d.nodeId = some (id a))
    (hdisjoint : ∀ a ∈ items, id a ∉ others.map id) :
    (items.flatMap remarks).filter (fun d => !d.namesOneOf (others.map id)) =
      items.flatMap remarks := by
  refine List.filter_eq_self.2 fun d hd => ?_
  obtain ⟨a, ha, hd⟩ := List.mem_flatMap.1 hd
  rw [Diagnostic.namesOneOf_of_nodeId (h a ha d hd), List.contains_eq_mem,
    decide_eq_false (hdisjoint a ha)]
  rfl

/-- Without the remarks on the items in the middle, those before and after them are left. -/
theorem filter_flatMap_outside {before middle after : List α}
    (h : ∀ a ∈ before ++ middle ++ after, ∀ d ∈ remarks a, d.nodeId = some (id a))
    (hnodup : ((before ++ middle ++ after).map id).Nodup) :
    ((before ++ middle ++ after).flatMap remarks).filter
        (fun d => !d.namesOneOf (middle.map id)) =
      before.flatMap remarks ++ after.flatMap remarks := by
  rw [List.forall_mem_append, List.forall_mem_append] at h
  obtain ⟨⟨hbefore, hmiddle⟩, hafter⟩ := h
  simp only [List.map_append, List.nodup_append', List.disjoint_append_left] at hnodup
  obtain ⟨⟨_, _, hfirst⟩, _, _, hlast⟩ := hnodup
  rw [List.flatMap_append, List.flatMap_append, Style.filter_middle,
    filter_eq_self_of_disjoint hbefore, filter_eq_self_of_disjoint hafter]
  · exact fun a ha hmem => hlast hmem (List.mem_map_of_mem ha)
  · exact fun a ha hmem => hfirst (List.mem_map_of_mem ha) hmem
  · intro d hd
    rw [namesOneOf_of_mem_flatMap hmiddle d hd]
    rfl

end

namespace Document

open Json (Fields Value)
open RoseTree (Replaced labelsIn mapIn subtreesIn)

/-! ## The edit -/

/-- The edit that gives new fields to the node with an id. -/
def replaceEdit (id : String) (new : Fields) : Edit := fun other fields =>
  if other = id then new else fields

/-- A document with the node that has an id replaced. -/
def replaceNode (id : String) (new : Fields) (v : Value) : Value :=
  editDocument (replaceEdit id new) v

/-- An object with an id that is of no type that a document can have. -/
structure Unknown (id tag : String) (fields : Fields) : Prop where
  id_eq : fields.get? "id" = some (.string id)
  type_eq : fields.get? "type" = some (.string tag)
  not_understood : tag ∉ understoodTags
  not_container : tag ∉ containerTags
  isList_children : ∀ children, fields.get? "children" = some children →
    children = .null ∨ ∃ items, children = .array items

namespace Unknown

variable {id tag : String} {fields : Fields}

theorem idOf_eq (h : Unknown id tag fields) : idOf fields = id := by
  rw [idOf, h.id_eq]
  rfl

theorem tagOf?_eq (h : Unknown id tag fields) : tagOf? fields = some tag := by
  rw [tagOf?, h.type_eq]
  rfl

theorem isSome_children (h : Unknown id tag fields) : (childrenOf? fields).isSome = true := by
  rw [childrenOf?]
  cases hget : fields.get? "children" with
  | none => rfl
  | some children => rcases h.isList_children children hget with rfl | ⟨items, rfl⟩ <;> rfl

theorem objectsBelow_eq_nil (h : Unknown id tag fields) : objectsBelow fields = [] := by
  have hnot : tag ∉ frameTags := fun hmem => h.not_understood (List.mem_append_left _ hmem)
  rw [objectsBelow, isFrameLike_of_tag h.tagOf?_eq, List.contains_eq_mem, decide_eq_false hnot]
  rfl

theorem reading_eq (h : Unknown id tag fields) :
    reading fields = ⟨placeholder id tag fields, [unsupportedNote id tag (childCount fields)]⟩ := by
  have htag : (fields.get? "type").bind Value.text? = some tag := h.tagOf?_eq
  rw [reading, h.idOf_eq, inspectTyped, htag]
  dsimp only
  rw [NodeClass.ofTag?_eq_none_iff.2 h.not_understood]
  rfl

theorem usable (h : Unknown id tag fields) (hne : id ≠ "") : Usable fields := by
  refine ⟨⟨?_, h.isSome_children⟩, ?_⟩
  · rw [h.idOf_eq]
    exact hne
  · rw [remarksOn, h.reading_eq]
    exact List.forall_mem_singleton.2 rfl

end Unknown

/-! ## The objects of the edited document -/

section

variable {id tag : String} {new : Fields}

theorem keepsPlace_replaceEdit {fields : Fields} (hempty : idOf fields ≠ "")
    (hne : idOf fields ≠ id) : (replaceEdit id new).KeepsPlace fields := by
  have hsame : ∀ other, replaceEdit id new (idOf fields) other = other := fun other => if_neg hne
  exact ⟨hempty, fun other => by rw [hsame], fun other => by rw [hsame],
    fun other => by rw [hsame]⟩

theorem facts_editFields_of_ne {fields : Fields} (hne : idOf fields ≠ id) :
    facts (editFields (replaceEdit id new) fields) = facts fields := by
  rw [editFields, replaceEdit, if_neg hne, facts_editedBelow]

theorem idsIn_eq_map_facts (objects : List (RoseTree Fields)) :
    idsIn objects = ((labelsIn objects).map facts).map Prod.fst := by
  rw [idsIn, List.map_map]
  rfl

/-- The objects of a forest have ids, which are new and all different. -/
abbrev Distinct (seen : List String) (objects : List (RoseTree Fields)) : Prop :=
  Throughout (fun fields => idOf fields ≠ "") seen objects

/-- Where no object has the id, nothing changes that matters. -/
theorem mapIn_facts_of_not_mem {seen : List String} {items : List Value}
    (h : Distinct seen (sceneObjectsIn items))
    (hnot : id ∉ idsIn (sceneObjectsIn items)) :
    mapIn facts (sceneObjectsIn (items.map (editNode (replaceEdit id new)))) =
      mapIn facts (sceneObjectsIn items) := by
  have hne : ∀ fields ∈ labelsIn (sceneObjectsIn items), idOf fields ≠ id :=
    fun fields hfields heq => hnot (heq ▸ List.mem_map_of_mem hfields)
  rw [sceneObjectsIn_editNode fun fields hfields =>
    keepsPlace_replaceEdit (h.each fields hfields) (hne fields hfields), RoseTree.mapIn_mapIn]
  exact RoseTree.mapIn_congr fun fields hfields => facts_editFields_of_ne (hne fields hfields)

/-- The subtree of an object with the id gives way to the new object. -/
def ReplacesIn (id : String) (new : Fields) (objects objects' : List (RoseTree Fields)) : Prop :=
  ∃ old ∈ subtreesIn objects, idOf old.label = id ∧
    Replaced (old.map facts) ⟨facts new, []⟩ (mapIn facts objects) (mapIn facts objects')

namespace ReplacesIn

variable {objects objects' : List (RoseTree Fields)} (h : ReplacesIn id new objects objects')

include h

theorem append {others others' : List (RoseTree Fields)}
    (hsame : mapIn facts others' = mapIn facts others) :
    ReplacesIn id new (objects ++ others) (objects' ++ others') := by
  obtain ⟨old, hold, hlabel, hreplaced⟩ := h
  refine ⟨old, ?_, hlabel, ?_⟩
  · rw [RoseTree.subtreesIn_append]
    exact List.mem_append_left _ hold
  · rw [RoseTree.mapIn_append, RoseTree.mapIn_append, hsame]
    exact hreplaced.append _

theorem cons {first first' : RoseTree Fields} (hsame : mapIn facts [first'] = mapIn facts [first]) :
    ReplacesIn id new (first :: objects) (first' :: objects') := by
  obtain ⟨old, hold, hlabel, hreplaced⟩ := h
  refine ⟨old, ?_, hlabel, ?_⟩
  · rw [← List.singleton_append, RoseTree.subtreesIn_append]
    exact List.mem_append_right _ hold
  · rw [mapIn, mapIn] at hsame ⊢
    rw [List.head_eq_of_cons_eq hsame]
    exact .later _ hreplaced

theorem below {fields fields' : Fields} (hsame : facts fields' = facts fields) :
    ReplacesIn id new [⟨fields, objects⟩] [⟨fields', objects'⟩] := by
  obtain ⟨old, hold, hlabel, hreplaced⟩ := h
  refine ⟨old, ?_, hlabel, ?_⟩
  · rw [RoseTree.subtreesIn_cons]
    exact List.mem_cons_of_mem _ (List.mem_append_left _ hold)
  · rw [RoseTree.mapIn_cons, RoseTree.mapIn_cons, hsame]
    exact .inside _ _ hreplaced

end ReplacesIn

/-- Among some nodes the one with the id is replaced, if that holds of each by itself. -/
theorem replacesIn_of_forall {items : List Value}
    (hnode : ∀ v ∈ items, ∀ seen, Distinct seen [sceneObject v] → id ∈ idsIn [sceneObject v] →
      ReplacesIn id new [sceneObject v] [sceneObject (editNode (replaceEdit id new) v)])
    {seen : List String} (h : Distinct seen (sceneObjectsIn items))
    (hid : id ∈ idsIn (sceneObjectsIn items)) :
    ReplacesIn id new (sceneObjectsIn items)
      (sceneObjectsIn (items.map (editNode (replaceEdit id new)))) := by
  induction items generalizing seen with
  | nil => cases hid
  | cons v rest ih =>
      rw [sceneObjectsIn, ← List.singleton_append] at h hid
      rw [List.forall_mem_cons] at hnode
      obtain ⟨hfirst, hothers⟩ := Throughout.append_iff.1 h
      have hnot : id ∈ idsIn [sceneObject v] → id ∉ idsIn (sceneObjectsIn rest) := fun hmem =>
        hothers.not_mem_idsIn (List.mem_append_left _ (List.mem_reverse.2 hmem))
      rw [idsIn_append, List.mem_append] at hid
      rcases hid with hid | hid
      · exact (hnode.1 seen hfirst hid).append (mapIn_facts_of_not_mem hothers (hnot hid))
      · exact (ih hnode.2 hothers hid).cons
          (@mapIn_facts_of_not_mem id new seen [v] hfirst fun hmem => hnot hmem hid)

variable (hnew : Unknown id tag new)

include hnew

/-- In a node the object with the id is replaced, wherever it is. -/
theorem replacesIn_editNode (v : Value) : ∀ seen, Distinct seen [sceneObject v] →
    id ∈ idsIn [sceneObject v] →
    ReplacesIn id new [sceneObject v] [sceneObject (editNode (replaceEdit id new) v)] := by
  induction v using node_induction with
  | other v hv =>
      intro seen h
      rw [sceneObject_of_not_object hv] at h
      exact absurd rfl (h.each [] List.mem_cons_self)
  | object fields ih =>
      intro seen h hid
      rw [sceneObject_object] at h hid ⊢
      rw [editNode_object, sceneObject_object]
      by_cases hroot : idOf fields = id
      · have hfields : editFields (replaceEdit id new) fields = new := by
          rw [editFields, replaceEdit, if_pos hroot]
        rw [hfields, hnew.objectsBelow_eq_nil]
        exact ⟨⟨fields, objectsBelow fields⟩, List.mem_cons_self, hroot, .here []⟩
      · obtain ⟨hempty, hdistinct⟩ := Throughout.singleton_iff.1 h
        have hkeeps := @keepsPlace_replaceEdit id new fields hempty hroot
        have hbelow : id ∈ idsIn (objectsBelow fields) := by
          rw [idsIn_singleton] at hid
          exact (List.mem_cons.1 hid).resolve_left (Ne.symm hroot)
        rw [hkeeps.objectsBelow_eq]
        refine ReplacesIn.below ?_ (facts_editFields_of_ne hroot)
        rw [objectsBelow] at hbelow ⊢
        split
        · rename_i hframe
          rw [if_pos hframe] at hbelow
          rw [objectsBelow, if_pos hframe] at hdistinct
          exact replacesIn_of_forall ih hdistinct hbelow
        · rename_i hframe
          rw [if_neg hframe] at hbelow
          cases hbelow

/-! ## The edited document -/

variable {v : Value} {parsed : Parsed}

/-- In an accepted document the object with the id is replaced. -/
theorem replacesIn_sceneForest {items : List (String × Value)}
    (hitems : rootItems (unwrap v).2 = .ok items) (h : Acceptable [] (sceneForest v))
    (hid : id ∈ idsIn (sceneForest v)) :
    (unwrap (replaceNode id new v)).1 = (unwrap v).1 ∧
      rootItems (unwrap (replaceNode id new v)).2 = .ok (editItems (replaceEdit id new) items) ∧
      ReplacesIn id new (sceneForest v) (sceneForest (replaceNode id new v)) := by
  have hdistinct : Distinct [] (sceneForest v) := h.mono fun _ husable => husable.id_ne_empty
  have hnodes : ∀ content ∈ contents v, (replaceEdit id new).KeepsNode content := by
    refine keepsNode_of_acceptable h fun fields hfields => ?_
    by_cases heq : idOf fields = id
    · refine .inr ⟨tag, hnew.not_container, ?_⟩
      rw [editFields, replaceEdit, if_pos heq, hnew.tagOf?_eq]
    · exact .inl (keepsPlace_replaceEdit (hdistinct.each fields hfields) heq).tagOf?_eq
  obtain ⟨hedited, hforest⟩ := sceneForest_editDocument hitems hnodes
  refine ⟨by rw [replaceNode, unwrap_editDocument hnodes], hedited, ?_⟩
  rw [replaceNode, hforest]
  exact replacesIn_of_forall (fun v _ => replacesIn_editNode hnew v) hdistinct hid

end

/-! ## What is read -/

section

variable {id : String} {new : Fields} {objects objects' : List (RoseTree Fields)}

/-- The objects before and after the subtree of the one that is replaced are the same, as far as it
matters. -/
theorem ReplacesIn.exists_split (h : ReplacesIn id new objects objects') :
    ∃ old ∈ subtreesIn objects, ∃ before after, idOf old.label = id ∧
      Replaced (old.map facts) ⟨facts new, []⟩ (mapIn facts objects) (mapIn facts objects') ∧
      (labelsIn objects).map facts = before ++ (labelsIn [old]).map facts ++ after ∧
      (labelsIn objects').map facts = before ++ [facts new] ++ after := by
  obtain ⟨old, hold, hlabel, hreplaced⟩ := h
  obtain ⟨before, after, hbefore, hafter⟩ := hreplaced.labelsIn_eq
  refine ⟨old, hold, before, after, hlabel, hreplaced, ?_, ?_⟩
  · rw [← RoseTree.labelsIn_mapIn, hbefore, ← RoseTree.labelsIn_mapIn]
    rfl
  · rw [← RoseTree.labelsIn_mapIn, hafter, RoseTree.labelsIn_singleton, RoseTree.labelsIn_nil]

/-- Objects in which a usable one is replaced by another with its id stay acceptable. -/
theorem ReplacesIn.acceptable (h : ReplacesIn id new objects objects') (hid : idOf new = id)
    (hnew : Usable new) (hobjects : Acceptable [] objects) : Acceptable [] objects' := by
  obtain ⟨⟨fields, branches⟩, _, before, after, hlabel, _, hsplit, hsplit'⟩ := h.exists_split
  refine .of_nodup ?_ ?_
  · intro other hother
    have hmem : facts other ∈ before ++ [facts new] ++ after :=
      hsplit' ▸ List.mem_map_of_mem hother
    have hcases : facts other = facts new ∨ facts other ∈ (labelsIn objects).map facts := by
      rw [hsplit]
      simp only [List.mem_append, List.mem_singleton] at hmem ⊢
      rcases hmem with (hmem | hmem) | hmem
      · exact .inr (.inl (.inl hmem))
      · exact .inl hmem
      · exact .inr (.inr hmem)
    rcases hcases with heq | hold
    · exact hnew.of_facts_eq heq
    · obtain ⟨kept, hkept, heq⟩ := List.mem_map.1 hold
      exact (hobjects.each kept hkept).of_facts_eq heq.symm
  · have hnodup := hobjects.nodup_idsIn
    rw [idsIn_eq_map_facts, hsplit, RoseTree.labelsIn_singleton] at hnodup
    rw [idsIn_eq_map_facts, hsplit']
    refine hnodup.sublist ?_
    simp only [List.map_append, List.map_cons, List.map_nil]
    have hsame : (facts new).1 = (facts fields).1 := hid.trans hlabel.symm
    rw [hsame]
    exact ((List.Sublist.refl _).append ((List.nil_sublist _).cons_cons _)).append
      (List.Sublist.refl _)

end

/-! ## The scene of the edited document -/

/-- Of two readings, the second is the first with a childless placeholder in the place of a node.
The remarks on all other nodes are the same, in their order, with a warning that names the
placeholder where those about the subtree of the node were; the styles of all other nodes and the
warnings about them are the same as well. -/
structure Isolated (node : Node) (tag : String) (remark : Diagnostic) (parsed parsed' : Parsed) :
    Prop where
  name_eq : parsed'.tree.name = parsed.tree.name
  replaced : ∃ layer : Layer, layer.id = node.id ∧ layer.kind = .placeholder tag ∧
    Replaced node.tree ⟨layer, []⟩ (treesIn parsed.tree.roots) (treesIn parsed'.tree.roots)
  diagnostics : ∃ idsBefore idsAfter before after,
    (preorder parsed.tree.roots).map Entry.id = idsBefore ++ node.tree.ids ++ idsAfter ∧
      parsed.diagnostics.filter (fun d => !d.namesOneOf node.tree.ids) = before ++ after ∧
      parsed'.diagnostics = before ++ [remark] ++ after ∧
      (∀ d ∈ before, d.namesOneOf idsBefore = true) ∧ ∀ d ∈ after, d.namesOneOf idsAfter = true
  severity_eq : remark.severity = .warning
  nodeId_eq : remark.nodeId = some node.id
  styles :
    (Style.resolve (preorder parsed'.tree.roots)).filter
        (fun style => !node.tree.ids.contains style.nodeId) =
      (Style.resolve (preorder parsed.tree.roots)).filter
        fun style => !node.tree.ids.contains style.nodeId
  warnings :
    (Style.diagnostics (preorder parsed'.tree.roots)).filter
        (fun d => !d.namesOneOf node.tree.ids) =
      (Style.diagnostics (preorder parsed.tree.roots)).filter
        fun d => !d.namesOneOf node.tree.ids

/-- A node of an accepted document is read from the object with its id, with all that is below. -/
theorem Accepted.tree_eq {v : Value} {parsed : Parsed} (h : Accepted v parsed) {entry : Entry}
    (hentry : entry ∈ preorder parsed.tree.roots) {object : RoseTree Fields}
    (hobject : object ∈ subtreesIn (sceneForest v)) (hid : idOf object.label = entry.id) :
    entry.node.tree = object.map layerOf := by
  obtain ⟨other, hother, heq⟩ := h.exists_object hentry
  have hlayer : entry.layer = layerOf other.label := by
    obtain ⟨⟨layer, children⟩, _⟩ := entry
    obtain ⟨fields, branches⟩ := other
    exact congrArg RoseTree.label heq
  have hotherId : idOf other.label = entry.id := by
    rw [← (h.acceptable.each _ (List.mem_map_of_mem hother)).layerOf_spec.1, ← hlayer]
  have hnodup := h.acceptable.nodup_idsIn
  rw [idsIn, labelsIn, List.map_map] at hnodup
  rw [heq, List.inj_on_of_nodup_map hnodup hother hobject (hotherId.trans hid.symm)]

theorem Accepted.ids_eq {v : Value} {parsed : Parsed} (h : Accepted v parsed)
    {object : RoseTree Fields} (hobject : object ∈ subtreesIn (sceneForest v)) :
    (object.map layerOf).ids = idsIn [object] := by
  have hlabels : labelsIn [object.map layerOf] = (labelsIn [object]).map layerOf := by
    rw [← RoseTree.labelsIn_mapIn]
    rfl
  rw [RoseTree.ids, hlabels, List.map_map, idsIn]
  refine List.map_congr_left fun fields hfields => ?_
  exact (h.acceptable.each fields (RoseTree.labelsIn_subset hobject hfields)).layerOf_spec.1

/-- The remarks on an accepted document are those on its objects, which name their ids. -/
theorem Accepted.diagnostics_eq_flatMap {v : Value} {parsed : Parsed} (h : Accepted v parsed) :
    parsed.diagnostics = ((labelsIn (sceneForest v)).map facts).flatMap (·.2.2.notes) := by
  rw [h.diagnostics_eq, List.flatMap_map]
  rfl

/-- The remarks on an accepted document of which one object is replaced by one of a type that is not
understood. -/
theorem diagnostics_isolated {v v' : Value} {parsed parsed' : Parsed} (h : Accepted v parsed)
    (h' : Accepted v' parsed') {entry : Entry} {tag : String} {new : Fields}
    (hnew : Unknown entry.id tag new) {old : RoseTree Fields}
    (hold : old ∈ subtreesIn (sceneForest v)) (htree : entry.node.tree = old.map layerOf)
    {before after : List (String × Bool × Noted Layer)}
    (hsplit : (labelsIn (sceneForest v)).map facts =
      before ++ (labelsIn [old]).map facts ++ after)
    (hsplit' : (labelsIn (sceneForest v')).map facts = before ++ [facts new] ++ after) :
    (preorder parsed.tree.roots).map Entry.id =
        before.map Prod.fst ++ entry.node.tree.ids ++ after.map Prod.fst ∧
      parsed.diagnostics.filter (fun d => !d.namesOneOf entry.node.tree.ids) =
        before.flatMap (·.2.2.notes) ++ after.flatMap (·.2.2.notes) ∧
      parsed'.diagnostics = before.flatMap (·.2.2.notes) ++
        [unsupportedNote entry.id tag (childCount new)] ++ after.flatMap (·.2.2.notes) ∧
      (∀ d ∈ before.flatMap (·.2.2.notes), d.namesOneOf (before.map Prod.fst) = true) ∧
      ∀ d ∈ after.flatMap (·.2.2.notes), d.namesOneOf (after.map Prod.fst) = true := by
  have hids : entry.node.tree.ids = ((labelsIn [old]).map facts).map Prod.fst := by
    rw [htree, h.ids_eq hold, idsIn_eq_map_facts]
  have hall : (preorder parsed.tree.roots).map Entry.id =
      (before ++ (labelsIn [old]).map facts ++ after).map Prod.fst := by
    rw [h.map_id_preorder, idsIn_eq_map_facts, hsplit]
  have hnames : ∀ p ∈ before ++ (labelsIn [old]).map facts ++ after,
      ∀ d ∈ p.2.2.notes, d.nodeId = some p.1 := by
    rw [← hsplit]
    intro p hp d hd
    obtain ⟨fields, _, rfl⟩ := List.mem_map.1 hp
    exact nodeId_of_mem_remarksOn hd
  have hnotes : (facts new).2.2.notes = [unsupportedNote entry.id tag (childCount new)] := by
    rw [facts, hnew.reading_eq]
  refine ⟨?_, ?_, ?_, ?_, ?_⟩
  · rw [hall, hids, List.map_append, List.map_append]
  · rw [h.diagnostics_eq_flatMap, hsplit, hids]
    exact filter_flatMap_outside hnames (hall ▸ h.wellFormed.nodup_ids)
  · rw [h'.diagnostics_eq_flatMap, hsplit', List.flatMap_append, List.flatMap_append,
      List.flatMap_singleton, hnotes]
  · exact namesOneOf_of_mem_flatMap fun p hp =>
      hnames p (List.mem_append_left _ (List.mem_append_left _ hp))
  · exact namesOneOf_of_mem_flatMap fun p hp => hnames p (List.mem_append_right _ hp)

/-- If an object of an accepted document is replaced by one of a type that is not understood, only
the node that is read from it changes. -/
theorem isolated_of_replacesIn {v v' : Value} {parsed parsed' : Parsed} (h : Accepted v parsed)
    (h' : Accepted v' parsed') (hname : (unwrap v').1 = (unwrap v).1) {entry : Entry}
    (hentry : entry ∈ preorder parsed.tree.roots) {tag : String} {new : Fields}
    (hnew : Unknown entry.id tag new)
    (hreplaces : ReplacesIn entry.id new (sceneForest v) (sceneForest v')) :
    Isolated entry.node tag (unsupportedNote entry.id tag (childCount new)) parsed parsed' := by
  obtain ⟨old, hold, before, after, hlabel, hreplaced, hsplit, hsplit'⟩ := hreplaces.exists_split
  have htree : entry.node.tree = old.map layerOf := h.tree_eq hentry hold hlabel
  have hlayers : Replaced entry.node.tree ⟨placeholder entry.id tag new, []⟩
      (treesIn parsed.tree.roots) (treesIn parsed'.tree.roots) := by
    have hmap := hreplaced.map (·.2.2.value)
    rw [RoseTree.map_map, RoseTree.mapIn_mapIn, RoseTree.mapIn_mapIn] at hmap
    have hlayer : layerOf new = placeholder entry.id tag new := by rw [layerOf, hnew.reading_eq]
    rw [htree, h.treesIn_eq, h'.treesIn_eq, ← hlayer]
    exact hmap
  have hids : (⟨placeholder entry.id tag new, []⟩ : RoseTree Layer).ids ⊆ entry.node.tree.ids := by
    obtain ⟨⟨layer, children⟩, _⟩ := entry
    intro id hid
    rw [Node.tree, RoseTree.ids, RoseTree.labelsIn_singleton, List.map_cons]
    rw [List.mem_singleton.1 hid]
    exact List.mem_cons_self
  exact {
    name_eq := by rw [h'.name_eq, h.name_eq, hname]
    replaced := ⟨placeholder entry.id tag new, rfl, rfl, hlayers⟩
    diagnostics := ⟨_, _, _, _, diagnostics_isolated h h' hnew hold htree hsplit hsplit'⟩
    severity_eq := rfl
    nodeId_eq := rfl
    styles := Style.resolve_outside hlayers hids
    warnings := Style.diagnostics_outside hlayers hids }

/-- Whatever node of an accepted document is replaced by an object with its id and of a type that is
not understood, the document stays accepted, and nothing outside of the subtree of the node
changes. -/
theorem replaced_isolated {v : Value} {parsed : Parsed} (h : ofValue v = .ok parsed) {entry : Entry}
    (hentry : entry ∈ preorder parsed.tree.roots) {tag : String} {new : Fields}
    (hnew : Unknown entry.id tag new) :
    ∃ parsed', ofValue (replaceNode entry.id new v) = .ok parsed' ∧
      Isolated entry.node tag (unsupportedNote entry.id tag (childCount new)) parsed parsed' := by
  have haccepted := accepted_of_ofValue h
  obtain ⟨items, hitems⟩ := rootItems_of_ofValue h
  have hid : entry.id ∈ idsIn (sceneForest v) := by
    rw [← haccepted.map_id_preorder]
    exact List.mem_map_of_mem hentry
  obtain ⟨hname, hedited, hreplaces⟩ :=
    replacesIn_sceneForest hnew hitems haccepted.acceptable hid
  have hne : entry.id ≠ "" := haccepted.wellFormed.id_ne_empty entry hentry
  obtain ⟨parsed', hparsed', haccepted'⟩ := ofValue_of_acceptable hedited
    (hreplaces.acceptable hnew.idOf_eq (hnew.usable hne) haccepted.acceptable)
  exact ⟨parsed', hparsed',
    isolated_of_replacesIn haccepted haccepted' hname hentry hnew hreplaces⟩

/-- A gadget with the id of a frame, and with children that are no nodes. -/
def gadget : Fields :=
  [("children", .array [.bool true]), ("fills", .string "red"), ("id", .string "frame"),
    ("type", .string "GADGET")]

theorem replaced_isolated_twoPages :
    ∃ parsed entry parsed', ofValue twoPages = .ok parsed ∧ entry ∈ preorder parsed.tree.roots ∧
      entry.id = "frame" ∧ ofValue (replaceNode "frame" gadget twoPages) = .ok parsed' ∧
      Isolated entry.node "GADGET" (unsupportedNote "frame" "GADGET" 1) parsed parsed' := by
  have hgadget : Unknown "frame" "GADGET" gadget := by
    refine ⟨rfl, rfl, by decide, by decide, ?_⟩
    rintro children ⟨⟩
    exact .inr ⟨_, rfl⟩
  obtain ⟨parsed', hparsed', hisolated⟩ :=
    replaced_isolated (v := twoPages) rfl List.mem_cons_self hgadget
  exact ⟨_, _, parsed', rfl, List.mem_cons_self, rfl, hparsed', hisolated⟩

end Document

end SceneMarkup
