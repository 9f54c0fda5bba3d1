/-
  SceneMarkup/Proofs/Document/Damage.lean --- documents in which some nodes are damaged.

  WHAT THIS FILE IS FOR.  A node is damaged if a field that it needs is removed, or a
  field gets a value that it cannot have.  Damage leaves the place of the node alone, so
  that all nodes are visited as before, and what is wrong is reported of the damaged
  nodes and of no others, in the order of the document (`damaged_rejected`).
-/
import SceneMarkup.Proofs.Document.Edit
import SceneMarkup.Proofs.Document.Kinds
import SceneMarkup.Proofs.Document.WellFormed

set_option autoImplicit false

namespace SceneMarkup

/-! ## Fields -/

namespace Json.Fields

/-- `fields` without those called `key`. -/
def erase (fields : Fields) (key : String) : Fields := fields.filter fun field => field.1 != key

theorem ne_of_mem_erase {fields : Fields} {key : String} :
    ∀ field ∈ erase fields key, field.1 ≠ key := by
  intro field hfield
  exact bne_iff_ne.1 (List.mem_filter.1 hfield).2

theorem get?_erase_of_ne {fields : Fields} {key other : String} (h : other ≠ key) :
    (erase fields key).get? other = fields.get? other := by
  induction fields with
  | nil => rfl
  | cons field rest ih =>
      obtain ⟨k, v⟩ := field
      rw [erase] at ih ⊢
      by_cases hkey : k = key
      · have hother : k ≠ other := fun heq => h (heq ▸ hkey)
        rw [List.filter_cons_of_neg (by simpa using hkey), ih, get?, if_neg hother]
      · rw [List.filter_cons_of_pos (by simpa using hkey), get?, get?, ih]

theorem get?_insert_of_ne {fields : Fields} {key other : String} (h : other ≠ key) (v : Value) :
    (insert fields key v).get? other = fields.get? other := by
  induction fields with
  | nil => exact if_neg (Ne.symm h)
  | cons field rest ih =>
      obtain ⟨k, v'⟩ := field
      rw [insert]
      split
      · rw [get?, get?, ih]
      · split
        · rename_i heq
          rw [get?, get?, heq, if_neg (Ne.symm h), if_neg (Ne.symm h)]
        · rw [get?, if_neg (Ne.symm h)]

theorem mem_insert (fields : Fields) (key : String) (v : Value) : (key, v) ∈ insert fields key v :=
  mem_of_get? (get?_insert_self fields key v)

end Json.Fields

/-! ## Ids of remarks -/

namespace Diagnostics

variable {α : Type}

/-- `ids` with an id at the end, unless it is there. -/
def mention (ids : List String) (id : String) : List String := if id ∈ ids then ids else ids ++ [id]

theorem foldl_mention_replicate {ids : List String} {id : String} (n : Nat) (h : id ∉ ids) :
    (List.replicate n id).foldl mention ids = if n = 0 then ids else ids ++ [id] := by
  cases n with
  | zero => rfl
  | succ n =>
      have hsame : ∀ m, (List.replicate m id).foldl mention (ids ++ [id]) = ids ++ [id] := by
        intro m
        induction m with
        | zero => rfl
        | succ m ih =>
            rw [List.replicate_succ, List.foldl_cons, mention,
              if_pos (List.mem_append_right _ List.mem_cons_self), ih]
      rw [List.replicate_succ, List.foldl_cons, mention, if_neg h, hsame,
        if_neg (Nat.succ_ne_zero n)]

theorem filterMap_nodeId_eq_replicate {ds : Diagnostics} {id : String}
    (h : ∀ d ∈ ds, d.nodeId = some id) : ds.filterMap (·.nodeId) = List.replicate ds.length id := by
  induction ds with
  | nil => rfl
  | cons d rest ih =>
      rw [List.forall_mem_cons] at h
      rw [List.filterMap_cons_some h.1, ih h.2, List.length_cons, List.replicate_succ]

/-- If all remarks on an item name its id, and the ids are different, the ids that are named are
those of the items with remarks, in order. -/
theorem nodeIds_flatMap {items : List α} {id : α → String} {remarks : α → Diagnostics}
    (hnames : ∀ a ∈ items, ∀ d ∈ remarks a, d.nodeId = some (id a))
    (hnodup : (items.map id).Nodup) :
    nodeIds (items.flatMap remarks) = (items.filter fun a => !(remarks a).isEmpty).map id := by
  have hfold : ∀ ids : List String, (∀ a ∈ items, id a ∉ ids) →
      ((items.flatMap remarks).filterMap (·.nodeId)).foldl mention ids =
        ids ++ (items.filter fun a => !(remarks a).isEmpty).map id := by
    induction items with
    | nil => exact fun ids _ => (List.append_nil ids).symm
    | cons a rest ih =>
        intro ids hnew
        rw [List.forall_mem_cons] at hnames hnew
        rw [List.map_cons, List.nodup_cons] at hnodup
        rw [List.flatMap_cons, List.filterMap_append, List.foldl_append,
          filterMap_nodeId_eq_replicate hnames.1, foldl_mention_replicate _ hnew.1]
        cases hremarks : remarks a with
        | nil =>
            rw [List.filter_cons_of_neg (by rw [hremarks]; decide)]
            exact ih hnames.2 hnodup.2 ids hnew.2
        | cons d others =>
            have hlater : ∀ b ∈ rest, id b ∉ ids ++ [id a] := by
              intro b hb
              rw [List.mem_append, List.mem_singleton, not_or]
              exact ⟨hnew.2 b hb, fun heq => hnodup.1 (heq ▸ List.mem_map_of_mem hb)⟩
            rw [List.filter_cons_of_pos (by rw [hremarks]; rfl), List.length_cons,
              if_neg (Nat.succ_ne_zero _), ih hnames.2 hnodup.2 _ hlater, List.map_cons,
              List.append_assoc, List.singleton_append]
  exact hfold [] fun _ _ => List.not_mem_nil

end Diagnostics

namespace Document

open Json (Fields Value)
open RoseTree (labelsIn mapIn)

/-! ## Damage -/

/-- The fields that say which node it is and what is below it. -/
def placeKeys : List String := ["id", "type", "children"]

/-- What is done to the fields of a node. -/
inductive Damage where
  | remove (key : String)
  | set (key : String) (value : Value)
  deriving Repr, Inhabited

namespace Damage

/-- The field that is removed or set. -/
def key : Damage → String
  | remove key => key
  | set key _ => key

/-- The fields of a damaged node. -/
def apply : Damage → Fields → Fields
  | remove key, fields => fields.erase key
  | set key value, fields => fields.insert key value

/-- What makes a node of a kind unusable: its box is removed; of a text, the characters or the style
are removed; or a field is set to a value of a kind that it cannot have, or to a value that it
refuses for what is inside. -/
inductive Fits : NodeKind → Damage → Prop
  | box {kind : NodeKind} : kind.isPlaceholder = false → Fits kind (remove "absoluteBoundingBox")
  | characters (text : TextBlock) : Fits (.text text) (remove "characters")
  | style (text : TextBlock) : Fits (.text text) (remove "style")
  | kind {kind : NodeKind} {key : String} {kinds : List String} {value : Value} :
      kind.isPlaceholder = false → (key, kinds) ∈ fieldKinds → value.kind ∉ kinds →
        Fits kind (set key value)
  | refused {kind : NodeKind} {field : Json.Field NodeSource} {value : Value} :
      kind.isPlaceholder = false → field ∈ nodeSchema.fields → field.Refuses value →
        Fits kind (set field.key value)

theorem get?_apply {damage : Damage} {key : String} (h : key ≠ damage.key) (fields : Fields) :
    (damage.apply fields).get? key = fields.get? key := by
  cases damage with
  | remove removed => exact Fields.get?_erase_of_ne h
  | set given value => exact Fields.get?_insert_of_ne h value

theorem not_mem_placeKeys_of_schema : ∀ field ∈ nodeSchema.fields, field.key ∉ placeKeys := by
  have hnone : ∀ key ∈ placeKeys, nodeSchema.fields.find? (·.key == key) = none := by
    simp only [placeKeys, List.forall_mem_cons]
    exact ⟨rfl, rfl, rfl, nofun⟩
  intro field hfield hkey
  exact List.find?_eq_none.1 (hnone _ hkey) field hfield (beq_self_eq_true _)

namespace Fits

variable {kind : NodeKind} {damage : Damage}

theorem isPlaceholder_eq_false (h : Fits kind damage) : kind.isPlaceholder = false := by
  cases h with
  | box hkind => exact hkind
  | characters text => rfl
  | style text => rfl
  | kind hkind => exact hkind
  | refused hkind => exact hkind

/-- A set value is refused. -/
theorem exists_field {key : String} {value : Value} (h : Fits kind (set key value)) :
    ∃ field, field.key = key ∧ nodeSchema.fields.find? (·.key == key) = some field ∧
      field.Refuses value := by
  cases h with
  | kind _ hkinds hkind =>
      obtain ⟨field, hfield, hrefuses⟩ := exists_field_of_mem_fieldKinds _ hkinds
      exact ⟨field, by simpa using List.find?_some hfield, hfield, hrefuses value hkind⟩
  | refused _ hfield hrefuses => exact ⟨_, rfl, find?_nodeSchema _ hfield, hrefuses⟩

theorem key_not_mem_placeKeys (h : Fits kind damage) : damage.key ∉ placeKeys := by
  cases damage with
  | remove key => cases h <;> exact of_decide_eq_true rfl
  | set key value =>
      obtain ⟨field, rfl, hfield, _⟩ := h.exists_field
      exact not_mem_placeKeys_of_schema field (List.mem_of_find?_eq_some hfield)

theorem get?_apply_of_mem_placeKeys (h : Fits kind damage) {key : String} (hkey : key ∈ placeKeys)
    (fields : Fields) : (damage.apply fields).get? key = fields.get? key :=
  get?_apply (fun heq => h.key_not_mem_placeKeys (heq ▸ hkey)) fields

end Fits

end Damage

/-! ## A damaged node -/

/-- A usable object that is not read as a placeholder is of a type that is understood. -/
theorem Usable.exists_class {fields : Fields} (h : Usable fields)
    (hkind : (layerOf fields).kind.isPlaceholder = false) :
    ∃ tag nodeClass, tagOf? fields = some tag ∧ NodeClass.ofTag? tag = some nodeClass ∧
      nodeClass.Makes (layerOf fields).kind := by
  have hvalue := congrArg Prod.fst h.value_eq
  have hfound := found_of_noErrors h.isError_eq_false
  generalize inspectTyped (idOf fields) fields = found at hfound hvalue
  cases hfound with
  | unknown htag hclass =>
      rw [← Option.some.inj hvalue] at hkind
      cases hkind
  | known htag hclass hdecode hnoErrors hbuilt =>
      rw [← Option.some.inj hvalue]
      exact ⟨_, _, htag, hclass, (layer_value hbuilt).2.1⟩

theorem tagOf?_apply {kind : NodeKind} {damage : Damage} (h : damage.Fits kind) (fields : Fields) :
    tagOf? (damage.apply fields) = tagOf? fields := by
  rw [tagOf?, h.get?_apply_of_mem_placeKeys (by decide), ← tagOf?]

/-- An object without a field that its class requires has an error: without a box, or, of a text,
without characters or style. -/
theorem not_noErrors_of_remove {id : String} {fields : Fields} {nodeClass : NodeClass}
    {kind : NodeKind} (hmakes : nodeClass.Makes kind) {source : NodeSource} {key : String}
    (hfits : Damage.Fits kind (.remove key))
    (hdecode : nodeSchema.decode (.object (fields.erase key)) = .ok source) :
    ¬ (layer id nodeClass source).NoErrors := by
  intro hnoErrors
  obtain ⟨_, hbounds, htext⟩ := layer_of_noErrors hnoErrors
  have habsent : ∀ field ∈ Fields.erase fields key, field.1 ≠ key := Fields.ne_of_mem_erase
  cases hfits with
  | box =>
      have hnone : source.bounds = none := Json.Schema.part_of_decode
        (fun field hfield => (part_nodeSchema field hfield).1) habsent hdecode
      rw [hnone] at hbounds
      cases hbounds
  | characters text =>
      cases hmakes
      have hnone : source.characters = none := Json.Schema.part_of_decode
        (fun field hfield => (part_nodeSchema field hfield).2.1) habsent hdecode
      have hsome := (htext rfl).1
      rw [hnone] at hsome
      cases hsome
  | style text =>
      cases hmakes
      have hnone : source.style = none := Json.Schema.part_of_decode
        (fun field hfield => (part_nodeSchema field hfield).2.2) habsent hdecode
      have hsome := (htext rfl).2
      rw [hnone] at hsome
      cases hsome

/-- A damaged node has an error. -/
theorem exists_error_of_fits {fields : Fields} (h : Usable fields) {damage : Damage}
    (hfits : damage.Fits (layerOf fields).kind) :
    ∃ d ∈ remarksOn (damage.apply fields), d.isError = true := by
  refine Classical.byContradiction fun hnone => ?_
  have hclean : (inspectTyped (idOf (damage.apply fields)) (damage.apply fields)).NoErrors := by
    intro d hd
    rw [← Bool.not_eq_true]
    exact fun herror => hnone ⟨d, hd, herror⟩
  obtain ⟨tag, nodeClass, htag, hclass, hmakes⟩ := h.exists_class hfits.isPlaceholder_eq_false
  have hfound := found_of_noErrors hclean
  generalize inspectTyped (idOf (damage.apply fields)) (damage.apply fields) = found at hfound
  cases hfound with
  | unknown htag' hclass' =>
      rw [tagOf?_apply hfits, htag] at htag'
      cases htag'
      rw [hclass] at hclass'
      cases hclass'
  | known htag' hclass' hdecode hnoErrors hbuilt =>
      rw [tagOf?_apply hfits, htag] at htag'
      cases htag'
      cases hclass.symm.trans hclass'
      cases damage with
      | remove key => exact not_noErrors_of_remove hmakes hfits hdecode hnoErrors
      | set key value =>
          obtain ⟨field, rfl, hfield, hrefuses⟩ := hfits.exists_field
          obtain ⟨mismatch, hmismatch⟩ :=
            Json.Schema.decode_of_refuses hfield hrefuses (Fields.mem_insert fields field.key value)
          cases hdecode.symm.trans hmismatch

/-! ## A damaged document -/

/-- The edit that damages nodes. -/
def damageEdit (damage : String → Option Damage) : Edit := fun id fields =>
  match damage id with
  | none => fields
  | some damage => damage.apply fields

/-- A document with some nodes damaged. -/
def damaged (damage : String → Option Damage) (v : Value) : Value :=
  editDocument (damageEdit damage) v

variable {damage : String → Option Damage}

/-- An object can be damaged: it is usable, and the damage to it fits what it is. -/
structure Damageable (damage : String → Option Damage) (fields : Fields) : Prop where
  usable : Usable fields
  fits : ∀ d, damage (idOf fields) = some d → d.Fits (layerOf fields).kind

namespace Damageable

variable {fields : Fields}

theorem keepsPlace (h : Damageable damage fields) : (damageEdit damage).KeepsPlace fields := by
  have hkeeps : ∀ key ∈ placeKeys, ∀ other,
      (damageEdit damage (idOf fields) other).get? key = other.get? key := by
    intro key hkey other
    cases hdamage : damage (idOf fields) with
    | none => rw [damageEdit, hdamage]
    | some d => rw [damageEdit, hdamage, (h.fits d hdamage).get?_apply_of_mem_placeKeys hkey]
  exact ⟨h.usable.id_ne_empty, hkeeps "id" (by decide), hkeeps "type" (by decide),
    hkeeps "children" (by decide)⟩

/-- The edit leaves an object readable as before that is not damaged itself. -/
theorem remarksOn_of_none (hnone : damage (idOf fields) = none) :
    remarksOn (editFields (damageEdit damage) fields) = remarksOn fields := by
  have hfields : editFields (damageEdit damage) fields =
      editedBelow (damageEdit damage) fields := by
    rw [editFields, damageEdit, hnone]
  have hfacts := congrArg (·.2.2.notes) (facts_editedBelow (damageEdit damage) fields)
  rw [hfields]
  exact hfacts

/-- The edit leaves an error in an object that is damaged. -/
theorem exists_error (h : Damageable damage fields) {d : Damage}
    (hsome : damage (idOf fields) = some d) :
    ∃ remark ∈ remarksOn (editFields (damageEdit damage) fields), remark.isError = true := by
  have hfacts := facts_editedBelow (damageEdit damage) fields
  have husable : Usable (editedBelow (damageEdit damage) fields) := h.usable.of_facts_eq hfacts
  have hlayer : layerOf (editedBelow (damageEdit damage) fields) = layerOf fields :=
    congrArg (·.2.2.value) hfacts
  have hfits := h.fits d hsome
  rw [← hlayer] at hfits
  have hfields : editFields (damageEdit damage) fields =
      d.apply (editedBelow (damageEdit damage) fields) := by
    rw [editFields, damageEdit, hsome]
  rw [hfields]
  exact exists_error_of_fits husable hfits

theorem regular (h : Damageable damage fields)
    (hleaf : isFrameLike fields = false → childrenOf fields = []) :
    Regular (editFields (damageEdit damage) fields) where
  id_ne_empty := by
    rw [h.keepsPlace.idOf_eq]
    exact h.usable.id_ne_empty
  isSome_children := by
    rw [h.keepsPlace.childrenOf?_eq]
    exact (congrArg (·.2.1) (facts_editedBelow (damageEdit damage) fields)).trans
      h.usable.isSome_children
  visited := by
    cases hframe : isFrameLike fields with
    | true =>
        rw [← h.keepsPlace.isFrameLike_eq] at hframe
        rw [childPlace_of_isFrameLike hframe, if_pos hframe]
        exact .inl rfl
    | false =>
        have hbelow : editedBelow (damageEdit damage) fields = fields := by
          rw [editedBelow, hframe]
          rfl
        rw [childrenOf, h.keepsPlace.childrenOf?_eq, hbelow, ← childrenOf]
        exact .inr (hleaf hframe)

end Damageable

/-- The errors of an object of a damaged document. -/
def errorsOf (damage : String → Option Damage) (fields : Fields) : Diagnostics :=
  (remarksOn (editFields (damageEdit damage) fields)).filter Diagnostic.isError

section

variable {v : Value} {parsed : Parsed} (h : ofValue v = .ok parsed)
  (hleaf : ∀ fields ∈ labelsIn (sceneForest v), isFrameLike fields = false → childrenOf fields = [])
  (hdamage : ∀ fields ∈ labelsIn (sceneForest v), Damageable damage fields)

include h hleaf hdamage in
/-- All objects of a damaged document are visited. -/
theorem visitable_damaged : ∃ items, rootItems (unwrap (damaged damage v)).2 = .ok items ∧
    sceneForest (damaged damage v) = mapIn (editFields (damageEdit damage)) (sceneForest v) ∧
    Visitable [] (sceneForest (damaged damage v)) := by
  obtain ⟨items, hitems⟩ := rootItems_of_ofValue h
  have hacceptable := (accepted_of_ofValue h).acceptable
  obtain ⟨hedited, hforest⟩ := sceneForest_of_keepsPlace hitems hacceptable
    fun fields hfields => (hdamage fields hfields).keepsPlace
  refine ⟨_, hedited, hforest, .of_nodup ?_ ?_⟩
  · intro edited hmem
    rw [damaged, hforest, RoseTree.labelsIn_mapIn] at hmem
    obtain ⟨fields, hfields, rfl⟩ := List.mem_map.1 hmem
    exact (hdamage fields hfields).regular (hleaf fields hfields)
  · have hids : idsIn (sceneForest (damaged damage v)) = idsIn (sceneForest v) := by
      rw [damaged, hforest, idsIn, RoseTree.labelsIn_mapIn, List.map_map]
      exact List.map_congr_left fun fields hfields => (hdamage fields hfields).keepsPlace.idOf_eq
    rw [hids]
    exact hacceptable.nodup_idsIn

include h hdamage in
/-- Damaged objects have errors, and no other objects have. -/
theorem isEmpty_errorsOf : ∀ fields ∈ labelsIn (sceneForest v),
    (!(errorsOf damage fields).isEmpty) = (damage (idOf fields)).isSome := by
  intro fields hfields
  rw [errorsOf]
  cases hid : damage (idOf fields) with
  | none =>
      have hnone : (remarksOn fields).filter Diagnostic.isError = [] :=
        List.filter_eq_nil_iff.2 fun d hd => by
          rw [((accepted_of_ofValue h).acceptable.each fields hfields).isError_eq_false d hd]
          exact Bool.false_ne_true
      rw [Damageable.remarksOn_of_none hid, hnone]
      rfl
  | some d =>
      obtain ⟨remark, hremark, herror⟩ := (hdamage fields hfields).exists_error hid
      rw [Option.isSome_some, Bool.not_eq_true', ← Bool.not_eq_true, List.isEmpty_iff]
      exact List.ne_nil_of_mem (List.mem_filter.2 ⟨hremark, herror⟩)

include h hleaf hdamage in
/-- A damaged document is rejected with the errors of its objects. -/
theorem ofValue_damaged (hsome : ∃ fields ∈ labelsIn (sceneForest v),
    (damage (idOf fields)).isSome = true) :
    ofValue (damaged damage v) =
      .error (.invalid ((labelsIn (sceneForest v)).flatMap (errorsOf damage))) := by
  obtain ⟨items, hitems, hforest, hvisitable⟩ := visitable_damaged h hleaf hdamage
  have herrors : ((labelsIn (sceneForest (damaged damage v))).flatMap remarksOn).filter
      Diagnostic.isError = (labelsIn (sceneForest v)).flatMap (errorsOf damage) := by
    rw [hforest, RoseTree.labelsIn_mapIn, List.flatMap_map, List.filter_flatMap]
    rfl
  rw [← herrors]
  refine ofValue_eq_invalid hitems hvisitable ?_
  obtain ⟨fields, hfields, hisSome⟩ := hsome
  obtain ⟨d, hd⟩ := Option.isSome_iff_exists.1 hisSome
  refine ⟨editFields (damageEdit damage) fields, ?_, (hdamage fields hfields).exists_error hd⟩
  rw [hforest, RoseTree.labelsIn_mapIn]
  exact List.mem_map_of_mem hfields

end

/-- If in an accepted document only frame-like nodes have children, and some of its nodes are
damaged, each in a way that fits what it is, the document is rejected. The errors are about the
damaged nodes, each of which is named, in the order of the document. -/
theorem damaged_rejected {v : Value} {parsed : Parsed} (h : ofValue v = .ok parsed)
    (hleaf : ∀ fields ∈ labelsIn (sceneForest v),
      isFrameLike fields = false → childrenOf fields = [])
    (damage : String → Option Damage)
    (hfits : ∀ entry ∈ preorder parsed.tree.roots, ∀ d, damage entry.id = some d →
      d.Fits entry.layer.kind)
    (hsome : ∃ entry ∈ preorder parsed.tree.roots, (damage entry.id).isSome = true) :
    ∃ errors : Diagnostics, ofValue (damaged damage v) = .error (.invalid errors) ∧
      errors.nodeIds =
        ((preorder parsed.tree.roots).map Entry.id).filter (fun id => (damage id).isSome) ∧
      ∀ d ∈ errors, d.severity = .error ∧
        ∃ entry ∈ preorder parsed.tree.roots,
          (damage entry.id).isSome = true ∧ d.nodeId = some entry.id := by
  have haccepted := accepted_of_ofValue h
  have hdamage : ∀ fields ∈ labelsIn (sceneForest v), Damageable damage fields := by
    intro fields hfields
    obtain ⟨entry, hentry, hlayer, hid⟩ := haccepted.exists_entry hfields
    refine ⟨haccepted.acceptable.each fields hfields, fun d hd => ?_⟩
    rw [← hlayer]
    exact hfits entry hentry d (hid ▸ hd)
  have hnames : ∀ fields ∈ labelsIn (sceneForest v), ∀ d ∈ errorsOf damage fields,
      d.nodeId = some (idOf fields) := by
    intro fields hfields d hd
    rw [nodeId_of_mem_remarksOn (List.mem_filter.1 hd).1,
      (hdamage fields hfields).keepsPlace.idOf_eq]
  refine ⟨_, ofValue_damaged h hleaf hdamage ?_, ?_, ?_⟩
  · obtain ⟨entry, hentry, hisSome⟩ := hsome
    have hid : entry.id ∈ (preorder parsed.tree.roots).map Entry.id := List.mem_map_of_mem hentry
    rw [haccepted.map_id_preorder] at hid
    obtain ⟨fields, hfields, heq⟩ := List.mem_map.1 hid
    exact ⟨fields, hfields, heq ▸ hisSome⟩
  · rw [Diagnostics.nodeIds_flatMap hnames haccepted.acceptable.nodup_idsIn,
      haccepted.map_id_preorder, idsIn, List.filter_map,
      List.filter_congr (isEmpty_errorsOf h hdamage)]
    rfl
  · intro d hd
    obtain ⟨fields, hfields, hd⟩ := List.mem_flatMap.1 hd
    obtain ⟨entry, hentry, _, hid⟩ := haccepted.exists_entry hfields
    refine ⟨eq_of_beq (List.mem_filter.1 hd).2, entry, hentry, ?_, ?_⟩
    · rw [hid, ← isEmpty_errorsOf h hdamage fields hfields, Bool.not_eq_true', ← Bool.not_eq_true,
        List.isEmpty_iff]
      exact List.ne_nil_of_mem hd
    · rw [hid]
      exact hnames fields hfields d hd

/-! ## An example -/

/-- A frame with a text, a copy of a component around a shape, and a widget. -/
def oneFrame : Value :=
  .array [.object [("absoluteBoundingBox", boxOf 80 40),
    ("children", .array
      [.object [("absoluteBoundingBox", boxOf 30 10), ("characters", .string "Hi"),
          ("id", .string "text"),
          ("style", .object [("fontFamily", .string "Inter"), ("fontSize", .ofInt 16),
            ("fontWeight", .ofInt 400)]),
          ("type", .string "TEXT")],
        .object [("absoluteBoundingBox", boxOf 20 20),
          ("children", .array
            [.object [("absoluteBoundingBox", boxOf 5 5), ("id", .string "dot"),
              ("type", .string "ELLIPSE")]]),
          ("id", .string "copy"), ("type", .string "INSTANCE")],
        .object [("id", .string "widget"), ("type", .string "WIDGET")]]),
    ("id", .string "frame"), ("type", .string "FRAME")]]

/-- A name that is a number, a text without its style, and fills that are a text. -/
def threeDamages (id : String) : Option Damage :=
  match id with
  | "frame" => some (.set "name" (.ofInt 5))
  | "text" => some (.remove "style")
  | "dot" => some (.set "fills" (.string "red"))
  | _ => none

theorem damaged_rejected_oneFrame :
    ∃ errors : Diagnostics, ofValue (damaged threeDamages oneFrame) = .error (.invalid errors) ∧
      errors.nodeIds = ["frame", "text", "dot"] := by
  have hleaf : ∀ fields ∈ labelsIn (sceneForest oneFrame),
      isFrameLike fields = false → childrenOf fields = [] := by
    refine List.forall_mem_cons.2 ⟨?_, List.forall_mem_cons.2 ⟨?_, List.forall_mem_cons.2 ⟨?_,
      List.forall_mem_cons.2 ⟨?_, List.forall_mem_cons.2 ⟨?_, ?_⟩⟩⟩⟩⟩
    · exact nofun
    · exact fun _ => rfl
    · exact nofun
    · exact fun _ => rfl
    · exact fun _ => rfl
    · exact nofun
  refine Exists.imp (fun errors h => ⟨h.1, h.2.1⟩)
    (damaged_rejected (v := oneFrame) rfl hleaf threeDamages ?_ ?_)
  · refine List.forall_mem_cons.2 ⟨?_, List.forall_mem_cons.2 ⟨?_, List.forall_mem_cons.2 ⟨?_,
      List.forall_mem_cons.2 ⟨?_, List.forall_mem_cons.2 ⟨?_, ?_⟩⟩⟩⟩⟩
    · rintro d ⟨⟩
      exact @Damage.Fits.kind _ _ ["a string"] _ rfl (by decide) (by decide)
    · rintro d ⟨⟩
      exact .style _
    · exact nofun
    · rintro d ⟨⟩
      exact @Damage.Fits.kind _ _ ["an array"] _ rfl (by decide) (by decide)
    · exact nofun
    · exact nofun
  · exact ⟨_, List.mem_cons_self, rfl⟩

end Document

end SceneMarkup
