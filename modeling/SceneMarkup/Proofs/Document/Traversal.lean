/-
  SceneMarkup/Proofs/Document/Traversal.lean --- the conversion of nodes against the
  forest of their objects.

  WHAT THIS FILE IS FOR.  The conversion hands the ids it has seen from node to node.
  Over objects with ids of their own that does nothing: each object is read by itself,
  its remarks stand in order, and the ids seen grow by those of the objects
  (`convertEach_reads`).  Conversely, a conversion without errors went over usable
  objects with ids of their own (`convertEach_sound`).
-/
import SceneMarkup.Document.Parse
import SceneMarkup.Proofs.Document.Inspection

set_option autoImplicit false

namespace SceneMarkup.Document

open Json (Fields Value)
open RoseTree (labelsIn labelsIn_singleton labelsIn_append mapIn mapIn_cons mapIn_append)

/-! ## Nodes with their names in messages -/

/-- Nodes one after the other, each with what messages call it while its id is not known. -/
def convertEach (seen : List String) : List (String × Value) → Converted (List Node)
  | [] => ⟨[], seen, []⟩
  | (context, v) :: rest =>
      let first := (convertNode context seen v).toForest
      first.append (convertEach first.seen rest)

/-- Children with what messages call them, the first of them at `index`. -/
def asChildren (parent : String) (index : Nat) : List Value → List (String × Value)
  | [] => []
  | v :: rest => (childContext parent index, v) :: asChildren parent (index + 1) rest

theorem map_snd_asChildren (parent : String) (index : Nat) (items : List Value) :
    (asChildren parent index items).map Prod.snd = items := by
  induction items generalizing index with
  | nil => rfl
  | cons v rest ih => rw [asChildren, List.map_cons, ih]

theorem convertAll_eq (parent : String) (index : Nat) (seen : List String) (items : List Value) :
    convertAll parent index seen items = convertEach seen (asChildren parent index items) := by
  induction items generalizing index seen with
  | nil => rfl
  | cons v rest ih =>
      rw [convertAll, ih]
      rfl

theorem convertChildren_eq (parent : String) (seen : List String) (fields : Fields) :
    convertChildren parent seen fields =
      convertEach seen (asChildren parent 0 (childrenOf fields)) := by
  rw [← convertAll_eq]
  induction fields with
  | nil => rfl
  | cons field rest ih =>
      obtain ⟨key, v⟩ := field
      by_cases hkey : key = "children"
      · subst hkey
        rw [childrenOf_cons_children]
        cases v <;> simp only [convertChildren, convertAll, if_true]
      · rw [childrenOf_cons_other hkey, ← ih]
        cases v <;> simp only [convertChildren, hkey, if_false]

/-- The children of a node, as far as they are visited. -/
def convertBelow (place : Option String) (seen : List String) (fields : Fields) :
    Converted (List Node) :=
  match place with
  | none => ⟨[], seen, []⟩
  | some parent => convertEach seen (asChildren parent 0 (childrenOf fields))

theorem convertNode_object (context : String) (seen : List String) (fields : Fields) :
    convertNode context seen (.object fields) =
      let own := inspect context seen fields
      let below := convertBelow own.childPlace own.seen fields
      ⟨own.layer.map fun layer => ⟨layer, below.value⟩, below.seen, own.notes ++ below.notes⟩ := by
  rw [convertNode]
  dsimp only
  cases (inspect context seen fields).childPlace with
  | none => rfl
  | some parent => simp only [convertChildren_eq, convertBelow]

theorem convertEach_append (seen : List String) (first others : List (String × Value)) :
    convertEach seen (first ++ others) =
      (convertEach seen first).append (convertEach (convertEach seen first).seen others) := by
  induction first generalizing seen with
  | nil => rfl
  | cons item rest ih =>
      obtain ⟨context, v⟩ := item
      rw [List.cons_append, convertEach, ih]
      simp only [convertEach, Converted.append, List.append_assoc]

/-! ## The ids seen -/

/-- The ids of the objects of a forest. -/
def idsIn (objects : List (RoseTree Fields)) : List String := (labelsIn objects).map idOf

theorem idsIn_append (first others : List (RoseTree Fields)) :
    idsIn (first ++ others) = idsIn first ++ idsIn others := by
  rw [idsIn, labelsIn_append, List.map_append, idsIn, idsIn]

theorem idsIn_singleton (fields : Fields) (branches : List (RoseTree Fields)) :
    idsIn [⟨fields, branches⟩] = idOf fields :: idsIn branches := by
  rw [idsIn, labelsIn_singleton, List.map_cons, idsIn]

/-- The ids seen once some objects were visited, the last one first. -/
def seenAfter (seen : List String) (objects : List (RoseTree Fields)) : List String :=
  (idsIn objects).reverse ++ seen

theorem seenAfter_append (seen : List String) (first others : List (RoseTree Fields)) :
    seenAfter seen (first ++ others) = seenAfter (seenAfter seen first) others := by
  simp only [seenAfter, idsIn_append, List.reverse_append, List.append_assoc]

theorem seenAfter_singleton (seen : List String) (fields : Fields)
    (branches : List (RoseTree Fields)) :
    seenAfter seen [⟨fields, branches⟩] = seenAfter (idOf fields :: seen) branches := by
  simp only [seenAfter, idsIn_singleton, List.reverse_cons, List.append_assoc,
    List.singleton_append]

/-- All objects of a forest have a property, and the ids seen in the end are all different. -/
structure Throughout (P : Fields → Prop) (seen : List String) (objects : List (RoseTree Fields)) :
    Prop where
  each : ∀ fields ∈ labelsIn objects, P fields
  nodup : (seenAfter seen objects).Nodup

namespace Throughout

variable {P Q : Fields → Prop} {seen : List String}

theorem nil (h : seen.Nodup) : Throughout P seen [] :=
  ⟨fun _ hmem => absurd hmem List.not_mem_nil, h⟩

theorem mono {objects : List (RoseTree Fields)} (hPQ : ∀ fields, P fields → Q fields)
    (h : Throughout P seen objects) : Throughout Q seen objects :=
  ⟨fun fields hfields => hPQ fields (h.each fields hfields), h.nodup⟩

theorem nodup_seen {objects : List (RoseTree Fields)} (h : Throughout P seen objects) :
    seen.Nodup :=
  h.nodup.sublist (List.sublist_append_right _ _)

theorem nodup_idsIn {objects : List (RoseTree Fields)} (h : Throughout P seen objects) :
    (idsIn objects).Nodup :=
  (List.reverse_perm _).nodup_iff.1 (h.nodup.sublist (List.sublist_append_left _ _))

/-- The ids of the objects are new. -/
theorem not_mem_idsIn {objects : List (RoseTree Fields)} (h : Throughout P seen objects)
    {id : String} (hseen : id ∈ seen) : id ∉ idsIn objects := fun hid =>
  (List.nodup_append.1 h.nodup).2.2 id (List.mem_reverse.2 hid) id hseen rfl

theorem of_nodup {objects : List (RoseTree Fields)} (heach : ∀ fields ∈ labelsIn objects, P fields)
    (hnodup : (idsIn objects).Nodup) : Throughout P [] objects := by
  refine ⟨heach, ?_⟩
  rw [seenAfter, List.append_nil]
  exact (List.reverse_perm _).nodup_iff.2 hnodup

theorem append_iff {first others : List (RoseTree Fields)} :
    Throughout P seen (first ++ others) ↔
      Throughout P seen first ∧ Throughout P (seenAfter seen first) others := by
  constructor
  · rintro ⟨heach, hnodup⟩
    rw [labelsIn_append, List.forall_mem_append] at heach
    rw [seenAfter_append] at hnodup
    have hothers : Throughout P (seenAfter seen first) others := ⟨heach.2, hnodup⟩
    exact ⟨⟨heach.1, hothers.nodup_seen⟩, hothers⟩
  · rintro ⟨hfirst, hothers⟩
    refine ⟨?_, by rw [seenAfter_append]; exact hothers.nodup⟩
    rw [labelsIn_append, List.forall_mem_append]
    exact ⟨hfirst.each, hothers.each⟩

theorem singleton_iff {fields : Fields} {branches : List (RoseTree Fields)} :
    Throughout P seen [⟨fields, branches⟩] ↔
      P fields ∧ Throughout P (idOf fields :: seen) branches := by
  constructor
  · rintro ⟨heach, hnodup⟩
    rw [labelsIn_singleton, List.forall_mem_cons] at heach
    rw [seenAfter_singleton] at hnodup
    exact ⟨heach.1, heach.2, hnodup⟩
  · rintro ⟨hroot, hbelow⟩
    refine ⟨?_, by rw [seenAfter_singleton]; exact hbelow.nodup⟩
    rw [labelsIn_singleton, List.forall_mem_cons]
    exact ⟨hroot, hbelow.each⟩

end Throughout

/-! ## Reading objects -/

/-- An object that has an id and a list of children, and is visited as its type says: whatever it
is not visited for is not there. -/
structure Regular (fields : Fields) : Prop extends Identified fields where
  visited : (inspectTyped (idOf fields) fields).value.2 =
      (if isFrameLike fields then some (idOf fields) else none) ∨ childrenOf fields = []

theorem Usable.regular {fields : Fields} (h : Usable fields) : Regular fields :=
  ⟨h.toIdentified, .inl (by rw [h.value_eq])⟩

/-- What a conversion found is what the objects are read as: their ids were seen, the remarks on
each were made in order, and if all can be used, their layers were built. -/
structure Reads (seen : List String) (objects : List (RoseTree Fields))
    (found : Converted (List Node)) : Prop where
  seen_eq : found.seen = seenAfter seen objects
  notes_eq : found.notes = (labelsIn objects).flatMap remarksOn
  trees_eq : (∀ fields ∈ labelsIn objects, Usable fields) →
    treesIn found.value = mapIn layerOf objects

namespace Reads

theorem nil (seen : List String) : Reads seen [] ⟨[], seen, []⟩ :=
  ⟨rfl, rfl, fun _ => rfl⟩

theorem append {seen : List String} {first others : List (RoseTree Fields)}
    {a b : Converted (List Node)} (ha : Reads seen first a) (hb : Reads a.seen others b) :
    Reads seen (first ++ others) (a.append b) where
  seen_eq := by rw [seenAfter_append, ← ha.seen_eq]; exact hb.seen_eq
  notes_eq := by
    rw [labelsIn_append, List.flatMap_append, ← ha.notes_eq, ← hb.notes_eq]
    rfl
  trees_eq := by
    intro husable
    rw [labelsIn_append, List.forall_mem_append] at husable
    rw [mapIn_append, ← ha.trees_eq husable.1, ← hb.trees_eq husable.2, ← treesIn_append]
    rfl

end Reads

/-- The objects of a forest can be visited one after the other. -/
abbrev Visitable (seen : List String) (objects : List (RoseTree Fields)) : Prop :=
  Throughout Regular seen objects

/-- Nodes are read one after the other if each is read by itself. -/
theorem convertEach_reads_of_forall {items : List (String × Value)} {values : List Value}
    (hvalues : items.map Prod.snd = values)
    (hnode : ∀ v ∈ values, ∀ context seen, Visitable seen [sceneObject v] →
      Reads seen [sceneObject v] (convertNode context seen v).toForest)
    {seen : List String} (h : Visitable seen (sceneObjectsIn values)) :
    Reads seen (sceneObjectsIn values) (convertEach seen items) := by
  subst hvalues
  induction items generalizing seen with
  | nil => exact .nil seen
  | cons item rest ih =>
      obtain ⟨context, v⟩ := item
      rw [List.map_cons, List.forall_mem_cons] at hnode
      rw [List.map_cons, sceneObjectsIn, ← List.singleton_append] at h ⊢
      obtain ⟨hv, hrest⟩ := Throughout.append_iff.1 h
      have hfirst := hnode.1 context seen hv
      rw [← hfirst.seen_eq] at hrest
      exact hfirst.append (ih hnode.2 hrest)

/-- The children of a node are read if each is read by itself. -/
theorem convertBelow_reads {fields : Fields} (hroot : Regular fields)
    (hchild : ∀ child ∈ childrenOf fields, ∀ context seen, Visitable seen [sceneObject child] →
      Reads seen [sceneObject child] (convertNode context seen child).toForest)
    {seen : List String} (h : Visitable seen (objectsBelow fields)) :
    Reads seen (objectsBelow fields)
      (convertBelow (inspectTyped (idOf fields) fields).value.2 seen fields) := by
  rw [objectsBelow] at h ⊢
  rcases hroot.visited with hvisited | hnone
  · rw [hvisited]
    split at h
    · rename_i hframe
      rw [if_pos hframe, if_pos hframe, convertBelow]
      exact convertEach_reads_of_forall (map_snd_asChildren _ 0 _) hchild h
    · rename_i hframe
      rw [if_neg hframe, if_neg hframe]
      exact .nil seen
  · have hobjects :
        (if isFrameLike fields then sceneObjectsIn (childrenOf fields) else []) = [] := by
      rw [hnone]
      exact ite_self _
    rw [hobjects]
    cases (inspectTyped (idOf fields) fields).value.2 with
    | none => exact .nil seen
    | some parent =>
        rw [convertBelow, hnone]
        exact .nil seen

/-- A node is read as its objects say, if they can be visited. -/
theorem convertNode_reads (v : Value) : ∀ (context : String) (seen : List String),
    Visitable seen [sceneObject v] →
      Reads seen [sceneObject v] (convertNode context seen v).toForest := by
  induction v using node_induction with
  | other v hv =>
      intro context seen h
      rw [sceneObject_of_not_object hv] at h
      exact absurd rfl (h.each [] List.mem_cons_self).id_ne_empty
  | object fields ih =>
      intro context seen h
      rw [sceneObject_object] at h ⊢
      obtain ⟨hroot, hchildren⟩ := Throughout.singleton_iff.1 h
      have hnew : idOf fields ∉ seen := (List.nodup_cons.1 hchildren.nodup_seen).1
      have hbelow := convertBelow_reads hroot ih hchildren
      rw [convertNode_object, hroot.inspect_eq hnew context]
      refine ⟨?_, ?_, ?_⟩
      · rw [seenAfter_singleton]
        exact hbelow.seen_eq
      · rw [labelsIn_singleton, List.flatMap_cons, ← hbelow.notes_eq]
        rfl
      · intro husable
        rw [labelsIn_singleton, List.forall_mem_cons] at husable
        rw [mapIn_cons, ← hbelow.trees_eq husable.2, husable.1.value_eq]
        rfl

/-- Nodes are read as their objects say, if they can be visited. -/
theorem convertEach_reads {seen : List String} {items : List (String × Value)}
    (h : Visitable seen (sceneObjectsIn (items.map Prod.snd))) :
    Reads seen (sceneObjectsIn (items.map Prod.snd)) (convertEach seen items) :=
  convertEach_reads_of_forall rfl (fun v _ => convertNode_reads v) h

/-! ## Conversions without errors -/

/-- The objects of a forest can all be used. -/
abbrev Acceptable (seen : List String) (objects : List (RoseTree Fields)) : Prop :=
  Throughout Usable seen objects

/-- Nodes that were converted without an error have acceptable objects, if that holds of each. -/
theorem convertEach_sound_of_forall {items : List (String × Value)} {values : List Value}
    (hvalues : items.map Prod.snd = values)
    (hnode : ∀ v ∈ values, ∀ context seen, seen.Nodup →
      (∀ d ∈ (convertNode context seen v).notes, d.isError = false) →
        Acceptable seen [sceneObject v])
    {seen : List String} (hseen : seen.Nodup)
    (h : ∀ d ∈ (convertEach seen items).notes, d.isError = false) :
    Acceptable seen (sceneObjectsIn values) := by
  subst hvalues
  induction items generalizing seen with
  | nil => exact .nil hseen
  | cons item rest ih =>
      obtain ⟨context, v⟩ := item
      rw [List.map_cons, List.forall_mem_cons] at hnode
      obtain ⟨hv, hrest⟩ := List.forall_mem_append.1 h
      have hfirst := hnode.1 context seen hseen hv
      have hseen' :=
        (convertNode_reads v context seen (hfirst.mono fun _ => Usable.regular)).seen_eq
      rw [hseen'] at hrest
      have hothers := ih hfirst.nodup hrest hnode.2
      rw [List.map_cons, sceneObjectsIn, ← List.singleton_append]
      exact Throughout.append_iff.2 ⟨hfirst, hothers⟩

/-- A node that was converted without an error has acceptable objects. -/
theorem convertNode_sound (v : Value) : ∀ (context : String) (seen : List String), seen.Nodup →
    (∀ d ∈ (convertNode context seen v).notes, d.isError = false) →
      Acceptable seen [sceneObject v] := by
  induction v using node_induction with
  | other v hv =>
      intro context seen _ h
      have hnotes : (convertNode context seen v).notes =
          [.error none (context ++ ": expected a node object")] := by
        cases v with
        | object fields => exact absurd rfl (hv fields)
        | _ => rfl
      rw [hnotes] at h
      cases h _ List.mem_cons_self
  | object fields ih =>
      intro context seen hseen h
      rw [convertNode_object] at h
      obtain ⟨hown, hbelow⟩ := List.forall_mem_append.1 h
      obtain ⟨husable, hnew⟩ := usable_of_inspect hown
      rw [husable.inspect_eq hnew context, husable.value_eq] at hbelow
      have hseen' : (idOf fields :: seen).Nodup := List.nodup_cons.2 ⟨hnew, hseen⟩
      have hchildren : Acceptable (idOf fields :: seen) (objectsBelow fields) := by
        rw [objectsBelow]
        split at hbelow
        · rename_i hframe
          rw [if_pos hframe]
          exact convertEach_sound_of_forall (map_snd_asChildren _ 0 _) ih hseen' hbelow
        · rename_i hframe
          rw [if_neg hframe]
          exact .nil hseen'
      rw [sceneObject_object]
      exact Throughout.singleton_iff.2 ⟨husable, hchildren⟩

/-- Nodes that were converted without an error have acceptable objects. -/
theorem convertEach_sound {seen : List String} {items : List (String × Value)}
    (hseen : seen.Nodup) (h : ∀ d ∈ (convertEach seen items).notes, d.isError = false) :
    Acceptable seen (sceneObjectsIn (items.map Prod.snd)) :=
  convertEach_sound_of_forall rfl (fun v _ => convertNode_sound v) hseen h

end SceneMarkup.Document
