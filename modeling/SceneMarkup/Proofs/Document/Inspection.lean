/-
  SceneMarkup/Proofs/Document/Inspection.lean --- one object of a document by itself.

  WHAT THIS FILE IS FOR.  The inspection of an object depends on what was seen before
  only through the remark on an id that comes twice.  All else is a function of the
  object: whether it can be visited (`Identified`) and used (`Usable`), and what it is
  read as (`reading`).
-/
import SceneMarkup.Proofs.Document.Object

set_option autoImplicit false

namespace SceneMarkup.Document

open Json (Fields Value)
open Noted (NoErrors Each each_note)

/-! ## Objects with an id -/

theorem inspectClass_of_decode {id : String} {nodeClass : NodeClass} {fields : Fields}
    {source : NodeSource} (h : nodeSchema.decode (.object fields) = .ok source) :
    inspectClass id nodeClass fields =
      (layer id nodeClass source >>= fun
        | none => pure (none, some id)
        | some layer =>
            if layer.kind.frame?.isSome then pure (some layer, some id)
            else ⟨(some layer, none), cutNotes layer (childCount fields)⟩) := by
  unfold inspectClass
  split
  · rename_i hdecode
    cases hdecode.symm.trans h
  · rename_i hdecode
    cases hdecode.symm.trans h
    rfl

theorem bind_inspection {id : String} {nodeClass : NodeClass} {source : NodeSource} {built : Layer}
    (h : (layer id nodeClass source).value = some built) (count : Nat) :
    (layer id nodeClass source >>= fun
      | none => pure (none, some id)
      | some layer =>
          if layer.kind.frame?.isSome then pure (some layer, some id)
          else ⟨(some layer, none), cutNotes layer count⟩) =
      (⟨(some built, if nodeClass.isFrameLike then some id else none),
        (layer id nodeClass source).notes ++
          if nodeClass.isFrameLike then [] else cutNotes built count⟩ :
        Noted (Option Layer × Option String)) := by
  rw [Noted.bind_eq, h, ← (layer_value h).2.1.isSome_frame?]
  dsimp only
  cases built.kind.frame?.isSome <;> rfl

theorem each_cutNotes {built : Layer} {count : Nat} {P : Diagnostic → Prop}
    (h : ∀ message, P (.info built.id message)) : ∀ d ∈ cutNotes built count, P d := by
  unfold cutNotes
  split
  · exact nofun
  · exact List.forall_mem_singleton.2 (h _)

/-- Whatever is remarked on an object with an id names that id. -/
theorem each_inspectTyped (id : String) (fields : Fields) :
    (inspectTyped id fields).Each fun d => d.nodeId = some id := by
  unfold inspectTyped
  split
  · exact List.forall_mem_singleton.2 rfl
  · split
    · exact List.forall_mem_singleton.2 rfl
    · rename_i nodeClass _
      cases hdecode : nodeSchema.decode (.object fields) with
      | error mismatch =>
          rw [inspectClass, hdecode]
          exact List.forall_mem_singleton.2 rfl
      | ok source =>
          rw [inspectClass_of_decode hdecode, Noted.each_bind]
          refine ⟨fun d hd => (each_layer nodeClass source d hd).nodeId_eq, ?_⟩
          split
          · exact Noted.each_pure _
          · rename_i built hbuilt
            split
            · exact Noted.each_pure _
            · rw [← (layer_value hbuilt).1]
              exact each_cutNotes fun _ => rfl

/-- The children of an object of a frame-like type are visited, whatever is wrong with it. -/
theorem childPlace_of_isFrameLike {id : String} {fields : Fields}
    (h : isFrameLike fields = true) : (inspectTyped id fields).value.2 = some id := by
  unfold inspectTyped
  split
  · rfl
  · rename_i tag htag
    rw [isFrameLike_of_tag htag] at h
    obtain ⟨nodeClass, hclass⟩ := NodeClass.ofTag?_of_frameTags h
    rw [hclass]
    dsimp only
    cases hdecode : nodeSchema.decode (.object fields) with
    | error mismatch => rw [inspectClass, hdecode]
    | ok source =>
        rw [inspectClass_of_decode hdecode, Noted.value_bind]
        split
        · rfl
        · rename_i built hbuilt
          have hframe : built.kind.frame?.isSome = true := by
            rw [(layer_value hbuilt).2.1.isSome_frame?, NodeClass.isFrameLike_of_ofTag? hclass, h]
          rw [if_pos hframe]
          rfl

/-- What an inspection finds if nothing is wrong: a placeholder for an object of a type that is not
understood, and the layer of the class of the type for any other. -/
inductive Found (id : String) (fields : Fields) : Noted (Option Layer × Option String) → Prop
  | unknown {tag : String} (htag : tagOf? fields = some tag)
      (hclass : NodeClass.ofTag? tag = none) :
      Found id fields ⟨(some (placeholder id tag fields), none),
        [unsupportedNote id tag (childCount fields)]⟩
  | known {tag : String} {nodeClass : NodeClass} {source : NodeSource} {built : Layer}
      (htag : tagOf? fields = some tag) (hclass : NodeClass.ofTag? tag = some nodeClass)
      (hdecode : nodeSchema.decode (.object fields) = .ok source)
      (hnoErrors : (layer id nodeClass source).NoErrors)
      (hbuilt : (layer id nodeClass source).value = some built) :
      Found id fields ⟨(some built, if nodeClass.isFrameLike then some id else none),
        (layer id nodeClass source).notes ++
          if nodeClass.isFrameLike then [] else cutNotes built (childCount fields)⟩

theorem found_of_noErrors {id : String} {fields : Fields} (h : (inspectTyped id fields).NoErrors) :
    Found id fields (inspectTyped id fields) := by
  unfold inspectTyped at h ⊢
  split at h
  · cases h _ List.mem_cons_self
  · rename_i tag htag
    split at h
    · rename_i hclass
      exact .unknown htag hclass
    · rename_i nodeClass hclass
      cases hdecode : nodeSchema.decode (.object fields) with
      | error mismatch =>
          rw [inspectClass, hdecode] at h
          cases h _ List.mem_cons_self
      | ok source =>
          rw [inspectClass_of_decode hdecode] at h ⊢
          have hnoErrors : (layer id nodeClass source).NoErrors := (Noted.each_bind.1 h).1
          obtain ⟨⟨built, hbuilt, _⟩, _⟩ := layer_of_noErrors hnoErrors
          rw [bind_inspection hbuilt]
          exact .known htag hclass hdecode hnoErrors hbuilt

/-- An object with an id about which nothing is wrong has a sound layer. Its children are visited
if it is of a frame-like type, and cut off if it is not. -/
theorem inspectTyped_of_noErrors {id : String} {fields : Fields}
    (h : (inspectTyped id fields).NoErrors) :
    ∃ built, (inspectTyped id fields).value =
        (some built, if isFrameLike fields then some id else none) ∧
      built.id = id ∧ built.kind.frame?.isSome = isFrameLike fields ∧ built.Sound := by
  have hfound := found_of_noErrors h
  generalize inspectTyped id fields = found at hfound ⊢
  cases hfound with
  | @unknown tag htag hclass =>
      have hnot : tag ∉ frameTags := fun hmem =>
        NodeClass.ofTag?_eq_none_iff.1 hclass (List.mem_append_left _ hmem)
      rw [isFrameLike_of_tag htag, List.contains_eq_mem, decide_eq_false hnot]
      exact ⟨placeholder id tag fields, rfl, rfl, rfl, sound_placeholder id tag fields⟩
  | @known tag nodeClass source built htag hclass hdecode hnoErrors hbuilt =>
      obtain ⟨⟨_, hsame, hsound⟩, _⟩ := layer_of_noErrors hnoErrors
      obtain ⟨hid, hmakes, _⟩ := layer_value hbuilt
      cases hbuilt.symm.trans hsame
      rw [isFrameLike_of_tag htag, ← NodeClass.isFrameLike_of_ofTag? hclass]
      exact ⟨built, rfl, hid, hmakes.isSome_frame?, hsound⟩

/-! ## Usable objects -/

/-- The layer that an object is read as, with the remarks on it. -/
def reading (fields : Fields) : Noted Layer :=
  let found := inspectTyped (idOf fields) fields
  ⟨found.value.1.getD default, found.notes⟩

/-- The layer that an object is read as. -/
def layerOf (fields : Fields) : Layer := (reading fields).value

/-- The remarks on an object. -/
def remarksOn (fields : Fields) : Diagnostics := (reading fields).notes

/-- An object that has an id, and whose children are a list. -/
structure Identified (fields : Fields) : Prop where
  id_ne_empty : idOf fields ≠ ""
  isSome_children : (childrenOf? fields).isSome = true

/-- An object that has an id, whose children are a list, and about which nothing else is wrong. -/
structure Usable (fields : Fields) : Prop extends Identified fields where
  isError_eq_false : ∀ d ∈ remarksOn fields, d.isError = false

variable {fields : Fields}

theorem nodeId_of_mem_remarksOn {d : Diagnostic} (h : d ∈ remarksOn fields) :
    d.nodeId = some (idOf fields) :=
  each_inspectTyped (idOf fields) fields d h

namespace Usable

theorem value_eq (h : Usable fields) :
    (inspectTyped (idOf fields) fields).value =
      (some (layerOf fields), if isFrameLike fields then some (idOf fields) else none) := by
  obtain ⟨built, hvalue, _⟩ := inspectTyped_of_noErrors h.isError_eq_false
  rw [layerOf, reading, hvalue, Option.getD_some]

theorem layerOf_spec (h : Usable fields) :
    (layerOf fields).id = idOf fields ∧
      (layerOf fields).kind.frame?.isSome = isFrameLike fields ∧ (layerOf fields).Sound := by
  obtain ⟨built, hvalue, hspec⟩ := inspectTyped_of_noErrors h.isError_eq_false
  rw [layerOf, reading, hvalue, Option.getD_some]
  exact hspec

theorem isSome_tagOf? (h : Usable fields) : (tagOf? fields).isSome = true := by
  have hfound := found_of_noErrors h.isError_eq_false
  generalize inspectTyped (idOf fields) fields = found at hfound
  cases hfound with
  | unknown htag => rw [htag, Option.isSome_some]
  | known htag => rw [htag, Option.isSome_some]

end Usable

/-! ## Inspections -/

theorem inspect_of_idOf? {id : String} (h : idOf? fields = some id)
    (context : String) (seen : List String) :
    inspect context seen fields =
      ⟨(inspectTyped id fields).value.1, (inspectTyped id fields).value.2,
        if id ∈ seen then seen else id :: seen,
        childrenNotes context fields ++ duplicateNotes seen id ++
          (inspectTyped id fields).notes⟩ := by
  rw [inspect, h]

/-- Of an object with a new id and a list of children, only its own remarks are made. -/
theorem Identified.inspect_eq (h : Identified fields) {seen : List String}
    (hnew : idOf fields ∉ seen) (context : String) :
    inspect context seen fields =
      ⟨(inspectTyped (idOf fields) fields).value.1, (inspectTyped (idOf fields) fields).value.2,
        idOf fields :: seen, remarksOn fields⟩ := by
  have hid : idOf? fields = some (idOf fields) := idOf?_eq_some_iff.2 ⟨rfl, h.id_ne_empty⟩
  rw [inspect_of_idOf? hid, childrenNotes, if_pos h.isSome_children, duplicateNotes, if_neg hnew,
    if_neg hnew]
  rfl

/-- An object about which no error is reported is usable, and its id is new. -/
theorem usable_of_inspect {context : String} {seen : List String}
    (h : ∀ d ∈ (inspect context seen fields).notes, d.isError = false) :
    Usable fields ∧ idOf fields ∉ seen := by
  cases hid : idOf? fields with
  | none =>
      rw [inspect, hid] at h
      cases h _ (List.mem_append_right _ List.mem_cons_self)
  | some id =>
      obtain ⟨rfl, hne⟩ := idOf?_eq_some_iff.1 hid
      rw [inspect_of_idOf? hid, List.forall_mem_append, List.forall_mem_append] at h
      obtain ⟨⟨hchildren, hduplicate⟩, hnoErrors⟩ := h
      refine ⟨⟨⟨hne, ?_⟩, hnoErrors⟩, ?_⟩
      · unfold childrenNotes at hchildren
        split at hchildren
        · assumption
        · cases hchildren _ List.mem_cons_self
      · intro hseen
        rw [duplicateNotes, if_pos hseen] at hduplicate
        cases hduplicate _ List.mem_cons_self

end SceneMarkup.Document
