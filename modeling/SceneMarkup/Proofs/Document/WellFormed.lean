/-
  SceneMarkup/Proofs/Document/WellFormed.lean --- what holds of every scene that is read
  from a document.

  WHAT THIS FILE IS FOR.  The parts of the program that follow the reading of a document
  rely on its ids being different, on texts being within bounds and on only frames
  having children.  That is a property of the scene alone (`SceneTree.WellFormed`), and
  acceptance of the document is enough for it.
-/
import SceneMarkup.Proofs.Document.Content

set_option autoImplicit false

namespace SceneMarkup

open RoseTree (labelsIn mapIn subtreesIn)

/-- All nodes of a scene have ids of their own, only frames and instances have children, sizes are
not negative, and the styles of texts are within bounds. -/
structure SceneTree.WellFormed (tree : SceneTree) : Prop where
  id_ne_empty : ∀ entry ∈ preorder tree.roots, entry.id ≠ ""
  nodup_ids : ((preorder tree.roots).map Entry.id).Nodup
  isSome_frame? : ∀ entry ∈ preorder tree.roots,
    entry.node.children ≠ [] → entry.layer.kind.frame?.isSome = true
  sound : ∀ entry ∈ preorder tree.roots, entry.layer.Sound

theorem treesIn_ne_nil {nodes : List Node} (h : nodes ≠ []) : treesIn nodes ≠ [] := by
  cases nodes with
  | nil => exact absurd rfl h
  | cons node rest => rw [treesIn]; exact List.cons_ne_nil _ _

namespace Document

open Json (Value)

/-- Only below objects of frame-like types there are objects. -/
theorem isFrameLike_of_mem_sceneForest {v : Value} {object : RoseTree Json.Fields}
    (h : object ∈ subtreesIn (sceneForest v)) (hne : object.branches ≠ []) :
    isFrameLike object.label = true := by
  rw [sceneForest, sceneObjectsIn_eq_map] at h
  obtain ⟨root, hroot, hobject⟩ := RoseTree.exists_mem_of_mem_subtreesIn h
  obtain ⟨content, _, rfl⟩ := List.mem_map.1 hroot
  exact isFrameLike_of_branches_ne_nil hobject hne

namespace Accepted

variable {v : Value} {parsed : Parsed}

/-- Every node of an accepted document is an object of it, with all that is below it. -/
theorem exists_object (h : Accepted v parsed) {entry : Entry}
    (hentry : entry ∈ preorder parsed.tree.roots) :
    ∃ object ∈ subtreesIn (sceneForest v), entry.node.tree = object.map layerOf := by
  have htree : entry.node.tree ∈ subtreesIn (treesIn parsed.tree.roots) := by
    rw [← map_tree_entriesIn none 0 0]
    exact List.mem_map_of_mem hentry
  rw [h.treesIn_eq, RoseTree.subtreesIn_mapIn] at htree
  obtain ⟨object, hobject, heq⟩ := List.mem_map.1 htree
  exact ⟨object, hobject, heq.symm⟩

/-- The ids of an accepted document are those of its objects. -/
theorem map_id_preorder (h : Accepted v parsed) :
    (preorder parsed.tree.roots).map Entry.id = idsIn (sceneForest v) := by
  have hids : (preorder parsed.tree.roots).map Entry.id =
      ((preorder parsed.tree.roots).map Entry.layer).map Layer.id := by
    rw [List.map_map]
    rfl
  rw [hids, preorder, map_layer_entriesIn, h.treesIn_eq, RoseTree.labelsIn_mapIn, List.map_map]
  exact List.map_congr_left fun fields hfields =>
    (h.acceptable.each fields hfields).layerOf_spec.1

/-- Every object of an accepted document is a node of its scene. -/
theorem exists_entry (h : Accepted v parsed) {fields : Json.Fields}
    (hfields : fields ∈ labelsIn (sceneForest v)) :
    ∃ entry ∈ preorder parsed.tree.roots,
      entry.layer = layerOf fields ∧ entry.id = idOf fields := by
  have hlayer : layerOf fields ∈ (preorder parsed.tree.roots).map Entry.layer := by
    rw [preorder, map_layer_entriesIn, h.treesIn_eq, RoseTree.labelsIn_mapIn]
    exact List.mem_map_of_mem hfields
  obtain ⟨entry, hentry, heq⟩ := List.mem_map.1 hlayer
  exact ⟨entry, hentry, heq,
    (congrArg Layer.id heq).trans (h.acceptable.each fields hfields).layerOf_spec.1⟩

theorem wellFormed (h : Accepted v parsed) : parsed.tree.WellFormed where
  id_ne_empty := by
    intro entry hentry
    have hid : entry.id ∈ (preorder parsed.tree.roots).map Entry.id := List.mem_map_of_mem hentry
    rw [h.map_id_preorder] at hid
    obtain ⟨fields, hfields, heq⟩ := List.mem_map.1 hid
    rw [← heq]
    exact (h.acceptable.each fields hfields).id_ne_empty
  nodup_ids := by
    rw [h.map_id_preorder]
    exact h.acceptable.nodup_idsIn
  isSome_frame? := by
    intro entry hentry hchildren
    obtain ⟨⟨fields, branches⟩, hobject, heq⟩ := h.exists_object hentry
    obtain ⟨⟨layer, children⟩, _⟩ := entry
    rw [Node.tree, RoseTree.map, RoseTree.mk.injEq] at heq
    have hbranches : branches ≠ [] := by
      rintro rfl
      exact treesIn_ne_nil hchildren heq.2
    have husable := h.acceptable.each fields (List.mem_map_of_mem hobject)
    show layer.kind.frame?.isSome = true
    rw [heq.1, husable.layerOf_spec.2.1]
    exact isFrameLike_of_mem_sceneForest hobject hbranches
  sound := by
    intro entry hentry
    obtain ⟨⟨fields, branches⟩, hobject, heq⟩ := h.exists_object hentry
    obtain ⟨⟨layer, children⟩, _⟩ := entry
    rw [Node.tree, RoseTree.map, RoseTree.mk.injEq] at heq
    have husable := h.acceptable.each fields (List.mem_map_of_mem hobject)
    show layer.Sound
    rw [heq.1]
    exact husable.layerOf_spec.2.2

end Accepted

/-- The scene of every accepted document is well formed, and no remark on it is an error. -/
theorem wellFormed_of_ofValue {v : Value} {parsed : Parsed} (h : ofValue v = .ok parsed) :
    parsed.tree.WellFormed ∧ ∀ d ∈ parsed.diagnostics, d.severity ≠ .error := by
  have haccepted := accepted_of_ofValue h
  refine ⟨haccepted.wellFormed, fun d hd herror => ?_⟩
  rw [haccepted.diagnostics_eq, List.mem_flatMap] at hd
  obtain ⟨fields, hfields, hd⟩ := hd
  have hnot := (haccepted.acceptable.each fields hfields).isError_eq_false d hd
  rw [Diagnostic.isError, herror] at hnot
  cases hnot

/-! ## An example -/

/-- A box of a given size. -/
def boxOf (width height : Int) : Value :=
  .object [("height", .ofInt height), ("width", .ofInt width), ("x", .ofInt 0), ("y", .ofInt 0)]

/-- An envelope around a document with two pages: a frame with a text and a widget, and a shape. -/
def twoPages : Value :=
  .object [("document", .object
    [("children", .array
      [.object [("children", .array
          [.object [("absoluteBoundingBox", boxOf 80 40),
            ("children", .array
              [.object [("absoluteBoundingBox", boxOf 30 10), ("characters", .string "Hi"),
                  ("characterStyleOverrides", .array [.ofInt 1, .ofInt 0, .ofInt 1]),
                  ("id", .string "text"),
                  ("style", .object [("fontFamily", .string "Inter"), ("fontSize", .ofInt 16),
                    ("fontWeight", .ofInt 400)]),
                  ("styleOverrideRanges", .array [.object
                    [("end", .ofInt 9), ("start", .ofInt 1), ("styleId", .ofInt 1)]]),
                  ("styleOverrideTable", .object [("1", .object [("italic", .bool true)])]),
                  ("type", .string "TEXT")],
                .object [("absoluteBoundingBox", boxOf (-5) 5),
                  ("children", .array [.object [("id", .string "lost")], .null]),
                  ("id", .string "widget"), ("type", .string "WIDGET")]]),
            ("id", .string "frame"), ("type", .string "FRAME")]]),
          ("type", .string "CANVAS")],
        .object [("children", .array
          [.object [("absoluteBoundingBox", boxOf 5 5), ("children", .array [.null]),
            ("id", .string "shape"), ("type", .string "ELLIPSE")]]),
          ("type", .string "PAGE")]]),
      ("type", .string "DOCUMENT")]),
    ("name", .string "Sample")]

theorem wellFormed_of_ofValue_twoPages :
    ∃ parsed, ofValue twoPages = .ok parsed ∧ parsed.tree.WellFormed ∧
      ∀ d ∈ parsed.diagnostics, d.severity ≠ .error := by
  obtain ⟨parsed, hparsed⟩ : ∃ parsed, ofValue twoPages = .ok parsed := ⟨_, rfl⟩
  exact ⟨parsed, hparsed, wellFormed_of_ofValue hparsed⟩

end Document

end SceneMarkup
